import Mathlib.Algebra.BigOperators.Group.List.Basic
import Mathlib.Algebra.GroupWithZero.Nat
import Mathlib.Data.List.AList

/-!
# Sums over a table

A table maps keys to entries. The lemmas say what removing or replacing an
entry does to a sum over all of them.
-/

namespace Table

variable {κ β : Type*} [DecidableEq κ] {table : AList fun _ : κ => β} {key : κ} {old : β}

/-- The sum of a quantity over the entries. -/
def total (f : β → ℕ) (table : AList fun _ : κ => β) : ℕ :=
  (table.entries.map fun entry => f entry.2).sum

theorem total_erase (f : β → ℕ) (h : table.lookup key = some old) :
    total f (table.erase key) + f old = total f table := by
  have hmem : key ∈ table := AList.lookup_isSome.mp (h ▸ rfl)
  obtain ⟨own, before, behind, -, hentries, herased⟩ := List.exists_of_kerase hmem
  have hown : table.lookup key = some own := by
    rw [← Option.mem_def, AList.mem_lookup_iff, hentries]
    simp
  obtain rfl := Option.some.inj (hown.symm.trans h)
  have hrest : (table.erase key).entries = before ++ behind := herased
  simp only [total, hentries, hrest, List.map_append, List.map_cons, List.sum_append,
    List.sum_cons]
  omega

theorem total_insert (f : β → ℕ) (h : table.lookup key = some old) (new : β) :
    total f (table.insert key new) + f old = total f table + f new := by
  have herased := total_erase f h
  have hinsert : total f (table.insert key new) = f new + total f (table.erase key) := by
    simp only [total, AList.entries_insert, List.map_cons, List.sum_cons]
    rfl
  omega

end Table
