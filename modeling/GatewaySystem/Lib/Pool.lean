import Mathlib.Algebra.Order.Group.Multiset
import Mathlib.Tactic.Abel

/-!
# Pools of workers

A pool is a list with one entry for each worker. A step of one worker replaces
its entry; the lemmas say what that does to a quantity collected over the
whole pool.
-/

namespace Pool

variable {α β : Type*} {pool : List α}

/-- An entry after a replacement is the new one or was there before. -/
theorem getElem?_set {i j : ℕ} {new found : α} (h : (pool.set i new)[j]? = some found) :
    i = j ∧ found = new ∨ i ≠ j ∧ pool[j]? = some found := by
  rw [List.getElem?_set] at h
  split at h
  · next heq =>
      split at h
      · exact .inl ⟨heq, (Option.some.inj h).symm⟩
      · cases h
  · next hne => exact .inr ⟨hne, h⟩

/-- Replacing an entry exchanges what it contributes to a collection. -/
theorem filterMap_set (f : α → Option β) {i : ℕ} {old : α} (h : pool[i]? = some old) (new : α) :
    (((pool.set i new).filterMap f : List β) : Multiset β) + ((f old).toList : Multiset β) =
      (pool.filterMap f : Multiset β) + ((f new).toList : Multiset β) := by
  induction pool generalizing i with
  | nil => simp at h
  | cons head tail ih =>
      have hcons : ∀ (a : α) (rest : List α), (((a :: rest).filterMap f : List β) : Multiset β) =
          ((f a).toList : Multiset β) + (rest.filterMap f : Multiset β) := by
        intro a rest
        cases hfa : f a with
        | none => simp [hfa]
        | some b => simp [hfa]
      cases i with
      | zero =>
          obtain rfl : head = old := by simpa using h
          rw [List.set_cons_zero, hcons, hcons]
          abel
      | succ i =>
          have htail := ih (by simpa using h)
          rw [List.set_cons_succ, hcons, hcons, add_assoc, htail, add_assoc]

theorem mem_filterMap_set (f : α → Option β) {i : ℕ} {old : α} (h : pool[i]? = some old) (new : α)
    (b : β) :
    b ∈ (pool.set i new).filterMap f ∨ f old = some b ↔
      b ∈ pool.filterMap f ∨ f new = some b := by
  have hset := congrArg (b ∈ ·) (filterMap_set f h new)
  simpa only [Multiset.mem_add, Multiset.mem_coe, Option.mem_toList, Option.mem_def, eq_iff_iff]
    using hset

/-- Replacing an entry changes a count by what the two entries count for. -/
theorem countP_set (p : α → Bool) {i : ℕ} {old : α} (h : pool[i]? = some old) (new : α) :
    (pool.set i new).countP p + (if p old then 1 else 0) =
      pool.countP p + (if p new then 1 else 0) := by
  obtain ⟨hlt, rfl⟩ := List.getElem?_eq_some_iff.mp h
  have hle : (if p pool[i] then 1 else 0) ≤ pool.countP p := by
    split
    · next hp => exact List.countP_pos_iff.mpr ⟨pool[i], List.getElem_mem hlt, hp⟩
    · exact Nat.zero_le _
  rw [List.countP_set hlt]
  omega

/-- Replacing an entry changes a sum by what the two entries add to it. -/
theorem sum_set (f : α → ℕ) {i : ℕ} {old : α} (h : pool[i]? = some old) (new : α) :
    ((pool.set i new).map f).sum + f old = (pool.map f).sum + f new := by
  induction pool generalizing i with
  | nil => simp at h
  | cons head tail ih =>
      cases i with
      | zero =>
          obtain rfl : head = old := by simpa using h
          simp only [List.set_cons_zero, List.map_cons, List.sum_cons]
          omega
      | succ i =>
          have htail := ih (by simpa using h)
          simp only [List.set_cons_succ, List.map_cons, List.sum_cons]
          omega

end Pool
