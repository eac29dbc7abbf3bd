import Mathlib.Data.List.Infix
import Mathlib.Data.Nat.Notation

/-!
# Searching a list for a pattern

`find pattern l` is the first position at which `pattern` stands in `l`. What is
found stays found when more elements arrive behind, and a list that is cut at
every occurrence of a separator is the list of its pieces with the separator put
between them.
-/

namespace Search

variable {α : Type*} [DecidableEq α]

/-- The first position at which the pattern stands. -/
def find (pattern l : List α) : Option ℕ :=
  l.tails.findIdx? fun tail => decide (pattern <+: tail)

/-- The first position at or behind `start`. -/
def findFrom (pattern l : List α) (start : ℕ) : Option ℕ :=
  (find pattern (l.drop start)).map (start + ·)

variable {pattern l : List α} {i : ℕ}

theorem find_eq_some : find pattern l = some i ↔
    i ≤ l.length ∧ pattern <+: l.drop i ∧ ∀ j < i, ¬ pattern <+: l.drop j := by
  rw [find, List.findIdx?_eq_some_iff_getElem]
  simp only [List.length_tails, List.getElem_tails, decide_eq_true_eq, Nat.lt_succ_iff,
    exists_prop]

theorem find_eq_none : find pattern l = none ↔ ∀ j ≤ l.length, ¬ pattern <+: l.drop j := by
  rw [find, List.findIdx?_eq_none_iff]
  simp only [List.mem_tails, decide_eq_false_iff_not]
  constructor
  · intro h j _
    exact h _ (List.drop_suffix j l)
  · rintro h tail ⟨front, rfl⟩
    simpa using h front.length (by simp)

theorem find_add_length_le (h : find pattern l = some i) : i + pattern.length ≤ l.length := by
  obtain ⟨hlen, hat, -⟩ := find_eq_some.mp h
  have hle := hat.length_le
  rw [List.length_drop] at hle
  omega

/-- What is found is found again at the same position in a longer list. -/
theorem find_append (h : find pattern l = some i) (more : List α) :
    find pattern (l ++ more) = some i := by
  have hroom := find_add_length_le h
  obtain ⟨hlen, hat, hbefore⟩ := find_eq_some.mp h
  refine find_eq_some.mpr ⟨by rw [List.length_append]; omega, ?_, fun j hj hfound => ?_⟩
  · rw [List.drop_append_of_le_length hlen]
    exact hat.trans (List.prefix_append _ _)
  · rw [List.drop_append_of_le_length (by omega)] at hfound
    refine hbefore j hj (List.prefix_of_prefix_length_le hfound (List.prefix_append _ _) ?_)
    rw [List.length_drop]
    omega

/-- A beginning that holds the first occurrence is enough to find it. -/
theorem find_take {n : ℕ} (h : find pattern l = some i) (hn : i + pattern.length ≤ n) :
    find pattern (l.take n) = some i := by
  have hroom := find_add_length_le h
  obtain ⟨hlen, hat, hbefore⟩ := find_eq_some.mp h
  refine find_eq_some.mpr ⟨by rw [List.length_take]; omega, ?_, fun j hj hfound => ?_⟩
  · rw [List.drop_take]
    refine List.prefix_take_iff.mpr ⟨hat, by omega⟩
  · rw [List.drop_take] at hfound
    exact hbefore j hj (hfound.trans (List.take_prefix _ _))

/-- In a shorter beginning there is nothing to find. -/
theorem find_take_eq_none {n : ℕ} (h : find pattern l = some i) (hn : n < i + pattern.length) :
    find pattern (l.take n) = none := by
  have hroom := find_add_length_le h
  obtain ⟨-, -, hbefore⟩ := find_eq_some.mp h
  refine find_eq_none.mpr fun j hj hfound => ?_
  rw [List.drop_take] at hfound
  obtain ⟨hat, hlen⟩ := List.prefix_take_iff.mp hfound
  rw [List.length_take] at hj
  exact hbefore j (by omega) hat

/-- Where the pattern does not stand, the search goes on behind. -/
theorem find_cons {a : α} (h : ¬ pattern <+: a :: l) :
    find pattern (a :: l) = (find pattern l).map (· + 1) := by
  rw [find, List.tails_cons, List.findIdx?_cons, decide_eq_false h]
  rfl

/-- A front without the first element of the pattern is passed over. -/
theorem find_append_of_notMem {a : α} (pattern : List α) {front : List α} (h : a ∉ front)
    (rest : List α) :
    find (a :: pattern) (front ++ rest) =
      (find (a :: pattern) rest).map (front.length + ·) := by
  induction front with
  | nil => simp
  | cons b front ih =>
      have hne : ¬ a :: pattern <+: b :: (front ++ rest) := by
        rintro ⟨tail, htail⟩
        refine h ?_
        rw [(List.cons.inj htail).1]
        exact List.mem_cons_self
      rw [List.cons_append, find_cons hne, ih fun hmem => h (List.mem_cons_of_mem b hmem),
        Option.map_map, List.length_cons]
      congr 1
      funext i
      simp only [Function.comp_apply]
      omega

/-- No end of the pattern is a beginning of it. -/
def Unbordered (pattern : List α) : Prop :=
  ∀ k < pattern.length, 0 < k → ¬ pattern.drop k <+: pattern

instance (pattern : List α) : Decidable (Unbordered pattern) :=
  inferInstanceAs (Decidable (∀ k < _, _))

/-- Where a list without the pattern ends and the pattern begins, it is found. -/
theorem find_append_pattern {front : List α} (hborder : Unbordered pattern)
    (hnone : find pattern front = none) (rest : List α) :
    find pattern (front ++ (pattern ++ rest)) = some front.length := by
  refine find_eq_some.mpr ⟨by simp, by simp, fun j hj hfound => ?_⟩
  rw [List.drop_append_of_le_length hj.le] at hfound
  by_cases hinside : pattern.length ≤ (front.drop j).length
  · exact find_eq_none.mp hnone j hj.le
      (List.prefix_of_prefix_length_le hfound (List.prefix_append _ _) hinside)
  · -- the occurrence would run into the pattern behind it
    have hshort : (front.drop j).length < pattern.length := not_le.mp hinside
    have hpos : 0 < (front.drop j).length := by
      rw [List.length_drop]
      omega
    refine hborder _ hshort hpos ?_
    obtain ⟨tail, htail⟩ := hfound
    have hdrop : pattern.drop (front.drop j).length ++ tail = pattern ++ rest := by
      rw [← List.drop_append_of_le_length hshort.le, htail, List.drop_left]
    refine List.prefix_of_prefix_length_le ⟨tail, hdrop⟩ (List.prefix_append _ _) ?_
    rw [List.length_drop]
    omega

/-- Every list is made of pieces without the separator. -/
theorem exists_pieces {separator : List α} (hne : separator ≠ []) (l : List α) :
    ∃ (first : List α) (pieces : List (List α)),
      l = first ++ pieces.flatMap (separator ++ ·) ∧ find separator first = none ∧
      ∀ piece ∈ pieces, find separator piece = none := by
  induction hn : l.length using Nat.strong_induction_on generalizing l with
  | _ n ih =>
      cases hfind : find separator l with
      | none => exact ⟨l, [], by simp, hfind, by simp⟩
      | some i =>
          have hroom := find_add_length_le hfind
          have hpos : 0 < separator.length := List.length_pos_iff.mpr hne
          obtain ⟨hlen, ⟨rest, hrest⟩, -⟩ := find_eq_some.mp hfind
          have hsize : rest.length < n := by
            have hlength := congrArg List.length hrest
            rw [List.length_append, List.length_drop] at hlength
            omega
          obtain ⟨first, pieces, rfl, hfirst, hpieces⟩ := ih _ hsize rest rfl
          refine ⟨l.take i, first :: pieces, ?_, find_take_eq_none hfind (by omega), ?_⟩
          · rw [List.flatMap_cons, List.append_assoc, hrest, List.take_append_drop]
          · intro piece hpiece
            rcases List.mem_cons.mp hpiece with rfl | hpiece
            · exact hfirst
            · exact hpieces piece hpiece

end Search
