import Mathlib.Algebra.Order.Monoid.Defs
import Mathlib.Algebra.Order.Monoid.Unbundled.Basic
import Mathlib.Data.List.Count
import Mathlib.Tactic.Common

/-!
# A counter that expires

Things that happen are counted. The first one starts a counter that expires
after `window`, whatever happens in between, and the first one after that starts
the next counter. `expiries` are the times at which the counters of a history
expire, and `counted` is what has happened since the last of them; `standing`
says the same of a counter that is kept and advanced step by step.

Histories are newest first.
-/

namespace ExpiringCounter

variable {T : Type*} [AddCommMonoid T] [LinearOrder T]

/-- The times at which the counters expire. What happens while a counter stands
does not start another one. -/
def expiries (window : T) : List T → List T
  | [] => []
  | time :: earlier =>
      if ∃ expiry ∈ expiries window earlier, time < expiry then expiries window earlier
      else (time + window) :: expiries window earlier

/-- How much has happened since the last counter expired. -/
def counted (window : T) (history : List T) (now : T) : ℕ :=
  history.countP fun time => ∀ expiry ∈ expiries window history, expiry ≤ now → expiry ≤ time

/-- The counter that has not expired: what it has counted, and when it expires. -/
def standing (window : T) (history : List T) (now : T) : Option (ℕ × T) :=
  ((expiries window history).find? fun expiry => now < expiry).map fun expiry =>
    (counted window history now, expiry)

variable {window now later time expiry expiry' : T} {history : List T}

theorem expiries_cons_of_standing (h : expiry ∈ expiries window history) (hlt : time < expiry) :
    expiries window (time :: history) = expiries window history := if_pos ⟨expiry, h, hlt⟩

theorem expiries_cons_of_expired (h : ∀ expiry ∈ expiries window history, expiry ≤ time) :
    expiries window (time :: history) = (time + window) :: expiries window history :=
  if_neg fun ⟨expiry, hexpiry, hlt⟩ => hlt.not_ge (h expiry hexpiry)

/-- At most one counter stands at a time after the history. -/
theorem expiry_unique (hpast : ∀ time ∈ history, time ≤ now)
    (h : expiry ∈ expiries window history) (hlt : now < expiry)
    (h' : expiry' ∈ expiries window history) (hlt' : now < expiry') : expiry = expiry' := by
  induction history with
  | nil => cases h
  | cons time earlier ih =>
      have hearlier : ∀ time ∈ earlier, time ≤ now := fun t ht => hpast t (.tail _ ht)
      by_cases hstanding : ∃ expiry ∈ expiries window earlier, time < expiry
      · rw [expiries, if_pos hstanding] at h h'
        exact ih hearlier h h'
      · rw [expiries, if_neg hstanding] at h h'
        have hnew : ∀ e ∈ (time + window) :: expiries window earlier, now < e →
            e = time + window := by
          intro e he hnow
          rcases List.mem_cons.mp he with rfl | he
          · rfl
          · exact absurd ⟨e, he, (hpast time (.head _)).trans_lt hnow⟩ hstanding
        rw [hnew expiry h hlt, hnew expiry' h' hlt']

theorem standing_eq_some (hpast : ∀ time ∈ history, time ≤ now)
    (h : expiry ∈ expiries window history) (hlt : now < expiry) :
    standing window history now = some (counted window history now, expiry) := by
  have hfind : (expiries window history).find? (fun expiry => now < expiry) = some expiry := by
    cases hfound : (expiries window history).find? fun expiry => decide (now < expiry) with
    | none =>
        have hnone := List.find?_eq_none.mp hfound expiry h
        exact absurd (decide_eq_true hlt) hnone
    | some found =>
        have hnow : now < found := by simpa using List.find?_some hfound
        rw [expiry_unique hpast h hlt (List.mem_of_find?_eq_some hfound) hnow]
  rw [standing, hfind, Option.map_some]

theorem standing_eq_none (h : ∀ expiry ∈ expiries window history, expiry ≤ now) :
    standing window history now = none := by
  have hfind : (expiries window history).find? (fun expiry => now < expiry) = none :=
    List.find?_eq_none.mpr fun expiry hexpiry hlt =>
      (of_decide_eq_true hlt).not_ge (h expiry hexpiry)
  rw [standing, hfind, Option.map_none]

/-- Either a counter stands or all have expired. -/
theorem standing_or_expired (window : T) (history : List T) (now : T) :
    (∃ expiry ∈ expiries window history, now < expiry) ∨
      ∀ expiry ∈ expiries window history, expiry ≤ now := by
  by_cases h : ∃ expiry ∈ expiries window history, now < expiry
  · exact .inl h
  · exact .inr fun expiry hexpiry => le_of_not_gt fun hlt => h ⟨expiry, hexpiry, hlt⟩

/-- While a counter stands, what it has counted changes only with the history. -/
theorem counted_later (hpast : ∀ time ∈ history, time ≤ now) (hle : now ≤ later)
    (h : expiry ∈ expiries window history) (hlt : later < expiry) :
    counted window history later = counted window history now := by
  refine List.countP_congr fun time _ => ?_
  have hpassed : ∀ e ∈ expiries window history, e ≤ later → e ≤ now := by
    intro e he helater
    by_contra hnow
    obtain rfl := expiry_unique hpast h (hle.trans_lt hlt) he (not_le.mp hnow)
    exact hlt.not_ge helater
  simp only [decide_eq_true_eq]
  exact ⟨fun hsince e he henow => hsince e he (henow.trans hle),
    fun hsince e he helater => hsince e he (hpassed e he helater)⟩

theorem standing_later (hpast : ∀ time ∈ history, time ≤ now) (hle : now ≤ later) :
    standing window history later =
      (standing window history now).filter fun counter => later < counter.2 := by
  have hpast' : ∀ time ∈ history, time ≤ later := fun time ht => (hpast time ht).trans hle
  rcases standing_or_expired window history now with ⟨expiry, hexpiry, hlt⟩ | hexpired
  · rw [standing_eq_some hpast hexpiry hlt]
    by_cases hlater : later < expiry
    · rw [standing_eq_some hpast' hexpiry hlater, counted_later hpast hle hexpiry hlater,
        Option.filter_some_pos (by simpa using hlater)]
    · rw [Option.filter_some_neg (by simpa using hlater)]
      refine standing_eq_none fun e he => le_of_not_gt fun helater => hlater ?_
      rwa [expiry_unique hpast hexpiry hlt he (hle.trans_lt helater)]
  · rw [standing_eq_none hexpired, Option.filter_none]
    exact standing_eq_none fun e he => (hexpired e he).trans hle

section Window

variable [IsOrderedCancelAddMonoid T] (hwindow : 0 < window)

include hwindow

/-- What has happened belongs to a counter that expires later. -/
theorem exists_lt_expiry (h : time ∈ history) :
    ∃ expiry ∈ expiries window history, time < expiry := by
  induction history with
  | nil => cases h
  | cons newest earlier ih =>
      have hearlier : time ∈ earlier → ∃ expiry ∈ expiries window (newest :: earlier),
          time < expiry := by
        intro hmem
        obtain ⟨expiry, hexpiry, hlt⟩ := ih hmem
        rw [expiries]
        split
        · exact ⟨expiry, hexpiry, hlt⟩
        · exact ⟨expiry, .tail _ hexpiry, hlt⟩
      rcases List.mem_cons.mp h with rfl | hmem
      · rw [expiries]
        split
        · assumption
        · exact ⟨time + window, .head _, lt_add_of_pos_right _ hwindow⟩
      · exact hearlier hmem

/-- Nothing is counted when every counter has expired. -/
theorem counted_eq_zero (h : ∀ expiry ∈ expiries window history, expiry ≤ now) :
    counted window history now = 0 := by
  refine List.countP_eq_zero.mpr fun time htime hsince => ?_
  obtain ⟨expiry, hexpiry, hlt⟩ := exists_lt_expiry hwindow htime
  exact hlt.not_ge (of_decide_eq_true hsince expiry hexpiry (h expiry hexpiry))

theorem counted_eq (hpast : ∀ time ∈ history, time ≤ now) :
    counted window history now = ((standing window history now).map Prod.fst).getD 0 := by
  rcases standing_or_expired window history now with ⟨expiry, hexpiry, hlt⟩ | hexpired
  · rw [standing_eq_some hpast hexpiry hlt, Option.map_some, Option.getD_some]
  · rw [standing_eq_none hexpired, counted_eq_zero hwindow hexpired, Option.map_none,
      Option.getD_none]

/-- What happens now is counted. -/
theorem counted_cons (time : T) (history : List T) :
    counted window (time :: history) time = counted window history time + 1 := by
  rcases standing_or_expired window history time with ⟨expiry, hexpiry, hlt⟩ | hexpired
  · have hexpiries := expiries_cons_of_standing hexpiry hlt
    rw [counted, List.countP_cons_of_pos, hexpiries, counted]
    exact decide_eq_true fun _ _ hle => hle
  · have hexpiries := expiries_cons_of_expired hexpired
    rw [counted_eq_zero hwindow hexpired, counted, List.countP_cons_of_pos, hexpiries]
    · refine congrArg (· + 1) (List.countP_eq_zero.mpr fun t ht hsince => ?_)
      obtain ⟨expiry, hexpiry, hlt⟩ := exists_lt_expiry hwindow ht
      exact hlt.not_ge (of_decide_eq_true hsince expiry (.tail _ hexpiry) (hexpired expiry hexpiry))
    · exact decide_eq_true fun _ _ hle => hle

/-- A counter that stands counts what happens, and otherwise a new one starts. -/
theorem standing_cons (hpast : ∀ t ∈ history, t ≤ time) :
    standing window (time :: history) time =
      some (match standing window history time with
        | none => (1, time + window)
        | some (count, expiry) => (count + 1, expiry)) := by
  have hpast' : ∀ t ∈ time :: history, t ≤ time := by
    intro t ht
    rcases List.mem_cons.mp ht with rfl | ht
    · exact le_rfl
    · exact hpast t ht
  have hcounted := counted_cons hwindow time history
  rcases standing_or_expired window history time with ⟨expiry, hexpiry, hlt⟩ | hexpired
  · have hmem : expiry ∈ expiries window (time :: history) := by
      rwa [expiries_cons_of_standing hexpiry hlt]
    rw [standing_eq_some hpast' hmem hlt, standing_eq_some hpast hexpiry hlt, hcounted]
  · have hmem : time + window ∈ expiries window (time :: history) := by
      rw [expiries_cons_of_expired hexpired]
      exact .head _
    rw [standing_eq_some hpast' hmem (lt_add_of_pos_right _ hwindow), standing_eq_none hexpired,
      hcounted, counted_eq_zero hwindow hexpired]

end Window

end ExpiringCounter
