import Mathlib.Algebra.Order.Group.Unbundled.Int
import Mathlib.Data.List.Count
import Mathlib.Logic.Relation
import Mathlib.Tactic.Common

/-!
# A limiter with fixed windows

What passes is counted in a window that starts with the first arrival and lasts
`length`; a window that is over is replaced at the next arrival. A window holds
at most `bound`, and an interval shorter than a window meets at most two of
them, so at most `2 * bound` pass in it.

Time is counted in integers.
-/

/-- The start of a window and the number of arrivals it let pass. -/
structure FixedWindow where
  start : ℤ
  count : ℤ

namespace FixedWindow

/-- The current window, the clock, and when something passed, newest first. -/
structure Limiter where
  window : Option FixedWindow
  now : ℤ
  passed : List ℤ

variable {length bound : ℤ} {passed : List ℤ}

/-- The clock advances, a window that is over is dropped, a window starts when
there is none, or an arrival passes. -/
inductive Step (length bound : ℤ) : Limiter → Limiter → Prop
  | wait (window : Option FixedWindow) (now now' : ℤ) (passed : List ℤ) (h : now ≤ now') :
      Step length bound ⟨window, now, passed⟩ ⟨window, now', passed⟩
  | drop (window : FixedWindow) (now : ℤ) (passed : List ℤ) (h : length ≤ now - window.start) :
      Step length bound ⟨some window, now, passed⟩ ⟨none, now, passed⟩
  | renew (now : ℤ) (passed : List ℤ) :
      Step length bound ⟨none, now, passed⟩ ⟨some ⟨now, 0⟩, now, passed⟩
  | pass (start count now : ℤ) (passed : List ℤ) (hopen : now - start < length)
      (hcount : count < bound) :
      Step length bound ⟨some ⟨start, count⟩, now, passed⟩
        ⟨some ⟨start, count + 1⟩, now, now :: passed⟩

/-- How many passed between two times. -/
def passedIn (since till : ℤ) (passed : List ℤ) : ℕ :=
  passed.countP fun time => since ≤ time ∧ time ≤ till

/-- A new window may start: everything passed before, and little of it during
the last `length`. -/
structure Idle (length bound now : ℤ) (passed : List ℤ) : Prop where
  past : ∀ time ∈ passed, time < now
  recent : (passed.countP fun time => now - length < time : ℕ) ≤ bound
  sparse : ∀ since till, till - since < length → (passedIn since till passed : ℤ) ≤ 2 * bound

/-- The arrivals that passed are those of the current window, at most `bound`,
and those from before its start. -/
structure Running (length bound : ℤ) (window : FixedWindow) (passed : List ℤ) : Prop where
  split : ∃ current past, passed = current ++ past ∧ (current.length : ℤ) = window.count ∧
    (∀ time ∈ current, window.start ≤ time ∧ time - window.start < length) ∧
    Idle length bound window.start past
  count : window.count ≤ bound

/-- The invariant of the limiter. -/
def Valid (length bound : ℤ) (limiter : Limiter) : Prop :=
  match limiter.window with
  | none => Idle length bound limiter.now limiter.passed
  | some window => window.start ≤ limiter.now ∧ Running length bound window limiter.passed

theorem Idle.later {now now' : ℤ} (h : Idle length bound now passed) (hle : now ≤ now') :
    Idle length bound now' passed where
  past time htime := (h.past time htime).trans_le hle
  recent := by
    have hmono : (passed.countP fun time => now' - length < time) ≤
        passed.countP fun time => now - length < time := by
      refine List.countP_mono_left fun time _ htime => ?_
      simp only [decide_eq_true_eq] at htime ⊢
      omega
    have hrecent := h.recent
    omega
  sparse := h.sparse

/-- An interval shorter than a window holds at most one window's worth of the
past if it reaches the current window at all. -/
theorem Running.sparse {window : FixedWindow} (h : Running length bound window passed)
    {since till : ℤ} (hshort : till - since < length) :
    (passedIn since till passed : ℤ) ≤ 2 * bound := by
  obtain ⟨⟨current, past, rfl, hcount, hcurrent, hidle⟩, hbound⟩ := h
  have happend : passedIn since till (current ++ past) =
      passedIn since till current + passedIn since till past := List.countP_append
  by_cases hreach : window.start ≤ till
  · have hnew : passedIn since till current ≤ current.length := List.countP_le_length
    have hold : passedIn since till past ≤
        past.countP fun time => window.start - length < time := by
      refine List.countP_mono_left fun time _ htime => ?_
      simp only [decide_eq_true_eq] at htime ⊢
      omega
    have hrecent := hidle.recent
    omega
  · have hnew : passedIn since till current = 0 := by
      refine List.countP_eq_zero.mpr fun time htime hin => ?_
      have hstart := (hcurrent time htime).1
      simp only [decide_eq_true_eq] at hin
      omega
    have hold := hidle.sparse since till hshort
    omega

/-- After a window is over the limiter is idle. -/
theorem Running.idle {window : FixedWindow} {now : ℤ} (h : Running length bound window passed)
    (hpos : 0 ≤ length) (hover : length ≤ now - window.start) : Idle length bound now passed where
  past time htime := by
    obtain ⟨⟨current, past, rfl, -, hcurrent, hidle⟩, -⟩ := h
    rcases List.mem_append.mp htime with htime | htime
    · have hlast := (hcurrent time htime).2
      omega
    · have hpast := hidle.past time htime
      omega
  recent := by
    obtain ⟨⟨current, past, rfl, hcount, -, hidle⟩, hbound⟩ := h
    have hnew : (current.countP fun time => now - length < time) ≤ current.length :=
      List.countP_le_length
    have hold : (past.countP fun time => now - length < time) = 0 := by
      refine List.countP_eq_zero.mpr fun time htime hin => ?_
      have hpast := hidle.past time htime
      simp only [decide_eq_true_eq] at hin
      omega
    rw [List.countP_append, hold]
    omega
  sparse _ _ hshort := h.sparse hshort

theorem Step.valid {limiter limiter' : Limiter} (hpos : 0 ≤ length) (hbound : 0 ≤ bound)
    (hstep : Step length bound limiter limiter') (h : Valid length bound limiter) :
    Valid length bound limiter' := by
  cases hstep with
  | wait window now now' passed hle =>
      cases window with
      | none => exact Idle.later h hle
      | some window => exact ⟨h.1.trans hle, h.2⟩
  | drop window now passed hover => exact h.2.idle hpos hover
  | renew now passed => exact ⟨le_refl now, ⟨[], passed, rfl, rfl, by simp, h⟩, hbound⟩
  | pass start count now passed hopen hcount =>
      obtain ⟨hstart, ⟨current, past, rfl, hlength, hcurrent, hidle⟩, -⟩ := h
      refine ⟨hstart, ⟨now :: current, past, rfl, ?_, ?_, hidle⟩, hcount⟩
      · rw [List.length_cons, Int.natCast_succ, hlength]
      · intro time htime
        rcases List.mem_cons.mp htime with rfl | htime
        · exact ⟨hstart, hopen⟩
        · exact hcurrent time htime

/-- In an interval shorter than a window at most twice the bound pass. -/
theorem Valid.passedIn_le {limiter : Limiter} (h : Valid length bound limiter) {since till : ℤ}
    (hshort : till - since < length) : (passedIn since till limiter.passed : ℤ) ≤ 2 * bound := by
  obtain ⟨window, now, passed⟩ := limiter
  cases window with
  | none => exact Idle.sparse h since till hshort
  | some window => exact h.2.sparse hshort

end FixedWindow
