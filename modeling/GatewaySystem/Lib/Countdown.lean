import Mathlib.Data.Nat.Notation
import Mathlib.Tactic.Common

/-!
# A countdown of producers

Several producers share a channel. Each decrements a counter when it leaves,
and the one that brings the counter to zero closes the channel afterwards. The
counter counts the producers that have not left, so the channel is closed only
after the last of them has left.
-/

/-- The counter, how many producers have not left, how many are about to close
the channel, and whether it is closed. -/
structure Countdown where
  remaining : ℕ
  active : ℕ
  closing : ℕ
  closed : Bool

namespace Countdown

variable {c c' : Countdown}

/-- A producer goes on, it leaves, or the one that left last closes the
channel. -/
inductive Step (c c' : Countdown) : Prop
  | stay (hremaining : c'.remaining = c.remaining) (hactive : c'.active = c.active)
      (hclosing : c'.closing = c.closing) (hclosed : c'.closed = c.closed)
  | leave (hremaining : c'.remaining = c.remaining - 1) (hactive : c'.active + 1 = c.active)
      (hclosing : c'.closing = c.closing + if c.remaining = 1 then 1 else 0)
      (hclosed : c'.closed = c.closed)
  | close (hremaining : c'.remaining = c.remaining) (hactive : c'.active = c.active)
      (hclosing : c'.closing + 1 = c.closing) (hclosed : c'.closed = true)

theorem Step.remaining_le (hstep : Step c c') : c'.remaining ≤ c.remaining := by
  cases hstep with
  | stay hremaining | close hremaining => exact Nat.le_of_eq hremaining
  | leave hremaining => exact hremaining ▸ Nat.sub_le _ _

/-- The counter is right, and nothing is closed while a producer remains. -/
structure Valid (c : Countdown) : Prop where
  remaining : c.remaining = c.active
  closing : 0 < c.closing → c.remaining = 0
  closed : c.closed = true → c.remaining = 0

theorem Step.valid (hstep : Step c c') (h : Valid c) : Valid c' := by
  obtain ⟨hcount, hwait, hopen⟩ := h
  cases hstep with
  | stay hremaining hactive hclosing hclosed =>
      refine ⟨by omega, fun hpos => ?_, fun hclose => ?_⟩
      · rw [hremaining]
        exact hwait (by omega)
      · rw [hremaining]
        exact hopen (hclosed ▸ hclose)
  | leave hremaining hactive hclosing hclosed =>
      -- before the step a producer was there, so nothing was closing or closed
      have hpos : c.remaining ≠ 0 := by omega
      refine ⟨by omega, fun hwaiting => ?_, fun hclose => ?_⟩
      · by_cases hlast : c.remaining = 1
        · omega
        · rw [hclosing, if_neg hlast] at hwaiting
          exact absurd (hwait hwaiting) hpos
      · exact absurd (hopen (hclosed ▸ hclose)) hpos
  | close hremaining hactive hclosing hclosed =>
      have hnone := hwait (by omega)
      exact ⟨by omega, fun _ => hremaining.trans hnone, fun _ => hremaining.trans hnone⟩

/-- As long as a producer is there the channel is open. -/
theorem Valid.open_of_active (h : Valid c) (hactive : 0 < c.active) : c.closed = false := by
  cases hclosed : c.closed with
  | true => exact absurd (h.closed hclosed) (Nat.ne_of_gt (h.remaining ▸ hactive))
  | false => rfl

/-- When all producers have left, the channel is closed or about to be. -/
def Announced (c : Countdown) : Prop := c.remaining = 0 → c.closed = true ∨ 0 < c.closing

theorem Step.announced (hstep : Step c c') (h : Valid c) (hannounced : Announced c) :
    Announced c' := by
  intro hnone
  cases hstep with
  | stay hremaining hactive hclosing hclosed =>
      rw [hclosed, hclosing]
      exact hannounced (hremaining ▸ hnone)
  | leave hremaining hactive hclosing hclosed =>
      -- the counter was right, so the one that left last saw it at one
      have hlast : c.remaining = 1 := by
        have := h.remaining
        omega
      rw [hclosing, if_pos hlast]
      exact .inr (Nat.succ_pos _)
  | close _ _ _ hclosed => exact .inl hclosed

end Countdown
