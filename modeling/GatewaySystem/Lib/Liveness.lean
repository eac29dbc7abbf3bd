import GatewaySystem.Lib.Transition
import Mathlib.Order.WellFounded

/-!
# Fair infinite runs

A path is an infinite run. Some of the steps of a system are its work; a path
is fair when it goes on working for as long as a step of work is possible, by
whichever of the possible steps. When no step raises a well-founded rank and
every step of work lowers it, a fair path comes to a point from which on no step
of work is possible.
-/

namespace Transition

variable {σ α : Type*} {T : System σ α} {work : σ → α → Prop}

/-- An infinite run. -/
structure Path (T : System σ α) where
  state : ℕ → σ
  label : ℕ → α
  step : ∀ n, T.step (state n) (label n) = some (state (n + 1))

/-- No step of work is possible. -/
def Idle (T : System σ α) (work : σ → α → Prop) (s : σ) : Prop :=
  ∀ a, work s a → T.step s a = none

/-- While a step of work is possible, one is taken sooner or later. -/
def Path.Fair (path : Path T) (work : σ → α → Prop) : Prop :=
  ∀ n, ¬ Idle T work (path.state n) → ∃ m, n ≤ m ∧ work (path.state m) (path.label m)

/-- What every step keeps holds from the start on. -/
theorem Path.kept {I : σ → Prop} (path : Path T)
    (hstep : ∀ n, I (path.state n) → I (path.state (n + 1))) (hstart : I (path.state 0)) (n : ℕ) :
    I (path.state n) := by
  induction n with
  | zero => exact hstart
  | succ n ih => exact hstep n ih

theorem Path.reachable {ok : σ → α → Prop} (path : Path T)
    (hstart : ReachableBy T ok (path.state 0)) (hok : ∀ n, ok (path.state n) (path.label n)) :
    ∀ n, ReachableBy T ok (path.state n) :=
  path.kept (fun n h => h.step (hok n) (path.step n)) hstart

/-- A fair path comes to rest when its work lowers a rank that nothing raises. -/
theorem Path.Fair.eventually_idle {ρ : Type*} [Preorder ρ] [WellFoundedLT ρ] {path : Path T}
    (hfair : path.Fair work) (rank : σ → ρ)
    (hle : ∀ n, rank (path.state (n + 1)) ≤ rank (path.state n))
    (hlt : ∀ n, work (path.state n) (path.label n) →
      rank (path.state (n + 1)) < rank (path.state n)) :
    ∃ n, ∀ m, n ≤ m → Idle T work (path.state m) := by
  have hanti : Antitone fun n => rank (path.state n) := antitone_nat_of_succ_le hle
  -- from where the rank is least on, no work is done, so none is possible
  obtain ⟨n, -, hleast⟩ := (InvImage.wf (fun n => rank (path.state n)) wellFounded_lt).has_min
    Set.univ Set.univ_nonempty
  have hrest : ∀ m, n ≤ m → ¬ work (path.state m) (path.label m) := by
    intro m hm hwork
    exact hleast (m + 1) trivial ((hlt m hwork).trans_le (hanti hm))
  refine ⟨n, fun m hm => ?_⟩
  by_contra hbusy
  obtain ⟨k, hk, hwork⟩ := hfair m hbusy
  exact hrest k (hm.trans hk) hwork

/-- Where time can always pass, every state has a fair path that does nothing but
work and wait. -/
theorem exists_fair (work : σ → α → Prop) {rest : α}
    (hrest : ∀ s, T.step s rest = some s) (s : σ) :
    ∃ path : Path T, path.state 0 = s ∧ path.Fair work ∧
      ∀ n, work (path.state n) (path.label n) ∨ path.label n = rest := by
  have hnext : ∀ s, ∃ a t, T.step s a = some t ∧ (work s a ∨ a = rest ∧ Idle T work s) := by
    intro s
    by_cases hidle : Idle T work s
    · exact ⟨rest, s, hrest s, .inr ⟨rfl, hidle⟩⟩
    · obtain ⟨a, ha⟩ := not_forall.mp hidle
      obtain ⟨hwork, hsome⟩ := Classical.not_imp.mp ha
      obtain ⟨t, ht⟩ := Option.ne_none_iff_exists'.mp hsome
      exact ⟨a, t, ht, .inl hwork⟩
  choose label next hstep hwork using hnext
  refine ⟨⟨fun n => next^[n] s, fun n => label (next^[n] s), fun n => ?_⟩, rfl, ?_, ?_⟩
  · rw [Function.iterate_succ_apply']
    exact hstep _
  · exact fun n hbusy => ⟨n, le_rfl, (hwork _).resolve_right fun h => hbusy h.2⟩
  · exact fun n => (hwork _).imp_right And.left

end Transition
