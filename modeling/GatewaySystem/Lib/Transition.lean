import Mathlib.Logic.Relation
import Mathlib.Order.Bounds.Basic
import Mathlib.Order.MinMax

/-!
# Labelled transition systems

A system is a set of initial states and a partial step function on labels; the
label carries every choice the environment makes, so a run is a list of labels
and can be executed. `ReachableBy T ok` is reachability along the steps that
satisfy the guard `ok`, which reads the state before the step and its label.
The invariant rule is stated once, with the reachability of the state before
the step available, so an invariant may rest on one established earlier.
-/

namespace Transition

/-- A transition system with initial states `init` and labelled partial steps. -/
structure System (σ α : Type*) where
  init : σ → Prop
  step : σ → α → Option σ

/-- The states reached from an initial one by steps that satisfy `ok`. -/
inductive ReachableBy {σ α : Type*} (T : System σ α) (ok : σ → α → Prop) : σ → Prop
  | init {s : σ} (h : T.init s) : ReachableBy T ok s
  | step {s s' : σ} {a : α} (hs : ReachableBy T ok s) (ha : ok s a)
      (h : T.step s a = some s') : ReachableBy T ok s'

/-- The states reached by any run. -/
def Reachable {σ α : Type*} (T : System σ α) : σ → Prop :=
  ReachableBy T fun _ _ => True

theorem ReachableBy.invariant {σ α : Type*} {T : System σ α} {ok : σ → α → Prop}
    {I : σ → Prop} (hinit : ∀ s, T.init s → I s)
    (hstep : ∀ s a s', ReachableBy T ok s → I s → ok s a → T.step s a = some s' → I s')
    {s : σ} (h : ReachableBy T ok s) : I s := by
  induction h with
  | init h => exact hinit _ h
  | step hs ha h ih => exact hstep _ _ _ hs ih ha h

theorem ReachableBy.mono {σ α : Type*} {T : System σ α} {ok ok' : σ → α → Prop}
    (himp : ∀ s a, ok s a → ok' s a) {s : σ} (h : ReachableBy T ok s) :
    ReachableBy T ok' s := by
  induction h with
  | init h => exact .init h
  | step _ ha h ih => exact .step ih (himp _ _ ha) h

theorem ReachableBy.reachable {σ α : Type*} {T : System σ α} {ok : σ → α → Prop}
    {s : σ} (h : ReachableBy T ok s) : Reachable T s :=
  h.mono fun _ _ _ => trivial

/-- A guard may take for granted what holds in every state reached. -/
theorem ReachableBy.guarded {σ α : Type*} {T : System σ α} {ok ok' : σ → α → Prop}
    {I : σ → Prop} (hI : ∀ s, ReachableBy T ok s → I s) (himp : ∀ s a, I s → ok s a → ok' s a)
    {s : σ} (h : ReachableBy T ok s) : ReachableBy T ok' s := by
  induction h with
  | init h => exact .init h
  | step hs ha h ih => exact .step ih (himp _ _ (hI _ hs) ha) h

/-- The states a state leads to along steps that satisfy `ok`. -/
def Leads {σ α : Type*} (T : System σ α) (ok : σ → α → Prop) : σ → σ → Prop :=
  Relation.ReflTransGen fun s t => ∃ a, ok s a ∧ T.step s a = some t

/-- What every step of a relation keeps is kept along finitely many steps. -/
theorem kept_along {β : Type*} {R : β → β → Prop} {I : β → Prop}
    (hkept : ∀ b b', R b b' → I b → I b') {b b' : β} (h : Relation.ReflTransGen R b b')
    (hb : I b) : I b' := by
  induction h with
  | refl => exact hb
  | tail _ hstep ih => exact hkept _ _ hstep ih

/-- A loop relates its states as far as its body does. -/
theorem related_foldl {α β : Type*} {R : β → β → Prop} (hrefl : ∀ b, R b b)
    (htrans : ∀ b c d, R b c → R c d → R b d) {f : β → α → β} (hf : ∀ b a, R b (f b a))
    (items : List α) (b : β) : R b (items.foldl f b) := by
  induction items generalizing b with
  | nil => exact hrefl b
  | cons a items ih => exact htrans _ _ _ (hf b a) (ih (f b a))

/-- The state a list of labels leads to, when every step is enabled. -/
def System.run {σ α : Type*} (T : System σ α) : σ → List α → Option σ
  | s, [] => some s
  | s, a :: as => (T.step s a).bind fun s' => T.run s' as

theorem System.run_reachable {σ α : Type*} {T : System σ α} {ok : σ → α → Prop}
    {s t : σ} {as : List α} (hs : ReachableBy T ok s) (hok : ∀ s, ∀ a ∈ as, ok s a)
    (h : T.run s as = some t) : ReachableBy T ok t := by
  induction as generalizing s with
  | nil =>
      obtain rfl : s = t := by simpa [System.run] using h
      exact hs
  | cons a as ih =>
      obtain ⟨u, hu, h⟩ := Option.bind_eq_some_iff.mp h
      have hreach : ReachableBy T ok u := .step hs (hok s a (by simp)) hu
      exact ih hreach (fun s b hb => hok s b (by simp [hb])) h

/-- The states that a run comes through, its first and its last one included. -/
def System.Visits {σ α : Type*} (T : System σ α) (s : σ) (as : List α) (u : σ) : Prop :=
  ∃ front, front <+: as ∧ T.run s front = some u

theorem System.visits_start {σ α : Type*} (T : System σ α) (s : σ) (as : List α) :
    T.Visits s as s :=
  ⟨[], List.nil_prefix, rfl⟩

theorem System.visits_cons {σ α : Type*} {T : System σ α} {s s' u : σ} {a : α} {as : List α}
    (h : T.step s a = some s') : T.Visits s (a :: as) u ↔ u = s ∨ T.Visits s' as u := by
  have hrun : ∀ front, T.run s (a :: front) = T.run s' front := by
    intro front
    rw [System.run, h, Option.bind_some]
  constructor
  · rintro ⟨front, hfront, hu⟩
    rcases List.prefix_cons_iff.mp hfront with rfl | ⟨rest, rfl, hrest⟩
    · exact .inl (Option.some.inj hu).symm
    · exact .inr ⟨rest, hrest, (hrun rest).symm.trans hu⟩
  · rintro (rfl | ⟨front, hfront, hu⟩)
    · exact T.visits_start u _
    · exact ⟨a :: front, List.cons_prefix_cons.mpr ⟨rfl, hfront⟩, (hrun front).trans hu⟩

theorem System.run_append {σ α : Type*} {T : System σ α} {s : σ} (as bs : List α) :
    T.run s (as ++ bs) = (T.run s as).bind fun t => T.run t bs := by
  induction as generalizing s with
  | nil => rfl
  | cons a as ih =>
      rw [List.cons_append, System.run, System.run, Option.bind_assoc]
      exact congrArg _ (funext fun _ => ih)

theorem System.run_concat {σ α : Type*} {T : System σ α} {s t : σ} {as : List α} {a : α} :
    T.run s (as ++ [a]) = some t ↔ ∃ u, T.run s as = some u ∧ T.step u a = some t := by
  simp [System.run_append, System.run, Option.bind_eq_some_iff]

theorem System.visits_concat {σ α : Type*} {T : System σ α} {s t u v : σ} {as : List α} {a : α}
    (hrun : T.run s as = some u) (hstep : T.step u a = some t) :
    T.Visits s (as ++ [a]) v ↔ T.Visits s as v ∨ v = t := by
  have hlast : T.run s (as ++ [a]) = some t := System.run_concat.mpr ⟨u, hrun, hstep⟩
  constructor
  · rintro ⟨front, hfront, hv⟩
    rcases List.prefix_concat_iff.mp hfront with rfl | hfront
    · exact .inr (Option.some.inj (hv.symm.trans hlast))
    · exact .inl ⟨front, hfront, hv⟩
  · rintro (⟨front, hfront, hv⟩ | rfl)
    · exact ⟨front, hfront.trans (List.prefix_append as [a]), hv⟩
    · exact ⟨as ++ [a], List.prefix_rfl, hlast⟩

/-- A quantity that every step raises to the size it finds is a bound on the sizes
met, and is its old value or one of them. -/
theorem System.run_peak {σ α ν : Type*} [LinearOrder ν] {T : System σ α} {size peak : σ → ν}
    (hpeak : ∀ s a s', size s ≤ peak s → T.step s a = some s' →
      peak s' = max (peak s) (size s')) {s t : σ} {as : List α} (hs : size s ≤ peak s)
    (h : T.run s as = some t) :
    peak s ≤ peak t ∧ (∀ u, T.Visits s as u → size u ≤ peak t) ∧
      (peak t = peak s ∨ ∃ u, T.Visits s as u ∧ size u = peak t) := by
  induction as generalizing s with
  | nil =>
      cases h
      refine ⟨le_rfl, ?_, .inl rfl⟩
      rintro u ⟨front, hfront, hu⟩
      obtain rfl := List.prefix_nil.mp hfront
      cases hu
      exact hs
  | cons a as ih =>
      obtain ⟨s', hstep, h⟩ := Option.bind_eq_some_iff.mp h
      have hraised := hpeak s a s' hs hstep
      have hs' : size s' ≤ peak s' := hraised ▸ le_max_right _ _
      have hle : peak s ≤ peak s' := hraised ▸ le_max_left _ _
      obtain ⟨hmono, hbound, hmet⟩ := ih hs' h
      simp only [System.visits_cons hstep]
      refine ⟨hle.trans hmono, ?_, ?_⟩
      · rintro u (rfl | hu)
        · exact (hs.trans hle).trans hmono
        · exact hbound u hu
      · rcases hmet with hsame | ⟨u, hu, hsize⟩
        · -- nothing was raised behind the first step, which may have done it
          rcases max_choice (peak s) (size s') with hold | hnew
          · exact .inl (hsame.trans (hraised.trans hold))
          · exact .inr ⟨s', .inr (T.visits_start s' as), (hsame.trans (hraised.trans hnew)).symm⟩
        · exact .inr ⟨u, .inr hu, hsize⟩

/-- From a state that is at its peak, it is the greatest size of the run. -/
theorem System.run_isGreatest {σ α ν : Type*} [LinearOrder ν] {T : System σ α}
    {size peak : σ → ν} (hpeak : ∀ s a s', size s ≤ peak s → T.step s a = some s' →
      peak s' = max (peak s) (size s')) {s t : σ} {as : List α} (hs : size s = peak s)
    (h : T.run s as = some t) :
    IsGreatest { n | ∃ u, T.Visits s as u ∧ size u = n } (peak t) := by
  obtain ⟨-, hbound, hmet⟩ := System.run_peak hpeak hs.le h
  constructor
  · rcases hmet with hsame | hmet
    · exact ⟨s, T.visits_start s as, hs.trans hsame.symm⟩
    · exact hmet
  · rintro n ⟨u, hu, rfl⟩
    exact hbound u hu

/-- Every entry of a log was added by a step, behind the entries before it. -/
theorem ReachableBy.moment {σ α β : Type*} {T : System σ α} {ok : σ → α → Prop}
    {log : σ → List β} (hinit : ∀ s, T.init s → log s = [])
    (hlog : ∀ s a s', T.step s a = some s' → log s' = log s ∨ ∃ entry, log s' = log s ++ [entry])
    {s : σ} (h : ReachableBy T ok s) {before after : List β} {entry : β}
    (hentry : log s = before ++ entry :: after) :
    ∃ u a v, ReachableBy T ok u ∧ T.step u a = some v ∧ log u = before ∧
      log v = log u ++ [entry] := by
  induction h generalizing after with
  | init h => simp [hinit _ h] at hentry
  | @step s s' a hs _ hstep ih =>
      rcases hlog s a s' hstep with hsame | ⟨last, hlast⟩
      · exact ih (hsame.symm.trans hentry)
      · rw [hlast] at hentry
        rcases List.eq_nil_or_concat after with rfl | ⟨front, final, rfl⟩
        · obtain ⟨hbefore, hsame⟩ := List.append_inj' hentry rfl
          cases hsame
          exact ⟨s, a, s', hs, hstep, hbefore, hlast⟩
        · rw [List.concat_eq_append, ← List.cons_append, ← List.append_assoc] at hentry
          exact ih (List.append_inj' hentry rfl).1

/-- The state a list of labels leads to, when every step is enabled and admitted. -/
def System.runBy {σ α : Type*} (T : System σ α) (ok : σ → α → Prop)
    [∀ s a, Decidable (ok s a)] : σ → List α → Option σ
  | s, [] => some s
  | s, a :: as => if ok s a then (T.step s a).bind fun s' => T.runBy ok s' as else none

theorem System.runBy_reachable {σ α : Type*} {T : System σ α} {ok : σ → α → Prop}
    [∀ s a, Decidable (ok s a)] {s t : σ} {as : List α} (hs : ReachableBy T ok s)
    (h : T.runBy ok s as = some t) : ReachableBy T ok t := by
  induction as generalizing s with
  | nil =>
      obtain rfl : s = t := by simpa [System.runBy] using h
      exact hs
  | cons a as ih =>
      rw [System.runBy] at h
      split at h
      · next hok =>
          obtain ⟨u, hu, h⟩ := Option.bind_eq_some_iff.mp h
          exact ih (.step hs hok hu) h
      · cases h

end Transition
