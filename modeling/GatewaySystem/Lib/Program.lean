import GatewaySystem.Lib.Transition
import Mathlib.Data.Nat.Notation

/-!
# Programs with atomic accesses

A program is a result, or an access to a shared state followed by a program that
depends on what the access met. The environment makes a choice for each access
(the reading of a clock, a fault, a random value). A program runs alone, or as
one of any number of threads that share the state, whose accesses interleave.

`Meets` is the rule of assertions for one thread among others: every access
makes a step that the others tolerate, and the assertion after it is one that
the steps of the others keep. `Machine.meets` is its soundness for all threads.
-/

/-- A program over shared states `σ` and choices `χ`. -/
inductive Program (σ χ α : Type) where
  | done (result : α)
  /-- `next` sees the choice and the state before the access. -/
  | step (access : χ → σ → σ) (next : χ → σ → Program σ χ α)

namespace Program

variable {σ χ α β : Type}

def bind : Program σ χ α → (α → Program σ χ β) → Program σ χ β
  | done result, rest => rest result
  | step access next, rest => step access fun choice s => (next choice s).bind rest

instance : Monad (Program σ χ) where
  pure := done
  bind := bind

/-- One access that returns a result. -/
def atomic (act : χ → σ → α × σ) : Program σ χ α :=
  step (fun choice s => (act choice s).2) fun choice s => done (act choice s).1

/-- The result of a program that runs alone and the state it leaves. -/
def run : Program σ χ α → (ℕ → χ) → σ → α × σ
  | done result, _, s => (result, s)
  | step access next, choices, s =>
      (next (choices 0) s).run (fun i => choices (i + 1)) (access (choices 0) s)

section Run

variable (choices : ℕ → χ) (s : σ)

@[simp] theorem run_pure (result : α) :
    (pure result : Program σ χ α).run choices s = (result, s) := rfl

@[simp] theorem run_done (result : α) :
    (done result : Program σ χ α).run choices s = (result, s) := rfl

@[simp] theorem run_atomic_bind (act : χ → σ → α × σ) (rest : α → Program σ χ β) :
    (atomic act >>= rest).run choices s =
      (rest (act (choices 0) s).1).run (fun i => choices (i + 1)) (act (choices 0) s).2 := rfl

theorem run_bind_done (program : Program σ χ α) (f : α → β) :
    (program >>= fun result => done (f result)).run choices s =
      (f (program.run choices s).1, (program.run choices s).2) := by
  induction program generalizing choices s with
  | done result => rfl
  | step access next ih => exact ih ..

end Run

/-- An assertion that the steps `G` keep. -/
def Stable (G : σ → σ → Prop) (P : σ → Prop) : Prop := ∀ s t, G s t → P s → P t

/-- A thread that starts where `P` holds, among others that make the steps `G`:
while the choices are `ok`, it makes the steps `G` itself and ends with `Q`. -/
def Meets (ok : χ → σ → Prop) (G : σ → σ → Prop) (Q : α → σ → Prop) :
    Program σ χ α → (σ → Prop) → Prop
  | done result, P => ∀ s, P s → Q result s
  | step access next, P => ∀ choice s, P s → ok choice s →
      G s (access choice s) ∧
        ∃ P', Stable G P' ∧ P' (access choice s) ∧ (next choice s).Meets ok G Q P'

section Rules

variable {ok : χ → σ → Prop} {G : σ → σ → Prop} {Q : α → σ → Prop} {P : σ → Prop}
  {program : Program σ χ α}

theorem Meets.weaken {P' : σ → Prop} (h : program.Meets ok G Q P) (himp : ∀ s, P' s → P s) :
    program.Meets ok G Q P' := by
  cases program with
  | done result => exact fun s hs => h s (himp s hs)
  | step access next => exact fun choice s hs => h choice s (himp s hs)

theorem Meets.strengthen {Q' : α → σ → Prop} (h : program.Meets ok G Q P)
    (himp : ∀ result s, Q result s → Q' result s) : program.Meets ok G Q' P := by
  induction program generalizing P with
  | done result => exact fun s hs => himp result s (h s hs)
  | step access next ih =>
      intro choice s hs hok
      obtain ⟨hstep, P', hstable, hP', hnext⟩ := h choice s hs hok
      exact ⟨hstep, P', hstable, hP', ih choice s hnext⟩

/-- What the steps of all keep holds besides. -/
theorem Meets.frame {F : σ → Prop} (hF : Stable G F) (h : program.Meets ok G Q P) :
    program.Meets ok G (fun result s => Q result s ∧ F s) fun s => P s ∧ F s := by
  induction program generalizing P with
  | done result => exact fun s hs => ⟨h s hs.1, hs.2⟩
  | step access next ih =>
      intro choice s hs hok
      obtain ⟨hstep, P', hstable, hP', hnext⟩ := h choice s hs.1 hok
      exact ⟨hstep, fun s => P' s ∧ F s, fun s t hG hst => ⟨hstable s t hG hst.1, hF s t hG hst.2⟩,
        ⟨hP', hF _ _ hstep hs.2⟩, ih choice s hnext⟩

theorem Meets.of_false (h : ∀ s, ¬P s) : program.Meets ok G Q P := by
  cases program with
  | done result => exact fun s hs => absurd hs (h s)
  | step access next => exact fun choice s hs => absurd hs (h s)

theorem Meets.bind {rest : α → Program σ χ β} {R : β → σ → Prop} (h : program.Meets ok G Q P)
    (hrest : ∀ result, (rest result).Meets ok G R (Q result)) :
    (program >>= rest).Meets ok G R P := by
  induction program generalizing P with
  | done result => exact (hrest result).weaken h
  | step access next ih =>
      intro choice s hs hok
      obtain ⟨hstep, P', hstable, hP', hnext⟩ := h choice s hs hok
      exact ⟨hstep, P', hstable, hP', ih choice s hnext⟩

theorem Meets.atomic {act : χ → σ → α × σ}
    (hact : ∀ choice s, P s → ok choice s → G s (act choice s).2 ∧
      Q (act choice s).1 (act choice s).2)
    (hstable : ∀ result, Stable G (Q result)) : (Program.atomic act).Meets ok G Q P := by
  intro choice s hs hok
  obtain ⟨hstep, hQ⟩ := hact choice s hs hok
  exact ⟨hstep, _, hstable _, hQ, fun _ => id⟩

end Rules

/-- Every access the program can ever make is in `A`. -/
def Makes (A : σ → σ → Prop) : Program σ χ α → Prop
  | done _ => True
  | step access next => ∀ choice s, A s (access choice s) ∧ (next choice s).Makes A

section Makes

variable {A : σ → σ → Prop}

theorem makes_done (result : α) : (done result : Program σ χ α).Makes A := trivial

theorem Makes.atomic {act : χ → σ → α × σ} (hact : ∀ choice s, A s (act choice s).2) :
    (Program.atomic act).Makes A :=
  fun choice s => ⟨hact choice s, trivial⟩

theorem Makes.bind {program : Program σ χ α} {rest : α → Program σ χ β}
    (h : program.Makes A) (hrest : ∀ result, (rest result).Makes A) :
    (program >>= rest).Makes A := by
  induction program with
  | done result => exact hrest result
  | step access next ih => exact fun choice s => ⟨(h choice s).1, ih choice s (h choice s).2⟩

/-- What the accesses do one by one, the run does as a whole. -/
theorem Makes.run {program : Program σ χ α} (h : program.Makes A) (hrefl : ∀ s, A s s)
    (htrans : ∀ s t u, A s t → A t u → A s u) (choices : ℕ → χ) (s : σ) :
    A s (program.run choices s).2 := by
  induction program generalizing choices s with
  | done result => exact hrefl s
  | step access next ih =>
      have hstep := h (choices 0) s
      exact htrans _ _ _ hstep.1 (ih _ _ hstep.2 _ _)

end Makes

end Program

/-- A thread: the request it serves, the state that the request arrived in, and
what is left to do. -/
structure Machine.Thread (σ χ ρ α : Type) where
  request : ρ
  since : σ
  program : Program σ χ α

/-- Threads over one shared state. -/
structure Machine (σ χ ρ α : Type) where
  shared : σ
  threads : List (Machine.Thread σ χ ρ α) := []

namespace Machine

variable {σ χ ρ α : Type}

inductive Action (χ ρ : Type) where
  /-- A request arrives. -/
  | spawn (request : ρ)
  /-- The next access of a thread. -/
  | access (i : ℕ) (choice : χ)

def step (serve : ρ → Program σ χ α) (m : Machine σ χ ρ α) :
    Action χ ρ → Option (Machine σ χ ρ α)
  | .spawn request =>
      some { m with threads := m.threads ++ [⟨request, m.shared, serve request⟩] }
  | .access i choice =>
      match m.threads[i]? with
      | some ⟨request, since, .step access next⟩ =>
          some
            { shared := access choice m.shared
              threads := m.threads.set i ⟨request, since, next choice m.shared⟩ }
      | _ => none

/-- The runs of the requests that a server takes. -/
def system (serve : ρ → Program σ χ α) (init : σ → Prop) :
    Transition.System (Machine σ χ ρ α) (Action χ ρ) where
  init m := init m.shared ∧ m.threads = []
  step m action := m.step serve action

/-- A guard on the choices of the accesses. -/
def Admits (ok : χ → σ → Prop) (m : Machine σ χ ρ α) : Action χ ρ → Prop
  | .spawn _ => True
  | .access _ choice => ok choice m.shared

instance {ok : χ → σ → Prop} [∀ choice s, Decidable (ok choice s)] (m : Machine σ χ ρ α) :
    (action : Action χ ρ) → Decidable (Admits ok m action)
  | .spawn _ => isTrue trivial
  | .access _ choice => inferInstanceAs (Decidable (ok choice m.shared))

variable {serve : ρ → Program σ χ α} {init : σ → Prop} {ok : χ → σ → Prop} {G : σ → σ → Prop}
  {m m' : Machine σ χ ρ α} {Q : ρ → σ → α → σ → Prop} {P₀ : σ → σ → Prop}

/-- What a step of the machine is. -/
theorem step_cases {action : Action χ ρ} (h : m.step serve action = some m') :
    (∃ request, action = .spawn request ∧
      m' = { m with threads := m.threads ++ [⟨request, m.shared, serve request⟩] }) ∨
    ∃ i choice request since access next, action = .access i choice ∧
      m.threads[i]? = some ⟨request, since, .step access next⟩ ∧
      m' = { shared := access choice m.shared
             threads := m.threads.set i ⟨request, since, next choice m.shared⟩ } := by
  cases action with
  | spawn request => exact .inl ⟨request, rfl, (Option.some.inj h).symm⟩
  | access i choice =>
      simp only [step] at h
      split at h
      · next request since access next hthread =>
          exact .inr ⟨i, choice, request, since, access, next, rfl, hthread,
            (Option.some.inj h).symm⟩
      · cases h

/-- A thread keeps its request and where it arrived. -/
theorem thread_kept {action : Action χ ρ} (h : m.step serve action = some m') {j : ℕ} {request : ρ}
    {since : σ} {program : Program σ χ α}
    (hthread : m.threads[j]? = some ⟨request, since, program⟩) :
    ∃ program, m'.threads[j]? = some ⟨request, since, program⟩ := by
  obtain ⟨hlt, -⟩ := List.getElem?_eq_some_iff.mp hthread
  rcases step_cases h with ⟨request, rfl, rfl⟩ |
    ⟨i, choice, own, started, access, next, rfl, hown, rfl⟩
  · exact ⟨program, (List.getElem?_append_left hlt).trans hthread⟩
  · by_cases hij : i = j
    · subst hij
      cases hthread.symm.trans hown
      exact ⟨_, List.getElem?_set_self hlt⟩
    · exact ⟨program, (List.getElem?_set_ne hij).trans hthread⟩

/-- Threads that meet their assertions one by one, each starting with what is
known where its request arrives, meet them together. -/
theorem meets {I : σ → Prop} (hinit : ∀ s, init s → I s) (hI : Program.Stable G I)
    (hstart : ∀ s, I s → Program.Stable G (P₀ s) ∧ P₀ s s)
    (hserve : ∀ request since, (serve request).Meets ok G (Q request since) (P₀ since))
    (h : Transition.ReachableBy (system serve init) (Admits ok) m) :
    I m.shared ∧ ∀ thread ∈ m.threads, ∃ P, Program.Stable G P ∧ P m.shared ∧
      thread.program.Meets ok G (Q thread.request thread.since) P := by
  refine h.invariant (I := fun m => I m.shared ∧ ∀ thread ∈ m.threads, ∃ P,
    Program.Stable G P ∧ P m.shared ∧
      thread.program.Meets ok G (Q thread.request thread.since) P) ?_ ?_
  · rintro m ⟨hm, hthreads⟩
    exact ⟨hinit _ hm, by simp [hthreads]⟩
  · rintro m action m' - ⟨hs, hthreads⟩ hok hstep
    rcases step_cases hstep with ⟨request, rfl, rfl⟩ |
      ⟨i, choice, request, since, access, next, rfl, hthread, rfl⟩
    · refine ⟨hs, fun thread hmem => ?_⟩
      rcases List.mem_append.mp hmem with hmem | hmem
      · exact hthreads thread hmem
      · obtain rfl := List.mem_singleton.mp hmem
        exact ⟨P₀ m.shared, (hstart _ hs).1, (hstart _ hs).2, hserve request m.shared⟩
    · obtain ⟨P, hP, hPs, hmeets⟩ := hthreads _ (List.mem_of_getElem? hthread)
      obtain ⟨hG, P', hP', hPs', hnext⟩ := hmeets choice m.shared hPs hok
      refine ⟨hI _ _ hG hs, fun other hmem => ?_⟩
      rcases List.mem_or_eq_of_mem_set hmem with hmem | rfl
      · obtain ⟨P, hP, hPs, hother⟩ := hthreads other hmem
        exact ⟨P, hP, hP _ _ hG hPs, hother⟩
      · exact ⟨P', hP', hPs', hnext⟩

/-- A step of the machine is one that the threads agreed on. -/
theorem guarantee {I : σ → Prop} (hinit : ∀ s, init s → I s) (hI : Program.Stable G I)
    (hstart : ∀ s, I s → Program.Stable G (P₀ s) ∧ P₀ s s)
    (hserve : ∀ request since, (serve request).Meets ok G (Q request since) (P₀ since))
    (h : Transition.ReachableBy (system serve init) (Admits ok) m) {i : ℕ} {choice : χ}
    (hok : ok choice m.shared) (hstep : m.step serve (.access i choice) = some m') :
    G m.shared m'.shared := by
  rcases step_cases hstep with ⟨request, hspawn, -⟩ |
    ⟨j, choice', request, since, access, next, haction, hthread, rfl⟩
  · cases hspawn
  · cases haction
    obtain ⟨P, -, hP, hmeets⟩ := (meets hinit hI hstart hserve h).2 _
      (List.mem_of_getElem? hthread)
    exact (hmeets choice m.shared hP hok).1

/-- A thread that is done has its result. -/
theorem meets_done {I : σ → Prop} (hinit : ∀ s, init s → I s) (hI : Program.Stable G I)
    (hstart : ∀ s, I s → Program.Stable G (P₀ s) ∧ P₀ s s)
    (hserve : ∀ request since, (serve request).Meets ok G (Q request since) (P₀ since))
    (h : Transition.ReachableBy (system serve init) (Admits ok) m) {request : ρ} {since : σ}
    {result : α} (hthread : ⟨request, since, .done result⟩ ∈ m.threads) :
    Q request since result m.shared := by
  obtain ⟨P, -, hs, hmeets⟩ := (meets hinit hI hstart hserve h).2 _ hthread
  exact hmeets _ hs

end Machine
