import GatewaySystem.App.ControlPlane
import GatewaySystem.Lib.Pool

/-!
# The limit on failed checks

A check tests the limit, verifies the credential, and records the failure or
clears the counter, in three accesses. The counter is as large as the number of
credentials it has seen only while the checks of a client do not overlap: then
it never passes the limit, and a counter that has reached the limit stays until
it expires. Checks that overlap have all passed the test before any of them is
counted, and one that succeeds late clears a counter that is full.
-/

namespace GatewaySystem

namespace App

namespace Event

/-- The limit of a client is tested. -/
def starts (clientId : Bytes) : Event → Bool
  | authFailureLimited client _ => client = clientId
  | _ => false

/-- A check of a client goes on behind the limit. -/
def checks (clientId : Bytes) : Event → Bool
  | verifyDigest client _ _ => client = clientId
  | recordAuthFailure client _ => client = clientId
  | clearAuthFailures client _ => client = clientId
  | _ => false

def concerns (clientId : Bytes) (event : Event) : Bool :=
  event.starts clientId || event.checks clientId

/-- A credential is evaluated and does not match. -/
def refuses (clientId : Bytes) : Event → Bool
  | verifyDigest client _ (.ok decision) => client = clientId && decision ≠ .allowed
  | _ => false

def clears (clientId : Bytes) : Event → Bool
  | clearAuthFailures client (.ok _) => client = clientId
  | _ => false

theorem checks_of_starts {clientId : Bytes} {event : Event} (h : event.starts clientId = true) :
    event.checks clientId = false := by
  cases event with
  | authFailureLimited => rfl
  | _ => cases h

theorem refuses_of_checks {clientId : Bytes} {event : Event} (h : event.checks clientId = false) :
    event.refuses clientId = false := by
  unfold refuses
  split
  · next client _ decision =>
      have hclient : decide (client = clientId) = false := h
      rw [hclient, Bool.false_and]
  · rfl

end Event

/-- A failure is recorded where there is no counter. -/
def Past.Creates (b : StoreBackend) (clientId : Bytes) (past : Past b.State) : Prop :=
  (b.view past.store).live past.now clientId = none ∧
    ∃ count, past.event = .recordAuthFailure clientId (.ok count)

/-- When the counter expires in which a failure is recorded. -/
def View.expiry (v : View) (b : StoreBackend) (policy : AuthFailurePolicy) (clientId : Bytes)
    (now : ℤ) : ℤ :=
  match v.live now clientId with
  | none => now + b.lifetime policy.window
  | some counter => counter.expiresAt

def Past.expiry (b : StoreBackend) (policy : AuthFailurePolicy) (clientId : Bytes)
    (past : Past b.State) : ℤ :=
  (b.view past.store).expiry b policy clientId past.now

/-- The event of the next access of a task. -/
def nextEvent {σ α : Type} (w : World σ) : Task σ α → Option Event
  | .done _ => none
  | .step access _ =>
      ((access { now := w.now } { w with history := [] }).history.head?).map Past.event

variable {b : StoreBackend} {platform : Platform} {policy : AuthFailurePolicy}
  {config : ApplicationConfig} {clientId : Bytes}

namespace Plane

/-- The event of the next access of a thread. -/
def next (m : Plane b) (i : ℕ) : Option Event :=
  m.threads[i]?.bind fun thread => nextEvent m.shared thread.program

/-- The limit of a client is tested while no other check of that client is under
way behind the limit, and the store does not fail in the checks of that client. -/
def Alone (clientId : Bytes) (m : Plane b) : Machine.Action Choice HttpRequest → Prop
  | .spawn _ => True
  | .access i choice => ((m.next i).any (·.concerns clientId) → choice.fault = .none) ∧
      ((m.next i).any (·.starts clientId) → ∀ j < m.threads.length, j ≠ i →
        ¬(m.next j).any (·.checks clientId))

instance (m : Plane b) : (action : Machine.Action Choice HttpRequest) →
    Decidable (m.Alone clientId action)
  | .spawn _ => isTrue trivial
  | .access i choice => inferInstanceAs
      (Decidable (((m.next i).any (·.concerns clientId) → choice.fault = .none) ∧
      ((m.next i).any (·.starts clientId) → ∀ j < m.threads.length, j ≠ i →
        ¬(m.next j).any (·.checks clientId))))

end Plane

/-- Where a thread is in the check of a client, if it makes one. -/
inductive Stage where
  | quiet
  | starting
  | verifying
  | settling (decision : TokenAuthDecision)

/-- An access that has nothing to do with the checks of a client. -/
def Unconcerned {σ : Type} (clientId : Bytes) (w w' : World σ) : Prop :=
  w'.history = w.history ∨ ∃ past, w'.history = past :: w.history ∧
    past.event.starts clientId = false ∧ past.event.checks clientId = false

namespace Stage

/-- The thread is behind the limit. -/
def checking : Stage → Bool
  | verifying | settling _ => true
  | _ => false

/-- The thread has evaluated a credential that it has not counted. -/
def pending : Stage → Bool
  | settling decision => decision ≠ .allowed
  | _ => false

theorem checking_of_pending {stage : Stage} (h : stage.pending = true) :
    stage.checking = true := by
  cases stage with
  | settling decision => rfl
  | _ => cases h

def At {σ : Type} (a : Application σ) (clientId : Bytes) : Stage → Task σ HttpResponse → Prop
  | quiet, task => task.Makes (Unconcerned clientId)
  | starting, task => ∃ r req, req.clientId = clientId ∧ task = a.startAuthCheck r req
  | verifying, task => ∃ r req, req.clientId = clientId ∧ task = a.verifyAuthCheck r req
  | settling decision, task => ∃ r, task = a.settleAuthCheck r clientId decision

end Stage

section Requests

variable {σ : Type}

theorem perform_makes {α : Type} {remote : Bool} {access : Access σ α}
    {event : Except StoreError α → Event}
    (h : ∀ result, (event result).starts clientId = false ∧
      (event result).checks clientId = false) :
    (perform remote access event).Makes (Unconcerned clientId) := by
  refine Program.Makes.atomic fun choice w => ?_
  unfold World.perform
  split
  · exact .inr ⟨_, rfl, h _⟩
  · exact .inl rfl
  · exact .inr ⟨_, rfl, h _⟩

theorem ask_makes : (ask : Task σ Choice).Makes (Unconcerned clientId) :=
  Program.Makes.atomic fun _ _ => .inl rfl

theorem listRest_makes (clientIds : List Bytes) (entries : List TokenEntry) :
    (RedisStore.listRest clientIds entries).Makes (Unconcerned clientId) := by
  induction clientIds generalizing entries with
  | nil => exact trivial
  | cons client clientIds ih =>
      refine (perform_makes fun _ => ⟨rfl, rfl⟩).bind fun result => ?_
      cases result with
      | error error => exact trivial
      | ok found => exact ih _

theorem listTokens_makes :
    (b.store platform).listTokens.Makes (Unconcerned clientId) := by
  cases b with
  | memory => exact perform_makes fun _ => ⟨rfl, rfl⟩
  | redis =>
      refine (perform_makes fun _ => ⟨rfl, rfl⟩).bind fun result => ?_
      cases result with
      | error error => exact trivial
      | ok clientIds => exact listRest_makes _ _

theorem getConfig_makes :
    (b.store platform).getConfig.Makes (Unconcerned clientId) := by
  cases b with
  | memory => exact perform_makes fun _ => ⟨rfl, rfl⟩
  | redis =>
      refine (perform_makes fun _ => ⟨rfl, rfl⟩).bind fun result => ?_
      cases result with
      | error error => exact trivial
      | ok value => exact perform_makes fun _ => ⟨rfl, rfl⟩

theorem startAuthCheck_makes (a : Application σ) (r : HttpRequest) {req : AuthCheckRequest}
    (hclient : req.clientId ≠ clientId) :
    (a.startAuthCheck r req).Makes (Unconcerned clientId) := by
  have hne : decide (req.clientId = clientId) = false := decide_eq_false hclient
  refine Program.Makes.bind (perform_makes ?_) fun result => ?_
  · exact fun _ => ⟨hne, rfl⟩
  match result with
  | .error _ => exact trivial
  | .ok true => exact trivial
  | .ok false =>
      refine Program.Makes.bind (perform_makes ?_) fun result => ?_
      · exact fun _ => ⟨rfl, hne⟩
      cases result with
      | error error => exact trivial
      | ok decision =>
          show (a.settleAuthCheck r req.clientId decision).Makes _
          unfold Application.settleAuthCheck
          split
          all_goals
            refine Program.Makes.bind (perform_makes ?_) fun result => ?_
            · exact fun _ => ⟨rfl, hne⟩
            cases result <;> exact trivial

/-- Every route but the authentication check is quiet. -/
theorem run_makes (r : HttpRequest) {handler : Application.Handler}
    (h : handler ≠ .authCheck) :
    ((routesWithConfig b platform config policy).run r handler).Makes
      (Unconcerned clientId) := by
  cases handler with
  | answer | health => exact trivial
  | authCheck => exact absurd rfl h
  | ready =>
      simp only [Application.run, Application.handleReady]
      split
      · exact trivial
      · refine (perform_makes fun _ => ⟨rfl, rfl⟩).bind fun result => ?_
        cases result <;> exact trivial
  | tokensList =>
      refine listTokens_makes.bind fun result => ?_
      cases result <;> exact trivial
  | tokensDelete =>
      simp only [Application.run, Application.handleTokensDelete]
      split
      · refine ask_makes.bind fun choice => ?_
        refine (perform_makes fun _ => ⟨rfl, rfl⟩).bind fun result => ?_
        split <;> exact trivial
      · exact trivial
  | tokensUpsert | tokensRotate =>
      simp only [Application.run, Application.handleTokensUpsert, Application.handleTokensRotate]
      split
      · exact trivial
      · split
        · exact trivial
        · refine ask_makes.bind fun choice => ?_
          split
          · exact trivial
          · refine ask_makes.bind fun choice' => ?_
            refine (perform_makes fun _ => ⟨rfl, rfl⟩).bind fun result => ?_
            split <;> exact trivial
  | configGet =>
      refine getConfig_makes.bind fun result => ?_
      cases result <;> exact trivial
  | configUpdate =>
      simp only [Application.run, Application.handleConfigUpdate]
      split
      · exact trivial
      · refine (perform_makes fun _ => ⟨rfl, rfl⟩).bind fun result => ?_
        split <;> exact trivial

/-- A request starts a check of the client or has nothing to do with one. -/
theorem run_stage (r : HttpRequest) (handler : Application.Handler) :
    ∃ stage : Stage, stage.checking = false ∧
      stage.At (routesWithConfig b platform config policy) clientId
        ((routesWithConfig b platform config policy).run r handler) := by
  by_cases hhandler : handler = .authCheck
  · subst hhandler
    simp only [Application.run]
    unfold Application.handleAuthCheck
    split
    · exact ⟨.quiet, rfl, trivial⟩
    · next req _ =>
        by_cases hclient : req.clientId = clientId
        · exact ⟨.starting, rfl, r, req, hclient, rfl⟩
        · exact ⟨.quiet, rfl, startAuthCheck_makes _ r hclient⟩
  · exact ⟨.quiet, rfl, run_makes r hhandler⟩

end Requests

/-- A counter is left as it is, or it had expired and is removed. -/
def View.Spares (now : ℤ) (clientId : Bytes) (v v' : View) : Prop :=
  v'.failure clientId = v.failure clientId ∨
    v'.failure clientId = none ∧ v.live now clientId = none

/-- What a step of a thread does to its stage and to the counter of the client. -/
inductive Turn (b : StoreBackend) (policy : AuthFailurePolicy) (clientId : Bytes) (now : ℤ) :
    Stage → View → Option Event → Stage → View → Prop
  | calm {stage stage' : Stage} {v v' : View} {event : Option Event}
      (hstage : stage.checking = false) (hstage' : stage'.checking = false)
      (hevent : ∀ e ∈ event, e.checks clientId = false) (hspares : v.Spares now clientId v') :
      Turn b policy clientId now stage v event stage' v'
  | pass {v v' : View} {event : Event} (hevent : event.checks clientId = false)
      (hspares : v.Spares now clientId v') (h : v.limited now clientId policy.limit = false) :
      Turn b policy clientId now .starting v (some event) .verifying v'
  | verify {v : View} {digest : Bytes} {decision : TokenAuthDecision} :
      Turn b policy clientId now .verifying v
        (some (.verifyDigest clientId digest (.ok decision))) (.settling decision) v
  | unverified {v : View} {digest : Bytes} {error : StoreError} :
      Turn b policy clientId now .verifying v
        (some (.verifyDigest clientId digest (.error error))) .quiet v
  | first {v : View} {decision : TokenAuthDecision} (hdecision : decision ≠ .allowed)
      (h : v.live now clientId = none) :
      Turn b policy clientId now (.settling decision) v
        (some (.recordAuthFailure clientId (.ok 1))) .quiet
        (v.setFailure clientId (some ⟨1, now + b.lifetime policy.window⟩))
  | next {v : View} {decision : TokenAuthDecision} {counter : MemoryAuthFailure}
      (hdecision : decision ≠ .allowed) (h : v.live now clientId = some counter) :
      Turn b policy clientId now (.settling decision) v
        (some (.recordAuthFailure clientId (.ok (counter.count + 1)))) .quiet
        (v.setFailure clientId (some { counter with count := counter.count + 1 }))
  | overflow {v v' : View} {decision : TokenAuthDecision} {counter : MemoryAuthFailure}
      {result : Except StoreError ℤ} (h : v.live now clientId = some counter)
      (hcount : int64Max ≤ counter.count) :
      Turn b policy clientId now (.settling decision) v
        (some (.recordAuthFailure clientId result)) .quiet v'
  | clear {v v' : View} :
      Turn b policy clientId now (.settling .allowed) v
        (some (.clearAuthFailures clientId (.ok ()))) .quiet v'

theorem Effect.spares {now : ℤ} {v v' : View} {event : Event}
    (h : Effect b platform policy now v event v') (hevent : event.checks clientId = false) :
    v.Spares now clientId v' := by
  have hset : ∀ {client : Bytes} (counter : Option MemoryAuthFailure),
      decide (client = clientId) = false → v.Spares now clientId (v.setFailure client counter) :=
    fun counter hne => .inl (Function.update_of_ne (fun heq => by simp [heq] at hne) ..)
  cases h with
  | limited _ _ hfailure => exact hfailure clientId
  | recordFirst => exact hset _ hevent
  | recordNext => exact hset _ hevent
  | recordOverflow => exact hset _ hevent
  | clear => exact hset _ hevent
  | _ => exact .inl rfl

theorem step_of_perform {σ α β : Type} {remote : Bool} {access : Access σ α}
    {event : Except StoreError α → Event} {rest : Except StoreError α → Task σ β}
    {act : Choice → World σ → World σ} {next : Choice → World σ → Task σ β}
    (h : .step act next = perform remote access event >>= rest) {choice : Choice}
    (hfault : choice.fault = .none) (w : World σ) :
    act choice w = w.commit choice.now access event ∧
      next choice w = rest (access choice.now w.store).1 := by
  obtain ⟨rfl, rfl⟩ := Program.step.inj h
  constructor
  · show (World.perform remote access event choice w).2 = _
    rw [World.perform_none hfault]
  · show rest (World.perform remote access event choice w).1 = _
    rw [World.perform_none hfault]

namespace Stage

section Next

variable {σ : Type} {a : Application σ} {w : World σ} {task : Task σ HttpResponse}

theorem quiet_nextEvent (h : quiet.At a clientId task) {event : Event}
    (hnext : nextEvent w task = some event) :
    event.starts clientId = false ∧ event.checks clientId = false := by
  cases task with
  | done result => cases hnext
  | step act next =>
      obtain ⟨past, hpast, rfl⟩ := Option.map_eq_some_iff.mp hnext
      rcases (h { now := w.now } { w with history := [] }).1 with hsame | ⟨new, hnew, hevent⟩
      · rw [hsame] at hpast
        cases hpast
      · rw [hnew] at hpast
        obtain rfl := Option.some.inj hpast
        exact hevent

theorem nextEvent_perform {α : Type} {remote : Bool} {access : Access σ α}
    {event : Except StoreError α → Event} {rest : Except StoreError α → Task σ HttpResponse}
    {p : Event → Bool} (hp : ∀ result, p (event result)) :
    (nextEvent w (perform remote access event >>= rest)).any p := by
  have hnext : nextEvent w (perform remote access event >>= rest) =
      some (event (access w.now w.store).1) := by
    show ((World.perform remote access event { now := w.now }
      { w with history := [] }).2.history.head?).map Past.event = _
    rw [World.perform_none rfl]
    rfl
  rw [hnext]
  exact hp _

theorem starting_nextEvent (h : starting.At a clientId task) :
    (nextEvent w task).any (·.starts clientId) := by
  obtain ⟨r, req, rfl, rfl⟩ := h
  exact nextEvent_perform fun _ => decide_eq_true rfl

theorem checking_nextEvent {stage : Stage} (hstage : stage.checking = true)
    (h : stage.At a clientId task) : (nextEvent w task).any (·.checks clientId) := by
  cases stage with
  | quiet => cases hstage
  | starting => cases hstage
  | verifying =>
      obtain ⟨r, req, rfl, rfl⟩ := h
      exact nextEvent_perform fun _ => decide_eq_true rfl
  | settling decision =>
      obtain ⟨r, rfl⟩ := h
      unfold Application.settleAuthCheck
      split
      all_goals exact nextEvent_perform fun _ => decide_eq_true rfl

theorem concerned_nextEvent {stage : Stage} (hstage : stage ≠ .quiet)
    (h : stage.At a clientId task) : (nextEvent w task).any (·.concerns clientId) := by
  have hevent : ∀ p : Event → Bool, (nextEvent w task).any p →
      (∀ event, p event → event.concerns clientId) →
        (nextEvent w task).any (·.concerns clientId) := by
    intro p hany himp
    obtain ⟨event, hnext, hp⟩ := (Option.any_eq_true _ _).mp hany
    exact (Option.any_eq_true _ _).mpr ⟨event, hnext, himp event hp⟩
  cases stage with
  | quiet => exact absurd rfl hstage
  | starting =>
      exact hevent _ (starting_nextEvent h) fun event hp => by rw [Event.concerns, hp, Bool.true_or]
  | _ =>
      exact hevent _ (checking_nextEvent rfl h) fun event hp => by
        rw [Event.concerns, hp, Bool.or_true]

end Next

variable {w : World b.State} {choice : Choice} {act : Choice → World b.State → World b.State}
  {next : Choice → World b.State → Task b.State HttpResponse}

theorem effect_of_perform {α : Type} {remote : Bool} {access : Access b.State α}
    {event : Except StoreError α → Event}
    {rest : Except StoreError α → Task b.State HttpResponse}
    (h : .step act next = perform remote access event >>= rest) (hfault : choice.fault = .none)
    (hsound : b.Sound w.store) (hlawful : Lawful b platform policy b.view b.Sound access event) :
    ∃ result store, act choice w =
        { store := store, now := choice.now
          history := ⟨w.store, choice.now, event result⟩ :: w.history } ∧
      next choice w = rest result ∧
      Effect b platform policy choice.now (b.view w.store) (event result) (b.view store) := by
  obtain ⟨hact, hnext⟩ := step_of_perform h hfault w
  exact ⟨_, _, hact, hnext, (hlawful choice.now w.store hsound).2⟩

/-- The turn of a thread that makes its next access. -/
theorem turn {stage : Stage}
    (hstage : stage.At (routesWithConfig b platform config policy) clientId (.step act next))
    (hfault : stage ≠ .quiet → choice.fault = .none) (hsound : b.Sound w.store)
    (hmove : Move b platform policy w (act choice w)) :
    ∃ event stage',
      stage'.At (routesWithConfig b platform config policy) clientId (next choice w) ∧
      (act choice w).history =
        (event.map (Past.mk w.store (act choice w).now)).toList ++ w.history ∧
      Turn b policy clientId (act choice w).now stage (b.view w.store) event stage'
        (b.view (act choice w).store) := by
  cases stage with
  | quiet =>
      obtain ⟨hunconcerned, hnext⟩ := hstage choice w
      generalize act choice w = w' at hunconcerned hmove ⊢
      cases hmove with
      | idle => exact ⟨none, .quiet, hnext, rfl, .calm rfl rfl (by simp) (.inl rfl)⟩
      | @effect now event store _ _ heffect =>
          rcases hunconcerned with hsame | ⟨past, hpast, -, hchecks⟩
          · simp at hsame
          · obtain ⟨rfl, -⟩ := List.cons.inj hpast
            exact ⟨some event, .quiet, hnext, rfl,
              .calm rfl rfl (by simpa using hchecks) (heffect.spares hchecks)⟩
  | starting =>
      obtain ⟨r, req, rfl, heq⟩ := hstage
      obtain ⟨result, store, hact, hnext, heffect⟩ := effect_of_perform heq (hfault (by simp))
        hsound (b.authFailureLimited_lawful platform policy req.clientId)
      rw [hact, hnext]
      simp only
      generalize b.view w.store = v, b.view store = v' at heffect ⊢
      have hspares : v.Spares choice.now req.clientId v' := heffect.spares rfl
      cases heffect with
      | limited =>
          cases hlimited : v.limited choice.now req.clientId policy.limit with
          | true =>
              exact ⟨some _, .quiet, trivial, rfl, .calm rfl rfl (by simp [Event.checks]) hspares⟩
          | false =>
              exact ⟨some _, .verifying, ⟨r, req, rfl, rfl⟩, rfl, .pass rfl hspares hlimited⟩
  | verifying =>
      obtain ⟨r, req, rfl, heq⟩ := hstage
      obtain ⟨result, store, hact, hnext, heffect⟩ := effect_of_perform heq (hfault (by simp))
        hsound (b.verifyDigest_lawful platform policy req.clientId _)
      rw [hact, hnext]
      simp only
      generalize req.clientId = client, b.view w.store = v, b.view store = v' at heffect ⊢
      cases heffect with
      | verify => exact ⟨some _, .settling _, ⟨r, rfl⟩, rfl, .verify⟩
      | unverified => exact ⟨some _, .quiet, trivial, rfl, .unverified⟩
  | settling decision =>
      obtain ⟨r, heq⟩ := hstage
      unfold Application.settleAuthCheck at heq
      split at heq
      · next hdecision =>
          obtain ⟨result, store, hact, hnext, heffect⟩ := effect_of_perform heq (hfault (by simp))
            hsound (b.recordAuthFailure_lawful platform policy clientId)
          have hquiet : quiet.At (routesWithConfig b platform config policy) clientId
              (next choice w) := by
            rw [hnext]
            cases result <;> exact trivial
          rw [hact]
          simp only
          generalize b.view w.store = v, b.view store = v' at heffect ⊢
          cases heffect with
          | recordFirst h => exact ⟨some _, .quiet, hquiet, rfl, .first hdecision h⟩
          | recordNext h => exact ⟨some _, .quiet, hquiet, rfl, .next hdecision h⟩
          | recordOverflow h hcount => exact ⟨some _, .quiet, hquiet, rfl, .overflow h hcount⟩
      · next hdecision =>
          obtain rfl : decision = .allowed := not_not.mp hdecision
          obtain ⟨result, store, hact, hnext, heffect⟩ := effect_of_perform heq (hfault (by simp))
            hsound (b.clearAuthFailures_lawful platform policy clientId)
          rw [hact, hnext]
          simp only
          generalize b.view w.store = v, b.view store = v' at heffect ⊢
          cases heffect with
          | clear => exact ⟨some _, .quiet, trivial, rfl, .clear⟩

end Stage

section Counters

variable {now before expiry : ℤ} {v v' : View} {stage stage' : Stage} {event : Option Event}

/-- A counter that has not expired is below the limit. -/
def View.Below (v : View) (policy : AuthFailurePolicy) (clientId : Bytes) (now : ℤ) : Prop :=
  ∀ counter, v.live now clientId = some counter → counter.count < policy.limit

/-- The counter that expires at `expiry` has reached the limit. -/
def View.Full (v : View) (policy : AuthFailurePolicy) (clientId : Bytes) (now expiry : ℤ) : Prop :=
  now < expiry → ∃ counter, v.failure clientId = some counter ∧ counter.expiresAt = expiry ∧
    policy.limit ≤ counter.count

/-- The counter that expires at `expiry` has seen its first failure and
`evaluated` more, of which `pending` are not recorded. -/
structure View.Counted (v : View) (policy : AuthFailurePolicy) (clientId : Bytes)
    (now expiry : ℤ) (pending evaluated : ℕ) : Prop where
  bound : (evaluated : ℤ) < policy.limit
  live : now < expiry → ∃ counter, v.failure clientId = some counter ∧
    counter.expiresAt = expiry ∧ (evaluated : ℤ) + 1 ≤ counter.count + pending

theorem View.Spares.live (h : v.Spares now clientId v') (htime : before ≤ now)
    {counter : MemoryAuthFailure} (hcounter : v'.live now clientId = some counter) :
    v.live before clientId = some counter := by
  obtain ⟨hfailure, hlive⟩ := View.live_eq_some.mp hcounter
  rcases h with hsame | ⟨hnone, -⟩
  · exact View.live_eq_some.mpr ⟨hsame ▸ hfailure, by omega⟩
  · rw [hnone] at hfailure
    cases hfailure

theorem View.Spares.failure (h : v.Spares now clientId v') {counter : MemoryAuthFailure}
    (hcounter : v.failure clientId = some counter) (htime : now < counter.expiresAt) :
    v'.failure clientId = some counter := by
  rcases h with hsame | ⟨-, hlive⟩
  · exact hsame.trans hcounter
  · cases hlive.symm.trans (View.live_eq_some.mpr ⟨hcounter, htime⟩)

theorem View.Below.later (h : v.Below policy clientId before) (htime : before ≤ now)
    (hspares : v.Spares now clientId v') : v'.Below policy clientId now :=
  fun _ hcounter => h _ (hspares.live htime hcounter)

theorem View.Spares.refl (now : ℤ) (v : View) : v.Spares now clientId v := .inl rfl

/-- A thread behind the limit keeps the counter below it until it settles. -/
theorem Turn.below (h : Turn b policy clientId now stage v event stage' v')
    (htime : before ≤ now) (hstage' : stage'.checking = true)
    (hbelow : stage.checking = true → v.Below policy clientId before) :
    v'.Below policy clientId now := by
  cases h with
  | calm _ hnot => simp [hstage'] at hnot
  | pass _ hspares hlimited =>
      intro counter hcounter
      have hlive := hspares.live le_rfl hcounter
      simpa [View.limited, hlive] using hlimited
  | verify => exact (hbelow rfl).later htime (.refl now v)
  | _ => cases hstage'

/-- A full counter stays, since no thread is behind the limit. -/
theorem Turn.full (h : Turn b policy clientId now stage v event stage' v')
    (htime : before ≤ now) (hbelow : stage.checking = true → v.Below policy clientId before)
    (hfull : v.Full policy clientId before expiry) : v'.Full policy clientId now expiry := by
  intro hlt
  obtain ⟨counter, hcounter, rfl, hcount⟩ := hfull (by omega)
  have hchecking : stage.checking = false := by
    by_contra hstage
    have := hbelow (by simpa using hstage) counter
      (View.live_eq_some.mpr ⟨hcounter, by omega⟩)
    omega
  cases h with
  | calm _ _ _ hspares => exact ⟨counter, hspares.failure hcounter hlt, rfl, hcount⟩
  | pass _ hspares => exact ⟨counter, hspares.failure hcounter hlt, rfl, hcount⟩
  | _ => cases hchecking

/-- A failure that reaches the limit fills the counter. -/
theorem Turn.fills {count : ℤ}
    (h : Turn b policy clientId now stage v (some (.recordAuthFailure clientId (.ok count))) stage'
      v') (hmax : policy.limit ≤ int64Max)
    (hbelow : stage.checking = true → v.Below policy clientId now)
    (hcount : policy.limit ≤ count) :
    v'.Full policy clientId now (v.expiry b policy clientId now) := by
  intro _
  cases h with
  | calm _ _ hevent => simp [Event.checks] at hevent
  | first _ hlive =>
      exact ⟨_, Function.update_self .., by rw [View.expiry, hlive], hcount⟩
  | next _ hlive =>
      exact ⟨_, Function.update_self .., by rw [View.expiry, hlive], hcount⟩
  | overflow hlive hfull =>
      have := hbelow rfl _ hlive
      omega
  | pass hevent => simp [Event.checks] at hevent

theorem Turn.creates {count : ℤ} {pending : ℕ}
    (h : Turn b policy clientId now stage v (some (.recordAuthFailure clientId (.ok count))) stage'
      v') (hlimit : 1 ≤ policy.limit) (hnone : v.live now clientId = none) :
    v'.Counted policy clientId now (v.expiry b policy clientId now) pending 0 := by
  refine ⟨by omega, fun _ => ?_⟩
  cases h with
  | calm _ _ hevent => simp [Event.checks] at hevent
  | first =>
      refine ⟨_, Function.update_self .., by rw [View.expiry, hnone], ?_⟩
      simp only
      omega
  | next _ hlive => cases hnone.symm.trans hlive
  | overflow hlive => cases hnone.symm.trans hlive
  | pass hevent => simp [Event.checks] at hevent

theorem View.Counted.spared {pending evaluated : ℕ}
    (h : v.Counted policy clientId before expiry pending evaluated) (htime : before ≤ now)
    (hspares : v.Spares now clientId v') :
    v'.Counted policy clientId now expiry pending evaluated := by
  refine ⟨h.bound, fun hlt => ?_⟩
  obtain ⟨counter, hcounter, rfl, hcount⟩ := h.live (by omega)
  exact ⟨counter, hspares.failure hcounter hlt, rfl, hcount⟩

theorem Stage.pending_of_checking (h : stage.checking = false) : stage.pending = false := by
  by_contra hpending
  rw [checking_of_pending (by simpa using hpending)] at h
  cases h

/-- A counter and the evaluations since it was created grow together. -/
theorem Turn.counted {pending pending' evaluated evaluated' : ℕ}
    (h : Turn b policy clientId now stage v event stage' v') (htime : before ≤ now)
    (hmax : policy.limit ≤ int64Max)
    (hbelow : stage.checking = true → v.Below policy clientId before)
    (hpending : stage.checking = true → pending = if stage.pending then 1 else 0)
    (hpending' : pending' + (if stage.pending then 1 else 0) =
      pending + if stage'.pending then 1 else 0)
    (hclears : ∀ e ∈ event, e.clears clientId = false)
    (hevaluated : evaluated' = evaluated +
      if now < expiry ∧ event.any (·.refuses clientId) then 1 else 0)
    (hcounted : v.Counted policy clientId before expiry pending evaluated) :
    v'.Counted policy clientId now expiry pending' evaluated' := by
  cases h with
  | calm hstage hstage' hevent hspares =>
      have hrefuses : event.any (·.refuses clientId) = false := by
        cases event with
        | none => rfl
        | some event => exact Event.refuses_of_checks (hevent event rfl)
      simp only [Stage.pending_of_checking hstage, Stage.pending_of_checking hstage', hrefuses,
        Bool.false_eq_true, and_false, if_false, add_zero] at hpending' hevaluated
      subst hpending' hevaluated
      exact hcounted.spared htime hspares
  | pass hevent hspares =>
      have hrefuses := Event.refuses_of_checks hevent
      simp only [Stage.pending, Option.any_some, hrefuses,
        Bool.false_eq_true, and_false, if_false, add_zero] at hpending' hevaluated
      subst hpending' hevaluated
      exact hcounted.spared htime hspares
  | @verify v digest decision =>
      simp only [Stage.pending, Stage.checking, Option.any_some, Event.refuses, Bool.false_eq_true,
        if_false, add_zero, decide_true, Bool.true_and, forall_const]
        at hpending hpending' hevaluated
      by_cases hlt : now < expiry
      · obtain ⟨counter, hcounter, rfl, hcount⟩ := hcounted.live (by omega)
        have hless := hbelow rfl counter (View.live_eq_some.mpr ⟨hcounter, by omega⟩)
        by_cases hdecision : decision = .allowed
        · simp only [hdecision, ne_eq, not_true_eq_false, decide_false, Bool.false_eq_true,
            and_false, if_false, add_zero] at hpending' hevaluated
          exact ⟨by omega, fun _ => ⟨counter, hcounter, rfl, by omega⟩⟩
        · simp only [hlt, ne_eq, hdecision, not_false_eq_true, decide_true, true_and,
            if_true] at hpending' hevaluated
          exact ⟨by omega, fun _ => ⟨counter, hcounter, rfl, by omega⟩⟩
      · rw [if_neg (fun h => hlt h.1), add_zero] at hevaluated
        exact ⟨hevaluated ▸ hcounted.bound, fun h => absurd h hlt⟩
  | unverified =>
      simp only [Stage.pending, Option.any_some, Event.refuses, Bool.false_eq_true, and_false,
        if_false, add_zero] at hpending' hevaluated
      subst hpending' hevaluated
      exact hcounted.spared htime (.refl now v)
  | first hdecision hlive =>
      simp only [Option.any_some, Event.refuses, Bool.false_eq_true, and_false, if_false,
        add_zero] at hevaluated
      subst hevaluated
      refine ⟨hcounted.bound, fun hlt => ?_⟩
      obtain ⟨counter, hcounter, rfl, -⟩ := hcounted.live (by omega)
      cases hlive.symm.trans (View.live_eq_some.mpr ⟨hcounter, hlt⟩)
  | @next _ decision counter hdecision hlive =>
      simp only [Stage.pending, Stage.checking, Option.any_some, Event.refuses, Bool.false_eq_true,
        and_false, if_false, add_zero, decide_eq_true hdecision, if_true, forall_const]
        at hpending hpending' hevaluated
      subst hevaluated
      refine ⟨hcounted.bound, fun hlt => ?_⟩
      obtain ⟨old, hold, hexpiry, hcount⟩ := hcounted.live (by omega)
      obtain rfl := Option.some.inj (hold.symm.trans (View.live_eq_some.mp hlive).1)
      refine ⟨_, Function.update_self .., hexpiry, ?_⟩
      simp only
      omega
  | overflow hlive hfull =>
      obtain ⟨hcounter, hlt⟩ := View.live_eq_some.mp hlive
      have := hbelow rfl _ (View.live_eq_some.mpr ⟨hcounter, by omega⟩)
      omega
  | clear => simp [Event.clears] at hclears

theorem Turn.spares (h : Turn b policy clientId now stage v event stage' v')
    (hstage : stage.checking = false) : v.Spares now clientId v' := by
  cases h with
  | calm _ _ _ hspares => exact hspares
  | pass _ hspares => exact hspares
  | _ => cases hstage

/-- A thread gets behind the limit by testing it. -/
theorem Turn.enters (h : Turn b policy clientId now stage v event stage' v')
    (hstage : stage.checking = false) (hstage' : stage'.checking = true) : stage = .starting := by
  cases h with
  | calm _ hnot => simp [hstage'] at hnot
  | pass => rfl
  | _ => cases hstage

end Counters

/-- The threads of the control plane and their stages. -/
structure Staged {σ : Type} (a : Application σ) (clientId : Bytes)
    (threads : List (Machine.Thread (World σ) Choice HttpRequest HttpResponse))
    (stages : List Stage) : Prop where
  length : stages.length = threads.length
  stage : ∀ (i : ℕ) (stage : Stage) (thread : _), stages[i]? = some stage →
    threads[i]? = some thread →
    stage.At a clientId thread.program

namespace Staged

variable {σ : Type} {a : Application σ} {stages : List Stage} {i : ℕ}
  {threads : List (Machine.Thread (World σ) Choice HttpRequest HttpResponse)}
  {thread : Machine.Thread (World σ) Choice HttpRequest HttpResponse}

theorem append (h : Staged a clientId threads stages) {stage : Stage}
    (hstage : stage.At a clientId thread.program) :
    Staged a clientId (threads ++ [thread]) (stages ++ [stage]) := by
  refine ⟨by simp [h.length], fun i stage' thread' hs ht => ?_⟩
  by_cases hlt : i < stages.length
  · rw [List.getElem?_append_left hlt] at hs
    rw [List.getElem?_append_left (h.length ▸ hlt)] at ht
    exact h.stage i stage' thread' hs ht
  · rw [List.getElem?_append_right (by omega), List.getElem?_singleton] at hs
    rw [List.getElem?_append_right (by have := h.length; omega), List.getElem?_singleton] at ht
    split at hs
    · split at ht
      · cases hs
        cases ht
        exact hstage
      · cases ht
    · cases hs

theorem set (h : Staged a clientId threads stages) {stage : Stage}
    (hstage : stage.At a clientId thread.program) :
    Staged a clientId (threads.set i thread) (stages.set i stage) := by
  refine ⟨by simp [h.length], fun j stage' thread' hs ht => ?_⟩
  by_cases hij : i = j
  · subst hij
    rw [List.getElem?_set_self'] at hs ht
    obtain ⟨_, _, rfl⟩ := Option.map_eq_some_iff.mp hs
    obtain ⟨_, _, rfl⟩ := Option.map_eq_some_iff.mp ht
    exact hstage
  · rw [List.getElem?_set_ne hij] at hs ht
    exact h.stage j stage' thread' hs ht

theorem exists_stage (h : Staged a clientId threads stages) (hthread : threads[i]? = some thread) :
    ∃ stage, stages[i]? = some stage := by
  obtain ⟨hlt, -⟩ := List.getElem?_eq_some_iff.mp hthread
  exact ⟨_, List.getElem?_eq_getElem (h.length ▸ hlt)⟩

end Staged

/-- A pool in which one thread at most is behind the limit has no evaluation pending
but that of this thread. -/
theorem pending_of_one {stages : List Stage} (hone : stages.countP Stage.checking ≤ 1) {i : ℕ}
    {stage : Stage} (hstage : stages[i]? = some stage) (hchecking : stage.checking = true) :
    stages.countP Stage.pending = if stage.pending then 1 else 0 := by
  have hrest := Pool.countP_set Stage.checking hstage .quiet
  have hpending := Pool.countP_set Stage.pending hstage .quiet
  have hle : (stages.set i .quiet).countP Stage.pending ≤
      (stages.set i .quiet).countP Stage.checking :=
    List.countP_mono_left fun _ _ => Stage.checking_of_pending
  have hquiet : (if Stage.quiet.pending = true then 1 else 0) = 0 := rfl
  rw [hchecking, if_pos rfl, if_neg (by decide)] at hrest
  rw [hquiet] at hpending
  omega

namespace Plane

variable {m m' : Plane b} {stages : List Stage}
  {thread : Machine.Thread (World b.State) Choice HttpRequest HttpResponse}

/-- What holds while the checks of a client do not overlap. -/
structure Orderly (platform : Platform) (config : ApplicationConfig) (policy : AuthFailurePolicy)
    (clientId : Bytes) (m : Plane b) (stages : List Stage) : Prop where
  staged : Staged (routesWithConfig b platform config policy) clientId m.threads stages
  one : stages.countP Stage.checking ≤ 1
  below : 0 < stages.countP Stage.checking →
    (b.view m.shared.store).Below policy clientId m.shared.now
  counted : ∀ later past earlier, m.shared.history = later ++ past :: earlier →
    past.Creates b clientId → (∀ p ∈ later, p.event.clears clientId = false) →
    (b.view m.shared.store).Counted policy clientId m.shared.now
      (past.expiry b policy clientId) (stages.countP Stage.pending)
      (later.countP fun p => p.now < past.expiry b policy clientId ∧ p.event.refuses clientId)
  full : ∀ later past earlier count, m.shared.history = later ++ past :: earlier →
    past.event = .recordAuthFailure clientId (.ok count) → policy.limit ≤ count →
    (b.view m.shared.store).Full policy clientId m.shared.now (past.expiry b policy clientId)

theorem Orderly.spawn (h : Orderly platform config policy clientId m stages) (r : HttpRequest) :
    ∃ stages', Orderly platform config policy clientId
      { m with threads := m.threads ++
        [⟨r, m.shared, (routesWithConfig b platform config policy).serve r⟩] } stages' := by
  obtain ⟨stage, hchecking, hstage⟩ := run_stage r
    ((routesWithConfig b platform config policy).middleware r)
  have hpending := Stage.pending_of_checking hchecking
  refine ⟨stages ++ [stage], h.staged.append hstage, ?_, fun hpos => ?_, ?_, h.full⟩
  · simpa [hchecking] using h.one
  · exact h.below (by simpa [hchecking] using hpos)
  · simpa [hpending] using h.counted

/-- No other thread is behind the limit when a thread tests it alone. -/
theorem Orderly.alone (h : Orderly platform config policy clientId m stages) {i : ℕ}
    {choice : Choice} (halone : m.Alone clientId (.access i choice))
    (hstage : stages[i]? = some .starting) : stages.countP Stage.checking = 0 := by
  have hlength := h.staged.length
  have hthread : ∀ j < stages.length, ∃ thread, m.threads[j]? = some thread := fun j hj =>
    ⟨_, List.getElem?_eq_getElem (hlength ▸ hj)⟩
  obtain ⟨hi, -⟩ := List.getElem?_eq_some_iff.mp hstage
  obtain ⟨thread, hmine⟩ := hthread i hi
  have hstarts : (m.next i).any (·.starts clientId) := by
    rw [next, hmine]
    exact Stage.starting_nextEvent (h.staged.stage i _ _ hstage hmine)
  refine List.countP_eq_zero.mpr fun other hmem hchecking => ?_
  obtain ⟨j, hother⟩ := List.mem_iff_getElem?.mp hmem
  obtain ⟨hj, -⟩ := List.getElem?_eq_some_iff.mp hother
  obtain ⟨thread', hothers⟩ := hthread j hj
  refine halone.2 hstarts j (hlength ▸ hj) ?_ ?_
  · rintro rfl
    obtain rfl := Option.some.inj (hother.symm.trans hstage)
    cases hchecking
  · rw [next, hothers]
    exact Stage.checking_nextEvent hchecking (h.staged.stage j _ _ hother hothers)

/-- The store does not fail in a check of the client. -/
theorem Orderly.fault (h : Orderly platform config policy clientId m stages) {i : ℕ}
    {choice : Choice} (halone : m.Alone clientId (.access i choice)) {stage : Stage}
    (hthread : m.threads[i]? = some thread) (hstage : stages[i]? = some stage)
    (hquiet : stage ≠ .quiet) : choice.fault = .none := by
  refine halone.1 ?_
  rw [next, hthread]
  exact Stage.concerned_nextEvent hquiet (h.staged.stage i _ _ hstage hthread)

theorem Orderly.starting (h : Orderly platform config policy clientId m stages) {i : ℕ}
    {stage : Stage} (hthread : m.threads[i]? = some thread) (hstage : stages[i]? = some stage)
    (hstarts : (m.next i).any (·.starts clientId)) : stage = .starting := by
  have hat := h.staged.stage i stage thread hstage hthread
  rw [next, hthread] at hstarts
  obtain ⟨event, hevent, hstarts⟩ := (Option.any_eq_true _ _).mp hstarts
  have hchecks : stage.checking = false := by
    by_contra hchecking
    have hchecks := Stage.checking_nextEvent (w := m.shared) (by simpa using hchecking) hat
    obtain ⟨event', hevent', hchecks⟩ := (Option.any_eq_true _ _).mp hchecks
    obtain rfl := Option.some.inj (hevent.symm.trans hevent')
    rw [Event.checks_of_starts hstarts] at hchecks
    cases hchecks
  cases stage with
  | starting => rfl
  | quiet =>
      have hquiet := (Stage.quiet_nextEvent hat hevent).1
      rw [hstarts] at hquiet
      cases hquiet
  | _ => cases hchecks

/-- A split of a history that has grown is a split of the old one, or it is at what
is new. -/
theorem split_cases {α : Type} {new : Option α} {history later earlier : List α} {x : α}
    (h : new.toList ++ history = later ++ x :: earlier) :
    (∃ later', history = later' ++ x :: earlier ∧ later = new.toList ++ later') ∨
      new = some x ∧ later = [] := by
  cases new with
  | none => exact .inl ⟨later, h, rfl⟩
  | some y =>
      cases later with
      | nil =>
          obtain ⟨rfl, -⟩ := List.cons.inj h
          exact .inr ⟨rfl, rfl⟩
      | cons z later =>
          obtain ⟨rfl, hrest⟩ := List.cons.inj h
          exact .inl ⟨later, hrest, rfl⟩

/-- The access of a thread. -/
theorem Orderly.access (h : Orderly platform config policy clientId m stages)
    (hlimit : 1 ≤ policy.limit) (hmax : policy.limit ≤ int64Max) {i : ℕ} {choice : Choice}
    {w' : World b.State} {stage stage' : Stage} {event : Option Event}
    (htime : m.shared.now ≤ w'.now) (hstage : stages[i]? = some stage)
    (halone : m.Alone clientId (.access i choice))
    (hthread : stage'.At (routesWithConfig b platform config policy) clientId thread.program)
    (hhistory : w'.history = (event.map (Past.mk m.shared.store w'.now)).toList ++ m.shared.history)
    (hturn : Turn b policy clientId w'.now stage (b.view m.shared.store) event stage'
      (b.view w'.store)) :
    Orderly platform config policy clientId
      { shared := w', threads := m.threads.set i thread } (stages.set i stage') := by
  have hchecking := Pool.countP_set Stage.checking hstage stage'
  have hmine : stage.checking = true → 0 < stages.countP Stage.checking := fun hstage' =>
    List.countP_pos_iff.mpr ⟨stage, List.mem_of_getElem? hstage, hstage'⟩
  have hbelow : stage.checking = true →
      (b.view m.shared.store).Below policy clientId m.shared.now := fun hstage' =>
    h.below (hmine hstage')
  refine ⟨h.staged.set hthread, ?_, fun hpos => ?_, ?_, ?_⟩
  · have hone := h.one
    by_cases hold : stage.checking = true
    · rw [if_pos hold] at hchecking
      split at hchecking <;> omega
    · by_cases hnew : stage'.checking = true
      · obtain rfl := hturn.enters (by simpa using hold) hnew
        rw [h.alone halone hstage, if_neg hold, if_pos hnew] at hchecking
        omega
      · rw [if_neg hold, if_neg hnew] at hchecking
        omega
  · have hone := h.one
    by_cases hnew : stage'.checking = true
    · exact hturn.below htime hnew hbelow
    · by_cases hold : stage.checking = true
      · rw [if_pos hold, if_neg hnew] at hchecking
        omega
      · rw [if_neg hold, if_neg hnew] at hchecking
        exact (h.below (by omega)).later htime (hturn.spares (by simpa using hold))
  · intro later past earlier hsplit hcreates hclears
    rcases split_cases (hhistory.symm.trans hsplit) with ⟨later', hold, rfl⟩ | ⟨hnew, rfl⟩
    · refine hturn.counted htime hmax hbelow (fun hstage' => pending_of_one h.one hstage hstage')
        (Pool.countP_set Stage.pending hstage stage') (fun e he => ?_) ?_
        (h.counted later' past earlier hold hcreates fun p hp => hclears p (by simp [hp]))
      · exact hclears ⟨m.shared.store, w'.now, e⟩
          (by simp [Option.mem_def.mp he])
      · rw [List.countP_append, add_comm]
        congr 1
        cases event with
        | none => simp
        | some event => simp [List.countP_cons]
    · obtain ⟨e, rfl, rfl⟩ := Option.map_eq_some_iff.mp hnew
      obtain ⟨hnone, count, rfl⟩ := hcreates
      exact hturn.creates hlimit hnone
  · intro later past earlier count hsplit hevent hcount
    rcases split_cases (hhistory.symm.trans hsplit) with ⟨later', hold, rfl⟩ | ⟨hnew, rfl⟩
    · exact hturn.full htime hbelow (h.full later' past earlier count hold hevent hcount)
    · obtain ⟨e, rfl, rfl⟩ := Option.map_eq_some_iff.mp hnew
      obtain rfl : e = .recordAuthFailure clientId (.ok count) := hevent
      exact hturn.fills hmax (fun hstage' => (hbelow hstage').later htime (.refl _ _)) hcount

/-- The steps of a clock that does not go back and of checks that do not overlap. -/
def Ordered (clientId : Bytes) (m : Plane b) (action : Machine.Action Choice HttpRequest) : Prop :=
  Machine.Admits Timely m action ∧ m.Alone clientId action

instance (m : Plane b) (action : Machine.Action Choice HttpRequest) :
    Decidable (m.Ordered clientId action) :=
  inferInstanceAs (Decidable (_ ∧ _))

theorem orderly (hlimit : 1 ≤ policy.limit) (hmax : policy.limit ≤ int64Max)
    (h : Transition.ReachableBy (controlPlane b platform config policy) (Ordered clientId) m) :
    ∃ stages, Orderly platform config policy clientId m stages := by
  refine h.invariant (I := fun m => ∃ stages, Orderly platform config policy clientId m stages)
    ?_ ?_
  · rintro m ⟨⟨-, hhistory⟩, hthreads⟩
    refine ⟨[], ⟨by simp [hthreads], by simp⟩, by simp, by simp, ?_, ?_⟩ <;> simp [hhistory]
  · rintro m action m' hm ⟨stages, hstages⟩ ⟨htime, halone⟩ hstep
    have hm' := hm.mono fun _ _ hordered => hordered.1
    rcases Machine.step_cases hstep with ⟨r, rfl, rfl⟩ |
      ⟨i, choice, r, since, act, next, rfl, hthread, rfl⟩
    · exact hstages.spawn r
    · obtain ⟨stage, hstage⟩ := hstages.staged.exists_stage hthread
      have hmove := access_move hm' htime hstep
      obtain ⟨event, stage', hstage', hhistory, hturn⟩ :=
        Stage.turn (hstages.staged.stage i _ _ hstage hthread)
          (hstages.fault halone hthread hstage) (possible hm').sound hmove
      exact ⟨_, hstages.access hlimit hmax hmove.now_le hstage halone hstage' hhistory hturn⟩

/-- While the checks of a client do not overlap, no more credentials are refused
over the life of a counter than the limit, with the one that the counter was made
for, and a check is turned away for as long as a full counter lives. -/
theorem lockout (hlimit : 1 ≤ policy.limit) (hmax : policy.limit ≤ int64Max)
    (h : Transition.ReachableBy (controlPlane b platform config policy) (Ordered clientId) m) :
    (∀ later created earlier, m.shared.history = later ++ created :: earlier →
      created.Creates b clientId → (∀ past ∈ later, past.event.clears clientId = false) →
      ((later.countP fun past => past.now < created.expiry b policy clientId ∧
        past.event.refuses clientId : ℕ) : ℤ) + 1 ≤ policy.limit) ∧
    ∀ later reached earlier count, m.shared.history = later ++ reached :: earlier →
      reached.event = .recordAuthFailure clientId (.ok count) → policy.limit ≤ count →
      ∀ i choice m', (m.next i).any (·.starts clientId) →
        choice.now < reached.expiry b policy clientId → m.Ordered clientId (.access i choice) →
        (controlPlane b platform config policy).step m (.access i choice) = some m' →
        ∃ thread, m'.threads[i]? = some thread ∧ thread.program = .done rateLimited := by
  obtain ⟨stages, hstages⟩ := orderly hlimit hmax h
  refine ⟨fun later created earlier hhistory hcreates hclears =>
    (hstages.counted later created earlier hhistory hcreates hclears).bound, ?_⟩
  rintro later reached earlier count hhistory hevent hcount i choice m' hstarts hlt
    ⟨htime, halone⟩ hstep
  have hm := h.mono fun _ _ hordered => hordered.1
  have hstep : m.step (routesWithConfig b platform config policy).serve (.access i choice) =
    some m' := hstep
  rcases Machine.step_cases hstep with ⟨r, hspawn, -⟩ |
    ⟨j, choice', r, since, act, next, haction, hthread, rfl⟩
  · cases hspawn
  · cases haction
    obtain ⟨stage, hstage⟩ := hstages.staged.exists_stage hthread
    obtain rfl := hstages.starting hthread hstage hstarts
    obtain ⟨r', req, rfl, heq⟩ := hstages.staged.stage i _ _ hstage hthread
    obtain ⟨result, store, -, hnext, heffect⟩ := Stage.effect_of_perform heq
      (hstages.fault halone hthread hstage (by simp))
      (possible hm).sound (b.authFailureLimited_lawful platform policy req.clientId)
    have htime : m.shared.now ≤ choice.now := htime
    obtain ⟨counter, hcounter, hexpiry, hreached⟩ :=
      hstages.full later reached earlier count hhistory hevent hcount (by omega)
    have hlive := View.live_eq_some.mpr ⟨hcounter, hexpiry ▸ hlt⟩
    have hresult : result = .ok true := by
      generalize b.view m.shared.store = v, b.view store = v' at heffect hlive
      cases heffect with
      | limited => simpa [View.limited, hlive] using hreached
    have hlength := (List.getElem?_eq_some_iff.mp hthread).1
    exact ⟨_, List.getElem?_set_self hlength, by rw [hnext, hresult]; rfl⟩

end Plane

namespace Sample

def token : Bytes := text "t"

def guess : Bytes := text "g"

/-- A check of the client with a credential. -/
def check (credential : Bytes) : HttpRequest where
  method := .post
  path := .authCheck
  body := client ++ text ":" ++ credential

/-- A failed check, and another one that is about to start. -/
def locked : Plane .redis :=
  ((controlPlane .redis plainPlatform {} oneFailure).runBy (Plane.Ordered client)
    { shared := { store := StoreBackend.redis.fresh, now := 0 } }
    [.spawn (check guess), .access 0 { now := 0 }, .access 0 { now := 0 }, .access 0 { now := 0 },
      .spawn (check token)]).get (by decide +kernel)

end Sample

namespace Plane

/-- The next check is turned away. -/
theorem lockout_locked : ∃ m' thread,
    (controlPlane .redis Sample.plainPlatform {} Sample.oneFailure).step Sample.locked
      (.access 1 { now := 1 }) = some m' ∧
    m'.threads[1]? = some thread ∧ thread.program = .done rateLimited := by
  obtain ⟨m', hstep⟩ := Option.isSome_iff_exists.mp (by decide +kernel :
    ((controlPlane .redis Sample.plainPlatform {} Sample.oneFailure).step Sample.locked
      (.access 1 { now := 1 })).isSome)
  obtain ⟨third, second, first, hhistory⟩ := List.length_eq_three.mp
    (by decide +kernel : Sample.locked.shared.history.length = 3)
  have hpast : Sample.locked.shared.history.map (fun past =>
      (past.event, past.expiry .redis Sample.oneFailure Sample.client)) =
        [(.recordAuthFailure Sample.client (.ok 1), 60000000000),
          (.verifyDigest Sample.client Sample.guess (.ok .invalid), 60000000000),
          (.authFailureLimited Sample.client (.ok false), 60000000000)] := by
    decide +kernel
  simp only [hhistory, List.map_cons, List.map_nil, List.cons.injEq, Prod.mk.injEq] at hpast
  have hlocked : Transition.ReachableBy
      (controlPlane .redis Sample.plainPlatform {} Sample.oneFailure)
      (Ordered Sample.client) Sample.locked :=
    Transition.System.runBy_reachable (.init ⟨⟨rfl, rfl⟩, rfl⟩) (Option.some_get _).symm
  obtain ⟨thread, hthread, hdone⟩ := (lockout (by decide) (by decide) hlocked).2 [] third
    [second, first] 1 hhistory hpast.1.1 (by decide) 1 { now := 1 } m' (by decide +kernel)
    (by rw [hpast.1.2]; decide) (by decide +kernel) hstep
  exact ⟨m', thread, hstep, hthread, hdone⟩

end Plane

namespace Sample

/-- Three failed checks that have tested the limit before the first is recorded. -/
def overlapping : List (Machine.Action Choice HttpRequest) :=
  [.spawn (check guess), .spawn (check guess), .spawn (check guess), .access 0 { now := 0 },
    .access 1 { now := 0 }, .access 2 { now := 0 }, .access 0 { now := 0 }, .access 0 { now := 0 },
    .access 1 { now := 0 }, .access 2 { now := 0 }]

/-- A check that succeeds settles after another has filled the counter. -/
def lateSuccess : List (Machine.Action Choice HttpRequest) :=
  [.spawn { method := .post, path := .tokens, body := client },
    .access 0 { now := 0, entropy := some token }, .access 0 { now := 0 },
    .access 0 { now := 0 }, .spawn (check token), .spawn (check guess), .access 1 { now := 0 },
    .access 1 { now := 0 }, .access 2 { now := 0 }, .access 2 { now := 0 }, .access 2 { now := 0 },
    .access 1 { now := 0 }, .spawn (check guess)]

def evaluated : Plane .memory :=
  (Plane.after .memory plainPlatform {} oneFailure overlapping).get (by decide +kernel)

def cleared : Plane .memory :=
  (Plane.after .memory plainPlatform {} oneFailure lateSuccess).get (by decide +kernel)

/-- The check after that goes on. -/
def unlimited : Plane .memory :=
  ((controlPlane .memory plainPlatform {} oneFailure).step cleared (.access 3 { now := 0 })).get
    (by decide +kernel)

end Sample

namespace Plane

theorem split_at {α : Type} {l : List α} {i : ℕ} (hi : i < l.length) :
    l = l.take i ++ l.get ⟨i, hi⟩ :: l.drop (i + 1) := by
  rw [List.get_eq_getElem, ← List.drop_eq_getElem_cons hi, List.take_append_drop]

/-- Checks that overlap: two credentials are evaluated on a counter whose limit is
one, and a check is not turned away while a full counter lives. -/
theorem lockout_overlap :
    (∃ (m : Plane .memory) (later earlier : List (Past MemoryStore)) (created : Past MemoryStore),
      Transition.ReachableBy (controlPlane .memory Sample.plainPlatform {} Sample.oneFailure)
        (Machine.Admits Timely) m ∧
      m.shared.history = later ++ created :: earlier ∧ created.Creates .memory Sample.client ∧
      (∀ past ∈ later, past.event.clears Sample.client = false) ∧
      Sample.oneFailure.limit < ((later.countP fun past =>
        past.now < created.expiry .memory Sample.oneFailure Sample.client ∧
          past.event.refuses Sample.client : ℕ) : ℤ)) ∧
    ∃ (m m' : Plane .memory) (later earlier : List (Past MemoryStore)) (reached : Past MemoryStore),
      Transition.ReachableBy (controlPlane .memory Sample.plainPlatform {} Sample.oneFailure)
        (Machine.Admits Timely) m ∧
      m.shared.history = later ++ reached :: earlier ∧
      reached.event = .recordAuthFailure Sample.client (.ok Sample.oneFailure.limit) ∧
      (m.next 3).any (·.starts Sample.client) ∧
      0 < reached.expiry .memory Sample.oneFailure Sample.client ∧
      (controlPlane .memory Sample.plainPlatform {} Sample.oneFailure).step m
        (.access 3 { now := 0 }) = some m' ∧
      ¬∃ thread, m'.threads[3]? = some thread ∧ thread.program = .done rateLimited := by
  constructor
  · exact ⟨Sample.evaluated, Sample.evaluated.shared.history.take 2,
      Sample.evaluated.shared.history.drop 3,
      Sample.evaluated.shared.history.get ⟨2, by decide +kernel⟩,
      after_reachable (Option.some_get _).symm, split_at _,
      ⟨by decide +kernel, 1, by decide +kernel⟩,
      by decide +kernel, by decide +kernel⟩
  · refine ⟨Sample.cleared, Sample.unlimited, Sample.cleared.shared.history.take 1,
      Sample.cleared.shared.history.drop 2,
      Sample.cleared.shared.history.get ⟨1, by decide +kernel⟩,
      after_reachable (Option.some_get _).symm, split_at _, by decide +kernel, by decide +kernel,
      by decide +kernel, (Option.some_get _).symm, ?_⟩
    rintro ⟨thread, hthread, hdone⟩
    have hnone : Sample.unlimited.next 3 = none := by
      rw [next, hthread, Option.bind_some, hdone]
      rfl
    have hsome : (Sample.unlimited.next 3).isSome := by decide +kernel
    rw [hnone] at hsome
    cases hsome

end Plane

end App

end GatewaySystem
