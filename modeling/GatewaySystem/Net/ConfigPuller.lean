import GatewaySystem.Lib.Transition
import GatewaySystem.Net.Server

/-!
# The config puller and the shutdown

Between two fetches `configPullerLoop` waits on `background_wait_cv_` for five
seconds or until the server leaves the running state. The predicate is tested
with `background_wait_mutex_` held, and blocking releases the mutex; but neither
`beginDraining` nor `finishShutdown` takes that mutex, so both may change the
state and notify while the puller has tested the predicate and has not blocked
yet. A notification wakes who is blocked and nobody else.

The fetch itself is `Server.pullConfig`. It does not matter for the wait.
-/

namespace GatewaySystem

/-- Where `configPullerLoop` is. -/
inductive PullerPoint where
  /-- Before the condition of the loop. -/
  | looping
  | fetching
  | locking
  /-- It holds the mutex and is about to evaluate the predicate, for the last
  time if its wait has timed out. -/
  | testing (timedOut : Bool)
  /-- It holds the mutex, has found the server running and is about to block. -/
  | entering
  | blocked
  /-- It was woken or its time is over, and it does not have the mutex yet. -/
  | waking (timedOut : Bool)
  | exited
  deriving DecidableEq, Repr

/-- Where the reactor is. -/
inductive ShutdownPoint where
  | looping
  /-- In `beginDraining`, after the change of the state and before the
  notification. -/
  | draining
  /-- The loop is left and `finishShutdown` has not notified yet. -/
  | left
  /-- In `config_puller_.join()`. -/
  | joining
  | joined
  deriving DecidableEq, Repr

structure Shutdown where
  state : ServerState := .running
  /-- Whether `background_wait_mutex_` is held. -/
  locked : Bool := false
  puller : PullerPoint := .looping
  reactor : ShutdownPoint := .looping
  deriving DecidableEq, Repr

/-- What the config puller does. -/
inductive PullerAction where
  | testState
  | fetch
  | lock
  | testPredicate
  | block
  | timeout
  /-- A wake-up without a notification. -/
  | spurious
  | relock
  deriving DecidableEq, Repr

/-- What the reactor does. -/
inductive ShutdownAction where
  | beginDraining
  | notify
  /-- The drain is complete or its deadline has passed. -/
  | stop
  | leave
  | finishNotify
  | join
  deriving DecidableEq, Repr

namespace Shutdown

/-- `background_wait_cv_.notify_all`. -/
def notifyAll (s : Shutdown) : Shutdown :=
  if s.puller = .blocked then { s with puller := .waking false } else s

/-- A step of `configPullerLoop`. -/
def pullerStep (s : Shutdown) : PullerAction → Option Shutdown
  | .testState =>
      if s.puller = .looping then
        some { s with puller := if s.state = .running then .fetching else .exited }
      else none
  | .fetch => if s.puller = .fetching then some { s with puller := .locking } else none
  | .lock =>
      if s.puller = .locking ∧ s.locked = false then
        some { s with puller := .testing false, locked := true }
      else none
  | .testPredicate =>
      match s.puller with
      | .testing timedOut =>
          -- the end of the wait destroys the lock
          if s.state ≠ .running ∨ timedOut = true then
            some { s with puller := .looping, locked := false }
          else some { s with puller := .entering }
      | _ => none
  | .block =>
      if s.puller = .entering then some { s with puller := .blocked, locked := false } else none
  | .timeout => if s.puller = .blocked then some { s with puller := .waking true } else none
  | .spurious => if s.puller = .blocked then some { s with puller := .waking false } else none
  | .relock =>
      match s.puller with
      | .waking timedOut =>
          if s.locked = false then some { s with puller := .testing timedOut, locked := true }
          else none
      | _ => none

/-- A step of the reactor. -/
def reactorStep (s : Shutdown) : ShutdownAction → Option Shutdown
  | .beginDraining =>
      if s.reactor = .looping ∧ s.state = .running then
        some { s with state := .draining, reactor := .draining }
      else none
  | .notify =>
      if s.reactor = .draining then some { s.notifyAll with reactor := .looping } else none
  | .stop =>
      if s.reactor = .looping ∧ s.state = .draining then some { s with state := .stopped }
      else none
  | .leave =>
      if s.reactor = .looping ∧ s.state = .stopped then some { s with reactor := .left } else none
  | .finishNotify =>
      if s.reactor = .left then some { s.notifyAll with reactor := .joining } else none
  | .join =>
      if s.reactor = .joining ∧ s.puller = .exited then some { s with reactor := .joined }
      else none

/-- The two threads. -/
def threads : Transition.System Shutdown (PullerAction ⊕ ShutdownAction) where
  init s := s = {}
  step s := Sum.elim s.pullerStep s.reactorStep

/-- The reactor waits for a puller that no notification will wake. -/
def Stranded (s : Shutdown) : Prop := s.reactor = .joining ∧ s.puller = .blocked

/-- The last notification does not fall between the test of the puller and its
block. -/
def Timely (s : Shutdown) (action : PullerAction ⊕ ShutdownAction) : Prop :=
  action = .inr .finishNotify → s.puller ≠ .entering

instance (s : Shutdown) (action : PullerAction ⊕ ShutdownAction) : Decidable (s.Timely action) :=
  inferInstanceAs (Decidable (_ → _))

variable {s t : Shutdown}

/-- The puller is about to block only if it has found the server running, and
blocks only from there. -/
theorem pullerStep_spec {action : PullerAction} (h : s.pullerStep action = some t) :
    t.state = s.state ∧ t.reactor = s.reactor ∧
      (t.puller = .entering → s.state = .running) ∧
      (t.puller = .blocked → s.puller = .entering) := by
  cases action with
  | testState =>
      obtain ⟨-, ⟨⟩⟩ := Option.ite_none_right_eq_some.mp h
      refine ⟨rfl, rfl, ?_, ?_⟩ <;> simp only <;> split <;> exact nofun
  | fetch | lock | timeout | spurious =>
      obtain ⟨-, ⟨⟩⟩ := Option.ite_none_right_eq_some.mp h
      exact ⟨rfl, rfl, nofun, nofun⟩
  | block =>
      obtain ⟨hentering, ⟨⟩⟩ := Option.ite_none_right_eq_some.mp h
      exact ⟨rfl, rfl, nofun, fun _ => hentering⟩
  | testPredicate =>
      simp only [pullerStep] at h
      split at h
      · split at h
        · cases h
          exact ⟨rfl, rfl, nofun, nofun⟩
        · next hrunning =>
            cases h
            exact ⟨rfl, rfl, fun _ => not_not.mp fun hne => hrunning (.inl hne), nofun⟩
      · cases h
  | relock =>
      simp only [pullerStep] at h
      split at h
      · obtain ⟨-, ⟨⟩⟩ := Option.ite_none_right_eq_some.mp h
        exact ⟨rfl, rfl, nofun, nofun⟩
      · cases h

theorem notifyAll_puller (s : Shutdown) : s.notifyAll.puller ≠ .blocked ∧
    (s.notifyAll.puller = .entering → s.puller = .entering) := by
  unfold notifyAll
  split
  · exact ⟨nofun, nofun⟩
  · next hblocked => exact ⟨hblocked, id⟩

theorem notifyAll_state (s : Shutdown) : s.notifyAll.state = s.state := by
  unfold notifyAll
  split <;> rfl

/-- After the last notification the puller neither blocks nor is about to. -/
structure Awake (s : Shutdown) : Prop where
  stopped : s.reactor = .left ∨ s.reactor = .joining ∨ s.reactor = .joined → s.state = .stopped
  free : s.reactor = .joining ∨ s.reactor = .joined →
    s.puller ≠ .entering ∧ s.puller ≠ .blocked

theorem Awake.pullerStep {action : PullerAction} (h : s.Awake)
    (hstep : s.pullerStep action = some t) : t.Awake := by
  obtain ⟨hstate, hreactor, hentering, hblocked⟩ := pullerStep_spec hstep
  constructor
  · rw [hreactor, hstate]
    exact h.stopped
  · rw [hreactor]
    intro hlast
    refine ⟨fun hpuller => ?_, fun hpuller => (h.free hlast).1 (hblocked hpuller)⟩
    cases (hentering hpuller).symm.trans (h.stopped (.inr hlast))

theorem Awake.reactorStep {action : ShutdownAction} (h : s.Awake)
    (htimely : action = .finishNotify → s.puller ≠ .entering)
    (hstep : s.reactorStep action = some t) : t.Awake := by
  cases action with
  | beginDraining =>
      obtain ⟨-, ⟨⟩⟩ := Option.ite_none_right_eq_some.mp hstep
      exact ⟨by simp, by simp⟩
  | notify =>
      obtain ⟨-, ⟨⟩⟩ := Option.ite_none_right_eq_some.mp hstep
      exact ⟨by simp, by simp⟩
  | stop =>
      obtain ⟨⟨hlooping, -⟩, ⟨⟩⟩ := Option.ite_none_right_eq_some.mp hstep
      exact ⟨fun _ => rfl, by simp [hlooping]⟩
  | leave =>
      obtain ⟨⟨-, hstopped⟩, ⟨⟩⟩ := Option.ite_none_right_eq_some.mp hstep
      exact ⟨fun _ => hstopped, by simp⟩
  | finishNotify =>
      obtain ⟨hleft, ⟨⟩⟩ := Option.ite_none_right_eq_some.mp hstep
      obtain ⟨hblocked, hentering⟩ := s.notifyAll_puller
      refine ⟨fun _ => s.notifyAll_state.trans (h.stopped (.inl hleft)), fun _ => ?_⟩
      exact ⟨fun hpuller => htimely rfl (hentering hpuller), hblocked⟩
  | join =>
      obtain ⟨⟨hjoining, -⟩, ⟨⟩⟩ := Option.ite_none_right_eq_some.mp hstep
      exact ⟨fun _ => h.stopped (.inr (.inl hjoining)), fun _ => h.free (.inl hjoining)⟩

theorem awake_of_timely (h : Transition.ReachableBy threads Timely s) : s.Awake := by
  refine h.invariant (fun s hinit => ?_) fun s action t _ hs htimely hstep => ?_
  · obtain rfl : s = {} := hinit
    exact ⟨by simp, by simp⟩
  · cases action with
    | inl action => exact hs.pullerStep hstep
    | inr action =>
        exact hs.reactorStep (fun hfinish => htimely (congrArg Sum.inr hfinish)) hstep

/-- Only the end of its five seconds, or a wake-up out of nothing, lets a
stranded puller go on. -/
theorem Stranded.action {action : PullerAction ⊕ ShutdownAction} (h : s.Stranded)
    (hstep : threads.step s action = some t) :
    action = .inl .timeout ∨ action = .inl .spurious := by
  obtain ⟨hjoining, hblocked⟩ := h
  rcases action with action | action
  · cases action with
    | timeout => exact .inl rfl
    | spurious => exact .inr rfl
    | _ => simp [threads, pullerStep, hblocked] at hstep
  · cases action <;> simp [threads, reactorStep, hjoining, hblocked] at hstep

/-- A shutdown whose last notification does not fall between the test of the
puller and its block never strands the reactor, and one whose last notification
does can. -/
theorem stranded_iff_untimely (s : Shutdown) :
    (Transition.ReachableBy threads Timely s → ¬s.Stranded) ∧
      (Transition.Reachable threads s → s.reactor = .left → s.puller = .entering →
        ∃ t u, threads.step s (.inr .finishNotify) = some t ∧
          threads.step t (.inl .block) = some u ∧ u.Stranded ∧
          ∀ action, (threads.step u action).isSome = true →
            action = .inl .timeout ∨ action = .inl .spurious) := by
  refine ⟨fun hs hstranded => ?_, fun _ hleft hentering => ?_⟩
  · exact ((awake_of_timely hs).free (.inl hstranded.1)).2 hstranded.2
  · have hstranded : Stranded { s with reactor := .joining, puller := .blocked, locked := false } :=
      ⟨rfl, rfl⟩
    refine ⟨{ s with reactor := .joining }, _, ?_, ?_, hstranded, fun action hsome => ?_⟩
    · simp [threads, reactorStep, hleft, notifyAll, hentering]
    · simp [threads, pullerStep, hentering]
    · obtain ⟨v, hv⟩ := Option.isSome_iff_exists.mp hsome
      exact hstranded.action hv

end Shutdown

namespace Sample

/-- The puller has found the server running, and the reactor drains before it
blocks. -/
def untimely : Shutdown :=
  (Shutdown.threads.run {} [.inl .testState, .inl .fetch, .inl .lock, .inl .testPredicate,
    .inr .beginDraining, .inr .notify, .inr .stop, .inr .leave]).get (by decide)

theorem untimely_reachable : Transition.Reachable Shutdown.threads untimely :=
  Transition.System.run_reachable (.init rfl) (fun _ _ _ => trivial) (Option.some_get _).symm

/-- The puller blocks before the reactor drains. -/
def timely : Shutdown :=
  (Shutdown.threads.runBy Shutdown.Timely {} [.inl .testState, .inl .fetch, .inl .lock,
    .inl .testPredicate, .inl .block, .inr .beginDraining, .inr .notify, .inr .stop, .inr .leave,
    .inr .finishNotify]).get (by decide)

end Sample

namespace Shutdown

theorem stranded_iff_untimely_sample :
    (Sample.timely.reactor = .joining ∧ ¬Sample.timely.Stranded) ∧
      ∃ t u, threads.step Sample.untimely (.inr .finishNotify) = some t ∧
        threads.step t (.inl .block) = some u ∧ u.Stranded ∧
        ∀ action, (threads.step u action).isSome = true →
          action = .inl .timeout ∨ action = .inl .spurious := by
  have hreach : Transition.ReachableBy threads Timely Sample.timely :=
    Transition.System.runBy_reachable (.init rfl) (Option.some_get _).symm
  exact ⟨⟨by decide, (stranded_iff_untimely _).1 hreach⟩,
    (stranded_iff_untimely _).2 Sample.untimely_reachable (by decide) (by decide)⟩

/-- A reactor that joins, and a puller that blocked after the last
notification. -/
theorem lost_wakeup : ¬∀ s, Transition.Reachable threads s → ¬s.Stranded := by
  intro hnever
  have hreach : Transition.Reachable threads
      ((threads.run Sample.untimely [.inr .finishNotify, .inl .block]).get (by decide)) :=
    Transition.System.run_reachable Sample.untimely_reachable (fun _ _ _ => trivial)
      (Option.some_get _).symm
  exact hnever _ hreach ⟨by decide, by decide⟩

end Shutdown

end GatewaySystem
