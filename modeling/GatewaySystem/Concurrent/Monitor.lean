import GatewaySystem.Concurrent.BlockQueue
import GatewaySystem.Lib.Transition
import Mathlib.Data.Finset.Card
import Mathlib.Logic.Function.Basic

/-!
# The queue among its threads

Any number of threads call the members of one `BlockQueue`. A member function is
one step, since it holds the mutex throughout, but for `pop`: while its
predicate fails it gives the mutex back and sleeps on the condition variable,
and each time it is woken it takes the mutex again and tests once more. Which
sleeper `notify_one` wakes is a choice of the environment, and a sleeper may
wake for no reason.

The history lists what the calls have returned. The items that went in are, in
their order, those that came out, those that `abort` discarded and those that
are left.
-/

namespace GatewaySystem

/-- How a caller hands its item to `push`. -/
inductive Passing (α : Type*) where
  | lvalue
  /-- `left` is what a move leaves of the item. -/
  | rvalue (left : α)

/-- The two overloads of `push`: the answer, the queue and the variable of the
caller. -/
def BlockQueue.pushBy {α : Type*} (q : BlockQueue α) (item : α) :
    Passing α → PushResult × BlockQueue α × α
  | .lvalue => ((q.push item).1, (q.push item).2, item)
  | .rvalue left => q.pushRvalue item left

/-- What a call has returned. `abort` returns how many items it discarded. -/
inductive Answer (α : Type*) where
  | push (item : α) (result : PushResult)
  | pop (item? : Option α)
  | tryPop (item? : Option α)
  | stop
  | abort (discarded : List α)
  deriving DecidableEq

namespace Answer

variable {α : Type*}

def pushed : Answer α → Option α
  | .push item .ok => some item
  | _ => none

def popped : Answer α → Option α
  | .pop item? => item?
  | .tryPop item? => item?
  | _ => none

def discarded : Answer α → List α
  | .abort items => items
  | _ => []

def stops : Answer α → Bool
  | .stop => true
  | .abort _ => true
  | _ => false

theorem pushed_refused {item : α} {result : PushResult} (h : result ≠ .ok) :
    (Answer.push item result).pushed = none := by
  cases result with
  | ok => exact absurd rfl h
  | full | stopped => rfl

end Answer

/-! ### What a call does to the queue -/

namespace BlockQueue

variable {α : Type*} {q q' : BlockQueue α} {answer : Answer α}

/-- The effect of a call that returns. -/
inductive Returns (q : BlockQueue α) : Answer α → BlockQueue α → Prop
  | push {item : α} (h : (q.push item).1 = .ok) : Returns q (.push item .ok) (q.push item).2
  | refused {item : α} {result : PushResult} (h : result ≠ .ok) : Returns q (.push item result) q
  | pop {item : α} {q' : BlockQueue α} (h : q.tryPop = some (item, q')) :
      Returns q (.pop (some item)) q'
  | finished (hstopped : q.stopped = true) (hempty : q.items = []) : Returns q (.pop none) q
  | tryPop {item : α} {q' : BlockQueue α} (h : q.tryPop = some (item, q')) :
      Returns q (.tryPop (some item)) q'
  | missed (hempty : q.items = []) : Returns q (.tryPop none) q
  | stop : Returns q .stop q.stop
  | abort : Returns q (.abort q.items) q.abort.2

/-- An overload of `push` answers as `push` does. A refused item stays with its
caller, and with it the queue as it was. -/
theorem pushBy_cases (q : BlockQueue α) (item : α) (passing : Passing α) :
    (∃ left, (q.push item).1 = .ok ∧ q.pushBy item passing = (.ok, (q.push item).2, left)) ∨
      ∃ result, result ≠ .ok ∧ q.pushBy item passing = (result, q, item) := by
  by_cases hok : (q.push item).1 = .ok
  · obtain ⟨hrunning, hroom, -⟩ := push_ok hok
    cases passing with
    | lvalue => exact .inl ⟨item, hok, by rw [pushBy, hok]⟩
    | rvalue left => exact .inl ⟨left, hok, by simp [pushBy, pushRvalue, hrunning, hroom]⟩
  · refine .inr ?_
    cases passing with
    | lvalue => exact ⟨_, hok, by rw [pushBy, push_refused hok]⟩
    | rvalue left =>
        unfold push at hok
        cases hstopped : q.stopped with
        | true => exact ⟨.stopped, by simp, by simp [pushBy, pushRvalue, hstopped]⟩
        | false =>
            have hfull : ¬ q.items.length < q.capacity := by
              intro hroom
              simp [hstopped, hroom] at hok
            exact ⟨.full, by simp, by simp [pushBy, pushRvalue, hstopped, hfull]⟩

namespace Returns

theorem capacity (h : Returns q answer q') : q'.capacity = q.capacity := by
  cases h with
  | push => exact push_capacity ..
  | pop h | tryPop h => exact (tryPop_eq_some h).2.2
  | _ => rfl

theorem stopped (h : Returns q answer q') : q'.stopped = (q.stopped || answer.stops) := by
  cases h with
  | push => simp [Answer.stops]
  | pop h | tryPop h => simp [(tryPop_eq_some h).2.1, Answer.stops]
  | stop | abort => simp [Answer.stops]
  | _ => simp [Answer.stops]

/-- What was queued and what came is what went and what is queued. -/
theorem items (h : Returns q answer q') :
    q.items ++ answer.pushed.toList =
      answer.popped.toList ++ (answer.discarded ++ q'.items) := by
  cases h with
  | push h => exact (push_ok h).2.2.symm
  | refused h =>
      rw [Answer.pushed_refused h]
      exact List.append_nil _
  | pop h | tryPop h => exact (List.append_nil _).trans (tryPop_eq_some h).1
  | abort => rfl
  | _ => exact List.append_nil _

theorem pushed_running (h : Returns q answer q') {item : α} (hpushed : answer.pushed = some item) :
    q.stopped = false := by
  cases h with
  | push h => exact (push_ok h).1
  | refused h => cases (Answer.pushed_refused h).symm.trans hpushed
  | _ => cases hpushed

theorem popped_of_empty (h : Returns q answer q') (hempty : q.items = []) :
    answer.popped = none := by
  cases h with
  | pop h | tryPop h => cases hempty.symm.trans (tryPop_eq_some h).1
  | _ => rfl

theorem discarded_empty (h : Returns q answer q') (hne : answer.discarded ≠ []) :
    q'.items = [] ∧ q'.stopped = true := by
  cases h with
  | abort => exact ⟨rfl, rfl⟩
  | _ => exact absurd rfl hne

/-- A stopped and empty queue stays so. -/
theorem ended (h : Returns q answer q') (hempty : q.items = []) (hstopped : q.stopped = true) :
    q'.items = [] ∧ q'.stopped = true := by
  have hpushed : answer.pushed = none := by
    refine Option.eq_none_iff_forall_ne_some.mpr fun item hitem => ?_
    cases hstopped.symm.trans (h.pushed_running hitem)
  have hitems := h.items
  rw [hempty, hpushed] at hitems
  have hnone := (List.append_eq_nil_iff.mp hitems.symm).2
  refine ⟨(List.append_eq_nil_iff.mp hnone).2, ?_⟩
  rw [h.stopped, hstopped, Bool.true_or]

/-- Only an accepted push makes the queue longer, and it raises the peak. -/
theorem peakSize (h : Returns q answer q') (hpeak : q.items.length ≤ q.peakSize) :
    q'.peakSize = max q.peakSize q'.items.length := by
  cases h with
  | push h => rw [push_peakSize h, (push_ok h).2.2, List.length_append, List.length_singleton]
  | pop h | tryPop h =>
      have hitems := (tryPop_eq_some h).1
      rw [hitems, List.length_cons] at hpeak
      rw [tryPop_peakSize h, max_eq_left (Nat.le_of_succ_le hpeak)]
  | abort => exact (max_eq_left (Nat.zero_le _)).symm
  | _ => exact (max_eq_left hpeak).symm

end Returns

end BlockQueue

/-! ### Threads -/

/-- Where a thread is. -/
inductive Monitor.Phase where
  | outside
  /-- In the wait of `pop`, without the mutex. -/
  | asleep
  /-- Woken in the wait of `pop`, about to take the mutex. -/
  | woken
  deriving DecidableEq

/-- A return of a call of a thread. -/
structure Monitor.Return (ι α : Type*) where
  thread : ι
  answer : Answer α
  deriving DecidableEq

structure Monitor (ι α : Type*) where
  queue : BlockQueue α
  phase : ι → Monitor.Phase
  /-- The variable that a thread hands over by reference. -/
  item : ι → α
  /-- What the calls have returned, the first one first. -/
  history : List (Monitor.Return ι α)

namespace Monitor

variable {ι α : Type*}

/-! ### The history -/

/-- The items that were accepted, in their order. -/
def pushed (history : List (Return ι α)) : List α := history.filterMap (·.answer.pushed)

/-- The items that were returned, in their order. -/
def popped (history : List (Return ι α)) : List α := history.filterMap (·.answer.popped)

/-- The items that were discarded. -/
def discarded (history : List (Return ι α)) : List α := history.flatMap (·.answer.discarded)

theorem pushed_snoc (history : List (Return ι α)) (entry : Return ι α) :
    pushed (history ++ [entry]) = pushed history ++ entry.answer.pushed.toList := by
  rw [pushed, List.filterMap_append]
  cases h : entry.answer.pushed <;> simp [h, pushed]

theorem popped_snoc (history : List (Return ι α)) (entry : Return ι α) :
    popped (history ++ [entry]) = popped history ++ entry.answer.popped.toList := by
  rw [popped, List.filterMap_append]
  cases h : entry.answer.popped <;> simp [h, popped]

theorem discarded_snoc (history : List (Return ι α)) (entry : Return ι α) :
    discarded (history ++ [entry]) = discarded history ++ entry.answer.discarded := by
  simp [discarded]

/-- The queue is what its history says. -/
structure Conserved (capacity : ℕ) (s : Monitor ι α) : Prop where
  capacity_eq : s.queue.capacity = capacity
  balance : pushed s.history = popped s.history ++ (discarded s.history ++ s.queue.items)
  aborted : discarded s.history ≠ [] → s.queue.items = [] ∧ s.queue.stopped = true
  stopped : s.queue.stopped = s.history.any (·.answer.stops)

section Returned

variable {capacity : ℕ} {s t : Monitor ι α} {entry : Return ι α}

/-- Behind an abort nothing is left to be popped. -/
theorem Conserved.commute (h : Conserved capacity s)
    (hreturns : s.queue.Returns entry.answer t.queue) :
    discarded s.history ++ entry.answer.popped.toList =
      entry.answer.popped.toList ++ discarded s.history := by
  by_cases hdiscarded : discarded s.history = []
  · rw [hdiscarded, List.nil_append, List.append_nil]
  · rw [hreturns.popped_of_empty (h.aborted hdiscarded).1, Option.toList_none, List.nil_append,
      List.append_nil]

theorem Conserved.returned (h : Conserved capacity s)
    (hreturns : s.queue.Returns entry.answer t.queue)
    (hhistory : t.history = s.history ++ [entry]) : Conserved capacity t where
  capacity_eq := hreturns.capacity.trans h.capacity_eq
  balance := by
    rw [hhistory, pushed_snoc, popped_snoc, discarded_snoc]
    calc pushed s.history ++ entry.answer.pushed.toList
      _ = popped s.history ++ (discarded s.history ++
            (s.queue.items ++ entry.answer.pushed.toList)) := by
          rw [h.balance]
          simp only [List.append_assoc]
      _ = popped s.history ++ ((discarded s.history ++ entry.answer.popped.toList) ++
            (entry.answer.discarded ++ t.queue.items)) := by
          rw [hreturns.items]
          simp only [List.append_assoc]
      _ = popped s.history ++ entry.answer.popped.toList ++
            (discarded s.history ++ entry.answer.discarded ++ t.queue.items) := by
          rw [h.commute hreturns]
          simp only [List.append_assoc]
  aborted := by
    rw [hhistory, discarded_snoc]
    intro hne
    by_cases hdiscarded : discarded s.history = []
    · -- the entry itself is the abort
      rw [hdiscarded, List.nil_append] at hne
      exact hreturns.discarded_empty hne
    · obtain ⟨hempty, hstopped⟩ := h.aborted hdiscarded
      exact hreturns.ended hempty hstopped
  stopped := by
    rw [hreturns.stopped, hhistory, List.any_append, h.stopped]
    simp

end Returned

/-! ### The calls -/

inductive Action (ι α : Type*) where
  /-- A thread sets its variable. -/
  | assign (thread : ι) (value : α)
  /-- `notified` is the sleeper that `notify_one` wakes. -/
  | push (thread : ι) (passing : Passing α) (notified : Option ι)
  /-- The predicate of `pop` under the mutex, at the beginning and after a wait. -/
  | pop (thread : ι)
  | tryPop (thread : ι)
  | stop (thread : ι)
  | abort (thread : ι)
  /-- A spurious wakeup. -/
  | wake (thread : ι)

def notifyAll (phase : ι → Phase) (thread : ι) : Phase :=
  if phase thread = .asleep then .woken else phase thread

theorem notifyAll_ne_asleep (phase : ι → Phase) (thread : ι) :
    notifyAll phase thread ≠ .asleep := by
  unfold notifyAll
  split
  · exact nofun
  · assumption

def stop (s : Monitor ι α) (thread : ι) : Monitor ι α :=
  { s with
    queue := s.queue.stop
    phase := notifyAll s.phase
    history := s.history ++ [⟨thread, .stop⟩] }

def abort (s : Monitor ι α) (thread : ι) : Monitor ι α :=
  { s with
    queue := s.queue.abort.2
    phase := notifyAll s.phase
    history := s.history ++ [⟨thread, .abort s.queue.items⟩] }

/-- A step of a thread that is in no call. -/
def outside (s : Monitor ι α) (thread : ι) (next : Monitor ι α) : Option (Monitor ι α) :=
  if s.phase thread = .outside then some next else none

theorem outside_eq_some {s t next : Monitor ι α} {thread : ι}
    (h : s.outside thread next = some t) : s.phase thread = .outside ∧ next = t := by
  obtain ⟨hphase, hnext⟩ := Option.ite_none_right_eq_some.mp h
  exact ⟨hphase, Option.some.inj hnext⟩

variable [DecidableEq ι]

def notifyOne (phase : ι → Phase) : Option ι → ι → Phase
  | none => phase
  | some thread => if phase thread = .asleep then Function.update phase thread .woken else phase

/-- A test of the predicate of `pop` and what follows from it. -/
def testPop (s : Monitor ι α) (thread : ι) : Monitor ι α :=
  match s.queue.pop with
  | none => { s with phase := Function.update s.phase thread .asleep }
  | some none =>
      { s with
        phase := Function.update s.phase thread .outside
        history := s.history ++ [⟨thread, .pop none⟩] }
  | some (some (front, queue)) =>
      { queue := queue
        phase := Function.update s.phase thread .outside
        item := Function.update s.item thread front
        history := s.history ++ [⟨thread, .pop (some front)⟩] }

def push (s : Monitor ι α) (thread : ι) (passing : Passing α) (notified : Option ι) :
    Monitor ι α :=
  let (result, queue, left) := s.queue.pushBy (s.item thread) passing
  { queue := queue
    phase := if result = .ok then notifyOne s.phase notified else s.phase
    item := Function.update s.item thread left
    history := s.history ++ [⟨thread, .push (s.item thread) result⟩] }

def tryPop (s : Monitor ι α) (thread : ι) : Monitor ι α :=
  match s.queue.tryPop with
  | none => { s with history := s.history ++ [⟨thread, .tryPop none⟩] }
  | some (front, queue) =>
      { s with
        queue := queue
        item := Function.update s.item thread front
        history := s.history ++ [⟨thread, .tryPop (some front)⟩] }

def step (s : Monitor ι α) : Action ι α → Option (Monitor ι α)
  | .assign thread value =>
      s.outside thread { s with item := Function.update s.item thread value }
  | .push thread passing notified => s.outside thread (s.push thread passing notified)
  | .pop thread => if s.phase thread = .asleep then none else some (s.testPop thread)
  | .tryPop thread => s.outside thread (s.tryPop thread)
  | .stop thread => s.outside thread (s.stop thread)
  | .abort thread => s.outside thread (s.abort thread)
  | .wake thread =>
      if s.phase thread = .asleep then
        some { s with phase := Function.update s.phase thread .woken }
      else none

/-- A new queue and its threads. -/
def monitor (ι α : Type*) [DecidableEq ι] (capacity : ℕ) :
    Transition.System (Monitor ι α) (Action ι α) where
  init s := s.queue = .create capacity ∧ (∀ thread, s.phase thread = .outside) ∧ s.history = []
  step := step

/-! ### Steps -/

section Steps

variable {s t : Monitor ι α} {a : Action ι α}

/-- A push that is refused leaves the queue and every variable as they were. -/
theorem push_returns (s : Monitor ι α) (thread : ι) (passing : Passing α) (notified : Option ι) :
    ∃ result, s.queue.Returns (.push (s.item thread) result)
      (s.push thread passing notified).queue ∧
      (s.push thread passing notified).history =
        s.history ++ [⟨thread, .push (s.item thread) result⟩] ∧
      (result ≠ .ok → (s.push thread passing notified).queue = s.queue ∧
        (s.push thread passing notified).item = s.item) := by
  unfold push
  rcases s.queue.pushBy_cases (s.item thread) passing with ⟨left, hok, heq⟩ | ⟨result, hne, heq⟩
  · rw [heq]
    exact ⟨.ok, .push hok, rfl, fun hne => absurd rfl hne⟩
  · rw [heq]
    exact ⟨result, .refused hne, rfl, fun _ => ⟨rfl, Function.update_eq_self thread s.item⟩⟩

theorem tryPop_returns (s : Monitor ι α) (thread : ι) :
    ∃ item?, s.queue.Returns (.tryPop item?) (s.tryPop thread).queue ∧
      (s.tryPop thread).history = s.history ++ [⟨thread, .tryPop item?⟩] := by
  unfold tryPop
  split
  · next hnone => exact ⟨none, .missed (BlockQueue.tryPop_eq_none.mp hnone), rfl⟩
  · next front queue hfront => exact ⟨some front, .tryPop hfront, rfl⟩

/-- A test of `pop` puts the thread to sleep, or the call returns. -/
theorem testPop_returns (s : Monitor ι α) (thread : ι) :
    (s.queue.pop = none ∧ (s.testPop thread).queue = s.queue ∧
        (s.testPop thread).history = s.history) ∨
      ∃ item?, s.queue.Returns (.pop item?) (s.testPop thread).queue ∧
        (s.testPop thread).history = s.history ++ [⟨thread, .pop item?⟩] := by
  unfold testPop
  split
  · next hnone => exact .inl ⟨hnone, rfl, rfl⟩
  · next hfinished =>
      obtain ⟨hstopped, hempty⟩ := BlockQueue.pop_finished hfinished
      exact .inr ⟨none, .finished hstopped hempty, rfl⟩
  · next front queue hfront =>
      exact .inr ⟨some front, .pop (BlockQueue.pop_eq_item.mp hfront), rfl⟩

/-- What a step does to the queue and the history. -/
inductive Changes (s t : Monitor ι α) : Prop
  | silent (queue : t.queue = s.queue) (history : t.history = s.history)
  | returned (entry : Return ι α) (queue : s.queue.Returns entry.answer t.queue)
      (history : t.history = s.history ++ [entry])

theorem step_changes (h : s.step a = some t) : Changes s t := by
  cases a with
  | assign thread value =>
      obtain ⟨-, rfl⟩ := outside_eq_some h
      exact .silent rfl rfl
  | push thread passing notified =>
      obtain ⟨-, rfl⟩ := outside_eq_some h
      obtain ⟨result, hreturns, hhistory, -⟩ := push_returns s thread passing notified
      exact .returned _ hreturns hhistory
  | pop thread =>
      obtain ⟨-, ⟨⟩⟩ := Option.ite_none_left_eq_some.mp h
      rcases testPop_returns s thread with ⟨-, hqueue, hhistory⟩ | ⟨item?, hreturns, hhistory⟩
      · exact .silent hqueue hhistory
      · exact .returned _ hreturns hhistory
  | tryPop thread =>
      obtain ⟨-, rfl⟩ := outside_eq_some h
      obtain ⟨item?, hreturns, hhistory⟩ := tryPop_returns s thread
      exact .returned _ hreturns hhistory
  | stop thread =>
      obtain ⟨-, rfl⟩ := outside_eq_some h
      exact .returned ⟨thread, .stop⟩ .stop rfl
  | abort thread =>
      obtain ⟨-, rfl⟩ := outside_eq_some h
      exact .returned ⟨thread, .abort s.queue.items⟩ .abort rfl
  | wake thread =>
      obtain ⟨-, ⟨⟩⟩ := Option.ite_none_right_eq_some.mp h
      exact .silent rfl rfl

end Steps

/-! ### Conservation -/

section Conservation

variable {capacity : ℕ} {s t : Monitor ι α}

theorem Conserved.step (h : Conserved capacity s) {a : Action ι α} (hstep : s.step a = some t) :
    Conserved capacity t := by
  cases step_changes hstep with
  | silent hqueue hhistory =>
      obtain ⟨hcapacity, hbalance, haborted, hstopped⟩ := h
      rw [← hqueue, ← hhistory] at hbalance haborted hstopped
      exact ⟨hqueue ▸ hcapacity, hbalance, haborted, hstopped⟩
  | returned entry hreturns hhistory => exact h.returned hreturns hhistory

theorem conserved (h : Transition.Reachable (monitor ι α capacity) s) : Conserved capacity s := by
  refine h.invariant (fun s hinit => ?_) fun s a t _ hs _ hstep => hs.step hstep
  obtain ⟨hqueue, -, hhistory⟩ := hinit
  refine ⟨?_, ?_, ?_, ?_⟩
  · rw [hqueue]
    rfl
  · rw [hhistory, hqueue]
    rfl
  · rw [hhistory]
    exact fun hne => absurd rfl hne
  · rw [hhistory, hqueue]
    rfl

end Conservation

/-! ### Sleepers -/

theorem update_asleep {phase : ι → Phase} {thread other : ι} {next : Phase}
    (h : Function.update phase other next thread = .asleep) (hnext : next ≠ .asleep) :
    thread ≠ other ∧ phase thread = .asleep := by
  by_cases heq : thread = other
  · rw [heq, Function.update_self] at h
    exact absurd h hnext
  · rw [Function.update_of_ne heq] at h
    exact ⟨heq, h⟩

theorem notifyOne_asleep {phase : ι → Phase} {notified : Option ι} {thread : ι}
    (h : notifyOne phase notified thread = .asleep) : phase thread = .asleep := by
  cases notified with
  | none => exact h
  | some other =>
      by_cases hother : phase other = .asleep
      · rw [notifyOne, if_pos hother] at h
        exact (update_asleep h nofun).2
      · rwa [notifyOne, if_neg hother] at h

section Sleepers

variable {s t : Monitor ι α} {a : Action ι α} {thread : ι}

theorem push_phase_asleep {other : ι} {passing : Passing α} {notified : Option ι}
    (h : (s.push other passing notified).phase thread = .asleep) : s.phase thread = .asleep := by
  unfold push at h
  rcases s.queue.pushBy_cases (s.item other) passing with ⟨left, -, heq⟩ | ⟨result, hne, heq⟩
  · rw [heq] at h
    exact notifyOne_asleep h
  · rw [heq] at h
    simpa only [if_neg hne] using h

theorem tryPop_phase (s : Monitor ι α) (thread : ι) : (s.tryPop thread).phase = s.phase := by
  unfold tryPop
  split <;> rfl

theorem testPop_asleep {other : ι} (h : (s.testPop other).phase thread = .asleep) :
    s.phase thread = .asleep ∨ s.queue.pop = none := by
  unfold testPop at h
  split at h
  · next hnone => exact .inr hnone
  · exact .inl (update_asleep h nofun).2
  · exact .inl (update_asleep h nofun).2

/-- A thread that sleeps has slept before, or has found nothing in a queue that is
not stopped; and it is not stopped by the step. -/
theorem step_asleep (h : s.step a = some t) (hasleep : t.phase thread = .asleep) :
    (s.phase thread = .asleep ∨ s.queue.pop = none) ∧ t.queue.stopped = s.queue.stopped := by
  cases a with
  | assign other value =>
      obtain ⟨-, rfl⟩ := outside_eq_some h
      exact ⟨.inl hasleep, rfl⟩
  | push other passing notified =>
      obtain ⟨-, rfl⟩ := outside_eq_some h
      obtain ⟨result, hreturns, -⟩ := push_returns s other passing notified
      exact ⟨.inl (push_phase_asleep hasleep), hreturns.stopped.trans (Bool.or_false _)⟩
  | pop other =>
      obtain ⟨-, ⟨⟩⟩ := Option.ite_none_left_eq_some.mp h
      refine ⟨testPop_asleep hasleep, ?_⟩
      rcases testPop_returns s other with ⟨-, hqueue, -⟩ | ⟨item?, hreturns, -⟩
      · rw [hqueue]
      · exact hreturns.stopped.trans (Bool.or_false _)
  | tryPop other =>
      obtain ⟨-, rfl⟩ := outside_eq_some h
      obtain ⟨item?, hreturns, -⟩ := tryPop_returns s other
      rw [tryPop_phase] at hasleep
      exact ⟨.inl hasleep, hreturns.stopped.trans (Bool.or_false _)⟩
  | stop other | abort other =>
      obtain ⟨-, rfl⟩ := outside_eq_some h
      exact absurd hasleep (notifyAll_ne_asleep _ _)
  | wake other =>
      obtain ⟨-, ⟨⟩⟩ := Option.ite_none_right_eq_some.mp h
      exact ⟨.inl (update_asleep hasleep nofun).2, rfl⟩

/-- Nobody sleeps on a stopped queue. -/
theorem awake {capacity : ℕ} (h : Transition.Reachable (monitor ι α capacity) s)
    (hstopped : s.queue.stopped = true) (thread : ι) : s.phase thread ≠ .asleep := by
  revert hstopped thread
  refine h.invariant (I := fun s => s.queue.stopped = true → ∀ thread, s.phase thread ≠ .asleep)
    ?_ ?_
  · rintro s ⟨-, hphase, -⟩ - thread
    rw [hphase thread]
    exact nofun
  · intro s a t _ ih _ hstep hstopped thread hasleep
    obtain ⟨hcause, hsame⟩ := step_asleep hstep hasleep
    rw [hsame] at hstopped
    rcases hcause with hold | hnone
    · exact ih hstopped thread hold
    · cases hstopped.symm.trans (BlockQueue.pop_eq_none.mp hnone).2

end Sleepers

/-! ### Wakeups -/

section Wakeups

variable {s t : Monitor ι α} {a : Action ι α}

/-- `notify_one` wakes a sleeper if there is one. -/
def Notifies (s : Monitor ι α) : Action ι α → Prop
  | .push thread _ none => (s.queue.push (s.item thread)).1 = .ok →
      ∀ sleeper, s.phase sleeper ≠ .asleep
  | .push thread _ (some notified) => (s.queue.push (s.item thread)).1 = .ok →
      s.phase notified = .asleep
  | _ => True

/-- While a thread sleeps, there is a woken thread for each item of the queue. -/
def Attended (s : Monitor ι α) : Prop :=
  ∀ sleeper, s.phase sleeper = .asleep → ∃ ready : Finset ι,
    (∀ thread ∈ ready, s.phase thread = .woken) ∧ s.queue.items.length ≤ ready.card

theorem Attended.push (h : Attended s) {thread : ι} {passing : Passing α} {notified : Option ι}
    (hnotifies : Notifies s (.push thread passing notified)) :
    Attended (s.push thread passing notified) := by
  intro sleeper hasleep
  obtain ⟨ready, hready, hcard⟩ := h sleeper (push_phase_asleep hasleep)
  unfold Monitor.push at hasleep ⊢
  rcases s.queue.pushBy_cases (s.item thread) passing with ⟨left, hok, heq⟩ | ⟨result, hne, heq⟩
  · have hitems : (s.queue.push (s.item thread)).2.items.length = s.queue.items.length + 1 := by
      rw [(BlockQueue.push_ok hok).2.2, List.length_append, List.length_singleton]
    rw [heq] at hasleep ⊢
    cases notified with
    | none => exact absurd hasleep (hnotifies hok sleeper)
    | some other =>
        have hother : s.phase other = .asleep := hnotifies hok
        -- the one that is woken was asleep, so it was not ready before
        have hnew : other ∉ ready := fun hmem => by
          cases hother.symm.trans (hready other hmem)
        refine ⟨insert other ready, fun thread' hmem => ?_, ?_⟩
        · simp only [if_true, notifyOne, if_pos hother]
          rcases Finset.mem_insert.mp hmem with rfl | hold
          · exact Function.update_self ..
          · have hne : thread' ≠ other := fun heq => hnew (heq ▸ hold)
            rw [Function.update_of_ne hne]
            exact hready thread' hold
        · rw [Finset.card_insert_of_notMem hnew]
          exact hitems.trans_le (Nat.succ_le_succ hcard)
  · rw [heq]
    simp only [if_neg hne]
    exact ⟨ready, hready, hcard⟩

theorem Attended.testPop (h : Attended s) (hawake : s.queue.stopped = true → ∀ thread,
    s.phase thread ≠ .asleep) (thread : ι) : Attended (s.testPop thread) := by
  intro sleeper hasleep
  unfold Monitor.testPop at hasleep ⊢
  split at hasleep
  · next hnone =>
      have hempty := (BlockQueue.pop_eq_none.mp hnone).1
      exact ⟨∅, by simp, by simp [hempty]⟩
  · next hfinished =>
      have hold := (update_asleep hasleep nofun).2
      exact absurd hold (hawake (BlockQueue.pop_finished hfinished).1 sleeper)
  · next front queue hfront =>
      obtain ⟨ready, hready, hcard⟩ := h sleeper (update_asleep hasleep nofun).2
      refine ⟨ready.erase thread, fun other hmem => ?_, ?_⟩
      · obtain ⟨hne, hold⟩ := Finset.mem_erase.mp hmem
        exact (Function.update_of_ne hne ..).trans (hready other hold)
      · rw [(BlockQueue.pop_item hfront).1, List.length_cons] at hcard
        have herase := Finset.pred_card_le_card_erase (s := ready) (a := thread)
        change queue.items.length ≤ (ready.erase thread).card
        omega

theorem Attended.tryPop (h : Attended s) (thread : ι) : Attended (s.tryPop thread) := by
  intro sleeper hasleep
  rw [tryPop_phase] at hasleep ⊢
  obtain ⟨ready, hready, hcard⟩ := h sleeper hasleep
  refine ⟨ready, hready, le_trans ?_ hcard⟩
  unfold Monitor.tryPop
  split
  · exact le_rfl
  · next front queue hfront =>
      rw [(BlockQueue.tryPop_eq_some hfront).1, List.length_cons]
      exact Nat.le_succ _

theorem Attended.step (h : Attended s) (hawake : s.queue.stopped = true → ∀ thread,
    s.phase thread ≠ .asleep) (hnotifies : Notifies s a) (hstep : s.step a = some t) :
    Attended t := by
  cases a with
  | assign thread value =>
      obtain ⟨-, rfl⟩ := outside_eq_some hstep
      exact h
  | push thread passing notified =>
      obtain ⟨-, rfl⟩ := outside_eq_some hstep
      exact h.push hnotifies
  | pop thread =>
      obtain ⟨-, ⟨⟩⟩ := Option.ite_none_left_eq_some.mp hstep
      exact h.testPop hawake thread
  | tryPop thread =>
      obtain ⟨-, rfl⟩ := outside_eq_some hstep
      exact h.tryPop thread
  | stop thread | abort thread =>
      obtain ⟨-, rfl⟩ := outside_eq_some hstep
      exact fun sleeper hasleep => absurd hasleep (notifyAll_ne_asleep _ _)
  | wake thread =>
      obtain ⟨-, ⟨⟩⟩ := Option.ite_none_right_eq_some.mp hstep
      intro sleeper hasleep
      obtain ⟨ready, hready, hcard⟩ := h sleeper (update_asleep hasleep nofun).2
      refine ⟨ready, fun other hmem => ?_, hcard⟩
      by_cases heq : other = thread
      · rw [heq]
        exact Function.update_self ..
      · exact (Function.update_of_ne heq ..).trans (hready other hmem)

/-- No wakeup is lost: as long as a thread sleeps the queue is not stopped, and for
each item that is queued another thread is on its way. -/
theorem wakeups {capacity : ℕ} (h : Transition.ReachableBy (monitor ι α capacity) Notifies s)
    {sleeper : ι} (hasleep : s.phase sleeper = .asleep) :
    s.queue.stopped = false ∧ ∃ ready : Finset ι,
      (∀ thread ∈ ready, s.phase thread = .woken) ∧ s.queue.items.length ≤ ready.card := by
  have hattended : Attended s := by
    refine h.invariant ?_ fun s a t hs ih hok hstep => ?_
    · rintro s ⟨-, hphase, -⟩ sleeper hasleep
      rw [hphase sleeper] at hasleep
      cases hasleep
    · exact ih.step (awake hs.reachable) hok hstep
  refine ⟨?_, hattended sleeper hasleep⟩
  exact Bool.eq_false_iff.mpr fun hstopped => awake h.reachable hstopped sleeper hasleep

/-- Two threads sleep, and one of them is woken for an item. -/
theorem wakeups_pushed : ∃ s : Monitor (Fin 3) ℕ, s.queue.items = [7] ∧
    ∃ ready : Finset (Fin 3), (∀ thread ∈ ready, s.phase thread = .woken) ∧ 1 ≤ ready.card := by
  have hstart : (monitor (Fin 3) ℕ 1).init ⟨.create 1, fun _ => .outside, fun _ => 7, []⟩ :=
    ⟨rfl, fun _ => rfl, rfl⟩
  have hreach : Transition.ReachableBy (monitor (Fin 3) ℕ 1) Notifies _ :=
    .step (.step (.step (.init hstart) (a := .pop 1) trivial rfl) (a := .pop 2) trivial rfl)
      (a := .push 0 .lvalue (some 1)) (fun _ => rfl) rfl
  exact ⟨_, rfl, (@wakeups _ _ _ _ _ hreach 2 rfl).2⟩

end Wakeups

/-! ### Runs -/

section Runs

variable {capacity : ℕ} {s t : Monitor ι α} {a : Action ι α} {before after : List (Return ι α)}
  {entry : Return ι α}

theorem step_history (h : s.step a = some t) :
    t.history = s.history ∨ ∃ entry, t.history = s.history ++ [entry] := by
  cases step_changes h with
  | silent _ hhistory => exact .inl hhistory
  | returned entry _ hhistory => exact .inr ⟨entry, hhistory⟩

theorem step_peakSize (hpeak : s.queue.items.length ≤ s.queue.peakSize) (h : s.step a = some t) :
    t.queue.peakSize = max s.queue.peakSize t.queue.items.length := by
  cases step_changes h with
  | silent hqueue _ => rw [hqueue, max_eq_left hpeak]
  | returned entry hreturns _ => exact hreturns.peakSize hpeak

/-- Each entry of the history was a return at a queue with the history before it. -/
theorem entry_returned (h : Transition.Reachable (monitor ι α capacity) s)
    (hhistory : s.history = before ++ entry :: after) :
    ∃ (u : Monitor ι α) (queue : BlockQueue α), Transition.Reachable (monitor ι α capacity) u ∧
      u.history = before ∧ u.queue.Returns entry.answer queue := by
  have hinit : ∀ s : Monitor ι α, (monitor ι α capacity).init s → s.history = [] :=
    fun _ hinit => hinit.2.2
  obtain ⟨u, a, v, hu, hstep, hbefore, hentry⟩ :=
    h.moment hinit (fun s a t (hstep : s.step a = some t) => step_history hstep) hhistory
  refine ⟨u, v.queue, hu, hbefore, ?_⟩
  cases step_changes hstep with
  | silent _ hsame => simp [hsame] at hentry
  | returned other hreturns hother =>
      obtain rfl : other = entry := by simpa [hother] using hentry
      exact hreturns

/-- Nothing is accepted behind a stop or an abort. -/
theorem not_accepted (h : Transition.Reachable (monitor ι α capacity) s)
    (hhistory : s.history = before ++ entry :: after)
    (hstop : ∃ earlier ∈ before, earlier.answer.stops = true) (item : α) :
    entry.answer ≠ .push item .ok := by
  obtain ⟨u, queue, hu, rfl, hreturns⟩ := entry_returned h hhistory
  have hstopped : u.queue.stopped = true :=
    (conserved hu).stopped.trans (List.any_eq_true.mpr hstop)
  intro heq
  have hpushed : entry.answer.pushed = some item := congrArg Answer.pushed heq
  cases hstopped.symm.trans (hreturns.pushed_running hpushed)

/-- A `pop` returns `false` only when everything that went in is out. -/
theorem finished_balance (h : Transition.Reachable (monitor ι α capacity) s)
    (hhistory : s.history = before ++ entry :: after) (hfinished : entry.answer = .pop none) :
    pushed before = popped before ++ discarded before := by
  obtain ⟨u, queue, hu, rfl, hreturns⟩ := entry_returned h hhistory
  rw [hfinished] at hreturns
  cases hreturns with
  | finished _ hempty => rw [(conserved hu).balance, hempty, List.append_nil]

/-- On a stopped queue every test of `pop` ends its call, with the front item as long
as there is one. -/
theorem stopped_pop (h : Transition.Reachable (monitor ι α capacity) s)
    (hstopped : s.queue.stopped = true) (thread : ι) :
    ∃ t, s.step (.pop thread) = some t ∧ t.queue.items = s.queue.items.tail ∧
      t.history = s.history ++ [⟨thread, .pop s.queue.items.head?⟩] := by
  refine ⟨s.testPop thread, if_neg (awake h hstopped thread), ?_⟩
  rcases testPop_returns s thread with ⟨hnone, -⟩ | ⟨item?, hreturns, hhistory⟩
  · cases hstopped.symm.trans (BlockQueue.pop_eq_none.mp hnone).2
  · rw [hhistory]
    generalize (s.testPop thread).queue = queue at hreturns
    cases hreturns with
    | pop hfront => simp [(BlockQueue.tryPop_eq_some hfront).1]
    | finished _ hempty => simp [hempty]

end Runs

/-- However the threads interleave: the items that were accepted are those that were
popped, in the same order, and behind them those that were discarded or are still
queued. The size stays within the capacity, and its greatest value on the run is the
peak. Once the queue is stopped nothing is accepted, and `pop` never waits and hands
out what is left before it returns `false`. A refused push changes neither the queue
nor a variable of a caller. -/
theorem queue_conserved (capacity : ℕ) {start s : Monitor ι α} {actions : List (Action ι α)}
    (hstart : (monitor ι α capacity).init start)
    (hrun : (monitor ι α capacity).run start actions = some s) :
    pushed s.history = popped s.history ++ (discarded s.history ++ s.queue.items) ∧
    s.queue.items.length ≤ capacity ∧
    IsGreatest { n | ∃ u, (monitor ι α capacity).Visits start actions u ∧
      u.queue.items.length = n } s.queue.peakSize ∧
    (∀ before entry after, s.history = before ++ entry :: after →
      ((∃ earlier ∈ before, earlier.answer.stops = true) →
        ∀ item, entry.answer ≠ .push item .ok) ∧
      (entry.answer = .pop none → pushed before = popped before ++ discarded before)) ∧
    ((∃ entry ∈ s.history, entry.answer.stops = true) → ∀ thread, ∃ t,
      s.step (.pop thread) = some t ∧ t.queue.items = s.queue.items.tail ∧
        t.history = s.history ++ [⟨thread, .pop s.queue.items.head?⟩]) ∧
    (∀ thread passing notified t, s.step (.push thread passing notified) = some t →
      ∃ result, t.history = s.history ++ [⟨thread, .push (s.item thread) result⟩] ∧
        (result ≠ .ok → t.queue = s.queue ∧ t.item = s.item)) := by
  have hreach : Transition.Reachable (monitor ι α capacity) s :=
    Transition.System.run_reachable (.init hstart) (fun _ _ _ => trivial) hrun
  have hconserved := conserved hreach
  refine ⟨hconserved.balance, ?_, ?_, fun before entry after hhistory => ⟨?_, ?_⟩, ?_, ?_⟩
  · rw [← hconserved.capacity_eq]
    exact s.queue.size_le
  · have hpeak : start.queue.items.length = start.queue.peakSize := by
      rw [hstart.1]
      rfl
    exact Transition.System.run_isGreatest (fun s a t hpeak hstep => step_peakSize hpeak hstep)
      hpeak hrun
  · exact not_accepted hreach hhistory
  · exact finished_balance hreach hhistory
  · intro hstop
    exact stopped_pop hreach (hconserved.stopped.trans (List.any_eq_true.mpr hstop))
  · intro thread passing notified t hstep
    obtain ⟨-, rfl⟩ := outside_eq_some hstep
    obtain ⟨result, -, hhistory, hrefused⟩ := push_returns s thread passing notified
    exact ⟨result, hhistory, hrefused⟩

namespace Sample

/-- Two threads and a queue of one item. -/
def start : Monitor Bool ℕ where
  queue := .create 1
  phase _ := .outside
  item _ := 0
  history := []

/-- The second thread waits for an item. The first pushes one and is refused with
another, and stops the queue before the item is taken. -/
def actions : List (Action Bool ℕ) :=
  [.pop true, .assign false 7, .push false .lvalue (some true), .assign false 8,
    .push false (.rvalue 0) none, .stop false, .pop true, .pop true]

def drained : Monitor Bool ℕ :=
  ((monitor Bool ℕ 1).run start actions).get (by decide +kernel)

end Sample

theorem queue_conserved_drained : Sample.drained.item false = 8 ∧
    pushed Sample.drained.history = [7] ∧ Sample.drained.queue.peakSize = 1 ∧
    pushed Sample.drained.history = popped Sample.drained.history ++
      (discarded Sample.drained.history ++ Sample.drained.queue.items) :=
  ⟨by decide +kernel, by decide +kernel, by decide +kernel,
    (queue_conserved 1 ⟨rfl, fun _ => rfl, rfl⟩ (Option.some_get _).symm).1⟩

end Monitor

end GatewaySystem
