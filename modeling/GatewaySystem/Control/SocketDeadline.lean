import GatewaySystem.Control.HttpResponseParser
import GatewaySystem.Lib.Transition
import Mathlib.Data.List.Infix

/-!
# Calls on a socket until a deadline

`sendAll` and `receive` are loops around one call each. Every turn of a loop reads
the clock before its call, and a call that would block is followed by
`waitForSocket`, a loop of its own that reads the clock before every `poll`. An
`Operation` is what the two functions do not share, and `step` is one reading of
the clock or one call, with what the surroundings answer to it.

Times are in nanoseconds. A state keeps the clock and, newest first, what was
read and called. `sendResult` and `receiveResult` say which of these ends an
operation, and with which result.
-/

namespace GatewaySystem

namespace SocketDeadline

/-- `remainingMilliseconds` at a reading of the clock. -/
def remainingMilliseconds (deadline now : ℤ) : Option ℤ :=
  if deadline ≤ now then none
  else some (min ((deadline - now + 999999) / 1000000) 2147483647)

/-- The values of `errno` that are told apart. -/
inductive Errno where
  | eintr
  /-- `EAGAIN` or `EWOULDBLOCK`. -/
  | eagain
  | other
  deriving DecidableEq, Repr

/-- The flags of `revents` that are read. -/
structure Revents where
  nval : Bool := false
  /-- One of the flags that were asked for. -/
  events : Bool := false
  err : Bool := false
  hup : Bool := false
  deriving DecidableEq, Repr

/-- The outcome of `poll`. -/
inductive PollOutcome where
  | ready (revents : Revents)
  | timeout
  | failed (errno : Errno)
  deriving DecidableEq, Repr

/-- A turn of `waitForSocket` after its `poll`: what it returns, if it does. -/
def waited (failure : HttpError) : PollOutcome → Option HttpError
  | .ready revents =>
      if revents.nval then some failure
      else if revents.events || revents.err || revents.hup then some .none
      else none
  | .timeout => some .deadlineExceeded
  | .failed errno => if errno ≠ .eintr then some failure else none

/-- What follows a call. -/
inductive Turn (ρ : Type) where
  | again
  | wait
  | result (result : ρ)

/-- A loop around a call with local variables `σ` and results `ρ`. -/
structure Operation (σ ρ : Type) where
  /-- The test at the head of the loop: the result when the loop is over. -/
  head : σ → Option ρ
  /-- How many bytes the call is for. -/
  size : σ → ℕ
  /-- What the loop does with the count or the error of the call. -/
  call : σ → Except Errno ℕ → σ × Turn ρ
  /-- The error of `waitForSocket`. -/
  failure : HttpError
  /-- The result that reports an error. -/
  ofError : HttpError → ρ

/-- The local variable of `sendAll`, and what the kernel was handed. -/
structure Sending where
  offset : ℕ
  handed : Bytes
  deriving DecidableEq, Repr

/-- `sendAll`. -/
def sendAll (data : Bytes) : Operation Sending HttpError where
  head s := if s.offset < data.length then none else some .none
  size s := data.length - s.offset
  call s
    | .ok sent =>
        if 0 < sent then
          (⟨s.offset + sent, s.handed ++ (data.drop s.offset).take sent⟩, .again)
        else (s, .result .sendFailed)
    | .error .eintr => (s, .again)
    | .error .eagain => (s, .wait)
    | .error .other => (s, .result .sendFailed)
  failure := .sendFailed
  ofError error := error

/-- `SocketReadResult`. -/
structure SocketReadResult where
  error : HttpError := .none
  size : ℕ := 0
  eof : Bool := false
  deriving DecidableEq, Repr

/-- `receive`. -/
def receive (capacity : ℕ) : Operation Unit SocketReadResult where
  head _ := none
  size _ := capacity
  call s
    | .ok count =>
        if 0 < count then (s, .result { size := count }) else (s, .result { eof := true })
    | .error .eintr => (s, .again)
    | .error .eagain => (s, .wait)
    | .error .other => (s, .result { error := .receiveFailed })
  failure := .receiveFailed
  ofError error := { error := error }

/-- Where an operation stands. -/
inductive Point (ρ : Type) where
  /-- Before the reading of the clock in its own loop. -/
  | check
  | call
  /-- Before the reading of the clock in `waitForSocket`. -/
  | waitCheck
  | poll (timeout : ℤ)
  | returned (result : ρ)

inductive Event where
  | read (now : ℤ)
  | call (outcome : Except Errno ℕ)
  | poll (timeout : ℤ) (outcome : PollOutcome)

structure State (σ ρ : Type) where
  point : Point ρ
  progress : σ
  now : ℤ
  trace : List Event := []

/-- A reading of the clock or a call, and the time at its end. -/
inductive Action where
  | read (now : ℤ)
  | call (now : ℤ) (outcome : Except Errno ℕ)
  | poll (now : ℤ) (outcome : PollOutcome)

namespace Operation

variable {σ ρ : Type} (op : Operation σ ρ)

/-- The head of the loop. -/
def resume (progress : σ) : Point ρ :=
  match op.head progress with
  | none => .check
  | some result => .returned result

/-- The state after a call. -/
def called (s : State σ ρ) (now : ℤ) (outcome : Except Errno ℕ) : State σ ρ where
  point :=
    match (op.call s.progress outcome).2 with
    | .again => op.resume (op.call s.progress outcome).1
    | .wait => .waitCheck
    | .result result => .returned result
  progress := (op.call s.progress outcome).1
  now := now
  trace := .call outcome :: s.trace

/-- The state after a `poll`. -/
def polled (s : State σ ρ) (timeout now : ℤ) (outcome : PollOutcome) : State σ ρ :=
  { s with
    point :=
      match waited op.failure outcome with
      | none => .waitCheck
      | some error => if error ≠ .none then .returned (op.ofError error) else op.resume s.progress
    now := now
    trace := .poll timeout outcome :: s.trace }

/-- The state after a reading of the clock that goes on with `next`. -/
def readClock (deadline : ℤ) (s : State σ ρ) (now : ℤ) (next : ℤ → Point ρ) : State σ ρ :=
  { s with
    point :=
      match remainingMilliseconds deadline now with
      | none => .returned (op.ofError .deadlineExceeded)
      | some timeout => next timeout
    now := now
    trace := .read now :: s.trace }

/-- A call returns at most what it was for. -/
def possible (progress : σ) : Except Errno ℕ → Bool
  | .ok count => count ≤ op.size progress
  | .error _ => true

/-- One step. The clock does not go back. -/
def step (deadline : ℤ) (s : State σ ρ) : Action → Option (State σ ρ)
  | .read now =>
      if now < s.now then none
      else
        match s.point with
        | .check => some (op.readClock deadline s now fun _ => .call)
        | .waitCheck => some (op.readClock deadline s now .poll)
        | _ => none
  | .call now outcome =>
      if now < s.now ∨ !op.possible s.progress outcome then none
      else
        match s.point with
        | .call => some (op.called s now outcome)
        | _ => none
  | .poll now outcome =>
      if now < s.now then none
      else
        match s.point with
        | .poll timeout => some (op.polled s timeout now outcome)
        | _ => none

/-- Runs of an operation that starts with the local variables `progress`. -/
def machine (deadline : ℤ) (progress : σ) : Transition.System (State σ ρ) Action where
  init s := s.point = op.resume progress ∧ s.progress = progress ∧ s.trace = []
  step := op.step deadline

/-- Everything a step can do. -/
inductive Step (deadline : ℤ) : State σ ρ → State σ ρ → Prop
  | expire {s : State σ ρ} {now : ℤ} (hpoint : s.point = .check ∨ s.point = .waitCheck)
      (htime : s.now ≤ now) (h : deadline ≤ now) :
      Step deadline s
        { s with
          point := .returned (op.ofError .deadlineExceeded), now := now
          trace := .read now :: s.trace }
  | check {s : State σ ρ} {now : ℤ} (hpoint : s.point = .check) (htime : s.now ≤ now)
      (h : now < deadline) :
      Step deadline s { s with point := .call, now := now, trace := .read now :: s.trace }
  | waitCheck {s : State σ ρ} {now timeout : ℤ} (hpoint : s.point = .waitCheck)
      (htime : s.now ≤ now) (h : remainingMilliseconds deadline now = some timeout) :
      Step deadline s { s with point := .poll timeout, now := now, trace := .read now :: s.trace }
  | call {s : State σ ρ} {now : ℤ} {outcome : Except Errno ℕ} (hpoint : s.point = .call)
      (htime : s.now ≤ now) (h : op.possible s.progress outcome = true) :
      Step deadline s (op.called s now outcome)
  | poll {s : State σ ρ} {now timeout : ℤ} {outcome : PollOutcome}
      (hpoint : s.point = .poll timeout) (htime : s.now ≤ now) :
      Step deadline s (op.polled s timeout now outcome)

end Operation

theorem remainingMilliseconds_eq_none {deadline now : ℤ} (h : deadline ≤ now) :
    remainingMilliseconds deadline now = none := if_pos h

/-- What remains is rounded up to a millisecond and no further. -/
theorem remainingMilliseconds_bounds {deadline now timeout : ℤ}
    (h : remainingMilliseconds deadline now = some timeout) :
    now < deadline ∧ 0 < timeout ∧ timeout * 1000000 < deadline - now + 1000000 := by
  unfold remainingMilliseconds at h
  split at h
  · cases h
  · cases h
    omega

namespace Operation

variable {σ ρ : Type} {op : Operation σ ρ} {deadline : ℤ} {progress : σ} {s s' : State σ ρ}
  {a : Action}

theorem readClock_step (op : Operation σ ρ) (deadline : ℤ) {now : ℤ} (htime : s.now ≤ now) :
    (s.point = .check → op.Step deadline s (op.readClock deadline s now fun _ => .call)) ∧
      (s.point = .waitCheck → op.Step deadline s (op.readClock deadline s now .poll)) := by
  unfold readClock
  cases hremaining : remainingMilliseconds deadline now with
  | none =>
      have hexpired : deadline ≤ now := by
        by_contra hless
        rw [remainingMilliseconds, if_neg hless] at hremaining
        cases hremaining
      exact ⟨fun hpoint => .expire (.inl hpoint) htime hexpired,
        fun hpoint => .expire (.inr hpoint) htime hexpired⟩
  | some timeout =>
      exact ⟨fun hpoint => .check hpoint htime (remainingMilliseconds_bounds hremaining).1,
        fun hpoint => .waitCheck hpoint htime hremaining⟩

theorem step_cases (h : op.step deadline s a = some s') : op.Step deadline s s' := by
  cases a with
  | read now =>
      simp only [step] at h
      split at h
      · cases h
      · next htime =>
          have hclock := readClock_step op deadline (not_lt.mp htime)
          split at h
          · next hpoint =>
              cases h
              exact hclock.1 hpoint
          · next hpoint =>
              cases h
              exact hclock.2 hpoint
          · cases h
  | call now outcome =>
      simp only [step] at h
      split at h
      · cases h
      · next hok =>
          rw [not_or] at hok
          split at h
          · next hpoint =>
              cases h
              exact .call hpoint (not_lt.mp hok.1) (by simpa using hok.2)
          · cases h
  | poll now outcome =>
      simp only [step] at h
      split at h
      · cases h
      · next htime =>
          split at h
          · next timeout hpoint =>
              cases h
              exact .poll hpoint (not_lt.mp htime)
          · cases h

/-- The operation has not returned. -/
def Running (s : State σ ρ) : Prop := ∀ result, s.point ≠ .returned result

/-- An operation that has not returned goes on, at any time. -/
theorem running_step (op : Operation σ ρ) (deadline : ℤ) (h : Running s) {now : ℤ}
    (htime : s.now ≤ now) : ∃ a s', op.step deadline s a = some s' ∧ s'.now = now := by
  have hclock : ¬now < s.now := not_lt.mpr htime
  cases hpoint : s.point with
  | check =>
      exact ⟨.read now, op.readClock deadline s now fun _ => .call,
        by simp [step, hclock, hpoint], rfl⟩
  | call =>
      exact ⟨.call now (.error .eintr), op.called s now (.error .eintr),
        by simp [step, hclock, hpoint, possible], rfl⟩
  | waitCheck =>
      exact ⟨.read now, op.readClock deadline s now .poll, by simp [step, hclock, hpoint], rfl⟩
  | poll timeout =>
      exact ⟨.poll now .timeout, op.polled s timeout now .timeout,
        by simp [step, hclock, hpoint], rfl⟩
  | returned result => exact absurd hpoint (h result)

/-- The operation is about to read the clock. -/
def Reading (s : State σ ρ) : Prop := s.point = .check ∨ s.point = .waitCheck

theorem Step.running (h : op.Step deadline s s') : Running s := by
  intro result hresult
  cases h with
  | expire hpoint => rcases hpoint with hpoint | hpoint <;> cases hpoint.symm.trans hresult
  | check hpoint => cases hpoint.symm.trans hresult
  | waitCheck hpoint => cases hpoint.symm.trans hresult
  | call hpoint => cases hpoint.symm.trans hresult
  | poll hpoint => cases hpoint.symm.trans hresult

/-- The head of a loop leads to a reading or to the end. -/
theorem resume_cases (op : Operation σ ρ) (progress : σ) :
    op.resume progress = .check ∨ ∃ result, op.resume progress = .returned result := by
  unfold resume
  split
  · exact .inl rfl
  · exact .inr ⟨_, rfl⟩

/-- A call is followed by a reading, if it does not end the operation. -/
theorem called_cases (op : Operation σ ρ) (s : State σ ρ) (now : ℤ) (outcome : Except Errno ℕ) :
    Reading (op.called s now outcome) ∨
      ∃ result, (op.called s now outcome).point = .returned result := by
  unfold Reading called
  simp only
  split
  · exact (resume_cases op _).imp .inl id
  · exact .inl (.inr rfl)
  · exact .inr ⟨_, rfl⟩

theorem polled_cases (op : Operation σ ρ) (s : State σ ρ) (timeout now : ℤ)
    (outcome : PollOutcome) : Reading (op.polled s timeout now outcome) ∨
      ∃ result, (op.polled s timeout now outcome).point = .returned result := by
  unfold Reading polled
  simp only
  split
  · exact .inl (.inr rfl)
  · split
    · exact .inr ⟨_, rfl⟩
    · exact (resume_cases op _).imp .inl id

theorem ne_poll (h : Reading s ∨ ∃ result, s.point = .returned result) (timeout : ℤ) :
    s.point ≠ .poll timeout := by
  intro hpoint
  rcases h with (h | h) | ⟨result, h⟩ <;> cases hpoint.symm.trans h

/-- A reading after the deadline is the end. -/
theorem Step.expired (h : op.Step deadline s s') (hreading : Reading s) (hlate : deadline ≤ s.now) :
    s'.point = .returned (op.ofError .deadlineExceeded) := by
  cases h with
  | expire => rfl
  | check _ htime hless => exact absurd (hlate.trans htime) (not_le.mpr hless)
  | waitCheck _ htime hremaining =>
      have hless := (remainingMilliseconds_bounds hremaining).1
      exact absurd (hlate.trans htime) (not_le.mpr hless)
  | call hpoint => rcases hreading with h | h <;> cases hpoint.symm.trans h
  | poll hpoint => rcases hreading with h | h <;> cases hpoint.symm.trans h

/-- A step after the deadline is the reading that ends the operation, or the end of
the call that was under way. -/
theorem Step.overdue (h : op.Step deadline s s') (hlate : deadline ≤ s.now) :
    s'.point = .returned (op.ofError .deadlineExceeded) ∨
      ¬Reading s ∧ (Reading s' ∨ ∃ result, s'.point = .returned result) := by
  by_cases hreading : Reading s
  · exact .inl (h.expired hreading hlate)
  · refine .inr ⟨hreading, ?_⟩
    cases h with
    | expire hpoint => exact absurd hpoint hreading
    | check hpoint => exact absurd (.inl hpoint) hreading
    | waitCheck hpoint => exact absurd (.inr hpoint) hreading
    | call => exact called_cases ..
    | poll => exact polled_cases ..

end Operation

/-- A system call of the loops. -/
def Event.issued : Event → Bool
  | .read _ => false
  | .call _ | .poll .. => true

/-- Where a call may stand: behind readings before the deadline, and a `poll` is for
what remained at the last of them. -/
structure Placed (deadline : ℤ) (event : Event) (earlier : List Event) : Prop where
  calls : event.issued = true → ∀ now, .read now ∈ earlier → now < deadline
  polls : ∀ timeout outcome, event = .poll timeout outcome →
    ∃ now rest, earlier = .read now :: rest ∧ remainingMilliseconds deadline now = some timeout

/-- What is known of the readings and calls of an operation. -/
structure Punctual {σ ρ : Type} (deadline : ℤ) (s : State σ ρ) : Prop where
  /-- Until it returns, it has read no time at or past the deadline. -/
  readings : Operation.Running s → ∀ now, .read now ∈ s.trace → now < deadline
  timeout : ∀ timeout, s.point = .poll timeout → ∃ now rest, s.trace = .read now :: rest ∧
    remainingMilliseconds deadline now = some timeout
  placed : ∀ event earlier, event :: earlier <:+ s.trace → Placed deadline event earlier

namespace Punctual

variable {σ ρ : Type} {op : Operation σ ρ} {deadline : ℤ} {progress : σ} {s s' : State σ ρ}

/-- A reading. -/
theorem read (h : Punctual deadline s) {now : ℤ} (htrace : s'.trace = .read now :: s.trace)
    (hbefore : Operation.Running s)
    (hreading : Operation.Running s' → now < deadline)
    (htimeout : ∀ timeout, s'.point = .poll timeout →
      remainingMilliseconds deadline now = some timeout) : Punctual deadline s' where
  readings hrunning t ht := by
    rw [htrace, List.mem_cons] at ht
    rcases ht with heq | ht
    · cases heq
      exact hreading hrunning
    · exact h.readings hbefore t ht
  timeout timeout hpoint := ⟨now, s.trace, htrace, htimeout timeout hpoint⟩
  placed event earlier hsuffix := by
    rw [htrace] at hsuffix
    rcases List.suffix_cons_iff.mp hsuffix with hcons | hrest
    · cases hcons
      exact ⟨nofun, nofun⟩
    · exact h.placed event earlier hrest

/-- A call or a `poll`. -/
theorem issue (h : Punctual deadline s) {event : Event} (htrace : s'.trace = event :: s.trace)
    (hissued : event.issued = true) (hbefore : Operation.Running s)
    (hpoint : ∀ timeout, s'.point ≠ .poll timeout)
    (hpoll : ∀ timeout outcome, event = .poll timeout outcome → s.point = .poll timeout) :
    Punctual deadline s' where
  readings _ t ht := by
    rw [htrace, List.mem_cons] at ht
    rcases ht with heq | ht
    · rw [← heq] at hissued
      cases hissued
    · exact h.readings hbefore t ht
  timeout timeout htimeout := absurd htimeout (hpoint timeout)
  placed event' earlier hsuffix := by
    rw [htrace] at hsuffix
    rcases List.suffix_cons_iff.mp hsuffix with hcons | hrest
    · cases hcons
      exact ⟨fun _ => h.readings hbefore,
        fun timeout outcome heq => h.timeout timeout (hpoll timeout outcome heq)⟩
    · exact h.placed event' earlier hrest

theorem step (h : Punctual deadline s) (hstep : op.Step deadline s s') : Punctual deadline s' := by
  have hrunning := hstep.running
  cases hstep with
  | expire => exact h.read rfl hrunning (fun hrunning' => absurd rfl (hrunning' _)) nofun
  | check _ _ hless => exact h.read rfl hrunning (fun _ => hless) nofun
  | waitCheck _ _ hremaining =>
      refine h.read rfl hrunning (fun _ => (remainingMilliseconds_bounds hremaining).1) ?_
      rintro timeout ⟨⟩
      exact hremaining
  | call =>
      exact h.issue rfl rfl hrunning (Operation.ne_poll (Operation.called_cases ..)) nofun
  | poll hpoint =>
      refine h.issue rfl rfl hrunning (Operation.ne_poll (Operation.polled_cases ..)) ?_
      rintro timeout outcome ⟨⟩
      exact hpoint

end Punctual

variable {deadline : ℤ} {data : Bytes}

theorem punctual {σ ρ : Type} {op : Operation σ ρ} {progress : σ} {s : State σ ρ}
    (h : Transition.Reachable (op.machine deadline progress) s) : Punctual deadline s := by
  refine h.invariant (fun s hinit => ?_) fun s a s' _ hs _ hstep =>
    hs.step (Operation.step_cases hstep)
  obtain ⟨hpoint, -, htrace⟩ := hinit
  refine ⟨fun _ now hnow => ?_, fun timeout htimeout => ?_, fun event earlier hsuffix => ?_⟩
  · rw [htrace] at hnow
    cases hnow
  · have hcases := op.resume_cases progress
    rw [← hpoint] at hcases
    exact absurd htimeout (Operation.ne_poll (hcases.imp .inl id) timeout)
  · rw [htrace] at hsuffix
    cases List.suffix_nil.mp hsuffix

/-! ### What `sendAll` hands over -/

/-- What is handed over, and when that is everything. -/
structure Handed (data : Bytes) (s : State Sending HttpError) : Prop where
  handed : s.progress.handed = data.take s.progress.offset
  le : s.progress.offset ≤ data.length
  running : Operation.Running s → s.progress.offset < data.length
  returned : s.point = .returned .none ↔ s.progress.offset = data.length

namespace Handed

variable {data : Bytes} {deadline : ℤ} {s s' : State Sending HttpError} {point : Point HttpError}

theorem resume_of_lt {progress : Sending} (h : progress.offset < data.length) :
    (sendAll data).resume progress = .check := by
  simp [Operation.resume, sendAll, h]

theorem resume_of_eq {progress : Sending} (h : progress.offset = data.length) :
    (sendAll data).resume progress = .returned .none := by
  simp [Operation.resume, sendAll, h]

/-- A step that hands nothing over does not complete the transfer. -/
theorem keep (h : Handed data s) (hrunning : Operation.Running s)
    (hprogress : s'.progress = s.progress) (hpoint : s'.point ≠ .returned .none) :
    Handed data s' where
  handed := hprogress ▸ h.handed
  le := hprogress ▸ h.le
  running _ := hprogress ▸ h.running hrunning
  returned := iff_of_false hpoint (hprogress ▸ (h.running hrunning).ne)

/-- A part of the rest is handed over. -/
theorem send (h : Handed data s) {sent : ℕ} (hle : sent ≤ data.length - s.progress.offset)
    (hprogress : s'.progress =
      ⟨s.progress.offset + sent, s.progress.handed ++ (data.drop s.progress.offset).take sent⟩)
    (hpoint : s'.point = (sendAll data).resume s'.progress) : Handed data s' := by
  have hnext : s'.progress.offset = s.progress.offset + sent := by rw [hprogress]
  have hhanded : s'.progress.handed = data.take s'.progress.offset := by
    rw [hprogress, h.handed, ← List.take_add]
  have hbound : s'.progress.offset ≤ data.length := by
    have := h.le
    omega
  rcases hbound.lt_or_eq with hless | hall
  · rw [resume_of_lt hless] at hpoint
    exact ⟨hhanded, hbound, fun _ => hless, iff_of_false (by rw [hpoint]; nofun) hless.ne⟩
  · rw [resume_of_eq hall] at hpoint
    exact ⟨hhanded, hbound, fun hrunning => absurd hpoint (hrunning _), iff_of_true hpoint hall⟩

/-- The call of `sendAll`. -/
theorem called (h : Handed data s) (hrunning : Operation.Running s) {outcome : Except Errno ℕ}
    (hpossible : (sendAll data).possible s.progress outcome = true) (now : ℤ) :
    Handed data ((sendAll data).called s now outcome) := by
  have hoffset := h.running hrunning
  cases outcome with
  | ok sent =>
      have hle : sent ≤ data.length - s.progress.offset := of_decide_eq_true hpossible
      by_cases hpos : 0 < sent
      · refine h.send hle ?_ ?_ <;> simp [Operation.called, sendAll, hpos]
      · refine h.keep hrunning ?_ ?_ <;> simp [Operation.called, sendAll, hpos]
  | error errno =>
      cases errno with
      | eintr =>
          refine h.keep hrunning rfl ?_
          show (sendAll data).resume s.progress ≠ _
          rw [resume_of_lt hoffset]
          nofun
      | eagain => exact h.keep hrunning rfl nofun
      | other => exact h.keep hrunning rfl nofun

theorem polled (h : Handed data s) (hrunning : Operation.Running s) (timeout now : ℤ)
    (outcome : PollOutcome) : Handed data ((sendAll data).polled s timeout now outcome) := by
  refine h.keep hrunning rfl ?_
  unfold Operation.polled
  simp only
  split
  · nofun
  · next error _ =>
      split
      · next herror => exact fun hpoint => herror (Point.returned.inj hpoint)
      · rw [resume_of_lt (h.running hrunning)]
        nofun

theorem step (h : Handed data s) (hstep : (sendAll data).Step deadline s s') : Handed data s' := by
  have hrunning := hstep.running
  cases hstep with
  | expire => exact h.keep hrunning rfl nofun
  | check => exact h.keep hrunning rfl nofun
  | waitCheck => exact h.keep hrunning rfl nofun
  | call _ _ hpossible => exact h.called hrunning hpossible _
  | poll => exact h.polled hrunning ..

theorem handed_iff (h : Handed data s) :
    s.progress.handed <+: data ∧ (s.point = .returned .none ↔ s.progress.handed = data) := by
  have hle := h.le
  rw [h.handed, h.returned]
  refine ⟨List.take_prefix _ _, fun hall => by rw [hall, List.take_length], fun hall => ?_⟩
  have hlength := congrArg List.length hall
  rw [List.length_take] at hlength
  omega

end Handed

theorem handed {s : State Sending HttpError}
    (h : Transition.Reachable ((sendAll data).machine deadline ⟨0, []⟩) s) : Handed data s := by
  refine h.invariant (fun s hinit => ?_) fun s a s' _ hs _ hstep =>
    hs.step (Operation.step_cases hstep)
  obtain ⟨hpoint, hprogress, -⟩ := hinit
  have hoffset : s.progress.offset = 0 := by rw [hprogress]
  have hhanded : s.progress.handed = data.take s.progress.offset := by rw [hprogress]; rfl
  rcases (Nat.zero_le data.length).lt_or_eq with hless | hempty
  · rw [Handed.resume_of_lt hless] at hpoint
    exact ⟨hhanded, by omega, fun _ => by omega, iff_of_false (by rw [hpoint]; nofun) (by omega)⟩
  · rw [Handed.resume_of_eq hempty] at hpoint
    exact ⟨hhanded, by omega, fun hrunning => absurd hpoint (hrunning _),
      iff_of_true hpoint (by omega)⟩

/-- What the deadline is to an operation. -/
structure Within {σ ρ : Type} (op : Operation σ ρ) (deadline : ℤ) (s : State σ ρ) : Prop where
  /-- Nothing is called after a reading at or past the deadline. -/
  calls : ∀ later event earlier, s.trace = later ++ event :: earlier → event.issued = true →
    ∀ now, .read now ∈ earlier → now < deadline
  /-- A `poll` waits from the last reading to the deadline, up to the rounding. -/
  polls : ∀ later timeout outcome earlier, s.trace = later ++ .poll timeout outcome :: earlier →
    ∃ now rest, earlier = .read now :: rest ∧ now < deadline ∧ 0 < timeout ∧
      timeout * 1000000 < deadline - now + 1000000
  /-- A reading at or past the deadline is the last. -/
  read : ∀ now s', op.step deadline s (.read now) = some s' → deadline ≤ now →
    s'.point = .returned (op.ofError .deadlineExceeded)
  /-- After the deadline the next reading of the clock ends the operation, and only
  the end of a call that was under way comes before it. -/
  overdue : deadline ≤ s.now → ∀ a s', op.step deadline s a = some s' →
    s'.point = .returned (op.ofError .deadlineExceeded) ∨
      ¬Operation.Reading s ∧ (Operation.Reading s' ∨ ∃ result, s'.point = .returned result)
  /-- An operation that has not returned goes on. -/
  running : Operation.Running s → ∀ now, s.now ≤ now →
    ∃ a s', op.step deadline s a = some s' ∧ s'.now = now

theorem within {σ ρ : Type} {op : Operation σ ρ} {progress : σ} {s : State σ ρ}
    (h : Transition.Reachable (op.machine deadline progress) s) : Within op deadline s where
  calls later event earlier hsplit := ((punctual h).placed event earlier ⟨later, hsplit.symm⟩).calls
  polls later timeout outcome earlier hsplit := by
    obtain ⟨now, rest, hearlier, hremaining⟩ :=
      ((punctual h).placed _ earlier ⟨later, hsplit.symm⟩).polls timeout outcome rfl
    exact ⟨now, rest, hearlier, remainingMilliseconds_bounds hremaining⟩
  read now s' hstep hlate := by
    simp only [Operation.step] at hstep
    split at hstep
    · cases hstep
    · split at hstep
      · cases hstep
        simp [Operation.readClock, remainingMilliseconds_eq_none hlate]
      · cases hstep
        simp [Operation.readClock, remainingMilliseconds_eq_none hlate]
      · cases hstep
  overdue hlate _ _ hstep := (Operation.step_cases hstep).overdue hlate
  running hrunning now htime := Operation.running_step op deadline hrunning htime

/-! ### What an operation returns -/

/-- The error by which a reading or a call ends an operation whose calls fail with
`failure`. -/
def errorOf (failure : HttpError) (deadline : ℤ) : Event → Option HttpError
  | .read now => if deadline ≤ now then some .deadlineExceeded else none
  | .call (.error .other) => some failure
  | .call _ => none
  | .poll _ (.ready revents) => if revents.nval then some failure else none
  | .poll _ .timeout => some .deadlineExceeded
  | .poll _ (.failed errno) => if errno = .eintr then none else some failure

/-- The error that the last event of `sendAll` ends it with. -/
def sendResult (deadline : ℤ) : Event → Option HttpError
  | .call (.ok 0) => some .sendFailed
  | event => errorOf .sendFailed deadline event

/-- The result that the last event of `receive` ends it with. -/
def receiveResult (deadline : ℤ) : Event → Option SocketReadResult
  | .call (.ok count) => some { size := count, eof := count = 0 }
  | event => (errorOf .receiveFailed deadline event).map fun error => { error := error }

theorem sendResult_of_ne {event : Event} (h : ∀ outcome, event ≠ .call outcome) :
    sendResult deadline event = errorOf .sendFailed deadline event := by
  unfold sendResult
  split
  · exact absurd rfl (h _)
  · rfl

theorem receiveResult_of_ne {event : Event} (h : ∀ outcome, event ≠ .call outcome) :
    receiveResult deadline event =
      (errorOf .receiveFailed deadline event).map fun error => { error := error } := by
  unfold receiveResult
  split
  · exact absurd rfl (h _)
  · rfl

/-- An operation whose loop is not over ends at a reading or a `poll` exactly with
its error. -/
theorem Operation.Step.ended {σ ρ : Type} {op : Operation σ ρ} {s s' : State σ ρ}
    (h : op.Step deadline s s') (hfailure : op.failure ≠ .none)
    (hresume : op.resume s.progress = .check) :
    (∃ now outcome, op.possible s.progress outcome = true ∧ s' = op.called s now outcome) ∨
      ∃ event rest, s'.trace = event :: rest ∧ (∀ outcome, event ≠ .call outcome) ∧
        s'.progress = s.progress ∧ ∀ result, s'.point = .returned result ↔
          (errorOf op.failure deadline event).map op.ofError = some result := by
  cases h with
  | @call now outcome _ _ hpossible => exact .inl ⟨now, outcome, hpossible, rfl⟩
  | expire _ _ hlate => exact .inr ⟨_, _, rfl, by simp, rfl, by simp [errorOf, hlate]⟩
  | check _ _ hless => exact .inr ⟨_, _, rfl, by simp, rfl, by simp [errorOf, not_le.mpr hless]⟩
  | waitCheck _ _ hremaining =>
      have hless := (remainingMilliseconds_bounds hremaining).1
      exact .inr ⟨_, _, rfl, by simp, rfl, by simp [errorOf, not_le.mpr hless]⟩
  | @poll now _ outcome =>
      refine .inr ⟨_, _, rfl, by simp, rfl, fun result => ?_⟩
      cases outcome with
      | ready revents =>
          by_cases hready : (revents.events || revents.err || revents.hup) = true <;>
            cases hnval : revents.nval <;>
            simp [polled, waited, errorOf, hnval, hready, hfailure, hresume]
      | timeout => simp [polled, waited, errorOf]
      | failed errno =>
          by_cases herrno : errno = .eintr <;> simp [polled, waited, errorOf, herrno, hfailure]

/-- `receive` returns with the first event that has a result. -/
theorem returned_receive {capacity : ℕ} {s : State Unit SocketReadResult}
    (h : Transition.Reachable ((receive capacity).machine deadline ()) s)
    (result : SocketReadResult) :
    s.point = .returned result ↔ s.trace.head?.bind (receiveResult deadline) = some result := by
  cases h with
  | init hinit =>
      obtain ⟨hpoint, -, htrace⟩ := hinit
      simp [hpoint, htrace, Operation.resume, receive]
  | step _ _ hstep =>
      rcases (Operation.step_cases hstep).ended nofun rfl with
        ⟨now, outcome, -, rfl⟩ | ⟨event, rest, htrace, hcall, -, hresult⟩
      · cases outcome with
        | ok count => cases count <;> simp [receiveResult, Operation.called, receive]
        | error errno =>
            cases errno <;>
              simp [receiveResult, errorOf, Operation.called, Operation.resume, receive]
      · rw [hresult, htrace, List.head?_cons, Option.bind_some, receiveResult_of_ne hcall]
        rfl

theorem sendResult_ne_none (deadline : ℤ) (event : Event) :
    sendResult deadline event ≠ some .none := by
  unfold sendResult errorOf
  grind

theorem resume_sendAll_ne {result : HttpError} (h : result ≠ .none) (progress : Sending) :
    (sendAll data).resume progress ≠ .returned result := by
  rcases lt_or_ge progress.offset data.length with hless | hall
  · simp [Handed.resume_of_lt hless]
  · simp [Operation.resume, sendAll, not_lt.mpr hall, h.symm]

theorem called_sendAll (s : State Sending HttpError) (now : ℤ) (count : ℕ) :
    ((sendAll data).called s now (.ok (count + 1))).point = (sendAll data).resume
      ((sendAll data).called s now (.ok (count + 1))).progress := by
  simp [Operation.called, sendAll]

/-- `sendAll` returns `None` when all is handed over, and else with the first event
that has an error. -/
theorem returned_sendAll {s : State Sending HttpError}
    (h : Transition.Reachable ((sendAll data).machine deadline ⟨0, []⟩) s) (result : HttpError) :
    s.point = .returned result ↔ result = .none ∧ s.progress.handed = data ∨
      s.trace.head?.bind (sendResult deadline) = some result := by
  by_cases hnone : result = .none
  · subst hnone
    have hne : s.trace.head?.bind (sendResult deadline) ≠ some .none := by
      cases s.trace.head? <;> simp [sendResult_ne_none]
    simp [(handed h).handed_iff.2, hne]
  simp only [hnone, false_and, false_or]
  cases h with
  | init hinit =>
      obtain ⟨hpoint, -, htrace⟩ := hinit
      simp [hpoint, htrace, resume_sendAll_ne hnone]
  | step hreach _ hstep =>
      have hstep := Operation.step_cases hstep
      have hoffset := (handed hreach).running hstep.running
      rcases hstep.ended nofun (Handed.resume_of_lt hoffset) with
        ⟨now, outcome, -, rfl⟩ | ⟨event, rest, htrace, hcall, -, hresult⟩
      · cases outcome with
        | ok count =>
            cases count with
            | zero => simp [sendResult, Operation.called, sendAll]
            | succ count =>
                rw [called_sendAll]
                refine iff_of_false (resume_sendAll_ne hnone _) ?_
                simp [Operation.called, sendResult, errorOf]
        | error errno =>
            cases errno with
            | eintr =>
                refine iff_of_false (resume_sendAll_ne hnone _) ?_
                simp [Operation.called, sendResult, errorOf]
            | eagain => simp [sendResult, errorOf, Operation.called, sendAll]
            | other => simp [sendResult, errorOf, Operation.called, sendAll]
      · rw [hresult, htrace, List.head?_cons, Option.bind_some, sendResult_of_ne hcall]
        exact Option.map_id ▸ Iff.rfl

/-- In every state that `sendAll` and `receive` come to: what `sendAll` has handed
over is the beginning of the data, it returns `None` when that is all of it, and both
keep to the deadline and return else with what the last reading or call says. -/
theorem socket_deadline_io (deadline : ℤ) :
    (∀ data s, Transition.Reachable ((sendAll data).machine deadline ⟨0, []⟩) s →
      s.progress.handed <+: data ∧ (s.point = .returned .none ↔ s.progress.handed = data) ∧
        (∀ result, s.point = .returned result ↔ result = .none ∧ s.progress.handed = data ∨
          s.trace.head?.bind (sendResult deadline) = some result) ∧
        Within (sendAll data) deadline s) ∧
    ∀ capacity s, Transition.Reachable ((receive capacity).machine deadline ()) s →
      (∀ result, s.point = .returned result ↔
        s.trace.head?.bind (receiveResult deadline) = some result) ∧
      Within (receive capacity) deadline s :=
  ⟨fun _ _ h => ⟨(handed h).handed_iff.1, (handed h).handed_iff.2, returned_sendAll h, within h⟩,
    fun _ _ h => ⟨returned_receive h, within h⟩⟩

namespace Sample

/-- Three bytes before the time 2000000, with an interrupt, a partial `send`, and a
`poll` that is for nothing first. -/
def transfer : State Sending HttpError :=
  (((sendAll (text "abc")).machine 2000000 ⟨0, []⟩).run
    { point := .check, progress := ⟨0, []⟩, now := 0 }
    [.read 0, .call 10 (.error .eintr), .read 20, .call 30 (.ok 2), .read 40,
      .call 50 (.error .eagain), .read 60, .poll 1000000 (.ready {}), .read 1000000,
      .poll 1900000 (.ready { events := true }), .read 1999999, .call 3000000 (.ok 1)]).get
    (by decide +kernel)

/-- An interrupt, a wait for nothing, and the clock is past the deadline. -/
def overslept : State Unit SocketReadResult :=
  (((receive 16).machine 2000000 ()).run { point := .check, progress := (), now := 0 }
    [.read 0, .call 10 (.error .eintr), .read 20, .call 30 (.error .eagain), .read 40,
      .poll 2000000 (.ready {}), .read 2000001]).get (by decide +kernel)

end Sample

/-- The last `send` ends after the deadline and completes the transfer; the reading
of `receive` after its deadline ends it. -/
theorem socket_deadline_io_transfer :
    (Sample.transfer.now = 3000000 ∧ Sample.transfer.progress.handed = text "abc" ∧
      Sample.transfer.point = .returned .none) ∧
    Sample.overslept.point = .returned { error := .deadlineExceeded } := by
  have hsent : Transition.Reachable ((sendAll (text "abc")).machine 2000000 ⟨0, []⟩)
      Sample.transfer :=
    Transition.System.run_reachable (.init ⟨rfl, rfl, rfl⟩) (fun _ _ _ => trivial)
      (Option.some_get _).symm
  have hreceived : Transition.Reachable ((receive 16).machine 2000000 ()) Sample.overslept :=
    Transition.System.run_reachable (.init ⟨rfl, rfl, rfl⟩) (fun _ _ _ => trivial)
      (Option.some_get _).symm
  have hhanded : Sample.transfer.progress.handed = text "abc" := by decide +kernel
  refine ⟨⟨by decide +kernel, hhanded, ?_⟩, ?_⟩
  · exact ((socket_deadline_io 2000000).1 (text "abc") Sample.transfer hsent).2.1.mpr hhanded
  · exact (((socket_deadline_io 2000000).2 16 Sample.overslept hreceived).1 _).mpr
      (by decide +kernel)

end SocketDeadline

end GatewaySystem
