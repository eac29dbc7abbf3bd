import GatewaySystem.Control.SocketDeadline

/-!
# Connecting to the control plane

`SocketDeadline::connect` resolves the host, fixes the deadline that connecting,
sending and receiving share, and tries the addresses one after another. The
candidate socket of an attempt is closed when the attempt is given up or the
function fails, and is handed over when the function succeeds.

A step is one reading of the clock or one system call, with what the
surroundings answer to it. What was read and called is kept in a trace, newest
first.
-/

namespace GatewaySystem

namespace Connect

open SocketDeadline (PollOutcome remainingMilliseconds waited)

/-- The arguments of `connect` that its steps depend on. -/
structure Params where
  timeoutMs : ℤ
  notAfter : Option ℤ := none

/-- What the system call `connect` answers. -/
inductive Outcome where
  | connected
  /-- `EINPROGRESS` or `EINTR`. -/
  | pending
  | failed

inductive Event where
  /-- The reading that is compared with `not_after`. -/
  | enter (now : ℤ)
  | resolve
  /-- The reading the deadline is counted from. -/
  | arm (now : ℤ)
  | read (now : ℤ)
  | socket (fd : Option Fd)
  | connect (fd : Fd)
  | poll (fd : Fd) (timeout : ℤ)
  | getsockopt (fd : Fd)
  | close (fd : Fd)
  deriving DecidableEq

/-- Where the function stands. `rest` counts the addresses behind the one that is
tried. -/
inductive Point where
  | enter
  | resolve
  | arm (addresses : ℕ)
  | attempt (rest : ℕ)
  | socket (rest : ℕ)
  | connect (rest : ℕ) (fd : Fd)
  | waitCheck (rest : ℕ) (fd : Fd)
  | poll (rest : ℕ) (fd : Fd) (timeout : ℤ)
  | getsockopt (rest : ℕ) (fd : Fd)
  /-- The candidate goes out of scope, with the rest of the addresses or, at the
  deadline, with the function. -/
  | close (fd : Fd) (rest : Option ℕ)
  | returned (result : Except HttpError Fd)

structure Call where
  point : Point
  deadline : ℤ := 0
  now : ℤ
  trace : List Event := []

/-- A reading of the clock or a system call, with the answer to it. -/
inductive Request where
  | read
  /-- How many addresses `getaddrinfo` found. -/
  | resolve (addresses : Option ℕ)
  | socket (fd : Option Fd)
  | connect (outcome : Outcome)
  | poll (outcome : PollOutcome)
  /-- The error of the socket, unless the call failed. -/
  | getsockopt (error : Option ℤ)
  | close

/-- The head of the loop over the addresses. -/
def attempts : ℕ → Point
  | 0 => .returned (.error .connectFailed)
  | rest + 1 => .attempt rest

/-- The deadline of a call whose host was resolved at the given time. -/
def Params.armed (p : Params) (now : ℤ) : ℤ :=
  match p.notAfter with
  | none => now + p.timeoutMs * 1000000
  | some limit => min (now + p.timeoutMs * 1000000) limit

/-- What is read or called next, and where that leads to. -/
def next (p : Params) (deadline now : ℤ) : Point → Request → Option (Event × Point)
  | .enter, .read => p.notAfter.map fun limit =>
      (.enter now, if limit ≤ now then .returned (.error .deadlineExceeded) else .resolve)
  | .resolve, .resolve none => some (.resolve, .returned (.error .resolveFailed))
  | .resolve, .resolve (some addresses) => some (.resolve, .arm addresses)
  | .arm addresses, .read => some (.arm now, attempts addresses)
  | .attempt rest, .read => some (.read now,
      if (remainingMilliseconds deadline now).isNone then .returned (.error .deadlineExceeded)
      else .socket rest)
  | .socket rest, .socket none => some (.socket none, attempts rest)
  | .socket rest, .socket (some fd) => some (.socket (some fd), .connect rest fd)
  | .connect rest fd, .connect outcome => some (.connect fd,
      match outcome with
      | .connected => .returned (.ok fd)
      | .pending => .waitCheck rest fd
      | .failed => .close fd (some rest))
  | .waitCheck rest fd, .read => some (.read now,
      match remainingMilliseconds deadline now with
      | none => .close fd none
      | some timeout => .poll rest fd timeout)
  | .poll rest fd timeout, .poll outcome => some (.poll fd timeout,
      match waited .connectFailed outcome with
      | none => .waitCheck rest fd
      | some .none => .getsockopt rest fd
      | some .deadlineExceeded => .close fd none
      | some _ => .close fd (some rest))
  | .getsockopt rest fd, .getsockopt error => some (.getsockopt fd,
      if error = some 0 then .returned (.ok fd) else .close fd (some rest))
  | .close fd (some rest), .close => some (.close fd, attempts rest)
  | .close fd none, .close => some (.close fd, .returned (.error .deadlineExceeded))
  | _, _ => none

def Call.move (p : Params) (c : Call) (now : ℤ) (event : Event) (point : Point) : Call where
  point := point
  deadline := match event with
    | .arm now => p.armed now
    | _ => c.deadline
  now := now
  trace := event :: c.trace

/-- One step, with the time at its end. The clock does not go back. -/
def step (p : Params) (c : Call) (action : ℤ × Request) : Option Call :=
  if action.1 < c.now then none
  else (next p c.deadline action.1 c.point action.2).map fun answer =>
    c.move p action.1 answer.1 answer.2

/-- The calls of `connect` with the given arguments. -/
def machine (p : Params) : Transition.System Call (ℤ × Request) where
  init c := c.point = (if p.notAfter.isSome then .enter else .resolve) ∧ c.trace = []
  step := step p

/-- What can be read or called at a point, and where that can lead to. -/
inductive Edge (deadline now : ℤ) : Point → Event → Point → Prop
  | enter : Edge deadline now .enter (.enter now) .resolve
  | enterLate : Edge deadline now .enter (.enter now) (.returned (.error .deadlineExceeded))
  | resolve (addresses : ℕ) : Edge deadline now .resolve .resolve (.arm addresses)
  | unresolved : Edge deadline now .resolve .resolve (.returned (.error .resolveFailed))
  | arm (addresses : ℕ) : Edge deadline now (.arm addresses) (.arm now) (attempts addresses)
  | attempt (rest : ℕ) (h : now < deadline) :
      Edge deadline now (.attempt rest) (.read now) (.socket rest)
  | expire (rest : ℕ) : Edge deadline now (.attempt rest) (.read now)
      (.returned (.error .deadlineExceeded))
  | noSocket (rest : ℕ) : Edge deadline now (.socket rest) (.socket none) (attempts rest)
  | socket (rest : ℕ) (fd : Fd) :
      Edge deadline now (.socket rest) (.socket (some fd)) (.connect rest fd)
  | connected (rest : ℕ) (fd : Fd) :
      Edge deadline now (.connect rest fd) (.connect fd) (.returned (.ok fd))
  | pending (rest : ℕ) (fd : Fd) :
      Edge deadline now (.connect rest fd) (.connect fd) (.waitCheck rest fd)
  | refused (rest : ℕ) (fd : Fd) :
      Edge deadline now (.connect rest fd) (.connect fd) (.close fd (some rest))
  | expireWait (rest : ℕ) (fd : Fd) :
      Edge deadline now (.waitCheck rest fd) (.read now) (.close fd none)
  | waitCheck (rest : ℕ) (fd : Fd) {timeout : ℤ}
      (h : remainingMilliseconds deadline now = some timeout) :
      Edge deadline now (.waitCheck rest fd) (.read now) (.poll rest fd timeout)
  | pollAgain (rest : ℕ) (fd : Fd) (timeout : ℤ) :
      Edge deadline now (.poll rest fd timeout) (.poll fd timeout) (.waitCheck rest fd)
  | pollDone (rest : ℕ) (fd : Fd) (timeout : ℤ) (rest? : Option ℕ) :
      Edge deadline now (.poll rest fd timeout) (.poll fd timeout) (.close fd rest?)
  | ready (rest : ℕ) (fd : Fd) (timeout : ℤ) :
      Edge deadline now (.poll rest fd timeout) (.poll fd timeout) (.getsockopt rest fd)
  | usable (rest : ℕ) (fd : Fd) :
      Edge deadline now (.getsockopt rest fd) (.getsockopt fd) (.returned (.ok fd))
  | unusable (rest : ℕ) (fd : Fd) :
      Edge deadline now (.getsockopt rest fd) (.getsockopt fd) (.close fd (some rest))
  | close (rest : ℕ) (fd : Fd) :
      Edge deadline now (.close fd (some rest)) (.close fd) (attempts rest)
  | closeLate (fd : Fd) : Edge deadline now (.close fd none) (.close fd)
      (.returned (.error .deadlineExceeded))

variable {p : Params} {c c' : Call} {deadline now : ℤ} {point point' : Point} {event : Event}

theorem next_edge {request : Request}
    (h : next p deadline now point request = some (event, point')) :
    Edge deadline now point event point' := by
  unfold next at h
  split at h
  case h_1 =>
    obtain ⟨limit, -, ⟨⟩⟩ := Option.map_eq_some_iff.mp h
    split
    · exact .enterLate
    · exact .enter
  case h_5 =>
    cases h
    unfold remainingMilliseconds
    split
    · exact .expire _
    · next hless => exact .attempt _ (not_le.mp (by simpa using hless))
  case h_9 =>
    cases h
    split
    · exact .expireWait ..
    · next timeout hremaining => exact .waitCheck _ _ hremaining
  all_goals cases h
  · exact .unresolved
  · exact .resolve _
  · exact .arm _
  · exact .noSocket _
  · exact .socket ..
  · split
    · exact .connected ..
    · exact .pending ..
    · exact .refused ..
  · split
    · exact .pollAgain ..
    · exact .ready ..
    · exact .pollDone ..
    · exact .pollDone ..
  · split
    · exact .usable ..
    · exact .unusable ..
  · exact .close ..
  · exact .closeLate _

theorem step_cases {action : ℤ × Request} (h : step p c action = some c') :
    ∃ event point, c.now ≤ action.1 ∧ Edge c.deadline action.1 c.point event point ∧
      c' = c.move p action.1 event point := by
  obtain ⟨htime, h⟩ := Option.ite_none_left_eq_some.mp h
  obtain ⟨⟨event, point⟩, hnext, rfl⟩ := Option.map_eq_some_iff.mp h
  exact ⟨event, point, not_lt.mp htime, next_edge hnext, rfl⟩

/-! ## What holds of a trace -/

/-- The socket that the function owns, or that it has handed over. -/
def Point.fd? : Point → Option Fd
  | .connect _ fd | .waitCheck _ fd | .poll _ fd _ | .getsockopt _ fd | .close fd _ => some fd
  | .returned (.ok fd) => some fd
  | _ => none

/-- The socket a call is made on. -/
def Event.fd? : Event → Option Fd
  | .connect fd | .poll fd _ | .getsockopt fd | .close fd => some fd
  | _ => none

/-- A call that works on a connection. A `close` only gives the candidate back. -/
def Event.issued : Event → Bool
  | .socket _ | .connect _ | .poll _ _ | .getsockopt _ => true
  | _ => false

/-- What happens before the deadline is set. -/
def Event.Early : Event → Prop
  | .enter _ | .resolve => True
  | _ => False

/-- The deadline is not set yet. -/
def Point.Early : Point → Prop
  | .enter | .resolve | .arm _ => True
  | _ => False

/-- The timeout of the `poll` that comes next. -/
def Point.timeout? : Point → Option ℤ
  | .poll _ _ timeout => some timeout
  | _ => none

/-- The function has failed at the deadline, or is about to. -/
def Point.Expired : Point → Prop
  | .close _ none | .returned (.error .deadlineExceeded) => True
  | _ => False

/-- The sockets that are open after a trace. -/
def openIn : List Event → List Fd
  | [] => []
  | .socket (some fd) :: earlier => fd :: openIn earlier
  | .close fd :: earlier => (openIn earlier).erase fd
  | _ :: earlier => openIn earlier

/-- What is known of an event and the events before it. -/
structure Fits (deadline : ℤ) (event : Event) (earlier : List Event) : Prop where
  opened : ∀ fd, event.fd? = some fd → fd ∈ openIn earlier
  /-- The deadline is set directly behind the resolver, and was not set before. -/
  arm : ∀ now, event = .arm now → earlier.head? = some .resolve ∧ ∀ own ∈ earlier, own.Early
  armed : event.issued = true → ∃ now, .arm now ∈ earlier
  /-- Behind a late reading the candidate is closed. -/
  late : ∀ now, .read now ∈ earlier → deadline ≤ now → ∃ fd, event = .close fd
  wait : ∀ fd timeout, event = .poll fd timeout →
    ∃ now rest, earlier = .read now :: rest ∧ remainingMilliseconds deadline now = some timeout

/-- What is known of a call. -/
structure Sound (p : Params) (c : Call) : Prop where
  /-- Exactly the socket that the function owns is open. -/
  opened : openIn c.trace = c.point.fd?.toList
  fits : ∀ event earlier, event :: earlier <:+ c.trace → Fits c.deadline event earlier
  early : c.point.Early → ∀ event ∈ c.trace, event.Early
  resolved : ∀ addresses, c.point = .arm addresses → c.trace.head? = some .resolve
  set : ¬ c.point.Early → (∃ now, .arm now ∈ c.trace) ∨ ∃ result, c.point = .returned result
  armed : ∀ now, .arm now ∈ c.trace → c.deadline = p.armed now
  /-- A reading at or past the deadline ends the function. -/
  late : ∀ now, .read now ∈ c.trace → c.deadline ≤ now → c.point.Expired
  timeout : ∀ timeout, c.point.timeout? = some timeout → ∃ now rest, c.trace = .read now :: rest ∧
    remainingMilliseconds c.deadline now = some timeout

theorem Fits.of_early (h : event.Early) {earlier : List Event}
    (hearlier : ∀ own ∈ earlier, own.Early) : Fits deadline event earlier := by
  cases event with
  | enter | resolve =>
      exact ⟨by rintro _ ⟨⟩, by rintro _ ⟨⟩, by rintro ⟨⟩, fun _ hmem => (hearlier _ hmem).elim,
        by rintro _ _ ⟨⟩⟩
  | _ => exact h.elim

theorem openIn_of_early {trace : List Event} (h : ∀ event ∈ trace, event.Early) :
    openIn trace = [] := by
  induction trace with
  | nil => rfl
  | cons event earlier ih =>
      have hevent := h event List.mem_cons_self
      cases event with
      | enter | resolve => exact ih fun other hother => h other (List.mem_cons_of_mem _ hother)
      | _ => exact hevent.elim

/-- A call that has not set its deadline has done nothing else either. -/
theorem Sound.of_early (h : ∀ event ∈ c.trace, event.Early) (hfd : c.point.fd? = none)
    (hpoint : c.point.Early ∨ ∃ result, c.point = .returned result)
    (hresolved : ∀ addresses, c.point = .arm addresses → c.trace.head? = some .resolve)
    (htimeout : c.point.timeout? = none) : Sound p c where
  opened := by rw [openIn_of_early h, hfd]; rfl
  fits event earlier hsuffix :=
    .of_early (h event (hsuffix.mem List.mem_cons_self)) fun own hown =>
      h own (hsuffix.mem (List.mem_cons_of_mem _ hown))
  early _ := h
  resolved := hresolved
  set hearly := .inr (hpoint.resolve_left hearly)
  armed _ hmem := (h _ hmem).elim
  late _ hmem := (h _ hmem).elim
  timeout timeout hsome := by cases htimeout.symm.trans hsome

theorem attempts_cases (rest : ℕ) : (attempts rest).fd? = none ∧ ¬ (attempts rest).Early ∧
    (attempts rest).timeout? = none := by
  cases rest <;> exact ⟨rfl, id, rfl⟩

theorem not_early_of_arm {addresses : ℕ} (h : ¬ point.Early) : point ≠ .arm addresses := by
  rintro rfl
  exact h trivial

theorem Point.Early.fd (h : point.Early) : point.fd? = none ∧ point.timeout? = none := by
  cases point with
  | enter | resolve | arm => exact ⟨rfl, rfl⟩
  | _ => exact h.elim

/-- What an edge is to the sockets. -/
theorem Edge.owns (h : Edge deadline now point event point') {earlier : List Event}
    (hopened : openIn earlier = point.fd?.toList) :
    openIn (event :: earlier) = point'.fd?.toList ∧
      ∀ fd, event.fd? = some fd → fd ∈ openIn earlier := by
  have hclosed : ∀ fd, openIn earlier = [fd] → (openIn earlier).erase fd = [] := by
    intro fd hopen
    rw [hopen, List.erase_cons_head]
  cases h with
  | enter | enterLate | resolve | unresolved | attempt | expire =>
      exact ⟨hopened, by rintro _ ⟨⟩⟩
  | arm | noSocket => exact ⟨by rw [(attempts_cases _).1]; exact hopened, by rintro _ ⟨⟩⟩
  | socket rest fd => exact ⟨congrArg (fd :: ·) hopened, by rintro _ ⟨⟩⟩
  | expireWait | waitCheck => exact ⟨hopened, by rintro _ ⟨⟩⟩
  | close rest fd =>
      exact ⟨by rw [(attempts_cases rest).1]; exact hclosed fd hopened,
        by rintro _ ⟨⟩; rw [hopened]; exact List.mem_singleton_self _⟩
  | closeLate fd =>
      exact ⟨hclosed fd hopened, by rintro _ ⟨⟩; rw [hopened]; exact List.mem_singleton_self _⟩
  | _ => exact ⟨hopened, by rintro _ ⟨⟩; rw [hopened]; exact List.mem_singleton_self _⟩

/-! ### What an edge is to the deadline -/

theorem Edge.early (h : Edge deadline now point event point') (hearly : point.Early) :
    event.Early ∧ (point'.Early ∨ ∃ error, point' = .returned (.error error)) ∧
        (∀ addresses, point' = .arm addresses → event = .resolve) ∨
      event = .arm now ∧ (∃ addresses, point = .arm addresses) ∧ ¬ point'.Early := by
  cases h with
  | enter => exact .inl ⟨trivial, .inl trivial, by rintro _ ⟨⟩⟩
  | resolve => exact .inl ⟨trivial, .inl trivial, fun _ _ => rfl⟩
  | enterLate | unresolved => exact .inl ⟨trivial, .inr ⟨_, rfl⟩, by rintro _ ⟨⟩⟩
  | arm addresses => exact .inr ⟨rfl, ⟨addresses, rfl⟩, (attempts_cases _).2.1⟩
  | _ => exact hearly.elim

theorem Edge.later (h : Edge deadline now point event point') (hearly : ¬ point.Early) :
    ¬ point'.Early ∧ ∀ now, event ≠ .arm now := by
  cases h with
  | enter | resolve | enterLate | unresolved | arm => exact absurd trivial hearly
  | noSocket | close => exact ⟨(attempts_cases _).2.1, by simp⟩
  | _ => exact ⟨id, by simp⟩

theorem Edge.expired (h : Edge deadline now point event point') (hexpired : point.Expired) :
    point'.Expired ∧ ∃ fd, event = .close fd := by
  cases h with
  | closeLate fd => exact ⟨trivial, fd, rfl⟩
  | _ => exact hexpired.elim

/-- A late reading ends the function. -/
theorem Edge.read {own : ℤ} (h : Edge deadline now point (.read own) point')
    (hlate : deadline ≤ own) : point'.Expired := by
  cases h with
  | attempt rest hless => exact absurd hlate (not_le.mpr hless)
  | waitCheck rest fd hremaining =>
      exact absurd hlate (not_le.mpr (SocketDeadline.remainingMilliseconds_bounds hremaining).1)
  | expire | expireWait => trivial

/-- A `poll` comes directly behind the reading that gives its timeout. -/
theorem Edge.timeout (h : Edge deadline now point event point') {timeout : ℤ}
    (hsome : point'.timeout? = some timeout) :
    event = .read now ∧ remainingMilliseconds deadline now = some timeout := by
  cases h with
  | waitCheck rest fd hremaining =>
      cases hsome
      exact ⟨rfl, hremaining⟩
  | arm | noSocket | close => cases (attempts_cases _).2.2.symm.trans hsome
  | _ => cases hsome

theorem Edge.poll {fd : Fd} {timeout : ℤ}
    (h : Edge deadline now point (.poll fd timeout) point') : point.timeout? = some timeout := by
  cases h <;> rfl

/-! ## Steps and runs -/

theorem Sound.step (h : Sound p c) (hedge : Edge c.deadline now c.point event point) :
    Sound p (c.move p now event point) := by
  obtain ⟨hopened, hfd⟩ := hedge.owns h.opened
  by_cases hearly : c.point.Early
  · have hold := h.early hearly
    rcases hedge.early hearly with ⟨hevent, hpoint, hresolve⟩ | ⟨rfl, ⟨addresses, harm⟩, hearly'⟩
    · have hnone : point.fd? = none ∧ point.timeout? = none := by
        rcases hpoint with hpoint | ⟨error, rfl⟩
        · exact hpoint.fd
        · exact ⟨rfl, rfl⟩
      refine .of_early (List.forall_mem_cons.mpr ⟨hevent, hold⟩) hnone.1
        (hpoint.imp_right ?_) (fun addresses harm => congrArg some (hresolve addresses harm))
        hnone.2
      rintro ⟨error, herror⟩
      exact ⟨.error error, herror⟩
    · -- The deadline is set, and nothing was read or called before.
      refine ⟨hopened, fun own earlier hsuffix => ?_, fun hearly'' => absurd hearly'' hearly',
        fun _ hpoint => absurd hpoint (not_early_of_arm hearly'),
        fun _ => .inl ⟨now, List.mem_cons_self⟩, fun own hmem => ?_, fun own hmem => ?_, ?_⟩
      · rcases List.suffix_cons_iff.mp hsuffix with heq | hsuffix
        · cases heq
          exact ⟨hfd, fun _ _ => ⟨h.resolved addresses harm, hold⟩, by rintro ⟨⟩,
            fun _ hmem => (hold _ hmem).elim, by rintro _ _ ⟨⟩⟩
        · exact .of_early (hold own (hsuffix.mem List.mem_cons_self)) fun other hother =>
            hold other (hsuffix.mem (List.mem_cons_of_mem _ hother))
      · rcases List.mem_cons.mp hmem with heq | hmem
        · cases heq
          rfl
        · exact (hold _ hmem).elim
      · rcases List.mem_cons.mp hmem with heq | hmem
        · cases heq
        · exact (hold _ hmem).elim
      · intro timeout hsome
        obtain ⟨⟨⟩, -⟩ := hedge.timeout hsome
  · obtain ⟨hearly', harm⟩ := hedge.later hearly
    have hset : ∃ now, .arm now ∈ c.trace := by
      refine (h.set hearly).resolve_right ?_
      rintro ⟨result, hresult⟩
      rw [hresult] at hedge
      cases hedge
    have hkept : (c.move p now event point).deadline = c.deadline := by
      cases event with
      | arm own => exact absurd rfl (harm own)
      | _ => rfl
    refine ⟨hopened, fun own earlier hsuffix => ?_, fun hearly'' => absurd hearly'' hearly',
      fun _ hpoint => absurd hpoint (not_early_of_arm hearly'),
      fun _ => .inl (hset.imp fun _ => List.mem_cons_of_mem _), fun own hmem => ?_,
      fun own hmem hlate => ?_, fun timeout hsome => ?_⟩ <;> rw [hkept] at *
    · rcases List.suffix_cons_iff.mp hsuffix with heq | hsuffix
      · cases heq
        refine ⟨hfd, fun own hown => absurd hown (harm own), fun _ => hset,
          fun own hmem hlate => (hedge.expired (h.late own hmem hlate)).2, ?_⟩
        rintro fd timeout rfl
        exact h.timeout timeout hedge.poll
      · exact h.fits own earlier hsuffix
    · rcases List.mem_cons.mp hmem with heq | hmem
      · exact absurd heq.symm (harm own)
      · exact h.armed own hmem
    · rcases List.mem_cons.mp hmem with rfl | hmem
      · exact hedge.read hlate
      · exact (hedge.expired (h.late own hmem hlate)).1
    · obtain ⟨rfl, hremaining⟩ := hedge.timeout hsome
      exact ⟨now, c.trace, rfl, hremaining⟩

theorem sound (h : Transition.Reachable (machine p) c) : Sound p c := by
  refine h.invariant (fun c hinit => ?_) fun c action c' _ hc _ hstep => ?_
  · obtain ⟨hpoint, htrace⟩ := hinit
    refine .of_early (by simp [htrace]) ?_ (.inl ?_) ?_ ?_ <;> rw [hpoint] <;> split <;>
      first | trivial | rintro _ ⟨⟩
  · obtain ⟨event, point, -, hedge, rfl⟩ := step_cases hstep
    exact hc.step hedge

/-- How many steps are left when the deadline has passed. -/
def Point.slack : Point → ℕ
  | .socket _ | .poll _ _ _ => 4
  | .connect _ _ | .getsockopt _ _ => 3
  | .waitCheck _ _ | .close _ (some _) => 2
  | .returned _ => 0
  | _ => 1

theorem attempts_slack (rest : ℕ) : (attempts rest).slack ≤ 1 := by
  cases rest <;> simp [attempts, Point.slack]

theorem Edge.slack (h : Edge deadline now point event point') (hearly : ¬ point.Early)
    (hlate : deadline ≤ now) : point'.slack < point.slack := by
  cases h with
  | enter | enterLate | resolve | unresolved | arm => exact absurd trivial hearly
  | attempt rest hless => exact absurd hlate (not_le.mpr hless)
  | waitCheck rest fd hremaining =>
      exact absurd hlate (not_le.mpr (SocketDeadline.remainingMilliseconds_bounds hremaining).1)
  | noSocket rest | close rest => exact (attempts_slack rest).trans_lt (by simp [Point.slack])
  | pollDone rest fd timeout rest? => cases rest? <;> simp [Point.slack]
  | _ => simp [Point.slack]

/-- A run behind the deadline uses up what is left. -/
theorem run_slack {actions : List (ℤ × Request)} (hearly : ¬ c.point.Early)
    (hlate : c.deadline ≤ c.now) (hrun : (machine p).run c actions = some c') :
    actions.length + c'.point.slack ≤ c.point.slack := by
  induction actions generalizing c with
  | nil =>
      obtain rfl : c = c' := Option.some.inj hrun
      simp
  | cons action actions ih =>
      obtain ⟨u, hu, hrest⟩ := Option.bind_eq_some_iff.mp hrun
      obtain ⟨event, point, htime, hedge, rfl⟩ := step_cases hu
      have hpast := hlate.trans htime
      have hslack := hedge.slack hearly hpast
      obtain ⟨hearly', harm⟩ := hedge.later hearly
      have hless := ih (c := c.move p action.1 event point) hearly' (by
        cases event with
        | arm own => exact absurd rfl (harm own)
        | _ => exact hpast) hrest
      simp only [Call.move, List.length_cons] at hless ⊢
      omega

namespace Sample

/-- The first address refuses, the second one is waited for. -/
def actions : List (ℤ × Request) :=
  [(1, .resolve (some 2)), (2, .read), (3, .read), (3, .socket (some 7)), (4, .connect .failed),
    (4, .close), (5, .read), (5, .socket (some 8)), (6, .connect .pending), (7, .read)]

def start : Call where
  point := .resolve
  now := 0

def after (rest : List (ℤ × Request)) : Option Call :=
  (machine ⟨5, none⟩).run start (actions ++ rest)

theorem reachable {rest : List (ℤ × Request)} {c : Call} (h : after rest = some c) :
    Transition.Reachable (machine ⟨5, none⟩) c :=
  Transition.System.run_reachable (.init ⟨rfl, rfl⟩) (fun _ _ _ => trivial) h

def ready : SocketDeadline.PollOutcome := .ready { events := true }

/-- The second address answers in time. -/
def connected : Call :=
  (after [(9, .poll ready), (9, .getsockopt (some 0))]).get (by decide +kernel)

/-- It answers behind the deadline. -/
def late : Call := (after [(5000003, .poll ready)]).get (by decide +kernel)

end Sample

/-- Every call is made on a socket that was opened and not closed since, a close
included; at most one socket is open at a time. A call that succeeds leaves
the socket it returns open, and a call that fails leaves none. -/
theorem connect_descriptors (h : Transition.Reachable (machine p) c) :
    (∀ event earlier fd, event :: earlier <:+ c.trace → event.fd? = some fd →
      fd ∈ openIn earlier) ∧ (openIn c.trace).length ≤ 1 ∧
    (∀ fd, c.point = .returned (.ok fd) → openIn c.trace = [fd]) ∧
    ∀ error, c.point = .returned (.error error) → openIn c.trace = [] := by
  have hsound := sound h
  refine ⟨fun event earlier fd hsuffix => (hsound.fits event earlier hsuffix).opened fd, ?_,
    fun fd hpoint => ?_, fun error hpoint => ?_⟩ <;> rw [hsound.opened]
  · cases c.point.fd? <;> simp
  · rw [hpoint]; rfl
  · rw [hpoint]; rfl

theorem connect_descriptors_connected :
    Event.close 7 ∈ Sample.connected.trace ∧ openIn Sample.connected.trace = [8] :=
  ⟨by decide +kernel, (connect_descriptors (Sample.reachable (Option.some_get _).symm)).2.2.1 8 rfl⟩

/-- One deadline for all addresses. It is set once, directly behind the resolver, and
every `socket`, `connect`, `poll` and `getsockopt` comes behind that. A reading of
the clock at or past it ends the function with the error of the deadline, and the
only call behind such a reading is the `close` of the candidate. A `poll` comes
directly behind a reading and waits for what remained then, and behind the deadline
four more steps are the most. -/
theorem connect_deadline (h : Transition.Reachable (machine p) c) :
    (∀ now earlier, .arm now :: earlier <:+ c.trace → c.deadline = p.armed now ∧
      earlier.head? = some .resolve ∧ ∀ event ∈ earlier, event.Early) ∧
    (∀ event earlier, event :: earlier <:+ c.trace →
      (event.issued = true → ∃ now, .arm now ∈ earlier) ∧
        ∀ now, .read now ∈ earlier → c.deadline ≤ now → ∃ fd, event = .close fd) ∧
    (∀ fd timeout earlier, .poll fd timeout :: earlier <:+ c.trace → ∃ now rest,
      earlier = .read now :: rest ∧ remainingMilliseconds c.deadline now = some timeout) ∧
    (∀ now, .read now ∈ c.trace → c.deadline ≤ now → c.point.Expired) ∧
    (¬ c.point.Early → c.deadline ≤ c.now → ∀ actions c',
      (machine p).run c actions = some c' → actions.length ≤ 4) := by
  have hsound := sound h
  refine ⟨fun now earlier hsuffix => ⟨hsound.armed now (hsuffix.mem List.mem_cons_self),
      (hsound.fits _ earlier hsuffix).arm now rfl⟩,
    fun event earlier hsuffix =>
      ⟨(hsound.fits event earlier hsuffix).armed, (hsound.fits event earlier hsuffix).late⟩,
    fun fd timeout earlier hsuffix => (hsound.fits _ earlier hsuffix).wait fd timeout rfl,
    hsound.late, fun hearly hlate actions c' hrun => ?_⟩
  have hslack := run_slack hearly hlate hrun
  have hfour : c.point.slack ≤ 4 := by
    cases c.point with
    | close fd rest => cases rest <;> simp [Point.slack]
    | _ => simp [Point.slack]
  omega

theorem connect_deadline_late : Sample.late.deadline = 5000002 ∧ ∀ actions c',
    (machine ⟨5, none⟩).run Sample.late actions = some c' → actions.length ≤ 4 :=
  have h := connect_deadline (Sample.reachable (c := Sample.late) (Option.some_get _).symm)
  ⟨(h.1 2 [.resolve] (by decide +kernel)).1, h.2.2.2.2 id (by decide +kernel)⟩

end Connect

end GatewaySystem
