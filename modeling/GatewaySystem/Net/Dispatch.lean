import GatewaySystem.Net.Buffers
import GatewaySystem.Net.Interest
import GatewaySystem.Net.Loop
import GatewaySystem.Protocol.RoundTrip

/-!
# The events of one `epoll_wait`

`Loop` leaves open what the reactor does between the return of `epoll_wait` and
the draining of the responses. `Dispatch` is that part of `TcpServer::loop`: the
batch of events, in the order in which it was returned, and where the reactor is
in the handlers it calls for an event. `handleAccept`, `handleRead` and
`handleWrite` are loops around one system call; `recv` and `send` give here what
the step says.

An event carries a descriptor and not the connection it was reported for. What
was registered when the batch was returned and when an event was taken up is
recorded beside the program, which does not read it.
-/

namespace GatewaySystem

/-- What an event is about. -/
inductive EventSource where
  | notifier
  | listener
  | client (fd : Fd)
  deriving DecidableEq, Repr

/-- The flags of an event. -/
structure EventFlags where
  /-- `EPOLLERR`. -/
  error : Bool
  /-- `EPOLLIN`. -/
  input : Bool
  /-- `EPOLLRDHUP` or `EPOLLHUP`. -/
  hangUp : Bool
  /-- `EPOLLOUT`. -/
  output : Bool
  deriving DecidableEq, Repr

structure EpollEvent where
  source : EventSource
  flags : EventFlags
  deriving DecidableEq, Repr

/-- What an activation of `handleRead` has seen. -/
structure ReadTrace where
  /-- What was decoded on the connection before, and what its buffer held. -/
  start : Bytes
  received : Bytes := []
  last : Option RecvOutcome := none
  deriving DecidableEq, Repr

/-- Where the reactor is in the batch. -/
inductive DispatchPoint where
  | outside
  /-- The head of the loop over the events. -/
  | next
  | accepting
  /-- The test of the loop of `handleRead`. -/
  | reading (fd : Fd) (flags : EventFlags) (trace : ReadTrace)
  /-- In `decodeAndEnqueue`, called by `handleRead`. -/
  | decoding (fd : Fd) (flags : EventFlags) (trace : ReadTrace)
  | readReturned (fd : Fd) (flags : EventFlags) (trace : ReadTrace)
  /-- Before the search for the connection. -/
  | finding (fd : Fd) (flags : EventFlags)
  /-- Before the test of `EPOLLRDHUP` and `EPOLLHUP`. -/
  | found (fd : Fd) (flags : EventFlags)
  /-- Before the test of `EPOLLOUT`. -/
  | marked (fd : Fd) (flags : EventFlags)
  /-- The head of the loop of `handleWrite`. -/
  | writing (fd : Fd) (last : Option SendOutcome)
  | writeReturned (fd : Fd) (last : Option SendOutcome)
  deriving DecidableEq, Repr

structure Dispatch where
  loop : Loop
  /-- The events that are not yet taken up. -/
  batch : List EpollEvent
  point : DispatchPoint
  /-- The connections when the batch was returned. -/
  returned : Fd → Option Connection
  /-- The descriptor of the event last taken up, if it is that of a client. -/
  entry : Option Fd
  /-- The connections when that event was taken up. -/
  entered : Fd → Option Connection

inductive DispatchAction where
  /-- A step outside the batch, or of another thread. -/
  | loop (action : LoopAction)
  /-- `epoll_wait` returns. -/
  | wait (events : List EpollEvent)
  | take
  /-- `accept4` gives a descriptor. -/
  | accept (fd : Fd) (ctl : Bool)
  | recv (outcome : RecvOutcome) (ticks : List ℕ)
  | enqueueNext (ctl : Bool)
  | markReadEof (ctl : Bool)
  | send (outcome : SendOutcome) (ctl : Bool)
  /-- A test without a system call. -/
  | advance

/-- Whether the step is one of another thread. -/
def LoopAction.isConcurrent : LoopAction → Bool
  | .worker .. | .authWorker .. | .notify _ | .stop _ | .signal _ | .pullConfig _ | .tick _ => true
  | _ => false

namespace Dispatch

variable (library : Json.Library) (shutdownTimeoutMs : ℤ)

def server (d : Dispatch) : Server := d.loop.server

/-- A handler of the server is called, and the reactor goes on where `next`
says. -/
def handle (d : Dispatch) (action : ReactorAction) (next : Server → DispatchPoint) :
    Option Dispatch :=
  (d.loop.step library shutdownTimeoutMs (.reactor action)).map fun loop =>
    { d with loop := loop, point := next loop.server }

/-- The frames decoded from a connection and what its buffer holds, as bytes. -/
def inputBytes (s : Server) (fd : Fd) (c : Connection) : Bytes :=
  ((s.decodedOf ⟨fd, c.connId⟩).reverse.flatMap fun request =>
    ProtocolCodec.encode (ProtocolCodec.resend request)) ++ c.inputBuffer

/-- The entry into `handleRead`. -/
def ReadTrace.enter (s : Server) (fd : Fd) : ReadTrace where
  start := ((s.connections.lookup fd).map (inputBytes s fd)).getD []

/-- Whether an event can be reported: a client descriptor is registered. -/
def reportable (s : Server) (event : EpollEvent) : Bool :=
  match event.source with
  | .client fd => (s.interest fd).isSome
  | _ => true

/-- The return of `epoll_wait`: there is at most one event for a registered
descriptor. -/
def wait (d : Dispatch) (events : List EpollEvent) : Option Dispatch :=
  if (events.map EpollEvent.source).Nodup ∧ ∀ event ∈ events, reportable d.server event then
    (d.loop.step library shutdownTimeoutMs (.epollWait .events)).map fun loop =>
      { d with
        loop := loop
        batch := events
        point := .next
        returned := fun fd => d.server.connections.lookup fd
        entry := none }
  else none

/-- The loop over the events takes up the next one. -/
def take (d : Dispatch) : Option Dispatch :=
  match d.batch with
  | [] => none
  | event :: rest =>
      match event.source with
      | .notifier =>
          (d.loop.step library shutdownTimeoutMs .consume).map fun loop =>
            { d with loop := loop, batch := rest, entry := none }
      | .listener =>
          some { d with
            batch := rest
            entry := none
            point := if d.server.state = .running then .accepting else .next }
      | .client fd =>
          let d := { d with
            batch := rest
            entry := some fd
            entered := fun fd => d.server.connections.lookup fd }
          if event.flags.error then
            d.handle library shutdownTimeoutMs (.socketError fd) fun _ => .next
          else if (event.flags.input || event.flags.hangUp) && d.server.state = .running then
            some { d with point := .reading fd event.flags (ReadTrace.enter d.server fd) }
          else some { d with point := .finding fd event.flags }

/-- `recv` gives an outcome. -/
def ReadTrace.extend (trace : ReadTrace) (outcome : RecvOutcome) : ReadTrace :=
  { trace with
    last := some outcome
    received := match outcome with
      | .data bytes => trace.received ++ bytes
      | _ => trace.received }

/-- One turn of the loop of `handleRead`: `decodeAndEnqueue` is at work, or it
has closed the connection. -/
def recv (d : Dispatch) (fd : Fd) (flags : EventFlags) (trace : ReadTrace)
    (outcome : RecvOutcome) (ticks : List ℕ) : Option Dispatch :=
  d.handle library shutdownTimeoutMs (.read fd outcome ticks) fun s =>
    match outcome, s.point with
    | .interrupted, _ => .reading fd flags (ReadTrace.extend trace outcome)
    | _, .enqueue _ => .decoding fd flags (ReadTrace.extend trace outcome)
    | _, _ => .readReturned fd flags (ReadTrace.extend trace outcome)

/-- The next part of `decodeAndEnqueue`; when it has returned, `handleRead` goes
on after data and returns otherwise. -/
def enqueueNext (d : Dispatch) (fd : Fd) (flags : EventFlags) (trace : ReadTrace) (ctl : Bool) :
    Option Dispatch :=
  d.handle library shutdownTimeoutMs (.enqueueNext ctl) fun s =>
    match s.point, trace.last with
    | .enqueue _, _ => .decoding fd flags trace
    | _, some (.data _) => .reading fd flags trace
    | _, _ => .readReturned fd flags trace

/-- One turn of the loop of `handleWrite`. Without output there is no call of
`send`. -/
def send (d : Dispatch) (fd : Fd) (last : Option SendOutcome) (outcome : SendOutcome)
    (ctl : Bool) : Option Dispatch :=
  match d.server.connections.lookup fd with
  | none => some { d with point := .writeReturned fd last }
  | some c =>
      d.handle library shutdownTimeoutMs (.write fd outcome ctl) fun _ =>
        if c.outputBuffer.length ≤ c.writeOffset then .writeReturned fd last
        else
          match outcome with
          | .sent count =>
              if c.writeOffset + count = c.outputBuffer.length then .writeReturned fd (some outcome)
              else .writing fd (some outcome)
          | .interrupted => .writing fd (some outcome)
          | .again | .failed => .writeReturned fd (some outcome)

/-- The tests between the system calls. -/
def advance (d : Dispatch) : Option Dispatch :=
  match d.point with
  | .next =>
      if d.batch.isEmpty then
        (d.loop.step library shutdownTimeoutMs .advance).map fun loop =>
          { d with loop := loop, point := .outside, entry := none }
      else none
  | .accepting => some { d with point := .next }
  | .reading fd flags trace =>
      if d.server.readable fd then none else some { d with point := .readReturned fd flags trace }
  | .readReturned fd flags _ => some { d with point := .finding fd flags }
  | .finding fd flags =>
      some { d with
        point := if (d.server.connections.lookup fd).isSome then .found fd flags else .next }
  | .found fd flags => if flags.hangUp then none else some { d with point := .marked fd flags }
  | .marked fd flags => some { d with point := if flags.output then .writing fd none else .next }
  | .writeReturned _ _ => some { d with point := .next }
  | _ => none

def step (d : Dispatch) : DispatchAction → Option Dispatch
  | .loop action =>
      if action.isConcurrent ||
          match d.point, action with
          | .outside, .epollWait outcome => outcome ≠ .events
          | .outside, _ => true
          | _, _ => false then
        (d.loop.step library shutdownTimeoutMs action).map fun loop => { d with loop := loop }
      else none
  | .wait events =>
      match d.point with
      | .outside => d.wait library shutdownTimeoutMs events
      | _ => none
  | .take =>
      match d.point with
      | .next => d.take library shutdownTimeoutMs
      | _ => none
  | .accept fd ctl =>
      match d.point with
      | .accepting => d.handle library shutdownTimeoutMs (.accept fd ctl) fun _ => .accepting
      | _ => none
  | .recv outcome ticks =>
      match d.point with
      | .reading fd flags trace => d.recv library shutdownTimeoutMs fd flags trace outcome ticks
      | _ => none
  | .enqueueNext ctl =>
      match d.point with
      | .decoding fd flags trace => d.enqueueNext library shutdownTimeoutMs fd flags trace ctl
      | _ => none
  | .markReadEof ctl =>
      match d.point with
      | .found fd flags =>
          if flags.hangUp then
            d.handle library shutdownTimeoutMs (.hangUp fd ctl) fun _ => .marked fd flags
          else none
      | _ => none
  | .send outcome ctl =>
      match d.point with
      | .writing fd last => d.send library shutdownTimeoutMs fd last outcome ctl
      | _ => none
  | .advance => d.advance library shutdownTimeoutMs

/-- The loop is entered outside a batch. -/
def enter (loop : Loop) : Dispatch where
  loop := loop
  batch := []
  point := .outside
  returned _ := none
  entry := none
  entered _ := none

end Dispatch

/-- The loop of a server with its batches of events. -/
def eventLoop (library : Json.Library) (args : Server.StartArgs) (shutdownTimeoutMs : ℤ) :
    Transition.System Dispatch DispatchAction where
  init d := ∃ loop, (reactorLoop library args shutdownTimeoutMs).init loop ∧ d = Dispatch.enter loop
  step := Dispatch.step library shutdownTimeoutMs

namespace Dispatch

open Server

variable {library : Json.Library} {args : StartArgs} {shutdownTimeoutMs : ℤ} {d d' : Dispatch}
  {fd : Fd} {c : Connection} {ctl : Bool} {flags : EventFlags} {loop : Loop} {trace : ReadTrace}

/-! ## The steps -/

theorem handle_eq_some {action : ReactorAction} {next : Server → DispatchPoint}
    (h : d.handle library shutdownTimeoutMs action next = some d') :
    ∃ t, d.server.reactorStep action = some t ∧
      d' = { d with loop := { d.loop with server := t }, point := next t } := by
  obtain ⟨loop, hloop, rfl⟩ := Option.map_eq_some_iff.mp h
  obtain ⟨-, hserver⟩ := Option.ite_none_right_eq_some.mp hloop
  obtain ⟨t, ht, rfl⟩ := Option.map_eq_some_iff.mp hserver
  exact ⟨t, ht, rfl⟩

/-- A step of another thread leaves the tables alone. -/
theorem concurrent_untouched {action : LoopAction} (haction : action.isConcurrent = true)
    {l l' : Loop} (h : l.step library shutdownTimeoutMs action = some l') :
    Untouched l.server l'.server := by
  have hserver : ∀ own : Action, (∀ reactor, own ≠ .reactor reactor) →
      l.server.step library own = some l'.server → Untouched l.server l'.server := by
    intro own hown hstep
    rcases step_untouched hstep with ⟨reactor, hreactor, -⟩ | huntouched
    · exact absurd hreactor (hown reactor)
    · exact huntouched
  cases action with
  | worker i own =>
      obtain ⟨-, h⟩ := Option.ite_none_left_eq_some.mp h
      obtain ⟨server, hstep, rfl⟩ := Option.map_eq_some_iff.mp h
      exact hserver (.worker i own) nofun hstep
  | authWorker i own =>
      obtain ⟨-, h⟩ := Option.ite_none_left_eq_some.mp h
      obtain ⟨server, hstep, rfl⟩ := Option.map_eq_some_iff.mp h
      exact hserver (.authWorker i own) nofun hstep
  | notify thread =>
      obtain ⟨-, ⟨⟩⟩ := Option.ite_none_right_eq_some.mp h
      exact .refl _
  | stop | signal =>
      obtain ⟨-, ⟨⟩⟩ := Option.ite_none_left_eq_some.mp h
      exact .refl _
  | pullConfig body =>
      simp only [Loop.step] at h
      obtain ⟨server, hstep, rfl⟩ := Option.map_eq_some_iff.mp h
      exact hserver (.pullConfig body) nofun hstep
  | tick duration =>
      simp only [Loop.step] at h
      obtain ⟨server, hstep, rfl⟩ := Option.map_eq_some_iff.mp h
      exact hserver (.tick duration) nofun hstep
  | _ => cases haction

/-- A step leaves every connection but one alone, and does not put another one
in its place. -/
structure Confined (fd : Fd) (s t : Server) : Prop where
  elsewhere : ∀ fd', fd' ≠ fd → t.connections.lookup fd' = s.connections.lookup fd'
  own : ∀ c, t.connections.lookup fd = some c →
    ∃ old, s.connections.lookup fd = some old ∧ c.connId = old.connId

theorem confined_of_touches {reads : Prop} {s t : Server} (h : Touches reads fd s t) :
    Confined fd s t := by
  refine ⟨h.elsewhere.lookup, fun c hc => ?_⟩
  obtain ⟨old, hold, hfollows⟩ := h.follows hc
  exact ⟨old, hold, hfollows.connId⟩

/-! ## The batch -/

/-- Every event still to come, and the one under way, is about the connection
that was there when the batch was returned. -/
structure Tracked (d : Dispatch) : Prop where
  distinct : (d.batch.map EpollEvent.source).Nodup
  waiting : ∀ fd flags, ⟨.client fd, flags⟩ ∈ d.batch →
    ∃ c, d.returned fd = some c ∧ d.server.connections.lookup fd = some c
  ahead : ∀ fd flags, ⟨.client fd, flags⟩ ∈ d.batch → d.entry ≠ some fd
  current : ∀ fd, d.entry = some fd → ∃ c, d.returned fd = some c ∧ d.entered fd = some c ∧
    ∀ c', d.server.connections.lookup fd = some c' → c'.connId = c.connId
  others : ∀ fd, d.entry = some fd → ∀ fd', fd' ≠ fd →
    d.server.connections.lookup fd' = d.entered fd'

/-- A step on the descriptor of the event under way. -/
theorem Tracked.confined (h : Tracked d) (hentry : d.entry = some fd) {t : Server}
    (ht : Confined fd d.server t) (point : DispatchPoint) :
    Tracked { d with loop := { d.loop with server := t }, point := point } where
  distinct := h.distinct
  waiting own flags hmem := by
    have hne : own ≠ fd := fun heq => h.ahead own flags hmem (heq ▸ hentry)
    obtain ⟨c, hreturned, hc⟩ := h.waiting own flags hmem
    exact ⟨c, hreturned, (ht.elsewhere own hne).trans hc⟩
  ahead := h.ahead
  current own hown := by
    obtain ⟨c, hreturned, hentered, hid⟩ := h.current own hown
    refine ⟨c, hreturned, hentered, fun c' hc' => ?_⟩
    obtain rfl : fd = own := Option.some.inj (hentry.symm.trans hown)
    obtain ⟨old, hold, hsame⟩ := ht.own c' hc'
    exact hsame.trans (hid old hold)
  others own hown fd' hne := by
    obtain rfl : fd = own := Option.some.inj (hentry.symm.trans hown)
    exact (ht.elsewhere fd' hne).trans (h.others fd hentry fd' hne)

/-- A step that leaves the connections alone. -/
theorem Tracked.same (h : Tracked d) (point : DispatchPoint)
    (hconnections : loop.server.connections = d.server.connections) :
    Tracked { d with loop := loop, point := point } where
  distinct := h.distinct
  waiting own flags hmem := by
    obtain ⟨c, hreturned, hc⟩ := h.waiting own flags hmem
    exact ⟨c, hreturned, (congrArg (AList.lookup own) hconnections).trans hc⟩
  ahead := h.ahead
  current own hown := by
    obtain ⟨c, hreturned, hentered, hid⟩ := h.current own hown
    refine ⟨c, hreturned, hentered, fun c' hc' => hid c' ?_⟩
    exact (congrArg (AList.lookup own) hconnections).symm.trans hc'
  others own hown fd' hne :=
    (congrArg (AList.lookup fd') hconnections).trans (h.others own hown fd' hne)

/-- Between two events, outside the batch and in `handleAccept` nothing is
confined to a descriptor; a handler of a client works on the event under way. -/
def Located (d : Dispatch) : Prop :=
  match d.point with
  | .outside => d.batch = [] ∧ d.entry = none
  | .next => True
  | .accepting => d.entry = none
  | .reading fd _ _ | .decoding fd _ _ | .readReturned fd _ _ | .finding fd _ | .found fd _
  | .marked fd _ | .writing fd _ | .writeReturned fd _ => d.entry = some fd

/-! ## The system calls -/

/-- Everything received is decoded or in the buffer. -/
def Received (s : Server) (fd : Fd) (trace : ReadTrace) : Prop :=
  ∀ c, s.connections.lookup fd = some c → inputBytes s fd c = trace.start ++ trace.received

theorem received_enter (s : Server) (fd : Fd) : Received s fd (ReadTrace.enter s fd) := by
  intro c hc
  simp [ReadTrace.enter, hc]

/-- What the handlers have reached where they are. -/
def Exhausted (d : Dispatch) : Prop :=
  match d.point with
  | .reading fd _ trace => Received d.server fd trace
  | .decoding fd _ trace =>
      (∃ frame, d.server.point = .enqueue frame ∧ frame.fd = fd ∧
        (frame.eof = true ↔ trace.last = some .eof)) ∧
      ((∃ bytes, trace.last = some (.data bytes)) ∨ trace.last = some .eof ∨
        trace.last = some .again) ∧
      (trace.last ≠ some .eof → Received d.server fd trace)
  | .readReturned fd _ trace =>
      d.server.state = .running → ∀ c, d.server.connections.lookup fd = some c →
        c.closing = true ∨ c.readEof = true ∨
          trace.last = some .again ∧ inputBytes d.server fd c = trace.start ++ trace.received
  | .writeReturned fd last =>
      ∀ c, d.server.connections.lookup fd = some c → c.unsent = [] ∨ last = some .again
  | _ => True

theorem inputBytes_congr {s t : Server} (h : t.decodedOf = s.decodedOf) (fd : Fd)
    (c : Connection) : inputBytes t fd c = inputBytes s fd c := by
  rw [inputBytes, inputBytes, h]

theorem Exhausted.untouched (h : Exhausted d) (ht : Untouched d.server loop.server) :
    Exhausted { d with loop := loop } := by
  have hbytes := inputBytes_congr ht.decoded
  unfold Exhausted Received at h ⊢
  cases hpoint : d.point with
  | reading | decoding | readReturned | writeReturned =>
      simp only [hpoint, server] at h hbytes ht ⊢
      simp only [ht.connections, ht.state, ht.point, hbytes]
      exact h
  | _ => trivial

structure Sound (d : Dispatch) : Prop where
  tracked : d.Tracked
  located : d.Located
  exhausted : d.Exhausted

/-- The event under way, where the loop is. -/
theorem Sound.located_at (h : Sound d) {point : DispatchPoint} (hpoint : d.point = point) :
    Located { d with point := point } := by
  rw [← hpoint]
  exact h.located

theorem Sound.concurrent (h : Sound d) (ht : Untouched d.server loop.server) :
    Sound { d with loop := loop } where
  tracked := h.tracked.same d.point ht.connections
  located := h.located
  exhausted := h.exhausted.untouched ht

/-! ## The entries of the batch -/

/-- The next event is taken up: it is about the connection that is there. -/
theorem Tracked.enter (h : Tracked d) {rest : List EpollEvent}
    (hbatch : d.batch = ⟨.client fd, flags⟩ :: rest) (point : DispatchPoint) :
    Tracked { d with
      batch := rest
      entry := some fd
      entered := fun fd => d.server.connections.lookup fd
      point := point } := by
  have hdistinct := h.distinct
  rw [hbatch, List.map_cons, List.nodup_cons] at hdistinct
  obtain ⟨c, hreturned, hc⟩ := h.waiting fd flags (by rw [hbatch]; exact List.mem_cons_self)
  refine ⟨hdistinct.2, fun own flags' hown => ?_, fun own flags' hown heq => ?_, ?_, ?_⟩
  · exact h.waiting own flags' (by rw [hbatch]; exact List.mem_cons_of_mem _ hown)
  · obtain rfl := Option.some.inj heq
    exact hdistinct.1 (List.mem_map.mpr ⟨_, hown, rfl⟩)
  · rintro own heq
    obtain rfl := Option.some.inj heq
    refine ⟨c, hreturned, hc, fun c' hc' => ?_⟩
    rw [Option.some.inj (hc.symm.trans hc')]
  · exact fun own _ fd' _ => rfl

theorem Tracked.skip (h : Tracked d) {event : EpollEvent} {rest : List EpollEvent}
    (hbatch : d.batch = event :: rest) (point : DispatchPoint) (hserver : loop.server = d.server) :
    Tracked { d with loop := loop, batch := rest, entry := none, point := point } := by
  have hdistinct := h.distinct
  rw [hbatch, List.map_cons, List.nodup_cons] at hdistinct
  refine ⟨hdistinct.2, fun fd flags hown => ?_, nofun, nofun, nofun⟩
  show ∃ c, _ ∧ loop.server.connections.lookup fd = some c
  rw [hserver]
  exact h.waiting fd flags (by rw [hbatch]; exact List.mem_cons_of_mem event hown)

theorem take_sound (h : Sound d) (hpoint : d.point = .next)
    (hd : d.take library shutdownTimeoutMs = some d') : Sound d' := by
  unfold take at hd
  split at hd
  · cases hd
  · next event rest hbatch =>
      split at hd
      · obtain ⟨loop, hloop, rfl⟩ := Option.map_eq_some_iff.mp hd
        obtain ⟨-, ⟨⟩⟩ := Option.ite_none_right_eq_some.mp hloop
        rw [hpoint]
        exact ⟨h.tracked.skip hbatch .next rfl, trivial, trivial⟩
      · obtain rfl := Option.some.inj hd
        split
        · exact ⟨h.tracked.skip hbatch .accepting rfl, rfl, trivial⟩
        · exact ⟨h.tracked.skip hbatch .next rfl, trivial, trivial⟩
      · next fd hsource =>
          have hbatch : d.batch = ⟨.client fd, event.flags⟩ :: rest := by rw [hbatch, ← hsource]
          simp only at hd
          split at hd
          · obtain ⟨t, ht, rfl⟩ := handle_eq_some hd
            obtain ⟨-, ⟨⟩⟩ := Option.ite_none_right_eq_some.mp ht
            have hclose : Touches False fd d.server (d.server.closeConnection fd) :=
              closeConnection_touches d.server fd
            exact ⟨(h.tracked.enter hbatch .next).confined rfl (confined_of_touches hclose) .next,
              trivial, trivial⟩
          · split at hd
            · obtain rfl := Option.some.inj hd
              exact ⟨h.tracked.enter hbatch _, rfl, received_enter d.server fd⟩
            · obtain rfl := Option.some.inj hd
              exact ⟨h.tracked.enter hbatch _, rfl, trivial⟩

/-! ## Reading -/

section Reading

variable {s : Server} {ticks : List ℕ} {outcome : RecvOutcome}

/-- The frames `decodeAndEnqueue` finds are recorded, in their order. -/
theorem decodeAndEnqueue_decoded {readEof : Bool} (hc : s.connections.lookup fd = some c) :
    (s.decodeAndEnqueue fd readEof ticks).decodedOf ⟨fd, c.connId⟩ =
      (ProtocolCodec.decode c.inputBuffer c.fd c.connId
        (toUInt32 s.runtimeConfig.maxPayloadSize)).2.1.reverse ++
        s.decodedOf ⟨fd, c.connId⟩ := by
  unfold decodeAndEnqueue
  rw [hc]
  simp only
  generalize ProtocolCodec.decode c.inputBuffer c.fd c.connId
    (toUInt32 s.runtimeConfig.maxPayloadSize) = decoded
  generalize hstart : Intake.start s fd c decoded.2.1 _ _ = start
  have hlog : start.server.decodedOf ⟨fd, c.connId⟩ =
      decoded.2.1.reverse ++ s.decodedOf ⟨fd, c.connId⟩ := by
    subst hstart
    simp [Intake.start, decodedOf, List.filterMap_map, Function.comp_def, Event.decodedBy]
  have hloop : Touches False fd start.server
      (intakeFrames s.runtimeConfig start decoded.2.1 ticks).server := by
    subst hstart
    exact intakeFrames_touches (c := c) rfl hc rfl rfl decoded.2.1 ticks
  generalize intakeFrames s.runtimeConfig start decoded.2.1 ticks = intake at hloop
  rw [← hlog, ← hloop.decoded]
  split
  · have hclose : Touches False fd (intake.server.setConnection fd intake.current) _ :=
      closeConnection_touches _ fd
    rw [hclose.decoded]
    rfl
  · rfl

/-- Decoding moves bytes from the buffer to the frames. -/
theorem decodeAndEnqueue_bytes {c' : Connection} (hc : s.connections.lookup fd = some c)
    (heof : c.readEof = false)
    (hc' : (s.decodeAndEnqueue fd false ticks).connections.lookup fd = some c') :
    inputBytes (s.decodeAndEnqueue fd false ticks) fd c' = inputBytes s fd c := by
  have htouches : Touches True fd s (s.decodeAndEnqueue fd false ticks) := by
    refine decodeAndEnqueue_touches (fun own hown => ?_) false ticks
    rwa [← Option.some.inj (hc.symm.trans hown)]
  obtain ⟨old, hold, hfollows⟩ := htouches.follows hc'
  cases hc.symm.trans hold
  obtain ⟨hbuffer, hlegal, -⟩ := decodeAndEnqueue_buffer hc hc'
  rw [ProtocolCodec.decode_status] at hlegal
  rw [inputBytes, inputBytes, hfollows.connId, hbuffer, decodeAndEnqueue_decoded hc,
    ProtocolCodec.decode_requests, heof, List.reverse_append, List.reverse_reverse,
    List.flatMap_append, List.append_assoc]
  congr 1
  rw [keptInput, Bool.or_self, Bool.false_and, if_neg Bool.false_ne_true,
    ProtocolCodec.decode_rest hlegal]
  exact ProtocolCodec.encode_decodeAll c.inputBuffer

/-- After data or `EAGAIN` the decoder has seen everything received. -/
theorem Received.handleRead {trace : ReadTrace} (h : Received s fd trace)
    (hreadable : s.readable fd = true)
    (houtcome : (∃ bytes, outcome = .data bytes) ∨ outcome = .again) :
    Received (s.handleRead fd outcome ticks) fd (ReadTrace.extend trace outcome) := by
  intro c' hc'
  have htouches : Touches True fd s (s.handleRead fd outcome ticks) :=
    handleRead_touches (fun c hc => readable_eof hreadable hc) outcome ticks
  obtain ⟨c, hc, -⟩ := htouches.follows hc'
  have heof := readable_eof hreadable hc
  unfold Server.handleRead at hc' ⊢
  rw [hc] at hc' ⊢
  rcases houtcome with ⟨bytes, rfl⟩ | rfl
  · have hdecode := decodeAndEnqueue_bytes
      (c := { c with inputBuffer := c.inputBuffer ++ bytes }) (AList.lookup_insert _) heof hc'
    refine hdecode.trans ?_
    calc _ = inputBytes s fd c ++ bytes := (List.append_assoc ..).symm
      _ = (trace.start ++ trace.received) ++ bytes := by rw [h c hc]
      _ = trace.start ++ (trace.received ++ bytes) := List.append_assoc ..
  · exact (decodeAndEnqueue_bytes hc heof hc').trans (h c hc)

/-- A connection that `handleRead` leaves after data, `EAGAIN` or the end of the
input has an activation of `decodeAndEnqueue`. -/
theorem handleRead_enqueue (houtcome : outcome ≠ .interrupted)
    (hc : (s.handleRead fd outcome ticks).connections.lookup fd = some c) :
    ∃ frame, (s.handleRead fd outcome ticks).point = .enqueue frame := by
  unfold Server.handleRead at hc ⊢
  split at hc
  · next hnone => cases hnone.symm.trans hc
  · next old hold =>
      cases outcome with
      | interrupted => exact absurd rfl houtcome
      | failed => cases (closeConnection_lookup_self s fd).symm.trans hc
      | eof | again =>
          obtain ⟨-, -, frame, hframe, -⟩ := decodeAndEnqueue_buffer hold hc
          exact ⟨frame, hframe⟩
      | data bytes =>
          obtain ⟨-, -, frame, hframe, -⟩ := decodeAndEnqueue_buffer (AList.lookup_insert _) hc
          exact ⟨frame, hframe⟩

/-- `decodeAndEnqueue` is called after data, the end of the input or `EAGAIN`. -/
theorem outcome_of_enqueue {frame : Enqueue} (hboundary : s.point = .boundary)
    (hframe : (s.handleRead fd outcome ticks).point = .enqueue frame) :
    (∃ bytes, outcome = .data bytes) ∨ outcome = .eof ∨ outcome = .again := by
  have hkept : Touches False fd s (s.closeConnection fd) := closeConnection_touches s fd
  cases outcome with
  | data bytes => exact .inl ⟨bytes, rfl⟩
  | eof => exact .inr (.inl rfl)
  | again => exact .inr (.inr rfl)
  | interrupted | failed =>
      unfold Server.handleRead at hframe
      split at hframe
      · cases hboundary.symm.trans hframe
      · simp [hkept.point, hboundary] at hframe

end Reading

theorem recv_sound (h : Sound d) (hreach : Transition.Reachable (gateway library args) d.server)
    (hpoint : d.point = .reading fd flags trace) {outcome : RecvOutcome} {ticks : List ℕ}
    (hd : d.recv library shutdownTimeoutMs fd flags trace outcome ticks = some d') : Sound d' := by
  have hentry : d.entry = some fd := h.located_at hpoint
  have hreceived : Received d.server fd trace := by
    have hexhausted := h.exhausted
    rwa [Exhausted, hpoint] at hexhausted
  unfold recv at hd
  obtain ⟨t, ht, rfl⟩ := handle_eq_some hd
  simp only [reactorStep, Option.ite_none_right_eq_some, Bool.and_eq_true] at ht
  obtain ⟨⟨⟨hboundary, hreadable⟩, -⟩, ⟨⟩⟩ := ht
  have hboundary := boundary_of_atBoundary hboundary
  have htouches : Touches True fd d.server (d.server.handleRead fd outcome ticks) :=
    handleRead_touches (fun c hc => readable_eof hreadable hc) outcome ticks
  have htracked := fun point => h.tracked.confined hentry (confined_of_touches htouches) point
  split
  · have hsame : d.server.handleRead fd .interrupted ticks = d.server := by
      unfold Server.handleRead
      split <;> rfl
    rw [hsame] at htracked ⊢
    exact ⟨htracked _, hentry, hreceived⟩
  · next frame hnot hframe =>
      obtain ⟨-, hfd, heof⟩ := handleRead_owned hboundary
        (fun c hc => (ledger_sound hreach).identified.fd fd c hc) hframe
      have houtcome := outcome_of_enqueue hboundary hframe
      refine ⟨htracked _, hentry, ⟨frame, hframe, hfd, ?_⟩, ?_, fun hlast => ?_⟩
      · rw [heof]
        simp [ReadTrace.extend]
      · simpa [ReadTrace.extend] using houtcome
      · refine hreceived.handleRead hreadable (houtcome.imp_right fun hend => ?_)
        exact hend.resolve_left fun heq => hlast (by rw [heq]; rfl)
  · next hnot hnone =>
      refine ⟨htracked _, hentry, fun _ c hc => ?_⟩
      obtain ⟨frame, hframe⟩ := handleRead_enqueue hnot hc
      exact absurd hframe (hnone frame)

/-- The rest of `decodeAndEnqueue` does not touch the input. -/
theorem Received.touches {s t : Server} (h : Received s fd trace) (ht : Touches False fd s t) :
    Received t fd trace := by
  intro c hc
  obtain ⟨old, hold, hfollows⟩ := ht.follows hc
  have hinput : c.inputBuffer = old.inputBuffer :=
    hfollows.input.resolve_right fun hread => hread.1
  rw [inputBytes_congr ht.decoded, inputBytes, hfollows.connId, hinput]
  exact h old hold

theorem enqueueNext_sound (h : Sound d)
    (hreach : Transition.Reachable (gateway library args) d.server)
    (hpoint : d.point = .decoding fd flags trace)
    (hd : d.enqueueNext library shutdownTimeoutMs fd flags trace ctl = some d') : Sound d' := by
  have hentry : d.entry = some fd := h.located_at hpoint
  have hexhausted := h.exhausted
  rw [Exhausted, hpoint] at hexhausted
  obtain ⟨⟨frame, hframe, rfl, heof⟩, hlast, hreceived⟩ := hexhausted
  unfold enqueueNext at hd
  obtain ⟨t, ht, rfl⟩ := handle_eq_some hd
  simp only [reactorStep, hframe] at ht
  obtain rfl := Option.some.inj ht
  have howned := owned hreach frame hframe
  obtain ⟨point, htouches⟩ : ∃ point, Touches False frame.fd { d.server with point := point }
      (d.server.enqueueNext frame ctl) := enqueueNext_touches howned d.server ctl
  have hconfined : Confined frame.fd d.server (d.server.enqueueNext frame ctl) :=
    ⟨(confined_of_touches htouches).elsewhere, (confined_of_touches htouches).own⟩
  have htracked := h.tracked.confined hentry hconfined
  have hkept : trace.last ≠ some .eof →
      Received (d.server.enqueueNext frame ctl) frame.fd trace := fun hdata =>
    Received.touches (s := { d.server with point := point }) (hreceived hdata) htouches
  split
  · next frame' hnext =>
      obtain ⟨-, hfd, hsame⟩ := enqueueNext_owned howned hnext
      exact ⟨htracked _, hentry, ⟨frame', hnext, hfd, by rw [hsame]; exact heof⟩, hlast, hkept⟩
  · next bytes hdata _ =>
      refine ⟨htracked _, hentry, hkept ?_⟩
      rw [hdata]
      simp
  · next hnone hdata =>
      refine ⟨htracked _, hentry, fun _ c hc => ?_⟩
      rcases hlast with ⟨bytes, hlast⟩ | hlast | hlast
      · exact absurd hlast (hdata bytes)
      · refine .inr (.inl ?_)
        rcases enqueueNext_noted howned (heof.mpr hlast) hc with hnoted | ⟨frame', hnext, -⟩
        · exact hnoted
        · exact absurd hnext (hnone frame')
      · refine .inr (.inr ⟨hlast, hkept ?_ c hc⟩)
        rw [hlast]
        simp

/-! ## Writing -/

/-- A connection that outlives the end of `handleWrite` is as it was. -/
theorem finishWrite_lookup {s : Server} {current : Connection}
    (hc : (s.finishWrite fd current ctl).connections.lookup fd = some c) :
    s.connections.lookup fd = some c := by
  unfold finishWrite at hc
  split at hc
  · cases (closeConnection_lookup_self _ fd).symm.trans hc
  · exact (modifyConnectionEvents_lookup_eq hc).1

/-- A connection that outlives the last turn of `handleWrite`, or a failure of
`send`, has nothing left to send. -/
theorem handleWrite_unsent {s : Server} {current : Connection} {outcome : SendOutcome}
    (hcurrent : s.connections.lookup fd = some current)
    (hends : current.outputBuffer.length ≤ current.writeOffset ∨ outcome = .failed ∨
      ∃ count, outcome = .sent count ∧
        current.writeOffset + count = current.outputBuffer.length)
    (hc : (s.handleWrite fd outcome ctl).connections.lookup fd = some c) : c.unsent = [] := by
  unfold handleWrite at hc
  rw [hcurrent] at hc
  simp only at hc
  split at hc
  · next hempty =>
      cases hcurrent.symm.trans (finishWrite_lookup hc)
      exact List.drop_eq_nil_of_le hempty
  · next hunsent =>
      rcases hends with hempty | rfl | ⟨count, rfl, hall⟩
      · exact absurd hempty hunsent
      · cases (closeConnection_lookup_self s fd).symm.trans hc
      · simp only [hall, if_true] at hc
        cases (AList.lookup_insert _).symm.trans (finishWrite_lookup hc)
        rfl

theorem send_sound (h : Sound d) {last : Option SendOutcome} (hpoint : d.point = .writing fd last)
    {outcome : SendOutcome} (hd : d.send library shutdownTimeoutMs fd last outcome ctl = some d') :
    Sound d' := by
  have hentry : d.entry = some fd := h.located_at hpoint
  unfold send at hd
  split at hd
  · next hnone =>
      obtain rfl := Option.some.inj hd
      exact ⟨h.tracked.same _ rfl, hentry, fun c hc => by cases hnone.symm.trans hc⟩
  · next current hcurrent =>
      obtain ⟨t, ht, rfl⟩ := handle_eq_some hd
      obtain ⟨-, ⟨⟩⟩ := Option.ite_none_right_eq_some.mp ht
      have htouches : Touches False fd d.server (d.server.handleWrite fd outcome ctl) :=
        handleWrite_touches d.server fd outcome ctl
      have htracked := h.tracked.confined hentry (confined_of_touches htouches)
      split
      · next hempty =>
          exact ⟨htracked _, hentry, fun c hc =>
            .inl (handleWrite_unsent hcurrent (.inl hempty) hc)⟩
      · cases outcome with
        | sent count =>
            simp only
            split
            · next hall =>
                exact ⟨htracked _, hentry, fun c hc =>
                  .inl (handleWrite_unsent hcurrent (.inr (.inr ⟨count, rfl, hall⟩)) hc)⟩
            · exact ⟨htracked _, hentry, trivial⟩
        | interrupted => exact ⟨htracked _, hentry, trivial⟩
        | again => exact ⟨htracked _, hentry, fun _ _ => .inr rfl⟩
        | failed =>
            exact ⟨htracked _, hentry,
              fun c hc => .inl (handleWrite_unsent hcurrent (.inr (.inl rfl)) hc)⟩

/-! ## The other steps -/

/-- A new connection gets a descriptor that no event of the batch is about. -/
theorem accept_sound (h : Sound d) (hpoint : d.point = .accepting)
    (hd : d.handle library shutdownTimeoutMs (.accept fd ctl) (fun _ => .accepting) = some d') :
    Sound d' := by
  have hentry : d.entry = none := h.located_at hpoint
  obtain ⟨t, ht, rfl⟩ := handle_eq_some hd
  simp only [reactorStep, Option.ite_none_right_eq_some, Bool.and_eq_true] at ht
  obtain ⟨⟨-, hfree⟩, ⟨⟩⟩ := ht
  have hnone : d.server.connections.lookup fd = none := Option.isNone_iff_eq_none.mp hfree
  have hnot : ∀ own, d.entry ≠ some own := fun own hown => by cases hentry.symm.trans hown
  refine ⟨⟨h.tracked.distinct, fun own flags hmem => ?_, h.tracked.ahead,
    fun own hown => absurd hown (hnot own), fun own hown => absurd hown (hnot own)⟩,
    hentry, trivial⟩
  obtain ⟨c, hreturned, hc⟩ := h.tracked.waiting own flags hmem
  have hne : own ≠ fd := by
    rintro rfl
    cases hnone.symm.trans hc
  refine ⟨c, hreturned, ?_⟩
  cases ctl with
  | true => exact (AList.lookup_insert_ne hne).trans hc
  | false => exact hc

theorem wait_sound (hreach : Transition.Reachable (gateway library args) d.server)
    {events : List EpollEvent} (hd : d.wait library shutdownTimeoutMs events = some d') :
    Sound d' := by
  unfold wait at hd
  obtain ⟨⟨hdistinct, hreportable⟩, hd⟩ := Option.ite_none_right_eq_some.mp hd
  obtain ⟨loop, hloop, rfl⟩ := Option.map_eq_some_iff.mp hd
  obtain ⟨-, ⟨⟩⟩ := Option.ite_none_right_eq_some.mp hloop
  refine ⟨⟨hdistinct, fun fd flags hmem => ?_, nofun, nofun, nofun⟩, trivial, trivial⟩
  obtain ⟨c, hc⟩ := Option.isSome_iff_exists.mp (registered hreach fd (hreportable _ hmem))
  exact ⟨c, hc, hc⟩

theorem sound_outside (hpoint : d.point = .outside) (hbatch : d.batch = [])
    (hentry : d.entry = none) : Sound d := by
  have hnot : ∀ own, d.entry ≠ some own := fun own hown => by cases hentry.symm.trans hown
  refine ⟨⟨by rw [hbatch]; exact .nil, fun fd flags hmem => ?_, fun fd flags hmem => ?_,
    fun own hown => absurd hown (hnot own), fun own hown => absurd hown (hnot own)⟩, ?_, ?_⟩
  · rw [hbatch] at hmem
    cases hmem
  · exact hnot fd
  · rw [Located, hpoint]
    exact ⟨hbatch, hentry⟩
  · rw [Exhausted, hpoint]
    trivial

/-- `handleRead` leaves its loop because the connection is gone, closing or at
its end, or because the server does not run. -/
theorem not_readable {s : Server} (h : s.readable fd = false) (hrunning : s.state = .running)
    (hc : s.connections.lookup fd = some c) : c.closing = true ∨ c.readEof = true := by
  simp only [readable, hrunning, hc, decide_true, Bool.true_and] at h
  cases hclosing : c.closing
  · refine .inr ?_
    simpa [hclosing] using h
  · exact .inl rfl

theorem advance_sound (h : Sound d) (hd : d.advance library shutdownTimeoutMs = some d') :
    Sound d' := by
  have hsame : ∀ point, Tracked { d with point := point } := fun point => h.tracked.same point rfl
  have hlocated := h.located
  unfold advance at hd
  split at hd
  all_goals rename_i hpoint
  all_goals try rw [Located, hpoint] at hlocated
  · split at hd
    · next hempty =>
        obtain ⟨loop, -, rfl⟩ := Option.map_eq_some_iff.mp hd
        exact sound_outside rfl (List.isEmpty_iff.mp hempty) rfl
    · cases hd
  · obtain rfl := Option.some.inj hd
    exact ⟨hsame _, trivial, trivial⟩
  · split at hd
    · cases hd
    · next hreadable =>
        obtain rfl := Option.some.inj hd
        refine ⟨hsame _, hlocated, fun hrunning c hc => ?_⟩
        rcases not_readable (Bool.eq_false_iff.mpr hreadable) hrunning hc with hclosing | heof
        · exact .inl hclosing
        · exact .inr (.inl heof)
  · obtain rfl := Option.some.inj hd
    exact ⟨hsame _, hlocated, trivial⟩
  · obtain rfl := Option.some.inj hd
    split
    · exact ⟨hsame _, hlocated, trivial⟩
    · exact ⟨hsame _, trivial, trivial⟩
  · split at hd
    · cases hd
    · obtain rfl := Option.some.inj hd
      exact ⟨hsame _, hlocated, trivial⟩
  · obtain rfl := Option.some.inj hd
    split
    · exact ⟨hsame _, hlocated, trivial⟩
    · exact ⟨hsame _, trivial, trivial⟩
  · obtain rfl := Option.some.inj hd
    exact ⟨hsame _, trivial, trivial⟩
  · cases hd

theorem markReadEof_sound (h : Sound d) (hpoint : d.point = .found fd flags)
    (hd : d.handle library shutdownTimeoutMs (.hangUp fd ctl) (fun _ => .marked fd flags) =
      some d') : Sound d' := by
  have hentry : d.entry = some fd := h.located_at hpoint
  obtain ⟨t, ht, rfl⟩ := handle_eq_some hd
  obtain ⟨-, ⟨⟩⟩ := Option.ite_none_right_eq_some.mp ht
  have htouches : Touches False fd d.server (d.server.markReadEof fd ctl) :=
    markReadEof_touches d.server fd ctl
  exact ⟨h.tracked.confined hentry (confined_of_touches htouches) _, hentry, trivial⟩

theorem step_sound (h : Sound d) (hreach : Transition.Reachable (gateway library args) d.server)
    {action : DispatchAction} (hd : d.step library shutdownTimeoutMs action = some d') :
    Sound d' := by
  cases action with
  | loop own =>
      obtain ⟨hallowed, hd⟩ := Option.ite_none_right_eq_some.mp hd
      obtain ⟨loop, hloop, rfl⟩ := Option.map_eq_some_iff.mp hd
      by_cases hconcurrent : own.isConcurrent = true
      · exact h.concurrent (concurrent_untouched hconcurrent hloop)
      · have hpoint : d.point = .outside := by
          cases hpoint : d.point <;> simp_all
        obtain ⟨hbatch, hentry⟩ : d.batch = [] ∧ d.entry = none := h.located_at hpoint
        exact sound_outside hpoint hbatch hentry
  | wait events =>
      simp only [step] at hd
      split at hd
      · exact wait_sound hreach hd
      · cases hd
  | take =>
      simp only [step] at hd
      split at hd
      · next hpoint => exact take_sound h hpoint hd
      · cases hd
  | accept fd ctl =>
      simp only [step] at hd
      split at hd
      · next hpoint => exact accept_sound h hpoint hd
      · cases hd
  | recv outcome ticks =>
      simp only [step] at hd
      split at hd
      · next hpoint => exact recv_sound h hreach hpoint hd
      · cases hd
  | enqueueNext ctl =>
      simp only [step] at hd
      split at hd
      · next hpoint => exact enqueueNext_sound h hreach hpoint hd
      · cases hd
  | markReadEof ctl =>
      simp only [step] at hd
      split at hd
      · next hpoint =>
          obtain ⟨-, hd⟩ := Option.ite_none_right_eq_some.mp hd
          exact markReadEof_sound h hpoint hd
      · cases hd
  | send outcome ctl =>
      simp only [step] at hd
      split at hd
      · next hpoint => exact send_sound h hpoint hd
      · cases hd
  | advance => exact advance_sound h hd

/-! ## Runs -/

/-- A step of the batch is a step of the loop or leaves it alone. -/
theorem step_loop {action : DispatchAction}
    (hd : d.step library shutdownTimeoutMs action = some d') :
    d'.loop = d.loop ∨ ∃ own, d.loop.step library shutdownTimeoutMs own = some d'.loop := by
  have hmap : ∀ {own : LoopAction} {f : Loop → Dispatch}, (∀ loop, (f loop).loop = loop) →
      (d.loop.step library shutdownTimeoutMs own).map f = some d' →
      d'.loop = d.loop ∨ ∃ own, d.loop.step library shutdownTimeoutMs own = some d'.loop := by
    intro own f hf hd
    obtain ⟨loop, hloop, rfl⟩ := Option.map_eq_some_iff.mp hd
    exact .inr ⟨own, by rw [hf]; exact hloop⟩
  have hsame : ∀ {e : Dispatch}, some e = some d' → e.loop = d.loop →
      d'.loop = d.loop ∨ ∃ own, d.loop.step library shutdownTimeoutMs own = some d'.loop := by
    rintro e ⟨⟩ he
    exact .inl he
  cases action with
  | loop own =>
      obtain ⟨-, hd⟩ := Option.ite_none_right_eq_some.mp hd
      exact hmap (fun _ => rfl) hd
  | wait events =>
      simp only [step, wait] at hd
      split at hd
      · obtain ⟨-, hd⟩ := Option.ite_none_right_eq_some.mp hd
        exact hmap (fun _ => rfl) hd
      · cases hd
  | take =>
      simp only [step, take] at hd
      split at hd
      · split at hd
        · cases hd
        · split at hd
          · exact hmap (fun _ => rfl) hd
          · exact hsame hd rfl
          · split at hd
            · exact hmap (fun _ => rfl) hd
            · split at hd <;> exact hsame hd rfl
      · cases hd
  | accept fd ctl =>
      simp only [step] at hd
      split at hd
      · exact hmap (fun _ => rfl) hd
      · cases hd
  | recv outcome ticks =>
      simp only [step, recv] at hd
      split at hd
      · exact hmap (fun _ => rfl) hd
      · cases hd
  | enqueueNext ctl =>
      simp only [step, enqueueNext] at hd
      split at hd
      · exact hmap (fun _ => rfl) hd
      · cases hd
  | markReadEof ctl =>
      simp only [step] at hd
      split at hd
      · obtain ⟨-, hd⟩ := Option.ite_none_right_eq_some.mp hd
        exact hmap (fun _ => rfl) hd
      · cases hd
  | send outcome ctl =>
      simp only [step, send] at hd
      split at hd
      · split at hd
        · exact hsame hd rfl
        · exact hmap (fun _ => rfl) hd
      · cases hd
  | advance =>
      simp only [step, advance] at hd
      split at hd
      · split at hd
        · exact hmap (fun _ => rfl) hd
        · cases hd
      · exact hsame hd rfl
      · split at hd
        · cases hd
        · exact hsame hd rfl
      · exact hsame hd rfl
      · exact hsame hd rfl
      · split at hd
        · cases hd
        · exact hsame hd rfl
      · exact hsame hd rfl
      · exact hsame hd rfl
      · cases hd

theorem loop_reachable (h : Transition.Reachable (eventLoop library args shutdownTimeoutMs) d) :
    Transition.Reachable (reactorLoop library args shutdownTimeoutMs) d.loop := by
  refine Transition.ReachableBy.invariant
    (I := fun d => Transition.Reachable (reactorLoop library args shutdownTimeoutMs) d.loop)
    ?_ ?_ h
  · rintro d ⟨loop, hloop, rfl⟩
    exact .init hloop
  · intro d action d' _ hloop _ hstep
    rcases step_loop hstep with hsame | ⟨own, hown⟩
    · rw [hsame]
      exact hloop
    · exact .step hloop trivial hown

theorem server_reachable (h : Transition.Reachable (eventLoop library args shutdownTimeoutMs) d) :
    Transition.Reachable (gateway library args) d.server :=
  Loop.server_reachable (loop_reachable h)

theorem sound (h : Transition.Reachable (eventLoop library args shutdownTimeoutMs) d) :
    Sound d := by
  refine Transition.ReachableBy.invariant (I := Sound) ?_ ?_ h
  · rintro d ⟨loop, -, rfl⟩
    exact sound_outside rfl rfl rfl
  · intro d action d' hreach hd _ hstep
    exact step_sound hd (server_reachable hreach) hstep

/-- An edge-triggered descriptor is read and written until the system call would
block. A connection that outlives `handleRead` in a running server is closing or
at the end of its input, or the last `recv` gave `EAGAIN` and everything
received was decoded up to the beginning of a frame. A connection that outlives
`handleWrite` has nothing left to send, or the last `send` gave `EAGAIN`. -/
theorem readiness_exhausted
    (h : Transition.Reachable (eventLoop library args shutdownTimeoutMs) d) :
    (∀ fd flags trace, d.point = .readReturned fd flags trace → d.server.state = .running →
      ∀ c, d.server.connections.lookup fd = some c →
        c.closing = true ∨ c.readEof = true ∨
          trace.last = some .again ∧
            inputBytes d.server fd c = trace.start ++ trace.received ∧
            ProtocolCodec.PartialFrame c.inputBuffer) ∧
    ∀ fd last, d.point = .writeReturned fd last →
      ∀ c, d.server.connections.lookup fd = some c → c.unsent = [] ∨ last = some .again := by
  have hexhausted := (sound h).exhausted
  refine ⟨fun fd flags trace hpoint hrunning c hc => ?_, fun fd last hpoint => ?_⟩
  · rw [Exhausted, hpoint] at hexhausted
    rcases hexhausted hrunning c hc with hclosing | heof | ⟨hlast, hbytes⟩
    · exact .inl hclosing
    · exact .inr (.inl heof)
    · exact .inr (.inr ⟨hlast, hbytes, partialFrame (server_reachable h) hc⟩)
  · rw [Exhausted, hpoint] at hexhausted
    exact hexhausted

/-- No event of a batch meets another connection than the one it was reported
for, although descriptors are closed and given out again while the batch is
worked through: as long as an event waits its connection is there and unchanged,
while it is worked on no other connection is in its place, and every other
connection stays as it was when the event was taken up. -/
theorem batch_isolation (h : Transition.Reachable (eventLoop library args shutdownTimeoutMs) d) :
    (∀ fd flags, ⟨.client fd, flags⟩ ∈ d.batch →
      ∃ c, d.returned fd = some c ∧ d.server.connections.lookup fd = some c) ∧
    ∀ fd, d.entry = some fd →
      (∃ c, d.returned fd = some c ∧ d.entered fd = some c ∧
        ∀ c', d.server.connections.lookup fd = some c' → c'.connId = c.connId) ∧
      ∀ fd', fd' ≠ fd → d.server.connections.lookup fd' = d.entered fd' :=
  ⟨(sound h).tracked.waiting, fun fd hentry =>
    ⟨(sound h).tracked.current fd hentry, (sound h).tracked.others fd hentry⟩⟩

/-- Where a list of actions leads to from the start. -/
def after (library : Json.Library) (args : StartArgs) (shutdownTimeoutMs now : ℤ)
    (actions : List DispatchAction) : Option Dispatch :=
  (Server.start args now).bind fun s =>
    (eventLoop library args shutdownTimeoutMs).run (enter (Loop.enter s)) actions

theorem after_reachable {now : ℤ} {actions : List DispatchAction}
    (h : after library args shutdownTimeoutMs now actions = some d) :
    Transition.Reachable (eventLoop library args shutdownTimeoutMs) d := by
  obtain ⟨s, hstart, hrun⟩ := Option.bind_eq_some_iff.mp h
  exact Transition.System.run_reachable (.init ⟨_, ⟨now, s, hstart, rfl⟩, rfl⟩)
    (fun _ _ _ => trivial) hrun

end Dispatch

namespace Sample

def readyToRead : EventFlags := ⟨false, true, false, false⟩

/-- Two clients connect, and the reactor waits again. -/
def twoAccepted : List DispatchAction :=
  [.loop .check, .wait [⟨.listener, readyToRead⟩], .take, .accept 5 true, .accept 6 true, .advance,
    .advance, .loop .advance, .loop .drainRejected, .loop .advance, .loop .check]

/-- The first client has sent its AUTH frame and the beginning of another one,
and `handleRead` has returned. -/
def readDone : Dispatch :=
  (Dispatch.after library {} 5000 0 (twoAccepted ++ [.wait [⟨.client 5, readyToRead⟩], .take,
    .recv (.data (login ++ [0, 0])) [], .enqueueNext true, .enqueueNext true,
    .enqueueNext true, .recv .again [], .enqueueNext true])).get (by decide +kernel)

theorem readDone_reachable : Transition.Reachable (eventLoop library {} 5000) readDone :=
  Dispatch.after_reachable (Option.some_get _).symm

def readConnection : Connection := (readDone.server.connections.lookup 5).get (by decide +kernel)

def readTrace : ReadTrace := ⟨[], login ++ [0, 0], some .again⟩

/-- In a batch with an event of the first client the second one is closed after
an error, and a third one is accepted on its descriptor. -/
def recycled : Dispatch :=
  (Dispatch.after library {} 5000 0 (twoAccepted ++
    [.wait [⟨.client 6, ⟨true, false, false, false⟩⟩, ⟨.listener, readyToRead⟩,
      ⟨.client 5, readyToRead⟩], .take, .take, .accept 6 true])).get
      (by decide +kernel)

theorem recycled_reachable : Transition.Reachable (eventLoop library {} 5000) recycled :=
  Dispatch.after_reachable (Option.some_get _).symm

end Sample

theorem Dispatch.readiness_exhausted_readDone :
    Sample.readDone.point = .readReturned 5 Sample.readyToRead Sample.readTrace ∧
      (Sample.readConnection.closing = true ∨ Sample.readConnection.readEof = true ∨
        Sample.readTrace.last = some .again ∧
          inputBytes Sample.readDone.server 5 Sample.readConnection =
            Sample.readTrace.start ++ Sample.readTrace.received ∧
          ProtocolCodec.PartialFrame Sample.readConnection.inputBuffer) :=
  have hpoint : Sample.readDone.point = .readReturned 5 Sample.readyToRead Sample.readTrace := by
    decide +kernel
  ⟨hpoint, (Dispatch.readiness_exhausted Sample.readDone_reachable).1 5 _ _ hpoint
    (by decide +kernel) _ (Option.some_get _).symm⟩

theorem Dispatch.batch_isolation_recycled :
    (Sample.recycled.server.connections.lookup 6).map Connection.connId ≠
        (Sample.recycled.returned 6).map Connection.connId ∧
      ∃ c, Sample.recycled.returned 5 = some c ∧
        Sample.recycled.server.connections.lookup 5 = some c :=
  ⟨by decide +kernel, (Dispatch.batch_isolation Sample.recycled_reachable).1 5 Sample.readyToRead
    (by decide +kernel)⟩

end GatewaySystem
