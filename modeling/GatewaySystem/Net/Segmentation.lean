import GatewaySystem.Net.Buffers
import GatewaySystem.Net.Lifecycle
import GatewaySystem.Net.Producers
import GatewaySystem.Protocol.Reading

/-!
# Segmentation of the input

`Receives` is a part of a run in which one authenticated connection receives a
stream in given pieces. Between its reads anything may happen: the reactor
reads, writes and accepts for others, drains responses and rejections, sends
what waits for the connection itself, and the workers and the clock go on. Only
the connection is left to its input: no other step closes it.

For that connection the reactor is a `Reading`: what its reads queue and
whether they close it is what `Reading.feedAll` says. So the requests that are
queued do not depend on the pieces if the stream `Loses` nothing, and they do
depend on them if it does and there is room for all of its requests.
-/

namespace GatewaySystem

/-- The action is no `recv` of the descriptor, or one that finds nothing. -/
def Action.Idle (fd : Fd) : Action → Prop
  | .reactor (.read own outcome _) => own = fd → outcome = .again ∨ outcome = .interrupted
  | _ => True

instance (fd : Fd) : DecidablePred (Action.Idle fd)
  | .reactor (.read own outcome _) =>
      inferInstanceAs (Decidable (own = fd → outcome = .again ∨ outcome = .interrupted))
  | .reactor (.accept ..) | .reactor (.enqueueNext _) | .reactor (.hangUp ..)
  | .reactor (.write ..) | .reactor (.socketError _) | .reactor (.drainResponse _)
  | .reactor .drainRejected | .reactor .beginDraining | .reactor (.beginDrainingNext _)
  | .reactor .drainComplete | .reactor .deadline | .reactor .stopQueues | .reactor .closeAll
  | .worker .. | .authWorker .. | .pullConfig _ | .tick _ => isTrue trivial

namespace Server

open ProtocolCodec Reading

variable {library : Json.Library} {args : StartArgs} {s t u : Server} {fd : Fd} {c : Connection}
  {key : ConnectionKey} {config : RuntimeConfig} {request : Request}

/-- The requests of a connection in the order of their admission. -/
def admittedOf (s : Server) (key : ConnectionKey) : List Request :=
  (s.log.filterMap (Event.admittedBy key)).reverse

/-- The reading of a connection under the current configuration. -/
def reading (s : Server) (c : Connection) : Reading where
  fd := c.fd
  connId := c.connId
  bodyLimit := toUInt32 s.runtimeConfig.maxPayloadSize

/-- The answers the reactor still has to give in `decodeAndEnqueue`. -/
def due (s : Server) : List Response :=
  match s.point with
  | .enqueue frame => frame.responses
  | _ => []

/-- No request of the connection was refused because of the rate limit or
because `request_queue_` was exhausted: no such answer is due. -/
def Unrefused (key : ConnectionKey) (s : Server) : Prop :=
  ∀ response ∈ s.due, response.key = key →
    response.statusCode ≠ 429 ∧ response.statusCode ≠ 503

instance (key : ConnectionKey) (s : Server) : Decidable (s.Unrefused key) :=
  inferInstanceAs (Decidable (∀ response ∈ s.due, _))

/-- A step leaves a connection to its input: it does not close the connection,
as a slow client or for another reason, it refuses none of its requests, and
the configuration stays. -/
@[mk_iff] structure LeftToInput (key : ConnectionKey) (s t : Server) : Prop where
  before : (s.live? key).isSome = true
  after : (t.live? key).isSome = true
  runtimeConfig : t.runtimeConfig = s.runtimeConfig
  unrefused : t.Unrefused key

instance (key : ConnectionKey) (s t : Server) : Decidable (LeftToInput key s t) :=
  decidable_of_iff' _ (leftToInput_iff key s t)

/-- From one state to another a connection receives a stream in the given
pieces, or as many of them as arrive before one of them closes it. In between
there are other steps of any thread. -/
inductive Receives (library : Json.Library) (key : ConnectionKey) :
    Server → List Bytes → Server → Prop
  | finish {s : Server} (h : s.point = .boundary) : Receives library key s [] s
  | closed {s : Server} (h : s.point = .boundary) (hclosed : s.live? key = none)
      (pieces : List Bytes) : Receives library key s pieces s
  | recv {s t u : Server} {piece : Bytes} {pieces : List Bytes} {ticks : List ℕ}
      (h : step library s (.reactor (.read key.fd (.data piece) ticks)) = some t)
      (hallowed : t.Unrefused key) (hrest : Receives library key t pieces u) :
      Receives library key s (piece :: pieces) u
  | other {s t u : Server} {pieces : List Bytes} {action : Action}
      (h : step library s action = some t) (hidle : action.Idle key.fd)
      (hleft : LeftToInput key s t) (hrest : Receives library key t pieces u) :
      Receives library key s pieces u

/-- In which pieces a stream arrives makes no difference to what is queued for
the connection and to whether it is closed. -/
def Unobservable (library : Json.Library) (s : Server) (key : ConnectionKey) (stream : Bytes) :
    Prop :=
  ∀ pieces pieces' u u', Cut recvBufferSize stream pieces → Cut recvBufferSize stream pieces' →
    Receives library key s pieces u → Receives library key s pieces' u' →
      u.admittedOf key = u'.admittedOf key ∧ (u.live? key = none ↔ u'.live? key = none)

/-! ## What is admitted -/

/-- Events that admit nothing. -/
theorem admittedOf_append {events : List Event} (hlog : t.log = events ++ s.log)
    (hevents : ∀ event ∈ events, event.admittedBy key = none) :
    t.admittedOf key = s.admittedOf key := by
  have hnone : events.filterMap (Event.admittedBy key) = [] :=
    List.filterMap_eq_nil_iff.mpr hevents
  rw [admittedOf, admittedOf, hlog, List.filterMap_append, hnone, List.nil_append]

/-- Code that does not touch the queues admits nothing. -/
theorem Affects.admittedOf {answers : Prop} (h : Affects False answers s t)
    (key : ConnectionKey) : t.admittedOf key = s.admittedOf key := by
  induction h with
  | refl => rfl
  | tail _ heffect ih =>
      obtain ⟨-, events, hlog, hevents⟩ := heffect.events
      refine (admittedOf_append hlog fun event hevent => ?_).trans ih
      have hpermitted := hevents event hevent
      cases event with
      | admitted => exact hpermitted.elim
      | _ => rfl

/-- The reactor admits requests only in the second half of
`decodeAndEnqueue`. -/
theorem reactorStep_admittedOf {action : ReactorAction} (h : s.reactorStep action = some t)
    (hnext : ∀ ctl, action ≠ .enqueueNext ctl) (key : ConnectionKey) :
    t.admittedOf key = s.admittedOf key := by
  cases reactorStep_move h with
  | accept => exact (handleAccept_affects .. : Affects False True s _).admittedOf key
  | read => exact (handleRead_affects .. : Affects False True s _).admittedOf key
  | enqueueNext _ ctl => exact absurd rfl (hnext ctl)
  | hangUp => exact (markReadEof_affects .. : Affects False True s _).admittedOf key
  | write => exact (handleWrite_affects .. : Affects False True s _).admittedOf key
  | socketError => exact (closeConnection_affects .. : Affects False True s _).admittedOf key
  | drainResponse => exact (applyResponse_affects .. : Affects False True _ _).admittedOf key
  | drainRejected =>
      exact (foldl_affects closeRejected_affects _ _ : Affects False True _ _).admittedOf key
  | beginDrainingNext phase =>
      cases phase with
      | stopRequests | stopAuth => rfl
      | modifyEvents =>
          exact (foldl_affects (fun s entry => modifyConnectionEvents_affects s _ _ _) _ _ :
            Affects False True _ _).admittedOf key
  | drainComplete =>
      have hclosed := (drainComplete_affects s : Affects False True s _).admittedOf key
      split <;> exact hclosed
  | beginDraining | deadline | stopQueues => rfl
  | closeAll => exact (closeAll_affects s : Affects False True s _).admittedOf key

theorem Untouched.admittedOf (h : Untouched s t) (key : ConnectionKey) :
    t.admittedOf key = s.admittedOf key := by
  rcases h.log with hlog | ⟨request, response, result, hlog⟩
  · rw [Server.admittedOf, Server.admittedOf, hlog]
  · exact admittedOf_append (hlog.trans List.singleton_append.symm) (by simp [Event.admittedBy])

/-- The requests of a connection that `decodeAndEnqueue` has not yet offered to
the queue. -/
def queuedOf (s : Server) (key : ConnectionKey) : List Request :=
  match s.point with
  | .enqueue frame => frame.requests.filter fun request => request.key = key
  | _ => []

theorem queuedOf_enqueue {frame : Enqueue} (h : s.point = .enqueue frame) :
    s.queuedOf key = frame.requests.filter fun request => request.key = key := by
  rw [queuedOf, h]

theorem queuedOf_congr (h : ∀ frame, t.point = .enqueue frame ↔ s.point = .enqueue frame) :
    t.queuedOf key = s.queuedOf key := by
  unfold queuedOf
  split
  · next frame hframe => rw [(h frame).mp hframe]
  · next hnone =>
      split
      · next frame hframe => exact absurd ((h frame).mpr hframe) (hnone frame)
      · rfl

/-- These requests of a connection are admitted when the activation of
`decodeAndEnqueue` is finished, and no AUTH task is. -/
structure Admits (key : ConnectionKey) (s : Server) (admitted : List Request) : Prop where
  tasks : ∀ frame, s.point = .enqueue frame → ∀ task ∈ frame.tasks, task.key ≠ key
  requests : s.admittedOf key ++ s.queuedOf key = admitted

theorem Admits.of_enqueue {frame : Enqueue} {admitted : List Request}
    (hpoint : s.point = .enqueue frame) (htasks : ∀ task ∈ frame.tasks, task.key ≠ key)
    (h : (s.admittedOf key ++ frame.requests.filter fun request => request.key = key) = admitted) :
    Admits key s admitted where
  tasks frame' hpoint' := by
    obtain rfl := ReactorPoint.enqueue.inj (hpoint.symm.trans hpoint')
    exact htasks
  requests := by
    rw [queuedOf_enqueue hpoint]
    exact h

theorem Admits.of_boundary (hpoint : s.point = .boundary) : Admits key s (s.admittedOf key) where
  tasks frame hframe := by cases hpoint.symm.trans hframe
  requests := by rw [queuedOf, hpoint, List.append_nil]

/-- A step that admits nothing and keeps the activation. -/
theorem Admits.kept {admitted : List Request} (h : Admits key s admitted)
    (hpoint : ∀ frame, t.point = .enqueue frame ↔ s.point = .enqueue frame)
    (hadmitted : t.admittedOf key = s.admittedOf key) : Admits key t admitted where
  tasks frame hframe := h.tasks frame ((hpoint frame).mp hframe)
  requests := by
    rw [hadmitted, queuedOf_congr hpoint]
    exact h.requests

/-- Apart from reads and the rest of `decodeAndEnqueue`, the reactor does not
touch its activation. -/
theorem reactorStep_point (hreach : Transition.Reachable (gateway library args) s)
    {action : ReactorAction} (h : s.reactorStep action = some t) (hreads : ¬ action.Reads)
    (hnext : ∀ ctl, action ≠ .enqueueNext ctl) (frame : Enqueue) :
    t.point = .enqueue frame ↔ s.point = .enqueue frame := by
  have hback : t.point = .enqueue frame → s.point = .enqueue frame := by
    intro hpoint
    rcases enqueue_origin (fun hboundary _ => admissible hreach hboundary) h hpoint with
      hold | ⟨fd, outcome, ticks, rfl⟩ | ⟨ctl, rfl⟩
    · exact hold
    · exact absurd trivial hreads
    · exact absurd rfl (hnext ctl)
  refine ⟨hback, fun hpoint => ?_⟩
  have hbusy : s.atBoundary = false := by
    unfold atBoundary
    rw [hpoint]
    cases s.state <;> rfl
  cases reactorStep_move h with
  | enqueueNext _ ctl => exact absurd rfl (hnext ctl)
  | beginDrainingNext _ _ hdraining => cases hpoint.symm.trans hdraining
  | stopQueues => exact hpoint
  | closeAll =>
      exact (foldl_point (fun s fd => (closeConnection_touches s fd).point) _ s).trans hpoint
  | accept _ _ hboundary | read _ _ _ hboundary | hangUp _ _ hboundary | write _ _ _ hboundary
  | socketError _ hboundary | drainResponse _ _ _ hboundary | drainRejected hboundary
  | beginDraining hboundary | drainComplete hboundary | deadline hboundary =>
      cases hbusy.symm.trans hboundary

/-! ## A read of the connection -/

/-- The rate limit lets that many more requests of the client pass. -/
structure RateRoom (s : Server) (clientId : Bytes) (config : RuntimeConfig) (count : ℕ) : Prop where
  window : ∀ window, s.rateLimitWindows.lookup clientId = some window →
    window.count + count ≤ config.maxRequestsPerClientPerSecond
  rate : (count : ℤ) ≤ config.maxRequestsPerClientPerSecond

theorem allowRequestForClient_room {clientId : Bytes} {count : ℕ}
    (h : RateRoom s clientId config (count + 1)) (tick : ℕ) :
    (s.allowRequestForClient clientId config tick).1 = true ∧
      RateRoom (s.allowRequestForClient clientId config tick).2 clientId config count := by
  have hrate := h.rate
  have hwindow : (s.currentWindow clientId (s.now + tick)).count + (count + 1) ≤
      config.maxRequestsPerClientPerSecond := by
    unfold currentWindow
    cases hlookup : s.rateLimitWindows.lookup clientId with
    | none => simpa using hrate
    | some window =>
        have hold := h.window window hlookup
        simp only [Option.getD_some]
        split
        · simpa using hrate
        · simpa using hold
  unfold allowRequestForClient
  simp only
  rw [if_neg (by omega)]
  refine ⟨rfl, fun window hlookup => ?_, by omega⟩
  obtain rfl : { s.currentWindow clientId (s.now + tick) with
      count := (s.currentWindow clientId (s.now + tick)).count + 1 } = window := by
    simpa [emit] using hlookup
  simp only
  omega

/-- What a read makes of the frames of an authenticated connection, if none of
them is refused because of the rate limit; with room for all of them none is. -/
structure Sorted (config : RuntimeConfig) (key : ConnectionKey) (intake intake' : Intake)
    (requests : List Request) : Prop where
  current : intake'.current = intake.current
  tasks : intake'.tasks = intake.tasks
  closeNow : intake'.closeNow = intake.closeNow
  allowed : (∀ response ∈ intake'.responses, response.key = key → response.statusCode ≠ 429) →
    intake'.requests = intake.requests ++ business requests
  responses : ∀ response ∈ intake.responses, response ∈ intake'.responses
  room : ∀ count, (∀ request ∈ requests, request.type ≠ .auth) →
    RateRoom intake.server intake.current.clientId config (requests.length + count) →
      intake'.responses = intake.responses ∧
        RateRoom intake'.server intake.current.clientId config count

theorem Sorted.append {intake intake' intake'' : Intake} {requests requests' : List Request}
    (h : Sorted config key intake intake' requests)
    (h' : Sorted config key intake' intake'' requests') :
    Sorted config key intake intake'' (requests ++ requests') where
  current := h'.current.trans h.current
  tasks := h'.tasks.trans h.tasks
  closeNow := h'.closeNow.trans h.closeNow
  allowed hstatus := by
    have hfirst := h.allowed fun response hresponse =>
      hstatus response (h'.responses response hresponse)
    rw [h'.allowed hstatus, hfirst, business_append, List.append_assoc]
  responses response hresponse := h'.responses response (h.responses response hresponse)
  room count htypes hroom := by
    rw [List.length_append, Nat.add_assoc] at hroom
    obtain ⟨hfirst, hroom⟩ :=
      h.room _ (fun own hown => htypes own (List.mem_append_left _ hown)) hroom
    rw [← h.current] at hroom ⊢
    obtain ⟨hlast, hroom⟩ :=
      h'.room count (fun own hown => htypes own (List.mem_append_right _ hown)) hroom
    exact ⟨hlast.trans hfirst, hroom⟩

theorem intakeBusiness_sorted (config : RuntimeConfig) (intake : Intake) (hkey : request.key = key)
    (tick : ℕ) :
    Sorted config key intake (intakeBusiness config intake request tick) [request] := by
  have hallowed : ∀ count, RateRoom intake.server intake.current.clientId config
      ([request].length + count) → _ := fun count hroom =>
    allowRequestForClient_room (Nat.add_comm 1 count ▸ hroom) tick
  unfold intakeBusiness
  simp only
  split
  · next hauth =>
      exact ⟨rfl, rfl, rfl, fun _ => by simp [business, hauth],
        fun response hresponse => List.mem_append_left _ hresponse,
        fun _ htypes => absurd hauth (htypes request List.mem_cons_self)⟩
  · next hbusiness =>
      split
      · exact ⟨rfl, rfl, rfl, fun _ => by simp [business, hbusiness], fun _ => id,
          fun count _ hroom => ⟨rfl, (hallowed count hroom).2⟩⟩
      · next hdenied =>
          refine ⟨rfl, rfl, rfl, fun hstatus => ?_,
            fun response hresponse => List.mem_append_left _ hresponse,
            fun count _ hroom => absurd (hallowed count hroom).1 hdenied⟩
          exact absurd rfl (hstatus (rateLimited request) (by simp) hkey)

theorem intakeFrames_sorted {intake : Intake} {requests : List Request}
    (hauth : intake.current.authenticated = true) (hkey : ∀ request ∈ requests, request.key = key)
    (hsize : ∀ request ∈ requests, request.payload.length + 10 ≤ toSize config.maxPayloadSize)
    (ticks : List ℕ) :
    Sorted config key intake (intakeFrames config intake requests ticks) requests := by
  induction requests generalizing intake ticks with
  | nil =>
      exact ⟨rfl, rfl, rfl, fun _ => by simp [intakeFrames, business], fun _ => id,
        fun count _ hroom => ⟨rfl, Nat.zero_add count ▸ hroom⟩⟩
  | cons request requests ih =>
      have hfirst :=
        intakeBusiness_sorted config intake (hkey request List.mem_cons_self) (ticks.headD 0)
      have hlength := hsize request List.mem_cons_self
      rw [intakeFrames, if_neg (by omega), if_pos hauth]
      exact hfirst.append (ih (hfirst.current ▸ hauth)
        (fun own hown => hkey own (List.mem_cons_of_mem request hown))
        (fun own hown => hsize own (List.mem_cons_of_mem request hown)) ticks.tail)

/-- The connection of a reading, with its input. -/
structure Serves (reading : Reading) (s : Server) (c : Connection) (buffer : Bytes) : Prop where
  bodyLimit : toUInt32 s.runtimeConfig.maxPayloadSize = reading.bodyLimit
  lookup : s.connections.lookup reading.fd = some c
  fd : c.fd = reading.fd
  connId : c.connId = reading.connId
  authenticated : c.authenticated = true
  buffer : c.inputBuffer = buffer

variable {reading : Reading} {buffer piece : Bytes} {admitted : List Request} {pieces : List Bytes}
  {ticks : List ℕ} {outcome : RecvOutcome}

/-- `recv` appends to the input. -/
theorem Serves.receive (h : Serves reading s c buffer) (piece : Bytes) :
    Serves reading (s.setConnection reading.fd { c with inputBuffer := c.inputBuffer ++ piece })
      { c with inputBuffer := c.inputBuffer ++ piece } (buffer ++ piece) :=
  ⟨h.bodyLimit, AList.lookup_insert _, h.fd, h.connId, h.authenticated, by rw [← h.buffer]⟩

theorem Serves.of_tables (h : Serves reading s c buffer)
    (hconnections : t.connections = s.connections)
    (hconfig : t.runtimeConfig = s.runtimeConfig) : Serves reading t c buffer where
  __ := h
  bodyLimit := hconfig ▸ h.bodyLimit
  lookup := hconnections ▸ h.lookup

theorem Serves.live (h : Serves reading s c buffer) : s.live? reading.key = some c :=
  live?_eq_some.mpr ⟨h.lookup, h.connId⟩

/-- A frame of the reading is for its connection and within the second test of
the size. -/
theorem Serves.decode (h : Serves reading s c buffer)
    (hrequest : request ∈ (reading.decode buffer).2.1) :
    request.key = reading.key ∧
      request.payload.length + 10 ≤ toSize s.runtimeConfig.maxPayloadSize := by
  have hpayload : request.payload.length + 10 ≤ reading.bodyLimit := decodeAll_payload hrequest
  have hle := toUInt32_le_toSize s.runtimeConfig.maxPayloadSize
  have hlimit := h.bodyLimit
  exact ⟨decodeAll_key hrequest, by omega⟩

/-- What `decodeAndEnqueue` leaves of the connection of a reading that it does
not close. -/
structure Decodes (reading : Reading) (c : Connection) (buffer : Bytes) (s t : Server)
    (frame : Enqueue) : Prop where
  point : t.point = .enqueue frame
  lookup : t.connections.lookup reading.fd =
    some { c with inputBuffer := (reading.decode buffer).2.2 }
  rest : frame = { fd := reading.fd, requests := frame.requests, responses := frame.responses }
  requests : (∀ response ∈ frame.responses,
      response.key = reading.key → response.statusCode ≠ 429) →
    frame.requests = business (reading.decode buffer).2.1
  room : ∀ count, (∀ request ∈ (reading.decode buffer).2.1, request.type ≠ .auth) →
    RateRoom s c.clientId s.runtimeConfig ((reading.decode buffer).2.1.length + count) →
      frame.responses = [] ∧ RateRoom t c.clientId s.runtimeConfig count

/-- `decodeAndEnqueue` on the connection of a reading. -/
theorem Serves.decodeAndEnqueue (h : Serves reading s c buffer) (heof : c.readEof = false)
    (ticks : List ℕ) :
    if (reading.decode buffer).1 = .invalidLength then
      (s.decodeAndEnqueue reading.fd false ticks).point = s.point ∧
        (s.decodeAndEnqueue reading.fd false ticks).connections.lookup reading.fd = none
    else ∃ frame, Decodes reading c buffer s (s.decodeAndEnqueue reading.fd false ticks) frame := by
  have hdecode : ProtocolCodec.decode c.inputBuffer c.fd c.connId
      (toUInt32 s.runtimeConfig.maxPayloadSize) =
        if (reading.decode buffer).1 = .invalidLength then
          (.invalidLength, (reading.decode buffer).2.1, buffer)
        else reading.decode buffer := by
    rw [h.bodyLimit, h.fd, h.connId, h.buffer]
    exact decode_eq _
  have hloop : ∀ input closeNow, ∃ intake,
      intakeFrames s.runtimeConfig (Intake.start s reading.fd c (reading.decode buffer).2.1 input
        closeNow) (reading.decode buffer).2.1 ticks = intake ∧ intake.server.point = s.point ∧
      Sorted s.runtimeConfig reading.key (Intake.start s reading.fd c (reading.decode buffer).2.1
        input closeNow) intake (reading.decode buffer).2.1 := by
    intro input closeNow
    refine ⟨_, rfl, ?_, intakeFrames_sorted h.authenticated
      (fun request hrequest => (h.decode hrequest).1)
      (fun request hrequest => (h.decode hrequest).2) ticks⟩
    refine Touches.point (s := Intake.server _)
      (intakeFrames_touches (c := c) ?_ h.lookup ?_ ?_ _ _) <;> rfl
  unfold Server.decodeAndEnqueue
  rw [h.lookup]
  simp only [heof, Bool.or_false, keptInput, Bool.false_and, Bool.false_eq_true, if_false]
  split
  · next hillegal =>
      obtain ⟨intake, hintake, hstay, hsorted⟩ := hloop buffer true
      rw [if_pos hillegal] at hdecode
      have hclose : intake.closeNow = true := hsorted.closeNow
      simp only [hdecode, decide_true, hintake, hclose, if_true]
      exact ⟨(closeConnection_touches _ _).point.trans hstay, closeConnection_lookup_self ..⟩
  · next hlegal =>
      obtain ⟨intake, hintake, hstay, hsorted⟩ := hloop (reading.decode buffer).2.2 false
      rw [if_neg hlegal] at hdecode
      have hopen : intake.closeNow = false := hsorted.closeNow
      have htasks : intake.tasks = [] := hsorted.tasks
      simp only [hdecode, hlegal, decide_false, hintake, hopen, Bool.false_eq_true, if_false]
      refine ⟨_, rfl, ?_, by simp [htasks], hsorted.allowed, fun count htypes hroom => ?_⟩
      · exact (AList.lookup_insert _).trans (congrArg some hsorted.current)
      · obtain ⟨hresponses, hrate⟩ := hsorted.room count htypes ⟨hroom.window, hroom.rate⟩
        exact ⟨hresponses, hrate.window, hrate.rate⟩

/-- What a reading has of its connection: these requests are queued when the
current read is finished, and this is the input that is left, if the connection
is open. -/
def Tracks (reading : Reading) (s : Server) (admitted : List Request) : Option Bytes → Prop
  | none => s.point = .boundary ∧ s.connections.lookup reading.fd = none ∧
      s.admittedOf reading.key = admitted
  | some buffer => (∃ c, Serves reading s c buffer) ∧ Admits reading.key s admitted

/-- `decodeAndEnqueue` is one piece of the reading. -/
theorem Serves.feed (h : Serves reading s c (buffer ++ piece)) (heof : c.readEof = false)
    (hpoint : s.point = .boundary)
    (hallowed : (s.decodeAndEnqueue reading.fd false ticks).Unrefused reading.key) :
    Tracks reading (s.decodeAndEnqueue reading.fd false ticks)
      (s.admittedOf reading.key ++ (reading.feed buffer piece).1)
      (reading.feed buffer piece).2 := by
  have haffects : Affects False True s (s.decodeAndEnqueue reading.fd false ticks) :=
    decodeAndEnqueue_affects ..
  have hadmitted := haffects.admittedOf reading.key
  have hdecode := h.decodeAndEnqueue heof ticks
  split at hdecode
  · next hillegal =>
      rw [feed_illegal hillegal, List.append_nil]
      exact ⟨hdecode.1.trans hpoint, hdecode.2, hadmitted⟩
  · next hlegal =>
      obtain ⟨frame, hframe⟩ := hdecode
      have hrequests := hframe.requests fun response hresponse hkey =>
        (hallowed response (by rwa [due, hframe.point]) hkey).1
      have hown : (frame.requests.filter fun request => request.key = reading.key) =
          frame.requests := by
        refine List.filter_eq_self.mpr fun request hrequest => decide_eq_true ?_
        rw [hrequests] at hrequest
        exact (h.decode (List.mem_filter.mp hrequest).1).1
      rw [feed_open hlegal]
      refine ⟨⟨_, haffects.config ▸ h.bodyLimit, hframe.lookup, h.fd, h.connId, h.authenticated,
        rfl⟩, .of_enqueue hframe.point (by rw [hframe.rest]; simp) ?_⟩
      rw [hadmitted, hown, hrequests]

/-- A read of the connection that brings data or finds nothing. -/
theorem Tracks.read (h : Tracks reading s admitted (some buffer))
    (houtcome : outcome = .data piece ∨ outcome = .again ∧ piece = [])
    (hread : s.reactorStep (.read reading.fd outcome ticks) = some t)
    (hallowed : t.Unrefused reading.key) :
    Tracks reading t (admitted ++ (reading.feed buffer piece).1) (reading.feed buffer piece).2 := by
  obtain ⟨⟨c, hserves⟩, hadmits⟩ := h
  cases reactorStep_move hread with
  | read _ _ _ hboundary hreadable =>
      have hpoint := boundary_of_atBoundary hboundary
      have heof := readable_eof hreadable hserves.lookup
      obtain rfl : s.admittedOf reading.key = admitted :=
        (Admits.of_boundary hpoint).requests.symm.trans hadmits.requests
      unfold handleRead at hallowed ⊢
      rw [hserves.lookup] at hallowed ⊢
      obtain rfl | ⟨rfl, rfl⟩ := houtcome
      · exact (hserves.receive piece).feed heof hpoint hallowed
      · rw [← List.append_nil buffer] at hserves
        exact hserves.feed heof hpoint hallowed

/-! ## The steps in between -/

/-- The connection is the same after a step that leaves it to its input, and
without a read its input is the same as well. -/
theorem Serves.follow (hreach : Transition.Reachable (gateway library args) s)
    (h : Serves reading s c buffer) {action : Action} (hstep : step library s action = some t)
    (hleft : LeftToInput reading.key s t)
    (hreads : action.Reads → t.connections.lookup reading.fd = s.connections.lookup reading.fd) :
    ∃ c', Serves reading t c' buffer := by
  have hlimit := hleft.runtimeConfig.symm ▸ h.bodyLimit
  by_cases hread : action.Reads
  · exact ⟨c, hlimit, (hreads hread).trans h.lookup, h.fd, h.connId, h.authenticated, h.buffer⟩
  · obtain ⟨c', hc'⟩ := Option.isSome_iff_exists.mp hleft.after
    obtain ⟨hlookup, hconnId⟩ := live?_eq_some.mp hc'
    have hold := (ledger_sound hreach).identified
    rcases (step_evolves hreach hstep).connection reading.fd c' hlookup with
      ⟨hnew, -⟩ | ⟨old, hsome, hfollows⟩
    · have hfresh := hold.fresh _ (hold.accepted reading.fd c h.lookup)
      have hsame : c'.connId = c.connId := hconnId.trans h.connId.symm
      exact absurd (hnew.trans_lt (hsame ▸ hfresh)) (Nat.lt_irrefl _)
    · obtain rfl := Option.some.inj (h.lookup.symm.trans hsome)
      have hinput := hfollows.input.resolve_right fun hreads => hread hreads.1
      have hclient := hfollows.client.resolve_right fun hfresh => by
        cases h.authenticated.symm.trans hfresh
      exact ⟨c', hlimit, hlookup, hfollows.fd.trans h.fd, hconnId,
        hclient.1.trans h.authenticated, hinput.trans h.buffer⟩

theorem admittedOf_emit (s : Server) (request : Request) (key : ConnectionKey) :
    (s.emit (.admitted request)).admittedOf key =
      s.admittedOf key ++ [request].filter fun request => request.key = key := by
  by_cases hkey : request.key = key <;> simp [admittedOf, emit, Event.admittedBy, hkey]

theorem filter_other (h : request.key ≠ key) :
    ([request].filter fun request => request.key = key) = [] := by
  simp [h]

theorem Admits.enqueueTask (h : Admits key s admitted) {frame : Enqueue} {task : AuthTask}
    {tasks : List AuthTask} (hpoint : s.point = .enqueue frame)
    (hcons : frame.tasks = task :: tasks) :
    Admits key (s.enqueueTask { frame with tasks := tasks } task) admitted := by
  have htasks := h.tasks frame hpoint
  have hrequests := h.requests
  rw [queuedOf_enqueue hpoint] at hrequests
  rw [hcons] at htasks
  have hother : task.request.key ≠ key := htasks task List.mem_cons_self
  have hrest : ∀ own ∈ tasks, own.key ≠ key := fun own hown =>
    htasks own (List.mem_cons_of_mem task hown)
  unfold Server.enqueueTask
  simp only
  split
  · refine .of_enqueue rfl hrest ?_
    rw [admittedOf_emit, filter_other hother, List.append_nil]
    exact hrequests
  · exact .of_enqueue rfl hrest hrequests

theorem Admits.enqueueRequest (h : Admits key s admitted) {frame : Enqueue}
    {requests : List Request} (hpoint : s.point = .enqueue frame)
    (hcons : frame.requests = request :: requests)
    (hallowed : (s.enqueueRequest { frame with requests := requests } request).Unrefused key) :
    Admits key (s.enqueueRequest { frame with requests := requests } request) admitted := by
  have htasks := h.tasks frame hpoint
  have hrequests := h.requests
  have hsplit : frame.requests.filter (fun request => request.key = key) =
      ([request].filter fun request => request.key = key) ++
        requests.filter fun request => request.key = key := by
    rw [hcons, ← List.filter_append, List.singleton_append]
  rw [queuedOf_enqueue hpoint, hsplit, ← List.append_assoc] at hrequests
  unfold Server.enqueueRequest at hallowed ⊢
  simp only at hallowed ⊢
  split
  · refine .of_enqueue rfl htasks ?_
    rw [admittedOf_emit]
    exact hrequests
  · next hrefused =>
      -- the request is another connection's, or its refusal is due
      rw [if_neg hrefused] at hallowed
      have hother : request.key ≠ key := fun hkey =>
        (hallowed (makeOverloadResponse request false) (by simp [due]) hkey).2 rfl
      rw [filter_other hother, List.append_nil] at hrequests
      exact .of_enqueue rfl htasks hrequests

/-- The next access of `decodeAndEnqueue`, to a queue or to a connection. -/
theorem Admits.enqueueNext (h : Admits key s admitted) {frame : Enqueue}
    (hpoint : s.point = .enqueue frame) (howned : frame.Owned) {ctl : Bool}
    (hallowed : (s.enqueueNext frame ctl).Unrefused key) :
    Admits key (s.enqueueNext frame ctl) admitted := by
  have htasks := h.tasks frame hpoint
  have hrequests := h.requests
  rw [queuedOf_enqueue hpoint] at hrequests
  unfold Server.enqueueNext at hallowed ⊢
  split at hallowed
  · next own _ =>
      have haffects : Affects False True s (s.countAdmitted frame own) := countAdmitted_affects ..
      exact .of_enqueue (countAdmitted_touches s frame own).point htasks
        (haffects.admittedOf key ▸ hrequests)
  · next hcons => exact h.enqueueTask hpoint hcons
  · next hcons => exact h.enqueueRequest hpoint hcons hallowed
  · next response responses _ _ _ hcons =>
      obtain ⟨-, -, hclient⟩ := howned.responses_tail hcons
      have haffects := (applyResponse_affects
        { s with point := .enqueue { frame with responses := responses } } response .reactor ctl :
          Affects False True _ _).admittedOf key
      exact .of_enqueue (applyResponse_touches (admissible_of_none hclient) .reactor ctl).point
        htasks (haffects.trans rfl ▸ hrequests)
  · next _ hnoTasks hnoRequests _ =>
      rw [hnoRequests, List.filter_nil, List.append_nil] at hrequests
      rw [← hrequests]
      simp only
      split
      · have haffects := (markReadEof_affects { s with point := .boundary } frame.fd ctl :
          Affects False True _ _).admittedOf key
        have hboundary := (markReadEof_touches { s with point := .boundary } frame.fd ctl :
          Touches False _ _ _).point
        exact haffects ▸ .of_boundary hboundary
      · exact .of_boundary (s := { s with point := .boundary }) rfl

/-- A read of another descriptor begins an activation that is not about this
connection. -/
theorem Admits.readOther (hreach : Transition.Reachable (gateway library args) s)
    (h : Admits key s admitted) (hother : fd ≠ key.fd)
    (hread : s.reactorStep (.read fd outcome ticks) = some t) : Admits key t admitted := by
  have hsame := reactorStep_admittedOf hread (by simp) key
  cases reactorStep_move hread with
  | read _ _ _ hboundary =>
      have hpoint := boundary_of_atBoundary hboundary
      obtain rfl : s.admittedOf key = admitted :=
        (Admits.of_boundary hpoint).requests.symm.trans h.requests
      have howned : ∀ frame, (s.handleRead fd outcome ticks).point = .enqueue frame →
          frame.Owned ∧ frame.fd ≠ key.fd := by
        intro frame hframe
        obtain ⟨howned, hfd, -⟩ := handleRead_owned hpoint
          (fun c hc => (ledger_sound hreach).identified.fd fd c hc) hframe
        exact ⟨howned, hfd ▸ hother⟩
      refine ⟨fun frame hframe task htask hkey => ?_, ?_⟩
      · obtain ⟨howned, hne⟩ := howned frame hframe
        exact hne ((howned.tasks task htask).symm.trans (congrArg ConnectionKey.fd hkey))
      · have hnone : (s.handleRead fd outcome ticks).queuedOf key = [] := by
          unfold queuedOf
          split
          · next frame hframe =>
              obtain ⟨howned, hne⟩ := howned frame hframe
              refine List.filter_eq_nil_iff.mpr fun request hrequest hkey => hne ?_
              exact (howned.requests request hrequest).symm.trans
                (congrArg ConnectionKey.fd (of_decide_eq_true hkey))
          · rfl
        rw [hnone, List.append_nil, hsame]

/-- A `recv` of the connection that finds nothing leaves everything as it
is. -/
theorem Tracks.idle (hreach : Transition.Reachable (gateway library args) s)
    (h : Tracks reading s admitted (some buffer))
    (houtcome : outcome = .again ∨ outcome = .interrupted)
    (hread : s.reactorStep (.read reading.fd outcome ticks) = some t)
    (hleft : LeftToInput reading.key s t) : Tracks reading t admitted (some buffer) := by
  obtain ⟨c, hserves⟩ := h.1
  rcases houtcome with rfl | rfl
  · have hnone : (reading.decode buffer).2.1 = [] :=
      hserves.buffer ▸ (unfinished hreach hserves.lookup).no_frames
    have hnext := h.read (.inr ⟨rfl, rfl⟩) hread hleft.unrefused
    by_cases hillegal : (reading.decode (buffer ++ [])).1 = .invalidLength
    · rw [feed_illegal hillegal] at hnext
      obtain ⟨c', hc'⟩ := Option.isSome_iff_exists.mp hleft.after
      cases hnext.2.1.symm.trans (live?_eq_some.mp hc').1
    · rw [List.append_nil] at hillegal
      have hwaiting : reading.Waiting buffer := ⟨hillegal, hnone⟩
      rwa [hwaiting.feed_nil, List.append_nil] at hnext
  · cases reactorStep_move hread with
    | read =>
        have hsame : s.handleRead reading.fd .interrupted ticks = s := by
          unfold handleRead
          rw [hserves.lookup]
        rwa [hsame]

/-- The reading goes on where it was after a step that leaves the connection to
its input. -/
theorem Tracks.other (hreach : Transition.Reachable (gateway library args) s)
    (h : Tracks reading s admitted (some buffer)) {action : Action}
    (hstep : step library s action = some t) (hidle : action.Idle reading.fd)
    (hleft : LeftToInput reading.key s t) : Tracks reading t admitted (some buffer) := by
  obtain ⟨⟨c, hserves⟩, hadmits⟩ := h
  rcases step_untouched hstep with ⟨own, rfl, hown⟩ | huntouched
  · cases own with
    | read fd outcome ticks =>
        by_cases hfd : fd = reading.fd
        · subst hfd
          exact Tracks.idle hreach ⟨⟨c, hserves⟩, hadmits⟩ (hidle rfl) hown hleft
        · refine ⟨hserves.follow hreach hstep hleft fun _ => ?_,
            hadmits.readOther hreach hfd hown⟩
          cases reactorStep_move hown with
          | read _ _ _ _ hreadable =>
              exact (handleRead_touches (fun c hc => readable_eof hreadable hc) outcome
                ticks).elsewhere.lookup reading.fd (Ne.symm hfd)
    | enqueueNext ctl =>
        refine ⟨hserves.follow hreach hstep hleft fun hreads => hreads.elim, ?_⟩
        cases reactorStep_move hown with
        | enqueueNext frame _ hpoint =>
            exact hadmits.enqueueNext hpoint (owned hreach frame hpoint) hleft.unrefused
    | _ =>
        exact ⟨hserves.follow hreach hstep hleft fun hreads => hreads.elim,
          hadmits.kept (reactorStep_point hreach hown id (by simp))
            (reactorStep_admittedOf hown (by simp) _)⟩
  · exact ⟨hserves.follow hreach hstep hleft fun _ => by rw [huntouched.connections],
      hadmits.kept (fun frame => by rw [huntouched.point]) (huntouched.admittedOf _)⟩

/-- What a connection that receives a stream queues, and whether it is closed,
is what the reading says. -/
theorem Receives.feedAll {line : Option Bytes} (hreceives : Receives library reading.key s pieces u)
    (hreach : Transition.Reachable (gateway library args) s) (h : Tracks reading s admitted line) :
    u.admittedOf reading.key = admitted ++ (reading.feedAll line pieces).1 ∧
      (u.live? reading.key = none ↔ (reading.feedAll line pieces).2 = none) := by
  -- once the connection is closed there is no step any more
  have hclosed : ∀ {s : Server} {admitted : List Request}, Tracks reading s admitted none →
      s.live? reading.key = none := by
    intro s admitted h
    rw [live?, show s.connections.lookup reading.key.fd = none from h.2.1]
    rfl
  induction hreceives generalizing admitted line with
  | finish hpoint =>
      cases line with
      | none => exact ⟨by simp [h.2.2], by simp [hclosed h]⟩
      | some buffer =>
          obtain ⟨⟨c, hserves⟩, hadmits⟩ := h
          have hadmitted := (Admits.of_boundary hpoint).requests.symm.trans hadmits.requests
          simp [Reading.feedAll, hserves.live, hadmitted]
  | closed hpoint hgone pieces =>
      cases line with
      | none => exact ⟨by simp [h.2.2], by simp [hclosed h]⟩
      | some buffer =>
          obtain ⟨⟨c, hserves⟩, -⟩ := h
          cases hserves.live.symm.trans hgone
  | @recv s t _ piece _ ticks hstep hallowed _ ih =>
      have hread : s.reactorStep (.read reading.fd (.data piece) ticks) = some t := hstep
      cases line with
      | none =>
          cases reactorStep_move hread with
          | read _ _ _ _ hreadable =>
              simp [readable, h.2.1] at hreadable
      | some buffer =>
          have hnext : (gateway library args).step s
              (.reactor (.read reading.fd (.data piece) ticks)) = some t := hstep
          obtain ⟨hadmitted, hgone⟩ :=
            ih (.step hreach trivial hnext) (h.read (.inl rfl) hread hallowed)
          rw [feedAll_cons]
          exact ⟨hadmitted.trans (List.append_assoc _ _ _), hgone⟩
  | other hstep hidle hleft _ ih =>
      cases line with
      | none =>
          obtain ⟨c, hc⟩ := Option.isSome_iff_exists.mp hleft.before
          cases (hclosed h).symm.trans hc
      | some buffer =>
          exact ih (.step hreach trivial hstep) (h.other hreach hstep hidle hleft)

/-! ## With room for every request -/

/-- The connection may be read, the queue has room for what is pending and that
many more requests, and the rate limit lets the latter pass. -/
structure Supplied (reading : Reading) (clientId : Bytes) (buffer : Bytes) (pending count : ℕ)
    (s : Server) : Prop where
  running : s.state = .running
  connection : ∃ c, Serves reading s c buffer ∧ c.closing = false ∧ c.readEof = false ∧
    c.clientId = clientId
  queue : s.requestQueue.stopped = false ∧
    s.requestQueue.items.length + (pending + count) ≤ s.requestQueue.capacity
  rate : RateRoom s clientId s.runtimeConfig count

variable {clientId : Bytes} {pending pending' count count' : ℕ} {buffer' : Bytes}

theorem push_of_room {α : Type*} {queue : BlockQueue α} (hrunning : queue.stopped = false)
    (hroom : queue.items.length < queue.capacity) (item : α) : (queue.push item).1 = .ok := by
  simp [BlockQueue.push, hrunning, hroom]

theorem countAdmitted_live (h : s.live? key = some c) (frame : Enqueue) :
    s.countAdmitted frame key =
      { s with point := .enqueue { frame with admitted := none } }.setConnection key.fd
        { c with inFlightWork := c.inFlightWork + 1 } := by
  have hlive : { s with point := .enqueue { frame with admitted := none } }.live? key = some c := h
  unfold countAdmitted
  simp only
  rw [hlive]

/-- An activation without an answer refuses nothing. -/
theorem unrefused_of_due (h : s.due = []) : s.Unrefused key := by
  intro response hresponse
  rw [h] at hresponse
  cases hresponse

/-- The rest of `decodeAndEnqueue` without an answer. -/
theorem Supplied.other (h : Supplied reading clientId buffer pending count s)
    (hstep : step library s (.reactor (.enqueueNext true)) = some t)
    (h' : Supplied reading clientId buffer' pending' count' t)
    (hconfig : t.runtimeConfig = s.runtimeConfig) (hdue : t.due = [])
    (hrest : Receives library reading.key t pieces u) :
    Receives library reading.key s pieces u := by
  obtain ⟨c, hserves, -⟩ := h.connection
  obtain ⟨c', hserves', -⟩ := h'.connection
  exact .other hstep trivial ⟨Option.isSome_of_eq_some hserves.live,
    Option.isSome_of_eq_some hserves'.live, hconfig, unrefused_of_due hdue⟩ hrest

/-- The queue accepts the next request. -/
theorem Supplied.accept (library : Json.Library) {requests : List Request}
    (h : Supplied reading clientId buffer (requests.length + 1) count s)
    (hpoint : s.point = .enqueue { fd := reading.fd, requests := request :: requests }) :
    ∃ t, t.point = .enqueue
        { fd := reading.fd, requests := requests, admitted := some request.key } ∧
      Supplied reading clientId buffer requests.length count t ∧
      ∀ pieces u, Receives library reading.key t pieces u →
        Receives library reading.key s pieces u := by
  obtain ⟨c, hserves, hopen⟩ := h.connection
  obtain ⟨hrunning, hroom⟩ := h.queue
  have hok : (s.requestQueue.push request).1 = .ok := push_of_room hrunning (by omega) request
  have hstep : step library s (.reactor (.enqueueNext true)) = some ({ s with
      requestQueue := (s.requestQueue.push request).2
      point := .enqueue
        { fd := reading.fd, requests := requests, admitted := some request.key } }.emit
          (.admitted request)) := by
    simp [step, reactorStep, hpoint, enqueueNext, enqueueRequest, hok]
  generalize ht : Server.emit _ _ = t at hstep
  have hdone : Supplied reading clientId buffer requests.length count t := by
    subst ht
    refine ⟨h.running, ⟨c, hserves.of_tables rfl rfl, hopen⟩, ⟨?_, ?_⟩, h.rate.window, h.rate.rate⟩
    · simpa [emit] using hrunning
    · simp only [emit, (BlockQueue.push_ok hok).2.2, List.length_append, List.length_singleton,
        BlockQueue.push_capacity]
      omega
  exact ⟨t, ht ▸ rfl, hdone, fun pieces u => h.other hstep hdone (ht ▸ rfl) (ht ▸ rfl)⟩

/-- Then the connection counts it. -/
theorem Supplied.countAdmitted (library : Json.Library) {requests : List Request}
    (h : Supplied reading clientId buffer pending count s)
    (hpoint : s.point = .enqueue
      { fd := reading.fd, requests := requests, admitted := some reading.key }) :
    ∃ t, t.point = .enqueue { fd := reading.fd, requests := requests } ∧
      Supplied reading clientId buffer pending count t ∧
      ∀ pieces u, Receives library reading.key t pieces u →
        Receives library reading.key s pieces u := by
  obtain ⟨c, hserves, hopen⟩ := h.connection
  have hstep : step library s (.reactor (.enqueueNext true)) = some
      ({ s with point := .enqueue { fd := reading.fd, requests := requests } }.setConnection
        reading.fd { c with inFlightWork := c.inFlightWork + 1 }) := by
    simp only [step, reactorStep, hpoint, enqueueNext, countAdmitted_live hserves.live]
    rfl
  generalize ht : Server.setConnection _ _ _ = t at hstep
  have hdone : Supplied reading clientId buffer pending count t := by
    subst ht
    exact ⟨h.running, ⟨_, ⟨hserves.bodyLimit, AList.lookup_insert _, hserves.fd, hserves.connId,
      hserves.authenticated, hserves.buffer⟩, hopen⟩, h.queue, h.rate.window, h.rate.rate⟩
  exact ⟨t, ht ▸ rfl, hdone, fun pieces u => h.other hstep hdone (ht ▸ rfl) (ht ▸ rfl)⟩

/-- The rest of `decodeAndEnqueue` runs to its end, when there is room. -/
theorem Supplied.settle (library : Json.Library) {requests : List Request}
    (h : Supplied reading clientId buffer requests.length count s)
    (hpoint : s.point = .enqueue { fd := reading.fd, requests := requests })
    (hkey : ∀ request ∈ requests, request.key = reading.key) :
    ∃ t, t.point = .boundary ∧ Supplied reading clientId buffer 0 count t ∧
      ∀ pieces u, Receives library reading.key t pieces u →
        Receives library reading.key s pieces u := by
  induction requests generalizing s with
  | nil =>
      have hstep : step library s (.reactor (.enqueueNext true)) =
          some { s with point := .boundary } := by
        simp [step, reactorStep, hpoint, enqueueNext]
      obtain ⟨c, hserves, hopen⟩ := h.connection
      have hdone : Supplied reading clientId buffer 0 count { s with point := .boundary } :=
        ⟨h.running, ⟨c, hserves.of_tables rfl rfl, hopen⟩, h.queue, h.rate.window, h.rate.rate⟩
      exact ⟨_, rfl, hdone, fun pieces u => h.other hstep hdone rfl rfl⟩
  | cons request requests ih =>
      obtain ⟨s₁, hpoint₁, hpushed, hfirst⟩ := h.accept library hpoint
      rw [hkey request List.mem_cons_self] at hpoint₁
      obtain ⟨s₂, hpoint₂, hcounted, hsecond⟩ := hpushed.countAdmitted library hpoint₁
      obtain ⟨t, hboundary, hdone, hrest⟩ :=
        ih hcounted hpoint₂ fun own hown => hkey own (List.mem_cons_of_mem request hown)
      exact ⟨t, hboundary, hdone, fun pieces u hu =>
        hfirst pieces u (hsecond pieces u (hrest pieces u hu))⟩

/-- A stream without AUTH frames can be received in any pieces, when there is
room for its requests. -/
theorem Supplied.exists_receives (library : Json.Library)
    (h : Supplied reading clientId buffer 0
      (reading.decode (buffer ++ pieces.flatten)).2.1.length s) (hpoint : s.point = .boundary)
    (hpieces : ∀ piece ∈ pieces, 0 < piece.length ∧ piece.length ≤ recvBufferSize)
    (htypes : ∀ request ∈ (reading.decode (buffer ++ pieces.flatten)).2.1, request.type ≠ .auth) :
    ∃ u, Receives library reading.key s pieces u := by
  induction pieces generalizing s buffer with
  | nil => exact ⟨s, .finish hpoint⟩
  | cons piece pieces ih =>
      obtain ⟨c, hserves, hclosing, heof, rfl⟩ := h.connection
      have hread : step library s (.reactor (.read reading.fd (.data piece) [])) = some
          ((s.setConnection reading.fd
            { c with inputBuffer := c.inputBuffer ++ piece }).decodeAndEnqueue reading.fd false
              []) := by
        obtain ⟨hpos, hle⟩ := hpieces piece List.mem_cons_self
        simp [step, reactorStep, atBoundary, hpoint, h.running, readable, hserves.lookup, hclosing,
          heof, recvPossible, hpos, hle, handleRead]
      have hnow := hserves.receive piece
      have haffects : Affects False True
          (s.setConnection reading.fd { c with inputBuffer := c.inputBuffer ++ piece }) _ :=
        decodeAndEnqueue_affects _ reading.fd false []
      have hdecode := hnow.decodeAndEnqueue heof []
      generalize hs₁ : Server.decodeAndEnqueue _ _ _ _ = s₁ at hread haffects hdecode
      split at hdecode
      · have hboundary : s₁.point = .boundary := hdecode.1.trans hpoint
        have hgone : s₁.live? reading.key = none := by
          rw [live?, show s₁.connections.lookup reading.key.fd = none from hdecode.2]
          rfl
        exact ⟨s₁, .recv hread (unrefused_of_due (by rw [due, hboundary]))
          (.closed hboundary hgone _)⟩
      · next hlegal =>
          obtain ⟨frame, hframe⟩ := hdecode
          have hsplit : (reading.decode (buffer ++ (piece :: pieces).flatten)).2.1 =
              (reading.decode (buffer ++ piece)).2.1 ++
                (reading.decode ((reading.decode (buffer ++ piece)).2.2 ++
                  pieces.flatten)).2.1 := by
            rw [List.flatten_cons, ← List.append_assoc, decode_append pieces.flatten hlegal]
          rw [hsplit] at htypes h
          rw [List.length_append] at h
          have hfirst := fun request hrequest => htypes request (List.mem_append_left _ hrequest)
          obtain ⟨hresponses, hrate⟩ := hframe.room _ hfirst ⟨h.rate.window, h.rate.rate⟩
          have hrequests : frame.requests = (reading.decode (buffer ++ piece)).2.1 := by
            rw [hframe.requests (by simp [hresponses])]
            exact List.filter_eq_self.mpr fun request hrequest =>
              decide_eq_true (hfirst request hrequest)
          have hpoint₁ : s₁.point = .enqueue
              { fd := reading.fd, requests := (reading.decode (buffer ++ piece)).2.1 } := by
            rw [hframe.point, hframe.rest, hresponses, hrequests]
          have hqueue : s₁.requestQueue = s.requestQueue := haffects.frame.requestQueue
          have hroom : s.requestQueue.stopped = false ∧ _ := h.queue
          rw [Nat.zero_add, ← hqueue] at hroom
          have hsupplied : Supplied reading c.clientId (reading.decode (buffer ++ piece)).2.2
              (reading.decode (buffer ++ piece)).2.1.length (reading.decode
                ((reading.decode (buffer ++ piece)).2.2 ++ pieces.flatten)).2.1.length s₁ :=
            ⟨haffects.frame.state.trans h.running,
              ⟨_, ⟨haffects.config ▸ hserves.bodyLimit, hframe.lookup, hserves.fd, hserves.connId,
                hserves.authenticated, rfl⟩, hclosing, heof, rfl⟩, hroom,
              haffects.config ▸ hrate⟩
          obtain ⟨t, hboundary, hlater, hreceives⟩ := hsupplied.settle library hpoint₁
            fun request hrequest => (hnow.decode hrequest).1
          obtain ⟨u, hu⟩ := ih hlater hboundary
            (fun own hown => hpieces own (List.mem_cons_of_mem piece hown))
            fun request hrequest => htypes request (List.mem_append_right _ hrequest)
          exact ⟨u, .recv hread (unrefused_of_due (by rw [due, hpoint₁]))
            (hreceives pieces u hu)⟩

/-! ## Segmentation -/

/-- Between two reads there is nothing to decode, or the length that has arrived
is illegal under the limit of now. -/
theorem waiting_or_illegal (h : Transition.Reachable (gateway library args) s)
    (hc : s.connections.lookup fd = some c) :
    (s.reading c).Waiting c.inputBuffer ∨
      ∀ stream, (s.reading c).decode (c.inputBuffer ++ stream) =
        (.invalidLength, [], ((s.reading c).decode c.inputBuffer).2.2 ++ stream) := by
  have hnone : ((s.reading c).decode c.inputBuffer).2.1 = [] := (unfinished h hc).no_frames
  by_cases hillegal : ((s.reading c).decode c.inputBuffer).1 = .invalidLength
  · refine .inr fun stream => ?_
    rw [← hnone]
    exact decodeAll_append_illegal stream hillegal
  · exact .inl ⟨hillegal, hnone⟩

/-- An illegal length that has arrived already closes the connection with the
next piece. -/
theorem feedAll_illegal {stream : Bytes}
    (hillegal : ∀ stream, (reading.decode (buffer ++ stream)).1 = .invalidLength)
    (hcut : Cut recvBufferSize stream pieces) :
    reading.feedAll (some buffer) pieces = ([], if stream = [] then some buffer else none) := by
  cases pieces with
  | nil =>
      rw [if_pos (show stream = [] from hcut.1.symm)]
      rfl
  | cons piece pieces =>
      have hpos := (hcut.2 piece List.mem_cons_self).1
      have hne : stream ≠ [] := by
        rw [← hcut.1, List.flatten_cons]
        intro hnil
        rw [(List.append_eq_nil_iff.mp hnil).1] at hpos
        exact Nat.lt_irrefl 0 hpos
      rw [if_neg hne, feedAll_cons, feed_illegal (hillegal piece)]
      simp

section Start

variable (h : Transition.Reachable (gateway library args) s) (hpoint : s.point = .boundary)
  (hc : s.connections.lookup fd = some c) (hauth : c.authenticated = true)

include h hc hauth

/-- The connection is at the start of its reading. -/
theorem serves_reading : Serves (s.reading c) s c c.inputBuffer ∧
    (s.reading c).key = ⟨fd, c.connId⟩ := by
  obtain rfl : c.fd = fd := (ledger_sound h).identified.fd fd c hc
  exact ⟨⟨rfl, hc, rfl, rfl, hauth, rfl⟩, rfl⟩

include hpoint

/-- What has been received since the start is what the reading says. -/
theorem receives_feedAll {pieces : List Bytes} (hu : Receives library ⟨fd, c.connId⟩ s pieces u) :
    u.admittedOf ⟨fd, c.connId⟩ = s.admittedOf ⟨fd, c.connId⟩ ++
        ((s.reading c).feedAll (some c.inputBuffer) pieces).1 ∧
      (u.live? ⟨fd, c.connId⟩ = none ↔
        ((s.reading c).feedAll (some c.inputBuffer) pieces).2 = none) := by
  obtain ⟨hserves, hkey⟩ := serves_reading h hc hauth
  rw [← hkey] at hu ⊢
  exact hu.feedAll h ⟨⟨c, hserves⟩, .of_boundary hpoint⟩

/-- With room for the requests every way to cut the stream is a run. -/
theorem feedAll_eq_of_unobservable {stream : Bytes} {pieces pieces' : List Bytes}
    (hsupplied : Supplied (s.reading c) c.clientId c.inputBuffer 0
      ((s.reading c).decode (c.inputBuffer ++ stream)).2.1.length s)
    (htypes : ∀ request ∈ ((s.reading c).decode (c.inputBuffer ++ stream)).2.1,
      request.type ≠ .auth)
    (hunobservable : Unobservable library s ⟨fd, c.connId⟩ stream)
    (hcut : Cut recvBufferSize stream pieces) (hcut' : Cut recvBufferSize stream pieces') :
    ((s.reading c).feedAll (some c.inputBuffer) pieces).1 =
      ((s.reading c).feedAll (some c.inputBuffer) pieces').1 := by
  have hruns : ∀ pieces, Cut recvBufferSize stream pieces →
      ∃ u, Receives library ⟨fd, c.connId⟩ s pieces u := by
    rintro pieces ⟨rfl, hpieces⟩
    rw [← (serves_reading h hc hauth).2]
    exact hsupplied.exists_receives library hpoint hpieces htypes
  obtain ⟨u, hu⟩ := hruns pieces hcut
  obtain ⟨u', hu'⟩ := hruns pieces' hcut'
  have hsame := (hunobservable _ _ u u' hcut hcut' hu hu').1
  rw [(receives_feedAll h hpoint hc hauth hu).1,
    (receives_feedAll h hpoint hc hauth hu').1] at hsame
  exact List.append_cancel_left hsame

end Start

/-- A sequence of steps that leave the connection to its input. -/
def meanwhile (library : Json.Library) (key : ConnectionKey) (s : Server)
    (actions : List Action) : Option Server :=
  actions.foldlM (fun s action => (step library s action).filter fun t =>
    action.Idle key.fd ∧ LeftToInput key s t) s

theorem Receives.meanwhile {actions : List Action} (h : meanwhile library key s actions = some t)
    (hrest : Receives library key t pieces u) : Receives library key s pieces u := by
  induction actions generalizing s with
  | nil =>
      cases h
      exact hrest
  | cons action actions ih =>
      obtain ⟨t, hstep, hrest⟩ := Option.bind_eq_some_iff.mp h
      obtain ⟨hstep, hleft⟩ := Option.filter_eq_some_iff.mp hstep
      obtain ⟨hidle, hleft⟩ := of_decide_eq_true hleft
      exact .other hstep hidle hleft (ih hrest)

end Server

namespace Sample

open Server Reading

/-- The connection of the client that has sent a `PING`. -/
def connection : Connection := (server.connections.lookup 5).get (by decide +kernel)

theorem server_connection : server.connections.lookup 5 = some connection :=
  (Option.some_get _).symm

theorem server_boundary : server.point = .boundary :=
  boundary_of_atBoundary (by decide +kernel)

/-- There is room for one more request. -/
theorem server_supplied :
    Supplied (server.reading connection) connection.clientId connection.inputBuffer 0 1 server := by
  refine ⟨by decide +kernel, ⟨connection, (serves_reading server_reachable.reachable
    server_connection (by decide +kernel)).1, by decide +kernel, by decide +kernel, rfl⟩,
    by decide +kernel, fun window hwindow => ?_, by decide +kernel⟩
  have hall : ((server.rateLimitWindows.lookup connection.clientId).all fun window =>
      window.count + 1 ≤ server.runtimeConfig.maxRequestsPerClientPerSecond) = true := by
    decide +kernel
  rw [hwindow] at hall
  exact of_decide_eq_true hall

/-- Half of another `PING` has arrived. -/
def halfway : Server :=
  (server.reactorStep (.read 5 (.data ((frame 1 9).take 7)) [])).get (by decide +kernel)

/-- Meanwhile the first one is answered, the answer is sent in part, and another
client connects and sends a byte. -/
def interlude : Server :=
  (meanwhile library ⟨5, 1⟩ halfway [.reactor (.enqueueNext true), .reactor (.read 5 .again []),
    .reactor (.enqueueNext true), .worker 0 .pop, .worker 0 (.dispatch ⟨true, {}⟩),
    .reactor .drainRejected, .reactor (.drainResponse true), .reactor (.write 5 (.sent 50) true),
    .reactor (.accept 6 true), .reactor (.read 6 (.data [0]) []),
    .reactor (.enqueueNext true)]).get (by decide +kernel)

/-- The other half arrives. -/
def wholly : Server :=
  (interlude.reactorStep (.read 5 (.data ((frame 1 9).drop 7)) [1])).get (by decide +kernel)

/-- The `PING` is queued. -/
def complete : Server :=
  (meanwhile library ⟨5, 1⟩ wholly [.reactor (.enqueueNext true), .reactor (.enqueueNext true),
    .reactor (.enqueueNext true)]).get (by decide +kernel)

theorem complete_receives : Receives library ⟨5, 1⟩ server
    [(frame 1 9).take 7, (frame 1 9).drop 7] complete :=
  .recv (t := halfway) (Option.some_get _).symm (by decide +kernel)
    (.meanwhile (t := interlude) (Option.some_get _).symm
      (.recv (t := wholly) (Option.some_get _).symm (by decide +kernel)
        (.meanwhile (t := complete) (Option.some_get _).symm
          (.finish (boundary_of_atBoundary (by decide +kernel))))))

end Sample

namespace Server

open Reading

end Server

end GatewaySystem
