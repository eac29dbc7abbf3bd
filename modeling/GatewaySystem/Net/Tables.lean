import GatewaySystem.Net.Effects
import GatewaySystem.Net.Isolation

/-!
# What the reactor does to its tables

The reactor owns the connections, the masks registered for them and the rate
limit windows. Its functions change these tables by a few primitive steps, and
each step is about one descriptor. `TableStep reads fd` lists them; only
`handleRead` has the permission `reads`, without which the input of a
connection and the point of the reactor stay as they are.

A handler is a sequence of such steps on its own descriptor. What the handlers
keep, and what they leave alone, is proved for the steps.
-/

namespace GatewaySystem

/-- What a step can make of a connection: it stays the same one, it is never
open again after its end, and once authenticated it belongs to its client. -/
structure Connection.Follows (reads : Prop) (old c : Connection) : Prop where
  fd : c.fd = old.fd
  connId : c.connId = old.connId
  readEof : old.readEof = true → c.readEof = true
  closing : old.closing = true → c.closing = true
  input : c.inputBuffer = old.inputBuffer ∨ reads ∧ old.readEof = false
  client : c.authenticated = old.authenticated ∧ c.clientId = old.clientId ∨
    old.authenticated = false

namespace Connection.Follows

variable {reads : Prop} {c c' c'' : Connection}

theorem refl (c : Connection) : Follows reads c c :=
  ⟨rfl, rfl, id, id, .inl rfl, .inl ⟨rfl, rfl⟩⟩

theorem trans (h : Follows reads c c') (h' : Follows reads c' c'') : Follows reads c c'' where
  fd := h'.fd.trans h.fd
  connId := h'.connId.trans h.connId
  readEof := h'.readEof ∘ h.readEof
  closing := h'.closing ∘ h.closing
  input := by
    rcases h'.input with hsame | ⟨hreads, heof⟩
    · rw [hsame]
      exact h.input
    · refine .inr ⟨hreads, ?_⟩
      by_contra hthen
      rw [h.readEof (Bool.eq_true_of_not_eq_false hthen)] at heof
      cases heof
  client := by
    rcases h.client with ⟨hauth, hclient⟩ | hfresh
    · rw [← hauth, ← hclient]
      exact h'.client
    · exact .inr hfresh

theorem mono {reads' : Prop} (himp : reads → reads') (h : Follows reads c c') :
    Follows reads' c c' :=
  { h with input := h.input.imp_right fun hread => ⟨himp hread.1, hread.2⟩ }

end Connection.Follows

/-- Everything an activation of `decodeAndEnqueue` holds is of its own
connection, and its answers authenticate nobody. -/
structure Enqueue.Owned (frame : Enqueue) : Prop where
  tasks : ∀ task ∈ frame.tasks, task.request.fd = frame.fd
  requests : ∀ request ∈ frame.requests, request.fd = frame.fd
  responses : ∀ response ∈ frame.responses,
    response.fd = frame.fd ∧ response.clientIdToAuthenticate = none
  admitted : ∀ key, frame.admitted = some key → key.fd = frame.fd

namespace Enqueue.Owned

variable {frame : Enqueue}

theorem tasks_tail (h : frame.Owned) {task : AuthTask} {tasks : List AuthTask}
    (htasks : frame.tasks = task :: tasks) :
    { frame with tasks := tasks }.Owned ∧ task.request.fd = frame.fd := by
  have hall : ∀ own ∈ task :: tasks, own.request.fd = frame.fd := htasks ▸ h.tasks
  exact ⟨⟨fun own hown => hall own (List.mem_cons_of_mem task hown), h.requests, h.responses,
    h.admitted⟩, hall task List.mem_cons_self⟩

theorem requests_tail (h : frame.Owned) {request : Request} {requests : List Request}
    (hrequests : frame.requests = request :: requests) :
    { frame with requests := requests }.Owned ∧ request.fd = frame.fd := by
  have hall : ∀ own ∈ request :: requests, own.fd = frame.fd := hrequests ▸ h.requests
  exact ⟨⟨h.tasks, fun own hown => hall own (List.mem_cons_of_mem request hown), h.responses,
    h.admitted⟩, hall request List.mem_cons_self⟩

theorem responses_tail (h : frame.Owned) {response : Response} {responses : List Response}
    (hresponses : frame.responses = response :: responses) :
    { frame with responses := responses }.Owned ∧ response.fd = frame.fd ∧
      response.clientIdToAuthenticate = none := by
  have hall : ∀ own ∈ response :: responses,
      own.fd = frame.fd ∧ own.clientIdToAuthenticate = none := hresponses ▸ h.responses
  exact ⟨⟨h.tasks, h.requests, fun own hown => hall own (List.mem_cons_of_mem response hown),
    h.admitted⟩, hall response List.mem_cons_self⟩

theorem admitting (h : frame.Owned) {key : ConnectionKey} (hfd : key.fd = frame.fd) :
    { frame with admitted := some key }.Owned := by
  refine ⟨h.tasks, h.requests, h.responses, fun own hown => ?_⟩
  obtain rfl := Option.some.inj hown
  exact hfd

theorem answer (h : frame.Owned) {response : Response} (hfd : response.fd = frame.fd)
    (hclient : response.clientIdToAuthenticate = none) :
    { frame with responses := frame.responses ++ [response] }.Owned := by
  refine ⟨h.tasks, h.requests, fun own hown => ?_, h.admitted⟩
  rcases List.mem_append.mp hown with hold | hnew
  · exact h.responses own hold
  · obtain rfl := List.mem_singleton.mp hnew
    exact ⟨hfd, hclient⟩

end Enqueue.Owned

/-- Whether the reactor reads. -/
def ReactorAction.Reads : ReactorAction → Prop
  | .read .. => True
  | _ => False

def Action.Reads : Action → Prop
  | .reactor action => action.Reads
  | _ => False

namespace Server

open ProtocolCodec

variable {library : Json.Library} {args : StartArgs} {reads : Prop} {s t u : Server} {fd : Fd}
  {c : Connection} {request : Request} {action : Action} {response : Response} {frame : Enqueue}
  {intake : Intake}

/-- The frames decoded from the input of a connection, newest first. -/
def decodedOf (s : Server) (key : ConnectionKey) : List Request :=
  s.log.filterMap (Event.decodedBy key)

/-- A step that is not about the tables. -/
structure SameTables (s t : Server) : Prop where
  connections : t.connections = s.connections
  interest : t.interest = s.interest
  rateLimitWindows : t.rateLimitWindows = s.rateLimitWindows
  nextConnId : t.nextConnId = s.nextConnId
  runtimeConfig : t.runtimeConfig = s.runtimeConfig
  now : t.now = s.now
  activeConnections : t.stats.activeConnections = s.stats.activeConnections

/-- The primitive steps on the tables. -/
inductive TableStep (reads : Prop) (fd : Fd) : Server → Server → Prop
  | other {s t : Server} (h : SameTables s t) (hstate : t.state = s.state)
      (hpoint : t.point = s.point ∨ reads) (hdecoded : t.decodedOf = s.decodedOf ∨ reads) :
      TableStep reads fd s t
  | update {s : Server} {old c : Connection} (hold : s.connections.lookup fd = some old)
      (h : old.Follows reads c) : TableStep reads fd s (s.setConnection fd c)
  | close (s : Server) : TableStep reads fd s (s.closeConnection fd)
  | register {s : Server} (hlive : (s.connections.lookup fd).isSome) (events : Interest) :
      TableStep reads fd s { s with interest := Function.update s.interest fd (some events) }
  | allow {s : Server} {c : Connection} (hc : s.connections.lookup fd = some c)
      (hauth : c.authenticated = true) (tick : ℕ) :
      TableStep reads fd s (s.allowRequestForClient c.clientId s.runtimeConfig tick).2

/-- Finitely many steps on one descriptor. -/
def Touches (reads : Prop) (fd : Fd) : Server → Server → Prop :=
  Relation.ReflTransGen (TableStep reads fd)

theorem TableStep.mono {reads' : Prop} (himp : reads → reads') (h : TableStep reads fd s t) :
    TableStep reads' fd s t := by
  cases h with
  | other h hstate hpoint hdecoded =>
      exact .other h hstate (hpoint.imp_right himp) (hdecoded.imp_right himp)
  | update hold h => exact .update hold (h.mono himp)
  | close => exact .close _
  | register hlive events => exact .register hlive events
  | allow hc hauth tick => exact .allow hc hauth tick

namespace Touches

theorem refl (s : Server) : Touches reads fd s s := Relation.ReflTransGen.refl

theorem trans (h : Touches reads fd s t) (h' : Touches reads fd t u) : Touches reads fd s u :=
  Relation.ReflTransGen.trans h h'

theorem single (h : TableStep reads fd s t) : Touches reads fd s t :=
  Relation.ReflTransGen.single h

theorem other (h : SameTables s t) (hstate : t.state = s.state) (hpoint : t.point = s.point)
    (hdecoded : t.decodedOf = s.decodedOf) : Touches reads fd s t :=
  single (.other h hstate (.inl hpoint) (.inl hdecoded))

end Touches

/-! ## The primitive steps -/

theorem eraseWindow_eq (s : Server) (own : Bytes) :
    ∃ windows log, s.eraseWindow own = { s with rateLimitWindows := windows, log := log } ∧
      (∀ key, log.filterMap (Event.decodedBy key) = s.decodedOf key) ∧
      ∀ clientId window, windows.lookup clientId = some window →
        s.rateLimitWindows.lookup clientId = some window ∧ clientId ≠ own := by
  unfold eraseWindow
  split
  · next hnone =>
      refine ⟨s.rateLimitWindows, s.log, rfl, fun _ => rfl,
        fun clientId window hwindow => ⟨hwindow, ?_⟩⟩
      rintro rfl
      cases hnone.symm.trans hwindow
  · refine ⟨s.rateLimitWindows.erase own, _, rfl, fun _ => rfl, fun clientId window hwindow => ?_⟩
    have hne : clientId ≠ own := by
      rintro rfl
      simp at hwindow
    exact ⟨(AList.lookup_erase_ne hne).symm.trans hwindow, hne⟩

/-- The window of a client stays while the client has another connection. -/
theorem releaseClient_eq (s : Server) (c : Connection) :
    ∃ windows log, s.releaseClient c = { s with rateLimitWindows := windows, log := log } ∧
      (∀ key, log.filterMap (Event.decodedBy key) = s.decodedOf key) ∧
      ∀ clientId window, windows.lookup clientId = some window →
        s.rateLimitWindows.lookup clientId = some window ∧
          (c.authenticated = true → clientId = c.clientId →
            s.countAuthenticatedConnectionsForClient clientId (-1) ≠ 0) := by
  unfold releaseClient
  split
  · obtain ⟨windows, log, heq, hlog, hkept⟩ := eraseWindow_eq s c.clientId
    refine ⟨windows, log, heq, hlog, fun clientId window hwindow => ?_⟩
    obtain ⟨hold, hne⟩ := hkept clientId window hwindow
    exact ⟨hold, fun _ hclient => absurd hclient hne⟩
  · next hkept =>
      refine ⟨s.rateLimitWindows, s.log, rfl, fun _ => rfl,
        fun clientId window hwindow => ⟨hwindow, ?_⟩⟩
      rintro hauth rfl hcount
      simp [hauth, hcount] at hkept

/-- Closing a connection removes it and its mask, and the window of its client
if no other connection of the client is left. -/
theorem closeConnection_eq (hc : s.connections.lookup fd = some c) :
    ∃ cancelled windows log, s.closeConnection fd = { s with
        connections := s.connections.erase fd
        interest := Function.update s.interest fd none
        stats := { s.stats with activeConnections := s.stats.activeConnections - 1 }
        cancelled := cancelled
        rateLimitWindows := windows
        log := log } ∧
      (∀ key, log.filterMap (Event.decodedBy key) = s.decodedOf key) ∧
      ∀ clientId window, windows.lookup clientId = some window →
        s.rateLimitWindows.lookup clientId = some window ∧
          (c.authenticated = true → clientId = c.clientId →
            ((s.cancelAuth c).eraseConnection fd).countAuthenticatedConnectionsForClient
              clientId (-1) ≠ 0) := by
  have hcancel : ∃ cancelled, s.cancelAuth c = { s with cancelled := cancelled } := by
    unfold cancelAuth
    split
    · exact ⟨s.cancelled, rfl⟩
    · exact ⟨_, rfl⟩
  obtain ⟨cancelled, hcancel⟩ := hcancel
  obtain ⟨windows, log, hrelease, hlog, hkept⟩ :=
    releaseClient_eq ((s.cancelAuth c).eraseConnection fd) c
  rw [hcancel] at hlog
  refine ⟨cancelled, windows, .closed ⟨fd, c.connId⟩ :: log, ?_, hlog, ?_⟩
  · unfold closeConnection
    rw [hc]
    simp only
    rw [hrelease, hcancel]
    rfl
  · intro clientId window hwindow
    obtain ⟨hold, hcount⟩ := hkept clientId window hwindow
    rw [hcancel] at hold
    exact ⟨hold, hcount⟩

/-- What a handler of one descriptor leaves alone. -/
structure Elsewhere (fd : Fd) (s t : Server) : Prop where
  state : t.state = s.state
  lookup : ∀ fd', fd' ≠ fd → t.connections.lookup fd' = s.connections.lookup fd'
  interest : ∀ fd', fd' ≠ fd → t.interest fd' = s.interest fd'

theorem Elsewhere.of_eq (hstate : t.state = s.state) (hconnections : t.connections = s.connections)
    (hinterest : t.interest = s.interest) : Elsewhere fd s t :=
  ⟨hstate, fun _ _ => by rw [hconnections], fun _ _ => by rw [hinterest]⟩

theorem Elsewhere.refl (s : Server) : Elsewhere fd s s := .of_eq rfl rfl rfl

theorem Elsewhere.trans (h : Elsewhere fd s t) (h' : Elsewhere fd t u) : Elsewhere fd s u where
  state := h'.state.trans h.state
  lookup fd' hne := (h'.lookup fd' hne).trans (h.lookup fd' hne)
  interest fd' hne := (h'.interest fd' hne).trans (h.interest fd' hne)

theorem allowRequestForClient_table (s : Server) (clientId : Bytes) (config : RuntimeConfig)
    (tick : ℕ) :
    (s.allowRequestForClient clientId config tick).2.state = s.state ∧
      (s.allowRequestForClient clientId config tick).2.connections = s.connections ∧
      (s.allowRequestForClient clientId config tick).2.interest = s.interest ∧
      (s.allowRequestForClient clientId config tick).2.stats = s.stats := by
  unfold allowRequestForClient
  simp only
  split <;> exact ⟨rfl, rfl, rfl, rfl⟩

theorem TableStep.elsewhere (h : TableStep reads fd s t) : Elsewhere fd s t := by
  cases h with
  | other h hstate => exact .of_eq hstate h.connections h.interest
  | update => exact ⟨rfl, fun _ hne => AList.lookup_insert_ne hne, fun _ _ => rfl⟩
  | close =>
      cases hc : s.connections.lookup fd with
      | none =>
          rw [closeConnection_none hc]
          exact .refl s
      | some c =>
          obtain ⟨_, _, _, heq, -⟩ := closeConnection_eq hc
          rw [heq]
          exact ⟨rfl, fun _ hne => AList.lookup_erase_ne hne,
            fun _ hne => Function.update_of_ne hne _ _⟩
  | register => exact ⟨rfl, fun _ _ => rfl, fun _ hne => Function.update_of_ne hne _ _⟩
  | allow =>
      obtain ⟨hstate, hconnections, hinterest, -⟩ :=
        allowRequestForClient_table s _ s.runtimeConfig _
      exact .of_eq hstate hconnections hinterest

theorem Touches.elsewhere (h : Touches reads fd s t) : Elsewhere fd s t := by
  induction h with
  | refl => exact .refl s
  | tail _ hstep ih => exact ih.trans hstep.elsewhere

/-- A connection after a step is a later state of the one before. -/
theorem TableStep.follows (h : TableStep reads fd s t) (hc : t.connections.lookup fd = some c) :
    ∃ old, s.connections.lookup fd = some old ∧ old.Follows reads c := by
  cases h with
  | other h => exact ⟨c, h.connections ▸ hc, .refl c⟩
  | update hold hfollows =>
      obtain rfl := Option.some.inj ((AList.lookup_insert _).symm.trans hc)
      exact ⟨_, hold, hfollows⟩
  | close => cases (closeConnection_lookup_self s fd).symm.trans hc
  | register => exact ⟨c, hc, .refl c⟩
  | allow =>
      rw [(allowRequestForClient_table ..).2.1] at hc
      exact ⟨c, hc, .refl c⟩

theorem Touches.follows (h : Touches reads fd s t) (hc : t.connections.lookup fd = some c) :
    ∃ old, s.connections.lookup fd = some old ∧ old.Follows reads c := by
  induction h generalizing c with
  | refl => exact ⟨c, hc, .refl c⟩
  | tail _ hstep ih =>
      obtain ⟨middle, hmiddle, hlater⟩ := hstep.follows hc
      obtain ⟨old, hold, hfirst⟩ := ih hmiddle
      exact ⟨old, hold, hfirst.trans hlater⟩

theorem TableStep.kept (h : TableStep reads fd s t) : t.nextConnId = s.nextConnId ∧
    (t.point = s.point ∨ reads) ∧ (t.decodedOf = s.decodedOf ∨ reads) := by
  cases h with
  | other h _ hpoint hdecoded => exact ⟨h.nextConnId, hpoint, hdecoded⟩
  | update | register => exact ⟨rfl, .inl rfl, .inl rfl⟩
  | close =>
      cases hc : s.connections.lookup fd with
      | none =>
          rw [closeConnection_none hc]
          exact ⟨rfl, .inl rfl, .inl rfl⟩
      | some c =>
          obtain ⟨_, _, _, heq, hlog, -⟩ := closeConnection_eq hc
          rw [heq]
          exact ⟨rfl, .inl rfl, .inl (funext hlog)⟩
  | allow =>
      unfold allowRequestForClient
      simp only
      split <;> exact ⟨rfl, .inl rfl, .inl rfl⟩

theorem Touches.point (h : Touches False fd s t) : t.point = s.point := by
  induction h with
  | refl => rfl
  | tail _ hstep ih => exact (hstep.kept.2.1.resolve_right id).trans ih

theorem Touches.decoded (h : Touches False fd s t) : t.decodedOf = s.decodedOf := by
  induction h with
  | refl => rfl
  | tail _ hstep ih => exact (hstep.kept.2.2.resolve_right id).trans ih

/-! ## The handlers -/

theorem setConnection_live (s : Server) (fd : Fd) (c : Connection) :
    ((s.setConnection fd c).connections.lookup fd).isSome := by
  rw [setConnection, AList.lookup_insert]
  rfl

theorem emit_touches (s : Server) {event : Event} (h : ∀ key, event.decodedBy key = none) :
    Touches reads fd s (s.emit event) := by
  refine .other ⟨rfl, rfl, rfl, rfl, rfl, rfl, rfl⟩ rfl rfl ?_
  funext key
  simp [decodedOf, emit, h key]

theorem closeConnection_touches (s : Server) (fd : Fd) :
    Touches reads fd s (s.closeConnection fd) :=
  .single (.close s)

theorem modifyConnectionEvents_touches (hlive : (s.connections.lookup fd).isSome)
    (events : Interest) (ctl : Bool) :
    Touches reads fd s (s.modifyConnectionEvents fd events ctl) := by
  cases ctl with
  | true => exact .single (.register hlive events)
  | false => exact closeConnection_touches s fd

theorem closeDrained_touches (s : Server) (fd : Fd) (c : Connection) :
    Touches reads fd s (s.closeDrained fd c) :=
  (emit_touches s fun _ => rfl).trans (closeConnection_touches _ fd)

theorem maybeCloseAfterDrain_touches (s : Server) (fd : Fd) :
    Touches reads fd s (s.maybeCloseAfterDrain fd) := by
  unfold maybeCloseAfterDrain
  split
  · exact .refl s
  · split
    · exact closeDrained_touches ..
    · exact .refl s

theorem finishWrite_touches (hlive : (s.connections.lookup fd).isSome) (c : Connection)
    (ctl : Bool) : Touches reads fd s (s.finishWrite fd c ctl) := by
  unfold finishWrite
  split
  · exact closeDrained_touches ..
  · exact modifyConnectionEvents_touches hlive ..

theorem markReadEof_touches (s : Server) (fd : Fd) (ctl : Bool) :
    Touches reads fd s (s.markReadEof fd ctl) := by
  unfold markReadEof
  split
  · exact .refl s
  · next c hc =>
      split
      · exact maybeCloseAfterDrain_touches s fd
      · have hset : Touches reads fd s (s.setConnection fd { c with readEof := true }) :=
          .single (.update hc ⟨rfl, rfl, fun _ => rfl, id, .inl rfl, .inl ⟨rfl, rfl⟩⟩)
        exact hset.trans (finishWrite_touches (setConnection_live ..) _ ctl)

theorem handleWrite_touches (s : Server) (fd : Fd) (outcome : SendOutcome) (ctl : Bool) :
    Touches reads fd s (s.handleWrite fd outcome ctl) := by
  unfold handleWrite
  split
  · exact .refl s
  · next c hc =>
      split
      · exact finishWrite_touches (by rw [hc]; rfl) c ctl
      · cases outcome with
        | interrupted | again => exact .refl s
        | failed => exact closeConnection_touches s fd
        | sent count =>
            have hset : ∀ c', c.Follows reads c' → Touches reads fd s ((s.emit
                (.sent ⟨fd, c.connId⟩ (c.unsent.take count))).setConnection fd c') := by
              intro c' hfollows
              exact (emit_touches s fun _ => rfl).trans (.single (.update hc hfollows))
            simp only
            split
            · refine (hset _ ?_).trans (finishWrite_touches (setConnection_live ..) _ ctl)
              exact ⟨rfl, rfl, id, id, .inl rfl, .inl ⟨rfl, rfl⟩⟩
            · exact hset _ ⟨rfl, rfl, id, id, .inl rfl, .inl ⟨rfl, rfl⟩⟩

/-! ## The answers -/

theorem appendOutput_follows (c : Connection) (response : Response) :
    c.Follows reads (appendOutput c response) where
  fd := rfl
  connId := rfl
  readEof := id
  closing hclosing := by simp [appendOutput, hclosing]
  input := .inl rfl
  client := .inl ⟨rfl, rfl⟩

theorem deliver_touches {old : Connection} (hold : s.connections.lookup fd = some old)
    (h : old.Follows reads c) (response : Response) (ctl : Bool) :
    Touches reads fd s (s.deliver fd c response ctl) := by
  have hset : Touches reads fd s (s.setConnection fd c) := .single (.update hold h)
  unfold deliver
  split
  · exact hset.trans (closeConnection_touches _ fd)
  · split
    · have hcount : Touches reads fd s { s.setConnection fd c with
          stats := { s.stats with slowClientClosed := s.stats.slowClientClosed + 1 } } :=
        hset.trans (.other ⟨rfl, rfl, rfl, rfl, rfl, rfl, rfl⟩ rfl rfl rfl)
      exact hcount.trans (closeConnection_touches _ fd)
    · have happend : Touches reads fd s (s.setConnection fd (appendOutput c response)) :=
        .single (.update hold (h.trans (appendOutput_follows c response)))
      refine (happend.trans (emit_touches _ fun _ => rfl)).trans
        (modifyConnectionEvents_touches ?_ _ ctl)
      exact setConnection_live s fd (appendOutput c response)

theorem clearAuth_follows (origin : ResponseOrigin) (c : Connection) (response : Response) :
    c.Follows reads (clearAuth response (completeWork origin c)) := by
  unfold clearAuth completeWork
  cases origin <;> split <;> exact ⟨rfl, rfl, id, id, .inl rfl, .inl ⟨rfl, rfl⟩⟩

/-- An AUTH answer makes a connection the one of its client. -/
theorem authenticate_follows (s : Server)
    (hfresh : response.clientIdToAuthenticate.isSome → c.authenticated = false) :
    Touches reads fd s (s.authenticate c response).1 ∧
      (s.authenticate c response).1.connections = s.connections ∧
      c.Follows reads (s.authenticate c response).2.1 := by
  unfold authenticate
  split
  · next clientId hclient =>
      split
      · exact ⟨.other ⟨rfl, rfl, rfl, rfl, rfl, rfl, rfl⟩ rfl rfl rfl, rfl, .refl c⟩
      · refine ⟨.other ⟨rfl, rfl, rfl, rfl, rfl, rfl, rfl⟩ rfl rfl rfl, rfl, rfl, rfl, id, id,
          .inl rfl, .inr ?_⟩
        exact hfresh (by rw [hclient]; rfl)
  · split <;> exact ⟨.other ⟨rfl, rfl, rfl, rfl, rfl, rfl, rfl⟩ rfl rfl rfl, rfl, .refl c⟩

/-- A response does not authenticate a connection that is authenticated. -/
def Admissible (s : Server) (response : Response) : Prop :=
  response.clientIdToAuthenticate.isSome → ∀ c, s.connections.lookup response.fd = some c →
    c.connId = response.connId → c.authenticated = false

theorem applyResponse_touches (hfresh : s.Admissible response) (origin : ResponseOrigin)
    (ctl : Bool) : Touches reads response.fd s (s.applyResponse response origin ctl) := by
  unfold applyResponse
  split
  · exact .other ⟨rfl, rfl, rfl, rfl, rfl, rfl, rfl⟩ rfl rfl rfl
  · next c hc =>
      split
      · exact .other ⟨rfl, rfl, rfl, rfl, rfl, rfl, rfl⟩ rfl rfl rfl
      · next hconnId =>
          have hclear : c.Follows reads (clearAuth response (completeWork origin c)) :=
            clearAuth_follows origin c response
          have hauth : response.clientIdToAuthenticate.isSome →
              (clearAuth response (completeWork origin c)).authenticated = false := by
            intro hclient
            have hthen := hfresh hclient c hc (not_not.mp hconnId)
            unfold clearAuth completeWork
            cases origin <;> split <;> exact hthen
          obtain ⟨htouches, hconnections, hfollows⟩ := authenticate_follows s hauth
          have hold : (s.authenticate (clearAuth response (completeWork origin c))
              response).1.connections.lookup response.fd = some c := by rw [hconnections, hc]
          exact htouches.trans
            (deliver_touches hold (hclear.trans hfollows) _ ctl)

theorem closeRejected_touches (s : Server) (key : ConnectionKey) :
    Touches reads key.fd s (s.closeRejected key) := by
  unfold closeRejected
  split
  · exact closeConnection_touches s key.fd
  · exact .refl s

/-! ## The second half of `decodeAndEnqueue` -/

theorem countAdmitted_touches (s : Server) (frame : Enqueue) (key : ConnectionKey) :
    Touches reads key.fd { s with point := .enqueue { frame with admitted := none } }
      (s.countAdmitted frame key) := by
  unfold countAdmitted
  simp only
  split
  · exact .refl _
  · next c hlive =>
      exact .single (.update (live?_eq_some.mp hlive).1
        ⟨rfl, rfl, id, id, .inl rfl, .inl ⟨rfl, rfl⟩⟩)

theorem admissible_of_none (h : response.clientIdToAuthenticate = none) :
    s.Admissible response := by
  intro hclient
  rw [h] at hclient
  cases hclient

theorem enqueueTask_touches (s : Server) (frame : Enqueue) (task : AuthTask) :
    Touches reads fd { s with point := (s.enqueueTask frame task).point }
      (s.enqueueTask frame task) := by
  unfold enqueueTask
  simp only
  split <;> exact .other ⟨rfl, rfl, rfl, rfl, rfl, rfl, rfl⟩ rfl rfl rfl

theorem enqueueRequest_touches (s : Server) (frame : Enqueue) (request : Request) :
    Touches reads fd { s with point := (s.enqueueRequest frame request).point }
      (s.enqueueRequest frame request) := by
  unfold enqueueRequest
  simp only
  split <;> exact .other ⟨rfl, rfl, rfl, rfl, rfl, rfl, rfl⟩ rfl rfl rfl

/-- The reactor goes to the next point and works on its connection. -/
theorem enqueueNext_touches (h : frame.Owned) (s : Server) (ctl : Bool) :
    ∃ point, Touches reads frame.fd { s with point := point } (s.enqueueNext frame ctl) := by
  unfold enqueueNext
  split
  · next key hadmitted =>
      rw [← h.admitted key hadmitted]
      exact ⟨_, countAdmitted_touches s frame key⟩
  · exact ⟨_, enqueueTask_touches ..⟩
  · exact ⟨_, enqueueRequest_touches ..⟩
  · next response responses _ _ _ hresponses =>
      obtain ⟨-, hfd, hclient⟩ := h.responses_tail hresponses
      rw [← hfd]
      exact ⟨_, applyResponse_touches (admissible_of_none hclient) .reactor ctl⟩
  · simp only
    split
    · exact ⟨_, markReadEof_touches ..⟩
    · exact ⟨_, .refl _⟩

/-! ## The decoder -/

/-- The loop over the frames leaves the table alone and changes only the AUTH
state of the connection. It does not take back that the connection is to be
closed. -/
structure Intake.Kept (intake intake' : Intake) : Prop where
  state : intake'.server.state = intake.server.state
  connections : intake'.server.connections = intake.server.connections
  interest : intake'.server.interest = intake.server.interest
  stats : intake'.server.stats = intake.server.stats
  current : ∃ authPending authCancellation, intake'.current =
    { intake.current with authPending := authPending, authCancellation := authCancellation }
  closeNow : intake.closeNow = true → intake'.closeNow = true

theorem Intake.Kept.trans {intake intake' intake'' : Intake} (h : intake.Kept intake')
    (h' : intake'.Kept intake'') : intake.Kept intake'' where
  state := h'.state.trans h.state
  connections := h'.connections.trans h.connections
  interest := h'.interest.trans h.interest
  stats := h'.stats.trans h.stats
  current := by
    obtain ⟨_, _, hcurrent⟩ := h.current
    obtain ⟨authPending, authCancellation, hcurrent'⟩ := h'.current
    exact ⟨authPending, authCancellation, by rw [hcurrent', hcurrent]⟩
  closeNow := h'.closeNow ∘ h.closeNow

theorem intakeAuth_kept {intake intake' : Intake}
    (h : intakeAuth intake request = .ok intake' ∨ intakeAuth intake request = .error intake') :
    intake.Kept intake' := by
  unfold intakeAuth at h
  split at h
  · obtain rfl : { intake with closeNow := true } = intake' := by simpa using h
    exact ⟨rfl, rfl, rfl, rfl, ⟨_, _, rfl⟩, fun _ => rfl⟩
  · simp only at h
    split at h
    · obtain rfl := Except.error.inj (h.resolve_left nofun)
      exact ⟨rfl, rfl, rfl, rfl, ⟨_, _, rfl⟩, fun _ => rfl⟩
    · obtain rfl := Except.ok.inj (h.resolve_right nofun)
      exact ⟨rfl, rfl, rfl, rfl, ⟨_, _, rfl⟩, id⟩

theorem intakeBusiness_kept (config : RuntimeConfig) (intake : Intake) (request : Request)
    (tick : ℕ) : intake.Kept (intakeBusiness config intake request tick) := by
  unfold intakeBusiness
  simp only
  split
  · exact ⟨rfl, rfl, rfl, rfl, ⟨_, _, rfl⟩, id⟩
  · have hallow := allowRequestForClient_table intake.server intake.current.clientId config tick
    split <;> exact ⟨hallow.1, hallow.2.1, hallow.2.2.1, hallow.2.2.2, ⟨_, _, rfl⟩, id⟩

theorem intakeFrames_kept (config : RuntimeConfig) (intake : Intake) (requests : List Request)
    (ticks : List ℕ) : intake.Kept (intakeFrames config intake requests ticks) := by
  induction requests generalizing intake ticks with
  | nil => exact ⟨rfl, rfl, rfl, rfl, ⟨_, _, rfl⟩, id⟩
  | cons request rest ih =>
      unfold intakeFrames
      split
      · exact ⟨rfl, rfl, rfl, rfl, ⟨_, _, rfl⟩, fun _ => rfl⟩
      · split
        · exact (intakeBusiness_kept ..).trans (ih ..)
        · split
          · next herror => exact intakeAuth_kept (.inr herror)
          · next hok => exact (intakeAuth_kept (.inl hok)).trans (ih ..)

theorem intakeBusiness_touches {config : RuntimeConfig}
    (hconfig : intake.server.runtimeConfig = config)
    (hc : intake.server.connections.lookup fd = some c) (hauth : c.authenticated = true)
    (hclient : c.clientId = intake.current.clientId) (request : Request) (tick : ℕ) :
    Touches reads fd intake.server (intakeBusiness config intake request tick).server := by
  subst hconfig
  unfold intakeBusiness
  rw [← hclient]
  simp only
  split
  · exact .refl _
  · split <;> exact .single (.allow hc hauth tick)

theorem intakeAuth_touches {intake intake' : Intake}
    (h : intakeAuth intake request = .ok intake' ∨ intakeAuth intake request = .error intake') :
    Touches reads fd intake.server intake'.server := by
  obtain ⟨next, hserver⟩ := intakeAuth_server h
  rw [hserver]
  exact .other ⟨rfl, rfl, rfl, rfl, rfl, rfl, rfl⟩ rfl rfl rfl

/-- The loop over the frames works with the window of the client of the
connection. -/
theorem intakeFrames_touches {config : RuntimeConfig}
    (hconfig : intake.server.runtimeConfig = config)
    (hc : intake.server.connections.lookup fd = some c)
    (hauth : c.authenticated = intake.current.authenticated)
    (hclient : c.clientId = intake.current.clientId) (requests : List Request) (ticks : List ℕ) :
    Touches reads fd intake.server (intakeFrames config intake requests ticks).server := by
  induction requests generalizing intake ticks with
  | nil => exact .refl _
  | cons request rest ih =>
      have hnext : ∀ intake' : Intake, intake.Kept intake' →
          intake'.server.runtimeConfig = config → ∀ ticks,
            Touches reads fd intake'.server (intakeFrames config intake' rest ticks).server := by
        intro intake' hkept hconfig' ticks
        obtain ⟨_, _, hcurrent⟩ := hkept.current
        refine ih hconfig' (by rw [hkept.connections, hc]) ?_ ?_ ticks
        · rw [hcurrent, hauth]
        · rw [hcurrent, hclient]
      unfold intakeFrames
      split
      · exact .refl _
      · split
        · next hthen =>
            have hturn : Touches reads fd intake.server
                (intakeBusiness config intake request (ticks.headD 0)).server :=
              intakeBusiness_touches hconfig hc (hauth.trans hthen) hclient request _
            obtain ⟨-, hconfig'⟩ : Affects False False intake.server _ ∧ _ :=
              intakeBusiness_affects hconfig request (ticks.headD 0)
            exact hturn.trans (hnext _ (intakeBusiness_kept ..) hconfig' _)
        · split
          · next intake' herror => exact intakeAuth_touches (.inr herror)
          · next intake' hok =>
              obtain ⟨next, hserver⟩ := intakeAuth_server (.inl hok)
              have hconfig' : intake'.server.runtimeConfig = config := by rw [hserver, hconfig]
              exact (intakeAuth_touches (.inl hok)).trans
                (hnext _ (intakeAuth_kept (.inl hok)) hconfig' _)

/-- `decodeAndEnqueue` works on its connection, as long as that one may be
read. -/
theorem decodeAndEnqueue_touches
    (hopen : ∀ c, s.connections.lookup fd = some c → c.readEof = false) (readEof : Bool)
    (ticks : List ℕ) : Touches True fd s (s.decodeAndEnqueue fd readEof ticks) := by
  unfold decodeAndEnqueue
  split
  · exact .refl s
  · next c hc =>
      simp only
      generalize hdecoded : decode c.inputBuffer c.fd c.connId
        (toUInt32 s.runtimeConfig.maxPayloadSize) = decoded
      generalize hstart : Intake.start s fd c decoded.2.1 _ _ = start
      have hlog : Touches True fd s start.server := by
        rw [← hstart]
        exact .single (.other ⟨rfl, rfl, rfl, rfl, rfl, rfl, rfl⟩ rfl (.inl rfl) (.inr trivial))
      have hloop : Touches True fd start.server
          (intakeFrames s.runtimeConfig start decoded.2.1 ticks).server := by
        subst hstart
        exact intakeFrames_touches (c := c) rfl hc rfl rfl decoded.2.1 ticks
      have hkept := intakeFrames_kept s.runtimeConfig start decoded.2.1 ticks
      generalize intakeFrames s.runtimeConfig start decoded.2.1 ticks = intake at hloop hkept ⊢
      have hlookup : intake.server.connections.lookup fd = some c := by
        rw [hkept.connections, ← hstart]
        exact hc
      have hfollows : c.Follows True intake.current := by
        obtain ⟨_, _, hcurrent⟩ := hkept.current
        rw [hcurrent, ← hstart]
        exact ⟨rfl, rfl, id, id, .inr ⟨trivial, hopen c hc⟩, .inl ⟨rfl, rfl⟩⟩
      have hset : Touches True fd s (intake.server.setConnection fd intake.current) :=
        (hlog.trans hloop).trans (.single (.update hlookup hfollows))
      split
      · exact hset.trans (closeConnection_touches _ fd)
      · exact hset.trans (.single (.other ⟨rfl, rfl, rfl, rfl, rfl, rfl, rfl⟩ rfl (.inr trivial)
          (.inl rfl)))

theorem handleRead_touches
    (hopen : ∀ c, s.connections.lookup fd = some c → c.readEof = false) (outcome : RecvOutcome)
    (ticks : List ℕ) : Touches True fd s (s.handleRead fd outcome ticks) := by
  unfold handleRead
  split
  · exact .refl s
  · next c hc =>
      cases outcome with
      | interrupted => exact .refl s
      | failed => exact closeConnection_touches s fd
      | eof | again => exact decodeAndEnqueue_touches hopen ..
      | data bytes =>
          have happend : Touches True fd s
              (s.setConnection fd { c with inputBuffer := c.inputBuffer ++ bytes }) :=
            .single (.update hc ⟨rfl, rfl, id, id, .inr ⟨trivial, hopen c hc⟩, .inl ⟨rfl, rfl⟩⟩)
          refine happend.trans (decodeAndEnqueue_touches (fun c' hc' => ?_) false ticks)
          obtain rfl := Option.some.inj ((AList.lookup_insert _).symm.trans hc')
          exact hopen c hc

/-! ## The activations of `decodeAndEnqueue` -/

theorem enqueueTask_owned {frame frame' : Enqueue} {task : AuthTask} (h : frame.Owned)
    (hfd : task.request.fd = frame.fd)
    (hpoint : (s.enqueueTask frame task).point = .enqueue frame') :
    frame'.Owned ∧ frame'.fd = frame.fd ∧ frame'.eof = frame.eof := by
  unfold enqueueTask at hpoint
  simp only at hpoint
  split at hpoint
  · obtain rfl := ReactorPoint.enqueue.inj hpoint
    exact ⟨h.admitting hfd, rfl, rfl⟩
  · obtain rfl := ReactorPoint.enqueue.inj hpoint
    exact ⟨h.answer hfd rfl, rfl, rfl⟩

theorem enqueueRequest_owned {frame frame' : Enqueue} (h : frame.Owned)
    (hfd : request.fd = frame.fd)
    (hpoint : (s.enqueueRequest frame request).point = .enqueue frame') :
    frame'.Owned ∧ frame'.fd = frame.fd ∧ frame'.eof = frame.eof := by
  unfold enqueueRequest at hpoint
  simp only at hpoint
  split at hpoint
  · obtain rfl := ReactorPoint.enqueue.inj hpoint
    exact ⟨h.admitting hfd, rfl, rfl⟩
  · obtain rfl := ReactorPoint.enqueue.inj hpoint
    exact ⟨h.answer hfd rfl, rfl, rfl⟩

/-- The activation goes on with its connection. -/
theorem enqueueNext_owned {frame frame' : Enqueue} (h : frame.Owned) {ctl : Bool}
    (hpoint : (s.enqueueNext frame ctl).point = .enqueue frame') :
    frame'.Owned ∧ frame'.fd = frame.fd ∧ frame'.eof = frame.eof := by
  unfold enqueueNext at hpoint
  split at hpoint
  · next key hadmitted =>
      rw [(countAdmitted_touches s frame key).point] at hpoint
      obtain rfl := ReactorPoint.enqueue.inj hpoint
      exact ⟨⟨h.tasks, h.requests, h.responses, nofun⟩, rfl, rfl⟩
  · next task tasks hadmitted htasks =>
      obtain ⟨hrest, hfd⟩ := h.tasks_tail htasks
      have hnext := enqueueTask_owned hrest hfd hpoint
      exact hnext
  · next request requests hadmitted htasks hrequests =>
      obtain ⟨hrest, hfd⟩ := h.requests_tail hrequests
      have hnext := enqueueRequest_owned hrest hfd hpoint
      exact hnext
  · next response responses hadmitted htasks hrequests hresponses =>
      obtain ⟨hrest, -, hclient⟩ := h.responses_tail hresponses
      rw [(applyResponse_touches (admissible_of_none hclient) .reactor ctl).point] at hpoint
      obtain rfl := ReactorPoint.enqueue.inj hpoint
      exact ⟨hrest, rfl, rfl⟩
  · simp only at hpoint
    split at hpoint
    · rw [(markReadEof_touches ..).point] at hpoint
      cases hpoint
    · cases hpoint

/-- What the loop over the frames has collected is of the connection. -/
def Intake.Owned (fd : Fd) (intake : Intake) : Prop :=
  ∀ eof, Enqueue.Owned ⟨fd, intake.tasks, intake.requests, intake.responses, none, eof⟩

/-- At the beginning of the loop nothing is held. -/
theorem Intake.owned_start (s : Server) (fd : Fd) (c : Connection) (decoded : List Request)
    (buffer : Bytes) (closeNow : Bool) :
    (Intake.start s fd c decoded buffer closeNow).Owned fd := by
  intro eof
  simp only [Intake.start]
  exact ⟨List.forall_mem_nil _, List.forall_mem_nil _, List.forall_mem_nil _, by rintro _ ⟨⟩⟩

theorem intakeAuth_owned {intake intake' : Intake} (h : intake.Owned fd) (hfd : request.fd = fd)
    (hturn : intakeAuth intake request = .ok intake' ∨ intakeAuth intake request = .error intake') :
    intake'.Owned fd := by
  unfold intakeAuth at hturn
  split at hturn
  · obtain rfl : { intake with closeNow := true } = intake' := by simpa using hturn
    exact h
  · simp only at hturn
    split at hturn
    · obtain rfl := Except.error.inj (hturn.resolve_left nofun)
      exact h
    · next task htask =>
        obtain rfl := Except.ok.inj (hturn.resolve_right nofun)
        have hrequest : task.request = request := by
          unfold AuthTask.make at htask
          split at htask
          · cases htask
          · obtain rfl := Option.some.inj htask
            rfl
        refine fun eof => ⟨fun own hown => ?_, (h eof).requests, (h eof).responses, nofun⟩
        rcases List.mem_append.mp hown with hold | hnew
        · exact (h eof).tasks own hold
        · obtain rfl := List.mem_singleton.mp hnew
          rw [hrequest]
          exact hfd

theorem intakeBusiness_owned (h : intake.Owned fd) (hfd : request.fd = fd) (config : RuntimeConfig)
    (tick : ℕ) : (intakeBusiness config intake request tick).Owned fd := by
  have hanswer : ∀ response : Response, response.fd = fd →
      response.clientIdToAuthenticate = none → ∀ server,
        Intake.Owned fd { intake with
          server := server, responses := intake.responses ++ [response] } :=
    fun response hfd hclient _ eof => (h eof).answer hfd hclient
  unfold intakeBusiness
  simp only
  split
  · exact hanswer (alreadyAuthenticated request) hfd rfl intake.server
  · split
    · refine fun eof => ⟨(h eof).tasks, fun own hown => ?_, (h eof).responses, nofun⟩
      rcases List.mem_append.mp hown with hold | hnew
      · exact (h eof).requests own hold
      · obtain rfl := List.mem_singleton.mp hnew
        exact hfd
    · exact hanswer (rateLimited request) hfd rfl _

theorem intakeFrames_owned {requests : List Request} (h : intake.Owned fd)
    (hfd : ∀ request ∈ requests, request.fd = fd) (config : RuntimeConfig) (ticks : List ℕ) :
    (intakeFrames config intake requests ticks).Owned fd := by
  induction requests generalizing intake ticks with
  | nil => exact h
  | cons request rest ih =>
      have hfirst : request.fd = fd := hfd request List.mem_cons_self
      have hrest : ∀ request ∈ rest, request.fd = fd :=
        fun own hown => hfd own (List.mem_cons_of_mem request hown)
      unfold intakeFrames
      split
      · exact h
      · split
        · exact ih (intakeBusiness_owned h hfirst config _) hrest _
        · split
          · next herror => exact intakeAuth_owned h hfirst (.inr herror)
          · next hok => exact ih (intakeAuth_owned h hfirst (.inl hok)) hrest _

theorem decodeAndEnqueue_owned {readEof : Bool} {ticks : List ℕ} (hboundary : s.point = .boundary)
    (hfd : ∀ c, s.connections.lookup fd = some c → c.fd = fd)
    (hpoint : (s.decodeAndEnqueue fd readEof ticks).point = .enqueue frame) :
    frame.Owned ∧ frame.fd = fd ∧ frame.eof = readEof := by
  unfold decodeAndEnqueue at hpoint
  split at hpoint
  · cases hboundary.symm.trans hpoint
  · next c hc =>
      simp only at hpoint
      generalize hdecoded : decode c.inputBuffer c.fd c.connId
        (toUInt32 s.runtimeConfig.maxPayloadSize) = decoded at hpoint
      generalize hstart : Intake.start s fd c decoded.2.1 _ _ = start at hpoint
      have hrequests : ∀ request ∈ decoded.2.1, request.fd = fd := by
        intro request hrequest
        rw [← hdecoded] at hrequest
        exact (congrArg ConnectionKey.fd (decode_key hrequest)).trans (hfd c hc)
      have howned : start.Owned fd := hstart ▸ Intake.owned_start s fd c _ _ _
      have hloop := intakeFrames_owned howned hrequests s.runtimeConfig ticks
      have hstay : Touches False fd start.server
          (intakeFrames s.runtimeConfig start decoded.2.1 ticks).server := by
        subst hstart
        exact intakeFrames_touches (c := c) rfl hc rfl rfl decoded.2.1 ticks
      generalize intakeFrames s.runtimeConfig start decoded.2.1 ticks = intake
        at hpoint hloop hstay
      split at hpoint
      · have hthen : (intake.server.setConnection fd intake.current).point = .boundary := by
          refine hstay.point.trans ?_
          subst hstart
          exact hboundary
        rw [(closeConnection_touches _ fd).point, hthen] at hpoint
        cases hpoint
      · obtain rfl := ReactorPoint.enqueue.inj hpoint
        exact ⟨hloop readEof, rfl, rfl⟩

theorem handleRead_owned {outcome : RecvOutcome} {ticks : List ℕ} (hboundary : s.point = .boundary)
    (hfd : ∀ c, s.connections.lookup fd = some c → c.fd = fd)
    (hpoint : (s.handleRead fd outcome ticks).point = .enqueue frame) :
    frame.Owned ∧ frame.fd = fd ∧ (frame.eof = true ↔ outcome = .eof) := by
  unfold handleRead at hpoint
  split at hpoint
  · cases hboundary.symm.trans hpoint
  · next c hc =>
      cases outcome with
      | interrupted => cases hboundary.symm.trans hpoint
      | failed =>
          rw [(closeConnection_touches s fd).point] at hpoint
          cases hboundary.symm.trans hpoint
      | eof =>
          obtain ⟨howned, hsame, heof⟩ := decodeAndEnqueue_owned hboundary hfd hpoint
          exact ⟨howned, hsame, by simp [heof]⟩
      | again =>
          obtain ⟨howned, hsame, heof⟩ := decodeAndEnqueue_owned hboundary hfd hpoint
          exact ⟨howned, hsame, by simp [heof]⟩
      | data bytes =>
          obtain ⟨howned, hsame, heof⟩ := decodeAndEnqueue_owned
            (s := s.setConnection fd { c with inputBuffer := c.inputBuffer ++ bytes }) hboundary
            (fun c' hc' => by
              obtain rfl := Option.some.inj ((AList.lookup_insert _).symm.trans hc')
              exact hfd c hc) hpoint
          exact ⟨howned, hsame, by simp [heof]⟩

/-! ## Whole steps -/

theorem readable_eof (h : s.readable fd = true) (hc : s.connections.lookup fd = some c) :
    c.readEof = false := by
  simp only [readable, hc, Bool.and_eq_true] at h
  simpa using h.2.2

/-- What a step of the reactor does to the tables. -/
inductive Change (reads : Prop) : Server → Server → Prop
  | table {s t : Server} {fd : Fd} (h : TableStep reads fd s t) : Change reads s t
  | accept {s : Server} {fd : Fd} (hfree : s.connections.lookup fd = none) (ctl : Bool) :
      Change reads s (s.handleAccept fd ctl)
  | outside {s t : Server} (h : SameTables s t) : Change reads s t

theorem Change.mono {reads' : Prop} (himp : reads → reads') (h : Change reads s t) :
    Change reads' s t := by
  cases h with
  | table h => exact .table (h.mono himp)
  | accept hfree ctl => exact .accept hfree ctl
  | outside h => exact .outside h

def Changes (reads : Prop) : Server → Server → Prop := Relation.ReflTransGen (Change reads)

theorem Touches.changes (h : Touches reads fd s t) : Changes reads s t :=
  Relation.ReflTransGen.mono (r := TableStep reads fd) (fun _ _ h => .table h) s t h

theorem Changes.trans (h : Changes reads s t) (h' : Changes reads t u) : Changes reads s u :=
  Relation.ReflTransGen.trans h h'

theorem SameTables.changes (h : SameTables s t) : Changes reads s t :=
  Relation.ReflTransGen.single (.outside h)

theorem foldl_changes {α : Type*} {f : Server → α → Server} (hf : ∀ s a, Changes reads s (f s a))
    (items : List α) (s : Server) : Changes reads s (items.foldl f s) :=
  Transition.related_foldl (fun _ => .refl) (fun _ _ _ h h' => h.trans h') hf items s

/-- The loop of `beginDraining`: a connection whose turn comes is still
there. -/
theorem modifyEvents_changes {items : List (Fd × Interest)} (ctl : Fd → Bool)
    (hnodup : (items.map Prod.fst).Nodup)
    (hlive : ∀ item ∈ items, (s.connections.lookup item.1).isSome) :
    Changes reads s (items.foldl
      (fun s item => s.modifyConnectionEvents item.1 item.2 (ctl item.1)) s) := by
  induction items generalizing s with
  | nil => exact .refl
  | cons item items ih =>
      have hfirst : Touches reads item.1 s
          (s.modifyConnectionEvents item.1 item.2 (ctl item.1)) :=
        modifyConnectionEvents_touches (hlive item List.mem_cons_self) _ _
      rw [List.map_cons, List.nodup_cons] at hnodup
      refine hfirst.changes.trans (ih hnodup.2 fun own hown => ?_)
      have hne : own.1 ≠ item.1 := by
        intro heq
        exact hnodup.1 (heq ▸ List.mem_map_of_mem hown)
      rw [hfirst.elsewhere.lookup own.1 hne]
      exact hlive own (List.mem_cons_of_mem item hown)

theorem beginDrainingNext_changes (s : Server) (phase : DrainPhase) (ctl : Fd → Bool) :
    Changes reads s (s.beginDrainingNext phase ctl) := by
  cases phase with
  | stopRequests | stopAuth => exact SameTables.changes ⟨rfl, rfl, rfl, rfl, rfl, rfl, rfl⟩
  | modifyEvents =>
      have hpoint : SameTables s { s with point := .boundary } :=
        ⟨rfl, rfl, rfl, rfl, rfl, rfl, rfl⟩
      refine hpoint.changes.trans (modifyEvents_changes ctl ?_ fun item hitem => ?_)
      · rw [List.map_map]
        exact s.connections.nodupKeys
      · obtain ⟨entry, hentry, rfl⟩ := List.mem_map.mp hitem
        have hlookup : s.connections.lookup entry.1 = some entry.2 :=
          AList.mem_lookup_iff.mpr hentry
        simp [hlookup]

theorem reactorStep_changes {action : ReactorAction}
    (howned : ∀ frame, s.point = .enqueue frame → frame.Owned)
    (hqueue : s.atBoundary = true → ∀ response ∈ s.responseQueue.items, s.Admissible response)
    (hstep : s.reactorStep action = some t) : Changes action.Reads s t := by
  cases reactorStep_move hstep with
  | accept fd ctl _ _ hfree => exact .single (.accept hfree ctl)
  | read fd outcome ticks _ hreadable =>
      exact (handleRead_touches (fun c hc => readable_eof hreadable hc) outcome ticks).changes
  | enqueueNext frame ctl hpoint =>
      obtain ⟨point, htouches⟩ := enqueueNext_touches (howned frame hpoint) s ctl
      have hgo : SameTables s { s with point := point } := ⟨rfl, rfl, rfl, rfl, rfl, rfl, rfl⟩
      exact hgo.changes.trans htouches.changes
  | hangUp => exact (markReadEof_touches ..).changes
  | write => exact (handleWrite_touches ..).changes
  | socketError => exact (closeConnection_touches ..).changes
  | drainResponse response queue ctl hboundary hpop =>
      have hmem : response ∈ s.responseQueue.items := by
        rw [(BlockQueue.tryPop_eq_some hpop).1]
        exact List.mem_cons_self
      have hgo : SameTables s { s with responseQueue := queue } :=
        ⟨rfl, rfl, rfl, rfl, rfl, rfl, rfl⟩
      have hfresh : ({ s with responseQueue := queue } : Server).Admissible response :=
        hqueue hboundary response hmem
      exact hgo.changes.trans (applyResponse_touches hfresh .worker ctl).changes
  | drainRejected =>
      have hgo : SameTables s { s with rejectedResponseConnections := [] } :=
        ⟨rfl, rfl, rfl, rfl, rfl, rfl, rfl⟩
      exact hgo.changes.trans
        (foldl_changes (fun s key => (closeRejected_touches s key).changes) _ _)
  | beginDrainingNext => exact beginDrainingNext_changes ..
  | drainComplete =>
      have hclosed : Changes False s s.drainComplete.2 := by
        unfold drainComplete
        split
        · exact foldl_changes (fun s entry => (closeDrained_touches s _ _).changes) _ s
        · exact .refl
      split
      · exact hclosed.trans (SameTables.changes ⟨rfl, rfl, rfl, rfl, rfl, rfl, rfl⟩)
      · exact hclosed
  | beginDraining | deadline | stopQueues =>
      exact SameTables.changes ⟨rfl, rfl, rfl, rfl, rfl, rfl, rfl⟩
  | closeAll =>
      exact foldl_changes (fun s fd => (closeConnection_touches s fd).changes) _ s

/-- Every connection is a new one or a later state of one from before. -/
structure Evolves (reads : Prop) (s t : Server) : Prop where
  nextConnId : s.nextConnId ≤ t.nextConnId
  connection : ∀ fd c, t.connections.lookup fd = some c →
    s.nextConnId ≤ c.connId ∧ (reads ∨ c.inputBuffer = []) ∨
      ∃ old, s.connections.lookup fd = some old ∧ old.Follows reads c

theorem Evolves.of_eq (hconnections : t.connections = s.connections)
    (hnext : t.nextConnId = s.nextConnId) : Evolves reads s t :=
  ⟨hnext.ge, fun _ c hc => .inr ⟨c, hconnections ▸ hc, .refl c⟩⟩

theorem Evolves.trans (h : Evolves reads s t) (h' : Evolves reads t u) : Evolves reads s u where
  nextConnId := h.nextConnId.trans h'.nextConnId
  connection fd c hc := by
    rcases h'.connection fd c hc with ⟨hnew, hinput⟩ | ⟨middle, hmiddle, hlater⟩
    · exact .inl ⟨h.nextConnId.trans hnew, hinput⟩
    · rcases h.connection fd middle hmiddle with ⟨hnew, hinput⟩ | ⟨old, hold, hfirst⟩
      · refine .inl ⟨hlater.connId ▸ hnew, ?_⟩
        rcases hlater.input with hsame | ⟨hreads, -⟩
        · rwa [hsame]
        · exact .inl hreads
      · exact .inr ⟨old, hold, hfirst.trans hlater⟩

theorem TableStep.evolves (h : TableStep reads fd s t) : Evolves reads s t := by
  refine ⟨h.kept.1.ge, fun fd' c hc => .inr ?_⟩
  by_cases hfd : fd' = fd
  · subst hfd
    exact h.follows hc
  · exact ⟨c, (h.elsewhere.lookup fd' hfd).symm.trans hc, .refl c⟩

theorem Change.evolves (h : Change reads s t) : Evolves reads s t := by
  cases h with
  | table h => exact h.evolves
  | @accept fd hfree ctl =>
      cases ctl with
      | false => exact ⟨Nat.le_succ _, fun _ c hc => .inr ⟨c, hc, .refl c⟩⟩
      | true =>
          refine ⟨Nat.le_succ _, fun fd' c hc => ?_⟩
          by_cases hfd : fd' = fd
          · rw [hfd] at hc
            obtain rfl := Option.some.inj ((AList.lookup_insert _).symm.trans hc)
            exact .inl ⟨le_refl _, .inr rfl⟩
          · exact .inr ⟨c, (AList.lookup_insert_ne hfd).symm.trans hc, .refl c⟩
  | outside h => exact .of_eq h.connections h.nextConnId

theorem Changes.evolves (h : Changes reads s t) : Evolves reads s t := by
  induction h with
  | refl => exact .of_eq rfl rfl
  | tail _ hstep ih => exact ih.trans hstep.evolves

/-- Every registered descriptor is that of a connection. -/
def Registered (s : Server) : Prop :=
  ∀ fd, (s.interest fd).isSome → (s.connections.lookup fd).isSome

theorem Registered.of_eq (h : s.Registered) (hconnections : t.connections = s.connections)
    (hinterest : t.interest = s.interest) : t.Registered := by
  intro fd hfd
  rw [hinterest] at hfd
  rw [hconnections]
  exact h fd hfd

/-- It is enough to look at the descriptor a step is about. -/
theorem TableStep.registered (h : TableStep reads fd s t) (hs : s.Registered) : t.Registered := by
  intro fd' hfd'
  by_cases hfd : fd' = fd
  · subst hfd
    cases h with
    | other h => exact hs.of_eq h.connections h.interest fd' hfd'
    | update => exact setConnection_live ..
    | close =>
        cases hc : s.connections.lookup fd' with
        | none =>
            rw [closeConnection_none hc] at hfd' ⊢
            exact hs fd' hfd'
        | some c =>
            obtain ⟨_, _, _, heq, -⟩ := closeConnection_eq hc
            simp [heq] at hfd'
    | register hlive => exact hlive
    | allow =>
        obtain ⟨-, hconnections, hinterest, -⟩ := allowRequestForClient_table s _ s.runtimeConfig _
        exact hs.of_eq hconnections hinterest fd' hfd'
  · rw [h.elsewhere.interest fd' hfd] at hfd'
    rw [h.elsewhere.lookup fd' hfd]
    exact hs fd' hfd'

theorem Change.registered (h : Change reads s t) (hs : s.Registered) : t.Registered := by
  cases h with
  | table h => exact h.registered hs
  | @accept fd hfree ctl =>
      cases ctl with
      | false => exact hs
      | true =>
          intro fd' hfd'
          by_cases hfd : fd' = fd
          · subst hfd
            exact setConnection_live s fd' { fd := fd', connId := s.nextConnId }
          · have hold : (s.interest fd').isSome := by
              rwa [← Function.update_of_ne hfd (some _) s.interest]
            exact (AList.lookup_insert_ne hfd).symm ▸ hs fd' hold
  | outside h => exact hs.of_eq h.connections h.interest

theorem Untouched.decoded (h : Untouched s t) : t.decodedOf = s.decodedOf := by
  funext key
  rcases h.log with hlog | ⟨request, response, result, hlog⟩ <;> rw [decodedOf, decodedOf, hlog]
  rfl

/-- The reactor has left its loop. -/
def Left (s : Server) : Prop := s.state = .stopped ∧ s.point = .boundary

theorem Left.touches (h : s.Left) (htouches : Touches False fd s t) : t.Left :=
  ⟨htouches.elsewhere.state.trans h.1, htouches.point.trans h.2⟩

theorem Left.atBoundary (h : s.Left) : s.atBoundary = false := by
  rw [Server.atBoundary, h.1, h.2]

theorem Left.step (h : s.Left) (hstep : step library s action = some t) : t.Left := by
  rcases step_untouched hstep with ⟨own, rfl, hown⟩ | huntouched
  · cases own with
    | enqueueNext | beginDrainingNext =>
        simp only [reactorStep, h.2, reduceCtorEq] at hown
    | stopQueues =>
        obtain ⟨-, ⟨⟩⟩ := Option.ite_none_right_eq_some.mp hown
        exact h
    | closeAll =>
        obtain ⟨-, ⟨⟩⟩ := Option.ite_none_right_eq_some.mp hown
        exact List.foldlRecOn _ _ h fun s hs fd _ => hs.touches (closeConnection_touches s fd)
    | _ => simp [reactorStep, h.atBoundary] at hown
  · exact ⟨huntouched.state.trans h.1, huntouched.point.trans h.2⟩

/-- A run that passed the deadline has left the loop. -/
theorem beforeDeadline_or_left (h : Transition.Reachable (gateway library args) s) :
    Transition.ReachableBy (gateway library args) BeforeDeadline s ∨ s.Left := by
  refine Transition.ReachableBy.invariant (I := fun s =>
    Transition.ReachableBy (gateway library args) BeforeDeadline s ∨ s.Left)
    (fun s hinit => .inl (.init hinit)) ?_ h
  rintro s action t - (hbefore | hleft) - hstep
  · by_cases hdeadline : action = .reactor .deadline
    · subst hdeadline
      obtain ⟨hguard, ⟨⟩⟩ := Option.ite_none_right_eq_some.mp hstep
      have hpoint : s.point = .boundary :=
        boundary_of_atBoundary (Bool.and_eq_true_iff.mp hguard).1
      exact .inr ⟨rfl, hpoint⟩
    · exact .inl (.step hbefore hdeadline hstep)
  · exact .inr (hleft.step hstep)

theorem foldl_point {α : Type*} {f : Server → α → Server}
    (hf : ∀ s a, (f s a).point = s.point) (items : List α) (s : Server) :
    (items.foldl f s).point = s.point := by
  refine Transition.related_foldl (R := fun s t : Server => t.point = s.point) (fun _ => rfl) ?_ hf
    items s
  intro s t u h h'
  exact h'.trans h

/-- Only `handleRead` begins an activation of `decodeAndEnqueue`. -/
theorem enqueue_origin {action : ReactorAction}
    (hqueue : s.atBoundary = true → ∀ response ∈ s.responseQueue.items, s.Admissible response)
    (hstep : s.reactorStep action = some t) (hpoint : t.point = .enqueue frame) :
    s.point = .enqueue frame ∨ (∃ fd outcome ticks, action = .read fd outcome ticks) ∨
      ∃ ctl, action = .enqueueNext ctl := by
  cases reactorStep_move hstep with
  | accept fd ctl => cases ctl <;> exact .inl hpoint
  | read fd outcome ticks => exact .inr (.inl ⟨fd, outcome, ticks, rfl⟩)
  | enqueueNext _ ctl => exact .inr (.inr ⟨ctl, rfl⟩)
  | hangUp fd ctl =>
      exact .inl ((markReadEof_touches s fd ctl).point.symm.trans hpoint)
  | write fd outcome ctl =>
      exact .inl ((handleWrite_touches s fd outcome ctl).point.symm.trans hpoint)
  | socketError fd =>
      exact .inl ((closeConnection_touches s fd).point.symm.trans hpoint)
  | drainResponse response queue ctl hboundary hpop =>
      have hmem : response ∈ s.responseQueue.items := by
        rw [(BlockQueue.tryPop_eq_some hpop).1]
        exact List.mem_cons_self
      have hfresh : ({ s with responseQueue := queue } : Server).Admissible response :=
        hqueue hboundary response hmem
      exact .inl ((applyResponse_touches hfresh .worker ctl).point.symm.trans hpoint)
  | drainRejected =>
      have hstay : s.drainRejectedResponses.point = s.point :=
        foldl_point (fun s key => (closeRejected_touches s key).point) _ _
      exact .inl (hstay.symm.trans hpoint)
  | beginDraining => cases hpoint
  | beginDrainingNext phase ctl =>
      cases phase with
      | stopRequests | stopAuth => cases hpoint
      | modifyEvents =>
          have hstay : ∀ (s : Server) (item : Fd × Interest),
              (s.modifyConnectionEvents item.1 item.2 (ctl item.1)).point = s.point := by
            intro s item
            cases ctl item.1 with
            | true => rfl
            | false => exact (closeConnection_touches s item.1).point
          cases (foldl_point hstay _ _).symm.trans hpoint
  | drainComplete =>
      have hstay : s.drainComplete.2.point = s.point := by
        unfold drainComplete
        split
        · exact foldl_point (fun s _ => (closeDrained_touches s _ _).point) _ s
        · rfl
      refine .inl (hstay.symm.trans ?_)
      split at hpoint <;> exact hpoint
  | deadline | stopQueues => exact .inl hpoint
  | closeAll =>
      exact .inl ((foldl_point (fun s fd => (closeConnection_touches s fd).point) _ s).symm.trans
        hpoint)

/-! ## Runs -/

/-- A response that waits for the reactor does not authenticate a connection
that is authenticated. -/
theorem admissible (h : Transition.Reachable (gateway library args) s)
    (hboundary : s.atBoundary = true) (hresponse : response ∈ s.responseQueue.items) :
    s.Admissible response := by
  intro hclient c hc hconnId
  have hbefore := (beforeDeadline_or_left h).resolve_right fun hleft => by
    rw [hleft.atBoundary] at hboundary
    cases hboundary
  have hbalanced := (ledger_accounted hbefore).balanced response.fd c hc
  have hkey : Item.key (.response response) = ⟨response.fd, c.connId⟩ := by
    rw [hconnId]
    rfl
  have hwork : .response response ∈ s.ledger.work := by
    have hmem : Item.response response ∈
        (s.responseQueue.items.map Item.response : Multiset Item) :=
      List.mem_map_of_mem hresponse
    exact Multiset.mem_add.mpr (.inl (Multiset.mem_add.mpr (.inr hmem)))
  have hitem : .response response ∈ (s.ledger.session response.fd c).items :=
    Multiset.mem_add.mpr (.inl (Multiset.mem_filter.mpr ⟨hwork, hkey⟩))
  rcases hbalanced.fits _ hitem with ⟨-, hbusiness⟩ | ⟨hpending, -⟩
  · rw [hbusiness.client] at hclient
    cases hclient
  · cases hauth : c.authenticated with
    | false => rfl
    | true => cases (hbalanced.exclusive hauth).symm.trans hpending

/-- Every activation of `decodeAndEnqueue` is about one connection. -/
theorem owned (h : Transition.Reachable (gateway library args) s) :
    ∀ frame, s.point = .enqueue frame → frame.Owned := by
  refine h.invariant (I := fun s => ∀ frame, s.point = .enqueue frame → frame.Owned) ?_ ?_
  · rintro s ⟨now, hstart⟩ frame hpoint
    rw [start_eq_some hstart] at hpoint
    cases hpoint
  · intro s action t hreach hs _ hstep frame hpoint
    rcases step_untouched hstep with ⟨own, rfl, hown⟩ | huntouched
    · rcases enqueue_origin (fun hboundary _ => admissible hreach hboundary) hown hpoint with
        hold | ⟨fd, outcome, ticks, rfl⟩ | ⟨ctl, rfl⟩
      · exact hs frame hold
      · cases reactorStep_move hown with
        | read _ _ _ hboundary =>
            exact (handleRead_owned (boundary_of_atBoundary hboundary)
              (fun c hc => (ledger_sound hreach).identified.fd fd c hc) hpoint).1
      · cases reactorStep_move hown with
        | enqueueNext old _ hold => exact (enqueueNext_owned (hs old hold) hpoint).1
    · exact hs frame (huntouched.point ▸ hpoint)

/-- A step of the reactor changes the tables only by primitive steps. -/
theorem step_changes (h : Transition.Reachable (gateway library args) s)
    (hstep : step library s action = some t) :
    (∃ own, action = .reactor own ∧ Changes own.Reads s t) ∨ Untouched s t := by
  rcases step_untouched hstep with ⟨own, rfl, hown⟩ | huntouched
  · exact .inl ⟨own, rfl, reactorStep_changes (owned h)
      (fun hboundary _ => admissible h hboundary) hown⟩
  · exact .inr huntouched

theorem step_evolves (h : Transition.Reachable (gateway library args) s)
    (hstep : step library s action = some t) : Evolves action.Reads s t := by
  rcases step_changes h hstep with ⟨own, rfl, hchanges⟩ | huntouched
  · exact hchanges.evolves
  · exact .of_eq huntouched.connections huntouched.nextConnId

/-- The reactor reads only between two activations of `decodeAndEnqueue`. -/
theorem boundary_of_reads (hreads : action.Reads) (hstep : step library s action = some t) :
    s.point = .boundary := by
  cases action with
  | reactor own =>
      cases own with
      | read fd outcome ticks =>
          simp only [step, reactorStep, Option.ite_none_right_eq_some, Bool.and_eq_true] at hstep
          exact boundary_of_atBoundary hstep.1.1.1
      | _ => exact hreads.elim
  | _ => exact hreads.elim

/-- What the start satisfies, every change keeps and no other thread touches,
holds in every state. -/
theorem tables_invariant {P : Server → Prop} (hinit : ∀ now, P (started args now))
    (hchange : ∀ s t, Change True s t → P s → P t)
    (huntouched : ∀ s t, Untouched s t → P s → P t)
    (h : Transition.Reachable (gateway library args) s) : P s := by
  refine h.invariant (I := P) ?_ ?_
  · rintro s ⟨now, hstart⟩
    rw [start_eq_some hstart]
    exact hinit now
  · intro s action t hreach hs _ hstep
    rcases step_changes hreach hstep with ⟨own, rfl, hchanges⟩ | hother
    · refine Transition.kept_along (fun s t (hstep : Change own.Reads s t) => ?_) hchanges hs
      exact hchange s t (hstep.mono fun _ => trivial)
    · exact huntouched s t hother hs

theorem registered (h : Transition.Reachable (gateway library args) s) : s.Registered :=
  tables_invariant (fun _ _ hfd => by cases hfd) (fun _ _ hchange => hchange.registered)
    (fun _ _ huntouched hs => hs.of_eq huntouched.connections huntouched.interest) h

end Server

end GatewaySystem
