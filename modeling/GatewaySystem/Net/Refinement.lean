import GatewaySystem.Lib.Pool
import GatewaySystem.Net.Conservation
import GatewaySystem.Net.Gateway

/-!
# The gateway refines the ledger

`ledger` forgets where an item of work is: the queues, the threads and the
responses that were refused are one collection. Every function of the reactor
and every step of a worker is then a sequence of steps of the ledger, and
`step_refines` says so of every action of the gateway but the deadline, which
discards work.
-/

namespace GatewaySystem

/-- Events that do not concern the frames of a connection. -/
def Event.isHidden : Event → Bool
  | .checked _ _ _ => true
  | .windowErased _ _ _ => true
  | .closed _ => true
  | _ => false

/-- The history of the ledger. -/
def visible (log : List Event) : List Event := log.filter fun event => !event.isHidden

/-- The response that `response_queue_` refused. -/
def Event.refused? : Event → Option Item
  | .offered _ _ .ok => none
  | .offered _ response _ => some (.response response)
  | _ => none

/-- What a normal worker holds. -/
def NormalWorker.item? : NormalWorker → Option Item
  | .handling request => some (.request request)
  | _ => none

/-- What an AUTH worker holds. -/
def AuthWorker.item? : AuthWorker → Option Item
  | .popped task => some (.task task)
  | .checking task => some (.task task)
  | .answering task _ => some (.task task)
  | _ => none

/-- What an activation of `decodeAndEnqueue` still holds. -/
def Enqueue.items (frame : Enqueue) : Multiset Item :=
  (frame.tasks.map Item.task : Multiset Item) + (frame.requests.map Item.request : Multiset Item) +
    (frame.responses.map Item.response : Multiset Item)

namespace Server

/-- Everything a queue has accepted and that is not answered. -/
def work (s : Server) : Multiset Item :=
  (s.requestQueue.items.map Item.request : Multiset Item) +
    (s.authQueue.items.map Item.task : Multiset Item) +
    (s.workers.filterMap NormalWorker.item? : Multiset Item) +
    (s.authWorkers.filterMap AuthWorker.item? : Multiset Item) +
    (s.responseQueue.items.map Item.response : Multiset Item) +
    (s.log.filterMap Event.refused? : Multiset Item)

def intake (s : Server) : Multiset Item :=
  match s.point with
  | .enqueue frame => frame.items
  | _ => 0

def admitted (s : Server) : Option ConnectionKey :=
  match s.point with
  | .enqueue frame => frame.admitted
  | _ => none

/-- The ledger of a state. -/
def ledger (s : Server) : Ledger where
  state := s.state
  connections fd := s.connections.lookup fd
  nextConnId := s.nextConnId
  cancelled := s.cancelled
  nextCancellation := s.nextCancellation
  work := s.work
  intake := s.intake
  admitted := s.admitted
  history := visible s.log

/-- Finitely many steps of the ledger. -/
def Refines (s t : Server) : Prop := Relation.ReflTransGen Ledger.Step s.ledger t.ledger

theorem Refines.refl (s : Server) : Refines s s := Relation.ReflTransGen.refl

theorem Refines.of_eq {s t : Server} (h : t.ledger = s.ledger) : Refines s t := by
  rw [Refines, h]

theorem Refines.single {s t : Server} (h : Ledger.Step s.ledger t.ledger) : Refines s t :=
  Relation.ReflTransGen.single h

theorem Refines.of_step {s t : Server} {l : Ledger} (hstep : Ledger.Step s.ledger l)
    (h : t.ledger = l) : Refines s t := .single (h ▸ hstep)

theorem Refines.trans {s t u : Server} (h : Refines s t) (h' : Refines t u) : Refines s u :=
  Relation.ReflTransGen.trans h h'

theorem lookup_insert_eq (connections : AList fun _ : Fd => Connection) (fd : Fd)
    (c : Connection) : (fun fd' => (connections.insert fd c).lookup fd') =
      Function.update (fun fd' => connections.lookup fd') fd (some c) := by
  funext fd'
  by_cases heq : fd' = fd
  · subst heq
    rw [Function.update_self, AList.lookup_insert]
  · rw [Function.update_of_ne heq, AList.lookup_insert_ne heq]

theorem lookup_erase_eq (connections : AList fun _ : Fd => Connection) (fd : Fd) :
    (fun fd' => (connections.erase fd).lookup fd') =
      Function.update (fun fd' => connections.lookup fd') fd none := by
  funext fd'
  by_cases heq : fd' = fd
  · subst heq
    rw [Function.update_self, AList.lookup_erase]
  · rw [Function.update_of_ne heq, AList.lookup_erase_ne heq]

theorem ledger_setConnection (s : Server) (fd : Fd) (c : Connection) :
    (s.setConnection fd c).ledger = s.ledger.set fd c := by
  simp only [ledger, Ledger.set, setConnection, lookup_insert_eq]
  rfl

/-- A visible event of a connection enters the history and moves no item. -/
theorem ledger_emit (s : Server) {event : Event} (hvisible : event.isHidden = false)
    (hrefused : event.refused? = none) : (s.emit event).ledger = s.ledger.record [event] := by
  have hlog : visible (event :: s.log) = event :: visible s.log :=
    List.filter_cons_of_pos (by simp [hvisible])
  have hwork : (event :: s.log).filterMap Event.refused? = s.log.filterMap Event.refused? :=
    List.filterMap_cons_none hrefused
  simp only [ledger, Ledger.record, emit, work, hlog, hwork]
  rfl

theorem ledger_emit_hidden (s : Server) {event : Event} (hhidden : event.isHidden = true) :
    (s.emit event).ledger = s.ledger := by
  have hlog : visible (event :: s.log) = visible s.log :=
    List.filter_cons_of_neg (by simp [hhidden])
  have hwork : (event :: s.log).filterMap Event.refused? = s.log.filterMap Event.refused? := by
    refine List.filterMap_cons_none ?_
    cases event <;> first | rfl | cases hhidden
  simp only [ledger, emit, work, hlog, hwork]
  rfl

theorem ledger_releaseClient (s : Server) (c : Connection) :
    (s.releaseClient c).ledger = s.ledger := by
  unfold releaseClient eraseWindow
  split
  · split
    · rfl
    · exact ledger_emit_hidden _ rfl
  · rfl

variable {s : Server} {c : Connection} {fd : Fd} {response : Response} {requests : List Request}
  {args : StartArgs} {library : Json.Library}

theorem ledger_closeConnection (h : s.connections.lookup fd = some c) :
    (s.closeConnection fd).ledger = s.ledger.close fd c := by
  rw [closeConnection, h]
  simp only
  rw [ledger_emit_hidden _ rfl, ledger_releaseClient]
  unfold cancelAuth Ledger.close
  cases c.authCancellation <;> simp only [ledger, eraseConnection, lookup_erase_eq] <;> rfl

theorem closeConnection_none (h : s.connections.lookup fd = none) : s.closeConnection fd = s := by
  rw [closeConnection, h]

theorem closeConnection_refines (s : Server) (fd : Fd) : Refines s (s.closeConnection fd) := by
  cases h : s.connections.lookup fd with
  | none => rw [closeConnection_none h]; exact .refl s
  | some c =>
      refine .single ?_
      rw [ledger_closeConnection h]
      exact .close h

theorem modifyConnectionEvents_refines (s : Server) (fd : Fd) (events : Interest) (ctl : Bool) :
    Refines s (s.modifyConnectionEvents fd events ctl) := by
  cases ctl with
  | true => exact .of_eq rfl
  | false => exact closeConnection_refines s fd

theorem canCloseAfterDrain_iff : s.canCloseAfterDrain c = true ↔ s.ledger.Drained c := by
  simp [canCloseAfterDrain, Ledger.Drained, ledger, and_assoc, or_assoc]

theorem ledger_closeDrained (h : s.connections.lookup fd = some c) :
    (s.closeDrained fd c).ledger = (s.ledger.record [.drained ⟨fd, c.connId⟩]).close fd c := by
  have hemit : (s.emit (.drained ⟨fd, c.connId⟩)).connections.lookup fd = some c := h
  rw [closeDrained, ledger_closeConnection hemit, ledger_emit s rfl rfl]

theorem closeDrained_refines (h : s.connections.lookup fd = some c) (hquiet : s.ledger.Quiet)
    (hdrained : s.canCloseAfterDrain c = true) : Refines s (s.closeDrained fd c) := by
  refine .single ?_
  rw [ledger_closeDrained h]
  exact .drain h hquiet (canCloseAfterDrain_iff.mp hdrained)

theorem maybeCloseAfterDrain_refines (s : Server) (fd : Fd) (hquiet : s.ledger.Quiet) :
    Refines s (s.maybeCloseAfterDrain fd) := by
  unfold maybeCloseAfterDrain
  split
  · exact .refl s
  · next c hc =>
      split
      · next hdrained => exact closeDrained_refines hc hquiet hdrained
      · exact .refl s

theorem setConnection_lookup (s : Server) (fd : Fd) (c : Connection) :
    (s.setConnection fd c).connections.lookup fd = some c := AList.lookup_insert s.connections

theorem finishWrite_refines (h : s.connections.lookup fd = some c) (hquiet : s.ledger.Quiet)
    (ctl : Bool) : Refines s (s.finishWrite fd c ctl) := by
  unfold finishWrite
  split
  · next hdrained => exact closeDrained_refines h hquiet hdrained
  · exact modifyConnectionEvents_refines s fd _ ctl

theorem markReadEof_refines (s : Server) (fd : Fd) (ctl : Bool) (hquiet : s.ledger.Quiet) :
    Refines s (s.markReadEof fd ctl) := by
  unfold markReadEof
  split
  · exact .refl s
  · next c hc =>
      split
      · exact maybeCloseAfterDrain_refines s fd hquiet
      · have hset : Refines s (s.setConnection fd { c with readEof := true }) := by
          refine .single ?_
          rw [ledger_setConnection]
          exact .markEof hc
        exact hset.trans (finishWrite_refines (setConnection_lookup ..) hquiet ctl)

/-- A connection can be closed after a send only if the send took all. -/
theorem all_sent {l : Ledger} {count : ℕ} (hcount : 0 < count ∧ count ≤ c.unsent.length)
    (hdrained : l.Drained (c.advance count)) : c.writeOffset + count = c.outputBuffer.length := by
  have hlength : c.unsent.length = c.outputBuffer.length - c.writeOffset := List.length_drop
  have hempty := hdrained.2.2
  unfold Connection.advance at hempty
  split at hempty
  · next hall => exact hall
  · have hle : c.outputBuffer.length ≤ c.writeOffset + count := hempty
    omega

/-- Closing a connection whose record was just written. -/
theorem close_set (l : Ledger) (fd : Fd) {c c' : Connection}
    (hcell : c'.authCancellation = c.authCancellation) :
    (l.set fd c').close fd c' = l.close fd c := by
  simp only [Ledger.close, Ledger.set, Function.update_idem, hcell]

/-- The state after `send` took bytes, before the output is looked at again. -/
theorem send_refines (h : s.connections.lookup fd = some c) (hquiet : s.ledger.Quiet) {count : ℕ}
    (hcount : 0 < count ∧ count ≤ c.unsent.length) (ctl : Bool) {t : Server}
    (ht : t = (s.emit (.sent ⟨fd, c.connId⟩ (c.unsent.take count))).setConnection fd
      (c.advance count)) :
    Refines s (if c.writeOffset + count = c.outputBuffer.length then
      t.finishWrite fd (c.advance count) ctl else t) := by
  have hledger : t.ledger = (s.ledger.set fd (c.advance count)).record
      [.sent ⟨fd, c.connId⟩ (c.unsent.take count)] := by
    rw [ht, ledger_setConnection, ledger_emit s rfl rfl]
    rfl
  have hlookup : t.connections.lookup fd = some (c.advance count) := by
    rw [ht]
    exact setConnection_lookup ..
  have hstate : t.canCloseAfterDrain (c.advance count) =
      s.canCloseAfterDrain (c.advance count) := by rw [ht]; rfl
  by_cases hdrained : s.canCloseAfterDrain (c.advance count) = true
  · have hall := all_sent hcount (canCloseAfterDrain_iff.mp hdrained)
    rw [if_pos hall, finishWrite, hstate, if_pos hdrained]
    refine .single ?_
    rw [ledger_closeDrained hlookup, hledger, Ledger.advance_connId]
    have hlast := Ledger.Step.sendLast h hcount hquiet (canCloseAfterDrain_iff.mp hdrained)
    rw [← close_set _ fd (Session.advance_same c count).2.2.2.2] at hlast
    exact hlast
  · have hsend : Refines s t := by
      refine .single ?_
      rw [hledger]
      exact .send h hcount (fun hd => hdrained (canCloseAfterDrain_iff.mpr hd))
    split
    · rw [finishWrite, hstate, if_neg hdrained]
      exact hsend.trans (modifyConnectionEvents_refines t fd _ ctl)
    · exact hsend

theorem handleWrite_refines (s : Server) (fd : Fd) (outcome : SendOutcome) (ctl : Bool)
    (hquiet : s.ledger.Quiet) (hpossible : s.sendPossible fd outcome = true) :
    Refines s (s.handleWrite fd outcome ctl) := by
  unfold handleWrite
  split
  · exact .refl s
  · next c hc =>
      split
      · exact finishWrite_refines hc hquiet ctl
      · cases outcome with
        | interrupted | again => exact .refl s
        | failed => exact closeConnection_refines s fd
        | sent count =>
            have hcount : 0 < count ∧ count ≤ c.unsent.length := by
              simpa [sendPossible, hc] using hpossible
            have hsend := send_refines hc hquiet hcount ctl rfl
            by_cases hall : c.writeOffset + count = c.outputBuffer.length
            · simpa only [Connection.advance, hall, if_true] using hsend
            · simpa only [Connection.advance, hall, if_false] using hsend

theorem handleAccept_refines (hfree : s.connections.lookup fd = none) (hrun : s.state = .running)
    (hquiet : s.ledger.Quiet) (ctl : Bool) : Refines s (s.handleAccept fd ctl) := by
  refine .single ?_
  cases ctl with
  | false => exact .skip
  | true =>
      have hledger : (s.handleAccept fd true).ledger =
          ({ s.ledger with nextConnId := s.nextConnId + 1 }.set fd
            { fd := fd, connId := s.nextConnId }).record [.accepted ⟨fd, s.nextConnId⟩] := by
        simp only [handleAccept, if_true]
        rw [ledger_emit _ rfl rfl]
        simp only [ledger, Ledger.set, Ledger.record, lookup_insert_eq]
        rfl
      rw [hledger]
      exact .accept hfree hrun hquiet

/-! ## Responses -/

/-- The authentication step changes neither the connections nor the work. -/
theorem authenticate_settles (s : Server) (c : Connection) (response : Response) :
    ∃ extra, Settles c response (s.authenticate c response).2.1 (s.authenticate c response).2.2
        extra ∧ (s.authenticate c response).1.ledger = s.ledger.record extra ∧
      (s.authenticate c response).1.runtimeConfig = s.runtimeConfig := by
  unfold authenticate
  split
  · next clientId hclient =>
      split
      · exact ⟨[], .refused (by rw [hclient]; rfl), rfl, rfl⟩
      · refine ⟨_, .authenticated hclient, ?_, rfl⟩
        exact ledger_emit _ rfl rfl
  · next hclient =>
      split <;> exact ⟨[], .unchanged hclient, rfl, rfl⟩

/-- A response that meets its connection is one step of the ledger, whether it
is appended or the connection is closed for it. -/
theorem deliver_refines {s₀ s : Server} {origin : ResponseOrigin} {rest : Multiset Item}
    (hsource : s₀.ledger.source origin = .response response ::ₘ rest)
    (hadmitted : s₀.ledger.admitted = none) (hlive : s₀.ledger.Live response.key c)
    {c' : Connection} {answer : Response} {extra : List Event}
    (hsettles : Settles (clearAuth response (completeWork origin c)) response c' answer extra)
    (hs : s.ledger = (s₀.ledger.take origin rest).record extra) (ctl : Bool) :
    Refines s₀ (s.deliver response.fd c' answer ctl) := by
  have hclose : ∀ t : Server, t.ledger = s.ledger.set response.fd c' →
      Refines s₀ (t.closeConnection response.fd) := by
    intro t ht
    have hlookup : t.ledger.connections response.fd = some c' := by
      rw [ht]
      exact Function.update_self ..
    refine .single ?_
    rw [ledger_closeConnection hlookup, ht, close_set _ _ rfl, hs]
    exact .answerClose hsource hlive hsettles
  unfold deliver
  split
  · exact hclose _ (ledger_setConnection s response.fd c')
  · split
    · exact hclose _ (ledger_setConnection s response.fd c')
    · next hlimit =>
        have hid : c'.connId = c.connId := (Ledger.settles_identity hsettles).2.1
        have hroom : c'.unsent.length + (ProtocolCodec.encode answer).length ≤
            s.runtimeConfig.slowClientOutputLimit := by
          rw [show c'.unsent.length = c'.outputBuffer.length - c'.writeOffset from List.length_drop]
          exact not_lt.mp hlimit
        have happend : Refines s₀ ((s.setConnection response.fd (appendOutput c' answer)).emit
            (.appended ⟨response.fd, c'.connId⟩ answer s.runtimeConfig.slowClientOutputLimit)) := by
          refine .single ?_
          rw [ledger_emit _ rfl rfl, ledger_setConnection, hs, hid]
          exact .answer hsource hadmitted hlive hsettles hroom
        exact happend.trans (modifyConnectionEvents_refines _ _ _ ctl)

theorem applyResponse_refines {s₀ s : Server} {origin : ResponseOrigin} {rest : Multiset Item}
    (hsource : s₀.ledger.source origin = .response response ::ₘ rest)
    (hadmitted : s₀.ledger.admitted = none) (hs : s.ledger = s₀.ledger.take origin rest)
    (ctl : Bool) : Refines s₀ (s.applyResponse response origin ctl) := by
  have hconnections : ∀ fd, s.connections.lookup fd = s₀.ledger.connections fd :=
    fun fd => congrFun (congrArg Ledger.connections hs) fd
  have hstale : (∀ c, ¬ s₀.ledger.Live response.key c) → Refines s₀ s.dropStale := by
    intro hgone
    refine .single ?_
    rw [show s.dropStale.ledger = s.ledger from rfl, hs]
    exact .stale hsource hgone
  unfold applyResponse
  split
  · next hnone =>
      refine hstale fun c hlive => ?_
      rw [hconnections] at hnone
      cases hnone.symm.trans hlive.1
  · next c hc =>
      rw [hconnections] at hc
      split
      · next hne =>
          refine hstale fun c' hlive => hne ?_
          obtain rfl := Option.some.inj (hc.symm.trans hlive.1)
          exact hlive.2
      · next heq =>
          obtain ⟨extra, hsettles, hledger, -⟩ :=
            authenticate_settles s (clearAuth response (completeWork origin c)) response
          exact deliver_refines hsource hadmitted ⟨hc, not_not.mp heq⟩ hsettles
            (by rw [hledger, hs]) ctl

/-! ## Taking frames in -/

theorem ledger_allowRequestForClient (s : Server) (clientId : Bytes) (config : RuntimeConfig)
    (tick : ℕ) : (s.allowRequestForClient clientId config tick).2.ledger = s.ledger := by
  unfold allowRequestForClient
  simp only
  split <;> exact ledger_emit_hidden _ rfl

/-- A frame on an authenticated connection is passed on or answered. -/
theorem intakeBusiness_cases (config : RuntimeConfig) (intake : Intake) (request : Request)
    (tick : ℕ) : ∃ server : Server, server.ledger = intake.server.ledger ∧
      (intakeBusiness config intake request tick =
          { intake with server := server, requests := intake.requests ++ [request] } ∧
          request.type ≠ .auth ∨
        ∃ response ∈ localAnswers request, response.BusinessAnswer ∧
          intakeBusiness config intake request tick =
            { intake with server := server, responses := intake.responses ++ [response] }) := by
  unfold intakeBusiness
  split
  · refine ⟨intake.server, rfl, .inr ⟨alreadyAuthenticated request, by simp [localAnswers],
      ?_, rfl⟩⟩
    exact ⟨by simp [alreadyAuthenticated, Request.respond], rfl, rfl, rfl⟩
  · next htype =>
      refine ⟨_, ledger_allowRequestForClient intake.server intake.current.clientId config tick, ?_⟩
      simp only
      split
      · exact .inl ⟨rfl, htype⟩
      · refine .inr ⟨rateLimited request, by simp [localAnswers], ?_, rfl⟩
        exact ⟨by simp [rateLimited, Request.respond], rfl, rfl, rfl⟩

theorem businessItems_request {items : Multiset Item} (h : Ledger.BusinessItems requests items)
    {request : Request} (htype : request.type ≠ .auth) :
    Ledger.BusinessItems (request :: requests) (.request request ::ₘ items) where
  tags := by
    rw [Multiset.map_cons, h.tags]
    rfl
  origin item hitem := by
    rcases Multiset.mem_cons.mp hitem with rfl | hitem
    · exact ⟨request, by simp, .inl ⟨rfl, htype⟩⟩
    · obtain ⟨own, hown, horigin⟩ := h.origin item hitem
      exact ⟨own, List.mem_cons_of_mem _ hown, horigin⟩

theorem businessItems_response {items : Multiset Item} (h : Ledger.BusinessItems requests items)
    {request : Request} (hlocal : response ∈ localAnswers request)
    (hanswer : response.BusinessAnswer) :
    Ledger.BusinessItems (request :: requests) (.response response ::ₘ items) where
  tags := by
    rw [Multiset.map_cons, h.tags, Item.tag, tag_of_mem_localAnswers hlocal]
    rfl
  origin item hitem := by
    rcases Multiset.mem_cons.mp hitem with rfl | hitem
    · exact ⟨request, by simp, .inr ⟨response, hlocal, rfl, hanswer⟩⟩
    · obtain ⟨own, hown, horigin⟩ := h.origin item hitem
      exact ⟨own, List.mem_cons_of_mem _ hown, horigin⟩

/-- The loop over the frames of an authenticated connection. -/
theorem intakeFrames_business (config : RuntimeConfig) (requests : List Request) :
    ∀ (intake : Intake) (ticks : List ℕ), intake.current.authenticated = true →
      (intakeFrames config intake requests ticks).current = intake.current ∧
      (intakeFrames config intake requests ticks).server.ledger = intake.server.ledger ∧
      ((intakeFrames config intake requests ticks).closeNow = false →
        (intakeFrames config intake requests ticks).tasks = intake.tasks ∧
        ∃ passed answered,
          (intakeFrames config intake requests ticks).requests = intake.requests ++ passed ∧
          (intakeFrames config intake requests ticks).responses = intake.responses ++ answered ∧
          Ledger.BusinessItems requests ((passed.map Item.request : Multiset Item) +
            (answered.map Item.response : Multiset Item))) := by
  induction requests with
  | nil =>
      intro intake ticks _
      refine ⟨rfl, rfl, fun _ => ⟨rfl, [], [], by simp [intakeFrames], by simp [intakeFrames], ?_⟩⟩
      exact ⟨rfl, by simp⟩
  | cons request requests ih =>
      intro intake ticks hauth
      rw [intakeFrames]
      split
      · exact ⟨rfl, rfl, fun hopen => nomatch hopen⟩
      · obtain ⟨server, hserver, hframe⟩ :=
          intakeBusiness_cases config intake request (ticks.headD 0)
        rcases hframe with ⟨heq, htype⟩ | ⟨response, hlocal, hanswer, heq⟩
        · rw [heq]
          obtain ⟨hcurrent, hledger, hrest⟩ := ih { intake with
            server := server, requests := intake.requests ++ [request] } ticks.tail hauth
          refine ⟨hcurrent, hledger.trans hserver, fun hopen => ?_⟩
          obtain ⟨htasks, passed, answered, hrequests, hresponses, hitems⟩ := hrest hopen
          refine ⟨htasks, request :: passed, answered, by simp [hrequests], hresponses, ?_⟩
          have hcons := businessItems_request hitems htype
          rwa [← Multiset.cons_add] at hcons
        · rw [heq]
          obtain ⟨hcurrent, hledger, hrest⟩ := ih { intake with
            server := server, responses := intake.responses ++ [response] } ticks.tail hauth
          refine ⟨hcurrent, hledger.trans hserver, fun hopen => ?_⟩
          obtain ⟨htasks, passed, answered, hrequests, hresponses, hitems⟩ := hrest hopen
          refine ⟨htasks, passed, response :: answered, hrequests, by simp [hresponses], ?_⟩
          have hcons := businessItems_response hitems hlocal hanswer
          rwa [← Multiset.add_cons] at hcons

/-- The variables of the loop after an AUTH frame was passed on. -/
def Intake.authStarted (intake : Intake) (request : Request) : Intake :=
  { intake with
    server := { intake.server with nextCancellation := intake.server.nextCancellation + 1 }
    current := { intake.current with
      authPending := true, authCancellation := some intake.server.nextCancellation }
    tasks := intake.tasks ++ [⟨request, intake.server.nextCancellation⟩] }

/-- A frame on a connection that is not authenticated becomes an AUTH task or
closes the connection. -/
theorem intakeAuth_cases (intake : Intake) (request : Request) :
    intakeAuth intake request = .error { intake with closeNow := true } ∨
      request.type = .auth ∧ intake.current.authPending = false ∧
        intakeAuth intake request = .ok (intake.authStarted request) := by
  unfold intakeAuth
  split
  · exact .inl rfl
  · next hfresh =>
      rw [not_or, not_not] at hfresh
      refine .inr ⟨hfresh.1, Bool.eq_false_of_not_eq_true hfresh.2, ?_⟩
      simp [AuthTask.make, Intake.authStarted, hfresh.1]

theorem intakeFrames_cons_auth (config : RuntimeConfig) (intake : Intake)
    (hauth : intake.current.authenticated = false) (request : Request) (rest : List Request)
    (ticks : List ℕ) :
    intakeFrames config intake (request :: rest) ticks = { intake with closeNow := true } ∨
      request.type = .auth ∧ intake.current.authPending = false ∧
        intakeFrames config intake (request :: rest) ticks =
          intakeFrames config (intake.authStarted request) rest ticks := by
  rw [intakeFrames]
  by_cases hsize : request.payload.length + 10 > toSize config.maxPayloadSize
  · exact .inl (if_pos hsize)
  · rw [if_neg hsize, hauth]
    simp only [Bool.false_eq_true, if_false]
    rcases intakeAuth_cases intake request with herror | ⟨htype, hpending, hok⟩
    · exact .inl (by rw [herror])
    · exact .inr ⟨htype, hpending, by rw [hok]⟩

/-- The loop over the frames of a connection that is not authenticated passes
on at most one, the AUTH frame. -/
theorem intakeFrames_auth {config : RuntimeConfig} {intake : Intake} {ticks : List ℕ}
    (hauth : intake.current.authenticated = false)
    (hopen : (intakeFrames config intake requests ticks).closeNow = false) :
    requests = [] ∧ intakeFrames config intake requests ticks = intake ∨
      ∃ request, requests = [request] ∧ request.type = .auth ∧
        intake.current.authPending = false ∧
        intakeFrames config intake requests ticks = intake.authStarted request := by
  cases requests with
  | nil => exact .inl ⟨rfl, rfl⟩
  | cons request rest =>
      rcases intakeFrames_cons_auth config intake hauth request rest ticks with
        hclose | ⟨htype, hpending, hnext⟩
      · rw [hclose] at hopen
        cases hopen
      · cases rest with
        | nil => exact .inr ⟨request, rfl, htype, hpending, hnext⟩
        | cons second rest =>
            -- the AUTH is pending, so a second frame ends the loop
            rw [hnext] at hopen
            rcases intakeFrames_cons_auth config (intake.authStarted request) hauth second
              rest ticks with hclose | ⟨-, hagain, -⟩
            · rw [hclose] at hopen
              cases hopen
            · cases hagain

/-- Whatever the frames are, the loop only makes cells, and the connection
holds its old cell or, if it did not wait for its AUTH, a new one. -/
theorem intakeFrames_cells (config : RuntimeConfig) (requests : List Request) :
    ∀ (intake : Intake) (ticks : List ℕ), ∃ next, intake.server.nextCancellation ≤ next ∧
      (intakeFrames config intake requests ticks).server.ledger =
        { intake.server.ledger with nextCancellation := next } ∧
      ((intakeFrames config intake requests ticks).current.authCancellation =
          intake.current.authCancellation ∨
        intake.current.authPending = false ∧
          ∃ cell, (intakeFrames config intake requests ticks).current.authCancellation =
            some cell ∧ intake.server.nextCancellation ≤ cell ∧ cell < next) := by
  induction requests with
  | nil =>
      intro intake ticks
      exact ⟨intake.server.nextCancellation, Nat.le_refl _, rfl, .inl rfl⟩
  | cons request requests ih =>
      intro intake ticks
      cases hauth : intake.current.authenticated with
      | true =>
          obtain ⟨hcurrent, hledger, -⟩ :=
            intakeFrames_business config (request :: requests) intake ticks hauth
          refine ⟨intake.server.nextCancellation, Nat.le_refl _, hledger, .inl ?_⟩
          rw [hcurrent]
      | false =>
          rcases intakeFrames_cons_auth config intake hauth request requests ticks with
            hclose | ⟨-, hpending, hnext⟩
          · rw [hclose]
            exact ⟨intake.server.nextCancellation, Nat.le_refl _, rfl, .inl rfl⟩
          · rw [hnext]
            obtain ⟨next, hle, hledger, hcell⟩ := ih _ ticks
            refine ⟨next, (Nat.le_succ _).trans hle, hledger, .inr ⟨hpending, ?_⟩⟩
            rcases hcell with hcell | ⟨-, cell, hcell, hge, hlt⟩
            · exact ⟨_, hcell, Nat.le_refl _, hle⟩
            · exact ⟨cell, hcell, (Nat.le_succ _).trans hge, hlt⟩

/-- Decoded frames enter the history. -/
theorem ledger_decoded (s : Server) (key : ConnectionKey) (requests : List Request) :
    { s with log := (requests.map (Event.decoded key)).reverse ++ s.log }.ledger =
      s.ledger.record (requests.map (Event.decoded key)).reverse := by
  have hmem : ∀ event ∈ (requests.map (Event.decoded key)).reverse,
      event.isHidden = false ∧ event.refused? = none := by
    intro event hevent
    obtain ⟨request, -, rfl⟩ := List.mem_map.mp (List.mem_reverse.mp hevent)
    exact ⟨rfl, rfl⟩
  have hlog : visible ((requests.map (Event.decoded key)).reverse ++ s.log) =
      (requests.map (Event.decoded key)).reverse ++ visible s.log := by
    rw [visible, List.filter_append, List.filter_eq_self.mpr]
    · rfl
    · intro event hevent
      simp [(hmem event hevent).1]
  have hwork : ((requests.map (Event.decoded key)).reverse ++ s.log).filterMap Event.refused? =
      s.log.filterMap Event.refused? := by
    rw [List.filterMap_append, List.filterMap_eq_nil_iff.mpr fun event hevent =>
      (hmem event hevent).2, List.nil_append]
  simp only [ledger, Ledger.record, work, hlog, hwork]
  rfl

theorem quiet_of_boundary (h : s.point = .boundary) : s.ledger.Quiet := by
  simp only [Ledger.Quiet, ledger, intake, admitted, h, and_self]

/-- The ledger when the activation of `decodeAndEnqueue` starts to enqueue. -/
theorem ledger_enqueue (s : Server) (frame : Enqueue) :
    { s with point := .enqueue frame }.ledger =
      { s.ledger with intake := frame.items, admitted := frame.admitted } := rfl

section Decoded

variable {s : Server} {fd : Fd} {c : Connection} {requests : List Request}

theorem intake_close_refines (hc : s.connections.lookup fd = some c)
    (hkey : ∀ request ∈ requests, request.key = c.key) (config : RuntimeConfig) (bytes : Bytes)
    (closeNow : Bool) (ticks : List ℕ) {result : Intake}
    (hresult : intakeFrames config (Intake.start s fd c requests bytes closeNow) requests ticks =
      result) :
    Refines s ((result.server.setConnection fd result.current).closeConnection fd) := by
  obtain ⟨next, hnext, hledger, hcell⟩ := intakeFrames_cells config requests
    (Intake.start s fd c requests bytes closeNow) ticks
  rw [hresult] at hledger hcell
  have hstart : (Intake.start s fd c requests bytes closeNow).server.ledger =
      s.ledger.record (requests.map (Event.decoded ⟨fd, c.connId⟩)).reverse :=
    ledger_decoded s ⟨fd, c.connId⟩ requests
  refine .single ?_
  rw [ledger_closeConnection (setConnection_lookup ..), ledger_setConnection, close_set _ _ rfl,
    hledger, hstart]
  exact .decodeClose hc hkey hnext hcell

theorem intake_open_refines (hc : s.connections.lookup fd = some c) (hrun : s.state = .running)
    (hquiet : s.ledger.Quiet) (hopen : c.closing = false)
    (hkey : ∀ request ∈ requests, request.key = c.key) (config : RuntimeConfig) (bytes : Bytes)
    (closeNow readEof : Bool) (ticks : List ℕ) {result : Intake}
    (hresult : intakeFrames config (Intake.start s fd c requests bytes closeNow) requests ticks =
      result) (hstays : result.closeNow = false) :
    Refines s { result.server.setConnection fd result.current with
      point := .enqueue
        { fd := fd
          tasks := result.tasks
          requests := result.requests
          responses := result.responses
          eof := readEof } } := by
  have hstart : (Intake.start s fd c requests bytes closeNow).server.ledger =
      s.ledger.record (requests.map (Event.decoded ⟨fd, c.connId⟩)).reverse :=
    ledger_decoded s ⟨fd, c.connId⟩ requests
  have hadmitted : s.ledger.admitted = none := hquiet.2
  refine .single ?_
  rw [ledger_enqueue, ledger_setConnection]
  cases hauth : c.authenticated with
  | true =>
      obtain ⟨hcurrent, hledger, hrest⟩ := intakeFrames_business config requests
        (Intake.start s fd c requests bytes closeNow) ticks hauth
      rw [hresult] at hcurrent hledger hrest
      obtain ⟨htasks, passed, answered, hrequests, hresponses, hitems⟩ := hrest hstays
      have hframe : Enqueue.items
          { fd := fd, tasks := result.tasks, requests := result.requests
            responses := result.responses, eof := readEof } =
          (passed.map Item.request : Multiset Item) +
            (answered.map Item.response : Multiset Item) := by
        simp [Enqueue.items, htasks, hrequests, hresponses, Intake.start]
      have hstep := Ledger.Step.decodeBusiness hc hrun hquiet hauth hkey hitems bytes
      rw [hframe, hledger, hstart, hcurrent]
      simpa only [Ledger.set, Ledger.record, hadmitted, Intake.start] using hstep
  | false =>
      have hstays' := hstays
      rw [← hresult] at hstays'
      rcases intakeFrames_auth hauth hstays' with
        ⟨rfl, hsame⟩ | ⟨request, rfl, htype, hpending, hone⟩
      · -- no frame was complete
        have hconnection : s.ledger.connections fd = some c := hc
        have hstep := Ledger.Step.buffer hconnection bytes
        rw [← hresult, hsame, hstart]
        simp only [Ledger.set, Ledger.record, Intake.start, Enqueue.items] at hstep ⊢
        simpa [hadmitted, hquiet.1] using hstep
      · have hconnection : s.ledger.connections fd = some c := hc
        have hstep := Ledger.Step.decodeAuth hconnection hrun hquiet ⟨hauth, hpending, hopen⟩
          (hkey request (by simp)) htype bytes
        have hledger : (Intake.authStarted (Intake.start s fd c [request] bytes closeNow)
            request).server.ledger = { s.ledger.record [.decoded ⟨fd, c.connId⟩ request] with
              nextCancellation := s.nextCancellation + 1 } := by
          have hrecord : (Intake.start s fd c [request] bytes closeNow).server.ledger =
              s.ledger.record [.decoded ⟨fd, c.connId⟩ request] := hstart
          rw [← hrecord]
          rfl
        rw [show s.ledger.nextCancellation = s.nextCancellation from rfl] at hstep
        rw [← hresult, hone, hledger]
        simp only [Ledger.set, Ledger.record, Intake.authStarted, Intake.start, Enqueue.items]
          at hstep ⊢
        simpa [hadmitted] using hstep

end Decoded

theorem decodeAndEnqueue_refines (hboundary : s.point = .boundary) (hrun : s.state = .running)
    (hopen : ∀ c, s.connections.lookup fd = some c → c.closing = false) (readEof : Bool)
    (ticks : List ℕ) : Refines s (s.decodeAndEnqueue fd readEof ticks) := by
  have hquiet := quiet_of_boundary hboundary
  unfold decodeAndEnqueue
  split
  · exact .refl s
  · next c hc =>
      simp only
      generalize hdecoded : ProtocolCodec.decode c.inputBuffer c.fd c.connId
        (toUInt32 s.runtimeConfig.maxPayloadSize) = decoded
      have hkey : ∀ request ∈ decoded.2.1, request.key = c.key := by
        intro request hrequest
        rw [← hdecoded] at hrequest
        exact ProtocolCodec.decode_key hrequest
      split
      · exact intake_close_refines hc hkey _ _ _ ticks rfl
      · next hstays =>
          exact intake_open_refines hc hrun hquiet (hopen c hc) hkey _ _ _ readEof ticks rfl
            (Bool.eq_false_of_not_eq_true hstays)

theorem handleRead_refines (hboundary : s.point = .boundary) (hreadable : s.readable fd = true)
    (outcome : RecvOutcome) (ticks : List ℕ) : Refines s (s.handleRead fd outcome ticks) := by
  unfold handleRead
  split
  · exact .refl s
  · next c hc =>
      have hrun : s.state = .running ∧ c.closing = false := by
        simp only [readable, hc, Bool.and_eq_true, decide_eq_true_eq, Bool.not_eq_true']
          at hreadable
        exact ⟨hreadable.1, hreadable.2.1⟩
      have hopen : ∀ c', s.connections.lookup fd = some c' → c'.closing = false := by
        intro c' hc'
        obtain rfl := Option.some.inj (hc.symm.trans hc')
        exact hrun.2
      cases outcome with
      | data bytes =>
          have hset : Refines s (s.setConnection fd
              { c with inputBuffer := c.inputBuffer ++ bytes }) := by
            refine .single ?_
            rw [ledger_setConnection]
            exact .buffer hc _
          refine hset.trans (decodeAndEnqueue_refines ?_ ?_ ?_ false ticks)
          · exact hboundary
          · exact hrun.1
          · intro c' hc'
            rw [setConnection_lookup] at hc'
            obtain rfl := Option.some.inj hc'
            exact hrun.2
      | eof => exact decodeAndEnqueue_refines hboundary hrun.1 hopen true ticks
      | interrupted => exact .refl s
      | again => exact decodeAndEnqueue_refines hboundary hrun.1 hopen false ticks
      | failed => exact closeConnection_refines s fd

/-! ## Offering to the queues -/

section Offering

variable {s : Server} {frame : Enqueue}

theorem ledger_source (h : s.point = .enqueue frame) :
    s.ledger.intake = frame.items ∧ s.ledger.admitted = frame.admitted := by
  simp only [ledger, intake, admitted, h, and_self]

theorem items_task {task : AuthTask} {tasks : List AuthTask} (h : frame.tasks = task :: tasks) :
    frame.items = .task task ::ₘ Enqueue.items { frame with tasks := tasks } := by
  simp only [Enqueue.items, h, List.map_cons, ← Multiset.cons_coe, Multiset.cons_add]

theorem items_request {request : Request} {requests : List Request}
    (h : frame.requests = request :: requests) :
    frame.items = .request request ::ₘ Enqueue.items { frame with requests := requests } := by
  simp only [Enqueue.items, h, List.map_cons, ← Multiset.cons_coe, Multiset.cons_add,
    Multiset.add_cons]

theorem items_response {response : Response} {responses : List Response}
    (h : frame.responses = response :: responses) :
    frame.items = .response response ::ₘ Enqueue.items { frame with responses := responses } := by
  simp only [Enqueue.items, h, List.map_cons, ← Multiset.cons_coe, Multiset.add_cons]

theorem items_append_response (frame : Enqueue) (response : Response) :
    Enqueue.items { frame with responses := frame.responses ++ [response] } =
      .response response ::ₘ frame.items := by
  simp only [Enqueue.items, List.map_append, List.map_cons, List.map_nil, ← Multiset.coe_add,
    Multiset.coe_singleton, ← Multiset.singleton_add]
  abel

theorem enqueueTask_refines {task : AuthTask} {tasks : List AuthTask}
    (hpoint : s.point = .enqueue frame) (htasks : frame.tasks = task :: tasks)
    (hadmitted : frame.admitted = none) :
    Refines s (s.enqueueTask { frame with tasks := tasks } task) := by
  have hsource := ledger_source hpoint
  have hintake := hsource.1.trans (items_task htasks)
  have hcarries : (Item.task task).Carries task.request := rfl
  unfold enqueueTask
  simp only
  split
  · next hok =>
      refine .of_step (.enqueue hintake (hsource.2.trans hadmitted) hcarries) ?_
      rw [ledger_emit _ rfl rfl]
      refine Ledger.ext rfl rfl rfl rfl rfl ?_ rfl rfl rfl
      show _ = .task task ::ₘ s.work
      simp only [Ledger.record, ledger, work, (BlockQueue.push_ok hok).2.2, List.map_append,
        List.map_cons, List.map_nil, ← Multiset.coe_add, Multiset.coe_singleton,
        ← Multiset.singleton_add]
      abel
  · refine .of_step (.refuse hintake hcarries (.inr ⟨⟨task, rfl⟩, rfl⟩)) ?_
    exact Ledger.ext rfl rfl rfl rfl rfl rfl (items_append_response { frame with tasks := tasks } _)
      hsource.2.symm rfl

theorem enqueueRequest_refines {request : Request} {requests : List Request}
    (hpoint : s.point = .enqueue frame) (hrequests : frame.requests = request :: requests)
    (hadmitted : frame.admitted = none) :
    Refines s (s.enqueueRequest { frame with requests := requests } request) := by
  have hsource := ledger_source hpoint
  have hintake := hsource.1.trans (items_request hrequests)
  have hcarries : (Item.request request).Carries request := rfl
  unfold enqueueRequest
  simp only
  split
  · next hok =>
      refine .of_step (.enqueue hintake (hsource.2.trans hadmitted) hcarries) ?_
      rw [ledger_emit _ rfl rfl]
      refine Ledger.ext rfl rfl rfl rfl rfl ?_ rfl rfl rfl
      show _ = .request request ::ₘ s.work
      simp only [Ledger.record, ledger, work, (BlockQueue.push_ok hok).2.2, List.map_append,
        List.map_cons, List.map_nil, ← Multiset.coe_add, Multiset.coe_singleton,
        ← Multiset.singleton_add]
      abel
  · refine .of_step (.refuse hintake hcarries (.inl ⟨⟨request, rfl⟩, rfl⟩)) ?_
    exact Ledger.ext rfl rfl rfl rfl rfl rfl
      (items_append_response { frame with requests := requests } _) hsource.2.symm rfl

theorem live?_eq_some {s : Server} {key : ConnectionKey} {c : Connection} :
    s.live? key = some c ↔ s.ledger.Live key c := by
  simp only [live?, Option.filter_eq_some_iff, decide_eq_true_eq]
  rfl

theorem countAdmitted_refines {key : ConnectionKey} (hpoint : s.point = .enqueue frame)
    (hadmitted : frame.admitted = some key) : Refines s (s.countAdmitted frame key) := by
  have hsource := ledger_source hpoint
  have hkey := hsource.2.trans hadmitted
  unfold countAdmitted
  simp only
  split
  · next hnone =>
      refine .of_step (.countGone hkey fun c hlive => ?_) ?_
      · cases hnone.symm.trans (live?_eq_some.mpr hlive)
      · exact Ledger.ext rfl rfl rfl rfl rfl rfl hsource.1.symm rfl rfl
  · next c hlive =>
      refine .of_step (.count hkey (live?_eq_some.mp hlive)) ?_
      rw [ledger_setConnection]
      exact Ledger.ext rfl rfl rfl rfl rfl rfl hsource.1.symm rfl rfl

theorem localAnswer_refines {response : Response} {responses : List Response}
    (hpoint : s.point = .enqueue frame) (hresponses : frame.responses = response :: responses)
    (hadmitted : frame.admitted = none) (ctl : Bool) :
    Refines s ({ s with point := .enqueue { frame with responses := responses } }.applyResponse
      response .reactor ctl) := by
  have hsource := ledger_source hpoint
  have hintake : s.ledger.source .reactor =
      .response response ::ₘ Enqueue.items { frame with responses := responses } :=
    hsource.1.trans (items_response hresponses)
  refine applyResponse_refines hintake (hsource.2.trans hadmitted) ?_ ctl
  exact Ledger.ext rfl rfl rfl rfl rfl rfl rfl hsource.2.symm rfl

theorem enqueueNext_refines (hpoint : s.point = .enqueue frame) (ctl : Bool) :
    Refines s (s.enqueueNext frame ctl) := by
  have hsource := ledger_source hpoint
  unfold enqueueNext
  split
  · exact countAdmitted_refines hpoint ‹frame.admitted = some _›
  · exact enqueueTask_refines hpoint ‹frame.tasks = _ :: _› ‹frame.admitted = none›
  · exact enqueueRequest_refines hpoint ‹frame.requests = _ :: _› ‹frame.admitted = none›
  · exact localAnswer_refines hpoint ‹frame.responses = _ :: _› ‹frame.admitted = none› ctl
  · next hadmitted htasks hrequests hresponses =>
      have hempty : frame.items = 0 := by simp [Enqueue.items, htasks, hrequests, hresponses]
      have hreturn : Refines s { s with point := .boundary } := by
        refine .of_eq (Ledger.ext rfl rfl rfl rfl rfl rfl ?_ ?_ rfl)
        · exact (hsource.1.trans hempty).symm
        · exact (hsource.2.trans hadmitted).symm
      simp only
      split
      · exact hreturn.trans (markReadEof_refines _ _ ctl (quiet_of_boundary rfl))
      · exact hreturn

end Offering

/-! ## The workers -/

section Workers

variable {s : Server} {i : ℕ}

theorem setWorker_work {old : NormalWorker} (h : s.workers[i]? = some old) (new : NormalWorker) :
    (s.setWorker i new).work + (old.item?.toList : Multiset Item) =
      s.work + (new.item?.toList : Multiset Item) := by
  have hpool := Pool.filterMap_set NormalWorker.item? h new
  simp only [work, setWorker]
  calc _ = ((s.workers.set i new).filterMap NormalWorker.item? : Multiset Item) +
        (old.item?.toList : Multiset Item) + (
        (s.requestQueue.items.map Item.request : Multiset Item) +
        (s.authQueue.items.map Item.task : Multiset Item) +
        (s.authWorkers.filterMap AuthWorker.item? : Multiset Item) +
        (s.responseQueue.items.map Item.response : Multiset Item) +
        (s.log.filterMap Event.refused? : Multiset Item)) := by abel
    _ = _ := by rw [hpool]; abel

theorem setAuthWorker_work {old : AuthWorker} (h : s.authWorkers[i]? = some old)
    (new : AuthWorker) :
    (s.setAuthWorker i new).work + (old.item?.toList : Multiset Item) =
      s.work + (new.item?.toList : Multiset Item) := by
  have hpool := Pool.filterMap_set AuthWorker.item? h new
  simp only [work, setAuthWorker]
  calc _ = ((s.authWorkers.set i new).filterMap AuthWorker.item? : Multiset Item) +
        (old.item?.toList : Multiset Item) + (
        (s.requestQueue.items.map Item.request : Multiset Item) +
        (s.authQueue.items.map Item.task : Multiset Item) +
        (s.workers.filterMap NormalWorker.item? : Multiset Item) +
        (s.responseQueue.items.map Item.response : Multiset Item) +
        (s.log.filterMap Event.refused? : Multiset Item)) := by abel
    _ = _ := by rw [hpool]; abel

/-- A worker that goes from one point to another with the same item. -/
theorem setWorker_refines {old new : NormalWorker} (h : s.workers[i]? = some old)
    (hitem : new.item? = old.item?) : Refines s (s.setWorker i new) := by
  have hwork := setWorker_work h new
  rw [hitem] at hwork
  exact .of_eq (Ledger.ext rfl rfl rfl rfl rfl (add_right_cancel hwork) rfl rfl rfl)

theorem setAuthWorker_refines {old new : AuthWorker} (h : s.authWorkers[i]? = some old)
    (hitem : new.item? = old.item?) : Refines s (s.setAuthWorker i new) := by
  have hwork := setAuthWorker_work h new
  rw [hitem] at hwork
  exact .of_eq (Ledger.ext rfl rfl rfl rfl rfl (add_right_cancel hwork) rfl rfl rfl)

theorem popRequest_refines {request : Request} {queue : BlockQueue Request}
    (hworker : s.workers[i]? = some .waiting)
    (hpop : s.requestQueue.pop = some (some (request, queue))) :
    Refines s ({ s with requestQueue := queue }.setWorker i (.handling request)) := by
  have hworker' : ({ s with requestQueue := queue } : Server).workers[i]? = some .waiting :=
    hworker
  have hwork := setWorker_work hworker' (.handling request)
  refine .of_eq (Ledger.ext rfl rfl rfl rfl rfl ?_ rfl rfl rfl)
  refine Eq.trans (add_zero _).symm (hwork.trans ?_)
  show _ = s.work
  simp only [work, (BlockQueue.pop_item hpop).1, NormalWorker.item?, Option.toList,
    List.map_cons, ← Multiset.cons_coe, ← Multiset.singleton_add]
  abel

theorem workerResponse_answer (library : Json.Library) (env : Business.WorkerEnv)
    (request : Request) : (workerResponse library env request).tag = request.tag ∧
      (workerResponse library env request).BusinessAnswer := by
  unfold workerResponse
  cases h : Business.dispatch library env request with
  | none => exact makeInternalErrorResponse_answer request
  | some response => exact Business.dispatch_answer h

theorem authHandling_answer (library : Json.Library) (request : Request) (reply : AuthReply) :
    (authHandling library request reply).response.tag = request.tag ∧
      (authHandling library request reply).response.AuthAnswer := by
  unfold authHandling
  cases reply with
  | answered result => exact Business.handleAuth_answer request _
  | threw => exact Business.handleAuth_answer request _
  | unknown => exact makeInternalAuthErrorResponse_answer request

/-- An offered response is work again, in the queue or as a refused one. -/
theorem enqueueWorkerResponse_ledger (s : Server) (request : Request) (response : Response)
    (producer : ResponseProducer) :
    (s.enqueueWorkerResponse request response producer).2.ledger =
      { s.ledger with work := .response response ::ₘ s.work }.record
        [.offered request response (s.responseQueue.push response).1] := by
  unfold enqueueWorkerResponse
  simp only
  split
  · next hok =>
      refine Ledger.ext rfl rfl rfl rfl rfl ?_ rfl rfl rfl
      show work _ = .response response ::ₘ s.work
      simp only [work, emit, hok, (BlockQueue.push_ok hok).2.2, List.map_append, List.map_cons,
        List.map_nil, ← Multiset.coe_add, Multiset.coe_singleton, ← Multiset.singleton_add,
        List.filterMap_cons, Event.refused?]
      abel
  · next hrefused =>
      refine Ledger.ext rfl rfl rfl rfl rfl ?_ rfl rfl rfl
      have hevent : Event.refused? (.offered request response (s.responseQueue.push response).1) =
          some (.response response) := by
        cases h : (s.responseQueue.push response).1 with
        | ok => exact absurd h hrefused
        | full | stopped => rfl
      show work _ = .response response ::ₘ s.work
      simp only [work, emit, List.filterMap_cons, hevent, ← Multiset.cons_coe,
        ← Multiset.singleton_add]
      abel

/-- Exchanging an item for its response, seen from the rest of the work. -/
theorem exchange {total rest new : Multiset Item} {item response : Item}
    (hrest : rest + {item} = total) (hnew : new + {item} = response ::ₘ total) :
    total = item ::ₘ rest ∧ new = response ::ₘ rest := by
  constructor
  · rw [← hrest, ← Multiset.singleton_add, add_comm]
  · refine add_right_cancel (b := {item}) ?_
    rw [hnew, Multiset.cons_add, hrest]

theorem dispatchRequest_refines (library : Json.Library) (env : Business.WorkerEnv)
    {request : Request} (hworker : s.workers[i]? = some (.handling request)) :
    Refines s (dispatchRequest library s i env request) := by
  obtain ⟨htag, hanswer⟩ := workerResponse_answer library env request
  generalize hresponse : workerResponse library env request = response at htag hanswer
  have hledger := enqueueWorkerResponse_ledger s request response .normalWorker
  have hworkers := (enqueueWorkerResponse_workers s request response .normalWorker).1
  unfold dispatchRequest
  simp only [hresponse]
  generalize s.enqueueWorkerResponse request response .normalWorker = result at hledger hworkers ⊢
  generalize hnext : (if result.1 then NormalWorker.waiting else .refused request.key) = next
  have hitem : next.item? = none := by
    rw [← hnext]
    exact (apply_ite NormalWorker.item? _ _ _).trans (ite_self _)
  have hrest := setWorker_work hworker .waiting
  have hnew := setWorker_work (hworkers ▸ hworker) next
  rw [show result.2.work = .response response ::ₘ s.work from
    congrArg Ledger.work hledger, hitem] at hnew
  obtain ⟨hold, hnew⟩ := exchange (hrest.trans (add_zero _)) (hnew.trans (add_zero _))
  have hcarries : (Item.request request).Carries request := rfl
  refine .of_step (.produce hold hcarries htag (.inl ⟨⟨request, rfl⟩, hanswer⟩)
    (s.responseQueue.push response).1) ?_
  have hmove : (result.2.setWorker i next).ledger =
      { result.2.ledger with work := (result.2.setWorker i next).work } := rfl
  rw [hmove, hledger, hnew]
  rfl

theorem popAuth_refines {task : AuthTask} {queue : BlockQueue AuthTask}
    (hworker : s.authWorkers[i]? = some .waiting)
    (hpop : s.authQueue.pop = some (some (task, queue))) :
    Refines s ({ s with authQueue := queue }.setAuthWorker i (.popped task)) := by
  have hworker' : ({ s with authQueue := queue } : Server).authWorkers[i]? = some .waiting :=
    hworker
  have hwork := setAuthWorker_work hworker' (.popped task)
  refine .of_eq (Ledger.ext rfl rfl rfl rfl rfl ?_ rfl rfl rfl)
  refine Eq.trans (add_zero _).symm (hwork.trans ?_)
  show _ = s.work
  simp only [work, (BlockQueue.pop_item hpop).1, AuthWorker.item?, Option.toList,
    List.map_cons, ← Multiset.cons_coe, ← Multiset.singleton_add]
  abel

theorem offerAuth_refines (library : Json.Library) {task : AuthTask} {reply : AuthReply}
    (hworker : s.authWorkers[i]? = some (.answering task reply)) :
    Refines s (offerAuth library s i task reply) := by
  obtain ⟨htag, hanswer⟩ := authHandling_answer library task.request reply
  generalize hresponse : (authHandling library task.request reply).response = response
    at htag hanswer
  have hledger := enqueueWorkerResponse_ledger s task.request response .authWorker
  have hworkers := (enqueueWorkerResponse_workers s task.request response .authWorker).2
  unfold offerAuth
  simp only [hresponse]
  generalize s.enqueueWorkerResponse task.request response .authWorker = result
    at hledger hworkers ⊢
  generalize hnext : (if result.1 then AuthWorker.waiting else .refused task.key) = next
  have hitem : next.item? = none := by
    rw [← hnext]
    exact (apply_ite AuthWorker.item? _ _ _).trans (ite_self _)
  have hrest := setAuthWorker_work hworker .waiting
  have hnew := setAuthWorker_work (hworkers ▸ hworker) next
  rw [show result.2.work = .response response ::ₘ s.work from
    congrArg Ledger.work hledger, hitem] at hnew
  obtain ⟨hold, hnew⟩ := exchange (hrest.trans (add_zero _)) (hnew.trans (add_zero _))
  have hcarries : (Item.task task).Carries task.request := rfl
  refine .of_step (.produce hold hcarries htag (.inr ⟨⟨task, rfl⟩, hanswer⟩)
    (s.responseQueue.push response).1) ?_
  have hmove : (result.2.setAuthWorker i next).ledger =
      { result.2.ledger with work := (result.2.setAuthWorker i next).work } := rfl
  rw [hmove, hledger, hnew]
  rfl

end Workers

/-! ## Every action -/

section Actions

variable {s t : Server} {library : Json.Library}

/-- A loop of refinements is a refinement. -/
theorem foldl_refines {α : Type*} {f : Server → α → Server} (hf : ∀ s a, Refines s (f s a))
    (l : List α) (s : Server) : Refines s (l.foldl f s) :=
  Transition.related_foldl .refl (fun _ _ _ h h' => h.trans h') hf l s

theorem drainRejectedResponses_refines (s : Server) : Refines s s.drainRejectedResponses := by
  have htaken : Refines s { s with rejectedResponseConnections := [] } := .of_eq rfl
  refine htaken.trans (foldl_refines (fun s key => ?_) _ _)
  unfold closeRejected
  split
  · exact closeConnection_refines s key.fd
  · exact .refl s

theorem closeAll_refines (s : Server) : Refines s s.closeAll :=
  foldl_refines closeConnection_refines _ s

theorem beginDrainingNext_refines {phase : DrainPhase} (hpoint : s.point = .beginDraining phase)
    (ctl : Fd → Bool) : Refines s (s.beginDrainingNext phase ctl) := by
  have hintake : s.ledger.intake = 0 ∧ s.ledger.admitted = none := by
    simp only [ledger, intake, admitted, hpoint, and_self]
  have hmove : ∀ point : ReactorPoint, (∀ frame, point ≠ .enqueue frame) →
      Refines s { s with point := point } := by
    intro point hpoint
    refine .of_eq (Ledger.ext rfl rfl rfl rfl rfl rfl ?_ ?_ rfl)
    · rw [hintake.1]
      cases point <;> first | rfl | exact absurd rfl (hpoint _)
    · rw [hintake.2]
      cases point <;> first | rfl | exact absurd rfl (hpoint _)
  cases phase with
  | stopRequests => exact (hmove (.beginDraining .stopAuth) nofun).trans (.of_eq rfl)
  | stopAuth => exact (hmove (.beginDraining .modifyEvents) nofun).trans (.of_eq rfl)
  | modifyEvents =>
      refine (hmove .boundary nofun).trans (foldl_refines ?_ _ _)
      intro s entry
      exact modifyConnectionEvents_refines s entry.1 entry.2 _

/-- Closing the drained connections one after the other. -/
theorem closeDrained_foldl_refines (entries : List (Sigma fun _ : Fd => Connection)) :
    ∀ s : Server, (entries.map Sigma.fst).Nodup → s.ledger.Quiet →
      (∀ entry ∈ entries, s.connections.lookup entry.1 = some entry.2 ∧
        s.canCloseAfterDrain entry.2 = true) →
      Refines s (entries.foldl (fun s entry => s.closeDrained entry.1 entry.2) s) ∧
        (entries.foldl (fun s entry => s.closeDrained entry.1 entry.2) s).ledger.Quiet := by
  induction entries with
  | nil =>
      intro s _ hquiet _
      exact ⟨.refl s, hquiet⟩
  | cons first rest ih =>
      intro s hnodup hquiet hall
      obtain ⟨hlookup, hdrained⟩ := hall first (by simp)
      obtain ⟨hfresh, hnodup⟩ := List.nodup_cons.mp hnodup
      have hledger := ledger_closeDrained hlookup
      refine (ih (s.closeDrained first.1 first.2) hnodup ?_ ?_).imp_left
        (closeDrained_refines hlookup hquiet hdrained).trans
      · exact ⟨(congrArg Ledger.intake hledger).trans hquiet.1,
          (congrArg Ledger.admitted hledger).trans hquiet.2⟩
      · intro entry hentry
        obtain ⟨hentryLookup, hentryDrained⟩ := hall entry (List.mem_cons_of_mem _ hentry)
        have hne : entry.1 ≠ first.1 := by
          intro heq
          exact hfresh (heq ▸ List.mem_map_of_mem hentry)
        constructor
        · have hother := congrFun (congrArg Ledger.connections hledger) entry.1
          exact (hother.trans (Function.update_of_ne hne _ _)).trans hentryLookup
        · rw [canCloseAfterDrain_iff] at hentryDrained ⊢
          rw [hledger]
          exact hentryDrained

theorem drainComplete_refines (hquiet : s.ledger.Quiet) :
    Refines s s.drainComplete.2 ∧ s.drainComplete.2.ledger.Quiet := by
  unfold drainComplete
  split
  · refine closeDrained_foldl_refines s.completed s ?_ hquiet ?_
    · refine List.Nodup.sublist ?_ s.connections.nodupKeys
      exact List.Sublist.map _ List.filter_sublist
    · intro entry hentry
      obtain ⟨hmem, hdrained⟩ := List.mem_filter.mp hentry
      exact ⟨AList.mem_lookup_iff.mpr hmem, hdrained⟩
  · exact ⟨.refl s, hquiet⟩

theorem boundary_of_atBoundary (h : s.atBoundary = true) : s.point = .boundary := by
  unfold atBoundary at h
  split at h
  · cases h
  · assumption
  · cases h

theorem reactorStep_refines {action : ReactorAction} (hdeadline : action ≠ .deadline)
    (h : s.reactorStep action = some t) : Refines s t := by
  cases reactorStep_move h with
  | accept fd ctl hboundary hrunning hfree =>
      exact handleAccept_refines hfree hrunning
        (quiet_of_boundary (boundary_of_atBoundary hboundary)) ctl
  | read fd outcome ticks hboundary hreadable =>
      exact handleRead_refines (boundary_of_atBoundary hboundary) hreadable outcome ticks
  | enqueueNext frame ctl hpoint => exact enqueueNext_refines hpoint ctl
  | hangUp fd ctl hboundary =>
      exact markReadEof_refines s fd ctl (quiet_of_boundary (boundary_of_atBoundary hboundary))
  | write fd outcome ctl hboundary hpossible =>
      exact handleWrite_refines s fd outcome ctl
        (quiet_of_boundary (boundary_of_atBoundary hboundary)) hpossible
  | socketError fd => exact closeConnection_refines s fd
  | drainResponse response queue ctl hboundary hpop =>
      have hquiet := quiet_of_boundary (boundary_of_atBoundary hboundary)
      have hsource : s.ledger.source .worker = .response response ::ₘ
          ({ s with responseQueue := queue } : Server).work := by
        show s.work = _
        simp only [work, (BlockQueue.tryPop_eq_some hpop).1, List.map_cons,
          ← Multiset.cons_coe, ← Multiset.singleton_add]
        abel
      exact applyResponse_refines hsource hquiet.2 rfl ctl
  | drainRejected => exact drainRejectedResponses_refines s
  | beginDraining hboundary =>
      have hquiet := quiet_of_boundary (boundary_of_atBoundary hboundary)
      refine .of_step (.leave hquiet .draining nofun) ?_
      exact Ledger.ext rfl rfl rfl rfl rfl rfl hquiet.1.symm hquiet.2.symm rfl
  | beginDrainingNext phase ctl hpoint => exact beginDrainingNext_refines hpoint ctl
  | drainComplete hboundary =>
      obtain ⟨hclosed, hquiet⟩ :=
        drainComplete_refines (quiet_of_boundary (boundary_of_atBoundary hboundary))
      split
      · exact hclosed.trans (.of_step (.leave hquiet .stopped nofun) rfl)
      · exact hclosed
  | deadline => exact absurd rfl hdeadline
  | stopQueues => exact .of_eq rfl
  | closeAll => exact closeAll_refines s

theorem workerStep_refines {i : ℕ} {worker : NormalWorker} (hworker : s.workers[i]? = some worker)
    {action : WorkerAction} (h : workerStep library s i worker action = some t) : Refines s t := by
  cases workerStep_move h with
  | pop hpop => exact popRequest_refines hworker hpop
  | leave =>
      simp only [onResponseProducerExited]
      refine Refines.trans (.of_eq rfl) (setWorker_refines hworker ?_)
      exact (apply_ite NormalWorker.item? _ _ _).trans (ite_self _)
  | dispatch env request => exact dispatchRequest_refines library env hworker
  | reject | stopResponses => exact Refines.trans (.of_eq rfl) (setWorker_refines hworker rfl)

theorem authWorkerStep_refines {i : ℕ} {worker : AuthWorker}
    (hworker : s.authWorkers[i]? = some worker) {action : AuthAction}
    (h : authWorkerStep library s i worker action = some t) : Refines s t := by
  cases authWorkerStep_move h with
  | pop hpop => exact popAuth_refines hworker hpop
  | leave =>
      simp only [onResponseProducerExited]
      refine Refines.trans (.of_eq rfl) (setAuthWorker_refines hworker ?_)
      exact (apply_ite AuthWorker.item? _ _ _).trans (ite_self _)
  | drop task hcancelled =>
      have hrest := setAuthWorker_work hworker .waiting
      have hold : s.ledger.work = .task task ::ₘ (s.setAuthWorker i .waiting).work := by
        rw [← Multiset.singleton_add, add_comm]
        exact (hrest.trans (add_zero _)).symm
      exact .of_step (.cancel hold hcancelled) rfl
  | offer task reply => exact offerAuth_refines library hworker
  | check => exact setAuthWorker_refines hworker rfl
  | handleAuth | reject | stopResponses =>
      exact Refines.trans (.of_eq rfl) (setAuthWorker_refines hworker rfl)

/-- Every action but the deadline is a sequence of steps of the ledger. -/
theorem step_refines {action : Action} (hdeadline : action ≠ .reactor .deadline)
    (h : s.step library action = some t) : Refines s t := by
  cases step_move h with
  | reactor h => exact reactorStep_refines (fun heq => hdeadline (by rw [heq])) h
  | worker hworker h => exact workerStep_refines hworker h
  | authWorker hworker h => exact authWorkerStep_refines hworker h
  | pullConfig | tick => exact .of_eq rfl

/-- The deadline discards work. -/
theorem deadline_discards (h : s.reactorStep .deadline = some t) :
    Ledger.Discard s.ledger t.ledger := by
  obtain ⟨-, ⟨⟩⟩ := Option.ite_none_right_eq_some.mp h
  have hle : s.abortQueues.work ≤ s.work := by
    simp only [work, abortQueues, BlockQueue.abort_items, List.map_nil]
    refine add_le_add (add_le_add (add_le_add (add_le_add (add_le_add ?_ ?_) le_rfl) le_rfl) ?_)
      le_rfl <;> exact Multiset.zero_le _
  exact .mk hle (by simp [abortQueues])

end Actions

/-! ## The invariants of the gateway -/

theorem start_ledger {now : ℤ} (h : start args now = some s) : s.ledger = Ledger.initial := by
  rw [start_eq_some h]
  refine Ledger.ext rfl rfl rfl rfl rfl ?_ rfl rfl rfl
  show work _ = 0
  have hworkers : ∀ count, (List.replicate count NormalWorker.waiting).filterMap
      NormalWorker.item? = [] := by
    intro count
    rw [List.filterMap_replicate_of_none rfl]
  have hauthWorkers : ∀ count, (List.replicate count AuthWorker.waiting).filterMap
      AuthWorker.item? = [] := by
    intro count
    rw [List.filterMap_replicate_of_none rfl]
  simp [work, started, hworkers, hauthWorkers]

/-- The ledger is sound in every reachable state. -/
theorem ledger_sound (h : Transition.Reachable (gateway library args) s) : s.ledger.Sound := by
  refine Transition.ReachableBy.invariant (I := fun s => s.ledger.Sound) ?_ ?_ h
  · rintro s ⟨now, hstart⟩
    rw [start_ledger hstart]
    exact Ledger.initial_sound
  · intro s action t _ hsound _ hstep
    by_cases hdeadline : action = .reactor .deadline
    · subst hdeadline
      exact (deadline_discards hstep).sound hsound
    · exact Transition.kept_along (fun _ _ hstep h => hstep.sound h)
        (step_refines hdeadline hstep) hsound

/-- What the ledger starts with and every step of it keeps, and the deadline
too where it is allowed, holds of the ledger of every state. -/
theorem ledger_invariant {ok : Server → Action → Prop} {P : Ledger → Prop}
    (hinit : P Ledger.initial) (hkept : ∀ l l', Ledger.Step l l' → l.Sound → P l → P l')
    (hdiscard : (∃ s, ok s (.reactor .deadline)) → ∀ l l', Ledger.Discard l l' → P l → P l')
    (h : Transition.ReachableBy (gateway library args) ok s) : P s.ledger := by
  refine Transition.ReachableBy.invariant (I := fun s => P s.ledger) ?_ ?_ h
  · rintro s ⟨now, hstart⟩
    rw [start_ledger hstart]
    exact hinit
  · intro s action t hreach hs hok hstep
    by_cases hdeadline : action = .reactor .deadline
    · subst hdeadline
      exact hdiscard ⟨s, hok⟩ _ _ (deadline_discards hstep) hs
    · have hboth := Transition.kept_along
        (fun l l' (hstep : Ledger.Step l l') (h : l.Sound ∧ P l) =>
          ⟨hstep.sound h.1, hkept l l' hstep h.1 h.2⟩)
        (step_refines hdeadline hstep) ⟨ledger_sound hreach.reachable, hs⟩
      exact hboth.2

/-- Before the deadline every connection is accounted for. -/
theorem ledger_accounted (h : Transition.ReachableBy (gateway library args) BeforeDeadline s) :
    s.ledger.Accounted :=
  ledger_invariant Ledger.initial_accounted (fun _ _ hstep hsound h => hstep.accounted hsound h)
    (fun ⟨_, hok⟩ => absurd rfl hok) h

end Server

end GatewaySystem
