import GatewaySystem.Net.Buffers

/-!
# What a connection waits for

The mask registered with `epoll` and the decision to close a connection depend
on five pieces of state: the state of the server, `closing`, `read_eof`, the
work in flight and the unsent output. Every handler that changes one of them
has to register the connection again and to look whether it can be closed.

A handler works on one descriptor and leaves the others alone (`Elsewhere`), so
it is enough to look at the connection it worked on (`Attended`). Only
`beginDraining` changes the masks of all connections at once, and until it has
registered every one of them again the masks are those of a running server.
-/

namespace GatewaySystem

namespace Server

variable {library : Json.Library} {args : StartArgs} {s t u : Server} {fd : Fd} {c : Connection}

/-- The connection is registered for what it waits for, and it is not one that
a running server should have closed. -/
structure Attended (s : Server) (fd : Fd) (c : Connection) : Prop where
  interest : s.interest fd = some (s.connectionEvents c)
  kept : s.state = .running → s.canCloseAfterDrain c = false

/-- Every connection is attended. -/
structure Attentive (s : Server) : Prop where
  attended : ∀ fd c, s.connections.lookup fd = some c → s.Attended fd c

theorem connectionEvents_congr (h : t.state = s.state) (c : Connection) :
    t.connectionEvents c = s.connectionEvents c := by
  rw [connectionEvents, connectionEvents, h]

theorem canCloseAfterDrain_congr (h : t.state = s.state) (c : Connection) :
    t.canCloseAfterDrain c = s.canCloseAfterDrain c := by
  rw [canCloseAfterDrain, canCloseAfterDrain, h]

/-- A connection with output to send is kept. -/
theorem canCloseAfterDrain_of_unsent (h : c.writeOffset < c.outputBuffer.length) :
    s.canCloseAfterDrain c = false := by
  have hunsent : ¬ c.outputBuffer.length ≤ c.writeOffset := Nat.not_le.mpr h
  simp [canCloseAfterDrain, hunsent]

/-- A connection with work in flight is kept. -/
theorem canCloseAfterDrain_of_work (h : 0 < c.inFlightWork) : s.canCloseAfterDrain c = false := by
  have hwork : c.inFlightWork ≠ 0 := Nat.ne_of_gt h
  simp [canCloseAfterDrain, hwork]

theorem Attended.congr (h : s.Attended fd c) (hstate : t.state = s.state)
    (hinterest : t.interest fd = s.interest fd) : t.Attended fd c where
  interest := by rw [hinterest, h.interest, connectionEvents_congr hstate]
  kept hrun := by rw [canCloseAfterDrain_congr hstate, h.kept (hstate ▸ hrun)]

/-- It is enough to look at the connection a handler worked on. -/
theorem Attentive.of_elsewhere (h : s.Attentive) (helse : Elsewhere fd s t)
    (hown : ∀ c, t.connections.lookup fd = some c → t.Attended fd c) : t.Attentive := by
  refine ⟨fun fd' c hc => ?_⟩
  by_cases hfd : fd' = fd
  · subst hfd
    exact hown c hc
  · rw [helse.lookup fd' hfd] at hc
    exact (h.attended fd' c hc).congr helse.state (helse.interest fd' hfd)

/-- Nothing of interest has changed. -/
theorem Attentive.of_eq (h : s.Attentive) (hstate : t.state = s.state)
    (hconnections : t.connections = s.connections) (hinterest : t.interest = s.interest) :
    t.Attentive := by
  refine ⟨fun fd c hc => ?_⟩
  rw [hconnections] at hc
  exact (h.attended fd c hc).congr hstate (by rw [hinterest])

/-! ## The handlers -/

theorem setConnection_elsewhere (s : Server) (fd : Fd) (c : Connection) :
    Elsewhere fd s (s.setConnection fd c) :=
  ⟨rfl, fun _ hne => AList.lookup_insert_ne hne, fun _ _ => rfl⟩

theorem closeConnection_elsewhere (s : Server) (fd : Fd) : Elsewhere fd s (s.closeConnection fd) :=
  (TableStep.close s : TableStep False fd s _).elsewhere

theorem closeConnection_own (s : Server) (fd : Fd) (c : Connection)
    (hc : (s.closeConnection fd).connections.lookup fd = some c) :
    (s.closeConnection fd).Attended fd c := by
  cases (closeConnection_lookup_self s fd).symm.trans hc

theorem closeConnection_attentive (h : s.Attentive) (fd : Fd) : (s.closeConnection fd).Attentive :=
  h.of_elsewhere (closeConnection_elsewhere s fd) (closeConnection_own s fd)

theorem modifyConnectionEvents_elsewhere (s : Server) (fd : Fd) (events : Interest) (ctl : Bool) :
    Elsewhere fd s (s.modifyConnectionEvents fd events ctl) := by
  cases ctl with
  | true => exact ⟨rfl, fun _ _ => rfl, fun _ hne => Function.update_of_ne hne _ _⟩
  | false => exact closeConnection_elsewhere s fd

/-- A connection that is registered again. -/
theorem modifyConnectionEvents_own (hc : s.connections.lookup fd = some c)
    (hkept : s.canCloseAfterDrain c = false) (ctl : Bool) (c' : Connection)
    (hc' : (s.modifyConnectionEvents fd (s.connectionEvents c) ctl).connections.lookup fd =
      some c') :
    (s.modifyConnectionEvents fd (s.connectionEvents c) ctl).Attended fd c' := by
  cases ctl with
  | true =>
      obtain rfl := Option.some.inj (hc.symm.trans hc')
      exact ⟨Function.update_self .., fun _ => hkept⟩
  | false => exact closeConnection_own s fd c' hc'

theorem closeDrained_attentive (h : s.Attentive) (fd : Fd) (c : Connection) :
    (s.closeDrained fd c).Attentive :=
  closeConnection_attentive (h.of_eq rfl rfl rfl : (s.emit _).Attentive) fd

theorem maybeCloseAfterDrain_attentive (h : s.Attentive) (fd : Fd) :
    (s.maybeCloseAfterDrain fd).Attentive := by
  unfold maybeCloseAfterDrain
  split
  · exact h
  · split
    · exact closeDrained_attentive h ..
    · exact h

/-- A connection without output is closed or registered again. -/
theorem finishWrite_own (hc : s.connections.lookup fd = some c) (ctl : Bool) (c' : Connection)
    (hc' : (s.finishWrite fd c ctl).connections.lookup fd = some c') :
    (s.finishWrite fd c ctl).Attended fd c' := by
  unfold finishWrite at hc' ⊢
  split at hc'
  · next hclose =>
      rw [if_pos hclose]
      exact closeConnection_own _ fd c' hc'
  · next hkept =>
      rw [if_neg hkept]
      exact modifyConnectionEvents_own hc (Bool.eq_false_iff.mpr hkept) ctl c' hc'

theorem finishWrite_attentive (h : s.Attentive) {t : Server} (helse : Elsewhere fd s t)
    (hc : t.connections.lookup fd = some c) (ctl : Bool) :
    (t.finishWrite fd c ctl).Attentive := by
  have hfinish : Touches False fd t (t.finishWrite fd c ctl) :=
    finishWrite_touches (by rw [hc]; rfl) c ctl
  exact h.of_elsewhere (helse.trans hfinish.elsewhere) (finishWrite_own hc ctl)

theorem markReadEof_attentive (h : s.Attentive) (fd : Fd) (ctl : Bool) :
    (s.markReadEof fd ctl).Attentive := by
  unfold markReadEof
  split
  · exact h
  · next c hc =>
      split
      · exact maybeCloseAfterDrain_attentive h fd
      · exact finishWrite_attentive h (setConnection_elsewhere s fd { c with readEof := true })
          (AList.lookup_insert _) ctl

/-- A `send` that takes a part leaves a connection that waits to write. -/
theorem handleWrite_attentive (h : s.Attentive) {outcome : SendOutcome}
    (hpossible : s.sendPossible fd outcome = true) (ctl : Bool) :
    (s.handleWrite fd outcome ctl).Attentive := by
  unfold handleWrite
  split
  · exact h
  · next c hc =>
      split
      · exact finishWrite_attentive h (.refl s) hc ctl
      · next hunsent =>
          cases outcome with
          | interrupted | again => exact h
          | failed => exact closeConnection_attentive h fd
          | sent count =>
              have hemit : Elsewhere fd s
                  (s.emit (.sent ⟨fd, c.connId⟩ (c.unsent.take count))) := .of_eq rfl rfl rfl
              simp only
              split
              · exact finishWrite_attentive h (hemit.trans (setConnection_elsewhere ..))
                  (AList.lookup_insert _) ctl
              · next hpart =>
                  have hcount : 0 < count ∧ count ≤ c.outputBuffer.length - c.writeOffset := by
                    simpa [sendPossible, hc, Connection.unsent] using hpossible
                  have hlt : c.writeOffset < c.outputBuffer.length := Nat.not_le.mp hunsent
                  have hmore : c.writeOffset + count < c.outputBuffer.length := by omega
                  refine h.of_elsewhere (hemit.trans (setConnection_elsewhere ..)) fun c' hc' => ?_
                  obtain rfl := Option.some.inj ((AList.lookup_insert _).symm.trans hc')
                  refine ⟨(h.attended fd c hc).interest.trans ?_,
                    fun _ => canCloseAfterDrain_of_unsent hmore⟩
                  simp only [connectionEvents, hlt, hmore]
                  rfl

theorem handleAccept_attentive (h : s.Attentive) (hrun : s.state = .running) (fd : Fd)
    (ctl : Bool) : (s.handleAccept fd ctl).Attentive := by
  cases ctl with
  | false => exact h.of_eq rfl rfl rfl
  | true =>
      have helse : Elsewhere fd s (s.handleAccept fd true) :=
        ⟨rfl, fun _ hne => AList.lookup_insert_ne hne, fun _ hne => Function.update_of_ne hne _ _⟩
      refine h.of_elsewhere helse fun c hc => ?_
      obtain rfl := Option.some.inj ((AList.lookup_insert _).symm.trans hc)
      refine ⟨Function.update_self .., fun _ => ?_⟩
      simp [handleAccept, canCloseAfterDrain, emit, hrun]

/-- Output that was appended is registered for; otherwise the connection is
closed. -/
theorem deliver_attentive (h : s.Attentive) (fd : Fd) (c : Connection) (response : Response)
    (ctl : Bool) : (s.deliver fd c response ctl).Attentive := by
  unfold deliver
  split
  · exact h.of_elsewhere
      ((setConnection_elsewhere s fd c).trans (closeConnection_elsewhere _ fd))
      (closeConnection_own _ fd)
  · split
    · have hset : Elsewhere fd s { s.setConnection fd c with
          stats := { s.stats with slowClientClosed := s.stats.slowClientClosed + 1 } } :=
        (setConnection_elsewhere s fd c).trans (.of_eq rfl rfl rfl)
      exact h.of_elsewhere (hset.trans (closeConnection_elsewhere _ fd)) (closeConnection_own _ fd)
    · have hset : Elsewhere fd s ((s.setConnection fd (appendOutput c response)).emit (.appended
          ⟨fd, c.connId⟩ response s.runtimeConfig.slowClientOutputLimit)) :=
        (setConnection_elsewhere s fd _).trans (.of_eq rfl rfl rfl)
      have hunsent : (appendOutput c response).writeOffset <
          (appendOutput c response).outputBuffer.length := by
        simp only [appendOutput, List.length_append, ProtocolCodec.length_encode]
        omega
      exact h.of_elsewhere (hset.trans (modifyConnectionEvents_elsewhere ..))
        (modifyConnectionEvents_own (AList.lookup_insert _) (canCloseAfterDrain_of_unsent hunsent)
          ctl)

theorem authenticate_attentive (h : s.Attentive) (c : Connection) (response : Response) :
    (s.authenticate c response).1.Attentive := by
  unfold authenticate
  split
  · split
    · exact h.of_eq rfl rfl rfl
    · exact h.of_eq rfl rfl rfl
  · split
    · exact h.of_eq rfl rfl rfl
    · exact h

theorem applyResponse_attentive (h : s.Attentive) (response : Response) (origin : ResponseOrigin)
    (ctl : Bool) : (s.applyResponse response origin ctl).Attentive := by
  unfold applyResponse
  split
  · exact h.of_eq rfl rfl rfl
  · split
    · exact h.of_eq rfl rfl rfl
    · exact deliver_attentive (authenticate_attentive h _ response) ..

theorem countAdmitted_attentive (h : s.Attentive) (frame : Enqueue) (key : ConnectionKey) :
    (s.countAdmitted frame key).Attentive := by
  unfold countAdmitted
  simp only
  split
  · exact h.of_eq rfl rfl rfl
  · next c hlive =>
      have hc : s.connections.lookup key.fd = some c := (live?_eq_some.mp hlive).1
      have hpoint : Elsewhere key.fd s
          { s with point := .enqueue { frame with admitted := none } } := .of_eq rfl rfl rfl
      refine h.of_elsewhere (hpoint.trans (setConnection_elsewhere ..)) fun c' hc' => ?_
      obtain rfl := Option.some.inj ((AList.lookup_insert _).symm.trans hc')
      exact ⟨(h.attended key.fd c hc).interest,
        fun _ => canCloseAfterDrain_of_work (Nat.succ_pos _)⟩

theorem enqueueNext_attentive (h : s.Attentive) (frame : Enqueue) (ctl : Bool) :
    (s.enqueueNext frame ctl).Attentive := by
  have hpoint : ∀ point, ({ s with point := point } : Server).Attentive :=
    fun _ => h.of_eq rfl rfl rfl
  unfold enqueueNext
  split
  · exact countAdmitted_attentive h ..
  · unfold enqueueTask
    simp only
    split <;> exact h.of_eq rfl rfl rfl
  · unfold enqueueRequest
    simp only
    split <;> exact h.of_eq rfl rfl rfl
  · exact applyResponse_attentive (hpoint _) ..
  · simp only
    split
    · exact markReadEof_attentive (hpoint _) ..
    · exact hpoint _

/-- Decoding changes neither the output nor the end of the input. -/
theorem decodeAndEnqueue_attentive (h : s.Attentive) (helse : Elsewhere fd s t)
    (hc : t.connections.lookup fd = some c) (hown : t.Attended fd c) (readEof : Bool)
    (ticks : List ℕ) : (t.decodeAndEnqueue fd readEof ticks).Attentive := by
  unfold decodeAndEnqueue
  rw [hc]
  simp only
  generalize hstart : Intake.start t fd c _ _ _ = start
  have hkept := intakeFrames_kept t.runtimeConfig start
    (ProtocolCodec.decode c.inputBuffer c.fd c.connId
      (toUInt32 t.runtimeConfig.maxPayloadSize)).2.1 ticks
  generalize intakeFrames t.runtimeConfig start _ ticks = intake at hkept ⊢
  have hserver : Elsewhere fd t intake.server := by
    subst hstart
    exact .of_eq hkept.state hkept.connections hkept.interest
  have hset := (helse.trans hserver).trans (setConnection_elsewhere intake.server fd intake.current)
  split
  · exact h.of_elsewhere (hset.trans (closeConnection_elsewhere _ fd)) (closeConnection_own _ fd)
  · refine h.of_elsewhere (hset.trans (.of_eq rfl rfl rfl)) fun c' hc' => ?_
    obtain rfl := Option.some.inj ((AList.lookup_insert _).symm.trans hc')
    have hinterest : intake.server.interest fd = t.interest fd := by
      subst hstart
      exact congrFun hkept.interest fd
    have hthen := hown.congr hserver.state hinterest
    obtain ⟨_, _, hcurrent⟩ := hkept.current
    rw [hcurrent, ← hstart]
    exact ⟨hthen.interest, hthen.kept⟩

theorem handleRead_attentive (h : s.Attentive) (fd : Fd) (outcome : RecvOutcome)
    (ticks : List ℕ) : (s.handleRead fd outcome ticks).Attentive := by
  unfold handleRead
  split
  · exact h
  · next c hc =>
      have hown := h.attended fd c hc
      cases outcome with
      | data bytes =>
          have hread : (s.setConnection fd
              { c with inputBuffer := c.inputBuffer ++ bytes }).Attended fd
                { c with inputBuffer := c.inputBuffer ++ bytes } := ⟨hown.interest, hown.kept⟩
          exact decodeAndEnqueue_attentive h (setConnection_elsewhere ..) (AList.lookup_insert _)
            hread false ticks
      | eof => exact decodeAndEnqueue_attentive h (.refl s) hc hown true ticks
      | interrupted => exact h
      | again => exact decodeAndEnqueue_attentive h (.refl s) hc hown false ticks
      | failed => exact closeConnection_attentive h fd

/-! ## All connections at once -/

/-- A loop over what keeps every connection attended. -/
theorem foldl_attentive {α : Type*} {f : Server → α → Server}
    (hf : ∀ s a, s.Attentive → (f s a).Attentive) (items : List α) (h : s.Attentive) :
    (items.foldl f s).Attentive :=
  List.foldlRecOn items f h fun s hs a _ => hf s a hs

theorem closeRejected_attentive (h : s.Attentive) (key : ConnectionKey) :
    (s.closeRejected key).Attentive := by
  unfold closeRejected
  split
  · exact closeConnection_attentive h key.fd
  · exact h

theorem drainComplete_attentive (h : s.Attentive) : s.drainComplete.2.Attentive := by
  unfold drainComplete
  split
  · exact foldl_attentive (fun s entry hs => closeDrained_attentive hs _ _) _ h
  · exact h

/-- A connection is still there after `modifyConnectionEvents` only if it is
unchanged and registered. -/
theorem modifyConnectionEvents_lookup_eq {events : Interest} {ctl : Bool} {fd' : Fd}
    (hc : (s.modifyConnectionEvents fd events ctl).connections.lookup fd' = some c) :
    s.connections.lookup fd' = some c ∧
      (fd' = fd → (s.modifyConnectionEvents fd events ctl).interest fd' = some events) := by
  cases ctl with
  | true =>
      refine ⟨hc, fun hfd => ?_⟩
      subst hfd
      exact Function.update_self ..
  | false =>
      have hne : fd' ≠ fd := by
        rintro rfl
        cases (closeConnection_lookup_self s fd').symm.trans hc
      exact ⟨(closeConnection_lookup s hne).symm.trans hc, fun hfd => absurd hfd hne⟩

/-- The loop of `beginDraining`: what it has passed is registered for the state
it found. -/
theorem modifyEvents_foldl {items : List (Fd × Interest)} {ctl : Fd → Bool}
    (hitems : ∀ item ∈ items, ∀ c, s.connections.lookup item.1 = some c →
      item.2 = s.connectionEvents c) {fd : Fd} {c : Connection}
    (hc : (items.foldl (fun s item => s.modifyConnectionEvents item.1 item.2 (ctl item.1))
      s).connections.lookup fd = some c) :
    s.connections.lookup fd = some c ∧
      (fd ∈ items.map Prod.fst ∨ s.interest fd = some (s.connectionEvents c) →
        (items.foldl (fun s item => s.modifyConnectionEvents item.1 item.2 (ctl item.1))
          s).interest fd = some (s.connectionEvents c)) := by
  induction items generalizing s with
  | nil => exact ⟨hc, fun hfd => hfd.resolve_left List.not_mem_nil⟩
  | cons item items ih =>
      have helse := modifyConnectionEvents_elsewhere s item.1 item.2 (ctl item.1)
      have hevents := fun c => connectionEvents_congr helse.state c
      obtain ⟨hnow, hrest⟩ := ih (fun own hown c' hc' => by
        rw [hevents]
        exact hitems own (List.mem_cons_of_mem item hown) c'
          (modifyConnectionEvents_lookup_eq hc').1) hc
      obtain ⟨hlookup, hregistered⟩ := modifyConnectionEvents_lookup_eq hnow
      refine ⟨hlookup, fun hfd => ?_⟩
      rw [hevents] at hrest
      by_cases hself : fd = item.1
      · refine hrest (.inr ?_)
        rw [hregistered hself]
        exact congrArg some (hitems item List.mem_cons_self c (hself ▸ hlookup))
      · refine hrest (hfd.imp (fun hmem => ?_) fun hold => (helse.interest fd hself).trans hold)
        exact (List.mem_cons.mp hmem).resolve_left hself

/-- When `beginDraining` returns, every connection is registered again. -/
theorem modifyEvents_attentive
    (hkept : ∀ fd c, s.connections.lookup fd = some c → s.state = .running →
      s.canCloseAfterDrain c = false) (ctl : Fd → Bool) :
    (s.beginDrainingNext .modifyEvents ctl).Attentive := by
  have hthen : (s.beginDrainingNext .modifyEvents ctl).state = s.state :=
    (foldl_affects (fun s _ => modifyConnectionEvents_affects s _ _ _) _ _ :
      Affects False False { s with point := .boundary } _).frame.state
  have hitems : ∀ item ∈ s.connections.entries.map fun entry =>
      (entry.1, s.connectionEvents entry.2), ∀ c, s.connections.lookup item.1 = some c →
        item.2 = s.connectionEvents c := by
    intro item hitem c hc
    obtain ⟨entry, hentry, rfl⟩ := List.mem_map.mp hitem
    have hlookup : s.connections.lookup entry.1 = some entry.2 := AList.mem_lookup_iff.mpr hentry
    rw [Option.some.inj (hlookup.symm.trans hc)]
  refine ⟨fun fd c hc => ?_⟩
  obtain ⟨hlookup, hregistered⟩ := modifyEvents_foldl
    (s := { s with point := .boundary }) hitems hc
  have hmem : fd ∈ (s.connections.entries.map fun entry =>
      (entry.1, s.connectionEvents entry.2)).map Prod.fst := by
    rw [List.map_map]
    exact List.mem_map.mpr ⟨⟨fd, c⟩, AList.mem_lookup_iff.mp hlookup, rfl⟩
  refine ⟨(hregistered (.inl hmem)).trans ?_, fun hrun => ?_⟩
  · exact congrArg some (connectionEvents_congr hthen c).symm
  · exact (canCloseAfterDrain_congr hthen c).trans (hkept fd c hlookup (hthen.symm.trans hrun))

/-! ## Runs -/

/-- Every connection is attended, or `beginDraining` has not yet come to the
masks. -/
def Watched (s : Server) : Prop :=
  s.Attentive ∨ (∃ phase, s.point = .beginDraining phase) ∧ s.state = .draining

theorem Watched.attentive (h : s.Watched) (hpoint : ∀ phase, s.point ≠ .beginDraining phase) :
    s.Attentive := by
  rcases h with h | ⟨⟨phase, hphase⟩, -⟩
  · exact h
  · exact absurd hphase (hpoint phase)

theorem Watched.at_boundary (h : s.Watched) (hboundary : s.atBoundary = true) : s.Attentive :=
  h.attentive fun phase hphase => by
    cases (boundary_of_atBoundary hboundary).symm.trans hphase

theorem beginDrainingNext_watched (h : s.Watched) (phase : DrainPhase) (ctl : Fd → Bool) :
    (s.beginDrainingNext phase ctl).Watched := by
  have hnext : ∀ t : Server, t.state = s.state → t.connections = s.connections →
      t.interest = s.interest → (∃ phase, t.point = .beginDraining phase) → t.Watched := by
    intro t hstate hconnections hinterest hpoint
    rcases h with h | ⟨-, hdraining⟩
    · exact .inl (h.of_eq hstate hconnections hinterest)
    · exact .inr ⟨hpoint, hstate.trans hdraining⟩
  cases phase with
  | stopRequests => exact hnext _ rfl rfl rfl ⟨.stopAuth, rfl⟩
  | stopAuth => exact hnext _ rfl rfl rfl ⟨.modifyEvents, rfl⟩
  | modifyEvents =>
      refine .inl (modifyEvents_attentive (fun fd c hc hrun => ?_) ctl)
      rcases h with h | ⟨-, hdraining⟩
      · exact (h.attended fd c hc).kept hrun
      · cases hdraining.symm.trans hrun

/-- A mask of a draining server is one of a stopped server. -/
theorem Attentive.stopped (h : s.Attentive) (hdraining : s.state = .draining)
    (hstate : t.state = .stopped) (hconnections : t.connections = s.connections)
    (hinterest : t.interest = s.interest) : t.Attentive := by
  refine ⟨fun fd c hc => ⟨?_, fun hrun => ?_⟩⟩
  · rw [hinterest, (h.attended fd c (hconnections ▸ hc)).interest]
    simp [connectionEvents, hdraining, hstate]
  · cases hstate.symm.trans hrun

theorem reactorStep_watched {action : ReactorAction} (h : s.Watched)
    (hstep : s.reactorStep action = some t) : t.Watched := by
  cases reactorStep_move hstep with
  | accept fd ctl hboundary hrunning =>
      exact .inl (handleAccept_attentive (h.at_boundary hboundary) hrunning fd ctl)
  | read fd outcome ticks hboundary =>
      exact .inl (handleRead_attentive (h.at_boundary hboundary) fd outcome ticks)
  | enqueueNext frame ctl hpoint =>
      exact .inl (enqueueNext_attentive
        (h.attentive fun phase hphase => by cases hpoint.symm.trans hphase) frame ctl)
  | hangUp fd ctl hboundary =>
      exact .inl (markReadEof_attentive (h.at_boundary hboundary) fd ctl)
  | write fd outcome ctl hboundary hpossible =>
      exact .inl (handleWrite_attentive (h.at_boundary hboundary) hpossible ctl)
  | socketError fd hboundary =>
      exact .inl (closeConnection_attentive (h.at_boundary hboundary) fd)
  | drainResponse response queue ctl hboundary =>
      have hpopped : ({ s with responseQueue := queue } : Server).Attentive :=
        (h.at_boundary hboundary).of_eq rfl rfl rfl
      exact .inl (applyResponse_attentive hpopped response .worker ctl)
  | drainRejected hboundary =>
      have htaken : ({ s with rejectedResponseConnections := [] } : Server).Attentive :=
        (h.at_boundary hboundary).of_eq rfl rfl rfl
      exact .inl (foldl_attentive (fun _ key hs => closeRejected_attentive hs key) _ htaken)
  | beginDraining => exact .inr ⟨⟨_, rfl⟩, rfl⟩
  | beginDrainingNext phase ctl => exact beginDrainingNext_watched h phase ctl
  | drainComplete hboundary hdraining =>
      have hdone := drainComplete_attentive (h.at_boundary hboundary)
      have hstate : s.drainComplete.2.state = s.state :=
        (drainComplete_affects s : Affects False False s _).frame.state
      split
      · exact .inl (hdone.stopped (hstate.trans hdraining) rfl rfl rfl)
      · exact .inl hdone
  | deadline hboundary hdraining =>
      exact .inl ((h.at_boundary hboundary).stopped hdraining rfl rfl rfl)
  | stopQueues hstopped =>
      rcases h with h | ⟨-, hdraining⟩
      · exact .inl (h.of_eq rfl rfl rfl)
      · cases hstopped.symm.trans hdraining
  | closeAll hstopped =>
      rcases h with h | ⟨-, hdraining⟩
      · exact .inl (foldl_attentive (fun _ fd hs => closeConnection_attentive hs fd) _ h)
      · cases hstopped.symm.trans hdraining

theorem step_watched {action : Action} (h : s.Watched)
    (hstep : step library s action = some t) : t.Watched := by
  rcases step_untouched hstep with ⟨own, rfl, hown⟩ | ht
  · exact reactorStep_watched h hown
  · rcases h with h | ⟨hphase, hdraining⟩
    · exact .inl (h.of_eq ht.state ht.connections ht.interest)
    · exact .inr ⟨ht.point ▸ hphase, ht.state.trans hdraining⟩

theorem watched (h : Transition.Reachable (gateway library args) s) : s.Watched := by
  refine Transition.ReachableBy.invariant (I := Watched) ?_ ?_ h
  · rintro s ⟨now, hstart⟩
    rw [start_eq_some hstart]
    exact .inl ⟨fun fd c hc => by cases hc⟩
  · exact fun s action t _ hs _ hstep => step_watched hs hstep

/-- At a boundary the registered mask of a connection is the one of its state:
it waits to write exactly when it has unsent output, and to read exactly when
the server runs and the input is neither closed nor at its end. A connection
that could not be registered again is gone. -/
theorem interest_matches (h : Transition.Reachable (gateway library args) s)
    (hpoint : s.point = .boundary) (hc : s.connections.lookup fd = some c) :
    s.interest fd = some (s.connectionEvents c) ∧
      ((s.connectionEvents c).writable = true ↔ c.unsent ≠ []) ∧
      ((s.connectionEvents c).readable = true ↔
        s.state = .running ∧ c.closing = false ∧ c.readEof = false) ∧
      ∀ t events, (modifyConnectionEvents t fd events false).connections.lookup fd = none := by
  have hattentive : s.Attentive := (watched h).attentive fun phase hphase => by
    cases hpoint.symm.trans hphase
  refine ⟨(hattentive.attended fd c hc).interest, ?_, ?_, fun t _ =>
    closeConnection_lookup_self t fd⟩
  · simp [connectionEvents, Connection.unsent]
  · simp [connectionEvents, and_assoc]

/-- The client that has sent a `PING` is waited for in both directions. -/
theorem interest_matches_server :
    Sample.server.interest 5 = some ⟨true, true⟩ := by
  have hc : Sample.server.connections.lookup 5 = some
      ((Sample.server.connections.lookup 5).get (by decide +kernel)) := (Option.some_get _).symm
  rw [(interest_matches Sample.server_reachable.reachable
    (boundary_of_atBoundary (by decide +kernel)) hc).1]
  decide +kernel

/-- A running server has no connection that is closing or at its end of input
without work in flight and without unsent output. -/
theorem no_zombie (h : Transition.Reachable (gateway library args) s)
    (hrun : s.state = .running) (hc : s.connections.lookup fd = some c) :
    s.canCloseAfterDrain c = false ∧
      (c.closing = true ∨ c.readEof = true → c.inFlightWork ≠ 0 ∨ c.unsent ≠ []) := by
  have hattentive : s.Attentive := by
    rcases watched h with hattentive | ⟨-, hdraining⟩
    · exact hattentive
    · cases hrun.symm.trans hdraining
  have hkept := (hattentive.attended fd c hc).kept hrun
  refine ⟨hkept, fun hdrain => ?_⟩
  by_contra hidle
  rw [not_or, not_not, not_not] at hidle
  have hunsent : c.outputBuffer.length ≤ c.writeOffset := by
    simpa [Connection.unsent] using hidle.2
  rcases hdrain with hclosing | heof
  · simp [canCloseAfterDrain, hclosing, hidle.1, hunsent] at hkept
  · simp [canCloseAfterDrain, heof, hidle.1, hunsent] at hkept

end Server

namespace Sample

/-- The client closes its side while its `PING` is in the queue. -/
def halfClosed : Server :=
  (Server.after library {} 0 (authentication ++ ping ++ [.reactor (.hangUp 5 true)])).get
    (by decide +kernel)

theorem halfClosed_reachable :
    Transition.ReachableBy (gateway library {}) BeforeDeadline halfClosed :=
  Server.after_reachable (by simp [BeforeDeadline, authentication, ping]) (Option.some_get _).symm

/-- The connection then. -/
def halfClosedConnection : Connection :=
  (halfClosed.connections.lookup 5).get (by decide +kernel)

theorem halfClosed_connection : halfClosed.connections.lookup 5 = some halfClosedConnection :=
  (Option.some_get _).symm

end Sample

theorem Server.no_zombie_halfClosed :
    Sample.halfClosedConnection.readEof = true ∧
      (Sample.halfClosedConnection.inFlightWork ≠ 0 ∨ Sample.halfClosedConnection.unsent ≠ []) := by
  have heof : Sample.halfClosedConnection.readEof = true := by decide +kernel
  exact ⟨heof, (Server.no_zombie Sample.halfClosed_reachable.reachable (by decide +kernel)
    Sample.halfClosed_connection).2 (.inr heof)⟩

end GatewaySystem
