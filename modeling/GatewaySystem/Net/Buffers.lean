import GatewaySystem.Net.Tables

/-!
# The input buffers

Every read decodes what has arrived, so between two reads the buffer of a
connection holds no complete frame. It holds at most the beginning of one whose
length was legal when it was decoded; the configuration may have changed since,
but no configuration allows more than the codec does. Nothing is kept of the
input once `recv` has reported its end.
-/

namespace GatewaySystem

namespace Server

open ProtocolCodec

variable {library : Json.Library} {args : StartArgs} {s t u : Server} {fd : Fd} {c : Connection}

/-! ## The decoder -/

/-- The kept input of a read that does not close. -/
theorem partialFrame_keptInput {bytes : Bytes} {connId limit : ℕ} {eof : Bool}
    (h : (decode bytes fd connId limit).1 ≠ .invalidLength) :
    PartialFrame (keptInput eof (decode bytes fd connId limit)) := by
  unfold keptInput
  split
  · exact partialFrame_nil
  · rw [decode_eq] at h ⊢
    split at h
    · exact absurd rfl h
    · next hlegal =>
        rw [if_neg hlegal]
        exact partialFrame_rest hlegal

/-- At the end of the input nothing is kept. -/
theorem keptInput_eof {bytes : Bytes} {connId limit : ℕ}
    (h : (decode bytes fd connId limit).1 ≠ .invalidLength) :
    keptInput true (decode bytes fd connId limit) = [] := by
  rw [decode_eq] at h ⊢
  split at h
  · exact absurd rfl h
  · next hlegal =>
      rw [if_neg hlegal]
      unfold keptInput
      cases hstatus : (decodeAll fd connId limit bytes).1 with
      | ok => simp [rest_of_ok hstatus]
      | needMoreData => rfl
      | invalidLength => exact absurd hstatus hlegal

/-- `decodeAndEnqueue` closes the connection, or leaves what `keptInput` says and
goes on with the queues. -/
theorem decodeAndEnqueue_buffer {readEof : Bool} {ticks : List ℕ} {current : Connection}
    (hcurrent : s.connections.lookup fd = some current)
    (hc : (s.decodeAndEnqueue fd readEof ticks).connections.lookup fd = some c) :
    c.inputBuffer = keptInput (readEof || current.readEof) (decode current.inputBuffer current.fd
        current.connId (toUInt32 s.runtimeConfig.maxPayloadSize)) ∧
      (decode current.inputBuffer current.fd current.connId
        (toUInt32 s.runtimeConfig.maxPayloadSize)).1 ≠ .invalidLength ∧
      ∃ frame, (s.decodeAndEnqueue fd readEof ticks).point = .enqueue frame ∧ frame.fd = fd ∧
        frame.eof = readEof := by
  unfold decodeAndEnqueue at hc ⊢
  rw [hcurrent] at hc ⊢
  simp only at hc ⊢
  generalize hdecoded : decode current.inputBuffer current.fd current.connId
    (toUInt32 s.runtimeConfig.maxPayloadSize) = decoded at hc ⊢
  generalize hstart : Intake.start s fd current _ _ _ = start at hc ⊢
  have hkept := intakeFrames_kept s.runtimeConfig start decoded.2.1 ticks
  generalize intakeFrames s.runtimeConfig start decoded.2.1 ticks = intake at hc hkept ⊢
  split at hc
  · cases (closeConnection_lookup_self ..).symm.trans hc
  · next hopen =>
      obtain rfl := Option.some.inj ((AList.lookup_insert _).symm.trans hc)
      obtain ⟨_, _, hcurrent⟩ := hkept.current
      refine ⟨by rw [hcurrent, ← hstart]; rfl, fun hillegal => hopen (hkept.closeNow ?_), ?_⟩
      · rw [← hstart]
        exact decide_eq_true hillegal
      · rw [if_neg hopen]
        exact ⟨_, rfl, rfl, rfl⟩

/-- `handleRead` leaves the beginning of a frame, or the input as it was. -/
theorem handleRead_buffer (s : Server) (fd : Fd) (outcome : RecvOutcome) (ticks : List ℕ)
    (hc : (s.handleRead fd outcome ticks).connections.lookup fd = some c) :
    PartialFrame c.inputBuffer ∨
      ∃ old, s.connections.lookup fd = some old ∧ old.inputBuffer = c.inputBuffer := by
  unfold handleRead at hc
  split at hc
  · next hnone => cases hnone.symm.trans hc
  · next current hcurrent =>
      cases outcome with
      | interrupted => exact .inr ⟨c, hc, rfl⟩
      | failed => cases (closeConnection_lookup_self s fd).symm.trans hc
      | eof | again =>
          obtain ⟨hbuffer, hlegal, -⟩ := decodeAndEnqueue_buffer hcurrent hc
          exact .inl (hbuffer ▸ partialFrame_keptInput hlegal)
      | data bytes =>
          obtain ⟨hbuffer, hlegal, -⟩ := decodeAndEnqueue_buffer (AList.lookup_insert _) hc
          exact .inl (hbuffer ▸ partialFrame_keptInput hlegal)

/-! ## Runs -/

/-- A buffer after a step is the beginning of a frame or one from before. -/
theorem step_buffer (h : Transition.Reachable (gateway library args) s) {action : Action}
    (hstep : step library s action = some t) (hc : t.connections.lookup fd = some c) :
    PartialFrame c.inputBuffer ∨
      ∃ old, s.connections.lookup fd = some old ∧ old.inputBuffer = c.inputBuffer := by
  have hkept : Evolves False s t → PartialFrame c.inputBuffer ∨
      ∃ old, s.connections.lookup fd = some old ∧ old.inputBuffer = c.inputBuffer := by
    intro hevolves
    rcases hevolves.connection fd c hc with ⟨-, hinput⟩ | ⟨old, hold, hfollows⟩
    · rw [hinput.resolve_left id]
      exact .inl partialFrame_nil
    · exact .inr ⟨old, hold, (hfollows.input.resolve_right fun hread => hread.1).symm⟩
  rcases step_changes h hstep with ⟨own, rfl, hchanges⟩ | huntouched
  · cases own with
    | read fd' outcome ticks =>
        simp only [step, reactorStep, Option.ite_none_right_eq_some, Bool.and_eq_true] at hstep
        obtain ⟨⟨⟨-, hreadable⟩, -⟩, ⟨⟩⟩ := hstep
        by_cases hfd : fd = fd'
        · subst hfd
          exact handleRead_buffer s fd outcome ticks hc
        · have htouches := handleRead_touches (fun c hc => readable_eof hreadable hc) outcome ticks
          rw [htouches.elsewhere.lookup fd hfd] at hc
          exact .inr ⟨c, hc, rfl⟩
    | _ => exact hkept hchanges.evolves
  · exact hkept (.of_eq huntouched.connections huntouched.nextConnId)

/-- Between two reads every buffer holds the beginning of a frame. -/
theorem partialFrame (h : Transition.Reachable (gateway library args) s)
    (hc : s.connections.lookup fd = some c) : PartialFrame c.inputBuffer := by
  have hall : ∀ fd c, s.connections.lookup fd = some c → PartialFrame c.inputBuffer := by
    refine h.invariant (I := fun s => ∀ fd c, s.connections.lookup fd = some c →
      PartialFrame c.inputBuffer) ?_ ?_
    · rintro s ⟨now, hstart⟩ fd c hc
      rw [start_eq_some hstart] at hc
      cases hc
    · intro s action t hs ih _ hstep fd c hc
      rcases step_buffer hs hstep hc with hframe | ⟨old, hold, hbuffer⟩
      · exact hframe
      · exact hbuffer ▸ ih fd old hold
  exact hall fd c hc

/-- Between two reads no buffer holds a complete frame. -/
theorem unfinished (h : Transition.Reachable (gateway library args) s)
    (hc : s.connections.lookup fd = some c) : Unfinished c.inputBuffer :=
  (partialFrame h hc).unfinished

/-! ## The end of the input -/

/-- The input of the connection has ended and nothing of it is left; the
reactor has noted that or is about to. -/
structure Ended (key : ConnectionKey) (s : Server) : Prop where
  numbered : key.connId < s.nextConnId
  empty : ∀ c, s.connections.lookup key.fd = some c → c.connId = key.connId → c.inputBuffer = []
  noted : ∀ c, s.connections.lookup key.fd = some c → c.connId = key.connId →
    c.readEof = true ∨ ∃ frame, s.point = .enqueue frame ∧ frame.fd = key.fd ∧ frame.eof = true

theorem markReadEof_readEof {ctl : Bool}
    (hc : (s.markReadEof fd ctl).connections.lookup fd = some c) : c.readEof = true := by
  unfold markReadEof at hc
  split at hc
  · next hnone => cases hnone.symm.trans hc
  · next current hcurrent =>
      split at hc
      · next heof =>
          have htouches : Touches False fd s _ := maybeCloseAfterDrain_touches s fd
          obtain ⟨old, hold, hfollows⟩ := htouches.follows hc
          cases hcurrent.symm.trans hold
          exact hfollows.readEof heof
      · have htouches : Touches False fd (s.setConnection fd { current with readEof := true }) _ :=
          finishWrite_touches (setConnection_live ..) { current with readEof := true } ctl
        obtain ⟨old, hold, hfollows⟩ := htouches.follows hc
        cases (AList.lookup_insert _).symm.trans hold
        exact hfollows.readEof rfl

/-- An activation of `decodeAndEnqueue` for the end of the input goes on until
it has noted the end. -/
theorem enqueueNext_noted {frame : Enqueue} (howned : frame.Owned) (heof : frame.eof = true)
    {ctl : Bool} (hc : (s.enqueueNext frame ctl).connections.lookup frame.fd = some c) :
    c.readEof = true ∨ ∃ frame', (s.enqueueNext frame ctl).point = .enqueue frame' ∧
      frame'.fd = frame.fd ∧ frame'.eof = true := by
  unfold enqueueNext at hc ⊢
  split at hc
  · next key hadmitted =>
      exact .inr ⟨_, (countAdmitted_touches s frame key).point, rfl, heof⟩
  · unfold enqueueTask
    simp only
    split <;> exact .inr ⟨_, rfl, rfl, heof⟩
  · unfold enqueueRequest
    simp only
    split <;> exact .inr ⟨_, rfl, rfl, heof⟩
  · next response responses hadmitted htasks hrequests hresponses =>
      obtain ⟨-, -, hclient⟩ := howned.responses_tail hresponses
      exact .inr ⟨_, (applyResponse_touches (admissible_of_none hclient) .reactor ctl).point, rfl,
        heof⟩
  · simp only [heof, if_true] at hc
    exact .inl (markReadEof_readEof hc)

/-- A step keeps the activation or notes the end. -/
theorem noted_step (h : Transition.Reachable (gateway library args) s) {action : Action}
    (hstep : step library s action = some t) {frame : Enqueue} (hpoint : s.point = .enqueue frame)
    (heof : frame.eof = true) (hc : t.connections.lookup frame.fd = some c) :
    c.readEof = true ∨
      ∃ frame', t.point = .enqueue frame' ∧ frame'.fd = frame.fd ∧ frame'.eof = true := by
  have hstay : t.point = s.point → c.readEof = true ∨
      ∃ frame', t.point = .enqueue frame' ∧ frame'.fd = frame.fd ∧ frame'.eof = true :=
    fun hsame => .inr ⟨frame, hsame.trans hpoint, rfl, heof⟩
  have hinside : s.atBoundary = false := by
    rw [atBoundary, hpoint]
    cases s.state <;> rfl
  rcases step_untouched hstep with ⟨own, rfl, hown⟩ | huntouched
  · cases own with
    | enqueueNext ctl =>
        simp only [reactorStep, hpoint] at hown
        obtain rfl := Option.some.inj hown
        exact enqueueNext_noted (owned h frame hpoint) heof hc
    | stopQueues =>
        obtain ⟨-, ⟨⟩⟩ := Option.ite_none_right_eq_some.mp hown
        exact hstay rfl
    | closeAll =>
        obtain ⟨-, ⟨⟩⟩ := Option.ite_none_right_eq_some.mp hown
        exact hstay (foldl_point (fun s fd => (closeConnection_touches s fd).point) _ s)
    | beginDrainingNext ctl => simp [reactorStep, hpoint] at hown
    | _ => simp [reactorStep, hinside] at hown
  · exact hstay huntouched.point

theorem Ended.step {key : ConnectionKey} (hs : s.Ended key)
    (h : Transition.Reachable (gateway library args) s) {action : Action}
    (hstep : step library s action = some t) : t.Ended key := by
  have hevolves := step_evolves h hstep
  have horigin : ∀ c, t.connections.lookup key.fd = some c → c.connId = key.connId →
      ∃ old, s.connections.lookup key.fd = some old ∧ old.connId = key.connId ∧
        old.Follows action.Reads c := by
    intro c hc hconnId
    rcases hevolves.connection key.fd c hc with ⟨hnew, -⟩ | ⟨old, hold, hfollows⟩
    · have hnumbered := hs.numbered
      omega
    · exact ⟨old, hold, hfollows.connId.symm.trans hconnId, hfollows⟩
  refine ⟨hs.numbered.trans_le hevolves.nextConnId, fun c hc hconnId => ?_,
    fun c hc hconnId => ?_⟩
  · obtain ⟨old, hold, hid, hfollows⟩ := horigin c hc hconnId
    rcases hfollows.input with hsame | ⟨hreads, hopen⟩
    · exact hsame.trans (hs.empty old hold hid)
    · rcases hs.noted old hold hid with hended | ⟨frame, hpoint, -⟩
      · cases hopen.symm.trans hended
      · cases (boundary_of_reads hreads hstep).symm.trans hpoint
  · obtain ⟨old, hold, hid, hfollows⟩ := horigin c hc hconnId
    rcases hs.noted old hold hid with hended | ⟨frame, hpoint, hfd, heof⟩
    · exact .inl (hfollows.readEof hended)
    · rw [← hfd] at hc ⊢
      exact noted_step h hstep hpoint heof hc

/-- When `recv` reports the end, nothing of the input is left. -/
theorem ended_of_eof (h : Transition.Reachable (gateway library args) s)
    (hc : s.connections.lookup fd = some c) {ticks : List ℕ}
    (hstep : s.reactorStep (.read fd .eof ticks) = some t) : t.Ended ⟨fd, c.connId⟩ := by
  have hread : step library s (.reactor (.read fd .eof ticks)) = some t := hstep
  have hnext : s.nextConnId ≤ t.nextConnId := (step_evolves h hread).nextConnId
  have hnumbered : c.connId < s.nextConnId := (ledger_sound h).identified.connId_lt hc
  obtain ⟨-, ⟨⟩⟩ := Option.ite_none_right_eq_some.mp hstep
  have hdecode : s.handleRead fd .eof ticks = s.decodeAndEnqueue fd true ticks := by
    rw [handleRead, hc]
  rw [hdecode] at hnext ⊢
  refine ⟨hnumbered.trans_le hnext, fun c' hc' _ => ?_, fun c' hc' _ => .inr ?_⟩
  · obtain ⟨hbuffer, hlegal, -⟩ := decodeAndEnqueue_buffer hc hc'
    exact hbuffer.trans (keptInput_eof hlegal)
  · exact (decodeAndEnqueue_buffer hc hc').2.2

/-! ## The bound -/

theorem toUInt32_le_toSize (value : ℤ) : toUInt32 value ≤ toSize value := by
  unfold toUInt32 toSize
  omega

/-- The buffer of every connection holds the beginning of one frame, of a legal
length and not complete. A read appends at most what `recv` takes at once before
the decoder takes the complete frames. From the moment `recv` reports the end of
the input, the buffer of that connection is empty. What the decoder accepts is
within the configured size, so the second test of the size never fails. -/
theorem input_bounded (h : Transition.Reachable (gateway library args) s) :
    (∀ fd c, s.connections.lookup fd = some c → PartialFrame c.inputBuffer) ∧
    (∀ fd c bytes ticks t, s.connections.lookup fd = some c →
      s.reactorStep (.read fd (.data bytes) ticks) = some t →
        t = (s.setConnection fd { c with inputBuffer := c.inputBuffer ++ bytes }).decodeAndEnqueue
            fd false ticks ∧
          (c.inputBuffer ++ bytes).length ≤ c.inputBuffer.length + 4096) ∧
    (∀ fd c ticks t u, s.connections.lookup fd = some c →
      s.reactorStep (.read fd .eof ticks) = some t →
        Transition.Leads (gateway library args) (fun _ _ => True) t u →
          ∀ c', u.live? ⟨fd, c.connId⟩ = some c' → c'.inputBuffer = []) ∧
    ∀ buffer fd connId, ∀ request ∈ (decode buffer fd connId
      (toUInt32 s.runtimeConfig.maxPayloadSize)).2.1,
        ¬ request.payload.length + 10 > toSize s.runtimeConfig.maxPayloadSize := by
  refine ⟨fun fd c hc => partialFrame h hc, fun fd c bytes ticks t hc hstep => ?_, ?_, ?_⟩
  · simp only [reactorStep, Option.ite_none_right_eq_some, Bool.and_eq_true] at hstep
    obtain ⟨⟨-, hpossible⟩, ⟨⟩⟩ := hstep
    refine ⟨by rw [handleRead, hc], ?_⟩
    have hread : bytes.length ≤ 4096 := by
      simp only [recvPossible, recvBufferSize, Bool.and_eq_true] at hpossible
      exact of_decide_eq_true hpossible.2
    rw [List.length_append]
    omega
  · intro fd c ticks t u hc hstep hleads c' hlive
    have hread : (gateway library args).step s (.reactor (.read fd .eof ticks)) = some t := hstep
    have hended : Transition.Reachable (gateway library args) u ∧ u.Ended ⟨fd, c.connId⟩ := by
      refine Transition.kept_along (I := fun u => Transition.Reachable (gateway library args) u ∧
        u.Ended ⟨fd, c.connId⟩) ?_ hleads ⟨.step h trivial hread, ended_of_eof h hc hstep⟩
      rintro s t ⟨action, -, hstep⟩ ⟨hreach, hs⟩
      exact ⟨.step hreach trivial hstep, hs.step hreach hstep⟩
    obtain ⟨hc', hconnId⟩ := live?_eq_some.mp hlive
    exact hended.2.empty c' hc' hconnId
  · intro buffer fd connId request hrequest
    have hpayload := decode_payload hrequest
    have hcast := toUInt32_le_toSize s.runtimeConfig.maxPayloadSize
    have hfixed : fixedBodySize = 10 := rfl
    omega

end Server

namespace Sample

/-- A client has sent the first six bytes of its AUTH frame. -/
def receiving : Server :=
  (Server.after library {} 0 [.reactor (.accept 5 true),
    .reactor (.read 5 (.data (login.take 6)) []), .reactor (.enqueueNext true)]).get
      (by decide +kernel)

theorem receiving_reachable :
    Transition.ReachableBy (gateway library {}) BeforeDeadline receiving :=
  Server.after_reachable (by simp [BeforeDeadline]) (Option.some_get _).symm

def receivingConnection : Connection := (receiving.connections.lookup 5).get (by decide +kernel)

end Sample

theorem Server.input_bounded_receiving :
    Sample.receivingConnection.inputBuffer = [0, 0, 0, 39, 1, 10] ∧
      ProtocolCodec.PartialFrame Sample.receivingConnection.inputBuffer :=
  ⟨by decide +kernel, (Server.input_bounded Sample.receiving_reachable.reachable).1 5 _
    (Option.some_get _).symm⟩

end GatewaySystem
