import GatewaySystem.Net.Accounting
import GatewaySystem.Net.Effects

/-!
# The life of a connection

Between two steps of the reactor a live connection is in one of four phases: it
has not sent its AUTH frame, it waits for the answer to it, it is
authenticated, or it is closing and has output left. No field records the
phase; it is read off the three flags, and the counter and the items fit it.

The output of a connection is, in every state of every run, what is left of the
stream of encoded responses after the bytes the kernel has taken. It is no
longer than the limit of the last append, and that limit comes from a
configuration inside its ranges.
-/

namespace GatewaySystem

inductive Phase where
  | fresh
  | pending
  | authenticated
  | closing
  deriving DecidableEq, Repr

namespace Server

variable {library : Json.Library} {args : StartArgs} {s : Server} {key : ConnectionKey}
  {response : Response}

/-- The item a connection waits for after its AUTH frame: the task, or the
response that was offered for it. -/
def Awaits (s : Server) (c : Connection) : Item → Prop
  | .task task => c.authCancellation = some task.cancellation
  | .response response => response.AuthAnswer ∧
      ∃ request result, .offered request response result ∈ s.log ∧
        .decoded response.key request ∈ s.log
  | .request _ => False

/-- The phases of a connection at a descriptor. -/
def InPhase (s : Server) (fd : Fd) (c : Connection) : Phase → Prop
  | .fresh => c.authenticated = false ∧ c.authPending = false ∧ c.closing = false ∧
      c.inFlightWork = 0
  | .pending => c.authPending = true ∧ c.authenticated = false ∧ c.closing = false ∧
      c.inFlightWork = 1 ∧ c.authCancellation.isSome = true ∧
        ∃ item, itemsOf s.work ⟨fd, c.connId⟩ = {item} ∧ s.Awaits c item
  | .authenticated => c.authenticated = true ∧ c.authPending = false ∧ c.closing = false
  | .closing => c.closing = true ∧ c.authenticated = false ∧ c.authPending = false ∧
      c.inFlightWork = 0 ∧ c.unsent ≠ []

/-- The flags of a connection leave room for one phase. -/
theorem InPhase.unique {fd : Fd} {c : Connection} {phase phase' : Phase}
    (h : s.InPhase fd c phase) (h' : s.InPhase fd c phase') : phase = phase' := by
  cases phase <;> cases phase' <;> simp_all [InPhase]

/-- An item of a connection that waits for its answer. -/
theorem awaits_of_fits (h : Transition.Reachable (gateway library args) s) {fd : Fd}
    {c : Connection} {item : Item} (hitem : item ∈ itemsOf s.work ⟨fd, c.connId⟩)
    (hfits : c.Fits item) (hauth : c.authenticated = false) : s.Awaits c item := by
  have hwork : item ∈ s.ledger.work := (Multiset.mem_filter.mp hitem).1
  cases item with
  | request request => exact absurd (hauth.symm.trans hfits.1) nofun
  | task task => exact hfits.2
  | response response =>
      obtain ⟨request, result, hoffered⟩ := (ledger_sound h).sourced.work _ hwork
      obtain ⟨htag, hdecoded⟩ := (ledger_sound h).sourced.offered _ _ _ hoffered
      have hkey : response.key = request.key := congrArg Tag.key htag
      have hanswer := hfits.resolve_left fun hbusiness =>
        absurd (hauth.symm.trans hbusiness.1) nofun
      rw [← hkey] at hdecoded
      exact ⟨hanswer.2, request, result, (List.mem_filter.mp hoffered).1,
        (List.mem_filter.mp hdecoded).1⟩

/-- Between two steps of the reactor every live connection is in a phase. -/
theorem exists_inPhase (h : Transition.ReachableBy (gateway library args) BeforeDeadline s)
    (hpoint : s.point = .boundary) {fd : Fd} {c : Connection}
    (hc : s.connections.lookup fd = some c) : ∃ phase, s.InPhase fd c phase := by
  obtain ⟨hbalanced, hintake, hadmitted⟩ := session_boundary h hpoint hc
  have hitems : (s.ledger.session fd c).items = itemsOf s.work ⟨fd, c.connId⟩ := by
    rw [Session.items, hintake, add_zero]
    rfl
  have hcount : c.inFlightWork = (itemsOf s.work ⟨fd, c.connId⟩).card := by
    have hcard := hbalanced.count
    rwa [hadmitted] at hcard
  cases hclosing : c.closing with
  | true =>
      obtain ⟨hauth, hpending, hunsent⟩ := hbalanced.closing hclosing
      have hnone := hbalanced.closing_items hclosing
      rw [hitems] at hnone
      exact ⟨.closing, hclosing, hauth, hpending, by rw [hcount, hnone]; rfl, hunsent⟩
  | false =>
      cases hpending : c.authPending with
      | true =>
          obtain ⟨hcard, hcell⟩ := hbalanced.single hpending
          rw [hitems] at hcard
          obtain ⟨item, hitem⟩ := Multiset.card_eq_one.mp hcard
          have hauth : c.authenticated = false := by
            cases hauth : c.authenticated with
            | true => exact absurd ((hbalanced.exclusive hauth).symm.trans hpending) (by simp)
            | false => rfl
          have hmem : item ∈ itemsOf s.work ⟨fd, c.connId⟩ := by simp [hitem]
          have hfits := hbalanced.fits item (by rwa [hitems])
          exact ⟨.pending, hpending, hauth, hclosing, by rw [hcount, hcard], hcell, item, hitem,
            awaits_of_fits h.reachable hmem hfits hauth⟩
      | false =>
          cases hauth : c.authenticated with
          | true => exact ⟨.authenticated, hauth, hpending, hclosing⟩
          | false =>
              have hnone := hbalanced.items_eq_zero hauth hpending
              rw [hitems] at hnone
              exact ⟨.fresh, hauth, hpending, hclosing, by rw [hcount, hnone]; rfl⟩

/-- The responses appended after another one are newer entries of the
transcript. -/
theorem appended_split {newer older : List Event} {limit : ℕ}
    (h : s.log = newer ++ .appended key response limit :: older) :
    (transcriptOf s.log key).appended = newer.filterMap (Event.appendedBy key) ++
      (response, limit) :: older.filterMap (Event.appendedBy key) := by
  simp [transcriptOf, h, List.filterMap_append, List.filterMap_cons, Event.appendedBy]

/-- Nothing is appended after a response that closes. -/
theorem nothing_after_closing (h : Transition.ReachableBy (gateway library args) BeforeDeadline s)
    {newer older : List Event} {limit : ℕ}
    (hlog : s.log = newer ++ .appended key response limit :: older)
    (hclose : response.closeConnection = true) (response' : Response) (limit' : ℕ) :
    .appended key response' limit' ∉ newer := by
  intro hmem
  have hlast := (ledger_accounted h).last key
  rw [show s.ledger.history = visible s.log from rfl, transcriptOf_visible,
    appended_split hlog] at hlast
  -- a newer entry moves the closing response into the tail
  have hne : newer.filterMap (Event.appendedBy key) ≠ [] := by
    refine List.ne_nil_of_mem (List.mem_filterMap.mpr ⟨_, hmem, ?_⟩) (a := (response', limit'))
    simp [Event.appendedBy]
  have htail := hlast (response, limit) (by
    rw [List.tail_append_of_ne_nil hne]
    simp)
  exact absurd (hclose.symm.trans htail) (by simp)

/-- Between two steps of the reactor every live connection is in exactly one
phase, what is in `request_queue_` for a live connection is no AUTH frame and
the connection is authenticated, and nothing follows a response that closes. -/
theorem lifecycle (h : Transition.ReachableBy (gateway library args) BeforeDeadline s)
    (hpoint : s.point = .boundary) :
    (∀ fd c, s.connections.lookup fd = some c → ∃! phase, s.InPhase fd c phase) ∧
      (∀ request ∈ s.requestQueue.items, ∀ c, s.live? request.key = some c →
        s.InPhase request.fd c .authenticated ∧ request.type ≠ .auth) ∧
      ∀ newer older key response limit, s.log = newer ++ .appended key response limit :: older →
        response.closeConnection = true →
          ∀ response' limit', .appended key response' limit' ∉ newer := by
  refine ⟨fun fd c hc => ?_, fun request hrequest c hlive => ?_, ?_⟩
  · obtain ⟨phase, hphase⟩ := exists_inPhase h hpoint hc
    exact ⟨phase, hphase, fun phase' hphase' => hphase'.unique hphase⟩
  · obtain ⟨hc, hconnId⟩ := live?_eq_some.mp hlive
    obtain ⟨hbalanced, -, -⟩ := session_boundary h hpoint hc
    have hwork : Item.request request ∈ s.work := by
      simp only [work, Multiset.mem_add, Multiset.mem_coe, List.mem_map]
      exact .inl (.inl (.inl (.inl (.inl ⟨request, hrequest, rfl⟩))))
    have hmem : Item.request request ∈ (s.ledger.session request.fd c).work :=
      Multiset.mem_filter.mpr ⟨hwork, by rw [hconnId]; rfl⟩
    have hitem : Item.request request ∈ (s.ledger.session request.fd c).items :=
      Multiset.mem_add.mpr (.inl hmem)
    obtain ⟨hauth, htype⟩ := hbalanced.fits _ hitem
    exact ⟨⟨hauth, hbalanced.exclusive hauth, hbalanced.not_closing hitem⟩, htype⟩
  · intro newer older key response limit hlog hclose
    exact nothing_after_closing h hlog hclose

theorem lifecycle_sample :
    Sample.server.requestQueue.items.length = 1 ∧
      ∀ request ∈ Sample.server.requestQueue.items, ∀ c,
        Sample.server.live? request.key = some c →
          Sample.server.InPhase request.fd c .authenticated ∧ request.type ≠ .auth :=
  ⟨by decide +kernel, (lifecycle Sample.server_reachable rfl).2.1⟩

/-! ## The output -/

theorem mem_of_appendedBy {log : List Event} {event : Event} {limit : ℕ} (hmem : event ∈ log)
    (h : event.appendedBy key = some (response, limit)) : .appended key response limit ∈ log := by
  cases event with
  | appended own =>
      simp only [Event.appendedBy, Option.ite_none_right_eq_some, Option.some.injEq,
        Prod.mk.injEq] at h
      obtain ⟨rfl, rfl, rfl⟩ := h
      exact hmem
  | _ => cases h

/-- The largest limit a configuration can set. -/
def outputLimitMax : ℕ := 64 * 1024 * 1024

/-- The configuration is inside its ranges, and so was the limit of every
append. -/
structure LimitsInRange (s : Server) : Prop where
  config : s.runtimeConfig.InRange
  appended : ∀ key response limit, .appended key response limit ∈ s.log → limit ≤ outputLimitMax

theorem LimitsInRange.effect {t : Server} (hst : Effect True True s t) (h : LimitsInRange s) :
    LimitsInRange t := by
  obtain ⟨hconfig, events, hlog, hevents⟩ := hst.events
  refine ⟨hconfig ▸ h.config, fun key response limit hmem => ?_⟩
  rw [hlog] at hmem
  rcases List.mem_append.mp hmem with hnew | hmem
  · rw [(hevents _ hnew).2]
    exact h.config.slowClientOutputLimit.2
  · exact h.appended key response limit hmem

theorem limitsInRange (h : Transition.Reachable (gateway library args) s) :
    LimitsInRange s := by
  refine h.invariant (fun s hinit => ?_) fun s action t _ hs _ hstep => ?_
  · obtain ⟨now, hstart⟩ := hinit
    rw [start_eq_some hstart]
    exact ⟨RuntimeConfig.default_inRange, fun _ _ _ hmem => absurd hmem List.not_mem_nil⟩
  · refine step_kept (fun _ _ => LimitsInRange.effect) (fun s body hs => ?_)
      (fun s duration hs => ⟨hs.config, hs.appended⟩) hstep hs
    unfold pullConfig
    split
    · exact hs
    · next fetched hfetched =>
        obtain ⟨body, -, hparse⟩ := Option.bind_eq_some_iff.mp hfetched
        exact ⟨RuntimeConfig.applyRuntimeConfigIfNewer_inRange hs.config
          (RuntimeConfig.parseRuntimeConfig_inRange hparse), hs.appended⟩

/-- In every state the bytes the kernel took and the rest of the output are the
encoded responses in the order of their appends, and the output is within the
limit of the last one. -/
theorem output_stream (h : Transition.Reachable (gateway library args) s) (fd : Fd)
    (c : Connection) (hc : s.connections.lookup fd = some c) :
    c.writeOffset ≤ c.outputBuffer.length ∧
      (transcriptOf s.log ⟨fd, c.connId⟩).sentBytes ++ c.outputBuffer.drop c.writeOffset =
        (transcriptOf s.log ⟨fd, c.connId⟩).appendedBytes ∧
      c.outputBuffer.length ≤ (transcriptOf s.log ⟨fd, c.connId⟩).lastLimit ∧
      (transcriptOf s.log ⟨fd, c.connId⟩).lastLimit ≤ outputLimitMax := by
  have houtput := (ledger_sound h).output fd c hc
  have htranscript : (s.ledger.session fd c).transcript = transcriptOf s.log ⟨fd, c.connId⟩ :=
    transcriptOf_visible s.log _
  refine ⟨houtput.offset, ?_, ?_, ?_⟩
  · rw [← htranscript]
    exact houtput.stream
  · rw [← htranscript]
    exact houtput.bound
  · cases hlast : (transcriptOf s.log ⟨fd, c.connId⟩).appended with
    | nil => simp [Transcript.lastLimit, hlast]
    | cons entry rest =>
        have hmem : entry ∈ s.log.filterMap (Event.appendedBy ⟨fd, c.connId⟩) := by
          change entry ∈ (transcriptOf s.log ⟨fd, c.connId⟩).appended
          simp [hlast]
        obtain ⟨event, hevent, happended⟩ := List.mem_filterMap.mp hmem
        obtain ⟨response, limit⟩ := entry
        simpa [Transcript.lastLimit, hlast] using
          (limitsInRange h).appended _ response limit (mem_of_appendedBy hevent happended)

end Server

/-- The answers to AUTH and `PING` are appended, and the kernel took the first 50
bytes of them. -/
def Sample.partlySent : Server :=
  (Server.after library {} 0 (authentication ++ ping ++ farewell.take 3 ++
    [.reactor (.write 5 (.sent 50) true)])).get (by decide +kernel)

theorem Sample.partlySent_reachable : Transition.Reachable (gateway library {}) partlySent :=
  Server.after_reachable (fun _ _ _ => trivial) (Option.some_get _).symm

theorem Server.output_stream_partlySent :
    (Sample.partlySent.connections.lookup 5).map (fun c => (c.writeOffset, c.outputBuffer.length)) =
        some (50, 85) ∧
      ∀ c, Sample.partlySent.connections.lookup 5 = some c →
        (transcriptOf Sample.partlySent.log ⟨5, c.connId⟩).sentBytes ++
          c.outputBuffer.drop c.writeOffset =
            (transcriptOf Sample.partlySent.log ⟨5, c.connId⟩).appendedBytes :=
  ⟨by decide +kernel, fun c hc => (output_stream Sample.partlySent_reachable 5 c hc).2.1⟩

end GatewaySystem
