import GatewaySystem.Net.Isolation

/-!
# The drain protocol

After `beginDraining` nothing new is taken in. The workers empty the queues and
leave; the last of them stops the response queue, so a response is never
refused because the queue is stopped. A connection whose response was refused
is on the list of refused connections, or about to be put there, until the
reactor has closed it. When the workers are gone and queues and list are empty,
no live connection has work in flight, and `drainComplete` says yes only when
every admitted request was answered or its connection was gone.
-/

namespace GatewaySystem

namespace Ledger

variable {l l' l'' : Ledger}

/-! ## Nothing is taken in -/

/-- From the first ledger to the second no connection was added and no work
counter went up. -/
def Narrows (l l' : Ledger) : Prop :=
  ∀ fd c', l'.connections fd = some c' →
    ∃ c, l.connections fd = some c ∧ c'.connId = c.connId ∧ c'.inFlightWork ≤ c.inFlightWork

namespace Narrows

theorem refl (l : Ledger) : Narrows l l := fun _ c hc => ⟨c, hc, rfl, Nat.le_refl _⟩

theorem trans (h : Narrows l l') (h' : Narrows l' l'') : Narrows l l'' := by
  intro fd c'' hc''
  obtain ⟨c', hc', hid', hwork'⟩ := h' fd c'' hc''
  obtain ⟨c, hc, hid, hwork⟩ := h fd c' hc'
  exact ⟨c, hc, hid'.trans hid, hwork'.trans hwork⟩

theorem of_same (h : l'.connections = l.connections) : Narrows l l' := by
  intro fd c hc
  exact ⟨c, h ▸ hc, rfl, Nat.le_refl _⟩

theorem of_set {fd : Fd} {c c' : Connection} (hc : l.connections fd = some c)
    (h : l'.connections = Function.update l.connections fd (some c'))
    (hid : c'.connId = c.connId) (hwork : c'.inFlightWork ≤ c.inFlightWork) : Narrows l l' := by
  intro fd' own hown
  rw [h] at hown
  rcases update_eq_some hown with ⟨rfl, hnew⟩ | ⟨-, hold⟩
  · obtain rfl := Option.some.inj hnew
    exact ⟨c, hc, hid, hwork⟩
  · exact ⟨own, hold, rfl, Nat.le_refl _⟩

theorem of_close {fd : Fd} (h : l'.connections = Function.update l.connections fd none) :
    Narrows l l' := by
  intro fd' own hown
  rw [h] at hown
  rcases update_eq_some hown with ⟨-, hnew⟩ | ⟨-, hold⟩
  · cases hnew
  · exact ⟨own, hold, rfl, Nat.le_refl _⟩

end Narrows

/-- An answer does not raise the work counter. -/
theorem settles_work {origin : ResponseOrigin} {old c : Connection} {response answer : Response}
    {extra : List Event}
    (h : Settles (Server.clearAuth response (Server.completeWork origin old)) response
      c answer extra) : c.inFlightWork ≤ old.inFlightWork := by
  have hclear : (Server.clearAuth response (Server.completeWork origin old)).inFlightWork ≤
      old.inFlightWork := by
    unfold Server.clearAuth
    split <;> cases origin <;> simp [Server.completeWork]
  cases h <;> exact hclear

/-- Once the server has left the running state and took in the last frame, it
stays so and the connections only lose work. -/
theorem Step.draining (hstep : Step l l') (hstate : l.state ≠ .running) (hquiet : l.Quiet) :
    l'.state ≠ .running ∧ l'.Quiet ∧ Narrows l l' := by
  cases hstep with
  | accept _ hrun | decodeBusiness _ hrun | decodeAuth _ hrun => exact absurd hrun hstate
  | skip | produce | cancel => exact ⟨hstate, hquiet, .of_same rfl⟩
  | buffer hc | markEof hc => exact ⟨hstate, hquiet, .of_set hc rfl rfl (Nat.le_refl _)⟩
  | send hc =>
      exact ⟨hstate, hquiet, .of_set hc rfl (advance_connId _ _)
        (Session.advance_same _ _).1.le⟩
  | sendLast | close | drain | decodeClose => exact ⟨hstate, hquiet, .of_close rfl⟩
  | enqueue hintake | refuse hintake =>
      rw [hquiet.1] at hintake
      exact absurd hintake.symm (Multiset.cons_ne_zero)
  | count hadmitted | countGone hadmitted =>
      rw [hquiet.2] at hadmitted
      cases hadmitted
  | @stale origin _ _ hsource =>
      cases origin with
      | worker => exact ⟨hstate, hquiet, .of_same rfl⟩
      | reactor => exact absurd (hsource.symm.trans hquiet.1) Multiset.cons_ne_zero
  | @answer origin _ _ hsource _ _ hlive _ _ _ hsettles =>
      obtain ⟨-, hid, -⟩ := settles_identity hsettles
      have hwork := settles_work hsettles
      cases origin with
      | worker => exact ⟨hstate, hquiet, .of_set hlive.1 rfl hid hwork⟩
      | reactor => exact absurd (hsource.symm.trans hquiet.1) Multiset.cons_ne_zero
  | @answerClose origin _ _ hsource =>
      cases origin with
      | worker => exact ⟨hstate, hquiet, .of_close rfl⟩
      | reactor => exact absurd (hsource.symm.trans hquiet.1) Multiset.cons_ne_zero
  | leave _ state hleft => exact ⟨hleft, hquiet, .of_same rfl⟩

/-- A server that is not running takes in no frame. -/
theorem Step.quiet (hstep : Step l l') (h : l.state ≠ .running → l.Quiet) :
    l'.state ≠ .running → l'.Quiet := by
  intro hstate'
  by_cases hstate : l.state = .running
  · -- only leaving the running state ends it, and that needs quiet
    cases hstep with
    | leave hquiet => exact hquiet
    | _ => exact absurd hstate hstate'
  · exact (hstep.draining hstate (h hstate)).2.1

theorem draining_along (hsteps : Relation.ReflTransGen Step l l') (hstate : l.state ≠ .running)
    (hquiet : l.Quiet) : l'.state ≠ .running ∧ l'.Quiet ∧ Narrows l l' := by
  induction hsteps with
  | refl => exact ⟨hstate, hquiet, .refl l⟩
  | tail _ hstep ih =>
      obtain ⟨hstate, hquiet, hnarrows⟩ := ih
      obtain ⟨hstate', hquiet', hnarrows'⟩ := hstep.draining hstate hquiet
      exact ⟨hstate', hquiet', hnarrows.trans hnarrows'⟩

end Ledger

namespace Server

variable {library : Json.Library} {args : StartArgs} {s t : Server} {c : Connection} {fd : Fd}
  {key : ConnectionKey}

/-- After `beginDraining` no connection is added and no work counter goes up,
until the deadline. -/
theorem draining_narrows (h : Transition.ReachableBy (gateway library args) BeforeDeadline s)
    (hstate : s.state ≠ .running)
    (hleads : Transition.Leads (gateway library args) BeforeDeadline s t) :
    s.ledger.Narrows t.ledger := by
  have hquiet : s.ledger.state ≠ .running → s.ledger.Quiet :=
    ledger_invariant (P := fun l => l.state ≠ .running → l.Quiet) (fun h => absurd rfl h)
      (fun _ _ hstep _ h => hstep.quiet h) (fun ⟨_, hok⟩ => absurd rfl hok) h
  have hboth : t.ledger.state ≠ .running ∧ t.ledger.Quiet ∧ s.ledger.Narrows t.ledger := by
    induction hleads with
    | refl => exact ⟨hstate, hquiet hstate, .refl _⟩
    | tail _ hstep ih =>
        obtain ⟨action, hbefore, hstep⟩ := hstep
        obtain ⟨hstate, hquiet, hnarrows⟩ := ih
        obtain ⟨hstate', hquiet', hnarrows'⟩ :=
          Ledger.draining_along (step_refines hbefore hstep) hstate hquiet
        exact ⟨hstate', hquiet', hnarrows.trans hnarrows'⟩
  exact hboth.2.2

/-! ## The producers -/

/-- The producers are counted right, none is left in a stopped server, and no
response was refused because the queue is stopped. -/
structure ProducersCounted (s : Server) : Prop where
  valid : s.shared.countdown.Valid
  stopped : s.state = .stopped → s.responseProducersRemaining = 0
  offered : ∀ request response, .offered request response .stopped ∉ s.log

theorem started_countdown (args : StartArgs) (now : ℤ) :
    (started args now).shared.countdown.Valid := by
  refine ⟨?_, ?_, fun hclosed => nomatch hclosed⟩
  · simp [shared, Shared.countdown, producers, started, List.countP_replicate,
      NormalWorker.producer, AuthWorker.producer, Producer.isActive]
  · simp [shared, Shared.countdown, producers, started, List.countP_replicate,
      NormalWorker.producer, AuthWorker.producer, Producer.isStopping]

theorem producersCounted (h : Transition.ReachableBy (gateway library args) BeforeDeadline s) :
    ProducersCounted s := by
  refine h.invariant (I := ProducersCounted) (fun s hinit => ?_)
    fun s action t _ hs hbefore hstep => ?_
  · obtain ⟨now, hstart⟩ := hinit
    rw [start_eq_some hstart]
    refine ⟨started_countdown args now, fun hstate => ?_, fun _ _ hmem => ?_⟩
    · cases hstate
    · cases hmem
  · rcases step_cases hstep with ⟨own, rfl, hstep⟩ | ⟨hturn, -, hstate⟩
    · have hframe := reactorStep_frame hstep
      have hstopped : t.state = .stopped → s.responseProducersRemaining = 0 := by
        intro hstopped
        rcases hframe.state hstopped with hstate | hnone | hdeadline
        · exact hs.stopped hstate
        · exact hnone
        · exact absurd (congrArg Action.reactor hdeadline) hbefore
      have hproducers : t.producers = s.producers := by
        simp only [producers, hframe.workers, hframe.authWorkers]
      refine ⟨⟨?_, ?_, ?_⟩, ?_, ?_⟩
      · simp only [shared, Shared.countdown, hframe.responseProducersRemaining, hproducers]
        exact hs.valid.remaining
      · simp only [shared, Shared.countdown, hframe.responseProducersRemaining, hproducers]
        exact hs.valid.closing
      · simp only [shared, Shared.countdown, hframe.responseProducersRemaining]
        intro hclosed
        rcases hframe.responseQueue with hsame | hstate
        · exact hs.valid.closed (hsame.symm.trans hclosed)
        · exact hstopped hstate
      · rw [hframe.responseProducersRemaining]
        exact hstopped
      · intro request response hmem
        exact hs.offered request response ((hframe.offered ..).mp hmem)
    · refine ⟨hturn.countdown.valid hs.valid, ?_, ?_⟩
      · intro hstopped
        have hnone := hs.stopped (hstate ▸ hstopped)
        exact Nat.le_zero.mp (hnone ▸ hturn.countdown.remaining_le)
      · intro request response hmem
        rcases hturn.refused_stopped hmem with hmem | ⟨hclosed, hactive⟩
        · exact hs.offered request response hmem
        · exact absurd (hs.valid.open_of_active hactive) (by simp [hclosed])

/-! ## The refused connections -/

/-- Closing a connection adds none. -/
theorem closeConnection_lookup_some {fd fd' : Fd}
    (h : (s.closeConnection fd).connections.lookup fd' = some c) :
    s.connections.lookup fd' = some c := by
  by_cases heq : fd' = fd
  · subst heq
    rw [closeConnection_lookup_self] at h
    cases h
  · rwa [closeConnection_lookup s heq] at h

theorem closeRejected_lookup_some (h : (s.closeRejected key).connections.lookup fd = some c) :
    s.connections.lookup fd = some c := by
  unfold closeRejected at h
  split at h
  · exact closeConnection_lookup_some h
  · exact h

theorem closeRejected_foldl_lookup_some {keys : List ConnectionKey}
    (h : (keys.foldl closeRejected s).connections.lookup fd = some c) :
    s.connections.lookup fd = some c := by
  induction keys generalizing s with
  | nil => exact h
  | cons key keys ih => exact closeRejected_lookup_some (ih h)

/-- After the list was worked through none of its connections is live. -/
theorem closeRejected_gone {keys : List ConnectionKey} (hkey : key ∈ keys) :
    (keys.foldl closeRejected s).live? key = none := by
  induction keys generalizing s with
  | nil => cases hkey
  | cons own keys ih =>
      rcases List.mem_cons.mp hkey with rfl | hkey
      · refine Option.eq_none_iff_forall_ne_some.mpr fun c hlive => ?_
        obtain ⟨hc, hconnId⟩ := live?_eq_some.mp hlive
        have hfirst := closeRejected_foldl_lookup_some (s := s.closeRejected key) hc
        have hlive := live?_eq_some.mpr ⟨closeRejected_lookup_some hfirst, hconnId⟩
        rw [closeRejected, hlive, Option.isSome_some, if_pos rfl,
          closeConnection_lookup_self] at hfirst
        cases hfirst
      · exact ih hkey

/-- A connection that is gone stays gone. -/
theorem gone_of_step (h : Transition.Reachable (gateway library args) s) {action : Action}
    (hstep : step library s action = some t) (haccepted : .accepted key ∈ s.ledger.history)
    (hgone : s.live? key = none) : t.live? key = none := by
  have hdead : ∀ c, ¬ s.ledger.Live key c := by
    intro c hlive
    exact absurd (hgone.symm.trans (live?_eq_some.mpr hlive)) nofun
  refine Option.eq_none_iff_forall_ne_some.mpr fun c hlive => ?_
  by_cases hdeadline : action = .reactor .deadline
  · subst hdeadline
    obtain ⟨-, ⟨⟩⟩ := Option.ite_none_right_eq_some.mp hstep
    exact absurd (hgone.symm.trans hlive) nofun
  · have hkept := Transition.kept_along
      (fun l l' (hstep : Ledger.Step l l')
          (h : l.Sound ∧ .accepted key ∈ l.history ∧ ∀ c, ¬ l.Live key c) =>
        ⟨hstep.sound h.1, hstep.history_suffix.subset h.2.1,
          (hstep.gone h.1.identified h.2.1 h.2.2).1⟩)
      (step_refines hdeadline hstep) ⟨ledger_sound h, haccepted, hdead⟩
    exact hkept.2.2 c (live?_eq_some.mp hlive)

/-- The connection of an offered response was accepted. -/
theorem offered_accepted (h : Transition.Reachable (gateway library args) s) {request : Request}
    {response : Response} {result : PushResult}
    (hmem : .offered request response result ∈ s.log) :
    .accepted request.key ∈ s.ledger.history := by
  have hvisible : .offered request response result ∈ s.ledger.history :=
    List.mem_filter.mpr ⟨hmem, rfl⟩
  have hdecoded := ((ledger_sound h).sourced.offered _ _ _ hvisible).2
  exact (ledger_sound h).identified.subject _ hdecoded _ rfl

/-- A live connection with a refused response is on the list, or a producer is
about to put it there. -/
theorem refused_listed (h : Transition.Reachable (gateway library args) s) :
    ∀ request response result, .offered request response result ∈ s.log → result ≠ .ok →
      s.live? request.key ≠ none → request.key ∈ s.shared.refusedKeys := by
  refine h.invariant (I := fun s => ∀ request response result,
    .offered request response result ∈ s.log → result ≠ .ok → s.live? request.key ≠ none →
      request.key ∈ s.shared.refusedKeys) (fun s hinit => ?_)
    fun s action t hreach hs _ hstep request response result hmem hresult hlive => ?_
  · obtain ⟨now, hstart⟩ := hinit
    rw [start_eq_some hstart]
    intro request response result hmem
    cases hmem
  · have hstep : step library s action = some t := hstep
    rcases step_cases hstep with ⟨own, rfl, hown⟩ | ⟨hturn, hconnections, -⟩
    · have hframe := reactorStep_frame hown
      have hmem := (hframe.offered ..).mp hmem
      have hold : s.live? request.key ≠ none := fun hgone =>
        hlive (gone_of_step hreach hstep (offered_accepted hreach hmem) hgone)
      have hkey := hs request response result hmem hresult hold
      simp only [Shared.refusedKeys, shared, producers, hframe.workers, hframe.authWorkers,
        List.mem_append] at hkey ⊢
      rcases hframe.rejected with hsame | ⟨rfl, -⟩
      · rwa [hsame]
      · exact .inr (hkey.resolve_left fun hlisted => hlive (closeRejected_gone hlisted))
    · have hsame : t.live? request.key = s.live? request.key := by
        simp only [live?, hconnections]
      rcases hturn.listed.listed _ _ _ hmem hresult with hmem | hkey
      · exact hturn.listed.kept _ (hs request response result hmem hresult (hsame ▸ hlive))
      · exact hkey

/-! ## The end of the drain -/

/-- No producer is left to hold anything. -/
theorem producers_idle (h : ProducersCounted s) (hnone : s.responseProducersRemaining = 0) :
    ∀ producer ∈ s.producers, producer.isActive = false := by
  intro producer hmem
  have hcount : s.producers.countP Producer.isActive = 0 := h.valid.remaining.symm.trans hnone
  rw [List.countP_eq_zero] at hcount
  exact Bool.eq_false_iff.mpr (hcount producer hmem)

/-- A live connection that is neither on the list of refused ones nor about to
be has no refused response. -/
theorem refuses_eq_zero_of_notMem (h : Transition.Reachable (gateway library args) s)
    (hc : s.connections.lookup fd = some c)
    (hkey : ⟨fd, c.connId⟩ ∉ s.shared.refusedKeys) :
    s.log.countP (Event.refuses ⟨fd, c.connId⟩) = 0 := by
  refine List.countP_eq_zero.mpr fun event hevent hrefuses => hkey ?_
  cases event with
  | offered request response result =>
      simp only [Event.refuses, Bool.and_eq_true, decide_eq_true_eq] at hrefuses
      have htag := ((ledger_sound h).sourced.offered request response result
        (List.mem_filter.mpr ⟨hevent, rfl⟩)).1
      have hrequest : request.key = ⟨fd, c.connId⟩ :=
        (congrArg Tag.key htag).symm.trans hrefuses.2
      have hlive : s.live? request.key = some c := live?_eq_some.mpr (hrequest ▸ ⟨hc, rfl⟩)
      have hlisted := refused_listed h request response result hevent hrefuses.1 (by simp [hlive])
      exact hrequest ▸ hlisted
  | _ => cases hrefuses

/-- Nor is a response of a live connection refused, once the list is empty. -/
theorem refuses_eq_zero (h : Transition.Reachable (gateway library args) s)
    (hidle : ∀ producer ∈ s.producers, producer.isActive = false)
    (hrejected : s.rejectedResponseConnections = []) (hc : s.connections.lookup fd = some c) :
    s.log.countP (Event.refuses ⟨fd, c.connId⟩) = 0 := by
  refine refuses_eq_zero_of_notMem h hc fun hlisted => ?_
  rw [Shared.refusedKeys, show s.shared.rejected = [] from hrejected, List.nil_append] at hlisted
  obtain ⟨producer, hproducer, hholds⟩ := List.mem_filterMap.mp hlisted
  have hinactive := hidle producer hproducer
  cases producer <;> simp_all [Producer.refused?, Producer.isActive]

/-- When the workers are gone and queues and list are empty, no live connection
has work in flight. -/
theorem inFlightWork_eq_zero (h : Transition.ReachableBy (gateway library args) BeforeDeadline s)
    (hpoint : s.point = .boundary) (hnone : s.responseProducersRemaining = 0)
    (hrequests : s.requestQueue.items = []) (htasks : s.authQueue.items = [])
    (hresponses : s.responseQueue.items = []) (hrejected : s.rejectedResponseConnections = [])
    (hc : s.connections.lookup fd = some c) : c.inFlightWork = 0 := by
  have hidle := producers_idle (producersCounted h) hnone
  have hworkers : s.workers.countP (NormalWorker.holds ⟨fd, c.connId⟩) = 0 := by
    refine List.countP_eq_zero.mpr fun worker hworker => ?_
    have hinactive := hidle worker.producer
      (List.mem_append_left _ (List.mem_map.mpr ⟨worker, hworker, rfl⟩))
    cases worker <;> simp_all [NormalWorker.producer, Producer.isActive, NormalWorker.holds]
  have hauthWorkers : s.authWorkers.countP (AuthWorker.holds ⟨fd, c.connId⟩) = 0 := by
    refine List.countP_eq_zero.mpr fun worker hworker => ?_
    have hinactive := hidle worker.producer
      (List.mem_append_right _ (List.mem_map.mpr ⟨worker, hworker, rfl⟩))
    cases worker <;> simp_all [AuthWorker.producer, Producer.isActive, AuthWorker.holds]
  have hrefused := refuses_eq_zero h.reachable hidle hrejected hc
  rw [inFlightWork_eq h hpoint hc, outstanding, hrequests, htasks, hresponses, hworkers,
    hauthWorkers, hrefused]
  rfl

theorem closeDrained_lookup (s : Server) {fd fd' : Fd} (hne : fd' ≠ fd) (c : Connection) :
    (s.closeDrained fd c).connections.lookup fd' = s.connections.lookup fd' :=
  closeConnection_lookup _ hne

/-- Closing a list of connections leaves the others. -/
theorem closeDrained_foldl_lookup {entries : List (Sigma fun _ : Fd => Connection)}
    (h : ∀ entry ∈ entries, entry.1 ≠ fd) (s : Server) :
    (entries.foldl (fun s entry => s.closeDrained entry.1 entry.2) s).connections.lookup fd =
      s.connections.lookup fd := by
  induction entries generalizing s with
  | nil => rfl
  | cons entry entries ih =>
      rw [List.foldl_cons, ih (fun own hown => h own (List.mem_cons_of_mem entry hown))]
      exact closeDrained_lookup s (h entry List.mem_cons_self).symm entry.2

/-- When `drainComplete` says yes, every connection that was left could be
closed. -/
theorem canCloseAfterDrain_of_drainComplete (h : s.drainComplete.1 = true)
    (hc : s.connections.lookup fd = some c) : s.canCloseAfterDrain c = true := by
  by_contra hopen
  unfold drainComplete at h
  split at h
  · have hother : ∀ entry ∈ s.completed, entry.1 ≠ fd := by
      rintro ⟨own, connection⟩ hentry rfl
      obtain ⟨hmem, hclose⟩ := List.mem_filter.mp hentry
      have hown := AList.mem_lookup_iff.mpr hmem
      obtain rfl := Option.some.inj (hc.symm.trans hown)
      exact hopen hclose
    have hkept := closeDrained_foldl_lookup hother s
    rw [hc] at hkept
    have hentry := AList.mem_lookup_iff.mp hkept
    simp only [List.isEmpty_iff] at h
    rw [h] at hentry
    cases hentry
  · cases h

/-- When `drainComplete` says yes, every admitted request was answered on its
connection, to the last byte, or its connection was already gone. -/
theorem admitted_answered (h : Transition.ReachableBy (gateway library args) BeforeDeadline s)
    (hpoint : s.point = .boundary) (hcomplete : s.drainComplete.1 = true) {request : Request}
    (hadmitted : .admitted request ∈ s.log) :
    s.live? request.key = none ∨
      request.tag ∈ (transcriptOf s.log request.key).appendedTags ∧
        (transcriptOf s.log request.key).sentBytes =
          (transcriptOf s.log request.key).appendedBytes := by
  cases hlive : s.live? request.key with
  | none => exact .inl rfl
  | some c =>
      obtain ⟨hc, hconnId⟩ := live?_eq_some.mp hlive
      have hkey : (⟨request.fd, c.connId⟩ : ConnectionKey) = request.key := by
        rw [hconnId]
        rfl
      have hquiet : s.ledger.Quiet := by
        simp [Ledger.Quiet, ledger, intake, admitted, hpoint]
      have hdrained := canCloseAfterDrain_iff.mp (canCloseAfterDrain_of_drainComplete hcomplete hc)
      have hclosed : (transcriptOf (s.ledger.record
          [.drained ⟨request.fd, c.connId⟩]).history ⟨request.fd, c.connId⟩).Complete :=
        Ledger.drained_complete (ledger_sound h.reachable) (ledger_accounted h) hc hquiet
          (.inl ⟨hdrained, rfl⟩)
      have htranscript : (transcriptOf s.log request.key).Complete := by
        rw [← transcriptOf_visible, ← hkey]
        exact hclosed
      have hdecoded : .decoded request.key request ∈ s.log :=
        (List.mem_filter.mp ((ledger_sound h.reachable).sourced.admitted request
          (List.mem_filter.mpr ⟨hadmitted, rfl⟩))).1
      refine .inr ⟨?_, htranscript.bytes⟩
      rw [← htranscript.tags]
      refine Multiset.mem_coe.mpr (List.mem_map.mpr ⟨request, ?_, rfl⟩)
      exact List.mem_filterMap.mpr ⟨_, hdecoded, by simp [Event.decodedBy]⟩

/-- After `beginDraining` and before the deadline nothing is taken in; no
response is refused because its queue is stopped; when the workers are gone and
queues and list are empty, no connection has work in flight; and when
`drainComplete` says yes, every admitted request was answered or its connection
was already gone. -/
theorem drain_protocol (h : Transition.ReachableBy (gateway library args) BeforeDeadline s) :
    (s.state ≠ .running → ∀ t, Transition.Leads (gateway library args) BeforeDeadline s t →
      ∀ fd c', t.connections.lookup fd = some c' →
        ∃ c, s.connections.lookup fd = some c ∧ c'.connId = c.connId ∧
          c'.inFlightWork ≤ c.inFlightWork) ∧
      (∀ request response, .offered request response .stopped ∉ s.log) ∧
      (s.point = .boundary → s.responseProducersRemaining = 0 → s.requestQueue.items = [] →
        s.authQueue.items = [] → s.responseQueue.items = [] →
          s.rejectedResponseConnections = [] →
            ∀ fd c, s.connections.lookup fd = some c → c.inFlightWork = 0) ∧
      (s.point = .boundary → s.drainComplete.1 = true →
        ∀ request, .admitted request ∈ s.log → s.live? request.key = none ∨
          request.tag ∈ (transcriptOf s.log request.key).appendedTags ∧
            (transcriptOf s.log request.key).sentBytes =
              (transcriptOf s.log request.key).appendedBytes) := by
  refine ⟨?_, ?_, ?_, ?_⟩
  · intro hstate t hleads
    exact draining_narrows h hstate hleads
  · exact (producersCounted h).offered
  · intro hpoint hnone hrequests htasks hresponses hrejected fd c hc
    exact inFlightWork_eq_zero h hpoint hnone hrequests htasks hresponses hrejected hc
  · intro hpoint hcomplete request hadmitted
    exact admitted_answered h hpoint hcomplete hadmitted

theorem drain_protocol_finishing :
    (Sample.finishing.connections.lookup 5).isSome = true ∧
      ∀ request, .admitted request ∈ Sample.finishing.log →
        Sample.finishing.live? request.key = none ∨
          request.tag ∈ (transcriptOf Sample.finishing.log request.key).appendedTags ∧
            (transcriptOf Sample.finishing.log request.key).sentBytes =
              (transcriptOf Sample.finishing.log request.key).appendedBytes :=
  ⟨by decide +kernel,
    (drain_protocol Sample.finishing_reachable).2.2.2 rfl (by decide +kernel)⟩

end Server

end GatewaySystem
