import GatewaySystem.Net.AuthTrail

/-!
# The cancellation of AUTH tasks

A connection and the AUTH task made of its frame share a cell. `closeConnection`
sets it, the response to the task takes it from the connection, and an AUTH
worker tests it before it calls `handleAuth`. A task that is not yet answered
therefore has its cell set exactly if its connection is gone. This does not need
the accounting of `Balanced`, which ends at the deadline of the shutdown:
`Phased` is the part of it that survives the loss of items.
-/

namespace GatewaySystem

namespace Session

variable {σ σ' : Session}

/-- The items fit the phase of the connection, and a connection that waits for
its AUTH has at most one. -/
structure Phased (σ : Session) : Prop where
  fits : ∀ item ∈ σ.items, σ.connection.Fits item
  exclusive : σ.connection.authenticated = true → σ.connection.authPending = false
  single : σ.connection.authPending = true → σ.items.card ≤ 1

theorem opened_phased (fd : Fd) (connId : ℕ) : Phased (opened fd connId) where
  fits := by simp [items, opened]
  exclusive := by simp [opened]
  single := by simp [opened]

namespace Phased

/-- Items may be lost, and the rest of the connection may change. -/
theorem shrink (h : Phased σ) (hitems : σ'.items ≤ σ.items)
    (hauth : σ'.connection.authenticated = σ.connection.authenticated)
    (hpending : σ'.connection.authPending = σ.connection.authPending)
    (hcell : σ'.connection.authCancellation = σ.connection.authCancellation) : Phased σ' where
  fits item hitem := by
    have hfits := h.fits item (Multiset.mem_of_le hitems hitem)
    cases item <;> simpa only [Connection.Fits, hauth, hpending, hcell] using hfits
  exclusive := by
    rw [hauth, hpending]
    exact h.exclusive
  single hwaits := by
    rw [hpending] at hwaits
    exact (Multiset.card_le_card hitems).trans (h.single hwaits)

/-- The response made of an item takes its place. -/
theorem replace (h : Phased σ) {item : Item} {response : Response} {rest : Multiset Item}
    (hitems : σ.items = item ::ₘ rest) (hitems' : σ'.items = .response response ::ₘ rest)
    (hconnection : σ'.connection = σ.connection)
    (hanswer : (∃ own, item = .request own) ∧ response.BusinessAnswer ∨
      (∃ task, item = .task task) ∧ response.AuthAnswer) : Phased σ' where
  fits other hother := by
    rw [hconnection]
    rw [hitems', Multiset.mem_cons] at hother
    have hfits : ∀ own ∈ item ::ₘ rest, σ.connection.Fits own := hitems ▸ h.fits
    rcases hother with rfl | hother
    · have hitem := hfits item (Multiset.mem_cons_self _ _)
      rcases hanswer with ⟨⟨own, rfl⟩, hanswer⟩ | ⟨⟨task, rfl⟩, hanswer⟩
      · exact .inl ⟨hitem.1, hanswer⟩
      · exact .inr ⟨hitem.1, hanswer⟩
    · exact hfits other (Multiset.mem_cons_of_mem hother)
  exclusive := by
    rw [hconnection]
    exact h.exclusive
  single := by
    rw [hconnection, hitems', Multiset.card_cons, ← Multiset.card_cons item, ← hitems]
    exact h.single

theorem decodeBusiness (h : Phased σ) (hauth : σ.connection.authenticated = true)
    {requests : List Request} {items : Multiset Item}
    (hitems : Ledger.BusinessItems requests items) (hitems' : σ'.items = σ.work + items)
    (hsame : σ'.connection.authenticated = σ.connection.authenticated ∧
      σ'.connection.authPending = σ.connection.authPending ∧
      σ'.connection.authCancellation = σ.connection.authCancellation) : Phased σ' where
  fits item hitem := by
    rw [hitems', Multiset.mem_add] at hitem
    rcases hitem with hitem | hitem
    · have hfits := h.fits item (Multiset.mem_add.mpr (.inl hitem))
      cases item <;> simpa only [Connection.Fits, hsame] using hfits
    · obtain ⟨request, -, ⟨rfl, htype⟩ | ⟨response, -, rfl, hanswer⟩⟩ := hitems.origin item hitem
      · exact ⟨hsame.1.trans hauth, htype⟩
      · exact .inl ⟨hsame.1.trans hauth, hanswer⟩
  exclusive _ := hsame.2.1.trans (h.exclusive hauth)
  single hwaits := by
    rw [hsame.2.1, h.exclusive hauth] at hwaits
    cases hwaits

/-- A connection that is neither authenticated nor waiting has no item. -/
theorem work_eq_zero (h : Phased σ) (hauth : σ.connection.authenticated = false)
    (hpending : σ.connection.authPending = false) : σ.work = 0 := by
  refine Multiset.eq_zero_of_forall_notMem fun item hitem => ?_
  have hfits := h.fits item (Multiset.mem_add.mpr (.inl hitem))
  cases item <;> simp [Connection.Fits, hauth, hpending] at hfits

/-- A connection whose only item was answered. -/
theorem answered (hitems : σ.items = 0) (hpending : σ.connection.authPending = false) :
    Phased σ where
  fits item hitem := by
    rw [hitems] at hitem
    cases Multiset.notMem_zero item hitem
  exclusive _ := hpending
  single hwaits := by
    rw [hpending] at hwaits
    cases hwaits

theorem answer (h : Phased σ) {origin : ResponseOrigin} {response : Response}
    {rest : Multiset Item} (hsource : σ.source origin = .response response ::ₘ rest)
    {c : Connection} {answer : Response} {extra : List Event}
    (hsettles : Settles
      (Server.clearAuth response (Server.completeWork origin σ.connection)) response
      c answer extra)
    (hitems' : σ'.items = (σ.take origin rest).items)
    (hconnection : σ'.connection = Server.appendOutput c answer) : Phased σ' := by
  have hitems := items_take hsource
  have hsame := completeWork_same origin σ.connection
  rcases h.fits (.response response) (by rw [hitems]; exact Multiset.mem_cons_self _ _) with
    ⟨-, hanswer⟩ | ⟨hwaits, hanswer⟩
  · have hclear : Server.clearAuth response (Server.completeWork origin σ.connection) =
        Server.completeWork origin σ.connection := by
      simp [Server.clearAuth, hanswer.type, hanswer.close]
    rw [hclear] at hsettles
    have hle : σ'.items ≤ σ.items := by
      rw [hitems', hitems]
      exact Multiset.le_cons_self _ _
    cases hsettles with
    | authenticated hclient => cases hanswer.client.symm.trans hclient
    | refused hclient =>
        rw [hanswer.client] at hclient
        cases hclient
    | unchanged =>
        exact h.shrink hle (by rw [hconnection]; exact hsame.1)
          (by rw [hconnection]; exact hsame.2.1) (by rw [hconnection]; exact hsame.2.2.1)
  · -- the response is the only item, so none is left
    have hpending : c.authPending = false := by
      have hclear : (Server.clearAuth response
          (Server.completeWork origin σ.connection)).authPending = false := by
        simp [Server.clearAuth, hanswer.type]
      cases hsettles <;> exact hclear
    have hnone : (σ.take origin rest).items = 0 := by
      have hsingle := h.single hwaits
      rw [hitems, Multiset.card_cons] at hsingle
      exact Multiset.card_eq_zero.mp (by omega)
    exact .answered (hitems'.trans hnone) (by rw [hconnection]; exact hpending)

end Phased

/-- Every step of a session keeps its phase. -/
theorem Step.phased (hstep : Step σ σ') (h : Phased σ) : Phased σ' := by
  cases hstep with
  | touch bytes eof => exact h.shrink le_rfl rfl rfl rfl
  | @send count =>
      obtain ⟨-, hauth, hpending, -, hcell⟩ := advance_same σ.connection count
      exact h.shrink le_rfl hauth hpending hcell
  | decodeBusiness hauth _ hitems => exact h.decodeBusiness hauth hitems rfl ⟨rfl, rfl, rfl⟩
  | decodeAuth hfresh =>
      have hwork := h.work_eq_zero hfresh.1 hfresh.2.1
      refine ⟨fun item hitem => ?_, fun hauth => ?_, fun _ => ?_⟩
      · simp only [items, hwork, zero_add, Multiset.mem_singleton] at hitem
        subst hitem
        exact ⟨rfl, rfl⟩
      · rw [hfresh.1] at hauth
        cases hauth
      · simp [items, hwork]
  | enqueue hintake =>
      refine h.shrink (le_of_eq ?_) rfl rfl rfl
      rw [items, items, hintake, Multiset.cons_add, Multiset.add_cons]
  | refuse hintake _ hanswer =>
      refine h.replace (by rw [items, hintake, Multiset.add_cons])
        (by rw [items, Multiset.add_cons]) rfl ?_
      rcases hanswer with ⟨hitem, rfl⟩ | ⟨hitem, rfl⟩
      · exact .inl ⟨hitem, (makeOverloadResponse_answer _).2⟩
      · exact .inr ⟨hitem, rfl, rfl, rfl⟩
  | count => exact h.shrink le_rfl rfl rfl rfl
  | produce hwork _ _ hanswer =>
      exact h.replace (by rw [items, hwork, Multiset.cons_add])
        (by rw [items, Multiset.cons_add]) rfl hanswer
  | cancel hwork =>
      refine h.shrink ?_ rfl rfl rfl
      rw [items, items, hwork, Multiset.cons_add]
      exact Multiset.le_cons_self _ _
  | answer hsource _ hsettles => exact h.answer hsource hsettles rfl rfl

end Session

namespace Ledger

variable {l l' : Ledger} {key : ConnectionKey} {c : Connection} {cell : ℕ}

/-! ## The cells of connections that go -/

theorem close_sets {fd : Fd} (hcell : c.authCancellation = some cell) :
    (l.close fd c).cancelled cell = true := by
  simp only [close, hcell]
  exact Function.update_self ..

theorem close_keeps {fd : Fd} (h : l.cancelled cell = true) :
    (l.close fd c).cancelled cell = true := by
  unfold close
  cases c.authCancellation with
  | none => exact h
  | some own =>
      simp only [Function.update_apply]
      split
      · rfl
      · exact h

/-- No cell is taken back. -/
theorem Step.cancelled_mono (hstep : Step l l') (h : l.cancelled cell = true) :
    l'.cancelled cell = true := by
  cases hstep with
  | sendLast | close | drain | decodeClose | answerClose => exact close_keeps h
  | _ => exact h

theorem Live.set (h : l.Live key c) {fd : Fd} {old new : Connection}
    (hold : l.connections fd = some old) (hid : new.connId = old.connId) :
    ∃ c', (l.set fd new).Live key c' := by
  by_cases hfd : key.fd = fd
  · obtain rfl := Option.some.inj ((hfd ▸ h.1).symm.trans hold)
    exact ⟨new, by rw [hfd]; exact Function.update_self .., hid.trans h.2⟩
  · exact ⟨c, (Function.update_of_ne hfd ..).trans h.1, h.2⟩

/-- A close takes its own connection only. -/
theorem Live.closed (h : l.Live key c) {fd : Fd} {old : Connection}
    (hold : l.connections fd = some old) :
    Function.update l.connections fd none key.fd = some c ∨ fd = key.fd ∧ old = c := by
  by_cases hfd : key.fd = fd
  · exact .inr ⟨hfd.symm, Option.some.inj (hold.symm.trans (hfd ▸ h.1))⟩
  · exact .inl ((Function.update_of_ne hfd ..).trans h.1)

/-- A connection that waits for its AUTH survives a step, or its cell is set, or
the step answers an item of it. -/
theorem Step.cell_set (hstep : Step l l') (h : l.Live key c)
    (hcell : c.authCancellation = some cell) (hwaits : c.authPending = true) :
    (∃ c', l'.Live key c') ∨ l'.cancelled cell = true ∨
      ∃ origin response rest, l.source origin = .response response ::ₘ rest ∧
        response.key = key ∧ l'.work + l'.intake = (l.take origin rest).work +
          (l.take origin rest).intake := by
  cases hstep with
  | skip | enqueue | refuse | countGone | produce | cancel | stale | leave => exact .inl ⟨c, h⟩
  | accept hfree =>
      refine .inl ⟨c, (Function.update_of_ne (fun hfd => ?_) ..).trans h.1, h.2⟩
      cases (hfd ▸ h.1).symm.trans hfree
  | buffer hold | markEof hold | decodeBusiness hold | decodeAuth hold =>
      exact .inl (h.set hold rfl)
  | count _ hlive => exact .inl (h.set hlive.1 rfl)
  | send hold =>
      refine .inl (h.set hold ?_)
      unfold Connection.advance
      split <;> rfl
  | answer _ _ hlive hsettles => exact .inl (h.set hlive.1 (settles_identity hsettles).2.1)
  | sendLast hold | close hold | drain hold =>
      rcases h.closed hold with hstays | ⟨-, rfl⟩
      · exact .inl ⟨c, hstays, h.2⟩
      · exact .inr (.inl (close_sets hcell))
  | decodeClose hold _ _ hown =>
      rcases h.closed hold with hstays | ⟨-, rfl⟩
      · exact .inl ⟨c, hstays, h.2⟩
      · rcases hown with hown | ⟨hidle, -⟩
        · exact .inr (.inl (close_sets (hown.trans hcell)))
        · cases hidle.symm.trans hwaits
  | @answerClose origin response rest hsource _ hlive =>
      rcases h.closed hlive.1 with hstays | ⟨hfd, rfl⟩
      · exact .inl ⟨c, hstays, h.2⟩
      · refine .inr (.inr ⟨origin, response, rest, hsource, ?_, rfl⟩)
        show (⟨response.key.fd, response.key.connId⟩ : ConnectionKey) = key
        rw [hfd, ← hlive.2, h.2]

/-- The phase of every connection, and the cell of every task whose connection
is gone. -/
structure Guarded (l : Ledger) : Prop where
  phased : ∀ fd c, l.connections fd = some c → (l.session fd c).Phased
  gone : ∀ task, .task task ∈ l.work + l.intake → (∀ c, ¬ l.Live task.key c) →
    l.cancelled task.cancellation = true

theorem initial_guarded : Guarded initial where
  phased := by simp [initial]
  gone := by simp [initial]

/-- The session of a live connection has the items that carry its key. -/
theorem session_items (h : l.Live key c) :
    (l.session key.fd c).items = itemsOf (l.work + l.intake) key := by
  have hkey : key = ⟨key.fd, c.connId⟩ := by rw [h.2]
  rw [Session.items, itemsOf, Multiset.filter_add, hkey]
  rfl

/-- A task of a live connection has the cell of the connection. -/
theorem Guarded.task (h : Guarded l) {task : AuthTask} (hlive : l.Live task.key c)
    (htask : .task task ∈ l.work + l.intake) :
    c.authPending = true ∧ c.authCancellation = some task.cancellation := by
  refine (h.phased _ c hlive.1).fits (.task task) ?_
  rw [session_items hlive]
  exact Multiset.mem_filter.mpr ⟨htask, rfl⟩

theorem work_take {origin : ResponseOrigin} {item : Item} {rest : Multiset Item}
    (h : l.source origin = item ::ₘ rest) :
    l.work + l.intake = item ::ₘ ((l.take origin rest).work + (l.take origin rest).intake) := by
  cases origin with
  | worker => rw [show l.work = item ::ₘ rest from h, Multiset.cons_add]; rfl
  | reactor => rw [show l.intake = item ::ₘ rest from h, Multiset.add_cons]; rfl

/-- A connection has no task beside the response that is answered. -/
theorem Guarded.no_task (h : Guarded l) {task : AuthTask} (hlive : l.Live task.key c)
    {origin : ResponseOrigin} {response : Response} {rest : Multiset Item}
    (hsource : l.source origin = .response response ::ₘ rest) (hkey : response.key = task.key) :
    .task task ∉ (l.take origin rest).work + (l.take origin rest).intake := by
  intro htask
  have hitems := work_take hsource
  have hwaits := (h.task hlive (by rw [hitems]; exact Multiset.mem_cons_of_mem htask)).1
  have hsingle := (h.phased _ c hlive.1).single hwaits
  have hmem : Item.task task ∈ itemsOf ((l.take origin rest).work + (l.take origin rest).intake)
      task.key := Multiset.mem_filter.mpr ⟨htask, rfl⟩
  have hpos := Multiset.card_pos_iff_exists_mem.mpr ⟨_, hmem⟩
  have hown : (Item.response response).key = task.key := hkey
  rw [session_items hlive, hitems, ← hown, itemsOf_cons_self, Multiset.card_cons, hown] at hsingle
  omega

theorem Step.guarded (hstep : Step l l') (hsound : Sound l) (h : Guarded l) : Guarded l' where
  phased := hstep.sessions Session.opened_phased (fun _ _ hsession => hsession.phased)
    hsound.identified hsound.sourced hsound.cells h.phased
  gone task htask hgone := by
    have horigin : .task task ∈ l.work + l.intake := by
      rcases Multiset.mem_add.mp htask with hwork | hintake
      · rcases hstep.task_work hwork with hwork | ⟨hintake, -⟩
        · exact Multiset.mem_add.mpr (.inl hwork)
        · exact Multiset.mem_add.mpr (.inr hintake)
      · rcases hstep.task_intake hintake with hintake | ⟨-, fd, c, hc, hkey⟩
        · exact Multiset.mem_add.mpr (.inr hintake)
        · have hfd := (hstep.identified hsound.identified).fd fd c hc
          refine absurd ⟨?_, ?_⟩ (hgone c)
          · rw [hkey, Connection.key, hfd]
            exact hc
          · rw [hkey]
            rfl
    by_cases hlive : ∃ c, l.Live task.key c
    · obtain ⟨c, hlive⟩ := hlive
      obtain ⟨hwaits, hcell⟩ := h.task hlive horigin
      rcases hstep.cell_set hlive hcell hwaits with ⟨c', hstays⟩ | hset |
        ⟨origin, response, rest, hsource, hkey, hrest⟩
      · exact absurd hstays (hgone c')
      · exact hset
      · exact absurd (hrest ▸ htask) (h.no_task hlive hsource hkey)
    · exact hstep.cancelled_mono (h.gone task horigin (not_exists.mp hlive))

theorem Discard.guarded (hdiscard : Discard l l') (h : Guarded l) : Guarded l' := by
  obtain ⟨hwork, -⟩ := hdiscard
  refine ⟨fun fd c hc => (h.phased fd c hc).shrink ?_ rfl rfl rfl, fun task htask => ?_⟩
  · exact add_le_add (Multiset.filter_le_filter _ hwork) le_rfl
  · exact h.gone task (Multiset.mem_of_le (add_le_add hwork le_rfl) htask)

end Ledger

namespace Server

variable {library : Json.Library} {args : StartArgs} {s t : Server} {action : Action} {i : ℕ}
  {task : AuthTask}

theorem ledger_guarded (h : Transition.Reachable (gateway library args) s) : s.ledger.Guarded :=
  ledger_invariant Ledger.initial_guarded (fun _ _ hstep hsound hs => hstep.guarded hsound hs)
    (fun _ _ _ hdiscard hs => hdiscard.guarded hs) h

theorem popped_mem_work (hworker : s.authWorkers[i]? = some (.popped task)) :
    .task task ∈ s.ledger.work + s.ledger.intake := by
  have hheld : .task task ∈ (s.authWorkers.filterMap AuthWorker.item? : Multiset Item) :=
    List.mem_filterMap.mpr ⟨_, List.mem_of_getElem? hworker, rfl⟩
  refine Multiset.mem_add.mpr (.inl ?_)
  simp only [ledger, work, Multiset.mem_add]
  exact .inl (.inl (.inr hheld))

/-- The cell of a dequeued task is set exactly if the connection is gone. -/
theorem cancelled_iff (h : Transition.Reachable (gateway library args) s)
    (hworker : s.authWorkers[i]? = some (.popped task)) :
    s.cancelled task.cancellation = true ↔ s.live? task.key = none := by
  have hitem := popped_mem_work hworker
  constructor
  · intro hset
    by_contra hlive
    obtain ⟨c, hc⟩ := Option.ne_none_iff_exists'.mp hlive
    have hlive := live?_eq_some.mp hc
    have hcell := ((ledger_guarded h).task hlive hitem).2
    have hclear := ((ledger_sound h).cells.held _ c _ hlive.1 hcell).1
    cases hclear.symm.trans hset
  · intro hnone
    refine (ledger_guarded h).gone task hitem fun c hlive => ?_
    cases hnone.symm.trans (live?_eq_some.mpr hlive)

/-- The connection of a dequeued task was accepted. -/
theorem popped_accepted (h : Transition.Reachable (gateway library args) s)
    (hworker : s.authWorkers[i]? = some (.popped task)) : .accepted task.key ∈ s.log := by
  have hsound := ledger_sound h
  obtain ⟨request, hdecoded, -⟩ : ∃ request, .decoded task.key request ∈ s.ledger.history ∧ _ := by
    rcases Multiset.mem_add.mp (popped_mem_work hworker) with hitem | hitem
    · exact hsound.sourced.item .worker hitem
    · exact hsound.sourced.item .reactor hitem
  exact (List.mem_filter.mp (hsound.identified.subject _ hdecoded _ rfl)).1

/-- The turn of an AUTH worker that has dequeued a task or comes to
`handleAuth`. -/
theorem authWorkerStep_tested {old : AuthWorker} {own : AuthAction}
    (h : authWorkerStep library s i old own = some t) :
    ∃ worker, t.authWorkers = s.authWorkers.set i worker ∧
      (∀ task, old = .popped task →
        worker = if s.cancelled task.cancellation then .waiting else .checking task) ∧
      ∀ task, worker = .checking task → old = .popped task ∧ own = .testCancellation := by
  cases authWorkerStep_move h with
  | drop task hset =>
      refine ⟨_, rfl, ?_, by simp⟩
      rintro own ⟨⟩
      rw [if_pos hset]
  | check task hclear =>
      refine ⟨_, rfl, ?_, ?_⟩
      · rintro own ⟨⟩
        rw [hclear, if_neg Bool.false_ne_true]
      · rintro own ⟨⟩
        exact ⟨rfl, rfl⟩
  | leave =>
      refine ⟨_, rfl, by simp, fun task hworker => ?_⟩
      split at hworker <;> cases hworker
  | offer task reply =>
      obtain ⟨-, hworkers⟩ := enqueueWorkerResponse_workers s task.request
        (authHandling library task.request reply).response .authWorker
      refine ⟨_, congrArg (List.set · i _) hworkers, by simp, fun task hworker => ?_⟩
      split at hworker <;> cases hworker
  | pop | handleAuth | reject | stopResponses => exact ⟨_, rfl, by simp, by simp⟩

/-- A step leaves an AUTH worker alone or is its turn. -/
theorem step_tested (h : step library s action = some t) (i : ℕ) :
    t.authWorkers[i]? = s.authWorkers[i]? ∨
      ∃ old worker own, action = .authWorker i own ∧ s.authWorkers[i]? = some old ∧
        t.authWorkers[i]? = some worker ∧
        (∀ task, old = .popped task →
          worker = if s.cancelled task.cancellation then .waiting else .checking task) ∧
        ∀ task, worker = .checking task → old = .popped task ∧ own = .testCancellation := by
  rcases step_authTurn h with ⟨j, old, -, own, rfl, hold, -⟩ | ⟨-, hworkers, -⟩
  · obtain ⟨old', hold', hturn⟩ := Option.bind_eq_some_iff.mp h
    obtain rfl := Option.some.inj (hold.symm.trans hold')
    obtain ⟨worker, hworkers, htested, hchecking⟩ := authWorkerStep_tested hturn
    by_cases hij : j = i
    · subst hij
      refine .inr ⟨old, worker, own, rfl, hold, ?_, htested, hchecking⟩
      rw [hworkers, List.getElem?_set_self (List.getElem?_eq_some_iff.mp hold).1]
    · refine .inl ?_
      rw [hworkers, List.getElem?_set_ne hij]
  · exact .inl (by rw [hworkers])

/-- An AUTH worker drops a task it has dequeued only if the connection has been
closed, and goes on to `handleAuth` only if the connection is there when it
tests the cell. There is no other way to `handleAuth`. -/
theorem auth_cancellation_exact (h : Transition.Reachable (gateway library args) s)
    (hstep : step library s action = some t) (i : ℕ) (task : AuthTask) :
    (s.authWorkers[i]? = some (.popped task) →
      t.authWorkers[i]? = some (.popped task) ∨
      t.authWorkers[i]? = some .waiting ∧ .accepted task.key ∈ s.log ∧ s.live? task.key = none ∨
      t.authWorkers[i]? = some (.checking task) ∧ (s.live? task.key).isSome) ∧
    (t.authWorkers[i]? = some (.checking task) →
      s.authWorkers[i]? = some (.checking task) ∨
      s.authWorkers[i]? = some (.popped task) ∧ action = .authWorker i .testCancellation ∧
        (s.live? task.key).isSome) := by
  rcases step_tested hstep i with hsame | ⟨old, worker, own, rfl, hold, hnew, htested, hchecking⟩
  · exact ⟨fun hworker => .inl (hsame.trans hworker),
      fun hworker => .inl (hsame.symm.trans hworker)⟩
  · refine ⟨fun hworker => ?_, fun hworker => ?_⟩
    · have hworker' := htested task (Option.some.inj (hold.symm.trans hworker))
      rw [hnew]
      split at hworker'
      · next hset =>
          exact .inr (.inl ⟨by rw [hworker'], popped_accepted h hworker,
            (cancelled_iff h hworker).mp hset⟩)
      · next hclear =>
          refine .inr (.inr ⟨by rw [hworker'], Option.isSome_iff_ne_none.mpr fun hnone => ?_⟩)
          exact hclear ((cancelled_iff h hworker).mpr hnone)
    · obtain ⟨rfl, rfl⟩ := hchecking task (Option.some.inj (hnew.symm.trans hworker))
      refine .inr ⟨hold, rfl, Option.isSome_iff_ne_none.mpr fun hnone => ?_⟩
      have hworker' := htested task rfl
      rw [(cancelled_iff h hold).mpr hnone, if_pos rfl] at hworker'
      cases (hworker'.symm.trans (Option.some.inj (hnew.symm.trans hworker)))

end Server

namespace Sample

/-- The AUTH worker has dequeued the task of a client, and the connection is
closed before it tests the cell. -/
def dequeued : Server :=
  (Server.after library {} 0 [.reactor (.accept 5 true),
    .reactor (.read 5 (.data login) []), .reactor (.enqueueNext true),
    .reactor (.enqueueNext true), .reactor (.enqueueNext true), .authWorker 0 .pop,
    .reactor (.socketError 5)]).get (by decide +kernel)

theorem dequeued_reachable :
    Transition.ReachableBy (gateway library {}) BeforeDeadline dequeued :=
  Server.after_reachable (by simp [BeforeDeadline]) (Option.some_get _).symm

def dequeuedTask : AuthTask := ⟨⟨5, 1, 1, .auth, 7, credentials⟩, 0⟩

/-- The worker has tested the cell. -/
def tested : Server :=
  (Server.step library dequeued (.authWorker 0 .testCancellation)).get (by decide +kernel)

end Sample

theorem Server.auth_cancellation_exact_dequeued :
    Sample.dequeued.authWorkers[0]? = some (.popped Sample.dequeuedTask) ∧
      (Sample.tested.authWorkers[0]? = some (.popped Sample.dequeuedTask) ∨
        Sample.tested.authWorkers[0]? = some .waiting ∧
          .accepted Sample.dequeuedTask.key ∈ Sample.dequeued.log ∧
          Sample.dequeued.live? Sample.dequeuedTask.key = none ∨
        Sample.tested.authWorkers[0]? = some (.checking Sample.dequeuedTask) ∧
          (Sample.dequeued.live? Sample.dequeuedTask.key).isSome) :=
  have hworker : Sample.dequeued.authWorkers[0]? = some (.popped Sample.dequeuedTask) := by
    decide +kernel
  ⟨hworker, (Server.auth_cancellation_exact Sample.dequeued_reachable.reachable
    (Option.some_get _).symm 0 Sample.dequeuedTask).1 hworker⟩

end GatewaySystem
