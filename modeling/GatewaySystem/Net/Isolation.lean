import GatewaySystem.Net.Accounting
import GatewaySystem.Net.Effects
import GatewaySystem.Net.Producers

/-!
# Generations of a descriptor do not mix

A response or the key of a refused response can reach the reactor after its
connection is gone and the descriptor is in use again. A step consumes such
items in three places: from `response_queue_`, from the answers the reactor made
itself, and from the list of refused connections. What a step does to a
connection on account of an item, it does to the connection the item carries
the key of, and that item was made from a frame of this connection. A step that
consumes nothing appends nothing, authenticates nothing, ends no waiting for
AUTH and completes no work.
-/

namespace GatewaySystem

/-! ## The numbers of the connections -/

def Event.accepted? : Event → Option ConnectionKey
  | .accepted key => some key
  | _ => none

namespace Ledger

/-- A step accepts no connection, or one with the next number. -/
theorem Step.accepted {l l' : Ledger} (hstep : Step l l') :
    l'.history.filterMap Event.accepted? = l.history.filterMap Event.accepted? ∨
      ∃ fd, l'.history.filterMap Event.accepted? =
        ⟨fd, l.nextConnId⟩ :: l.history.filterMap Event.accepted? := by
  have hdecoded : ∀ (key : ConnectionKey) (requests : List Request) (history : List Event),
      ((requests.map (Event.decoded key)).reverse ++ history).filterMap Event.accepted? =
        history.filterMap Event.accepted? := by
    intro key requests history
    rw [← List.map_reverse, List.filterMap_append, List.filterMap_map]
    simp [Function.comp_def, Event.accepted?]
  cases hstep with
  | accept => exact .inr ⟨_, rfl⟩
  | decodeClose | decodeBusiness => exact .inl (hdecoded _ _ _)
  | answer _ _ _ hsettles | answerClose _ _ hsettles => cases hsettles <;> exact .inl rfl
  | _ => exact .inl rfl

/-- No two connections were accepted with the same number. -/
def AcceptedOnce (l : Ledger) : Prop :=
  (l.history.filterMap Event.accepted?).Pairwise fun key key' => key.connId ≠ key'.connId

theorem Step.acceptedOnce {l l' : Ledger} (hstep : Step l l') (hid : Identified l)
    (h : AcceptedOnce l) : AcceptedOnce l' := by
  unfold AcceptedOnce
  rcases hstep.accepted with hsame | ⟨fd, hnew⟩
  · rw [hsame]
    exact h
  · rw [hnew]
    refine List.pairwise_cons.mpr ⟨fun key hkey => ?_, h⟩
    obtain ⟨event, hevent, haccepted⟩ := List.mem_filterMap.mp hkey
    cases event with
    | accepted own =>
        cases haccepted
        exact Nat.ne_of_gt (hid.fresh _ hevent)
    | _ => cases haccepted

end Ledger

/-! ## What happens to a connection without an answer -/

/-- The second state of a connection shows no effect of an answer. -/
structure Connection.Spared (c c' : Connection) : Prop where
  output : c'.unsent.length ≤ c.unsent.length
  authenticated : c'.authenticated = c.authenticated
  pending : c.authPending = true → c'.authPending = true
  work : c.inFlightWork ≤ c'.inFlightWork

namespace Connection.Spared

theorem refl (c : Connection) : Spared c c := ⟨Nat.le_refl _, rfl, id, Nat.le_refl _⟩

theorem trans {c c' c'' : Connection} (h : Spared c c') (h' : Spared c' c'') : Spared c c'' where
  output := h'.output.trans h.output
  authenticated := h'.authenticated.trans h.authenticated
  pending hpending := h'.pending (h.pending hpending)
  work := h.work.trans h'.work

end Connection.Spared

/-- A step of a session spares the connection or appends a response. -/
theorem Session.Step.spared {σ σ' : Session} (hstep : Step σ σ') :
    σ.connection.Spared σ'.connection ∨
      σ'.transcript.appended.length = σ.transcript.appended.length + 1 := by
  cases hstep with
  | touch => exact .inl ⟨Nat.le_refl _, rfl, id, Nat.le_refl _⟩
  | send hcount =>
      obtain ⟨hwork, hauth, hpending, -, -⟩ := advance_same σ.connection _
      refine .inl ⟨?_, hauth, fun h => hpending.trans h, hwork.ge⟩
      rw [advance_unsent, List.length_drop]
      exact Nat.sub_le _ _
  | decodeBusiness => exact .inl ⟨Nat.le_refl _, rfl, id, Nat.le_refl _⟩
  | decodeAuth => exact .inl ⟨Nat.le_refl _, rfl, fun _ => rfl, Nat.le_refl _⟩
  | enqueue | refuse | produce | cancel => exact .inl (.refl _)
  | count => exact .inl ⟨Nat.le_refl _, rfl, id, Nat.le_succ _⟩
  | answer => exact .inr (List.length_cons)

namespace Ledger

/-- How many responses were appended for a connection. -/
def answers (l : Ledger) (key : ConnectionKey) : ℕ :=
  (transcriptOf l.history key).appended.length

theorem Step.answers_le {l l' : Ledger} (hstep : Step l l') (key : ConnectionKey) :
    l.answers key ≤ l'.answers key := by
  obtain ⟨events, hhistory⟩ := hstep.history_suffix
  simp only [answers, transcriptOf, ← hhistory, List.filterMap_append, List.length_append]
  exact Nat.le_add_left _ _

/-- As long as nothing is appended for it, a connection is spared. -/
structure Sparing (c : Connection) (key : ConnectionKey) (count : ℕ) (l : Ledger) : Prop where
  sound : l.Sound
  old : key.connId < l.nextConnId
  count_le : count ≤ l.answers key
  spared : l.answers key = count → ∀ c', l.Live key c' → c.Spared c'

theorem Sparing.step {c : Connection} {key : ConnectionKey} {count : ℕ} {l l' : Ledger}
    (hstep : Step l l') (h : Sparing c key count l) : Sparing c key count l' where
  sound := hstep.sound h.sound
  old := h.old.trans_le hstep.next_le.1
  count_le := h.count_le.trans (hstep.answers_le key)
  spared hcount c' hlive := by
    have hsame : l.answers key = count :=
      Nat.le_antisymm (hcount ▸ hstep.answers_le key) h.count_le
    obtain ⟨hc', hconnId⟩ := hlive
    rcases hstep.session h.sound.identified h.sound.sourced h.sound.cells hc' with
      ⟨old, hold, hid, hsees⟩ | ⟨-, hopen⟩
    · have hspared := h.spared hsame old ⟨hold, hid.symm.trans hconnId⟩
      have hkey : (⟨key.fd, c'.connId⟩ : ConnectionKey) = key := by rw [hconnId]
      have hcounts : (l'.session key.fd c').transcript.appended.length =
          (l.session key.fd old).transcript.appended.length := by
        simp only [session, ← hid, hkey]
        exact hcount.trans hsame.symm
      have hgen : ∀ σ σ', Relation.ReflGen Session.Step σ σ' →
          σ'.transcript.appended.length = σ.transcript.appended.length →
            σ.connection.Spared σ'.connection := by
        intro σ σ' hsees hcounts
        cases hsees with
        | refl => exact .refl _
        | single hsession =>
            refine hsession.spared.resolve_right fun hmore => ?_
            rw [hcounts] at hmore
            exact (Nat.succ_ne_self _) hmore.symm
      exact hspared.trans (hgen _ _ hsees hcounts)
    · -- a connection that was just accepted has a number of its own
      have hnew : c'.connId = l.nextConnId := congrArg (fun σ => σ.connection.connId) hopen
      exact absurd (hconnId.symm.trans hnew) (Nat.ne_of_lt h.old)

/-- Along steps that append nothing for it, a connection is spared. -/
theorem spared_along {l l' : Ledger} (hsteps : Relation.ReflTransGen Step l l') (hsound : l.Sound)
    {key : ConnectionKey} {c c' : Connection} (hlive : l.Live key c) (hlive' : l'.Live key c')
    (hsame : l'.answers key = l.answers key) : c.Spared c' := by
  have hold : key.connId < l.nextConnId := by
    rw [← hlive.2]
    exact hsound.identified.connId_lt hlive.1
  have hstart : Sparing c key (l.answers key) l := by
    refine ⟨hsound, hold, Nat.le_refl _, fun _ c'' hc'' => ?_⟩
    obtain rfl := Option.some.inj (hlive.1.symm.trans hc''.1)
    exact .refl c
  exact (Transition.kept_along (fun _ _ hstep h => Sparing.step hstep h) hsteps hstart).spared
    hsame c' hlive'

end Ledger

namespace Server

variable {library : Json.Library} {args : StartArgs} {s t : Server} {action : Action} {fd : Fd}

/-- Without the permission to answer nothing is appended. -/
theorem Affects.appended {queues : Prop} (h : Affects queues False s t) (key : ConnectionKey) :
    (transcriptOf t.log key).appended = (transcriptOf s.log key).appended := by
  induction h with
  | refl => rfl
  | tail _ hstep ih =>
      obtain ⟨-, events, hlog, hevents⟩ := hstep.events
      have hnone : events.filterMap (Event.appendedBy key) = [] := by
        refine List.filterMap_eq_nil_iff.mpr fun event hevent => ?_
        have hpermitted := hevents event hevent
        cases event with
        | appended => exact hpermitted.1.elim
        | _ => rfl
      rw [← ih, hlog]
      simp [transcriptOf, List.filterMap_append, hnone]

/-! ## What a consumed item can change -/

theorem closeConnection_lookup (s : Server) {fd fd' : Fd} (hne : fd' ≠ fd) :
    (s.closeConnection fd).connections.lookup fd' = s.connections.lookup fd' := by
  cases hc : s.connections.lookup fd with
  | none => rw [closeConnection_none hc]
  | some c =>
      have hconnections := congrArg Ledger.connections (ledger_closeConnection hc)
      exact (congrFun hconnections fd').trans (Function.update_of_ne hne _ _)

theorem closeConnection_lookup_self (s : Server) (fd : Fd) :
    (s.closeConnection fd).connections.lookup fd = none := by
  cases hc : s.connections.lookup fd with
  | none => rw [closeConnection_none hc, hc]
  | some c =>
      have hconnections := congrArg Ledger.connections (ledger_closeConnection hc)
      exact (congrFun hconnections fd).trans (Function.update_self ..)

theorem modifyConnectionEvents_lookup (s : Server) {fd fd' : Fd} (hne : fd' ≠ fd)
    (events : Interest) (ctl : Bool) :
    (s.modifyConnectionEvents fd events ctl).connections.lookup fd' =
      s.connections.lookup fd' := by
  cases ctl with
  | true => rfl
  | false => exact closeConnection_lookup s hne

theorem deliver_lookup (s : Server) {fd fd' : Fd} (hne : fd' ≠ fd) (c : Connection)
    (response : Response) (ctl : Bool) :
    (s.deliver fd c response ctl).connections.lookup fd' = s.connections.lookup fd' := by
  unfold deliver
  split
  · exact (closeConnection_lookup _ hne).trans (AList.lookup_insert_ne hne)
  · split
    · exact (closeConnection_lookup _ hne).trans (AList.lookup_insert_ne hne)
    · exact (modifyConnectionEvents_lookup _ hne _ _).trans (AList.lookup_insert_ne hne)

theorem authenticate_connections (s : Server) (c : Connection) (response : Response) :
    (s.authenticate c response).1.connections = s.connections := by
  unfold authenticate
  split
  · split <;> rfl
  · split <;> rfl

/-- A response changes at most the live connection it carries the key of. -/
theorem applyResponse_lookup {response : Response} {origin : ResponseOrigin} {ctl : Bool}
    (h : (s.applyResponse response origin ctl).connections.lookup fd ≠ s.connections.lookup fd) :
    ∃ c, s.connections.lookup fd = some c ∧ response.key = ⟨fd, c.connId⟩ := by
  unfold applyResponse at h
  split at h
  · exact absurd rfl h
  · next c hc =>
      split at h
      · exact absurd rfl h
      · next hconnId =>
          by_cases heq : fd = response.fd
          · subst heq
            exact ⟨c, hc, by rw [not_not.mp hconnId]; rfl⟩
          · refine absurd ?_ h
            rw [deliver_lookup _ heq, authenticate_connections]

/-- A refused key closes at most the live connection it names. -/
theorem closeRejected_lookup {key : ConnectionKey}
    (h : (s.closeRejected key).connections.lookup fd ≠ s.connections.lookup fd) :
    ∃ c, s.connections.lookup fd = some c ∧ key = ⟨fd, c.connId⟩ := by
  unfold closeRejected at h
  split at h
  · next hlive =>
      obtain ⟨c, hc⟩ := Option.isSome_iff_exists.mp hlive
      obtain ⟨hc, hconnId⟩ := live?_eq_some.mp hc
      by_cases heq : fd = key.fd
      · subst heq
        exact ⟨c, hc, by rw [hconnId]⟩
      · exact absurd (closeConnection_lookup s heq) h
  · exact absurd rfl h

theorem closeRejected_foldl_lookup {keys : List ConnectionKey}
    (h : (keys.foldl closeRejected s).connections.lookup fd ≠ s.connections.lookup fd) :
    ∃ c, s.connections.lookup fd = some c ∧ ⟨fd, c.connId⟩ ∈ keys := by
  induction keys generalizing s with
  | nil => exact absurd rfl h
  | cons key keys ih =>
      by_cases hsame : (s.closeRejected key).connections.lookup fd = s.connections.lookup fd
      · rw [List.foldl_cons, ← hsame] at h
        obtain ⟨c, hc, hmem⟩ := ih h
        exact ⟨c, hsame ▸ hc, List.mem_cons_of_mem key hmem⟩
      · obtain ⟨c, hc, rfl⟩ := closeRejected_lookup hsame
        exact ⟨c, hc, List.mem_cons_self⟩

/-! ## The refused responses -/

/-- Every key on its way to the list, or on it, is that of a refused response. -/
theorem refused_of_mem (h : Transition.Reachable (gateway library args) s) :
    ∀ key ∈ s.shared.refusedKeys, Refused s.log key := by
  refine h.invariant (I := fun s => ∀ key ∈ s.shared.refusedKeys, Refused s.log key)
    (fun s hinit => ?_) fun s action t _ hs _ hstep key hkey => ?_
  · obtain ⟨now, hstart⟩ := hinit
    rw [start_eq_some hstart]
    simp [Shared.refusedKeys, shared, producers, started, NormalWorker.producer,
      AuthWorker.producer, Producer.refused?]
  · have hkept : key ∈ s.shared.refusedKeys → s.log ⊆ t.log → Refused t.log key := by
      intro hkey hlog
      obtain ⟨request, response, result, hmem, hrest⟩ := hs key hkey
      exact ⟨request, response, result, hlog hmem, hrest⟩
    rcases step_cases hstep with ⟨own, rfl, hstep⟩ | ⟨hturn, -, -⟩
    · have hframe := reactorStep_frame hstep
      have hold : key ∈ s.shared.refusedKeys := by
        simp only [Shared.refusedKeys, shared, producers, hframe.workers, hframe.authWorkers,
          List.mem_append] at hkey ⊢
        rcases hframe.rejected with hsame | ⟨-, hnone⟩
        · rwa [hsame] at hkey
        · rw [hnone] at hkey
          exact .inr (hkey.resolve_left List.not_mem_nil)
      obtain ⟨request, response, result, hmem, hrest⟩ := hs key hold
      exact ⟨request, response, result, (hframe.offered ..).mpr hmem, hrest⟩
    · rcases hturn.listed.origin key hkey with hkey | hrefused
      · exact hkept hkey hturn.listed.log
      · exact hrefused

/-! ## The items a step consumes -/

/-- What the reactor takes from a queue or a list and acts upon. -/
inductive Consumed where
  | response (response : Response)
  | key (key : ConnectionKey)

def Consumed.connection : Consumed → ConnectionKey
  | .response own => own.key
  | .key own => own

/-- The items a step consumes. -/
def consumed (s : Server) : Action → List Consumed
  | .reactor .drainRejected => s.rejectedResponseConnections.map .key
  | .reactor action => ((s.answered? action).map .response).toList
  | _ => []

/-- The item was made from the request: by a worker, by the reactor itself, or
because the response of a worker was refused. -/
def MadeFrom (log : List Event) (request : Request) : Consumed → Prop
  | .response response =>
      (∃ result, .offered request response result ∈ log) ∨ response ∈ localAnswers request
  | .key _ => ∃ response result, .offered request response result ∈ log ∧ result ≠ .ok

/-- A response is applied from the queue or from the answers of the reactor. -/
theorem answered?_eq_some {action : ReactorAction} {response : Response}
    (h : s.answered? action = some response) :
    (∃ ctl queue, action = .drainResponse ctl ∧
        s.responseQueue.tryPop = some (response, queue)) ∨
      ∃ ctl fd responses eof, action = .enqueueNext ctl ∧
        s.point = .enqueue ⟨fd, [], [], response :: responses, none, eof⟩ := by
  unfold answered? at h
  split at h
  · obtain ⟨popped, hpop, rfl⟩ := Option.map_eq_some_iff.mp h
    exact .inl ⟨_, popped.2, rfl, hpop⟩
  · split at h
    · next hpoint =>
        cases h
        exact .inr ⟨_, _, _, _, rfl, hpoint⟩
    · cases h
  · cases h

/-- The items of a step are refused keys or a response that is applied. -/
theorem consumed_cases {item : Consumed} (h : item ∈ s.consumed action) :
    (∃ key ∈ s.rejectedResponseConnections, action = .reactor .drainRejected ∧ item = .key key) ∨
      ∃ own response, action = .reactor own ∧ s.answered? own = some response ∧
        item = .response response := by
  unfold consumed at h
  split at h
  · obtain ⟨key, hkey, rfl⟩ := List.mem_map.mp h
    exact .inl ⟨key, hkey, rfl, rfl⟩
  · obtain ⟨response, hanswered, rfl⟩ := Option.map_eq_some_iff.mp (Option.mem_toList.mp h)
    exact .inr ⟨_, response, rfl, hanswered, rfl⟩
  · cases h

/-- Every consumed item was made from a frame of the connection whose key it
carries. -/
theorem consumed_madeFrom (h : Transition.Reachable (gateway library args) s) {item : Consumed}
    (hitem : item ∈ s.consumed action) :
    ∃ request, .decoded item.connection request ∈ s.log ∧ MadeFrom s.log request item := by
  have hsourced := (ledger_sound h).sourced
  have hoffered : ∀ request response result, .offered request response result ∈ s.log →
      response.key = request.key ∧ .decoded request.key request ∈ s.log := by
    intro request response result hmem
    obtain ⟨htag, hdecoded⟩ := hsourced.offered request response result
      (List.mem_filter.mpr ⟨hmem, rfl⟩)
    exact ⟨congrArg Tag.key htag, (List.mem_filter.mp hdecoded).1⟩
  rcases consumed_cases hitem with ⟨key, hkey, rfl, rfl⟩ | ⟨own, response, rfl, hanswered, rfl⟩
  · have hkeys : key ∈ s.shared.refusedKeys := List.mem_append_left _ hkey
    obtain ⟨request, response, result, hmem, hresult, rfl⟩ := refused_of_mem h key hkeys
    exact ⟨request, (hoffered _ _ _ hmem).2, response, result, hmem, hresult⟩
  · rcases answered?_eq_some hanswered with
      ⟨ctl, queue, rfl, hpop⟩ | ⟨ctl, fd, responses, eof, rfl, hpoint⟩
    · have hwork : Item.response response ∈ s.ledger.work := by
        have hqueue := (BlockQueue.tryPop_eq_some hpop).1
        simp [ledger, work, hqueue]
      obtain ⟨request, result, hmem⟩ := hsourced.work _ hwork
      have hmem := (List.mem_filter.mp hmem).1
      obtain ⟨hkey, hdecoded⟩ := hoffered _ _ _ hmem
      rw [← hkey] at hdecoded
      exact ⟨request, hdecoded, .inl ⟨result, hmem⟩⟩
    · have hintake : Item.response response ∈ s.ledger.intake := by
        simp [ledger, intake, hpoint, Enqueue.items]
      obtain ⟨request, hdecoded, hlocal⟩ := hsourced.intake _ hintake
      have hkey : response.key = request.key := congrArg Tag.key (tag_of_mem_localAnswers hlocal)
      rw [← hkey] at hdecoded
      exact ⟨request, (List.mem_filter.mp hdecoded).1, .inr hlocal⟩

/-- A step that consumes items changes only live connections they carry the key
of. -/
theorem consumed_changes (hstep : step library s action = some t)
    (hconsumes : s.consumed action ≠ [])
    (hchanged : t.connections.lookup fd ≠ s.connections.lookup fd) :
    ∃ c, s.connections.lookup fd = some c ∧
      ∃ item ∈ s.consumed action, item.connection = ⟨fd, c.connId⟩ := by
  obtain ⟨item, hitem⟩ := List.exists_mem_of_ne_nil _ hconsumes
  rcases consumed_cases hitem with ⟨key, -, rfl, rfl⟩ | ⟨own, response, rfl, hanswered, rfl⟩
  · obtain ⟨-, ⟨⟩⟩ := Option.ite_none_right_eq_some.mp hstep
    obtain ⟨c, hc, hmem⟩ := closeRejected_foldl_lookup
      (s := { s with rejectedResponseConnections := [] }) hchanged
    exact ⟨c, hc, .key ⟨fd, c.connId⟩, List.mem_map.mpr ⟨_, hmem, rfl⟩, rfl⟩
  · rcases answered?_eq_some hanswered with
      ⟨ctl, queue, rfl, hpop⟩ | ⟨ctl, fd', responses, eof, rfl, hpoint⟩
    · obtain ⟨-, hstep⟩ := Option.ite_none_right_eq_some.mp hstep
      rw [hpop] at hstep
      cases hstep
      obtain ⟨c, hc, hkey⟩ := applyResponse_lookup hchanged
      exact ⟨c, hc, .response response, hitem, hkey⟩
    · simp only [step, reactorStep, hpoint] at hstep
      cases hstep
      obtain ⟨c, hc, hkey⟩ := applyResponse_lookup hchanged
      exact ⟨c, hc, .response response, hitem, hkey⟩

/-- A step that applies no response appends nothing. -/
theorem step_appended (hstep : step library s action = some t)
    (hnone : ∀ own, action = .reactor own → s.answered? own = none) (key : ConnectionKey) :
    (transcriptOf t.log key).appended = (transcriptOf s.log key).appended := by
  cases step_move hstep with
  | reactor h =>
      have haffects := reactorStep_affects h
      rw [hnone _ rfl, Option.isSome_none, Bool.false_eq_true] at haffects
      exact haffects.appended key
  | worker _ h => exact Affects.appended (workerStep_affects h) key
  | authWorker _ h => exact Affects.appended (authWorkerStep_affects h) key
  | pullConfig | tick => rfl

/-- A step that shows an effect of an answer on a connection consumes an item
with the key of the connection. -/
theorem consumed_of_affected (h : Transition.Reachable (gateway library args) s)
    (hstep : step library s action = some t) {c c' : Connection}
    (hc : s.connections.lookup fd = some c) (hc' : t.connections.lookup fd = some c')
    (hid : c'.connId = c.connId) (haffected : ¬ c.Spared c') :
    ∃ item ∈ s.consumed action, item.connection = ⟨fd, c.connId⟩ := by
  have hne : t.connections.lookup fd ≠ s.connections.lookup fd := by
    rw [hc, hc']
    intro heq
    obtain rfl := Option.some.inj heq
    exact haffected (.refl _)
  have hconsumes : s.consumed action ≠ [] := by
    intro hnone
    by_cases hdeadline : action = .reactor .deadline
    · subst hdeadline
      obtain ⟨-, ⟨⟩⟩ := Option.ite_none_right_eq_some.mp hstep
      exact hne rfl
    · have hanswered : ∀ own, action = .reactor own → s.answered? own = none := by
        rintro own rfl
        cases own with
        | drainResponse | enqueueNext =>
            refine Option.eq_none_iff_forall_ne_some.mpr fun response hsome => ?_
            simp [consumed, hsome] at hnone
        | _ => rfl
      have hlive : s.ledger.Live ⟨fd, c.connId⟩ c := ⟨hc, rfl⟩
      refine haffected (Ledger.spared_along (step_refines hdeadline hstep) (ledger_sound h)
        hlive ⟨hc', hid⟩ ?_)
      have happended := step_appended hstep hanswered ⟨fd, c.connId⟩
      rw [← transcriptOf_visible, ← transcriptOf_visible s.log] at happended
      exact congrArg List.length happended
  obtain ⟨own, hown, item, hitem, hkey⟩ := consumed_changes hstep hconsumes hne
  obtain rfl := Option.some.inj (hc.symm.trans hown)
  exact ⟨item, hitem, hkey⟩

theorem acceptedOnce (h : Transition.Reachable (gateway library args) s) :
    s.ledger.AcceptedOnce := by
  refine ledger_invariant List.Pairwise.nil
    (fun l l' hstep hsound h => hstep.acceptedOnce hsound.identified h)
    (fun _ l l' hdiscard h => ?_) h
  cases hdiscard
  exact h

/-- An answer's effect on a connection comes from an item with the key of that
connection; a step that consumes items touches no other connection; every item
was made from a frame of the connection whose key it carries; and the numbers
in the keys are never used twice. -/
theorem generation_isolation (h : Transition.Reachable (gateway library args) s) :
    (∀ action t, step library s action = some t → ∀ fd c c',
      s.connections.lookup fd = some c → t.connections.lookup fd = some c' →
        c'.connId = c.connId → ¬ c.Spared c' →
          ∃ item ∈ s.consumed action, item.connection = ⟨fd, c.connId⟩) ∧
      (∀ action t, step library s action = some t → s.consumed action ≠ [] → ∀ fd,
        t.connections.lookup fd ≠ s.connections.lookup fd →
          ∃ c, s.connections.lookup fd = some c ∧
            ∃ item ∈ s.consumed action, item.connection = ⟨fd, c.connId⟩) ∧
      (∀ action, ∀ item ∈ s.consumed action, ∃ request,
        .decoded item.connection request ∈ s.log ∧ MadeFrom s.log request item) ∧
      (s.log.filterMap Event.accepted?).Pairwise fun key key' => key.connId ≠ key'.connId := by
  refine ⟨?_, ?_, ?_, ?_⟩
  · intro action t hstep fd c c' hc hc' hid haffected
    exact consumed_of_affected h hstep hc hc' hid haffected
  · intro action t hstep hconsumes fd hchanged
    exact consumed_changes hstep hconsumes hchanged
  · intro action item hitem
    exact consumed_madeFrom h hitem
  · have hvisible : ∀ event : Event, event.isHidden = true → event.accepted? = none := by
      intro event hevent
      cases event <;> first | rfl | cases hevent
    rw [← filterMap_visible hvisible]
    exact acceptedOnce h

theorem generation_isolation_reused :
    (Sample.reused.consumed (.reactor (.drainResponse true))).map Consumed.connection = [⟨5, 1⟩] ∧
      (Sample.reused.connections.lookup 5).map Connection.connId = some 2 ∧
      ∀ item ∈ Sample.reused.consumed (.reactor (.drainResponse true)), ∃ request,
        .decoded item.connection request ∈ Sample.reused.log ∧
          MadeFrom Sample.reused.log request item :=
  ⟨by decide +kernel, by decide +kernel,
    (generation_isolation Sample.reused_reachable.reachable).2.2.1 _⟩

end Server

end GatewaySystem
