import GatewaySystem.Net.ConnectionCap

/-!
# The trail of an authentication

A connection that is authenticated leads back through the gateway: to the event
that authenticated it, from there to a response that an AUTH worker offered, to
the reply the worker was given for its task, and to the admission of the AUTH
frame the task was made of. `Trailed` is the part of this that the ledger sees.
What a step does to the AUTH workers is said once, by `AuthTurn`.
-/

namespace GatewaySystem

namespace Ledger

variable {l l' : Ledger} {task : AuthTask}

/-- A task among the work was there before, or its queue accepted it. -/
theorem Step.task_work (hstep : Step l l') (h : .task task ∈ l'.work) :
    .task task ∈ l.work ∨ .task task ∈ l.intake ∧ .admitted task.request ∈ l'.history := by
  cases hstep with
  | @enqueue item rest hintake _ request hcarries =>
      rcases Multiset.mem_cons.mp h with rfl | h
      · obtain rfl : task.request = request := hcarries
        exact .inr ⟨hintake ▸ Multiset.mem_cons_self _ _, List.mem_cons_self⟩
      · exact .inl h
  | produce hwork =>
      have hrest := (Multiset.mem_cons.mp h).resolve_left nofun
      exact .inl (hwork ▸ Multiset.mem_cons_of_mem hrest)
  | cancel hwork => exact .inl (hwork ▸ Multiset.mem_cons_of_mem h)
  | stale hsource | answer hsource | answerClose hsource =>
      exact .inl (Multiset.mem_of_le (take_le hsource).1 h)
  | _ => exact .inl h

/-- A task that is taken in was made of an AUTH frame of a connection that is
there. -/
theorem Step.task_intake (hstep : Step l l') (h : .task task ∈ l'.intake) :
    .task task ∈ l.intake ∨ task.request.type = .auth ∧
      ∃ fd c, l'.connections fd = some c ∧ task.key = c.key := by
  cases hstep with
  | decodeBusiness _ _ _ _ _ hitems =>
      obtain ⟨request, -, ⟨heq, -⟩ | ⟨response, -, heq, -⟩⟩ := hitems.origin _ h <;> cases heq
  | decodeAuth _ _ _ _ hkey htype =>
      cases Multiset.mem_singleton.mp h
      exact .inr ⟨htype, _, _, Function.update_self .., hkey⟩
  | enqueue hintake => exact .inl (hintake ▸ Multiset.mem_cons_of_mem h)
  | refuse hintake =>
      have hrest := (Multiset.mem_cons.mp h).resolve_left nofun
      exact .inl (hintake ▸ Multiset.mem_cons_of_mem hrest)
  | stale hsource | answer hsource | answerClose hsource =>
      exact .inl (Multiset.mem_of_le (take_le hsource).2 h)
  | _ => exact .inl h

/-- Where tasks and authentications come from. -/
structure Trailed (l : Ledger) : Prop where
  intake : ∀ task, .task task ∈ l.intake → task.request.type = .auth
  work : ∀ task, .task task ∈ l.work →
    .admitted task.request ∈ l.history ∧ task.request.type = .auth
  authenticated : ∀ key clientId, .authenticated key clientId ∈ l.history →
    ∃ request response result, .offered request response result ∈ l.history ∧
      request.key = key ∧ response.clientIdToAuthenticate = some clientId
  holds : ∀ key clientId, l.Holds key clientId → .authenticated key clientId ∈ l.history

theorem client_of_mem_localAnswers {request : Request} {response : Response}
    (h : response ∈ localAnswers request) : response.clientIdToAuthenticate = none := by
  simp only [localAnswers, List.mem_cons, List.not_mem_nil, or_false] at h
  rcases h with rfl | rfl | rfl | rfl <;> rfl

/-- A response that authenticates was offered by a worker. -/
theorem Sourced.offered_of_client (h : Sourced l) {origin : ResponseOrigin} {response : Response}
    (hitem : .response response ∈ l.source origin) {clientId : Bytes}
    (hclient : response.clientIdToAuthenticate = some clientId) :
    ∃ request result, .offered request response result ∈ l.history ∧
      request.key = response.key := by
  cases origin with
  | worker =>
      obtain ⟨request, result, hoffered⟩ := h.work _ hitem
      exact ⟨request, result, hoffered,
        congrArg Tag.key (h.offered request response result hoffered).1.symm⟩
  | reactor =>
      obtain ⟨request, -, hlocal⟩ := h.intake _ hitem
      rw [client_of_mem_localAnswers hlocal] at hclient
      cases hclient

theorem initial_trailed : Trailed initial where
  intake := by simp [initial]
  work := by simp [initial]
  authenticated := by simp [initial]
  holds := by
    rintro key clientId ⟨c, ⟨hc, -⟩, -⟩
    cases hc

theorem Step.trailed (hstep : Step l l') (hsourced : Sourced l) (h : Trailed l) : Trailed l' where
  intake task htask := by
    rcases hstep.task_intake htask with htask | ⟨htype, -⟩
    · exact h.intake task htask
    · exact htype
  work task htask := by
    rcases hstep.task_work htask with htask | ⟨htask, hadmitted⟩
    · obtain ⟨hadmitted, htype⟩ := h.work task htask
      exact ⟨hstep.history_suffix.subset hadmitted, htype⟩
    · exact ⟨hadmitted, h.intake task htask⟩
  authenticated key clientId hevent := by
    obtain ⟨events, hhistory, hjustified⟩ := hstep.justified
    have hgrows := hstep.history_suffix
    rw [hhistory] at hevent
    rcases List.mem_append.mp hevent with hevent | hevent
    · cases hjustified _ hevent with
      | authenticated hitem _ hclient =>
          obtain ⟨request, result, hoffered, hkey⟩ := hsourced.offered_of_client hitem hclient
          exact ⟨request, _, result, hgrows.subset hoffered, hkey, hclient⟩
    · obtain ⟨request, response, result, hoffered, hrest⟩ := h.authenticated key clientId hevent
      exact ⟨request, response, result, hgrows.subset hoffered, hrest⟩
  holds key clientId hholds := by
    obtain ⟨events, hhistory, hold | hnew⟩ := hstep.holds hholds
    · exact hstep.history_suffix.subset (h.holds key clientId hold)
    · rw [hhistory]
      exact List.mem_append_left _ hnew

theorem Discard.trailed (hdiscard : Discard l l') (h : Trailed l) : Trailed l' := by
  obtain ⟨hwork, -⟩ := hdiscard
  exact ⟨h.intake, fun task htask => h.work task (Multiset.mem_of_le hwork htask),
    h.authenticated, h.holds⟩

end Ledger

namespace Server

variable {library : Json.Library} {args : StartArgs} {s t : Server} {action : Action}

theorem ledger_trailed (h : Transition.Reachable (gateway library args) s) : s.ledger.Trailed :=
  ledger_invariant Ledger.initial_trailed
    (fun _ _ hstep hsound htrailed => hstep.trailed hsound.sourced htrailed)
    (fun _ _ _ hdiscard htrailed => hdiscard.trailed htrailed) h

/-- The frame that an AUTH worker asks about was admitted. -/
theorem checking_admitted (h : Transition.Reachable (gateway library args) s) {i : ℕ}
    {task : AuthTask} (hworker : s.authWorkers[i]? = some (.checking task)) :
    .admitted task.request ∈ s.log ∧ task.request.type = .auth := by
  have hitem : .task task ∈ s.work := by
    have hheld : .task task ∈ (s.authWorkers.filterMap AuthWorker.item? : Multiset Item) :=
      List.mem_filterMap.mpr ⟨_, List.mem_of_getElem? hworker, rfl⟩
    simp only [work, Multiset.mem_add]
    exact .inl (.inl (.inr hheld))
  obtain ⟨hadmitted, htype⟩ := (ledger_trailed h).work task hitem
  exact ⟨(List.mem_filter.mp hadmitted).1, htype⟩

/-- The events of a state are those of the state before and new ones. -/
theorem step_log (h : step library s action = some t) : s.log <:+ t.log := by
  rcases step_affects h with haffects | ⟨body, -, rfl⟩ | ⟨duration, rfl⟩
  · refine Transition.kept_along (I := fun u => s.log <:+ u.log) ?_ haffects
      (List.suffix_refl _)
    intro u v heffect hu
    obtain ⟨-, events, hlog, -⟩ := heffect.events
    rw [hlog]
    exact hu.trans (List.suffix_append _ _)
  · unfold pullConfig
    split <;> exact List.suffix_refl _
  · exact List.suffix_refl _

/-! ## The AUTH workers -/

/-- The turn of an AUTH worker. -/
inductive AuthTurn (library : Json.Library) (s t : Server) :
    AuthWorker → AuthWorker → AuthAction → Prop
  | handle (task : AuthTask) (reply : AuthReply) (hlog : t.log = s.log) :
      AuthTurn library s t (.checking task) (.answering task reply) (.handleAuth reply)
  | offer {worker : AuthWorker} {action : AuthAction} (task : AuthTask) (reply : AuthReply)
      (result : PushResult) (hworker : ∀ task reply, worker ≠ .answering task reply)
      (hlog : t.log = .offered task.request (authHandling library task.request reply).response
        result :: s.log) :
      AuthTurn library s t (.answering task reply) worker action
  /-- It neither asks nor answers. -/
  | other {old worker : AuthWorker} {action : AuthAction} (hold : ∀ task, old ≠ .checking task)
      (hworker : ∀ task reply, worker ≠ .answering task reply) (hlog : t.log = s.log) :
      AuthTurn library s t old worker action

theorem authWorkerStep_authTurn {i : ℕ} {old : AuthWorker} {action : AuthAction}
    (h : authWorkerStep library s i old action = some t) :
    ∃ worker, t.authWorkers = s.authWorkers.set i worker ∧
      AuthTurn library s t old worker action := by
  cases authWorkerStep_move h with
  | handleAuth task reply => exact ⟨_, rfl, .handle task reply rfl⟩
  | leave =>
      refine ⟨_, rfl, .other (by simp) (fun task reply => ?_) rfl⟩
      split <;> simp
  | offer task reply =>
      obtain ⟨result, hlog⟩ := enqueueWorkerResponse_log s task.request
        (authHandling library task.request reply).response .authWorker
      obtain ⟨-, hworkers⟩ := enqueueWorkerResponse_workers s task.request
        (authHandling library task.request reply).response .authWorker
      refine ⟨_, congrArg (List.set · i _) hworkers, .offer task reply result ?_ hlog⟩
      intro task reply
      split <;> simp
  | pop | drop | check | reject | stopResponses =>
      exact ⟨_, rfl, .other (by simp) (by simp) rfl⟩

/-- A step is the turn of an AUTH worker, or it leaves them alone and offers no
response that authenticates. -/
theorem step_authTurn (h : step library s action = some t) :
    (∃ i old worker own, action = .authWorker i own ∧ s.authWorkers[i]? = some old ∧
      t.authWorkers = s.authWorkers.set i worker ∧ AuthTurn library s t old worker own) ∨
    (∀ i own, action ≠ .authWorker i own) ∧ t.authWorkers = s.authWorkers ∧
      ∀ request response result, .offered request response result ∈ t.log →
        .offered request response result ∈ s.log ∨ response.clientIdToAuthenticate = none := by
  cases step_move h with
  | reactor h =>
      have hframe := reactorStep_frame h
      exact .inr ⟨by simp, hframe.authWorkers, fun request response result hoffered =>
        .inl ((hframe.offered request response result).mp hoffered)⟩
  | worker _ h =>
      refine .inr ⟨by simp, ?_⟩
      cases workerStep_move h with
      | dispatch env request =>
          obtain ⟨result, hlog⟩ := enqueueWorkerResponse_log s request
            (workerResponse library env request) .normalWorker
          obtain ⟨-, hworkers⟩ := enqueueWorkerResponse_workers s request
            (workerResponse library env request) .normalWorker
          refine ⟨hworkers, fun request' response' result' hoffered => ?_⟩
          have hoffered := hlog ▸ hoffered
          rcases List.mem_cons.mp hoffered with heq | hoffered
          · cases heq
            exact .inr (workerResponse_answer library env request).2.client
          · exact .inl hoffered
      | _ => exact ⟨rfl, fun _ _ _ => .inl⟩
  | authWorker hold h =>
      obtain ⟨worker, hworkers, hturn⟩ := authWorkerStep_authTurn h
      exact .inl ⟨_, _, worker, _, rfl, hold, hworkers, hturn⟩
  | pullConfig | tick => exact .inr ⟨by simp, rfl, fun _ _ _ => .inl⟩

variable {i : ℕ} {task : AuthTask} {reply : AuthReply}

/-- A worker asks until its own turn. -/
theorem step_checking (h : step library s action = some t)
    (hworker : s.authWorkers[i]? = some (.checking task))
    (hother : ∀ reply, action ≠ .authWorker i (.handleAuth reply)) :
    t.authWorkers[i]? = some (.checking task) := by
  rcases step_authTurn h with ⟨j, old, worker, own, rfl, hold, hworkers, hturn⟩ |
    ⟨-, hworkers, -⟩
  · have hne : j ≠ i := by
      rintro rfl
      obtain rfl := Option.some.inj (hworker.symm.trans hold)
      cases hturn with
      | handle => exact hother _ rfl
      | other hold => exact hold task rfl
    rw [hworkers, List.getElem?_set_ne hne]
    exact hworker
  · rw [hworkers]
    exact hworker

/-- A worker that answers did so before, or has just been given the reply. -/
theorem step_answering (h : step library s action = some t)
    (hworker : t.authWorkers[i]? = some (.answering task reply)) :
    s.authWorkers[i]? = some (.answering task reply) ∨
      action = .authWorker i (.handleAuth reply) ∧
        s.authWorkers[i]? = some (.checking task) := by
  rcases step_authTurn h with ⟨j, old, worker, own, rfl, hold, hworkers, hturn⟩ |
    ⟨-, hworkers, -⟩
  · rw [hworkers] at hworker
    rcases Pool.getElem?_set hworker with ⟨rfl, rfl⟩ | ⟨-, hworker⟩
    · cases hturn with
      | handle => exact .inr ⟨rfl, hold⟩
      | offer _ _ _ hnone => exact absurd rfl (hnone task reply)
      | other _ hnone => exact absurd rfl (hnone task reply)
    · exact .inl hworker
  · rw [hworkers] at hworker
    exact .inl hworker

/-- A response that authenticates is offered by a worker that answers. -/
theorem step_offered (h : step library s action = some t) {request : Request}
    {response : Response} {result : PushResult} {clientId : Bytes}
    (hoffered : .offered request response result ∈ t.log)
    (hclient : response.clientIdToAuthenticate = some clientId) :
    .offered request response result ∈ s.log ∨
      ∃ (i : ℕ) (task : AuthTask) (reply : AuthReply),
        s.authWorkers[i]? = some (.answering task reply) ∧
        request = task.request ∧
        response = (authHandling library task.request reply).response := by
  rcases step_authTurn h with ⟨j, old, worker, own, rfl, hold, -, hturn⟩ | ⟨-, -, hothers⟩
  · cases hturn with
    | handle _ _ hlog | other _ _ hlog => exact .inl (hlog ▸ hoffered)
    | offer task reply result' _ hlog =>
        rw [hlog] at hoffered
        rcases List.mem_cons.mp hoffered with heq | hoffered
        · cases heq
          exact .inr ⟨j, task, reply, hold, rfl, rfl⟩
        · exact .inl hoffered
  · refine .inl ((hothers request response result hoffered).resolve_right fun hnone => ?_)
    rw [hnone] at hclient
    cases hclient

/-- A step that authenticates offers nothing. -/
theorem step_authenticated (h : step library s action = some t) {events : List Event}
    (hlog : t.log = events ++ s.log) {key : ConnectionKey} {clientId : Bytes}
    (hevent : .authenticated key clientId ∈ events) {request : Request} {response : Response}
    {result : PushResult} (hoffered : .offered request response result ∈ t.log) :
    .offered request response result ∈ s.log := by
  rcases step_untouched h with ⟨own, rfl, hown⟩ | huntouched
  · exact ((reactorStep_frame hown).offered request response result).mp hoffered
  · rcases huntouched.log with hsame | ⟨request, response, result, hnew⟩
    · rw [List.append_left_eq_self.mp (hlog.symm.trans hsame)] at hevent
      cases hevent
    · rw [List.append_cancel_right (hlog.symm.trans hnew :
        events ++ s.log = [.offered request response result] ++ s.log)] at hevent
      cases List.mem_singleton.mp hevent

end Server

end GatewaySystem
