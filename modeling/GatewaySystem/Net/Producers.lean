import GatewaySystem.Lib.Countdown
import GatewaySystem.Lib.Pool
import GatewaySystem.Net.Gateway

/-!
# The workers as producers of responses

To the response queue, the list of refused connections and the counter of
producers the two kinds of workers are the same: each works until its response
is refused or its own queue is finished. `Turn` lists what a step of either kind
does to these; what the workers of both kinds keep is proved from it once.
-/

namespace GatewaySystem

/-- A worker as the response queue sees it. -/
inductive Producer where
  | working
  /-- Its response was refused and the connection is not yet on the list. -/
  | refused (key : ConnectionKey)
  /-- It was the last one and has not yet stopped the response queue. -/
  | stopping
  | exited

namespace Producer

def refused? : Producer → Option ConnectionKey
  | .refused key => some key
  | _ => none

/-- It has not yet counted itself out. -/
def isActive : Producer → Bool
  | .working | .refused _ => true
  | _ => false

def isStopping : Producer → Bool
  | .stopping => true
  | _ => false

end Producer

def NormalWorker.producer : NormalWorker → Producer
  | .waiting | .handling _ => .working
  | .refused key => .refused key
  | .stopping => .stopping
  | .exited => .exited

def AuthWorker.producer : AuthWorker → Producer
  | .waiting | .popped _ | .checking _ | .answering _ _ => .working
  | .refused key => .refused key
  | .stopping => .stopping
  | .exited => .exited

namespace Server

variable {library : Json.Library} {s t : Server} {i : ℕ} {worker : NormalWorker}

/-- The workers of both kinds. -/
def producers (s : Server) : List Producer :=
  s.workers.map NormalWorker.producer ++ s.authWorkers.map AuthWorker.producer

/-- What the producers share. -/
structure Shared where
  producers : List Producer
  remaining : ℕ
  rejected : List ConnectionKey
  stopped : Bool
  log : List Event

def shared (s : Server) : Shared where
  producers := s.producers
  remaining := s.responseProducersRemaining
  rejected := s.rejectedResponseConnections
  stopped := s.responseQueue.stopped
  log := s.log

/-- The turn of a producer. -/
inductive Turn (σ : Shared) : Shared → Prop
  /-- It takes work, drops it or goes on with it. -/
  | work : Turn σ σ
  | accept (request : Request) (response : Response) :
      Turn σ { σ with log := .offered request response .ok :: σ.log }
  | refuse {i : ℕ} (h : σ.producers[i]? = some .working) (request : Request) (response : Response)
      {result : PushResult} (hresult : result ≠ .ok)
      (hstopped : result = .stopped → σ.stopped = true) :
      Turn σ { σ with
        producers := σ.producers.set i (.refused request.key)
        log := .offered request response result :: σ.log }
  | reject {i : ℕ} {key : ConnectionKey} (h : σ.producers[i]? = some (.refused key)) :
      Turn σ { σ with
        producers := σ.producers.set i .working
        rejected := σ.rejected.insert key }
  | leave {i : ℕ} (h : σ.producers[i]? = some .working) :
      Turn σ { σ with
        producers := σ.producers.set i (if σ.remaining = 1 then .stopping else .exited)
        remaining := σ.remaining - 1 }
  | stop {i : ℕ} (h : σ.producers[i]? = some .stopping) :
      Turn σ { σ with producers := σ.producers.set i .exited, stopped := true }

/-- A worker made a response for the connection and the queue refused it. -/
def Refused (log : List Event) (key : ConnectionKey) : Prop :=
  ∃ request response result, .offered request response result ∈ log ∧ result ≠ .ok ∧
    request.key = key

/-- The connections on the list of refused ones, and those a producer is about
to put there. -/
def Shared.refusedKeys (σ : Shared) : List ConnectionKey :=
  σ.rejected ++ σ.producers.filterMap Producer.refused?

/-- What the list of refused connections has to do with the refused responses. -/
structure Turn.Listed (σ σ' : Shared) : Prop where
  log : σ.log ⊆ σ'.log
  kept : ∀ key ∈ σ.refusedKeys, key ∈ σ'.refusedKeys
  origin : ∀ key ∈ σ'.refusedKeys, key ∈ σ.refusedKeys ∨ Refused σ'.log key
  listed : ∀ request response result, .offered request response result ∈ σ'.log →
    result ≠ .ok → .offered request response result ∈ σ.log ∨ request.key ∈ σ'.refusedKeys

variable {σ σ' : Shared}

/-- A producer that neither gets nor gives up the key of a refused response. -/
theorem Turn.Listed.of_quiet (hlog : σ'.log = σ.log)
    (hkeys : ∀ key, key ∈ σ'.refusedKeys ↔ key ∈ σ.refusedKeys) : Turn.Listed σ σ' where
  log := hlog ▸ List.Subset.refl _
  kept key hkey := (hkeys key).mpr hkey
  origin key hkey := .inl ((hkeys key).mp hkey)
  listed _ _ _ hmem _ := .inl (hlog ▸ hmem)

theorem Turn.listed (h : Turn σ σ') : Turn.Listed σ σ' := by
  cases h with
  | work => exact .of_quiet rfl fun _ => Iff.rfl
  | accept request response =>
      refine ⟨List.subset_cons_self _ _, fun _ => id, fun _ => .inl, ?_⟩
      intro request' response' result' hmem hresult
      exact .inl ((List.mem_cons.mp hmem).resolve_left fun heq => by
        cases heq
        exact hresult rfl)
  | refuse hi request response hresult =>
      have hset := Pool.mem_filterMap_set Producer.refused? hi (.refused request.key)
      simp only [Producer.refused?, reduceCtorEq, or_false, Option.some.injEq] at hset
      refine ⟨List.subset_cons_self _ _, fun key => ?_, fun key => ?_, ?_⟩
      · simp only [Shared.refusedKeys, List.mem_append, hset]
        tauto
      · simp only [Shared.refusedKeys, List.mem_append, hset]
        rintro (hkey | hkey | rfl)
        · exact .inl (.inl hkey)
        · exact .inl (.inr hkey)
        · exact .inr ⟨request, response, _, List.mem_cons_self, hresult, rfl⟩
      · intro request' response' result' hmem _
        rcases List.mem_cons.mp hmem with heq | hmem
        · cases heq
          refine .inr ?_
          simp [Shared.refusedKeys, hset]
        · exact .inl hmem
  | @reject i key hi =>
      have hset := Pool.mem_filterMap_set Producer.refused? hi .working
      simp only [Producer.refused?, reduceCtorEq, or_false, Option.some.injEq] at hset
      refine .of_quiet rfl fun own => ?_
      simp only [Shared.refusedKeys, List.mem_append, List.mem_insert_iff, ← hset]
      tauto
  | leave hi =>
      have hset := Pool.mem_filterMap_set Producer.refused? hi
        (if σ.remaining = 1 then .stopping else .exited)
      refine .of_quiet rfl fun own => ?_
      simp only [Shared.refusedKeys, List.mem_append]
      split at hset <;> simp_all [Producer.refused?]
  | stop hi =>
      have hset := Pool.mem_filterMap_set Producer.refused? hi .exited
      refine .of_quiet rfl fun own => ?_
      simp_all [Shared.refusedKeys, Producer.refused?]

/-- The producers as a countdown. -/
def Shared.countdown (σ : Shared) : Countdown where
  remaining := σ.remaining
  active := σ.producers.countP Producer.isActive
  closing := σ.producers.countP Producer.isStopping
  closed := σ.stopped

theorem Turn.countdown (h : Turn σ σ') : Countdown.Step σ.countdown σ'.countdown := by
  cases h with
  | work | accept => exact .stay rfl rfl rfl rfl
  | refuse hi request =>
      have hactive := Pool.countP_set Producer.isActive hi (.refused request.key)
      have hclosing := Pool.countP_set Producer.isStopping hi (.refused request.key)
      exact .stay rfl (Nat.add_right_cancel hactive) hclosing rfl
  | reject hi =>
      have hactive := Pool.countP_set Producer.isActive hi .working
      have hclosing := Pool.countP_set Producer.isStopping hi .working
      exact .stay rfl (Nat.add_right_cancel hactive) hclosing rfl
  | leave hi =>
      by_cases hlast : σ.remaining = 1
      · have hactive := Pool.countP_set Producer.isActive hi .stopping
        have hclosing := Pool.countP_set Producer.isStopping hi .stopping
        simp only [if_pos hlast]
        exact .leave rfl hactive (hclosing.trans (congrArg _ (if_pos hlast).symm)) rfl
      · have hactive := Pool.countP_set Producer.isActive hi .exited
        have hclosing := Pool.countP_set Producer.isStopping hi .exited
        simp only [if_neg hlast]
        exact .leave rfl hactive (hclosing.trans (congrArg _ (if_neg hlast).symm)) rfl
  | stop hi =>
      have hactive := Pool.countP_set Producer.isActive hi .exited
      have hclosing := Pool.countP_set Producer.isStopping hi .exited
      exact .close rfl hactive hclosing rfl

/-- A response is refused as stopped only by a queue that is stopped while a
producer is there. -/
theorem Turn.refused_stopped (h : Turn σ σ') {request : Request} {response : Response}
    (hmem : .offered request response .stopped ∈ σ'.log) :
    .offered request response .stopped ∈ σ.log ∨
      σ.countdown.closed = true ∧ 0 < σ.countdown.active := by
  cases h with
  | accept => exact .inl ((List.mem_cons.mp hmem).resolve_left nofun)
  | refuse hi _ _ _ hstopped =>
      rcases List.mem_cons.mp hmem with heq | hmem
      · cases heq
        exact .inr ⟨hstopped rfl, List.countP_pos_iff.mpr
          ⟨.working, List.mem_of_getElem? hi, rfl⟩⟩
      · exact .inl hmem
  | _ => exact .inl hmem

/-! ## The steps of the workers -/

theorem producers_getElem? (h : s.workers[i]? = some worker) :
    s.producers[i]? = some worker.producer := by
  obtain ⟨hlt, -⟩ := List.getElem?_eq_some_iff.mp h
  rw [producers, List.getElem?_append_left (by simpa using hlt), List.getElem?_map, h]
  rfl

theorem producers_getElem?_auth {worker : AuthWorker} (h : s.authWorkers[i]? = some worker) :
    s.producers[s.workers.length + i]? = some worker.producer := by
  rw [producers, List.getElem?_append_right (by simp)]
  simp [h]

theorem shared_setWorker (s : Server) (h : i < s.workers.length) (worker : NormalWorker) :
    (s.setWorker i worker).shared =
      { s.shared with producers := s.producers.set i worker.producer } := by
  have hproducers : (s.setWorker i worker).producers = s.producers.set i worker.producer := by
    simp only [producers, setWorker, List.map_set]
    rw [List.set_append_left _ _ (by simpa using h)]
  rw [shared, hproducers]
  rfl

theorem shared_setAuthWorker (s : Server) (i : ℕ) (worker : AuthWorker) :
    (s.setAuthWorker i worker).shared =
      { s.shared with producers := s.producers.set (s.workers.length + i) worker.producer } := by
  have hproducers : (s.setAuthWorker i worker).producers =
      s.producers.set (s.workers.length + i) worker.producer := by
    simp only [producers, setAuthWorker, List.map_set]
    rw [List.set_append_right _ _ (by simp)]
    simp
  rw [shared, hproducers]
  rfl

/-- A producer that goes on with its work. -/
theorem Turn.of_work (h : σ.producers[i]? = some .working)
    (hσ : σ' = { σ with producers := σ.producers.set i .working }) : Turn σ σ' := by
  obtain ⟨hlt, hget⟩ := List.getElem?_eq_some_iff.mp h
  rw [hσ, ← hget, List.set_getElem_self]
  exact .work

/-- What the other threads leave to the reactor. -/
structure Untouched (s t : Server) : Prop where
  connections : t.connections = s.connections
  interest : t.interest = s.interest
  rateLimitWindows : t.rateLimitWindows = s.rateLimitWindows
  nextConnId : t.nextConnId = s.nextConnId
  activeConnections : t.stats.activeConnections = s.stats.activeConnections
  cancelled : t.cancelled = s.cancelled
  state : t.state = s.state
  point : t.point = s.point
  log : t.log = s.log ∨ ∃ request response result, t.log = .offered request response result :: s.log

theorem Untouched.refl (s : Server) : Untouched s s :=
  ⟨rfl, rfl, rfl, rfl, rfl, rfl, rfl, rfl, .inl rfl⟩

theorem enqueueWorkerResponse_untouched (s : Server) (request : Request) (response : Response)
    (producer : ResponseProducer) :
    Untouched s (s.enqueueWorkerResponse request response producer).2 := by
  unfold enqueueWorkerResponse
  simp only
  split
  · exact ⟨rfl, rfl, rfl, rfl, rfl, rfl, rfl, rfl, .inr ⟨_, _, _, rfl⟩⟩
  · cases producer <;> exact ⟨rfl, rfl, rfl, rfl, rfl, rfl, rfl, rfl, .inr ⟨_, _, _, rfl⟩⟩

/-- A producer that offers its response holds the key of a refused one. -/
theorem Turn.of_offer (h : s.producers[i]? = some .working) (request : Request)
    (response : Response) (producer : ResponseProducer) {σ : Shared}
    (hσ : σ = { (s.enqueueWorkerResponse request response producer).2.shared with
      producers := s.producers.set i
        (if (s.enqueueWorkerResponse request response producer).1 then .working
          else .refused request.key) }) : Turn s.shared σ := by
  obtain ⟨hlt, hget⟩ := List.getElem?_eq_some_iff.mp h
  rw [hσ]
  unfold enqueueWorkerResponse
  simp only
  split
  · next hok =>
      rw [if_pos rfl, ← hget, List.set_getElem_self, hok]
      simpa [shared, emit] using Turn.accept (σ := s.shared) request response
  · next hrefused =>
      exact .refuse h request response hrefused BlockQueue.push_stopped_iff.mp

/-- A producer whose queue is finished. -/
theorem Turn.of_leave (h : s.producers[i]? = some .working) {σ : Shared}
    (hσ : σ = { s.onResponseProducerExited.2.shared with
      producers := s.producers.set i
        (if s.onResponseProducerExited.1 then .stopping else .exited) }) : Turn s.shared σ := by
  have hturn : Turn s.shared _ := .leave h
  have hlast : (if s.onResponseProducerExited.1 then Producer.stopping else .exited) =
      if s.responseProducersRemaining = 1 then .stopping else .exited := by
    simp [onResponseProducerExited]
  rw [hσ, hlast]
  exact hturn

theorem workerStep_turn {action : WorkerAction} (hworker : s.workers[i]? = some worker)
    (h : workerStep library s i worker action = some t) : Turn s.shared t.shared := by
  have hi := producers_getElem? hworker
  obtain ⟨hlt, -⟩ := List.getElem?_eq_some_iff.mp hworker
  cases workerStep_move h with
  | pop => exact .of_work hi (shared_setWorker _ hlt _)
  | leave =>
      refine .of_leave hi ?_
      rw [shared_setWorker s.onResponseProducerExited.2 hlt, apply_ite NormalWorker.producer]
      rfl
  | dispatch env request =>
      obtain ⟨hworkers, hauthWorkers⟩ := enqueueWorkerResponse_workers s request
        (workerResponse library env request) .normalWorker
      refine .of_offer hi request (workerResponse library env request) .normalWorker
        ((shared_setWorker _ (hworkers ▸ hlt) _).trans ?_)
      rw [producers, hworkers, hauthWorkers, apply_ite NormalWorker.producer]
      rfl
  | reject key =>
      rw [shared_setWorker (s.rejectConnection key) hlt]
      exact .reject hi
  | stopResponses =>
      rw [shared_setWorker { s with responseQueue := s.responseQueue.stop } hlt]
      exact .stop hi

theorem authWorkerStep_turn {worker : AuthWorker} {action : AuthAction}
    (hworker : s.authWorkers[i]? = some worker)
    (h : authWorkerStep library s i worker action = some t) : Turn s.shared t.shared := by
  have hi := producers_getElem?_auth hworker
  cases authWorkerStep_move h with
  | pop | drop | check | handleAuth => exact .of_work hi (shared_setAuthWorker _ i _)
  | leave =>
      refine .of_leave hi ?_
      rw [shared_setAuthWorker s.onResponseProducerExited.2 i, apply_ite AuthWorker.producer]
      rfl
  | offer task reply =>
      obtain ⟨hworkers, hauthWorkers⟩ := enqueueWorkerResponse_workers s task.request
        (authHandling library task.request reply).response .authWorker
      refine .of_offer hi task.request (authHandling library task.request reply).response
        .authWorker ((shared_setAuthWorker _ i _).trans ?_)
      rw [producers, hworkers, hauthWorkers, apply_ite AuthWorker.producer]
      rfl
  | reject key =>
      rw [shared_setAuthWorker (s.rejectConnection key) i]
      exact .reject hi
  | stopResponses =>
      rw [shared_setAuthWorker { s with responseQueue := s.responseQueue.stop } i]
      exact .stop hi

theorem workerStep_untouched {action : WorkerAction}
    (h : workerStep library s i worker action = some t) : Untouched s t := by
  cases workerStep_move h with
  | dispatch env request =>
      have hoffer := enqueueWorkerResponse_untouched s request (workerResponse library env request)
        .normalWorker
      exact { hoffer with }
  | _ => exact { Untouched.refl s with }

theorem authWorkerStep_untouched {worker : AuthWorker} {action : AuthAction}
    (h : authWorkerStep library s i worker action = some t) : Untouched s t := by
  cases authWorkerStep_move h with
  | handleAuth task reply =>
      unfold finishAuth
      cases (authHandling library task.request reply).outcome <;> exact { Untouched.refl s with }
  | offer task reply =>
      have hoffer := enqueueWorkerResponse_untouched s task.request
        (authHandling library task.request reply).response .authWorker
      exact { hoffer with }
  | _ => exact { Untouched.refl s with }

/-- A step is one of the reactor or leaves its tables alone. -/
theorem step_untouched {action : Action} (h : step library s action = some t) :
    (∃ own, action = .reactor own ∧ s.reactorStep own = some t) ∨ Untouched s t := by
  cases step_move h with
  | reactor h => exact .inl ⟨_, rfl, h⟩
  | worker _ h => exact .inr (workerStep_untouched h)
  | authWorker _ h => exact .inr (authWorkerStep_untouched h)
  | pullConfig | tick => exact .inr { Untouched.refl s with }

/-- A step is one of the reactor, one of a producer, or touches neither. -/
theorem step_cases {action : Action} (h : step library s action = some t) :
    (∃ own, action = .reactor own ∧ s.reactorStep own = some t) ∨
      Turn s.shared t.shared ∧ t.connections = s.connections ∧ t.state = s.state := by
  cases step_move h with
  | reactor h => exact .inl ⟨_, rfl, h⟩
  | worker hworker h =>
      have hframe := workerStep_untouched h
      exact .inr ⟨workerStep_turn hworker h, hframe.connections, hframe.state⟩
  | authWorker hworker h =>
      have hframe := authWorkerStep_untouched h
      exact .inr ⟨authWorkerStep_turn hworker h, hframe.connections, hframe.state⟩
  | pullConfig | tick => exact .inr ⟨.work, rfl, rfl⟩

end Server

end GatewaySystem
