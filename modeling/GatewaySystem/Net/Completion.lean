import GatewaySystem.Net.Buffers
import GatewaySystem.Net.Drain
import GatewaySystem.Net.Progress
import GatewaySystem.Net.Wakeup

/-!
# Every request is answered and every shutdown ends

A running server in which no step of work is possible has answered every frame of
a live connection to the last byte. While it drains there is always a step of
work: the workers find their queues stopped and leave, the last of them stops
the response queue, and then `drainComplete` finds a connection to close or says
yes. A stopped one without work has lost its workers and its connections. Since
the work of a run without intake comes to an end, every fair run gets there.
-/

namespace GatewaySystem

namespace BlockQueue

variable {α ω : Type*} {q q' : BlockQueue α} {hasLeft : ω → Prop} {pool : List ω}

/-- A queue that takes nothing more and has nothing left. -/
structure Finished (q : BlockQueue α) : Prop where
  stopped : q.stopped = true
  items : q.items = []

/-- What the operations on a queue keep. -/
structure Later (q q' : BlockQueue α) : Prop where
  stopped : q.stopped = true → q'.stopped = true
  finished : q.Finished → q'.items = []

theorem Later.refl (q : BlockQueue α) : q.Later q := ⟨id, Finished.items⟩

theorem Later.finished_of (h : q.Later q') (hq : q.Finished) : q'.Finished :=
  ⟨h.stopped hq.stopped, h.finished hq⟩

theorem push_later (q : BlockQueue α) (item : α) : q.Later (q.push item).2 where
  stopped h := (push_stopped q item).trans h
  finished h := by
    rw [push_refused (by rw [push_stopped_iff.mpr h.stopped]; simp)]
    exact h.items

theorem pop_later {item : α} (h : q.pop = some (some (item, q'))) : q.Later q' where
  stopped hstopped := (pop_item h).2.1.trans hstopped
  finished hfinished := by
    have hitems := (pop_item h).1
    rw [hfinished.items] at hitems
    cases hitems

/-- A pool with a worker, whose workers leave only a finished queue. -/
structure Manned (q : BlockQueue α) (hasLeft : ω → Prop) (pool : List ω) : Prop where
  ne_nil : pool ≠ []
  left : ∀ worker ∈ pool, hasLeft worker → q.Finished

theorem Manned.later (h : q.Manned hasLeft pool) (hlater : q.Later q') :
    q'.Manned hasLeft pool :=
  ⟨h.ne_nil, fun worker hmem hleft => hlater.finished_of (h.left worker hmem hleft)⟩

theorem Manned.set (h : q.Manned hasLeft pool) (i : ℕ) {new : ω}
    (hnew : hasLeft new → q.Finished) : q.Manned hasLeft (pool.set i new) where
  ne_nil := by simpa using h.ne_nil
  left worker hmem hleft := by
    rcases List.mem_or_eq_of_mem_set hmem with hold | rfl
    · exact h.left worker hold hleft
    · exact hnew hleft

theorem manned_replicate {n : ℕ} {worker : ω} (hn : n ≠ 0) (hin : ¬ hasLeft worker) :
    q.Manned hasLeft (List.replicate n worker) :=
  ⟨by simpa using hn, fun _ hmem hleft => absurd (List.eq_of_mem_replicate hmem ▸ hleft) hin⟩

theorem stop_later (q : BlockQueue α) : q.Later q.stop := ⟨fun _ => rfl, Finished.items⟩

theorem abort_later (q : BlockQueue α) : q.Later q.abort.2 := ⟨fun _ => rfl, fun _ => rfl⟩

end BlockQueue

/-- A worker that has left its loop. -/
def NormalWorker.HasLeft (worker : NormalWorker) : Prop := worker = .stopping ∨ worker = .exited

def AuthWorker.HasLeft (worker : AuthWorker) : Prop := worker = .stopping ∨ worker = .exited

namespace Server

variable {library : Json.Library} {args : StartArgs} {s t : Server} {action : Action} {i : ℕ}

/-! ## The queues of the workers -/

/-- What a step does to the two queues the workers take from. A server that has
left the running state does not return to it. -/
structure QueuesLater (s t : Server) : Prop where
  requests : s.requestQueue.Later t.requestQueue
  auths : s.authQueue.Later t.authQueue
  left : s.state ≠ .running → t.state ≠ .running

theorem QueuesLater.of_eq (hrequests : t.requestQueue = s.requestQueue)
    (hauths : t.authQueue = s.authQueue) (hstate : t.state = s.state) : QueuesLater s t :=
  ⟨hrequests ▸ .refl _, hauths ▸ .refl _, fun hleft => hstate.symm ▸ hleft⟩

theorem Frame.later (h : Frame s t) : QueuesLater s t :=
  .of_eq h.requestQueue h.authQueue h.state

theorem Affects.later (h : Affects False True s t) : QueuesLater s t := h.frame.later

theorem enqueueNext_later (s : Server) (frame : Enqueue) (ctl : Bool) :
    QueuesLater s (s.enqueueNext frame ctl) := by
  unfold enqueueNext
  split
  · exact (countAdmitted_affects ..).later
  · unfold enqueueTask
    simp only
    split
    · exact ⟨.refl _, BlockQueue.push_later .., id⟩
    · exact .of_eq rfl rfl rfl
  · unfold enqueueRequest
    simp only
    split
    · exact ⟨BlockQueue.push_later .., .refl _, id⟩
    · exact .of_eq rfl rfl rfl
  · exact ((Affects.single (.table ..)).trans (applyResponse_affects ..)).later
  · simp only
    split
    · exact ((Affects.single (.table ..)).trans (markReadEof_affects ..)).later
    · exact .of_eq rfl rfl rfl

theorem reactorStep_later {action : ReactorAction} (h : s.reactorStep action = some t) :
    QueuesLater s t := by
  cases reactorStep_move h with
  | accept => exact (handleAccept_affects ..).later
  | read => exact (handleRead_affects ..).later
  | enqueueNext frame ctl => exact enqueueNext_later s frame ctl
  | hangUp => exact (markReadEof_affects ..).later
  | write => exact (handleWrite_affects ..).later
  | socketError => exact (closeConnection_affects ..).later
  | drainResponse response queue ctl =>
      have hframe := (applyResponse_steady { s with responseQueue := queue } response .worker
        ctl).frame
      exact .of_eq hframe.requestQueue hframe.authQueue hframe.state
  | drainRejected =>
      have hframe := (drainRejectedResponses_sheds s).frame
      exact .of_eq hframe.requestQueue hframe.authQueue hframe.state
  | beginDrainingNext phase ctl =>
      cases phase with
      | stopRequests => exact ⟨BlockQueue.stop_later _, .refl _, id⟩
      | stopAuth => exact ⟨.refl _, BlockQueue.stop_later _, id⟩
      | modifyEvents =>
          exact ((Affects.single (.table ..)).trans (foldl_affects
            (fun s _ => modifyConnectionEvents_affects s _ _ _) _ _)).later
  | drainComplete =>
      have hlater := (drainComplete_sheds s).frame.later
      split
      · exact ⟨hlater.requests, hlater.auths, by simp⟩
      · exact hlater
  | deadline =>
      exact ⟨BlockQueue.abort_later _, BlockQueue.abort_later _, by simp [abortQueues]⟩
  | stopQueues => exact ⟨BlockQueue.stop_later _, BlockQueue.stop_later _, id⟩
  | beginDraining => exact ⟨.refl _, .refl _, by simp⟩
  | closeAll => exact (closeAll_affects s).later

theorem enqueueWorkerResponse_queues (s : Server) (request : Request) (response : Response)
    (producer : ResponseProducer) :
    QueuesLater s (s.enqueueWorkerResponse request response producer).2 := by
  unfold enqueueWorkerResponse
  simp only
  split <;> exact .of_eq rfl rfl rfl

theorem workerStep_later {worker : NormalWorker} {action : WorkerAction}
    (h : workerStep library s i worker action = some t) : QueuesLater s t := by
  cases workerStep_move h with
  | pop hpop => exact ⟨BlockQueue.pop_later hpop, .refl _, id⟩
  | dispatch env request =>
      have hqueues := enqueueWorkerResponse_queues s request (workerResponse library env request)
        .normalWorker
      exact ⟨hqueues.requests, hqueues.auths, hqueues.left⟩
  | leave | reject | stopResponses => exact .of_eq rfl rfl rfl

theorem authWorkerStep_later {worker : AuthWorker} {action : AuthAction}
    (h : authWorkerStep library s i worker action = some t) : QueuesLater s t := by
  cases authWorkerStep_move h with
  | pop hpop => exact ⟨.refl _, BlockQueue.pop_later hpop, id⟩
  | offer task reply =>
      have hqueues := enqueueWorkerResponse_queues s task.request
        (authHandling library task.request reply).response .authWorker
      exact ⟨hqueues.requests, hqueues.auths, hqueues.left⟩
  | leave | drop | check | handleAuth | reject | stopResponses => exact .of_eq rfl rfl rfl

theorem step_later (h : step library s action = some t) : QueuesLater s t := by
  cases step_move h with
  | reactor h => exact reactorStep_later h
  | worker _ h => exact workerStep_later h
  | authWorker _ h => exact authWorkerStep_later h
  | pullConfig | tick => exact .of_eq rfl rfl rfl

/-! ## The pools -/

structure Staffed (s : Server) : Prop where
  workers : s.requestQueue.Manned NormalWorker.HasLeft s.workers
  authWorkers : s.authQueue.Manned AuthWorker.HasLeft s.authWorkers

theorem Staffed.later (h : s.Staffed) (hlater : QueuesLater s t)
    (hworkers : t.workers = s.workers) (hauthWorkers : t.authWorkers = s.authWorkers) :
    t.Staffed :=
  ⟨hworkers ▸ h.workers.later hlater.requests, hauthWorkers ▸ h.authWorkers.later hlater.auths⟩

/-- A normal worker takes a step. -/
theorem Staffed.set {new : NormalWorker} (h : s.Staffed) (hlater : QueuesLater s t)
    (hworkers : t.workers = s.workers.set i new) (hauthWorkers : t.authWorkers = s.authWorkers)
    (hnew : new.HasLeft → s.requestQueue.Finished) : t.Staffed :=
  ⟨hworkers ▸ (h.workers.set i hnew).later hlater.requests,
    hauthWorkers ▸ h.authWorkers.later hlater.auths⟩

/-- An AUTH worker takes a step. -/
theorem Staffed.setAuth {new : AuthWorker} (h : s.Staffed) (hlater : QueuesLater s t)
    (hworkers : t.workers = s.workers) (hauthWorkers : t.authWorkers = s.authWorkers.set i new)
    (hnew : new.HasLeft → s.authQueue.Finished) : t.Staffed :=
  ⟨hworkers ▸ h.workers.later hlater.requests,
    hauthWorkers ▸ (h.authWorkers.set i hnew).later hlater.auths⟩

theorem workerStep_staffed {worker : NormalWorker} {action : WorkerAction} (hs : s.Staffed)
    (hlater : QueuesLater s t) (hworker : s.workers[i]? = some worker)
    (h : workerStep library s i worker action = some t) : t.Staffed := by
  cases workerStep_move h with
  | pop => exact hs.set hlater rfl rfl (by simp [NormalWorker.HasLeft])
  | leave hpop =>
      obtain ⟨hstopped, hitems⟩ := BlockQueue.pop_finished hpop
      exact hs.set hlater rfl rfl fun _ => ⟨hstopped, hitems⟩
  | dispatch env request =>
      obtain ⟨hworkers, hauthWorkers⟩ := enqueueWorkerResponse_workers s request
        (workerResponse library env request) .normalWorker
      refine hs.set hlater (congrArg (List.set · i _) hworkers) hauthWorkers ?_
      split <;> simp [NormalWorker.HasLeft]
  | reject => exact hs.set hlater rfl rfl (by simp [NormalWorker.HasLeft])
  | stopResponses =>
      exact hs.set hlater rfl rfl fun _ =>
        hs.workers.left _ (List.mem_of_getElem? hworker) (.inl rfl)

theorem authWorkerStep_staffed {worker : AuthWorker} {action : AuthAction} (hs : s.Staffed)
    (hlater : QueuesLater s t) (hworker : s.authWorkers[i]? = some worker)
    (h : authWorkerStep library s i worker action = some t) : t.Staffed := by
  cases authWorkerStep_move h with
  | leave hpop =>
      obtain ⟨hstopped, hitems⟩ := BlockQueue.pop_finished hpop
      exact hs.setAuth hlater rfl rfl fun _ => ⟨hstopped, hitems⟩
  | pop | drop | check | handleAuth | reject =>
      exact hs.setAuth hlater rfl rfl (by simp [AuthWorker.HasLeft])
  | offer task reply =>
      obtain ⟨hworkers, hauthWorkers⟩ := enqueueWorkerResponse_workers s task.request
        (authHandling library task.request reply).response .authWorker
      refine hs.setAuth hlater hworkers (congrArg (List.set · i _) hauthWorkers) ?_
      split <;> simp [AuthWorker.HasLeft]
  | stopResponses =>
      exact hs.setAuth hlater rfl rfl fun _ =>
        hs.authWorkers.left _ (List.mem_of_getElem? hworker) (.inl rfl)

theorem step_staffed (hs : s.Staffed) (h : step library s action = some t) : t.Staffed := by
  have hlater := step_later h
  cases step_move h with
  | reactor h =>
      have hframe := reactorStep_frame h
      exact hs.later hlater hframe.workers hframe.authWorkers
  | worker hworker h => exact workerStep_staffed hs hlater hworker h
  | authWorker hworker h => exact authWorkerStep_staffed hs hlater hworker h
  | pullConfig | tick => exact hs.later hlater rfl rfl

theorem StartArgs.workers_pos (args : StartArgs) : args.workers ≠ 0 := by
  unfold StartArgs.workers
  split
  · split <;> omega
  · assumption

theorem staffed (h : Transition.Reachable (gateway library args) s) : s.Staffed := by
  refine Transition.ReachableBy.invariant (I := Staffed) (fun s hinit => ?_)
    (fun s action t _ hs _ hstep => step_staffed hs hstep) h
  obtain ⟨now, hstart⟩ := hinit
  obtain ⟨hcount, -⟩ := Option.ite_none_left_eq_some.mp hstart
  rw [start_eq_some hstart]
  refine ⟨BlockQueue.manned_replicate args.workers_pos (by simp [NormalWorker.HasLeft]),
    BlockQueue.manned_replicate (by tauto) (by simp [AuthWorker.HasLeft])⟩

/-! ## The order of the stops -/

/-- A server that has left the running state has stopped the queues of the
workers, as far as `beginDraining` has come, and the last producer stops the
response queue. -/
structure StopOrder (s : Server) : Prop where
  requests : s.state ≠ .running → s.point ≠ .beginDraining .stopRequests →
    s.requestQueue.stopped = true
  auths : s.state ≠ .running → s.point ≠ .beginDraining .stopRequests →
    s.point ≠ .beginDraining .stopAuth → s.authQueue.stopped = true
  boundary : s.state = .stopped → s.point = .boundary

/-- A step that keeps the state and the point of the reactor. -/
theorem StopOrder.later (h : s.StopOrder) (hlater : QueuesLater s t) (hstate : t.state = s.state)
    (hpoint : t.point = s.point) : t.StopOrder where
  requests hleft hphase :=
    hlater.requests.stopped (h.requests (hstate ▸ hleft) (hpoint ▸ hphase))
  auths hleft hphase hphase' :=
    hlater.auths.stopped (h.auths (hstate ▸ hleft) (hpoint ▸ hphase) (hpoint ▸ hphase'))
  boundary hstopped := hpoint.trans (h.boundary (hstate ▸ hstopped))

/-- A step of a reactor that is not inside `beginDraining`. -/
theorem StopOrder.outside (h : s.StopOrder) (hlater : QueuesLater s t)
    (hstate : t.state ≠ .running → s.state ≠ .running)
    (hpoint : ∀ phase, s.point ≠ .beginDraining phase)
    (hboundary : t.state = .stopped → t.point = .boundary) : t.StopOrder where
  requests hleft _ := hlater.requests.stopped (h.requests (hstate hleft) (hpoint _))
  auths hleft _ _ := hlater.auths.stopped (h.auths (hstate hleft) (hpoint _) (hpoint _))
  boundary := hboundary

theorem StopOrder.of_running (h : s.state = .running) : s.StopOrder where
  requests hleft := absurd h hleft
  auths hleft := absurd h hleft
  boundary hstopped := by cases h.symm.trans hstopped

theorem reactorStep_stopOrder {action : ReactorAction} (hs : s.StopOrder)
    (h : s.reactorStep action = some t) : t.StopOrder := by
  have hlater := reactorStep_later h
  have hsheds : Sheds s t → t.StopOrder := fun hsheds =>
    hs.later hlater hsheds.frame.state hsheds.point
  cases reactorStep_move h with
  | accept fd ctl _ hrunning =>
      have hframe := (handleAccept_affects s fd ctl : Affects False True s _).frame
      exact .of_running (hframe.state.trans hrunning)
  | read fd outcome ticks _ hreadable =>
      have hframe := (handleRead_affects s fd outcome ticks : Affects False True s _).frame
      simp only [readable, Bool.and_eq_true, decide_eq_true_eq] at hreadable
      exact .of_running (hframe.state.trans hreadable.1)
  | enqueueNext frame ctl hpoint =>
      have hstate := (enqueueNext_handled s frame ctl).state
      refine hs.outside hlater (fun hleft => hstate ▸ hleft) (by simp [hpoint]) fun hstopped => ?_
      cases hpoint.symm.trans (hs.boundary (hstate.symm.trans hstopped))
  | hangUp fd ctl => exact hsheds (markReadEof_sheds s fd ctl)
  | write fd outcome ctl =>
      have hframe := (handleWrite_affects s fd outcome ctl : Affects False True s _).frame
      exact hs.later hlater hframe.state (handleWrite_touches s fd outcome ctl).point
  | socketError fd => exact hsheds (closeConnection_sheds s fd)
  | drainResponse response queue ctl =>
      have hsteady := applyResponse_steady { s with responseQueue := queue } response .worker ctl
      exact hs.later hlater hsteady.frame.state hsteady.point
  | drainRejected =>
      have hsheds := drainRejectedResponses_sheds s
      exact hs.later hlater hsheds.frame.state hsheds.point
  | beginDraining => exact ⟨fun _ hphase => absurd rfl hphase, fun _ hphase => absurd rfl hphase,
      by simp⟩
  | beginDrainingNext phase ctl hpoint =>
      have hopen : s.state ≠ .stopped := fun hstopped => by
        cases hpoint.symm.trans (hs.boundary hstopped)
      cases phase with
      | stopRequests =>
          exact ⟨fun _ _ => rfl, fun _ _ hphase => absurd rfl hphase,
            fun hstopped => absurd hstopped hopen⟩
      | stopAuth =>
          exact ⟨fun hleft _ => hs.requests hleft (by simp [hpoint]), fun _ _ _ => rfl,
            fun hstopped => absurd hstopped hopen⟩
      | modifyEvents =>
          have hloop : Sheds { s with point := .boundary }
              (s.beginDrainingNext .modifyEvents ctl) :=
            .foldl (fun s _ => modifyConnectionEvents_sheds s _ _ _) _ _
          have hstate : (s.beginDrainingNext .modifyEvents ctl).state = s.state := hloop.frame.state
          refine ⟨fun hleft _ => ?_, fun hleft _ _ => ?_, fun _ => hloop.point⟩
          · exact hlater.requests.stopped (hs.requests (hstate ▸ hleft) (by simp [hpoint]))
          · exact hlater.auths.stopped
              (hs.auths (hstate ▸ hleft) (by simp [hpoint]) (by simp [hpoint]))
  | drainComplete hboundary hdraining =>
      have hpoint := boundary_of_atBoundary hboundary
      have hkept := (drainComplete_sheds s).point.trans hpoint
      refine hs.outside hlater (fun _ hrunning => ?_) (by simp [hpoint]) fun _ => ?_
      · cases hdraining.symm.trans hrunning
      · split <;> exact hkept
  | deadline hboundary hdraining =>
      have hpoint := boundary_of_atBoundary hboundary
      exact ⟨fun _ _ => rfl, fun _ _ _ => rfl, fun _ => hpoint⟩
  | stopQueues hstopped => exact ⟨fun _ _ => rfl, fun _ _ _ => rfl, fun _ => hs.boundary hstopped⟩
  | closeAll hstopped => exact hsheds (closeAll_sheds s)

theorem step_stopOrder (hs : s.StopOrder) (h : step library s action = some t) : t.StopOrder := by
  rcases step_untouched h with ⟨own, rfl, hown⟩ | huntouched
  · exact reactorStep_stopOrder hs hown
  · exact hs.later (step_later h) huntouched.state huntouched.point

theorem stopOrder (h : Transition.Reachable (gateway library args) s) : s.StopOrder := by
  refine Transition.ReachableBy.invariant (I := StopOrder) (fun s hinit => ?_)
    (fun s action t _ hs _ hstep => step_stopOrder hs hstep) h
  obtain ⟨now, hstart⟩ := hinit
  rw [start_eq_some hstart]
  exact .of_running rfl

/-- The last producer stops the response queue, unless the shutdown does. -/
theorem announced (h : Transition.ReachableBy (gateway library args) BeforeDeadline s)
    (hopen : s.state ≠ .stopped) : s.shared.countdown.Announced := by
  refine h.invariant (I := fun s => s.state ≠ .stopped → s.shared.countdown.Announced)
    (fun s hinit _ hnone => ?_) (fun s action t hreach hs hbefore hstep hopen => ?_) hopen
  · obtain ⟨now, hstart⟩ := hinit
    rw [start_eq_some hstart] at hnone
    have hworkers := args.workers_pos
    simp only [shared, Shared.countdown, started] at hnone
    omega
  · have hwhole : step library s action = some t := hstep
    rcases step_cases hstep with ⟨own, rfl, hstep⟩ | ⟨hturn, -, hstate⟩
    · have hframe := reactorStep_frame hstep
      have hsame := hframe.responseQueue.resolve_right hopen
      have hold : s.state ≠ .stopped := fun hstopped => hopen
        (Left.step ⟨hstopped, (stopOrder hreach.reachable).boundary hstopped⟩ hwhole).1
      have hproducers : t.producers = s.producers := by
        simp only [producers, hframe.workers, hframe.authWorkers]
      have hcountdown : t.shared.countdown = s.shared.countdown := by
        simp only [shared, Shared.countdown, hframe.responseProducersRemaining, hproducers, hsame]
      rw [hcountdown]
      exact hs hold
    · exact hturn.countdown.announced (producersCounted hreach).valid (hs (hstate ▸ hopen))

/-! ## A server without a step of work -/

theorem forall_producers {P : Producer → Prop} (hworkers : ∀ w ∈ s.workers, P w.producer)
    (hauthWorkers : ∀ w ∈ s.authWorkers, P w.producer) : ∀ producer ∈ s.producers, P producer :=
  List.forall_mem_append.mpr
    ⟨List.forall_mem_map.mpr hworkers, List.forall_mem_map.mpr hauthWorkers⟩

section Idle

variable (hidle : Transition.Idle (gateway library args) Works s)
include hidle

/-- The reactor is not inside one of its functions. -/
theorem idle_boundary : s.point = .boundary := by
  cases hpoint : s.point with
  | boundary => rfl
  | enqueue frame =>
      have hnone : s.reactorStep (.enqueueNext true) = none :=
        hidle (.reactor (.enqueueNext true)) trivial
      simp [reactorStep, hpoint] at hnone
  | beginDraining phase =>
      have hnone : s.reactorStep (.beginDrainingNext fun _ => true) = none :=
        hidle (.reactor (.beginDrainingNext fun _ => true)) trivial
      simp [reactorStep, hpoint] at hnone

theorem idle_atBoundary (hopen : s.state ≠ .stopped) : s.atBoundary = true := by
  have hpoint := idle_boundary hidle
  unfold atBoundary
  split <;> simp_all

/-- A worker that does not work has left or waits for an empty queue. -/
theorem idle_worker {worker : NormalWorker} (hmem : worker ∈ s.workers) :
    worker = .exited ∨ worker = .waiting ∧ s.requestQueue.pop = none := by
  obtain ⟨i, hi⟩ := List.mem_iff_getElem?.mp hmem
  have hnone : ∀ action, workerStep library s i worker action = none := by
    intro action
    have hstep : step library s (.worker i action) = none := hidle (.worker i action) trivial
    simpa [step, hi] using hstep
  cases worker with
  | waiting =>
      refine .inr ⟨rfl, ?_⟩
      have hpop := hnone .pop
      simp only [workerStep, popRequest] at hpop
      split at hpop <;> first | assumption | cases hpop
  | handling request => cases hnone (.dispatch ⟨true, {}⟩)
  | refused key => cases hnone .reject
  | stopping => cases hnone .stopResponses
  | exited => exact .inl rfl

theorem idle_authWorker {worker : AuthWorker} (hmem : worker ∈ s.authWorkers) :
    worker = .exited ∨ worker = .waiting ∧ s.authQueue.pop = none := by
  obtain ⟨i, hi⟩ := List.mem_iff_getElem?.mp hmem
  have hnone : ∀ action, authWorkerStep library s i worker action = none := by
    intro action
    have hstep : step library s (.authWorker i action) = none :=
      hidle (.authWorker i action) trivial
    simpa [step, hi] using hstep
  cases worker with
  | waiting =>
      refine .inr ⟨rfl, ?_⟩
      have hpop := hnone .pop
      simp only [authWorkerStep, popAuth] at hpop
      split at hpop <;> first | assumption | cases hpop
  | popped task => cases hnone .testCancellation
  | checking task => cases hnone (.handleAuth .threw)
  | answering task reply => cases hnone .offer
  | refused key => cases hnone .reject
  | stopping => cases hnone .stopResponses
  | exited => exact .inl rfl

theorem idle_requests (hs : s.Staffed) : s.requestQueue.items = [] := by
  obtain ⟨worker, hmem⟩ := List.exists_mem_of_ne_nil _ hs.workers.ne_nil
  rcases idle_worker hidle hmem with rfl | ⟨-, hpop⟩
  · exact (hs.workers.left _ hmem (.inr rfl)).items
  · exact (BlockQueue.pop_eq_none.mp hpop).1

theorem idle_auths (hs : s.Staffed) : s.authQueue.items = [] := by
  obtain ⟨worker, hmem⟩ := List.exists_mem_of_ne_nil _ hs.authWorkers.ne_nil
  rcases idle_authWorker hidle hmem with rfl | ⟨-, hpop⟩
  · exact (hs.authWorkers.left _ hmem (.inr rfl)).items
  · exact (BlockQueue.pop_eq_none.mp hpop).1

theorem idle_responses (hopen : s.state ≠ .stopped) : s.responseQueue.items = [] := by
  have hnone : s.reactorStep (.drainResponse true) = none :=
    hidle (.reactor (.drainResponse true)) trivial
  simp only [reactorStep, if_pos (idle_atBoundary hidle hopen)] at hnone
  split at hnone
  · next hpop => exact BlockQueue.tryPop_eq_none.mp hpop
  · cases hnone

theorem idle_rejected (hopen : s.state ≠ .stopped) : s.rejectedResponseConnections = [] := by
  by_contra hsome
  have hnone : s.reactorStep .drainRejected = none := hidle (.reactor .drainRejected) hsome
  simp [reactorStep, idle_atBoundary hidle hopen] at hnone

/-- Every byte was sent. -/
theorem idle_unsent (hopen : s.state ≠ .stopped) {fd : Fd} {c : Connection}
    (hc : s.connections.lookup fd = some c) : c.unsent = [] := by
  by_contra hsome
  have hpossible : s.sendPossible fd (.sent 1) = true := by
    simpa [sendPossible, hc] using Nat.one_le_iff_ne_zero.mpr (by simpa using hsome)
  have hnone : s.reactorStep (.write fd (.sent 1) true) = none :=
    hidle (.reactor (.write fd (.sent 1) true)) trivial
  simp [reactorStep, idle_atBoundary hidle hopen, hpossible] at hnone

/-- No connection waits for a refused response to be noticed. -/
theorem idle_refusedKeys (hopen : s.state ≠ .stopped) : s.shared.refusedKeys = [] := by
  have hheld : s.producers.filterMap Producer.refused? = [] := by
    refine List.filterMap_eq_nil_iff.mpr (forall_producers (fun worker hworker => ?_)
      fun worker hworker => ?_)
    · rcases idle_worker hidle hworker with rfl | ⟨rfl, -⟩ <;> rfl
    · rcases idle_authWorker hidle hworker with rfl | ⟨rfl, -⟩ <;> rfl
  rw [Shared.refusedKeys]
  exact List.append_eq_nil_iff.mpr ⟨idle_rejected hidle hopen, hheld⟩

/-- No live connection has an item outstanding. -/
theorem idle_outstanding (h : Transition.Reachable (gateway library args) s)
    (hopen : s.state ≠ .stopped) {fd : Fd} {c : Connection}
    (hc : s.connections.lookup fd = some c) : s.outstanding ⟨fd, c.connId⟩ = 0 := by
  have hworkers : s.workers.countP (NormalWorker.holds ⟨fd, c.connId⟩) = 0 := by
    refine List.countP_eq_zero.mpr fun worker hworker => ?_
    rcases idle_worker hidle hworker with rfl | ⟨rfl, -⟩ <;> simp [NormalWorker.holds]
  have hauthWorkers : s.authWorkers.countP (AuthWorker.holds ⟨fd, c.connId⟩) = 0 := by
    refine List.countP_eq_zero.mpr fun worker hworker => ?_
    rcases idle_authWorker hidle hworker with rfl | ⟨rfl, -⟩ <;> simp [AuthWorker.holds]
  have hrefused := refuses_eq_zero_of_notMem h hc (by rw [idle_refusedKeys hidle hopen]; simp)
  rw [outstanding, idle_requests hidle (staffed h), idle_auths hidle (staffed h),
    idle_responses hidle hopen, hworkers, hauthWorkers, hrefused]
  rfl

end Idle

/-- The server has nothing to do, and every frame of a live connection is
answered to the last byte. -/
structure Settled (s : Server) : Prop where
  requests : s.requestQueue.items = []
  auths : s.authQueue.items = []
  responses : s.responseQueue.items = []
  answered : ∀ fd c, s.connections.lookup fd = some c →
    c.inFlightWork = 0 ∧ (transcriptOf s.log ⟨fd, c.connId⟩).Complete

/-- `finishShutdown` has no worker left to wait for and no connection left to
close. -/
structure ShutDown (s : Server) : Prop where
  state : s.state = .stopped
  workers : s.workersExited = true
  connections : s.connections.entries = []
  activeConnections : s.stats.activeConnections = 0

/-- While the server runs, rest means that every request is answered. -/
theorem idle_settled (h : Transition.ReachableBy (gateway library args) BeforeDeadline s)
    (hidle : Transition.Idle (gateway library args) Works s) (hopen : s.state ≠ .stopped) :
    s.Settled where
  requests := idle_requests hidle (staffed h.reachable)
  auths := idle_auths hidle (staffed h.reachable)
  responses := idle_responses hidle hopen
  answered fd c hc := by
    have hpoint := idle_boundary hidle
    have hwork : c.inFlightWork = 0 :=
      (inFlightWork_eq h hpoint hc).trans (idle_outstanding hidle h.reachable hopen hc)
    have hquiet : s.ledger.Quiet := by
      simp [Ledger.Quiet, ledger, intake, admitted, hpoint]
    have htags := ((ledger_accounted h).balanced fd c hc).tags
    rw [(ledger_accounted h).no_items hc hquiet hwork, Multiset.map_zero, add_zero] at htags
    have hstream := ((ledger_sound h.reachable).output fd c hc).stream
    rw [show (s.ledger.session fd c).connection.unsent = [] from idle_unsent hidle hopen hc,
      List.append_nil] at hstream
    rw [← transcriptOf_visible]
    exact ⟨hwork, htags, hstream⟩

/-- A worker of a server that is not running finds its queue stopped, so it does
not wait. -/
theorem idle_exited (h : Transition.Reachable (gateway library args) s)
    (hidle : Transition.Idle (gateway library args) Works s) (hleft : s.state ≠ .running) :
    (∀ worker ∈ s.workers, worker = .exited) ∧ ∀ worker ∈ s.authWorkers, worker = .exited := by
  have hpoint := idle_boundary hidle
  have hrequests := (stopOrder h).requests hleft (by simp [hpoint])
  have hauths := (stopOrder h).auths hleft (by simp [hpoint]) (by simp [hpoint])
  refine ⟨fun worker hmem => (idle_worker hidle hmem).resolve_right fun hwaits => ?_,
    fun worker hmem => (idle_authWorker hidle hmem).resolve_right fun hwaits => ?_⟩
  · cases hrequests.symm.trans (BlockQueue.pop_eq_none.mp hwaits.2).2
  · cases hauths.symm.trans (BlockQueue.pop_eq_none.mp hwaits.2).2

/-- A draining server without work would be one whose work is finished. -/
theorem idle_workFinished (h : Transition.ReachableBy (gateway library args) BeforeDeadline s)
    (hidle : Transition.Idle (gateway library args) Works s) (hdraining : s.state = .draining) :
    s.workFinished = true := by
  have hopen : s.state ≠ .stopped := by simp [hdraining]
  have hpoint := idle_boundary hidle
  have hleft : s.state ≠ .running := by simp [hdraining]
  obtain ⟨hworkers, hauthWorkers⟩ := idle_exited h.reachable hidle hleft
  have hexited : ∀ producer ∈ s.producers, producer = .exited :=
    forall_producers (fun worker hworker => by rw [hworkers worker hworker]; rfl)
      fun worker hworker => by rw [hauthWorkers worker hworker]; rfl
  have hactive : s.producers.countP Producer.isActive = 0 :=
    List.countP_eq_zero.mpr fun producer hmem => by simp [hexited producer hmem, Producer.isActive]
  have hclosing : s.producers.countP Producer.isStopping = 0 :=
    List.countP_eq_zero.mpr fun producer hmem => by
      simp [hexited producer hmem, Producer.isStopping]
  have hnone : s.responseProducersRemaining = 0 :=
    (producersCounted h).valid.remaining.trans hactive
  have hresponses : s.responseQueue.stopped = true :=
    (announced h hopen hnone).resolve_right fun hpos =>
      absurd hpos (Nat.not_lt.mpr (Nat.le_of_eq hclosing))
  have hsettled := idle_settled h hidle hopen
  simp [workFinished, hnone, hresponses, hsettled.requests, hsettled.auths, hsettled.responses,
    idle_rejected hidle hopen, (stopOrder h.reachable).requests hleft (by simp [hpoint]),
    (stopOrder h.reachable).auths hleft (by simp [hpoint]) (by simp [hpoint])]

/-- A draining server always has a step of work. -/
theorem not_idle_draining (h : Transition.ReachableBy (gateway library args) BeforeDeadline s)
    (hdraining : s.state = .draining) : ¬ Transition.Idle (gateway library args) Works s := by
  intro hidle
  have hopen : s.state ≠ .stopped := by simp [hdraining]
  have hfinished := idle_workFinished h hidle hdraining
  have hcompleted : s.completed = s.connections.entries := by
    refine List.filter_eq_self.mpr fun entry hentry => ?_
    have hc : s.connections.lookup entry.1 = some entry.2 := AList.mem_lookup_iff.mpr hentry
    have hwork := ((idle_settled h hidle hopen).answered entry.1 entry.2 hc).1
    have hsent : entry.2.outputBuffer.length ≤ entry.2.writeOffset :=
      List.drop_eq_nil_iff.mp (idle_unsent hidle hopen hc)
    simp [canCloseAfterDrain, hdraining, hwork, hsent]
  have hworks : s.Works (.reactor .drainComplete) := by
    refine ⟨hfinished, ?_⟩
    rw [hcompleted]
    exact (eq_or_ne s.connections.entries []).symm
  have hnone : s.reactorStep .drainComplete = none := hidle (.reactor .drainComplete) hworks
  simp [reactorStep, idle_atBoundary hidle hopen, hdraining] at hnone

/-- A stopped server without work has lost its workers and its connections. -/
theorem idle_shutDown (h : Transition.Reachable (gateway library args) s)
    (hidle : Transition.Idle (gateway library args) Works s) (hstopped : s.state = .stopped) :
    s.ShutDown := by
  obtain ⟨hworkers, hauthWorkers⟩ := idle_exited h hidle (by simp [hstopped])
  have hexited : s.workersExited = true := by
    simp only [workersExited, Bool.and_eq_true, List.all_eq_true]
    exact ⟨fun worker hmem => by rw [hworkers worker hmem],
      fun worker hmem => by rw [hauthWorkers worker hmem]⟩
  have hempty : s.connections.entries = [] := by
    by_contra hsome
    have hnone : s.reactorStep .closeAll = none := hidle (.reactor .closeAll) hsome
    simp [reactorStep, hstopped, hexited] at hnone
  exact ⟨hstopped, hexited, hempty, (numbered h).trans (by rw [hempty]; rfl)⟩

/-- A server at rest has answered everything or is shut down. -/
theorem idle_cases (h : Transition.Reachable (gateway library args) s)
    (hidle : Transition.Idle (gateway library args) Works s) :
    s.state = .running ∧ s.Settled ∨ s.ShutDown := by
  by_cases hstopped : s.state = .stopped
  · exact .inr (idle_shutDown h hidle hstopped)
  · have hbefore := (beforeDeadline_or_left h).resolve_right fun hleft => hstopped hleft.1
    cases hstate : s.state with
    | running => exact .inl ⟨rfl, idle_settled hbefore hidle hstopped⟩
    | draining => exact absurd hidle (not_idle_draining hbefore hstate)
    | stopped => exact absurd hstate hstopped

/-! ## Fair runs -/

/-- Every server has a fair run that takes in nothing. -/
theorem fair_from (library : Json.Library) (args : StartArgs) (s : Server) :
    ∃ path : Transition.Path (gateway library args), path.state 0 = s ∧ path.Fair Works ∧
      ∀ n, (path.label n).isIntake = false := by
  have hrest : ∀ s : Server, (gateway library args).step s (.tick 0) = some s := by
    simp [gateway, Server.step]
  obtain ⟨path, hstart, hfair, hlabel⟩ := Transition.exists_fair Works hrest s
  refine ⟨path, hstart, hfair, fun n => ?_⟩
  rcases hlabel n with hwork | htick
  · cases hn : path.label n with
    | reactor own =>
        rw [hn] at hwork
        cases own with
        | accept | read => exact hwork.elim
        | _ => rfl
    | _ => rfl
  · rw [htick]
    rfl

/-- Reading and accepting are over then. -/
theorem isIntake_of_left (hstep : step library s action = some t) (hleft : s.state ≠ .running) :
    action.isIntake = false := by
  cases action with
  | reactor own =>
      cases reactorStep_move hstep with
      | accept _ _ _ hrunning => exact absurd hrunning hleft
      | read _ _ _ _ hreadable =>
          simp only [readable, Bool.and_eq_true, decide_eq_true_eq] at hreadable
          exact absurd hreadable.1 hleft
      | _ => rfl
  | _ => rfl

/-- Every fair run of a server that has begun to drain ends with the server
stopped, every worker gone and every connection closed, whether or not the
deadline comes first. -/
theorem shutdown_completes {path : Transition.Path (gateway library args)}
    (hstart : Transition.Reachable (gateway library args) (path.state 0))
    (hleft : (path.state 0).state ≠ .running) (hfair : path.Fair Works) :
    ∃ n, ∀ m, n ≤ m → (path.state m).ShutDown := by
  have hreach := path.reachable hstart fun _ => trivial
  have hkept := path.kept (I := fun s => s.state ≠ .running)
    (fun n => (step_later (path.step n)).left) hleft
  have hrank := fun n => step_rank (path.step n) (isIntake_of_left (path.step n) (hkept n))
  obtain ⟨n, hn⟩ := hfair.eventually_idle rank (fun n => (hrank n).1) fun n => (hrank n).2
  refine ⟨n, fun m hm => (idle_cases (hreach m) (hn m hm)).resolve_left fun hrunning => ?_⟩
  exact hkept m hrunning.1

theorem shutdown_completes_finishing :
    ∃ path : Transition.Path (gateway Sample.library Sample.small),
      path.state 0 = Sample.finishing ∧ ∃ n, ∀ m, n ≤ m → (path.state m).ShutDown := by
  obtain ⟨path, hstart, hfair, -⟩ := fair_from Sample.library Sample.small Sample.finishing
  refine ⟨path, hstart, shutdown_completes ?_ ?_ hfair⟩ <;> rw [hstart]
  · exact Sample.finishing_reachable.reachable
  · decide +kernel

end Server

end GatewaySystem
