import GatewaySystem.Net.Tables

/-!
# The counters of the gateway

The counters of `StatsManager` are incremented by the reactor and by the workers,
on every path that ends a connection, refuses a response or finishes an AUTH
task. They are compared here with what they count. The number of connections is
in the table. The tasks that were offered to the AUTH queue, and those that the
deadline of the shutdown discarded, are nowhere in the program: `Tally` counts
them beside it.
-/

namespace GatewaySystem

/-- The counters of AUTH tasks and of refused responses. -/
structure WorkCounters where
  responseQueueRejected : ℕ
  responseQueueRejectedNormal : ℕ
  responseQueueRejectedAuth : ℕ
  authTasksCancelledBeforeStart : ℕ
  authAllowed : ℕ
  authDenied : ℕ
  authUnavailable : ℕ
  authDurationCount : ℕ

def Stats.work (stats : Stats) : WorkCounters where
  responseQueueRejected := stats.responseQueueRejected
  responseQueueRejectedNormal := stats.responseQueueRejectedNormal
  responseQueueRejectedAuth := stats.responseQueueRejectedAuth
  authTasksCancelledBeforeStart := stats.authTasksCancelledBeforeStart
  authAllowed := stats.authAllowed
  authDenied := stats.authDenied
  authUnavailable := stats.authUnavailable
  authDurationCount := stats.authDurationCount

/-- The answered calls of `handleAuth`, and the tasks the queue refused. -/
def WorkCounters.recorded (counters : WorkCounters) : ℕ :=
  counters.authAllowed + counters.authDenied + counters.authUnavailable

/-- The worker has a task whose result is not recorded. -/
def AuthWorker.unrecorded : AuthWorker → Bool
  | .popped _ | .checking _ => true
  | _ => false

namespace Server

variable {library : Json.Library} {args : StartArgs} {reads : Prop} {s t : Server} {fd : Fd}
  {c : Connection}

/-- The tasks AUTH workers hold and have not recorded. -/
def heldTasks (s : Server) : ℕ := s.authWorkers.countP AuthWorker.unrecorded

/-! ## The connections -/

/-- The counter of the connections is the size of the table. -/
def Numbered (s : Server) : Prop := s.stats.activeConnections = s.connections.entries.length

theorem length_erase (connections : AList fun _ : Fd => Connection) (h : fd ∈ connections) :
    (connections.erase fd).entries.length + 1 = connections.entries.length := by
  obtain ⟨c, before, behind, -, hentries, herased⟩ := List.exists_of_kerase h
  have hlength := congrArg List.length hentries
  have hrest : (connections.erase fd).entries = before ++ behind := herased
  rw [hrest, hlength]
  simp only [List.length_append, List.length_cons]
  omega

theorem length_insert_of_mem (connections : AList fun _ : Fd => Connection)
    (h : fd ∈ connections) (c : Connection) :
    (connections.insert fd c).entries.length = connections.entries.length := by
  rw [AList.entries_insert]
  exact length_erase connections h

theorem mem_of_lookup (h : s.connections.lookup fd = some c) : fd ∈ s.connections :=
  AList.lookup_isSome.mp (h ▸ rfl)

theorem TableStep.numbered (h : TableStep reads fd s t) (hs : s.Numbered) : t.Numbered := by
  cases h with
  | other h =>
      unfold Numbered
      rw [h.activeConnections, h.connections]
      exact hs
  | update hold =>
      exact hs.trans (length_insert_of_mem _ (mem_of_lookup hold) _).symm
  | close =>
      cases hc : s.connections.lookup fd with
      | none =>
          rw [closeConnection_none hc]
          exact hs
      | some c =>
          obtain ⟨cancelled, windows, log, heq, -⟩ := closeConnection_eq hc
          have herase := length_erase s.connections (mem_of_lookup hc)
          rw [heq]
          unfold Numbered at hs ⊢
          simp only
          omega
  | register => exact hs
  | @allow own _ _ tick =>
      obtain ⟨-, hconnections, -, hstats⟩ :=
        allowRequestForClient_table s own.clientId s.runtimeConfig tick
      unfold Numbered
      rw [hconnections, hstats]
      exact hs

theorem Change.numbered (h : Change reads s t) (hs : s.Numbered) : t.Numbered := by
  cases h with
  | table h => exact h.numbered hs
  | outside h =>
      unfold Numbered
      rw [h.activeConnections, h.connections]
      exact hs
  | @accept fd hfree ctl =>
      cases ctl with
      | false => exact hs
      | true =>
          have hnot : fd ∉ s.connections := AList.lookup_eq_none.mp hfree
          refine (congrArg (· + 1) hs).trans ?_
          exact (congrArg List.length (AList.entries_insert_of_notMem hnot)).symm

theorem numbered (h : Transition.Reachable (gateway library args) s) : s.Numbered :=
  tables_invariant (fun _ => rfl) (fun _ _ hchange => hchange.numbered)
    (fun _ _ huntouched hs => by
      unfold Numbered
      rw [huntouched.activeConnections, huntouched.connections]
      exact hs) h

/-! ## What the reactor does not count -/

@[simp] theorem closeConnection_work (s : Server) (fd : Fd) :
    (s.closeConnection fd).stats.work = s.stats.work := by
  cases hc : s.connections.lookup fd with
  | none => rw [closeConnection_none hc]
  | some c =>
      obtain ⟨cancelled, windows, log, heq, -⟩ := closeConnection_eq hc
      rw [heq]
      rfl

@[simp] theorem modifyConnectionEvents_work (s : Server) (fd : Fd) (events : Interest)
    (ctl : Bool) : (s.modifyConnectionEvents fd events ctl).stats.work = s.stats.work := by
  cases ctl with
  | true => rfl
  | false => exact closeConnection_work s fd

@[simp] theorem closeDrained_work (s : Server) (fd : Fd) (c : Connection) :
    (s.closeDrained fd c).stats.work = s.stats.work :=
  closeConnection_work _ fd

@[simp] theorem maybeCloseAfterDrain_work (s : Server) (fd : Fd) :
    (s.maybeCloseAfterDrain fd).stats.work = s.stats.work := by
  unfold maybeCloseAfterDrain
  split
  · rfl
  · split
    · exact closeDrained_work ..
    · rfl

@[simp] theorem finishWrite_work (s : Server) (fd : Fd) (c : Connection) (ctl : Bool) :
    (s.finishWrite fd c ctl).stats.work = s.stats.work := by
  unfold finishWrite
  split
  · exact closeDrained_work ..
  · exact modifyConnectionEvents_work ..

@[simp] theorem markReadEof_work (s : Server) (fd : Fd) (ctl : Bool) :
    (s.markReadEof fd ctl).stats.work = s.stats.work := by
  unfold markReadEof
  split
  · rfl
  · split
    · exact maybeCloseAfterDrain_work ..
    · exact finishWrite_work ..

@[simp] theorem handleWrite_work (s : Server) (fd : Fd) (outcome : SendOutcome) (ctl : Bool) :
    (s.handleWrite fd outcome ctl).stats.work = s.stats.work := by
  unfold handleWrite
  split
  · rfl
  · split
    · exact finishWrite_work ..
    · cases outcome with
      | sent count =>
          simp only
          split
          · exact finishWrite_work ..
          · rfl
      | interrupted | again => rfl
      | failed => exact closeConnection_work ..

theorem authenticate_work (s : Server) (current : Connection) (response : Response) :
    (s.authenticate current response).1.stats.work = s.stats.work := by
  unfold authenticate
  split
  · split <;> rfl
  · split <;> rfl

@[simp] theorem deliver_work (s : Server) (fd : Fd) (current : Connection) (response : Response)
    (ctl : Bool) : (s.deliver fd current response ctl).stats.work = s.stats.work := by
  unfold deliver
  split
  · exact closeConnection_work ..
  · split
    · exact closeConnection_work ..
    · exact modifyConnectionEvents_work ..

@[simp] theorem applyResponse_work (s : Server) (response : Response) (origin : ResponseOrigin)
    (ctl : Bool) : (s.applyResponse response origin ctl).stats.work = s.stats.work := by
  unfold applyResponse
  split
  · rfl
  · split
    · rfl
    · exact (deliver_work ..).trans (authenticate_work ..)

theorem closeRejected_work (s : Server) (key : ConnectionKey) :
    (s.closeRejected key).stats.work = s.stats.work := by
  unfold closeRejected
  split
  · exact closeConnection_work ..
  · rfl

theorem foldl_work {α : Type*} {f : Server → α → Server}
    (hf : ∀ s a, (f s a).stats.work = s.stats.work) (items : List α) (s : Server) :
    (items.foldl f s).stats.work = s.stats.work := by
  refine Transition.related_foldl (R := fun s t : Server => t.stats.work = s.stats.work)
    (fun _ => rfl) ?_ hf items s
  intro s t u h h'
  exact h'.trans h

theorem decodeAndEnqueue_work (s : Server) (fd : Fd) (readEof : Bool) (ticks : List ℕ) :
    (s.decodeAndEnqueue fd readEof ticks).stats.work = s.stats.work := by
  unfold decodeAndEnqueue
  split
  · rfl
  · next current hcurrent =>
      simp only
      generalize ProtocolCodec.decode current.inputBuffer current.fd current.connId
        (toUInt32 s.runtimeConfig.maxPayloadSize) = decoded
      generalize hstart : Intake.start s fd current decoded.2.1 _ _ = start
      have hstats : (intakeFrames s.runtimeConfig start decoded.2.1 ticks).server.stats =
          s.stats := by
        subst hstart
        exact (intakeFrames_kept ..).stats
      split
      · exact (closeConnection_work ..).trans (congrArg Stats.work hstats)
      · exact congrArg Stats.work hstats

theorem handleRead_work (s : Server) (fd : Fd) (outcome : RecvOutcome) (ticks : List ℕ) :
    (s.handleRead fd outcome ticks).stats.work = s.stats.work := by
  unfold handleRead
  split
  · rfl
  · cases outcome with
    | data bytes => exact decodeAndEnqueue_work ..
    | eof | again => exact decodeAndEnqueue_work ..
    | interrupted => rfl
    | failed => exact closeConnection_work ..

/-! ## The books of a step -/

/-- What a step means to the books: every task it takes in is queued, held or
recorded, every recorded call has a duration, and every refused response has
its producer. -/
structure Booked (offered discarded : ℕ) (s t : Server) : Prop where
  tasks : t.stats.work.recorded + t.stats.work.authTasksCancelledBeforeStart +
      t.authQueue.items.length + t.heldTasks + discarded =
    s.stats.work.recorded + s.stats.work.authTasksCancelledBeforeStart +
      s.authQueue.items.length + s.heldTasks + offered
  durations : t.stats.work.authDurationCount + s.stats.work.recorded =
    s.stats.work.authDurationCount + t.stats.work.recorded
  rejected : t.stats.work.responseQueueRejected +
      (s.stats.work.responseQueueRejectedNormal + s.stats.work.responseQueueRejectedAuth) =
    s.stats.work.responseQueueRejected +
      (t.stats.work.responseQueueRejectedNormal + t.stats.work.responseQueueRejectedAuth)

theorem Booked.of_eq (hwork : t.stats.work = s.stats.work)
    (hqueue : t.authQueue.items = s.authQueue.items) (hworkers : t.authWorkers = s.authWorkers) :
    Booked 0 0 s t := by
  refine ⟨?_, ?_, ?_⟩
  · rw [hwork, hqueue, heldTasks, hworkers, heldTasks]
  · rw [hwork]
  · rw [hwork]

/-- Code for the connections. -/
theorem Booked.of_affects (h : Affects False True s t) (hwork : t.stats.work = s.stats.work) :
    Booked 0 0 s t :=
  .of_eq hwork (by rw [h.frame.authQueue]) h.frame.authWorkers

/-- The tasks a step offers to the AUTH queue. -/
def tasksOffered (s : Server) : Action → ℕ
  | .reactor (.enqueueNext _) =>
      match s.point with
      | .enqueue { admitted := none, tasks := _ :: _, .. } => 1
      | _ => 0
  | _ => 0

/-- The tasks a step discards. -/
def tasksDiscarded (s : Server) : Action → ℕ
  | .reactor .deadline => s.authQueue.abort.1
  | _ => 0

/-- A task that is offered is queued or recorded as refused. -/
theorem enqueueTask_booked (s : Server) (frame : Enqueue) (task : AuthTask) :
    Booked 1 0 s (s.enqueueTask frame task) := by
  unfold enqueueTask
  simp only
  split
  · next hok =>
      have hlength := congrArg List.length (BlockQueue.push_ok hok).2.2
      rw [List.length_append] at hlength
      refine ⟨?_, rfl, rfl⟩
      show _ + (s.authQueue.push task).2.items.length + _ + _ = _
      rw [hlength]
      simp only [emit, heldTasks, List.length_singleton]
      omega
  · refine ⟨?_, ?_, rfl⟩
    · simp only [Stats.work, Stats.recordAuthResult, WorkCounters.recorded, heldTasks]
      omega
    · simp only [Stats.work, Stats.recordAuthResult, WorkCounters.recorded]
      omega

theorem countAdmitted_work (s : Server) (frame : Enqueue) (key : ConnectionKey) :
    (s.countAdmitted frame key).stats.work = s.stats.work := by
  unfold countAdmitted
  simp only
  split <;> rfl

theorem enqueueRequest_booked (s : Server) (frame : Enqueue) (request : Request) :
    Booked 0 0 s (s.enqueueRequest frame request) := by
  unfold enqueueRequest
  simp only
  split <;> exact .of_eq rfl rfl rfl

theorem enqueueNext_booked {frame : Enqueue} (hpoint : s.point = .enqueue frame) (ctl : Bool) :
    Booked (s.tasksOffered (.reactor (.enqueueNext ctl))) 0 s (s.enqueueNext frame ctl) := by
  have hback : ∀ {t : Server} (point : ReactorPoint), Booked 0 0 { s with point := point } t →
      Booked 0 0 s t := fun _ h => ⟨h.tasks, h.durations, h.rejected⟩
  obtain ⟨fd, tasks, requests, responses, admitted, eof⟩ := frame
  simp only [tasksOffered, hpoint]
  cases admitted with
  | some key =>
      cases tasks <;> exact .of_affects (countAdmitted_affects ..) (countAdmitted_work ..)
  | none =>
      cases tasks with
      | cons task tasks => exact enqueueTask_booked ..
      | nil =>
          cases requests with
          | cons request requests => exact enqueueRequest_booked ..
          | nil =>
              cases responses with
              | cons response responses =>
                  exact hback _ (.of_affects (applyResponse_affects ..) (applyResponse_work ..))
              | nil =>
                  cases eof with
                  | true =>
                      exact hback _ (.of_affects (markReadEof_affects ..) (markReadEof_work ..))
                  | false => exact hback .boundary (.of_eq rfl rfl rfl)

/-- The books of a step of the reactor. -/
theorem reactorStep_booked {own : ReactorAction} (h : s.reactorStep own = some t) :
    Booked (s.tasksOffered (.reactor own)) (s.tasksDiscarded (.reactor own)) s t := by
  cases reactorStep_move h with
  | accept fd ctl => cases ctl <;> exact .of_eq rfl rfl rfl
  | read => exact .of_affects (handleRead_affects ..) (handleRead_work ..)
  | enqueueNext frame ctl hpoint => exact enqueueNext_booked hpoint ctl
  | hangUp => exact .of_affects (markReadEof_affects ..) (markReadEof_work ..)
  | write => exact .of_affects (handleWrite_affects ..) (handleWrite_work ..)
  | socketError => exact .of_affects (closeConnection_affects ..) (closeConnection_work ..)
  | drainResponse response queue ctl =>
      have hbooked : Booked 0 0 { s with responseQueue := queue } _ :=
        .of_affects (applyResponse_affects ..) (applyResponse_work _ response .worker ctl)
      exact ⟨hbooked.tasks, hbooked.durations, hbooked.rejected⟩
  | drainRejected =>
      have hbooked : Booked 0 0 { s with rejectedResponseConnections := [] }
          s.drainRejectedResponses :=
        .of_affects (foldl_affects closeRejected_affects _ _) (foldl_work closeRejected_work _ _)
      exact ⟨hbooked.tasks, hbooked.durations, hbooked.rejected⟩
  | beginDrainingNext phase ctl =>
      cases phase with
      | stopRequests | stopAuth => exact .of_eq rfl rfl rfl
      | modifyEvents =>
          have hbooked : Booked 0 0 { s with point := .boundary }
              (s.beginDrainingNext .modifyEvents ctl) :=
            .of_affects (foldl_affects (fun s _ => modifyConnectionEvents_affects s ..) _ _)
              (foldl_work (fun s _ => modifyConnectionEvents_work s ..) _ _)
          exact ⟨hbooked.tasks, hbooked.durations, hbooked.rejected⟩
  | drainComplete =>
      have hwork : s.drainComplete.2.stats.work = s.stats.work := by
        unfold drainComplete
        split
        · exact foldl_work (fun s _ => closeDrained_work s ..) _ s
        · rfl
      have hbooked : Booked 0 0 s s.drainComplete.2 := .of_affects (drainComplete_affects s) hwork
      split
      · exact ⟨hbooked.tasks, hbooked.durations, hbooked.rejected⟩
      · exact hbooked
  | deadline =>
      refine ⟨?_, rfl, rfl⟩
      simp only [abortQueues, tasksDiscarded, tasksOffered, BlockQueue.abort, heldTasks,
        List.length_nil]
      omega
  | beginDraining | stopQueues => exact .of_eq rfl rfl rfl
  | closeAll => exact .of_affects (closeAll_affects s) (foldl_work closeConnection_work _ s)

/-! ## The workers -/

/-- A response that is refused is counted for its producer. -/
theorem enqueueWorkerResponse_booked (s : Server) (request : Request) (response : Response)
    (producer : ResponseProducer) :
    Booked 0 0 s (s.enqueueWorkerResponse request response producer).2 := by
  unfold enqueueWorkerResponse
  simp only
  split
  · exact .of_eq rfl rfl rfl
  · cases producer with
    | normalWorker =>
        refine ⟨rfl, rfl, ?_⟩
        simp only [emit, countRejected, Stats.work]
        omega
    | authWorker =>
        refine ⟨rfl, rfl, ?_⟩
        simp only [emit, countRejected, Stats.work]
        omega

theorem workerStep_booked {i : ℕ} {worker : NormalWorker} {action : WorkerAction}
    (h : workerStep library s i worker action = some t) : Booked 0 0 s t := by
  cases workerStep_move h with
  | dispatch env request =>
      have hbooked := enqueueWorkerResponse_booked s request
        (workerResponse library env request) .normalWorker
      exact ⟨hbooked.tasks, hbooked.durations, hbooked.rejected⟩
  | _ => exact .of_eq rfl rfl rfl

/-- A step of an AUTH worker replaces its state; the rest of the books is given
by the other side of the equation. -/
theorem Booked.of_turn {i : ℕ} {old worker : AuthWorker} (hold : s.authWorkers[i]? = some old)
    (hworkers : t.authWorkers = s.authWorkers.set i worker)
    (htasks : t.stats.work.recorded + t.stats.work.authTasksCancelledBeforeStart +
        t.authQueue.items.length + (if worker.unrecorded then 1 else 0) =
      s.stats.work.recorded + s.stats.work.authTasksCancelledBeforeStart +
        s.authQueue.items.length + (if old.unrecorded then 1 else 0))
    (hdurations : t.stats.work.authDurationCount + s.stats.work.recorded =
      s.stats.work.authDurationCount + t.stats.work.recorded)
    (hrejected : t.stats.work.responseQueueRejected +
        (s.stats.work.responseQueueRejectedNormal + s.stats.work.responseQueueRejectedAuth) =
      s.stats.work.responseQueueRejected +
        (t.stats.work.responseQueueRejectedNormal + t.stats.work.responseQueueRejectedAuth)) :
    Booked 0 0 s t := by
  refine ⟨?_, hdurations, hrejected⟩
  have hheld := Pool.countP_set AuthWorker.unrecorded hold worker
  unfold heldTasks
  rw [hworkers]
  omega

/-- The result of a call is recorded once, with its duration. -/
theorem recordAuthResult_work (stats : Stats) (outcome : Business.AuthOutcome) :
    (stats.recordAuthResult outcome).work.recorded = stats.work.recorded + 1 ∧
      (stats.recordAuthResult outcome).work.authDurationCount =
        stats.work.authDurationCount + 1 ∧
      (stats.recordAuthResult outcome).work.authTasksCancelledBeforeStart =
        stats.work.authTasksCancelledBeforeStart ∧
      (stats.recordAuthResult outcome).work.responseQueueRejected =
        stats.work.responseQueueRejected ∧
      (stats.recordAuthResult outcome).work.responseQueueRejectedNormal =
        stats.work.responseQueueRejectedNormal ∧
      (stats.recordAuthResult outcome).work.responseQueueRejectedAuth =
        stats.work.responseQueueRejectedAuth := by
  refine ⟨?_, ?_, ?_, ?_, ?_, ?_⟩ <;> cases outcome <;>
    simp only [Stats.recordAuthResult, Stats.work, WorkCounters.recorded]
  all_goals omega

theorem authWorkerStep_booked {i : ℕ} {old : AuthWorker} {action : AuthAction}
    (hold : s.authWorkers[i]? = some old)
    (h : authWorkerStep library s i old action = some t) : Booked 0 0 s t := by
  cases authWorkerStep_move h with
  | pop hpop =>
      have hlength := congrArg List.length (BlockQueue.pop_item hpop).1
      refine .of_turn hold rfl ?_ rfl rfl
      rw [hlength]
      simp only [setAuthWorker, AuthWorker.unrecorded, List.length_cons, if_true,
        Bool.false_eq_true, if_false]
      omega
  | leave =>
      refine .of_turn hold rfl ?_ rfl rfl
      split <;> rfl
  | drop task =>
      refine .of_turn hold rfl ?_ rfl rfl
      simp only [setAuthWorker, Stats.work, WorkCounters.recorded, AuthWorker.unrecorded,
        if_true, Bool.false_eq_true, if_false]
      omega
  | handleAuth task reply =>
      obtain ⟨hrecorded, hduration, hcancelled, hrejected, hnormal, hauth⟩ :=
        recordAuthResult_work s.stats (authHandling library task.request reply).outcome
      refine .of_turn hold rfl ?_ ?_ ?_ <;>
        simp only [finishAuth, setAuthWorker, hrecorded, hduration, hcancelled, hrejected,
          hnormal, hauth, AuthWorker.unrecorded, if_true, Bool.false_eq_true, if_false]
      · omega
      · omega
  | offer task reply =>
      have hbooked := enqueueWorkerResponse_booked s task.request
        (authHandling library task.request reply).response .authWorker
      obtain ⟨-, hworkers⟩ := enqueueWorkerResponse_workers s task.request
        (authHandling library task.request reply).response .authWorker
      have htasks := hbooked.tasks
      rw [heldTasks, heldTasks, hworkers] at htasks
      refine .of_turn hold (congrArg (List.set · i _) hworkers) ?_ hbooked.durations
        hbooked.rejected
      -- whether the response was accepted or not, the worker has no task left
      split <;>
      · simp only [offerAuth, setAuthWorker, AuthWorker.unrecorded, Bool.false_eq_true,
          if_false]
        omega
  | check | reject | stopResponses => exact .of_turn hold rfl rfl rfl rfl

/-- The books of a step. -/
theorem step_booked {action : Action} (h : step library s action = some t) :
    Booked (s.tasksOffered action) (s.tasksDiscarded action) s t := by
  cases step_move h with
  | reactor h => exact reactorStep_booked h
  | worker _ h => exact workerStep_booked h
  | authWorker hworker h => exact authWorkerStep_booked hworker h
  | pullConfig | tick => exact .of_eq rfl rfl rfl

end Server

/-! ## Runs -/

/-- A server with the number of the tasks that were ever offered to its AUTH
queue, and of those that were discarded. -/
structure Tally where
  server : Server
  offered : ℕ
  discarded : ℕ

/-- The gateway with its tally. -/
def tally (library : Json.Library) (args : Server.StartArgs) : Transition.System Tally Action where
  init r := ∃ s, (gateway library args).init s ∧ r = ⟨s, 0, 0⟩
  step r action := (Server.step library r.server action).map fun t =>
    { server := t
      offered := r.offered + r.server.tasksOffered action
      discarded := r.discarded + r.server.tasksDiscarded action }

namespace Tally

variable {library : Json.Library} {args : Server.StartArgs} {r : Tally}

theorem server_reachable (h : Transition.Reachable (tally library args) r) :
    Transition.Reachable (gateway library args) r.server := by
  refine Transition.ReachableBy.invariant
    (I := fun r => Transition.Reachable (gateway library args) r.server) ?_ ?_ h
  · rintro r ⟨s, hs, rfl⟩
    exact .init hs
  · intro r action r' _ hserver hok hstep
    obtain ⟨t, ht, rfl⟩ := Option.map_eq_some_iff.mp hstep
    exact .step hserver hok ht

/-- The counters agree with what they count. -/
structure Conserved (r : Tally) : Prop where
  tasks : r.offered = r.server.stats.work.recorded +
    r.server.stats.work.authTasksCancelledBeforeStart + r.server.authQueue.items.length +
    r.server.heldTasks + r.discarded
  durations : r.server.stats.work.authDurationCount = r.server.stats.work.recorded
  rejected : r.server.stats.work.responseQueueRejected =
    r.server.stats.work.responseQueueRejectedNormal +
      r.server.stats.work.responseQueueRejectedAuth

theorem conserved (h : Transition.Reachable (tally library args) r) : Conserved r := by
  refine Transition.ReachableBy.invariant (I := Conserved) ?_ ?_ h
  · rintro r ⟨s, ⟨now, hstart⟩, rfl⟩
    rw [Server.start_eq_some hstart]
    refine ⟨?_, rfl, rfl⟩
    have hheld : (Server.started args now).heldTasks = 0 :=
      List.countP_replicate.trans (if_neg nofun)
    simp only [hheld]
    rfl
  · intro r action r' _ hr _ hstep
    obtain ⟨t, ht, rfl⟩ := Option.map_eq_some_iff.mp hstep
    have hbooked := Server.step_booked ht
    have htasks := hr.tasks
    have hdurations := hr.durations
    have hrejected := hr.rejected
    refine ⟨?_, ?_, ?_⟩
    · have hstep := hbooked.tasks
      simp only
      omega
    · have hstep := hbooked.durations
      simp only
      omega
    · have hstep := hbooked.rejected
      simp only
      omega

end Tally

/-- The counter of the connections is the size of the table, every refused
response is counted for its producer, every AUTH task that was offered is
recorded, cancelled, queued, held or discarded, and every recorded result has a
duration. -/
theorem Tally.statistics_conserved {library : Json.Library} {args : Server.StartArgs} {r : Tally}
    (h : Transition.Reachable (tally library args) r) :
    r.server.stats.activeConnections = r.server.connections.entries.length ∧
    r.server.stats.responseQueueRejected =
      r.server.stats.responseQueueRejectedNormal + r.server.stats.responseQueueRejectedAuth ∧
    r.offered = r.server.stats.authAllowed + r.server.stats.authDenied +
      r.server.stats.authUnavailable + r.server.stats.authTasksCancelledBeforeStart +
      r.server.authQueue.items.length + r.server.heldTasks + r.discarded ∧
    r.server.stats.authDurationCount = r.server.stats.authAllowed + r.server.stats.authDenied +
      r.server.stats.authUnavailable :=
  ⟨Server.numbered (Tally.server_reachable h), (Tally.conserved h).rejected,
    (Tally.conserved h).tasks, (Tally.conserved h).durations⟩

namespace Sample

/-- The task of one client was answered, and another client is gone before its
task is tested. -/
def counted : Tally :=
  ((tally library {}).run ⟨Server.started {} 0, 0, 0⟩ (authentication ++
    [.reactor (.accept 6 true), .reactor (.read 6 (.data (frame 10 9)) []),
      .reactor (.enqueueNext true), .reactor (.enqueueNext true), .reactor (.enqueueNext true),
      .reactor (.socketError 6), .authWorker 0 .pop, .authWorker 0 .testCancellation])).get
      (by decide +kernel)

theorem counted_reachable : Transition.Reachable (tally library {}) counted :=
  Transition.System.run_reachable (.init ⟨_, ⟨0, rfl⟩, rfl⟩) (fun _ _ _ => trivial)
    (Option.some_get _).symm

end Sample

theorem Tally.statistics_conserved_counted :
    (Sample.counted.offered = 2 ∧ Sample.counted.server.stats.authAllowed = 1 ∧
      Sample.counted.server.stats.authTasksCancelledBeforeStart = 1) ∧
    Sample.counted.offered = Sample.counted.server.stats.authAllowed +
      Sample.counted.server.stats.authDenied + Sample.counted.server.stats.authUnavailable +
      Sample.counted.server.stats.authTasksCancelledBeforeStart +
      Sample.counted.server.authQueue.items.length + Sample.counted.server.heldTasks +
      Sample.counted.discarded :=
  ⟨by decide +kernel, (Tally.statistics_conserved Sample.counted_reachable).2.2.1⟩

end GatewaySystem
