import GatewaySystem.Lib.Liveness
import GatewaySystem.Lib.Table
import GatewaySystem.Net.Statistics
import Mathlib.Data.Prod.Lex

/-!
# The work of the gateway comes to an end

Every item on its way through the gateway has a weight that falls with each
thing that is done to it. With the connections, the points of the threads and
the state of the server this is the `activity`, and the unsent bytes of all
connections are the `backlog`. An answer turns an item into bytes, so the two
are compared in this order. Only a new connection and input that is read raise
the rank, and the steps that do work lower it.
-/

namespace GatewaySystem

def NormalWorker.weight : NormalWorker → ℕ
  | .handling _ => 5
  | .refused _ => 4
  | .waiting => 2
  | .stopping => 1
  | .exited => 0

def AuthWorker.weight : AuthWorker → ℕ
  | .popped _ => 7
  | .checking _ => 6
  | .answering _ _ => 5
  | .refused _ => 4
  | .waiting => 2
  | .stopping => 1
  | .exited => 0

def Enqueue.weight (frame : Enqueue) : ℕ :=
  8 * frame.tasks.length + 6 * frame.requests.length + frame.responses.length +
    (if frame.admitted.isSome then 1 else 0) + 1

def ReactorPoint.weight : ReactorPoint → ℕ
  | .boundary => 0
  | .enqueue frame => frame.weight
  | .beginDraining .stopRequests => 3
  | .beginDraining .stopAuth => 2
  | .beginDraining .modifyEvents => 1

@[simp] theorem ReactorPoint.weight_enqueue (frame : Enqueue) :
    (ReactorPoint.enqueue frame).weight = frame.weight := rfl

def ServerState.weight : ServerState → ℕ
  | .running => 5
  | .draining => 1
  | .stopped => 0

/-- What brings new work: a connection and input that is read from one. -/
def Action.isIntake : Action → Bool
  | .reactor (.accept _ _) | .reactor (.read _ _ _) => true
  | _ => false

namespace Server

variable {library : Json.Library} {s t u : Server} {fd : Fd} {c : Connection}

/-- The bytes the kernel has not taken, of all connections. -/
def backlog (s : Server) : ℕ := Table.total (fun c => c.unsent.length) s.connections

/-- What is on its way through the gateway, weighted. -/
def activity (s : Server) : ℕ :=
  s.state.weight + s.point.weight + 4 * s.requestQueue.items.length +
    6 * s.authQueue.items.length + s.responseQueue.items.length +
    s.rejectedResponseConnections.length + (s.workers.map NormalWorker.weight).sum +
    (s.authWorkers.map AuthWorker.weight).sum + s.connections.entries.length

def rank (s : Server) : ℕ ×ₗ ℕ := toLex (s.activity, s.backlog)

/-- The steps that do work: every step of a worker, the reactor's next access to
a queue, an answer, a byte sent, and a close that the shutdown waits for. -/
def Works (s : Server) : Action → Prop
  | .worker _ _ | .authWorker _ _ => True
  | .reactor (.enqueueNext _) | .reactor (.beginDrainingNext _) => True
  | .reactor (.drainResponse _) | .reactor (.write _ (.sent _) _) => True
  | .reactor .drainRejected => s.rejectedResponseConnections ≠ []
  | .reactor .drainComplete =>
      s.workFinished = true ∧ (s.completed ≠ [] ∨ s.connections.entries = [])
  | .reactor .closeAll => s.connections.entries ≠ []
  | _ => False

theorem rank_le_of (hactivity : t.activity ≤ s.activity) (hbacklog : t.backlog ≤ s.backlog) :
    t.rank ≤ s.rank :=
  Prod.Lex.toLex_mono ⟨hactivity, hbacklog⟩

theorem rank_lt_of_activity (h : t.activity < s.activity) : t.rank < s.rank :=
  Prod.Lex.toLex_lt_toLex.mpr (.inl h)

/-- A step down, whatever the step does. -/
theorem lowers {P : Prop} (h : t.activity < s.activity) : t.rank ≤ s.rank ∧ (P → t.rank < s.rank) :=
  ⟨(rank_lt_of_activity h).le, fun _ => rank_lt_of_activity h⟩

theorem rank_lt_of_backlog (hactivity : t.activity ≤ s.activity) (h : t.backlog < s.backlog) :
    t.rank < s.rank :=
  Prod.Lex.toLex_strictMono (Prod.mk_lt_mk.mpr (.inr ⟨hactivity, h⟩))

/-! ## The code for the connections -/

/-- It adds no connection and leaves the queues and the threads alone. -/
structure Steady (s t : Server) : Prop where
  frame : Frame s t
  point : t.point = s.point
  size : t.connections.entries.length ≤ s.connections.entries.length

/-- It adds no output either. -/
structure Sheds (s t : Server) : Prop extends Steady s t where
  backlog : t.backlog ≤ s.backlog

theorem Steady.trans (h : Steady s t) (h' : Steady t u) : Steady s u :=
  ⟨h.frame.trans h'.frame, h'.point.trans h.point, h'.size.trans h.size⟩

theorem Steady.activity_add (h : Steady s t) :
    t.activity + s.connections.entries.length = s.activity + t.connections.entries.length := by
  unfold activity
  rw [h.frame.state, h.point, h.frame.requestQueue, h.frame.authQueue, h.frame.responseQueue,
    h.frame.rejected, h.frame.workers, h.frame.authWorkers]
  omega

theorem Steady.activity (h : Steady s t) : t.activity ≤ s.activity := by
  have hsize := h.size
  have hadd := h.activity_add
  omega

namespace Sheds

theorem refl (s : Server) : Sheds s s := ⟨⟨.refl s, rfl, Nat.le_refl _⟩, Nat.le_refl _⟩

theorem trans (h : Sheds s t) (h' : Sheds t u) : Sheds s u :=
  ⟨h.toSteady.trans h'.toSteady, h'.backlog.trans h.backlog⟩

/-- What does not concern the connections. -/
theorem of_eq (haffects : Affects False True s t) (hpoint : t.point = s.point)
    (hconnections : t.connections = s.connections) : Sheds s t := by
  refine ⟨⟨haffects.frame, hpoint, ?_⟩, ?_⟩
  · rw [hconnections]
  · rw [Server.backlog, hconnections]
    exact Nat.le_refl _

theorem rank (h : Sheds s t) : t.rank ≤ s.rank := rank_le_of h.activity h.backlog

/-- A loop sheds as far as its body does. -/
theorem foldl {α : Type*} {f : Server → α → Server} (hf : ∀ s a, Sheds s (f s a))
    (items : List α) (s : Server) : Sheds s (items.foldl f s) :=
  Transition.related_foldl refl (fun _ _ _ h h' => h.trans h') hf items s

/-- The first turn of it closes a connection. -/
theorem foldl_size {α : Type*} {f : Server → α → Server} (hf : ∀ s a, Sheds s (f s a)) {a : α}
    (items : List α)
    (h : (f s a).connections.entries.length + 1 = s.connections.entries.length) :
    ((a :: items).foldl f s).connections.entries.length < s.connections.entries.length :=
  (foldl hf items (f s a)).size.trans_lt (Nat.lt_of_succ_le h.le)

end Sheds

theorem emit_sheds (s : Server) {event : Event} (h : event.isPlain = true) :
    Sheds s (s.emit event) :=
  .of_eq (emit_affects s h) rfl rfl

theorem stats_sheds (s : Server) (stats : Stats) : Sheds s { s with stats := stats } :=
  .of_eq (.single (.table s s.connections _ _ _ _ stats _)) rfl rfl

theorem setConnection_steady (hold : s.connections.lookup fd = some c) (c' : Connection) :
    Steady s (s.setConnection fd c') :=
  ⟨(setConnection_affects s fd c' : Affects False True s _).frame, rfl,
    (length_insert_of_mem _ (mem_of_lookup hold) c').le⟩

/-- A connection whose output does not grow is written back. -/
theorem setConnection_sheds (hold : s.connections.lookup fd = some c) {c' : Connection}
    (h : c'.unsent.length ≤ c.unsent.length) : Sheds s (s.setConnection fd c') := by
  refine ⟨setConnection_steady hold c', ?_⟩
  have htotal := Table.total_insert (fun c : Connection => c.unsent.length) hold c'
  show Table.total _ (s.connections.insert fd c') ≤ Table.total _ s.connections
  omega

theorem closeConnection_size (h : s.connections.lookup fd = some c) :
    (s.closeConnection fd).connections.entries.length + 1 = s.connections.entries.length := by
  obtain ⟨cancelled, windows, log, heq, -⟩ := closeConnection_eq h
  rw [heq]
  exact length_erase s.connections (mem_of_lookup h)

theorem closeConnection_sheds (s : Server) (fd : Fd) : Sheds s (s.closeConnection fd) := by
  cases hc : s.connections.lookup fd with
  | none =>
      rw [closeConnection_none hc]
      exact .refl s
  | some c =>
      obtain ⟨cancelled, windows, log, heq, -⟩ := closeConnection_eq hc
      refine ⟨⟨(closeConnection_affects s fd : Affects False True s _).frame,
        (closeConnection_touches s fd).point,
        Nat.le_of_succ_le (closeConnection_size hc).le⟩, ?_⟩
      have htotal := Table.total_erase (fun c : Connection => c.unsent.length) hc
      rw [backlog, heq]
      exact Nat.le_of_add_right_le htotal.le

theorem modifyConnectionEvents_sheds (s : Server) (fd : Fd) (events : Interest) (ctl : Bool) :
    Sheds s (s.modifyConnectionEvents fd events ctl) := by
  cases ctl with
  | true => exact .of_eq (modifyConnectionEvents_affects s fd events true) rfl rfl
  | false => exact closeConnection_sheds s fd

theorem closeDrained_sheds (s : Server) (fd : Fd) (c : Connection) :
    Sheds s (s.closeDrained fd c) :=
  (emit_sheds s rfl).trans (closeConnection_sheds _ fd)

theorem maybeCloseAfterDrain_sheds (s : Server) (fd : Fd) :
    Sheds s (s.maybeCloseAfterDrain fd) := by
  unfold maybeCloseAfterDrain
  split
  · exact .refl s
  · split
    · exact closeDrained_sheds ..
    · exact .refl s

theorem finishWrite_sheds (s : Server) (fd : Fd) (c : Connection) (ctl : Bool) :
    Sheds s (s.finishWrite fd c ctl) := by
  unfold finishWrite
  split
  · exact closeDrained_sheds ..
  · exact modifyConnectionEvents_sheds ..

theorem markReadEof_sheds (s : Server) (fd : Fd) (ctl : Bool) :
    Sheds s (s.markReadEof fd ctl) := by
  unfold markReadEof
  split
  · exact .refl s
  · next c hc =>
      split
      · exact maybeCloseAfterDrain_sheds s fd
      · have hset : Sheds s (s.setConnection fd { c with readEof := true }) :=
          setConnection_sheds hc (Nat.le_refl c.unsent.length)
        exact hset.trans (finishWrite_sheds _ fd _ ctl)

/-- What `handleWrite` does with the bytes `send` took: a turn that sheds, behind
one that lowers the backlog. -/
theorem handleWrite_sent (hc : s.connections.lookup fd = some c) {count : ℕ} (hpos : 0 < count)
    (hcount : count ≤ c.unsent.length) (ctl : Bool) :
    ∃ u, Steady s u ∧ u.backlog < s.backlog ∧ Sheds u (s.handleWrite fd (.sent count) ctl) := by
  have hopen : ¬ c.outputBuffer.length ≤ c.writeOffset := by
    simp only [Connection.unsent, List.length_drop] at hcount
    omega
  have hset : ∀ c' : Connection, c'.unsent.length < c.unsent.length →
      Steady s ((s.emit (.sent ⟨fd, c.connId⟩ (c.unsent.take count))).setConnection fd c') ∧
      ((s.emit (.sent ⟨fd, c.connId⟩ (c.unsent.take count))).setConnection fd c').backlog <
        s.backlog := by
    intro c' hless
    refine ⟨(emit_sheds s rfl).1.trans
      (setConnection_steady (s := s.emit _) hc c'), ?_⟩
    have htotal := Table.total_insert (fun c : Connection => c.unsent.length) hc c'
    show Table.total _ (s.connections.insert fd c') < Table.total _ s.connections
    omega
  unfold handleWrite
  rw [hc]
  simp only [if_neg hopen]
  split
  · obtain ⟨hsteady, hless⟩ := hset { c with outputBuffer := [], writeOffset := 0 }
      (hpos.trans_le hcount)
    exact ⟨_, hsteady, hless, finishWrite_sheds ..⟩
  · obtain ⟨hsteady, hless⟩ := hset { c with writeOffset := c.writeOffset + count } (by
      simp only [Connection.unsent, List.length_drop] at hcount ⊢
      omega)
    exact ⟨_, hsteady, hless, .refl _⟩

/-- A turn of `handleWrite` that sends nothing. -/
theorem handleWrite_sheds (s : Server) (fd : Fd) {outcome : SendOutcome}
    (h : ∀ count, outcome ≠ .sent count) (ctl : Bool) :
    Sheds s (s.handleWrite fd outcome ctl) := by
  unfold handleWrite
  split
  · exact .refl s
  · split
    · exact finishWrite_sheds ..
    · cases outcome with
      | sent count => exact absurd rfl (h count)
      | interrupted | again => exact .refl s
      | failed => exact closeConnection_sheds s fd

theorem closeRejected_sheds (s : Server) (key : ConnectionKey) : Sheds s (s.closeRejected key) := by
  unfold closeRejected
  split
  · exact closeConnection_sheds ..
  · exact .refl s

/-! ## The answers -/

theorem authenticate_sheds (s : Server) (c : Connection) (response : Response) :
    Sheds s (s.authenticate c response).1 :=
  .of_eq (authenticate_affects s c response)
    (by unfold authenticate; split <;> split <;> rfl) (authenticate_connections s c response)

theorem deliver_steady (hold : s.connections.lookup fd = some c) (c' : Connection)
    (response : Response) (ctl : Bool) : Steady s (s.deliver fd c' response ctl) := by
  unfold deliver
  split
  · exact (setConnection_steady hold c').trans (closeConnection_sheds ..).1
  · split
    · have hcounted := stats_sheds (s.setConnection fd c')
        { s.stats with slowClientClosed := s.stats.slowClientClosed + 1 }
      exact (setConnection_steady hold c').trans (hcounted.trans (closeConnection_sheds _ fd)).1
    · have happend := Sheds.of_eq (.single (.append trivial
        (s.setConnection fd (appendOutput c' response)) ⟨fd, c'.connId⟩ response)) rfl rfl
      exact (setConnection_steady hold _).trans
        (happend.trans (modifyConnectionEvents_sheds ..)).1

theorem applyResponse_steady (s : Server) (response : Response) (origin : ResponseOrigin)
    (ctl : Bool) : Steady s (s.applyResponse response origin ctl) := by
  unfold applyResponse
  split
  · exact (stats_sheds s _).1
  · next current hc =>
      split
      · exact (stats_sheds s _).1
      · have hsheds := authenticate_sheds s (clearAuth response (completeWork origin current))
          response
        refine hsheds.1.trans (deliver_steady (c := current) ?_ _ _ ctl)
        rw [authenticate_connections]
        exact hc

/-! ## The workers -/

/-- A worker that has taken a step weighs less than it did, even with what it
put into a queue. -/
theorem setWorker_activity {i : ℕ} {old new : NormalWorker} (h : u.workers[i]? = some old)
    (hless : u.activity + new.weight < s.activity + old.weight) :
    (u.setWorker i new).activity < s.activity := by
  have hsum := Pool.sum_set NormalWorker.weight h new
  simp only [activity, setWorker] at hless ⊢
  omega

theorem setAuthWorker_activity {i : ℕ} {old new : AuthWorker} (h : u.authWorkers[i]? = some old)
    (hless : u.activity + new.weight < s.activity + old.weight) :
    (u.setAuthWorker i new).activity < s.activity := by
  have hsum := Pool.sum_set AuthWorker.weight h new
  simp only [activity, setAuthWorker] at hless ⊢
  omega

/-- An offered response weighs what the queue takes. -/
theorem enqueueWorkerResponse_activity (s : Server) (request : Request) (response : Response)
    (producer : ResponseProducer) :
    (s.enqueueWorkerResponse request response producer).2.activity =
      s.activity + if (s.enqueueWorkerResponse request response producer).1 then 1 else 0 := by
  unfold enqueueWorkerResponse
  simp only
  split
  · next hok =>
      have hitems := (BlockQueue.push_ok hok).2.2
      simp only [activity, emit, hitems, List.length_append, List.length_singleton, if_true]
      omega
  · simp [activity, emit]

/-- A connection on the list of refused ones. -/
theorem rejectConnection_activity (s : Server) (key : ConnectionKey) :
    (s.rejectConnection key).activity ≤ s.activity + 1 := by
  have hinsert : (s.rejectedResponseConnections.insert key).length ≤
      s.rejectedResponseConnections.length + 1 := by
    rw [List.length_insert]
    split <;> omega
  simp only [activity, rejectConnection]
  omega

theorem workerStep_activity {i : ℕ} {worker : NormalWorker} {action : WorkerAction}
    (hworker : s.workers[i]? = some worker)
    (h : workerStep library s i worker action = some t) : t.activity < s.activity := by
  cases workerStep_move h with
  | @pop request queue hpop =>
      have hitems := congrArg List.length (BlockQueue.pop_item hpop).1
      refine setWorker_activity (u := { s with requestQueue := queue }) hworker ?_
      simp only [activity, NormalWorker.weight, hitems, List.length_cons]
      omega
  | leave =>
      refine setWorker_activity (u := s.onResponseProducerExited.2) hworker ?_
      show s.activity + _ < _
      split <;> simp [NormalWorker.weight]
  | dispatch env request =>
      have hoffered := enqueueWorkerResponse_activity s request
        (workerResponse library env request) .normalWorker
      have hsame := enqueueWorkerResponse_workers s request
        (workerResponse library env request) .normalWorker
      refine setWorker_activity (by rw [hsame.1]; exact hworker) ?_
      rw [hoffered]
      split <;> simp [NormalWorker.weight, *]
  | reject key =>
      have hrejected := rejectConnection_activity s key
      refine setWorker_activity (u := s.rejectConnection key) hworker ?_
      simp only [NormalWorker.weight]
      omega
  | stopResponses =>
      refine setWorker_activity (u := { s with responseQueue := s.responseQueue.stop }) hworker ?_
      show s.activity + _ < _
      simp [NormalWorker.weight]

theorem authWorkerStep_activity {i : ℕ} {worker : AuthWorker} {action : AuthAction}
    (hworker : s.authWorkers[i]? = some worker)
    (h : authWorkerStep library s i worker action = some t) : t.activity < s.activity := by
  cases authWorkerStep_move h with
  | @pop task queue hpop =>
      have hitems := congrArg List.length (BlockQueue.pop_item hpop).1
      refine setAuthWorker_activity (u := { s with authQueue := queue }) hworker ?_
      simp only [activity, AuthWorker.weight, hitems, List.length_cons]
      omega
  | leave =>
      refine setAuthWorker_activity (u := s.onResponseProducerExited.2) hworker ?_
      show s.activity + _ < _
      split <;> simp [AuthWorker.weight]
  | drop task =>
      refine setAuthWorker_activity (u := { s with stats := _ }) hworker ?_
      show s.activity + _ < _
      simp [AuthWorker.weight]
  | check task =>
      refine setAuthWorker_activity hworker ?_
      simp [AuthWorker.weight]
  | handleAuth task reply =>
      refine setAuthWorker_activity (u := { s with stats := _ }) hworker ?_
      show s.activity + _ < _
      simp [AuthWorker.weight]
  | offer task reply =>
      have hoffered := enqueueWorkerResponse_activity s task.request
        (authHandling library task.request reply).response .authWorker
      have hsame := enqueueWorkerResponse_workers s task.request
        (authHandling library task.request reply).response .authWorker
      refine setAuthWorker_activity (by rw [hsame.2]; exact hworker) ?_
      rw [hoffered]
      split <;> simp [AuthWorker.weight, *]
  | reject key =>
      have hrejected := rejectConnection_activity s key
      refine setAuthWorker_activity (u := s.rejectConnection key) hworker ?_
      simp only [AuthWorker.weight]
      omega
  | stopResponses =>
      refine setAuthWorker_activity (u := { s with responseQueue := s.responseQueue.stop })
        hworker ?_
      show s.activity + _ < _
      simp [AuthWorker.weight]

/-! ## The reactor -/

theorem activity_point (s : Server) (point : ReactorPoint) :
    ({ s with point := point } : Server).activity + s.point.weight =
      s.activity + point.weight := by
  simp only [activity]
  omega

theorem enqueueTask_activity (s : Server) (frame : Enqueue) (hnone : frame.admitted = none)
    (task : AuthTask) :
    (s.enqueueTask frame task).activity + s.point.weight ≤ s.activity + frame.weight + 7 := by
  unfold enqueueTask
  simp only
  split
  · next hok =>
      simp [activity, emit, ReactorPoint.weight_enqueue, Enqueue.weight, hnone,
        (BlockQueue.push_ok hok).2.2]
      omega
  · simp [activity, ReactorPoint.weight_enqueue, Enqueue.weight, hnone]
    omega

theorem enqueueRequest_activity (s : Server) (frame : Enqueue) (hnone : frame.admitted = none)
    (request : Request) :
    (s.enqueueRequest frame request).activity + s.point.weight ≤
      s.activity + frame.weight + 5 := by
  unfold enqueueRequest
  simp only
  split
  · next hok =>
      simp [activity, emit, ReactorPoint.weight_enqueue, Enqueue.weight, hnone,
        (BlockQueue.push_ok hok).2.2]
      omega
  · simp [activity, ReactorPoint.weight_enqueue, Enqueue.weight, hnone]
    omega

theorem countAdmitted_steady (s : Server) (frame : Enqueue) (key : ConnectionKey) :
    Steady { s with point := .enqueue { frame with admitted := none } }
      (s.countAdmitted frame key) := by
  unfold countAdmitted
  simp only
  split
  · exact (Sheds.refl _).1
  · next connection hlive => exact setConnection_steady (live?_eq_some.mp hlive).1 _

/-- The reactor goes on with `decodeAndEnqueue`. -/
theorem enqueueNext_activity {frame : Enqueue} (hpoint : s.point = .enqueue frame) (ctl : Bool) :
    (s.enqueueNext frame ctl).activity < s.activity := by
  have hweight : s.point.weight = frame.weight := by rw [hpoint, ReactorPoint.weight_enqueue]
  have hmoved := fun point => activity_point s point
  rw [hweight] at hmoved
  unfold enqueueNext
  split
  · next key hadmitted =>
      have hfirst := hmoved (.enqueue { frame with admitted := none })
      have hless := (countAdmitted_steady s frame key).activity
      simp [Enqueue.weight, hadmitted] at hfirst
      omega
  · next task tasks hadmitted htasks =>
      have hless := enqueueTask_activity s { frame with tasks := tasks } hadmitted task
      rw [hweight] at hless
      simp [Enqueue.weight, htasks] at hless
      omega
  · next request requests hadmitted htasks hrequests =>
      have hless := enqueueRequest_activity s { frame with requests := requests } hadmitted request
      rw [hweight] at hless
      simp [Enqueue.weight, hrequests] at hless
      omega
  · next response responses hadmitted htasks hrequests hresponses =>
      have hfirst := hmoved (.enqueue { frame with responses := responses })
      have hless := (applyResponse_steady
        { s with point := .enqueue { frame with responses := responses } } response .reactor
          ctl).activity
      simp [Enqueue.weight, hresponses] at hfirst
      omega
  · have hfirst := hmoved .boundary
    simp only [ReactorPoint.weight, Enqueue.weight] at hfirst
    simp only
    split
    · have hless := (markReadEof_sheds { s with point := .boundary } frame.fd ctl).activity
      omega
    · omega

theorem drainResponse_activity {response : Response} {queue : BlockQueue Response}
    (hpop : s.responseQueue.tryPop = some (response, queue)) (ctl : Bool) :
    ({ s with responseQueue := queue }.applyResponse response .worker ctl).activity <
      s.activity := by
  have hitems := congrArg List.length (BlockQueue.tryPop_eq_some hpop).1
  have hless := (applyResponse_steady { s with responseQueue := queue } response .worker
    ctl).activity
  have hfirst : ({ s with responseQueue := queue } : Server).activity + 1 = s.activity := by
    simp only [activity, hitems, List.length_cons]
    omega
  omega

/-- The list of refused connections is worked through. -/
theorem drainRejectedResponses_sheds (s : Server) :
    Sheds { s with rejectedResponseConnections := [] } s.drainRejectedResponses :=
  .foldl closeRejected_sheds _ _

theorem drainRejectedResponses_activity (s : Server) :
    s.drainRejectedResponses.activity + s.rejectedResponseConnections.length ≤ s.activity := by
  have hless := (drainRejectedResponses_sheds s).activity
  have hfirst : ({ s with rejectedResponseConnections := [] } : Server).activity +
      s.rejectedResponseConnections.length = s.activity := by
    simp only [activity, List.length_nil]
    omega
  omega

theorem beginDrainingNext_activity {phase : DrainPhase} (hpoint : s.point = .beginDraining phase)
    (ctl : Fd → Bool) : (s.beginDrainingNext phase ctl).activity < s.activity := by
  cases phase with
  | stopRequests | stopAuth =>
      simp only [beginDrainingNext, activity, hpoint, ReactorPoint.weight, BlockQueue.stop_items]
      omega
  | modifyEvents =>
      have hfirst := activity_point s .boundary
      simp only [hpoint, ReactorPoint.weight] at hfirst
      have hloop : Sheds { s with point := .boundary } (s.beginDrainingNext .modifyEvents ctl) :=
        .foldl (fun s _ => modifyConnectionEvents_sheds s _ _ _) _ _
      have hless := hloop.activity
      omega

theorem drainComplete_sheds (s : Server) : Sheds s s.drainComplete.2 := by
  unfold drainComplete
  split
  · exact .foldl (fun s _ => closeDrained_sheds s _ _) _ _
  · exact .refl s

/-- When the work is finished, `drainComplete` closes what it may close or says
yes. -/
theorem drainComplete_progress (hfinished : s.workFinished = true)
    (h : s.completed ≠ [] ∨ s.connections.entries = []) :
    s.drainComplete.2.connections.entries.length < s.connections.entries.length ∨
      s.drainComplete.1 = true := by
  rcases h with hsome | hnone
  · refine .inl ?_
    obtain ⟨entry, rest, hcompleted⟩ := List.exists_cons_of_ne_nil hsome
    have hmem : entry ∈ s.completed := by rw [hcompleted]; exact List.mem_cons_self
    have hlookup : s.connections.lookup entry.1 = some entry.2 :=
      AList.mem_lookup_iff.mpr (List.mem_filter.mp hmem).1
    rw [drainComplete, if_pos hfinished, hcompleted]
    exact Sheds.foldl_size (fun s entry => closeDrained_sheds s entry.1 entry.2) rest
      (closeConnection_size (s := s.emit _) hlookup)
  · refine .inr ?_
    have hcompleted : s.completed = [] := by rw [completed, hnone]; rfl
    rw [drainComplete, if_pos hfinished, hcompleted]
    exact List.isEmpty_iff.mpr hnone

theorem closeAll_sheds (s : Server) : Sheds s s.closeAll :=
  .foldl closeConnection_sheds _ _

theorem closeAll_size (h : s.connections.entries ≠ []) :
    s.closeAll.connections.entries.length < s.connections.entries.length := by
  obtain ⟨entry, rest, hentries⟩ := List.exists_cons_of_ne_nil h
  have hlookup : s.connections.lookup entry.1 = some entry.2 :=
    AList.mem_lookup_iff.mpr (hentries ▸ List.mem_cons_self)
  have hloop : s.closeAll = ((entry :: rest).map Sigma.fst).foldl closeConnection s := by
    rw [closeAll, hentries]
  rw [hloop]
  exact Sheds.foldl_size closeConnection_sheds (rest.map Sigma.fst) (closeConnection_size hlookup)

theorem abortQueues_activity (hstate : s.state = .draining) :
    s.abortQueues.activity < s.activity := by
  simp only [abortQueues, activity, hstate, ServerState.weight, BlockQueue.abort_items,
    List.length_nil]
  omega

/-- Only intake raises the rank, and a step of work lowers it. -/
theorem reactorStep_rank {action : ReactorAction} (h : s.reactorStep action = some t)
    (hintake : (Action.reactor action).isIntake = false) :
    t.rank ≤ s.rank ∧ (s.Works (.reactor action) → t.rank < s.rank) := by
  cases reactorStep_move h with
  | accept | read => cases hintake
  | enqueueNext frame ctl hpoint =>
      exact lowers (enqueueNext_activity hpoint ctl)
  | hangUp fd ctl => exact ⟨(markReadEof_sheds s fd ctl).rank, False.elim⟩
  | write fd outcome ctl hboundary hpossible =>
      cases outcome with
      | sent count =>
          simp only [sendPossible] at hpossible
          split at hpossible
          · cases hpossible
          · next c hc =>
              simp only [Bool.and_eq_true, decide_eq_true_eq] at hpossible
              obtain ⟨u, hsteady, hless, hsheds⟩ := handleWrite_sent hc hpossible.1 hpossible.2 ctl
              have hlt := rank_lt_of_backlog (hsheds.activity.trans hsteady.activity)
                (hsheds.backlog.trans_lt hless)
              exact ⟨hlt.le, fun _ => hlt⟩
      | interrupted | again | failed =>
          exact ⟨(handleWrite_sheds s fd (by simp) ctl).rank, False.elim⟩
  | socketError fd => exact ⟨(closeConnection_sheds s fd).rank, False.elim⟩
  | drainResponse response queue ctl hboundary hpop =>
      exact lowers (drainResponse_activity hpop ctl)
  | drainRejected =>
      have hless := drainRejectedResponses_activity s
      refine ⟨rank_le_of (Nat.le_of_add_right_le hless)
        (drainRejectedResponses_sheds s).backlog, fun hsome => rank_lt_of_activity ?_⟩
      have hpos := List.length_pos_iff.mpr hsome
      omega
  | beginDraining hboundary hrunning =>
      have hpoint := boundary_of_atBoundary hboundary
      refine lowers ?_
      simp only [activity, hrunning, hpoint, ServerState.weight, ReactorPoint.weight]
      omega
  | beginDrainingNext phase ctl hpoint =>
      exact lowers (beginDrainingNext_activity hpoint ctl)
  | drainComplete hboundary hdraining =>
      have hsheds := drainComplete_sheds s
      have hstate : s.drainComplete.2.state = .draining := hsheds.frame.state.trans hdraining
      have hstopped : ({ s.drainComplete.2 with state := .stopped } : Server).activity <
          s.drainComplete.2.activity := by
        simp only [activity, hstate, ServerState.weight]
        omega
      split
      · exact lowers (hstopped.trans_le hsheds.activity)
      · next hno =>
          refine ⟨hsheds.rank, fun hworks => rank_lt_of_activity ?_⟩
          have hsize := (drainComplete_progress hworks.1 hworks.2).resolve_right hno
          have hadd := hsheds.activity_add
          omega
  | deadline hboundary hdraining =>
      exact lowers (abortQueues_activity hdraining)
  | stopQueues => exact ⟨rank_le_of (Nat.le_refl _) (Nat.le_refl _), False.elim⟩
  | closeAll =>
      refine ⟨(closeAll_sheds s).rank, fun hsome => rank_lt_of_activity ?_⟩
      have hsize := closeAll_size hsome
      have hadd := (closeAll_sheds s).activity_add
      omega

theorem step_rank {action : Action} (h : step library s action = some t)
    (hintake : action.isIntake = false) :
    t.rank ≤ s.rank ∧ (s.Works action → t.rank < s.rank) := by
  cases step_move h with
  | reactor h => exact reactorStep_rank h hintake
  | worker hworker h => exact lowers (workerStep_activity hworker h)
  | authWorker hworker h => exact lowers (authWorkerStep_activity hworker h)
  | pullConfig | tick => exact ⟨rank_le_of (Nat.le_refl _) (Nat.le_refl _), False.elim⟩

end Server

end GatewaySystem
