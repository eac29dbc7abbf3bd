import GatewaySystem.Net.Gateway
import Mathlib.Logic.Relation

/-!
# What the functions of the gateway can change

Every function of the server is a sequence of the primitive effects listed in
`Effect`. An effect on the queues and the workers needs the permission
`queues`, the authentication of a connection and an append to its output need
the permission `answers`. What a function does not do is then read off its
permissions, without looking at its body again.
-/

namespace GatewaySystem

/-- The events that no permission guards. -/
def Event.isPlain : Event → Bool
  | .accepted _ | .decoded _ _ | .sent _ _ | .drained _ | .closed _ => true
  | _ => false

/-- The events that may be recorded with the given permissions and limit. -/
def Event.Permitted (queues answers : Prop) (limit : ℕ) : Event → Prop
  | .admitted _ | .offered .. => queues
  | .authenticated .. => answers
  | .appended _ _ own => answers ∧ own = limit
  | _ => True

namespace Server

/-- The primitive effects. -/
inductive Effect (queues answers : Prop) : Server → Server → Prop
  /-- The connections and what is kept for them. -/
  | table (s : Server) (connections : AList fun _ : Fd => Connection)
      (interest : Fd → Option Interest) (cancelled : ℕ → Bool) (nextCancellation nextConnId : ℕ)
      (stats : Stats) (point : ReactorPoint) :
      Effect queues answers s { s with
        connections := connections, interest := interest, cancelled := cancelled
        nextCancellation := nextCancellation, nextConnId := nextConnId, stats := stats
        point := point }
  | record (s : Server) (events : List Event) (h : ∀ event ∈ events, event.isPlain = true) :
      Effect queues answers s { s with log := events ++ s.log }
  | release (s : Server) (clientId : Bytes) : Effect queues answers s (s.eraseWindow clientId)
  | allow (s : Server) (clientId : Bytes) (tick : ℕ) :
      Effect queues answers s (s.allowRequestForClient clientId s.runtimeConfig tick).2
  | authenticate (h : answers) (s : Server) (key : ConnectionKey) (clientId : Bytes) :
      Effect queues answers s (s.emit (.authenticated key clientId))
  | append (h : answers) (s : Server) (key : ConnectionKey) (response : Response) :
      Effect queues answers s
        (s.emit (.appended key response s.runtimeConfig.slowClientOutputLimit))
  | queues (h : queues) (s : Server) (state : ServerState) (responseProducersRemaining : ℕ)
      (requestQueue : BlockQueue Request) (authQueue : BlockQueue AuthTask)
      (responseQueue : BlockQueue Response) (rejected : List ConnectionKey)
      (workers : List NormalWorker) (authWorkers : List AuthWorker) :
      Effect queues answers s { s with
        state := state, responseProducersRemaining := responseProducersRemaining
        requestQueue := requestQueue, authQueue := authQueue, responseQueue := responseQueue
        rejectedResponseConnections := rejected, workers := workers, authWorkers := authWorkers }
  | enqueue (h : queues) (s : Server) (request : Request) :
      Effect queues answers s (s.emit (.admitted request))
  | offer (h : queues) (s : Server) (request : Request) (response : Response)
      (result : PushResult) :
      Effect queues answers s (s.emit (.offered request response result))

/-- Finitely many effects. -/
def Affects (queues answers : Prop) : Server → Server → Prop :=
  Relation.ReflTransGen (Effect queues answers)

variable {queues answers : Prop} {s t : Server} {library : Json.Library}

namespace Affects

theorem refl (s : Server) : Affects queues answers s s := Relation.ReflTransGen.refl

theorem trans {s t u : Server} (h : Affects queues answers s t)
    (h' : Affects queues answers t u) : Affects queues answers s u :=
  Relation.ReflTransGen.trans h h'

theorem single {s t : Server} (h : Effect queues answers s t) : Affects queues answers s t :=
  Relation.ReflTransGen.single h

theorem then_effect {s t u : Server} (h : Affects queues answers s t)
    (h' : Effect queues answers t u) : Affects queues answers s u :=
  Relation.ReflTransGen.tail h h'

end Affects

theorem emit_affects (s : Server) {event : Event} (h : event.isPlain = true) :
    Affects queues answers s (s.emit event) :=
  .single (.record s [event] (by simpa using h))

/-- What the code for the connections leaves alone. -/
structure Frame (s t : Server) : Prop where
  state : t.state = s.state
  responseProducersRemaining : t.responseProducersRemaining = s.responseProducersRemaining
  requestQueue : t.requestQueue = s.requestQueue
  authQueue : t.authQueue = s.authQueue
  responseQueue : t.responseQueue = s.responseQueue
  rejected : t.rejectedResponseConnections = s.rejectedResponseConnections
  runtimeConfig : t.runtimeConfig = s.runtimeConfig
  workers : t.workers = s.workers
  authWorkers : t.authWorkers = s.authWorkers
  offered : ∀ request response result,
    .offered request response result ∈ t.log ↔ .offered request response result ∈ s.log

theorem Frame.refl (s : Server) : Frame s s :=
  ⟨rfl, rfl, rfl, rfl, rfl, rfl, rfl, rfl, rfl, fun _ _ _ => Iff.rfl⟩

theorem Frame.trans {s t u : Server} (h : Frame s t) (h' : Frame t u) : Frame s u where
  state := h'.state.trans h.state
  responseProducersRemaining :=
    h'.responseProducersRemaining.trans h.responseProducersRemaining
  requestQueue := h'.requestQueue.trans h.requestQueue
  authQueue := h'.authQueue.trans h.authQueue
  responseQueue := h'.responseQueue.trans h.responseQueue
  rejected := h'.rejected.trans h.rejected
  runtimeConfig := h'.runtimeConfig.trans h.runtimeConfig
  workers := h'.workers.trans h.workers
  authWorkers := h'.authWorkers.trans h.authWorkers
  offered request response result :=
    (h'.offered request response result).trans (h.offered request response result)

/-- An effect keeps the configuration and records only what is permitted. -/
theorem Effect.events (h : Effect queues answers s t) :
    t.runtimeConfig = s.runtimeConfig ∧ ∃ events, t.log = events ++ s.log ∧
      ∀ event ∈ events, event.Permitted queues answers s.runtimeConfig.slowClientOutputLimit := by
  cases h with
  | table | queues => exact ⟨rfl, [], rfl, by simp⟩
  | record _ events hplain =>
      refine ⟨rfl, events, rfl, fun event hevent => ?_⟩
      have hplain := hplain event hevent
      cases event <;> trivial
  | release _ clientId =>
      unfold eraseWindow
      split
      · exact ⟨rfl, [], rfl, by simp⟩
      · exact ⟨rfl, [_], rfl, by simp [Event.Permitted]⟩
  | allow _ clientId tick =>
      unfold allowRequestForClient
      simp only
      split <;> exact ⟨rfl, [_], rfl, by simp [Event.Permitted]⟩
  | authenticate h => exact ⟨rfl, [_], rfl, by simpa [Event.Permitted] using h⟩
  | append h => exact ⟨rfl, [_], rfl, by simpa [Event.Permitted] using h⟩
  | enqueue h | offer h => exact ⟨rfl, [_], rfl, by simpa [Event.Permitted] using h⟩

theorem Effect.frame (h : Effect False answers s t) : Frame s t := by
  obtain ⟨hconfig, events, hlog, hevents⟩ := h.events
  have hoffered : ∀ request response result, .offered request response result ∈ t.log ↔
      .offered request response result ∈ s.log := by
    intro request response result
    rw [hlog, List.mem_append]
    exact or_iff_right fun hnew => hevents _ hnew
  cases h with
  | table | record | authenticate | append =>
      exact ⟨rfl, rfl, rfl, rfl, rfl, rfl, hconfig, rfl, rfl, hoffered⟩
  | release _ clientId =>
      refine ⟨?_, ?_, ?_, ?_, ?_, ?_, hconfig, ?_, ?_, hoffered⟩ <;>
        unfold eraseWindow <;> split <;> rfl
  | allow _ clientId tick =>
      refine ⟨?_, ?_, ?_, ?_, ?_, ?_, hconfig, ?_, ?_, hoffered⟩ <;>
        unfold allowRequestForClient <;> simp only <;> split <;> rfl
  | queues h | enqueue h | offer h => exact h.elim

theorem Affects.config (h : Affects queues answers s t) : t.runtimeConfig = s.runtimeConfig := by
  induction h with
  | refl => rfl
  | tail _ hstep ih => exact hstep.events.1.trans ih

theorem Affects.frame (h : Affects False answers s t) : Frame s t := by
  induction h with
  | refl => exact .refl s
  | tail _ hstep ih => exact ih.trans hstep.frame

/-! ## The connections -/

theorem setConnection_affects (s : Server) (fd : Fd) (c : Connection) :
    Affects queues answers s (s.setConnection fd c) := .single (.table ..)

theorem cancelAuth_affects (s : Server) (c : Connection) :
    Affects queues answers s (s.cancelAuth c) := by
  unfold cancelAuth
  split
  · exact .refl s
  · exact .single (.table ..)

theorem releaseClient_affects (s : Server) (c : Connection) :
    Affects queues answers s (s.releaseClient c) := by
  unfold releaseClient
  split
  · exact .single (.release ..)
  · exact .refl s

theorem closeConnection_affects (s : Server) (fd : Fd) :
    Affects queues answers s (s.closeConnection fd) := by
  unfold closeConnection
  split
  · exact .refl s
  · next c hc =>
      have herased : Affects queues answers s ((s.cancelAuth c).eraseConnection fd) :=
        (cancelAuth_affects s c).then_effect (.table ..)
      exact (herased.trans (releaseClient_affects _ c)).trans (emit_affects _ rfl)

theorem modifyConnectionEvents_affects (s : Server) (fd : Fd) (events : Interest) (ctl : Bool) :
    Affects queues answers s (s.modifyConnectionEvents fd events ctl) := by
  cases ctl with
  | true => exact .single (.table ..)
  | false => exact closeConnection_affects s fd

theorem closeDrained_affects (s : Server) (fd : Fd) (c : Connection) :
    Affects queues answers s (s.closeDrained fd c) :=
  (emit_affects s rfl).trans (closeConnection_affects _ fd)

theorem maybeCloseAfterDrain_affects (s : Server) (fd : Fd) :
    Affects queues answers s (s.maybeCloseAfterDrain fd) := by
  unfold maybeCloseAfterDrain
  split
  · exact .refl s
  · split
    · exact closeDrained_affects ..
    · exact .refl s

theorem finishWrite_affects (s : Server) (fd : Fd) (c : Connection) (ctl : Bool) :
    Affects queues answers s (s.finishWrite fd c ctl) := by
  unfold finishWrite
  split
  · exact closeDrained_affects ..
  · exact modifyConnectionEvents_affects ..

theorem markReadEof_affects (s : Server) (fd : Fd) (ctl : Bool) :
    Affects queues answers s (s.markReadEof fd ctl) := by
  unfold markReadEof
  split
  · exact .refl s
  · split
    · exact maybeCloseAfterDrain_affects s fd
    · exact (setConnection_affects s fd _).trans (finishWrite_affects ..)

theorem handleWrite_affects (s : Server) (fd : Fd) (outcome : SendOutcome) (ctl : Bool) :
    Affects queues answers s (s.handleWrite fd outcome ctl) := by
  unfold handleWrite
  split
  · exact .refl s
  · next c hc =>
      split
      · exact finishWrite_affects ..
      · cases outcome with
        | interrupted | again => exact .refl s
        | failed => exact closeConnection_affects s fd
        | sent count =>
            have hset : ∀ c', Affects queues answers s ((s.emit
                (.sent ⟨fd, c.connId⟩ (c.unsent.take count))).setConnection fd c') :=
              fun c' => (emit_affects s rfl).trans (setConnection_affects _ fd c')
            simp only
            split
            · exact (hset _).trans (finishWrite_affects ..)
            · exact hset _

theorem handleAccept_affects (s : Server) (fd : Fd) (ctl : Bool) :
    Affects queues answers s (s.handleAccept fd ctl) := by
  cases ctl with
  | true =>
      exact (Affects.single (.table s _ _ _ _ (s.nextConnId + 1) _ _)).trans (emit_affects _ rfl)
  | false => exact .single (.table s s.connections _ _ _ (s.nextConnId + 1) s.stats _)

/-- A loop of effects. -/
theorem foldl_affects {α : Type*} {f : Server → α → Server}
    (hf : ∀ s a, Affects queues answers s (f s a)) (items : List α) (s : Server) :
    Affects queues answers s (items.foldl f s) :=
  Transition.related_foldl .refl (fun _ _ _ h h' => h.trans h') hf items s

theorem drainComplete_affects (s : Server) : Affects queues answers s s.drainComplete.2 := by
  unfold drainComplete
  split
  · exact foldl_affects (fun s entry => closeDrained_affects s _ _) _ s
  · exact .refl s

theorem closeAll_affects (s : Server) : Affects queues answers s s.closeAll :=
  foldl_affects (fun s fd => closeConnection_affects s fd) _ s

/-! ## The frames -/

theorem allowRequestForClient_config (s : Server) (clientId : Bytes) (config : RuntimeConfig)
    (tick : ℕ) :
    (s.allowRequestForClient clientId config tick).2.runtimeConfig = s.runtimeConfig := by
  unfold allowRequestForClient
  simp only
  split <;> rfl

theorem intakeBusiness_affects {config : RuntimeConfig} {intake : Intake}
    (hconfig : intake.server.runtimeConfig = config) (request : Request) (tick : ℕ) :
    Affects queues answers intake.server (intakeBusiness config intake request tick).server ∧
      (intakeBusiness config intake request tick).server.runtimeConfig = config := by
  subst hconfig
  unfold intakeBusiness
  simp only
  split
  · exact ⟨.refl _, rfl⟩
  · split <;> exact ⟨.single (.allow ..), allowRequestForClient_config ..⟩

/-- A frame that may authenticate takes a cell and nothing else. -/
theorem intakeAuth_server {intake intake' : Intake} {request : Request}
    (h : intakeAuth intake request = .ok intake' ∨ intakeAuth intake request = .error intake') :
    ∃ next, intake'.server = { intake.server with nextCancellation := next } := by
  unfold intakeAuth at h
  split at h
  · obtain rfl : { intake with closeNow := true } = intake' := by simpa using h
    exact ⟨_, rfl⟩
  · simp only at h
    split at h
    · obtain rfl := Except.error.inj (h.resolve_left nofun)
      exact ⟨_, rfl⟩
    · obtain rfl := Except.ok.inj (h.resolve_right nofun)
      exact ⟨_, rfl⟩

theorem intakeFrames_affects {config : RuntimeConfig} {intake : Intake}
    (hconfig : intake.server.runtimeConfig = config) (requests : List Request) (ticks : List ℕ) :
    Affects queues answers intake.server (intakeFrames config intake requests ticks).server := by
  induction requests generalizing intake ticks with
  | nil => exact .refl _
  | cons request rest ih =>
      unfold intakeFrames
      split
      · exact .refl _
      · split
        · obtain ⟨hturn, hconfig⟩ := intakeBusiness_affects hconfig request (ticks.headD 0)
          exact hturn.trans (ih hconfig _)
        · split
          · next intake' hturn =>
              obtain ⟨next, hserver⟩ := intakeAuth_server (.inr hturn)
              rw [hserver]
              exact .single (.table ..)
          · next intake' hturn =>
              obtain ⟨next, hserver⟩ := intakeAuth_server (.inl hturn)
              have hcell : Affects queues answers intake.server intake'.server := by
                rw [hserver]
                exact .single (.table ..)
              exact hcell.trans (ih (by rw [hserver]; exact hconfig) _)

theorem decodeAndEnqueue_affects (s : Server) (fd : Fd) (readEof : Bool) (ticks : List ℕ) :
    Affects queues answers s (s.decodeAndEnqueue fd readEof ticks) := by
  unfold decodeAndEnqueue
  split
  · exact .refl s
  · next c hc =>
      have hstart : ∀ requests buffer closeNow, Affects queues answers s
          (Intake.start s fd c requests buffer closeNow).server := by
        intro requests buffer closeNow
        refine .single (.record s _ fun event hevent => ?_)
        obtain ⟨request, -, rfl⟩ := List.mem_map.mp (List.mem_reverse.mp hevent)
        rfl
      have hset : ∀ requests buffer closeNow, Affects queues answers s
          ((intakeFrames s.runtimeConfig (Intake.start s fd c requests buffer closeNow)
            requests ticks).server.setConnection fd
              (intakeFrames s.runtimeConfig (Intake.start s fd c requests buffer closeNow)
                requests ticks).current) := by
        intro requests buffer closeNow
        exact ((hstart requests buffer closeNow).trans
          (intakeFrames_affects rfl requests ticks)).trans (setConnection_affects ..)
      simp only
      split
      · exact (hset _ _ _).trans (closeConnection_affects _ fd)
      · exact (hset _ _ _).then_effect (.table ..)

theorem handleRead_affects (s : Server) (fd : Fd) (outcome : RecvOutcome) (ticks : List ℕ) :
    Affects queues answers s (s.handleRead fd outcome ticks) := by
  unfold handleRead
  split
  · exact .refl s
  · cases outcome with
    | data bytes => exact (setConnection_affects s fd _).trans (decodeAndEnqueue_affects ..)
    | eof | again => exact decodeAndEnqueue_affects ..
    | interrupted => exact .refl s
    | failed => exact closeConnection_affects s fd

theorem countAdmitted_affects (s : Server) (frame : Enqueue) (key : ConnectionKey) :
    Affects queues answers s (s.countAdmitted frame key) := by
  unfold countAdmitted
  simp only
  split
  · exact .single (.table ..)
  · exact .single (.table ..)

/-! ## The responses -/

theorem authenticate_affects (s : Server) (c : Connection) (response : Response) :
    Affects queues True s (s.authenticate c response).1 := by
  have hstats : ∀ stats, Affects queues True s { s with stats := stats } :=
    fun stats => .single (.table s s.connections _ _ _ _ stats _)
  unfold authenticate
  split
  · split
    · exact hstats _
    · exact (hstats _).then_effect (.authenticate trivial ..)
  · split
    · exact hstats _
    · exact .refl s

theorem deliver_affects (s : Server) (fd : Fd) (c : Connection) (response : Response)
    (ctl : Bool) : Affects queues True s (s.deliver fd c response ctl) := by
  unfold deliver
  split
  · exact (setConnection_affects s fd c).trans (closeConnection_affects _ fd)
  · split
    · exact (Affects.single (.table ..)).trans (closeConnection_affects _ fd)
    · exact ((setConnection_affects s fd _).then_effect (.append trivial ..)).trans
        (modifyConnectionEvents_affects ..)

theorem applyResponse_affects (s : Server) (response : Response) (origin : ResponseOrigin)
    (ctl : Bool) : Affects queues True s (s.applyResponse response origin ctl) := by
  unfold applyResponse
  split
  · exact .single (.table s s.connections ..)
  · split
    · exact .single (.table s s.connections ..)
    · exact (authenticate_affects ..).trans (deliver_affects ..)

theorem closeRejected_affects (s : Server) (key : ConnectionKey) :
    Affects queues answers s (s.closeRejected key) := by
  unfold closeRejected
  split
  · exact closeConnection_affects s key.fd
  · exact .refl s

/-! ## The threads -/

theorem queues_affects {state : ServerState} {responseProducersRemaining : ℕ}
    {requestQueue : BlockQueue Request} {authQueue : BlockQueue AuthTask}
    {responseQueue : BlockQueue Response} {rejected : List ConnectionKey}
    {workers : List NormalWorker} {authWorkers : List AuthWorker} {stats : Stats}
    {point : ReactorPoint}
    (h : t = { s with
        state := state, responseProducersRemaining := responseProducersRemaining
        requestQueue := requestQueue, authQueue := authQueue, responseQueue := responseQueue
        rejectedResponseConnections := rejected, workers := workers, authWorkers := authWorkers
        stats := stats, point := point }) : Affects True answers s t := by
  subst h
  exact (Affects.single (.queues trivial s state responseProducersRemaining requestQueue authQueue
    responseQueue rejected workers authWorkers)).then_effect
      (.table _ s.connections s.interest s.cancelled s.nextCancellation s.nextConnId stats point)

theorem enqueueTask_affects (s : Server) (frame : Enqueue) (task : AuthTask) :
    Affects True answers s (s.enqueueTask frame task) := by
  unfold enqueueTask
  simp only
  split
  · exact (queues_affects rfl).then_effect (.enqueue trivial ..)
  · exact queues_affects rfl

theorem enqueueRequest_affects (s : Server) (frame : Enqueue) (request : Request) :
    Affects True answers s (s.enqueueRequest frame request) := by
  unfold enqueueRequest
  simp only
  split
  · exact (queues_affects rfl).then_effect (.enqueue trivial ..)
  · exact queues_affects rfl

theorem enqueueWorkerResponse_affects (s : Server) (request : Request) (response : Response)
    (producer : ResponseProducer) :
    Affects True answers s (s.enqueueWorkerResponse request response producer).2 := by
  unfold enqueueWorkerResponse
  simp only
  split
  · exact (queues_affects rfl).then_effect (.offer trivial ..)
  · exact (queues_affects rfl).then_effect (.offer trivial ..)

theorem workerStep_affects {i : ℕ} {worker : NormalWorker} {action : WorkerAction}
    (h : workerStep library s i worker action = some t) : Affects True answers s t := by
  cases workerStep_move h with
  | dispatch => exact (enqueueWorkerResponse_affects ..).trans (queues_affects rfl)
  | _ => exact queues_affects rfl

theorem authWorkerStep_affects {i : ℕ} {worker : AuthWorker} {action : AuthAction}
    (h : authWorkerStep library s i worker action = some t) : Affects True answers s t := by
  cases authWorkerStep_move h with
  | offer => exact (enqueueWorkerResponse_affects ..).trans (queues_affects rfl)
  | _ => exact queues_affects rfl

/-- The response the reactor applies in a step. -/
def answered? (s : Server) : ReactorAction → Option Response
  | .drainResponse _ => s.responseQueue.tryPop.map Prod.fst
  | .enqueueNext _ =>
      match s.point with
      | .enqueue ⟨_, [], [], response :: _, none, _⟩ => some response
      | _ => none
  | _ => none

theorem enqueueNext_affects (s : Server) (frame : Enqueue) (ctl : Bool)
    (h : s.point = .enqueue frame) :
    Affects True ((s.answered? (.enqueueNext ctl)).isSome = true) s (s.enqueueNext frame ctl) := by
  obtain ⟨fd, tasks, requests, responses, admitted, eof⟩ := frame
  unfold enqueueNext
  split
  · exact countAdmitted_affects ..
  · exact enqueueTask_affects ..
  · exact enqueueRequest_affects ..
  · next response responses hadmitted htasks hrequests hresponses =>
      simp only at hadmitted htasks hrequests hresponses
      subst hadmitted htasks hrequests hresponses
      have hsome : ((s.answered? (.enqueueNext ctl)).isSome = true) = True := by
        simp [answered?, h]
      rw [hsome]
      exact (queues_affects rfl).trans (applyResponse_affects ..)
  · have hpoint : Affects True ((s.answered? (.enqueueNext ctl)).isSome = true) s
        { s with point := .boundary } := queues_affects rfl
    simp only
    split
    · exact hpoint.trans (markReadEof_affects ..)
    · exact hpoint

theorem beginDrainingNext_affects (s : Server) (phase : DrainPhase) (ctl : Fd → Bool) :
    Affects True answers s (s.beginDrainingNext phase ctl) := by
  cases phase with
  | stopRequests | stopAuth => exact queues_affects rfl
  | modifyEvents =>
      exact (queues_affects rfl).trans
        (foldl_affects (fun s entry => modifyConnectionEvents_affects s _ _ _) _ _)

theorem reactorStep_affects {action : ReactorAction} (h : s.reactorStep action = some t) :
    Affects True ((s.answered? action).isSome = true) s t := by
  cases reactorStep_move h with
  | accept => exact handleAccept_affects ..
  | read => exact handleRead_affects ..
  | enqueueNext frame ctl hpoint => exact enqueueNext_affects s frame ctl hpoint
  | hangUp => exact markReadEof_affects ..
  | write => exact handleWrite_affects ..
  | socketError => exact closeConnection_affects ..
  | drainResponse response queue ctl _ hpop =>
      have hsome : ((s.answered? (.drainResponse ctl)).isSome = true) = True := by
        simp [answered?, hpop]
      rw [hsome]
      exact (queues_affects rfl).trans (applyResponse_affects ..)
  | drainRejected => exact (queues_affects rfl).trans (foldl_affects closeRejected_affects _ _)
  | beginDrainingNext => exact beginDrainingNext_affects ..
  | drainComplete =>
      split
      · exact (drainComplete_affects s).trans (queues_affects rfl)
      · exact drainComplete_affects s
  | beginDraining | deadline | stopQueues => exact queues_affects rfl
  | closeAll => exact closeAll_affects s

theorem Effect.mono {queues' answers' : Prop} (hqueues : queues → queues')
    (hanswers : answers → answers') (h : Effect queues answers s t) :
    Effect queues' answers' s t := by
  cases h with
  | table => exact .table ..
  | record _ events hplain => exact .record s events hplain
  | release => exact .release ..
  | allow => exact .allow ..
  | authenticate h => exact .authenticate (hanswers h) ..
  | append h => exact .append (hanswers h) ..
  | queues h => exact .queues (hqueues h) ..
  | enqueue h => exact .enqueue (hqueues h) ..
  | offer h => exact .offer (hqueues h) ..

/-- A step is a sequence of effects, a turn of the puller, or time passes. -/
theorem step_affects {action : Action} (h : step library s action = some t) :
    Affects True True s t ∨ (∃ body, action = .pullConfig body ∧ t = pullConfig library s body) ∨
      ∃ duration : ℕ, t = { s with now := s.now + duration } := by
  cases step_move h with
  | reactor h =>
      have haffects := reactorStep_affects h
      exact .inl (Relation.ReflTransGen.mono (fun s t hst => hst.mono id fun _ => trivial) _ _
        haffects)
  | worker _ h => exact .inl (workerStep_affects h)
  | authWorker _ h => exact .inl (authWorkerStep_affects h)
  | pullConfig hpull => exact .inr (.inl ⟨_, rfl, hpull.symm⟩)
  | tick duration => exact .inr (.inr ⟨duration, rfl⟩)

/-- What every effect keeps, and the puller and the clock as well, every step
keeps. -/
theorem step_kept {I : Server → Prop} (heffect : ∀ s t, Effect True True s t → I s → I t)
    (hpull : ∀ s body, I s → I (pullConfig library s body))
    (htick : ∀ s (duration : ℕ), I s → I { s with now := s.now + duration }) {action : Action}
    (h : step library s action = some t) (hs : I s) : I t := by
  rcases step_affects h with haffects | ⟨body, -, rfl⟩ | ⟨duration, rfl⟩
  · exact Transition.kept_along heffect haffects hs
  · exact hpull s body hs
  · exact htick s duration hs

theorem Affects.now {queues answers : Prop} (h : Affects queues answers s t) : s.now ≤ t.now := by
  refine Transition.kept_along (I := fun t => s.now ≤ t.now) ?_ h le_rfl
  intro u v heffect hu
  cases heffect with
  | release _ clientId =>
      unfold eraseWindow
      split <;> exact hu
  | allow _ clientId tick =>
      unfold allowRequestForClient
      simp only
      split <;> exact hu.trans (le_add_of_nonneg_right (Int.natCast_nonneg tick))
  | _ => exact hu

/-- The clock does not go back. -/
theorem step_now {action : Action} (h : step library s action = some t) : s.now ≤ t.now := by
  rcases step_affects h with haffects | ⟨body, -, rfl⟩ | ⟨duration, rfl⟩
  · exact haffects.now
  · unfold pullConfig
    split <;> exact le_rfl
  · exact le_add_of_nonneg_right (Int.natCast_nonneg duration)

/-! ## What the reactor leaves to the workers -/

/-- What a step of the reactor leaves alone. The server stops at the deadline
or when no producer of responses is left. -/
structure ReactorFrame (deadline : Prop) (s t : Server) : Prop where
  responseProducersRemaining : t.responseProducersRemaining = s.responseProducersRemaining
  workers : t.workers = s.workers
  authWorkers : t.authWorkers = s.authWorkers
  offered : ∀ request response result,
    .offered request response result ∈ t.log ↔ .offered request response result ∈ s.log
  state : t.state = .stopped →
    s.state = .stopped ∨ s.responseProducersRemaining = 0 ∨ deadline
  responseQueue : t.responseQueue.stopped = s.responseQueue.stopped ∨ t.state = .stopped
  rejected : t.rejectedResponseConnections = s.rejectedResponseConnections ∨
    t = s.drainRejectedResponses ∧ t.rejectedResponseConnections = []

variable {deadline : Prop}

/-- A change of the reactor to the queues, followed by code for the
connections. -/
theorem ReactorFrame.of_affects {s u t : Server} (h : Affects False True u t)
    (hproducers : u.responseProducersRemaining = s.responseProducersRemaining)
    (hworkers : u.workers = s.workers) (hauthWorkers : u.authWorkers = s.authWorkers)
    (hoffered : ∀ request response result,
      .offered request response result ∈ u.log ↔ .offered request response result ∈ s.log)
    (hstate : u.state = .stopped →
      s.state = .stopped ∨ s.responseProducersRemaining = 0 ∨ deadline)
    (hresponse : u.responseQueue.stopped = s.responseQueue.stopped ∨ u.state = .stopped)
    (hrejected : u.rejectedResponseConnections = s.rejectedResponseConnections) :
    ReactorFrame deadline s t where
  responseProducersRemaining := h.frame.responseProducersRemaining.trans hproducers
  workers := h.frame.workers.trans hworkers
  authWorkers := h.frame.authWorkers.trans hauthWorkers
  offered request response result :=
    (h.frame.offered request response result).trans (hoffered request response result)
  state hstopped := hstate (h.frame.state ▸ hstopped)
  responseQueue := by
    rw [h.frame.responseQueue, h.frame.state]
    exact hresponse
  rejected := .inl (h.frame.rejected.trans hrejected)

/-- Code for the connections only. -/
theorem Affects.reactorFrame (h : Affects False True s t) : ReactorFrame deadline s t :=
  .of_affects h rfl rfl rfl (fun _ _ _ => Iff.rfl) .inl (.inl rfl) rfl

theorem enqueueNext_frame (s : Server) (frame : Enqueue) (ctl : Bool) :
    ReactorFrame deadline s (s.enqueueNext frame ctl) := by
  have hpush : ∀ (t : Server) (request : Request) (requestQueue : BlockQueue Request)
      (authQueue : BlockQueue AuthTask) (point : ReactorPoint), t =
        { s with requestQueue := requestQueue, authQueue := authQueue, point := point }.emit
          (.admitted request) → ReactorFrame deadline s t := by
    rintro t request requestQueue authQueue point rfl
    exact .of_affects (.refl _) rfl rfl rfl (by simp [emit]) .inl (.inl rfl) rfl
  unfold enqueueNext
  split
  · exact (countAdmitted_affects ..).reactorFrame
  · unfold enqueueTask
    simp only
    split
    · exact hpush _ _ s.requestQueue _ _ rfl
    · exact (Affects.single (.table ..)).reactorFrame
  · unfold enqueueRequest
    simp only
    split
    · exact hpush _ _ _ s.authQueue _ rfl
    · exact (Affects.single (.table ..)).reactorFrame
  · exact ((Affects.single (.table ..)).trans (applyResponse_affects ..)).reactorFrame
  · simp only
    split
    · exact ((Affects.single (.table ..)).trans (markReadEof_affects ..)).reactorFrame
    · exact (Affects.single (.table ..)).reactorFrame

/-- `drainComplete` answers yes only when no producer is left. -/
theorem producers_of_drainComplete {s : Server} (h : s.drainComplete.1 = true) :
    s.responseProducersRemaining = 0 := by
  unfold drainComplete at h
  split at h
  · next hfinished =>
      simp only [workFinished, Bool.and_eq_true, decide_eq_true_eq] at hfinished
      tauto
  · cases h

theorem reactorStep_frame {action : ReactorAction} (h : s.reactorStep action = some t) :
    ReactorFrame (action = .deadline) s t := by
  cases reactorStep_move h with
  | accept => exact (handleAccept_affects ..).reactorFrame
  | read => exact (handleRead_affects ..).reactorFrame
  | enqueueNext => exact enqueueNext_frame ..
  | hangUp => exact (markReadEof_affects ..).reactorFrame
  | write => exact (handleWrite_affects ..).reactorFrame
  | socketError => exact (closeConnection_affects ..).reactorFrame
  | drainResponse response queue ctl _ hpop =>
      exact .of_affects (applyResponse_affects ..) rfl rfl rfl (fun _ _ _ => Iff.rfl) .inl
        (.inl (BlockQueue.tryPop_eq_some hpop).2.1) rfl
  | drainRejected =>
      have haffects : Affects False True { s with rejectedResponseConnections := [] }
          s.drainRejectedResponses := foldl_affects closeRejected_affects _ _
      have hframe := haffects.frame
      exact ⟨hframe.responseProducersRemaining, hframe.workers, hframe.authWorkers,
        hframe.offered, fun hstopped => .inl (hframe.state ▸ hstopped),
        .inl (by rw [hframe.responseQueue]), .inr ⟨rfl, hframe.rejected⟩⟩
  | beginDraining =>
      exact .of_affects (.refl _) rfl rfl rfl (fun _ _ _ => Iff.rfl) nofun (.inl rfl) rfl
  | beginDrainingNext phase =>
      cases phase with
      | stopRequests | stopAuth =>
          exact .of_affects (.refl _) rfl rfl rfl (fun _ _ _ => Iff.rfl) .inl (.inl rfl) rfl
      | modifyEvents =>
          exact ((Affects.single (.table ..)).trans (foldl_affects
            (fun s entry => modifyConnectionEvents_affects s _ _ _) _ _)).reactorFrame
  | drainComplete =>
      have haffects : Affects False True s s.drainComplete.2 := drainComplete_affects s
      have hframe := haffects.frame
      split
      · next hcomplete =>
          exact ⟨hframe.responseProducersRemaining, hframe.workers, hframe.authWorkers,
            hframe.offered, fun _ => .inr (.inl (producers_of_drainComplete hcomplete)), .inr rfl,
            .inl hframe.rejected⟩
      · exact haffects.reactorFrame
  | deadline =>
      exact .of_affects (.refl _) rfl rfl rfl (fun _ _ _ => Iff.rfl) (fun _ => .inr (.inr rfl))
        (.inr rfl) rfl
  | stopQueues hstate =>
      exact .of_affects (.refl _) rfl rfl rfl (fun _ _ _ => Iff.rfl) (fun _ => .inl hstate)
        (.inr hstate) rfl
  | closeAll => exact (closeAll_affects s).reactorFrame

end Server

end GatewaySystem
