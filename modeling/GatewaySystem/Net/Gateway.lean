import GatewaySystem.Lib.FlatJson
import GatewaySystem.Lib.Transition
import GatewaySystem.Net.Reactor

/-!
# The gateway as a transition system

An action is one access of one thread to shared state, or the part of the
reactor's work between two of them, together with what the environment answers.
The reactor acts from a boundary: the order in which its loop visits the
descriptors is left open, so every order the loop can produce is a run here.
While it is inside `decodeAndEnqueue` or `beginDraining` it can only go on with
that, and every other thread may act.

`gateway library args` is the system of a server started with `args`.
-/

namespace GatewaySystem

open Business

/-- What the reactor does. -/
inductive ReactorAction where
  | accept (fd : Fd) (ctl : Bool)
  | read (fd : Fd) (outcome : RecvOutcome) (ticks : List ℕ)
  | enqueueNext (ctl : Bool)
  /-- `EPOLLRDHUP` or `EPOLLHUP`. -/
  | hangUp (fd : Fd) (ctl : Bool)
  | write (fd : Fd) (outcome : SendOutcome) (ctl : Bool)
  /-- `EPOLLERR`. -/
  | socketError (fd : Fd)
  | drainResponse (ctl : Bool)
  | drainRejected
  | beginDraining
  | beginDrainingNext (ctl : Fd → Bool)
  | drainComplete
  | deadline
  | stopQueues
  | closeAll

/-- What a normal worker does. -/
inductive WorkerAction where
  | pop
  | dispatch (env : WorkerEnv)
  | reject
  | stopResponses

/-- What an AUTH worker does. -/
inductive AuthAction where
  | pop
  | testCancellation
  | handleAuth (reply : AuthReply)
  | offer
  | reject
  | stopResponses

inductive Action where
  | reactor (action : ReactorAction)
  | worker (i : ℕ) (action : WorkerAction)
  | authWorker (i : ℕ) (action : AuthAction)
  /-- The config puller made a request; the body is that of a successful one. -/
  | pullConfig (body : Option Bytes)
  | tick (duration : ℕ)

namespace Server

/-- Whether the reactor is between two steps and its loop still runs. -/
def atBoundary (s : Server) : Bool :=
  match s.point, s.state with
  | _, .stopped => false
  | .boundary, _ => true
  | _, _ => false

/-- The counters of a refused response. -/
def countRejected (stats : Stats) (producer : ResponseProducer) : Stats :=
  let stats := { stats with responseQueueRejected := stats.responseQueueRejected + 1 }
  match producer with
  | .normalWorker =>
      { stats with responseQueueRejectedNormal := stats.responseQueueRejectedNormal + 1 }
  | .authWorker =>
      { stats with responseQueueRejectedAuth := stats.responseQueueRejectedAuth + 1 }

/-- The access of `enqueueWorkerResponse` to the response queue, and whether it
was accepted. -/
def enqueueWorkerResponse (s : Server) (request : Request) (response : Response)
    (producer : ResponseProducer) : Bool × Server :=
  let result := s.responseQueue.push response
  if result.1 = .ok then
    (true, { s with responseQueue := result.2 }.emit (.offered request response result.1))
  else
    (false, { s with stats := countRejected s.stats producer }.emit
      (.offered request response result.1))

theorem enqueueWorkerResponse_workers (s : Server) (request : Request) (response : Response)
    (producer : ResponseProducer) :
    (s.enqueueWorkerResponse request response producer).2.workers = s.workers ∧
      (s.enqueueWorkerResponse request response producer).2.authWorkers = s.authWorkers := by
  unfold enqueueWorkerResponse
  simp only
  split <;> exact ⟨rfl, rfl⟩

theorem enqueueWorkerResponse_log (s : Server) (request : Request) (response : Response)
    (producer : ResponseProducer) :
    ∃ result, (s.enqueueWorkerResponse request response producer).2.log =
      .offered request response result :: s.log := by
  unfold enqueueWorkerResponse
  simp only
  split <;> exact ⟨_, rfl⟩

/-- The insertion into the set of refused connections. -/
def rejectConnection (s : Server) (key : ConnectionKey) : Server :=
  { s with rejectedResponseConnections := s.rejectedResponseConnections.insert key }

/-- The decrement of `onResponseProducerExited`, and whether this was the last
producer. -/
def onResponseProducerExited (s : Server) : Bool × Server :=
  (s.responseProducersRemaining = 1,
    { s with responseProducersRemaining := s.responseProducersRemaining - 1 })

def setWorker (s : Server) (i : ℕ) (worker : NormalWorker) : Server :=
  { s with workers := s.workers.set i worker }

def setAuthWorker (s : Server) (i : ℕ) (worker : AuthWorker) : Server :=
  { s with authWorkers := s.authWorkers.set i worker }

/-- `request_queue_.pop` in the loop of a normal worker. -/
def popRequest (s : Server) (i : ℕ) : Option Server :=
  match s.requestQueue.pop with
  | none => none
  | some (some (request, queue)) =>
      some ({ s with requestQueue := queue }.setWorker i (.handling request))
  | some none =>
      let result := s.onResponseProducerExited
      some (result.2.setWorker i (if result.1 then .stopping else .exited))

/-- The response a normal worker makes: an exception becomes an internal
error. -/
def workerResponse (library : Json.Library) (env : WorkerEnv) (request : Request) : Response :=
  (Business.dispatch library env request).getD (makeInternalErrorResponse request)

/-- A normal worker offers its response. -/
def dispatchRequest (library : Json.Library) (s : Server) (i : ℕ) (env : WorkerEnv)
    (request : Request) : Server :=
  let result := s.enqueueWorkerResponse request (workerResponse library env request) .normalWorker
  result.2.setWorker i (if result.1 then .waiting else .refused request.key)

/-- `auth_queue_.pop` in the loop of an AUTH worker. -/
def popAuth (s : Server) (i : ℕ) : Option Server :=
  match s.authQueue.pop with
  | none => none
  | some (some (task, queue)) =>
      some ({ s with authQueue := queue }.setAuthWorker i (.popped task))
  | some none =>
      let result := s.onResponseProducerExited
      some (result.2.setAuthWorker i (if result.1 then .stopping else .exited))

/-- The look of an AUTH worker at the cancellation of its task. -/
def testCancellation (s : Server) (i : ℕ) (task : AuthTask) : Server :=
  if s.cancelled task.cancellation then
    { s with stats := { s.stats with
      authTasksCancelledBeforeStart := s.stats.authTasksCancelledBeforeStart + 1 } }.setAuthWorker
        i .waiting
  else s.setAuthWorker i (.checking task)

/-- What an AUTH worker makes of the reply. -/
def authHandling (library : Json.Library) (request : Request) (reply : AuthReply) :
    AuthHandlingResult :=
  match reply with
  | .answered result => Business.handleAuth library request fun _ _ => some result
  | .threw => Business.handleAuth library request fun _ _ => none
  | .unknown => ⟨makeInternalAuthErrorResponse request, .unavailable⟩

/-- An AUTH worker comes back from `handleAuth` and records the result. -/
def finishAuth (library : Json.Library) (s : Server) (i : ℕ) (task : AuthTask)
    (reply : AuthReply) : Server :=
  { s with
    stats := s.stats.recordAuthResult (authHandling library task.request reply).outcome
    }.setAuthWorker i (.answering task reply)

/-- An AUTH worker offers its response. -/
def offerAuth (library : Json.Library) (s : Server) (i : ℕ) (task : AuthTask)
    (reply : AuthReply) : Server :=
  let result := s.enqueueWorkerResponse task.request
    (authHandling library task.request reply).response .authWorker
  result.2.setAuthWorker i (if result.1 then .waiting else .refused task.key)

/-- Whether `recv` can give this to the reactor: the buffer is not exceeded and
zero bytes mean the end. -/
def recvPossible : RecvOutcome → Bool
  | .data bytes => 0 < bytes.length && bytes.length ≤ recvBufferSize
  | _ => true

/-- Whether `send` can answer this: it takes at least one byte and no more than
it is given. -/
def sendPossible (s : Server) (fd : Fd) : SendOutcome → Bool
  | .sent count =>
      match s.connections.lookup fd with
      | none => false
      | some connection => 0 < count && count ≤ connection.unsent.length
  | _ => true

/-- Whether `handleRead` reads from this descriptor. -/
def readable (s : Server) (fd : Fd) : Bool :=
  s.state = .running &&
    match s.connections.lookup fd with
    | none => false
    | some connection => !connection.closing && !connection.readEof

/-- Whether every worker has left its loop. -/
def workersExited (s : Server) : Bool :=
  (s.workers.all fun worker => match worker with
    | .exited => true
    | _ => false) &&
  (s.authWorkers.all fun worker => match worker with
    | .exited => true
    | _ => false)

/-- A step of the reactor. -/
def reactorStep (s : Server) : ReactorAction → Option Server
  | .accept fd ctl =>
      if s.atBoundary && s.state = .running && (s.connections.lookup fd).isNone then
        some (s.handleAccept fd ctl)
      else none
  | .read fd outcome ticks =>
      if s.atBoundary && s.readable fd && recvPossible outcome then
        some (s.handleRead fd outcome ticks)
      else none
  | .enqueueNext ctl =>
      match s.point with
      | .enqueue frame => some (s.enqueueNext frame ctl)
      | _ => none
  | .hangUp fd ctl => if s.atBoundary then some (s.markReadEof fd ctl) else none
  | .write fd outcome ctl =>
      if s.atBoundary && s.sendPossible fd outcome then some (s.handleWrite fd outcome ctl)
      else none
  | .socketError fd => if s.atBoundary then some (s.closeConnection fd) else none
  | .drainResponse ctl =>
      if s.atBoundary then
        match s.responseQueue.tryPop with
        | none => none
        | some (response, queue) =>
            some ({ s with responseQueue := queue }.applyResponse response .worker ctl)
      else none
  | .drainRejected => if s.atBoundary then some s.drainRejectedResponses else none
  | .beginDraining =>
      if s.atBoundary && s.state = .running then
        some { s with state := .draining, point := .beginDraining .stopRequests }
      else none
  | .beginDrainingNext ctl =>
      match s.point with
      | .beginDraining phase => some (s.beginDrainingNext phase ctl)
      | _ => none
  | .drainComplete =>
      if s.atBoundary && s.state = .draining then
        some (if s.drainComplete.1 then { s.drainComplete.2 with state := .stopped }
          else s.drainComplete.2)
      else none
  | .deadline => if s.atBoundary && s.state = .draining then some s.abortQueues else none
  | .stopQueues => if s.state = .stopped then some s.stopQueues else none
  | .closeAll => if s.state = .stopped && s.workersExited then some s.closeAll else none

/-- What the reactor does in a step. -/
inductive ReactorMove (s : Server) : ReactorAction → Server → Prop
  | accept (fd : Fd) (ctl : Bool) (hboundary : s.atBoundary = true) (hrunning : s.state = .running)
      (hfree : s.connections.lookup fd = none) :
      ReactorMove s (.accept fd ctl) (s.handleAccept fd ctl)
  | read (fd : Fd) (outcome : RecvOutcome) (ticks : List ℕ) (hboundary : s.atBoundary = true)
      (hreadable : s.readable fd = true) (hpossible : recvPossible outcome = true) :
      ReactorMove s (.read fd outcome ticks) (s.handleRead fd outcome ticks)
  | enqueueNext (frame : Enqueue) (ctl : Bool) (hpoint : s.point = .enqueue frame) :
      ReactorMove s (.enqueueNext ctl) (s.enqueueNext frame ctl)
  | hangUp (fd : Fd) (ctl : Bool) (hboundary : s.atBoundary = true) :
      ReactorMove s (.hangUp fd ctl) (s.markReadEof fd ctl)
  | write (fd : Fd) (outcome : SendOutcome) (ctl : Bool) (hboundary : s.atBoundary = true)
      (hpossible : s.sendPossible fd outcome = true) :
      ReactorMove s (.write fd outcome ctl) (s.handleWrite fd outcome ctl)
  | socketError (fd : Fd) (hboundary : s.atBoundary = true) :
      ReactorMove s (.socketError fd) (s.closeConnection fd)
  | drainResponse (response : Response) (queue : BlockQueue Response) (ctl : Bool)
      (hboundary : s.atBoundary = true)
      (hpop : s.responseQueue.tryPop = some (response, queue)) :
      ReactorMove s (.drainResponse ctl)
        ({ s with responseQueue := queue }.applyResponse response .worker ctl)
  | drainRejected (hboundary : s.atBoundary = true) :
      ReactorMove s .drainRejected s.drainRejectedResponses
  | beginDraining (hboundary : s.atBoundary = true) (hrunning : s.state = .running) :
      ReactorMove s .beginDraining
        { s with state := .draining, point := .beginDraining .stopRequests }
  | beginDrainingNext (phase : DrainPhase) (ctl : Fd → Bool)
      (hpoint : s.point = .beginDraining phase) :
      ReactorMove s (.beginDrainingNext ctl) (s.beginDrainingNext phase ctl)
  | drainComplete (hboundary : s.atBoundary = true) (hdraining : s.state = .draining) :
      ReactorMove s .drainComplete
        (if s.drainComplete.1 then { s.drainComplete.2 with state := .stopped }
          else s.drainComplete.2)
  | deadline (hboundary : s.atBoundary = true) (hdraining : s.state = .draining) :
      ReactorMove s .deadline s.abortQueues
  | stopQueues (hstopped : s.state = .stopped) : ReactorMove s .stopQueues s.stopQueues
  | closeAll (hstopped : s.state = .stopped) (hexited : s.workersExited = true) :
      ReactorMove s .closeAll s.closeAll

theorem reactorStep_move {s t : Server} {action : ReactorAction}
    (h : s.reactorStep action = some t) : ReactorMove s action t := by
  cases action with
  | accept fd ctl =>
      obtain ⟨hguard, ⟨⟩⟩ := Option.ite_none_right_eq_some.mp h
      simp only [Bool.and_eq_true, decide_eq_true_eq, Option.isNone_iff_eq_none] at hguard
      exact .accept fd ctl hguard.1.1 hguard.1.2 hguard.2
  | read fd outcome ticks =>
      obtain ⟨hguard, ⟨⟩⟩ := Option.ite_none_right_eq_some.mp h
      simp only [Bool.and_eq_true] at hguard
      exact .read fd outcome ticks hguard.1.1 hguard.1.2 hguard.2
  | enqueueNext ctl =>
      simp only [reactorStep] at h
      split at h <;> cases h
      next frame hpoint => exact .enqueueNext frame ctl hpoint
  | hangUp fd ctl =>
      obtain ⟨hboundary, ⟨⟩⟩ := Option.ite_none_right_eq_some.mp h
      exact .hangUp fd ctl hboundary
  | write fd outcome ctl =>
      obtain ⟨hguard, ⟨⟩⟩ := Option.ite_none_right_eq_some.mp h
      simp only [Bool.and_eq_true] at hguard
      exact .write fd outcome ctl hguard.1 hguard.2
  | socketError fd =>
      obtain ⟨hboundary, ⟨⟩⟩ := Option.ite_none_right_eq_some.mp h
      exact .socketError fd hboundary
  | drainResponse ctl =>
      obtain ⟨hboundary, h⟩ := Option.ite_none_right_eq_some.mp h
      split at h <;> cases h
      next response queue hpop => exact .drainResponse response queue ctl hboundary hpop
  | drainRejected =>
      obtain ⟨hboundary, ⟨⟩⟩ := Option.ite_none_right_eq_some.mp h
      exact .drainRejected hboundary
  | beginDraining =>
      obtain ⟨hguard, ⟨⟩⟩ := Option.ite_none_right_eq_some.mp h
      simp only [Bool.and_eq_true, decide_eq_true_eq] at hguard
      exact .beginDraining hguard.1 hguard.2
  | beginDrainingNext ctl =>
      simp only [reactorStep] at h
      split at h <;> cases h
      next phase hpoint => exact .beginDrainingNext phase ctl hpoint
  | drainComplete =>
      obtain ⟨hguard, ⟨⟩⟩ := Option.ite_none_right_eq_some.mp h
      simp only [Bool.and_eq_true, decide_eq_true_eq] at hguard
      exact .drainComplete hguard.1 hguard.2
  | deadline =>
      obtain ⟨hguard, ⟨⟩⟩ := Option.ite_none_right_eq_some.mp h
      simp only [Bool.and_eq_true, decide_eq_true_eq] at hguard
      exact .deadline hguard.1 hguard.2
  | stopQueues =>
      obtain ⟨hstopped, ⟨⟩⟩ := Option.ite_none_right_eq_some.mp h
      exact .stopQueues hstopped
  | closeAll =>
      obtain ⟨hguard, ⟨⟩⟩ := Option.ite_none_right_eq_some.mp h
      simp only [Bool.and_eq_true, decide_eq_true_eq] at hguard
      exact .closeAll hguard.1 hguard.2

/-- A step of a normal worker. -/
def workerStep (library : Json.Library) (s : Server) (i : ℕ) (worker : NormalWorker) :
    WorkerAction → Option Server
  | .pop =>
      match worker with
      | .waiting => s.popRequest i
      | _ => none
  | .dispatch env =>
      match worker with
      | .handling request => some (dispatchRequest library s i env request)
      | _ => none
  | .reject =>
      match worker with
      | .refused key => some ((s.rejectConnection key).setWorker i .waiting)
      | _ => none
  | .stopResponses =>
      match worker with
      | .stopping => some ({ s with responseQueue := s.responseQueue.stop }.setWorker i .exited)
      | _ => none

/-- A step of an AUTH worker. -/
def authWorkerStep (library : Json.Library) (s : Server) (i : ℕ) (worker : AuthWorker) :
    AuthAction → Option Server
  | .pop =>
      match worker with
      | .waiting => s.popAuth i
      | _ => none
  | .testCancellation =>
      match worker with
      | .popped task => some (s.testCancellation i task)
      | _ => none
  | .handleAuth reply =>
      match worker with
      | .checking task => some (finishAuth library s i task reply)
      | _ => none
  | .offer =>
      match worker with
      | .answering task reply => some (offerAuth library s i task reply)
      | _ => none
  | .reject =>
      match worker with
      | .refused key => some ((s.rejectConnection key).setAuthWorker i .waiting)
      | _ => none
  | .stopResponses =>
      match worker with
      | .stopping => some ({ s with responseQueue := s.responseQueue.stop }.setAuthWorker i .exited)
      | _ => none

/-- What a normal worker does in a step. -/
inductive WorkerMove (library : Json.Library) (s : Server) (i : ℕ) :
    NormalWorker → WorkerAction → Server → Prop
  | pop {request : Request} {queue : BlockQueue Request}
      (hpop : s.requestQueue.pop = some (some (request, queue))) :
      WorkerMove library s i .waiting .pop
        ({ s with requestQueue := queue }.setWorker i (.handling request))
  | leave (hpop : s.requestQueue.pop = some none) :
      WorkerMove library s i .waiting .pop (s.onResponseProducerExited.2.setWorker i
        (if s.onResponseProducerExited.1 then .stopping else .exited))
  | dispatch (env : WorkerEnv) (request : Request) :
      WorkerMove library s i (.handling request) (.dispatch env)
        (dispatchRequest library s i env request)
  | reject (key : ConnectionKey) :
      WorkerMove library s i (.refused key) .reject ((s.rejectConnection key).setWorker i .waiting)
  | stopResponses :
      WorkerMove library s i .stopping .stopResponses
        ({ s with responseQueue := s.responseQueue.stop }.setWorker i .exited)

theorem workerStep_move {library : Json.Library} {s t : Server} {i : ℕ} {worker : NormalWorker}
    {action : WorkerAction} (h : workerStep library s i worker action = some t) :
    WorkerMove library s i worker action t := by
  unfold workerStep at h
  split at h <;> split at h <;> try cases h
  · unfold popRequest at h
    split at h <;> cases h
    · next hpop => exact .pop hpop
    · next hpop => exact .leave hpop
  · exact .dispatch ..
  · exact .reject _
  · exact .stopResponses

/-- What an AUTH worker does in a step. -/
inductive AuthWorkerMove (library : Json.Library) (s : Server) (i : ℕ) :
    AuthWorker → AuthAction → Server → Prop
  | pop {task : AuthTask} {queue : BlockQueue AuthTask}
      (hpop : s.authQueue.pop = some (some (task, queue))) :
      AuthWorkerMove library s i .waiting .pop
        ({ s with authQueue := queue }.setAuthWorker i (.popped task))
  | leave (hpop : s.authQueue.pop = some none) :
      AuthWorkerMove library s i .waiting .pop (s.onResponseProducerExited.2.setAuthWorker i
        (if s.onResponseProducerExited.1 then .stopping else .exited))
  | drop (task : AuthTask) (hset : s.cancelled task.cancellation = true) :
      AuthWorkerMove library s i (.popped task) .testCancellation
        ({ s with stats := { s.stats with authTasksCancelledBeforeStart :=
          s.stats.authTasksCancelledBeforeStart + 1 } }.setAuthWorker i .waiting)
  | check (task : AuthTask) (hclear : s.cancelled task.cancellation = false) :
      AuthWorkerMove library s i (.popped task) .testCancellation
        (s.setAuthWorker i (.checking task))
  | handleAuth (task : AuthTask) (reply : AuthReply) :
      AuthWorkerMove library s i (.checking task) (.handleAuth reply)
        (finishAuth library s i task reply)
  | offer (task : AuthTask) (reply : AuthReply) :
      AuthWorkerMove library s i (.answering task reply) .offer (offerAuth library s i task reply)
  | reject (key : ConnectionKey) :
      AuthWorkerMove library s i (.refused key) .reject
        ((s.rejectConnection key).setAuthWorker i .waiting)
  | stopResponses :
      AuthWorkerMove library s i .stopping .stopResponses
        ({ s with responseQueue := s.responseQueue.stop }.setAuthWorker i .exited)

theorem authWorkerStep_move {library : Json.Library} {s t : Server} {i : ℕ} {worker : AuthWorker}
    {action : AuthAction} (h : authWorkerStep library s i worker action = some t) :
    AuthWorkerMove library s i worker action t := by
  unfold authWorkerStep at h
  split at h <;> split at h <;> try cases h
  · unfold popAuth at h
    split at h <;> cases h
    · next hpop => exact .pop hpop
    · next hpop => exact .leave hpop
  · unfold testCancellation
    split
    · next hset => exact .drop _ hset
    · next hclear => exact .check _ (Bool.eq_false_iff.mpr hclear)
  · exact .handleAuth ..
  · exact .offer ..
  · exact .reject _
  · exact .stopResponses

/-- One turn of `configPullerLoop`. -/
def pullConfig (library : Json.Library) (s : Server) (body : Option Bytes) : Server :=
  match body.bind (RuntimeConfig.parseRuntimeConfig library) with
  | none => s
  | some fetched =>
      { s with
        runtimeConfig := (RuntimeConfig.applyRuntimeConfigIfNewer s.runtimeConfig fetched).2 }

/-- A step of the gateway. -/
def step (library : Json.Library) (s : Server) : Action → Option Server
  | .reactor action => s.reactorStep action
  | .worker i action => s.workers[i]?.bind fun worker => workerStep library s i worker action
  | .authWorker i action =>
      s.authWorkers[i]?.bind fun worker => authWorkerStep library s i worker action
  | .pullConfig body => some (pullConfig library s body)
  | .tick duration => some { s with now := s.now + duration }

/-- What happens in a step. -/
inductive StepMove (library : Json.Library) (s : Server) : Action → Server → Prop
  | reactor {action : ReactorAction} {t : Server} (h : s.reactorStep action = some t) :
      StepMove library s (.reactor action) t
  | worker {i : ℕ} {worker : NormalWorker} {action : WorkerAction} {t : Server}
      (hworker : s.workers[i]? = some worker)
      (h : workerStep library s i worker action = some t) :
      StepMove library s (.worker i action) t
  | authWorker {i : ℕ} {worker : AuthWorker} {action : AuthAction} {t : Server}
      (hworker : s.authWorkers[i]? = some worker)
      (h : authWorkerStep library s i worker action = some t) :
      StepMove library s (.authWorker i action) t
  | pullConfig {body : Option Bytes} {config : RuntimeConfig}
      (hpull : pullConfig library s body = { s with runtimeConfig := config }) :
      StepMove library s (.pullConfig body) { s with runtimeConfig := config }
  | tick (duration : ℕ) : StepMove library s (.tick duration) { s with now := s.now + duration }

theorem step_move {library : Json.Library} {s t : Server} {action : Action}
    (h : step library s action = some t) : StepMove library s action t := by
  cases action with
  | reactor action => exact .reactor h
  | worker i action =>
      obtain ⟨worker, hworker, h⟩ := Option.bind_eq_some_iff.mp h
      exact .worker hworker h
  | authWorker i action =>
      obtain ⟨worker, hworker, h⟩ := Option.bind_eq_some_iff.mp h
      exact .authWorker hworker h
  | pullConfig body =>
      have hpull : ∃ config, pullConfig library s body = { s with runtimeConfig := config } := by
        unfold pullConfig
        split <;> exact ⟨_, rfl⟩
      obtain ⟨config, hpull⟩ := hpull
      obtain rfl := hpull.symm.trans (Option.some.inj h)
      exact .pullConfig hpull
  | tick duration =>
      cases h
      exact .tick duration

end Server

/-- The gateway started with the given arguments. -/
def gateway (library : Json.Library) (args : Server.StartArgs) :
    Transition.System Server Action where
  init s := ∃ now, Server.start args now = some s
  step := Server.step library

/-- A run that has not reached the shutdown deadline. -/
def BeforeDeadline (_ : Server) (action : Action) : Prop := action ≠ .reactor .deadline

/-- The state a list of actions leads to from the start. -/
def Server.after (library : Json.Library) (args : Server.StartArgs) (now : ℤ)
    (actions : List Action) : Option Server :=
  (Server.start args now).bind fun s => (gateway library args).run s actions

theorem Server.after_reachable {library : Json.Library} {args : Server.StartArgs} {now : ℤ}
    {actions : List Action} {ok : Server → Action → Prop} {s : Server}
    (hok : ∀ s, ∀ action ∈ actions, ok s action)
    (h : Server.after library args now actions = some s) :
    Transition.ReachableBy (gateway library args) ok s := by
  obtain ⟨s₀, hstart, hrun⟩ := Option.bind_eq_some_iff.mp h
  exact Transition.System.run_reachable (.init ⟨now, hstart⟩) hok hrun

namespace Sample

/-- The credentials of client `a`. -/
def credentials : Bytes := text "\x7b\"client_id\":\"a\",\"token\":\"b\"\x7d"

/-- A configuration with the smallest output limit for bodies of 39 bytes and
one request in a second. -/
def settings : Bytes := text ("\x7b\"version\":2,\"max_payload_size\":39," ++
  "\"max_connections_per_client\":2,\"max_requests_per_client_per_second\":1," ++
  "\"slow_client_output_limit\":43,\"log_level\":\"INFO\"," ++
  "\"request_queue_capacity_display\":4096\x7d")

def library : Json.Library := Json.flatLibrary

/-- The frame of a request without payload. -/
def frame (type requestId : UInt8) : Bytes :=
  [0, 0, 0, 10, 1, type, 0, 0, 0, 0, 0, 0, 0, requestId]

/-- The AUTH frame of client `a`. -/
def login : Bytes := [0, 0, 0, 39, 1, 10, 0, 0, 0, 0, 0, 0, 0, 7] ++ credentials

/-- A client connects and authenticates. -/
def authentication : List Action :=
  [.reactor (.accept 5 true), .reactor (.read 5 (.data login) []),
    .reactor (.enqueueNext true), .reactor (.enqueueNext true), .reactor (.enqueueNext true),
    .authWorker 0 .pop, .authWorker 0 .testCancellation,
    .authWorker 0 (.handleAuth (.answered ⟨.allowed, []⟩)), .authWorker 0 .offer,
    .reactor (.drainResponse true)]

/-- The client then sends a `PING`, which no worker has taken yet. -/
def ping : List Action :=
  [.reactor (.read 5 (.data (frame 1 8)) [1]),
    .reactor (.enqueueNext true), .reactor (.enqueueNext true), .reactor (.enqueueNext true)]

/-- The state after these two. -/
def server : Server :=
  (Server.after library {} 0 (authentication ++ ping)).get (by decide +kernel)

theorem server_reachable : Transition.ReachableBy (gateway library {}) BeforeDeadline server :=
  Server.after_reachable (by simp [BeforeDeadline, authentication, ping]) (Option.some_get _).symm

/-- The `PING` is answered, the client closes its side and reads everything. -/
def farewell : List Action :=
  [.worker 0 .pop, .worker 0 (.dispatch ⟨true, {}⟩), .reactor (.drainResponse true),
    .reactor (.hangUp 5 true), .reactor (.write 5 (.sent 80) true),
    .reactor (.write 5 (.sent 5) true)]

/-- The state after that. -/
def drained : Server :=
  (Server.after library {} 0 (authentication ++ ping ++ farewell)).get (by decide +kernel)

theorem drained_reachable : Transition.ReachableBy (gateway library {}) BeforeDeadline drained :=
  Server.after_reachable (by simp [BeforeDeadline, authentication, ping, farewell])
    (Option.some_get _).symm

/-- A connection is closed while its AUTH frame is checked, and the descriptor
is in use again when the response arrives. -/
def reuse : List Action :=
  [.reactor (.accept 5 true), .reactor (.read 5 (.data login) []),
    .reactor (.enqueueNext true), .reactor (.enqueueNext true), .reactor (.enqueueNext true),
    .authWorker 0 .pop, .authWorker 0 .testCancellation, .reactor (.socketError 5),
    .reactor (.accept 5 true), .authWorker 0 (.handleAuth (.answered ⟨.allowed, []⟩)),
    .authWorker 0 .offer]

/-- The state after that. -/
def reused : Server := (Server.after library {} 0 reuse).get (by decide +kernel)

theorem reused_reachable : Transition.ReachableBy (gateway library {}) BeforeDeadline reused :=
  Server.after_reachable (by simp [BeforeDeadline, reuse]) (Option.some_get _).symm

/-- One worker of each kind. -/
def small : Server.StartArgs := { workerCount := 1, authWorkerCount := 1 }

/-- The client has read its answer, the server begins to drain and the workers
leave. -/
def shutdown : List Action :=
  [.reactor (.write 5 (.sent 42) true), .reactor .beginDraining,
    .reactor (.beginDrainingNext fun _ => true), .reactor (.beginDrainingNext fun _ => true),
    .reactor (.beginDrainingNext fun _ => true), .worker 0 .pop, .authWorker 0 .pop,
    .authWorker 0 .stopResponses]

/-- The state after that. -/
def finishing : Server :=
  (Server.after library small 0 (authentication ++ shutdown)).get (by decide +kernel)

theorem finishing_reachable :
    Transition.ReachableBy (gateway library small) BeforeDeadline finishing :=
  Server.after_reachable (by simp [BeforeDeadline, authentication, shutdown])
    (Option.some_get _).symm

end Sample

end GatewaySystem
