import GatewaySystem.Net.Producers

/-!
# The loop of the reactor

`gateway` leaves the order of the reactor's steps open. `TcpServer::loop` has
one: an iteration tests the stop flags, waits in `epoll_wait`, handles the
events, drains the responses and the refused connections, and, while the server
drains, tests whether it is finished or out of time. `Loop` adds to the server
where the reactor is in that order, the eventfd it is woken by, and the threads
that have published something and not yet called `notify`.

An iteration whose `epoll_wait` fails goes back to the top at once. Every step
of the loop is a step of the gateway or leaves the server alone, so what holds
of the gateway holds of the server of a loop.
-/

namespace GatewaySystem

/-- What `epoll_wait` answers: the events, of which there may be none, `EINTR`,
or another error. -/
inductive WaitOutcome where
  | events
  | interrupted
  | failed
  deriving DecidableEq, Repr

/-- Where the reactor is in an iteration. -/
inductive LoopPhase where
  /-- The test of the loop. -/
  | check
  /-- Inside `beginDraining`, called because of a stop flag or, if so marked,
  because `epoll_wait` failed. -/
  | begin (failed : Bool)
  /-- Blocked in `epoll_wait`. -/
  | wait
  | dispatch
  | drainResponses
  | drainRejected
  /-- The tests of the draining state. -/
  | finish
  | deadline
  /-- The loop was left. -/
  | left
  deriving DecidableEq, Repr

/-- The threads that call `notify`. -/
inductive Notifier where
  | worker (i : ℕ)
  | authWorker (i : ℕ)
  /-- A thread in `stop`. -/
  | stopper (i : ℕ)
  /-- A run of the signal handler. -/
  | handler (i : ℕ)
  deriving DecidableEq, Repr

structure Loop where
  server : Server
  phase : LoopPhase
  /-- The counter of the eventfd. -/
  eventfd : ℕ
  stopRequested : Bool
  signalStopRequested : Bool
  shutdownDeadline : ℤ
  /-- The threads between the change of their state and their `notify`. -/
  notifying : List Notifier
  /-- The last producer has exited since `drainComplete` was evaluated. -/
  exitUnseen : Bool
  /-- What `epoll_wait` answered in the last iteration. -/
  outcome : WaitOutcome
  /-- The last iteration of a draining server read the clock at or after the
  deadline. -/
  late : Bool

inductive LoopAction where
  | check
  | epollWait (outcome : WaitOutcome)
  | consume
  | reactor (action : ReactorAction)
  /-- The part of the iteration is done. -/
  | advance
  | drainRejected
  | drainComplete
  | deadline
  | worker (i : ℕ) (action : WorkerAction)
  | authWorker (i : ℕ) (action : AuthAction)
  | notify (thread : Notifier)
  /-- A thread calls `stop` and sets the flag. -/
  | stop (i : ℕ)
  /-- A signal arrives and the handler sets the flag. -/
  | signal (i : ℕ)
  | pullConfig (body : Option Bytes)
  | tick (duration : ℕ)

/-- The handlers that are called in a phase. -/
def LoopPhase.allows : LoopPhase → ReactorAction → Bool
  | .begin _, .beginDrainingNext _ => true
  | .dispatch, .accept .. | .dispatch, .read .. | .dispatch, .enqueueNext _
  | .dispatch, .hangUp .. | .dispatch, .write .. | .dispatch, .socketError _ => true
  | .drainResponses, .drainResponse _ => true
  | .left, .stopQueues | .left, .closeAll => true
  | _, _ => false

/-- The largest counter of an eventfd; a `write` beyond it fails with
`EAGAIN`. -/
def eventfdMax : ℕ := 2 ^ 64 - 2

/-- `ReactorNotifier::notify`. -/
def ReactorNotifier.notify (eventfd : ℕ) : ℕ :=
  if eventfd < eventfdMax then eventfd + 1 else eventfd

namespace Loop

/-- The call of `epoll_wait`, for which a draining server reads the clock. -/
def enterWait (l : Loop) : Loop :=
  { l with
    phase := .wait
    late := l.server.state = .draining && l.shutdownDeadline ≤ l.server.now }

/-- `beginDraining` up to its first access to a queue: only a running server
begins. -/
def beginDraining (shutdownTimeoutMs : ℤ) (l : Loop) (failed : Bool) : Option Loop :=
  (l.server.reactorStep .beginDraining).map fun server =>
    { l with
      server := server
      phase := .begin failed
      shutdownDeadline := l.server.now + max shutdownTimeoutMs 1 * 1000000 }

/-- Whether the step of a worker has published something: a response that was
accepted, a connection on the list, or the end of the responses. -/
def published (s : Server) (i : ℕ) : WorkerAction → Bool
  | .pop => false
  | .dispatch _ =>
      match s.workers[i]? with
      | some .waiting => true
      | _ => false
  | .reject => true
  | .stopResponses => true

def authPublished (s : Server) (i : ℕ) : AuthAction → Bool
  | .pop | .testCancellation | .handleAuth _ => false
  | .offer =>
      match s.authWorkers[i]? with
      | some .waiting => true
      | _ => false
  | .reject => true
  | .stopResponses => true

/-- Whether the step of a worker is one of the last exit: the decrement of the
counter to zero, or the stop of the response queue. -/
def lastExit (s : Server) (i : ℕ) : WorkerAction → Bool
  | .pop =>
      match s.workers[i]? with
      | some .stopping => true
      | _ => false
  | .stopResponses => true
  | _ => false

def authLastExit (s : Server) (i : ℕ) : AuthAction → Bool
  | .pop =>
      match s.authWorkers[i]? with
      | some .stopping => true
      | _ => false
  | .stopResponses => true
  | _ => false

/-- A thread changes its state and owes a `notify` if it has published. -/
def publish (l : Loop) (thread : Notifier) (server : Server) (published exit : Bool) : Loop :=
  { l with
    server := server
    notifying := if published then thread :: l.notifying else l.notifying
    exitUnseen := l.exitUnseen || exit }

/-- The top of an iteration. -/
def check (shutdownTimeoutMs : ℤ) (l : Loop) : Option Loop :=
  if l.server.state = .stopped then some { l with phase := .left }
  else if (l.stopRequested || l.signalStopRequested) && l.server.state = .running then
    l.beginDraining shutdownTimeoutMs false
  else some l.enterWait

/-- The return of `epoll_wait`: an error goes back to the top of the loop, and
one that is not `EINTR` begins to drain. -/
def epollWait (shutdownTimeoutMs : ℤ) (l : Loop) (outcome : WaitOutcome) : Option Loop :=
  match outcome with
  | .events => some { l with phase := .dispatch, outcome := .events }
  | .interrupted => some { l with phase := .check, outcome := .interrupted }
  | .failed =>
      if l.server.state = .running then
        { l with outcome := .failed }.beginDraining shutdownTimeoutMs true
      else some { l with phase := .check, outcome := .failed }

/-- The end of a part of an iteration. -/
def advance (l : Loop) : Option Loop :=
  match l.phase with
  | .begin failed =>
      if l.server.atBoundary then some (if failed then { l with phase := .check } else l.enterWait)
      else none
  | .dispatch => if l.server.atBoundary then some { l with phase := .drainResponses } else none
  | .drainResponses =>
      if l.server.responseQueue.items.isEmpty then some { l with phase := .drainRejected } else none
  | .finish => if l.server.state = .draining then none else some { l with phase := .check }
  | _ => none

/-- The evaluation of `drainComplete` in a draining server. -/
def drainComplete (l : Loop) : Option Loop :=
  (l.server.reactorStep .drainComplete).map fun server =>
    { l with
      server := server
      exitUnseen := false
      phase := if server.state = .stopped then .check else .deadline }

/-- The test of the deadline, with its reading of the clock. -/
def deadline (l : Loop) : Option Loop :=
  if l.shutdownDeadline ≤ l.server.now then
    (l.server.reactorStep .deadline).map fun server =>
      { l with server := server, phase := .check, late := true }
  else some { l with phase := .check }

/-- A step of the reactor or of another thread. -/
def step (library : Json.Library) (shutdownTimeoutMs : ℤ) (l : Loop) : LoopAction → Option Loop
  | .check => if l.phase = .check then l.check shutdownTimeoutMs else none
  | .epollWait outcome =>
      if l.phase = .wait then l.epollWait shutdownTimeoutMs outcome else none
  | .consume => if l.phase = .dispatch then some { l with eventfd := 0 } else none
  | .reactor action =>
      if l.phase.allows action then
        (l.server.reactorStep action).map fun server => { l with server := server }
      else none
  | .advance => l.advance
  | .drainRejected =>
      if l.phase = .drainRejected then
        (l.server.reactorStep .drainRejected).map fun server =>
          { l with server := server, phase := .finish }
      else none
  | .drainComplete => if l.phase = .finish then l.drainComplete else none
  | .deadline => if l.phase = .deadline then l.deadline else none
  | .worker i action =>
      if .worker i ∈ l.notifying then none
      else (l.server.step library (.worker i action)).map fun server =>
        l.publish (.worker i) server (published server i action) (lastExit server i action)
  | .authWorker i action =>
      if .authWorker i ∈ l.notifying then none
      else (l.server.step library (.authWorker i action)).map fun server =>
        l.publish (.authWorker i) server (authPublished server i action)
          (authLastExit server i action)
  | .notify thread =>
      if thread ∈ l.notifying then
        some { l with
          notifying := l.notifying.erase thread
          eventfd := ReactorNotifier.notify l.eventfd }
      else none
  | .stop i =>
      if .stopper i ∈ l.notifying then none
      else some { l with stopRequested := true, notifying := .stopper i :: l.notifying }
  | .signal i =>
      if .handler i ∈ l.notifying then none
      else some { l with signalStopRequested := true, notifying := .handler i :: l.notifying }
  | .pullConfig body =>
      (l.server.step library (.pullConfig body)).map fun server => { l with server := server }
  | .tick duration =>
      (l.server.step library (.tick duration)).map fun server => { l with server := server }

/-- The loop when it is entered. -/
def enter (server : Server) : Loop where
  server := server
  phase := .check
  eventfd := 0
  stopRequested := false
  signalStopRequested := false
  shutdownDeadline := 0
  notifying := []
  exitUnseen := false
  outcome := .events
  late := false

end Loop

/-- The loop of a server started with the given arguments. -/
def reactorLoop (library : Json.Library) (args : Server.StartArgs) (shutdownTimeoutMs : ℤ) :
    Transition.System Loop LoopAction where
  init l := ∃ now s, Server.start args now = some s ∧ l = Loop.enter s
  step := Loop.step library shutdownTimeoutMs

namespace Server

variable {library : Json.Library} {s t : Server}

/-- What the step of a worker means to the reactor. -/
structure Produces (s t : Server) (published last : Bool) : Prop where
  frame : Untouched s t
  now : t.now = s.now
  requestQueue : t.requestQueue.stopped = s.requestQueue.stopped
  authQueue : t.authQueue.stopped = s.authQueue.stopped
  /-- Without a publication there is nothing new for it. -/
  silent : published = false → t.responseQueue = s.responseQueue ∧
    t.rejectedResponseConnections = s.rejectedResponseConnections
  /-- A worker that was about to stop the responses has done it or still is. -/
  stopping : .stopping ∈ s.producers → published = true ∨ .stopping ∈ t.producers
  exit : last = true → published = true ∨ .stopping ∈ t.producers
  /-- The last one exits only when a queue was stopped. -/
  exited : last = true ∨ .stopping ∈ t.producers →
    .stopping ∈ s.producers ∨ s.requestQueue.stopped = true ∨ s.authQueue.stopped = true

/-- A change of one producer. -/
theorem stopping_set {producers : List Producer} {i : ℕ} {old new : Producer}
    (hold : producers[i]? = some old) (hne : old ≠ .stopping) (h : .stopping ∈ producers) :
    .stopping ∈ producers.set i new := by
  obtain ⟨j, hj⟩ := List.mem_iff_getElem?.mp h
  refine List.mem_iff_getElem?.mpr ⟨j, ?_⟩
  have hij : i ≠ j := by
    rintro rfl
    exact hne (Option.some.inj (hold.symm.trans hj))
  rw [List.getElem?_set_ne hij, hj]

/-- The step of one producer. -/
theorem Produces.of_set {published last : Bool} {i : ℕ} {old new : Producer}
    (hi : s.producers[i]? = some old) (hproducers : t.producers = s.producers.set i new)
    (hframe : Untouched s t) (hnow : t.now = s.now)
    (hrequests : t.requestQueue.stopped = s.requestQueue.stopped)
    (hauth : t.authQueue.stopped = s.authQueue.stopped)
    (hsilent : published = false → t.responseQueue = s.responseQueue ∧
      t.rejectedResponseConnections = s.rejectedResponseConnections)
    (hold : old = .stopping → published = true)
    (hlast : last = true → published = true ∨ new = .stopping)
    (hexited : last = true ∨ new = .stopping →
      old = .stopping ∨ s.requestQueue.stopped = true ∨ s.authQueue.stopped = true) :
    Produces s t published last where
  frame := hframe
  now := hnow
  requestQueue := hrequests
  authQueue := hauth
  silent := hsilent
  stopping hmem := by
    by_cases hstopping : old = .stopping
    · exact .inl (hold hstopping)
    · exact .inr (hproducers ▸ stopping_set hi hstopping hmem)
  exit h := by
    refine (hlast h).imp_right fun hnew => ?_
    obtain ⟨hlt, -⟩ := List.getElem?_eq_some_iff.mp hi
    rw [hproducers, hnew]
    exact List.mem_set hlt _
  exited h := by
    have hall : last = true ∨ new = .stopping → .stopping ∈ s.producers ∨
        s.requestQueue.stopped = true ∨ s.authQueue.stopped = true := by
      intro h
      rcases hexited h with rfl | hstopped
      · exact .inl (List.mem_of_getElem? hi)
      · exact .inr hstopped
    rcases h with h | h
    · exact hall (.inl h)
    · rw [hproducers] at h
      rcases List.mem_or_eq_of_mem_set h with h | h
      · exact .inl h
      · exact hall (.inr h.symm)

/-- What the offer of a response leaves alone. -/
theorem enqueueWorkerResponse_kept (s : Server) (request : Request) (response : Response)
    (producer : ResponseProducer) {offer : Bool × Server}
    (h : s.enqueueWorkerResponse request response producer = offer) :
    offer.2.now = s.now ∧ offer.2.requestQueue = s.requestQueue ∧
      offer.2.authQueue = s.authQueue ∧ offer.2.workers = s.workers ∧
      offer.2.authWorkers = s.authWorkers ∧
      offer.2.rejectedResponseConnections = s.rejectedResponseConnections ∧
      (offer.1 = false → offer.2.responseQueue = s.responseQueue) := by
  subst h
  unfold enqueueWorkerResponse
  simp only
  split
  · exact ⟨rfl, rfl, rfl, rfl, rfl, rfl, nofun⟩
  · exact ⟨rfl, rfl, rfl, rfl, rfl, rfl, fun _ => rfl⟩

theorem workerStep_produces {i : ℕ} {worker : NormalWorker} {action : WorkerAction}
    (hworker : s.workers[i]? = some worker)
    (h : workerStep library s i worker action = some t) :
    Produces s t (Loop.published t i action) (Loop.lastExit t i action) := by
  have hi := producers_getElem? hworker
  have hframe := workerStep_untouched h
  obtain ⟨hlt, -⟩ := List.getElem?_eq_some_iff.mp hworker
  have hset : ∀ (u : Server) (new : NormalWorker), u.workers = s.workers →
      u.authWorkers = s.authWorkers →
        (u.setWorker i new).producers = s.producers.set i new.producer ∧
          (u.setWorker i new).workers[i]? = some new := by
    intro u new hworkers hauthWorkers
    have hproducers := congrArg Shared.producers (shared_setWorker u (hworkers ▸ hlt) new)
    refine ⟨hproducers.trans ?_, ?_⟩
    · rw [producers, producers, hworkers, hauthWorkers]
    · rw [setWorker, hworkers, List.getElem?_set_self hlt]
  cases workerStep_move h with
  | @pop request queue hpop =>
      obtain ⟨hproducers, hnew⟩ := hset { s with requestQueue := queue } (.handling request)
        rfl rfl
      refine .of_set hi hproducers hframe rfl (BlockQueue.pop_item hpop).2.1 rfl
        (fun _ => ⟨rfl, rfl⟩) (by rintro ⟨⟩) ?_ ?_ <;>
        simp [Loop.lastExit, hnew, NormalWorker.producer]
  | leave hpop =>
      obtain ⟨hproducers, hnew⟩ := hset s.onResponseProducerExited.2
        (if s.onResponseProducerExited.1 then .stopping else .exited) rfl rfl
      have hstopped := (BlockQueue.pop_finished hpop).1
      refine .of_set hi hproducers hframe rfl rfl rfl (fun _ => ⟨rfl, rfl⟩) (by rintro ⟨⟩) ?_
        fun _ => .inr (.inl hstopped)
      simp only [Loop.lastExit, hnew]
      cases s.onResponseProducerExited.1 <;> simp [NormalWorker.producer]
  | dispatch env request =>
      unfold dispatchRequest at hframe ⊢
      simp only at hframe ⊢
      generalize hoffer : s.enqueueWorkerResponse request (workerResponse library env request)
        .normalWorker = offer at hframe ⊢
      obtain ⟨hnow, hrequests, hauth, hworkers, hauthWorkers, hrejected, hrefused⟩ :=
        s.enqueueWorkerResponse_kept request _ _ hoffer
      obtain ⟨hproducers, hnew⟩ := hset offer.2
        (if offer.1 then .waiting else .refused request.key) hworkers hauthWorkers
      refine .of_set hi hproducers hframe hnow (congrArg _ hrequests) (congrArg _ hauth)
        ?_ (by rintro ⟨⟩) (by rintro ⟨⟩) ?_
      · simp only [Loop.published, hnew]
        cases haccepted : offer.1 with
        | true => simp
        | false => exact fun _ => ⟨hrefused haccepted, hrejected⟩
      · cases offer.1 <;> simp [Loop.lastExit, NormalWorker.producer]
  | reject key =>
      obtain ⟨hproducers, -⟩ := hset (s.rejectConnection key) .waiting rfl rfl
      exact .of_set hi hproducers hframe rfl rfl rfl (by rintro ⟨⟩) (fun _ => rfl)
        (by rintro ⟨⟩) (by simp [Loop.lastExit, NormalWorker.producer])
  | stopResponses =>
      obtain ⟨hproducers, -⟩ := hset { s with responseQueue := s.responseQueue.stop } .exited
        rfl rfl
      exact .of_set hi hproducers hframe rfl rfl rfl (by rintro ⟨⟩) (fun _ => rfl)
        (fun _ => .inl rfl) fun _ => .inl rfl

theorem authWorkerStep_produces {i : ℕ} {worker : AuthWorker} {action : AuthAction}
    (hworker : s.authWorkers[i]? = some worker)
    (h : authWorkerStep library s i worker action = some t) :
    Produces s t (Loop.authPublished t i action) (Loop.authLastExit t i action) := by
  have hi := producers_getElem?_auth hworker
  have hframe := authWorkerStep_untouched h
  obtain ⟨hlt, -⟩ := List.getElem?_eq_some_iff.mp hworker
  have hset : ∀ (u : Server) (new : AuthWorker), u.workers = s.workers →
      u.authWorkers = s.authWorkers →
        (u.setAuthWorker i new).producers =
            s.producers.set (s.workers.length + i) new.producer ∧
          (u.setAuthWorker i new).authWorkers[i]? = some new := by
    intro u new hworkers hauthWorkers
    have hproducers := congrArg Shared.producers (shared_setAuthWorker u i new)
    refine ⟨hproducers.trans ?_, ?_⟩
    · rw [producers, producers, hworkers, hauthWorkers]
    · rw [setAuthWorker, hauthWorkers, List.getElem?_set_self hlt]
  have hwork : ∀ (u : Server) (new : AuthWorker), worker.producer = .working →
      new.producer = .working → t = u.setAuthWorker i new → u.workers = s.workers →
      u.authWorkers = s.authWorkers → u.now = s.now →
      u.requestQueue.stopped = s.requestQueue.stopped →
      u.authQueue.stopped = s.authQueue.stopped → u.responseQueue = s.responseQueue →
      u.rejectedResponseConnections = s.rejectedResponseConnections →
        Produces s t false false := by
    intro u new hold hworking ht hworkers hauthWorkers hnow hrequests hauth hresponses hrejected
    subst ht
    obtain ⟨hproducers, -⟩ := hset u new hworkers hauthWorkers
    exact .of_set hi hproducers hframe hnow hrequests hauth (fun _ => ⟨hresponses, hrejected⟩)
      (by simp [hold]) (by rintro ⟨⟩) (by simp [hworking])
  cases authWorkerStep_move h with
  | @pop task queue hpop =>
      obtain ⟨-, hnew⟩ := hset { s with authQueue := queue } (.popped task) rfl rfl
      simp only [Loop.authPublished, Loop.authLastExit, hnew]
      exact hwork _ _ rfl rfl rfl rfl rfl rfl rfl (BlockQueue.pop_item hpop).2.1 rfl rfl
  | leave hpop =>
      obtain ⟨hproducers, hnew⟩ := hset s.onResponseProducerExited.2
        (if s.onResponseProducerExited.1 then .stopping else .exited) rfl rfl
      have hstopped := (BlockQueue.pop_finished hpop).1
      refine .of_set hi hproducers hframe rfl rfl rfl (fun _ => ⟨rfl, rfl⟩) (by rintro ⟨⟩) ?_
        fun _ => .inr (.inr hstopped)
      simp only [Loop.authLastExit, hnew]
      cases s.onResponseProducerExited.1 <;> simp [AuthWorker.producer]
  | drop | check | handleAuth => exact hwork _ _ rfl rfl rfl rfl rfl rfl rfl rfl rfl rfl
  | offer task reply =>
      unfold offerAuth at hframe ⊢
      simp only at hframe ⊢
      generalize hoffer : s.enqueueWorkerResponse task.request
        (authHandling library task.request reply).response .authWorker = offer at hframe ⊢
      obtain ⟨hnow, hrequests, hauth, hworkers, hauthWorkers, hrejected, hrefused⟩ :=
        s.enqueueWorkerResponse_kept task.request _ _ hoffer
      obtain ⟨hproducers, hnew⟩ := hset offer.2
        (if offer.1 then .waiting else .refused task.key) hworkers hauthWorkers
      refine .of_set hi hproducers hframe hnow (congrArg _ hrequests) (congrArg _ hauth)
        ?_ (by rintro ⟨⟩) (by rintro ⟨⟩) ?_
      · simp only [Loop.authPublished, hnew]
        cases haccepted : offer.1 with
        | true => simp
        | false => exact fun _ => ⟨hrefused haccepted, hrejected⟩
      · cases offer.1 <;> simp [Loop.authLastExit, AuthWorker.producer]
  | reject key =>
      obtain ⟨hproducers, -⟩ := hset (s.rejectConnection key) .waiting rfl rfl
      exact .of_set hi hproducers hframe rfl rfl rfl (by rintro ⟨⟩) (fun _ => rfl)
        (by rintro ⟨⟩) (by simp [Loop.authLastExit, AuthWorker.producer])
  | stopResponses =>
      obtain ⟨hproducers, -⟩ := hset { s with responseQueue := s.responseQueue.stop } .exited
        rfl rfl
      exact .of_set hi hproducers hframe rfl rfl rfl (by rintro ⟨⟩) (fun _ => rfl)
        (fun _ => .inl rfl) fun _ => .inl rfl

end Server

namespace Loop

variable {library : Json.Library} {args : Server.StartArgs} {shutdownTimeoutMs : ℤ} {l l' : Loop}

/-- What a step of the loop can be. -/
inductive Move (library : Json.Library) (shutdownTimeoutMs : ℤ) (l : Loop) : Loop → Prop
  | leave (hphase : l.phase = .check) (hstate : l.server.state = .stopped) :
      Move library shutdownTimeoutMs l { l with phase := .left }
  | begin {server : Server} (failed : Bool) (outcome : WaitOutcome)
      (hphase : l.phase = if failed then .wait else .check)
      (hserver : l.server.reactorStep .beginDraining = some server) :
      Move library shutdownTimeoutMs l { l with
        server := server
        phase := .begin failed
        outcome := outcome
        shutdownDeadline := l.server.now + max shutdownTimeoutMs 1 * 1000000 }
  | wait (hphase : l.phase = .check ∨ l.phase = .begin false)
      (hstate : l.phase = .check → l.server.state ≠ .stopped)
      (hstop : l.phase = .check → (l.stopRequested || l.signalStopRequested) = true →
        l.server.state ≠ .running) :
      Move library shutdownTimeoutMs l l.enterWait
  | wake (hphase : l.phase = .wait) :
      Move library shutdownTimeoutMs l { l with phase := .dispatch, outcome := .events }
  /-- `epoll_wait` failed. -/
  | retry (hphase : l.phase = .wait) (outcome : WaitOutcome) (houtcome : outcome ≠ .events) :
      Move library shutdownTimeoutMs l { l with phase := .check, outcome := outcome }
  | begun (hphase : l.phase = .begin true) :
      Move library shutdownTimeoutMs l { l with phase := .check }
  | consume (hphase : l.phase = .dispatch) :
      Move library shutdownTimeoutMs l { l with eventfd := 0 }
  | handle {server : Server} {action : ReactorAction} (hallows : l.phase.allows action = true)
      (hserver : l.server.reactorStep action = some server) :
      Move library shutdownTimeoutMs l { l with server := server }
  | dispatched (hphase : l.phase = .dispatch) :
      Move library shutdownTimeoutMs l { l with phase := .drainResponses }
  | drained (hphase : l.phase = .drainResponses) (hitems : l.server.responseQueue.items = []) :
      Move library shutdownTimeoutMs l { l with phase := .drainRejected }
  | rejected {server : Server} (hphase : l.phase = .drainRejected)
      (hserver : l.server.reactorStep .drainRejected = some server) :
      Move library shutdownTimeoutMs l { l with server := server, phase := .finish }
  | idle (hphase : l.phase = .finish) (hstate : l.server.state ≠ .draining) :
      Move library shutdownTimeoutMs l { l with phase := .check }
  | evaluate {server : Server} (hphase : l.phase = .finish)
      (hserver : l.server.reactorStep .drainComplete = some server) :
      Move library shutdownTimeoutMs l { l with
        server := server
        exitUnseen := false
        phase := if server.state = .stopped then .check else .deadline }
  | expire {server : Server} (hphase : l.phase = .deadline)
      (hlate : l.shutdownDeadline ≤ l.server.now)
      (hserver : l.server.reactorStep .deadline = some server) :
      Move library shutdownTimeoutMs l { l with server := server, phase := .check, late := true }
  | early (hphase : l.phase = .deadline) (hearly : l.server.now < l.shutdownDeadline) :
      Move library shutdownTimeoutMs l { l with phase := .check }
  | produce {server : Server} {action : Action} (thread : Notifier) (published last : Bool)
      (haction : (∃ i own, action = .worker i own) ∨ ∃ i own, action = .authWorker i own)
      (hserver : l.server.step library action = some server)
      (hproduces : Server.Produces l.server server published last) :
      Move library shutdownTimeoutMs l (l.publish thread server published last)
  | notify {thread : Notifier} (hthread : thread ∈ l.notifying) :
      Move library shutdownTimeoutMs l { l with
        notifying := l.notifying.erase thread
        eventfd := ReactorNotifier.notify l.eventfd }
  | request (thread : Notifier) (stopRequested signalStopRequested : Bool) :
      Move library shutdownTimeoutMs l { l with
        stopRequested := stopRequested
        signalStopRequested := signalStopRequested
        notifying := thread :: l.notifying }
  | pull (body : Option Bytes) :
      Move library shutdownTimeoutMs l { l with server := Server.pullConfig library l.server body }
  | tick (duration : ℕ) :
      Move library shutdownTimeoutMs l
        { l with server := { l.server with now := l.server.now + duration } }

theorem check_move (hphase : l.phase = .check) (h : l.check shutdownTimeoutMs = some l') :
    Move library shutdownTimeoutMs l l' := by
  unfold check at h
  split at h
  · next hstate =>
      obtain rfl := Option.some.inj h
      exact .leave hphase hstate
  · next hstate =>
      split at h
      · obtain ⟨server, hserver, rfl⟩ := Option.map_eq_some_iff.mp h
        exact .begin false l.outcome hphase hserver
      · next hstop =>
          obtain rfl := Option.some.inj h
          refine .wait (.inl hphase) (fun _ => hstate) fun _ hflag hrun => hstop ?_
          rw [hflag, hrun]
          rfl

theorem epollWait_move (hphase : l.phase = .wait) {outcome : WaitOutcome}
    (h : l.epollWait shutdownTimeoutMs outcome = some l') :
    Move library shutdownTimeoutMs l l' := by
  cases outcome with
  | events =>
      obtain rfl := Option.some.inj h
      exact .wake hphase
  | interrupted =>
      obtain rfl := Option.some.inj h
      exact .retry hphase .interrupted nofun
  | failed =>
      simp only [epollWait] at h
      split at h
      · obtain ⟨server, hserver, rfl⟩ := Option.map_eq_some_iff.mp h
        exact .begin true .failed hphase hserver
      · obtain rfl := Option.some.inj h
        exact .retry hphase .failed nofun

theorem advance_move (h : l.advance = some l') : Move library shutdownTimeoutMs l l' := by
  unfold advance at h
  split at h
  · next failed hphase =>
      obtain ⟨-, h⟩ := Option.ite_none_right_eq_some.mp h
      obtain rfl := Option.some.inj h
      cases failed with
      | true => exact .begun hphase
      | false =>
          have hne : l.phase ≠ .check := by
            rw [hphase]
            exact nofun
          exact .wait (.inr hphase) (fun hcheck => absurd hcheck hne) fun hcheck =>
            absurd hcheck hne
  · next hphase =>
      obtain ⟨-, ⟨⟩⟩ := Option.ite_none_right_eq_some.mp h
      exact .dispatched hphase
  · next hphase =>
      obtain ⟨hitems, ⟨⟩⟩ := Option.ite_none_right_eq_some.mp h
      exact .drained hphase (List.isEmpty_iff.mp hitems)
  · next hphase =>
      obtain ⟨hstate, ⟨⟩⟩ := Option.ite_none_left_eq_some.mp h
      exact .idle hphase hstate
  · cases h

theorem step_move {action : LoopAction} (h : l.step library shutdownTimeoutMs action = some l') :
    Move library shutdownTimeoutMs l l' := by
  cases action with
  | check =>
      obtain ⟨hphase, h⟩ := Option.ite_none_right_eq_some.mp h
      exact check_move hphase h
  | epollWait outcome =>
      obtain ⟨hphase, h⟩ := Option.ite_none_right_eq_some.mp h
      exact epollWait_move hphase h
  | consume =>
      obtain ⟨hphase, ⟨⟩⟩ := Option.ite_none_right_eq_some.mp h
      exact .consume hphase
  | reactor action =>
      obtain ⟨hallows, h⟩ := Option.ite_none_right_eq_some.mp h
      obtain ⟨server, hserver, rfl⟩ := Option.map_eq_some_iff.mp h
      exact .handle hallows hserver
  | advance => exact advance_move h
  | drainRejected =>
      obtain ⟨hphase, h⟩ := Option.ite_none_right_eq_some.mp h
      obtain ⟨server, hserver, rfl⟩ := Option.map_eq_some_iff.mp h
      exact .rejected hphase hserver
  | drainComplete =>
      obtain ⟨hphase, h⟩ := Option.ite_none_right_eq_some.mp h
      obtain ⟨server, hserver, rfl⟩ := Option.map_eq_some_iff.mp h
      exact .evaluate hphase hserver
  | deadline =>
      obtain ⟨hphase, h⟩ := Option.ite_none_right_eq_some.mp h
      unfold deadline at h
      split at h
      · next hlate =>
          obtain ⟨server, hserver, rfl⟩ := Option.map_eq_some_iff.mp h
          exact .expire hphase hlate hserver
      · next hearly =>
          obtain rfl := Option.some.inj h
          exact .early hphase (not_le.mp hearly)
  | worker i action =>
      obtain ⟨-, h⟩ := Option.ite_none_left_eq_some.mp h
      obtain ⟨server, hserver, rfl⟩ := Option.map_eq_some_iff.mp h
      obtain ⟨worker, hworker, hstep⟩ := Option.bind_eq_some_iff.mp hserver
      exact .produce (.worker i) _ _ (.inl ⟨i, action, rfl⟩) hserver
        (Server.workerStep_produces hworker hstep)
  | authWorker i action =>
      obtain ⟨-, h⟩ := Option.ite_none_left_eq_some.mp h
      obtain ⟨server, hserver, rfl⟩ := Option.map_eq_some_iff.mp h
      obtain ⟨worker, hworker, hstep⟩ := Option.bind_eq_some_iff.mp hserver
      exact .produce (.authWorker i) _ _ (.inr ⟨i, action, rfl⟩) hserver
        (Server.authWorkerStep_produces hworker hstep)
  | notify thread =>
      obtain ⟨hthread, ⟨⟩⟩ := Option.ite_none_right_eq_some.mp h
      exact .notify hthread
  | stop i =>
      obtain ⟨-, ⟨⟩⟩ := Option.ite_none_left_eq_some.mp h
      exact .request (.stopper i) true l.signalStopRequested
  | signal i =>
      obtain ⟨-, ⟨⟩⟩ := Option.ite_none_left_eq_some.mp h
      exact .request (.handler i) l.stopRequested true
  | pullConfig body =>
      obtain rfl := Option.some.inj h
      exact .pull body
  | tick duration =>
      obtain rfl := Option.some.inj h
      exact .tick duration

/-- A step of the loop is one of the gateway or leaves the server alone. -/
theorem Move.server (h : Move library shutdownTimeoutMs l l') :
    l'.server = l.server ∨ ∃ action, l.server.step library action = some l'.server := by
  cases h with
  | begin _ _ _ hserver => exact .inr ⟨.reactor .beginDraining, hserver⟩
  | handle _ hserver => exact .inr ⟨.reactor _, hserver⟩
  | rejected _ hserver => exact .inr ⟨.reactor .drainRejected, hserver⟩
  | evaluate _ hserver => exact .inr ⟨.reactor .drainComplete, hserver⟩
  | expire _ _ hserver => exact .inr ⟨.reactor .deadline, hserver⟩
  | produce _ _ _ _ hserver => exact .inr ⟨_, hserver⟩
  | pull body => exact .inr ⟨.pullConfig body, rfl⟩
  | tick duration => exact .inr ⟨.tick duration, rfl⟩
  | _ => exact .inl rfl

/-- What holds of the gateway holds of the server of a loop. -/
theorem server_reachable (h : Transition.Reachable (reactorLoop library args shutdownTimeoutMs) l) :
    Transition.Reachable (gateway library args) l.server := by
  refine Transition.ReachableBy.invariant
    (I := fun l => Transition.Reachable (gateway library args) l.server) ?_ ?_ h
  · rintro l ⟨now, s, hstart, rfl⟩
    exact .init ⟨now, hstart⟩
  · intro l action l' _ hserver _ hstep
    rcases (step_move hstep).server with hsame | ⟨own, hown⟩
    · rw [hsame]
      exact hserver
    · exact .step hserver trivial hown

/-- The loop a list of actions leads to from the start. -/
def after (library : Json.Library) (args : Server.StartArgs) (shutdownTimeoutMs now : ℤ)
    (actions : List LoopAction) : Option Loop :=
  (Server.start args now).bind fun s =>
    (reactorLoop library args shutdownTimeoutMs).run (enter s) actions

theorem after_reachable {now : ℤ} {actions : List LoopAction}
    (h : after library args shutdownTimeoutMs now actions = some l) :
    Transition.Reachable (reactorLoop library args shutdownTimeoutMs) l := by
  obtain ⟨s, hstart, hrun⟩ := Option.bind_eq_some_iff.mp h
  exact Transition.System.run_reachable (.init ⟨now, s, hstart, rfl⟩) (fun _ _ _ => trivial) hrun

end Loop

namespace Sample

/-- An iteration in which a client connects and sends its AUTH frame. -/
def authIteration : List LoopAction :=
  [.check, .epollWait .events, .reactor (.accept 5 true),
    .reactor (.read 5 (.data login) []), .reactor (.enqueueNext true),
    .reactor (.enqueueNext true), .reactor (.enqueueNext true), .advance, .advance,
    .drainRejected, .advance]

/-- The reactor waits again, and the AUTH worker has pushed its response. -/
def answered : Loop :=
  (Loop.after library {} 5000 0 (authIteration ++ [.check, .authWorker 0 .pop,
    .authWorker 0 .testCancellation, .authWorker 0 (.handleAuth (.answered ⟨.allowed, []⟩)),
    .authWorker 0 .offer])).get (by decide +kernel)

theorem answered_reachable : Transition.Reachable (reactorLoop library {} 5000) answered :=
  Loop.after_reachable (Option.some_get _).symm

end Sample

end GatewaySystem
