import GatewaySystem.Business.Handlers
import GatewaySystem.Concurrent.BlockQueue
import GatewaySystem.Control.RuntimeConfig
import Mathlib.Data.List.AList
import Mathlib.Logic.Function.Basic

/-!
# The state of the gateway

`Server` holds the fields of `TcpServer` that its functions read, the program
points of its threads, and the interest masks the kernel keeps for it. The
threads are the reactor, which owns the connections, the two pools of workers
and the config puller. A thread is represented by what it holds between two
accesses to shared state, so a worker that has taken a request and not yet
offered the response is `handling` it.

`log` has no counterpart in the source. It is a history, newest event first,
that every function extends and none reads.
-/

namespace GatewaySystem

/-- An AUTH request with the cell its connection cancels it through. A cell is
named by the number of its allocation. -/
structure AuthTask where
  request : Request
  cancellation : ℕ
  deriving DecidableEq, Repr

namespace AuthTask

def key (task : AuthTask) : ConnectionKey := task.request.key

def tag (task : AuthTask) : Tag := task.request.tag

/-- `makeAuthTask` refuses a request of another type. -/
def make (request : Request) (cancellation : ℕ) : Option AuthTask :=
  if request.type ≠ .auth then none else some ⟨request, cancellation⟩

end AuthTask

/-- `Connection`. -/
structure Connection where
  fd : Fd
  connId : ℕ
  inputBuffer : Bytes := []
  outputBuffer : Bytes := []
  writeOffset : ℕ := 0
  clientId : Bytes := text "client_" ++ text (toString connId)
  authenticated : Bool := false
  authPending : Bool := false
  closing : Bool := false
  readEof : Bool := false
  inFlightWork : ℕ := 0
  authCancellation : Option ℕ := none

namespace Connection

def key (connection : Connection) : ConnectionKey := ⟨connection.fd, connection.connId⟩

/-- The part of the output that the kernel has not taken. -/
def unsent (connection : Connection) : Bytes :=
  connection.outputBuffer.drop connection.writeOffset

end Connection

inductive ServerState where
  | running
  | draining
  | stopped
  deriving DecidableEq, Repr

inductive ResponseProducer where
  | normalWorker
  | authWorker
  deriving DecidableEq, Repr

inductive ResponseOrigin where
  | reactor
  | worker
  deriving DecidableEq, Repr

/-- A normal worker between two accesses to shared state. -/
inductive NormalWorker where
  | waiting
  | handling (request : Request)
  /-- Its response was refused and the connection is not yet on the list. -/
  | refused (key : ConnectionKey)
  /-- It was the last producer and has not yet stopped the response queue. -/
  | stopping
  | exited
  deriving DecidableEq, Repr

/-- How the call of `handleAuth` ends: with the answer of the control plane
client, with a standard exception, which `handleAuth` catches, or with any
other, which the loop of the worker catches. -/
inductive AuthReply where
  | answered (result : Business.AuthResult)
  | threw
  | unknown
  deriving DecidableEq, Repr

/-- An AUTH worker between two accesses to shared state. -/
inductive AuthWorker where
  | waiting
  /-- It has taken a task and not yet looked at the cancellation. -/
  | popped (task : AuthTask)
  | checking (task : AuthTask)
  /-- The call has ended and its response is not yet offered. -/
  | answering (task : AuthTask) (reply : AuthReply)
  | refused (key : ConnectionKey)
  | stopping
  | exited
  deriving DecidableEq, Repr

/-- The second half of an activation of `decodeAndEnqueue`: what is still to be
offered to the queues and to be answered by the reactor itself. -/
structure Enqueue where
  fd : Fd
  tasks : List AuthTask := []
  requests : List Request := []
  responses : List Response := []
  /-- The connection whose item was accepted and is not yet counted. -/
  admitted : Option ConnectionKey := none
  /-- Whether `markReadEof` follows. -/
  eof : Bool := false

inductive DrainPhase where
  | stopRequests
  | stopAuth
  | modifyEvents
  deriving DecidableEq, Repr

/-- The reactor between two accesses to shared state. -/
inductive ReactorPoint where
  | boundary
  | enqueue (frame : Enqueue)
  | beginDraining (phase : DrainPhase)

/-- The events of a connection besides the edge-triggered base set. -/
structure Interest where
  readable : Bool
  writable : Bool
  deriving DecidableEq, Repr

structure RateLimitWindow where
  startedAt : ℤ := 0
  count : ℤ := 0
  deriving DecidableEq, Repr

/-- The counters of `StatsManager` that describe connections and queues. -/
structure Stats where
  activeConnections : ℕ := 0
  requestQueueRejected : ℕ := 0
  responseQueueRejected : ℕ := 0
  responseQueueRejectedNormal : ℕ := 0
  responseQueueRejectedAuth : ℕ := 0
  slowClientClosed : ℕ := 0
  staleResponseDropped : ℕ := 0
  authSuccess : ℕ := 0
  authFailure : ℕ := 0
  authQueueRejected : ℕ := 0
  authTasksCancelledBeforeStart : ℕ := 0
  authAllowed : ℕ := 0
  authDenied : ℕ := 0
  authUnavailable : ℕ := 0
  authDurationCount : ℕ := 0

/-- `recordAuthResult`. -/
def Stats.recordAuthResult (stats : Stats) (outcome : Business.AuthOutcome) : Stats :=
  match outcome with
  | .allowed => { stats with
      authAllowed := stats.authAllowed + 1, authDurationCount := stats.authDurationCount + 1 }
  | .denied => { stats with
      authDenied := stats.authDenied + 1, authDurationCount := stats.authDurationCount + 1 }
  | .unavailable => { stats with
      authUnavailable := stats.authUnavailable + 1
      authDurationCount := stats.authDurationCount + 1 }

/-- What happened in a run. -/
inductive Event where
  | accepted (key : ConnectionKey)
  /-- A frame was decoded from the input of a connection. -/
  | decoded (key : ConnectionKey) (request : Request)
  /-- A request was accepted by `request_queue_` or `auth_queue_`. -/
  | admitted (request : Request)
  /-- A worker offered the response it made for a request. -/
  | offered (request : Request) (response : Response) (result : PushResult)
  /-- A response was appended to the output, under the limit then in force. -/
  | appended (key : ConnectionKey) (response : Response) (limit : ℕ)
  | authenticated (key : ConnectionKey) (clientId : Bytes)
  /-- `send` took bytes. -/
  | sent (key : ConnectionKey) (bytes : Bytes)
  /-- `allowRequestForClient` read the clock and answered. -/
  | checked (clientId : Bytes) (now : ℤ) (answer : Bool)
  /-- `closeConnection` removed the window of a client. -/
  | windowErased (clientId : Bytes) (startedAt now : ℤ)
  /-- A connection is about to be closed because `canCloseAfterDrain` said so. -/
  | drained (key : ConnectionKey)
  | closed (key : ConnectionKey)
  deriving DecidableEq

structure Server where
  state : ServerState
  responseProducersRemaining : ℕ
  nextConnId : ℕ
  requestQueue : BlockQueue Request
  authQueue : BlockQueue AuthTask
  responseQueue : BlockQueue Response
  /-- `rejected_response_connections_`, a set. -/
  rejectedResponseConnections : List ConnectionKey
  connections : AList fun _ : Fd => Connection
  rateLimitWindows : AList fun _ : Bytes => RateLimitWindow
  runtimeConfig : RuntimeConfig
  /-- The masks registered with `epoll_ctl`. -/
  interest : Fd → Option Interest
  /-- The cancellation cells: their contents and how many were allocated. -/
  cancelled : ℕ → Bool
  nextCancellation : ℕ
  workers : List NormalWorker
  authWorkers : List AuthWorker
  point : ReactorPoint
  /-- The reading of the steady clock, in nanoseconds. -/
  now : ℤ
  stats : Stats
  log : List Event

namespace Server

/-- The constructor arguments that matter after the start. -/
structure StartArgs where
  requestQueueCapacity : ℕ := 4096
  authQueueCapacity : ℕ := 32
  responseQueueCapacity : ℕ := 4096
  workerCount : ℕ := 0
  authWorkerCount : ℕ := 2
  /-- What `std::thread::hardware_concurrency` answers. -/
  hardwareConcurrency : ℕ := 0

/-- The number of normal workers `start` creates. -/
def StartArgs.workers (args : StartArgs) : ℕ :=
  if args.workerCount = 0 then
    min (if args.hardwareConcurrency = 0 then 4 else args.hardwareConcurrency) 4
  else args.workerCount

/-- The server when the loop is entered at the given clock reading. -/
def started (args : StartArgs) (now : ℤ) : Server where
  state := .running
  responseProducersRemaining := args.workers + args.authWorkerCount
  nextConnId := 1
  requestQueue := .create (max args.requestQueueCapacity 1)
  authQueue := .create (max args.authQueueCapacity 1)
  responseQueue := .create (max args.responseQueueCapacity 1)
  rejectedResponseConnections := []
  connections := ∅
  rateLimitWindows := ∅
  runtimeConfig := {}
  interest := fun _ => none
  cancelled := fun _ => false
  nextCancellation := 0
  workers := List.replicate args.workers .waiting
  authWorkers := List.replicate args.authWorkerCount .waiting
  point := .boundary
  now := now
  stats := {}
  log := []

/-- The constructor and `start`: `none` when the constructor throws. -/
def start (args : StartArgs) (now : ℤ) : Option Server :=
  if args.authWorkerCount = 0 ∨ 16 < args.authWorkerCount then none
  else if args.authQueueCapacity = 0 ∨ 65536 < args.authQueueCapacity then none
  else some (started args now)

theorem start_eq_some {args : StartArgs} {now : ℤ} {s : Server} (h : start args now = some s) :
    s = started args now := by
  obtain ⟨-, h⟩ := Option.ite_none_left_eq_some.mp h
  obtain ⟨-, h⟩ := Option.ite_none_left_eq_some.mp h
  exact (Option.some.inj h).symm

/-- Extend the history. -/
def emit (s : Server) (event : Event) : Server := { s with log := event :: s.log }

/-- Write a connection back to the table. -/
def setConnection (s : Server) (fd : Fd) (connection : Connection) : Server :=
  { s with connections := s.connections.insert fd connection }

/-- The live connection with the given key. -/
def live? (s : Server) (key : ConnectionKey) : Option Connection :=
  (s.connections.lookup key.fd).filter fun connection => connection.connId = key.connId

end Server

end GatewaySystem
