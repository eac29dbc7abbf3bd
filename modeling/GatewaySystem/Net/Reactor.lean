import GatewaySystem.Net.Server

/-!
# The functions of the reactor thread

Each function is the one of `TcpServer` with its name. What the kernel answers
is an argument: the boolean of a function that ends in `modifyConnectionEvents`
is whether `epoll_ctl` succeeded, a list of ticks is how far the steady clock
moved before each reading.

`decodeAndEnqueue` is cut where it first touches a queue. Up to there
(`decodeAndEnqueue`) it decodes, classifies the frames and may close the
connection; from there on (`enqueueNext`) it makes one access to a shared
queue, one increment of the work counter or one local answer at a time, and
the workers may run in between.
-/

namespace GatewaySystem

/-- What `recv` answers. -/
inductive RecvOutcome where
  | data (bytes : Bytes)
  | eof
  | interrupted
  | again
  | failed
  deriving DecidableEq, Repr

/-- What `send` answers. -/
inductive SendOutcome where
  | sent (count : ℕ)
  | interrupted
  | again
  | failed
  deriving DecidableEq, Repr

/-- One second of the steady clock. -/
def second : ℤ := 1000000000

/-- The size of the buffer `recv` reads into. -/
def recvBufferSize : ℕ := 4096

/-- The cast of an `int` to `uint32_t`. -/
def toUInt32 (value : ℤ) : ℕ := (value % 2 ^ 32).toNat

/-- The cast of an `int` to `size_t`. -/
def toSize (value : ℤ) : ℕ := (value % 2 ^ 64).toNat

namespace Server

/-- `connectionEvents`. -/
def connectionEvents (s : Server) (connection : Connection) : Interest where
  readable := s.state = .running && !connection.closing && !connection.readEof
  writable := connection.writeOffset < connection.outputBuffer.length

/-- `canCloseAfterDrain`. -/
def canCloseAfterDrain (s : Server) (connection : Connection) : Bool :=
  (connection.closing || connection.readEof || s.state = .draining) &&
    connection.inFlightWork = 0 && connection.outputBuffer.length ≤ connection.writeOffset

/-- `countAuthenticatedConnectionsForClient`. -/
def countAuthenticatedConnectionsForClient (s : Server) (clientId : Bytes) (excludeFd : Fd) : ℕ :=
  s.connections.entries.countP fun entry =>
    entry.1 ≠ excludeFd && entry.2.authenticated && entry.2.clientId = clientId

/-- `rate_limit_windows_.erase`. -/
def eraseWindow (s : Server) (clientId : Bytes) : Server :=
  match s.rateLimitWindows.lookup clientId with
  | none => s
  | some window =>
      { s with rateLimitWindows := s.rateLimitWindows.erase clientId }.emit
        (.windowErased clientId window.startedAt s.now)

/-- Set the cancellation cell of a connection, if it has one. -/
def cancelAuth (s : Server) (connection : Connection) : Server :=
  match connection.authCancellation with
  | none => s
  | some cell => { s with cancelled := Function.update s.cancelled cell true }

/-- Take a connection out of the table, of `epoll` and of the kernel. -/
def eraseConnection (s : Server) (fd : Fd) : Server :=
  { s with
    connections := s.connections.erase fd
    interest := Function.update s.interest fd none
    stats := { s.stats with activeConnections := s.stats.activeConnections - 1 } }

/-- The window of a client goes with its last authenticated connection. -/
def releaseClient (s : Server) (connection : Connection) : Server :=
  if connection.authenticated &&
      s.countAuthenticatedConnectionsForClient connection.clientId (-1) = 0 then
    s.eraseWindow connection.clientId
  else s

/-- `closeConnection`. -/
def closeConnection (s : Server) (fd : Fd) : Server :=
  match s.connections.lookup fd with
  | none => s
  | some connection =>
      (((s.cancelAuth connection).eraseConnection fd).releaseClient connection).emit
        (.closed ⟨fd, connection.connId⟩)

/-- `modifyConnectionEvents`: a failing `epoll_ctl` closes the connection. -/
def modifyConnectionEvents (s : Server) (fd : Fd) (events : Interest) (ctl : Bool) : Server :=
  if ctl then { s with interest := Function.update s.interest fd (some events) }
  else s.closeConnection fd

/-- The call of `closeConnection` after `canCloseAfterDrain` said yes. -/
def closeDrained (s : Server) (fd : Fd) (connection : Connection) : Server :=
  (s.emit (.drained ⟨fd, connection.connId⟩)).closeConnection fd

/-- `maybeCloseAfterDrain`. -/
def maybeCloseAfterDrain (s : Server) (fd : Fd) : Server :=
  match s.connections.lookup fd with
  | none => s
  | some connection =>
      if s.canCloseAfterDrain connection then s.closeDrained fd connection else s

/-- One accepted descriptor in `handleAccept`: the number is taken before the
registration, so a failed one uses it up. -/
def handleAccept (s : Server) (fd : Fd) (ctl : Bool) : Server :=
  let connection : Connection := { fd := fd, connId := s.nextConnId }
  let s := { s with nextConnId := s.nextConnId + 1 }
  if ctl then
    { s with
      connections := s.connections.insert fd connection
      interest := Function.update s.interest fd (some (s.connectionEvents connection))
      stats := { s.stats with activeConnections := s.stats.activeConnections + 1 } }.emit
      (.accepted connection.key)
  else s

/-- `markReadEof`. -/
def markReadEof (s : Server) (fd : Fd) (ctl : Bool) : Server :=
  match s.connections.lookup fd with
  | none => s
  | some connection =>
      if connection.readEof then s.maybeCloseAfterDrain fd
      else
        let current := { connection with readEof := true }
        let s := s.setConnection fd current
        if s.canCloseAfterDrain current then s.closeDrained fd current
        else s.modifyConnectionEvents fd (s.connectionEvents current) ctl

/-- The branch of `handleWrite` for an output that is all sent. -/
def finishWrite (s : Server) (fd : Fd) (current : Connection) (ctl : Bool) : Server :=
  if s.canCloseAfterDrain current then s.closeDrained fd current
  else s.modifyConnectionEvents fd (s.connectionEvents current) ctl

/-- One turn of the loop of `handleWrite`. -/
def handleWrite (s : Server) (fd : Fd) (outcome : SendOutcome) (ctl : Bool) : Server :=
  match s.connections.lookup fd with
  | none => s
  | some current =>
      if current.outputBuffer.length ≤ current.writeOffset then s.finishWrite fd current ctl
      else
        match outcome with
        | .sent count =>
            let s := s.emit (.sent ⟨fd, current.connId⟩ (current.unsent.take count))
            let current := { current with writeOffset := current.writeOffset + count }
            if current.writeOffset = current.outputBuffer.length then
              let current := { current with outputBuffer := [], writeOffset := 0 }
              (s.setConnection fd current).finishWrite fd current ctl
            else s.setConnection fd current
        | .interrupted => s
        | .again => s
        | .failed => s.closeConnection fd

/-- The counter step of `applyResponse`: a completion without admitted work is
reported and leaves the counter at zero. -/
def completeWork (origin : ResponseOrigin) (connection : Connection) : Connection :=
  match origin with
  | .reactor => connection
  | .worker => { connection with inFlightWork := connection.inFlightWork - 1 }

/-- The AUTH step of `applyResponse`. -/
def clearAuth (response : Response) (connection : Connection) : Connection :=
  if response.type = .authResp || response.closeConnection then
    { connection with authPending := false, authCancellation := none }
  else connection

/-- The refusal `applyResponse` makes of an allowed AUTH above the connection
limit of its client. -/
def refuseConnection (response : Response) : Response :=
  { response with
    clientIdToAuthenticate := none
    closeConnection := true
    type := .authResp
    payload := text "\x7b\"allowed\":false,\"reason\":\"max connections exceeded\"\x7d" }

/-- The authentication step of `applyResponse`. -/
def authenticate (s : Server) (current : Connection) (response : Response) :
    Server × Connection × Response :=
  match response.clientIdToAuthenticate with
  | some clientId =>
      if toSize s.runtimeConfig.maxConnectionsPerClient ≤
          s.countAuthenticatedConnectionsForClient clientId current.fd then
        ({ s with stats := { s.stats with authFailure := s.stats.authFailure + 1 } },
          current, refuseConnection response)
      else
        ({ s with stats := { s.stats with authSuccess := s.stats.authSuccess + 1 } }.emit
            (.authenticated ⟨response.fd, current.connId⟩ clientId),
          { current with authenticated := true, clientId := clientId }, response)
  | none =>
      if response.type = .authResp then
        ({ s with stats := { s.stats with authFailure := s.stats.authFailure + 1 } },
          current, response)
      else (s, current, response)

/-- The output of a connection after a response was appended: the sent part is
dropped first. -/
def appendOutput (current : Connection) (response : Response) : Connection :=
  { current with
    outputBuffer := current.unsent ++ ProtocolCodec.encode response
    writeOffset := 0
    closing := current.closing || response.closeConnection }

/-- The output step of `applyResponse`. Its last branch, which would fall back
to `maybeCloseAfterDrain`, is never taken: the connection is closed or there is
output to write. -/
def deliver (s : Server) (fd : Fd) (current : Connection) (response : Response) (ctl : Bool) :
    Server :=
  if response.closeConnection && response.skipWrite then
    (s.setConnection fd current).closeConnection fd
  else if s.runtimeConfig.slowClientOutputLimit <
      (current.outputBuffer.length - current.writeOffset) +
        (ProtocolCodec.encode response).length then
    { s.setConnection fd current with
      stats := { s.stats with
        slowClientClosed := s.stats.slowClientClosed + 1 } }.closeConnection fd
  else
    let current' := appendOutput current response
    let s := (s.setConnection fd current').emit
      (.appended ⟨fd, current.connId⟩ response s.runtimeConfig.slowClientOutputLimit)
    s.modifyConnectionEvents fd (s.connectionEvents current') ctl

/-- A response for a connection that is gone. -/
def dropStale (s : Server) : Server :=
  { s with stats := { s.stats with staleResponseDropped := s.stats.staleResponseDropped + 1 } }

/-- `applyResponse`. -/
def applyResponse (s : Server) (response : Response) (origin : ResponseOrigin) (ctl : Bool) :
    Server :=
  match s.connections.lookup response.fd with
  | none => s.dropStale
  | some current =>
      if current.connId ≠ response.connId then s.dropStale
      else
        let result := s.authenticate (clearAuth response (completeWork origin current)) response
        result.1.deliver response.fd result.2.1 result.2.2 ctl

/-- Close the connection with the given key if it is still the one that was
meant. -/
def closeRejected (s : Server) (key : ConnectionKey) : Server :=
  if (s.live? key).isSome then s.closeConnection key.fd else s

/-- `drainRejectedResponses`: the list is taken whole, then worked through. -/
def drainRejectedResponses (s : Server) : Server :=
  s.rejectedResponseConnections.foldl closeRejected { s with rejectedResponseConnections := [] }

/-- The window `allowRequestForClient` works with: a new one when there is none
or the last one is a second old. -/
def currentWindow (s : Server) (clientId : Bytes) (now : ℤ) : RateLimitWindow :=
  let window := (s.rateLimitWindows.lookup clientId).getD {}
  if window.startedAt = 0 ∨ now - window.startedAt ≥ second then { startedAt := now, count := 0 }
  else window

/-- `allowRequestForClient`, after the clock moved by `tick`. -/
def allowRequestForClient (s : Server) (clientId : Bytes) (config : RuntimeConfig) (tick : ℕ) :
    Bool × Server :=
  let now := s.now + tick
  let window := s.currentWindow clientId now
  if config.maxRequestsPerClientPerSecond ≤ window.count then
    (false, { s with
      now := now
      rateLimitWindows := s.rateLimitWindows.insert clientId window }.emit
        (.checked clientId now false))
  else
    (true, { s with
      now := now
      rateLimitWindows := s.rateLimitWindows.insert clientId
        { window with count := window.count + 1 } }.emit
        (.checked clientId now true))

/-- The answer to an AUTH frame on an authenticated connection. -/
def alreadyAuthenticated (request : Request) : Response :=
  { request.respond .errorResp with
    statusCode := 400
    payload := text "\x7b\"status\":400,\"message\":\"already authenticated\"\x7d" }

/-- The answer to a request over the rate limit. -/
def rateLimited (request : Request) : Response :=
  { request.respond .errorResp with
    statusCode := 429
    payload := text "\x7b\"status\":429,\"message\":\"rate limited\"\x7d" }

/-- The local variables of `decodeAndEnqueue` during its loop over the frames. -/
structure Intake where
  server : Server
  current : Connection
  tasks : List AuthTask := []
  requests : List Request := []
  responses : List Response := []
  closeNow : Bool := false

/-- The turn of that loop for a frame on a connection that is not
authenticated; an error is the `break` that closes. -/
def intakeAuth (intake : Intake) (request : Request) : Except Intake Intake :=
  if request.type ≠ .auth ∨ intake.current.authPending then
    .error { intake with closeNow := true }
  else
    let cell := intake.server.nextCancellation
    let intake := { intake with
      server := { intake.server with nextCancellation := cell + 1 }
      current := { intake.current with authPending := true } }
    match AuthTask.make request cell with
    | none => .error { intake with closeNow := true }
    | some task =>
        .ok { intake with
          current := { intake.current with authCancellation := some cell }
          tasks := intake.tasks ++ [task] }

/-- The turn of that loop for a frame on an authenticated connection. -/
def intakeBusiness (config : RuntimeConfig) (intake : Intake) (request : Request) (tick : ℕ) :
    Intake :=
  if request.type = .auth then
    { intake with responses := intake.responses ++ [alreadyAuthenticated request] }
  else
    let answer := intake.server.allowRequestForClient intake.current.clientId config tick
    if answer.1 then
      { intake with server := answer.2, requests := intake.requests ++ [request] }
    else
      { intake with server := answer.2, responses := intake.responses ++ [rateLimited request] }

/-- The loop of `decodeAndEnqueue` over the decoded frames; a frame that closes
the connection ends it. -/
def intakeFrames (config : RuntimeConfig) : Intake → List Request → List ℕ → Intake
  | intake, [], _ => intake
  | intake, request :: rest, ticks =>
      if request.payload.length + 10 > toSize config.maxPayloadSize then
        { intake with closeNow := true }
      else if intake.current.authenticated then
        intakeFrames config (intakeBusiness config intake request (ticks.headD 0)) rest ticks.tail
      else
        match intakeAuth intake request with
        | .error intake => intake
        | .ok intake => intakeFrames config intake rest ticks

/-- The input that decoding leaves behind: a truncated frame at the end of the
stream is dropped. -/
def keptInput (eof : Bool) (decoded : ProtocolCodec.DecodeStatus × List Request × Bytes) : Bytes :=
  if eof && decoded.1 = .needMoreData then [] else decoded.2.2

/-- The local variables when the loop starts. -/
def Intake.start (s : Server) (fd : Fd) (current : Connection) (decoded : List Request)
    (buffer : Bytes) (closeNow : Bool) : Intake where
  server := { s with
    log := (decoded.map (Event.decoded ⟨fd, current.connId⟩)).reverse ++ s.log }
  current := { current with inputBuffer := buffer }
  closeNow := closeNow

/-- `decodeAndEnqueue` up to its first access to a queue. -/
def decodeAndEnqueue (s : Server) (fd : Fd) (readEof : Bool) (ticks : List ℕ) : Server :=
  match s.connections.lookup fd with
  | none => s
  | some current =>
      let config := s.runtimeConfig
      let decoded := ProtocolCodec.decode current.inputBuffer current.fd current.connId
        (toUInt32 config.maxPayloadSize)
      let buffer := keptInput (readEof || current.readEof) decoded
      let intake := intakeFrames config
        (Intake.start s fd current decoded.2.1 buffer (decoded.1 = .invalidLength))
        decoded.2.1 ticks
      let s := intake.server.setConnection fd intake.current
      if intake.closeNow then s.closeConnection fd
      else
        { s with
          point := .enqueue
            { fd := fd
              tasks := intake.tasks
              requests := intake.requests
              responses := intake.responses
              eof := readEof } }

/-- The answer to an AUTH task the queue refused. -/
def authOverloaded (request : Request) : Response :=
  { makeOverloadResponse request true with
    type := .authResp
    payload := text "\x7b\"allowed\":false,\"code\":\"AUTH_OVERLOADED\"\x7d" }

/-- Offer an AUTH task to its queue. -/
def enqueueTask (s : Server) (frame : Enqueue) (task : AuthTask) : Server :=
  let result := s.authQueue.push task
  if result.1 = .ok then
    { s with
      authQueue := result.2
      point := .enqueue { frame with admitted := some task.key } }.emit (.admitted task.request)
  else
    { s with
      stats := { s.stats.recordAuthResult .unavailable with
        authQueueRejected := s.stats.authQueueRejected + 1 }
      point := .enqueue { frame with
        responses := frame.responses ++ [authOverloaded task.request] } }

/-- Offer a request to its queue. -/
def enqueueRequest (s : Server) (frame : Enqueue) (request : Request) : Server :=
  let result := s.requestQueue.push request
  if result.1 = .ok then
    { s with
      requestQueue := result.2
      point := .enqueue { frame with admitted := some request.key } }.emit (.admitted request)
  else
    { s with
      stats := { s.stats with requestQueueRejected := s.stats.requestQueueRejected + 1 }
      point := .enqueue { frame with
        responses := frame.responses ++ [makeOverloadResponse request false] } }

/-- The increment after an accepted push, if the connection is still there. -/
def countAdmitted (s : Server) (frame : Enqueue) (key : ConnectionKey) : Server :=
  let s := { s with point := .enqueue { frame with admitted := none } }
  match s.live? key with
  | none => s
  | some connection =>
      s.setConnection key.fd { connection with inFlightWork := connection.inFlightWork + 1 }

/-- The next access of `decodeAndEnqueue` to shared state, or its return. -/
def enqueueNext (s : Server) (frame : Enqueue) (ctl : Bool) : Server :=
  match frame.admitted, frame.tasks, frame.requests, frame.responses with
  | some key, _, _, _ => s.countAdmitted frame key
  | none, task :: tasks, _, _ => s.enqueueTask { frame with tasks := tasks } task
  | none, [], request :: requests, _ => s.enqueueRequest { frame with requests := requests } request
  | none, [], [], response :: responses =>
      { s with point := .enqueue { frame with responses := responses } }.applyResponse
        response .reactor ctl
  | none, [], [], [] =>
      let s := { s with point := .boundary }
      if frame.eof then s.markReadEof frame.fd ctl else s

/-- One turn of the loop of `handleRead`. -/
def handleRead (s : Server) (fd : Fd) (outcome : RecvOutcome) (ticks : List ℕ) : Server :=
  match s.connections.lookup fd with
  | none => s
  | some connection =>
      match outcome with
      | .data bytes =>
          (s.setConnection fd
            { connection with inputBuffer := connection.inputBuffer ++ bytes }).decodeAndEnqueue
              fd false ticks
      | .eof => s.decodeAndEnqueue fd true ticks
      | .interrupted => s
      | .again => s.decodeAndEnqueue fd false ticks
      | .failed => s.closeConnection fd

/-- The next part of `beginDraining` after the state has changed. -/
def beginDrainingNext (s : Server) (phase : DrainPhase) (ctl : Fd → Bool) : Server :=
  match phase with
  | .stopRequests =>
      { s with requestQueue := s.requestQueue.stop, point := .beginDraining .stopAuth }
  | .stopAuth => { s with authQueue := s.authQueue.stop, point := .beginDraining .modifyEvents }
  | .modifyEvents =>
      (s.connections.entries.map fun entry => (entry.1, s.connectionEvents entry.2)).foldl
        (fun s entry => s.modifyConnectionEvents entry.1 entry.2 (ctl entry.1))
        { s with point := .boundary }

/-- The connections `drainComplete` may close. -/
def completed (s : Server) : List (Sigma fun _ : Fd => Connection) :=
  s.connections.entries.filter fun entry => s.canCloseAfterDrain entry.2

/-- The tests of `drainComplete` before it looks at the connections. -/
def workFinished (s : Server) : Bool :=
  s.responseProducersRemaining = 0 &&
    s.requestQueue.stopped && s.requestQueue.items.isEmpty &&
    s.authQueue.stopped && s.authQueue.items.isEmpty &&
    s.responseQueue.stopped && s.responseQueue.items.isEmpty &&
    s.rejectedResponseConnections.isEmpty

/-- `drainComplete`: its answer, and the state with the finished connections
closed. -/
def drainComplete (s : Server) : Bool × Server :=
  if s.workFinished then
    let s := s.completed.foldl (fun s entry => s.closeDrained entry.1 entry.2) s
    (s.connections.entries.isEmpty, s)
  else (false, s)

/-- The deadline branch of the loop. -/
def abortQueues (s : Server) : Server :=
  { s with
    requestQueue := s.requestQueue.abort.2
    authQueue := s.authQueue.abort.2
    responseQueue := s.responseQueue.abort.2
    state := .stopped }

/-- The queue part of `finishShutdown`. -/
def stopQueues (s : Server) : Server :=
  { s with
    requestQueue := s.requestQueue.stop
    authQueue := s.authQueue.stop
    responseQueue := s.responseQueue.stop }

/-- The connection part of `finishShutdown`. -/
def closeAll (s : Server) : Server :=
  (s.connections.entries.map Sigma.fst).foldl (fun s fd => s.closeConnection fd) s

end Server

end GatewaySystem
