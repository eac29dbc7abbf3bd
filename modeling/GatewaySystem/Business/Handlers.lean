import GatewaySystem.Lib.Json
import GatewaySystem.Protocol.Message
import Mathlib.Logic.Basic

/-!
# Handlers of the workers

`dispatch` is what a normal worker computes for a request and `handleAuth` what
an AUTH worker computes for an AUTH task. Every response repeats the tag of its
request. The two families are told apart by what they may do to a connection:
an answer of a normal worker (`BusinessAnswer`) neither authenticates nor closes,
an answer of an AUTH worker (`AuthAnswer`) does exactly one of the two.

What a handler reads besides its request (the log file, the counters behind
`STATS`) is the argument `WorkerEnv`; `none` is an exception that leaves the
handler.
-/

namespace GatewaySystem

namespace Business

/-- The counters `handleStats` reads. -/
structure StatsCounters where
  (totalRequests totalLogs totalErrors totalRecvBytes totalSentBytes activeConnections
    totalRequestQueueBacklog totalResponseQueueBacklog requestQueueCapacity responseQueueCapacity
    requestQueuePeak responseQueuePeak requestQueueRejected responseQueueRejected
    authQueueCapacity authQueueBacklog authQueuePeak authQueueRejected authInFlight
    authTasksCancelledBeforeStart authAllowed authDenied authUnavailable authDurationCount
    authDurationTotalUs responseQueueRejectedNormal responseQueueRejectedAuth slowClientClosed
    staleResponseDropped : UInt64 := 0)

/-- What a handler reads besides its request. -/
structure WorkerEnv where
  /-- Whether `LogStorage::append` wrote the line. -/
  logWritten : Bool
  counters : StatsCounters := {}

/-- `makeErrorResponse` for a type no handler takes. -/
def makeUnknownTypeResponse (request : Request) : Response :=
  { request.respond .errorResp with
    payload := text "\x7b\"status\":400,\"message\":\"unknown type\"\x7d" }

/-- `makeErrorResponse` with a status and a message. -/
def makeErrorResponse (library : Json.Library) (request : Request) (status : ℕ)
    (message : String) : Response :=
  { request.respond .errorResp with
    payload := library.dump (.object
      [(text "message", .string (text message)), (text "status", .unsigned status)]) }

def handlePing (request : Request) : Response :=
  { request.respond .pong with
    payload := text "\x7b\"status\":0,\"message\":\"pong\"\x7d" }

def handleEcho (request : Request) : Response :=
  { request.respond .echoResp with payload := request.payload }

/-- Whether a value is an object with the three string members of a log entry. -/
def isLogEntry (json : Json) : Bool :=
  [text "level", text "service", text "message"].all fun name =>
    ((json.member? name).bind Json.string?).isSome

/-- `handleLogPush`: only a text that is no JSON is caught here, so a number
outside every number type leaves the handler as an exception. -/
def handleLogPush (library : Json.Library) (env : WorkerEnv) (request : Request) :
    Option Response :=
  if request.payload = [] then
    some { request.respond .errorResp with
      payload := text "\x7b\"status\":400,\"message\":\"payload is empty\"\x7d" }
  else if request.payload.length > 4096 then
    some { request.respond .errorResp with
      payload := text "\x7b\"status\":400,\"message\":\"payload too large\"\x7d" }
  else
    match library.parse request.payload with
    | .error .parse => some (makeErrorResponse library request 400 "invalid json")
    | .error .outOfRange => none
    | .ok json =>
        if isLogEntry json then
          if env.logWritten then
            some { request.respond .logAck with
              payload := text "\x7b\"status\":\"success\"\x7d" }
          else
            some { request.respond .errorResp with
              payload := text "\x7b\"status\":500, \"message\":\"log write failed.\"\x7d" }
        else some (makeErrorResponse library request 400 "invalid log format")

/-- The members of the answer to `STATS`, in the order of a `std::map`. -/
def StatsCounters.members (counters : StatsCounters) : List (String × UInt64) :=
  [("active_connections", counters.activeConnections),
    ("auth_allowed", counters.authAllowed),
    ("auth_denied", counters.authDenied),
    ("auth_duration_count", counters.authDurationCount),
    ("auth_duration_total_us", counters.authDurationTotalUs),
    ("auth_in_flight", counters.authInFlight),
    ("auth_queue_backlog", counters.authQueueBacklog),
    ("auth_queue_capacity", counters.authQueueCapacity),
    ("auth_queue_peak", counters.authQueuePeak),
    ("auth_queue_rejected", counters.authQueueRejected),
    ("auth_tasks_cancelled_before_start", counters.authTasksCancelledBeforeStart),
    ("auth_unavailable", counters.authUnavailable),
    ("request_queue_capacity", counters.requestQueueCapacity),
    ("request_queue_peak", counters.requestQueuePeak),
    ("request_queue_rejected", counters.requestQueueRejected),
    ("response_queue_capacity", counters.responseQueueCapacity),
    ("response_queue_peak", counters.responseQueuePeak),
    ("response_queue_rejected", counters.responseQueueRejected),
    ("response_queue_rejected_auth", counters.responseQueueRejectedAuth),
    ("response_queue_rejected_normal", counters.responseQueueRejectedNormal),
    ("slow_client_closed", counters.slowClientClosed),
    ("stale_response_dropped", counters.staleResponseDropped),
    ("total_errors", counters.totalErrors),
    ("total_logs", counters.totalLogs),
    ("total_recv_bytes", counters.totalRecvBytes),
    ("total_request_queue_backlog", counters.totalRequestQueueBacklog),
    ("total_requests", counters.totalRequests),
    ("total_response_queue_backlog", counters.totalResponseQueueBacklog),
    ("total_sent_bytes", counters.totalSentBytes)]

def StatsCounters.document (counters : StatsCounters) : Json :=
  .object (counters.members.map fun entry => (text entry.1, .unsigned entry.2.toNat))

def handleStats (library : Json.Library) (env : WorkerEnv) (request : Request) : Response :=
  { request.respond .statsResp with payload := library.dump env.counters.document }

/-- `Dispatcher::dispatch`. -/
def dispatch (library : Json.Library) (env : WorkerEnv) (request : Request) : Option Response :=
  match request.type with
  | .auth => some (makeErrorResponse library request 500 "AUTH reached normal worker")
  | .ping => some (handlePing request)
  | .echo => some (handleEcho request)
  | .logPush => handleLogPush library env request
  | .stats => some (handleStats library env request)
  | _ => some (makeUnknownTypeResponse request)

inductive AuthOutcome where
  | allowed
  | denied
  | unavailable
  deriving DecidableEq, Repr

/-- The answer of the control plane client. -/
structure AuthResult where
  outcome : AuthOutcome := .unavailable
  reasonCode : Bytes := []
  deriving DecidableEq, Repr

structure AuthHandlingResult where
  response : Response
  outcome : AuthOutcome := .unavailable

/-- The client and token an AUTH payload names, when both members are strings. -/
def authCredentials (json : Json) : Option (Bytes × Bytes) :=
  match (json.member? (text "client_id")).bind Json.string?,
      (json.member? (text "token")).bind Json.string? with
  | some clientId, some token => some (clientId, token)
  | _, _ => none

/-- The credentials in the payload of an AUTH frame. -/
def credentials (library : Json.Library) (request : Request) : Option (Bytes × Bytes) :=
  match library.parse request.payload with
  | .ok json => authCredentials json
  | .error _ => none

/-- The refusal of a payload that names no credentials. -/
def invalidAuthRequest (request : Request) : AuthHandlingResult where
  response :=
    { request.respond .authResp with
      statusCode := 400
      payload := text "\x7b\"allowed\":false,\"code\":\"INVALID_REQUEST\"\x7d"
      closeConnection := true }
  outcome := .denied

/-- The code a refused client is told. -/
def refusalCode (result : AuthResult) : Bytes :=
  if result.outcome = .denied then
    if result.reasonCode = [] then text "INVALID_CREDENTIALS" else result.reasonCode
  else text "AUTH_UNAVAILABLE"

/-- `handleAuth`, given the answer of `checkAuth` for the credentials of the
payload; `none` is an exception thrown while asking. -/
def handleAuth (library : Json.Library) (request : Request)
    (checkAuth : Bytes → Bytes → Option AuthResult) : AuthHandlingResult :=
  match credentials library request with
  | none => invalidAuthRequest request
  | some (clientId, token) =>
      match checkAuth clientId token with
      | none => invalidAuthRequest request
      | some result =>
          if result.outcome ≠ .allowed then
            { response :=
                { request.respond .authResp with
                  statusCode := if result.outcome = .denied then 401 else 503
                  payload := library.dump (.object
                    [(text "allowed", .bool false), (text "code", .string (refusalCode result))])
                  closeConnection := true }
              outcome := result.outcome }
          else
            { response :=
                { request.respond .authResp with
                  payload := text "\x7b\"allowed\":true,\"code\":\"OK\"\x7d"
                  clientIdToAuthenticate := some clientId }
              outcome := .allowed }

end Business

/-- `makeInternalErrorResponse`. -/
def makeInternalErrorResponse (request : Request) : Response :=
  { request.respond .errorResp with
    statusCode := 500
    payload := text "\x7b\"status\":500,\"message\":\"internal server error\"\x7d" }

/-- `makeInternalAuthErrorResponse`. -/
def makeInternalAuthErrorResponse (request : Request) : Response :=
  { makeInternalErrorResponse request with
    type := .authResp
    payload := text "\x7b\"allowed\":false,\"code\":\"INTERNAL_ERROR\"\x7d"
    closeConnection := true }

/-- `makeOverloadResponse`. -/
def makeOverloadResponse (request : Request) (closeConnection : Bool) : Response :=
  { request.respond .errorResp with
    statusCode := 503
    payload := text "\x7b\"status\":503,\"message\":\"gateway overloaded\"\x7d"
    closeConnection := closeConnection }

/-- A response that neither authenticates nor closes its connection. -/
structure Response.BusinessAnswer (response : Response) : Prop where
  type : response.type ≠ .authResp
  client : response.clientIdToAuthenticate = none
  close : response.closeConnection = false
  write : response.skipWrite = false

/-- A response to an AUTH frame: it authenticates or it closes. -/
structure Response.AuthAnswer (response : Response) : Prop where
  type : response.type = .authResp
  effect : response.closeConnection = !response.clientIdToAuthenticate.isSome
  write : response.skipWrite = false

namespace Business

variable {library : Json.Library} {request : Request}

theorem handleLogPush_answer {env : WorkerEnv} {response : Response}
    (h : handleLogPush library env request = some response) :
    response.tag = request.tag ∧ response.BusinessAnswer := by
  unfold handleLogPush at h
  split at h
  · cases h
    exact ⟨rfl, by simp [Request.respond], rfl, rfl, rfl⟩
  · split at h
    · cases h
      exact ⟨rfl, by simp [Request.respond], rfl, rfl, rfl⟩
    · split at h
      · cases h
        exact ⟨rfl, by simp [makeErrorResponse, Request.respond], rfl, rfl, rfl⟩
      · cases h
      · split at h
        · split at h <;> cases h <;> exact ⟨rfl, by simp [Request.respond], rfl, rfl, rfl⟩
        · cases h
          exact ⟨rfl, by simp [makeErrorResponse, Request.respond], rfl, rfl, rfl⟩

/-- What a normal worker computes answers its request and only that. -/
theorem dispatch_answer {env : WorkerEnv} {response : Response}
    (h : dispatch library env request = some response) :
    response.tag = request.tag ∧ response.BusinessAnswer := by
  unfold dispatch at h
  split at h
  · cases h
    exact ⟨rfl, by simp [makeErrorResponse, Request.respond], rfl, rfl, rfl⟩
  · cases h
    exact ⟨rfl, by simp [handlePing, Request.respond], rfl, rfl, rfl⟩
  · cases h
    exact ⟨rfl, by simp [handleEcho, Request.respond], rfl, rfl, rfl⟩
  · exact handleLogPush_answer h
  · cases h
    exact ⟨rfl, by simp [handleStats, Request.respond], rfl, rfl, rfl⟩
  · cases h
    exact ⟨rfl, by simp [makeUnknownTypeResponse, Request.respond], rfl, rfl, rfl⟩

/-- What an AUTH worker computes answers its request and authenticates or
closes. -/
theorem handleAuth_answer (request : Request)
    (checkAuth : Bytes → Bytes → Option AuthResult) :
    (handleAuth library request checkAuth).response.tag = request.tag ∧
      (handleAuth library request checkAuth).response.AuthAnswer := by
  unfold handleAuth
  split
  · exact ⟨rfl, rfl, rfl, rfl⟩
  · split
    · exact ⟨rfl, rfl, rfl, rfl⟩
    · split <;> exact ⟨rfl, rfl, rfl, rfl⟩

/-- A response that authenticates came from an allowed answer for the
credentials in the payload. -/
theorem handleAuth_authenticates {checkAuth : Bytes → Bytes → Option AuthResult} {clientId : Bytes}
    (h : (handleAuth library request checkAuth).response.clientIdToAuthenticate = some clientId) :
    ∃ token result, credentials library request = some (clientId, token) ∧
      checkAuth clientId token = some result ∧ result.outcome = .allowed := by
  unfold handleAuth at h
  split at h
  · simp [invalidAuthRequest, Request.respond] at h
  · next client token hcredentials =>
      split at h
      · simp [invalidAuthRequest, Request.respond] at h
      · next result hresult =>
          split at h
          · simp [Request.respond] at h
          · next hallowed =>
              simp only [Option.some.injEq] at h
              subst h
              exact ⟨token, result, hcredentials, hresult, not_not.mp hallowed⟩

end Business

theorem makeInternalErrorResponse_answer (request : Request) :
    (makeInternalErrorResponse request).tag = request.tag ∧
      (makeInternalErrorResponse request).BusinessAnswer :=
  ⟨rfl, by simp [makeInternalErrorResponse, Request.respond], rfl, rfl, rfl⟩

theorem makeInternalAuthErrorResponse_answer (request : Request) :
    (makeInternalAuthErrorResponse request).tag = request.tag ∧
      (makeInternalAuthErrorResponse request).AuthAnswer :=
  ⟨rfl, rfl, rfl, rfl⟩

theorem makeOverloadResponse_answer (request : Request) :
    (makeOverloadResponse request false).tag = request.tag ∧
      (makeOverloadResponse request false).BusinessAnswer :=
  ⟨rfl, by simp [makeOverloadResponse, Request.respond], rfl, rfl, rfl⟩

end GatewaySystem
