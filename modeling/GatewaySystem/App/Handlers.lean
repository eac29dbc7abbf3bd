import GatewaySystem.App.Store

/-!
# The handlers of the control plane

Every handler is a task that ends with an answer. `middleware` and `route` choose
the handler of a request, and `serve` runs it. A panic, the log and
the timeout of a request are left out.
-/

namespace GatewaySystem

namespace App

/-- `application`. -/
structure Application (σ : Type) where
  platform : Platform
  store : Store σ
  tokenPepper : Bytes := []
  adminToken : Bytes := []
  gatewayToken : Bytes := []
  authFailures : AuthFailurePolicy

/-- `writeStoreError`. -/
def writeStoreError (r : HttpRequest) (error : StoreError) : HttpResponse :=
  match error with
  | .deadlineExceeded | .canceled | .network =>
      writeAPIError r 503 "UNAVAILABLE" "store unavailable"
  | _ => writeAPIError r 500 "INTERNAL" "store error"

def writeAuthUnavailable (r : HttpRequest) : HttpResponse :=
  writeAPIError r 503 "AUTH_UNAVAILABLE" "authentication service unavailable"

/-- The refusal of a client name. -/
def writeInvalidClientId (r : HttpRequest) : HttpResponse :=
  writeAPIError r 400 "INVALID_ARGUMENT" "client_id must be 1 to 128 bytes and must not be index"

def rateLimited : HttpResponse := writeJSON 200 (.authCheck ⟨false, "RATE_LIMITED", "rate limited"⟩)

namespace Application

variable {σ : Type} (a : Application σ)

/-- The digest of a token. -/
def digest (token : Bytes) : Bytes := a.platform.hmacSha256Hex a.tokenPepper token

/-- An access to the store as a step of a task. -/
def call {α : Type} (access : Access σ α) (event : Except StoreError α → Event) :
    Task σ (Except StoreError α) :=
  perform a.store.remote access event

def handleHealth : Task σ HttpResponse := pure (writeJSON 200 (.health "ok"))

def handleReady (r : HttpRequest) : Task σ HttpResponse :=
  match a.store.ping with
  | none => pure (writeJSON 200 (.health "ready"))
  | some ping => do
      match ← a.call ping fun _ => .ping with
      | .error _ => pure (writeAPIError r 503 "NOT_READY" "store unavailable")
      | .ok _ => pure (writeJSON 200 (.health "ready"))

/-- The answer to a credential that was not accepted, after `count` failures. -/
def refusal (decision : TokenAuthDecision) (count : ℤ) : HttpResponse :=
  if a.authFailures.limit ≤ count then rateLimited
  else if decision = .disabled then
    writeJSON 200 (.authCheck ⟨false, "TOKEN_DISABLED", "token disabled"⟩)
  else writeJSON 200 (.authCheck ⟨false, "INVALID_CREDENTIALS", "invalid token"⟩)

/-- The last access of `handleAuthCheck`. -/
def settleAuthCheck (r : HttpRequest) (clientId : Bytes) (decision : TokenAuthDecision) :
    Task σ HttpResponse :=
  if decision ≠ .allowed then do
    match ← a.call (a.store.recordAuthFailure clientId a.authFailures.window)
      (.recordAuthFailure clientId) with
    | .error _ => pure (writeAuthUnavailable r)
    | .ok count => pure (a.refusal decision count)
  else do
    match ← a.call (a.store.clearAuthFailures clientId) (.clearAuthFailures clientId) with
    | .error _ => pure (writeAuthUnavailable r)
    | .ok _ => pure (writeJSON 200 (.authCheck ⟨true, "OK", "ok"⟩))

/-- `handleAuthCheck` behind the rate limit. -/
def verifyAuthCheck (r : HttpRequest) (req : AuthCheckRequest) : Task σ HttpResponse := do
  match ← a.call (a.store.verifyDigest req.clientId (a.digest req.token))
    (.verifyDigest req.clientId (a.digest req.token)) with
  | .error _ => pure (writeAuthUnavailable r)
  | .ok decision => a.settleAuthCheck r req.clientId decision

/-- `handleAuthCheck` for a request whose fields are in their bounds. -/
def startAuthCheck (r : HttpRequest) (req : AuthCheckRequest) : Task σ HttpResponse := do
  match ← a.call (a.store.authFailureLimited req.clientId a.authFailures.limit)
    (.authFailureLimited req.clientId) with
  | .error _ => pure (writeAuthUnavailable r)
  | .ok true => pure rateLimited
  | .ok false => a.verifyAuthCheck r req

/-- The fields of a check that are in their bounds. -/
def AuthCheckRequest.bounded (req : AuthCheckRequest) : Bool :=
  req.clientId ≠ [] && req.token ≠ [] && req.clientId.length ≤ 128 && req.token.length ≤ 4096

/-- The request of a check, or the answer to one that is not well formed. -/
def decodeAuthCheck (r : HttpRequest) : Except HttpResponse AuthCheckRequest :=
  match decodeJSON a.platform.decodeAuthCheckRequest r with
  | .error response => .error response
  | .ok req =>
      if AuthCheckRequest.bounded req then .ok req
      else .error (writeAPIError r 400 "INVALID_ARGUMENT" "client_id and token are required")

def handleAuthCheck (r : HttpRequest) : Task σ HttpResponse :=
  match a.decodeAuthCheck r with
  | .error response => pure response
  | .ok req => a.startAuthCheck r req

def handleTokensUpsert (r : HttpRequest) : Task σ HttpResponse :=
  match decodeJSON a.platform.decodeTokenUpsertRequest r with
  | .error response => pure response
  | .ok req =>
      if !validTokenClientId req.clientId then pure (writeInvalidClientId r)
      else do
        let choice ← ask
        match choice.entropy with
        | none => pure (writeStoreError r .other)
        | some token => do
            let now := a.platform.rfc3339Nano (← ask).now
            let record : TokenRecord :=
              { clientId := req.clientId, generation := 1, createdAt := now, updatedAt := now,
                disabled := false, digest := a.digest token }
            match ← a.call (a.store.createToken record) (.createToken record) with
            | .error .tokenExists =>
                pure (writeAPIError r 409 "CONFLICT" "token already exists")
            | .error error => pure (writeStoreError r error)
            | .ok _ => pure (writeJSON 201 (.tokenSecret ⟨req.clientId, token, 1⟩))

def handleTokensList (r : HttpRequest) : Task σ HttpResponse := do
  match ← a.store.listTokens with
  | .error error => pure (writeStoreError r error)
  | .ok entries => pure (writeJSON 200 (.tokenEntries entries))

def handleTokensDelete (clientId : Bytes) (r : HttpRequest) : Task σ HttpResponse :=
  if validTokenClientId clientId then do
    let now := a.platform.rfc3339Nano (← ask).now
    match ← a.call (a.store.disableToken clientId now) (.disableToken clientId) with
    | .error .tokenNotFound => pure (writeAPIError r 404 "NOT_FOUND" "token not found")
    | .error error => pure (writeStoreError r error)
    | .ok _ => pure (writeJSON 200 (.success true))
  else pure (writeInvalidClientId r)

def handleTokensRotate (clientId : Bytes) (r : HttpRequest) : Task σ HttpResponse :=
  if !validTokenClientId clientId then pure (writeInvalidClientId r)
  else
    match parseGeneration r.ifMatch with
    | none => pure (writeAPIError r 400 "INVALID_ARGUMENT" "invalid If-Match")
    | some expected => do
        let choice ← ask
        match choice.entropy with
        | none => pure (writeStoreError r .other)
        | some token => do
            let now := a.platform.rfc3339Nano (← ask).now
            match ← a.call (a.store.rotateToken clientId expected (a.digest token) now)
              (.rotateToken clientId expected) with
            | .error .tokenConflict =>
                pure (writeAPIError r 409 "CONFLICT" "token generation conflict")
            | .error .tokenNotFound => pure (writeAPIError r 404 "NOT_FOUND" "token not found")
            | .error error => pure (writeStoreError r error)
            | .ok record =>
                pure (writeJSON 200 (.tokenSecret ⟨record.clientId, token, record.generation⟩))

/-- An answer with a configuration and its version. -/
def writeConfig (config : RuntimeConfig) : HttpResponse :=
  { writeJSON 200 (.config config) with etag := some (etag config.version) }

def handleConfigGet (r : HttpRequest) : Task σ HttpResponse := do
  match ← a.store.getConfig with
  | .error error => pure (writeStoreError r error)
  | .ok config => pure (writeConfig config)

/-- The expected version and the values of an update, or the answer to one that
is not well formed. -/
def decodeConfigUpdate (r : HttpRequest) : Except HttpResponse (ℤ × ConfigUpdateRequest) :=
  if r.ifMatch = [] then
    .error (writeAPIError r 428 "PRECONDITION_REQUIRED" "If-Match is required")
  else
    match parseGeneration r.ifMatch with
    | none => .error (writeAPIError r 400 "INVALID_ARGUMENT" "invalid If-Match")
    | some expected =>
        match decodeJSON a.platform.decodeConfigUpdateRequest r with
        | .error response => .error response
        | .ok req =>
            match validateConfigUpdate a.platform req with
            | some message => .error (writeAPIError r 400 "INVALID_ARGUMENT" message)
            | none => .ok (expected, req)

def handleConfigUpdate (r : HttpRequest) : Task σ HttpResponse :=
  match a.decodeConfigUpdate r with
  | .error response => pure response
  | .ok (expected, req) => do
      match ← a.call (a.store.updateConfig expected req) (.updateConfig expected req) with
      | .error .configConflict => pure (writeAPIError r 409 "CONFLICT" "config version conflict")
      | .error error => pure (writeStoreError r error)
      | .ok config => pure (writeConfig config)

/-- The handler that runs on a request. -/
inductive Handler where
  /-- An answer for which no handler runs. -/
  | answer (response : HttpResponse)
  | health
  | ready
  | authCheck
  | tokensUpsert
  | tokensList
  | tokensDelete (clientId : Bytes)
  | tokensRotate (clientId : Bytes)
  | configGet
  | configUpdate
  deriving DecidableEq

def requireAdmin (r : HttpRequest) (next : Handler) : Handler :=
  if !secureBearerEqual r.authorization a.adminToken then
    .answer (writeAPIError r 401 "UNAUTHORIZED" "invalid admin token")
  else next

/-- Whether the header of the gateways is right. -/
def gatewayOk (r : HttpRequest) : Bool :=
  a.gatewayToken = [] || digestEqual r.gatewayToken a.gatewayToken

def requireGateway (r : HttpRequest) (next : Handler) : Handler :=
  if !a.gatewayOk r then .answer (writeAPIError r 401 "UNAUTHORIZED" "invalid gateway token")
  else next

def requireAdminOrGateway (r : HttpRequest) (next : Handler) : Handler :=
  if !secureBearerEqual r.authorization a.adminToken && !a.gatewayOk r then
    .answer (writeAPIError r 401 "UNAUTHORIZED" "invalid credentials")
  else next

/-- The answer of `registerMethodFallback`. -/
def methodNotAllowed (r : HttpRequest) (allow : String) : Handler :=
  .answer
    { writeAPIError r 405 "METHOD_NOT_ALLOWED" "method not allowed" with allow := some allow }

/-- The routes of `routesWithConfig`. -/
def route (r : HttpRequest) : Handler :=
  match r.path, r.method with
  | .health, .get => .health
  | .ready, .get => .ready
  | .authCheck, .post => a.requireGateway r .authCheck
  | .tokens, .post => a.requireAdmin r .tokensUpsert
  | .tokens, .get => a.requireAdmin r .tokensList
  | .token clientId, .delete => a.requireAdmin r (.tokensDelete clientId)
  | .rotate clientId, .post => a.requireAdmin r (.tokensRotate clientId)
  | .config, .get => a.requireAdminOrGateway r .configGet
  | .config, .put => a.requireAdmin r .configUpdate
  | .health, _ => methodNotAllowed r "GET"
  | .ready, _ => methodNotAllowed r "GET"
  | .authCheck, _ => methodNotAllowed r "POST"
  | .tokens, _ => methodNotAllowed r "POST, GET"
  | .token _, _ => methodNotAllowed r "DELETE"
  | .rotate _, _ => methodNotAllowed r "POST"
  | .config, _ => methodNotAllowed r "GET, PUT"
  | .other, _ => .answer (writeAPIError r 404 "NOT_FOUND" "route not found")

/-- `middleware` around the routes. -/
def middleware (r : HttpRequest) : Handler :=
  if (r.method = .post ∨ r.method = .put) ∧ r.contentLength ≠ 0 ∧
      r.mediaType ≠ some (text "application/json") then
    .answer (writeAPIError r 415 "UNSUPPORTED_MEDIA_TYPE" "Content-Type must be application/json")
  else a.route r

/-- What a request can come to: an error, or the handler of its path past its
guard. -/
inductive Routed (r : HttpRequest) : Handler → Prop
  | refused (status : ℕ) (code message : String) (allow : Option String) :
      Routed r (.answer { writeAPIError r status code message with allow := allow })
  | health (path : r.path = .health) : Routed r .health
  | ready (path : r.path = .ready) : Routed r .ready
  | authCheck (path : r.path = .authCheck) (guard : a.gatewayOk r) : Routed r .authCheck
  | tokensUpsert (path : r.path = .tokens)
      (guard : secureBearerEqual r.authorization a.adminToken) : Routed r .tokensUpsert
  | tokensList (path : r.path = .tokens)
      (guard : secureBearerEqual r.authorization a.adminToken) : Routed r .tokensList
  | tokensDelete {clientId : Bytes} (path : r.path = .token clientId)
      (guard : secureBearerEqual r.authorization a.adminToken) : Routed r (.tokensDelete clientId)
  | tokensRotate {clientId : Bytes} (path : r.path = .rotate clientId)
      (guard : secureBearerEqual r.authorization a.adminToken) : Routed r (.tokensRotate clientId)
  | configGet (path : r.path = .config)
      (guard : secureBearerEqual r.authorization a.adminToken ∨ a.gatewayOk r) :
      Routed r .configGet
  | configUpdate (path : r.path = .config)
      (guard : secureBearerEqual r.authorization a.adminToken) : Routed r .configUpdate

section Routed

variable {a} {r : HttpRequest} {next : Handler}

theorem Routed.checked {refuse : Bool} (status : ℕ) (code message : String)
    (h : refuse = false → a.Routed r next) :
    a.Routed r (if refuse then .answer (writeAPIError r status code message) else next) := by
  cases refuse with
  | true => exact .refused status code message none
  | false => exact h rfl

theorem Routed.requireAdmin
    (h : secureBearerEqual r.authorization a.adminToken → a.Routed r next) :
    a.Routed r (a.requireAdmin r next) :=
  .checked _ _ _ fun hguard => h (by simpa using hguard)

theorem Routed.requireGateway (h : a.gatewayOk r → a.Routed r next) :
    a.Routed r (a.requireGateway r next) :=
  .checked _ _ _ fun hguard => h (by simpa using hguard)

theorem Routed.requireAdminOrGateway
    (h : secureBearerEqual r.authorization a.adminToken ∨ a.gatewayOk r → a.Routed r next) :
    a.Routed r (a.requireAdminOrGateway r next) :=
  .checked _ _ _ fun hguard => h (by simpa only [Bool.and_eq_false_iff, Bool.not_eq_false'] using
    hguard)

end Routed

theorem route_routed (r : HttpRequest) : a.Routed r (a.route r) := by
  unfold route
  split
  next path _ => exact .health path
  next path _ => exact .ready path
  next path _ => exact .requireGateway (.authCheck path)
  next path _ => exact .requireAdmin (.tokensUpsert path)
  next path _ => exact .requireAdmin (.tokensList path)
  next path _ => exact .requireAdmin (.tokensDelete path)
  next path _ => exact .requireAdmin (.tokensRotate path)
  next path _ => exact .requireAdminOrGateway (.configGet path)
  next path _ => exact .requireAdmin (.configUpdate path)
  all_goals exact .refused ..

theorem middleware_routed (r : HttpRequest) : a.Routed r (a.middleware r) := by
  unfold middleware
  split
  · exact .refused ..
  · exact a.route_routed r

def run (r : HttpRequest) : Handler → Task σ HttpResponse
  | .answer response => pure response
  | .health => handleHealth
  | .ready => a.handleReady r
  | .authCheck => a.handleAuthCheck r
  | .tokensUpsert => a.handleTokensUpsert r
  | .tokensList => a.handleTokensList r
  | .tokensDelete clientId => a.handleTokensDelete clientId r
  | .tokensRotate clientId => a.handleTokensRotate clientId r
  | .configGet => a.handleConfigGet r
  | .configUpdate => a.handleConfigUpdate r

/-- A request from its arrival to its answer. -/
def serve (r : HttpRequest) : Task σ HttpResponse := a.run r (a.middleware r)

end Application

end App

end GatewaySystem
