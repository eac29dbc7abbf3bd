import GatewaySystem.Business.Handlers
import GatewaySystem.Control.HttpResponseParser
import GatewaySystem.Control.RuntimeConfig

/-!
# The HTTP client of the gateway

`requestJsonOnce` writes one request and feeds what `recv` returns to the parser
until the parser is done or the stream ends. The stream is the list of the
chunks that were received and how it ended: by the server closing, or by an
error of the socket, the deadline included. `checkAuth` and `fetchConfig` read
the body of a reply with a status of success, and nothing else.
-/

namespace GatewaySystem

structure ControlPlaneClient where
  host : Bytes
  port : ℕ
  timeoutMs : ℕ
  gatewayToken : Bytes
  deriving DecidableEq

namespace ControlPlaneClient

/-- `validateHeaderValue`. -/
def validateHeaderValue (name : String) (value : Bytes) : Except String Unit :=
  if 13 ∈ value ∨ 10 ∈ value then .error (name ++ " must not contain CR or LF") else .ok ()

/-- The constructor of the client. -/
def create (host : Bytes) (port timeoutMs : ℕ) (gatewayToken : Bytes) :
    Except String ControlPlaneClient :=
  if host = [] then .error "control plane host must not be empty"
  else if port < 1 ∨ 65535 < port then .error "control plane port must be in [1, 65535]"
  else if timeoutMs = 0 then .error "control plane timeout must be positive"
  else do
    validateHeaderValue "control plane host" host
    validateHeaderValue "gateway token" gatewayToken
    return ⟨host, port, timeoutMs, gatewayToken⟩

def hostHeader (client : ControlPlaneClient) : Bytes :=
  let bracketed := 2 ≤ client.host.length ∧ client.host.head? = some 91 ∧
    client.host.getLast? = some 93
  let host :=
    if 58 ∈ client.host ∧ ¬ bracketed then text "[" ++ client.host ++ text "]" else client.host
  host ++ text ":" ++ Decimal.format client.port

/-- The lines of a request in front of its blank line. -/
def requestLines (client : ControlPlaneClient) (method path body : Bytes) : List Bytes :=
  [method ++ text " " ++ path ++ text " HTTP/1.1",
    text "Host: " ++ client.hostHeader,
    text "Accept: application/json",
    text "X-Gateway-Token: " ++ client.gatewayToken] ++
  (if method = text "POST" then
    [text "Content-Type: application/json",
      text "Content-Length: " ++ Decimal.format body.length]
  else []) ++
  [text "Connection: close"]

/-- What `requestJsonOnce` writes. -/
def requestBytes (client : ControlPlaneClient) (method path body : Bytes) : Bytes :=
  (client.requestLines method path body).flatMap (· ++ HttpResponseParser.crlf) ++
    (HttpResponseParser.crlf ++ if method = text "POST" then body else [])

/-- The size of the buffer of `requestJsonOnce`. -/
def bufferSize : ℕ := 4096

/-- What ends a stream. -/
inductive StreamEnd where
  | eof
  | error (error : HttpError)
  deriving DecidableEq

/-- The receive loop of `requestJsonOnce`; `none` is an overflow in the parser. -/
def receiveLoop (ending : StreamEnd) : HttpResponseParser → List Bytes → Option HttpResult
  | parser, [] =>
      match ending with
      | .eof => some parser.finishOnEof.result
      | .error error => some (parser.finishOnTransportError error).result
  | parser, chunk :: chunks =>
      if parser.done then some parser.result
      else (parser.consume chunk).bind fun parser => receiveLoop ending parser chunks

theorem receiveLoop_done {ending : StreamEnd} {parser : HttpResponseParser} (h : parser.done = true)
    (chunks : List Bytes) : receiveLoop ending parser chunks = some parser.result := by
  cases chunks with
  | nil =>
      cases ending with
      | eof => simp [receiveLoop, HttpResponseParser.finishOnEof, h]
      | error error => simp [receiveLoop, HttpResponseParser.finishOnTransportError, h]
  | cons chunk chunks => rw [receiveLoop, if_pos h]

theorem receiveLoop_cons {ending : StreamEnd} {parser : HttpResponseParser} {chunk : Bytes}
    (h : parser.done = false) (chunks : List Bytes) :
    receiveLoop ending parser (chunk :: chunks) =
      (parser.consume chunk).bind fun parser => receiveLoop ending parser chunks := by
  rw [receiveLoop, if_neg (by simp [h])]

/-- How the exchange of a request and its reply goes. -/
inductive Exchange where
  /-- There was no connection, or the request was not written. -/
  | failed (error : HttpError)
  | received (chunks : List Bytes) (ending : StreamEnd)
  deriving DecidableEq

/-- `requestJsonOnce`, whose tests of method and path the requests below pass. -/
def requestJsonOnce : Exchange → Option HttpResult
  | .failed error => some ⟨error, 0, []⟩
  | .received chunks ending => receiveLoop ending {} chunks

/-- What `checkAuth` sends. -/
def authPayload (library : Json.Library) (clientId token : Bytes) : Bytes :=
  library.dump (.object [(text "client_id", .string clientId), (text "token", .string token)])

/-- The code behind an answer, in one of its two places. -/
def reasonCode (body : Json) : Bytes :=
  match (body.member? (text "code")).bind Json.string? with
  | some code => code
  | none => ((body.member? (text "reason")).bind Json.string?).getD []

/-- What `checkAuth` makes of the body of a reply. -/
def readAuth (library : Json.Library) (body : Bytes) : Business.AuthResult :=
  match library.parse body with
  | .error _ => {}
  | .ok body =>
      match (body.member? (text "allowed")).bind Json.bool? with
      | none => {}
      | some allowed => ⟨if allowed then .allowed else .denied, reasonCode body⟩

def checkAuth (library : Json.Library) (exchange : Exchange) : Option Business.AuthResult :=
  (requestJsonOnce exchange).map fun response =>
    if response.ok then readAuth library response.body else {}

/-- `fetchConfig`: what it returns and what its argument holds afterwards. -/
def fetchConfig (library : Json.Library) (exchange : Exchange) (config : RuntimeConfig) :
    Option (Bool × RuntimeConfig) :=
  (requestJsonOnce exchange).map fun response =>
    if response.ok then RuntimeConfig.parseRuntimeConfigInto library response.body config
    else (false, config)

end ControlPlaneClient

end GatewaySystem
