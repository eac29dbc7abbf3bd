import GatewaySystem.Lib.Decimal
import GatewaySystem.Protocol.Message

/-!
# Types of the control plane

The requests, records and answers of the control plane, and the functions of
its package that reach no store: the reading of a generation, the range checks
of a configuration and the writers of HTTP answers.

What the package takes from other libraries (the JSON decoder, the upper case of
a text, the format of a time, the keyed digest) is the argument `Platform`. An
answer is kept as the value it is the JSON text of.
-/

namespace GatewaySystem

namespace App

structure AuthCheckRequest where
  clientId : Bytes
  token : Bytes
  deriving DecidableEq, Repr

structure AuthCheckResponse where
  allowed : Bool
  code : String
  reason : String
  deriving DecidableEq, Repr

structure RuntimeConfig where
  version : ℤ
  maxPayloadSize : ℤ
  maxConnectionsPerClient : ℤ
  maxRequestsPerClientPerSecond : ℤ
  slowClientOutputLimit : ℤ
  logLevel : Bytes
  requestQueueCapacityDisplay : ℤ
  deriving DecidableEq, Repr

structure ConfigUpdateRequest where
  maxPayloadSize : ℤ
  maxConnectionsPerClient : ℤ
  maxRequestsPerClientPerSecond : ℤ
  slowClientOutputLimit : ℤ
  logLevel : Bytes
  deriving DecidableEq, Repr

structure TokenEntry where
  clientId : Bytes
  generation : ℤ
  createdAt : Bytes
  updatedAt : Bytes
  disabled : Bool
  deriving DecidableEq, Repr

structure TokenUpsertRequest where
  clientId : Bytes
  deriving DecidableEq, Repr

structure TokenRecord extends TokenEntry where
  digest : Bytes
  deriving DecidableEq, Repr

structure TokenSecretResponse where
  clientId : Bytes
  token : Bytes
  generation : ℤ
  deriving DecidableEq, Repr

inductive TokenAuthDecision where
  | invalid
  | allowed
  | disabled
  deriving DecidableEq, Repr

/-- `authFailurePolicy`; the window is a number of nanoseconds. -/
structure AuthFailurePolicy where
  limit : ℤ
  window : ℤ
  deriving DecidableEq, Repr

inductive DecodeError where
  | tooLarge
  | invalid
  /-- Something follows the value. -/
  | trailing
  deriving DecidableEq, Repr

/-- What the package takes from other libraries. -/
structure Platform where
  decodeAuthCheckRequest : Bytes → Except DecodeError AuthCheckRequest
  decodeTokenUpsertRequest : Bytes → Except DecodeError TokenUpsertRequest
  decodeConfigUpdateRequest : Bytes → Except DecodeError ConfigUpdateRequest
  toUpper : Bytes → Bytes
  /-- The text of a time in nanoseconds. -/
  rfc3339Nano : ℤ → Bytes
  /-- The digest of a token under a pepper. -/
  hmacSha256Hex : Bytes → Bytes → Bytes

/-- The smallest and the largest value of `int64`. -/
def int64Min : ℤ := -9223372036854775808

def int64Max : ℤ := 9223372036854775807

/-- The value of an `int64` after an overflow. -/
def wrapInt64 (value : ℤ) : ℤ := value.bmod (2 ^ 64)

theorem wrapInt64_of_range {value : ℤ} (hmin : int64Min ≤ value) (hmax : value ≤ int64Max) :
    wrapInt64 value = value := by
  unfold int64Min at hmin
  unfold int64Max at hmax
  rw [wrapInt64, Int.bmod_eq_of_le] <;> omega

theorem wrapInt64_range (value : ℤ) :
    int64Min ≤ wrapInt64 value ∧ wrapInt64 value ≤ int64Max := by
  have hle := Int.le_bmod (x := value) (m := 2 ^ 64) (by decide)
  have hlt := Int.bmod_lt (x := value) (m := 2 ^ 64) (by decide)
  unfold int64Min int64Max wrapInt64
  omega

/-- Integers that `int64` holds. -/
def Int64s (numbers : List ℤ) : Prop := ∀ n ∈ numbers, int64Min ≤ n ∧ n ≤ int64Max

instance (numbers : List ℤ) : Decidable (Int64s numbers) :=
  inferInstanceAs (Decidable (∀ n ∈ numbers, int64Min ≤ n ∧ n ≤ int64Max))

@[simp] theorem int64s_nil : Int64s [] := by simp [Int64s]

@[simp] theorem int64s_cons {n : ℤ} {numbers : List ℤ} :
    Int64s (n :: numbers) ↔ (int64Min ≤ n ∧ n ≤ int64Max) ∧ Int64s numbers := by simp [Int64s]

/-- `authFailurePolicyFromEnv`, given the values of the two variables after
`readPositiveEnv`. -/
def authFailurePolicyFromEnv (limit windowSeconds : ℤ) : AuthFailurePolicy where
  limit := limit
  window := wrapInt64 (windowSeconds * 1000000000)

inductive NumError where
  | invalid
  | range
  deriving DecidableEq, Repr

/-- `strconv.ParseInt` with base ten and 64 bits: a value besides the error. -/
def parseInt (value : Bytes) : ℤ × Option NumError :=
  match Decimal.parse value with
  | none => (0, some .invalid)
  | some n =>
      if n < int64Min then (int64Min, some .range)
      else if int64Max < n then (int64Max, some .range)
      else (n, none)

theorem parseInt_format {n : ℤ} (hmin : int64Min ≤ n) (hmax : n ≤ int64Max) :
    parseInt (Decimal.format n) = (n, none) := by
  simp only [parseInt, Decimal.parse_format]
  rw [if_neg (not_lt.mpr hmin), if_neg (not_lt.mpr hmax)]

/-- `strings.Trim` with one character. -/
def trim (character : UInt8) (value : Bytes) : Bytes :=
  ((value.dropWhile (· = character)).reverse.dropWhile (· = character)).reverse

/-- `parseGeneration`: `none` is the error. -/
def parseGeneration (value : Bytes) : Option ℤ :=
  match parseInt (trim 34 value) with
  | (_, some _) => none
  | (generation, none) => if generation ≤ 0 then none else some generation

/-- The `ETag` of a version. -/
def etag (version : ℤ) : Bytes := 34 :: Decimal.format version ++ [34]

/-- `digestEqual`. -/
def digestEqual (left right : Bytes) : Bool := left = right

/-- `secureBearerEqual`. -/
def secureBearerEqual (header expected : Bytes) : Bool :=
  if expected = [] then true
  else if (text "Bearer ").isPrefixOf header then
    header.drop (text "Bearer ").length = expected
  else false

/-- The client name whose hash key is the key of the index. -/
def reservedClientId : Bytes := text "index"

/-- `validTokenClientID`. -/
def validTokenClientId (clientId : Bytes) : Bool :=
  clientId ≠ [] && clientId.length ≤ 128 && clientId ≠ reservedClientId

def defaultRuntimeConfig : RuntimeConfig where
  version := 1
  maxPayloadSize := 1048576
  maxConnectionsPerClient := 2
  maxRequestsPerClientPerSecond := 100
  slowClientOutputLimit := 8388608
  logLevel := text "INFO"
  requestQueueCapacityDisplay := 4096

def maxGatewayInt : ℤ := 2147483647

/-- `validateConfigUpdate`: the text of the error. -/
def validateConfigUpdate (platform : Platform) (req : ConfigUpdateRequest) : Option String :=
  if req.maxPayloadSize < 10 ∨ req.maxPayloadSize > 4194314 then
    some "max_payload_size is outside the supported range"
  else if req.maxConnectionsPerClient ≤ 0 ∨ req.maxConnectionsPerClient > maxGatewayInt then
    some "max_connections_per_client must be in [1, 2147483647]"
  else if req.maxRequestsPerClientPerSecond ≤ 0 ∨
      req.maxRequestsPerClientPerSecond > maxGatewayInt then
    some "max_requests_per_client_per_second must be in [1, 2147483647]"
  else if req.slowClientOutputLimit < req.maxPayloadSize + 4 ∨
      req.slowClientOutputLimit > 67108864 then
    some "slow_client_output_limit must cover one frame including its length prefix and stay below the hard limit"
  else if platform.toUpper req.logLevel ≠ text "DEBUG" ∧
      platform.toUpper req.logLevel ≠ text "INFO" ∧
      platform.toUpper req.logLevel ≠ text "WARN" ∧
      platform.toUpper req.logLevel ≠ text "ERROR" then
    some "log_level must be DEBUG, INFO, WARN, or ERROR"
  else none

/-- The ranges of an accepted update. -/
structure ConfigUpdateRequest.InRange (platform : Platform) (req : ConfigUpdateRequest) :
    Prop where
  maxPayloadSize : 10 ≤ req.maxPayloadSize ∧ req.maxPayloadSize ≤ 4194314
  maxConnectionsPerClient :
    1 ≤ req.maxConnectionsPerClient ∧ req.maxConnectionsPerClient ≤ maxGatewayInt
  maxRequestsPerClientPerSecond :
    1 ≤ req.maxRequestsPerClientPerSecond ∧ req.maxRequestsPerClientPerSecond ≤ maxGatewayInt
  slowClientOutputLimit :
    req.maxPayloadSize + 4 ≤ req.slowClientOutputLimit ∧ req.slowClientOutputLimit ≤ 67108864
  logLevel : platform.toUpper req.logLevel ∈
    [text "DEBUG", text "INFO", text "WARN", text "ERROR"]

variable {req : ConfigUpdateRequest} {platform : Platform}

theorem validateConfigUpdate_eq_none :
    validateConfigUpdate platform req = none ↔ req.InRange platform := by
  unfold validateConfigUpdate
  constructor
  · intro h
    split at h
    · cases h
    · split at h
      · cases h
      · split at h
        · cases h
        · split at h
          · cases h
          · split at h
            · cases h
            · refine ⟨by omega, by omega, by omega, by omega, ?_⟩
              simp only [List.mem_cons, List.not_mem_nil, or_false]
              tauto
  · rintro ⟨hpayload, hconnections, hrequests, hlimit, hlevel⟩
    simp only [List.mem_cons, List.not_mem_nil, or_false] at hlevel
    rw [if_neg (by omega), if_neg (by omega), if_neg (by omega), if_neg (by omega),
      if_neg (by tauto)]

/-- The configuration a request makes of the current one. -/
def RuntimeConfig.updated (platform : Platform) (config : RuntimeConfig)
    (req : ConfigUpdateRequest) : RuntimeConfig where
  version := wrapInt64 (config.version + 1)
  maxPayloadSize := req.maxPayloadSize
  maxConnectionsPerClient := req.maxConnectionsPerClient
  maxRequestsPerClientPerSecond := req.maxRequestsPerClientPerSecond
  slowClientOutputLimit := req.slowClientOutputLimit
  logLevel := platform.toUpper req.logLevel
  requestQueueCapacityDisplay := config.requestQueueCapacityDisplay

/-- The integers of a request. -/
def ConfigUpdateRequest.numbers (req : ConfigUpdateRequest) : List ℤ :=
  [req.maxPayloadSize, req.maxConnectionsPerClient, req.maxRequestsPerClientPerSecond,
    req.slowClientOutputLimit]

/-- The integers of a configuration. -/
def RuntimeConfig.numbers (config : RuntimeConfig) : List ℤ :=
  [config.version, config.maxPayloadSize, config.maxConnectionsPerClient,
    config.maxRequestsPerClientPerSecond, config.slowClientOutputLimit,
    config.requestQueueCapacityDisplay]

theorem ConfigUpdateRequest.InRange.int64 (h : req.InRange platform) : Int64s req.numbers := by
  obtain ⟨hpayload, hconnections, hrequests, hlimit, -⟩ := h
  unfold maxGatewayInt at hconnections hrequests
  simp only [numbers, int64s_cons, int64s_nil, and_true, int64Min, int64Max]
  omega

theorem RuntimeConfig.int64_updated {config : RuntimeConfig} (hreq : Int64s req.numbers)
    (hdisplay : Int64s [config.requestQueueCapacityDisplay]) :
    Int64s (config.updated platform req).numbers := by
  simp only [ConfigUpdateRequest.numbers, numbers, int64s_cons, int64s_nil, and_true] at *
  exact ⟨wrapInt64_range _, hreq.1, hreq.2.1, hreq.2.2.1, hreq.2.2.2, hdisplay⟩

/-- `get` stands for HEAD as well, which the patterns take alike. -/
inductive Method where
  | get
  | post
  | put
  | delete
  | other
  deriving DecidableEq, Repr

/-- A path as the patterns of the routes take it apart. -/
inductive Path where
  | health
  | ready
  | authCheck
  | tokens
  | token (clientId : Bytes)
  | rotate (clientId : Bytes)
  | config
  | other
  deriving DecidableEq, Repr

/-- A request with the headers that are read. -/
structure HttpRequest where
  method : Method
  path : Path
  requestId : Bytes := []
  authorization : Bytes := []
  gatewayToken : Bytes := []
  ifMatch : Bytes := []
  /-- What `mime.ParseMediaType` makes of the `Content-Type`. -/
  mediaType : Option Bytes := some (text "application/json")
  body : Bytes := []
  /-- `-1` where the length is not known. -/
  contentLength : ℤ := body.length
  deriving DecidableEq, Repr

/-- The value whose JSON text is a body. -/
inductive Payload where
  | health (status : String)
  | apiError (requestId : Bytes) (code message : String)
  | authCheck (response : AuthCheckResponse)
  | tokenSecret (response : TokenSecretResponse)
  | tokenEntries (entries : List TokenEntry)
  | success (success : Bool)
  | config (config : RuntimeConfig)
  deriving DecidableEq, Repr

/-- The integers of an answer. -/
def Payload.numbers : Payload → List ℤ
  | .tokenSecret response => [response.generation]
  | .tokenEntries entries => entries.map TokenEntry.generation
  | .config current => current.numbers
  | _ => []

structure HttpResponse where
  status : ℕ
  body : Payload
  etag : Option Bytes := none
  allow : Option String := none
  deriving DecidableEq, Repr

def writeJSON (status : ℕ) (body : Payload) : HttpResponse := ⟨status, body, none, none⟩

def writeAPIError (r : HttpRequest) (status : ℕ) (code message : String) : HttpResponse :=
  writeJSON status (.apiError r.requestId code message)

/-- `decodeJSON`: the value, or the answer it has written. -/
def decodeJSON {α : Type} (decode : Bytes → Except DecodeError α) (r : HttpRequest) :
    Except HttpResponse α :=
  match decode r.body with
  | .ok value => .ok value
  | .error .tooLarge =>
      .error (writeAPIError r 413 "BODY_TOO_LARGE" "request body too large")
  | .error .invalid => .error (writeAPIError r 400 "INVALID_ARGUMENT" "invalid request body")
  | .error .trailing =>
      .error (writeAPIError r 400 "INVALID_ARGUMENT"
        "request body must contain exactly one JSON value")

end App

end GatewaySystem
