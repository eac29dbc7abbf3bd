import GatewaySystem.Lib.Json
import GatewaySystem.Protocol.Codec
import Mathlib.Data.Option.Basic
import Mathlib.Tactic.Common

/-!
# The runtime configuration of the gateway

`parseRuntimeConfig` reads a configuration from a JSON text, all fields or
none: every field must be present, integral and inside its range. The ranges
are collected in `InRange`, which every accepted configuration and the built-in
one satisfy. A fetched configuration replaces the current one only when its
version is larger.
-/

namespace GatewaySystem

structure RuntimeConfig where
  version : ℤ := 1
  maxPayloadSize : ℤ := 1048576
  maxConnectionsPerClient : ℤ := 2
  maxRequestsPerClientPerSecond : ℤ := 100
  slowClientOutputLimit : ℕ := 8 * 1024 * 1024
  logLevel : Bytes := text "INFO"
  requestQueueCapacityDisplay : ℕ := 4096
  deriving DecidableEq, Repr

namespace RuntimeConfig

/-- The largest value of `int`. -/
def intMax : ℤ := 2147483647

/-- The largest value of `int64_t`. -/
def int64Max : ℤ := 9223372036854775807

def logLevels : List Bytes := [text "DEBUG", text "INFO", text "WARN", text "ERROR"]

/-- `integerInRange`: the named member as an integer between the bounds. An
unsigned value above the upper bound is refused before it is converted. -/
def integerInRange (json : Json) (field : String) (minimum maximum : ℤ) : Option ℤ :=
  match json.member? (text field) with
  | some (.unsigned value) =>
      if (value : ℤ) > maximum then none
      else if (value : ℤ) < minimum then none else some value
  | some (.integer value) =>
      if value < minimum ∨ value > maximum then none else some value
  | _ => none

/-- `parseRuntimeConfig` on a parsed document. -/
def ofJson (json : Json) : Option RuntimeConfig := do
  let version ← integerInRange json "version" 1 int64Max
  let maxPayloadSize ← integerInRange json "max_payload_size" 10
    (ProtocolCodec.maxPayloadSize + 10)
  let maxConnectionsPerClient ← integerInRange json "max_connections_per_client" 1 intMax
  let maxRequestsPerClientPerSecond ←
    integerInRange json "max_requests_per_client_per_second" 1 intMax
  let slowClientOutputLimit ← integerInRange json "slow_client_output_limit"
    (maxPayloadSize + 4) (64 * 1024 * 1024)
  let logLevel ← (json.member? (text "log_level")).bind Json.string?
  let requestQueueCapacityDisplay ←
    integerInRange json "request_queue_capacity_display" 1 65536
  if logLevel ∈ logLevels then
    some
      { version := version
        maxPayloadSize := maxPayloadSize
        maxConnectionsPerClient := maxConnectionsPerClient
        maxRequestsPerClientPerSecond := maxRequestsPerClientPerSecond
        slowClientOutputLimit := slowClientOutputLimit.toNat
        logLevel := logLevel
        requestQueueCapacityDisplay := requestQueueCapacityDisplay.toNat }
  else none

/-- `parseRuntimeConfig`: `none` where it returns `false` and leaves its output
argument alone. -/
def parseRuntimeConfig (library : Json.Library) (body : Bytes) : Option RuntimeConfig :=
  match library.parse body with
  | .ok json => ofJson json
  | .error _ => none

/-- `parseRuntimeConfig` with its output argument: what it returns and what the
argument holds afterwards. -/
def parseRuntimeConfigInto (library : Json.Library) (body : Bytes) (config : RuntimeConfig) :
    Bool × RuntimeConfig :=
  match parseRuntimeConfig library body with
  | some parsed => (true, parsed)
  | none => (false, config)

/-- `applyRuntimeConfigIfNewer`: whether the candidate was taken, and the
current configuration afterwards. -/
def applyRuntimeConfigIfNewer (current candidate : RuntimeConfig) : Bool × RuntimeConfig :=
  if candidate.version ≤ current.version then (false, current) else (true, candidate)

/-- The ranges of an accepted configuration. -/
structure InRange (config : RuntimeConfig) : Prop where
  version : 1 ≤ config.version ∧ config.version ≤ int64Max
  maxPayloadSize : 10 ≤ config.maxPayloadSize ∧
    config.maxPayloadSize ≤ ProtocolCodec.maxPayloadSize + 10
  maxConnectionsPerClient : 1 ≤ config.maxConnectionsPerClient ∧
    config.maxConnectionsPerClient ≤ intMax
  maxRequestsPerClientPerSecond : 1 ≤ config.maxRequestsPerClientPerSecond ∧
    config.maxRequestsPerClientPerSecond ≤ intMax
  slowClientOutputLimit : config.maxPayloadSize + 4 ≤ config.slowClientOutputLimit ∧
    config.slowClientOutputLimit ≤ 64 * 1024 * 1024
  logLevel : config.logLevel ∈ logLevels
  requestQueueCapacityDisplay : 1 ≤ config.requestQueueCapacityDisplay ∧
    config.requestQueueCapacityDisplay ≤ 65536

theorem integerInRange_bounds {json : Json} {field : String} {minimum maximum value : ℤ}
    (h : integerInRange json field minimum maximum = some value) :
    minimum ≤ value ∧ value ≤ maximum := by
  unfold integerInRange at h
  split at h
  · split at h
    · cases h
    · split at h
      · cases h
      · cases h
        omega
  · split at h
    · cases h
    · cases h
      omega
  · cases h

variable {config : RuntimeConfig}

/-- What an accepted document holds. -/
theorem ofJson_eq_some {json : Json} :
    ofJson json = some config ↔
      integerInRange json "version" 1 int64Max = some config.version ∧
      integerInRange json "max_payload_size" 10 (ProtocolCodec.maxPayloadSize + 10) =
        some config.maxPayloadSize ∧
      integerInRange json "max_connections_per_client" 1 intMax =
        some config.maxConnectionsPerClient ∧
      integerInRange json "max_requests_per_client_per_second" 1 intMax =
        some config.maxRequestsPerClientPerSecond ∧
      integerInRange json "slow_client_output_limit" (config.maxPayloadSize + 4)
        (64 * 1024 * 1024) = some (config.slowClientOutputLimit : ℤ) ∧
      (json.member? (text "log_level")).bind Json.string? = some config.logLevel ∧
      integerInRange json "request_queue_capacity_display" 1 65536 =
        some (config.requestQueueCapacityDisplay : ℤ) ∧
      config.logLevel ∈ logLevels := by
  constructor
  · intro h
    unfold ofJson at h
    obtain ⟨version, hversion, h⟩ := Option.bind_eq_some_iff.mp h
    obtain ⟨payload, hpayload, h⟩ := Option.bind_eq_some_iff.mp h
    obtain ⟨connections, hconnections, h⟩ := Option.bind_eq_some_iff.mp h
    obtain ⟨requests, hrequests, h⟩ := Option.bind_eq_some_iff.mp h
    obtain ⟨limit, hlimit, h⟩ := Option.bind_eq_some_iff.mp h
    obtain ⟨level, hlevel, h⟩ := Option.bind_eq_some_iff.mp h
    obtain ⟨display, hdisplay, h⟩ := Option.bind_eq_some_iff.mp h
    split at h
    · next hmem =>
        cases h
        have hpos := integerInRange_bounds hpayload
        have hlimitPos := integerInRange_bounds hlimit
        have hdisplayPos := integerInRange_bounds hdisplay
        rw [Int.toNat_of_nonneg (by omega), Int.toNat_of_nonneg (by omega)]
        exact ⟨hversion, hpayload, hconnections, hrequests, hlimit, hlevel, hdisplay, hmem⟩
    · cases h
  · rintro ⟨hversion, hpayload, hconnections, hrequests, hlimit, hlevel, hdisplay, hmem⟩
    simp only [ofJson, hversion, hpayload, hconnections, hrequests, hlimit, hlevel, hdisplay,
      Option.bind_eq_bind, Option.bind_some, if_pos hmem, Int.toNat_natCast]

theorem ofJson_inRange {json : Json} (h : ofJson json = some config) : config.InRange := by
  obtain ⟨hversion, hpayload, hconnections, hrequests, hlimit, -, hdisplay, hlevel⟩ :=
    ofJson_eq_some.mp h
  have hlimit := integerInRange_bounds hlimit
  have hdisplay := integerInRange_bounds hdisplay
  exact
    { version := integerInRange_bounds hversion
      maxPayloadSize := integerInRange_bounds hpayload
      maxConnectionsPerClient := integerInRange_bounds hconnections
      maxRequestsPerClientPerSecond := integerInRange_bounds hrequests
      slowClientOutputLimit := by omega
      logLevel := hlevel
      requestQueueCapacityDisplay := by omega }

/-- Every configuration the parser accepts keeps the ranges. -/
theorem parseRuntimeConfig_inRange {library : Json.Library} {body : Bytes}
    (h : parseRuntimeConfig library body = some config) : config.InRange := by
  unfold parseRuntimeConfig at h
  split at h
  · exact ofJson_inRange h
  · cases h

/-- The built-in configuration keeps the ranges. -/
theorem default_inRange : ({} : RuntimeConfig).InRange where
  version := by decide
  maxPayloadSize := by decide
  maxConnectionsPerClient := by decide
  maxRequestsPerClientPerSecond := by decide
  slowClientOutputLimit := by decide
  logLevel := by decide
  requestQueueCapacityDisplay := by decide

theorem applyRuntimeConfigIfNewer_inRange {current candidate : RuntimeConfig}
    (hcurrent : current.InRange) (hcandidate : candidate.InRange) :
    (applyRuntimeConfigIfNewer current candidate).2.InRange := by
  unfold applyRuntimeConfigIfNewer
  split
  · exact hcurrent
  · exact hcandidate

end RuntimeConfig

end GatewaySystem
