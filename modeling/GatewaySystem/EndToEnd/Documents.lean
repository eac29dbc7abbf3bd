import GatewaySystem.App.ControlPlane
import GatewaySystem.Lib.FlatJson
import GatewaySystem.Control.RuntimeConfig

/-!
# The documents between control plane and gateway

The control plane writes the value of an answer as a JSON text and the gateway
reads it with another library. `Payload.document` is the document of a value,
under the names of the struct tags; that the text of the one library is read as
this document by the other, where the integers are values of `int64`, is the
assumption `Encoding`. A string that is no text comes back changed, and never as
an ASCII text.

The gateway accepts the document of a configuration exactly when its numbers are
in the ranges of `InRange`, and then reads every field as it is. On the
configuration an update makes, these ranges are those of `validateConfigUpdate`.
-/

namespace GatewaySystem

namespace App

def TokenEntry.document (coerce : Bytes → Bytes) (entry : TokenEntry) : Json :=
  .object
    [(text "client_id", .string (coerce entry.clientId)),
      (text "generation", .ofInt entry.generation),
      (text "created_at", .string (coerce entry.createdAt)),
      (text "updated_at", .string (coerce entry.updatedAt)),
      (text "disabled", .bool entry.disabled)]

def RuntimeConfig.document (coerce : Bytes → Bytes) (config : RuntimeConfig) : Json :=
  .object
    [(text "version", .ofInt config.version),
      (text "max_payload_size", .ofInt config.maxPayloadSize),
      (text "max_connections_per_client", .ofInt config.maxConnectionsPerClient),
      (text "max_requests_per_client_per_second", .ofInt config.maxRequestsPerClientPerSecond),
      (text "slow_client_output_limit", .ofInt config.slowClientOutputLimit),
      (text "log_level", .string (coerce config.logLevel)),
      (text "request_queue_capacity_display", .ofInt config.requestQueueCapacityDisplay)]

/-- The document of an answer, given what becomes of a string. -/
def Payload.document (coerce : Bytes → Bytes) : Payload → Json
  | .health status => .object [(text "status", .string (coerce (text status)))]
  | .apiError requestId code message =>
      .object
        [(text "request_id", .string (coerce requestId)),
          (text "code", .string (coerce (text code))),
          (text "message", .string (coerce (text message)))]
  | .authCheck response =>
      .object
        [(text "allowed", .bool response.allowed),
          (text "code", .string (coerce (text response.code))),
          (text "reason", .string (coerce (text response.reason)))]
  | .tokenSecret response =>
      .object
        [(text "client_id", .string (coerce response.clientId)),
          (text "token", .string (coerce response.token)),
          (text "generation", .ofInt response.generation)]
  | .tokenEntries entries => .array (entries.map (TokenEntry.document coerce))
  | .success value => .object [(text "success", .bool value)]
  | .config current => current.document coerce

def Ascii (value : Bytes) : Prop := ∀ byte ∈ value, byte < 128

/-- What is assumed of `encoding/json` on the one side and of the reader of the
gateway on the other. -/
structure Encoding (library : Json.Library) where
  /-- `json.Marshal`. -/
  encode : Payload → Bytes
  /-- What becomes of a string on its way. -/
  coerce : Bytes → Bytes
  coerce_of_ascii : ∀ value, Ascii value → coerce value = value
  coerce_eq_self : ∀ value, Ascii (coerce value) → coerce value = value
  parse_encode : ∀ payload, Int64s payload.numbers →
    library.parse (encode payload) = .ok (payload.document coerce)

end App

namespace Sample

open App

/-- A byte outside of ASCII becomes U+FFFD. -/
def coerceAscii (value : Bytes) : Bytes :=
  value.flatMap fun byte => if byte < 128 then [byte] else [239, 191, 189]

theorem coerceAscii_of_ascii {value : Bytes} (h : Ascii value) : coerceAscii value = value := by
  induction value with
  | nil => rfl
  | cons byte value ih =>
      have hrest : coerceAscii value = value := ih fun b hb => h b (List.mem_cons_of_mem _ hb)
      have hstep : coerceAscii (byte :: value) =
          (if byte < 128 then [byte] else [239, 191, 189]) ++ coerceAscii value := rfl
      rw [hstep, if_pos (h byte List.mem_cons_self), hrest, List.singleton_append]

theorem ascii_of_coerceAscii {value : Bytes} (h : Ascii (coerceAscii value)) : Ascii value := by
  intro byte hbyte
  by_contra hlarge
  have hmem : 239 ∈ coerceAscii value :=
    List.mem_flatMap.mpr ⟨byte, hbyte, by simp [hlarge]⟩
  exact absurd (h 239 hmem) (by decide)

theorem parse_dump_document (payload : Payload) (h : Int64s payload.numbers) :
    Json.flatLibrary.parse (Json.flatLibrary.dump (payload.document coerceAscii)) =
      .ok (payload.document coerceAscii) := by
  have hnumber : ∀ n ∈ payload.numbers, Json.Plain (.ofInt n) := by
    intro n hn
    have hrange := h n hn
    rw [int64Min, int64Max] at hrange
    exact Json.plain_ofInt (by omega)
  cases payload with
  | tokenEntries entries =>
      refine Json.parse_dump_array fun item hitem => ?_
      obtain ⟨entry, hentry, rfl⟩ := List.mem_map.mp hitem
      have hown := hnumber _ (List.mem_map_of_mem hentry)
      exact ⟨_, rfl, by simp, by simp [Json.plain_string, Json.plain_bool, hown]⟩
  | config current =>
      simp only [Payload.numbers, App.RuntimeConfig.numbers, List.forall_mem_cons] at hnumber
      exact Json.parse_dump_object ⟨_, rfl, by simp, by simp [Json.plain_string, hnumber]⟩
  | tokenSecret response =>
      have hown := hnumber _ List.mem_cons_self
      exact Json.parse_dump_object ⟨_, rfl, by simp, by simp [Json.plain_string, hown]⟩
  | _ =>
      exact Json.parse_dump_object
        ⟨_, rfl, by simp, by simp [Json.plain_string, Json.plain_bool]⟩

def jsonEncoding : Encoding Json.flatLibrary where
  encode payload := Json.flatLibrary.dump (payload.document coerceAscii)
  coerce := coerceAscii
  coerce_of_ascii _ := coerceAscii_of_ascii
  coerce_eq_self _ h := coerceAscii_of_ascii (ascii_of_coerceAscii h)
  parse_encode := parse_dump_document

end Sample

namespace RuntimeConfig

variable {json : Json} {config : App.RuntimeConfig} {parsed : RuntimeConfig}
  {coerce : Bytes → Bytes}

/-- The gateway holds the values of a configuration of the control plane. -/
structure Matches (parsed : RuntimeConfig) (config : App.RuntimeConfig) : Prop where
  version : parsed.version = config.version
  maxPayloadSize : parsed.maxPayloadSize = config.maxPayloadSize
  maxConnectionsPerClient : parsed.maxConnectionsPerClient = config.maxConnectionsPerClient
  maxRequestsPerClientPerSecond :
    parsed.maxRequestsPerClientPerSecond = config.maxRequestsPerClientPerSecond
  slowClientOutputLimit : (parsed.slowClientOutputLimit : ℤ) = config.slowClientOutputLimit
  logLevel : parsed.logLevel = config.logLevel
  requestQueueCapacityDisplay :
    (parsed.requestQueueCapacityDisplay : ℤ) = config.requestQueueCapacityDisplay

theorem eq_of_integerInRange {field : String} {minimum maximum n value : ℤ}
    (hmember : json.member? (text field) = some (Json.ofInt n))
    (h : integerInRange json field minimum maximum = some value) : value = n := by
  rw [integerInRange, hmember, Json.ofInt] at h
  by_cases hunsigned : 0 ≤ n
  · simp only [if_pos hunsigned, Int.toNat_of_nonneg hunsigned] at h
    split_ifs at h
    exact (Option.some.inj h).symm
  · simp only [if_neg hunsigned] at h
    split_ifs at h
    exact (Option.some.inj h).symm

theorem integerInRange_of_range {field : String} {minimum maximum n : ℤ}
    (hmember : json.member? (text field) = some (Json.ofInt n)) (hpos : 0 ≤ n)
    (hrange : minimum ≤ n ∧ n ≤ maximum) :
    integerInRange json field minimum maximum = some n := by
  rw [integerInRange, hmember, Json.ofInt, if_pos (by omega)]
  simp only [Int.toNat_of_nonneg hpos]
  rw [if_neg (by omega), if_neg (by omega)]

theorem ascii_of_mem_logLevels {level : Bytes} (h : level ∈ logLevels) : App.Ascii level := by
  have hlevels : ∀ level ∈ logLevels, ∀ byte ∈ level, byte < 128 := by decide +kernel
  exact hlevels level h

/-- The gateway accepts a document exactly when what it holds is in range. -/
theorem ofJson_document (hascii : ∀ value, App.Ascii value → coerce value = value)
    (hself : ∀ value, App.Ascii (coerce value) → coerce value = value) :
    ofJson (config.document coerce) = some parsed ↔ parsed.InRange ∧ parsed.Matches config := by
  have hlevel : ((config.document coerce).member? (text "log_level")).bind Json.string? =
      some (coerce config.logLevel) := rfl
  constructor
  · intro h
    have hrange := ofJson_inRange h
    obtain ⟨hversion, hpayload, hconnections, hrequests, hlimit, hread, hdisplay, -⟩ :=
      ofJson_eq_some.mp h
    have hread : coerce config.logLevel = parsed.logLevel :=
      Option.some.inj (hlevel.symm.trans hread)
    have hsame : coerce config.logLevel = config.logLevel := by
      refine hself _ ?_
      rw [hread]
      exact ascii_of_mem_logLevels hrange.logLevel
    refine ⟨hrange, ?_⟩
    exact
      { version := eq_of_integerInRange rfl hversion
        maxPayloadSize := eq_of_integerInRange rfl hpayload
        maxConnectionsPerClient := eq_of_integerInRange rfl hconnections
        maxRequestsPerClientPerSecond := eq_of_integerInRange rfl hrequests
        slowClientOutputLimit := eq_of_integerInRange rfl hlimit
        logLevel := hread.symm.trans hsame
        requestQueueCapacityDisplay := eq_of_integerInRange rfl hdisplay }
  · rintro ⟨hrange, hmatches⟩
    obtain ⟨hversion, hpayload, hconnections, hrequests, hlimit, hlogLevel, hdisplay⟩ := hrange
    have hsame : coerce config.logLevel = parsed.logLevel := by
      rw [← hmatches.logLevel]
      exact hascii _ (ascii_of_mem_logLevels hlogLevel)
    rw [hsame] at hlevel
    refine ofJson_eq_some.mpr ⟨?_, ?_, ?_, ?_, ?_, hlevel, ?_, hlogLevel⟩
    · exact integerInRange_of_range (by rw [hmatches.version]; rfl) (by omega) hversion
    · exact integerInRange_of_range (by rw [hmatches.maxPayloadSize]; rfl) (by omega) hpayload
    · exact integerInRange_of_range (by rw [hmatches.maxConnectionsPerClient]; rfl) (by omega)
        hconnections
    · exact integerInRange_of_range (by rw [hmatches.maxRequestsPerClientPerSecond]; rfl)
        (by omega) hrequests
    · exact integerInRange_of_range (by rw [hmatches.slowClientOutputLimit]; rfl) (by omega)
        (by omega)
    · exact integerInRange_of_range (by rw [hmatches.requestQueueCapacityDisplay]; rfl)
        (by omega) (by omega)

variable {library : Json.Library}

theorem parse_encode_config (encoding : App.Encoding library)
    (hint64 : App.Int64s config.numbers) :
    parseRuntimeConfig library (encoding.encode (.config config)) = some parsed ↔
      parsed.InRange ∧ parsed.Matches config := by
  rw [parseRuntimeConfig, encoding.parse_encode (.config config) hint64]
  exact ofJson_document encoding.coerce_of_ascii encoding.coerce_eq_self

theorem parseRuntimeConfigInto_eq_true {body : Bytes} {current : RuntimeConfig} :
    (parseRuntimeConfigInto library body current).1 = true ↔
      ∃ parsed, parseRuntimeConfig library body = some parsed := by
  rw [parseRuntimeConfigInto]
  cases parseRuntimeConfig library body <;> simp

theorem parseRuntimeConfigInto_of_some {body : Bytes}
    (h : parseRuntimeConfig library body = some parsed) (current : RuntimeConfig) :
    parseRuntimeConfigInto library body current = (true, parsed) := by
  rw [parseRuntimeConfigInto, h]

theorem parseRuntimeConfigInto_of_none {body : Bytes} (h : parseRuntimeConfig library body = none)
    (current : RuntimeConfig) : parseRuntimeConfigInto library body current = (false, current) := by
  rw [parseRuntimeConfigInto, h]

/-- The ranges of an update are those of the configuration it makes. -/
theorem exists_matches_updated {platform : App.Platform} {req : App.ConfigUpdateRequest}
    (hversion : 1 ≤ config.version ∧ config.version < int64Max)
    (hdisplay : 1 ≤ config.requestQueueCapacityDisplay ∧
      config.requestQueueCapacityDisplay ≤ 65536) :
    (∃ parsed : RuntimeConfig, parsed.InRange ∧ parsed.Matches (config.updated platform req)) ↔
      req.InRange platform := by
  have hnext : App.wrapInt64 (config.version + 1) = config.version + 1 := by
    refine App.wrapInt64_of_range ?_ (Int.add_one_le_of_lt hversion.2)
    unfold App.int64Min
    omega
  have hpayloadMax : (ProtocolCodec.maxPayloadSize : ℤ) + 10 = 4194314 := by decide
  constructor
  · rintro ⟨parsed, hrange, hmatches⟩
    obtain ⟨-, hpayload, hconnections, hrequests, hlimit, hlevel, -⟩ := hmatches
    simp only [App.RuntimeConfig.updated] at hpayload hconnections hrequests hlimit hlevel
    exact
      { maxPayloadSize := by
          have hbounds := hrange.maxPayloadSize
          omega
        maxConnectionsPerClient := hconnections ▸ hrange.maxConnectionsPerClient
        maxRequestsPerClientPerSecond := hrequests ▸ hrange.maxRequestsPerClientPerSecond
        slowClientOutputLimit := by
          have hbounds := hrange.slowClientOutputLimit
          omega
        logLevel := hlevel ▸ hrange.logLevel }
  · intro hreq
    have hpayload := hreq.maxPayloadSize
    have hlimit := hreq.slowClientOutputLimit
    refine ⟨
      { version := config.version + 1
        maxPayloadSize := req.maxPayloadSize
        maxConnectionsPerClient := req.maxConnectionsPerClient
        maxRequestsPerClientPerSecond := req.maxRequestsPerClientPerSecond
        slowClientOutputLimit := req.slowClientOutputLimit.toNat
        logLevel := platform.toUpper req.logLevel
        requestQueueCapacityDisplay := config.requestQueueCapacityDisplay.toNat }, ?_, ?_⟩
    · exact
        { version := ⟨by simp only; omega, Int.add_one_le_of_lt hversion.2⟩
          maxPayloadSize := by simp only; omega
          maxConnectionsPerClient := hreq.maxConnectionsPerClient
          maxRequestsPerClientPerSecond := hreq.maxRequestsPerClientPerSecond
          slowClientOutputLimit := by simp only; omega
          logLevel := hreq.logLevel
          requestQueueCapacityDisplay := by simp only; omega }
    · exact
        { version := hnext.symm
          maxPayloadSize := rfl
          maxConnectionsPerClient := rfl
          maxRequestsPerClientPerSecond := rfl
          slowClientOutputLimit := Int.toNat_of_nonneg (by omega)
          logLevel := rfl
          requestQueueCapacityDisplay := Int.toNat_of_nonneg (by omega) }

/-- An update of `int64` values is accepted by the control plane exactly when the
gateway reads the configuration it makes, and then the gateway reads its values. What the gateway
does not accept leaves the argument as it was. -/
theorem validate_iff_parse (encoding : App.Encoding library) (platform : App.Platform)
    (req : App.ConfigUpdateRequest) (hreq : App.Int64s req.numbers) (s : App.MemoryStore) (now : ℤ)
    (hversion : 1 ≤ s.config.version ∧ s.config.version < int64Max)
    (hdisplay : 1 ≤ s.config.requestQueueCapacityDisplay ∧
      s.config.requestQueueCapacityDisplay ≤ 65536) :
    (∃ stored s', App.MemoryStore.updateConfig platform s.config.version req now s =
        (.ok stored, s') ∧ s'.config = stored ∧
      ∀ current : RuntimeConfig,
        let parsed := parseRuntimeConfigInto library (encoding.encode (.config stored)) current
        (App.validateConfigUpdate platform req = none ↔ parsed.1 = true) ∧
          (parsed.1 = true → parsed.2.InRange ∧ parsed.2.Matches stored)) ∧
    ∀ body (current : RuntimeConfig), (parseRuntimeConfigInto library body current).1 = false →
      (parseRuntimeConfigInto library body current).2 = current := by
  refine ⟨⟨s.config.updated platform req, { s with config := s.config.updated platform req },
    if_neg (not_not_intro rfl), rfl, ?_⟩, ?_⟩
  · intro current
    simp only [parseRuntimeConfigInto_eq_true]
    have hint64 : App.Int64s (s.config.updated platform req).numbers := by
      refine App.RuntimeConfig.int64_updated hreq ?_
      simp only [App.int64s_cons, App.int64s_nil, and_true, App.int64Min, App.int64Max]
      omega
    rw [App.validateConfigUpdate_eq_none, ← exists_matches_updated hversion hdisplay]
    refine ⟨exists_congr fun parsed => (parse_encode_config encoding hint64).symm, ?_⟩
    rintro ⟨parsed, hparsed⟩
    rw [parseRuntimeConfigInto_of_some hparsed]
    exact (parse_encode_config encoding hint64).mp hparsed
  · intro body current h
    cases hparse : parseRuntimeConfig library body with
    | none => rw [parseRuntimeConfigInto_of_none hparse]
    | some parsed =>
        rw [parseRuntimeConfigInto_of_some hparse] at h
        cases h

/-- A request at the bounds of its ranges, with a level in lower case. -/
theorem validate_iff_parse_bounds :
    (parseRuntimeConfigInto Json.flatLibrary
      (Sample.jsonEncoding.encode (.config (App.defaultRuntimeConfig.updated
        App.Sample.plainPlatform ⟨4194314, 2147483647, 1, 4194318,
          text "warn"⟩))) {}).1 = true := by
  obtain ⟨stored, s', hstored, -, hread⟩ := (validate_iff_parse Sample.jsonEncoding
    App.Sample.plainPlatform ⟨4194314, 2147483647, 1, 4194318, text "warn"⟩ (by decide)
    App.newMemoryStore 0 (by decide) (by decide)).1
  have hsame : stored = App.defaultRuntimeConfig.updated App.Sample.plainPlatform
      ⟨4194314, 2147483647, 1, 4194318, text "warn"⟩ := by
    cases hstored
    rfl
  rw [← hsame]
  exact (hread {}).1.mp (by decide +kernel)

end RuntimeConfig

end GatewaySystem
