import GatewaySystem.App.Backend

/-!
# The contents of the Redis store

The keys of the store and what they hold. `Represents` relates a view to the
keyspace that holds it: a hash for each token, the index of their names, a
string with a time for each counter, and the hash of the configuration. The
commands and scripts of the store keep it, and their effect on the view is one
of those of `Effect`.
-/

namespace GatewaySystem

namespace App

namespace RedisStore

open Redis

/-- The hash of a record. -/
def tokenHash (record : TokenRecord) : Hash :=
  Hash.assign (fun _ => none)
    [(text "digest", record.digest), (text "generation", Decimal.format record.generation),
      (text "created_at", record.createdAt), (text "updated_at", record.updatedAt),
      (text "disabled", Decimal.format (if record.disabled then 1 else 0))]

/-- The hash of a configuration. -/
def configHash (config : RuntimeConfig) : Hash :=
  Hash.assign (fun _ => none)
    [(text "version", Decimal.format config.version),
      (text "max_payload_size", Decimal.format config.maxPayloadSize),
      (text "max_connections_per_client", Decimal.format config.maxConnectionsPerClient),
      (text "max_requests_per_client_per_second",
        Decimal.format config.maxRequestsPerClientPerSecond),
      (text "slow_client_output_limit", Decimal.format config.slowClientOutputLimit),
      (text "log_level", config.logLevel),
      (text "request_queue_capacity_display",
        Decimal.format config.requestQueueCapacityDisplay)]

def tokenValue (record : TokenRecord) : Entry := ⟨.hash (tokenHash record), none⟩

def failureValue (counter : MemoryAuthFailure) : Entry :=
  ⟨.string (Decimal.format counter.count), some counter.expiresAt⟩

def configValue (config : RuntimeConfig) : Entry := ⟨.hash (configHash config), none⟩

/-- The view of a keyspace. -/
def view (k : Keyspace) : View where
  token clientId :=
    if clientId = reservedClientId then none
    else
      match k.entry (tokenKey clientId) with
      | some ⟨.hash values, _⟩ =>
          some { tokenEntry clientId values with digest := field values "digest" }
      | _ => none
  failure clientId :=
    match k.entry (authFailureKey clientId) with
    | some ⟨.string value, some expiresAt⟩ => some ⟨(parseInt value).1, expiresAt⟩
    | _ => none
  config :=
    match k.entry configKey with
    | some ⟨.hash values, _⟩ => some (runtimeConfig values)
    | _ => none

/-- The numbers that are written and read back as they are. -/
structure Fits (config : RuntimeConfig) : Prop where
  version : 1 ≤ config.version ∧ config.version ≤ 2 ^ 53
  maxPayloadSize : int64Min ≤ config.maxPayloadSize ∧ config.maxPayloadSize ≤ int64Max
  maxConnectionsPerClient :
    int64Min ≤ config.maxConnectionsPerClient ∧ config.maxConnectionsPerClient ≤ int64Max
  maxRequestsPerClientPerSecond :
    int64Min ≤ config.maxRequestsPerClientPerSecond ∧
      config.maxRequestsPerClientPerSecond ≤ int64Max
  slowClientOutputLimit :
    int64Min ≤ config.slowClientOutputLimit ∧ config.slowClientOutputLimit ≤ int64Max
  requestQueueCapacityDisplay :
    int64Min ≤ config.requestQueueCapacityDisplay ∧ config.requestQueueCapacityDisplay ≤ int64Max

/-- A keyspace that holds the contents of a view. -/
structure Represents (v : View) (k : Keyspace) : Prop where
  token : ∀ clientId, clientId ≠ reservedClientId →
    k.entry (tokenKey clientId) = (v.token clientId).map tokenValue
  reserved : v.token reservedClientId = none
  record : ∀ clientId record, v.token clientId = some record →
    record.clientId = clientId ∧ 1 ≤ record.generation ∧ record.generation ≤ 2 ^ 53
  index : ∃ members : List Bytes, members.Nodup ∧
    (∀ clientId, clientId ∈ members ↔ (v.token clientId).isSome) ∧ k.HoldsSet indexKey members
  failure : ∀ clientId,
    k.entry (authFailureKey clientId) = (v.failure clientId).map failureValue
  counter : ∀ clientId counter, v.failure clientId = some counter →
    1 ≤ counter.count ∧ counter.count ≤ int64Max
  config : k.entry configKey = v.config.map configValue
  fits : ∀ config, v.config = some config → Fits config

/-- The invariant of the keyspace. -/
def Sound (k : Keyspace) : Prop := Represents (view k) k

section Keys

theorem indexKey_eq : indexKey = tokenKey reservedClientId := by decide

theorem tokenKey_injective {clientId clientId' : Bytes}
    (h : tokenKey clientId = tokenKey clientId') : clientId = clientId' :=
  List.append_cancel_left h

theorem tokenKey_ne_indexKey {clientId : Bytes} (h : clientId ≠ reservedClientId) :
    tokenKey clientId ≠ indexKey :=
  fun heq => h (tokenKey_injective (heq.trans indexKey_eq))

theorem authFailureKey_injective {clientId clientId' : Bytes}
    (h : authFailureKey clientId = authFailureKey clientId') : clientId = clientId' :=
  List.append_cancel_left (List.append_cancel_right h)

theorem head_tokenKey (clientId : Bytes) : (tokenKey clientId).head? = some 116 := rfl

theorem head_authFailureKey (clientId : Bytes) : (authFailureKey clientId).head? = some 97 := rfl

theorem tokenKey_ne_authFailureKey (clientId clientId' : Bytes) :
    tokenKey clientId ≠ authFailureKey clientId' := by
  intro h
  have hhead := congrArg List.head? h
  rw [head_tokenKey, head_authFailureKey] at hhead
  cases hhead

theorem tokenKey_ne_configKey (clientId : Bytes) : tokenKey clientId ≠ configKey := by
  intro h
  have hhead := congrArg List.head? h
  rw [head_tokenKey] at hhead
  revert hhead
  decide

theorem authFailureKey_ne_configKey (clientId : Bytes) : authFailureKey clientId ≠ configKey := by
  intro h
  have hhead := congrArg List.head? h
  rw [head_authFailureKey] at hhead
  revert hhead
  decide

theorem indexKey_ne_authFailureKey (clientId : Bytes) : indexKey ≠ authFailureKey clientId :=
  indexKey_eq ▸ tokenKey_ne_authFailureKey _ _

theorem indexKey_ne_configKey : indexKey ≠ configKey := indexKey_eq ▸ tokenKey_ne_configKey _

end Keys

section Values

theorem int64_of_generation {n : ℤ} (hmin : 1 ≤ n) (hmax : n ≤ 2 ^ 53) :
    int64Min ≤ n ∧ n ≤ int64Max := by
  unfold int64Min int64Max
  omega

theorem int64Min_le_of_pos {n : ℤ} (h : 1 ≤ n) : int64Min ≤ n := by
  unfold int64Min
  omega

/-- A number that was written into a field is read back. -/
theorem redisInt_of_format {values : Hash} {name : String} {n : ℤ}
    (h : values (text name) = some (Decimal.format n)) (hmin : int64Min ≤ n) (hmax : n ≤ int64Max) :
    redisInt values name = n := by
  rw [redisInt, field, h, Option.getD_some, parseInt_format hmin hmax]

theorem tokenEntry_tokenHash {record : TokenRecord} (hmin : 1 ≤ record.generation)
    (hmax : record.generation ≤ 2 ^ 53) :
    tokenEntry record.clientId (tokenHash record) = record.toTokenEntry := by
  obtain ⟨hmin, hmax⟩ := int64_of_generation hmin hmax
  have hgeneration : redisInt (tokenHash record) "generation" = record.generation :=
    redisInt_of_format rfl hmin hmax
  have hdisabled : decide (field (tokenHash record) "disabled" = text "1") = record.disabled := by
    show decide (Decimal.format (if record.disabled then 1 else 0) = text "1") = _
    cases record.disabled <;> decide
  rw [tokenEntry, hgeneration, hdisabled]
  rfl

theorem runtimeConfig_configHash {config : RuntimeConfig} (h : Fits config) :
    runtimeConfig (configHash config) = config := by
  obtain ⟨hmin, hmax⟩ := int64_of_generation h.version.1 h.version.2
  have hversion : redisInt (configHash config) "version" = config.version :=
    redisInt_of_format rfl hmin hmax
  have hpayload : redisInt (configHash config) "max_payload_size" = config.maxPayloadSize :=
    redisInt_of_format rfl h.maxPayloadSize.1 h.maxPayloadSize.2
  have hconnections : redisInt (configHash config) "max_connections_per_client" =
      config.maxConnectionsPerClient :=
    redisInt_of_format rfl h.maxConnectionsPerClient.1 h.maxConnectionsPerClient.2
  have hrequests : redisInt (configHash config) "max_requests_per_client_per_second" =
      config.maxRequestsPerClientPerSecond :=
    redisInt_of_format rfl h.maxRequestsPerClientPerSecond.1 h.maxRequestsPerClientPerSecond.2
  have hlimit : redisInt (configHash config) "slow_client_output_limit" =
      config.slowClientOutputLimit :=
    redisInt_of_format rfl h.slowClientOutputLimit.1 h.slowClientOutputLimit.2
  have hdisplay : redisInt (configHash config) "request_queue_capacity_display" =
      config.requestQueueCapacityDisplay :=
    redisInt_of_format rfl h.requestQueueCapacityDisplay.1 h.requestQueueCapacityDisplay.2
  rw [runtimeConfig, hversion, hpayload, hconnections, hrequests, hlimit, hdisplay]
  rfl

/-- A script that sets every field of a configuration leaves its hash. -/
theorem assign_configHash (config config' : RuntimeConfig) :
    Hash.assign (configHash config)
      [(text "version", Decimal.format config'.version),
        (text "max_payload_size", Decimal.format config'.maxPayloadSize),
        (text "max_connections_per_client", Decimal.format config'.maxConnectionsPerClient),
        (text "max_requests_per_client_per_second",
          Decimal.format config'.maxRequestsPerClientPerSecond),
        (text "slow_client_output_limit", Decimal.format config'.slowClientOutputLimit),
        (text "log_level", config'.logLevel),
        (text "request_queue_capacity_display",
          Decimal.format config'.requestQueueCapacityDisplay)] = configHash config' := by
  apply Hash.assign_assign
  exact List.Subset.refl _

theorem assign_rotated (record : TokenRecord) (digest updatedAt : Bytes) :
    Hash.assign (tokenHash record)
      [(text "digest", digest),
        (text "generation", Decimal.format (StoreBackend.redis.next record.generation)),
        (text "updated_at", updatedAt), (text "disabled", Decimal.format 0)] =
      tokenHash (record.rotated .redis digest updatedAt) := by
  funext name
  simp only [tokenHash, TokenRecord.rotated, Hash.assign, List.foldl, Function.update_apply,
    Bool.false_eq_true, if_false]
  split_ifs <;> first | rfl | simp_all +decide

theorem assign_disabled (record : TokenRecord) (updatedAt : Bytes) :
    Hash.assign (tokenHash record)
      [(text "disabled", Decimal.format 1), (text "updated_at", updatedAt)] =
      tokenHash { record with disabled := true, updatedAt := updatedAt } := by
  funext name
  simp only [tokenHash, Hash.assign, List.foldl, Function.update_apply]
  split_ifs <;> first | rfl | simp_all +decide

end Values

variable {v : View} {k : Keyspace} {now : ℤ}

/-- The view of what represents a view. -/
theorem Represents.view_eq (h : Represents v k) : view k = v := by
  refine View.ext (funext fun clientId => ?_) (funext fun clientId => ?_) ?_
  · simp only [view]
    split
    · next hreserved => rw [hreserved, h.reserved]
    · next hclient =>
        rw [h.token clientId hclient]
        cases htoken : v.token clientId with
        | none => rfl
        | some record =>
            obtain ⟨rfl, hmin, hmax⟩ := h.record clientId record htoken
            simp only [Option.map_some, tokenValue, tokenEntry_tokenHash hmin hmax]
            rfl
  · simp only [view, h.failure clientId]
    cases hfailure : v.failure clientId with
    | none => rfl
    | some counter =>
        obtain ⟨hmin, hmax⟩ := h.counter clientId counter hfailure
        simp only [Option.map_some, failureValue, parseInt_format (int64Min_le_of_pos hmin) hmax]
  · simp only [view, h.config]
    cases hconfig : v.config with
    | none => rfl
    | some config =>
        simp only [Option.map_some, configValue, runtimeConfig_configHash (h.fits config hconfig)]

theorem Represents.sound (h : Represents v k) : Sound k := by
  rw [Sound, h.view_eq]
  exact h

section Writes

theorem Represents.ne_reserved (h : Represents v k) {clientId : Bytes} {record : TokenRecord}
    (htoken : v.token clientId = some record) : clientId ≠ reservedClientId := by
  rintro rfl
  cases h.reserved.symm.trans htoken

/-- A record replaced by another of the same name. -/
theorem Represents.set_token (h : Represents v k) {clientId : Bytes} {old record : TokenRecord}
    (hold : v.token clientId = some old) (hclient : record.clientId = clientId)
    (hmin : 1 ≤ record.generation) (hmax : record.generation ≤ 2 ^ 53) :
    Represents (v.setToken clientId record)
      (k.set (tokenKey clientId) (some (tokenValue record))) := by
  have hreserved := h.ne_reserved hold
  refine ⟨fun c hc => ?_, ?_, fun c r hr => ?_, ?_, fun c => ?_, h.counter, ?_, h.fits⟩
  · by_cases heq : c = clientId
    · subst heq
      simp [View.setToken]
    · rw [k.entry_set_of_ne _ fun hkey => heq (tokenKey_injective hkey), h.token c hc]
      simp [View.setToken, Function.update_of_ne heq]
  · simp [View.setToken, Function.update_of_ne hreserved.symm, h.reserved]
  · by_cases heq : c = clientId
    · subst heq
      obtain rfl : record = r := by simpa [View.setToken] using hr
      exact ⟨hclient, hmin, hmax⟩
    · exact h.record c r (by simpa [View.setToken, Function.update_of_ne heq] using hr)
  · obtain ⟨members, hnodup, hmembers, hindex⟩ := h.index
    refine ⟨members, hnodup, fun c => ?_, ?_⟩
    · by_cases heq : c = clientId
      · subst heq
        simp [View.setToken, hmembers, hold]
      · simp [View.setToken, Function.update_of_ne heq, hmembers]
    · rw [Keyspace.HoldsSet, k.entry_set_of_ne _ (tokenKey_ne_indexKey hreserved).symm, hindex]
  · rw [k.entry_set_of_ne _ (tokenKey_ne_authFailureKey _ _).symm, h.failure c]
    rfl
  · rw [k.entry_set_of_ne _ (tokenKey_ne_configKey _).symm, h.config]
    rfl

/-- A new record and its name in the index. -/
theorem Represents.add_token (h : Represents v k) {record : TokenRecord} {members : List Bytes}
    (hreserved : record.clientId ≠ reservedClientId) (hmin : 1 ≤ record.generation)
    (hmax : record.generation ≤ 2 ^ 53) (hnodup : members.Nodup)
    (hmembers : ∀ clientId, clientId ∈ members ↔ (v.token clientId).isSome) :
    Represents (v.setToken record.clientId record)
      ((k.set (tokenKey record.clientId) (some (tokenValue record))).set indexKey
        (some ⟨.set (members.insert record.clientId), none⟩)) := by
  refine ⟨fun c hc => ?_, ?_, fun c r hr => ?_, ?_, fun c => ?_, h.counter, ?_, h.fits⟩
  · rw [Keyspace.entry_set_of_ne _ _ (tokenKey_ne_indexKey hc)]
    by_cases heq : c = record.clientId
    · subst heq
      simp [View.setToken]
    · rw [k.entry_set_of_ne _ fun hkey => heq (tokenKey_injective hkey), h.token c hc]
      simp [View.setToken, Function.update_of_ne heq]
  · simp [View.setToken, Function.update_of_ne hreserved.symm, h.reserved]
  · by_cases heq : c = record.clientId
    · subst heq
      obtain rfl : record = r := by simpa [View.setToken] using hr
      exact ⟨rfl, hmin, hmax⟩
    · exact h.record c r (by simpa [View.setToken, Function.update_of_ne heq] using hr)
  · refine ⟨members.insert record.clientId, hnodup.insert, fun c => ?_, ?_⟩
    · by_cases heq : c = record.clientId
      · subst heq
        simp [View.setToken]
      · simp [View.setToken, hmembers, heq]
    · have hne : members.insert record.clientId ≠ [] :=
        List.ne_nil_of_mem (List.mem_insert_self)
      rw [Keyspace.HoldsSet, Keyspace.entry_set_self, if_neg hne]
  · rw [Keyspace.entry_set_of_ne _ _ (indexKey_ne_authFailureKey _).symm,
      k.entry_set_of_ne _ (tokenKey_ne_authFailureKey _ _).symm, h.failure c]
    rfl
  · rw [Keyspace.entry_set_of_ne _ _ indexKey_ne_configKey.symm,
      k.entry_set_of_ne _ (tokenKey_ne_configKey _).symm, h.config]
    rfl

theorem Represents.set_failure (h : Represents v k) (clientId : Bytes)
    (counter : Option MemoryAuthFailure)
    (hcounter : ∀ f, counter = some f → 1 ≤ f.count ∧ f.count ≤ int64Max) :
    Represents (v.setFailure clientId counter)
      (k.set (authFailureKey clientId) (counter.map failureValue)) := by
  refine ⟨fun c hc => ?_, h.reserved, h.record, ?_, fun c => ?_, fun c f hf => ?_, ?_, h.fits⟩
  · rw [k.entry_set_of_ne _ (tokenKey_ne_authFailureKey _ _), h.token c hc]
    rfl
  · simp only [Keyspace.HoldsSet, k.entry_set_of_ne _ (indexKey_ne_authFailureKey _)]
    exact h.index
  · by_cases heq : c = clientId
    · subst heq
      simp [View.setFailure]
    · rw [k.entry_set_of_ne _ fun hkey => heq (authFailureKey_injective hkey), h.failure c]
      simp [View.setFailure, Function.update_of_ne heq]
  · by_cases heq : c = clientId
    · subst heq
      exact hcounter f (by simpa [View.setFailure] using hf)
    · exact h.counter c f (by simpa [View.setFailure, Function.update_of_ne heq] using hf)
  · rw [k.entry_set_of_ne _ (authFailureKey_ne_configKey _).symm, h.config]
    rfl

theorem Represents.set_config (h : Represents v k) {config : RuntimeConfig} (hfits : Fits config) :
    Represents { v with config := some config }
      (k.set configKey (some (configValue config))) := by
  refine ⟨fun c hc => ?_, h.reserved, h.record, ?_, fun c => ?_, h.counter, ?_, fun c hc => ?_⟩
  · rw [k.entry_set_of_ne _ (tokenKey_ne_configKey _), h.token c hc]
  · simp only [Keyspace.HoldsSet, k.entry_set_of_ne _ indexKey_ne_configKey]
    exact h.index
  · rw [k.entry_set_of_ne _ (authFailureKey_ne_configKey _), h.failure c]
  · rw [k.entry_set_self]
    rfl
  · obtain rfl := Option.some.inj hc
    exact hfits

end Writes

section Reads

variable (now)

theorem Represents.find_token (h : Represents v k) {clientId : Bytes}
    (hclient : clientId ≠ reservedClientId) :
    k.find? now (tokenKey clientId) = (v.token clientId).map tokenValue := by
  rw [Keyspace.find?, h.token clientId hclient]
  cases v.token clientId <;> rfl

theorem Represents.hgetall_token (h : Represents v k) {clientId : Bytes}
    (hclient : clientId ≠ reservedClientId) :
    hgetall (tokenKey clientId) now k = (.ok ((v.token clientId).map tokenHash), k) := by
  have hfind := h.find_token now hclient
  cases htoken : v.token clientId with
  | none => exact hgetall_missing (by rw [hfind, htoken]; rfl)
  | some record => exact hgetall_hash (by rw [hfind, htoken]; rfl)

theorem Represents.hgetall_config (h : Represents v k) :
    hgetall configKey now k = (.ok (v.config.map configHash), k) := by
  have hfind : k.find? now configKey = v.config.map configValue := by
    rw [Keyspace.find?, h.config]
    cases v.config <;> rfl
  cases hconfig : v.config with
  | none => exact hgetall_missing (by rw [hfind, hconfig]; rfl)
  | some config => exact hgetall_hash (by rw [hfind, hconfig]; rfl)

theorem Represents.find_failure (h : Represents v k) (clientId : Bytes) :
    k.find? now (authFailureKey clientId) = (v.live now clientId).map failureValue := by
  rw [Keyspace.find?, h.failure clientId, View.live]
  exact Option.filter_map ..

end Reads

section Operations

variable {clientId : Bytes} {record : TokenRecord} {expected : ℤ} {config : RuntimeConfig}

theorem verifyDigest_eq (h : Represents v k) (hclient : clientId ≠ reservedClientId)
    (digest : Bytes) :
    verifyDigest clientId digest now k = (.ok (v.decision clientId digest), k) := by
  have hread := hmget_of_hgetall (h.hgetall_token now hclient) [text "digest", text "disabled"]
  simp only [verifyDigest, after, lift, hread, View.decision]
  cases v.token clientId with
  | none => rfl
  | some record =>
      have hdisabled : (tokenHash record (text "disabled") = some (text "1")) =
          (record.disabled = true) := by
        show (some (Decimal.format (if record.disabled then 1 else 0)) = some (text "1")) = _
        cases record.disabled <;> simp <;> decide
      have hdigest : tokenHash record (text "digest") = some record.digest := rfl
      simp only [Option.map_some, List.map_cons, List.map_nil, Option.bind_some, hdigest,
        hdisabled]
      split
      · rfl
      · split <;> rfl

theorem verifyDigest_reserved_missing (h : Represents v k)
    (hempty : ∀ clientId, v.token clientId = none)
    (digest : Bytes) : verifyDigest reservedClientId digest now k = (.ok .invalid, k) := by
  obtain ⟨members, -, hmembers, hindex⟩ := h.index
  have hnil : members = [] :=
    List.eq_nil_iff_forall_not_mem.mpr fun c hc => by simp [hempty, hmembers] at hc
  rw [Keyspace.HoldsSet, if_pos hnil, indexKey_eq] at hindex
  have hfind : k.find? now (tokenKey reservedClientId) = none := Keyspace.find?_of_missing hindex
  have hread := hmget_of_hgetall (hgetall_missing hfind) [text "digest", text "disabled"]
  simp only [verifyDigest, after, lift, hread]
  rfl

/-- The key of the reserved name holds the index as soon as there is a token. -/
theorem verifyDigest_reserved (h : Represents v k) (htoken : v.token clientId = some record)
    (digest : Bytes) : verifyDigest reservedClientId digest now k = (.error .other, k) := by
  obtain ⟨members, -, hmembers, hindex⟩ := h.index
  have hne : members ≠ [] := List.ne_nil_of_mem ((hmembers clientId).mpr (by simp [htoken]))
  rw [Keyspace.HoldsSet, if_neg hne, indexKey_eq] at hindex
  have hread : hmget (tokenKey reservedClientId) [text "digest", text "disabled"] now k =
      (.error .wrongType, k) :=
    Script.bind_error (hgetall_set (Keyspace.find?_of_permanent hindex))
  simp only [verifyDigest, after, lift, hread]

theorem authFailureLimited_eq (h : Represents v k) (clientId : Bytes) (limit : ℤ) :
    authFailureLimited clientId limit now k = (.ok (v.limited now clientId limit), k) := by
  have hfind := h.find_failure now clientId
  simp only [authFailureLimited, after, lift, View.limited]
  cases hlive : v.live now clientId with
  | none =>
      rw [hlive] at hfind
      rw [get_missing hfind]
  | some counter =>
      rw [hlive] at hfind
      obtain ⟨hmin, hmax⟩ := h.counter clientId counter (View.live_eq_some.mp hlive).1
      rw [get_string hfind]
      simp only [parseInt_format (int64Min_le_of_pos hmin) hmax]

theorem recordAuthFailure_first (h : Represents v k) (hlive : v.live now clientId = none)
    (window : ℤ) :
    recordAuthFailure clientId window now k =
      (.ok 1, k.set (authFailureKey clientId)
        (some (failureValue ⟨1, now + StoreBackend.redis.lifetime window⟩))) := by
  have hfind : k.find? now (authFailureKey clientId) = none := by
    rw [h.find_failure now clientId, hlive]
    rfl
  have hscript : recordAuthFailureScript (authFailureKey clientId) (window.tdiv 1000000) now k =
      (.ok 1, k.set (authFailureKey clientId)
        (some (failureValue ⟨1, now + StoreBackend.redis.lifetime window⟩))) := by
    rw [recordAuthFailureScript, Script.bind_ok (incr_missing hfind)]
    simp only [if_true]
    have hset : Keyspace.find? (k.set (authFailureKey clientId)
        (some ⟨.string (Decimal.format 1), none⟩)) now (authFailureKey clientId) =
        some ⟨.string (Decimal.format 1), none⟩ :=
      Keyspace.find?_of_permanent (Keyspace.entry_set_self ..)
    rw [Script.bind_ok (pexpire_found hset _), Script.pure_apply]
    simp [Keyspace.set, failureValue, StoreBackend.lifetime]
  simp only [recordAuthFailure, lift, hscript]

theorem recordAuthFailure_next (h : Represents v k) {counter : MemoryAuthFailure}
    (hlive : v.live now clientId = some counter) (hcount : counter.count < int64Max) (window : ℤ) :
    recordAuthFailure clientId window now k =
      (.ok (counter.count + 1), k.set (authFailureKey clientId)
        (some (failureValue { counter with count := counter.count + 1 }))) := by
  have hfind : k.find? now (authFailureKey clientId) = some (failureValue counter) := by
    rw [h.find_failure now clientId, hlive]
    rfl
  have hpos := (h.counter clientId counter (View.live_eq_some.mp hlive).1).1
  have hscript : recordAuthFailureScript (authFailureKey clientId) (window.tdiv 1000000) now k =
      (.ok (counter.count + 1), k.set (authFailureKey clientId)
        (some (failureValue { counter with count := counter.count + 1 }))) := by
    rw [recordAuthFailureScript, Script.bind_ok (incr_counter hfind hcount),
      if_neg (by omega)]
    rfl
  simp only [recordAuthFailure, lift, hscript]

theorem recordAuthFailure_overflow (h : Represents v k) {counter : MemoryAuthFailure}
    (hlive : v.live now clientId = some counter) (hcount : int64Max ≤ counter.count) (window : ℤ) :
    recordAuthFailure clientId window now k = (.error .other, k) := by
  have hfind : k.find? now (authFailureKey clientId) = some (failureValue counter) := by
    rw [h.find_failure now clientId, hlive]
    rfl
  have hscript : recordAuthFailureScript (authFailureKey clientId) (window.tdiv 1000000) now k =
      (.error .overflow, k) :=
    Script.bind_error (incr_full hfind hcount)
  simp only [recordAuthFailure, lift, hscript]

theorem createToken_eq (h : Represents v k) (hnew : record.New)
    (htoken : v.token record.clientId = none) :
    ∃ k', createToken record now k = (.ok (), k') ∧
      Represents (v.setToken record.clientId record) k' := by
  have hreserved : record.clientId ≠ reservedClientId := by
    have := hnew.clientId
    simp only [validTokenClientId, Bool.and_eq_true, decide_eq_true_eq] at this
    exact this.2
  obtain ⟨members, hnodup, hmembers, hindex⟩ := h.index
  have hfind : k.find? now (tokenKey record.clientId) = none := by
    rw [h.find_token now hreserved, htoken]
    rfl
  have hhash : Hash.assign (fun _ => none)
      [(text "digest", record.digest), (text "generation", Decimal.format 1),
        (text "created_at", record.createdAt), (text "updated_at", record.createdAt),
        (text "disabled", Decimal.format 0)] = tokenHash record := by
    simp only [tokenHash, hnew.generation, hnew.updatedAt, hnew.disabled, Bool.false_eq_true,
      if_false]
  have hrest : (k.set (tokenKey record.clientId) (some (tokenValue record))).HoldsSet indexKey
      members := by
    rw [Keyspace.HoldsSet, k.entry_set_of_ne _ (tokenKey_ne_indexKey hreserved).symm, hindex]
  have hscript : createTokenScript (tokenKey record.clientId) indexKey record.digest
      record.createdAt record.clientId now k =
        (.ok 1, (k.set (tokenKey record.clientId) (some (tokenValue record))).set indexKey
          (some ⟨.set (members.insert record.clientId), none⟩)) := by
    rw [createTokenScript, Script.bind_ok (existsKey_eq ..), hfind]
    simp only [Option.isSome_none, Bool.false_eq_true, if_false]
    rw [Script.bind_ok (hset_of_hgetall (hgetall_missing hfind) _), Option.getD_none, hhash,
      Keyspace.write_missing hfind]
    exact Script.bind_ok (sadd_of_holdsSet hrest _)
  refine ⟨_, ?_, h.add_token hreserved hnew.generation.ge
    (hnew.generation.trans_le (by decide)) hnodup hmembers⟩
  simp only [createToken, after, lift, hscript]
  rfl

theorem createToken_exists (h : Represents v k) {record old : TokenRecord}
    (htoken : v.token record.clientId = some old) :
    createToken record now k = (.error .tokenExists, k) := by
  have hfind := h.find_token now (h.ne_reserved htoken)
  have hscript : createTokenScript (tokenKey record.clientId) indexKey record.digest
      record.createdAt record.clientId now k = (.ok 0, k) := by
    rw [createTokenScript, Script.bind_ok (existsKey_eq ..), hfind, htoken]
    rfl
  simp only [createToken, after, lift, hscript, if_true]

theorem tonumber_format {n : ℤ} : tonumber (Decimal.format n) = some (Double.round n) := by
  rw [tonumber, Decimal.parse_format, Option.map_some]

/-- A stored number is the double it is read as. -/
theorem round_stored {n : ℤ} (hmin : 1 ≤ n) (hmax : n ≤ 2 ^ 53) : Double.round n = n :=
  Double.round_of_le (by omega) hmax

theorem next_range {n : ℤ} (hmin : 1 ≤ n) (hmax : n ≤ 2 ^ 53) :
    1 ≤ StoreBackend.redis.next n ∧ StoreBackend.redis.next n ≤ 2 ^ 53 := by
  rcases lt_or_eq_of_le hmax with hlt | rfl
  · have hnext : StoreBackend.redis.next n = n + 1 := Double.round_of_le (by omega) (by omega)
    omega
  · have hnext : StoreBackend.redis.next (2 ^ 53) = 2 ^ 53 := Double.round_limit_succ
    omega

theorem rotateToken_missing (h : Represents v k) (hclient : clientId ≠ reservedClientId)
    (htoken : v.token clientId = none) (expected : ℤ) (digest updatedAt : Bytes) :
    rotateToken clientId expected digest updatedAt now k = (.error .tokenNotFound, k) := by
  have hread := hget_of_hgetall (h.hgetall_token now hclient) (text "generation")
  have hscript : rotateTokenScript (tokenKey clientId) (Decimal.format expected) digest updatedAt
      now k = (.ok (-1), k) := by
    rw [rotateTokenScript, Script.bind_ok hread, htoken]
    rfl
  simp only [rotateToken, after, lift, hscript, if_true]

theorem rotateToken_conflict (h : Represents v k) (htoken : v.token clientId = some record)
    (hexpected : ¬StoreBackend.redis.agrees record.generation expected) (digest updatedAt : Bytes) :
    rotateToken clientId expected digest updatedAt now k = (.error .tokenConflict, k) := by
  obtain ⟨-, hmin, hmax⟩ := h.record clientId record htoken
  have hread := hget_of_hgetall (h.hgetall_token now (h.ne_reserved htoken)) (text "generation")
  have hgeneration : tokenHash record (text "generation") =
      some (Decimal.format record.generation) := rfl
  have hscript : rotateTokenScript (tokenKey clientId) (Decimal.format expected) digest updatedAt
      now k = (.ok 0, k) := by
    rw [rotateTokenScript, Script.bind_ok hread, htoken]
    simp only [Option.map_some, Option.bind_some, hgeneration, tonumber_format,
      round_stored hmin hmax]
    rw [if_pos fun heq => hexpected (Option.some.inj heq)]
    rfl
  simp only [rotateToken, after, lift, hscript]
  rfl

theorem rotateToken_eq (h : Represents v k) (htoken : v.token clientId = some record)
    (hexpected : StoreBackend.redis.agrees record.generation expected) (digest updatedAt : Bytes) :
    rotateToken clientId expected digest updatedAt now k =
      (.ok { record.rotated .redis digest updatedAt with clientId := clientId, createdAt := [] },
        k.set (tokenKey clientId)
          (some (tokenValue (record.rotated .redis digest updatedAt)))) := by
  obtain ⟨-, hmin, hmax⟩ := h.record clientId record htoken
  obtain ⟨hnext, -⟩ := next_range hmin hmax
  have hfind := h.find_token now (h.ne_reserved htoken)
  have hall := h.hgetall_token now (h.ne_reserved htoken)
  rw [htoken] at hfind hall
  have hgeneration : tokenHash record (text "generation") =
      some (Decimal.format record.generation) := rfl
  have hscript : rotateTokenScript (tokenKey clientId) (Decimal.format expected) digest updatedAt
      now k = (.ok (StoreBackend.redis.next record.generation),
        k.set (tokenKey clientId)
          (some (tokenValue (record.rotated .redis digest updatedAt)))) := by
    rw [rotateTokenScript, Script.bind_ok (hget_of_hgetall hall (text "generation"))]
    simp only [Option.map_some, Option.bind_some, hgeneration, tonumber_format,
      round_stored hmin hmax]
    rw [if_neg (not_not.mpr (congrArg some hexpected))]
    have hset := hset_of_hgetall hall [(text "digest", digest),
      (text "generation", Decimal.format (StoreBackend.redis.next record.generation)),
      (text "updated_at", updatedAt), (text "disabled", Decimal.format 0)]
    rw [Option.map_some, Option.getD_some, assign_rotated, Keyspace.write_found hfind] at hset
    exact Script.bind_ok hset
  simp only [rotateToken, after, lift, hscript]
  rw [if_neg (by omega), if_neg (by omega)]
  rfl

theorem disableToken_missing (h : Represents v k) (hclient : clientId ≠ reservedClientId)
    (htoken : v.token clientId = none) (updatedAt : Bytes) :
    disableToken clientId updatedAt now k = (.error .tokenNotFound, k) := by
  have hfind := h.find_token now hclient
  have hscript : disableTokenScript (tokenKey clientId) updatedAt now k = (.ok 0, k) := by
    rw [disableTokenScript, Script.bind_ok (existsKey_eq ..), hfind, htoken]
    rfl
  simp only [disableToken, after, lift, hscript, if_true]

theorem disableToken_eq (h : Represents v k) (htoken : v.token clientId = some record)
    (updatedAt : Bytes) :
    disableToken clientId updatedAt now k =
      (.ok (), k.set (tokenKey clientId)
        (some (tokenValue { record with disabled := true, updatedAt := updatedAt }))) := by
  have hfind := h.find_token now (h.ne_reserved htoken)
  have hall := h.hgetall_token now (h.ne_reserved htoken)
  rw [htoken] at hfind hall
  have hscript : disableTokenScript (tokenKey clientId) updatedAt now k =
      (.ok 1, k.set (tokenKey clientId)
        (some (tokenValue { record with disabled := true, updatedAt := updatedAt }))) := by
    rw [disableTokenScript, Script.bind_ok (existsKey_eq ..), hfind]
    simp only [Option.map_some, Option.isSome_some, Bool.not_true, Bool.false_eq_true, if_false]
    have hset := hset_of_hgetall hall
      [(text "disabled", Decimal.format 1), (text "updated_at", updatedAt)]
    rw [Option.map_some, Option.getD_some, assign_disabled, Keyspace.write_found hfind] at hset
    exact Script.bind_ok hset
  simp only [disableToken, after, lift, hscript]
  rfl

theorem readToken_eq (h : Represents v k) (hclient : clientId ≠ reservedClientId) :
    readToken clientId now k =
      (.ok ((v.token clientId).map TokenRecord.toTokenEntry).toList, k) := by
  simp only [readToken, after, lift, h.hgetall_token now hclient]
  cases htoken : v.token clientId with
  | none => rfl
  | some record =>
      obtain ⟨rfl, hmin, hmax⟩ := h.record clientId record htoken
      simp only [Option.map_some, tokenEntry_tokenHash hmin hmax]
      rfl

theorem initScript_first (h : Represents v k) (hconfig : v.config = none) :
    lift (initScript configKey defaultRuntimeConfig) now k =
      (.ok 1, k.set configKey (some (configValue defaultRuntimeConfig))) := by
  have hfind : k.find? now configKey = none :=
    Keyspace.find?_of_missing (by rw [h.config, hconfig]; rfl)
  have hscript : initScript configKey defaultRuntimeConfig now k =
      (.ok 1, k.set configKey (some (configValue defaultRuntimeConfig))) := by
    rw [initScript, Script.bind_ok (existsKey_eq ..), hfind]
    simp only [Option.isSome_none, Bool.not_false, if_true]
    have hset := hset_of_hgetall (hgetall_missing hfind)
      [(text "version", Decimal.format 1),
        (text "max_payload_size", Decimal.format defaultRuntimeConfig.maxPayloadSize),
        (text "max_connections_per_client",
          Decimal.format defaultRuntimeConfig.maxConnectionsPerClient),
        (text "max_requests_per_client_per_second",
          Decimal.format defaultRuntimeConfig.maxRequestsPerClientPerSecond),
        (text "slow_client_output_limit",
          Decimal.format defaultRuntimeConfig.slowClientOutputLimit),
        (text "log_level", defaultRuntimeConfig.logLevel),
        (text "request_queue_capacity_display",
          Decimal.format defaultRuntimeConfig.requestQueueCapacityDisplay)]
    rw [Keyspace.write_missing hfind] at hset
    exact Script.bind_ok hset
  simp only [lift, hscript]

theorem initScript_again (h : Represents v k) (hconfig : v.config = some config) :
    lift (initScript configKey defaultRuntimeConfig) now k = (.ok 0, k) := by
  have hfind : k.find? now configKey = some (configValue config) :=
    Keyspace.find?_of_permanent (by rw [h.config, hconfig]; rfl)
  have hall := h.hgetall_config now
  rw [hconfig] at hall
  have hscript : initScript configKey defaultRuntimeConfig now k = (.ok 0, k) := by
    rw [initScript, Script.bind_ok (existsKey_eq ..), hfind]
    simp only [Option.isSome_some, Bool.not_true, Bool.false_eq_true, if_false]
    exact Script.bind_ok (hsetnx_present hall rfl _)
  simp only [lift, hscript]

theorem readConfig_eq (h : Represents v k) (hconfig : v.config = some config) :
    readConfig now k = (.ok config, k) := by
  simp only [readConfig, after, lift, h.hgetall_config now, hconfig, Option.map_some,
    Option.getD_some, runtimeConfig_configHash (h.fits config hconfig)]

theorem updateConfig_conflict (h : Represents v k) (platform : Platform)
    (hexpected : ∀ config, v.config = some config →
      ¬StoreBackend.redis.agrees config.version expected) (req : ConfigUpdateRequest) :
    updateConfig platform expected req now k = (.error .configConflict, k) := by
  have hread := hget_of_hgetall (h.hgetall_config now) (text "version")
  have hscript : ∀ payload connections requests limit level display,
      updateConfigScript configKey (Decimal.format expected) payload connections requests limit
        level display now k = (.ok (0, []), k) := by
    intro payload connections requests limit level display
    rw [updateConfigScript, Script.bind_ok hread]
    cases hconfig : v.config with
    | none => rfl
    | some config =>
        obtain ⟨hmin, hmax⟩ := (h.fits config hconfig).version
        have hversion : configHash config (text "version") =
          some (Decimal.format config.version) := rfl
        simp only [Option.map_some, Option.bind_some, hversion, tonumber_format,
          round_stored hmin hmax]
        rw [if_pos fun heq => hexpected config hconfig (Option.some.inj heq)]
        rfl
  simp only [updateConfig, after, lift, hscript, if_true]

theorem fits_default : Fits defaultRuntimeConfig := by
  refine ⟨?_, ?_, ?_, ?_, ?_, ?_⟩ <;> decide

theorem fits_updated {platform : Platform} (hfits : Fits config) {req : ConfigUpdateRequest}
    (hrange : req.InRange platform) : Fits (StoreBackend.redis.updated platform config req) := by
  obtain ⟨hpayload, hconnections, hrequests, hlimit, -⟩ := hrange
  have hversion := next_range hfits.version.1 hfits.version.2
  unfold maxGatewayInt at hconnections hrequests
  refine ⟨hversion, ?_, ?_, ?_, ?_, hfits.requestQueueCapacityDisplay⟩ <;>
    simp only [StoreBackend.updated, RuntimeConfig.updated, int64Min, int64Max] <;> omega

theorem updateConfig_eq (h : Represents v k) {platform : Platform}
    (hconfig : v.config = some config)
    (hexpected : StoreBackend.redis.agrees config.version expected) (req : ConfigUpdateRequest) :
    updateConfig platform expected req now k =
      (.ok (StoreBackend.redis.updated platform config req),
        k.set configKey (some (configValue (StoreBackend.redis.updated platform config req)))) := by
  have hfits := h.fits config hconfig
  have hfind : k.find? now configKey = some (configValue config) :=
    Keyspace.find?_of_permanent (by rw [h.config, hconfig]; rfl)
  have hall := h.hgetall_config now
  rw [hconfig, Option.map_some] at hall
  have hversion : configHash config (text "version") = some (Decimal.format config.version) := rfl
  have hscript : updateConfigScript configKey (Decimal.format expected)
      (Decimal.format req.maxPayloadSize) (Decimal.format req.maxConnectionsPerClient)
      (Decimal.format req.maxRequestsPerClientPerSecond)
      (Decimal.format req.slowClientOutputLimit) (platform.toUpper req.logLevel)
      (Decimal.format defaultRuntimeConfig.requestQueueCapacityDisplay) now k =
        (.ok (StoreBackend.redis.next config.version,
          Decimal.format config.requestQueueCapacityDisplay),
          k.set configKey
            (some (configValue (StoreBackend.redis.updated platform config req)))) := by
    rw [updateConfigScript, Script.bind_ok (hget_of_hgetall hall (text "version"))]
    simp only [Option.bind_some, hversion, tonumber_format,
      round_stored hfits.version.1 hfits.version.2]
    rw [if_neg (not_not.mpr (congrArg some hexpected)),
      Script.bind_ok (hget_of_hgetall hall (text "request_queue_capacity_display"))]
    have hset := hset_of_hgetall hall
      [(text "version", Decimal.format (StoreBackend.redis.updated platform config req).version),
        (text "max_payload_size", Decimal.format req.maxPayloadSize),
        (text "max_connections_per_client", Decimal.format req.maxConnectionsPerClient),
        (text "max_requests_per_client_per_second",
          Decimal.format req.maxRequestsPerClientPerSecond),
        (text "slow_client_output_limit", Decimal.format req.slowClientOutputLimit),
        (text "log_level", platform.toUpper req.logLevel),
        (text "request_queue_capacity_display",
          Decimal.format config.requestQueueCapacityDisplay)]
    have hassign := assign_configHash config (StoreBackend.redis.updated platform config req)
    simp only [StoreBackend.updated, RuntimeConfig.updated] at hassign hset
    rw [Option.getD_some, hassign, Keyspace.write_found hfind] at hset
    exact Script.bind_ok hset
  obtain ⟨hnext, -⟩ := next_range hfits.version.1 hfits.version.2
  obtain ⟨hmin, hmax⟩ := hfits.requestQueueCapacityDisplay
  simp only [updateConfig, after, lift, hscript, parseInt_format hmin hmax]
  rw [if_neg (by omega)]
  rfl

end Operations

section Laws

variable (platform : Platform) (policy : AuthFailurePolicy) {clientId : Bytes}

/-- An access whose outcome is known for every view. -/
theorem lawful_of_represents {α : Type} {access : Access Keyspace α}
    {event : Except StoreError α → Event}
    (h : ∀ now v k, Represents v k → ∃ v', Represents v' (access now k).2 ∧
      Effect .redis platform policy now v (event (access now k).1) v') :
    Lawful .redis platform policy view Sound access event := by
  intro now k hk
  obtain ⟨v', hv', heffect⟩ := h now (view k) k hk
  exact ⟨hv'.sound, hv'.view_eq.symm ▸ heffect⟩

theorem verifyDigest_lawful (clientId digest : Bytes) :
    Lawful .redis platform policy view Sound (verifyDigest clientId digest)
      (.verifyDigest clientId digest) := by
  refine lawful_of_represents platform policy fun now v k h => ⟨v, ?_⟩
  by_cases hclient : clientId = reservedClientId
  · subst hclient
    by_cases hempty : ∀ clientId, v.token clientId = none
    · have hdecision : v.decision reservedClientId digest = .invalid := by
        simp only [View.decision, hempty]
      rw [verifyDigest_reserved_missing h hempty, ← hdecision]
      exact ⟨h, .verify⟩
    · obtain ⟨clientId, htoken⟩ := not_forall.mp hempty
      obtain ⟨record, htoken⟩ := Option.ne_none_iff_exists'.mp htoken
      rw [verifyDigest_reserved h htoken]
      exact ⟨h, .unverified rfl⟩
  · rw [verifyDigest_eq h hclient]
    exact ⟨h, .verify⟩

theorem authFailureLimited_lawful (clientId : Bytes) :
    Lawful .redis platform policy view Sound (authFailureLimited clientId policy.limit)
      (.authFailureLimited clientId) := by
  refine lawful_of_represents platform policy fun now v k h => ⟨v, ?_⟩
  rw [authFailureLimited_eq h]
  exact ⟨h, .limited rfl rfl fun c => .inl rfl⟩

theorem recordAuthFailure_lawful (clientId : Bytes) :
    Lawful .redis platform policy view Sound (recordAuthFailure clientId policy.window)
      (.recordAuthFailure clientId) := by
  refine lawful_of_represents platform policy fun now v k h => ?_
  cases hlive : v.live now clientId with
  | none =>
      rw [recordAuthFailure_first h hlive]
      refine ⟨_, h.set_failure clientId (some _) fun f hf => ?_, .recordFirst hlive⟩
      obtain rfl := Option.some.inj hf
      exact ⟨le_rfl, (by decide : (1 : ℤ) ≤ int64Max)⟩
  | some counter =>
      obtain ⟨hpos, -⟩ := h.counter clientId counter (View.live_eq_some.mp hlive).1
      by_cases hcount : counter.count < int64Max
      · rw [recordAuthFailure_next h hlive hcount]
        refine ⟨_, h.set_failure clientId (some _) fun f hf => ?_, .recordNext hlive hcount⟩
        obtain rfl := Option.some.inj hf
        exact ⟨by simp only; omega, Int.add_one_le_of_lt hcount⟩
      · rw [recordAuthFailure_overflow h hlive (not_lt.mp hcount)]
        have hkept : v = v.setFailure clientId (v.failure clientId) := by
          simp [View.setFailure]
        refine ⟨v, h, ?_⟩
        nth_rewrite 2 [hkept]
        exact .recordOverflow hlive (not_lt.mp hcount)

theorem clearAuthFailures_lawful (clientId : Bytes) :
    Lawful .redis platform policy view Sound (clearAuthFailures clientId)
      (.clearAuthFailures clientId) :=
  lawful_of_represents platform policy fun _ _ _ h => ⟨_, h.set_failure clientId none nofun, .clear⟩

theorem createToken_lawful {record : TokenRecord} (hnew : record.New) :
    Lawful .redis platform policy view Sound (createToken record) (.createToken record) := by
  refine lawful_of_represents platform policy fun now v k h => ?_
  cases htoken : v.token record.clientId with
  | none =>
      obtain ⟨k', hcreate, hk'⟩ := createToken_eq h hnew htoken
      rw [hcreate]
      exact ⟨_, hk', .create hnew htoken⟩
  | some old =>
      rw [createToken_exists h htoken]
      exact ⟨v, h, .createExists htoken⟩

theorem rotateToken_lawful (hclient : clientId ≠ reservedClientId) {expected : ℤ}
    (hpos : 0 < expected) (digest updatedAt : Bytes) :
    Lawful .redis platform policy view Sound (rotateToken clientId expected digest updatedAt)
      (.rotateToken clientId expected) := by
  refine lawful_of_represents platform policy fun now v k h => ?_
  cases htoken : v.token clientId with
  | none =>
      rw [rotateToken_missing h hclient htoken]
      exact ⟨v, h, .rotateMissing htoken⟩
  | some record =>
      by_cases hexpected : StoreBackend.redis.agrees record.generation expected
      · obtain ⟨hname, hmin, hmax⟩ := h.record clientId record htoken
        obtain ⟨hnext, hnext'⟩ := next_range hmin hmax
        rw [rotateToken_eq h htoken hexpected]
        exact ⟨_, h.set_token htoken hname hnext hnext', .rotate htoken hpos hexpected rfl rfl⟩
      · rw [rotateToken_conflict h htoken hexpected]
        exact ⟨v, h, .rotateConflict htoken hexpected⟩

theorem disableToken_lawful (hclient : clientId ≠ reservedClientId) (updatedAt : Bytes) :
    Lawful .redis platform policy view Sound (disableToken clientId updatedAt)
      (.disableToken clientId) := by
  refine lawful_of_represents platform policy fun now v k h => ?_
  cases htoken : v.token clientId with
  | none =>
      rw [disableToken_missing h hclient htoken]
      exact ⟨v, h, .disableMissing htoken⟩
  | some record =>
      obtain ⟨hname, hmin, hmax⟩ := h.record clientId record htoken
      rw [disableToken_eq h htoken]
      exact ⟨_, h.set_token htoken hname hmin hmax, .disable htoken⟩

theorem smembers_lawful :
    Lawful .redis platform policy view Sound (lift (smembers indexKey)) fun _ => .tokenIndex := by
  refine lawful_of_represents platform policy fun now v k h => ⟨v, ?_⟩
  obtain ⟨members, -, -, hindex⟩ := h.index
  simp only [lift, smembers_of_holdsSet hindex]
  exact ⟨h, .tokenIndex⟩

theorem readToken_lawful (hclient : clientId ≠ reservedClientId) :
    Lawful .redis platform policy view Sound (readToken clientId) .listTokens := by
  refine lawful_of_represents platform policy fun now v k h => ⟨v, ?_⟩
  rw [readToken_eq h hclient]
  refine ⟨h, .list fun entry hentry => ?_⟩
  simp only [Option.mem_toList, Option.map_eq_some_iff] at hentry
  obtain ⟨record, htoken, rfl⟩ := hentry
  exact ⟨record, (h.record clientId record htoken).1.symm ▸ htoken, rfl⟩

theorem initConfig_lawful :
    Lawful .redis platform policy view Sound (lift (initScript configKey defaultRuntimeConfig))
      fun _ => .initConfig := by
  refine lawful_of_represents platform policy fun now v k h => ?_
  cases hconfig : v.config with
  | none =>
      rw [initScript_first h hconfig]
      exact ⟨_, h.set_config fits_default, .initConfigFirst hconfig⟩
  | some config =>
      rw [initScript_again h hconfig]
      exact ⟨v, h, .initConfig (by simp [hconfig])⟩

theorem updateConfig_lawful {req : ConfigUpdateRequest}
    (hvalid : validateConfigUpdate platform req = none) (expected : ℤ) :
    Lawful .redis platform policy view Sound (updateConfig platform expected req)
      (.updateConfig expected req) := by
  refine lawful_of_represents platform policy fun now v k h => ?_
  by_cases hexpected : ∃ config, v.config = some config ∧
      StoreBackend.redis.agrees config.version expected
  · obtain ⟨config, hconfig, hexpected⟩ := hexpected
    rw [updateConfig_eq h hconfig hexpected]
    exact ⟨_, h.set_config (fits_updated (h.fits config hconfig)
      (validateConfigUpdate_eq_none.mp hvalid)), .updateConfig hconfig hexpected hvalid⟩
  · have hconflict : ∀ config, v.config = some config →
        ¬StoreBackend.redis.agrees config.version expected :=
      fun config hconfig hagrees => hexpected ⟨config, hconfig, hagrees⟩
    rw [updateConfig_conflict h platform hconflict]
    exact ⟨v, h, .updateConflict hconflict⟩

end Laws

end RedisStore

end App

end GatewaySystem
