import GatewaySystem.App.Store
import GatewaySystem.Lib.Double
import GatewaySystem.Lib.Redis
import Mathlib.Data.List.Lex
import Mathlib.Data.List.Sort

/-!
# The Redis store

The commands and scripts of `redisStore`. A number of a script is a double:
`tonumber` reads a decimal text as the nearest one, and a number that is written
into a hash or returned is written in decimal. The texts that reach `tonumber`
here are all decimal integers.
-/

namespace GatewaySystem

namespace App

namespace RedisStore

open Redis

abbrev Fields := List (Bytes × Bytes)

/-- `tonumber`. -/
def tonumber (value : Bytes) : Option ℤ := (Decimal.parse value).map Double.round

def tokenKey (clientId : Bytes) : Bytes := text "token:" ++ clientId

def indexKey : Bytes := text "token:index"

def authFailureKey (clientId : Bytes) : Bytes :=
  text "auth:failures:\x7b" ++ clientId ++ text "\x7d"

def configKey : Bytes := text "config:active"

/-- A command or a script as an access: an error of the server is none of the
errors the handlers tell apart. -/
def lift {α : Type} (script : Script α) : Access Keyspace α := fun now k =>
  match script now k with
  | (.ok value, k') => (.ok value, k')
  | (.error _, k') => (.error .other, k')

/-- A result computed from the reply of an access. -/
def after {α β : Type} (access : Access Keyspace α) (f : α → Except StoreError β) :
    Access Keyspace β := fun now k =>
  match access now k with
  | (.ok value, k') => (f value, k')
  | (.error error, k') => (.error error, k')

def verifyDigest (clientId digest : Bytes) : Access Keyspace TokenAuthDecision :=
  after (lift (hmget (tokenKey clientId) [text "digest", text "disabled"])) fun values =>
    match values with
    | [some digestValue, disabled] =>
        if disabled = some (text "1") then .ok .disabled
        else if !digestEqual digestValue digest then .ok .invalid
        else .ok .allowed
    | _ => .ok .invalid

def authFailureLimited (clientId : Bytes) (limit : ℤ) : Access Keyspace Bool :=
  after (lift (get (authFailureKey clientId))) fun value =>
    match value with
    | none => .ok false
    | some value =>
        match parseInt value with
        | (count, none) => .ok (decide (limit ≤ count))
        | (_, some _) => .error .other

def recordAuthFailureScript (key : Bytes) (milliseconds : ℤ) : Script ℤ := do
  let count ← incr key
  if count = 1 then do
    pexpire key milliseconds
    return count
  else return count

def recordAuthFailure (clientId : Bytes) (window : ℤ) : Access Keyspace ℤ :=
  lift (recordAuthFailureScript (authFailureKey clientId) (window.tdiv 1000000))

def clearAuthFailures (clientId : Bytes) : Access Keyspace Unit :=
  lift (del (authFailureKey clientId))

def createTokenScript (key index digest createdAt clientId : Bytes) : Script ℤ := do
  if ← existsKey key then return 0
  else do
    hset key [(text "digest", digest), (text "generation", Decimal.format 1),
      (text "created_at", createdAt), (text "updated_at", createdAt),
      (text "disabled", Decimal.format 0)]
    sadd index clientId
    return 1

def createToken (record : TokenRecord) : Access Keyspace Unit :=
  after (lift (createTokenScript (tokenKey record.clientId) indexKey record.digest
    record.createdAt record.clientId)) fun created =>
      if created = 0 then .error .tokenExists else .ok ()

def rotateTokenScript (key expected digest updatedAt : Bytes) : Script ℤ := do
  match ← hget key (text "generation") with
  | none => return -1
  | some current =>
      if tonumber current ≠ tonumber expected then return 0
      else
        match tonumber current with
        | none => fail .script
        | some current => do
            let next := Double.round (current + 1)
            hset key [(text "digest", digest), (text "generation", Decimal.format next),
              (text "updated_at", updatedAt), (text "disabled", Decimal.format 0)]
            return next

def rotateToken (clientId : Bytes) (expected : ℤ) (digest updatedAt : Bytes) :
    Access Keyspace TokenRecord :=
  after (lift (rotateTokenScript (tokenKey clientId) (Decimal.format expected) digest
    updatedAt)) fun next =>
      if next = -1 then .error .tokenNotFound
      else if next = 0 then .error .tokenConflict
      else
        .ok { clientId := clientId, generation := next, createdAt := [], updatedAt := updatedAt,
              disabled := false, digest := digest }

def disableTokenScript (key updatedAt : Bytes) : Script ℤ := do
  if !(← existsKey key) then return 0
  else do
    hset key [(text "disabled", Decimal.format 1), (text "updated_at", updatedAt)]
    return 1

def disableToken (clientId updatedAt : Bytes) : Access Keyspace Unit :=
  after (lift (disableTokenScript (tokenKey clientId) updatedAt)) fun changed =>
    if changed = 0 then .error .tokenNotFound else .ok ()

/-- A field of a reply, empty where it is missing. -/
def field (values : Hash) (name : String) : Bytes := (values (text name)).getD []

/-- `redisInt`. -/
def redisInt (values : Hash) (name : String) : ℤ := (parseInt (field values name)).1

/-- The entry a hash describes. -/
def tokenEntry (clientId : Bytes) (values : Hash) : TokenEntry where
  clientId := clientId
  generation := redisInt values "generation"
  createdAt := field values "created_at"
  updatedAt := field values "updated_at"
  disabled := field values "disabled" = text "1"

/-- The entry under a name, when it has fields. -/
def readToken (clientId : Bytes) : Access Keyspace (List TokenEntry) :=
  after (lift (hgetall (tokenKey clientId))) fun values? =>
    match values? with
    | none => .ok []
    | some values => .ok [tokenEntry clientId values]

/-- The loop of `listTokens` over the names it has not yet read. -/
def listRest : List Bytes → List TokenEntry → Task Keyspace (Except StoreError (List TokenEntry))
  | [], entries => pure (.ok entries)
  | clientId :: clientIds, entries => do
      match ← perform true (readToken clientId) .listTokens with
      | .error error => pure (.error error)
      | .ok found => listRest clientIds (entries ++ found)

def listTokens : Task Keyspace (Except StoreError (List TokenEntry)) := do
  match ← perform true (lift (smembers indexKey)) fun _ => .tokenIndex with
  | .error error => pure (.error error)
  | .ok clientIds => listRest (clientIds.insertionSort (· ≤ ·)) []

def initScript (key : Bytes) (config : RuntimeConfig) : Script ℤ := do
  if !(← existsKey key) then do
    hset key [(text "version", Decimal.format 1),
      (text "max_payload_size", Decimal.format config.maxPayloadSize),
      (text "max_connections_per_client", Decimal.format config.maxConnectionsPerClient),
      (text "max_requests_per_client_per_second",
        Decimal.format config.maxRequestsPerClientPerSecond),
      (text "slow_client_output_limit", Decimal.format config.slowClientOutputLimit),
      (text "log_level", config.logLevel),
      (text "request_queue_capacity_display",
        Decimal.format config.requestQueueCapacityDisplay)]
    return 1
  else do
    hsetnx key (text "request_queue_capacity_display")
      (Decimal.format config.requestQueueCapacityDisplay)
    return 0

/-- The configuration a hash describes. -/
def runtimeConfig (values : Hash) : RuntimeConfig where
  version := redisInt values "version"
  maxPayloadSize := redisInt values "max_payload_size"
  maxConnectionsPerClient := redisInt values "max_connections_per_client"
  maxRequestsPerClientPerSecond := redisInt values "max_requests_per_client_per_second"
  slowClientOutputLimit := redisInt values "slow_client_output_limit"
  logLevel := field values "log_level"
  requestQueueCapacityDisplay := redisInt values "request_queue_capacity_display"

def readConfig : Access Keyspace RuntimeConfig :=
  after (lift (hgetall configKey)) fun values? =>
    .ok (runtimeConfig (values?.getD fun _ => none))

def getConfig : Task Keyspace (Except StoreError RuntimeConfig) := do
  match ← perform true (lift (initScript configKey defaultRuntimeConfig)) fun _ => .initConfig with
  | .error error => pure (.error error)
  | .ok _ => perform true readConfig .getConfig

def updateConfigScript (key expected maxPayloadSize maxConnectionsPerClient
    maxRequestsPerClientPerSecond slowClientOutputLimit logLevel defaultDisplay : Bytes) :
    Script (ℤ × Bytes) := do
  match ← hget key (text "version") with
  | none => return (0, [])
  | some current =>
      if tonumber current ≠ tonumber expected then return (0, [])
      else
        match tonumber current with
        | none => fail .script
        | some current => do
            let next := Double.round (current + 1)
            let display := (← hget key (text "request_queue_capacity_display")).getD defaultDisplay
            hset key [(text "version", Decimal.format next),
              (text "max_payload_size", maxPayloadSize),
              (text "max_connections_per_client", maxConnectionsPerClient),
              (text "max_requests_per_client_per_second", maxRequestsPerClientPerSecond),
              (text "slow_client_output_limit", slowClientOutputLimit),
              (text "log_level", logLevel),
              (text "request_queue_capacity_display", display)]
            return (next, display)

def updateConfig (platform : Platform) (expected : ℤ) (req : ConfigUpdateRequest) :
    Access Keyspace RuntimeConfig :=
  after (lift (updateConfigScript configKey (Decimal.format expected)
    (Decimal.format req.maxPayloadSize) (Decimal.format req.maxConnectionsPerClient)
    (Decimal.format req.maxRequestsPerClientPerSecond)
    (Decimal.format req.slowClientOutputLimit) (platform.toUpper req.logLevel)
    (Decimal.format defaultRuntimeConfig.requestQueueCapacityDisplay))) fun result =>
      if result.1 = 0 then .error .configConflict
      else
        match parseInt result.2 with
        | (_, some _) => .error .other
        | (display, none) =>
            .ok
              { version := result.1
                maxPayloadSize := req.maxPayloadSize
                maxConnectionsPerClient := req.maxConnectionsPerClient
                maxRequestsPerClientPerSecond := req.maxRequestsPerClientPerSecond
                slowClientOutputLimit := req.slowClientOutputLimit
                logLevel := platform.toUpper req.logLevel
                requestQueueCapacityDisplay := display }

end RedisStore

def redisStore (platform : Platform) : Store Redis.Keyspace where
  remote := true
  ping := some fun _ k => (.ok (), k)
  verifyDigest := RedisStore.verifyDigest
  authFailureLimited := RedisStore.authFailureLimited
  recordAuthFailure := RedisStore.recordAuthFailure
  clearAuthFailures := RedisStore.clearAuthFailures
  createToken := RedisStore.createToken
  rotateToken := RedisStore.rotateToken
  disableToken := RedisStore.disableToken
  listTokens := RedisStore.listTokens
  getConfig := RedisStore.getConfig
  updateConfig := RedisStore.updateConfig platform

end App

end GatewaySystem
