import GatewaySystem.Lib.Decimal
import GatewaySystem.Protocol.Message
import Mathlib.Data.List.DropRight

/-!
# The startup configuration of the gateway

`parseStartupConfig` reads the process environment once, in the order of the
fields, and the first value outside its range ends the start with a message.
-/

namespace GatewaySystem

/-- The process environment: `none` is a variable that is not set. -/
abbrev Environment := String → Option Bytes

structure StartupConfig where
  appEnvironment : Bytes := text "production"
  gatewayPort : ℕ := 9000
  controlPlaneHost : Bytes := text "127.0.0.1"
  controlPlanePort : ℕ := 8080
  controlPlaneTimeoutMs : ℕ := 1000
  gatewayToken : Bytes := []
  requestQueueCapacity : ℕ := 4096
  responseQueueCapacity : ℕ := 4096
  shutdownTimeoutMs : ℕ := 5000
  workerCount : ℕ := 0
  authWorkerCount : ℕ := 2
  authQueueCapacity : ℕ := 32
  deriving DecidableEq

namespace StartupConfig

def shutdownSafetyMarginMs : ℕ := 100

def readString (getenv : Environment) (name : String) (defaultValue : Bytes) (allowEmpty : Bool) :
    Except String Bytes :=
  match getenv name with
  | none => .ok defaultValue
  | some value =>
      if !allowEmpty && value = [] then .error (name ++ " must not be empty") else .ok value

/-- `readUnsigned`: `from_chars` takes digits alone, and a number outside
`uint64_t` is above every maximum. -/
def readUnsigned (getenv : Environment) (name : String) (defaultValue minimum maximum : ℕ) :
    Except String ℕ :=
  match getenv name with
  | none => .ok defaultValue
  | some raw =>
      let refused := .error (name ++ " must be an integer in [" ++ toString minimum ++ ", " ++
        toString maximum ++ "]")
      match Decimal.natural? raw with
      | none => refused
      | some value => if value < minimum ∨ maximum < value then refused else .ok value

/-- `std::isspace`. -/
def isSpace (byte : UInt8) : Bool := byte = 32 ∨ (9 ≤ byte ∧ byte ≤ 13)

def toLower (byte : UInt8) : UInt8 := if 65 ≤ byte ∧ byte ≤ 90 then byte + 32 else byte

def environments : List Bytes :=
  [text "development", text "test", text "staging", text "production"]

def readApplicationEnvironment (getenv : Environment) : Except String Bytes := do
  let raw ← readString getenv "APP_ENV" (text "production") false
  let environment := ((raw.dropWhile isSpace).rdropWhile isSpace).map toLower
  if environment ∈ environments then return environment
  else throw "APP_ENV must be development, test, staging, or production"

def isBlank (value : Bytes) : Bool := value.all isSpace

/-- A test whose failure throws. -/
def refuseIf (condition : Prop) [Decidable condition] (message : String) : Except String Unit :=
  if condition then .error message else .ok ()

def parseStartupConfig (getenv : Environment) : Except String StartupConfig := do
  let initial : StartupConfig := {}
  let appEnvironment ← readApplicationEnvironment getenv
  let gatewayPort ← readUnsigned getenv "GATEWAY_PORT" initial.gatewayPort 1 65535
  let controlPlaneHost ← readString getenv "CONTROL_PLANE_HOST" initial.controlPlaneHost false
  let controlPlanePort ← readUnsigned getenv "CONTROL_PLANE_PORT" initial.controlPlanePort 1 65535
  let controlPlaneTimeoutMs ← readUnsigned getenv "CONTROL_PLANE_TIMEOUT_MS"
    initial.controlPlaneTimeoutMs 100 30000
  let gatewayToken ← readString getenv "GATEWAY_SHARED_TOKEN" [] true
  refuseIf (appEnvironment ≠ text "development" ∧ isBlank gatewayToken)
    "GATEWAY_SHARED_TOKEN must be set unless APP_ENV=development"
  let requestQueueCapacity ← readUnsigned getenv "REQUEST_QUEUE_CAPACITY"
    initial.requestQueueCapacity 1 65536
  let responseQueueCapacity ← readUnsigned getenv "RESPONSE_QUEUE_CAPACITY"
    initial.responseQueueCapacity 1 65536
  let shutdownTimeoutMs ← readUnsigned getenv "SHUTDOWN_TIMEOUT_MS" initial.shutdownTimeoutMs
    1 300000
  let workerCount ← readUnsigned getenv "WORKER_COUNT" initial.workerCount 0 1024
  let authWorkerCount ← readUnsigned getenv "AUTH_WORKER_COUNT" initial.authWorkerCount 1 16
  let authQueueCapacity ← readUnsigned getenv "AUTH_QUEUE_CAPACITY" initial.authQueueCapacity
    1 65536
  refuseIf (shutdownTimeoutMs < 2 * controlPlaneTimeoutMs + shutdownSafetyMarginMs)
    ("SHUTDOWN_TIMEOUT_MS must be at least 2 * CONTROL_PLANE_TIMEOUT_MS + " ++
      toString shutdownSafetyMarginMs)
  return {
      appEnvironment := appEnvironment
      gatewayPort := gatewayPort
      controlPlaneHost := controlPlaneHost
      controlPlanePort := controlPlanePort
      controlPlaneTimeoutMs := controlPlaneTimeoutMs
      gatewayToken := gatewayToken
      requestQueueCapacity := requestQueueCapacity
      responseQueueCapacity := responseQueueCapacity
      shutdownTimeoutMs := shutdownTimeoutMs
      workerCount := workerCount
      authWorkerCount := authWorkerCount
      authQueueCapacity := authQueueCapacity }

theorem readString_token {getenv : Environment} :
    readString getenv "GATEWAY_SHARED_TOKEN" [] true =
      .ok ((getenv "GATEWAY_SHARED_TOKEN").getD []) := by
  rw [readString]
  cases getenv "GATEWAY_SHARED_TOKEN" with
  | none => rfl
  | some value => simp

/-- An accepted token is the value of the variable. -/
theorem parseStartupConfig_gatewayToken {getenv : Environment} {config : StartupConfig}
    (h : parseStartupConfig getenv = .ok config) :
    config.gatewayToken = (getenv "GATEWAY_SHARED_TOKEN").getD [] := by
  rw [parseStartupConfig, readString_token] at h
  obtain ⟨appEnvironment, -, h⟩ := bind_eq_ok.mp h
  obtain ⟨gatewayPort, -, h⟩ := bind_eq_ok.mp h
  obtain ⟨controlPlaneHost, -, h⟩ := bind_eq_ok.mp h
  obtain ⟨controlPlanePort, -, h⟩ := bind_eq_ok.mp h
  obtain ⟨controlPlaneTimeoutMs, -, h⟩ := bind_eq_ok.mp h
  obtain ⟨gatewayToken, htoken, h⟩ := bind_eq_ok.mp h
  obtain ⟨-, -, h⟩ := bind_eq_ok.mp h
  obtain ⟨requestQueueCapacity, -, h⟩ := bind_eq_ok.mp h
  obtain ⟨responseQueueCapacity, -, h⟩ := bind_eq_ok.mp h
  obtain ⟨shutdownTimeoutMs, -, h⟩ := bind_eq_ok.mp h
  obtain ⟨workerCount, -, h⟩ := bind_eq_ok.mp h
  obtain ⟨authWorkerCount, -, h⟩ := bind_eq_ok.mp h
  obtain ⟨authQueueCapacity, -, h⟩ := bind_eq_ok.mp h
  obtain ⟨-, -, h⟩ := bind_eq_ok.mp h
  cases h
  exact (Except.ok.inj htoken).symm

end StartupConfig

end GatewaySystem
