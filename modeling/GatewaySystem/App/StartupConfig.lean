import GatewaySystem.App.ControlPlane
import GatewaySystem.Control.StartupConfig

/-!
# The startup configuration of the control plane

`loadApplicationConfigFromEnv` requires the three secrets in every environment
but `development`. The Unicode functions of the package `strings` are the
argument `Strings`; all that is used of them is that trimming nothing leaves
nothing.
-/

namespace GatewaySystem

namespace App

structure Strings where
  trimSpace : Bytes → Bytes
  toLower : Bytes → Bytes

/-- What is used of `strings.TrimSpace`. -/
def Strings.Documented (strings : Strings) : Prop := strings.trimSpace [] = []

def appEnvDevelopment : Bytes := text "development"

def appEnvironments : List Bytes :=
  [appEnvDevelopment, text "test", text "staging", text "production"]

def developmentTokenPepper : Bytes := text "development-only-token-pepper"

/-- `os.Getenv`. -/
def getenv (environ : Environment) (name : String) : Bytes := (environ name).getD []

/-- The names of the secrets that are missing. -/
def missingSecrets (strings : Strings) (config : ApplicationConfig) : List String :=
  [("CONTROL_PLANE_ADMIN_TOKEN", config.adminToken), ("GATEWAY_SHARED_TOKEN", config.gatewayToken),
    ("TOKEN_PEPPER", config.tokenPepper)].filterMap fun secret =>
      if strings.trimSpace secret.2 = [] then some secret.1 else none

/-- The configuration of an environment, before its secrets are checked. -/
def readApplicationConfig (environ : Environment) (environment : Bytes) : ApplicationConfig where
  environment := environment
  adminToken := getenv environ "CONTROL_PLANE_ADMIN_TOKEN"
  gatewayToken := getenv environ "GATEWAY_SHARED_TOKEN"
  tokenPepper := getenv environ "TOKEN_PEPPER"

/-- The check of the secrets at the end of `loadApplicationConfigFromEnv`. -/
def checkSecrets (strings : Strings) (config : ApplicationConfig) :
    Except Bytes ApplicationConfig :=
  if config.environment = appEnvDevelopment then
    if config.tokenPepper = [] then .ok { config with tokenPepper := developmentTokenPepper }
    else .ok config
  else if missingSecrets strings config = [] then .ok config
  else .error (text (", ".intercalate (missingSecrets strings config)) ++
    text " must be set when APP_ENV=" ++ config.environment)

def loadApplicationConfigFromEnv (strings : Strings) (environ : Environment) :
    Except Bytes ApplicationConfig :=
  let named := strings.toLower (strings.trimSpace (getenv environ "APP_ENV"))
  let environment := if named = [] then text "production" else named
  if environment ∈ appEnvironments then
    checkSecrets strings (readApplicationConfig environ environment)
  else .error (text "APP_ENV must be development, test, staging, or production")

variable {strings : Strings} {environ : Environment} {config : ApplicationConfig}

/-- What is accepted: the configuration that was read, but for the pepper. -/
theorem checkSecrets_eq_ok {read : ApplicationConfig} (h : checkSecrets strings read = .ok config) :
    config.adminToken = read.adminToken ∧ config.gatewayToken = read.gatewayToken ∧
      (config.environment ≠ appEnvDevelopment → missingSecrets strings config = []) := by
  rw [checkSecrets] at h
  by_cases henvironment : read.environment = appEnvDevelopment
  · rw [if_pos henvironment] at h
    by_cases hpepper : read.tokenPepper = []
    · rw [if_pos hpepper] at h
      cases h
      exact ⟨rfl, rfl, fun hne => absurd henvironment hne⟩
    · rw [if_neg hpepper] at h
      cases h
      exact ⟨rfl, rfl, fun hne => absurd henvironment hne⟩
  · rw [if_neg henvironment] at h
    by_cases hmissing : missingSecrets strings read = []
    · rw [if_pos hmissing] at h
      cases h
      exact ⟨rfl, rfl, fun _ => hmissing⟩
    · rw [if_neg hmissing] at h
      cases h

theorem loaded_checked (h : loadApplicationConfigFromEnv strings environ = .ok config) :
    ∃ environment, checkSecrets strings (readApplicationConfig environ environment) =
      .ok config := by
  unfold loadApplicationConfigFromEnv at h
  extract_lets named environment at h
  split at h
  · exact ⟨_, h⟩
  · cases h

theorem loaded_gatewayToken (h : loadApplicationConfigFromEnv strings environ = .ok config) :
    config.gatewayToken = getenv environ "GATEWAY_SHARED_TOKEN" := by
  obtain ⟨environment, hchecked⟩ := loaded_checked h
  exact (checkSecrets_eq_ok hchecked).2.1

/-- Outside development no secret is empty. -/
theorem loaded_secrets (hstrings : strings.Documented)
    (h : loadApplicationConfigFromEnv strings environ = .ok config)
    (henvironment : config.environment ≠ appEnvDevelopment) :
    config.adminToken ≠ [] ∧ config.gatewayToken ≠ [] := by
  obtain ⟨environment, hchecked⟩ := loaded_checked h
  have hmissing := (checkSecrets_eq_ok hchecked).2.2 henvironment
  have hsecret : ∀ {name : String} {secret : Bytes}, strings.trimSpace secret = [] →
      (name, secret) ∈ [("CONTROL_PLANE_ADMIN_TOKEN", config.adminToken),
        ("GATEWAY_SHARED_TOKEN", config.gatewayToken), ("TOKEN_PEPPER", config.tokenPepper)] →
      False := by
    intro name secret hblank hmem
    have hlisted : name ∈ missingSecrets strings config :=
      List.mem_filterMap.mpr ⟨_, hmem, if_pos hblank⟩
    rw [hmissing] at hlisted
    cases hlisted
  constructor
  · intro hempty
    exact hsecret (by rw [hempty]; exact hstrings) List.mem_cons_self
  · intro hempty
    exact hsecret (by rw [hempty]; exact hstrings) (List.mem_cons_of_mem _ List.mem_cons_self)

/-! ### Secrets that are not empty -/

theorem secureBearerEqual_iff {header expected : Bytes} (h : expected ≠ []) :
    secureBearerEqual header expected = true ↔ header = text "Bearer " ++ expected := by
  rw [secureBearerEqual, if_neg h]
  constructor
  · intro heq
    split at heq
    · next hprefix =>
        obtain ⟨rest, rfl⟩ := List.isPrefixOf_iff_prefix.mp hprefix
        rw [List.drop_left] at heq
        rw [of_decide_eq_true heq]
    · cases heq
  · rintro rfl
    rw [if_pos (List.isPrefixOf_iff_prefix.mpr (List.prefix_append _ _)), List.drop_left]
    exact decide_eq_true rfl

theorem gatewayOk_iff {σ : Type} {a : Application σ} {r : HttpRequest}
    (h : a.gatewayToken ≠ []) : a.gatewayOk r = true ↔ r.gatewayToken = a.gatewayToken := by
  rw [Application.gatewayOk, decide_eq_false h, Bool.false_or, digestEqual]
  exact decide_eq_true_iff

namespace Sample

/-- An environment with the three secrets and nothing else. -/
def secrets (gatewayToken : String) : Environment
  | "GATEWAY_SHARED_TOKEN" => some (text gatewayToken)
  | "CONTROL_PLANE_ADMIN_TOKEN" => some (text "admin")
  | "TOKEN_PEPPER" => some (text "pepper")
  | _ => none

def asciiStrings : Strings where
  trimSpace value := (value.dropWhile StartupConfig.isSpace).rdropWhile StartupConfig.isSpace
  toLower value := value.map StartupConfig.toLower

def sharedConfig (gatewayToken : String) : ApplicationConfig where
  adminToken := text "admin"
  gatewayToken := text gatewayToken
  tokenPepper := text "pepper"

end Sample

end App

end GatewaySystem
