import GatewaySystem.App.StartupConfig

/-!
# What a request without credentials sees

Outside development the two secrets are not empty, so each guard really
compares. A request that shows neither of them is answered without an access to
the store, and one that shows only the token of the gateways reaches no handler
of the tokens and no access that writes a token or the configuration.
-/

namespace GatewaySystem

namespace App

namespace Application

section Guards

variable {σ : Type} {a : Application σ} {r : HttpRequest}

/-- A request with the token of the administrators. -/
def ShowsAdmin (a : Application σ) (r : HttpRequest) : Prop :=
  r.authorization = text "Bearer " ++ a.adminToken

/-- A request with the token of the gateways. -/
def ShowsGateway (a : Application σ) (r : HttpRequest) : Prop := r.gatewayToken = a.gatewayToken

/-- The handlers that are left to a request without the token of the
administrators. -/
inductive Open : Handler → Prop
  | answer (response : HttpResponse) : Open (.answer response)
  | health : Open .health
  | ready : Open .ready
  | authCheck : Open .authCheck
  | configGet : Open .configGet

theorem middleware_open (hsecret : a.adminToken ≠ []) (h : ¬ a.ShowsAdmin r) :
    Open (a.middleware r) := by
  have hrouted := a.middleware_routed r
  generalize a.middleware r = handler at hrouted ⊢
  cases hrouted with
  | refused => exact .answer _
  | health => exact .health
  | ready => exact .ready
  | authCheck => exact .authCheck
  | configGet => exact .configGet
  | tokensUpsert _ hguard | tokensList _ hguard | tokensDelete _ hguard | tokensRotate _ hguard
  | configUpdate _ hguard => exact absurd ((secureBearerEqual_iff hsecret).mp hguard) h

/-- Without either token a request is answered, but for the two of the health. -/
theorem middleware_answer (hadmin : a.adminToken ≠ []) (hgateway : a.gatewayToken ≠ [])
    (h : ¬ a.ShowsAdmin r) (h' : ¬ a.ShowsGateway r) (hhealth : r.path ≠ .health)
    (hready : r.path ≠ .ready) : ∃ response, a.middleware r = .answer response := by
  have hopen := middleware_open hadmin h
  have hrouted := a.middleware_routed r
  generalize a.middleware r = handler at hopen hrouted ⊢
  cases hopen with
  | answer response => exact ⟨response, rfl⟩
  | health =>
      cases hrouted with
      | health hpath => exact absurd hpath hhealth
  | ready =>
      cases hrouted with
      | ready hpath => exact absurd hpath hready
  | authCheck =>
      cases hrouted with
      | authCheck _ hguard => exact absurd ((gatewayOk_iff hgateway).mp hguard) h'
  | configGet =>
      cases hrouted with
      | configGet _ hguard =>
          rcases hguard with hguard | hguard
          · exact absurd ((secureBearerEqual_iff hadmin).mp hguard) h
          · exact absurd ((gatewayOk_iff hgateway).mp hguard) h'

/-- The paths of the tokens. -/
def TokenPath : Path → Prop
  | .tokens | .token _ | .rotate _ => True
  | _ => False

theorem middleware_tokens_answer (hadmin : a.adminToken ≠ []) (h : ¬ a.ShowsAdmin r)
    (hpath : TokenPath r.path) : ∃ response, a.middleware r = .answer response := by
  have hopen := middleware_open hadmin h
  have hrouted := a.middleware_routed r
  generalize a.middleware r = handler at hopen hrouted ⊢
  cases hopen with
  | answer response => exact ⟨response, rfl⟩
  | _ =>
      cases hrouted with
      | _ heq => exact absurd hpath (by simp [heq, TokenPath])

/-- A request that is answered meets no store. -/
theorem run_serve_answer {response : HttpResponse} (h : a.middleware r = .answer response)
    (choices : ℕ → Choice) (w : World σ) : (a.serve r).run choices w = (response, w) := by
  rw [serve, h]
  rfl

end Guards

/-- A step that leaves the tokens and the configuration alone. -/
def Spares (w w' : World MemoryStore) : Prop :=
  w'.store.tokens = w.store.tokens ∧ w'.store.config = w.store.config

section Spares

variable {platform : Platform} {config : ApplicationConfig} {policy : AuthFailurePolicy}
  {r : HttpRequest}

theorem perform_spares {α : Type} {access : Access MemoryStore α}
    {event : Except StoreError α → Event} (h : ∀ now s, (access now s).2.tokens = s.tokens ∧
      (access now s).2.config = s.config) : (perform false access event).Makes Spares :=
  Program.Makes.atomic fun choice w => h choice.now w.store

theorem authFailureLimited_spares (clientId : Bytes) (limit now : ℤ) (s : MemoryStore) :
    (MemoryStore.authFailureLimited clientId limit now s).2.tokens = s.tokens ∧
      (MemoryStore.authFailureLimited clientId limit now s).2.config = s.config := by
  rw [MemoryStore.authFailureLimited]
  split
  · exact ⟨rfl, rfl⟩
  · split <;> exact ⟨rfl, rfl⟩

theorem verifyDigest_spares (clientId digest : Bytes) (now : ℤ) (s : MemoryStore) :
    (MemoryStore.verifyDigest clientId digest now s).2 = s := by
  rw [MemoryStore.verifyDigest]
  split
  · rfl
  · split
    · rfl
    · split <;> rfl

/-- A check writes counters of failures only. -/
theorem handleAuthCheck_spares :
    ((routesWithConfig .memory platform config policy).handleAuthCheck r).Makes Spares := by
  rw [handleAuthCheck]
  split
  · exact Program.makes_done _
  · next req _ =>
      rw [startAuthCheck]
      refine Program.Makes.bind (perform_spares fun now s =>
        authFailureLimited_spares _ _ now s) fun limited => ?_
      split
      · exact Program.makes_done _
      · exact Program.makes_done _
      · rw [verifyAuthCheck]
        refine Program.Makes.bind (perform_spares fun now s => ?_) fun decision => ?_
        · have hsame := verifyDigest_spares req.clientId
            ((routesWithConfig .memory platform config policy).digest req.token) now s
          exact ⟨congrArg MemoryStore.tokens hsame, congrArg MemoryStore.config hsame⟩
        · split
          · exact Program.makes_done _
          · rw [settleAuthCheck]
            split
            · refine Program.Makes.bind (perform_spares fun now s => ⟨rfl, rfl⟩) fun count => ?_
              split <;> exact Program.makes_done _
            · refine Program.Makes.bind (perform_spares fun now s => ⟨rfl, rfl⟩) fun cleared => ?_
              split <;> exact Program.makes_done _

theorem handleConfigGet_spares :
    ((routesWithConfig .memory platform config policy).handleConfigGet r).Makes Spares := by
  rw [handleConfigGet]
  refine Program.Makes.bind (perform_spares fun now s => ⟨rfl, rfl⟩) fun result => ?_
  split <;> exact Program.makes_done _

theorem run_spares {handler : Handler} (h : Open handler) :
    ((routesWithConfig .memory platform config policy).run r handler).Makes Spares := by
  cases h with
  | answer response => exact Program.makes_done _
  | health => exact Program.makes_done _
  | ready => exact Program.makes_done _
  | authCheck => exact handleAuthCheck_spares
  | configGet => exact handleConfigGet_spares

end Spares

/-- Outside development a request without credentials neither changes nor sees
the store, and one with the token of the gateways alone leaves the tokens and
the configuration as they are and sees nothing of the tokens on their paths. -/
theorem unauthorised {strings : Strings} (hstrings : strings.Documented) (environ : Environment)
    {config : ApplicationConfig}
    (hconfig : loadApplicationConfigFromEnv strings environ = .ok config)
    (henvironment : config.environment ≠ appEnvDevelopment) (platform : Platform)
    (policy : AuthFailurePolicy) (r : HttpRequest)
    (hadmin : r.authorization ≠ text "Bearer " ++ config.adminToken) :
    (r.path ≠ .health → r.path ≠ .ready → r.gatewayToken ≠ config.gatewayToken →
      ∃ response, ∀ choices w,
        ((routesWithConfig .memory platform config policy).serve r).run choices w = (response, w)) ∧
    ((routesWithConfig .memory platform config policy).serve r).Makes Spares ∧
    (∀ choices w, Spares w
      (((routesWithConfig .memory platform config policy).serve r).run choices w).2) ∧
    (TokenPath r.path → ∃ response, ∀ choices w,
      ((routesWithConfig .memory platform config policy).serve r).run choices w =
        (response, w)) := by
  obtain ⟨hadminSecret, hgatewaySecret⟩ := loaded_secrets hstrings hconfig henvironment
  have hspares : ((routesWithConfig .memory platform config policy).serve r).Makes Spares :=
    run_spares (middleware_open hadminSecret hadmin)
  refine ⟨fun hhealth hready hgateway => ?_, hspares, fun choices w => ?_, fun hpath => ?_⟩
  · obtain ⟨response, hresponse⟩ : ∃ response,
        (routesWithConfig .memory platform config policy).middleware r = .answer response :=
      middleware_answer hadminSecret hgatewaySecret hadmin hgateway hhealth hready
    exact ⟨response, run_serve_answer hresponse⟩
  · exact hspares.run (fun w => ⟨rfl, rfl⟩)
      (fun _ _ _ h h' => ⟨h'.1.trans h.1, h'.2.trans h.2⟩) choices w
  · obtain ⟨response, hresponse⟩ : ∃ response,
        (routesWithConfig .memory platform config policy).middleware r = .answer response :=
      middleware_tokens_answer hadminSecret hadmin hpath
    exact ⟨response, run_serve_answer hresponse⟩

/-- Rotating a token with the token of the gateways alone. -/
def Sample.gatewayRotate : HttpRequest where
  method := .post
  path := .rotate Sample.client
  gatewayToken := text "gateway-secret"

theorem unauthorised_rotate : ∃ response, ∀ choices w,
    ((routesWithConfig .memory Sample.plainPlatform (Sample.sharedConfig "gateway-secret")
      Sample.oneFailure).serve Sample.gatewayRotate).run choices w = (response, w) := by
  have hstrings : Sample.asciiStrings.Documented := rfl
  have hconfig : loadApplicationConfigFromEnv Sample.asciiStrings
      (Sample.secrets "gateway-secret") = .ok (Sample.sharedConfig "gateway-secret") := by
    decide +kernel
  exact (unauthorised hstrings _ hconfig (by decide +kernel) Sample.plainPlatform
    Sample.oneFailure Sample.gatewayRotate (by decide +kernel)).2.2.2 trivial

end Application

end App

end GatewaySystem
