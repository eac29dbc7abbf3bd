import GatewaySystem.App.ConfigUpdates
import GatewaySystem.EndToEnd.Deployment
import GatewaySystem.Net.Effects

/-!
# The configuration of the gateway and that of the control plane

Every configuration the gateway ever holds is one that the control plane has
committed, in all of its fields: the built-in one is the default of the control
plane, and any other came with a reply that was delivered as a whole. The version
only grows, and a pull that fails, is cut short, is not understood or brings
nothing newer changes nothing.
-/

namespace GatewaySystem

open App ControlPlaneClient

/-- The configuration that was committed as the version. -/
def App.committed {σ : Type} (history : List (Past σ)) (version : ℤ) : Option App.RuntimeConfig :=
  (commits history).find? fun config => config.version = version

theorem App.Numbered.find_version {configs : List App.RuntimeConfig} (h : Numbered configs)
    {config : App.RuntimeConfig} (hmem : config ∈ configs) :
    configs.find? (fun other => other.version = config.version) = some config := by
  cases hfind : configs.find? (fun other => other.version = config.version) with
  | none =>
      have hnone := List.find?_eq_none.mp hfind config hmem
      simp at hnone
  | some other =>
      have hversion : other.version = config.version := by
        simpa using List.find?_some hfind
      rw [h.eq_of_version (List.mem_of_find?_eq_some hfind) hmem hversion]

theorem App.defaultRuntimeConfig_mem_commits {σ : Type} (history : List (Past σ)) :
    defaultRuntimeConfig ∈ commits history :=
  List.mem_append_right _ (List.mem_singleton_self _)

/-- The defaults of the two services are the same. -/
theorem RuntimeConfig.matches_default :
    ({} : RuntimeConfig).Matches App.defaultRuntimeConfig where
  version := rfl
  maxPayloadSize := rfl
  maxConnectionsPerClient := rfl
  maxRequestsPerClientPerSecond := rfl
  slowClientOutputLimit := rfl
  logLevel := rfl
  requestQueueCapacityDisplay := rfl

/-- Only a pull that brings a newer configuration changes that of the gateway. -/
theorem Server.step_runtimeConfig {library : Json.Library} {s t : Server} {action : Action}
    (h : Server.step library s action = some t) :
    t.runtimeConfig = s.runtimeConfig ∨
      ∃ body, action = .pullConfig (some body) ∧
        RuntimeConfig.parseRuntimeConfig library body = some t.runtimeConfig ∧
        s.runtimeConfig.version < t.runtimeConfig.version := by
  rcases Server.step_affects h with haffects | ⟨body, rfl, rfl⟩ | ⟨duration, rfl⟩
  · exact .inl haffects.config
  · unfold Server.pullConfig
    split
    · exact .inl rfl
    · next fetched hfetched =>
        obtain ⟨body, rfl, hparse⟩ := Option.bind_eq_some_iff.mp hfetched
        unfold RuntimeConfig.applyRuntimeConfigIfNewer
        split
        · exact .inl rfl
        · next hnewer => exact .inr ⟨body, rfl, hparse, not_le.mp hnewer⟩
  · exact .inl rfl

namespace Deployment

variable {site : Site} {d d' : Deployment site.backend}

/-- A pull that brings a configuration: its reply was delivered as a whole, and
holds a newer one. -/
structure Brings (site : Site) (d : Deployment site.backend) (action : DeploymentAction)
    (fetched : RuntimeConfig) (response : HttpResponse) : Prop where
  delivered : ∃ chunks ending, action = .polled (.received chunks ending) ∧
    d.reply site d.pull = some response ∧ chunks.flatten = site.writer.bytes response ∧
    fetchConfig site.library (.received chunks ending) {} = some (true, fetched)
  newer : d.gateway.runtimeConfig.version < fetched.version

theorem Step.runtimeConfig (hreach : Transition.Reachable (deployment site) d)
    {action : DeploymentAction} (h : Step site d d' action) :
    d'.gateway.runtimeConfig = d.gateway.runtimeConfig ∨
      ∃ response config, Brings site d action d'.gateway.runtimeConfig response ∧
        response.body = .config config ∧ d'.gateway.runtimeConfig.Matches config := by
  cases h with
  | gateway hfree h =>
      rcases Server.step_runtimeConfig h.step with hsame | ⟨body, rfl, -⟩
      · exact .inl hsame
      · cases hfree
  | answer _ _ h =>
      rcases Server.step_runtimeConfig h.step with hsame | ⟨body, haction, -⟩
      · exact .inl hsame
      · cases haction
  | @polled exchange result hdelivers hresult h =>
      rcases Server.step_runtimeConfig h.step with hsame | ⟨body, haction, hparse, hnewer⟩
      · exact .inl hsame
      · obtain ⟨hok, hbody⟩ : result.ok = true ∧ result.body = body := by
          simpa using haction
        obtain ⟨response, chunks, ending, hreply, rfl, hall, hencoded⟩ :=
          delivered_of_ok site.writer hdelivers hresult hok
        have hfetched : fetchConfig site.library (.received chunks ending) {} =
            some (true, d'.gateway.runtimeConfig) := by
          rw [fetchConfig, hresult, Option.map_some, if_pos hok, hbody,
            RuntimeConfig.parseRuntimeConfigInto_of_some hparse]
        rw [← hbody, hencoded] at hparse
        obtain ⟨j, r, since, -, hthread⟩ := reply_eq_some hreply
        have hanswers := Plane.answers (parts_reachable hreach).2 (List.mem_of_getElem? hthread)
        obtain ⟨config, hconfig, hmatches⟩ := parse_encode site.encoding hanswers.int64 hparse
        exact .inr ⟨response, config, ⟨⟨chunks, ending, rfl, hreply, hall, hfetched⟩, hnewer⟩,
          hconfig, hmatches⟩
  | plane h => exact .inl (by rw [h.gateway])
  | ask _ h => exact .inl (by rw [h.gateway])
  | poll h => exact .inl (by rw [h.gateway])

/-- The history of the store only grows. -/
theorem Step.history (hreach : Transition.Reachable (deployment site) d)
    {action : DeploymentAction} (h : Step site d d' action) :
    d.plane.shared.history <:+ d'.plane.shared.history := by
  rcases h.moves with ⟨own, hmove⟩ | ⟨own, hmove⟩
  · rw [hmove.plane]
  · cases own with
    | spawn r =>
        obtain hsame := Option.some.inj hmove.step
        rw [← hsame]
    | access i choice =>
        exact (Plane.access_move (parts_reachable hreach).2 hmove.admits hmove.step).history

/-- The gateway holds a configuration that was committed. -/
theorem matches_committed (h : Transition.Reachable (deployment site) d)
    (hversions : ∀ config ∈ commits d.plane.shared.history, config.version < 2 ^ 53) :
    ∃ config ∈ commits d.plane.shared.history, d.gateway.runtimeConfig.Matches config := by
  revert hversions
  refine h.invariant (I := fun d =>
    (∀ config ∈ commits d.plane.shared.history, config.version < 2 ^ 53) →
      ∃ config ∈ commits d.plane.shared.history, d.gateway.runtimeConfig.Matches config) ?_ ?_
  · rintro d ⟨⟨now, hstart⟩, -⟩ -
    refine ⟨_, defaultRuntimeConfig_mem_commits _, ?_⟩
    rw [Server.start_eq_some hstart]
    exact RuntimeConfig.matches_default
  · intro d action d' hreach ih _ hstep hversions
    have hstep := step_cases hstep
    obtain ⟨later, hlater⟩ := hstep.history hreach
    have hkept : ∀ config ∈ commits d.plane.shared.history,
        config ∈ commits d'.plane.shared.history := by
      intro config hconfig
      rw [← hlater]
      exact mem_commits_append hconfig later
    obtain ⟨config, hconfig, hmatches⟩ := ih fun config hconfig =>
      hversions config (hkept config hconfig)
    rcases hstep.runtimeConfig hreach with hsame | ⟨response, answered, hbrings, hbody, hmatches⟩
    · exact ⟨config, hkept config hconfig, hsame ▸ hmatches⟩
    · obtain ⟨chunks, ending, -, hreply, -⟩ := hbrings.delivered
      obtain ⟨j, r, since, -, hthread⟩ := reply_eq_some hreply
      have hanswered := Plane.answered_commits (parts_reachable hreach).2
        (fun config hconfig => hversions config (hkept config hconfig))
        (List.mem_of_getElem? hthread) hbody
      exact ⟨answered, hkept answered hanswered, hmatches⟩

/-- The gateway always holds what the control plane has committed as the version
it holds, its version never decreases, and only a complete reply with a newer
configuration changes it. -/
theorem config_agreement (h : Transition.Reachable (deployment site) d)
    (hversions : ∀ config ∈ commits d.plane.shared.history, config.version < 2 ^ 53) :
    (∀ config ∈ commits d.plane.shared.history,
        committed d.plane.shared.history config.version = some config) ∧
      committed d.plane.shared.history 1 = some defaultRuntimeConfig ∧
      (∃ config, committed d.plane.shared.history d.gateway.runtimeConfig.version = some config ∧
        d.gateway.runtimeConfig.Matches config) ∧
      ∀ action d', (deployment site).step d action = some d' →
        d.gateway.runtimeConfig.version ≤ d'.gateway.runtimeConfig.version ∧
          (d'.gateway.runtimeConfig = d.gateway.runtimeConfig ∨
            ∃ response, Brings site d action d'.gateway.runtimeConfig response) := by
  have hnumbered := ((Plane.possible (parts_reachable h).2).tracked hversions).numbered
  refine ⟨fun config => hnumbered.find_version,
    hnumbered.find_version (defaultRuntimeConfig_mem_commits _), ?_, ?_⟩
  · obtain ⟨config, hconfig, hmatches⟩ := matches_committed h hversions
    refine ⟨config, ?_, hmatches⟩
    rw [hmatches.version]
    exact hnumbered.find_version hconfig
  · intro action d' hstep
    rcases (step_cases hstep).runtimeConfig h with hsame | ⟨response, config, hbrings, -⟩
    · exact ⟨by rw [hsame], .inl hsame⟩
    · exact ⟨hbrings.newer.le, .inr ⟨response, hbrings⟩⟩

end Deployment

namespace Sample

def update : HttpRequest where
  method := .put
  path := .config
  ifMatch := etag 1
  body := text ("\x7b\"max_payload_size\":1024,\"max_connections_per_client\":1," ++
    "\"max_requests_per_client_per_second\":1,\"slow_client_output_limit\":4096," ++
    "\"log_level\":\"debug\"\x7d")

/-- An administrator reads the configuration and updates it, and the gateway asks
for it. -/
def asked : Deployment site.backend :=
  ((deployment site).run started
    [.plane (.spawn { method := .get, path := .config }), .plane (.access 0 { now := 0 }),
      .plane (.access 0 { now := 0 }), .plane (.spawn update), .plane (.access 1 { now := 0 }),
      .poll { method := .get, path := .config },
      .plane (.access 2 { now := 0 }), .plane (.access 2 { now := 0 })]).get (by decide +kernel)

/-- The reply arrives. -/
def pulled : Deployment site.backend :=
  ((deployment site).run asked [.polled (whole asked asked.pull)]).get (by decide +kernel)

theorem pulled_reachable : Transition.Reachable (deployment site) pulled :=
  Transition.System.run_reachable
    (Transition.System.run_reachable started_reachable (fun _ _ _ => trivial)
      (Option.some_get _).symm)
    (fun _ _ _ => trivial) (Option.some_get _).symm

end Sample

/-- The gateway holds the second version when it has pulled the update. -/
theorem Deployment.config_agreement_pulled :
    Sample.pulled.gateway.runtimeConfig.version = 2 ∧
      ∃ config, committed Sample.pulled.plane.shared.history 2 = some config ∧
        Sample.pulled.gateway.runtimeConfig.Matches config := by
  have hversion : Sample.pulled.gateway.runtimeConfig.version = 2 := by decide +kernel
  obtain ⟨-, -, ⟨config, hcommitted, hmatches⟩, -⟩ :=
    config_agreement Sample.pulled_reachable (by decide +kernel)
  rw [hversion] at hcommitted
  exact ⟨hversion, config, hcommitted, hmatches⟩

end GatewaySystem
