import GatewaySystem.App.ConfigUpdates
import GatewaySystem.App.Interchange

/-!
# The configuration of the two stores under one sequence of requests

The memory store holds the default configuration from the start, Redis from the
first reading on. As soon as it was read, the two answer alike as long as the
versions are exact doubles. Before that they differ on one request: an update that
names the version of the default configuration, which Redis does not know yet.
-/

namespace GatewaySystem

namespace App

/-- The two stores hold the same configuration. -/
def SameConfig (s : MemoryStore) (k : Redis.Keyspace) : Prop :=
  ∃ v, RedisStore.Represents v k ∧ v.config = some s.config

/-- The configuration was not read yet. -/
def UnreadConfig (s : MemoryStore) (k : Redis.Keyspace) : Prop :=
  ∃ v, RedisStore.Represents v k ∧ v.config = none ∧ s.config = defaultRuntimeConfig

section Runs

variable {platform : Platform} {config : ApplicationConfig} {policy : AuthFailurePolicy}
  {choices : ℕ → Choice} {wm : World MemoryStore} {wr : World Redis.Keyspace} {r : HttpRequest}

/-- The answer to a reading. -/
def configAnswer (r : HttpRequest) : Except StoreError RuntimeConfig → HttpResponse
  | .error error => writeStoreError r error
  | .ok config => Application.writeConfig config

theorem handleConfigGet_eq {σ : Type} (a : Application σ) :
    a.handleConfigGet r = a.store.getConfig >>= fun result => .done (configAnswer r result) := by
  unfold Application.handleConfigGet
  congr 1
  funext result
  cases result <;> rfl

theorem run_access {σ α : Type} {w : World σ} {remote : Bool} {access : Access σ α}
    {event : Except StoreError α → Event} {result : Except StoreError α} {store : σ}
    (hfault : (choices 0).fault = .none)
    (haccess : access (choices 0).now w.store = (result, store)) :
    ((perform remote access event).run choices w).1 = result ∧
      ((perform remote access event).run choices w).2.store = store := by
  have hrun : (perform remote access event).run choices w =
      ((access (choices 0).now w.store).1, w.commit (choices 0).now access event) :=
    World.perform_none hfault w
  rw [hrun, World.commit, haccess]
  exact ⟨rfl, rfl⟩

/-- The two accesses of a reading. -/
theorem getConfig_run (hfault : ∀ i, (choices i).fault = .none) {flag : ℤ}
    {k : Redis.Keyspace} {current : RuntimeConfig}
    (hinit : RedisStore.lift (RedisStore.initScript RedisStore.configKey defaultRuntimeConfig)
      (choices 0).now wr.store = (.ok flag, k))
    (hread : RedisStore.readConfig (choices 1).now k = (.ok current, k)) :
    (RedisStore.getConfig.run choices wr).1 = .ok current ∧
      (RedisStore.getConfig.run choices wr).2.store = k := by
  rw [RedisStore.getConfig, run_perform (hfault 0) hinit]
  exact run_access (hfault 1) hread

/-- A reading is answered alike, and after it the two stores hold the same. -/
theorem handleConfigGet_agree (hfault : ∀ i, (choices i).fault = .none)
    (h : SameConfig wm.store wr.store ∨ UnreadConfig wm.store wr.store) :
    (((routesWithConfig .memory platform config policy).handleConfigGet r).run choices wm).1 =
      (((routesWithConfig .redis platform config policy).handleConfigGet r).run choices wr).1 ∧
    SameConfig
      (((routesWithConfig .memory platform config policy).handleConfigGet r).run choices wm).2.store
      (((routesWithConfig .redis platform config policy).handleConfigGet r).run
        choices wr).2.store := by
  have hmemory : (((memoryStore platform).getConfig).run choices wm).1 = .ok wm.store.config ∧
      (((memoryStore platform).getConfig).run choices wm).2.store = wm.store :=
    run_access (hfault 0) rfl
  have hredis : (RedisStore.getConfig.run choices wr).1 = .ok wm.store.config ∧
      SameConfig wm.store (RedisStore.getConfig.run choices wr).2.store := by
    rcases h with ⟨v, hv, hconfig⟩ | ⟨v, hv, hconfig, hdefault⟩
    · obtain ⟨hresult, hstore⟩ := getConfig_run hfault
        (RedisStore.initScript_again hv hconfig)
        (RedisStore.readConfig_eq hv hconfig)
      rw [hresult, hstore]
      exact ⟨rfl, v, hv, hconfig⟩
    · have hv' := hv.set_config RedisStore.fits_default
      obtain ⟨hresult, hstore⟩ := getConfig_run hfault
        (RedisStore.initScript_first hv hconfig)
        (RedisStore.readConfig_eq hv' rfl)
      rw [hresult, hstore, hdefault]
      exact ⟨rfl, _, hv', hdefault ▸ rfl⟩
  rw [handleConfigGet_eq, handleConfigGet_eq, Program.run_bind_done, Program.run_bind_done]
  refine ⟨congrArg (configAnswer r) (hmemory.1.trans hredis.1.symm), ?_⟩
  show SameConfig (((memoryStore platform).getConfig).run choices wm).2.store _
  rw [hmemory.2]
  exact hredis.2

/-- An update of a configuration that both stores hold is answered alike. -/
theorem update_agree {now expected : ℤ} {s : MemoryStore} {k : Redis.Keyspace}
    (h : SameConfig s k) (hlimit : s.config.version < 2 ^ 53) {req : ConfigUpdateRequest}
    (hvalid : validateConfigUpdate platform req = none) :
    ∃ result s' k', MemoryStore.updateConfig platform expected req now s = (result, s') ∧
      RedisStore.updateConfig platform expected req now k = (result, k') ∧ SameConfig s' k' := by
  obtain ⟨v, hv, hconfig⟩ := h
  have hfits := hv.fits _ hconfig
  have hagrees : StoreBackend.redis.agrees s.config.version expected ↔
      s.config.version = expected :=
    StoreBackend.redis.agrees_iff_of_lt hfits.version.1 hlimit
  by_cases hexpected : s.config.version = expected
  · obtain ⟨hupdated, -⟩ := StoreBackend.redis.updated_of_lt platform hfits.version.1 hlimit req
    have hfits' := RedisStore.fits_updated hfits (validateConfigUpdate_eq_none.mp hvalid)
    refine ⟨_, _, _, if_neg (not_not.mpr hexpected), ?_, _, hv.set_config hfits', ?_⟩
    · rw [RedisStore.updateConfig_eq hv hconfig (hagrees.mpr hexpected), hupdated]
    · exact congrArg some hupdated
  · refine ⟨_, _, _, if_pos hexpected, RedisStore.updateConfig_conflict hv platform ?_ req, v, hv,
      hconfig⟩
    intro current hcurrent hagree
    obtain rfl := Option.some.inj (hconfig.symm.trans hcurrent)
    exact hexpected (hagrees.mp hagree)

end Runs

/-- What a client is told: the status, the `ETag` and the configuration. -/
def HttpResponse.told (response : HttpResponse) : ℕ × Option Bytes × Option RuntimeConfig :=
  (response.status, response.etag,
    match response.body with
    | .config config => some config
    | _ => none)

/-- An update of the default version comes before the first reading. -/
def Premature (platform : Platform) (config : ApplicationConfig) (policy : AuthFailurePolicy) :
    List Visit → Prop
  | [] => False
  | visit :: visits =>
      match (routesWithConfig .memory platform config policy).middleware visit.request with
      | .configGet => False
      | .configUpdate =>
          (∃ req, (routesWithConfig .memory platform config policy).decodeConfigUpdate
            visit.request = .ok (1, req)) ∨ Premature platform config policy visits
      | _ => Premature platform config policy visits

/-- The versions that the requests of a sequence meet are exact doubles. -/
def ExactVersions (platform : Platform) (config : ApplicationConfig) (policy : AuthFailurePolicy) :
    World MemoryStore → List Visit → Prop
  | _, [] => True
  | w, visit :: visits => w.store.config.version < 2 ^ 53 ∧
      ExactVersions platform config policy
        ((routesWithConfig .memory platform config policy).visit w visit).2 visits

section Sequences

variable {platform : Platform} {config : ApplicationConfig} {policy : AuthFailurePolicy}
  {wm : World MemoryStore} {wr : World Redis.Keyspace} {visit : Visit} {b : StoreBackend}
  {w : World b.State}

theorem middleware_of_config {σ : Type} {a : Application σ} {r : HttpRequest}
    (h : r.path = .config) :
    (∃ response, a.middleware r = .answer response) ∨ a.middleware r = .configGet ∨
      a.middleware r = .configUpdate := by
  have hrouted := a.middleware_routed r
  generalize a.middleware r = handler at hrouted ⊢
  cases hrouted with
  | refused => exact .inl ⟨_, rfl⟩
  | configGet => exact .inr (.inl rfl)
  | configUpdate => exact .inr (.inr rfl)
  | _ hpath => cases h.symm.trans hpath

/-- The run of an update that reaches its access. -/
theorem visit_update {expected : ℤ} {req : ConfigUpdateRequest}
    {result : Except StoreError RuntimeConfig} {store : b.State}
    (hfault : ∀ i, (visit.choices i).fault = .none)
    (hput : (routesWithConfig b platform config policy).middleware visit.request = .configUpdate)
    (hdecode : (routesWithConfig b platform config policy).decodeConfigUpdate visit.request =
      .ok (expected, req))
    (haccess : (routesWithConfig b platform config policy).store.updateConfig expected req
      (visit.choices 0).now w.store = (result, store)) :
    ((routesWithConfig b platform config policy).visit w visit).1 =
        Application.updateAnswer visit.request result ∧
      ((routesWithConfig b platform config policy).visit w visit).2.store = store := by
  rcases Application.serve_update hput with ⟨response, herror, -⟩ | ⟨expected', req', hok, hserve⟩
  · cases hdecode.symm.trans herror
  · cases hdecode.symm.trans hok
    rw [Application.visit, hserve, Application.call, run_perform (hfault 0) haccess]
    exact ⟨rfl, rfl⟩

/-- The run of an update that is refused where it arrives. -/
theorem visit_refused {response : HttpResponse}
    (hput : (routesWithConfig b platform config policy).middleware visit.request = .configUpdate)
    (hdecode : (routesWithConfig b platform config policy).decodeConfigUpdate visit.request =
      .error response) :
    (routesWithConfig b platform config policy).visit w visit = (response, w) := by
  rcases Application.serve_update hput with ⟨response', herror, hserve⟩ | ⟨_, _, hok, -⟩
  · cases hdecode.symm.trans herror
    rw [Application.visit, hserve]
    rfl
  · cases hdecode.symm.trans hok

theorem visit_get
    (hget : (routesWithConfig b platform config policy).middleware visit.request = .configGet) :
    (routesWithConfig b platform config policy).visit w visit =
      ((routesWithConfig b platform config policy).handleConfigGet visit.request).run
        visit.choices w := by
  rw [Application.visit, Application.serve, hget]
  rfl

theorem visit_answer {response : HttpResponse}
    (h : (routesWithConfig b platform config policy).middleware visit.request = .answer response) :
    (routesWithConfig b platform config policy).visit w visit = (response, w) := by
  rw [Application.visit, Application.serve, h]
  rfl

/-- Once the configuration was read, every request is answered alike. -/
theorem visit_same (hfault : ∀ i, (visit.choices i).fault = .none)
    (hpath : visit.request.path = .config) (hlimit : wm.store.config.version < 2 ^ 53)
    (h : SameConfig wm.store wr.store) :
    ((routesWithConfig .memory platform config policy).visit wm visit).1 =
        ((routesWithConfig .redis platform config policy).visit wr visit).1 ∧
      SameConfig ((routesWithConfig .memory platform config policy).visit wm visit).2.store
        ((routesWithConfig .redis platform config policy).visit wr visit).2.store := by
  rcases middleware_of_config (a := routesWithConfig .memory platform config policy) hpath with
    ⟨response, hanswer⟩ | hget | hput
  · rw [visit_answer hanswer, visit_answer (b := .redis) hanswer]
    exact ⟨rfl, h⟩
  · rw [visit_get hget, visit_get (b := .redis) hget]
    exact handleConfigGet_agree hfault (.inl h)
  · cases hdecode : (routesWithConfig .memory platform config policy).decodeConfigUpdate
      visit.request with
    | error response =>
        rw [visit_refused hput hdecode, visit_refused (b := .redis) hput hdecode]
        exact ⟨rfl, h⟩
    | ok update =>
        obtain ⟨expected, req⟩ := update
        obtain ⟨result, s, k, hm, hr, hsame⟩ :=
          update_agree h hlimit (decodeConfigUpdate_valid hdecode)
        obtain ⟨hanswer, hstore⟩ := visit_update hfault hput hdecode hm
        obtain ⟨hanswer', hstore'⟩ := visit_update (b := .redis) hfault hput hdecode hr
        rw [hanswer, hanswer', hstore, hstore']
        exact ⟨rfl, hsame⟩

/-- Before the configuration was read, an update of the default version is answered
differently, and every other request alike. -/
theorem visit_unread (hfault : ∀ i, (visit.choices i).fault = .none)
    (h : UnreadConfig wm.store wr.store) {expected : ℤ} {req : ConfigUpdateRequest}
    (hput : (routesWithConfig .memory platform config policy).middleware visit.request =
      .configUpdate)
    (hdecode : (routesWithConfig .memory platform config policy).decodeConfigUpdate
      visit.request = .ok (expected, req)) :
    (expected = 1 → ((routesWithConfig .memory platform config policy).visit wm visit).1.status ≠
      ((routesWithConfig .redis platform config policy).visit wr visit).1.status) ∧
    (expected ≠ 1 → ((routesWithConfig .memory platform config policy).visit wm visit).1 =
        ((routesWithConfig .redis platform config policy).visit wr visit).1 ∧
      UnreadConfig ((routesWithConfig .memory platform config policy).visit wm visit).2.store
        ((routesWithConfig .redis platform config policy).visit wr visit).2.store) := by
  obtain ⟨v, hv, hconfig, hdefault⟩ := h
  have hr : RedisStore.updateConfig platform expected req (visit.choices 0).now wr.store =
      (.error .configConflict, wr.store) :=
    RedisStore.updateConfig_conflict hv platform (by simp [hconfig]) req
  obtain ⟨hanswer', hstore'⟩ := visit_update (b := .redis) hfault hput hdecode hr
  constructor
  · rintro rfl
    have hm : MemoryStore.updateConfig platform 1 req (visit.choices 0).now wm.store = _ :=
      if_neg (not_not.mpr (by rw [hdefault]; rfl))
    obtain ⟨hanswer, -⟩ := visit_update hfault hput hdecode hm
    rw [hanswer, hanswer']
    show 200 ≠ 409
    decide
  · intro hne
    have hm : MemoryStore.updateConfig platform expected req (visit.choices 0).now wm.store = _ :=
      if_pos (by rw [hdefault]; exact fun h => hne h.symm)
    obtain ⟨hanswer, hstore⟩ := visit_update hfault hput hdecode hm
    rw [hanswer, hanswer', hstore, hstore']
    exact ⟨rfl, v, hv, hconfig, hdefault⟩

/-- From the first reading on, the two stores answer alike. -/
theorem answers_same {visits : List Visit}
    (hfaults : ∀ visit ∈ visits, ∀ i, (visit.choices i).fault = .none)
    (hpaths : ∀ visit ∈ visits, visit.request.path = .config)
    (hexact : ExactVersions platform config policy wm visits)
    (h : SameConfig wm.store wr.store) :
    (routesWithConfig .memory platform config policy).answers wm visits =
      (routesWithConfig .redis platform config policy).answers wr visits := by
  induction visits generalizing wm wr with
  | nil => rfl
  | cons visit visits ih =>
      rw [List.forall_mem_cons] at hfaults hpaths
      obtain ⟨hanswer, hsame⟩ := visit_same hfaults.1 hpaths.1 hexact.1 h
      rw [Application.answers, Application.answers, hanswer,
        ih hfaults.2 hpaths.2 hexact.2 hsame]

/-- Before the first reading they do unless an update of the default version comes. -/
theorem answers_unread (wr : World Redis.Keyspace) {visits : List Visit}
    (hfaults : ∀ visit ∈ visits, ∀ i, (visit.choices i).fault = .none)
    (hpaths : ∀ visit ∈ visits, visit.request.path = .config)
    (hexact : ExactVersions platform config policy wm visits)
    (h : UnreadConfig wm.store wr.store) :
    (¬Premature platform config policy visits →
      (routesWithConfig .memory platform config policy).answers wm visits =
        (routesWithConfig .redis platform config policy).answers wr visits) ∧
    (Premature platform config policy visits →
      ((routesWithConfig .memory platform config policy).answers wm visits).map (·.status) ≠
        ((routesWithConfig .redis platform config policy).answers wr visits).map (·.status)) := by
  induction visits generalizing wm wr with
  | nil => exact ⟨fun _ => rfl, False.elim⟩
  | cons visit visits ih =>
      rw [List.forall_mem_cons] at hfaults hpaths
      -- a request that is answered alike and leaves the configuration unread
      have hnext : ((routesWithConfig .memory platform config policy).visit wm visit).1 =
            ((routesWithConfig .redis platform config policy).visit wr visit).1 →
          UnreadConfig ((routesWithConfig .memory platform config policy).visit wm visit).2.store
            ((routesWithConfig .redis platform config policy).visit wr visit).2.store →
          (¬Premature platform config policy visits →
            (routesWithConfig .memory platform config policy).answers wm (visit :: visits) =
              (routesWithConfig .redis platform config policy).answers wr (visit :: visits)) ∧
          (Premature platform config policy visits →
            ((routesWithConfig .memory platform config policy).answers wm
                (visit :: visits)).map (·.status) ≠
              ((routesWithConfig .redis platform config policy).answers wr
                (visit :: visits)).map (·.status)) := by
        intro hanswer hunread
        obtain ⟨halike, hdiffer⟩ := ih _ hfaults.2 hpaths.2 hexact.2 hunread
        simp only [Application.answers, List.map_cons, hanswer, List.cons.injEq, true_and, ne_eq]
        exact ⟨halike, hdiffer⟩
      unfold Premature
      rcases middleware_of_config
          (a := routesWithConfig .memory platform config policy) hpaths.1 with
        ⟨response, hanswer⟩ | hget | hput
      · simp only [hanswer]
        refine hnext ?_ ?_ <;> rw [visit_answer hanswer, visit_answer (b := .redis) hanswer]
        exact h
      · simp only [hget]
        refine ⟨fun _ => ?_, False.elim⟩
        obtain ⟨hanswer, hsame⟩ := handleConfigGet_agree hfaults.1 (.inr h)
        rw [← visit_get hget, ← visit_get (b := .redis) hget] at hanswer hsame
        rw [Application.answers, Application.answers, hanswer,
          answers_same hfaults.2 hpaths.2 hexact.2 hsame]
      · simp only [hput]
        cases hdecode : (routesWithConfig .memory platform config policy).decodeConfigUpdate
          visit.request with
        | error response =>
            have hother : ¬∃ req, (Except.error response :
                Except HttpResponse (ℤ × ConfigUpdateRequest)) = .ok (1, req) := by
              rintro ⟨req, heq⟩
              cases heq
            simp only [hother, false_or]
            refine hnext ?_ ?_ <;>
              rw [visit_refused hput hdecode, visit_refused (b := .redis) hput hdecode]
            exact h
        | ok update =>
            obtain ⟨expected, req⟩ := update
            obtain ⟨hdiffer, halike⟩ := visit_unread hfaults.1 h hput hdecode
            by_cases hone : expected = 1
            · subst hone
              refine ⟨fun hnot => absurd (.inl ⟨req, rfl⟩) hnot, fun _ heq => hdiffer rfl ?_⟩
              simp only [Application.answers, List.map_cons, List.cons.injEq] at heq
              exact heq.1
            · have hother : ¬∃ req', (Except.ok (expected, req) :
                  Except HttpResponse (ℤ × ConfigUpdateRequest)) = .ok (1, req') := by
                rintro ⟨req', heq⟩
                cases heq
                exact hone rfl
              simp only [hother, false_or]
              exact hnext (halike hone).1 (halike hone).2

theorem fresh_unread :
    UnreadConfig StoreBackend.memory.fresh StoreBackend.redis.fresh :=
  ⟨_, (fresh_alike 0).represents, rfl, rfl⟩

/-- From a new memory store and an empty Redis, requests on the configuration are
answered alike exactly when no update of the default version comes before the
first reading. -/
theorem config_interchangeable {start : ℤ} {visits : List Visit}
    (hfaults : ∀ visit ∈ visits, ∀ i, (visit.choices i).fault = .none)
    (hpaths : ∀ visit ∈ visits, visit.request.path = .config)
    (hexact : ExactVersions platform config policy
      { store := StoreBackend.memory.fresh, now := start } visits) :
    ((routesWithConfig .memory platform config policy).answers
        { store := StoreBackend.memory.fresh, now := start } visits).map HttpResponse.told =
      ((routesWithConfig .redis platform config policy).answers
        { store := StoreBackend.redis.fresh, now := start } visits).map HttpResponse.told ↔
    ¬Premature platform config policy visits := by
  have hunread := answers_unread { store := StoreBackend.redis.fresh, now := start }
    hfaults hpaths hexact fresh_unread
  constructor
  · intro heq hpremature
    refine hunread.2 hpremature ?_
    have hstatus := congrArg (List.map Prod.fst) heq
    rw [List.map_map, List.map_map] at hstatus
    exact hstatus
  · intro hnot
    rw [hunread.1 hnot]

end Sequences

namespace Sample

/-- An update of the first version. -/
def update : HttpRequest where
  method := .put
  path := .config
  ifMatch := etag 1
  body := text "debug"

end Sample

/-- The configuration is read, and then updated. -/
theorem config_interchangeable_read :
    ((routesWithConfig .memory Sample.plainPlatform {} Sample.oneFailure).answers
        { store := StoreBackend.memory.fresh, now := 0 }
        [Sample.visit { method := .get, path := .config },
          Sample.visit Sample.update]).map HttpResponse.told =
      ((routesWithConfig .redis Sample.plainPlatform {} Sample.oneFailure).answers
        { store := StoreBackend.redis.fresh, now := 0 }
        [Sample.visit { method := .get, path := .config },
          Sample.visit Sample.update]).map HttpResponse.told := by
  refine (config_interchangeable (by simp [Sample.visit])
    (by simp [Sample.visit, Sample.update]) ?_).mpr id
  exact ⟨by decide +kernel, by decide +kernel, trivial⟩

/-- An update of a new store is made by the memory store and refused by Redis. -/
theorem config_differs : ∃ visits : List Visit,
    (∀ visit ∈ visits, ∀ i, (visit.choices i).fault = .none) ∧
    (∀ visit ∈ visits, visit.request.path = .config) ∧
    ExactVersions Sample.plainPlatform {} Sample.oneFailure
      { store := StoreBackend.memory.fresh, now := 0 } visits ∧
    ((routesWithConfig .memory Sample.plainPlatform {} Sample.oneFailure).answers
        { store := StoreBackend.memory.fresh, now := 0 } visits).map (·.status) = [200] ∧
    ((routesWithConfig .redis Sample.plainPlatform {} Sample.oneFailure).answers
        { store := StoreBackend.redis.fresh, now := 0 } visits).map (·.status) = [409] :=
  ⟨[Sample.visit Sample.update], by simp [Sample.visit], by simp [Sample.visit, Sample.update],
    ⟨by decide +kernel, trivial⟩, by decide +kernel, by decide +kernel⟩

end App

end GatewaySystem
