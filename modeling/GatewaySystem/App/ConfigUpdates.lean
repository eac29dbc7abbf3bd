import GatewaySystem.App.ControlPlane

/-!
# Updates of the configuration

An update names the version it has read and is committed only on that version.
The history of the accesses therefore holds one line of configurations, each made
of the one before it by one request, and every answer shows a configuration of
that line. `commits` reads the line off a history; it starts with the default
configuration, which the memory store holds from the start and Redis from the
first reading on.
-/

namespace GatewaySystem

namespace App

namespace Event

/-- The configuration that an update has committed. -/
def commit? : Event → Option RuntimeConfig
  | .updateConfig _ _ (.ok config) => some config
  | _ => none

/-- The version that a committed update has named. -/
def expected? : Event → Option ℤ
  | .updateConfig expected _ (.ok _) => some expected
  | _ => none

theorem expected?_of_commit? {event : Event} (h : event.commit? = none) :
    event.expected? = none := by
  unfold expected?
  split
  · cases h
  · rfl

end Event

section Commits

variable {σ : Type} {config : RuntimeConfig} {configs : List RuntimeConfig}

/-- The configurations that were committed, newest first. -/
def commits (history : List (Past σ)) : List RuntimeConfig :=
  history.filterMap (fun past => past.event.commit?) ++ [defaultRuntimeConfig]

theorem commits_cons_none {past : Past σ} (h : past.event.commit? = none)
    (history : List (Past σ)) : commits (past :: history) = commits history := by
  simp [commits, h]

theorem commits_cons_some {past : Past σ} (h : past.event.commit? = some config)
    (history : List (Past σ)) : commits (past :: history) = config :: commits history := by
  simp [commits, h]

theorem mem_commits_append {earlier : List (Past σ)} (h : config ∈ commits earlier)
    (later : List (Past σ)) : config ∈ commits (later ++ earlier) := by
  rw [commits, List.filterMap_append, List.append_assoc]
  exact List.mem_append_right _ h

/-- The versions count down to one. -/
def Numbered (configs : List RuntimeConfig) : Prop :=
  ∀ (i : ℕ) (config : RuntimeConfig), configs[i]? = some config →
    config.version + i = configs.length

theorem Numbered.cons (h : Numbered configs) (hversion : config.version = configs.length + 1) :
    Numbered (config :: configs) := by
  intro i other hother
  cases i with
  | zero =>
      obtain rfl := Option.some.inj hother
      simp [hversion]
  | succ i =>
      have := h i other hother
      simp only [List.length_cons]
      omega

theorem Numbered.head_version (h : Numbered configs) (hhead : configs.head? = some config) :
    config.version = configs.length := by
  have := h 0 config (by rwa [← List.head?_eq_getElem?])
  omega

/-- A version is committed once. -/
theorem Numbered.eq_of_version (h : Numbered configs) {config config' : RuntimeConfig}
    (hmem : config ∈ configs) (hmem' : config' ∈ configs)
    (hversion : config.version = config'.version) : config = config' := by
  obtain ⟨i, hi⟩ := List.getElem?_of_mem hmem
  obtain ⟨j, hj⟩ := List.getElem?_of_mem hmem'
  have hisum := h i config hi
  have hjsum := h j config' hj
  obtain rfl : i = j := by omega
  exact Option.some.inj (hi.symm.trans hj)

theorem Numbered.pos (h : Numbered configs) (hmem : config ∈ configs) : 1 ≤ config.version := by
  obtain ⟨i, hi⟩ := List.getElem?_of_mem hmem
  have hsum := h i config hi
  have hlt := (List.getElem?_eq_some_iff.mp hi).1
  omega

theorem Numbered.nodup (h : Numbered configs) : (configs.map (·.version)).Nodup := by
  rw [List.nodup_iff_injective_getElem]
  rintro ⟨i, hi⟩ ⟨j, hj⟩ heq
  simp only [List.length_map] at hi hj
  simp only [List.getElem_map] at heq
  have hisum := h i _ (List.getElem?_eq_getElem hi)
  have hjsum := h j _ (List.getElem?_eq_getElem hj)
  exact Fin.ext (by simp only; omega)

/-- An update was committed after the version. -/
def Superseded (history : List (Past σ)) (version : ℤ) : Prop :=
  ∃ later past earlier config, history = later ++ past :: earlier ∧
    past.event.commit? = some config ∧ version ∈ (commits earlier).map (·.version)

/-- The newest version is the one that no other has superseded. -/
theorem not_superseded_iff {history : List (Past σ)} (h : Numbered (commits history))
    (hmem : config ∈ commits history) :
    ¬Superseded history config.version ↔ (commits history).head? = some config := by
  constructor
  · intro hnot
    cases hcommits : history.filterMap (fun past => past.event.commit?) with
    | nil =>
        rw [commits, hcommits] at hmem ⊢
        rw [List.mem_singleton.mp hmem]
        rfl
    | cons newest rest =>
        obtain ⟨later, past, earlier, rfl, hlater, hpast, rfl⟩ :=
          List.filterMap_eq_cons_iff.mp hcommits
        have hall : commits (later ++ past :: earlier) = newest :: commits earlier := by
          rw [commits, hcommits]
          rfl
        rw [hall] at hmem ⊢
        rcases List.mem_cons.mp hmem with rfl | hmem
        · rfl
        · exact absurd ⟨later, past, earlier, newest, rfl, hpast, List.mem_map_of_mem hmem⟩ hnot
  · rintro hhead ⟨later, past, earlier, newer, rfl, hpast, hversion⟩
    obtain ⟨old, hold, hold_version⟩ := List.mem_map.mp hversion
    have hsame := h.eq_of_version hmem
      (mem_commits_append
        (by rw [commits_cons_some hpast]; exact List.mem_cons_of_mem _ hold) later)
      hold_version.symm
    subst hsame
    -- the version stands behind the newer one, so it is smaller than the length
    have hall : commits (later ++ past :: earlier) =
        later.filterMap (fun past => past.event.commit?) ++ newer :: commits earlier := by
      rw [← commits_cons_some hpast earlier, commits, commits, List.filterMap_append,
        List.append_assoc]
    obtain ⟨i, hi⟩ := List.getElem?_of_mem hold
    have hindex : (commits (later ++ past :: earlier))[
        (later.filterMap fun past => past.event.commit?).length + (i + 1)]? = some config := by
      rw [hall, List.getElem?_append_right (Nat.le_add_right _ _), Nat.add_sub_cancel_left]
      exact hi
    have hsum := h _ config hindex
    have hlength := h.head_version hhead
    omega

/-- The updates of a history come one after the other: each names the version
that it replaces, and makes the next one of it. -/
structure Serial (platform : Platform) (history : List (Past σ)) : Prop where
  updates : ∀ later past earlier expected req config, history = later ++ past :: earlier →
    past.event = .updateConfig expected req (.ok config) →
    ∃ previous, (commits earlier).head? = some previous ∧ expected = previous.version ∧
      config = previous.updated platform req ∧ config.version = previous.version + 1
  distinct : (history.filterMap fun past => past.event.expected?).Nodup

end Commits

variable {b : StoreBackend} {platform : Platform} {policy : AuthFailurePolicy}
  {config : RuntimeConfig} {w : World b.State} {event : Event}

/-- What an access does to the configuration. -/
theorem Effect.config_cases {now : ℤ} {v v' : View} (h : Effect b platform policy now v event v') :
    event.commit? = none ∧
      (v'.config = v.config ∨ v.config = none ∧ v'.config = some defaultRuntimeConfig) ∨
    ∃ expected req config,
        event = .updateConfig expected req (.ok (b.updated platform config req)) ∧
      v.config = some config ∧ b.agrees config.version expected ∧
      v'.config = some (b.updated platform config req) := by
  cases h with
  | limited _ hconfig => exact .inl ⟨rfl, .inl hconfig⟩
  | initConfigFirst h => exact .inl ⟨rfl, .inr ⟨h, rfl⟩⟩
  | @updateConfig config expected req h hexpected =>
      exact .inr ⟨expected, req, config, rfl, h, hexpected, rfl⟩
  | _ => exact .inl ⟨rfl, .inl rfl⟩

theorem Effect.config_of_getConfig {now : ℤ} {v v' : View}
    (h : Effect b platform policy now v event v') (hevent : event = .getConfig (.ok config)) :
    v.config = some config := by
  cases h with
  | getConfig h =>
      cases hevent
      exact h
  | _ => cases hevent

/-- An update is committed exactly on the version that it names. -/
theorem Effect.update_cases {now expected : ℤ} {v v' : View} {req : ConfigUpdateRequest}
    {result : Except StoreError RuntimeConfig} {current : RuntimeConfig}
    (h : Effect b platform policy now v event v')
    (hevent : event = .updateConfig expected req result) (hcurrent : v.config = some current) :
    b.agrees current.version expected ∧ result = .ok (b.updated platform current req) ∨
      ¬b.agrees current.version expected ∧ result = .error .configConflict ∧ v' = v := by
  cases h with
  | updateConfig hconfig hexpected =>
      cases hevent
      obtain rfl := Option.some.inj (hconfig.symm.trans hcurrent)
      exact .inl ⟨hexpected, rfl⟩
  | updateConflict hconfig =>
      cases hevent
      exact .inr ⟨hconfig current hcurrent, rfl, rfl⟩
  | _ => cases hevent

theorem StoreBackend.updated_of_lt (b : StoreBackend) (platform : Platform)
    (hmin : 1 ≤ config.version) (hlimit : config.version < 2 ^ 53) (req : ConfigUpdateRequest) :
    b.updated platform config req = config.updated platform req ∧
      (b.updated platform config req).version = config.version + 1 := by
  have hnext := b.next_of_lt hmin hlimit
  have hmemory := StoreBackend.memory.next_of_lt hmin hlimit
  refine ⟨?_, hnext⟩
  rw [StoreBackend.updated, hnext, ← hmemory]
  rfl

/-- The line of configurations in a world. -/
structure Tracked (b : StoreBackend) (platform : Platform) (w : World b.State) : Prop where
  current : (b.view w.store).config = none ∧ commits w.history = [defaultRuntimeConfig] ∨
    (b.view w.store).config = (commits w.history).head?
  numbered : Numbered (commits w.history)
  expected : (w.history.filterMap fun past => past.event.expected?) =
    (commits w.history).tail.map (·.version)
  updates : ∀ later past earlier expected req config, w.history = later ++ past :: earlier →
    past.event = .updateConfig expected req (.ok config) →
    ∃ previous, (commits earlier).head? = some previous ∧ expected = previous.version ∧
      config = previous.updated platform req ∧ config.version = previous.version + 1

theorem Tracked.head (h : Tracked b platform w) (hconfig : (b.view w.store).config = some config) :
    (commits w.history).head? = some config := by
  rcases h.current with ⟨hnone, -⟩ | hhead
  · rw [hconfig] at hnone
    cases hnone
  · rw [← hhead, hconfig]

theorem Tracked.serial (h : Tracked b platform w) : Serial platform w.history := by
  refine ⟨h.updates, ?_⟩
  rw [h.expected, List.map_tail]
  exact h.numbered.nodup.sublist (List.tail_sublist _)

theorem tracked_fresh (b : StoreBackend) (platform : Platform) (now : ℤ) :
    Tracked b platform { store := b.fresh, now := now } where
  current := by
    rw [b.fresh_sound.2]
    cases b with
    | memory => exact .inr rfl
    | redis => exact .inl ⟨rfl, rfl⟩
  numbered := by
    intro i config hi
    cases i with
    | zero =>
        obtain rfl := Option.some.inj hi
        rfl
    | succ i => simp [commits] at hi
  expected := rfl
  updates := by
    intro later past earlier _ _ _ hhistory
    simp at hhistory

theorem Tracked.silent (h : Tracked b platform w) {now : ℤ} {store : b.State}
    (hevent : event.commit? = none)
    (hconfig : (b.view store).config = (b.view w.store).config ∨
      (b.view w.store).config = none ∧ (b.view store).config = some defaultRuntimeConfig) :
    Tracked b platform
      { store := store, now := now, history := ⟨w.store, now, event⟩ :: w.history } where
  current := by
    rw [commits_cons_none (by exact hevent)]
    rcases hconfig with hsame | ⟨hnone, hdefault⟩
    · rw [hsame]
      exact h.current
    · refine .inr ?_
      rcases h.current with ⟨-, hcommits⟩ | hhead
      · rw [hcommits, hdefault]
        rfl
      · rw [hnone] at hhead
        simp [commits] at hhead
  numbered := by
    rw [commits_cons_none (by exact hevent)]
    exact h.numbered
  expected := by
    rw [commits_cons_none (by exact hevent),
      List.filterMap_cons_none (by exact Event.expected?_of_commit? hevent)]
    exact h.expected
  updates := by
    intro later past earlier expected req config hhistory hupdate
    cases later with
    | nil =>
        obtain ⟨rfl, rfl⟩ := List.cons.inj hhistory
        rw [show event = _ from hupdate] at hevent
        cases hevent
    | cons newest later =>
        exact h.updates later past earlier expected req config (List.cons.inj hhistory).2 hupdate

theorem Tracked.commit (h : Tracked b platform w) {now expected : ℤ} {req : ConfigUpdateRequest}
    {store : b.State} (hcurrent : (b.view w.store).config = some config)
    (hlimit : config.version < 2 ^ 53) (hexpected : b.agrees config.version expected)
    (hconfig : (b.view store).config = some (b.updated platform config req)) :
    Tracked b platform
      { store := store
        now := now
        history := ⟨w.store, now, .updateConfig expected req
          (.ok (b.updated platform config req))⟩ :: w.history } := by
  have hhead := h.head hcurrent
  have hversion := h.numbered.head_version hhead
  have hmin : 1 ≤ config.version := h.numbered.pos (List.mem_of_mem_head? hhead)
  obtain ⟨hupdated, hnext⟩ := b.updated_of_lt platform hmin hlimit req
  have hsame := (b.agrees_iff_of_lt hmin hlimit).mp hexpected
  have hcommits : ∀ past : Past b.State,
      past.event = .updateConfig expected req (.ok (b.updated platform config req)) →
      commits (past :: w.history) = b.updated platform config req :: commits w.history :=
    fun past hpast => commits_cons_some (by rw [hpast]; rfl) _
  refine ⟨.inr ?_, ?_, ?_, ?_⟩
  · rw [hcommits _ rfl]
    exact hconfig
  · rw [hcommits _ rfl]
    exact h.numbered.cons (by omega)
  · rw [hcommits _ rfl, List.filterMap_cons_some (by rfl), h.expected, List.tail_cons]
    rw [← List.cons_head?_tail hhead, List.map_cons, hsame]
    rfl
  · intro later past earlier expected' req' config' hhistory hupdate
    cases later with
    | nil =>
        obtain ⟨rfl, rfl⟩ := List.cons.inj hhistory
        cases hupdate
        exact ⟨config, hhead, hsame.symm, hupdated, hnext⟩
    | cons newest later =>
        exact h.updates later past earlier expected' req' config' (List.cons.inj hhistory).2 hupdate

/-- While the versions are exact, every world holds one line of configurations. -/
theorem Possible.tracked (h : Possible b platform policy w)
    (hversions : ∀ config ∈ commits w.history, config.version < 2 ^ 53) : Tracked b platform w := by
  induction h with
  | fresh now => exact tracked_fresh b platform now
  | @move w w' hw hmove ih =>
      cases hmove with
      | idle =>
          have htracked := ih hversions
          exact ⟨htracked.current, htracked.numbered, htracked.expected, htracked.updates⟩
      | @effect now event store htime hsound heffect =>
          have htracked := ih fun config hconfig =>
            hversions config (mem_commits_append hconfig [_])
          rcases heffect.config_cases with ⟨hevent, hconfig⟩ |
            ⟨expected, req, config, rfl, hcurrent, hexpected, hconfig⟩
          · exact htracked.silent hevent hconfig
          · have hmem : config ∈ commits w.history :=
              List.mem_of_mem_head? (htracked.head hcurrent)
            exact htracked.commit hcurrent (hversions config (mem_commits_append hmem [_]))
              hexpected hconfig

/-- A configuration that was read or written stands in the line. -/
theorem Possible.mem_commits (h : Possible b platform policy w)
    (hversions : ∀ config ∈ commits w.history, config.version < 2 ^ 53)
    {later earlier : List (Past b.State)} {past : Past b.State}
    (hhistory : w.history = later ++ past :: earlier)
    (hevent : past.event = .getConfig (.ok config) ∨
      ∃ expected req, past.event = .updateConfig expected req (.ok config)) :
    config ∈ commits w.history := by
  induction h generalizing later with
  | fresh now => simp at hhistory
  | @move w w' hw hmove ih =>
      cases hmove with
      | idle => exact ih hversions hhistory
      | @effect now event store htime hsound heffect =>
          have hversions' : ∀ config ∈ commits w.history, config.version < 2 ^ 53 :=
            fun config hconfig => hversions config (mem_commits_append hconfig [_])
          cases later with
          | nil =>
              obtain ⟨rfl, rfl⟩ := List.cons.inj hhistory
              rcases hevent with hget | ⟨expected, req, hupdate⟩
              · have hconfig := heffect.config_of_getConfig hget
                exact mem_commits_append
                  (List.mem_of_mem_head? ((hw.tracked hversions').head hconfig)) [_]
              · rw [commits_cons_some (by rw [hupdate]; rfl)]
                exact List.mem_cons_self
          | cons newest later =>
              exact mem_commits_append (ih hversions' (List.cons.inj hhistory).2) [_]

/-- The choices of a clock that does not go back and of a store without errors. -/
def Faultless (choice : Choice) (w : World b.State) : Prop :=
  Timely choice w ∧ choice.fault = .none

instance (choice : Choice) (w : World b.State) : Decidable (Faultless choice w) :=
  inferInstanceAs (Decidable (_ ∧ _))

/-- The body of an update is well formed and in its ranges. -/
def HttpRequest.ValidUpdate (platform : Platform) (r : HttpRequest) : Prop :=
  ∃ req, platform.decodeConfigUpdateRequest r.body = .ok req ∧
    validateConfigUpdate platform req = none

/-- What is written as an `ETag` is read from an `If-Match`. -/
theorem parseGeneration_etag {version : ℤ} (hmin : 1 ≤ version) (hmax : version ≤ int64Max) :
    parseGeneration (etag version) = some version := by
  have hquote : 34 ∉ Decimal.format version := Decimal.notMem_format (by decide) (by decide)
  have hne : Decimal.format version ≠ [] := by
    intro hnil
    have hparse := Decimal.parse_format version
    rw [hnil] at hparse
    cases hparse
  have hkept : ∀ bytes rest : Bytes, bytes ≠ [] → 34 ∉ bytes →
      (bytes ++ rest).dropWhile (· = 34) = bytes ++ rest := by
    intro bytes rest hbytes hmem
    obtain ⟨byte, bytes, rfl⟩ := List.exists_cons_of_ne_nil hbytes
    exact List.dropWhile_cons_of_neg (by simpa using fun h => hmem (by simp [h]))
  have hback : trim 34 (etag version) = Decimal.format version := by
    have hlast := hkept (Decimal.format version).reverse [] (by simpa using hne)
      (by simpa using hquote)
    rw [List.append_nil] at hlast
    rw [trim, etag, List.cons_append, List.dropWhile_cons_of_pos (by decide),
      hkept _ [34] hne hquote, List.reverse_append, List.reverse_singleton, List.singleton_append,
      List.dropWhile_cons_of_pos (by decide), hlast, List.reverse_reverse]
  rw [parseGeneration, hback, parseInt_format (RedisStore.int64Min_le_of_pos hmin) hmax]
  exact if_neg (by omega)

namespace Application

variable {σ : Type} {a : Application σ} {r : HttpRequest}

@[simp] theorem writeAPIError_status (status : ℕ) (code message : String) :
    (writeAPIError r status code message).status = status := rfl

/-- The answer to an update after its access. -/
def updateAnswer (r : HttpRequest) : Except StoreError RuntimeConfig → HttpResponse
  | .error .configConflict => writeAPIError r 409 "CONFLICT" "config version conflict"
  | .error error => writeStoreError r error
  | .ok config => writeConfig config

theorem decodeJSON_status {α : Type} {decode : Bytes → Except DecodeError α}
    {response : HttpResponse} (h : decodeJSON decode r = .error response) :
    response.status ≠ 200 := by
  unfold decodeJSON at h
  split at h <;> cases h <;> simp

theorem decodeConfigUpdate_status {response : HttpResponse}
    (h : a.decodeConfigUpdate r = .error response) : response.status ≠ 200 := by
  unfold decodeConfigUpdate at h
  split at h
  · cases h
    simp
  · split at h
    · cases h
      simp
    · split at h
      · next hdecode =>
          cases h
          exact decodeJSON_status hdecode
      · split at h
        · cases h
          simp
        · cases h

/-- A request with a version that it may name is taken exactly when its body is
valid. -/
theorem decodeConfigUpdate_of_etag {version : ℤ} (hmin : 1 ≤ version) (hmax : version ≤ int64Max)
    (hmatch : r.ifMatch = etag version) :
    (∀ expected req, a.decodeConfigUpdate r = .ok (expected, req) →
      expected = version ∧ r.ValidUpdate a.platform) ∧
    ∀ response, a.decodeConfigUpdate r = .error response → ¬r.ValidUpdate a.platform := by
  unfold decodeConfigUpdate
  rw [if_neg (by rw [hmatch]; simp [etag]), hmatch, parseGeneration_etag hmin hmax]
  unfold HttpRequest.ValidUpdate
  cases hdecode : a.platform.decodeConfigUpdateRequest r.body with
  | error error =>
      refine ⟨fun expected req h => ?_, fun response _ => ?_⟩
      · cases error <;> simp [decodeJSON, hdecode] at h
      · rintro ⟨req, hreq, -⟩
        cases hreq
  | ok req =>
      have hjson : decodeJSON a.platform.decodeConfigUpdateRequest r = .ok req := by
        rw [decodeJSON, hdecode]
      simp only [hjson]
      cases hvalid : validateConfigUpdate a.platform req with
      | some message =>
          refine ⟨fun expected req' h => by simp at h, fun response _ => ?_⟩
          rintro ⟨req', hreq, hvalid'⟩
          cases hreq
          rw [hvalid] at hvalid'
          cases hvalid'
      | none =>
          refine ⟨fun expected req' h => ?_, fun response h => by simp at h⟩
          simp only [Except.ok.injEq, Prod.mk.injEq] at h
          exact ⟨h.1.symm, req, rfl, hvalid⟩

/-- An update is refused where it arrives, or it is one access. -/
theorem serve_update (h : a.middleware r = .configUpdate) :
    (∃ response, a.decodeConfigUpdate r = .error response ∧ a.serve r = .done response) ∨
    ∃ expected req, a.decodeConfigUpdate r = .ok (expected, req) ∧
      a.serve r = a.call (a.store.updateConfig expected req) (.updateConfig expected req) >>=
        fun result => .done (updateAnswer r result) := by
  have hserve : a.serve r = a.handleConfigUpdate r := by
    rw [serve, h]
    rfl
  rw [hserve, handleConfigUpdate]
  cases hdecode : a.decodeConfigUpdate r with
  | error response => exact .inl ⟨response, rfl, rfl⟩
  | ok update =>
      obtain ⟨expected, req⟩ := update
      refine .inr ⟨expected, req, rfl, ?_⟩
      refine congrArg (a.call (a.store.updateConfig expected req)
        (.updateConfig expected req) >>= ·)
        (funext fun result => ?_)
      cases result with
      | ok config => rfl
      | error error => cases error <;> rfl

end Application

namespace Plane

variable {config : ApplicationConfig} {m m' : Plane b} {response : HttpResponse}
  {since : World b.State} {action : Machine.Action Choice HttpRequest} {r : HttpRequest}

/-- The request of an update has not begun or is answered. -/
theorem update_thread {ok : Choice → World b.State → Prop}
    (h : Transition.ReachableBy (controlPlane b platform config policy) (Machine.Admits ok) m) :
    ∀ thread ∈ m.threads,
      (routesWithConfig b platform config policy).middleware thread.request = .configUpdate →
      thread.program = (routesWithConfig b platform config policy).serve thread.request ∨
        ∃ response, thread.program = .done response := by
  refine h.invariant (I := fun m : Plane b => ∀ thread ∈ m.threads,
    (routesWithConfig b platform config policy).middleware thread.request = .configUpdate →
    thread.program = (routesWithConfig b platform config policy).serve thread.request ∨
      ∃ response, thread.program = .done response) ?_ ?_
  · rintro m ⟨-, hthreads⟩
    simp [hthreads]
  · rintro m action m' - ih - hstep thread hmem hput
    rcases Machine.step_cases hstep with ⟨request, -, rfl⟩ |
      ⟨i, choice, request, since, access, next, -, hthread, rfl⟩
    · rcases List.mem_append.mp hmem with hmem | hmem
      · exact ih thread hmem hput
      · obtain rfl := List.mem_singleton.mp hmem
        exact .inl rfl
    · rcases List.mem_or_eq_of_mem_set hmem with hmem | rfl
      · exact ih thread hmem hput
      · have hput : (routesWithConfig b platform config policy).middleware request =
          .configUpdate := hput
        rcases ih _ (List.mem_of_getElem? hthread) hput with hserve | ⟨response, hdone⟩
        · rcases Application.serve_update hput with ⟨response, -, hdone⟩ |
            ⟨expected, req, -, hcall⟩
          · cases hserve.trans hdone
          · obtain ⟨-, rfl⟩ := Program.step.inj (hserve.trans hcall)
            exact .inr ⟨_, rfl⟩
        · cases hdone

/-- The step in which an update is answered. -/
theorem update_answered
    (h : Transition.ReachableBy (controlPlane b platform config policy)
      (Machine.Admits Faultless) m) (hok : Machine.Admits Faultless m action)
    (hstep : (controlPlane b platform config policy).step m action = some m') {i : ℕ}
    (hput : (routesWithConfig b platform config policy).middleware r = .configUpdate)
    (hafter : m'.threads[i]? = some ⟨r, since, .done response⟩)
    (hbefore : m.threads[i]? ≠ some ⟨r, since, .done response⟩) :
    (routesWithConfig b platform config policy).decodeConfigUpdate r = .error response ∧
      m'.shared = m.shared ∨
    ∃ expected req now,
      (routesWithConfig b platform config policy).decodeConfigUpdate r = .ok (expected, req) ∧
      response = Application.updateAnswer r
        ((b.store platform).updateConfig expected req now m.shared.store).1 ∧
      m'.shared = m.shared.commit now ((b.store platform).updateConfig expected req)
        (.updateConfig expected req) := by
  rcases Machine.step_cases hstep with ⟨request, rfl, rfl⟩ |
    ⟨j, choice, request, since', access, next, rfl, hthread, rfl⟩
  · refine .inl ⟨?_, rfl⟩
    rcases lt_or_ge i m.threads.length with hlt | hge
    · rw [List.getElem?_append_left hlt] at hafter
      exact absurd hafter hbefore
    · rw [List.getElem?_append_right hge] at hafter
      have hmem := List.mem_singleton.mp (List.mem_of_getElem? hafter)
      obtain ⟨rfl, -, hserve⟩ := Machine.Thread.mk.inj hmem
      rcases Application.serve_update hput with ⟨answer, hdecode, hdone⟩ | ⟨expected, req, -, hcall⟩
      · cases hserve.trans hdone
        exact hdecode
      · cases hserve.trans hcall
  · rcases eq_or_ne j i with rfl | hne
    · have hlt := (List.getElem?_eq_some_iff.mp hthread).1
      rw [List.getElem?_set_self hlt] at hafter
      obtain ⟨rfl, rfl, hnext⟩ := Machine.Thread.mk.inj (Option.some.inj hafter)
      rcases update_thread h _ (List.mem_of_getElem? hthread) hput with hserve | ⟨answer, hdone⟩
      · rcases Application.serve_update hput with ⟨answer, -, hdone⟩ |
          ⟨expected, req, hdecode, hcall⟩
        · cases hserve.trans hdone
        · obtain ⟨rfl, rfl⟩ := Program.step.inj (hserve.trans hcall)
          have hperform : World.perform (b.store platform).remote
              ((b.store platform).updateConfig expected req) (.updateConfig expected req) choice
              m.shared = _ := World.perform_none hok.2 m.shared
          refine .inr ⟨expected, req, choice.now, hdecode, ?_, ?_⟩
          · exact (Program.done.inj hnext).symm.trans
              (congrArg (fun outcome => Application.updateAnswer request outcome.1) hperform)
          · exact congrArg Prod.snd hperform
      · cases hdone
    · rw [List.getElem?_set_ne hne] at hafter
      exact absurd hafter hbefore

theorem timely_of_faultless
    (h : Transition.ReachableBy (controlPlane b platform config policy)
      (Machine.Admits Faultless) m) :
    Transition.ReachableBy (controlPlane b platform config policy) (Machine.Admits Timely) m := by
  refine h.mono fun _ action hadmits => ?_
  cases action with
  | spawn request => trivial
  | access i choice => exact hadmits.1

/-- What an answered update has done: it is refused and leaves the configuration
alone, or it is committed on the version that it names. -/
theorem update_outcome
    (h : Transition.ReachableBy (controlPlane b platform config policy)
      (Machine.Admits Faultless) m) (hok : Machine.Admits Faultless m action)
    (hstep : (controlPlane b platform config policy).step m action = some m') {i : ℕ}
    (hput : (routesWithConfig b platform config policy).middleware r = .configUpdate)
    (hafter : m'.threads[i]? = some ⟨r, since, .done response⟩)
    (hbefore : m.threads[i]? ≠ some ⟨r, since, .done response⟩) {current : RuntimeConfig}
    (hcurrent : (b.view m.shared.store).config = some current) :
    response.status ≠ 200 ∧
      (b.view m'.shared.store).config = (b.view m.shared.store).config ∧
      (∀ expected req,
        (routesWithConfig b platform config policy).decodeConfigUpdate r = .ok (expected, req) →
        ¬b.agrees current.version expected) ∨
    ∃ expected req now,
      (routesWithConfig b platform config policy).decodeConfigUpdate r = .ok (expected, req) ∧
      b.agrees current.version expected ∧
      response = Application.writeConfig (b.updated platform current req) ∧
      m'.shared.history = ⟨m.shared.store, now,
        .updateConfig expected req (.ok (b.updated platform current req))⟩ :: m.shared.history := by
  rcases update_answered h hok hstep hput hafter hbefore with ⟨hdecode, hshared⟩ |
    ⟨expected, req, now, hdecode, hresponse, hshared⟩
  · refine .inl ⟨Application.decodeConfigUpdate_status hdecode, by rw [hshared], ?_⟩
    intro expected req hok
    rw [hdecode] at hok
    cases hok
  · have hlawful := b.updateConfig_lawful platform policy (decodeConfigUpdate_valid hdecode)
      expected now m.shared.store (possible (timely_of_faultless h)).sound
    rcases hlawful.2.update_cases rfl hcurrent with ⟨hagrees, hresult⟩ |
      ⟨hconflict, hresult, hview⟩
    · refine .inr ⟨expected, req, now, hdecode, hagrees, ?_, ?_⟩
      · rw [hresponse, hresult]
        rfl
      · rw [hshared, World.commit, hresult]
    · refine .inl ⟨?_, ?_, ?_⟩
      · rw [hresponse, hresult]
        simp [Application.updateAnswer]
      · rw [hshared]
        exact congrArg View.config hview
      · intro expected' req' hok
        cases hdecode.symm.trans hok
        exact hconflict

/-- A configuration that was answered stands in the line. -/
theorem answered_commits
    (h : Transition.ReachableBy (controlPlane b platform config policy) (Machine.Admits Timely) m)
    (hversions : ∀ current ∈ commits m.shared.history, current.version < 2 ^ 53)
    {current : RuntimeConfig} (hthread : ⟨r, since, .done response⟩ ∈ m.threads)
    (hbody : response.body = .config current) : current ∈ commits m.shared.history := by
  rcases (answers h hthread).config current hbody with
    ⟨later, past, earlier, hhistory, hevent, -⟩ |
    ⟨expected, req, later, past, earlier, hhistory, hevent, -⟩
  · exact (possible h).mem_commits hversions hhistory (.inl hevent)
  · exact (possible h).mem_commits hversions hhistory (.inr ⟨expected, req, hevent⟩)

/-- No update is lost: the updates come one after the other, the store holds the
last of them and every answer one of them; a request with the version of an
earlier answer is committed exactly when its body is valid and no other update
came after that version, and a request that is refused changes nothing. -/
theorem no_lost_update
    (h : Transition.ReachableBy (controlPlane b platform config policy)
      (Machine.Admits Faultless) m)
    (hversions : ∀ current ∈ commits m.shared.history, current.version < 2 ^ 53)
    (hinit : (b.view m.shared.store).config ≠ none) :
    Serial platform m.shared.history ∧
    (b.view m.shared.store).config = (commits m.shared.history).head? ∧
    (∀ (r : HttpRequest) (since : World b.State) (response : HttpResponse)
      (current : RuntimeConfig), ⟨r, since, .done response⟩ ∈ m.threads →
      response.body = .config current → current ∈ commits m.shared.history) ∧
    ∀ (action : Machine.Action Choice HttpRequest) (m' : Plane b) (i : ℕ) (r : HttpRequest)
      (since : World b.State) (response : HttpResponse), Machine.Admits Faultless m action →
      (controlPlane b platform config policy).step m action = some m' →
      (routesWithConfig b platform config policy).middleware r = .configUpdate →
      m'.threads[i]? = some ⟨r, since, .done response⟩ →
      m.threads[i]? ≠ some ⟨r, since, .done response⟩ →
      (∀ (g : HttpRequest) (since' : World b.State) (current : RuntimeConfig),
        ⟨g, since', .done (Application.writeConfig current)⟩ ∈ m.threads →
        r.ifMatch = etag current.version →
        (response.status = 200 ↔
          r.ValidUpdate platform ∧ ¬Superseded m.shared.history current.version)) ∧
      (response.status = 200 → ∃ new, response = Application.writeConfig new ∧
        commits m'.shared.history = new :: commits m.shared.history) ∧
      (response.status ≠ 200 →
        (b.view m'.shared.store).config = (b.view m.shared.store).config) := by
  have htimely := timely_of_faultless h
  have htracked := (possible htimely).tracked hversions
  obtain ⟨newest, hnewest⟩ := Option.ne_none_iff_exists'.mp hinit
  have hhead := htracked.head hnewest
  have hmem : newest ∈ commits m.shared.history := List.mem_of_mem_head? hhead
  have hagrees : ∀ expected, b.agrees newest.version expected ↔ newest.version = expected :=
    fun _ => b.agrees_iff_of_lt (htracked.numbered.pos hmem) (hversions newest hmem)
  refine ⟨htracked.serial, hnewest.trans hhead.symm,
    fun r since response current => answered_commits htimely hversions, ?_⟩
  intro action m' i r since response hok hstep hput hafter hbefore
  have hlimit : ∀ current ∈ commits m.shared.history, current.version ≤ int64Max := by
    intro current hcurrent
    have := hversions current hcurrent
    unfold int64Max
    omega
  rcases update_outcome h hok hstep hput hafter hbefore hnewest with ⟨hstatus, hkept, hrefused⟩ |
    ⟨expected, req, now, hdecode, hexpected, hresponse, hhistory⟩
  · refine ⟨?_, fun hsuccess => absurd hsuccess hstatus, fun _ => hkept⟩
    intro g since' current hthread hmatch
    have hcurrent := answered_commits htimely hversions hthread rfl
    obtain ⟨hdecoded, hinvalid⟩ := Application.decodeConfigUpdate_of_etag
      (a := routesWithConfig b platform config policy) (htracked.numbered.pos hcurrent)
      (hlimit current hcurrent) hmatch
    refine iff_of_false hstatus ?_
    rintro ⟨hvalid, hnot⟩
    obtain rfl := Option.some.inj
      (hhead.symm.trans ((not_superseded_iff htracked.numbered hcurrent).mp hnot))
    cases hdecode : (routesWithConfig b platform config policy).decodeConfigUpdate r with
    | error answer => exact hinvalid answer hdecode hvalid
    | ok update =>
        exact hrefused update.1 update.2 hdecode
          ((hagrees _).mpr (hdecoded update.1 update.2 hdecode).1.symm)
  · have hstatus : response.status = 200 := by
      rw [hresponse]
      rfl
    refine ⟨?_, fun _ => ⟨_, hresponse, ?_⟩, fun hfailure => absurd hstatus hfailure⟩
    · intro g since' current hthread hmatch
      have hcurrent := answered_commits htimely hversions hthread rfl
      have hdecoded := (Application.decodeConfigUpdate_of_etag
        (a := routesWithConfig b platform config policy) (htracked.numbered.pos hcurrent)
        (hlimit current hcurrent) hmatch).1
      obtain ⟨hversion, hvalid⟩ := hdecoded expected req hdecode
      have hsame := htracked.numbered.eq_of_version hmem hcurrent
        (((hagrees expected).mp hexpected).trans hversion)
      exact iff_of_true hstatus ⟨hvalid,
        (not_superseded_iff htracked.numbered hcurrent).mpr (hsame ▸ hhead)⟩
    · rw [hhistory]
      exact commits_cons_some rfl _

end Plane

namespace Sample

/-- Two clients read the configuration of a new Redis, and the first of them
updates it. -/
def racedUpdate : Plane .redis :=
  ((controlPlane .redis plainPlatform {} oneFailure).runBy (Machine.Admits Faultless)
    { shared := { store := StoreBackend.redis.fresh, now := 0 } }
    [.spawn { method := .get, path := .config }, .spawn { method := .get, path := .config },
      .access 0 { now := 0 }, .access 1 { now := 0 }, .access 0 { now := 0 },
      .access 1 { now := 0 },
      .spawn { method := .put, path := .config, ifMatch := etag 1, body := text "debug" },
      .access 2 { now := 0 },
      .spawn { method := .put, path := .config, ifMatch := etag 1, body := text "error" }]).get
    (by decide +kernel)

theorem racedUpdate_reachable :
    Transition.ReachableBy (controlPlane .redis plainPlatform {} oneFailure)
      (Machine.Admits Faultless) racedUpdate :=
  Transition.System.runBy_reachable (.init ⟨⟨rfl, rfl⟩, rfl⟩) (Option.some_get _).symm

end Sample

namespace Plane

/-- The race leaves one line of two configurations, with the second in the store. -/
theorem no_lost_update_raced :
    Serial Sample.plainPlatform Sample.racedUpdate.shared.history ∧
    (StoreBackend.redis.view Sample.racedUpdate.shared.store).config =
      (commits Sample.racedUpdate.shared.history).head? ∧
    (commits Sample.racedUpdate.shared.history).map (·.version) = [2, 1] := by
  have hversions : ∀ current ∈ commits Sample.racedUpdate.shared.history,
      current.version < 2 ^ 53 := by
    decide +kernel
  obtain ⟨hserial, hcurrent, -⟩ :=
    no_lost_update Sample.racedUpdate_reachable hversions (by decide +kernel)
  exact ⟨hserial, hcurrent, by decide +kernel⟩

end Plane

end App

end GatewaySystem
