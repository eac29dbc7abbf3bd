import GatewaySystem.App.Handlers
import GatewaySystem.App.MemoryStore
import GatewaySystem.App.RedisStore

/-!
# The contents of a store and what an access does to them

`View` is what either store holds: a record for each client, a counter of failed
checks and the configuration. `Effect` says, in terms of the view, everything an
access can do and what it returns. The two stores differ in three places only,
which are functions of the backend here: when a version or generation counts as
the expected one, what follows it, and how long a counter lives.
-/

namespace GatewaySystem

namespace App

/-- What a store holds. -/
@[ext]
structure View where
  token : Bytes → Option TokenRecord
  failure : Bytes → Option MemoryAuthFailure
  config : Option RuntimeConfig

namespace View

def decision (v : View) (clientId digest : Bytes) : TokenAuthDecision :=
  match v.token clientId with
  | none => .invalid
  | some record =>
      if record.disabled then .disabled
      else if !digestEqual record.digest digest then .invalid
      else .allowed

/-- The counter of a client that has not expired. -/
def live (v : View) (now : ℤ) (clientId : Bytes) : Option MemoryAuthFailure :=
  (v.failure clientId).filter fun counter => now < counter.expiresAt

def limited (v : View) (now : ℤ) (clientId : Bytes) (limit : ℤ) : Bool :=
  match v.live now clientId with
  | none => false
  | some counter => limit ≤ counter.count

def setToken (v : View) (clientId : Bytes) (record : TokenRecord) : View :=
  { v with token := Function.update v.token clientId (some record) }

def setFailure (v : View) (clientId : Bytes) (counter : Option MemoryAuthFailure) : View :=
  { v with failure := Function.update v.failure clientId counter }

theorem live_eq_some {v : View} {now : ℤ} {clientId : Bytes} {counter : MemoryAuthFailure} :
    v.live now clientId = some counter ↔
      v.failure clientId = some counter ∧ now < counter.expiresAt := by
  rw [live, Option.filter_eq_some_iff, decide_eq_true_eq]

end View

/-- The value of `STORE_BACKEND`. -/
inductive StoreBackend where
  | memory
  | redis
  deriving DecidableEq, Repr

namespace StoreBackend

@[reducible] def State : StoreBackend → Type
  | memory => MemoryStore
  | redis => Redis.Keyspace

/-- `newStoreFromEnv`. -/
def store (platform : Platform) : (b : StoreBackend) → Store b.State
  | memory => memoryStore platform
  | redis => redisStore platform

/-- The contents of a new store. -/
def fresh : (b : StoreBackend) → b.State
  | memory => newMemoryStore
  | redis => Redis.Keyspace.empty

/-- Whether a stored number counts as the expected one. -/
def agrees : StoreBackend → ℤ → ℤ → Prop
  | memory, current, expected => current = expected
  | redis, current, expected => current = Double.round expected

/-- The number that follows a stored one. -/
def next : StoreBackend → ℤ → ℤ
  | memory, current => wrapInt64 (current + 1)
  | redis, current => Double.round (current + 1)

/-- Below the limit of the doubles a number counts up by one. -/
theorem next_of_lt (b : StoreBackend) {current : ℤ} (hmin : 1 ≤ current)
    (hlimit : current < 2 ^ 53) : b.next current = current + 1 := by
  cases b with
  | memory =>
      refine wrapInt64_of_range ?_ ?_
      · unfold int64Min
        omega
      · unfold int64Max
        omega
  | redis => exact Double.round_of_le (by omega) (by omega)

/-- Below the limit of the doubles only the number itself counts as expected. -/
theorem agrees_iff_of_lt (b : StoreBackend) {current expected : ℤ} (hmin : 1 ≤ current)
    (hlimit : current < 2 ^ 53) : b.agrees current expected ↔ current = expected := by
  cases b with
  | memory => exact Iff.rfl
  | redis =>
      have hiff : Double.round expected = current ↔ expected = current := by
        by_cases hpos : 0 ≤ expected
        · exact Double.round_eq_iff (by omega) hlimit hpos
        · have hround := Double.round_nonpos (n := expected) (by omega)
          exact iff_of_false (by omega) (by omega)
      exact ⟨fun h => (hiff.mp h.symm).symm, fun h => (hiff.mpr h.symm).symm⟩

/-- The time a counter lives. -/
def lifetime : StoreBackend → ℤ → ℤ
  | memory, window => window
  | redis, window => window.tdiv 1000000 * 1000000

end StoreBackend

/-- The record after a rotation. -/
def TokenRecord.rotated (b : StoreBackend) (record : TokenRecord) (digest updatedAt : Bytes) :
    TokenRecord :=
  { record with
    generation := b.next record.generation
    digest := digest
    updatedAt := updatedAt
    disabled := false }

/-- The configuration after an update. -/
def StoreBackend.updated (b : StoreBackend) (platform : Platform) (config : RuntimeConfig)
    (req : ConfigUpdateRequest) : RuntimeConfig :=
  { config.updated platform req with version := b.next config.version }

/-- A record as `handleTokensUpsert` makes it. -/
structure TokenRecord.New (record : TokenRecord) : Prop where
  clientId : validTokenClientId record.clientId = true
  generation : record.generation = 1
  updatedAt : record.updatedAt = record.createdAt
  disabled : record.disabled = false

/-- What an access at time `now` does to the contents of a store. -/
inductive Effect (b : StoreBackend) (platform : Platform) (policy : AuthFailurePolicy) (now : ℤ) :
    View → Event → View → Prop
  | ping {v : View} : Effect b platform policy now v .ping v
  | verify {v : View} {clientId digest : Bytes} :
      Effect b platform policy now v
        (.verifyDigest clientId digest (.ok (v.decision clientId digest))) v
  /-- The key of the reserved name holds the index. -/
  | unverified {v : View} {digest : Bytes} (hb : b = .redis) :
      Effect b platform policy now v
        (.verifyDigest reservedClientId digest (.error .other)) v
  /-- An expired counter may be removed. -/
  | limited {v v' : View} {clientId : Bytes} (htoken : v'.token = v.token)
      (hconfig : v'.config = v.config)
      (hfailure : ∀ c, v'.failure c = v.failure c ∨ v'.failure c = none ∧ v.live now c = none) :
      Effect b platform policy now v
        (.authFailureLimited clientId (.ok (v.limited now clientId policy.limit))) v'
  | recordFirst {v : View} {clientId : Bytes} (h : v.live now clientId = none) :
      Effect b platform policy now v (.recordAuthFailure clientId (.ok 1))
        (v.setFailure clientId (some ⟨1, now + b.lifetime policy.window⟩))
  | recordNext {v : View} {clientId : Bytes} {counter : MemoryAuthFailure}
      (h : v.live now clientId = some counter) (hcount : counter.count < int64Max) :
      Effect b platform policy now v (.recordAuthFailure clientId (.ok (counter.count + 1)))
        (v.setFailure clientId (some { counter with count := counter.count + 1 }))
  /-- The counter is full. -/
  | recordOverflow {v : View} {clientId : Bytes} {counter : MemoryAuthFailure}
      {result : Except StoreError ℤ} {counter' : Option MemoryAuthFailure}
      (h : v.live now clientId = some counter) (hcount : int64Max ≤ counter.count) :
      Effect b platform policy now v (.recordAuthFailure clientId result)
        (v.setFailure clientId counter')
  | clear {v : View} {clientId : Bytes} :
      Effect b platform policy now v (.clearAuthFailures clientId (.ok ()))
        (v.setFailure clientId none)
  | create {v : View} {record : TokenRecord} (hnew : record.New)
      (h : v.token record.clientId = none) :
      Effect b platform policy now v (.createToken record (.ok ()))
        (v.setToken record.clientId record)
  | createExists {v : View} {record old : TokenRecord} (h : v.token record.clientId = some old) :
      Effect b platform policy now v (.createToken record (.error .tokenExists)) v
  | rotate {v : View} {clientId digest updatedAt : Bytes} {expected : ℤ}
      {record answer : TokenRecord} (h : v.token clientId = some record) (hpos : 0 < expected)
      (hexpected : b.agrees record.generation expected) (hclient : answer.clientId = clientId)
      (hgeneration : answer.generation = b.next record.generation) :
      Effect b platform policy now v (.rotateToken clientId expected (.ok answer))
        (v.setToken clientId (record.rotated b digest updatedAt))
  | rotateConflict {v : View} {clientId : Bytes} {expected : ℤ} {record : TokenRecord}
      (h : v.token clientId = some record) (hexpected : ¬b.agrees record.generation expected) :
      Effect b platform policy now v (.rotateToken clientId expected (.error .tokenConflict)) v
  | rotateMissing {v : View} {clientId : Bytes} {expected : ℤ} (h : v.token clientId = none) :
      Effect b platform policy now v (.rotateToken clientId expected (.error .tokenNotFound)) v
  | disable {v : View} {clientId updatedAt : Bytes} {record : TokenRecord}
      (h : v.token clientId = some record) :
      Effect b platform policy now v (.disableToken clientId (.ok ()))
        (v.setToken clientId { record with disabled := true, updatedAt := updatedAt })
  | disableMissing {v : View} {clientId : Bytes} (h : v.token clientId = none) :
      Effect b platform policy now v (.disableToken clientId (.error .tokenNotFound)) v
  | tokenIndex {v : View} : Effect b platform policy now v .tokenIndex v
  | list {v : View} {entries : List TokenEntry}
      (h : ∀ entry ∈ entries, ∃ record, v.token entry.clientId = some record ∧
        record.toTokenEntry = entry) :
      Effect b platform policy now v (.listTokens (.ok entries)) v
  | initConfig {v : View} (h : v.config ≠ none) : Effect b platform policy now v .initConfig v
  | initConfigFirst {v : View} (h : v.config = none) :
      Effect b platform policy now v .initConfig { v with config := some defaultRuntimeConfig }
  | getConfig {v : View} {config : RuntimeConfig} (h : v.config = some config) :
      Effect b platform policy now v (.getConfig (.ok config)) v
  | updateConfig {v : View} {config : RuntimeConfig} {expected : ℤ} {req : ConfigUpdateRequest}
      (h : v.config = some config) (hexpected : b.agrees config.version expected)
      (hvalid : validateConfigUpdate platform req = none) :
      Effect b platform policy now v
        (.updateConfig expected req (.ok (b.updated platform config req)))
        { v with config := some (b.updated platform config req) }
  | updateConflict {v : View} {expected : ℤ} {req : ConfigUpdateRequest}
      (h : ∀ config, v.config = some config → ¬b.agrees config.version expected) :
      Effect b platform policy now v (.updateConfig expected req (.error .configConflict)) v

/-- An access that keeps the invariant `Sound` of a store and whose effect on the
contents is one of those above. -/
def Lawful {σ α : Type} (b : StoreBackend) (platform : Platform) (policy : AuthFailurePolicy)
    (view : σ → View) (Sound : σ → Prop) (access : Access σ α)
    (event : Except StoreError α → Event) : Prop :=
  ∀ now s, Sound s → Sound (access now s).2 ∧
    Effect b platform policy now (view s) (event (access now s).1) (view (access now s).2)

namespace MemoryStore

/-- The contents of a memory store. -/
def view (s : MemoryStore) : View where
  token := fun clientId => s.tokens.lookup clientId
  failure := s.authFailures
  config := some s.config

/-- A record is kept under the name it has; generations and counters are values of
`int64`. -/
structure Sound (s : MemoryStore) : Prop where
  record : ∀ clientId record, s.tokens.lookup clientId = some record →
    record.clientId = clientId ∧ record.generation ≤ int64Max
  counter : ∀ clientId counter, s.authFailures clientId = some counter →
    int64Min ≤ counter.count ∧ counter.count ≤ int64Max

variable {s : MemoryStore} {platform : Platform} {policy : AuthFailurePolicy} {now : ℤ}
  {clientId : Bytes}

@[simp] theorem view_token (s : MemoryStore) (clientId : Bytes) :
    s.view.token clientId = s.tokens.lookup clientId := rfl

@[simp] theorem view_failure (s : MemoryStore) : s.view.failure = s.authFailures := rfl

@[simp] theorem view_config (s : MemoryStore) : s.view.config = some s.config := rfl

theorem view_insert (s : MemoryStore) (clientId : Bytes) (record : TokenRecord) :
    view { s with tokens := s.tokens.insert clientId record } =
      s.view.setToken clientId record := by
  refine View.ext (funext fun c => ?_) rfl rfl
  by_cases hc : c = clientId
  · subst hc
    simp [view, View.setToken]
  · simp [view, View.setToken, AList.lookup_insert_ne hc, Function.update_of_ne hc]

theorem sound_insert (hs : s.Sound) {record : TokenRecord} (hrecord : record.clientId = clientId)
    (hmax : record.generation ≤ int64Max) :
    Sound { s with tokens := s.tokens.insert clientId record } := by
  refine ⟨fun c r hr => ?_, hs.counter⟩
  by_cases hc : c = clientId
  · subst hc
    simp only [AList.lookup_insert, Option.some.injEq] at hr
    exact hr ▸ ⟨hrecord, hmax⟩
  · rw [AList.lookup_insert_ne hc] at hr
    exact hs.record c r hr

theorem sound_update (hs : s.Sound) {counter : Option MemoryAuthFailure}
    (hcounter : ∀ f, counter = some f → int64Min ≤ f.count ∧ f.count ≤ int64Max) :
    Sound { s with authFailures := Function.update s.authFailures clientId counter } := by
  refine ⟨hs.record, fun c f hf => ?_⟩
  by_cases hc : c = clientId
  · subst hc
    exact hcounter f (by simpa using hf)
  · exact hs.counter c f (by simpa [Function.update_of_ne hc] using hf)

theorem verifyDigest_eq (s : MemoryStore) (clientId digest : Bytes) (now : ℤ) :
    verifyDigest clientId digest now s = (.ok (s.view.decision clientId digest), s) := by
  simp only [verifyDigest, View.decision, view_token]
  cases s.tokens.lookup clientId with
  | none => rfl
  | some record =>
      simp only
      split
      · rfl
      · split <;> rfl

theorem authFailureLimited_eq (s : MemoryStore) (clientId : Bytes) (limit now : ℤ) :
    (authFailureLimited clientId limit now s).1 = .ok (s.view.limited now clientId limit) := by
  simp only [authFailureLimited, View.limited, View.live, view_failure]
  cases s.authFailures clientId with
  | none => rfl
  | some counter =>
      simp only
      split
      · next hlive =>
          rw [Option.filter_some_pos (by simpa using hlive)]
      · next hexpired =>
          rw [Option.filter_some_neg (by simpa using hexpired)]

theorem authFailureLimited_kept (s : MemoryStore) (clientId : Bytes) (limit now : ℤ) :
    (authFailureLimited clientId limit now s).2.tokens = s.tokens ∧
      (authFailureLimited clientId limit now s).2.config = s.config ∧
      ∀ c, (authFailureLimited clientId limit now s).2.authFailures c = s.authFailures c ∨
        (authFailureLimited clientId limit now s).2.authFailures c = none ∧
          s.view.live now c = none := by
  unfold authFailureLimited
  cases hcounter : s.authFailures clientId with
  | none => exact ⟨rfl, rfl, fun c => .inl rfl⟩
  | some counter =>
      simp only
      split
      · exact ⟨rfl, rfl, fun c => .inl rfl⟩
      · next hexpired =>
          refine ⟨rfl, rfl, fun c => ?_⟩
          by_cases hc : c = clientId
          · subst hc
            exact .inr ⟨Function.update_self .., by simpa [View.live, hcounter] using hexpired⟩
          · exact .inl (Function.update_of_ne hc ..)

theorem failureBase_live {counter : MemoryAuthFailure} {window : ℤ}
    (h : s.view.live now clientId = some counter) :
    s.failureBase clientId window now = counter := by
  obtain ⟨hcounter, hlive⟩ := View.live_eq_some.mp h
  have hcounter : s.authFailures clientId = some counter := hcounter
  simp [failureBase, hcounter, hlive]

theorem failureBase_expired {window : ℤ} (h : s.view.live now clientId = none) :
    s.failureBase clientId window now = ⟨0, now + window⟩ := by
  have hlive : (s.authFailures clientId).filter (fun counter => now < counter.expiresAt) = none := h
  unfold failureBase
  cases hcounter : s.authFailures clientId with
  | none => rfl
  | some counter =>
      rw [hcounter] at hlive
      have hexpired : ¬now < counter.expiresAt := by simpa using hlive
      simp [hexpired]

section Laws

variable (platform : Platform) (policy : AuthFailurePolicy)

theorem verifyDigest_lawful (clientId digest : Bytes) :
    Lawful .memory platform policy view Sound (verifyDigest clientId digest)
      (.verifyDigest clientId digest) := by
  intro now s hs
  rw [verifyDigest_eq]
  exact ⟨hs, .verify⟩

theorem authFailureLimited_lawful (clientId : Bytes) :
    Lawful .memory platform policy view Sound (authFailureLimited clientId policy.limit)
      (.authFailureLimited clientId) := by
  intro now s hs
  obtain ⟨htokens, hconfig, hfailure⟩ := authFailureLimited_kept s clientId policy.limit now
  rw [authFailureLimited_eq]
  refine ⟨⟨fun c r hr => hs.record c r (htokens ▸ hr), fun c f hf => ?_⟩, .limited ?_ ?_ hfailure⟩
  · rcases hfailure c with hkept | ⟨hremoved, -⟩
    · exact hs.counter c f (hkept ▸ hf)
    · cases hremoved.symm.trans hf
  · funext c
    rw [view_token, view_token, htokens]
  · rw [view_config, view_config, hconfig]

theorem recordAuthFailure_lawful (clientId : Bytes) :
    Lawful .memory platform policy view Sound (recordAuthFailure clientId policy.window)
      (.recordAuthFailure clientId) := by
  intro now s hs
  refine ⟨sound_update hs fun f hf => Option.some.inj hf ▸ wrapInt64_range _, ?_⟩
  unfold recordAuthFailure
  cases hlive : s.view.live now clientId with
  | none =>
      rw [failureBase_expired hlive]
      exact .recordFirst hlive
  | some counter =>
      rw [failureBase_live hlive]
      have hmin := (hs.counter clientId counter (View.live_eq_some.mp hlive).1).1
      by_cases hcount : counter.count < int64Max
      · have hwrap : wrapInt64 (counter.count + 1) = counter.count + 1 :=
          wrapInt64_of_range (by omega) (Int.add_one_le_of_lt hcount)
        simp only [hwrap]
        exact .recordNext hlive hcount
      · exact .recordOverflow hlive (not_lt.mp hcount)

theorem clearAuthFailures_lawful (clientId : Bytes) :
    Lawful .memory platform policy view Sound (clearAuthFailures clientId)
      (.clearAuthFailures clientId) :=
  fun _ _ hs => ⟨sound_update hs nofun, .clear⟩

theorem createToken_lawful {record : TokenRecord} (hnew : record.New) :
    Lawful .memory platform policy view Sound (createToken record) (.createToken record) := by
  intro now s hs
  unfold createToken
  cases htoken : s.tokens.lookup record.clientId with
  | none =>
      refine ⟨sound_insert hs rfl (hnew.generation.trans_le (by decide)), ?_⟩
      simp only [view_insert]
      exact .create hnew htoken
  | some old => exact ⟨hs, .createExists htoken⟩

theorem rotateToken_lawful {clientId : Bytes} {expected : ℤ} (hpos : 0 < expected)
    (digest updatedAt : Bytes) :
    Lawful .memory platform policy view Sound (rotateToken clientId expected digest updatedAt)
      (.rotateToken clientId expected) := by
  intro now s hs
  unfold rotateToken
  cases htoken : s.tokens.lookup clientId with
  | none => exact ⟨hs, .rotateMissing htoken⟩
  | some record =>
      obtain ⟨hclient, -⟩ := hs.record clientId record htoken
      simp only
      split
      · next hexpected => exact ⟨hs, .rotateConflict htoken hexpected⟩
      · next hexpected =>
          refine ⟨sound_insert hs hclient (wrapInt64_range _).2, ?_⟩
          simp only [view_insert]
          exact .rotate htoken hpos (not_not.mp hexpected) hclient rfl

theorem disableToken_lawful (clientId updatedAt : Bytes) :
    Lawful .memory platform policy view Sound (disableToken clientId updatedAt)
      (.disableToken clientId) := by
  intro now s hs
  unfold disableToken
  cases htoken : s.tokens.lookup clientId with
  | none => exact ⟨hs, .disableMissing htoken⟩
  | some record =>
      obtain ⟨hclient, hmax⟩ := hs.record clientId record htoken
      refine ⟨sound_insert hs hclient hmax, ?_⟩
      simp only [view_insert]
      exact .disable htoken

theorem mem_entries {s : MemoryStore} (hs : s.Sound) {entry : TokenEntry} :
    entry ∈ s.entries ↔
      ∃ record, s.tokens.lookup entry.clientId = some record ∧ record.toTokenEntry = entry := by
  simp only [entries, List.mem_insertionSort, List.mem_map]
  constructor
  · rintro ⟨⟨clientId, record⟩, hmem, rfl⟩
    have hlookup : s.tokens.lookup clientId = some record :=
      AList.mem_lookup_iff.mpr hmem
    exact ⟨record, (hs.record clientId record hlookup).1.symm ▸ hlookup, rfl⟩
  · rintro ⟨record, hlookup, hentry⟩
    exact ⟨⟨entry.clientId, record⟩, AList.mem_lookup_iff.mp hlookup, hentry⟩

theorem listTokens_lawful : Lawful .memory platform policy view Sound listTokens .listTokens :=
  fun _ _ hs => ⟨hs, .list fun _ hentry => (mem_entries hs).mp hentry⟩

theorem getConfig_lawful : Lawful .memory platform policy view Sound getConfig .getConfig :=
  fun _ _ hs => ⟨hs, .getConfig rfl⟩

theorem updateConfig_lawful {req : ConfigUpdateRequest}
    (hvalid : validateConfigUpdate platform req = none) (expected : ℤ) :
    Lawful .memory platform policy view Sound (updateConfig platform expected req)
      (.updateConfig expected req) := by
  intro now s hs
  unfold updateConfig
  split
  · next hexpected =>
      exact ⟨hs, .updateConflict fun config hconfig => Option.some.inj hconfig ▸ hexpected⟩
  · next hexpected =>
      exact ⟨⟨hs.record, hs.counter⟩, .updateConfig rfl (not_not.mp hexpected) hvalid⟩

end Laws

end MemoryStore

end App

end GatewaySystem
