import GatewaySystem.App.ControlPlane

/-!
# The life of a token

Any number of clients call the operations of a store on tokens, each of which is
one access. A `Ledger` is the store and the operations so far with their
results, newest first. `TokenStep` says what an operation can do to the
contents, for either store; along a run it keeps `Lifecycle`, which reads the
record of a client off the ledger: it was created once, each rotation produced
the next generation, and the digest that opens it is the one installed last.
-/

namespace GatewaySystem

namespace App

inductive TokenOp where
  | create (clientId digest createdAt : Bytes)
  | rotate (clientId : Bytes) (expected : ℤ) (digest updatedAt : Bytes)
  | disable (clientId updatedAt : Bytes)
  | verify (clientId digest : Bytes)
  deriving DecidableEq

inductive TokenResult where
  | created
  | rotated (generation : ℤ)
  | disabled
  | decided (decision : TokenAuthDecision)
  | failed (error : StoreError)
  deriving DecidableEq

def TokenOp.clientId : TokenOp → Bytes
  | create clientId _ _ => clientId
  | rotate clientId _ _ _ => clientId
  | disable clientId _ => clientId
  | verify clientId _ => clientId

/-- The record that `handleTokensUpsert` creates. -/
def newRecord (clientId digest createdAt : Bytes) : TokenRecord where
  clientId := clientId
  generation := 1
  createdAt := createdAt
  updatedAt := createdAt
  disabled := false
  digest := digest

/-- The result of an access as an operation reports it. -/
def reported {σ α : Type} (report : α → TokenResult) :
    Except StoreError α × σ → TokenResult × σ
  | (.ok value, s) => (report value, s)
  | (.error error, s) => (.failed error, s)

/-- One operation on the store. -/
def StoreBackend.execute (b : StoreBackend) (platform : Platform) (op : TokenOp) (now : ℤ)
    (s : b.State) : TokenResult × b.State :=
  match op with
  | .create clientId digest createdAt =>
      reported (fun _ => .created)
        ((b.store platform).createToken (newRecord clientId digest createdAt) now s)
  | .rotate clientId expected digest updatedAt =>
      reported (fun record => .rotated record.generation)
        ((b.store platform).rotateToken clientId expected digest updatedAt now s)
  | .disable clientId updatedAt =>
      reported (fun _ => .disabled) ((b.store platform).disableToken clientId updatedAt now s)
  | .verify clientId digest =>
      reported .decided ((b.store platform).verifyDigest clientId digest now s)

/-- What an operation does to the contents of a store. -/
inductive TokenStep (v : View) : TokenOp → TokenResult → View → Prop
  | create {clientId digest createdAt : Bytes} (h : v.token clientId = none) :
      TokenStep v (.create clientId digest createdAt) .created
        (v.setToken clientId (newRecord clientId digest createdAt))
  | rotate {clientId digest updatedAt : Bytes} {expected : ℤ} {record : TokenRecord}
      (h : v.token clientId = some record) :
      TokenStep v (.rotate clientId expected digest updatedAt) (.rotated (record.generation + 1))
        (v.setToken clientId
          { record with
            generation := record.generation + 1
            digest := digest
            updatedAt := updatedAt
            disabled := false })
  | disable {clientId updatedAt : Bytes} {record : TokenRecord}
      (h : v.token clientId = some record) :
      TokenStep v (.disable clientId updatedAt) .disabled
        (v.setToken clientId { record with disabled := true, updatedAt := updatedAt })
  | verify {clientId digest : Bytes} {decision : TokenAuthDecision} :
      TokenStep v (.verify clientId digest) (.decided decision) v
  | failed {op : TokenOp} {error : StoreError} : TokenStep v op (.failed error) v

/-- An operation that keeps the store sound, and what it did. -/
structure Executes (b : StoreBackend) (op : TokenOp) (s : b.State)
    (outcome : TokenResult × b.State) : Prop where
  sound : b.Sound outcome.2
  step : TokenStep (b.view s) op outcome.1 (b.view outcome.2)
  unchanged : ∀ error, outcome.1 = .failed error → outcome.2 = s

/-- Only a check may carry any name. -/
def TokenOp.named : TokenOp → Bool
  | create clientId _ _ => validTokenClientId clientId
  | rotate clientId _ _ _ => validTokenClientId clientId
  | disable clientId _ => validTokenClientId clientId
  | verify _ _ => true

/-- What is assumed of an operation: its name, and that the record it meets has a
generation whose successor is a double. -/
structure Admissible (b : StoreBackend) (s : b.State) (op : TokenOp) : Prop where
  named : op.named = true
  small : ∀ record ∈ (b.view s).token op.clientId, record.generation < 2 ^ 53

instance (b : StoreBackend) (s : b.State) (op : TokenOp) : Decidable (Admissible b s op) :=
  decidable_of_iff (op.named = true ∧
      ∀ record ∈ (b.view s).token op.clientId, record.generation < 2 ^ 53)
    ⟨fun h => ⟨h.1, h.2⟩, fun h => ⟨h.named, h.small⟩⟩

section Execute

variable {b : StoreBackend} {platform : Platform} {now : ℤ} {op : TokenOp} {s : b.State}

theorem newRecord_new {clientId : Bytes} (h : validTokenClientId clientId = true)
    (digest createdAt : Bytes) : (newRecord clientId digest createdAt).New :=
  ⟨h, rfl, rfl, rfl⟩

theorem executes_failed (hs : b.Sound s) (error : StoreError) :
    Executes b op s (.failed error, s) :=
  ⟨hs, .failed, fun _ _ => rfl⟩

theorem executes_decided (hs : b.Sound s) (clientId digest : Bytes) (decision : TokenAuthDecision) :
    Executes b (.verify clientId digest) s (.decided decision, s) :=
  ⟨hs, .verify, nofun⟩

theorem memory_executes {s : MemoryStore} (hs : s.Sound)
    (hmin : ∀ record, s.tokens.lookup op.clientId = some record → 1 ≤ record.generation)
    (hop : Admissible .memory s op) :
    Executes .memory op s (StoreBackend.memory.execute platform op now s) := by
  cases op with
  | create clientId digest createdAt =>
      change Executes .memory _ s (reported _ (MemoryStore.createToken
        (newRecord clientId digest createdAt) now s))
      rw [MemoryStore.createToken]
      cases htoken : s.tokens.lookup (newRecord clientId digest createdAt).clientId with
      | some old => exact executes_failed (b := .memory) hs _
      | none =>
          refine ⟨MemoryStore.sound_insert hs rfl (by decide : (1 : ℤ) ≤ int64Max),
            ?_, by rintro _ ⟨⟩⟩
          simp only [reported, StoreBackend.view, MemoryStore.view_insert]
          exact .create htoken
  | rotate clientId expected digest updatedAt =>
      change Executes .memory _ s (reported _ (MemoryStore.rotateToken clientId expected digest
        updatedAt now s))
      rw [MemoryStore.rotateToken]
      cases htoken : s.tokens.lookup clientId with
      | none => exact executes_failed (b := .memory) hs _
      | some record =>
          have hnext : wrapInt64 (record.generation + 1) = record.generation + 1 :=
            StoreBackend.next_of_lt .memory (hmin record htoken) (hop.small record htoken)
          have hsmall := hop.small record htoken
          obtain ⟨hclient, -⟩ := hs.record clientId record htoken
          simp only [hnext]
          split
          · exact executes_failed (b := .memory) hs _
          · refine ⟨MemoryStore.sound_insert hs hclient ?_, ?_, by rintro _ ⟨⟩⟩
            · simp only [int64Max]
              omega
            · simp only [reported, StoreBackend.view, MemoryStore.view_insert]
              exact .rotate htoken
  | disable clientId updatedAt =>
      change Executes .memory _ s (reported _ (MemoryStore.disableToken clientId updatedAt now s))
      rw [MemoryStore.disableToken]
      cases htoken : s.tokens.lookup clientId with
      | none => exact executes_failed (b := .memory) hs _
      | some record =>
          obtain ⟨hclient, hmax⟩ := hs.record clientId record htoken
          refine ⟨MemoryStore.sound_insert hs hclient hmax, ?_, by rintro _ ⟨⟩⟩
          simp only [reported, StoreBackend.view, MemoryStore.view_insert]
          exact .disable htoken
  | verify clientId digest =>
      change Executes .memory _ s (reported _ (MemoryStore.verifyDigest clientId digest now s))
      rw [MemoryStore.verifyDigest_eq]
      exact executes_decided (b := .memory) hs clientId digest _

/-- A check leaves the keys of Redis alone, whatever its name. -/
theorem redis_verify_executes {k : Redis.Keyspace} (hk : RedisStore.Sound k)
    (clientId digest : Bytes) :
    Executes .redis (.verify clientId digest) k
      (reported .decided (RedisStore.verifyDigest clientId digest now k)) := by
  by_cases hclient : clientId = reservedClientId
  · subst hclient
    by_cases hempty : ∀ clientId, (RedisStore.view k).token clientId = none
    · rw [RedisStore.verifyDigest_reserved_missing hk hempty]
      exact executes_decided (b := .redis) hk _ digest _
    · obtain ⟨other, hother⟩ := not_forall.mp hempty
      obtain ⟨record, hrecord⟩ := Option.ne_none_iff_exists'.mp hother
      rw [RedisStore.verifyDigest_reserved hk hrecord]
      exact executes_failed (b := .redis) hk _
  · rw [RedisStore.verifyDigest_eq hk hclient]
    exact executes_decided (b := .redis) hk clientId digest _

theorem redis_executes {k : Redis.Keyspace} (hk : RedisStore.Sound k)
    (hop : Admissible .redis k op) :
    Executes .redis op k (StoreBackend.redis.execute platform op now k) := by
  cases op with
  | create clientId digest createdAt =>
      have hvalid : validTokenClientId clientId = true := hop.named
      change Executes .redis _ k (reported _ (RedisStore.createToken
        (newRecord clientId digest createdAt) now k))
      cases htoken : (RedisStore.view k).token (newRecord clientId digest createdAt).clientId with
      | some old =>
          rw [RedisStore.createToken_exists hk htoken]
          exact executes_failed (b := .redis) hk _
      | none =>
          have hnew := newRecord_new hvalid digest createdAt
          obtain ⟨k', hrun, hk'⟩ := RedisStore.createToken_eq hk hnew htoken
          rw [hrun]
          refine ⟨hk'.sound, ?_, by rintro _ ⟨⟩⟩
          simp only [reported, StoreBackend.view, hk'.view_eq]
          exact .create htoken
  | rotate clientId expected digest updatedAt =>
      have hvalid : validTokenClientId clientId = true := hop.named
      change Executes .redis _ k (reported _ (RedisStore.rotateToken clientId expected digest
        updatedAt now k))
      cases htoken : (RedisStore.view k).token clientId with
      | none =>
          rw [RedisStore.rotateToken_missing hk (ne_reserved_of_valid hvalid) htoken]
          exact executes_failed (b := .redis) hk _
      | some record =>
          by_cases hexpected : StoreBackend.redis.agrees record.generation expected
          · obtain ⟨hname, hmin, hmax⟩ := hk.record clientId record htoken
            obtain ⟨hnext, hnext'⟩ := RedisStore.next_range hmin hmax
            have hk' : RedisStore.Represents ((RedisStore.view k).setToken clientId
                (record.rotated .redis digest updatedAt)) _ :=
              hk.set_token htoken hname hnext hnext'
            have hgeneration := StoreBackend.next_of_lt .redis hmin (hop.small record htoken)
            rw [RedisStore.rotateToken_eq hk htoken hexpected]
            refine ⟨hk'.sound, ?_, by rintro _ ⟨⟩⟩
            simp only [reported, StoreBackend.view, hk'.view_eq]
            simp only [TokenRecord.rotated, hgeneration]
            exact .rotate htoken
          · rw [RedisStore.rotateToken_conflict hk htoken hexpected]
            exact executes_failed (b := .redis) hk _
  | disable clientId updatedAt =>
      have hvalid : validTokenClientId clientId = true := hop.named
      change Executes .redis _ k (reported _ (RedisStore.disableToken clientId updatedAt now k))
      cases htoken : (RedisStore.view k).token clientId with
      | none =>
          rw [RedisStore.disableToken_missing hk (ne_reserved_of_valid hvalid) htoken]
          exact executes_failed (b := .redis) hk _
      | some record =>
          obtain ⟨hname, hmin, hmax⟩ := hk.record clientId record htoken
          have hk' : RedisStore.Represents ((RedisStore.view k).setToken clientId
              { record with disabled := true, updatedAt := updatedAt }) _ :=
            hk.set_token htoken hname hmin hmax
          rw [RedisStore.disableToken_eq hk htoken]
          refine ⟨hk'.sound, ?_, by rintro _ ⟨⟩⟩
          simp only [reported, StoreBackend.view, hk'.view_eq]
          exact .disable htoken
  | verify clientId digest => exact redis_verify_executes hk clientId digest

theorem executes (hs : b.Sound s)
    (hmin : ∀ record ∈ (b.view s).token op.clientId, 1 ≤ record.generation)
    (hop : Admissible b s op) : Executes b op s (b.execute platform op now s) := by
  cases b with
  | memory => exact memory_executes hs hmin hop
  | redis => exact redis_executes hs hop

/-- A name that is taken. -/
theorem execute_create_exists (hs : b.Sound s) {clientId : Bytes} {record : TokenRecord}
    (htoken : (b.view s).token clientId = some record) (digest createdAt : Bytes) :
    b.execute platform (.create clientId digest createdAt) now s = (.failed .tokenExists, s) := by
  cases b with
  | memory =>
      have htoken : s.tokens.lookup (newRecord clientId digest createdAt).clientId =
          some record := htoken
      change reported _ (MemoryStore.createToken (newRecord clientId digest createdAt) now s) = _
      rw [MemoryStore.createToken, htoken]
      rfl
  | redis =>
      have htoken : (RedisStore.view s).token (newRecord clientId digest createdAt).clientId =
          some record := htoken
      change reported _ (RedisStore.createToken (newRecord clientId digest createdAt) now s) = _
      rw [RedisStore.createToken_exists hs htoken]
      rfl

theorem execute_verify (hs : b.Sound s) {clientId : Bytes}
    (hvalid : validTokenClientId clientId = true) (digest : Bytes) :
    b.execute platform (.verify clientId digest) now s =
      (.decided ((b.view s).decision clientId digest), s) := by
  cases b with
  | memory =>
      change reported _ (MemoryStore.verifyDigest clientId digest now s) = _
      rw [MemoryStore.verifyDigest_eq]
      rfl
  | redis =>
      change reported _ (RedisStore.verifyDigest clientId digest now s) = _
      rw [RedisStore.verifyDigest_eq hs (ne_reserved_of_valid hvalid)]
      rfl

end Execute

theorem View.decision_allowed {v : View} {clientId digest : Bytes} :
    v.decision clientId digest = .allowed ↔
      ∃ record, v.token clientId = some record ∧ record.disabled = false ∧
        record.digest = digest := by
  unfold View.decision
  cases v.token clientId with
  | none => simp
  | some record =>
      cases hdisabled : record.disabled with
      | true => simp [hdisabled]
      | false =>
          by_cases hdigest : record.digest = digest <;> simp [hdisabled, digestEqual, hdigest]

/-- A store and the completed operations with their results, newest first. -/
structure Ledger (b : StoreBackend) where
  store : b.State
  log : List (TokenOp × TokenResult)

namespace Ledger

abbrev Entry := TokenOp × TokenResult

def creates (clientId : Bytes) : Entry → Bool
  | (.create c _ _, .created) => c = clientId
  | _ => false

def rotates (clientId : Bytes) : Entry → Bool
  | (.rotate c _ _ _, .rotated _) => c = clientId
  | _ => false

def produces (clientId : Bytes) (generation : ℤ) : Entry → Bool
  | (.rotate c _ _ _, .rotated g) => c = clientId && g = generation
  | _ => false

/-- The digest that an operation installed for the client. -/
def installs (clientId : Bytes) : Entry → Option Bytes
  | (.create c digest _, .created) => if c = clientId then some digest else none
  | (.rotate c _ digest _, .rotated _) => if c = clientId then some digest else none
  | _ => none

def disables (clientId : Bytes) : Entry → Bool
  | (.disable c _, .disabled) => c = clientId
  | _ => false

/-- The last create or rotate of the client installed the digest, and no disable
came later. -/
inductive Current (clientId digest : Bytes) : List Entry → Prop
  | installed {entry : Entry} {log : List Entry}
      (h : installs clientId entry = some digest) : Current clientId digest (entry :: log)
  | later {entry : Entry} {log : List Entry} (hinstalls : installs clientId entry = none)
      (hdisables : disables clientId entry = false) (h : Current clientId digest log) :
      Current clientId digest (entry :: log)

/-- What the log says about the record of a client. -/
structure Lifecycle (clientId : Bytes) (token : Option TokenRecord) (log : List Entry) :
    Prop where
  created : log.countP (creates clientId) = if token.isSome then 1 else 0
  unrotated : token = none → log.countP (rotates clientId) = 0
  generation : ∀ record ∈ token, record.generation = 1 + log.countP (rotates clientId)
  produced : ∀ generation, log.countP (produces clientId generation) =
    if 2 ≤ generation ∧ generation ≤ 1 + log.countP (rotates clientId) then 1 else 0
  current : ∀ digest, Current clientId digest log ↔
    ∃ record, token = some record ∧ record.disabled = false ∧ record.digest = digest

/-- An entry that says nothing about the client. -/
@[mk_iff]
structure Silent (clientId : Bytes) (entry : Entry) : Prop where
  creates : creates clientId entry = false
  rotates : rotates clientId entry = false
  installs : installs clientId entry = none
  disables : disables clientId entry = false

section Entries

variable {clientId digest : Bytes} {token : Option TokenRecord} {entry : Entry} {log : List Entry}

theorem not_produces (h : rotates clientId entry = false) (generation : ℤ) :
    ¬produces clientId generation entry = true := by
  revert h
  fun_cases rotates clientId entry with
  | case1 c expected digest updatedAt g =>
      intro h
      simp [produces, of_decide_eq_false h]
  | case2 entry hentry =>
      unfold produces
      split
      · exact absurd rfl (hentry _ _ _ _ _)
      · simp

theorem current_cons_installed {d : Bytes} (h : installs clientId entry = some d) :
    Current clientId digest (entry :: log) ↔ d = digest := by
  constructor
  · rintro (hd | ⟨hnone, -, -⟩)
    · exact Option.some.inj (h.symm.trans hd)
    · cases h.symm.trans hnone
  · rintro rfl
    exact .installed h

theorem not_current_disabled (hinstalls : installs clientId entry = none)
    (hdisables : disables clientId entry = true) : ¬Current clientId digest (entry :: log) := by
  rintro (hd | ⟨-, hfalse, -⟩)
  · cases hinstalls.symm.trans hd
  · cases hdisables.symm.trans hfalse

theorem Silent.current_cons (h : Silent clientId entry) :
    Current clientId digest (entry :: log) ↔ Current clientId digest log := by
  constructor
  · rintro (hd | ⟨-, -, hlog⟩)
    · cases h.installs.symm.trans hd
    · exact hlog
  · exact .later h.installs h.disables

theorem lifecycle_nil : Lifecycle clientId none [] := by
  refine ⟨rfl, fun _ => rfl, nofun, fun generation => ?_, fun digest => ⟨nofun, nofun⟩⟩
  rw [if_neg]
  · rfl
  · rw [List.countP_nil]
    omega

namespace Lifecycle

theorem silent (h : Lifecycle clientId token log) (hentry : Silent clientId entry) :
    Lifecycle clientId token (entry :: log) := by
  have hcreates : ¬creates clientId entry = true := by simp [hentry.creates]
  have hrotates : ¬rotates clientId entry = true := by simp [hentry.rotates]
  refine ⟨?_, ?_, ?_, fun generation => ?_, fun digest => ?_⟩
  · rw [List.countP_cons_of_neg hcreates, h.created]
  · rw [List.countP_cons_of_neg hrotates]
    exact h.unrotated
  · rw [List.countP_cons_of_neg hrotates]
    exact h.generation
  · rw [List.countP_cons_of_neg hrotates,
      List.countP_cons_of_neg (not_produces hentry.rotates generation)]
    exact h.produced generation
  · exact hentry.current_cons.trans (h.current digest)

theorem create (h : Lifecycle clientId none log) (digest createdAt : Bytes) :
    Lifecycle clientId (some (newRecord clientId digest createdAt))
      ((.create clientId digest createdAt, .created) :: log) := by
  have hentry : creates clientId (.create clientId digest createdAt, .created) = true := by
    simp [creates]
  have hinstalls : installs clientId (.create clientId digest createdAt, .created) =
      some digest := by simp [installs]
  have hrotates : ¬rotates clientId (.create clientId digest createdAt, .created) = true := by
    simp [rotates]
  refine ⟨?_, nofun, ?_, fun generation => ?_, fun d => ?_⟩
  · rw [List.countP_cons_of_pos hentry, h.created]
    rfl
  · rintro record ⟨⟩
    rw [List.countP_cons_of_neg hrotates, h.unrotated rfl]
    rfl
  · rw [List.countP_cons_of_neg hrotates, List.countP_cons_of_neg (by simp [produces])]
    exact h.produced generation
  · rw [current_cons_installed hinstalls]
    simp [newRecord]

theorem rotate {record : TokenRecord} (h : Lifecycle clientId (some record) log)
    (expected : ℤ) (digest updatedAt : Bytes) :
    Lifecycle clientId
      (some { record with
        generation := record.generation + 1
        digest := digest
        updatedAt := updatedAt
        disabled := false })
      ((.rotate clientId expected digest updatedAt, .rotated (record.generation + 1)) :: log) := by
  have hgeneration := h.generation record rfl
  have hinstalls : installs clientId (.rotate clientId expected digest updatedAt,
      .rotated (record.generation + 1)) = some digest := by simp [installs]
  have hrotates : rotates clientId (.rotate clientId expected digest updatedAt,
      .rotated (record.generation + 1)) = true := by simp [rotates]
  refine ⟨?_, nofun, ?_, fun generation => ?_, fun d => ?_⟩
  · rw [List.countP_cons_of_neg (by simp [creates]), h.created]
    rfl
  · rintro record' ⟨⟩
    rw [List.countP_cons_of_pos hrotates]
    push_cast
    omega
  · have hproduced := h.produced generation
    rw [List.countP_cons_of_pos hrotates]
    by_cases hnew : record.generation + 1 = generation
    · rw [List.countP_cons_of_pos (by simp [produces, hnew]), hproduced, if_neg (by omega),
        if_pos (by push_cast; omega)]
    · rw [List.countP_cons_of_neg (by simp [produces, hnew]), hproduced]
      refine if_congr ?_ rfl rfl
      push_cast
      omega
  · rw [current_cons_installed hinstalls]
    simp

theorem disable {record : TokenRecord} (h : Lifecycle clientId (some record) log)
    (updatedAt : Bytes) :
    Lifecycle clientId (some { record with disabled := true, updatedAt := updatedAt })
      ((.disable clientId updatedAt, .disabled) :: log) := by
  refine ⟨?_, nofun, ?_, fun generation => ?_, fun d => ?_⟩
  · rw [List.countP_cons_of_neg (by simp [creates]), h.created]
    rfl
  · rintro record' ⟨⟩
    rw [List.countP_cons_of_neg (by simp [rotates])]
    exact h.generation record rfl
  · rw [List.countP_cons_of_neg (by simp [produces]), List.countP_cons_of_neg (by simp [rotates])]
    exact h.produced generation
  · refine iff_of_false (not_current_disabled rfl (by simp [disables])) ?_
    rintro ⟨record', ⟨⟩, hdisabled, -⟩
    cases hdisabled

end Lifecycle

end Entries

theorem silent_verify (clientId c digest : Bytes) (result : TokenResult) :
    Silent clientId (.verify c digest, result) := by
  cases result <;> exact ⟨rfl, rfl, rfl, rfl⟩

theorem silent_failed (clientId : Bytes) (op : TokenOp) (error : StoreError) :
    Silent clientId (op, .failed error) := by
  cases op <;> exact ⟨rfl, rfl, rfl, rfl⟩

/-- An operation on one client says nothing about another. -/
theorem silent_of_ne {clientId : Bytes} {op : TokenOp} (h : op.clientId ≠ clientId)
    (result : TokenResult) : Silent clientId (op, result) := by
  cases op <;> cases result <;>
    simp_all [TokenOp.clientId, silent_iff, creates, rotates, installs, disables]

theorem Lifecycle.step {v v' : View} {op : TokenOp} {result : TokenResult} {log : List Entry}
    {clientId : Bytes} (hstep : TokenStep v op result v')
    (h : Lifecycle clientId (v.token clientId) log) :
    Lifecycle clientId (v'.token clientId) ((op, result) :: log) := by
  by_cases hclient : op.clientId = clientId
  · subst hclient
    cases hstep with
    | create htoken =>
        rw [TokenOp.clientId, htoken] at h
        simpa [View.setToken, TokenOp.clientId] using h.create _ _
    | rotate htoken =>
        rw [TokenOp.clientId, htoken] at h
        simpa [View.setToken, TokenOp.clientId] using h.rotate _ _ _
    | disable htoken =>
        rw [TokenOp.clientId, htoken] at h
        simpa [View.setToken, TokenOp.clientId] using h.disable _
    | verify => exact h.silent (silent_verify _ _ _ _)
    | failed => exact h.silent (silent_failed _ _ _)
  · have htoken : v'.token clientId = v.token clientId := by
      cases hstep with
      | create => exact Function.update_of_ne (Ne.symm hclient) ..
      | rotate => exact Function.update_of_ne (Ne.symm hclient) ..
      | disable => exact Function.update_of_ne (Ne.symm hclient) ..
      | verify => rfl
      | failed => rfl
    rw [htoken]
    exact h.silent (silent_of_ne hclient result)

/-- The operations of any number of clients, each at some time. -/
def system (b : StoreBackend) (platform : Platform) :
    Transition.System (Ledger b) (ℤ × TokenOp) where
  init := fun l => l = ⟨b.fresh, []⟩
  step := fun l (now, op) =>
    let (result, store) := b.execute platform op now l.store
    some ⟨store, (op, result) :: l.log⟩

variable {b : StoreBackend} {platform : Platform} {l : Ledger b}

/-- The states reached by operations that are admissible. -/
def Reached (b : StoreBackend) (platform : Platform) : Ledger b → Prop :=
  Transition.ReachableBy (system b platform) fun l a => Admissible b l.store a.2

structure Kept (l : Ledger b) : Prop where
  sound : b.Sound l.store
  lifecycle : ∀ clientId, Lifecycle clientId ((b.view l.store).token clientId) l.log

theorem Kept.executes (platform : Platform) (h : Kept l) {op : TokenOp}
    (hop : Admissible b l.store op) (now : ℤ) :
    Executes b op l.store (b.execute platform op now l.store) := by
  refine App.executes h.sound (fun record hrecord => ?_) hop
  have hgeneration := (h.lifecycle op.clientId).generation record hrecord
  omega

theorem Reached.kept (h : Reached b platform l) : Kept l := by
  refine Transition.ReachableBy.invariant ?_ ?_ h
  · rintro l rfl
    obtain ⟨hsound, hview⟩ := b.fresh_sound
    refine ⟨hsound, fun clientId => ?_⟩
    have htoken : (b.view b.fresh).token clientId = none := by
      rw [hview]
      cases b <;> rfl
    rw [htoken]
    exact lifecycle_nil
  · rintro l ⟨now, op⟩ l' - hl hop ⟨⟩
    obtain ⟨hsound, hstep, -⟩ := hl.executes platform hop now
    exact ⟨hsound, fun clientId => (hl.lifecycle clientId).step hstep⟩

end Ledger

namespace Sample

/-- Two rotations of a new token that expect the same generation. -/
def raced : Ledger .redis :=
  ((Ledger.system .redis plainPlatform).runBy (fun l a => Admissible .redis l.store a.2)
    ⟨StoreBackend.redis.fresh, []⟩
    [(0, .create client (text "a") (text "0")), (1, .rotate client 1 (text "b") (text "1")),
      (1, .rotate client 1 (text "c") (text "1"))]).get (by decide +kernel)

theorem raced_reached : Ledger.Reached .redis plainPlatform raced :=
  Transition.System.runBy_reachable (.init rfl) (Option.some_get _).symm

end Sample

end App

end GatewaySystem
