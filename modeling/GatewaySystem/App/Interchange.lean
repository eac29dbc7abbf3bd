import GatewaySystem.App.ControlPlane
import Mathlib

/-!
# The two stores under one sequence of requests

Requests arrive one after another, and the memory store and the Redis store are
given the same requests, clock and generated tokens. `Alike` relates the two: the
same tokens, the same counters among those that have not expired. Every request
keeps it and is answered alike, except for a check of the name under whose key
Redis keeps the index, and for a rotation of the generation that has no successor
among the doubles.
-/

namespace GatewaySystem

namespace App

/-- The memory store `s` and the keyspace `k`, whose contents are `v`, at a time. -/
structure Alike (now : ℤ) (s : MemoryStore) (v : View) (k : Redis.Keyspace) : Prop where
  represents : RedisStore.Represents v k
  token : ∀ clientId, s.tokens.lookup clientId = v.token clientId
  live : ∀ clientId, s.view.live now clientId = v.live now clientId

theorem View.live_later (v : View) {now now' : ℤ} (h : now ≤ now') (clientId : Bytes) :
    v.live now' clientId =
      (v.live now clientId).filter fun counter => now' < counter.expiresAt := by
  rw [live, live, Option.filter_filter]
  congr 1
  funext counter
  rw [← Bool.decide_and, decide_eq_decide]
  exact ⟨fun hlt => ⟨by omega, hlt⟩, fun hlt => hlt.2⟩

namespace Alike

variable {now : ℤ} {s : MemoryStore} {v : View} {k : Redis.Keyspace} {clientId : Bytes}
  {record : TokenRecord}

theorem later (h : Alike now s v k) {now' : ℤ} (hnow : now ≤ now') : Alike now' s v k :=
  ⟨h.represents, h.token, fun c => by
    rw [s.view.live_later hnow, v.live_later hnow, h.live c]⟩

theorem limited_eq (h : Alike now s v k) (clientId : Bytes) (limit : ℤ) :
    s.view.limited now clientId limit = v.limited now clientId limit := by
  rw [View.limited, View.limited, h.live]

theorem decision_eq (h : Alike now s v k) (clientId digest : Bytes) :
    s.view.decision clientId digest = v.decision clientId digest := by
  rw [View.decision, View.decision, MemoryStore.view_token, h.token]

theorem authFailureLimited (h : Alike now s v k) (clientId : Bytes) (limit : ℤ) :
    ∃ s', MemoryStore.authFailureLimited clientId limit now s =
        (.ok (v.limited now clientId limit), s') ∧
      RedisStore.authFailureLimited clientId limit now k =
        (.ok (v.limited now clientId limit), k) ∧ Alike now s' v k := by
  obtain ⟨htokens, -, hfailure⟩ := s.authFailureLimited_kept clientId limit now
  refine ⟨_, Prod.ext ?_ rfl, RedisStore.authFailureLimited_eq h.represents clientId limit,
    h.represents, fun c => by rw [htokens, h.token], fun c => ?_⟩
  · rw [s.authFailureLimited_eq, h.limited_eq]
  · rw [← h.live c, View.live, View.live, MemoryStore.view_failure, MemoryStore.view_failure]
    rcases hfailure c with hkept | ⟨hremoved, hnone⟩
    · rw [hkept]
    · rw [hremoved]
      exact hnone.symm

/-- A counter that is replaced in both stores. -/
theorem set_failure (h : Alike now s v k) (counter : Option MemoryAuthFailure)
    (hcounter : ∀ f, counter = some f → 1 ≤ f.count ∧ f.count ≤ int64Max) :
    Alike now { s with authFailures := Function.update s.authFailures clientId counter }
      (v.setFailure clientId counter)
      (k.set (RedisStore.authFailureKey clientId) (counter.map RedisStore.failureValue)) := by
  refine ⟨h.represents.set_failure clientId counter hcounter, h.token, fun c => ?_⟩
  by_cases hc : c = clientId
  · subst hc
    simp [View.live, View.setFailure]
  · have hlive := h.live c
    simpa [View.live, View.setFailure, Function.update_of_ne hc] using hlive

/-- A token that is replaced in both stores. -/
theorem set_token (h : Alike now s v k) {k' : Redis.Keyspace}
    (hk' : RedisStore.Represents (v.setToken clientId record) k') :
    Alike now { s with tokens := s.tokens.insert clientId record } (v.setToken clientId record)
      k' := by
  refine ⟨hk', fun c => ?_, h.live⟩
  by_cases hc : c = clientId
  · subst hc
    simp [View.setToken]
  · simp [View.setToken, AList.lookup_insert_ne hc, Function.update_of_ne hc, h.token]

theorem recordAuthFailure (h : Alike now s v k) {window : ℤ} (hwindow : 1000000 ∣ window)
    (hcount : ∀ counter, v.live now clientId = some counter → counter.count < int64Max) :
    ∃ count s' v' k', MemoryStore.recordAuthFailure clientId window now s = (.ok count, s') ∧
      RedisStore.recordAuthFailure clientId window now k = (.ok count, k') ∧
      Alike now s' v' k' := by
  have hlifetime : StoreBackend.redis.lifetime window = window := Int.tdiv_mul_cancel hwindow
  cases hlive : v.live now clientId with
  | none =>
      refine ⟨1, _, _, _, ?_, RedisStore.recordAuthFailure_first h.represents hlive window,
        h.set_failure (some ⟨1, now + StoreBackend.redis.lifetime window⟩) ?_⟩
      · have hbase : s.failureBase clientId window now = ⟨0, now + window⟩ :=
          MemoryStore.failureBase_expired ((h.live clientId).trans hlive)
        rw [MemoryStore.recordAuthFailure, hbase, hlifetime]
        rfl
      · rintro f ⟨⟩
        have hmax : (1 : ℤ) ≤ int64Max := by decide
        exact ⟨le_rfl, hmax⟩
  | some counter =>
      have hless := hcount counter hlive
      obtain ⟨hmin, -⟩ := h.represents.counter clientId counter (View.live_eq_some.mp hlive).1
      refine ⟨counter.count + 1, _, _, _, ?_,
        RedisStore.recordAuthFailure_next h.represents hlive hless window,
        h.set_failure (some { counter with count := counter.count + 1 }) ?_⟩
      · have hbase : s.failureBase clientId window now = counter :=
          MemoryStore.failureBase_live ((h.live clientId).trans hlive)
        have hwrap : wrapInt64 (counter.count + 1) = counter.count + 1 :=
          wrapInt64_of_range (by unfold int64Min; omega) (by omega)
        rw [MemoryStore.recordAuthFailure, hbase, hwrap]
      · rintro f ⟨⟩
        exact ⟨by simp only; omega, Int.add_one_le_of_lt hless⟩

theorem clearAuthFailures (h : Alike now s v k) (clientId : Bytes) :
    ∃ s' v' k', MemoryStore.clearAuthFailures clientId now s = (.ok (), s') ∧
      RedisStore.clearAuthFailures clientId now k = (.ok (), k') ∧ Alike now s' v' k' :=
  ⟨_, _, _, rfl, rfl, h.set_failure none nofun⟩

theorem createToken (h : Alike now s v k) (hnew : record.New) :
    ∃ result s' v' k', MemoryStore.createToken record now s = (result, s') ∧
      RedisStore.createToken record now k = (result, k') ∧ Alike now s' v' k' := by
  have htoken := h.token record.clientId
  cases hold : v.token record.clientId with
  | none =>
      rw [hold] at htoken
      obtain ⟨k', hcreate, hk'⟩ := RedisStore.createToken_eq h.represents hnew hold
      exact ⟨.ok (), _, _, k', by rw [MemoryStore.createToken, htoken], hcreate,
        h.set_token hk'⟩
  | some old =>
      rw [hold] at htoken
      exact ⟨.error .tokenExists, s, v, k, by rw [MemoryStore.createToken, htoken],
        RedisStore.createToken_exists h.represents hold, h⟩

theorem disableToken (h : Alike now s v k) (hclient : clientId ≠ reservedClientId)
    (updatedAt : Bytes) :
    ∃ result s' v' k', MemoryStore.disableToken clientId updatedAt now s = (result, s') ∧
      RedisStore.disableToken clientId updatedAt now k = (result, k') ∧ Alike now s' v' k' := by
  have htoken := h.token clientId
  cases hold : v.token clientId with
  | none =>
      rw [hold] at htoken
      exact ⟨.error .tokenNotFound, s, v, k, by rw [MemoryStore.disableToken, htoken],
        RedisStore.disableToken_missing h.represents hclient hold updatedAt, h⟩
  | some record =>
      rw [hold] at htoken
      obtain ⟨hrecord, hmin, hmax⟩ := h.represents.record clientId record hold
      exact ⟨.ok (), _, _, _, by rw [MemoryStore.disableToken, htoken],
        RedisStore.disableToken_eq h.represents hold updatedAt,
        h.set_token (h.represents.set_token hold hrecord hmin hmax)⟩

/-- A rotation below the generation without a successor: the answers agree in what
is shown of them. -/
theorem rotateToken (h : Alike now s v k) (hclient : clientId ≠ reservedClientId) {expected : ℤ}
    (hpos : 0 < expected)
    (hgeneration : ∀ record, v.token clientId = some record → record.generation = 2 ^ 53 →
      expected ≠ 2 ^ 53 ∧ expected ≠ 2 ^ 53 + 1) (digest updatedAt : Bytes) :
    ∃ result result' s' v' k',
      MemoryStore.rotateToken clientId expected digest updatedAt now s = (result, s') ∧
      RedisStore.rotateToken clientId expected digest updatedAt now k = (result', k') ∧
      result.map (fun record => (record.clientId, record.generation)) =
        result'.map (fun record => (record.clientId, record.generation)) ∧
      Alike now s' v' k' := by
  have htoken := h.token clientId
  cases hold : v.token clientId with
  | none =>
      rw [hold] at htoken
      exact ⟨.error .tokenNotFound, _, s, v, k, by rw [MemoryStore.rotateToken, htoken],
        RedisStore.rotateToken_missing h.represents hclient hold expected digest updatedAt, rfl, h⟩
  | some record =>
      rw [hold] at htoken
      obtain ⟨hrecord, hmin, hmax⟩ := h.represents.record clientId record hold
      by_cases hexpected : record.generation = expected
      · have hlt : record.generation < 2 ^ 53 := by
          rcases lt_or_eq_of_le hmax with hlt | heq
          · exact hlt
          · exact absurd (hexpected ▸ heq) (hgeneration record hold heq).1
        have hagrees : StoreBackend.redis.agrees record.generation expected :=
          hexpected.trans (Double.round_of_le hpos.le (by omega)).symm
        have hnext : StoreBackend.memory.next record.generation =
            StoreBackend.redis.next record.generation := by
          have hredis : StoreBackend.redis.next record.generation = record.generation + 1 :=
            Double.round_of_le (by omega) (by omega)
          rw [hredis]
          exact wrapInt64_of_range (by unfold int64Min; omega) (by unfold int64Max; omega)
        have hrotated : record.rotated .memory digest updatedAt =
            record.rotated .redis digest updatedAt := by
          rw [TokenRecord.rotated, TokenRecord.rotated, hnext]
        obtain ⟨hmin', hmax'⟩ := RedisStore.next_range hmin hmax
        refine ⟨.ok (record.rotated .redis digest updatedAt), _,
          { s with tokens := s.tokens.insert clientId (record.rotated .redis digest updatedAt) },
          _, _, ?_, RedisStore.rotateToken_eq h.represents hold hagrees digest updatedAt, ?_,
          h.set_token (h.represents.set_token hold hrecord hmin' hmax')⟩
        · rw [← hrotated, MemoryStore.rotateToken, htoken]
          simp only
          rw [if_neg (not_not.mpr hexpected)]
          rfl
        · rw [← hrecord]
          rfl
      · have hagrees : ¬StoreBackend.redis.agrees record.generation expected := by
          intro hagrees
          rcases lt_or_eq_of_le hmax with hlt | heq
          · exact hexpected ((Double.round_eq_iff (by omega) hlt hpos.le).mp hagrees.symm).symm
          · have hround : Double.round expected = 2 ^ 53 := hagrees.symm.trans heq
            obtain ⟨hne, hne'⟩ := hgeneration record hold heq
            exact ((Double.round_eq_limit_iff hpos.le).mp hround).elim hne hne'
        refine ⟨.error .tokenConflict, _, s, v, k, ?_,
          RedisStore.rotateToken_conflict h.represents hold hagrees digest updatedAt, rfl, h⟩
        rw [MemoryStore.rotateToken, htoken]
        simp only [ne_eq, hexpected, not_false_eq_true, if_true]

theorem record_name (h : Alike now s v k) (hrecord : s.tokens.lookup clientId = some record) :
    record.clientId = clientId :=
  (h.represents.record clientId record ((h.token clientId).symm.trans hrecord)).1

/-- The names of the entries are the members of the index, in order. -/
theorem names_eq (h : Alike now s v k) {members : List Bytes} (hnodup : members.Nodup)
    (hmembers : ∀ clientId, clientId ∈ members ↔ (v.token clientId).isSome) :
    s.entries.map TokenEntry.clientId = members.insertionSort (· ≤ ·) := by
  have : Std.Total fun left right : TokenEntry => left.clientId ≤ right.clientId :=
    ⟨fun _ _ => List.le_total _ _⟩
  have : IsTrans TokenEntry fun left right => left.clientId ≤ right.clientId :=
    ⟨fun _ _ _ => List.le_trans⟩
  have hkeys : s.tokens.entries.map (fun entry => entry.2.toTokenEntry.clientId) =
      s.tokens.keys :=
    List.map_congr_left fun ⟨c, record⟩ hmem => h.record_name (AList.mem_lookup_iff.mpr hmem)
  have hperm : (s.entries.map TokenEntry.clientId).Perm s.tokens.keys := by
    have hsort := (List.perm_insertionSort (fun left right : TokenEntry =>
      left.clientId ≤ right.clientId)
      (s.tokens.entries.map fun entry => entry.2.toTokenEntry)).map TokenEntry.clientId
    rw [List.map_map] at hsort
    exact hkeys ▸ hsort
  have hsame : s.tokens.keys.Perm members :=
    (List.perm_ext_iff_of_nodup s.tokens.keys_nodup hnodup).mpr fun c => by
      rw [hmembers, ← h.token, AList.lookup_isSome, AList.mem_keys]
  have hsorted : (s.entries.map TokenEntry.clientId).Pairwise (· ≤ ·) :=
    List.pairwise_map.mpr (List.pairwise_insertionSort _ _)
  exact List.Perm.eq_of_pairwise (fun _ _ _ _ => List.le_antisymm) hsorted
    (List.pairwise_insertionSort _ _)
    ((hperm.trans hsame).trans (List.perm_insertionSort _ _).symm)

theorem entries_eq (h : Alike now s v k) {members : List Bytes} (hnodup : members.Nodup)
    (hmembers : ∀ clientId, clientId ∈ members ↔ (v.token clientId).isSome) :
    s.entries = (members.insertionSort (· ≤ ·)).flatMap fun clientId =>
      ((v.token clientId).map TokenRecord.toTokenEntry).toList := by
  rw [← h.names_eq hnodup hmembers, List.flatMap_map]
  have hentry : ∀ entry ∈ s.entries,
      ((v.token entry.clientId).map TokenRecord.toTokenEntry).toList = [entry] := by
    intro entry hmem
    obtain ⟨⟨c, record⟩, hrecord, rfl⟩ := List.mem_map.mp ((List.mem_insertionSort _).mp hmem)
    have hlookup := AList.mem_lookup_iff.mpr hrecord
    rw [← h.token, h.record_name hlookup, hlookup]
    rfl
  rw [List.flatMap_congr hentry, List.flatMap_singleton']

end Alike

/-- A request and what the surroundings supply to its accesses. -/
structure Visit where
  request : HttpRequest
  choices : ℕ → Choice

/-- Accesses between two times, without faults. -/
structure Timed (start stop : ℤ) (choices : ℕ → Choice) : Prop where
  fault : ∀ i, (choices i).fault = .none
  mono : Monotone fun i => (choices i).now
  start_le : start ≤ (choices 0).now
  le_stop : ∀ i, (choices i).now ≤ stop

/-- Requests that are served one after another. -/
inductive Clocked : ℤ → List Visit → Prop
  | nil (start : ℤ) : Clocked start []
  | cons {start stop : ℤ} {visit : Visit} {visits : List Visit} (h : Timed start stop visit.choices)
      (hrest : Clocked stop visits) : Clocked start (visit :: visits)

namespace Application

variable {σ : Type}

def visit (a : Application σ) (w : World σ) (visit : Visit) : HttpResponse × World σ :=
  (a.serve visit.request).run visit.choices w

/-- The answers to requests that are served one after another. -/
def answers (a : Application σ) : World σ → List Visit → List HttpResponse
  | _, [] => []
  | w, visit :: visits => (a.visit w visit).1 :: a.answers (a.visit w visit).2 visits

end Application

section Runs

variable {σ α β : Type} {choices : ℕ → Choice} {w : World σ}

theorem run_ask (rest : Choice → Task σ β) :
    (ask >>= rest).run choices w =
      (rest (choices 0)).run (fun i => choices (i + 1)) { w with now := (choices 0).now } := rfl

theorem run_perform {remote : Bool} {access : Access σ α} {event : Except StoreError α → Event}
    {rest : Except StoreError α → Task σ β} {result : Except StoreError α} {store : σ}
    (hfault : (choices 0).fault = .none)
    (haccess : access (choices 0).now w.store = (result, store)) :
    (perform remote access event >>= rest).run choices w =
      (rest result).run (fun i => choices (i + 1))
        { store := store, now := (choices 0).now
          history := ⟨w.store, (choices 0).now, event result⟩ :: w.history } := by
  show (rest (World.perform remote access event (choices 0) w).1).run _
    (World.perform remote access event (choices 0) w).2 = _
  rw [World.perform_none hfault, World.commit, haccess]

end Runs

/-- Two runs that return the same and leave stores that are alike. -/
def Agree {α : Type} (now : ℤ) (m : α × World MemoryStore) (r : α × World Redis.Keyspace) : Prop :=
  m.1 = r.1 ∧ ∃ v, Alike now m.2.store v r.2.store

/-- Two tasks that agree wherever they start from stores that are alike. -/
def Tracks {α : Type} (m : Task MemoryStore α) (r : Task Redis.Keyspace α) : Prop :=
  ∀ start stop choices wm wr v, Timed start stop choices → Alike start wm.store v wr.store →
    Agree stop (m.run choices wm) (r.run choices wr)

/-- Two accesses that return the same from stores that are alike. -/
def Tracking {α : Type} (m : Access MemoryStore α) (r : Access Redis.Keyspace α) : Prop :=
  ∀ now s v k, Alike now s v k → ∃ result s' v' k', m now s = (result, s') ∧
    r now k = (result, k') ∧ Alike now s' v' k'

section Rules

variable {start stop : ℤ} {choices : ℕ → Choice} {α β : Type}
  {r : Except StoreError α → Task Redis.Keyspace β} {m : Except StoreError α → Task MemoryStore β}
  {event event' : Except StoreError α → Event} {accessR : Access Redis.Keyspace α}
  {accessM : Access MemoryStore α}

theorem Timed.at_le (h : Timed start stop choices) (i : ℕ) : start ≤ (choices i).now :=
  h.start_le.trans (h.mono (Nat.zero_le i))

theorem Timed.start_le_stop (h : Timed start stop choices) : start ≤ stop :=
  h.start_le.trans (h.le_stop 0)

theorem Timed.tail (h : Timed start stop choices) :
    Timed (choices 0).now stop fun i => choices (i + 1) where
  fault i := h.fault (i + 1)
  mono _ _ hij := h.mono (Nat.succ_le_succ hij)
  start_le := h.mono (Nat.zero_le 1)
  le_stop i := h.le_stop (i + 1)

theorem tracks_pure (result : α) :
    Tracks (pure result : Task MemoryStore α) (pure result : Task Redis.Keyspace α) :=
  fun _ _ _ _ _ v htimed halike => ⟨rfl, v, halike.later htimed.start_le_stop⟩

theorem tracks_ask {m : Choice → Task MemoryStore β} {r : Choice → Task Redis.Keyspace β}
    (h : ∀ choice, Tracks (m choice) (r choice)) : Tracks (ask >>= m) (ask >>= r) :=
  fun _ _ choices _ _ _ htimed halike =>
    h (choices 0) _ _ _ _ _ _ htimed.tail (halike.later htimed.start_le)

/-- Two runs that make an access at the same time. -/
theorem pair_perform {P : β × World MemoryStore → β × World Redis.Keyspace → Prop}
    {remote remote' : Bool} {wm : World MemoryStore} {wr : World Redis.Keyspace}
    {result result' : Except StoreError α} {s' : MemoryStore} {k' : Redis.Keyspace}
    (htimed : Timed start stop choices) (hm : accessM (choices 0).now wm.store = (result, s'))
    (hr : accessR (choices 0).now wr.store = (result', k'))
    (h : ∀ history history',
      P ((m result).run (fun i => choices (i + 1)) ⟨s', (choices 0).now, history⟩)
        ((r result').run (fun i => choices (i + 1)) ⟨k', (choices 0).now, history'⟩)) :
    P ((perform remote accessM event >>= m).run choices wm)
      ((perform remote' accessR event' >>= r).run choices wr) := by
  rw [run_perform (htimed.fault 0) hm, run_perform (htimed.fault 0) hr]
  exact h _ _

theorem tracks_perform {remote remote' : Bool} (haccess : Tracking accessM accessR)
    (h : ∀ result, Tracks (m result) (r result)) :
    Tracks (perform remote accessM event >>= m) (perform remote' accessR event' >>= r) := by
  intro start stop choices wm wr v htimed halike
  obtain ⟨result, s', v', k', hm, hr, halike'⟩ :=
    haccess _ _ _ _ (halike.later htimed.start_le)
  exact pair_perform (P := Agree _) htimed hm hr fun _ _ => h result _ _ _ _ _ _ htimed.tail halike'

/-- An access that only one of the stores makes. -/
theorem tracks_idle {remote : Bool} {access : Access Redis.Keyspace α}
    {event : Except StoreError α → Event} {rest : Except StoreError α → Task Redis.Keyspace β}
    {value : α} {result : β} (haccess : ∀ now k, access now k = (.ok value, k))
    (hrest : rest (.ok value) = pure result) :
    Tracks (pure result) (perform remote access event >>= rest) := by
  intro start stop choices wm wr v htimed halike
  rw [run_perform (htimed.fault 0) (haccess _ _), hrest]
  exact ⟨rfl, v, halike.later htimed.start_le_stop⟩

end Rules

section Handlers

variable {platform : Platform} {config : ApplicationConfig} {policy : AuthFailurePolicy}
  {r : HttpRequest} {choices : ℕ → Choice} {start stop : ℤ} {wr : World Redis.Keyspace}
  {wm : World MemoryStore} {v : View} {clientId : Bytes}

theorem handleReady_tracks :
    Tracks ((routesWithConfig .memory platform config policy).handleReady r)
      ((routesWithConfig .redis platform config policy).handleReady r) :=
  tracks_idle (fun _ _ => rfl) rfl

theorem handleTokensUpsert_tracks :
    Tracks ((routesWithConfig .memory platform config policy).handleTokensUpsert r)
      ((routesWithConfig .redis platform config policy).handleTokensUpsert r) := by
  unfold Application.handleTokensUpsert
  cases hdecode : decodeJSON platform.decodeTokenUpsertRequest r with
  | error response =>
      simp only [routesWithConfig, hdecode]
      exact tracks_pure response
  | ok req =>
      simp only [routesWithConfig, hdecode]
      cases hvalid : validTokenClientId req.clientId with
      | false => exact tracks_pure _
      | true =>
          refine tracks_ask fun choice => ?_
          cases choice.entropy with
          | none => exact tracks_pure _
          | some token =>
              refine tracks_ask fun choice' => tracks_perform (fun _ _ _ _ halike =>
                halike.createToken ⟨hvalid, rfl, rfl, rfl⟩) fun result => ?_
              cases result with
              | error error => cases error <;> exact tracks_pure _
              | ok value => exact tracks_pure _

theorem handleTokensDelete_tracks (clientId : Bytes) :
    Tracks ((routesWithConfig .memory platform config policy).handleTokensDelete clientId r)
      ((routesWithConfig .redis platform config policy).handleTokensDelete clientId r) := by
  unfold Application.handleTokensDelete
  cases hvalid : validTokenClientId clientId with
  | false => exact tracks_pure _
  | true =>
      refine tracks_ask fun choice => tracks_perform (fun _ _ _ _ halike =>
        halike.disableToken (ne_reserved_of_valid hvalid) _) fun result => ?_
      cases result with
      | error error => cases error <;> exact tracks_pure _
      | ok value => exact tracks_pure _

theorem listRest_run {w : World Redis.Keyspace} (htimed : Timed start stop choices)
    (hv : RedisStore.Represents v w.store) {clientIds : List Bytes}
    (hclients : ∀ clientId ∈ clientIds, clientId ≠ reservedClientId) (entries : List TokenEntry) :
    ∃ w', (RedisStore.listRest clientIds entries).run choices w =
        (.ok (entries ++ clientIds.flatMap fun clientId =>
          ((v.token clientId).map TokenRecord.toTokenEntry).toList), w') ∧ w'.store = w.store := by
  induction clientIds generalizing entries start choices w with
  | nil => exact ⟨w, by simp [RedisStore.listRest], rfl⟩
  | cons clientId clientIds ih =>
      rw [RedisStore.listRest]
      rw [run_perform (htimed.fault 0) (RedisStore.readToken_eq hv (hclients clientId (by simp))),
        List.flatMap_cons, ← List.append_assoc]
      refine ih htimed.tail ?_ (fun c hc => hclients c (by simp [hc])) _
      exact hv

/-- The index is read, and then the names in it in their order. -/
theorem listTokens_run {w : World Redis.Keyspace} (htimed : Timed start stop choices)
    (hv : RedisStore.Represents v w.store) :
    ∃ (members : List Bytes) (w' : World Redis.Keyspace), members.Nodup ∧
      (∀ clientId, clientId ∈ members ↔ (v.token clientId).isSome) ∧
      RedisStore.listTokens.run choices w =
        (.ok ((members.insertionSort (· ≤ ·)).flatMap fun clientId =>
          ((v.token clientId).map TokenRecord.toTokenEntry).toList), w') ∧ w'.store = w.store := by
  obtain ⟨members, hnodup, hmembers, hindex⟩ := hv.index
  have hclients : ∀ clientId ∈ members.insertionSort (· ≤ ·), clientId ≠ reservedClientId := by
    intro clientId hmem
    obtain ⟨record, htoken⟩ := Option.isSome_iff_exists.mp
      ((hmembers clientId).mp ((List.mem_insertionSort _).mp hmem))
    exact hv.ne_reserved htoken
  have hread : RedisStore.lift (Redis.smembers RedisStore.indexKey) (choices 0).now w.store =
      (.ok members, w.store) := by
    rw [RedisStore.lift, Redis.smembers_of_holdsSet hindex]
  have hrest := listRest_run
    (w := { store := w.store, now := (choices 0).now
            history := ⟨w.store, (choices 0).now, .tokenIndex⟩ :: w.history })
    htimed.tail hv hclients []
  obtain ⟨w', hrun, hstore⟩ := hrest
  refine ⟨members, w', hnodup, hmembers, ?_, hstore⟩
  rw [RedisStore.listTokens, run_perform (htimed.fault 0) hread]
  exact hrun

def listAnswer (r : HttpRequest) : Except StoreError (List TokenEntry) → HttpResponse
  | .error error => writeStoreError r error
  | .ok entries => writeJSON 200 (.tokenEntries entries)

theorem handleTokensList_eq {σ : Type} (a : Application σ) :
    a.handleTokensList r = a.store.listTokens >>= fun result => .done (listAnswer r result) := by
  unfold Application.handleTokensList
  congr 1
  funext result
  cases result <;> rfl

theorem handleTokensList_tracks :
    Tracks ((routesWithConfig .memory platform config policy).handleTokensList r)
      ((routesWithConfig .redis platform config policy).handleTokensList r) := by
  intro start stop choices wm wr v htimed halike
  obtain ⟨members, w', hnodup, hmembers, hrun, hstore⟩ := listTokens_run htimed halike.represents
  rw [handleTokensList_eq, handleTokensList_eq]
  show Agree stop
    ((perform false MemoryStore.listTokens .listTokens >>= fun result =>
      .done (listAnswer r result)).run choices wm)
    ((RedisStore.listTokens >>= fun result => .done (listAnswer r result)).run choices wr)
  rw [run_perform (htimed.fault 0) rfl, Program.run_bind_done, hrun]
  refine ⟨?_, v, ?_⟩
  · rw [Program.run_done, halike.entries_eq hnodup hmembers]
  · rw [hstore]
    exact halike.later htimed.start_le_stop

def rotateAnswer (r : HttpRequest) (token : Bytes) : Except StoreError TokenRecord → HttpResponse
  | .error .tokenConflict => writeAPIError r 409 "CONFLICT" "token generation conflict"
  | .error .tokenNotFound => writeAPIError r 404 "NOT_FOUND" "token not found"
  | .error error => writeStoreError r error
  | .ok record => writeJSON 200 (.tokenSecret ⟨record.clientId, token, record.generation⟩)

/-- Only the name and the generation of a record are shown. -/
theorem rotateAnswer_congr {token : Bytes} {result result' : Except StoreError TokenRecord}
    (h : result.map (fun record => (record.clientId, record.generation)) =
      result'.map (fun record => (record.clientId, record.generation))) :
    rotateAnswer r token result = rotateAnswer r token result' := by
  cases result with
  | error error =>
      cases result' with
      | error error' =>
          cases h
          rfl
      | ok record' => cases h
  | ok record =>
      cases result' with
      | error error' => cases h
      | ok record' =>
          obtain ⟨hclient, hgeneration⟩ := Prod.mk.inj (Except.ok.inj h)
          rw [rotateAnswer, rotateAnswer, hclient, hgeneration]

/-- A rotation that comes to the store. -/
theorem handleTokensRotate_run {σ : Type} (a : Application σ) {clientId token : Bytes}
    {expected : ℤ} (w : World σ) (hvalid : validTokenClientId clientId = true)
    (hexpected : parseGeneration r.ifMatch = some expected)
    (htoken : (choices 0).entropy = some token) :
    (a.handleTokensRotate clientId r).run choices w =
      (a.call (a.store.rotateToken clientId expected (a.digest token)
        (a.platform.rfc3339Nano (choices 1).now)) (.rotateToken clientId expected) >>= fun result =>
          .done (rotateAnswer r token result)).run (fun i => choices (i + 2))
        { w with now := (choices 1).now } := by
  unfold Application.handleTokensRotate
  simp only [hvalid, Bool.not_true, Bool.false_eq_true, if_false, hexpected, run_ask, htoken]
  congr 2
  funext result
  match result with
  | .error error => cases error <;> rfl
  | .ok record => rfl

/-- A rotation that one of the stores takes for another: it is of the generation
that has no successor among the doubles, with it or the number after it. -/
def Unsteady (s : MemoryStore) (clientId : Bytes) (r : HttpRequest) (choices : ℕ → Choice) : Prop :=
  validTokenClientId clientId = true ∧ (choices 0).entropy ≠ none ∧
    ∃ expected record, parseGeneration r.ifMatch = some expected ∧
      s.tokens.lookup clientId = some record ∧ record.generation = 2 ^ 53 ∧
      (expected = 2 ^ 53 ∨ expected = 2 ^ 53 + 1)

theorem handleTokensRotate_agree (htimed : Timed start stop choices)
    (halike : Alike start wm.store v wr.store) (hsteady : ¬Unsteady wm.store clientId r choices) :
    Agree stop
      (((routesWithConfig .memory platform config policy).handleTokensRotate clientId r).run
        choices wm)
      (((routesWithConfig .redis platform config policy).handleTokensRotate clientId r).run
        choices wr) := by
  cases hvalid : validTokenClientId clientId with
  | false =>
      unfold Application.handleTokensRotate
      simp only [hvalid]
      exact tracks_pure _ _ _ _ _ _ _ htimed halike
  | true =>
      cases hexpected : parseGeneration r.ifMatch with
      | none =>
          unfold Application.handleTokensRotate
          simp only [hvalid, hexpected]
          exact tracks_pure _ _ _ _ _ _ _ htimed halike
      | some expected =>
          cases htoken : (choices 0).entropy with
          | none =>
              unfold Application.handleTokensRotate
              simp only [hvalid, hexpected, Bool.not_true, Bool.false_eq_true, if_false, run_ask,
                htoken]
              exact tracks_pure _ _ _ _ _ _ _ htimed.tail (halike.later htimed.start_le)
          | some token =>
              have hgeneration : ∀ record, v.token clientId = some record →
                  record.generation = 2 ^ 53 → expected ≠ 2 ^ 53 ∧ expected ≠ 2 ^ 53 + 1 := by
                intro record hrecord hlimit
                refine ⟨fun heq => hsteady ?_, fun heq => hsteady ?_⟩
                · exact ⟨hvalid, by simp [htoken], expected, record, hexpected,
                    (halike.token clientId).trans hrecord, hlimit, .inl heq⟩
                · exact ⟨hvalid, by simp [htoken], expected, record, hexpected,
                    (halike.token clientId).trans hrecord, hlimit, .inr heq⟩
              obtain ⟨result, result', s', v', k', hm, hr, hresult, halike'⟩ :=
                (halike.later (htimed.at_le 2)).rotateToken (ne_reserved_of_valid hvalid)
                  (parseGeneration_pos hexpected) hgeneration
                  (platform.hmacSha256Hex config.tokenPepper token)
                  (platform.rfc3339Nano (choices 1).now)
              rw [handleTokensRotate_run _ _ hvalid hexpected htoken,
                handleTokensRotate_run _ _ hvalid hexpected htoken]
              exact pair_perform (P := Agree _) htimed.tail.tail hm hr fun _ _ =>
                ⟨rotateAnswer_congr hresult, v', halike'.later (htimed.le_stop 2)⟩

theorem handleTokensRotate_differ (htimed : Timed start stop choices)
    (halike : Alike start wm.store v wr.store) (hunsteady : Unsteady wm.store clientId r choices) :
    (((routesWithConfig .memory platform config policy).handleTokensRotate clientId r).run
        choices wm).1 ≠
      (((routesWithConfig .redis platform config policy).handleTokensRotate clientId r).run
        choices wr).1 := by
  obtain ⟨hvalid, hentropy, expected, record, hexpected, hrecord, hlimit, hcases⟩ := hunsteady
  obtain ⟨token, htoken⟩ := Option.ne_none_iff_exists'.mp hentropy
  have hpos := parseGeneration_pos hexpected
  have hv : v.token clientId = some record := (halike.token clientId).symm.trans hrecord
  have hagrees : StoreBackend.redis.agrees record.generation expected := by
    rw [StoreBackend.agrees, hlimit]
    exact ((Double.round_eq_limit_iff hpos.le).mpr hcases).symm
  have hnext : StoreBackend.redis.next record.generation = 2 ^ 53 := by
    rw [hlimit]
    exact Double.round_limit_succ
  -- the memory store counts on, or takes the number after it for another generation
  have hmemory : ∃ result s', MemoryStore.rotateToken clientId expected
      (platform.hmacSha256Hex config.tokenPepper token) (platform.rfc3339Nano (choices 1).now)
      (choices 2).now wm.store = (result, s') ∧
      ∀ answer, result = .ok answer → answer.generation = 2 ^ 53 + 1 := by
    rw [MemoryStore.rotateToken, hrecord]
    simp only
    split
    · exact ⟨_, _, rfl, nofun⟩
    · refine ⟨_, _, rfl, ?_⟩
      rintro answer ⟨⟩
      show wrapInt64 (record.generation + 1) = 2 ^ 53 + 1
      rw [hlimit]
      decide
  obtain ⟨result, s', hm, hresult⟩ := hmemory
  obtain ⟨stuck, k', hr, hstuck⟩ : ∃ stuck k', RedisStore.rotateToken clientId expected
      (platform.hmacSha256Hex config.tokenPepper token) (platform.rfc3339Nano (choices 1).now)
      (choices 2).now wr.store = (.ok stuck, k') ∧ stuck.generation = 2 ^ 53 :=
    ⟨_, _, RedisStore.rotateToken_eq halike.represents hv hagrees _ _, hnext⟩
  rw [handleTokensRotate_run _ _ hvalid hexpected htoken,
    handleTokensRotate_run _ _ hvalid hexpected htoken, Application.call, Application.call,
    run_perform (htimed.fault 2) hm, run_perform (htimed.fault 2) hr]
  intro heq
  have heq : rotateAnswer r token result = rotateAnswer r token (.ok stuck) := heq
  cases result with
  | error error => cases error <;> cases heq
  | ok answer =>
      have hgeneration : answer.generation = stuck.generation := by
        have hbody := congrArg HttpResponse.body heq
        simp only [rotateAnswer, writeJSON, Payload.tokenSecret.injEq] at hbody
        exact congrArg TokenSecretResponse.generation hbody
      have := hresult answer rfl
      omega

theorem settleAuthCheck_agree {decision : TokenAuthDecision} (hwindow : 1000000 ∣ policy.window)
    (htimed : Timed start stop choices) (halike : Alike start wm.store v wr.store)
    (hcount : ∀ counter, v.live start clientId = some counter → counter.count < int64Max) :
    Agree stop
      (((routesWithConfig .memory platform config policy).settleAuthCheck r clientId decision).run
        choices wm)
      (((routesWithConfig .redis platform config policy).settleAuthCheck r clientId decision).run
        choices wr) := by
  have halike' := halike.later htimed.start_le
  unfold Application.settleAuthCheck
  split
  · have hcount' : ∀ counter, v.live (choices 0).now clientId = some counter →
        counter.count < int64Max := by
      intro counter hcounter
      rw [v.live_later htimed.start_le] at hcounter
      exact hcount counter (Option.filter_eq_some_iff.mp hcounter).1
    obtain ⟨count, s', v', k', hm, hr, hafter⟩ := halike'.recordAuthFailure hwindow hcount'
    exact pair_perform (P := Agree _) htimed hm hr fun _ _ =>
      ⟨rfl, v', hafter.later (htimed.le_stop 0)⟩
  · obtain ⟨s', v', k', hm, hr, hafter⟩ := halike'.clearAuthFailures clientId
    exact pair_perform (P := Agree _) htimed hm hr fun _ _ =>
      ⟨rfl, v', hafter.later (htimed.le_stop 0)⟩

/-- A check that the Redis store does not come to: it is behind the limit, for the
name whose key holds the index. -/
def Misplaced (policy : AuthFailurePolicy) (s : MemoryStore) (clientId : Bytes) (now : ℤ) : Prop :=
  clientId = reservedClientId ∧ (∃ client, (s.tokens.lookup client).isSome) ∧
    s.view.limited now clientId policy.limit = false

theorem startAuthCheck_agree {req : AuthCheckRequest} (hwindow : 1000000 ∣ policy.window)
    (hlimit : policy.limit ≤ int64Max) (htimed : Timed start stop choices)
    (halike : Alike start wm.store v wr.store)
    (hplaced : ¬Misplaced policy wm.store req.clientId (choices 0).now) :
    Agree stop
      (((routesWithConfig .memory platform config policy).startAuthCheck r req).run choices wm)
      (((routesWithConfig .redis platform config policy).startAuthCheck r req).run choices wr) := by
  have halike₀ := halike.later htimed.start_le
  obtain ⟨s₁, hm, hr, halike₁⟩ := halike₀.authFailureLimited req.clientId policy.limit
  refine pair_perform (P := Agree _) htimed hm hr fun _ _ => ?_
  cases hlimited : v.limited (choices 0).now req.clientId policy.limit with
  | true => exact ⟨rfl, v, halike₁.later (htimed.le_stop 0)⟩
  | false =>
      have hverify : ∃ decision, MemoryStore.verifyDigest req.clientId
          (platform.hmacSha256Hex config.tokenPepper req.token) (choices 1).now s₁ =
            (.ok decision, s₁) ∧
          RedisStore.verifyDigest req.clientId
            (platform.hmacSha256Hex config.tokenPepper req.token) (choices 1).now wr.store =
            (.ok decision, wr.store) := by
        refine ⟨v.decision req.clientId (platform.hmacSha256Hex config.tokenPepper req.token),
          ?_, ?_⟩
        · rw [s₁.verifyDigest_eq, halike₁.decision_eq]
        · by_cases hclient : req.clientId = reservedClientId
          · have hempty : ∀ client, v.token client = none := by
              intro client
              by_contra hsome
              rw [← halike.token, ← ne_eq, Option.ne_none_iff_isSome] at hsome
              exact hplaced ⟨hclient, ⟨client, hsome⟩, (halike₀.limited_eq _ _).trans hlimited⟩
            have hinvalid : v.decision req.clientId
                (platform.hmacSha256Hex config.tokenPepper req.token) = .invalid := by
              rw [View.decision, hempty]
            rw [hinvalid, hclient]
            exact RedisStore.verifyDigest_reserved_missing halike.represents hempty _
          · exact RedisStore.verifyDigest_eq halike.represents hclient _
      obtain ⟨decision, hm', hr'⟩ := hverify
      refine pair_perform (P := Agree _) htimed.tail hm' hr' fun _ _ =>
        settleAuthCheck_agree hwindow htimed.tail.tail (halike₁.later htimed.tail.start_le)
          fun counter hcounter => ?_
      rw [v.live_later htimed.tail.start_le] at hcounter
      have hless : counter.count < policy.limit := by
        simpa [View.limited, (Option.filter_eq_some_iff.mp hcounter).1] using hlimited
      omega

theorem refusal_status {σ : Type} (a : Application σ) (decision : TokenAuthDecision) (count : ℤ) :
    (a.refusal decision count).status = 200 := by
  unfold Application.refusal
  split
  · rfl
  · split <;> rfl

/-- The memory store answers a refused check. -/
theorem refused_status {w : World MemoryStore} (htimed : Timed start stop choices) :
    (((routesWithConfig .memory platform config policy).settleAuthCheck r clientId .invalid).run
      choices w).1.status = 200 := by
  have hrun : ((routesWithConfig .memory platform config policy).settleAuthCheck r clientId
      .invalid).run choices w = _ := run_perform (htimed.fault 0) rfl
  rw [hrun]
  exact refusal_status ..

theorem startAuthCheck_differ {req : AuthCheckRequest} (htimed : Timed start stop choices)
    (halike : Alike start wm.store v wr.store)
    (hmisplaced : Misplaced policy wm.store req.clientId (choices 0).now) :
    (((routesWithConfig .memory platform config policy).startAuthCheck r req).run choices wm).1 ≠
      (((routesWithConfig .redis platform config policy).startAuthCheck r req).run
        choices wr).1 := by
  obtain ⟨hclient, ⟨client, hsome⟩, hlimited⟩ := hmisplaced
  have halike₀ := halike.later htimed.start_le
  obtain ⟨s₁, hm, hr, halike₁⟩ := halike₀.authFailureLimited req.clientId policy.limit
  obtain ⟨record, htoken⟩ := Option.isSome_iff_exists.mp (halike.token client ▸ hsome)
  rw [← halike₀.limited_eq, hlimited] at hm hr
  have hm' : MemoryStore.verifyDigest req.clientId
      (platform.hmacSha256Hex config.tokenPepper req.token) (choices 1).now s₁ =
        (.ok .invalid, s₁) := by
    rw [s₁.verifyDigest_eq, halike₁.decision_eq, View.decision, hclient,
      halike.represents.reserved]
  have hr' : RedisStore.verifyDigest req.clientId
      (platform.hmacSha256Hex config.tokenPepper req.token) (choices 1).now wr.store =
        (.error .other, wr.store) := by
    rw [hclient]
    exact RedisStore.verifyDigest_reserved halike.represents htoken _
  refine pair_perform (P := fun m r => m.1 ≠ r.1) htimed hm hr fun _ _ =>
    pair_perform (P := fun m r => m.1 ≠ r.1) htimed.tail hm' hr' fun _ _ heq => ?_
  cases (refused_status htimed.tail.tail).symm.trans (congrArg HttpResponse.status heq)

end Handlers

/-- A request that the two stores answer differently, where the memory store is in
a world `w`. -/
def Diverges (platform : Platform) (config : ApplicationConfig) (policy : AuthFailurePolicy)
    (w : World MemoryStore) (visit : Visit) : Prop :=
  match (routesWithConfig .memory platform config policy).middleware visit.request with
  | .authCheck => ∃ req,
      (routesWithConfig .memory platform config policy).decodeAuthCheck visit.request = .ok req ∧
        Misplaced policy w.store req.clientId (visit.choices 0).now
  | .tokensRotate clientId => Unsteady w.store clientId visit.request visit.choices
  | _ => False

/-- No request of a sequence is one of those. -/
def Unaffected (platform : Platform) (config : ApplicationConfig) (policy : AuthFailurePolicy) :
    World MemoryStore → List Visit → Prop
  | _, [] => True
  | w, visit :: visits => ¬Diverges platform config policy w visit ∧
      Unaffected platform config policy
        ((routesWithConfig .memory platform config policy).visit w visit).2 visits

section Sequences

variable {platform : Platform} {config : ApplicationConfig} {policy : AuthFailurePolicy}
  {start stop : ℤ} {wm : World MemoryStore} {wr : World Redis.Keyspace} {v : View}
  {visit : Visit}

theorem middleware_eq (r : HttpRequest) :
    (routesWithConfig .memory platform config policy).middleware r =
      (routesWithConfig .redis platform config policy).middleware r := rfl

theorem middleware_config {σ : Type} {a : Application σ} {r : HttpRequest}
    (h : a.middleware r = .configGet ∨ a.middleware r = .configUpdate) : r.path = .config := by
  have hrouted := a.middleware_routed r
  rcases h with h | h <;> rw [h] at hrouted
  · cases hrouted with
    | configGet hpath _ => exact hpath
  · cases hrouted with
    | configUpdate hpath _ => exact hpath

/-- A request is answered alike, or it is one of those that diverge. -/
theorem visit_agree_iff (platform : Platform) (config : ApplicationConfig)
    (hwindow : 1000000 ∣ policy.window) (hlimit : policy.limit ≤ int64Max)
    (htimed : Timed start stop visit.choices) (halike : Alike start wm.store v wr.store)
    (hpath : visit.request.path ≠ .config) :
    (¬Diverges platform config policy wm visit → Agree stop
      ((routesWithConfig .memory platform config policy).visit wm visit)
      ((routesWithConfig .redis platform config policy).visit wr visit)) ∧
    (Diverges platform config policy wm visit →
      ((routesWithConfig .memory platform config policy).visit wm visit).1 ≠
        ((routesWithConfig .redis platform config policy).visit wr visit).1) := by
  unfold Diverges Application.visit Application.serve
  rw [← middleware_eq]
  have hconfig := mt
    (middleware_config (a := routesWithConfig .memory platform config policy)) hpath
  generalize (routesWithConfig .memory platform config policy).middleware visit.request = handler
    at hconfig ⊢
  cases handler with
  | answer response => exact ⟨fun _ => tracks_pure _ _ _ _ _ _ _ htimed halike, False.elim⟩
  | health => exact ⟨fun _ => tracks_pure _ _ _ _ _ _ _ htimed halike, False.elim⟩
  | ready => exact ⟨fun _ => handleReady_tracks _ _ _ _ _ _ htimed halike, False.elim⟩
  | tokensUpsert => exact ⟨fun _ => handleTokensUpsert_tracks _ _ _ _ _ _ htimed halike, False.elim⟩
  | tokensList => exact ⟨fun _ => handleTokensList_tracks _ _ _ _ _ _ htimed halike, False.elim⟩
  | tokensDelete clientId =>
      exact ⟨fun _ => handleTokensDelete_tracks clientId _ _ _ _ _ _ htimed halike, False.elim⟩
  | tokensRotate clientId =>
      exact ⟨handleTokensRotate_agree htimed halike, handleTokensRotate_differ htimed halike⟩
  | configGet => exact absurd (.inl rfl) hconfig
  | configUpdate => exact absurd (.inr rfl) hconfig
  | authCheck =>
      simp only [Application.run, Application.handleAuthCheck]
      cases hdecode : (routesWithConfig .memory platform config policy).decodeAuthCheck
          visit.request with
      | error response =>
          have hdecode' : (routesWithConfig .redis platform config policy).decodeAuthCheck
            visit.request = .error response := hdecode
          simp only [hdecode']
          exact ⟨fun _ => tracks_pure _ _ _ _ _ _ _ htimed halike, nofun⟩
      | ok req =>
          have hdecode' : (routesWithConfig .redis platform config policy).decodeAuthCheck
            visit.request = .ok req := hdecode
          simp only [hdecode', Except.ok.injEq, exists_eq_left']
          exact ⟨startAuthCheck_agree hwindow hlimit htimed halike,
            startAuthCheck_differ htimed halike⟩

theorem answers_eq_iff (hwindow : 1000000 ∣ policy.window) (hlimit : policy.limit ≤ int64Max)
    {visits : List Visit} (hclock : Clocked start visits)
    (hpaths : ∀ visit ∈ visits, visit.request.path ≠ .config)
    (halike : Alike start wm.store v wr.store) :
    (routesWithConfig .memory platform config policy).answers wm visits =
        (routesWithConfig .redis platform config policy).answers wr visits ↔
      Unaffected platform config policy wm visits := by
  induction hclock generalizing wm wr v with
  | nil => exact iff_of_true rfl trivial
  | @cons start stop visit visits htimed hrest ih =>
      obtain ⟨hagree, hdiffer⟩ := visit_agree_iff platform config hwindow hlimit htimed
        halike (hpaths visit (by simp))
      simp only [Application.answers, Unaffected, List.cons.injEq]
      by_cases hdiverges : Diverges platform config policy wm visit
      · exact iff_of_false (fun heq => hdiffer hdiverges heq.1) (fun hun => hun.1 hdiverges)
      · obtain ⟨hanswer, v', halike'⟩ := hagree hdiverges
        rw [ih (fun visit hmem => hpaths visit (by simp [hmem])) halike']
        simp [hanswer, hdiverges]

theorem fresh_alike (start : ℤ) :
    Alike start StoreBackend.memory.fresh StoreBackend.redis.freshView
      StoreBackend.redis.fresh := by
  obtain ⟨hsound, hview⟩ := StoreBackend.redis.fresh_sound
  have hrepresents : RedisStore.Represents (RedisStore.view StoreBackend.redis.fresh)
    StoreBackend.redis.fresh := hsound
  have hview : RedisStore.view StoreBackend.redis.fresh = StoreBackend.redis.freshView := hview
  exact ⟨hview ▸ hrepresents, fun _ => rfl, fun _ => rfl⟩

/-- From empty stores, a sequence of requests on the tokens and of checks is answered
alike exactly when none of them diverges. -/
theorem tokens_interchangeable (hwindow : 1000000 ∣ policy.window)
    (hlimit : policy.limit ≤ int64Max) {visits : List Visit} (hclock : Clocked start visits)
    (hpaths : ∀ visit ∈ visits, visit.request.path ≠ .config) :
    (routesWithConfig .memory platform config policy).answers
        { store := StoreBackend.memory.fresh, now := start } visits =
      (routesWithConfig .redis platform config policy).answers
        { store := StoreBackend.redis.fresh, now := start } visits ↔
    Unaffected platform config policy { store := StoreBackend.memory.fresh, now := start }
      visits :=
  answers_eq_iff hwindow hlimit hclock hpaths (fresh_alike start)

end Sequences

namespace Sample

/-- A request at time zero. -/
def visit (request : HttpRequest) : Visit where
  request := request
  choices _ := { now := 0, entropy := some (text "t") }

theorem visit_timed (request : HttpRequest) : Timed 0 0 (visit request).choices where
  fault _ := rfl
  mono _ _ _ := le_rfl
  start_le := le_rfl
  le_stop _ := le_rfl

def checkOf (clientId : Bytes) : HttpRequest where
  method := .post
  path := .authCheck
  body := clientId ++ text ":t"

def create : HttpRequest where
  method := .post
  path := .tokens
  body := client

end Sample

/-- A token is created, checked and listed. -/
theorem tokens_interchangeable_checked :
    (routesWithConfig .memory Sample.plainPlatform {} Sample.oneFailure).answers
        { store := StoreBackend.memory.fresh, now := 0 }
        [Sample.visit Sample.create, Sample.visit (Sample.checkOf Sample.client),
          Sample.visit { method := .get, path := .tokens }] =
      (routesWithConfig .redis Sample.plainPlatform {} Sample.oneFailure).answers
        { store := StoreBackend.redis.fresh, now := 0 }
        [Sample.visit Sample.create, Sample.visit (Sample.checkOf Sample.client),
          Sample.visit { method := .get, path := .tokens }] := by
  refine (tokens_interchangeable (by decide) (by decide)
    (.cons (Sample.visit_timed _) (.cons (Sample.visit_timed _)
      (.cons (Sample.visit_timed _) (.nil 0)))) (by decide)).mpr
    ⟨id, ?_, id, trivial⟩
  rintro ⟨req, hreq, hclient, -⟩
  have hreq' : (routesWithConfig .memory Sample.plainPlatform {} Sample.oneFailure).decodeAuthCheck
    (Sample.checkOf Sample.client) = .ok ⟨Sample.client, text "t"⟩ := by decide +kernel
  obtain rfl := Except.ok.inj (hreq.symm.trans hreq')
  revert hclient
  decide

/-- A token is there when the name of the index is checked. -/
theorem tokens_differ : ∃ visits : List Visit, Clocked 0 visits ∧
    (∀ visit ∈ visits, visit.request.path ≠ .config) ∧
    ((routesWithConfig .memory Sample.plainPlatform {} Sample.oneFailure).answers
        { store := StoreBackend.memory.fresh, now := 0 } visits).map HttpResponse.status ≠
      ((routesWithConfig .redis Sample.plainPlatform {} Sample.oneFailure).answers
        { store := StoreBackend.redis.fresh, now := 0 } visits).map HttpResponse.status :=
  ⟨[Sample.visit Sample.create, Sample.visit (Sample.checkOf reservedClientId)],
    .cons (Sample.visit_timed _) (.cons (Sample.visit_timed _) (.nil 0)), by decide,
    by decide +kernel⟩

end App

end GatewaySystem
