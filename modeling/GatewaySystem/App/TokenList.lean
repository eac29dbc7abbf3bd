import GatewaySystem.App.Rotation

/-!
# The list of tokens among other requests

The Redis store reads the index and then one record after the other, so a list
need not be the contents at any one instant. Tokens are not removed, though: a
name of the index still has its record when its turn comes.
-/

namespace GatewaySystem

namespace App

section Listed

variable {b : StoreBackend} {platform : Platform} {policy : AuthFailurePolicy}
  {since w w' : World b.State} {P : View → Prop} {names : List Bytes}

/-- Contents that an access has met since a request arrived. -/
def Met (since w : World b.State) (P : View → Prop) : Prop :=
  ∃ later past earlier, w.history = later ++ past :: earlier ∧ since.history <:+ earlier ∧
    P (b.view past.store)

/-- An entry that shows its token as it is. -/
def View.Shows (v : View) (entry : TokenEntry) : Prop :=
  ∃ record, v.token entry.clientId = some record ∧ record.toTokenEntry = entry

/-- The names of a list: the tokens there were at one instant, with all that were
there when the request arrived. -/
structure Named (since : World b.State) (names : List Bytes) (w : World b.State) : Prop where
  sorted : names.Pairwise (· < ·)
  complete : ∀ clientId, ((b.view since.store).token clientId).isSome → clientId ∈ names
  indexed : Met since w fun v => ∀ clientId, clientId ∈ names ↔ (v.token clientId).isSome

structure Listed (since : World b.State) (entries : List TokenEntry) (w : World b.State) :
    Prop where
  named : Named since (entries.map TokenEntry.clientId) w
  shown : ∀ entry ∈ entries, Met since w fun v => v.Shows entry

theorem Met.later (h : Met since w P) (hhistory : w.history <:+ w'.history) :
    Met since w' P := by
  obtain ⟨later, past, earlier, heq, hsince, hP⟩ := h
  obtain ⟨newer, hnewer⟩ := hhistory
  exact ⟨newer ++ later, past, earlier, by rw [← hnewer, heq, List.append_assoc], hsince, hP⟩

theorem Named.later (h : Named since names w) (hhistory : w.history <:+ w'.history) :
    Named since names w' :=
  ⟨h.sorted, h.complete, h.indexed.later hhistory⟩

/-- A token stays. -/
theorem token_stable (clientId : Bytes) : Program.Stable (Move b platform policy) fun w =>
    ((b.view w.store).token clientId).isSome := by
  intro w w' hmove h
  cases hmove with
  | idle => exact h
  | effect _ _ heffect =>
      obtain ⟨record, htoken⟩ := Option.isSome_iff_exists.mp h
      obtain ⟨record', htoken', -⟩ | ⟨record', _, _, htoken', -⟩ :=
        heffect.kept_or_rotated htoken <;> exact Option.isSome_of_eq_some htoken'

/-- A world with the tokens of the one a request arrived in. -/
structure Held (b : StoreBackend) (platform : Platform) (policy : AuthFailurePolicy)
    (since w : World b.State) : Prop extends After b platform policy since w where
  tokens : ∀ clientId, ((b.view since.store).token clientId).isSome →
    ((b.view w.store).token clientId).isSome

theorem held_stable : Program.Stable (Move b platform policy) (Held b platform policy since) :=
  fun _ _ hmove h => ⟨after_stable _ _ hmove h.toAfter, fun clientId hsince =>
    token_stable clientId _ _ hmove (h.tokens clientId hsince)⟩

end Listed

section Redis

variable {platform : Platform} {policy : AuthFailurePolicy} {config : ApplicationConfig}
  {since w : World StoreBackend.redis.State} {entries : List TokenEntry} {clientId : Bytes}
  {clientIds : List Bytes} {now : ℤ}

theorem After.represents (h : After .redis platform policy since w) :
    RedisStore.Represents (StoreBackend.redis.view w.store) w.store :=
  h.possible.sound

/-- A list on the way: the entries it has, and the names that are left. -/
structure Reading (since : World StoreBackend.redis.State) (entries : List TokenEntry)
    (clientIds : List Bytes) (w : World StoreBackend.redis.State) : Prop where
  named : Named since (entries.map TokenEntry.clientId ++ clientIds) w
  shown : ∀ entry ∈ entries, Met since w fun v => v.Shows entry
  left : ∀ clientId ∈ clientIds, ((StoreBackend.redis.view w.store).token clientId).isSome

theorem reading_stable :
    Program.Stable (Move .redis platform policy) (Reading since entries clientIds) :=
  fun _ _ hmove h => ⟨h.named.later hmove.history,
    fun entry hentry => (h.shown entry hentry).later hmove.history,
    fun clientId hmem => token_stable clientId _ _ hmove (h.left clientId hmem)⟩

/-- The names are those of the index. -/
theorem Held.reading (h : Held .redis platform policy since w)
    (hread : (RedisStore.lift (Redis.smembers RedisStore.indexKey) now w.store).1 =
      .ok clientIds) :
    Reading since [] (clientIds.insertionSort (· ≤ ·))
      (w.commit now (RedisStore.lift (Redis.smembers RedisStore.indexKey))
        fun _ => .tokenIndex) := by
  have hsound := h.represents
  obtain ⟨members, hnodup, hmembers, hindex⟩ := hsound.index
  have hresult : RedisStore.lift (Redis.smembers RedisStore.indexKey) now w.store =
      (.ok members, w.store) := by
    rw [RedisStore.lift, Redis.smembers_of_holdsSet hindex]
  rw [hresult] at hread
  obtain rfl := Except.ok.inj hread
  have hmem : ∀ clientId, clientId ∈ members.insertionSort (· ≤ ·) ↔
      ((StoreBackend.redis.view w.store).token clientId).isSome :=
    fun clientId => (List.mem_insertionSort _).trans (hmembers clientId)
  have hdistinct := (List.perm_insertionSort (· ≤ ·) members).nodup_iff.mpr hnodup
  refine ⟨⟨?_, fun clientId hsince => (hmem clientId).mpr (h.tokens clientId hsince),
    [], _, w.history, rfl, h.history, hmem⟩, by simp, ?_⟩
  · exact ((List.pairwise_insertionSort _ members).and hdistinct).imp fun h =>
      List.not_le.mp fun hge => h.2 (List.le_antisymm h.1 hge)
  · simp only [World.commit, hresult]
    exact fun clientId => (hmem clientId).mp

/-- The next name has a record, and gets its entry. -/
theorem Reading.next (h : Reading since entries (clientId :: clientIds) w)
    (hafter : After .redis platform policy since w) : clientId ≠ reservedClientId ∧
    ∀ now found, (RedisStore.readToken clientId now w.store).1 = .ok found →
      Reading since (entries ++ found) clientIds
        (w.commit now (RedisStore.readToken clientId) .listTokens) := by
  have hsound := hafter.represents
  obtain ⟨record, htoken⟩ := Option.isSome_iff_exists.mp (h.left clientId List.mem_cons_self)
  have hclient := hsound.ne_reserved htoken
  refine ⟨hclient, fun now found hread => ?_⟩
  have hresult : RedisStore.readToken clientId now w.store = _ :=
    RedisStore.readToken_eq hsound hclient
  rw [hresult, htoken] at hread
  obtain rfl := Except.ok.inj hread
  obtain ⟨rfl, -⟩ := hsound.record clientId record htoken
  have hlater : w.history <:+
      (w.commit now (RedisStore.readToken record.clientId) .listTokens).history :=
    List.suffix_cons ..
  refine ⟨?_, fun entry hentry => ?_, ?_⟩
  · simpa using h.named.later hlater
  · rcases List.mem_append.mp hentry with hold | hnew
    · exact (h.shown entry hold).later hlater
    · obtain rfl := List.mem_singleton.mp hnew
      exact ⟨[], _, w.history, rfl, hafter.history, record, htoken, rfl⟩
  · simp only [World.commit, hresult]
    exact fun clientId hmem => h.left clientId (List.mem_cons_of_mem _ hmem)

theorem listRest_reading :
    (RedisStore.listRest clientIds entries).Meets Timely (Move .redis platform policy)
      (fun result w => ∀ entries', result = .ok entries' → Reading since entries' [] w)
      (fun w => After .redis platform policy since w ∧ Reading since entries clientIds w) := by
  induction clientIds generalizing entries with
  | nil =>
      rintro w ⟨-, h⟩ entries' ⟨⟩
      exact h
  | cons clientId clientIds ih =>
      refine (perform_meets_of (b := .redis) (R := fun found =>
        Reading since (entries ++ found) clientIds) (fun _ h => h.1) (fun now w h => ?_)
        (fun _ => reading_stable) fun now w found h => (h.2.next h.1).2 now found).bind ?_
      · exact RedisStore.readToken_lawful platform policy (h.2.next h.1).1 now w.store
          h.1.possible.sound
      · rintro (error | found)
        · rintro w - entries' ⟨⟩
        · exact ih.weaken fun w h => ⟨h.1.1, h.2 found rfl⟩

theorem listTokens_reading :
    RedisStore.listTokens.Meets Timely (Move .redis platform policy)
      (fun result w => ∀ entries, result = .ok entries → Reading since entries [] w)
      (Held .redis platform policy since) := by
  refine (perform_meets_of (b := .redis) (R := fun clientIds =>
    Reading since [] (clientIds.insertionSort (· ≤ ·))) (fun _ h => h.toAfter) (fun now w h => ?_)
    (fun _ => reading_stable) fun now w clientIds h => h.reading).bind ?_
  · exact RedisStore.smembers_lawful platform policy now w.store h.possible.sound
  · rintro (error | clientIds)
    · rintro w - entries ⟨⟩
    · exact listRest_reading.weaken fun w h => ⟨h.1.1, h.2 clientIds rfl⟩

theorem serve_listed (r : HttpRequest) (since : World StoreBackend.redis.State) :
    ((routesWithConfig .redis platform config policy).serve r).Meets Timely
      (Move .redis platform policy)
      (fun response w => (routesWithConfig .redis platform config policy).middleware r =
        .tokensList → ∀ entries, response.body = .tokenEntries entries → Listed since entries w)
      (Held .redis platform policy since) := by
  by_cases hroute : (routesWithConfig .redis platform config policy).middleware r = .tokensList
  · rw [Application.serve, hroute]
    refine listTokens_reading.bind ?_
    rintro (error | entries)
    · rintro w - - entries hbody
      unfold writeStoreError at hbody
      split at hbody <;> cases hbody
    · rintro w h - entries ⟨⟩
      exact ⟨by simpa using (h entries rfl).named, (h entries rfl).shown⟩
  · exact ((serve_keeps r since).weaken fun _ h => h.toAfter).strengthen
      fun _ _ _ hlist => absurd hlist hroute

/-- What a list of the Redis store shows, whatever the other requests do
meanwhile. -/
theorem Plane.token_list {m : Plane .redis}
    (h : Transition.ReachableBy (controlPlane .redis platform config policy)
      (Machine.Admits Timely) m) {r : HttpRequest} {response : HttpResponse}
    (hthread : ⟨r, since, .done response⟩ ∈ m.threads)
    (hroute : (routesWithConfig .redis platform config policy).middleware r = .tokensList)
    (hbody : response.body = .tokenEntries entries) : Listed since entries m.shared :=
  Machine.meets_done (fun _ => fresh_possible) (fun _ _ hmove hw => hw.move hmove)
    (fun _ hw => ⟨held_stable, ⟨hw, List.suffix_refl _⟩, fun _ => id⟩) serve_listed h hthread
    hroute entries hbody

end Redis

namespace Sample

def turns (i n : ℕ) : List (Machine.Action Choice HttpRequest) :=
  List.replicate n (.access i { now := 0 })

def list : HttpRequest := { method := .get, path := .tokens }

/-- After a list has read the index, its only token is rotated and another one is
created. -/
def listed : Plane .redis :=
  (Plane.after .redis plainPlatform {} oneFailure
    (.spawn { method := .post, path := .tokens, body := client } :: turns 0 3 ++
      .spawn list :: turns 1 1 ++
      .spawn { method := .post, path := .rotate client, ifMatch := text "1" } :: turns 2 3 ++
      .spawn { method := .post, path := .tokens, body := text "b" } :: turns 3 3 ++
      turns 1 1)).get (by decide +kernel)

/-- The generations in an answer. -/
def generations : Program (World Redis.Keyspace) Choice HttpResponse → Option (List (Bytes × ℤ))
  | .done ⟨_, .tokenEntries entries, _, _⟩ => some (entries.map fun e => (e.clientId, e.generation))
  | _ => none

end Sample

/-- The list shows the rotated token, but not the other one. -/
theorem Plane.token_list_rotated : ∃ since entries,
    entries.map (fun e => (e.clientId, e.generation)) = [(Sample.client, 2)] ∧
      ((StoreBackend.redis.view Sample.listed.shared.store).token (text "b")).isSome ∧
      Listed since entries Sample.listed.shared := by
  have hanswer : Sample.listed.threads[1]?.map (fun thread =>
      (thread.request, Sample.generations thread.program)) =
        some (Sample.list, some [(Sample.client, 2)]) := by
    decide +kernel
  obtain ⟨⟨r, since, program⟩, hthread, hpair⟩ := Option.map_eq_some_iff.mp hanswer
  obtain ⟨rfl, hshown⟩ : r = Sample.list ∧ Sample.generations program = some _ :=
    Prod.mk.inj hpair
  unfold Sample.generations at hshown
  split at hshown
  · next entries _ _ =>
      exact ⟨since, entries, Option.some.inj hshown, by decide +kernel,
        token_list (after_reachable (Option.some_get _).symm) (List.mem_of_getElem? hthread)
          (by decide) rfl⟩
  · cases hshown

end App

end GatewaySystem
