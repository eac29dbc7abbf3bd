import GatewaySystem.App.ControlPlane

/-!
# Rotations and the generation of a token

A rotation names the generation it has read. A rotation of another counts up, so
the number does not come back: what was read is told apart from what is there as
soon as there was a rotation in between. A disabled token keeps its generation,
and so does a rotation in Redis of a generation that has no successor among the
doubles.
-/

namespace GatewaySystem

namespace App

namespace StoreBackend

/-- The generations a store can hold. -/
def Holds : StoreBackend → ℤ → Prop
  | memory, generation => generation ≤ int64Max
  | redis, generation => 1 ≤ generation ∧ generation ≤ 2 ^ 53

/-- Whether a rotation of a generation changes it. -/
def Counts : StoreBackend → ℤ → Prop
  | memory, _ => True
  | redis, generation => generation < 2 ^ 53

variable {b : StoreBackend} {s : b.State} {generation : ℤ}

theorem Sound.holds (hs : b.Sound s) {clientId : Bytes} {record : TokenRecord}
    (h : (b.view s).token clientId = some record) : b.Holds record.generation := by
  cases b with
  | memory => exact (MemoryStore.Sound.record hs clientId record h).2
  | redis => exact (RedisStore.Represents.record hs clientId record h).2

/-- A number that counts up is larger, or it has overflowed. -/
theorem next_beyond (hholds : b.Holds generation) (hpos : 0 < generation)
    (hcounts : b.Counts generation) : generation < b.next generation ∨ b.next generation < 0 := by
  cases b with
  | memory =>
      have hmax : generation ≤ int64Max := hholds
      rcases lt_or_eq_of_le hmax with hlt | rfl
      · have hnext : memory.next generation = generation + 1 :=
          wrapInt64_of_range (by unfold int64Min; omega) (by omega)
        omega
      · exact .inr (by decide)
  | redis =>
      have hlt : generation < 2 ^ 53 := hcounts
      have hnext : redis.next generation = generation + 1 :=
        Double.round_of_le (by omega) (by omega)
      omega

theorem next_stuck (hholds : b.Holds generation) (hcounts : ¬b.Counts generation) :
    b.next generation = generation := by
  cases b with
  | memory => exact absurd trivial hcounts
  | redis =>
      obtain rfl : generation = 2 ^ 53 := le_antisymm hholds.2 (not_lt.mp hcounts)
      exact Double.round_limit_succ

theorem pos_of_agrees (hholds : b.Holds generation) {expected : ℤ} (hpos : 0 < expected)
    (hagrees : b.agrees generation expected) : 0 < generation := by
  cases b with
  | memory => exact hpos.trans_eq hagrees.symm
  | redis => exact hholds.1

theorem agrees_iff {current : ℤ} (hholds : b.Holds generation) :
    b.agrees current generation ↔ current = generation := by
  cases b with
  | memory => exact Iff.rfl
  | redis =>
      have hround : Double.round generation = generation :=
        Double.round_of_le (by have := hholds.1; omega) hholds.2
      rw [agrees, hround]

end StoreBackend

/-- The generation an answer shows to whoever asked. -/
def Event.Shows (clientId : Bytes) (generation : ℤ) : Event → Prop
  | .createToken record (.ok _) => record.clientId = clientId ∧ generation = 1
  | .rotateToken client _ (.ok record) => client = clientId ∧ generation = record.generation
  | .listTokens (.ok entries) =>
      ∃ entry ∈ entries, entry.clientId = clientId ∧ entry.generation = generation
  | _ => False

/-- An update of a token that took place. -/
def Event.Updates (clientId : Bytes) : Event → Prop
  | .createToken record (.ok _) => record.clientId = clientId
  | .rotateToken client _ (.ok _) => client = clientId
  | .disableToken client (.ok _) => client = clientId
  | _ => False

/-- A rotation that took place on a generation that counts. -/
def Past.Rotates (b : StoreBackend) (clientId : Bytes) (past : Past b.State) : Prop :=
  (∃ expected record, past.event = .rotateToken clientId expected (.ok record)) ∧
    ∀ record, (b.view past.store).token clientId = some record → b.Counts record.generation

variable {b : StoreBackend} {platform : Platform} {policy : AuthFailurePolicy}
  {w : World b.State} {clientId : Bytes} {generation : ℤ}

/-- What is shown is what is there. -/
theorem Effect.shown {now : ℤ} {v v' : View} {event : Event}
    (h : Effect b platform policy now v event v') (hshows : event.Shows clientId generation) :
    ∃ record, v'.token clientId = some record ∧ record.generation = generation := by
  cases h with
  | create hnew =>
      obtain ⟨rfl, rfl⟩ := hshows
      exact ⟨_, Function.update_self .., hnew.generation⟩
  | rotate _ _ _ _ hgeneration =>
      obtain ⟨rfl, rfl⟩ := hshows
      exact ⟨_, Function.update_self .., hgeneration.symm⟩
  | list h =>
      obtain ⟨entry, hentry, rfl, rfl⟩ := hshows
      obtain ⟨record, htoken, rfl⟩ := h entry hentry
      exact ⟨record, htoken, rfl⟩
  | _ => exact hshows.elim

/-- What an access does to a token that is there. -/
theorem Effect.kept_or_rotated {now : ℤ} {v v' : View} {event : Event} {record : TokenRecord}
    (h : Effect b platform policy now v event v') (htoken : v.token clientId = some record) :
    (∃ record', v'.token clientId = some record' ∧ record'.generation = record.generation ∧
      ∀ expected answer, event ≠ .rotateToken clientId expected (.ok answer)) ∨
    ∃ record' expected answer, v'.token clientId = some record' ∧
      record'.generation = b.next record.generation ∧
      event = .rotateToken clientId expected (.ok answer) ∧ 0 < expected ∧
      b.agrees record.generation expected := by
  have hset : ∀ {client : Bytes} {new : TokenRecord}, client ≠ clientId →
      (v.setToken client new).token clientId = some record := fun hne => by
    simp [View.setToken, Function.update_of_ne hne.symm, htoken]
  cases h with
  | limited htokens => exact .inl ⟨record, by rw [htokens, htoken], rfl, by simp⟩
  | create _ hnone =>
      refine .inl ⟨record, hset ?_, rfl, by simp⟩
      rintro rfl
      cases hnone.symm.trans htoken
  | @rotate client _ _ expected old answer hold hpos hagrees =>
      by_cases hclient : client = clientId
      · subst hclient
        obtain rfl := Option.some.inj (hold.symm.trans htoken)
        exact .inr ⟨_, expected, answer, Function.update_self .., rfl, rfl, hpos, hagrees⟩
      · refine .inl ⟨record, hset hclient, rfl, ?_⟩
        rintro expected' answer' ⟨⟩
        exact hclient rfl
  | @disable client _ old hold =>
      by_cases hclient : client = clientId
      · subst hclient
        obtain rfl := Option.some.inj (hold.symm.trans htoken)
        exact .inl ⟨_, Function.update_self .., rfl, by simp⟩
      · exact .inl ⟨record, hset hclient, rfl, by simp⟩
  | _ => exact .inl ⟨record, htoken, rfl, by simp⟩

/-- The generation of a token after it was shown: the same until a rotation
counts, and never the same again. -/
theorem Possible.generation_since (h : Possible b platform policy w)
    {later earlier : List (Past b.State)} {read : Past b.State}
    (hhistory : w.history = later ++ read :: earlier)
    (hread : read.event.Shows clientId generation) :
    b.Holds generation ∧ ∃ record, (b.view w.store).token clientId = some record ∧
      ((∃ past ∈ later, past.Rotates b clientId) ∧
          (generation < record.generation ∨ record.generation < 0) ∨
        (∀ past ∈ later, ¬past.Rotates b clientId) ∧ record.generation = generation) := by
  induction h generalizing later with
  | fresh now => simp at hhistory
  | @move w w' hw hmove ih =>
      cases hmove with
      | idle => exact ih hhistory
      | @effect now event store htime hsound heffect =>
          cases later with
          | nil =>
              obtain ⟨rfl, rfl⟩ := List.cons.inj hhistory
              obtain ⟨record, htoken, rfl⟩ := heffect.shown hread
              exact ⟨hsound.holds htoken, record, htoken, .inr ⟨by simp, rfl⟩⟩
          | cons past later =>
              obtain ⟨rfl, hrest⟩ := List.cons.inj hhistory
              obtain ⟨hholds, record, htoken, hrecord⟩ := ih hrest
              refine ⟨hholds, ?_⟩
              rcases heffect.kept_or_rotated htoken with
                ⟨record', htoken', hkept, hevent⟩ |
                ⟨record', expected, answer, htoken', hnext, rfl, hpos, hagrees⟩
              · refine ⟨record', htoken', hkept ▸ ?_⟩
                have hnot : ¬Past.Rotates b clientId ⟨w.store, now, event⟩ := by
                  rintro ⟨⟨expected, answer, heq⟩, -⟩
                  exact hevent expected answer heq
                simpa [hnot] using hrecord
              · have hold := hw.sound.holds htoken
                have holdpos := StoreBackend.pos_of_agrees hold hpos hagrees
                refine ⟨record', htoken', ?_⟩
                by_cases hcounts : b.Counts record.generation
                · refine .inl ⟨⟨_, List.mem_cons_self, ⟨expected, answer, rfl⟩,
                    fun r hr => Option.some.inj (htoken.symm.trans hr) ▸ hcounts⟩, ?_⟩
                  have hbeyond := StoreBackend.next_beyond hold holdpos hcounts
                  rcases hrecord with ⟨-, hgeneration⟩ | ⟨-, hgeneration⟩ <;> omega
                · have hnot : ¬Past.Rotates b clientId
                      ⟨w.store, now, .rotateToken clientId expected (.ok answer)⟩ :=
                    fun hrotates => hcounts (hrotates.2 record htoken)
                  rw [hnext, StoreBackend.next_stuck hold hcounts]
                  simpa [hnot] using hrecord

/-- A rotation is refused exactly when the generation is not the expected one. -/
theorem StoreBackend.rotateToken_conflict_iff {s : b.State} (hs : b.Sound s)
    {record : TokenRecord} (htoken : (b.view s).token clientId = some record) (expected now : ℤ)
    (digest updatedAt : Bytes) :
    (b.store platform).rotateToken clientId expected digest updatedAt now s =
        (.error .tokenConflict, s) ↔ ¬b.agrees record.generation expected := by
  cases b with
  | memory =>
      have htoken : AList.lookup clientId (MemoryStore.tokens s) = some record := htoken
      show MemoryStore.rotateToken clientId expected digest updatedAt now s = _ ↔
        ¬record.generation = expected
      simp only [MemoryStore.rotateToken, htoken]
      by_cases hexpected : record.generation = expected
      · rw [if_neg (not_not.mpr hexpected)]
        exact iff_of_false (fun heq => by cases congrArg Prod.fst heq) (not_not.mpr hexpected)
      · rw [if_pos hexpected]
        exact iff_of_true rfl hexpected
  | redis =>
      by_cases hexpected : StoreBackend.redis.agrees record.generation expected
      · refine iff_of_false ?_ (not_not.mpr hexpected)
        show RedisStore.rotateToken clientId expected digest updatedAt now s ≠ _
        rw [RedisStore.rotateToken_eq hs htoken hexpected]
        exact fun heq => by cases congrArg Prod.fst heq
      · exact iff_of_true (RedisStore.rotateToken_conflict hs htoken hexpected ..) hexpected

namespace Plane

variable {config : ApplicationConfig} {m : Plane b}

/-- A rotation with a generation that was read before updates of others is
refused, and leaves the store as it is, exactly when one of them is a rotation
that counts. -/
theorem rotation_conflicts
    (h : Transition.ReachableBy (controlPlane b platform config policy)
      (Machine.Admits Timely) m) {later earlier : List (Past b.State)} {read : Past b.State}
    (hhistory : m.shared.history = later ++ read :: earlier)
    (hread : read.event.Shows clientId generation) (hpos : 0 < generation) (now : ℤ)
    (digest updatedAt : Bytes) :
    (b.store platform).rotateToken clientId generation digest updatedAt now m.shared.store =
        (.error .tokenConflict, m.shared.store) ↔
      ∃ past ∈ later, past.Rotates b clientId := by
  have hpossible := possible h
  obtain ⟨hholds, record, htoken, hrecord⟩ := hpossible.generation_since hhistory hread
  rw [StoreBackend.rotateToken_conflict_iff hpossible.sound htoken,
    StoreBackend.agrees_iff hholds]
  rcases hrecord with ⟨hrotated, hgeneration⟩ | ⟨hkept, hgeneration⟩
  · exact iff_of_true (by omega) hrotated
  · refine iff_of_false (not_not.mpr hgeneration) ?_
    rintro ⟨past, hpast, hrotates⟩
    exact hkept past hpast hrotates

end Plane

namespace Sample

/-- The token of a client is created and then disabled. -/
def createThenDisable : List (Machine.Action Choice HttpRequest) :=
  [.spawn { method := .post, path := .tokens, body := client }, .access 0 { now := 0 },
    .access 0 { now := 0 }, .access 0 { now := 0 },
    .spawn { method := .delete, path := .token client }, .access 1 { now := 0 },
    .access 1 { now := 0 }]

/-- After that it is rotated. -/
def createThenRotate : List (Machine.Action Choice HttpRequest) :=
  createThenDisable ++
    [.spawn { method := .post, path := .rotate client, ifMatch := text "1" },
      .access 2 { now := 0 }, .access 2 { now := 0 }, .access 2 { now := 0 }]

def disabled (b : StoreBackend) : Plane b :=
  (Plane.after b plainPlatform {} oneFailure createThenDisable).get (by
    cases b <;> decide +kernel)

def rotated (b : StoreBackend) : Plane b :=
  (Plane.after b plainPlatform {} oneFailure createThenRotate).get (by
    cases b <;> decide +kernel)

def created : TokenRecord where
  clientId := client
  digest := []
  disabled := false
  generation := 1
  createdAt := text "0"
  updatedAt := text "0"

/-- What happens in the second run, with the generations the accesses meet. -/
def rotatedPast : List (Event × Option ℤ) :=
  [(.rotateToken client 1 (.ok { created with generation := 2, createdAt := [] }), some 1),
    (.disableToken client (.ok ()), some 1), (.createToken created (.ok ()), none)]

end Sample

namespace Plane

/-- A rotation with the first generation is refused after another one. -/
theorem rotation_conflicts_rotated :
    (StoreBackend.redis.store Sample.plainPlatform).rotateToken Sample.client 1 [] [] 0
        (Sample.rotated .redis).shared.store =
      (.error .tokenConflict, (Sample.rotated .redis).shared.store) := by
  obtain ⟨third, second, first, hhistory⟩ := List.length_eq_three.mp
    (by decide +kernel : (Sample.rotated .redis).shared.history.length = 3)
  have hevents : (Sample.rotated .redis).shared.history.map (fun past =>
      (past.event, ((StoreBackend.redis.view past.store).token Sample.client).map
        (·.generation))) = Sample.rotatedPast := by
    decide +kernel
  simp only [hhistory, List.map_cons, List.map_nil, Sample.rotatedPast, List.cons.injEq,
    Prod.mk.injEq, Option.map_eq_some_iff] at hevents
  obtain ⟨⟨hrotate, record, hrecord, hone⟩, -, ⟨hcreate, -⟩, -⟩ := hevents
  have hhistory : (Sample.rotated .redis).shared.history = [third, second] ++ [first] := hhistory
  refine (rotation_conflicts (after_reachable (Option.some_get _).symm) hhistory
    (by rw [hcreate]; exact ⟨rfl, rfl⟩) (by decide) ..).mpr
    ⟨third, List.mem_cons_self, ⟨_, _, hrotate⟩, ?_⟩
  intro record' hrecord'
  obtain rfl := Option.some.inj (hrecord.symm.trans hrecord')
  show record.generation < 2 ^ 53
  omega

/-- The token is disabled after its generation was read, and a rotation with that
generation enables it again. -/
def DisableUndone (b : StoreBackend) : Prop :=
  ∃ (m : Plane b) (later earlier : List (Past b.State)) (read : Past b.State),
    Transition.ReachableBy (controlPlane b Sample.plainPlatform {} Sample.oneFailure)
      (Machine.Admits Timely) m ∧
    m.shared.history = later ++ read :: earlier ∧ read.event.Shows Sample.client 1 ∧
    (∃ past ∈ later, past.event.Updates Sample.client) ∧
    ((b.view m.shared.store).token Sample.client).map (·.disabled) = some true ∧
    ∃ answer s, (b.store Sample.plainPlatform).rotateToken Sample.client 1 [] [] 0
        m.shared.store = (answer, s) ∧ answer.isOk ∧
      ((b.view s).token Sample.client).map (·.disabled) = some false

theorem disableUndone (b : StoreBackend) : DisableUndone b := by
  obtain ⟨second, first, hhistory⟩ := List.length_eq_two.mp
    (by cases b <;> decide +kernel : (Sample.disabled b).shared.history.length = 2)
  have hevents : (Sample.disabled b).shared.history.map Past.event =
      [.disableToken Sample.client (.ok ()), .createToken Sample.created (.ok ())] := by
    cases b <;> decide +kernel
  simp only [hhistory, List.map_cons, List.map_nil, List.cons.injEq, and_true] at hevents
  refine ⟨Sample.disabled b, [second], [], first, after_reachable (Option.some_get _).symm,
    hhistory, by rw [hevents.2]; exact ⟨rfl, rfl⟩, ⟨second, List.mem_singleton_self _,
    by rw [hevents.1]; rfl⟩, by cases b <;> decide +kernel, _, _, rfl, ?_, ?_⟩ <;>
  cases b <;> decide +kernel

/-- With both stores. -/
theorem rotation_undoes_disable : DisableUndone .memory ∧ DisableUndone .redis :=
  ⟨disableUndone .memory, disableUndone .redis⟩

end Plane

end App

end GatewaySystem
