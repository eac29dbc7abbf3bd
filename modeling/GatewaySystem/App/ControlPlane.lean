import GatewaySystem.App.Contents

/-!
# The control plane under concurrent requests

Any number of requests are in flight, and their accesses to the store
interleave. Every access is a `Move` of the world: time passes, or an event
enters the history together with its effect on the contents of the store. So the
history of every reachable world is a run of the abstract store, whichever
backend it has and whatever faults there are, and every answer that allows a
client or shows a configuration comes from an event of its own request.
-/

namespace GatewaySystem

namespace App

namespace StoreBackend

def view : (b : StoreBackend) → b.State → View
  | memory => MemoryStore.view
  | redis => RedisStore.view

/-- The invariant of a store. -/
def Sound : (b : StoreBackend) → b.State → Prop
  | memory => MemoryStore.Sound
  | redis => RedisStore.Sound

/-- The contents of a new store. -/
def freshView : StoreBackend → View
  | memory => ⟨fun _ => none, fun _ => none, some defaultRuntimeConfig⟩
  | redis => ⟨fun _ => none, fun _ => none, none⟩

theorem fresh_sound (b : StoreBackend) : b.Sound b.fresh ∧ b.view b.fresh = b.freshView := by
  cases b with
  | memory => exact ⟨⟨nofun, nofun⟩, rfl⟩
  | redis =>
      have h : RedisStore.Represents redis.freshView Redis.Keyspace.empty :=
        { token := fun _ _ => rfl
          reserved := rfl
          record := nofun
          index := ⟨[], List.nodup_nil, fun _ => by simp [freshView], rfl⟩
          failure := fun _ => rfl
          counter := nofun
          config := rfl
          fits := nofun }
      exact ⟨h.sound, h.view_eq⟩

end StoreBackend

/-- `applicationConfig`. -/
structure ApplicationConfig where
  environment : Bytes := text "production"
  adminToken : Bytes := []
  gatewayToken : Bytes := []
  tokenPepper : Bytes := []
  deriving DecidableEq

/-- `routesWithConfig` on a store of the backend. -/
def routesWithConfig (b : StoreBackend) (platform : Platform) (config : ApplicationConfig)
    (policy : AuthFailurePolicy) : Application b.State where
  platform := platform
  store := b.store platform
  tokenPepper := config.tokenPepper
  adminToken := config.adminToken
  gatewayToken := config.gatewayToken
  authFailures := policy

section Moves

variable (b : StoreBackend) (platform : Platform) (policy : AuthFailurePolicy)

/-- One step of the world. -/
inductive Move : World b.State → World b.State → Prop
  | idle {w : World b.State} {now : ℤ} (htime : w.now ≤ now) : Move w { w with now := now }
  | effect {w : World b.State} {now : ℤ} {event : Event} {store : b.State}
      (htime : w.now ≤ now) (hsound : b.Sound store)
      (heffect : Effect b platform policy now (b.view w.store) event (b.view store)) :
      Move w { store := store, now := now, history := ⟨w.store, now, event⟩ :: w.history }

/-- The worlds that moves lead to. -/
inductive Possible : World b.State → Prop
  | fresh (now : ℤ) : Possible { store := b.fresh, now := now }
  | move {w w' : World b.State} (h : Possible w) (hmove : Move b platform policy w w') :
      Possible w'

end Moves

variable {b : StoreBackend} {platform : Platform} {policy : AuthFailurePolicy}
  {w w' since : World b.State}

theorem Possible.sound (h : Possible b platform policy w) : b.Sound w.store := by
  induction h with
  | fresh now => exact b.fresh_sound.1
  | move _ hmove ih =>
      cases hmove with
      | idle => exact ih
      | effect _ hsound => exact hsound

/-- The integers that a successful access returned. -/
def Event.numbers : Event → List ℤ
  | .rotateToken _ _ (.ok record) => [record.generation]
  | .listTokens (.ok entries) => entries.map TokenEntry.generation
  | .getConfig (.ok config) => config.numbers
  | .updateConfig _ _ (.ok config) => config.numbers
  | _ => []

/-- Contents whose integers `int64` holds. -/
structure View.Int64 (v : View) : Prop where
  token : ∀ clientId record, v.token clientId = some record → Int64s [record.generation]
  config : ∀ config, v.config = some config → Int64s config.numbers

section Int64

variable {now : ℤ} {v v' : View} {event : Event}

theorem View.Int64.setToken (h : v.Int64) {clientId : Bytes} {record : TokenRecord}
    (hrecord : Int64s [record.generation]) : (v.setToken clientId record).Int64 := by
  refine ⟨fun c r hr => ?_, h.config⟩
  by_cases hc : c = clientId
  · subst hc
    obtain rfl : record = r := by simpa [View.setToken] using hr
    exact hrecord
  · exact h.token c r (by simpa [View.setToken, Function.update_of_ne hc] using hr)

theorem RedisStore.int64_of_sound {k : Redis.Keyspace} (h : Sound k) : (view k).Int64 := by
  have h : Represents (view k) k := h
  refine ⟨fun clientId record htoken => ?_, fun config hconfig => ?_⟩
  · obtain ⟨-, hmin, hmax⟩ := h.record clientId record htoken
    exact int64s_cons.mpr ⟨int64_of_generation hmin hmax, int64s_nil⟩
  · have hfits := h.fits config hconfig
    simp only [RuntimeConfig.numbers, int64s_cons, int64s_nil, and_true]
    exact ⟨int64_of_generation hfits.version.1 hfits.version.2, hfits.maxPayloadSize,
      hfits.maxConnectionsPerClient, hfits.maxRequestsPerClientPerSecond,
      hfits.slowClientOutputLimit, hfits.requestQueueCapacityDisplay⟩

/-- What the memory store writes is counted in `int64`. -/
theorem Effect.int64 (h : Effect .memory platform policy now v event v') (hv : v.Int64) :
    v'.Int64 := by
  cases h with
  | limited htoken hconfig => exact ⟨htoken ▸ hv.token, hconfig ▸ hv.config⟩
  | create hnew => exact hv.setToken (by rw [hnew.generation]; decide)
  | rotate => exact hv.setToken (int64s_cons.mpr ⟨wrapInt64_range _, int64s_nil⟩)
  | disable htoken =>
      have hrecord := hv.token _ _ htoken
      exact hv.setToken hrecord
  | initConfigFirst =>
      refine ⟨hv.token, fun config hconfig => ?_⟩
      obtain rfl := Option.some.inj hconfig
      decide
  | updateConfig hconfig _ hvalid =>
      refine ⟨hv.token, fun config hupdated => ?_⟩
      obtain rfl := Option.some.inj hupdated
      have hcurrent := hv.config _ hconfig
      exact RuntimeConfig.int64_updated (validateConfigUpdate_eq_none.mp hvalid).int64
        fun n hn => hcurrent n (by simp_all [RuntimeConfig.numbers])
  | _ => exact ⟨hv.token, hv.config⟩

/-- An access returns integers of the contents before or after it. -/
theorem Effect.int64_numbers (h : Effect b platform policy now v event v') (hv : v.Int64)
    (hv' : v'.Int64) : Int64s event.numbers := by
  cases h with
  | rotate _ _ _ _ hgeneration =>
      have hrotated := hv'.token _ _ (Function.update_self ..)
      rwa [Event.numbers, hgeneration]
  | list hentries =>
      intro n hn
      obtain ⟨entry, hentry, rfl⟩ := List.mem_map.mp hn
      obtain ⟨record, htoken, rfl⟩ := hentries entry hentry
      exact (int64s_cons.mp (hv.token _ _ htoken)).1
  | getConfig hconfig => exact hv.config _ hconfig
  | updateConfig => exact hv'.config _ rfl
  | _ => exact int64s_nil

theorem Possible.int64 (h : Possible b platform policy w) :
    (b.view w.store).Int64 ∧ ∀ past ∈ w.history, Int64s past.event.numbers := by
  induction h with
  | fresh now =>
      refine ⟨?_, by simp⟩
      rw [b.fresh_sound.2]
      cases b with
      | memory => exact ⟨by simp [StoreBackend.freshView], fun config hconfig => by
          obtain rfl := Option.some.inj hconfig
          decide⟩
      | redis => exact ⟨by simp [StoreBackend.freshView], by simp [StoreBackend.freshView]⟩
  | move _ hmove ih =>
      cases hmove with
      | idle => exact ih
      | @effect now event store _ hsound heffect =>
          have hstore : (b.view store).Int64 := by
            cases b with
            | memory => exact heffect.int64 ih.1
            | redis => exact RedisStore.int64_of_sound hsound
          refine ⟨hstore, fun past hpast => ?_⟩
          rcases List.mem_cons.mp hpast with rfl | hpast
          · exact heffect.int64_numbers ih.1 hstore
          · exact ih.2 past hpast

end Int64

/-- The clock does not go back. -/
def Timely (choice : Choice) (w : World b.State) : Prop := w.now ≤ choice.now

instance (choice : Choice) (w : World b.State) : Decidable (Timely choice w) :=
  inferInstanceAs (Decidable (w.now ≤ choice.now))

/-- A world that comes after another. -/
structure After (b : StoreBackend) (platform : Platform) (policy : AuthFailurePolicy)
    (since w : World b.State) : Prop where
  possible : Possible b platform policy w
  history : since.history <:+ w.history

/-- An event that came after a world. -/
def Occurs (since w : World b.State) (event : Event) : Prop :=
  ∃ later past earlier, w.history = later ++ past :: earlier ∧ past.event = event ∧
    since.history <:+ earlier

theorem Move.history (h : Move b platform policy w w') : w.history <:+ w'.history := by
  cases h with
  | idle => exact List.suffix_refl _
  | effect => exact List.suffix_cons ..

theorem Move.now_le (h : Move b platform policy w w') : w.now ≤ w'.now := by
  cases h with
  | idle htime => exact htime
  | effect htime => exact htime

theorem after_stable : Program.Stable (Move b platform policy) (After b platform policy since) :=
  fun _ _ hmove h => ⟨h.possible.move hmove, h.history.trans hmove.history⟩

theorem Occurs.move {event : Event} (h : Occurs since w event)
    (hmove : Move b platform policy w w') :
    Occurs since w' event := by
  obtain ⟨later, past, earlier, hhistory, hevent, hsince⟩ := h
  obtain ⟨newer, hnewer⟩ := hmove.history
  exact ⟨newer ++ later, past, earlier, by rw [← hnewer, hhistory, List.append_assoc], hevent,
    hsince⟩

/-- What is known after an access: the time that has passed and, when it
succeeded, its event. -/
def Recorded {α : Type} (b : StoreBackend) (platform : Platform) (policy : AuthFailurePolicy)
    (since : World b.State) (event : Except StoreError α → Event) (result : Except StoreError α)
    (w : World b.State) : Prop :=
  After b platform policy since w ∧ ∀ value, result = .ok value → Occurs since w (event (.ok value))

theorem recorded_stable {α : Type} {event : Except StoreError α → Event}
    {result : Except StoreError α} :
    Program.Stable (Move b platform policy) (Recorded b platform policy since event result) :=
  fun _ _ hmove h => ⟨after_stable _ _ hmove h.1, fun value hvalue => (h.2 value hvalue).move hmove⟩

theorem Occurs.int64 {event : Event} (h : Occurs since w event)
    (hw : Possible b platform policy w) : Int64s event.numbers := by
  obtain ⟨later, past, earlier, hhistory, rfl, -⟩ := h
  exact hw.int64.2 past (by simp [hhistory])

theorem Recorded.int64 {α : Type} {event : Except StoreError α → Event} {value : α}
    (h : Recorded b platform policy since event (.ok value) w) :
    Int64s (event (.ok value)).numbers :=
  (h.2 value rfl).int64 h.1.possible

/-- An access whose effect is known where it happens, with a consequence `R` of
its success that the others keep. -/
theorem perform_meets_of {α : Type} {remote : Bool} {access : Access b.State α}
    {event : Except StoreError α → Event} {P : World b.State → Prop}
    {R : α → World b.State → Prop} (hafter : ∀ w, P w → After b platform policy since w)
    (hlawful : ∀ now w, P w → b.Sound (access now w.store).2 ∧
      Effect b platform policy now (b.view w.store) (event (access now w.store).1)
        (b.view (access now w.store).2))
    (hstable : ∀ value, Program.Stable (Move b platform policy) (R value))
    (hR : ∀ now w value, P w → (access now w.store).1 = .ok value →
      R value (w.commit now access event)) :
    (perform remote access event).Meets Timely (Move b platform policy)
      (fun result w => Recorded b platform policy since event result w ∧
        ∀ value, result = .ok value → R value w) P := by
  refine Program.Meets.atomic (fun choice w hw htime => ?_) fun result w w' hmove h =>
    ⟨recorded_stable _ _ hmove h.1, fun value hvalue => hstable value _ _ hmove (h.2 value hvalue)⟩
  obtain ⟨hsound, heffect⟩ := hlawful choice.now w hw
  have hcommit : Move b platform policy w (w.commit choice.now access event) :=
    .effect htime hsound heffect
  have hidle : Move b platform policy w { w with now := choice.now } := .idle htime
  unfold World.perform
  split
  · exact ⟨hcommit, ⟨after_stable _ _ hcommit (hafter w hw), nofun⟩, nofun⟩
  · exact ⟨hidle, ⟨after_stable _ _ hidle (hafter w hw), nofun⟩, nofun⟩
  · refine ⟨hcommit, ⟨after_stable _ _ hcommit (hafter w hw), fun value hvalue => ?_⟩,
      fun value hvalue => hR choice.now w value hw hvalue⟩
    have hvalue : (access choice.now w.store).1 = .ok value := hvalue
    exact ⟨[], _, w.history, rfl, congrArg event hvalue, (hafter w hw).history⟩

theorem perform_meets {α : Type} {remote : Bool} {access : Access b.State α}
    {event : Except StoreError α → Event}
    (hlawful : Lawful b platform policy b.view b.Sound access event) :
    (perform remote access event).Meets Timely (Move b platform policy)
      (Recorded b platform policy since event) (After b platform policy since) :=
  (perform_meets_of (R := fun _ _ => True) (fun _ => id)
    (fun now w hw => hlawful now w.store hw.possible.sound) (fun _ _ _ _ => id)
    fun _ _ _ _ _ => trivial).strengthen fun _ _ h => h.1

theorem ask_meets :
    (ask : Task b.State Choice).Meets Timely (Move b platform policy)
      (fun _ => After b platform policy since) (After b platform policy since) :=
  Program.Meets.atomic
    (fun _ _ hw htime => ⟨.idle htime, after_stable _ _ (.idle htime) hw⟩) fun _ => after_stable

namespace StoreBackend

section Laws

variable (b : StoreBackend) (platform : Platform) (policy : AuthFailurePolicy)

theorem ping_lawful {ping : Access b.State Unit} (h : (b.store platform).ping = some ping) :
    Lawful b platform policy b.view b.Sound ping fun _ => .ping := by
  cases b with
  | memory => cases h
  | redis =>
      obtain rfl := Option.some.inj h
      exact fun _ _ hs => ⟨hs, .ping⟩

theorem verifyDigest_lawful (clientId digest : Bytes) :
    Lawful b platform policy b.view b.Sound ((b.store platform).verifyDigest clientId digest)
      (.verifyDigest clientId digest) := by
  cases b with
  | memory => exact MemoryStore.verifyDigest_lawful _ _ _ _
  | redis => exact RedisStore.verifyDigest_lawful _ _ _ _

theorem authFailureLimited_lawful (clientId : Bytes) :
    Lawful b platform policy b.view b.Sound
      ((b.store platform).authFailureLimited clientId policy.limit)
      (.authFailureLimited clientId) := by
  cases b with
  | memory => exact MemoryStore.authFailureLimited_lawful _ _ _
  | redis => exact RedisStore.authFailureLimited_lawful _ _ _

theorem recordAuthFailure_lawful (clientId : Bytes) :
    Lawful b platform policy b.view b.Sound
      ((b.store platform).recordAuthFailure clientId policy.window)
      (.recordAuthFailure clientId) := by
  cases b with
  | memory => exact MemoryStore.recordAuthFailure_lawful _ _ _
  | redis => exact RedisStore.recordAuthFailure_lawful _ _ _

theorem clearAuthFailures_lawful (clientId : Bytes) :
    Lawful b platform policy b.view b.Sound ((b.store platform).clearAuthFailures clientId)
      (.clearAuthFailures clientId) := by
  cases b with
  | memory => exact MemoryStore.clearAuthFailures_lawful _ _ _
  | redis => exact RedisStore.clearAuthFailures_lawful _ _ _

theorem createToken_lawful {record : TokenRecord} (hnew : record.New) :
    Lawful b platform policy b.view b.Sound ((b.store platform).createToken record)
      (.createToken record) := by
  cases b with
  | memory => exact MemoryStore.createToken_lawful _ _ hnew
  | redis => exact RedisStore.createToken_lawful _ _ hnew

theorem rotateToken_lawful {clientId : Bytes} (hclient : clientId ≠ reservedClientId)
    {expected : ℤ} (hpos : 0 < expected) (digest updatedAt : Bytes) :
    Lawful b platform policy b.view b.Sound
      ((b.store platform).rotateToken clientId expected digest updatedAt)
      (.rotateToken clientId expected) := by
  cases b with
  | memory => exact MemoryStore.rotateToken_lawful _ _ hpos _ _
  | redis => exact RedisStore.rotateToken_lawful _ _ hclient hpos _ _

theorem disableToken_lawful {clientId : Bytes} (hclient : clientId ≠ reservedClientId)
    (updatedAt : Bytes) :
    Lawful b platform policy b.view b.Sound ((b.store platform).disableToken clientId updatedAt)
      (.disableToken clientId) := by
  cases b with
  | memory => exact MemoryStore.disableToken_lawful _ _ _ _
  | redis => exact RedisStore.disableToken_lawful _ _ hclient _

theorem updateConfig_lawful {req : ConfigUpdateRequest}
    (hvalid : validateConfigUpdate platform req = none) (expected : ℤ) :
    Lawful b platform policy b.view b.Sound ((b.store platform).updateConfig expected req)
      (.updateConfig expected req) := by
  cases b with
  | memory => exact MemoryStore.updateConfig_lawful _ _ hvalid _
  | redis => exact RedisStore.updateConfig_lawful _ _ hvalid _

end Laws

end StoreBackend

/-- A configuration is never lost. -/
theorem Effect.config_ne_none {now : ℤ} {v v' : View} {event : Event}
    (h : Effect b platform policy now v event v') (hv : v.config ≠ none) : v'.config ≠ none := by
  cases h with
  | limited _ hconfig => rwa [hconfig]
  | initConfigFirst => simp
  | updateConfig => simp
  | _ => exact hv

theorem Effect.init_config {now : ℤ} {v v' : View}
    (h : Effect b platform policy now v .initConfig v') : v'.config ≠ none := by
  cases h with
  | initConfig h => exact h
  | initConfigFirst => simp

theorem config_stable :
    Program.Stable (Move b platform policy) fun w => (b.view w.store).config ≠ none := by
  intro w w' hmove h
  cases hmove with
  | idle => exact h
  | effect _ _ heffect => exact heffect.config_ne_none h

/-- What is known while the configuration is there. -/
def Configured (b : StoreBackend) (platform : Platform) (policy : AuthFailurePolicy)
    (since w : World b.State) : Prop :=
  After b platform policy since w ∧ (b.view w.store).config ≠ none

/-- What is known when the tokens have been listed. -/
def ListAnswered (b : StoreBackend) (platform : Platform) (policy : AuthFailurePolicy)
    (since : World b.State) (result : Except StoreError (List TokenEntry)) (w : World b.State) :
    Prop :=
  After b platform policy since w ∧
    ∀ entries, result = .ok entries → Int64s (entries.map TokenEntry.generation)

section Redis

variable {since : World StoreBackend.redis.State}

/-- The names in the index are names of tokens. -/
theorem smembers_meets :
    (perform true (RedisStore.lift (Redis.smembers RedisStore.indexKey)) fun _ =>
      Event.tokenIndex).Meets Timely (Move .redis platform policy)
      (fun result w => After .redis platform policy since w ∧
        ∀ clientIds, result = .ok clientIds → ∀ clientId ∈ clientIds, clientId ≠ reservedClientId)
      (After .redis platform policy since) := by
  refine (perform_meets_of (b := .redis) (R := fun clientIds _ => ∀ clientId ∈ clientIds,
    clientId ≠ reservedClientId) (fun _ => id)
    (fun now w hw => ?_) (fun _ _ _ _ => id)
    fun now w clientIds hw hresult clientId hmem => ?_).strengthen fun _ _ h => ⟨h.1.1, h.2⟩
  · exact RedisStore.smembers_lawful platform policy now w.store hw.possible.sound
  have hsound : RedisStore.Represents _ w.store := hw.possible.sound
  obtain ⟨members, -, hmembers, hindex⟩ := hsound.index
  simp only [RedisStore.lift, Redis.smembers_of_holdsSet hindex] at hresult
  obtain rfl := Except.ok.inj hresult
  obtain ⟨record, htoken⟩ := Option.isSome_iff_exists.mp ((hmembers clientId).mp hmem)
  exact hsound.ne_reserved htoken

theorem listRest_meets {clientIds : List Bytes}
    (hclients : ∀ clientId ∈ clientIds, clientId ≠ reservedClientId) {entries : List TokenEntry}
    (hentries : Int64s (entries.map TokenEntry.generation)) :
    (RedisStore.listRest clientIds entries).Meets Timely (Move .redis platform policy)
      (ListAnswered .redis platform policy since) (After .redis platform policy since) := by
  induction clientIds generalizing entries with
  | nil => exact fun _ h => ⟨h, fun own hown => Except.ok.inj hown ▸ hentries⟩
  | cons clientId clientIds ih =>
      have hread := RedisStore.readToken_lawful platform policy (hclients clientId (by simp))
      refine (perform_meets (b := .redis) hread).bind fun result => ?_
      cases result with
      | error error => exact fun _ h => ⟨h.1, nofun⟩
      | ok found =>
          by_cases hfound : Int64s (found.map TokenEntry.generation)
          · refine (ih (fun c hc => hclients c (by simp [hc])) ?_).weaken fun _ h => h.1
            rw [List.map_append]
            exact fun n hn => (List.mem_append.mp hn).elim (hentries n) (hfound n)
          · exact Program.Meets.of_false fun _ h => hfound h.int64

/-- The script sees to it that there is a configuration. -/
theorem initConfig_meets :
    (perform true (RedisStore.lift (RedisStore.initScript RedisStore.configKey
      defaultRuntimeConfig)) fun _ => Event.initConfig).Meets Timely (Move .redis platform policy)
      (fun result w => After .redis platform policy since w ∧
        ∀ value, result = .ok value → Configured .redis platform policy since w)
      (After .redis platform policy since) := by
  refine (perform_meets_of (b := .redis) (R := fun _ w =>
    (StoreBackend.redis.view w.store).config ≠ none) (fun _ => id)
    (fun now w hw => ?_) (fun _ => config_stable) fun now w value hw _ => ?_).strengthen
    fun _ _ h => ⟨h.1.1, fun value hvalue => ⟨h.1.1, h.2 value hvalue⟩⟩
  · exact RedisStore.initConfig_lawful platform policy now w.store hw.possible.sound
  exact (RedisStore.initConfig_lawful platform policy now w.store hw.possible.sound).2.init_config

theorem readConfig_meets :
    (perform true RedisStore.readConfig .getConfig).Meets Timely (Move .redis platform policy)
      (Recorded .redis platform policy since .getConfig)
      (Configured .redis platform policy since) := by
  refine (perform_meets_of (b := .redis) (R := fun _ _ => True) (fun _ h => h.1)
    (fun now w hw => ?_) (fun _ _ _ _ => id) fun _ _ _ _ _ => trivial).strengthen
    fun _ _ h => h.1
  have hsound : RedisStore.Represents _ w.store := hw.1.possible.sound
  obtain ⟨config, hconfig⟩ := Option.ne_none_iff_exists'.mp hw.2
  rw [RedisStore.readConfig_eq hsound hconfig]
  exact ⟨hw.1.possible.sound, .getConfig hconfig⟩

end Redis

theorem listTokens_meets :
    (b.store platform).listTokens.Meets Timely (Move b platform policy)
      (ListAnswered b platform policy since) (After b platform policy since) := by
  cases b with
  | memory =>
      refine (perform_meets (b := .memory)
        (MemoryStore.listTokens_lawful platform policy)).strengthen
        fun result _ h => ⟨h.1, fun entries hentries => ?_⟩
      subst hentries
      exact h.int64
  | redis =>
      refine smembers_meets.bind fun result => ?_
      cases result with
      | error error => exact fun _ h => ⟨h.1, nofun⟩
      | ok clientIds =>
          by_cases hclients : ∀ clientId ∈ clientIds, clientId ≠ reservedClientId
          · have hsorted : ∀ clientId ∈ clientIds.insertionSort (· ≤ ·),
                clientId ≠ reservedClientId :=
              fun c hc => hclients c ((List.mem_insertionSort _).mp hc)
            have hnone : Int64s (([] : List TokenEntry).map TokenEntry.generation) := int64s_nil
            exact (listRest_meets hsorted hnone).weaken fun _ h => h.1
          · exact Program.Meets.of_false fun _ h => hclients (h.2 clientIds rfl)

theorem getConfig_meets :
    (b.store platform).getConfig.Meets Timely (Move b platform policy)
      (Recorded b platform policy since .getConfig) (After b platform policy since) := by
  cases b with
  | memory => exact perform_meets (b := .memory) (MemoryStore.getConfig_lawful platform policy)
  | redis =>
      refine initConfig_meets.bind fun result => ?_
      cases result with
      | error error => exact fun _ h => ⟨h.1, nofun⟩
      | ok value => exact readConfig_meets.weaken fun _ h => h.2 value rfl

/-- What an answer tells: its integers are values of `int64`, an allowed client has
been verified, and a configuration has been read or written, by this request. -/
structure Answers (a : Application b.State) (platform : Platform) (policy : AuthFailurePolicy)
    (r : HttpRequest) (since : World b.State) (response : HttpResponse) (w : World b.State) :
    Prop where
  after : After b platform policy since w
  int64 : Int64s response.body.numbers
  allowed : ∀ answer, response.body = .authCheck answer → answer.allowed = true →
    ∃ req, a.decodeAuthCheck r = .ok req ∧
      Occurs since w (.verifyDigest req.clientId (a.digest req.token) (.ok .allowed))
  config : ∀ config, response.body = .config config →
    Occurs since w (.getConfig (.ok config)) ∨
      ∃ expected req, Occurs since w (.updateConfig expected req (.ok config))

section Handlers

variable {config : ApplicationConfig} {r : HttpRequest} {a : Application b.State}
  {response : HttpResponse}

theorem Answers.plain (h : After b platform policy since w)
    (hallowed : ∀ answer, response.body = .authCheck answer → answer.allowed = false)
    (hconfig : ∀ config, response.body ≠ .config config) (hnumbers : response.body.numbers = []) :
    Answers a platform policy r since response w :=
  ⟨h, hnumbers ▸ int64s_nil, fun answer hanswer hyes => by simp [hallowed answer hanswer] at hyes,
    fun config hbody => absurd hbody (hconfig config)⟩

theorem Answers.error (h : After b platform policy since w) (status : ℕ) (code message : String) :
    Answers a platform policy r since (writeAPIError r status code message) w :=
  .plain h nofun nofun rfl

theorem Answers.storeError (h : After b platform policy since w) (error : StoreError) :
    Answers a platform policy r since (writeStoreError r error) w := by
  unfold writeStoreError
  split <;> exact .error h ..

/-- The requirement on the tasks of an application. -/
def Keeps (b : StoreBackend) (platform : Platform) (config : ApplicationConfig)
    (policy : AuthFailurePolicy) (r : HttpRequest) (task : Task b.State HttpResponse) : Prop :=
  ∀ since, task.Meets Timely (Move b platform policy)
    (Answers (routesWithConfig b platform config policy) platform policy r since)
    (After b platform policy since)

theorem keeps_pure (hallowed : ∀ answer, response.body = .authCheck answer → answer.allowed = false)
    (hconfig : ∀ config, response.body ≠ .config config) (hnumbers : response.body.numbers = []) :
    Keeps b platform config policy r (pure response) :=
  fun _ _ h => .plain h hallowed hconfig hnumbers

theorem keeps_error (status : ℕ) (code message : String) :
    Keeps b platform config policy r (pure (writeAPIError r status code message)) :=
  fun _ _ h => .error h ..

theorem keeps_storeError (error : StoreError) :
    Keeps b platform config policy r (pure (writeStoreError r error)) :=
  fun _ _ h => .storeError h error

theorem decodeJSON_error {α : Type} {decode : Bytes → Except DecodeError α}
    (h : decodeJSON decode r = .error response) :
    ∃ status code message, response = writeAPIError r status code message := by
  unfold decodeJSON at h
  split at h
  · cases h
  all_goals
    obtain rfl := Except.error.inj h
    exact ⟨_, _, _, rfl⟩

theorem handleReady_keeps :
    Keeps b platform config policy r
      ((routesWithConfig b platform config policy).handleReady r) := by
  intro since
  unfold Application.handleReady
  split
  · exact fun _ h => .plain h nofun nofun rfl
  · next ping hping =>
      refine (perform_meets (b.ping_lawful platform policy hping)).bind fun result => ?_
      cases result with
      | error error => exact fun _ h => .error h.1 ..
      | ok value => exact fun _ h => .plain h.1 nofun nofun rfl

theorem refusal_body (decision : TokenAuthDecision) (count : ℤ) :
    ∃ answer, (a.refusal decision count).body = .authCheck answer ∧ answer.allowed = false := by
  unfold Application.refusal
  split
  · exact ⟨_, rfl, rfl⟩
  · split <;> exact ⟨_, rfl, rfl⟩

theorem Answers.refusal (h : After b platform policy since w) (decision : TokenAuthDecision)
    (count : ℤ) : Answers a platform policy r since (a.refusal decision count) w := by
  obtain ⟨answer, hbody, hrefused⟩ := refusal_body (a := a) decision count
  refine .plain h (fun own hown => ?_) (by simp [hbody]) (by rw [hbody]; rfl)
  cases hbody.symm.trans hown
  exact hrefused

theorem settleAuthCheck_meets {req : AuthCheckRequest} {decision : TokenAuthDecision}
    (hreq : (routesWithConfig b platform config policy).decodeAuthCheck r = .ok req) :
    ((routesWithConfig b platform config policy).settleAuthCheck r req.clientId decision).Meets
      Timely (Move b platform policy)
      (Answers (routesWithConfig b platform config policy) platform policy r since)
      (Recorded b platform policy since (.verifyDigest req.clientId
        ((routesWithConfig b platform config policy).digest req.token)) (.ok decision)) := by
  unfold Application.settleAuthCheck
  split
  · refine Program.Meets.weaken ?_ fun _ h => h.1
    refine (perform_meets (b.recordAuthFailure_lawful platform policy _)).bind fun result => ?_
    cases result with
    | error error => exact fun _ h => .error h.1 ..
    | ok count => exact fun _ h => .refusal h.1 ..
  · next hdecision =>
      have hdecision : decision = .allowed := not_not.mp hdecision
      subst hdecision
      refine Program.Meets.weaken (P := fun w => After b platform policy since w ∧
        Occurs since w (.verifyDigest req.clientId
          ((routesWithConfig b platform config policy).digest req.token) (.ok .allowed))) ?_
        fun _ h => ⟨h.1, h.2 _ rfl⟩
      refine ((perform_meets (b.clearAuthFailures_lawful platform policy _)).frame
        fun _ _ hmove h => Occurs.move h hmove).bind fun result => ?_
      cases result with
      | error error => exact fun _ h => .error h.1.1 ..
      | ok value => exact fun _ h => ⟨h.1.1, int64s_nil, fun _ _ _ => ⟨req, hreq, h.2⟩, nofun⟩

theorem handleAuthCheck_keeps :
    Keeps b platform config policy r
      ((routesWithConfig b platform config policy).handleAuthCheck r) := by
  intro since
  unfold Application.handleAuthCheck
  split
  · next response hresponse =>
      have herror : ∃ status code message, response = writeAPIError r status code message := by
        unfold Application.decodeAuthCheck at hresponse
        split at hresponse
        · next hdecode => exact Except.error.inj hresponse ▸ decodeJSON_error hdecode
        · split at hresponse
          · cases hresponse
          · exact ⟨_, _, _, (Except.error.inj hresponse).symm⟩
      obtain ⟨status, code, message, rfl⟩ := herror
      exact keeps_error status code message since
  · next req hreq =>
      refine (perform_meets (b.authFailureLimited_lawful platform policy _)).bind fun result => ?_
      cases result with
      | error error => exact fun _ h => .error h.1 ..
      | ok limited =>
          cases limited with
          | true =>
              exact fun _ h => .plain h.1 (fun answer hanswer => by cases hanswer; rfl) nofun rfl
          | false =>
              refine Program.Meets.weaken ?_ fun _ h => h.1
              refine (perform_meets (b.verifyDigest_lawful platform policy _ _)).bind
                fun result => ?_
              cases result with
              | error error => exact fun _ h => .error h.1 ..
              | ok decision => exact settleAuthCheck_meets hreq

theorem ne_reserved_of_valid {clientId : Bytes} (h : validTokenClientId clientId = true) :
    clientId ≠ reservedClientId := by
  simp only [validTokenClientId, Bool.and_eq_true, decide_eq_true_eq] at h
  exact h.2

theorem handleTokensUpsert_keeps :
    Keeps b platform config policy r
      ((routesWithConfig b platform config policy).handleTokensUpsert r) := by
  intro since
  unfold Application.handleTokensUpsert
  split
  · next response hresponse =>
      obtain ⟨status, code, message, rfl⟩ := decodeJSON_error hresponse
      exact keeps_error status code message since
  · next req hreq =>
      split
      · exact keeps_error _ _ _ since
      · next hvalid =>
          refine ask_meets.bind fun choice => ?_
          split
          · exact keeps_storeError _ since
          · refine ask_meets.bind fun choice' => ?_
            refine (perform_meets (b.createToken_lawful platform policy
              ⟨by simpa using hvalid, rfl, rfl, rfl⟩)).bind fun result => ?_
            split
            · exact fun _ h => .error h.1 ..
            · exact fun _ h => .storeError h.1 _
            · exact fun _ h => ⟨h.1, (by decide : Int64s [1]), nofun, nofun⟩

theorem handleTokensList_keeps :
    Keeps b platform config policy r
      ((routesWithConfig b platform config policy).handleTokensList r) := by
  intro since
  refine listTokens_meets.bind fun result => ?_
  cases result with
  | error error => exact fun _ h => .storeError h.1 error
  | ok entries => exact fun _ h => ⟨h.1, h.2 entries rfl, nofun, nofun⟩

theorem handleTokensDelete_keeps (clientId : Bytes) :
    Keeps b platform config policy r
      ((routesWithConfig b platform config policy).handleTokensDelete clientId r) := by
  intro since
  unfold Application.handleTokensDelete
  split
  · next hvalid =>
      refine ask_meets.bind fun choice => ?_
      refine (perform_meets (b.disableToken_lawful platform policy
        (ne_reserved_of_valid hvalid) _)).bind fun result => ?_
      split
      · exact fun _ h => .error h.1 ..
      · exact fun _ h => .storeError h.1 _
      · exact fun _ h => .plain h.1 nofun nofun rfl
  · exact keeps_error _ _ _ since

theorem parseGeneration_pos {value : Bytes} {generation : ℤ}
    (h : parseGeneration value = some generation) : 0 < generation := by
  unfold parseGeneration at h
  split at h
  · cases h
  · split at h
    · cases h
    · cases h
      omega

theorem handleTokensRotate_keeps (clientId : Bytes) :
    Keeps b platform config policy r
      ((routesWithConfig b platform config policy).handleTokensRotate clientId r) := by
  intro since
  unfold Application.handleTokensRotate
  split
  · exact keeps_error _ _ _ since
  · next hvalid =>
      split
      · exact keeps_error _ _ _ since
      · next expected hexpected =>
          refine ask_meets.bind fun choice => ?_
          split
          · exact keeps_storeError _ since
          · refine ask_meets.bind fun choice' => ?_
            refine (perform_meets (b.rotateToken_lawful platform policy
              (ne_reserved_of_valid (by simpa using hvalid))
              (parseGeneration_pos hexpected) _ _)).bind fun result => ?_
            split
            · exact fun _ h => .error h.1 ..
            · exact fun _ h => .error h.1 ..
            · exact fun _ h => .storeError h.1 _
            · exact fun _ h => ⟨h.1, h.int64, nofun, nofun⟩

theorem handleConfigGet_keeps :
    Keeps b platform config policy r
      ((routesWithConfig b platform config policy).handleConfigGet r) := by
  intro since
  refine getConfig_meets.bind fun result => ?_
  cases result with
  | error error => exact fun _ h => .storeError h.1 error
  | ok current =>
      refine fun _ h => ⟨h.1, h.int64, nofun, fun config hconfig => .inl ?_⟩
      cases hconfig
      exact h.2 _ rfl

/-- An update that is refused before the store is asked. -/
theorem decodeConfigUpdate_error (h : a.decodeConfigUpdate r = .error response) :
    ∃ status code message, response = writeAPIError r status code message := by
  unfold Application.decodeConfigUpdate at h
  split at h
  · exact ⟨_, _, _, (Except.error.inj h).symm⟩
  · split at h
    · exact ⟨_, _, _, (Except.error.inj h).symm⟩
    · split at h
      · next hdecode => exact Except.error.inj h ▸ decodeJSON_error hdecode
      · split at h
        · exact ⟨_, _, _, (Except.error.inj h).symm⟩
        · cases h

theorem decodeConfigUpdate_valid {expected : ℤ} {req : ConfigUpdateRequest}
    (h : a.decodeConfigUpdate r = .ok (expected, req)) :
    validateConfigUpdate a.platform req = none := by
  unfold Application.decodeConfigUpdate at h
  split at h
  · cases h
  · split at h
    · cases h
    · split at h
      · cases h
      · split at h
        · cases h
        · next hvalid =>
            cases h
            exact hvalid

theorem handleConfigUpdate_keeps :
    Keeps b platform config policy r
      ((routesWithConfig b platform config policy).handleConfigUpdate r) := by
  intro since
  unfold Application.handleConfigUpdate
  split
  · next response hresponse =>
      obtain ⟨status, code, message, rfl⟩ := decodeConfigUpdate_error hresponse
      exact keeps_error status code message since
  · next expected req hreq =>
      refine (perform_meets (b.updateConfig_lawful platform policy
        (decodeConfigUpdate_valid hreq) _)).bind fun result => ?_
      split
      · exact fun _ h => .error h.1 ..
      · exact fun _ h => .storeError h.1 _
      · refine fun _ h => ⟨h.1, h.int64, nofun, fun config hconfig => .inr ⟨expected, req, ?_⟩⟩
        cases hconfig
        exact h.2 _ rfl

/-- An answer for which no handler runs. -/
def Plain (response : HttpResponse) : Prop :=
  (∀ answer, response.body = .authCheck answer → answer.allowed = false) ∧
    (∀ config, response.body ≠ .config config) ∧ response.body.numbers = []

theorem middleware_plain (a : Application b.State) (h : a.middleware r = .answer response) :
    Plain response := by
  have hrouted := a.middleware_routed r
  rw [h] at hrouted
  cases hrouted
  exact ⟨nofun, nofun, rfl⟩

theorem run_keeps {handler : Application.Handler}
    (hplain : ∀ response, handler = .answer response → Plain response) :
    Keeps b platform config policy r
      ((routesWithConfig b platform config policy).run r handler) := by
  cases handler with
  | answer response =>
      obtain ⟨hallowed, hconfig, hnumbers⟩ := hplain response rfl
      exact keeps_pure hallowed hconfig hnumbers
  | health => exact keeps_pure nofun nofun rfl
  | ready => exact handleReady_keeps
  | authCheck => exact handleAuthCheck_keeps
  | tokensUpsert => exact handleTokensUpsert_keeps
  | tokensList => exact handleTokensList_keeps
  | tokensDelete clientId => exact handleTokensDelete_keeps clientId
  | tokensRotate clientId => exact handleTokensRotate_keeps clientId
  | configGet => exact handleConfigGet_keeps
  | configUpdate => exact handleConfigUpdate_keeps

/-- Every request keeps to the moves and is answered from its own events. -/
theorem serve_keeps (r : HttpRequest) :
    Keeps b platform config policy r ((routesWithConfig b platform config policy).serve r) :=
  run_keeps fun _ => middleware_plain _

end Handlers

/-- Concurrent requests over one store. -/
abbrev Plane (b : StoreBackend) := Machine (World b.State) Choice HttpRequest HttpResponse

/-- The control plane from a new store on. -/
def controlPlane (b : StoreBackend) (platform : Platform) (config : ApplicationConfig)
    (policy : AuthFailurePolicy) :
    Transition.System (Plane b) (Machine.Action Choice HttpRequest) :=
  Machine.system (routesWithConfig b platform config policy).serve
    fun w => w.store = b.fresh ∧ w.history = []

namespace Plane

variable {config : ApplicationConfig} {m : Plane b}

theorem fresh_possible (h : w.store = b.fresh ∧ w.history = []) :
    Possible b platform policy w := by
  obtain ⟨store, now, history⟩ := w
  obtain ⟨rfl, rfl⟩ := h
  exact .fresh now

/-- Every world that is reached comes of moves. -/
theorem possible
    (h : Transition.ReachableBy (controlPlane b platform config policy)
      (Machine.Admits Timely) m) : Possible b platform policy m.shared :=
  (Machine.meets (fun _ => fresh_possible) (fun _ _ hmove hw => hw.move hmove)
    (fun _ hw => ⟨after_stable, hw, List.suffix_refl _⟩) (fun r since => serve_keeps r since) h).1

theorem access_move
    (h : Transition.ReachableBy (controlPlane b platform config policy)
      (Machine.Admits Timely) m) {m' : Plane b} {i : ℕ} {choice : Choice}
    (htime : Timely choice m.shared)
    (hstep : (controlPlane b platform config policy).step m (.access i choice) = some m') :
    Move b platform policy m.shared m'.shared :=
  Machine.guarantee (fun _ => fresh_possible) (fun _ _ hmove hw => hw.move hmove)
    (fun _ hw => ⟨after_stable, hw, List.suffix_refl _⟩) (fun r since => serve_keeps r since) h
    htime hstep

/-- What the answer to a request tells. -/
theorem answers
    (h : Transition.ReachableBy (controlPlane b platform config policy)
      (Machine.Admits Timely) m) {r : HttpRequest} {response : HttpResponse}
    (hthread : ⟨r, since, .done response⟩ ∈ m.threads) :
    Answers (routesWithConfig b platform config policy) platform policy r since response
      m.shared :=
  Machine.meets_done (fun _ => fresh_possible) (fun _ _ hmove hw => hw.move hmove)
    (fun _ hw => ⟨after_stable, hw, List.suffix_refl _⟩) (fun r since => serve_keeps r since) h
    hthread

/-- What a run from a new store reaches. -/
def after (b : StoreBackend) (platform : Platform) (config : ApplicationConfig)
    (policy : AuthFailurePolicy) (actions : List (Machine.Action Choice HttpRequest)) :
    Option (Plane b) :=
  (controlPlane b platform config policy).runBy (Machine.Admits Timely)
    { shared := { store := b.fresh, now := 0 } } actions

theorem after_reachable {actions : List (Machine.Action Choice HttpRequest)}
    (h : after b platform config policy actions = some m) :
    Transition.ReachableBy (controlPlane b platform config policy) (Machine.Admits Timely) m :=
  Transition.System.runBy_reachable (.init ⟨⟨rfl, rfl⟩, rfl⟩) h

end Plane

namespace Sample

/-- Bodies without JSON: the name of a client, its name and token around a colon,
or a log level. -/
def plainPlatform : Platform where
  decodeAuthCheckRequest body :=
    .ok ⟨body.takeWhile (· ≠ 58), (body.dropWhile (· ≠ 58)).drop 1⟩
  decodeTokenUpsertRequest body := .ok ⟨body⟩
  decodeConfigUpdateRequest body := .ok ⟨1024, 1, 1, 4096, body⟩
  toUpper := List.map fun byte => if 97 ≤ byte ∧ byte ≤ 122 then byte - 32 else byte
  rfc3339Nano := Decimal.format
  hmacSha256Hex pepper token := pepper ++ token

def oneFailure : AuthFailurePolicy := authFailurePolicyFromEnv 1 60

def client : Bytes := text "a"

end Sample

end App

end GatewaySystem
