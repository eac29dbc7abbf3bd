import GatewaySystem.Lib.FixedWindow
import GatewaySystem.Net.Effects
import GatewaySystem.Net.Lifecycle

/-!
# The rate limit of a client

`allowRequestForClient` is a limiter with fixed windows, one for each client.
`closeConnection` drops the window of a client with its last authenticated
connection, however young the window is; a client that connects again starts
with a new one. Without that, and as long as the clock does not stand at its
epoch, which `allowRequestForClient` takes for a window that was never started,
at most twice the rate is let through in less than a second.
-/

namespace GatewaySystem

/-- When a request of the client was let through. -/
def Event.allowedAt (clientId : Bytes) : Event → Option ℤ
  | .checked own now answer => if own = clientId ∧ answer = true then some now else none
  | _ => none

theorem Event.allowedAt_of_isPlain {clientId : Bytes} {event : Event}
    (h : event.isPlain = true) : event.allowedAt clientId = none := by
  cases event <;> first | rfl | cases h

/-- Whether the action is one of the puller. -/
def Action.isPull : Action → Bool
  | .pullConfig _ => true
  | _ => false

namespace Server

open FixedWindow

variable {library : Json.Library} {args : StartArgs} {clientId : Bytes} {N : ℤ} {s t : Server}

/-- The times at which requests of a client were let through, newest first. -/
def allowedTimes (s : Server) (clientId : Bytes) : List ℤ :=
  s.log.filterMap (Event.allowedAt clientId)

/-- The limiter of a client. -/
def limiter (s : Server) (clientId : Bytes) : Limiter where
  window := (s.rateLimitWindows.lookup clientId).map fun window =>
    ⟨window.startedAt, window.count⟩
  now := s.now
  passed := s.allowedTimes clientId

/-- No window of the client was dropped before it was over, and no check of the
client found the clock at its epoch. -/
structure Undisturbed (clientId : Bytes) (log : List Event) : Prop where
  kept : ∀ startedAt now, .windowErased clientId startedAt now ∈ log → second ≤ now - startedAt
  clock : ∀ answer, .checked clientId 0 answer ∉ log

theorem Undisturbed.of_append {events log : List Event}
    (h : Undisturbed clientId (events ++ log)) : Undisturbed clientId log where
  kept startedAt now hmem := h.kept startedAt now (List.mem_append_right events hmem)
  clock answer hmem := h.clock answer (List.mem_append_right events hmem)

/-- The window of the client was started. -/
def Started (s : Server) (clientId : Bytes) : Prop :=
  ∀ window, s.rateLimitWindows.lookup clientId = some window → window.startedAt ≠ 0

/-! ## The two functions -/

theorem eraseWindow_limiter (s : Server) (own : Bytes)
    (h : Undisturbed clientId (s.eraseWindow own).log) (hstarted : s.Started clientId) :
    Relation.ReflTransGen (Step second N) (s.limiter clientId)
        ((s.eraseWindow own).limiter clientId) ∧
      (s.eraseWindow own).Started clientId := by
  unfold eraseWindow at h ⊢
  split at h
  · exact ⟨.refl, hstarted⟩
  · next window hwindow =>
      by_cases hown : clientId = own
      · subst hown
        have hover := h.kept window.startedAt s.now List.mem_cons_self
        refine ⟨.single ?_, fun own hmem => ?_⟩
        · have hdrop : Step second N
              ⟨some ⟨window.startedAt, window.count⟩, s.now, s.allowedTimes clientId⟩
              ⟨none, s.now, s.allowedTimes clientId⟩ := .drop _ _ _ hover
          simpa [limiter, emit, allowedTimes, hwindow, List.filterMap_cons, Event.allowedAt]
            using hdrop
        · simp [emit] at hmem
      · have hlookup := AList.lookup_erase_ne (s := s.rateLimitWindows) hown
        refine ⟨?_, fun own hmem => hstarted own (by rw [← hlookup]; exact hmem)⟩
        have hsame : ({ s with rateLimitWindows := s.rateLimitWindows.erase own }.emit
            (.windowErased own window.startedAt s.now)).limiter clientId =
              s.limiter clientId := by
          simp [limiter, emit, allowedTimes, hlookup, List.filterMap_cons, Event.allowedAt]
        rw [hsame]

/-- The window `allowRequestForClient` works with is the old one, or a new one
after the old one is over. -/
theorem currentWindow_limiter (s : Server) (now : ℤ) (hstarted : s.Started clientId) :
    Relation.ReflTransGen (Step second N)
        ⟨(s.rateLimitWindows.lookup clientId).map fun window =>
          ⟨window.startedAt, window.count⟩, now, s.allowedTimes clientId⟩
        ⟨some ⟨(s.currentWindow clientId now).startedAt, (s.currentWindow clientId now).count⟩,
          now, s.allowedTimes clientId⟩ ∧
      now - (s.currentWindow clientId now).startedAt < second ∧
      ((s.currentWindow clientId now).startedAt ≠ 0 ∨
        s.currentWindow clientId now = ⟨now, 0⟩) := by
  unfold currentWindow
  cases hlookup : s.rateLimitWindows.lookup clientId with
  | none => exact ⟨.single (.renew ..), by simp [second], .inr rfl⟩
  | some window =>
      have hne := hstarted window hlookup
      simp only [Option.getD_some, Option.map_some, hne, false_or, ge_iff_le]
      split
      · next hover =>
          exact ⟨.tail (.single (.drop _ _ _ hover)) (.renew ..), by simp [second], .inr rfl⟩
      · next hyoung => exact ⟨.refl, not_le.mp hyoung, .inl hne⟩

theorem allowRequestForClient_limiter (s : Server) (own : Bytes) (tick : ℕ) (hN : 1 ≤ N)
    (hconfig : s.runtimeConfig.maxRequestsPerClientPerSecond = N)
    (h : Undisturbed clientId (s.allowRequestForClient own s.runtimeConfig tick).2.log)
    (hstarted : s.Started clientId) :
    Relation.ReflTransGen (Step second N) (s.limiter clientId)
        ((s.allowRequestForClient own s.runtimeConfig tick).2.limiter clientId) ∧
      (s.allowRequestForClient own s.runtimeConfig tick).2.Started clientId := by
  have hwait : Step second N (s.limiter clientId)
      { s.limiter clientId with now := s.now + tick } :=
    .wait _ _ _ _ (le_add_of_nonneg_right (Int.natCast_nonneg tick))
  by_cases hown : clientId = own
  · subst hown
    obtain ⟨hcurrent, hyoung, hepoch⟩ :=
      currentWindow_limiter (N := N) s (s.now + tick) hstarted
    unfold allowRequestForClient at h ⊢
    simp only [hconfig] at h ⊢
    generalize s.currentWindow clientId (s.now + tick) = window at hcurrent hyoung hepoch h ⊢
    split at h
    · next hfull =>
        rw [if_pos hfull]
        refine ⟨.head hwait ?_, fun own hmem => ?_⟩
        · simpa [limiter, emit, allowedTimes, Event.allowedAt] using hcurrent
        · obtain rfl : window = own := by simpa [emit] using hmem
          rcases hepoch with hne | rfl
          · exact hne
          · exact absurd hfull (by simp; omega)
    · next hspace =>
        rw [if_neg hspace]
        have hpass := Step.pass window.startedAt window.count (s.now + tick)
          (s.allowedTimes clientId) hyoung (not_le.mp hspace)
        refine ⟨.head hwait (hcurrent.tail ?_), fun own hmem => ?_⟩
        · simpa [limiter, emit, allowedTimes, Event.allowedAt] using hpass
        · obtain rfl : { window with count := window.count + 1 } = own := by
            simpa [emit] using hmem
          rcases hepoch with hne | rfl
          · exact hne
          · intro hzero
            refine h.clock true ?_
            simp only at hzero
            simp [emit, hzero]
  · have hlookup : ∀ window, (s.rateLimitWindows.insert own window).lookup clientId =
        s.rateLimitWindows.lookup clientId := fun window => AList.lookup_insert_ne hown
    unfold allowRequestForClient
    simp only
    split <;>
    · refine ⟨.single ?_, fun window hmem => hstarted window (hlookup _ ▸ hmem)⟩
      simpa [limiter, emit, allowedTimes, hlookup, Event.allowedAt, Ne.symm hown] using hwait

/-! ## Runs -/

/-- Effects that leave the windows and the clock alone and let nothing through
leave the limiter as it is. -/
theorem limiter_untouched (events : List Event)
    (hwindows : t.rateLimitWindows = s.rateLimitWindows) (hnow : t.now = s.now)
    (hlog : t.log = events ++ s.log)
    (hevents : ∀ event ∈ events, event.allowedAt clientId = none)
    (h : Valid second N (s.limiter clientId) ∧ s.Started clientId) :
    Valid second N (t.limiter clientId) ∧ t.Started clientId := by
  have hnone : events.filterMap (Event.allowedAt clientId) = [] :=
    List.filterMap_eq_nil_iff.mpr hevents
  have hsame : t.limiter clientId = s.limiter clientId := by
    simp [limiter, allowedTimes, hwindows, hnow, hlog, hnone]
  rw [hsame, Started, hwindows]
  exact h

/-- The limiter of the client keeps its invariant as long as it is
undisturbed. -/
def RateLimited (N : ℤ) (clientId : Bytes) (s : Server) : Prop :=
  Undisturbed clientId s.log → Valid second N (s.limiter clientId) ∧ s.Started clientId

theorem RateLimited.effect (hN : 1 ≤ N)
    (hconfig : s.runtimeConfig.maxRequestsPerClientPerSecond = N) (hst : Effect True True s t)
    (h : RateLimited N clientId s) : RateLimited N clientId t := by
  intro hundisturbed
  obtain ⟨-, events, hlog, -⟩ := hst.events
  have hbefore : Undisturbed clientId s.log := by
    rw [hlog] at hundisturbed
    exact hundisturbed.of_append
  obtain ⟨hvalid, hstarted⟩ := h hbefore
  have hpos : 0 ≤ second := by decide
  have hbound : 0 ≤ N := by omega
  have hkept : ∀ {limiter limiter' : Limiter},
      Relation.ReflTransGen (Step second N) limiter limiter' →
        Valid second N limiter → Valid second N limiter' :=
    Transition.kept_along (R := Step second N) fun _ _ hstep => hstep.valid hpos hbound
  cases hst with
  | release _ own =>
      obtain ⟨hsteps, hstarted⟩ := eraseWindow_limiter (N := N) s own hundisturbed hstarted
      exact ⟨hkept hsteps hvalid, hstarted⟩
  | allow _ own tick =>
      obtain ⟨hsteps, hstarted⟩ :=
        allowRequestForClient_limiter s own tick hN hconfig hundisturbed hstarted
      exact ⟨hkept hsteps hvalid, hstarted⟩
  | table | queues => exact ⟨hvalid, hstarted⟩
  | record _ events hplain =>
      exact limiter_untouched (s := s) events rfl rfl rfl
        (fun event hevent => Event.allowedAt_of_isPlain (hplain event hevent)) ⟨hvalid, hstarted⟩
  | authenticate _ _ key own =>
      exact limiter_untouched (s := s) [.authenticated key own] rfl rfl rfl
        (by simp [Event.allowedAt]) ⟨hvalid, hstarted⟩
  | append _ _ key response =>
      exact limiter_untouched (s := s)
        [.appended key response s.runtimeConfig.slowClientOutputLimit] rfl rfl rfl
        (by simp [Event.allowedAt]) ⟨hvalid, hstarted⟩
  | enqueue _ _ request =>
      exact limiter_untouched (s := s) [.admitted request] rfl rfl rfl
        (by simp [Event.allowedAt]) ⟨hvalid, hstarted⟩
  | offer _ _ request response result =>
      exact limiter_untouched (s := s) [.offered request response result] rfl rfl rfl
        (by simp [Event.allowedAt]) ⟨hvalid, hstarted⟩

/-- The steps of a run in which the rate is `N`. -/
def RateIs (N : ℤ) (s : Server) (_ : Action) : Prop :=
  s.runtimeConfig.maxRequestsPerClientPerSecond = N

theorem started_rateLimited (args : StartArgs) (now : ℤ) (hN : 1 ≤ N) :
    RateLimited N clientId (started args now) := by
  intro _
  refine ⟨⟨by simp [limiter, allowedTimes, started], ?_, ?_⟩, nofun⟩
  · simp [limiter, allowedTimes, started]
    omega
  · intro since till _
    simp [limiter, allowedTimes, started, passedIn]
    omega

theorem pullConfig_eq (library : Json.Library) (s : Server) (body : Option Bytes) :
    ∃ config, pullConfig library s body = { s with runtimeConfig := config } := by
  unfold pullConfig
  split
  · exact ⟨s.runtimeConfig, rfl⟩
  · exact ⟨_, rfl⟩

theorem limiter_valid (hN : 1 ≤ N)
    (h : Transition.ReachableBy (gateway library args) (RateIs N) s) :
    RateLimited N clientId s := by
  refine h.invariant (I := RateLimited N clientId) (fun s hinit => ?_)
    fun s action t _ hs hrate hstep => ?_
  · obtain ⟨now, hstart⟩ := hinit
    rw [start_eq_some hstart]
    exact started_rateLimited args now hN
  · rcases step_affects hstep with haffects | ⟨body, -, rfl⟩ | ⟨duration, rfl⟩
    · -- the rate stays the same while the effects of one step happen
      have hrate : s.runtimeConfig.maxRequestsPerClientPerSecond = N := hrate
      have hkept := Transition.kept_along (I := fun t =>
        t.runtimeConfig.maxRequestsPerClientPerSecond = N ∧ RateLimited N clientId t)
        (fun u v huv hu => ⟨huv.events.1 ▸ hu.1, hu.2.effect hN hu.1 huv⟩) haffects ⟨hrate, hs⟩
      exact hkept.2
    · obtain ⟨config, hpull⟩ := pullConfig_eq library s body
      rw [hpull]
      exact hs
    · intro hundisturbed
      obtain ⟨hvalid, hstarted⟩ := hs hundisturbed
      have hwait : Step second N (s.limiter clientId)
          { s.limiter clientId with now := s.now + duration } :=
        .wait _ _ _ _ (le_add_of_nonneg_right (Int.natCast_nonneg duration))
      exact ⟨hwait.valid (by decide) (by omega) hvalid, hstarted⟩

/-- Without the puller the rate is the built-in one. -/
theorem rateIs_of_not_isPull
    (h : Transition.ReachableBy (gateway library args) (fun _ action => action.isPull = false) s) :
    Transition.ReachableBy (gateway library args) (RateIs 100) s ∧
      s.runtimeConfig.maxRequestsPerClientPerSecond = 100 := by
  have hrate : ∀ t, Transition.ReachableBy (gateway library args)
      (fun _ action => action.isPull = false) t →
        t.runtimeConfig.maxRequestsPerClientPerSecond = 100 := by
    intro t ht
    refine ht.invariant (I := fun t => t.runtimeConfig.maxRequestsPerClientPerSecond = 100)
      (fun s hinit => ?_) fun s action t _ hs haction hstep => ?_
    · obtain ⟨now, hstart⟩ := hinit
      rw [start_eq_some hstart]
      rfl
    · rcases step_affects hstep with haffects | ⟨body, rfl, -⟩ | ⟨duration, rfl⟩
      · rw [haffects.config]
        exact hs
      · cases haction
      · exact hs
  exact ⟨h.guarded hrate fun s action hs _ => hs, hrate s h⟩

/-- In a run with the rate `N` that does not disturb the windows of a client,
at most `2 * N` of its requests are let through in less than a second. -/
theorem rate_limited (h : Transition.ReachableBy (gateway library args) (RateIs N) s)
    (hrate : s.runtimeConfig.maxRequestsPerClientPerSecond = N)
    (hundisturbed : Undisturbed clientId s.log) {since till : ℤ} (hshort : till - since < second) :
    (passedIn since till (s.allowedTimes clientId) : ℤ) ≤ 2 * N := by
  have hN : 1 ≤ N := hrate ▸ (limitsInRange h.reachable).config.maxRequestsPerClientPerSecond.1
  exact (limiter_valid hN h hundisturbed).1.passedIn_le hshort

/-- A client authenticates, sends requests and closes after a pause. -/
def Sample.visit (count pause : ℕ) : List Action :=
  Sample.authentication ++
    [.reactor (.read 5 (.data (List.replicate count (Sample.frame 1 8)).flatten) [])] ++
    List.replicate (2 * count + 1) (.reactor (.enqueueNext true)) ++
    [.tick pause, .reactor (.socketError 5)]

/-- It comes twice and stays for a second. -/
def Sample.patient : Server :=
  (Server.after Sample.library {} 1 (Sample.visit 3 1000000000 ++
    Sample.visit 2 1000000000)).get (by decide +kernel)

theorem rate_limited_patient :
    .windowErased [97] 1 1000000001 ∈ Sample.patient.log ∧
      Sample.patient.allowedTimes [97] = [1000000001, 1000000001, 1, 1, 1] ∧
      (passedIn 1 5 (Sample.patient.allowedTimes [97]) : ℤ) ≤ 2 * 100 := by
  have hrun : Transition.ReachableBy (gateway Sample.library {})
      (fun _ action => action.isPull = false) Sample.patient :=
    Server.after_reachable (fun _ => by decide +kernel) (Option.some_get _).symm
  obtain ⟨hreach, hrate⟩ := rateIs_of_not_isPull hrun
  have herased : (Sample.patient.log.all fun event => match event with
      | .windowErased _ startedAt now => second ≤ now - startedAt
      | _ => true) = true := by decide +kernel
  refine ⟨by decide +kernel, by decide +kernel,
    rate_limited hreach hrate ⟨fun startedAt now hmem => ?_, by decide +kernel⟩ (by decide)⟩
  exact of_decide_eq_true (List.all_eq_true.mp herased _ hmem)

/-- It comes three times while the clock stands still. -/
def Sample.hasty : Server :=
  (Server.after Sample.library {} 1
    (Sample.visit 100 0 ++ Sample.visit 100 0 ++ Sample.visit 1 0)).get (by decide +kernel)

theorem rate_limit_evaded :
    ¬ ∀ (library : Json.Library) (args : StartArgs) (N : ℤ) (s : Server) (clientId : Bytes)
      (since till : ℤ), Transition.ReachableBy (gateway library args) (RateIs N) s →
        s.runtimeConfig.maxRequestsPerClientPerSecond = N → till - since < second →
          (passedIn since till (s.allowedTimes clientId) : ℤ) ≤ 2 * N := by
  intro h
  have hrun : Transition.ReachableBy (gateway Sample.library {})
      (fun _ action => action.isPull = false) Sample.hasty :=
    Server.after_reachable (fun _ => by decide +kernel) (Option.some_get _).symm
  obtain ⟨hreach, hrate⟩ := rateIs_of_not_isPull hrun
  have hbound := h Sample.library {} 100 Sample.hasty [97] 1 1 hreach hrate (by decide)
  exact absurd hbound (by decide +kernel)

end Server

end GatewaySystem
