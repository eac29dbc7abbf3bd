import GatewaySystem.Net.Lifecycle
import GatewaySystem.Net.Tables
import Mathlib.Data.List.Induction

/-!
# The table of rate limit windows

`allowRequestForClient` makes the window of a client when it is first asked, in
the middle of a batch of frames, and `closeConnection` takes it away with the
last authenticated connection of the client. Two facts about the table hold in
every state: each of its keys is the name of a client that is there, and each
of its counters is within a limit that was in force while its window was open.
-/

namespace GatewaySystem

/-- A window that was opened before `now` and has let through no more than
`limit` requests. -/
structure RateLimitWindow.Within (now limit : ℤ) (window : RateLimitWindow) : Prop where
  opened : window.startedAt ≤ now
  nonneg : 0 ≤ window.count
  le : window.count ≤ limit

namespace Server

variable {library : Json.Library} {args : StartArgs} {reads : Prop} {s t u : Server} {fd : Fd}
  {c : Connection} {clientId : Bytes} {window : RateLimitWindow}

/-! ## The keys -/

/-- A live connection is authenticated as the client. -/
def Present (s : Server) (clientId : Bytes) : Prop :=
  ∃ fd c, s.connections.lookup fd = some c ∧ c.authenticated = true ∧ c.clientId = clientId

/-- Every client with a window is there. -/
def Claimed (s : Server) : Prop :=
  ∀ clientId window, s.rateLimitWindows.lookup clientId = some window → s.Present clientId

theorem present_of_count {excludeFd : Fd}
    (h : s.countAuthenticatedConnectionsForClient clientId excludeFd ≠ 0) :
    s.Present clientId := by
  obtain ⟨entry, hentry, hcounted⟩ := List.countP_pos_iff.mp (Nat.pos_of_ne_zero h)
  simp only [Bool.and_eq_true, decide_eq_true_eq] at hcounted
  exact ⟨entry.1, entry.2, AList.mem_lookup_iff.mpr hentry, hcounted.1.2, hcounted.2⟩

/-- A connection that is there stays the one of its client. -/
theorem Present.update (h : s.Present clientId) {old : Connection}
    (hold : s.connections.lookup fd = some old) (hc : old.Follows reads c) :
    (s.setConnection fd c).Present clientId := by
  obtain ⟨fd', c', hc', hauth, hclient⟩ := h
  by_cases hfd : fd' = fd
  · subst hfd
    obtain rfl := Option.some.inj (hold.symm.trans hc')
    rcases hc.client with ⟨hauth', hclient'⟩ | hfresh
    · exact ⟨fd', c, AList.lookup_insert _, hauth'.trans hauth, hclient'.trans hclient⟩
    · cases hfresh.symm.trans hauth
  · exact ⟨fd', c', (AList.lookup_insert_ne hfd).trans hc', hauth, hclient⟩

/-- A close leaves the windows of the clients that have another connection. -/
theorem Claimed.close (h : s.Claimed) (fd : Fd) : (s.closeConnection fd).Claimed := by
  cases hc : s.connections.lookup fd with
  | none =>
      rw [closeConnection_none hc]
      exact h
  | some c =>
      obtain ⟨cancelled, windows, log, heq, -, hkept⟩ := closeConnection_eq hc
      intro clientId window hwindow
      rw [heq] at hwindow ⊢
      obtain ⟨hold, hcount⟩ := hkept clientId window hwindow
      obtain ⟨fd', c', hc', hauth, hclient⟩ := h clientId window hold
      by_cases hfd : fd' = fd
      · subst hfd
        obtain rfl := Option.some.inj (hc.symm.trans hc')
        obtain ⟨other, own, hown, hrest⟩ := present_of_count (hcount hauth hclient.symm)
        refine ⟨other, own, ?_, hrest⟩
        rwa [← show ((s.cancelAuth c).eraseConnection fd').connections = s.connections.erase fd' by
          unfold cancelAuth; split <;> rfl]
      · exact ⟨fd', c', (AList.lookup_erase_ne hfd).trans hc', hauth, hclient⟩

/-- What a request of a client does to the table: the window that is open, or a
new one, is stored, with the request counted unless the limit is reached. -/
structure Stored (clientId : Bytes) (now : ℤ) (s t : Server) (window : RateLimitWindow) :
    Prop where
  connections : t.connections = s.connections
  runtimeConfig : t.runtimeConfig = s.runtimeConfig
  clock : t.now = now
  windows : t.rateLimitWindows = s.rateLimitWindows.insert clientId window
  counted : window = s.currentWindow clientId now ∧
      s.runtimeConfig.maxRequestsPerClientPerSecond ≤ window.count ∨
    (s.currentWindow clientId now).count < s.runtimeConfig.maxRequestsPerClientPerSecond ∧
      window = { s.currentWindow clientId now with
        count := (s.currentWindow clientId now).count + 1 }

theorem allowRequestForClient_stored (s : Server) (clientId : Bytes) (tick : ℕ) :
    ∃ window, Stored clientId (s.now + tick) s
      (s.allowRequestForClient clientId s.runtimeConfig tick).2 window := by
  unfold allowRequestForClient
  simp only
  split
  · next hfull => exact ⟨_, rfl, rfl, rfl, rfl, .inl ⟨rfl, hfull⟩⟩
  · next hfree => exact ⟨_, rfl, rfl, rfl, rfl, .inr ⟨lt_of_not_ge hfree, rfl⟩⟩

theorem Claimed.of_eq (h : s.Claimed) (hconnections : t.connections = s.connections)
    (hwindows : t.rateLimitWindows = s.rateLimitWindows) : t.Claimed := by
  intro clientId window hwindow
  rw [hwindows] at hwindow
  obtain ⟨fd, c, hc, hclient⟩ := h clientId window hwindow
  exact ⟨fd, c, hconnections ▸ hc, hclient⟩

theorem TableStep.claimed (h : TableStep reads fd s t) (hs : s.Claimed) : t.Claimed := by
  cases h with
  | other h => exact hs.of_eq h.connections h.rateLimitWindows
  | update hold hc =>
      exact fun clientId window hwindow => (hs clientId window hwindow).update hold hc
  | close => exact hs.close fd
  | register => exact hs
  | @allow c hc hauth tick =>
      obtain ⟨stored, hstored⟩ := allowRequestForClient_stored s c.clientId tick
      intro clientId window hwindow
      unfold Present
      rw [hstored.connections]
      by_cases hclient : clientId = c.clientId
      · exact ⟨fd, c, hc, hauth, hclient.symm⟩
      · rw [hstored.windows, AList.lookup_insert_ne hclient] at hwindow
        exact hs clientId window hwindow

theorem Change.claimed (h : Change reads s t) (hs : s.Claimed) : t.Claimed := by
  cases h with
  | table h => exact h.claimed hs
  | outside h => exact hs.of_eq h.connections h.rateLimitWindows
  | @accept fd hfree ctl =>
      cases ctl with
      | false => exact hs.of_eq rfl rfl
      | true =>
          intro clientId window hwindow
          obtain ⟨fd', c, hc, hclient⟩ := hs clientId window hwindow
          have hne : fd' ≠ fd := by
            rintro rfl
            cases hfree.symm.trans hc
          exact ⟨fd', c, (AList.lookup_insert_ne hne).trans hc, hclient⟩

theorem claimed (h : Transition.Reachable (gateway library args) s) : s.Claimed :=
  tables_invariant (fun _ _ _ hwindow => by cases hwindow) (fun _ _ hchange => hchange.claimed)
    (fun _ _ huntouched hs => hs.of_eq huntouched.connections huntouched.rateLimitWindows) h

/-! ## The counters -/

/-- The limit on the requests of a client in one window. -/
def rateLimit (s : Server) : ℤ := s.runtimeConfig.maxRequestsPerClientPerSecond

/-- Every window was opened before now and has a counter that is not negative. -/
def Opened (s : Server) : Prop :=
  ∀ clientId window, s.rateLimitWindows.lookup clientId = some window →
    window.startedAt ≤ s.now ∧ 0 ≤ window.count

/-- Every window is one from before or within the limit. -/
structure Counts (s t : Server) : Prop where
  config : t.runtimeConfig = s.runtimeConfig
  now : s.now ≤ t.now
  window : ∀ clientId window, t.rateLimitWindows.lookup clientId = some window →
    s.rateLimitWindows.lookup clientId = some window ∨ window.Within t.now t.rateLimit

namespace Counts

theorem opened (h : Counts s t) (hs : s.Opened) : t.Opened := by
  intro clientId window hwindow
  rcases h.window clientId window hwindow with hold | hwithin
  · exact ⟨(hs clientId window hold).1.trans h.now, (hs clientId window hold).2⟩
  · exact ⟨hwithin.opened, hwithin.nonneg⟩

theorem of_eq (hconfig : t.runtimeConfig = s.runtimeConfig) (hnow : t.now = s.now)
    (hwindows : ∀ clientId window, t.rateLimitWindows.lookup clientId = some window →
      s.rateLimitWindows.lookup clientId = some window) : Counts s t :=
  ⟨hconfig, hnow.ge, fun clientId window hwindow => .inl (hwindows clientId window hwindow)⟩

theorem trans (h : Counts s t) (h' : Counts t u) : Counts s u where
  config := h'.config.trans h.config
  now := h.now.trans h'.now
  window clientId window hwindow := by
    rcases h'.window clientId window hwindow with hold | hwithin
    · refine (h.window clientId window hold).imp_right fun hwithin => ?_
      refine ⟨hwithin.opened.trans h'.now, hwithin.nonneg, ?_⟩
      rw [rateLimit, h'.config]
      exact hwithin.le
    · exact .inr hwithin

end Counts

/-- The window of a client is a new one, or the one in the table. -/
theorem currentWindow_cases (s : Server) (clientId : Bytes) (now : ℤ) :
    s.currentWindow clientId now = ⟨now, 0⟩ ∨
      s.rateLimitWindows.lookup clientId = some (s.currentWindow clientId now) := by
  unfold currentWindow
  simp only
  split
  · exact .inl rfl
  · next hopen =>
      cases hlookup : s.rateLimitWindows.lookup clientId with
      | none => simp [hlookup] at hopen
      | some window => exact .inr rfl

/-- A request leaves the window of its client within the limit, or as it was. -/
theorem Stored.counts {tick : ℕ} (h : Stored clientId (s.now + tick) s t window)
    (hs : s.Opened) (hlimit : 1 ≤ s.rateLimit) : Counts s t := by
  have hnow : s.now ≤ t.now := h.clock ▸ le_add_of_nonneg_right (Int.natCast_nonneg tick)
  have hrate : t.rateLimit = s.rateLimit := by rw [rateLimit, h.runtimeConfig, rateLimit]
  refine ⟨h.runtimeConfig, hnow, fun own stored hstored => ?_⟩
  by_cases hown : own = clientId
  · subst hown
    rw [h.windows, AList.lookup_insert] at hstored
    obtain rfl := Option.some.inj hstored
    rw [hrate, h.clock]
    rcases currentWindow_cases s own (s.now + tick) with hnew | hold
    · rcases h.counted with ⟨rfl, hfull⟩ | ⟨-, rfl⟩
      · rw [hnew] at hfull
        exact absurd hlimit (not_le.mpr (lt_of_le_of_lt hfull zero_lt_one))
      · rw [hnew]
        exact .inr ⟨le_rfl, Int.le.intro 1 rfl, hlimit⟩
    · obtain ⟨hopened, hnonneg⟩ := hs own _ hold
      rcases h.counted with ⟨rfl, -⟩ | ⟨hfree, rfl⟩
      · exact .inl hold
      · exact .inr ⟨hopened.trans (h.clock ▸ hnow),
          hnonneg.trans (le_add_of_nonneg_right zero_le_one), hfree⟩
  · rw [h.windows, AList.lookup_insert_ne hown] at hstored
    exact .inl hstored

theorem TableStep.counts (h : TableStep reads fd s t) (hs : s.Opened) (hlimit : 1 ≤ s.rateLimit) :
    Counts s t := by
  cases h with
  | other h =>
      exact .of_eq h.runtimeConfig h.now fun _ _ hwindow => h.rateLimitWindows ▸ hwindow
  | update | register => exact .of_eq rfl rfl fun _ _ hwindow => hwindow
  | close =>
      cases hc : s.connections.lookup fd with
      | none =>
          rw [closeConnection_none hc]
          exact .of_eq rfl rfl fun _ _ hwindow => hwindow
      | some c =>
          obtain ⟨cancelled, windows, log, heq, -, hkept⟩ := closeConnection_eq hc
          rw [heq]
          exact .of_eq rfl rfl fun clientId window hwindow => (hkept clientId window hwindow).1
  | @allow c _ _ tick =>
      obtain ⟨stored, hstored⟩ := allowRequestForClient_stored s c.clientId tick
      exact hstored.counts hs hlimit

theorem Change.counts (h : Change reads s t) (hs : s.Opened) (hlimit : 1 ≤ s.rateLimit) :
    Counts s t := by
  cases h with
  | table h => exact h.counts hs hlimit
  | outside h =>
      exact .of_eq h.runtimeConfig h.now fun _ _ hwindow => h.rateLimitWindows ▸ hwindow
  | accept _ ctl => cases ctl <;> exact .of_eq rfl rfl fun _ _ hwindow => hwindow

/-- A step of the reactor leaves every window as it was or within the limit. -/
theorem Changes.counts (h : Changes reads s t) (hs : s.Opened) (hlimit : 1 ≤ s.rateLimit) :
    Counts s t := by
  refine Transition.kept_along (I := fun u => Counts s u) (fun u v hstep hu => ?_) h
    (.of_eq rfl rfl fun _ _ hwindow => hwindow)
  refine hu.trans (hstep.counts (hu.opened hs) ?_)
  rw [rateLimit, hu.config]
  exact hlimit

/-- The window has been the one of its client since a state of the run, and it
was within the limit in force there. -/
def CountedIn (library : Json.Library) (args : StartArgs) (start : Server) (actions : List Action)
    (clientId : Bytes) (window : RateLimitWindow) : Prop :=
  ∃ front rest s, actions = front ++ rest ∧ (gateway library args).run start front = some s ∧
    (∀ u, (gateway library args).Visits s rest u →
      u.rateLimitWindows.lookup clientId = some window) ∧
    window.startedAt ≤ s.now ∧ 0 ≤ window.count ∧
    window.count ≤ s.runtimeConfig.maxRequestsPerClientPerSecond

variable {start : Server} {actions : List Action} {action : Action}

/-- A window that was just stored within the limit. -/
theorem CountedIn.last (hrun : (gateway library args).run start actions = some t)
    (hwindow : t.rateLimitWindows.lookup clientId = some window)
    (hwithin : window.Within t.now t.rateLimit) :
    CountedIn library args start actions clientId window := by
  refine ⟨actions, [], t, (List.append_nil actions).symm, hrun, ?_, hwithin.opened,
    hwithin.nonneg, hwithin.le⟩
  rintro u ⟨front, hfront, hu⟩
  rw [List.prefix_nil.mp hfront] at hu
  exact Option.some.inj hu ▸ hwindow

/-- A window that the next step leaves. -/
theorem CountedIn.concat (h : CountedIn library args start actions clientId window)
    (hrun : (gateway library args).run start actions = some s)
    (hstep : step library s action = some t)
    (hwindow : t.rateLimitWindows.lookup clientId = some window) :
    CountedIn library args start (actions ++ [action]) clientId window := by
  obtain ⟨front, rest, u, rfl, hfront, hkept, hbound⟩ := h
  rw [Transition.System.run_append, hfront, Option.bind_some] at hrun
  refine ⟨front, rest ++ [action], u, List.append_assoc .., hfront, fun v hv => ?_, hbound⟩
  rcases (Transition.System.visits_concat hrun hstep).mp hv with hv | rfl
  · exact hkept v hv
  · exact hwindow

/-- Every window is within a limit that was in force while it was open. -/
theorem counted (hinit : (gateway library args).init start)
    (hrun : (gateway library args).run start actions = some t) :
    t.Opened ∧ ∀ clientId window, t.rateLimitWindows.lookup clientId = some window →
      CountedIn library args start actions clientId window := by
  induction actions using List.reverseRecOn generalizing t with
  | nil =>
      obtain ⟨now, hstart⟩ := hinit
      cases hrun
      rw [start_eq_some hstart]
      exact ⟨by rintro _ _ ⟨⟩, by rintro _ _ ⟨⟩⟩
  | append_singleton actions action ih =>
      obtain ⟨s, hs, hstep⟩ := Transition.System.run_concat.mp hrun
      obtain ⟨hopened, hcounted⟩ := ih hs
      have hreach : Transition.Reachable (gateway library args) s :=
        Transition.System.run_reachable (.init hinit) (fun _ _ _ => trivial) hs
      rcases step_changes hreach hstep with ⟨own, rfl, hchanges⟩ | huntouched
      · have hcounts := hchanges.counts hopened
          (limitsInRange hreach).config.maxRequestsPerClientPerSecond.1
        refine ⟨hcounts.opened hopened, fun clientId window hwindow => ?_⟩
        rcases hcounts.window clientId window hwindow with hold | hwithin
        · exact (hcounted clientId window hold).concat hs hstep hwindow
        · exact .last hrun hwindow hwithin
      · refine ⟨fun clientId window hwindow => ?_, fun clientId window hwindow => ?_⟩
        · rw [huntouched.rateLimitWindows] at hwindow
          obtain ⟨hstarted, hnonneg⟩ := hopened clientId window hwindow
          exact ⟨hstarted.trans (step_now hstep), hnonneg⟩
        · have hold := huntouched.rateLimitWindows ▸ hwindow
          exact (hcounted clientId window hold).concat hs hstep hwindow

/-- After every run, every key of the table is the client of a live
authenticated connection. Every counter is between zero and the limit in force
at a state of this run, since which the window has been in the table, and so it
is an `int`. -/
theorem rate_limit_table (hinit : (gateway library args).init start)
    (hrun : (gateway library args).run start actions = some t)
    (hwindow : t.rateLimitWindows.lookup clientId = some window) :
    (∃ fd c, t.connections.lookup fd = some c ∧ c.authenticated = true ∧ c.clientId = clientId) ∧
    CountedIn library args start actions clientId window ∧
    window.count ≤ RuntimeConfig.intMax := by
  have hreach : ∀ {front s}, (gateway library args).run start front = some s →
      Transition.Reachable (gateway library args) s :=
    fun h => Transition.System.run_reachable (.init hinit) (fun _ _ _ => trivial) h
  have hcounted := (counted hinit hrun).2 clientId window hwindow
  obtain ⟨front, rest, s, -, hs, -, -, -, hle⟩ := id hcounted
  have hmax := (limitsInRange (hreach hs)).config.maxRequestsPerClientPerSecond.2
  exact ⟨claimed (hreach hrun) clientId window hwindow, hcounted, hle.trans hmax⟩

end Server

/-- A client has sent two requests, and then the limit is lowered to one. -/
def Sample.lowering : List Action :=
  Sample.authentication ++
    [.reactor (.read 5 (.data (Sample.frame 1 8 ++ Sample.frame 1 9)) [1])] ++
    List.replicate 5 (.reactor (.enqueueNext true)) ++ [.pullConfig (some Sample.settings)]

def Sample.lowered : Server :=
  ((gateway Sample.library {}).run (Server.started {} 0) Sample.lowering).get (by decide +kernel)

theorem Server.rate_limit_table_lowered :
    Sample.lowered.runtimeConfig.maxRequestsPerClientPerSecond = 1 ∧
      Sample.lowered.rateLimitWindows.lookup [97] = some ⟨1, 2⟩ ∧
      CountedIn Sample.library {} (started {} 0) Sample.lowering [97] ⟨1, 2⟩ :=
  have hwindow : Sample.lowered.rateLimitWindows.lookup [97] = some ⟨1, 2⟩ := by decide +kernel
  ⟨by decide +kernel, hwindow,
    (Server.rate_limit_table ⟨0, rfl⟩ (Option.some_get _).symm hwindow).2.1⟩

end GatewaySystem
