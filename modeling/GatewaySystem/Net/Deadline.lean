import GatewaySystem.Net.Wakeup

/-!
# The deadline of the shutdown

A draining server reads the clock twice in an iteration: for the timeout of
`epoll_wait` and, when `drainComplete` says no, for the test of the deadline at
the end. An iteration that comes to its end after the deadline leaves a stopped
server with empty, stopped queues, and the loop is left. An error of
`epoll_wait` goes back to the top before that test, so an iteration with an
error ends as it began, however late it is.
-/

namespace GatewaySystem

namespace Server

variable {library : Json.Library} {s t : Server}

/-- The queues are empty and take nothing more. -/
structure QueuesClosed (s : Server) : Prop where
  requests : s.requestQueue.stopped = true ∧ s.requestQueue.items = []
  auths : s.authQueue.stopped = true ∧ s.authQueue.items = []
  responses : s.responseQueue.stopped = true ∧ s.responseQueue.items = []

theorem QueuesClosed.of_eq (h : s.QueuesClosed) (hrequests : t.requestQueue = s.requestQueue)
    (hauths : t.authQueue = s.authQueue) (hresponses : t.responseQueue = s.responseQueue) :
    t.QueuesClosed :=
  ⟨hrequests ▸ h.requests, hauths ▸ h.auths, hresponses ▸ h.responses⟩

theorem enqueueWorkerResponse_closed (h : s.QueuesClosed) (request : Request)
    (response : Response) (producer : ResponseProducer) :
    (s.enqueueWorkerResponse request response producer).2.QueuesClosed := by
  have hrefused : (s.responseQueue.push response).1 = .stopped := by
    simp [BlockQueue.push, h.responses.1]
  unfold enqueueWorkerResponse
  simp only [hrefused]
  exact h.of_eq rfl rfl rfl

theorem pop_closed {α : Type*} {q : BlockQueue α} (h : q.items = []) (item : α)
    (q' : BlockQueue α) : q.pop ≠ some (some (item, q')) := by
  intro hpop
  have hitems := (BlockQueue.pop_item hpop).1
  rw [h] at hitems
  cases hitems

theorem workerStep_closed {i : ℕ} {worker : NormalWorker} {action : WorkerAction}
    (hs : s.QueuesClosed) (h : workerStep library s i worker action = some t) :
    t.QueuesClosed := by
  cases workerStep_move h with
  | pop hpop => exact absurd hpop (pop_closed hs.requests.2 _ _)
  | dispatch => exact (enqueueWorkerResponse_closed hs ..).of_eq rfl rfl rfl
  | stopResponses => exact ⟨hs.requests, hs.auths, rfl, hs.responses.2⟩
  | leave | reject => exact hs.of_eq rfl rfl rfl

theorem authWorkerStep_closed {i : ℕ} {worker : AuthWorker} {action : AuthAction}
    (hs : s.QueuesClosed) (h : authWorkerStep library s i worker action = some t) :
    t.QueuesClosed := by
  cases authWorkerStep_move h with
  | pop hpop => exact absurd hpop (pop_closed hs.auths.2 _ _)
  | offer => exact (enqueueWorkerResponse_closed hs ..).of_eq rfl rfl rfl
  | stopResponses => exact ⟨hs.requests, hs.auths, rfl, hs.responses.2⟩
  | leave | drop | check | handleAuth | reject => exact hs.of_eq rfl rfl rfl

theorem reactorStep_now {action : ReactorAction} (h : s.reactorStep action = some t) :
    s.now ≤ t.now :=
  (reactorStep_affects h).now

/-- A worker finds closed queues closed. -/
theorem step_closed {action : Action} (hs : s.QueuesClosed)
    (haction : (∃ i own, action = .worker i own) ∨ ∃ i own, action = .authWorker i own)
    (h : step library s action = some t) : t.QueuesClosed := by
  rcases haction with ⟨i, own, rfl⟩ | ⟨i, own, rfl⟩
  · obtain ⟨worker, -, h⟩ := Option.bind_eq_some_iff.mp h
    exact workerStep_closed hs h
  · obtain ⟨worker, -, h⟩ := Option.bind_eq_some_iff.mp h
    exact authWorkerStep_closed hs h

theorem closed_of_workFinished (h : s.workFinished = true) : s.QueuesClosed := by
  simp only [workFinished, Bool.and_eq_true, List.isEmpty_iff] at h
  obtain ⟨⟨⟨⟨⟨⟨⟨-, hrequests⟩, hrequestItems⟩, hauths⟩, hauthItems⟩, hresponses⟩, hitems⟩, -⟩ := h
  exact ⟨⟨hrequests, hrequestItems⟩, ⟨hauths, hauthItems⟩, ⟨hresponses, hitems⟩⟩

/-- When `drainComplete` stops the server, its queues are closed. -/
theorem drainComplete_closed (h : s.reactorStep .drainComplete = some t)
    (hstopped : t.state = .stopped) : t.QueuesClosed := by
  obtain ⟨hguard, ⟨⟩⟩ := Option.ite_none_right_eq_some.mp h
  simp only [Bool.and_eq_true, decide_eq_true_eq] at hguard
  have hframe := (drainComplete_affects s : Affects False False s _).frame
  split at hstopped
  · next hcomplete =>
      rw [if_pos hcomplete]
      have hfinished : s.workFinished = true := by
        unfold drainComplete at hcomplete
        split at hcomplete
        · next hfinished => exact hfinished
        · cases hcomplete
      exact (closed_of_workFinished hfinished).of_eq hframe.requestQueue hframe.authQueue
        hframe.responseQueue
  · cases (hframe.state.trans hguard.2).symm.trans hstopped

end Server

namespace Loop

variable {library : Json.Library} {args : Server.StartArgs} {shutdownTimeoutMs : ℤ} {l l' : Loop}

/-- The server is stopped and its queues are empty and stopped. -/
def Ended (l : Loop) : Prop := l.server.state = .stopped ∧ l.server.QueuesClosed

/-- A late iteration is one of a draining server behind its deadline. -/
def Due (l : Loop) : Prop :=
  l.late = true → l.server.state = .draining ∧ l.shutdownDeadline ≤ l.server.now

/-- What is known of a late iteration, up to its end at the top of the loop. -/
def Timed (l : Loop) : Prop :=
  match l.phase with
  | .check => l.late = true →
      l.outcome = .events ∧ l.Ended ∨ l.outcome ≠ .events ∧ l.server.state = .draining
  | .begin _ => l.late = false
  | .wait => l.Due
  | .dispatch | .drainResponses | .drainRejected | .finish => l.outcome = .events ∧ l.Due
  | .deadline => l.outcome = .events ∧ l.server.state = .draining ∧ l.Due
  | .left => True

theorem Due.later (h : l.Due) (hlate : l'.late = l.late)
    (hdeadline : l'.shutdownDeadline = l.shutdownDeadline)
    (hstate : l'.server.state = l.server.state) (hnow : l.server.now ≤ l'.server.now) : l'.Due := by
  intro hl'
  obtain ⟨hdraining, hdue⟩ := h (hlate ▸ hl')
  exact ⟨hstate.trans hdraining, hdeadline ▸ hdue.trans hnow⟩

/-- What does not move the reactor. -/
theorem Timed.later (h : l.Timed) (hphase : l'.phase = l.phase) (hlate : l'.late = l.late)
    (houtcome : l'.outcome = l.outcome) (hdeadline : l'.shutdownDeadline = l.shutdownDeadline)
    (hstate : l'.server.state = l.server.state) (hnow : l.server.now ≤ l'.server.now)
    (hclosed : l.phase = .check → l.server.QueuesClosed → l'.server.QueuesClosed) : l'.Timed := by
  have hdue : l.Due → l'.Due := fun h => h.later hlate hdeadline hstate hnow
  unfold Timed at h ⊢
  rw [hphase, houtcome, hlate, hstate]
  split at h
  · next hcheck =>
      intro hl
      refine (h hl).imp (fun hended => ⟨hended.1, ?_, ?_⟩) id
      · exact hstate.trans hended.2.1
      · exact hclosed hcheck hended.2.2
  · exact h
  · exact hdue h
  · exact ⟨h.1, hdue h.2⟩
  · exact ⟨h.1, hdue h.2⟩
  · exact ⟨h.1, hdue h.2⟩
  · exact ⟨h.1, hdue h.2⟩
  · exact ⟨h.1, h.2.1, hdue h.2.2⟩
  · trivial

theorem Move.timed (h : Move library shutdownTimeoutMs l l') (hl : l.Timed) : l'.Timed := by
  cases h with
  | leave => trivial
  | begin failed outcome hphase hserver =>
      obtain ⟨hguard, ⟨⟩⟩ := Option.ite_none_right_eq_some.mp hserver
      simp only [Bool.and_eq_true, decide_eq_true_eq] at hguard
      show l.late = false
      refine Bool.eq_false_iff.mpr fun hlate => ?_
      unfold Timed at hl
      cases failed with
      | true =>
          simp only [if_true] at hphase
          rw [hphase] at hl
          cases (hl hlate).1.symm.trans hguard.2
      | false =>
          simp only [Bool.false_eq_true, if_false] at hphase
          rw [hphase] at hl
          rcases hl hlate with ⟨-, hended⟩ | ⟨-, hdraining⟩
          · cases hended.1.symm.trans hguard.2
          · cases hdraining.symm.trans hguard.2
  | wait =>
      intro hlate
      simpa [enterWait] using hlate
  | wake hphase =>
      unfold Timed at hl
      rw [hphase] at hl
      exact ⟨rfl, hl⟩
  | retry hphase outcome houtcome =>
      unfold Timed at hl
      rw [hphase] at hl
      exact fun hlate => .inr ⟨houtcome, (hl hlate).1⟩
  | begun hphase =>
      unfold Timed at hl
      rw [hphase] at hl
      intro hlate
      cases hl.symm.trans hlate
  | consume => exact hl
  | handle hallows hserver =>
      have hhandled := Server.reactorStep_handledIn hallows hserver
      refine hl.later rfl rfl rfl rfl hhandled.state
        (Server.reactorStep_now hserver) fun hcheck => ?_
      rw [hcheck] at hhandled
      cases hhandled
  | dispatched hphase | drained hphase =>
      unfold Timed at hl ⊢
      rw [hphase] at hl
      exact hl
  | rejected hphase hserver =>
      unfold Timed at hl
      rw [hphase] at hl
      exact ⟨hl.1, hl.2.later rfl rfl (Server.drainRejected_handled hserver).state
        (Server.reactorStep_now hserver)⟩
  | idle hphase hstate =>
      unfold Timed at hl
      rw [hphase] at hl
      exact fun hlate => absurd (hl.2 hlate).1 hstate
  | evaluate hphase hserver =>
      unfold Timed at hl
      rw [hphase] at hl
      obtain ⟨hdraining, -, hstate | ⟨hstate, -⟩⟩ := Server.drainComplete_handled hserver
      · have hopen : _ ≠ ServerState.stopped := fun hstopped => by cases hstate.symm.trans hstopped
        simp only [Timed, if_neg hopen]
        exact ⟨hl.1, hstate, hl.2.later rfl rfl (hstate.trans hdraining.symm)
          (Server.reactorStep_now hserver)⟩
      · simp only [Timed, if_pos hstate]
        exact fun _ => .inl ⟨hl.1, hstate, Server.drainComplete_closed hserver hstate⟩
  | expire hphase hdue hserver =>
      unfold Timed at hl
      rw [hphase] at hl
      obtain ⟨-, ⟨⟩⟩ := Option.ite_none_right_eq_some.mp hserver
      exact fun _ => .inl ⟨hl.1, rfl, ⟨rfl, rfl⟩, ⟨rfl, rfl⟩, ⟨rfl, rfl⟩⟩
  | early hphase hearly =>
      unfold Timed at hl
      rw [hphase] at hl
      exact fun hlate => absurd (hl.2.2 hlate).2 (not_le.mpr hearly)
  | produce thread published last haction hserver hproduces =>
      exact hl.later rfl rfl rfl rfl hproduces.frame.state (le_of_eq hproduces.now.symm)
        fun _ hclosed => Server.step_closed hclosed haction hserver
  | notify | request => exact hl
  | pull body =>
      unfold Server.pullConfig
      split
      · exact hl
      · exact hl.later rfl rfl rfl rfl rfl le_rfl fun _ hclosed => hclosed.of_eq rfl rfl rfl
  | tick duration =>
      exact hl.later rfl rfl rfl rfl rfl (le_add_of_nonneg_right (Int.natCast_nonneg duration))
        fun _ hclosed => hclosed.of_eq rfl rfl rfl

theorem timed (h : Transition.Reachable (reactorLoop library args shutdownTimeoutMs) l) :
    l.Timed := by
  refine Transition.ReachableBy.invariant (I := Timed) ?_ ?_ h
  · rintro l ⟨now, s, hstart, rfl⟩
    exact nofun
  · exact fun l action l' _ hl _ hstep => (step_move hstep).timed hl

/-- An iteration of a draining server that has read the clock at or after the
deadline ends with a stopped server and closed queues, and the loop is left,
exactly when its `epoll_wait` did not fail. -/
theorem bounded_exit (h : Transition.Reachable (reactorLoop library args shutdownTimeoutMs) l)
    (hphase : l.phase = .check) (hlate : l.late = true) :
    ((l.server.state = .stopped ∧
        l.server.requestQueue.stopped = true ∧ l.server.requestQueue.items = [] ∧
        l.server.authQueue.stopped = true ∧ l.server.authQueue.items = [] ∧
        l.server.responseQueue.stopped = true ∧ l.server.responseQueue.items = []) ↔
      l.outcome = .events) ∧
    (l.outcome = .events → l.check shutdownTimeoutMs = some { l with phase := .left }) := by
  have htimed := timed h
  unfold Timed at htimed
  rw [hphase] at htimed
  rcases htimed hlate with ⟨houtcome, hstate, hclosed⟩ | ⟨houtcome, hdraining⟩
  · refine ⟨iff_of_true ⟨hstate, hclosed.requests.1, hclosed.requests.2, hclosed.auths.1,
      hclosed.auths.2, hclosed.responses.1, hclosed.responses.2⟩ houtcome, fun _ => ?_⟩
    rw [check, if_pos hstate]
  · refine ⟨iff_of_false ?_ houtcome, fun hevents => absurd hevents houtcome⟩
    rintro ⟨hstopped, -⟩
    cases hdraining.symm.trans hstopped

/-- An error of `epoll_wait` in a late iteration changes nothing. -/
theorem run_failed (hphase : l.phase = .check) (hlate : l.late = true)
    (hstate : l.server.state = .draining) (hdue : l.shutdownDeadline ≤ l.server.now)
    (houtcome : l.outcome = .failed) (count : ℕ) :
    (reactorLoop library args shutdownTimeoutMs).run l
      (List.replicate count [LoopAction.check, .epollWait .failed]).flatten = some l := by
  induction count with
  | zero => rfl
  | succ count ih =>
      have hcheck : l.step library shutdownTimeoutMs .check = some l.enterWait := by
        simp [step, check, hphase, hstate]
      have hwait : l.enterWait.step library shutdownTimeoutMs (.epollWait .failed) = some l := by
        simp only [step, enterWait, epollWait, hstate, hdue]
        cases l
        simp_all
      rw [List.replicate_succ, List.flatten_cons, List.cons_append, List.cons_append,
        List.nil_append]
      simp only [Transition.System.run]
      show (l.step library shutdownTimeoutMs .check).bind _ = some l
      rw [hcheck, Option.bind_some]
      show (l.enterWait.step library shutdownTimeoutMs (.epollWait .failed)).bind _ = some l
      rw [hwait, Option.bind_some]
      exact ih

end Loop

namespace Sample

/-- A stop is requested and the server begins to drain. -/
def drainStart : List LoopAction :=
  [.stop 0, .check, .reactor (.beginDrainingNext fun _ => true),
    .reactor (.beginDrainingNext fun _ => true), .reactor (.beginDrainingNext fun _ => true),
    .advance]

/-- The deadline passes, and `epoll_wait` begins to fail. -/
def overdue : Loop :=
  (Loop.after library {} 5000 0 (drainStart ++ [.tick 5000000000, .epollWait .failed, .check,
    .epollWait .failed])).get (by decide +kernel)

theorem overdue_reachable : Transition.Reachable (reactorLoop library {} 5000) overdue :=
  Loop.after_reachable (Option.some_get _).symm

/-- The deadline passes, and `epoll_wait` returns without events. -/
def expired : Loop :=
  (Loop.after library {} 5000 0 (drainStart ++ [.tick 5000000000, .epollWait .events, .advance,
    .advance, .drainRejected, .drainComplete, .deadline])).get (by decide +kernel)

theorem expired_reachable : Transition.Reachable (reactorLoop library {} 5000) expired :=
  Loop.after_reachable (Option.some_get _).symm

end Sample

theorem Loop.bounded_exit_expired :
    Sample.expired.late = true ∧ Sample.expired.server.state = .stopped := by
  have hlate : Sample.expired.late = true := by decide +kernel
  exact ⟨hlate, ((Loop.bounded_exit Sample.expired_reachable (by decide +kernel) hlate).1.mpr
    (by decide +kernel)).1⟩

/-- While `epoll_wait` fails, a draining server goes on past its deadline for any
number of iterations. -/
theorem Loop.exit_unbounded :
    Transition.Reachable (reactorLoop Sample.library {} 5000) Sample.overdue ∧
      Sample.overdue.phase = .check ∧ Sample.overdue.late = true ∧
      Sample.overdue.server.state = .draining ∧
      ∀ count : ℕ, (reactorLoop Sample.library {} 5000).run Sample.overdue
        (List.replicate count [LoopAction.check, .epollWait .failed]).flatten =
          some Sample.overdue :=
  ⟨Sample.overdue_reachable, by decide +kernel, by decide +kernel, by decide +kernel,
    Loop.run_failed (by decide +kernel) (by decide +kernel) (by decide +kernel)
      (by decide +kernel) (by decide +kernel)⟩

end GatewaySystem
