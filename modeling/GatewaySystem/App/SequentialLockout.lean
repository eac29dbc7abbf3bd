import GatewaySystem.App.Interchange
import GatewaySystem.Lib.ExpiringCounter

/-!
# Checks one after another

What the limit on failed checks is for, in terms of the checks a client has made:
a check is evaluated while fewer failures than the limit are counted, and what is
counted are the failures since the last success and since the last expiry of a
counter. Each client has its own. When the checks are served one after another
the counters of the store follow this, on either backend, and so do the answers.
-/

namespace GatewaySystem

namespace App

/-- The client has a record with the digest that is not disabled. -/
def View.accepts (v : View) (clientId digest : Bytes) : Bool :=
  (v.token clientId).any fun record => !record.disabled && record.digest = digest

/-- A check of a client: whether it presents the client's token, when the limit is
tested, and when the outcome is recorded. -/
structure Attempt where
  valid : Bool
  tested : ℤ
  settled : ℤ
  deriving DecidableEq, Repr

namespace Attempt

/-- When there was a failure since the last success. -/
def failures (evaluated : List Attempt) : List ℤ :=
  (evaluated.takeWhile fun attempt => !attempt.valid).map settled

/-- The attempts, newest first, that find fewer failures counted than the limit. -/
def evaluated (policy : AuthFailurePolicy) : List Attempt → List Attempt
  | [] => []
  | attempt :: earlier =>
      if (ExpiringCounter.counted policy.window (failures (evaluated policy earlier))
          attempt.tested : ℤ) < policy.limit then attempt :: evaluated policy earlier
      else evaluated policy earlier

/-- The failures that are counted after some attempts. -/
def count (policy : AuthFailurePolicy) (attempts : List Attempt) (now : ℤ) : ℤ :=
  ExpiringCounter.counted policy.window (failures (evaluated policy attempts)) now

/-- The counter after some attempts. -/
def counter (policy : AuthFailurePolicy) (attempts : List Attempt) (now : ℤ) :
    Option MemoryAuthFailure :=
  (ExpiringCounter.standing policy.window (failures (evaluated policy attempts)) now).map
    fun counter => ⟨counter.1, counter.2⟩

variable {policy : AuthFailurePolicy} {attempt : Attempt} {attempts : List Attempt} {now later : ℤ}

theorem evaluated_subset (policy : AuthFailurePolicy) (attempts : List Attempt) :
    evaluated policy attempts ⊆ attempts := by
  induction attempts with
  | nil => exact List.Subset.refl _
  | cons attempt earlier ih =>
      rw [evaluated]
      split
      · exact List.cons_subset_cons _ ih
      · exact List.Subset.trans ih (List.subset_cons_self ..)

theorem evaluated_of_le (h : policy.limit ≤ count policy attempts attempt.tested) :
    evaluated policy (attempt :: attempts) = evaluated policy attempts := if_neg (not_lt.mpr h)

theorem evaluated_of_lt (h : count policy attempts attempt.tested < policy.limit) :
    evaluated policy (attempt :: attempts) = attempt :: evaluated policy attempts := if_pos h

theorem failures_past (h : ∀ attempt ∈ attempts, attempt.settled ≤ now) :
    ∀ time ∈ failures (evaluated policy attempts), time ≤ now := by
  intro time htime
  obtain ⟨attempt, hattempt, rfl⟩ := List.mem_map.mp htime
  exact h attempt (evaluated_subset policy attempts (List.takeWhile_subset _ hattempt))

theorem counter_later (h : ∀ attempt ∈ attempts, attempt.settled ≤ now) (hle : now ≤ later) :
    counter policy attempts later =
      (counter policy attempts now).filter fun counter => later < counter.expiresAt := by
  rw [counter, counter, ExpiringCounter.standing_later (failures_past h) hle, Option.filter_map]
  rfl

theorem count_eq (hwindow : 0 < policy.window) (h : ∀ attempt ∈ attempts, attempt.settled ≤ now) :
    count policy attempts now = ((counter policy attempts now).map (·.count)).getD 0 := by
  rw [count, counter, ExpiringCounter.counted_eq hwindow (failures_past h), Option.map_map]
  cases ExpiringCounter.standing policy.window (failures (evaluated policy attempts)) now <;> rfl

/-- An attempt that finds the limit reached changes nothing. -/
theorem counter_limited (attempt : Attempt)
    (h : policy.limit ≤ count policy attempts attempt.tested) (now : ℤ) :
    counter policy (attempt :: attempts) now = counter policy attempts now := by
  rw [counter, evaluated_of_le h, counter]

theorem counter_valid (attempt : Attempt)
    (h : count policy attempts attempt.tested < policy.limit) (hvalid : attempt.valid = true)
    (now : ℤ) : counter policy (attempt :: attempts) now = none := by
  have hfailures : failures (attempt :: evaluated policy attempts) = [] := by
    simp [failures, hvalid]
  rw [counter, evaluated_of_lt h, hfailures]
  rfl

/-- A failure is counted. -/
theorem counter_invalid (attempt : Attempt) (hwindow : 0 < policy.window)
    (h : count policy attempts attempt.tested < policy.limit) (hvalid : attempt.valid = false)
    (hpast : ∀ earlier ∈ attempts, earlier.settled ≤ attempt.settled) :
    counter policy (attempt :: attempts) attempt.settled =
      some (match counter policy attempts attempt.settled with
        | none => ⟨1, attempt.settled + policy.window⟩
        | some counter => { counter with count := counter.count + 1 }) := by
  have hfailures : failures (attempt :: evaluated policy attempts) =
      attempt.settled :: failures (evaluated policy attempts) := by
    simp [failures, hvalid]
  rw [counter, evaluated_of_lt h, hfailures,
    ExpiringCounter.standing_cons hwindow (failures_past hpast), counter, Option.map_some]
  cases ExpiringCounter.standing policy.window (failures (evaluated policy attempts))
    attempt.settled <;> rfl

end Attempt

namespace Application

variable {σ : Type} (a : Application σ)

/-- The check that a request makes, if it comes to one. -/
def checked (r : HttpRequest) : Option AuthCheckRequest :=
  match a.middleware r with
  | .authCheck => (a.decodeAuthCheck r).toOption
  | _ => none

/-- What a visit is to a client. -/
def attempt (v : View) (clientId : Bytes) (visit : Visit) : Option Attempt :=
  match a.checked visit.request with
  | some req =>
      if req.clientId = clientId then
        some ⟨v.accepts clientId (a.digest req.token), (visit.choices 0).now, (visit.choices 2).now⟩
      else none
  | none => none

/-- The attempts of a client, newest first. -/
def attempts (v : View) (clientId : Bytes) (visits : List Visit) : List Attempt :=
  (visits.filterMap (a.attempt v clientId)).reverse

/-- The world after some visits. -/
def afterVisits (w : World σ) (visits : List Visit) : World σ :=
  visits.foldl (fun w visit => (a.visit w visit).2) w

def accepted : HttpResponse := writeJSON 200 (.authCheck ⟨true, "OK", "ok"⟩)

/-- The answer to a check of a client against whom `tested` failures are counted when
the limit is tested, and `settled` when the outcome is recorded. -/
def verdict (v : View) (req : AuthCheckRequest) (tested settled : ℤ) : HttpResponse :=
  if a.authFailures.limit ≤ tested then rateLimited
  else if v.accepts req.clientId (a.digest req.token) then accepted
  else a.refusal (v.decision req.clientId (a.digest req.token)) (settled + 1)

end Application

/-- Visits one after another: no reading of the clock is before an earlier one. -/
structure Paced (visits : List Visit) : Prop where
  within : ∀ visit ∈ visits, Monotone fun i => (visit.choices i).now
  between : visits.Pairwise fun visit later => ∀ i j, (visit.choices i).now ≤ (later.choices j).now

namespace Effect

variable {b : StoreBackend} {platform : Platform} {policy : AuthFailurePolicy} {now : ℤ}
  {v v' : View} {clientId digest : Bytes}

theorem authFailureLimited_inv {result : Except StoreError Bool}
    (h : Effect b platform policy now v (.authFailureLimited clientId result) v') :
    result = .ok (v.limited now clientId policy.limit) ∧ v'.token = v.token ∧
      ∀ later, now ≤ later → ∀ c, v'.live later c = v.live later c := by
  cases h with
  | limited htoken _ hfailure =>
      refine ⟨rfl, htoken, fun later hle c => ?_⟩
      rcases hfailure c with hkept | ⟨hremoved, hnone⟩
      · rw [View.live, View.live, hkept]
      · rw [v.live_later hle, hnone, View.live, hremoved]

theorem verifyDigest_inv {result : Except StoreError TokenAuthDecision}
    (h : Effect b platform policy now v (.verifyDigest clientId digest result) v') :
    v' = v ∧ (result = .ok (v.decision clientId digest) ∨
      b = .redis ∧ clientId = reservedClientId ∧ result = .error .other) := by
  cases h with
  | verify => exact ⟨rfl, .inl rfl⟩
  | unverified hb => exact ⟨rfl, .inr ⟨hb, rfl, rfl⟩⟩

theorem recordAuthFailure_inv {result : Except StoreError ℤ}
    (h : Effect b platform policy now v (.recordAuthFailure clientId result) v')
    (hcount : ∀ counter, v.live now clientId = some counter → counter.count < int64Max) :
    ∃ counter, result = .ok counter.count ∧ v' = v.setFailure clientId (some counter) ∧
      counter = match v.live now clientId with
        | none => ⟨1, now + b.lifetime policy.window⟩
        | some counter => { counter with count := counter.count + 1 } := by
  cases h with
  | recordFirst hnone => exact ⟨_, rfl, rfl, by rw [hnone]⟩
  | recordNext hsome => exact ⟨_, rfl, rfl, by rw [hsome]⟩
  | recordOverflow hsome hmax => exact absurd (hcount _ hsome) (not_lt.mpr hmax)

theorem clearAuthFailures_inv {result : Except StoreError Unit}
    (h : Effect b platform policy now v (.clearAuthFailures clientId result) v') :
    result = .ok () ∧ v' = v.setFailure clientId none := by
  cases h with
  | clear => exact ⟨rfl, rfl⟩

end Effect

namespace View

theorem live_setFailure (v : View) (clientId : Bytes) (counter : Option MemoryAuthFailure) (now : ℤ)
    (c : Bytes) : (v.setFailure clientId counter).live now c =
      if c = clientId then counter.filter fun counter => now < counter.expiresAt
      else v.live now c := by
  simp only [live, setFailure, Function.update_apply]
  split <;> rfl

theorem decision_congr {v v' : View} (h : v'.token = v.token) (clientId digest : Bytes) :
    v'.decision clientId digest = v.decision clientId digest := by
  rw [decision, decision, h]

theorem accepts_congr {v v' : View} (h : v'.token = v.token) (clientId digest : Bytes) :
    v'.accepts clientId digest = v.accepts clientId digest := by
  rw [accepts, accepts, h]

theorem decision_eq_allowed {v : View} {clientId digest : Bytes} :
    v.decision clientId digest = .allowed ↔ v.accepts clientId digest = true := by
  rw [decision, accepts]
  cases v.token clientId with
  | none => simp
  | some record =>
      simp only [digestEqual, Option.any_some]
      split <;> simp_all

end View

namespace StoreBackend

/-- The policy with the time the counters of a backend live. -/
def effective (b : StoreBackend) (policy : AuthFailurePolicy) : AuthFailurePolicy :=
  { policy with window := b.lifetime policy.window }

/-- The backend can read the record of the client. -/
def Readable (b : StoreBackend) (clientId : Bytes) : Prop :=
  b = .redis → clientId ≠ reservedClientId

/-- The accesses to the store do not fail. -/
def Reliable (b : StoreBackend) (choices : ℕ → Choice) : Prop :=
  b = .redis → ∀ i, (choices i).fault = .none

end StoreBackend

section Visits

variable {b : StoreBackend} {platform : Platform} {config : ApplicationConfig}
  {policy : AuthFailurePolicy} {w : World b.State} {choices : ℕ → Choice} {r : HttpRequest}
  {req : AuthCheckRequest} {v v' : View} {visits : List Visit} {visit : Visit}

section Runs

variable (platform config policy)

/-- One access of a check. -/
theorem run_call {α β : Type} {access : Access b.State α} {event : Except StoreError α → Event}
    (hlawful : Lawful b platform policy b.view b.Sound access event)
    (hreliable : b.Reliable choices) (hsound : b.Sound w.store)
    (rest : Except StoreError α → Task b.State β) :
    ∃ result w', b.Sound w'.store ∧
      Effect b platform policy (choices 0).now (b.view w.store) (event result) (b.view w'.store) ∧
      ((routesWithConfig b platform config policy).call access event >>= rest).run choices w =
        (rest result).run (fun i => choices (i + 1)) w' := by
  obtain ⟨hafter, heffect⟩ := hlawful (choices 0).now w.store hsound
  refine ⟨_, w.commit (choices 0).now access event, hafter, heffect, ?_⟩
  cases b with
  | memory => rfl
  | redis => exact run_perform (hreliable rfl 0) rfl

end Runs

/-- What a check can do to the contents of a store, and how it is answered. -/
inductive Check (b : StoreBackend) (a : Application b.State) (policy : AuthFailurePolicy)
    (req : AuthCheckRequest) (choices : ℕ → Choice) (v : View) : HttpResponse → View → Prop
  | limited {v' : View} (h : v.limited (choices 0).now req.clientId policy.limit = true)
      (hlive : ∀ later, (choices 0).now ≤ later → ∀ c, v'.live later c = v.live later c) :
      Check b a policy req choices v rateLimited v'
  | accepted {v' : View} (h : v.limited (choices 0).now req.clientId policy.limit = false)
      (haccepts : v.accepts req.clientId (a.digest req.token) = true)
      (hlive : ∀ later, (choices 0).now ≤ later → ∀ c,
        v'.live later c = if c = req.clientId then none else v.live later c) :
      Check b a policy req choices v Application.accepted v'
  | refused {v' : View} {counter : MemoryAuthFailure}
      (h : v.limited (choices 0).now req.clientId policy.limit = false)
      (haccepts : v.accepts req.clientId (a.digest req.token) = false)
      (hcounter : counter = match v.live (choices 2).now req.clientId with
        | none => ⟨1, (choices 2).now + b.lifetime policy.window⟩
        | some counter => { counter with count := counter.count + 1 })
      (hlive : ∀ later, (choices 0).now ≤ later → ∀ c, v'.live later c =
        if c = req.clientId then (some counter).filter fun counter => later < counter.expiresAt
        else v.live later c) :
      Check b a policy req choices v
        (a.refusal (v.decision req.clientId (a.digest req.token)) counter.count) v'
  | unverified {v' : View} {response : HttpResponse} (h : ¬b.Readable req.clientId)
      (hlive : ∀ later, (choices 0).now ≤ later → ∀ c, v'.live later c = v.live later c) :
      Check b a policy req choices v response v'

/-- A counter that does not limit a client has room for a failure. -/
theorem count_lt_of_not_limited (hmax : policy.limit ≤ int64Max) {now later : ℤ} {clientId : Bytes}
    (h : v.limited now clientId policy.limit = false) (hle : now ≤ later)
    {counter : MemoryAuthFailure} (hcounter : v.live later clientId = some counter) :
    counter.count < int64Max := by
  rw [v.live_later hle] at hcounter
  have hless : counter.count < policy.limit := by
    simpa [View.limited, (Option.filter_eq_some_iff.mp hcounter).1] using h
  exact hless.trans_le hmax

/-- What a check does behind the limit. -/
inductive Settled (b : StoreBackend) (a : Application b.State) (policy : AuthFailurePolicy)
    (req : AuthCheckRequest) (now : ℤ) (v : View) : HttpResponse → View → Prop
  | accepted (haccepts : v.accepts req.clientId (a.digest req.token) = true) :
      Settled b a policy req now v Application.accepted (v.setFailure req.clientId none)
  | refused {counter : MemoryAuthFailure}
      (haccepts : v.accepts req.clientId (a.digest req.token) = false)
      (hcounter : counter = match v.live now req.clientId with
        | none => ⟨1, now + b.lifetime policy.window⟩
        | some counter => { counter with count := counter.count + 1 }) :
      Settled b a policy req now v
        (a.refusal (v.decision req.clientId (a.digest req.token)) counter.count)
        (v.setFailure req.clientId (some counter))
  | unverified {response : HttpResponse} (h : ¬b.Readable req.clientId) :
      Settled b a policy req now v response v

section Checks

variable (platform config policy r req)

theorem settleAuthCheck_allowed (hreliable : b.Reliable choices) (hsound : b.Sound w.store)
    (clientId : Bytes) :
    ∃ w', ((routesWithConfig b platform config policy).settleAuthCheck r clientId .allowed).run
        choices w = (Application.accepted, w') ∧ b.Sound w'.store ∧
      b.view w'.store = (b.view w.store).setFailure clientId none := by
  unfold Application.settleAuthCheck
  rw [if_neg (not_not.mpr rfl)]
  obtain ⟨result, w', hsound', heffect, hrun⟩ := run_call platform config policy
    (b.clearAuthFailures_lawful platform policy clientId) hreliable hsound _
  obtain ⟨rfl, hview⟩ := heffect.clearAuthFailures_inv
  exact ⟨w', hrun, hsound', hview⟩

theorem settleAuthCheck_refused (hreliable : b.Reliable choices) (hsound : b.Sound w.store)
    {clientId : Bytes} {decision : TokenAuthDecision} (hdecision : decision ≠ .allowed)
    (hcount : ∀ counter, (b.view w.store).live (choices 0).now clientId = some counter →
      counter.count < int64Max) :
    ∃ counter w', ((routesWithConfig b platform config policy).settleAuthCheck r clientId
        decision).run choices w =
          ((routesWithConfig b platform config policy).refusal decision counter.count, w') ∧
      b.Sound w'.store ∧ b.view w'.store = (b.view w.store).setFailure clientId (some counter) ∧
      counter = match (b.view w.store).live (choices 0).now clientId with
        | none => ⟨1, (choices 0).now + b.lifetime policy.window⟩
        | some counter => { counter with count := counter.count + 1 } := by
  unfold Application.settleAuthCheck
  rw [if_pos hdecision]
  obtain ⟨result, w', hsound', heffect, hrun⟩ := run_call platform config policy
    (b.recordAuthFailure_lawful platform policy clientId) hreliable hsound _
  obtain ⟨counter, rfl, hview, hcounter⟩ := heffect.recordAuthFailure_inv hcount
  exact ⟨counter, w', hrun, hsound', hview, hcounter⟩

theorem verifyAuthCheck_settled (hreliable : b.Reliable choices) (hsound : b.Sound w.store)
    (hcount : ∀ counter, (b.view w.store).live (choices 1).now req.clientId = some counter →
      counter.count < int64Max) :
    ∃ response w', ((routesWithConfig b platform config policy).verifyAuthCheck r req).run
        choices w = (response, w') ∧ b.Sound w'.store ∧
      Settled b (routesWithConfig b platform config policy) policy req (choices 1).now
        (b.view w.store) response (b.view w'.store) := by
  have htail : b.Reliable fun i => choices (i + 1) := fun hb i => hreliable hb (i + 1)
  obtain ⟨result, w₁, hsound₁, heffect, hrun⟩ := run_call platform config policy
    (b.verifyDigest_lawful platform policy req.clientId
      ((routesWithConfig b platform config policy).digest req.token)) hreliable hsound _
  obtain ⟨hview, hresult⟩ := heffect.verifyDigest_inv
  rw [← hview] at hcount
  rcases hresult with rfl | ⟨hb, hclient, rfl⟩
  · by_cases hallowed : (b.view w.store).decision req.clientId
        ((routesWithConfig b platform config policy).digest req.token) = .allowed
    · obtain ⟨w', hrun', hsound', hview'⟩ := settleAuthCheck_allowed platform config policy r
        htail hsound₁ req.clientId
      refine ⟨Application.accepted, w', hrun.trans ?_, hsound', ?_⟩
      · rw [hallowed]
        exact hrun'
      · rw [hview', hview]
        exact .accepted (View.decision_eq_allowed.mp hallowed)
    · obtain ⟨counter, w', hrun', hsound', hview', hcounter⟩ :=
        settleAuthCheck_refused platform config policy r htail hsound₁ hallowed hcount
      refine ⟨_, w', hrun.trans hrun', hsound', ?_⟩
      rw [hview] at hcounter
      rw [hview', hview]
      exact .refused (by simpa [View.decision_eq_allowed] using hallowed) hcounter
  · refine ⟨_, w₁, hrun, hsound₁, ?_⟩
    rw [hview]
    exact .unverified fun h => h hb hclient

theorem startAuthCheck_check (hmax : policy.limit ≤ int64Max) (hreliable : b.Reliable choices)
    (hmono : Monotone fun i => (choices i).now) (hsound : b.Sound w.store) :
    ∃ response w', ((routesWithConfig b platform config policy).startAuthCheck r req).run
        choices w = (response, w') ∧ b.Sound w'.store ∧
      (b.view w'.store).token = (b.view w.store).token ∧
      Check b (routesWithConfig b platform config policy) policy req choices (b.view w.store)
        response (b.view w'.store) := by
  have hle : (choices 0).now ≤ (choices 2).now := hmono (Nat.zero_le 2)
  obtain ⟨result, w₁, hsound₁, heffect, hrun⟩ := run_call platform config policy
    (b.authFailureLimited_lawful platform policy req.clientId) hreliable hsound _
  obtain ⟨rfl, htoken, hlive⟩ := heffect.authFailureLimited_inv
  cases hlimited : (b.view w.store).limited (choices 0).now req.clientId policy.limit with
  | true =>
      refine ⟨_, w₁, hrun.trans ?_, hsound₁, htoken, .limited hlimited hlive⟩
      rw [hlimited]
      rfl
  | false =>
      have hcount : ∀ counter,
          (b.view w₁.store).live (choices 2).now req.clientId = some counter →
            counter.count < int64Max := fun counter hcounter =>
        count_lt_of_not_limited hmax hlimited hle ((hlive _ hle _).symm.trans hcounter)
      obtain ⟨response, w', hrun', hsound', hsettled⟩ := verifyAuthCheck_settled
        platform config policy r req (fun hb i => hreliable hb (i + 1)) hsound₁ hcount
      have hset : ∀ counter later, (choices 0).now ≤ later → ∀ c,
          ((b.view w₁.store).setFailure req.clientId counter).live later c =
            if c = req.clientId then counter.filter fun counter => later < counter.expiresAt
            else (b.view w.store).live later c := fun counter later hlater c => by
        rw [View.live_setFailure, hlive later hlater]
      refine ⟨response, w', hrun.trans ?_, hsound', ?_, ?_⟩
      · rw [hlimited]
        exact hrun'
      · rw [← htoken]
        generalize b.view w'.store = v' at hsettled
        cases hsettled <;> rfl
      · generalize b.view w'.store = v' at hsettled
        cases hsettled with
        | accepted h =>
            rw [View.accepts_congr htoken] at h
            exact .accepted hlimited h (hset none)
        | refused h hcounter =>
            rw [View.accepts_congr htoken] at h
            rw [hlive _ hle] at hcounter
            rw [View.decision_congr htoken]
            exact .refused hlimited h hcounter (hset _)
        | unverified h => exact .unverified h hlive

end Checks

namespace Application

variable {σ : Type} {a : Application σ} {clientId : Bytes}

theorem attempts_append (a : Application σ) (v : View) (clientId : Bytes)
    (visits visits' : List Visit) : a.attempts v clientId (visits ++ visits') =
      a.attempts v clientId visits' ++ a.attempts v clientId visits := by
  rw [attempts, List.filterMap_append, List.reverse_append]
  rfl

theorem attempts_singleton (a : Application σ) (v : View) (clientId : Bytes) (visit : Visit) :
    a.attempts v clientId [visit] = (a.attempt v clientId visit).toList := by
  rw [attempts]
  cases h : a.attempt v clientId visit <;> simp [h]

theorem attempt_times {attempt : Attempt} (h : a.attempt v clientId visit = some attempt) :
    attempt.tested = (visit.choices 0).now ∧ attempt.settled = (visit.choices 2).now := by
  unfold Application.attempt at h
  split at h
  · split at h
    · cases h
      exact ⟨rfl, rfl⟩
    · cases h
  · cases h

theorem attempts_past {now : ℤ} (h : ∀ visit ∈ visits, ∀ i, (visit.choices i).now ≤ now) :
    ∀ attempt ∈ a.attempts v clientId visits, attempt.settled ≤ now := by
  intro attempt hattempt
  obtain ⟨visit, hvisit, hsome⟩ := List.mem_filterMap.mp (List.mem_reverse.mp hattempt)
  exact (attempt_times hsome).2.trans_le (h visit hvisit 2)

end Application

/-- The limit is tested on the number of failures that are counted. -/
theorem limited_eq (policy : AuthFailurePolicy) {attempts : List Attempt} {now : ℤ}
    {clientId : Bytes} (hlimit : 1 ≤ policy.limit) (hwindow : 0 < policy.window)
    (hpast : ∀ attempt ∈ attempts, attempt.settled ≤ now)
    (hlive : v.live now clientId = Attempt.counter policy attempts now) :
    v.limited now clientId policy.limit =
      decide (policy.limit ≤ Attempt.count policy attempts now) := by
  rw [View.limited, hlive, Attempt.count_eq hwindow hpast]
  cases Attempt.counter policy attempts now with
  | none =>
      have hzero : ¬policy.limit ≤ 0 := by omega
      exact (decide_eq_false hzero).symm
  | some counter => rfl

/-- The contents of a store after some visits: the tokens from before, and for
each client the counter that its attempts leave. -/
structure Follows (b : StoreBackend) (a : Application b.State) (v₀ : View) (visits : List Visit)
    (v : View) : Prop where
  token : v.token = v₀.token
  live : ∀ clientId, b.Readable clientId → ∀ now,
    (∀ visit ∈ visits, ∀ i, (visit.choices i).now ≤ now) →
    v.live now clientId = Attempt.counter (b.effective a.authFailures)
      (a.attempts v₀ clientId visits) now

namespace Follows

variable {v₀ : View} {response : HttpResponse} {a : Application b.State}

/-- A check leaves the counters of the other clients. -/
theorem live_of_check (hcheck : Check b a policy req choices v response v') {now : ℤ}
    (hnow : (choices 0).now ≤ now) {c : Bytes} (hc : c ≠ req.clientId) :
    v'.live now c = v.live now c := by
  cases hcheck with
  | limited _ hlive => exact hlive now hnow c
  | accepted _ _ hlive => rw [hlive now hnow c, if_neg hc]
  | refused _ _ _ hlive => rw [hlive now hnow c, if_neg hc]
  | unverified _ hlive => exact hlive now hnow c

/-- A check of a client, seen from its attempts. -/
theorem counter_of_check (hlimit : 1 ≤ a.authFailures.limit)
    (hwindow : 0 < b.lifetime a.authFailures.window) (hreadable : b.Readable req.clientId)
    {attempts : List Attempt} (hmono : Monotone fun i => (choices i).now)
    (hpast : ∀ attempt ∈ attempts, attempt.settled ≤ (choices 0).now)
    (hcounter : ∀ now, (choices 0).now ≤ now →
      v.live now req.clientId = Attempt.counter (b.effective a.authFailures) attempts now)
    (hcheck : Check b a a.authFailures req choices v response v') :
    response = a.verdict v req
        (Attempt.count (b.effective a.authFailures) attempts (choices 0).now)
        (Attempt.count (b.effective a.authFailures) attempts (choices 2).now) ∧
      ∀ now, (choices 2).now ≤ now → v'.live now req.clientId =
        Attempt.counter (b.effective a.authFailures)
          (⟨v.accepts req.clientId (a.digest req.token), (choices 0).now, (choices 2).now⟩ ::
            attempts) now := by
  -- The policy is opaque from here on: only its limit and its window are used.
  obtain ⟨effective, heffective⟩ : ∃ effective, b.effective a.authFailures = effective := ⟨_, rfl⟩
  have hsame : a.authFailures.limit = effective.limit := by rw [← heffective]; rfl
  have hlifetime : b.lifetime a.authFailures.window = effective.window := by
    rw [← heffective]
    rfl
  rw [heffective] at hcounter ⊢
  rw [hsame] at hlimit
  rw [hlifetime] at hwindow
  have hle : (choices 0).now ≤ (choices 2).now := hmono (Nat.zero_le 2)
  have hpast₂ : ∀ attempt ∈ attempts, attempt.settled ≤ (choices 2).now := fun attempt hattempt =>
    (hpast attempt hattempt).trans hle
  have hlimited := limited_eq effective hlimit hwindow hpast (hcounter _ le_rfl)
  rw [Application.verdict, hsame]
  cases hcheck with
  | limited h hlive =>
      rw [hsame, hlimited, decide_eq_true_eq] at h
      rw [if_pos h]
      refine ⟨rfl, fun now hnow => ?_⟩
      rw [hlive now (hle.trans hnow), hcounter now (hle.trans hnow),
        Attempt.counter_limited ⟨_, (choices 0).now, (choices 2).now⟩ h]
  | accepted h haccepts hlive =>
      rw [hsame, hlimited, decide_eq_false_iff_not] at h
      rw [if_neg h, if_pos haccepts]
      refine ⟨rfl, fun now hnow => ?_⟩
      rw [hlive now (hle.trans hnow), if_pos rfl, haccepts,
        Attempt.counter_valid ⟨true, (choices 0).now, (choices 2).now⟩ (not_le.mp h) rfl]
  | refused h haccepts hrecorded hlive =>
      rw [hsame, hlimited, decide_eq_false_iff_not] at h
      rw [if_neg h, haccepts, if_neg Bool.false_ne_true]
      rw [hcounter _ hle, hlifetime] at hrecorded
      constructor
      · rw [hrecorded, Attempt.count_eq hwindow hpast₂]
        cases Attempt.counter effective attempts (choices 2).now <;> rfl
      · intro now hnow
        have hpast' : ∀ attempt ∈ (⟨false, (choices 0).now, (choices 2).now⟩ : Attempt) :: attempts,
            attempt.settled ≤ (choices 2).now := by
          intro attempt hattempt
          rcases List.mem_cons.mp hattempt with rfl | hattempt
          · exact le_rfl
          · exact hpast₂ attempt hattempt
        rw [hlive now (hle.trans hnow), if_pos rfl, hrecorded, Attempt.counter_later hpast' hnow,
          Attempt.counter_invalid ⟨false, (choices 0).now, (choices 2).now⟩ hwindow (not_le.mp h)
            rfl hpast₂]
  | unverified h => exact absurd hreadable h

/-- A check, from its first access to its answer. -/
theorem check (hlimit : 1 ≤ a.authFailures.limit) (hwindow : 0 < b.lifetime a.authFailures.window)
    (h : Follows b a v₀ visits v) (hchecked : a.checked visit.request = some req)
    (hbefore : ∀ earlier ∈ visits, ∀ i j, (earlier.choices i).now ≤ (visit.choices j).now)
    (hmono : Monotone fun i => (visit.choices i).now) (htoken : v'.token = v.token)
    (hcheck : Check b a a.authFailures req visit.choices v response v') :
    Follows b a v₀ (visits ++ [visit]) v' ∧ (b.Readable req.clientId →
      response = a.verdict v₀ req
        (Attempt.count (b.effective a.authFailures) (a.attempts v₀ req.clientId visits)
          (visit.choices 0).now)
        (Attempt.count (b.effective a.authFailures) (a.attempts v₀ req.clientId visits)
          (visit.choices 2).now)) := by
  have hverdict : ∀ tested settled, a.verdict v req tested settled =
      a.verdict v₀ req tested settled := fun tested settled => by
    rw [Application.verdict, Application.verdict, View.accepts_congr h.token,
      View.decision_congr h.token]
  have hown : b.Readable req.clientId → _ := fun hreadable =>
    counter_of_check hlimit hwindow hreadable hmono
      (Application.attempts_past fun earlier hearlier i => hbefore earlier hearlier i 0)
      (fun now hnow => h.live req.clientId hreadable now fun earlier hearlier i =>
        (hbefore earlier hearlier i 0).trans hnow) hcheck
  refine ⟨⟨htoken.trans h.token, fun clientId hreadable now hnow => ?_⟩, fun hreadable => ?_⟩
  · have hvisit := hnow visit (by simp)
    have hvisits : ∀ earlier ∈ visits, ∀ i, (earlier.choices i).now ≤ now :=
      fun earlier hearlier => hnow earlier (by simp [hearlier])
    rw [Application.attempts_append, Application.attempts_singleton, Application.attempt, hchecked]
    by_cases hclient : req.clientId = clientId
    · subst hclient
      rw [(hown hreadable).2 now (hvisit 2), View.accepts_congr h.token]
      simp
    · rw [live_of_check hcheck (hvisit 0) (Ne.symm hclient), h.live clientId hreadable now hvisits]
      simp [hclient]
  · rw [(hown hreadable).1, hverdict]

end Follows

theorem middleware_authCheck {σ : Type} {a : Application σ} (h : r.path = .authCheck) :
    a.middleware r = .authCheck ∨ ∃ response, a.middleware r = .answer response := by
  have hrouted := a.middleware_routed r
  generalize a.middleware r = handler at hrouted ⊢
  cases hrouted with
  | refused => exact .inr ⟨_, rfl⟩
  | authCheck => exact .inl rfl
  | _ hpath => cases h.symm.trans hpath

namespace Follows

variable {v₀ : View}

/-- A request that comes to no check. -/
theorem visit_unchecked {a : Application b.State} (h : Follows b a v₀ visits (b.view w.store))
    (hpath : visit.request.path = .authCheck) (hchecked : a.checked visit.request = none) :
    (a.visit w visit).2 = w ∧ Follows b a v₀ (visits ++ [visit]) (b.view w.store) := by
  constructor
  · unfold Application.visit Application.serve
    unfold Application.checked at hchecked
    rcases middleware_authCheck (a := a) hpath with hcheck | ⟨response, hanswer⟩
    · rw [hcheck] at hchecked ⊢
      rw [Application.run, Application.handleAuthCheck]
      cases hdecode : a.decodeAuthCheck visit.request with
      | error response => rfl
      | ok req => simp [hdecode, Except.toOption] at hchecked
    · rw [hanswer]
      rfl
  · refine ⟨h.token, fun clientId hreadable now hnow => ?_⟩
    rw [Application.attempts_append, Application.attempts_singleton, Application.attempt, hchecked]
    exact h.live clientId hreadable now fun earlier hearlier => hnow earlier (by simp [hearlier])

/-- A request that comes to a check. -/
theorem visit_checked (hlimit : 1 ≤ policy.limit) (hmax : policy.limit ≤ int64Max)
    (hwindow : 0 < b.lifetime policy.window) (hsound : b.Sound w.store)
    (h : Follows b (routesWithConfig b platform config policy) v₀ visits (b.view w.store))
    (hbefore : ∀ earlier ∈ visits, ∀ i j, (earlier.choices i).now ≤ (visit.choices j).now)
    (hmono : Monotone fun i => (visit.choices i).now) (hreliable : b.Reliable visit.choices)
    (hchecked : (routesWithConfig b platform config policy).checked visit.request = some req) :
    ∃ response w', (routesWithConfig b platform config policy).visit w visit = (response, w') ∧
      b.Sound w'.store ∧
      Follows b (routesWithConfig b platform config policy) v₀ (visits ++ [visit])
        (b.view w'.store) ∧
      (b.Readable req.clientId →
        response = (routesWithConfig b platform config policy).verdict v₀ req
          (Attempt.count (b.effective policy) ((routesWithConfig b platform config policy).attempts
            v₀ req.clientId visits) (visit.choices 0).now)
          (Attempt.count (b.effective policy) ((routesWithConfig b platform config policy).attempts
            v₀ req.clientId visits) (visit.choices 2).now)) := by
  obtain ⟨response, w', hrun, hsound', htoken, hcheck⟩ := startAuthCheck_check platform config
    policy visit.request req hmax hreliable hmono hsound
  obtain ⟨hfollows, hresponse⟩ := h.check hlimit hwindow hchecked hbefore hmono htoken hcheck
  refine ⟨response, w', ?_, hsound', hfollows, hresponse⟩
  unfold Application.checked at hchecked
  unfold Application.visit Application.serve
  split at hchecked
  · next hauth =>
      rw [hauth, Application.run, Application.handleAuthCheck]
      cases hdecode : (routesWithConfig b platform config policy).decodeAuthCheck visit.request with
      | error response => simp [hdecode, Except.toOption] at hchecked
      | ok decoded =>
          obtain rfl : decoded = req := by simpa [hdecode, Except.toOption] using hchecked
          exact hrun
  · cases hchecked

theorem nil (a : Application b.State) (hfresh : ∀ clientId, v₀.failure clientId = none) :
    Follows b a v₀ [] v₀ := by
  refine ⟨rfl, fun clientId _ now _ => ?_⟩
  rw [View.live, hfresh]
  rfl

end Follows

theorem Paced.before (h : Paced (visits ++ [visit])) :
    ∀ earlier ∈ visits, ∀ i j, (earlier.choices i).now ≤ (visit.choices j).now :=
  fun earlier hearlier => (List.pairwise_append.mp h.between).2.2 earlier hearlier visit (by simp)

theorem Paced.earlier (h : Paced (visits ++ [visit])) : Paced visits :=
  ⟨fun earlier hearlier => h.within earlier (by simp [hearlier]),
    (List.pairwise_append.mp h.between).1⟩

/-- The counters follow the attempts over a whole sequence of requests. -/
theorem afterVisits_follows (platform : Platform) (config : ApplicationConfig)
    (hlimit : 1 ≤ policy.limit) (hmax : policy.limit ≤ int64Max)
    (hwindow : 0 < b.lifetime policy.window) (hsound : b.Sound w.store)
    (hfresh : ∀ clientId, (b.view w.store).failure clientId = none) (hpaced : Paced visits)
    (hpath : ∀ visit ∈ visits, visit.request.path = .authCheck)
    (hreliable : ∀ visit ∈ visits, b.Reliable visit.choices) :
    b.Sound ((routesWithConfig b platform config policy).afterVisits w visits).store ∧
      Follows b (routesWithConfig b platform config policy) (b.view w.store) visits
        (b.view ((routesWithConfig b platform config policy).afterVisits w visits).store) := by
  induction visits using List.reverseRecOn with
  | nil => exact ⟨hsound, .nil _ hfresh⟩
  | append_singleton earlier visit ih =>
      obtain ⟨hsound', hfollows⟩ := ih hpaced.earlier
        (fun visit' hvisit' => hpath visit' (by simp [hvisit']))
        fun visit' hvisit' => hreliable visit' (by simp [hvisit'])
      rw [Application.afterVisits, List.foldl_append, List.foldl_cons, List.foldl_nil]
      change b.Sound (Application.visit _ (Application.afterVisits _ w earlier) visit).2.store ∧
        Follows b _ _ _ (b.view (Application.visit _ (Application.afterVisits _ w earlier)
          visit).2.store)
      cases hchecked : (routesWithConfig b platform config policy).checked visit.request with
      | none =>
          obtain ⟨hkept, hfollows'⟩ := hfollows.visit_unchecked (hpath visit (by simp)) hchecked
          rw [hkept]
          exact ⟨hsound', hfollows'⟩
      | some req =>
          obtain ⟨response, w', hvisit, hsound'', hfollows', -⟩ := hfollows.visit_checked hlimit
            hmax hwindow hsound' hpaced.before (hpaced.within visit (by simp))
            (hreliable visit (by simp)) hchecked
          rw [hvisit]
          exact ⟨hsound'', hfollows'⟩

/-- The answer to a check after a sequence of requests. -/
theorem answer_eq (platform : Platform) (config : ApplicationConfig)
    (hlimit : 1 ≤ policy.limit) (hmax : policy.limit ≤ int64Max)
    (hwindow : 0 < b.lifetime policy.window) (hsound : b.Sound w.store)
    (hfresh : ∀ clientId, (b.view w.store).failure clientId = none)
    (hpaced : Paced (visits ++ [visit]))
    (hpath : ∀ earlier ∈ visits, earlier.request.path = .authCheck)
    (hreliable : ∀ earlier ∈ visits ++ [visit], b.Reliable earlier.choices)
    (hchecked : (routesWithConfig b platform config policy).checked visit.request = some req)
    (hreadable : b.Readable req.clientId) :
    ((routesWithConfig b platform config policy).visit
      ((routesWithConfig b platform config policy).afterVisits w visits) visit).1 =
      (routesWithConfig b platform config policy).verdict (b.view w.store) req
        (Attempt.count (b.effective policy) ((routesWithConfig b platform config policy).attempts
          (b.view w.store) req.clientId visits) (visit.choices 0).now)
        (Attempt.count (b.effective policy) ((routesWithConfig b platform config policy).attempts
          (b.view w.store) req.clientId visits) (visit.choices 2).now) := by
  obtain ⟨hsound', hfollows⟩ := afterVisits_follows platform config hlimit hmax hwindow hsound
    hfresh hpaced.earlier hpath fun earlier hearlier => hreliable earlier (by simp [hearlier])
  obtain ⟨response, w', hvisit, -, -, hresponse⟩ := hfollows.visit_checked hlimit hmax hwindow
    hsound' hpaced.before (hpaced.within visit (by simp)) (hreliable visit (by simp)) hchecked
  rw [hvisit]
  exact hresponse hreadable

end Visits

theorem View.accepts_iff {v : View} {clientId digest : Bytes} :
    v.accepts clientId digest = true ↔ ∃ record, v.token clientId = some record ∧
      record.disabled = false ∧ record.digest = digest := by
  rw [accepts, Option.any_eq_true]
  simp

/-- A refusal allows nothing. -/
theorem refusal_ne_allowed {σ : Type} (a : Application σ) (decision : TokenAuthDecision) (count : ℤ)
    (code reason : String) :
    (a.refusal decision count).body ≠ .authCheck ⟨true, code, reason⟩ := by
  unfold Application.refusal
  split
  · nofun
  · split <;> nofun

theorem verdict_allowed {σ : Type} (a : Application σ) (v : View) (req : AuthCheckRequest)
    (tested settled : ℤ) :
    (∃ code reason, (a.verdict v req tested settled).body = .authCheck ⟨true, code, reason⟩) ↔
      v.accepts req.clientId (a.digest req.token) = true ∧ tested < a.authFailures.limit := by
  unfold Application.verdict
  by_cases hfull : a.authFailures.limit ≤ tested
  · rw [if_pos hfull]
    refine iff_of_false ?_ fun h => hfull.not_gt h.2
    rintro ⟨code, reason, hbody⟩
    cases hbody
  · rw [if_neg hfull]
    split
    · next hvalid => exact iff_of_true ⟨_, _, rfl⟩ ⟨hvalid, not_le.mp hfull⟩
    · next hvalid =>
        refine iff_of_false ?_ fun h => hvalid h.1
        rintro ⟨code, reason, hbody⟩
        exact refusal_ne_allowed _ _ _ _ _ hbody

/-- Requests to `/auth/check` of the memory store, one after another: a client is
allowed when it has a record with the digest of the token that is not disabled and
fewer failures than the limit are counted. Otherwise it is turned away, whatever it
presents, once the limit is reached. -/
theorem sequential_lockout (platform : Platform) (config : ApplicationConfig)
    {policy : AuthFailurePolicy} (hlimit : 1 ≤ policy.limit) (hmax : policy.limit ≤ int64Max)
    (hwindow : 0 < policy.window) {w : World MemoryStore} (hsound : w.store.Sound)
    (hfresh : ∀ clientId, w.store.authFailures clientId = none) {earlier : List Visit}
    {visit : Visit} (hpaced : Paced (earlier ++ [visit]))
    (hpath : ∀ before ∈ earlier, before.request.path = .authCheck) {req : AuthCheckRequest}
    (hchecked : (routesWithConfig .memory platform config policy).checked visit.request =
      some req) :
    let a := routesWithConfig .memory platform config policy
    let answer := (a.visit (a.afterVisits w earlier) visit).1
    let count := Attempt.count policy (a.attempts w.store.view req.clientId earlier)
      (visit.choices 0).now
    ((∃ code reason, answer.body = .authCheck ⟨true, code, reason⟩) ↔
      (∃ record, w.store.tokens.lookup req.clientId = some record ∧ record.disabled = false ∧
        record.digest = a.digest req.token) ∧ count < policy.limit) ∧
    (policy.limit ≤ count → answer = rateLimited) := by
  intro a answer count
  have hanswer : answer = a.verdict w.store.view req count
      (Attempt.count policy (a.attempts w.store.view req.clientId earlier)
        (visit.choices 2).now) :=
    answer_eq (b := .memory) platform config hlimit hmax hwindow hsound hfresh hpaced hpath
      (fun _ _ => nofun) hchecked nofun
  rw [hanswer]
  refine ⟨(verdict_allowed a w.store.view req _ _).trans (and_congr_left' View.accepts_iff), ?_⟩
  intro hfull
  exact if_pos hfull

namespace Sample

def record : TokenRecord where
  clientId := client
  generation := 1
  createdAt := []
  updatedAt := []
  disabled := false
  digest := text "t"

/-- A memory store with a token for the client. -/
def guarded : MemoryStore :=
  { newMemoryStore with tokens := newMemoryStore.tokens.insert client record }

/-- A check of the client at a time. -/
def checkAt (credential : String) (now : ℤ) : Visit where
  request := { method := .post, path := .authCheck, body := client ++ text ":" ++ text credential }
  choices _ := { now := now }

theorem guarded_sound : guarded.Sound :=
  MemoryStore.sound_insert StoreBackend.memory.fresh_sound.1 rfl (by decide)

theorem checks_paced {credential credential' : String} {now now' : ℤ} (h : now ≤ now') :
    Paced ([checkAt credential now] ++ [checkAt credential' now']) := by
  refine ⟨fun visit hvisit => ?_, by simpa [checkAt] using h⟩
  rcases List.mem_pair.mp hvisit with rfl | rfl <;> exact fun _ _ _ => le_rfl

end Sample

/-- One failure locks the client out for a minute. -/
theorem sequential_lockout_minute :
    ((routesWithConfig .memory Sample.plainPlatform {} Sample.oneFailure).visit
      ((routesWithConfig .memory Sample.plainPlatform {} Sample.oneFailure).afterVisits
        { store := Sample.guarded, now := 0 } [Sample.checkAt "g" 0])
      (Sample.checkAt "t" 59999999999)).1 = rateLimited ∧
    ∃ code reason, ((routesWithConfig .memory Sample.plainPlatform {} Sample.oneFailure).visit
      ((routesWithConfig .memory Sample.plainPlatform {} Sample.oneFailure).afterVisits
        { store := Sample.guarded, now := 0 } [Sample.checkAt "g" 0])
      (Sample.checkAt "t" 60000000000)).1.body = .authCheck ⟨true, code, reason⟩ := by
  constructor
  · exact (sequential_lockout Sample.plainPlatform {} (by decide) (by decide) (by decide)
      Sample.guarded_sound (fun _ => rfl) (Sample.checks_paced (by decide)) (by decide) rfl).2
      (by decide +kernel)
  · exact (sequential_lockout Sample.plainPlatform {} (by decide) (by decide) (by decide)
      Sample.guarded_sound (fun _ => rfl) (Sample.checks_paced (by decide)) (by decide) rfl).1.mpr
      ⟨⟨_, rfl, rfl, rfl⟩, by decide +kernel⟩

end App

end GatewaySystem
