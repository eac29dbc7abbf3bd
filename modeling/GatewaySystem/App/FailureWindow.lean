import GatewaySystem.App.SequentialLockout
import GatewaySystem.App.StartupConfig

/-!
# The window of failed checks

The limit and the window come from two variables of the environment. The window
is given in seconds and becomes a number of nanoseconds, an `int64`; a number of
seconds that is accepted may be too large for that.
-/

namespace GatewaySystem

namespace App

/-- `readPositiveEnv`. -/
def readPositiveEnv (environ : Environment) (name : String) (fallback : ℤ) : ℤ :=
  if getenv environ name = [] then fallback
  else
    match parseInt (getenv environ name) with
    | (_, some _) => fallback
    | (value, none) => if value ≤ 0 then fallback else value

/-- The number of seconds that is accepted. -/
def failureWindowSeconds (environ : Environment) : ℤ :=
  readPositiveEnv environ "AUTH_FAILURE_WINDOW_SECONDS" 60

/-- `authFailurePolicyFromEnv` in an environment. -/
def environPolicy (environ : Environment) : AuthFailurePolicy :=
  authFailurePolicyFromEnv (readPositiveEnv environ "AUTH_FAILURE_LIMIT" 5)
    (failureWindowSeconds environ)

theorem parseInt_le {value : Bytes} {n : ℤ} (h : parseInt value = (n, none)) : n ≤ int64Max := by
  unfold parseInt at h
  split at h
  · cases h
  · split at h
    · cases h
    · split at h
      · cases h
      · next hle =>
          cases h
          exact not_lt.mp hle

theorem readPositiveEnv_range (environ : Environment) (name : String) {fallback : ℤ}
    (hmin : 1 ≤ fallback) (hmax : fallback ≤ int64Max) :
    1 ≤ readPositiveEnv environ name fallback ∧
      readPositiveEnv environ name fallback ≤ int64Max := by
  unfold readPositiveEnv
  split
  · exact ⟨hmin, hmax⟩
  · split
    · exact ⟨hmin, hmax⟩
    · next value hvalue =>
        split
        · exact ⟨hmin, hmax⟩
        · next hpositive => exact ⟨by omega, parseInt_le hvalue⟩

theorem environPolicy_limit (environ : Environment) :
    1 ≤ (environPolicy environ).limit ∧ (environPolicy environ).limit ≤ int64Max :=
  readPositiveEnv_range environ _ (by decide) (by decide)

theorem failureWindowSeconds_pos (environ : Environment) : 1 ≤ failureWindowSeconds environ :=
  (readPositiveEnv_range environ _ (by decide) (by decide)).1

/-- The window is the accepted number of seconds where that fits. -/
theorem environPolicy_window_iff (environ : Environment) :
    (environPolicy environ).window = failureWindowSeconds environ * 1000000000 ↔
      failureWindowSeconds environ ≤ 9223372036 := by
  have hpos := failureWindowSeconds_pos environ
  show wrapInt64 (failureWindowSeconds environ * 1000000000) = _ ↔ _
  constructor
  · intro heq
    have hmax := (wrapInt64_range (failureWindowSeconds environ * 1000000000)).2
    rw [heq] at hmax
    unfold int64Max at hmax
    omega
  · intro hle
    refine wrapInt64_of_range ?_ ?_
    · unfold int64Min
      omega
    · unfold int64Max
      omega

namespace Attempt

variable {policy : AuthFailurePolicy} {attempt first : Attempt}
  {attempts earlier rest : List Attempt} {now : ℤ}

/-- Attempts, newest first, that are made one after another. -/
structure Ordered (attempts : List Attempt) : Prop where
  within : ∀ attempt ∈ attempts, attempt.tested ≤ attempt.settled
  between : attempts.Pairwise fun later earlier => earlier.settled ≤ later.tested

theorem Ordered.tail (h : Ordered (attempt :: attempts)) : Ordered attempts :=
  ⟨fun earlier hearlier => h.within earlier (.tail _ hearlier), (List.pairwise_cons.mp h.between).2⟩

/-- What comes before an attempt is settled when it is tested. -/
theorem Ordered.past (h : Ordered (attempt :: attempts)) :
    ∀ earlier ∈ attempts, earlier.settled ≤ attempt.tested := (List.pairwise_cons.mp h.between).1

theorem Ordered.settled (h : Ordered (attempt :: attempts)) (hle : attempt.tested ≤ now) :
    ∀ earlier ∈ attempts, earlier.settled ≤ now :=
  fun earlier hearlier => (h.past earlier hearlier).trans hle

theorem Ordered.settled_self (h : Ordered (attempt :: attempts)) :
    ∀ earlier ∈ attempt :: attempts, earlier.settled ≤ attempt.settled := by
  intro earlier hearlier
  rcases List.mem_cons.mp hearlier with rfl | hearlier
  · exact le_rfl
  · exact h.settled (h.within attempt (.head _)) earlier hearlier

/-- A counter stands until it expires. -/
theorem counter_stands {counted : MemoryAuthFailure} {later : ℤ}
    (hpast : ∀ attempt ∈ attempts, attempt.settled ≤ now)
    (h : counter policy attempts now = some counted) (hle : now ≤ later)
    (hlater : later < counted.expiresAt) : counter policy attempts later = some counted := by
  rw [counter_later hpast hle, h, Option.filter_some_pos (by simpa using hlater)]

/-- Wrong tokens fill the counter that the first of them starts, up to the limit. -/
theorem counter_of_wrong (hlimit : 1 ≤ policy.limit) (hwindow : 0 < policy.window)
    (hordered : Ordered (rest ++ first :: earlier))
    (hinvalid : ∀ attempt ∈ rest ++ [first], attempt.valid = false)
    (hidle : counter policy earlier first.tested = none)
    (hpast : ∀ attempt ∈ rest ++ first :: earlier, attempt.settled ≤ now)
    (hnow : now < first.settled + policy.window) :
    counter policy (rest ++ first :: earlier) now =
      some ⟨min policy.limit (rest.length + 1), first.settled + policy.window⟩ := by
  induction rest generalizing now with
  | nil =>
      rw [List.nil_append] at hordered hpast ⊢
      have hroom : count policy earlier first.tested < policy.limit := by
        rw [count_eq hwindow hordered.past, hidle]
        exact hlimit
      have hle : first.tested ≤ first.settled := hordered.within first (.head _)
      have hcounter := counter_invalid first hwindow hroom (hinvalid first (by simp))
        (hordered.settled hle)
      rw [counter_later hordered.past hle, hidle] at hcounter
      rw [counter_stands hordered.settled_self hcounter (hpast first (.head _)) hnow]
      simp [hlimit]
  | cons attempt rest ih =>
      rw [List.cons_append] at hordered hpast ⊢
      have hordered' := hordered.tail
      have hinvalid' : ∀ attempt ∈ rest ++ [first], attempt.valid = false :=
        fun before hbefore => hinvalid before (.tail _ hbefore)
      have hle : attempt.tested ≤ attempt.settled := hordered.within attempt (.head _)
      have hsettled : attempt.settled ≤ now := hpast attempt (.head _)
      have hcount : count policy (rest ++ first :: earlier) attempt.tested =
          min policy.limit (rest.length + 1) := by
        rw [count_eq hwindow hordered.past, ih hordered' hinvalid' hordered.past (by omega)]
        rfl
      by_cases hfull : policy.limit ≤ rest.length + 1
      · rw [counter_limited attempt (by rw [hcount]; omega),
          ih hordered' hinvalid' (fun before hbefore => hpast before (.tail _ hbefore)) hnow]
        simp only [List.length_cons]
        congr 2
        push_cast
        omega
      · have hcounter := counter_invalid attempt hwindow (by rw [hcount]; omega)
          (hinvalid attempt (.head _)) (hordered.settled hle)
        rw [ih hordered' hinvalid' (hordered.settled hle) (by omega)] at hcounter
        rw [counter_stands hordered.settled_self hcounter hsettled hnow]
        simp only [List.length_cons]
        congr 2
        push_cast
        omega

end Attempt

/-- Wrong tokens lock a client out. When no counter stands and a client presents as
many wrong tokens as the limit, its next check is turned away if the window that
began with the first of them is not over. -/
def Locks (policy : AuthFailurePolicy) : Prop :=
  ∀ (b : StoreBackend) (platform : Platform) (config : ApplicationConfig) (w : World b.State)
    (earlier wrong : List Visit) (visit : Visit) (req : AuthCheckRequest) (first : Attempt)
    (rest : List Attempt),
    let a := routesWithConfig b platform config policy
    let v := b.view w.store
    b.Sound w.store → (∀ clientId, v.failure clientId = none) →
    Paced (earlier ++ wrong ++ [visit]) →
    (∀ before ∈ earlier ++ wrong, before.request.path = .authCheck) →
    (∀ before ∈ earlier ++ wrong ++ [visit], b.Reliable before.choices) →
    a.checked visit.request = some req → b.Readable req.clientId →
    Attempt.counter (b.effective policy) (a.attempts v req.clientId earlier) first.tested = none →
    a.attempts v req.clientId wrong = rest ++ [first] →
    (∀ attempt ∈ rest ++ [first], attempt.valid = false) → policy.limit ≤ rest.length + 1 →
    (visit.choices 0).now < first.settled + policy.window →
    (a.visit (a.afterVisits w (earlier ++ wrong)) visit).1 = rateLimited

theorem attempts_ordered {σ : Type} (a : Application σ) (v : View) (clientId : Bytes)
    {visits : List Visit} (h : Paced visits) : Attempt.Ordered (a.attempts v clientId visits) := by
  constructor
  · intro attempt hattempt
    obtain ⟨visit, hvisit, hsome⟩ := List.mem_filterMap.mp (List.mem_reverse.mp hattempt)
    obtain ⟨htested, hsettled⟩ := Application.attempt_times hsome
    rw [htested, hsettled]
    exact h.within visit hvisit (Nat.zero_le 2)
  · rw [Application.attempts, List.pairwise_reverse]
    refine h.between.filterMap _ fun visit later hle attempt hattempt attempt' hattempt' => ?_
    rw [(Application.attempt_times hattempt).2, (Application.attempt_times hattempt').1]
    exact hle 2 0

/-- A counter lives for the whole window where that is a number of milliseconds. -/
theorem effective_eq (b : StoreBackend) {policy : AuthFailurePolicy} (h : 1000000 ∣ policy.window) :
    b.effective policy = policy := by
  cases b with
  | memory => rfl
  | redis =>
      have hlifetime : StoreBackend.redis.lifetime policy.window = policy.window :=
        Int.tdiv_mul_cancel h
      rw [StoreBackend.effective, hlifetime]

theorem locks_of_window {policy : AuthFailurePolicy} (hlimit : 1 ≤ policy.limit)
    (hmax : policy.limit ≤ int64Max) (hpos : 0 < policy.window) (hdvd : 1000000 ∣ policy.window) :
    Locks policy := by
  intro b platform config w earlier wrong visit req first rest a v hsound hfresh hpaced hpath
    hreliable hchecked hreadable hidle hwrong hinvalid hcount hnow
  have heffective := effective_eq b hdvd
  have hlifetime : 0 < b.lifetime policy.window :=
    hpos.trans_eq (congrArg AuthFailurePolicy.window heffective).symm
  rw [heffective] at hidle
  have hattempts : a.attempts v req.clientId (earlier ++ wrong) =
      rest ++ first :: a.attempts v req.clientId earlier := by
    rw [Application.attempts_append, hwrong, List.append_assoc, List.singleton_append]
  have hordered := attempts_ordered a v req.clientId hpaced.earlier
  have hpast : ∀ attempt ∈ a.attempts v req.clientId (earlier ++ wrong),
      attempt.settled ≤ (visit.choices 0).now :=
    Application.attempts_past fun before hbefore i => hpaced.before before hbefore i 0
  rw [hattempts] at hordered
  have hfull : policy.limit ≤ Attempt.count policy (a.attempts v req.clientId (earlier ++ wrong))
      (visit.choices 0).now := by
    rw [Attempt.count_eq hpos hpast, hattempts,
      Attempt.counter_of_wrong hlimit hpos hordered hinvalid hidle (hattempts ▸ hpast) hnow]
    exact le_min le_rfl hcount
  rw [answer_eq platform config hlimit hmax hlifetime hsound hfresh hpaced hpath hreliable hchecked
    hreadable, heffective]
  exact if_pos hfull

/-- The policy is what the environment asks for, and locks clients out, where the
number of seconds fits. -/
theorem failure_window_iff (environ : Environment) :
    (1 ≤ (environPolicy environ).limit ∧ 1000000000 ≤ (environPolicy environ).window ∧
      (environPolicy environ).window = failureWindowSeconds environ * 1000000000 ∧
      Locks (environPolicy environ)) ↔ failureWindowSeconds environ ≤ 9223372036 := by
  constructor
  · rintro ⟨-, -, hwindow, -⟩
    exact (environPolicy_window_iff environ).mp hwindow
  · intro hle
    obtain ⟨hlimit, hmax⟩ := environPolicy_limit environ
    have hseconds := failureWindowSeconds_pos environ
    have hwindow := (environPolicy_window_iff environ).mpr hle
    refine ⟨hlimit, by omega, hwindow, locks_of_window hlimit hmax (by omega) ?_⟩
    rw [hwindow]
    exact Dvd.dvd.mul_left (by decide) _

/-- A window of some 292 years. -/
def Sample.endless : Environment
  | "AUTH_FAILURE_LIMIT" => some (text "1")
  | "AUTH_FAILURE_WINDOW_SECONDS" => some (text "9223372037")
  | _ => none

/-- The window is negative and locks nobody out. -/
theorem failure_window_overflow :
    failureWindowSeconds Sample.endless = 9223372037 ∧
    (environPolicy Sample.endless).window = -9223372036709551616 ∧
    ((routesWithConfig .memory Sample.plainPlatform {} (environPolicy Sample.endless)).visit
      ((routesWithConfig .memory Sample.plainPlatform {}
        (environPolicy Sample.endless)).afterVisits
        { store := Sample.guarded, now := 0 } [Sample.checkAt "g" 0])
      (Sample.checkAt "t" 0)).1.body = .authCheck ⟨true, "OK", "ok"⟩ := by
  refine ⟨by decide +kernel, by decide +kernel, by decide +kernel⟩

end App

end GatewaySystem
