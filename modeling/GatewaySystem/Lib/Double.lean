import Mathlib.Data.Int.Notation
import Mathlib.Data.Nat.Log
import Mathlib.Tactic.Ring

/-!
# Integral doubles

A number of a language whose numbers are doubles is represented by its value
while that is an integer. `round` is the double nearest to an integer, the even
one of two, so it is the identity up to `2 ^ 53` and `2 ^ 53 + 1` is the first
integer it moves.
-/

namespace Double

/-- The distance of the doubles around a natural number, at least one. -/
def unit (n : ℕ) : ℕ := 2 ^ (Nat.log2 n - 52)

def roundNat (n : ℕ) : ℕ :=
  if 2 * (n % unit n) < unit n ∨ 2 * (n % unit n) = unit n ∧ n / unit n % 2 = 0 then
    n / unit n * unit n
  else (n / unit n + 1) * unit n

/-- The double nearest to an integer. -/
def round (n : ℤ) : ℤ := n.sign * roundNat n.natAbs

theorem unit_of_lt {n : ℕ} (h : n < 2 ^ 53) : unit n = 1 := by
  have hlog : Nat.log2 n ≤ 52 := by
    rcases Nat.eq_zero_or_pos n with rfl | hpos
    · decide
    · exact Nat.lt_succ_iff.mp ((Nat.log2_lt hpos.ne').mpr h)
  rw [unit, Nat.sub_eq_zero_of_le hlog, Nat.pow_zero]

theorem roundNat_of_lt {n : ℕ} (h : n < 2 ^ 53) : roundNat n = n := by
  rw [roundNat, unit_of_lt h, Nat.mod_one]
  simp

theorem roundNat_ge (n : ℕ) : n / unit n * unit n ≤ roundNat n := by
  rw [roundNat]
  split
  · exact le_rfl
  · exact Nat.mul_le_mul_right _ (Nat.le_succ _)

/-- Above the limit the unit is even and leaves `53` bits. -/
theorem unit_of_ge {n : ℕ} (h : 2 ^ 53 ≤ n) :
    ∃ k, unit n = 2 ^ (k + 1) ∧ 2 ^ (k + 53) ≤ n := by
  have hpos : n ≠ 0 := by omega
  have hlog : 53 ≤ Nat.log2 n := (Nat.le_log2 hpos).mpr h
  refine ⟨Nat.log2 n - 53, ?_, ?_⟩
  · rw [unit]
    congr 1
    omega
  · exact (Nat.le_log2 hpos).mp (by omega)

/-- Rounding does not cross `2 ^ 53 + 2`. -/
theorem roundNat_large {n : ℕ} (h : 2 ^ 53 + 2 ≤ n) : 2 ^ 53 + 2 ≤ roundNat n := by
  obtain ⟨k, hunit, hlow⟩ := unit_of_ge (n := n) (by omega)
  refine le_trans ?_ (roundNat_ge n)
  rw [hunit]
  rcases Nat.eq_zero_or_pos k with rfl | hk
  · have hdiv : 2 ^ 52 + 1 ≤ n / 2 ^ (0 + 1) := by
      rw [Nat.le_div_iff_mul_le (by decide)]
      omega
    calc 2 ^ 53 + 2 = (2 ^ 52 + 1) * 2 ^ (0 + 1) := by norm_num
      _ ≤ n / 2 ^ (0 + 1) * 2 ^ (0 + 1) := Nat.mul_le_mul_right _ hdiv
  · have hdiv : 2 ^ 52 ≤ n / 2 ^ (k + 1) := by
      rw [Nat.le_div_iff_mul_le (Nat.pow_pos (by decide)), ← Nat.pow_add]
      exact le_trans (Nat.pow_le_pow_right (by decide) (by omega)) hlow
    calc 2 ^ 53 + 2 ≤ 2 ^ 52 * 2 ^ 2 := by decide
      _ ≤ 2 ^ 52 * 2 ^ (k + 1) :=
          Nat.mul_le_mul_left _ (Nat.pow_le_pow_right (by decide) (by omega))
      _ ≤ n / 2 ^ (k + 1) * 2 ^ (k + 1) := Nat.mul_le_mul_right _ hdiv

theorem roundNat_limit : roundNat (2 ^ 53) = 2 ^ 53 := by decide +kernel

theorem roundNat_limit_succ : roundNat (2 ^ 53 + 1) = 2 ^ 53 := by decide +kernel

theorem round_natCast (n : ℕ) : round n = roundNat n := by
  rcases Nat.eq_zero_or_pos n with rfl | hpos
  · decide +kernel
  · rw [round, Int.sign_natCast_of_ne_zero hpos.ne', Int.natAbs_natCast, one_mul]

theorem round_nonpos {n : ℤ} (h : n ≤ 0) : round n ≤ 0 := by
  have hsign : n.sign ≤ 0 := Int.sign_nonpos_iff.mpr h
  exact Int.mul_nonpos_of_nonpos_of_nonneg hsign (Int.natCast_nonneg _)

/-- Up to the limit every integer is a double. -/
theorem round_of_le {n : ℤ} (hpos : 0 ≤ n) (h : n ≤ 2 ^ 53) : round n = n := by
  obtain ⟨n, rfl⟩ := Int.eq_ofNat_of_zero_le hpos
  rw [round_natCast]
  have hle : n ≤ 2 ^ 53 := by exact_mod_cast h
  rcases Nat.lt_or_eq_of_le hle with hlt | rfl
  · rw [roundNat_of_lt hlt]
  · rw [roundNat_limit]

theorem round_limit_succ : round (2 ^ 53 + 1) = 2 ^ 53 := by decide +kernel

/-- Which integers are taken for a double below the limit. -/
theorem round_eq_iff {m n : ℤ} (hm : 0 ≤ m) (hlimit : m < 2 ^ 53) (hn : 0 ≤ n) :
    round n = m ↔ n = m := by
  constructor
  · intro h
    by_cases hle : n ≤ 2 ^ 53
    · rwa [round_of_le hn hle] at h
    · obtain ⟨n, rfl⟩ := Int.eq_ofNat_of_zero_le hn
      rw [round_natCast] at h
      rcases Nat.lt_or_ge n (2 ^ 53 + 2) with hsmall | hlarge
      · obtain rfl : n = 2 ^ 53 + 1 := by omega
        rw [roundNat_limit_succ] at h
        omega
      · have := roundNat_large hlarge
        omega
  · rintro rfl
    exact round_of_le hn hlimit.le

/-- Which integers are taken for the limit. -/
theorem round_eq_limit_iff {n : ℤ} (hn : 0 ≤ n) :
    round n = 2 ^ 53 ↔ n = 2 ^ 53 ∨ n = 2 ^ 53 + 1 := by
  constructor
  · intro h
    by_cases hle : n ≤ 2 ^ 53
    · rw [round_of_le hn hle] at h
      exact .inl h
    · obtain ⟨n, rfl⟩ := Int.eq_ofNat_of_zero_le hn
      rw [round_natCast] at h
      rcases Nat.lt_or_ge n (2 ^ 53 + 2) with hsmall | hlarge
      · omega
      · have := roundNat_large hlarge
        omega
  · rintro (rfl | rfl)
    · exact round_of_le hn le_rfl
    · exact round_limit_succ

end Double
