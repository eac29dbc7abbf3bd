import Mathlib.Data.Int.Notation
import Mathlib.Data.Nat.Log
import Mathlib.Data.UInt
import Mathlib.Tactic.Common

/-!
# Decimal texts of integers

`format` writes an integer in decimal, with a minus sign where it is negative,
and `parse` reads a decimal text with an optional sign. What was written is read
back.
-/

namespace Decimal

/-- The character of a digit. -/
def digit (value : ℕ) : UInt8 := UInt8.ofNat (48 + value)

/-- The value of a digit character. -/
def digit? (byte : UInt8) : Option ℕ :=
  if 48 ≤ byte.toNat ∧ byte.toNat ≤ 57 then some (byte.toNat - 48) else none

theorem digit?_digit {value : ℕ} (h : value < 10) : digit? (digit value) = some value := by
  have hbyte : (digit value).toNat = 48 + value := by
    rw [digit, UInt8.toNat_ofNat', Nat.mod_eq_of_lt (by omega)]
  rw [digit?, hbyte, if_pos (by omega)]
  simp

/-- The digits of a number, most significant first; the fuel bounds their
number. -/
def digits : ℕ → ℕ → List UInt8
  | 0, _ => []
  | fuel + 1, n => if n < 10 then [digit n] else digits fuel (n / 10) ++ [digit (n % 10)]

/-- The number that a sequence of digits continues. -/
def readDigits (start : ℕ) (bytes : List UInt8) : Option ℕ :=
  bytes.foldlM (fun value byte => (digit? byte).map (10 * value + ·)) start

/-- A text of digits alone. -/
def natural? (bytes : List UInt8) : Option ℕ :=
  if bytes = [] then none else readDigits 0 bytes

def format (n : ℤ) : List UInt8 :=
  if n < 0 then 45 :: digits (n.natAbs + 1) n.natAbs else digits (n.natAbs + 1) n.natAbs

def parse : List UInt8 → Option ℤ
  | [] => none
  | sign :: bytes =>
      if sign = 43 then (natural? bytes).map Int.ofNat
      else if sign = 45 then (natural? bytes).map fun n : ℕ => -(n : ℤ)
      else (natural? (sign :: bytes)).map Int.ofNat

theorem readDigits_digits {fuel n : ℕ} (h : n < fuel) : readDigits 0 (digits fuel n) = some n := by
  induction fuel generalizing n with
  | zero => omega
  | succ fuel ih =>
      rw [digits]
      split
      · next hdigit => simp [readDigits, digit?_digit hdigit]
      · have hprefix : (digits fuel (n / 10)).foldlM
            (fun value byte => (digit? byte).map (10 * value + ·)) 0 = some (n / 10) :=
          ih (by omega)
        rw [readDigits, List.foldlM_append, hprefix]
        simp [digit?_digit (Nat.mod_lt n (by decide : 0 < 10)), Nat.div_add_mod]

/-- The digits are digits. -/
theorem digit?_of_mem_digits {fuel n : ℕ} {byte : UInt8} (h : byte ∈ digits fuel n) :
    digit? byte ≠ none := by
  induction fuel generalizing n with
  | zero => cases h
  | succ fuel ih =>
      rw [digits] at h
      split at h
      · next hdigit =>
          rw [List.mem_singleton.mp h, digit?_digit hdigit]
          exact Option.some_ne_none n
      · rcases List.mem_append.mp h with h | h
        · exact ih h
        · rw [List.mem_singleton.mp h, digit?_digit (Nat.mod_lt n (by decide))]
          exact Option.some_ne_none (n % 10)

theorem digits_ne_nil (fuel n : ℕ) : digits (fuel + 1) n ≠ [] := by
  rw [digits]
  split <;> simp

theorem natural?_digits (n : ℕ) : natural? (digits (n + 1) n) = some n := by
  rw [natural?, if_neg (digits_ne_nil n n), readDigits_digits (Nat.lt_succ_self n)]

/-- A text of digits has no sign in front. -/
theorem parse_of_natural? {bytes : List UInt8} {n : ℕ} (h : natural? bytes = some n) :
    parse bytes = some (n : ℤ) := by
  cases bytes with
  | nil => cases h
  | cons byte bytes =>
      have hdigit : digit? byte ≠ none := by
        intro hnone
        simp [natural?, readDigits, hnone] at h
      have hplus : byte ≠ 43 := by
        rintro rfl
        exact hdigit (by decide)
      have hminus : byte ≠ 45 := by
        rintro rfl
        exact hdigit (by decide)
      simp [parse, if_neg hplus, if_neg hminus, h]

theorem length_digits {fuel n : ℕ} (h : n < fuel) :
    (digits fuel n).length = Nat.log 10 n + 1 := by
  induction fuel generalizing n with
  | zero => omega
  | succ fuel ih =>
      rw [digits]
      split
      · next hdigit => rw [Nat.log_of_lt hdigit, List.length_singleton]
      · next hlarge =>
          rw [Nat.log_of_one_lt_of_le (by decide) (not_lt.mp hlarge), List.length_append,
            ih (by omega), List.length_singleton]

theorem length_format_natCast (n : ℕ) : (format n).length = Nat.log 10 n + 1 :=
  length_digits (Nat.lt_succ_self n)

/-- A text that was written holds a sign and digits only. -/
theorem notMem_format {n : ℤ} {byte : UInt8} (hdigit : digit? byte = none) (hsign : byte ≠ 45) :
    byte ∉ format n := by
  intro h
  rw [format] at h
  split at h
  · rcases List.mem_cons.mp h with rfl | h
    · exact hsign rfl
    · exact digit?_of_mem_digits h hdigit
  · exact digit?_of_mem_digits h hdigit

/-- What was written is read back. -/
@[simp] theorem parse_format (n : ℤ) : parse (format n) = some n := by
  rw [format]
  split
  · next hneg =>
      have hvalue : -(n.natAbs : ℤ) = n := by omega
      rw [parse, if_neg (by decide), if_pos rfl, natural?_digits, Option.map_some, hvalue]
  · next hpos =>
      rw [parse_of_natural? (natural?_digits n.natAbs)]
      exact congrArg some (by omega)

end Decimal
