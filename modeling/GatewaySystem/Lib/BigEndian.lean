import Mathlib.Data.Nat.Notation
import Mathlib.Tactic.Ring

/-!
# Fixed-width big-endian numbers

`encode w n` writes the low `w` bytes of `n`, the most significant first, and
`decode` reads a byte string back as a number. Reading what was written gives
the number modulo `256 ^ w`, and writing what was read gives the bytes back.
-/

namespace BigEndian

/-- The low `w` bytes of `n`, most significant first. -/
def encode : ℕ → ℕ → List UInt8
  | 0, _ => []
  | w + 1, n => (n / 256 ^ w).toUInt8 :: encode w n

/-- The number a byte string spells. -/
def decode : List UInt8 → ℕ
  | [] => 0
  | b :: bs => b.toNat * 256 ^ bs.length + decode bs

@[simp] theorem length_encode (w n : ℕ) : (encode w n).length = w := by
  induction w with
  | zero => rfl
  | succ w ih => simp [encode, ih]

theorem decode_encode (w n : ℕ) : decode (encode w n) = n % 256 ^ w := by
  induction w with
  | zero => simp [encode, decode, Nat.mod_one]
  | succ w ih =>
      have hdigit : (n / 256 ^ w).toUInt8.toNat = n / 256 ^ w % 256 := by simp
      rw [encode, decode, length_encode, ih, hdigit, Nat.pow_succ, Nat.mod_mul]
      ring

theorem decode_lt (bs : List UInt8) : decode bs < 256 ^ bs.length := by
  induction bs with
  | nil => simp [decode]
  | cons b bs ih =>
      have hb : b.toNat + 1 ≤ 256 := b.toNat_lt
      calc decode (b :: bs) < b.toNat * 256 ^ bs.length + 256 ^ bs.length := by
            rw [decode]; exact Nat.add_lt_add_left ih _
        _ = (b.toNat + 1) * 256 ^ bs.length := by ring
        _ ≤ 256 * 256 ^ bs.length := Nat.mul_le_mul_right _ hb
        _ = 256 ^ (b :: bs).length := by rw [List.length_cons, Nat.pow_succ, Nat.mul_comm]

/-- The digits of `n` do not depend on what stands above them. -/
theorem encode_add_mul (w n m : ℕ) : encode w (m * 256 ^ w + n) = encode w n := by
  induction w generalizing m with
  | zero => rfl
  | succ w ih =>
      have hpow : m * 256 ^ (w + 1) + n = m * 256 * 256 ^ w + n := by ring
      have hdiv : (m * 256 * 256 ^ w + n) / 256 ^ w = n / 256 ^ w + m * 256 := by
        rw [Nat.add_comm, Nat.add_mul_div_right _ _ (Nat.pow_pos (by decide))]
      have hbyte : (n / 256 ^ w + m * 256).toUInt8 = (n / 256 ^ w).toUInt8 := by
        apply UInt8.toNat_inj.mp
        simp
      rw [encode, encode, hpow, hdiv, hbyte, ih]

theorem encode_decode (bs : List UInt8) : encode bs.length (decode bs) = bs := by
  induction bs with
  | nil => rfl
  | cons b bs ih =>
      have hdiv : (b.toNat * 256 ^ bs.length + decode bs) / 256 ^ bs.length = b.toNat := by
        rw [Nat.add_comm, Nat.add_mul_div_right _ _ (Nat.pow_pos (by decide)),
          Nat.div_eq_of_lt (decode_lt bs), Nat.zero_add]
      rw [List.length_cons, encode, decode, hdiv, encode_add_mul, ih]
      simp

end BigEndian
