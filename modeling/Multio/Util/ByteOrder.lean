import Mathlib.Data.Nat.Bitwise

namespace Multio.Util

/-- The lowest `size` bytes of an integer. -/
def littleEndian : ℕ → ℕ → List UInt8
  | 0, _ => []
  | size + 1, x => UInt8.ofNat x :: littleEndian size (x >>> 8)

def ofLittleEndian : List UInt8 → ℕ
  | [] => 0
  | b :: bs => b.toNat + (ofLittleEndian bs) <<< 8

@[simp] theorem littleEndian_length (size x : ℕ) : (littleEndian size x).length = size := by
  induction size generalizing x with
  | zero => rfl
  | succ size ih => rw [littleEndian, List.length_cons, ih]

theorem ofLittleEndian_littleEndian {size x : ℕ} (hx : x < 2 ^ (8 * size)) :
    ofLittleEndian (littleEndian size x) = x := by
  induction size generalizing x with
  | zero =>
    rw [Nat.mul_zero, pow_zero] at hx
    rw [littleEndian, ofLittleEndian]
    omega
  | succ size ih =>
    have hshift : x >>> 8 < 2 ^ (8 * size) := by
      rw [Nat.shiftRight_eq_div_pow]
      apply Nat.div_lt_of_lt_mul
      rw [← pow_add, Nat.add_comm, ← Nat.mul_succ]
      exact hx
    rw [littleEndian, ofLittleEndian, ih hshift, Nat.shiftRight_eq_div_pow, Nat.shiftLeft_eq,
      UInt8.toNat_ofNat']
    omega

theorem ofLittleEndian_lt (bytes : List UInt8) :
    ofLittleEndian bytes < 2 ^ (8 * bytes.length) := by
  induction bytes with
  | nil => rw [ofLittleEndian, List.length_nil, Nat.mul_zero, pow_zero]; exact Nat.one_pos
  | cons b bs ih =>
    have hb : b.toNat < 2 ^ 8 := b.toNat_lt
    have hpow : 2 ^ (8 * (bs.length + 1)) = 2 ^ (8 * bs.length) * 2 ^ 8 := by
      rw [Nat.mul_succ, pow_add]
    rw [ofLittleEndian, List.length_cons, Nat.shiftLeft_eq, hpow]
    omega

end Multio.Util
