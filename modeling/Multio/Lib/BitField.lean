import Mathlib.Data.Nat.Bitwise
import Mathlib.Data.Nat.Size

namespace Multio.BitField

/-- Bit `q` of a byte sequence, the least significant bit of each byte first. -/
def lsbAt (b : List UInt8) (q : ℕ) : Bool := (b.getD (q / 8) 0).toNat.testBit (q % 8)

/-- Bit `q` of a byte sequence, the most significant bit of each byte first. -/
def msbAt (b : List UInt8) (q : ℕ) : Bool := (b.getD (q / 8) 0).toNat.testBit (7 - q % 8)

/-- `c |= x` on a byte: the bits of `x` above the byte are dropped. -/
def orByte (c : UInt8) (x : ℕ) : UInt8 := UInt8.ofNat (c.toNat ||| x)

theorem testBit_ofNat (x j : ℕ) :
    (UInt8.ofNat x).toNat.testBit j = (decide (j < 8) && x.testBit j) := by
  rw [UInt8.toNat_ofNat', Nat.testBit_mod_two_pow]

theorem testBit_byte_of_le (c : UInt8) {j : ℕ} (hj : 8 ≤ j) : c.toNat.testBit j = false := by
  apply Nat.testBit_eq_false_of_lt
  exact lt_of_lt_of_le c.toNat_lt (Nat.pow_le_pow_right (by omega) hj)

theorem testBit_orByte (c : UInt8) (x j : ℕ) :
    (orByte c x).toNat.testBit j = (c.toNat.testBit j || (decide (j < 8) && x.testBit j)) := by
  rw [orByte, testBit_ofNat, Nat.testBit_or]
  by_cases hj : j < 8
  · simp [hj]
  · simp [hj, testBit_byte_of_le c (Nat.le_of_not_lt hj)]

/-- The `c` bits of `v` below bit `n`, moved to the bits below bit `s + c`. -/
theorem testBit_chunk (v n c s j : ℕ) :
    (((v >>> (n - c)) &&& (1 <<< c - 1)) <<< s).testBit j =
      (decide (s ≤ j) && decide (j - s < c) && v.testBit (n - c + (j - s))) := by
  rw [Nat.testBit_shiftLeft, Nat.testBit_and, Nat.testBit_shiftRight, Nat.one_shiftLeft,
    Nat.testBit_two_pow_sub_one]
  cases decide (j - s < c) <;> simp

theorem getD_set (b : List UInt8) (o i : ℕ) (x : UInt8) (ho : o < b.length) :
    (b.set o x).getD i 0 = if o = i then x else b.getD i 0 := by
  simp only [List.getD_eq_getElem?_getD, List.getElem?_set]
  split_ifs with h
  · simp
  · rfl

/-- The number held by the `n` bits from bit `p` on, the most significant one first. -/
def field (b : List UInt8) (p n : ℕ) : ℕ := Nat.ofBits fun j : Fin n => msbAt b (p + (n - 1 - j))

theorem testBit_field (b : List UInt8) (p n j : ℕ) :
    (field b p n).testBit j = (decide (j < n) && msbAt b (p + (n - 1 - j))) := by
  by_cases hj : j < n
  · rw [field, Nat.testBit_ofBits_lt _ _ hj, decide_eq_true hj, Bool.true_and]
  · rw [field, Nat.testBit_ofBits_ge _ _ (Nat.le_of_not_lt hj), decide_eq_false hj, Bool.false_and]

theorem field_lt (b : List UInt8) (p n : ℕ) : field b p n < 2 ^ n := Nat.ofBits_lt_two_pow _

theorem field_split (b : List UInt8) (p : ℕ) {n c : ℕ} (hc : c ≤ n) :
    field b p n = field b p c <<< (n - c) ||| field b (p + c) (n - c) := by
  apply Nat.eq_of_testBit_eq
  intro j
  rw [Nat.testBit_or, Nat.testBit_shiftLeft, testBit_field, testBit_field, testBit_field]
  by_cases hlow : j < n - c
  · simp only [hlow, show j < n by omega, show ¬ j ≥ n - c by omega, decide_true, decide_false,
      Bool.false_and, Bool.true_and, Bool.false_or]
    congr 1
    omega
  · simp only [hlow, show j ≥ n - c by omega, decide_true, decide_false, Bool.false_and,
      Bool.true_and, Bool.or_false]
    by_cases hj : j < n
    · rw [decide_eq_true hj, decide_eq_true (show j - (n - c) < c by omega)]
      congr 2
      omega
    · rw [decide_eq_false hj, decide_eq_false (show ¬ j - (n - c) < c by omega), Bool.false_and,
        Bool.false_and]

theorem field_eq_zero {b : List UInt8} {p : ℕ} (h : 8 * b.length ≤ p) (n : ℕ) :
    field b p n = 0 := by
  apply Nat.eq_of_testBit_eq
  intro j
  rw [testBit_field, msbAt, List.getD_eq_default _ _ (by omega)]
  simp

end Multio.BitField
