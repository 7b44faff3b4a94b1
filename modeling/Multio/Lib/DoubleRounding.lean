import Mathlib.Data.Int.Log
import Mathlib.Data.Rat.Floor
import Mathlib.Tactic.NormNum

namespace Multio.Lib.Double

def roundEven (x : ℚ) : ℤ :=
  let below := ⌊x⌋
  if x - below < 1 / 2 then below
  else if 1 / 2 < x - below then below + 1
  else if below % 2 = 0 then below
  else below + 1

def unit (x : ℚ) : ℚ := 2 ^ (Int.log 2 |x| - 52)

def round (x : ℚ) : ℚ := roundEven (x / unit x) * unit x

def toInt (x : ℚ) : ℤ := x.num.tdiv x.den

theorem roundEven_intCast (n : ℤ) : roundEven n = n := by
  unfold roundEven
  simp only [Int.floor_intCast, sub_self]
  rw [if_pos (by norm_num)]

theorem toInt_intCast (n : ℤ) : toInt n = n := by
  unfold toInt
  rw [Rat.num_intCast, Rat.den_intCast]
  exact Int.tdiv_one n

theorem unit_ne_zero (x : ℚ) : unit x ≠ 0 := zpow_ne_zero _ two_ne_zero

theorem round_of_dvd {x : ℚ} {k : ℤ} (h : x = k * unit x) : round x = x := by
  have hquot : x / unit x = k := by
    rw [div_eq_iff (unit_ne_zero x)]
    exact h
  unfold round
  rw [hquot, roundEven_intCast]
  exact h.symm

theorem round_intCast {n : ℤ} (h : |n| ≤ 2 ^ 53) : round n = n := by
  obtain rfl | hne := eq_or_ne n 0
  · exact round_of_dvd (k := 0) (by norm_num)
  have hpos : 0 < |(n : ℚ)| := abs_pos.mpr (Int.cast_ne_zero.mpr hne)
  obtain hsmall | hlarge := lt_or_ge (Int.log 2 |(n : ℚ)|) 53
  · -- the last digit of the double is not before the point
    obtain ⟨j, hj⟩ : ∃ j : ℕ, Int.log 2 |(n : ℚ)| - 52 = -j :=
      ⟨(52 - Int.log 2 |(n : ℚ)|).toNat, by omega⟩
    apply round_of_dvd (k := n * 2 ^ j)
    unfold unit
    rw [hj, zpow_neg, zpow_natCast]
    push_cast
    rw [mul_assoc, mul_inv_cancel₀ (pow_ne_zero j two_ne_zero), mul_one]
  · -- only the largest one has a digit more
    have hle : ((2 : ℕ) : ℚ) ^ (53 : ℤ) ≤ |(n : ℚ)| :=
      (Int.zpow_le_iff_le_log (by decide) hpos).mpr hlarge
    have hge : |(n : ℚ)| ≤ ((2 : ℕ) : ℚ) ^ (53 : ℤ) := by
      have : ((|n| : ℤ) : ℚ) ≤ ((2 ^ 53 : ℤ) : ℚ) := Int.cast_le.mpr h
      rw [Int.cast_abs] at this
      norm_num at this ⊢
      exact this
    have hlog : Int.log 2 |(n : ℚ)| = 53 := by
      rw [le_antisymm hge hle]
      exact Int.log_zpow (by decide) 53
    have habs : |n| = 2 ^ 53 := by
      have := le_antisymm hge hle
      rw [← Int.cast_abs] at this
      norm_num at this
      exact_mod_cast this
    obtain rfl | rfl := (abs_eq (by norm_num)).mp habs
    · apply round_of_dvd (k := 2 ^ 52)
      unfold unit
      rw [hlog]
      norm_num
    · apply round_of_dvd (k := -2 ^ 52)
      unfold unit
      rw [hlog]
      norm_num

end Multio.Lib.Double
