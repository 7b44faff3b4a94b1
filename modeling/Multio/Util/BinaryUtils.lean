import Mathlib.Data.Nat.Bitwise
import Mathlib.Data.Nat.Size

namespace Multio.Util

/-- The recursion of `nextPowOf2(v, d)`: `d` doubles until it reaches the width. What can leave the
type of `w` bits wraps. -/
def nextPowOf2From (w v d : ℕ) : ℕ :=
  if _h : 0 < d ∧ d < w then nextPowOf2From w (v ||| v >>> d) (d <<< 1)
  else (v + 1) % 2 ^ w
termination_by w - d
decreasing_by simp only [Nat.shiftLeft_eq]; omega

def nextPowOf2 (w v : ℕ) : ℕ := nextPowOf2From w ((v + (2 ^ w - 1)) % 2 ^ w) 1

/-- The recursion of `bitWidth(v, s, w)` on a value with at most one bit set. -/
def bitWidthFrom (v s w : ℕ) : ℕ :=
  if _h : w ≤ 1 then s
  else
    let shift := w >>> 1
    let mask := 1 <<< shift - 1
    let high := v &&& (mask <<< shift)
    let low := v &&& mask
    if high ≠ 0 then bitWidthFrom (high >>> shift) (s + shift) shift
    else bitWidthFrom low s shift
termination_by w
decreasing_by all_goals simp only [Nat.shiftRight_eq_div_pow]; omega

def bitWidth (w v : ℕ) : ℕ :=
  let highestNP2 := 1 <<< (w - 1)
  if v = highestNP2 then w - 1
  else if highestNP2 < v then w
  else
    let np2 := nextPowOf2 w v
    bitWidthFrom (if v = np2 then (np2 <<< 1) % 2 ^ w else np2) 0 w

theorem testBit_size_sub_one {v : ℕ} (hv : v ≠ 0) : v.testBit (v.size - 1) = true := by
  have hs : 0 < v.size := Nat.size_pos.mpr (Nat.pos_of_ne_zero hv)
  apply Nat.testBit_of_two_pow_le_and_two_pow_add_one_gt
  · exact Nat.lt_size.mp (by omega)
  · rw [Nat.sub_add_cancel hs]
    exact Nat.lt_size_self v

/-- Bit `j` of the smeared word: some bit of `v` among the `d` from `j` upwards. -/
def Smeared (v u d : ℕ) : Prop := ∀ j, u.testBit j = true ↔ ∃ t, t < d ∧ v.testBit (j + t) = true

theorem smeared_one (v : ℕ) : Smeared v v 1 := by
  intro j
  constructor
  · intro h
    exact ⟨0, by omega, h⟩
  · rintro ⟨t, ht, h⟩
    obtain rfl : t = 0 := by omega
    exact h

theorem Smeared.double {v u d : ℕ} (h : Smeared v u d) : Smeared v (u ||| u >>> d) (d <<< 1) := by
  intro j
  rw [Nat.testBit_or, Bool.or_eq_true, Nat.testBit_shiftRight, h j, h (d + j), Nat.shiftLeft_eq]
  constructor
  · rintro (⟨t, ht, hb⟩ | ⟨t, ht, hb⟩)
    · exact ⟨t, by omega, hb⟩
    · exact ⟨d + t, by omega, by rwa [show j + (d + t) = d + j + t by omega]⟩
  · rintro ⟨t, ht, hb⟩
    by_cases htd : t < d
    · exact Or.inl ⟨t, htd, hb⟩
    · exact Or.inr ⟨t - d, by omega, by rwa [show d + j + (t - d) = j + t by omega]⟩

theorem Smeared.eq_of_size_le {v u d : ℕ} (h : Smeared v u d) (hd : v.size ≤ d) :
    u = 2 ^ v.size - 1 := by
  apply Nat.eq_of_testBit_eq
  intro j
  rw [Nat.testBit_two_pow_sub_one, Bool.eq_iff_iff, h j, decide_eq_true_eq]
  constructor
  · rintro ⟨t, -, hb⟩
    by_contra hj
    have hlt : v < 2 ^ (j + t) := Nat.size_le.mp (by omega)
    rw [Nat.testBit_eq_false_of_lt hlt] at hb
    exact Bool.false_ne_true hb
  · intro hj
    refine ⟨v.size - 1 - j, by omega, ?_⟩
    rw [show j + (v.size - 1 - j) = v.size - 1 by omega]
    exact testBit_size_sub_one (by rintro rfl; simp at hj)

theorem nextPowOf2From_eq {w v u d : ℕ} (hd : 0 < d) (hv : v.size ≤ w) (h : Smeared v u d) :
    nextPowOf2From w u d = (2 ^ v.size - 1 + 1) % 2 ^ w := by
  induction u, d using nextPowOf2From.induct (w := w) with
  | case1 u d hlt ih =>
    rw [nextPowOf2From, dif_pos hlt]
    exact ih (by rw [Nat.shiftLeft_eq]; omega) h.double
  | case2 u d hge =>
    rw [nextPowOf2From, dif_neg hge, h.eq_of_size_le (by omega)]

theorem nextPowOf2_zero (w : ℕ) : nextPowOf2 w 0 = 0 := by
  have hw : 2 ^ w - 1 < 2 ^ w := Nat.sub_lt (Nat.two_pow_pos w) Nat.one_pos
  have hs : (2 ^ w - 1).size ≤ w := Nat.size_le.mpr hw
  rw [nextPowOf2, Nat.zero_add, Nat.mod_eq_of_lt hw,
    nextPowOf2From_eq Nat.one_pos hs (smeared_one _), Nat.sub_add_cancel Nat.one_le_two_pow]
  rcases Nat.eq_zero_or_pos w with rfl | hpos
  · exact Nat.mod_one _
  · have hsize : (2 ^ w - 1).size = w := by
      apply le_antisymm hs
      apply Nat.le_of_pred_lt
      apply Nat.lt_size.mpr
      have h2 : 2 ^ w = 2 ^ (w - 1) * 2 := by rw [← pow_succ, Nat.sub_add_cancel hpos]
      have := Nat.two_pow_pos (w - 1)
      change 2 ^ (w - 1) ≤ _
      omega
    rw [hsize, Nat.mod_self]

theorem nextPowOf2_eq {w v : ℕ} (hv : 0 < v) (hw : v ≤ 2 ^ (w - 1)) (hpos : 0 < w) :
    nextPowOf2 w v = 2 ^ (v - 1).size := by
  have h2 : 2 ^ w = 2 ^ (w - 1) * 2 := by rw [← pow_succ, Nat.sub_add_cancel hpos]
  have hs : (v - 1).size ≤ w - 1 := Nat.size_le.mpr (by omega)
  have hlt : 2 ^ (v - 1).size < 2 ^ w := Nat.pow_lt_pow_right (by omega) (by omega)
  have hp := Nat.two_pow_pos (w - 1)
  have hdec : (v + (2 ^ w - 1)) % 2 ^ w = v - 1 := by
    rw [show v + (2 ^ w - 1) = v - 1 + 2 ^ w by omega, Nat.add_mod_right,
      Nat.mod_eq_of_lt (by omega)]
  rw [nextPowOf2, hdec, nextPowOf2From_eq Nat.one_pos (by omega) (smeared_one _),
    Nat.sub_add_cancel Nat.one_le_two_pow, Nat.mod_eq_of_lt hlt]

theorem two_pow_and_mask (b n : ℕ) : 2 ^ b &&& (1 <<< n - 1) = if b < n then 2 ^ b else 0 := by
  rw [Nat.one_shiftLeft, Nat.and_two_pow_sub_one_eq_mod]
  split_ifs with h
  · exact Nat.mod_eq_of_lt (Nat.pow_lt_pow_right (by omega) h)
  · obtain ⟨c, rfl⟩ := Nat.exists_eq_add_of_le (Nat.le_of_not_lt h)
    rw [pow_add, Nat.mul_mod_right]

theorem two_pow_and_highMask {b n : ℕ} (hb : b < 2 * n) :
    2 ^ b &&& ((1 <<< n - 1) <<< n) = if b < n then 0 else 2 ^ b := by
  apply Nat.eq_of_testBit_eq
  intro j
  rw [Nat.testBit_and, Nat.testBit_shiftLeft, Nat.one_shiftLeft, Nat.testBit_two_pow_sub_one,
    Nat.testBit_two_pow]
  split_ifs with h
  · rw [Nat.zero_testBit]
    by_cases hj : b = j
    · subst hj
      simp [Nat.not_le_of_lt h]
    · simp [hj]
  · rw [Nat.testBit_two_pow]
    by_cases hj : b = j
    · subst hj
      simp only [decide_true, Bool.true_and, Bool.and_eq_true, decide_eq_true_eq]
      omega
    · simp [hj]

theorem bitWidthFrom_zero (s k : ℕ) : bitWidthFrom 0 s (2 ^ k) = s := by
  induction k with
  | zero => rw [bitWidthFrom, dif_pos (by simp)]
  | succ k ih =>
    have hw : ¬ 2 ^ (k + 1) ≤ 1 := by have := Nat.two_pow_pos k; rw [pow_succ]; omega
    rw [bitWidthFrom, dif_neg hw]
    simpa [Nat.shiftRight_eq_div_pow, pow_succ] using ih

theorem bitWidthFrom_two_pow {b k : ℕ} (s : ℕ) (hb : b < 2 ^ k) :
    bitWidthFrom (2 ^ b) s (2 ^ k) = s + b := by
  induction k generalizing b s with
  | zero =>
    obtain rfl : b = 0 := by simpa using hb
    rw [bitWidthFrom, dif_pos (by simp), Nat.add_zero]
  | succ k ih =>
    have hpos := Nat.two_pow_pos k
    have hw : ¬ 2 ^ (k + 1) ≤ 1 := by rw [pow_succ]; omega
    have hshift : 2 ^ (k + 1) >>> 1 = 2 ^ k := by rw [pow_succ, Nat.shiftRight_eq_div_pow]; simp
    rw [bitWidthFrom, dif_neg hw]
    dsimp only
    rw [hshift, two_pow_and_highMask (by rw [pow_succ] at hb; omega), two_pow_and_mask]
    by_cases hlow : b < 2 ^ k
    · simp only [if_pos hlow, ne_eq, not_true_eq_false, if_false]
      exact ih s hlow
    · have hne : 2 ^ b ≠ 0 := (Nat.two_pow_pos b).ne'
      have hdiv : 2 ^ b >>> 2 ^ k = 2 ^ (b - 2 ^ k) := by
        rw [Nat.shiftRight_eq_div_pow, Nat.pow_div (by omega) (by omega)]
      simp only [if_neg hlow, ne_eq, hne, not_false_eq_true, if_true, hdiv]
      rw [ih _ (by rw [pow_succ] at hb; omega)]
      omega

theorem bitWidth_eq_size {k v : ℕ} (hv : v < 2 ^ (2 ^ k - 1)) :
    bitWidth (2 ^ k) v = v.size := by
  have hw := Nat.two_pow_pos k
  rw [bitWidth]
  dsimp only
  rw [Nat.one_shiftLeft, if_neg hv.ne, if_neg hv.le.not_gt]
  rcases Nat.eq_zero_or_pos v with rfl | hpos
  · rw [nextPowOf2_zero, if_pos rfl, Nat.zero_shiftLeft, Nat.zero_mod, bitWidthFrom_zero,
      Nat.size_zero]
  · have hnp := nextPowOf2_eq hpos hv.le hw
    have hs : (v - 1).size ≤ 2 ^ k - 1 := Nat.size_le.mpr (by omega)
    rw [hnp]
    split_ifs with hp
    · -- a power of two has one more significant bit than its predecessor
      have hexp : (v - 1).size < 2 ^ k - 1 := (Nat.pow_lt_pow_iff_right (by omega)).mp (hp ▸ hv)
      have hsize : v.size = (v - 1).size + 1 := by
        conv_lhs => rw [hp]
        exact Nat.size_pow
      rw [hsize, Nat.shiftLeft_eq, pow_one, ← pow_succ,
        Nat.mod_eq_of_lt (Nat.pow_lt_pow_right (by omega) (by omega)),
        bitWidthFrom_two_pow 0 (by omega), Nat.zero_add]
    · have hle : v ≤ 2 ^ (v - 1).size := by
        have := Nat.lt_size_self (v - 1)
        omega
      have hsize : v.size = (v - 1).size := by
        apply le_antisymm
        · exact Nat.size_le.mpr (lt_of_le_of_ne hle hp)
        · exact Nat.size_le_size (Nat.sub_le v 1)
      rw [hsize, bitWidthFrom_two_pow 0 (by omega), Nat.zero_add]

end Multio.Util
