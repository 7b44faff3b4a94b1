import Multio.Domain.RunLengthEncoder
import Mathlib.Order.Bounds.Basic

namespace Multio.Domain
open Util RunLength

theorem isLeast_size (v : ℕ) : IsLeast { b | v < 2 ^ b } v.size :=
  ⟨Nat.lt_size_self v, fun _ hb => Nat.size_le.mpr hb⟩

theorem size_of_highestBit {w v : ℕ} (hlow : 2 ^ (w - 1) ≤ v) (hhigh : v < 2 ^ w) :
    v.size = w := by
  have hle : v.size ≤ w := Nat.size_le.mpr hhigh
  have hlt : w - 1 < v.size := Nat.lt_size.mpr hlow
  omega

theorem bitWidth_highestBit (w : ℕ) : bitWidth w (2 ^ (w - 1)) = w - 1 := by
  rw [bitWidth]
  dsimp only
  rw [Nat.one_shiftLeft, if_pos rfl]

theorem bitWidth_above {w v : ℕ} (hv : 2 ^ (w - 1) < v) : bitWidth w v = w := by
  rw [bitWidth]
  dsimp only
  rw [Nat.one_shiftLeft, if_neg hv.ne', if_pos hv]

theorem bitWidth_eq_size_iff {k v : ℕ} (hv : v < 2 ^ 2 ^ k) :
    bitWidth (2 ^ k) v = v.size ↔ v ≠ 2 ^ (2 ^ k - 1) := by
  have hw := Nat.two_pow_pos k
  rcases lt_trichotomy v (2 ^ (2 ^ k - 1)) with hlt | rfl | hgt
  · exact iff_of_true (bitWidth_eq_size hlt) hlt.ne
  · rw [bitWidth_highestBit, size_of_highestBit le_rfl hv]
    omega
  · rw [bitWidth_above hgt, size_of_highestBit hgt.le hv]
    exact iff_of_true rfl hgt.ne'

/-- The powers of two that are not below `v`. -/
def powersFrom (v : ℕ) : Set ℕ := { p | v ≤ p ∧ ∃ e, p = 2 ^ e }

theorem isLeast_powersFrom {v : ℕ} (hv : 0 < v) : IsLeast (powersFrom v) (2 ^ (v - 1).size) := by
  constructor
  · have hlt := Nat.lt_size_self (v - 1)
    exact ⟨by omega, (v - 1).size, rfl⟩
  · rintro _ ⟨hle, e, rfl⟩
    apply Nat.pow_le_pow_right (by decide)
    exact Nat.size_le.mpr (by omega)

theorem isLeast_powersFrom_zero : IsLeast (powersFrom 0) 1 := by
  refine ⟨⟨by decide, 0, rfl⟩, ?_⟩
  rintro _ ⟨-, e, rfl⟩
  exact Nat.one_le_two_pow

theorem le_highestBit {w v p : ℕ} (hp : p ∈ powersFrom v) (hlt : p < 2 ^ w) :
    v ≤ 2 ^ (w - 1) := by
  obtain ⟨hle, e, rfl⟩ := hp
  have he : e < w := (Nat.pow_lt_pow_iff_right (by decide)).mp hlt
  exact hle.trans (Nat.pow_le_pow_right (by decide) (by omega))

/-- `nextPowOf2` is the least power of two not below `v`, if the type has it. -/
theorem nextPowOf2_isLeast_iff {w v : ℕ} (hw : 0 < w) :
    (∀ p < 2 ^ w, IsLeast (powersFrom v) p → nextPowOf2 w v = p) ↔ v ≠ 0 := by
  constructor
  · rintro h rfl
    have hone : 1 < 2 ^ w := Nat.one_lt_two_pow hw.ne'
    have hnext := h 1 hone isLeast_powersFrom_zero
    rw [nextPowOf2_zero] at hnext
    exact Nat.zero_ne_one hnext
  · intro hv p hp hleast
    have hpos := Nat.pos_of_ne_zero hv
    rw [nextPowOf2_eq hpos (le_highestBit hleast.1 hp) hw]
    exact (isLeast_powersFrom hpos).unique hleast

/-- The width of a value and the next power of two are what their names say. -/
structure WidthRight (w v : ℕ) : Prop where
  bitWidth : IsLeast { b | v < 2 ^ b } (bitWidth w v)
  nextPowOf2 : ∀ p < 2 ^ w, IsLeast (powersFrom v) p → nextPowOf2 w v = p

theorem widthRight_iff {k v : ℕ} (hv : v < 2 ^ 2 ^ k) :
    WidthRight (2 ^ k) v ↔ v ≠ 0 ∧ v ≠ 2 ^ (2 ^ k - 1) := by
  have hnext := nextPowOf2_isLeast_iff (v := v) (Nat.two_pow_pos k)
  have hwidth := bitWidth_eq_size_iff hv
  constructor
  · rintro ⟨hbits, hpow⟩
    exact ⟨hnext.mp hpow, hwidth.mp (hbits.unique (isLeast_size v))⟩
  · rintro ⟨hzero, htop⟩
    refine ⟨?_, hnext.mpr hzero⟩
    rw [hwidth.mpr htop]
    exact isLeast_size v

/-- The bits reserved for runs of at most `maxNum` values. -/
def reservedBits (maxNum : ℕ) : ℕ := bitWidth 64 (if maxNum > 1 then maxNum - 1 else 1)

/-- Every length of a run, one lower, fits the bits reserved for the longest one. -/
def RunsFit (maxNum : ℕ) : Prop := ∀ n, 1 ≤ n → n ≤ maxNum → n - 1 < 2 ^ reservedBits maxNum

theorem runsFit_iff {maxNum : ℕ} (hmax : maxNum < 2 ^ 64) :
    RunsFit maxNum ↔ maxNum ≠ 2 ^ 63 + 1 := by
  constructor
  · rintro h rfl
    have hfit := h (2 ^ 63 + 1) (by decide) le_rfl
    rw [reservedBits, if_pos (by decide), Nat.add_sub_cancel, bitWidth_highestBit 64] at hfit
    exact lt_irrefl _ hfit
  · intro hne n hpos hle
    have hsize : reservedBits maxNum = (if maxNum > 1 then maxNum - 1 else 1).size := by
      apply (bitWidth_eq_size_iff (k := 6) _).mpr
      · split_ifs <;> omega
      · split_ifs <;> omega
    have hlt := Nat.lt_size_self (if maxNum > 1 then maxNum - 1 else 1)
    rw [hsize]
    refine lt_of_le_of_lt ?_ hlt
    split_ifs <;> omega

def longestRun (startValue : Bool) (maskVals : List Bool) : ℕ :=
  let s := maskVals.foldl RunCounts.step
    { numValues := 0, maxNum := 0, counter := 1, currentSign := startValue }
  max s.maxNum s.counter

theorem numBitsPerInt_eq (startValue : Bool) (maskVals : List Bool) :
    (computeMaskRunLengthProperties (startValue :: maskVals)).numBitsPerInt =
      reservedBits (longestRun startValue maskVals) := rfl

theorem longestRun_spec (startValue : Bool) (maskVals : List Bool) :
    (∀ n ∈ runLengths startValue 1 maskVals, n ≤ longestRun startValue maskVals) ∧
      longestRun startValue maskVals ≤ (startValue :: maskVals).length := by
  obtain ⟨-, -, hmax, hle⟩ := foldl_runCounts maskVals
    { numValues := 0, maxNum := 0, counter := 1, currentSign := startValue }
  refine ⟨hmax, hle.trans ?_⟩
  simp only [List.length_cons]
  omega

/-- The width of a value and the next power of two are right unless the value is zero or the
highest bit alone; the runs up to a longest one fit the bits reserved for them unless that one is
longer by one than the highest bit, and so the runs of every mask that an index of 32 bits can run
through. -/
theorem widths_iff (k v maxNum : ℕ) (startValue : Bool) (maskVals : List Bool)
    (hv : v < 2 ^ 2 ^ k) (hmax : maxNum < 2 ^ 64)
    (hmask : (startValue :: maskVals).length < 2 ^ 32) :
    (WidthRight (2 ^ k) v ↔ v ≠ 0 ∧ v ≠ 2 ^ (2 ^ k - 1)) ∧
      (RunsFit maxNum ↔ maxNum ≠ 2 ^ 63 + 1) ∧
      ∀ n ∈ runLengths startValue 1 maskVals,
        n - 1 < 2 ^ (computeMaskRunLengthProperties (startValue :: maskVals)).numBitsPerInt := by
  refine ⟨widthRight_iff hv, runsFit_iff hmax, ?_⟩
  intro n hn
  obtain ⟨hlongest, hlength⟩ := longestRun_spec startValue maskVals
  have hfit : RunsFit (longestRun startValue maskVals) :=
    (runsFit_iff (by omega)).mpr (by omega)
  rw [numBitsPerInt_eq]
  exact hfit n (runLengths_pos Nat.one_pos maskVals n hn) (hlongest n hn)

/-- Three as a byte, the longest run a word can have, and two runs of one value each. -/
theorem widths_three :
    WidthRight 8 3 ∧ RunsFit (2 ^ 64 - 1) ∧
      ∀ n ∈ runLengths true 1 [false],
        n - 1 < 2 ^ (computeMaskRunLengthProperties [true, false]).numBitsPerInt := by
  have h := widths_iff 3 3 (2 ^ 64 - 1) true [false] (by decide) (by decide) (by decide)
  exact ⟨h.1.mpr (by decide), h.2.1.mpr (by decide), h.2.2⟩

/-- The highest bit of a word needs 64 bits, of which it is given 63, and so does a run that is
longer by one; zero has no next power of two. -/
theorem highestBit_too_narrow :
    bitWidth 64 (2 ^ 63) = 63 ∧ ¬ WidthRight 64 (2 ^ 63) ∧ ¬ RunsFit (2 ^ 63 + 1) ∧
      nextPowOf2 64 0 = 0 ∧ ¬ WidthRight 64 0 := by
  have htop := widthRight_iff (k := 6) (v := 2 ^ 63) (by decide)
  have hzero := widthRight_iff (k := 6) (v := 0) (by decide)
  have hrun : RunsFit (2 ^ 63 + 1) ↔ _ := runsFit_iff (by decide)
  exact ⟨bitWidth_highestBit 64, fun h => (htop.mp h).2 rfl, fun h => hrun.mp h rfl,
    nextPowOf2_zero 64, fun h => (hzero.mp h).1 rfl⟩

end Multio.Domain
