import Multio.Action.StatisticsMtg2.FstreamIO
import Mathlib.Data.List.TakeDrop

namespace Multio.Action.StatisticsMtg2
open Exception

namespace StatisticsIO

/-- The loop of `getBuffer`, or nothing if it has not ended after so many rounds. -/
def growTo : ℕ → UInt64 → UInt64 → Option UInt64
  | 0, _, _ => none
  | rounds + 1, size, tmp => if tmp < size then growTo rounds size (tmp * 2) else some tmp

/-- `std::vector::resize`, whose words are counted by a `std::ptrdiff_t` of their bytes. -/
def resize (io : StatisticsIO) (n : UInt64) : Except Exception StatisticsIO :=
  if 2 ^ 60 ≤ n.toNat then .error (.lengthError "vector::_M_default_append")
  else .ok { io with buffer := io.buffer.takeD n.toNat 0 }

/-- The buffer is there for as many words of it as are asked for. -/
def getBuffer (rounds : ℕ) (io : StatisticsIO) (size : UInt64) :
    Option (Except Exception StatisticsIO) :=
  (growTo rounds size (UInt64.ofNat io.buffer.length)).map fun tmp => do
    let io ← io.resize tmp
    if size.toNat ≤ io.buffer.length then .ok io
    else .error (.seriousBug "ERROR : size too large for buffer")

/-- What the constructor, the changes of the directory, `getBuffer` and those who fill the buffer
lead to. -/
inductive Reached : StatisticsIO → Prop
  | make (basePath uniqueID : String) : Reached { basePath, uniqueID }
  | moved {io : StatisticsIO} (path : List String) (dateTime : String) (hasValidDateTime : Bool) :
      Reached io → Reached { io with path, dateTime, hasValidDateTime }
  | filled {io : StatisticsIO} (words : List UInt64) :
      Reached io → words.length = io.buffer.length → Reached { io with buffer := words }
  | grown {io io' : StatisticsIO} {rounds : ℕ} {size : UInt64} :
      Reached io → getBuffer rounds io size = some (.ok io') → Reached io'

section

variable {size tmp : UInt64} {j : ℕ}

theorem toNat_mul_two (h : tmp.toNat = 2 ^ j) (hj : j < 63) : (tmp * 2).toNat = 2 ^ (j + 1) := by
  have hlt : 2 ^ (j + 1) < 2 ^ 64 := Nat.pow_lt_pow_right (by decide) (by omega)
  rw [UInt64.toNat_mul, h]
  exact Nat.mod_eq_of_lt hlt

theorem mul_two_eq_zero (h : tmp.toNat = 2 ^ 63) : tmp * 2 = 0 := by
  rw [← UInt64.toNat_inj, UInt64.toNat_mul, h]
  rfl

/-- Beyond the largest power of two, the doubled size becomes zero and stays so. -/
theorem growTo_of_gt (hsize : 2 ^ 63 < size.toNat) (h : tmp = 0 ∨ ∃ j ≤ 63, tmp.toNat = 2 ^ j)
    (rounds : ℕ) : growTo rounds size tmp = none := by
  induction rounds generalizing tmp with
  | zero => rfl
  | succ rounds ih =>
    have hlt : tmp < size := by
      rw [UInt64.lt_iff_toNat_lt]
      obtain rfl | ⟨j, hj, hpow⟩ := h
      · exact (Nat.zero_le _).trans_lt hsize
      · rw [hpow]
        exact (Nat.pow_le_pow_right (by decide) hj).trans_lt hsize
    unfold growTo
    rw [if_pos hlt]
    apply ih
    -- zero stays, and so becomes the last power of two
    obtain rfl | ⟨j, hj, hpow⟩ := h
    · exact Or.inl rfl
    · obtain hj | rfl := Nat.lt_or_eq_of_le hj
      · exact Or.inr ⟨j + 1, hj, toNat_mul_two hpow hj⟩
      · exact Or.inl (mul_two_eq_zero hpow)

theorem growTo_of_le (hsize : size.toNat ≤ 2 ^ 63) (h : tmp.toNat = 2 ^ j) (hj : j ≤ 63) :
    ∃ n, growTo (64 - j) size tmp = some n := by
  -- on the doublings that are left
  induction hd : 63 - j generalizing tmp j with
  | zero =>
    obtain rfl : j = 63 := by omega
    have hge : ¬ tmp < size := by
      rw [UInt64.lt_iff_toNat_lt, h]
      exact not_lt.mpr hsize
    exact ⟨tmp, if_neg hge⟩
  | succ d ih =>
    have hrounds : 64 - j = 64 - (j + 1) + 1 := by omega
    rw [hrounds]
    unfold growTo
    split_ifs
    · exact ih (toNat_mul_two h (by omega)) (by omega) (by omega)
    · exact ⟨tmp, rfl⟩

/-- It ends with a power of two, and with no more than twice what is asked for. -/
theorem growTo_eq_some {rounds : ℕ} {n : UInt64} (hn : growTo rounds size tmp = some n)
    (h : tmp.toNat = 2 ^ j) (hj : j ≤ 63) :
    ∃ i, n.toNat = 2 ^ i ∧ size.toNat ≤ 2 ^ i ∧ (i = j ∨ 2 ^ i < 2 * size.toNat) := by
  induction rounds generalizing tmp j with
  | zero => cases hn
  | succ rounds ih =>
    unfold growTo at hn
    split_ifs at hn with hlt
    · rw [UInt64.lt_iff_toNat_lt, h] at hlt
      have hj' : j < 63 := by
        by_contra hge
        obtain rfl : j = 63 := by omega
        rw [growTo_of_gt hlt (Or.inl (mul_two_eq_zero h)) rounds] at hn
        cases hn
      obtain ⟨i, hi, hle, hdouble⟩ := ih hn (toNat_mul_two h hj') hj'
      refine ⟨i, hi, hle, Or.inr ?_⟩
      obtain rfl | hdouble := hdouble
      · rw [Nat.pow_succ']
        omega
      · exact hdouble
    · rw [UInt64.lt_iff_toNat_lt, h] at hlt
      obtain rfl := Option.some.inj hn
      exact ⟨j, h, not_lt.mp hlt, Or.inl rfl⟩

end

section

variable {io io' : StatisticsIO} {size : UInt64}

/-- The sizes that the buffer has: powers of two that a vector can hold. -/
def PowerOfTwo (io : StatisticsIO) : Prop := ∃ j ≤ 59, io.buffer.length = 2 ^ j

theorem PowerOfTwo.toNat_length {j : ℕ} (hj : j ≤ 59) (h : io.buffer.length = 2 ^ j) :
    (UInt64.ofNat io.buffer.length).toNat = 2 ^ j := by
  rw [h]
  have hlt : 2 ^ j < 2 ^ 64 := Nat.pow_lt_pow_right (by decide) (by omega)
  exact UInt64.toNat_ofNat_of_lt' hlt

theorem PowerOfTwo.getBuffer_isSome (h : io.PowerOfTwo) :
    (∃ rounds r, getBuffer rounds io size = some r) ↔ size.toNat ≤ 2 ^ 63 := by
  obtain ⟨j, hj, hlength⟩ := h
  have htoNat := toNat_length hj hlength
  unfold getBuffer
  constructor
  · rintro ⟨rounds, r, hr⟩
    by_contra hgt
    rw [growTo_of_gt (not_le.mp hgt) (Or.inr ⟨j, by omega, htoNat⟩)] at hr
    cases hr
  · intro hsize
    obtain ⟨n, hn⟩ := growTo_of_le hsize htoNat (by omega)
    exact ⟨64 - j, _, congrArg (Option.map _) hn⟩

theorem PowerOfTwo.getBuffer_large (h : io.PowerOfTwo) (hsize : 2 ^ 59 < size.toNat)
    {rounds : ℕ} {r : Except Exception StatisticsIO} (hr : getBuffer rounds io size = some r) :
    r = .error (.lengthError "vector::_M_default_append") := by
  obtain ⟨j, hj, hlength⟩ := h
  obtain ⟨n, hn, rfl⟩ := Option.map_eq_some_iff.mp hr
  obtain ⟨i, hpow, hle, -⟩ := growTo_eq_some hn (toNat_length hj hlength) (by omega)
  have hi : 59 < i := (Nat.pow_lt_pow_iff_right (by decide : 1 < 2)).mp (hsize.trans_le hle)
  have hlarge : 2 ^ 60 ≤ n.toNat := hpow ▸ Nat.pow_le_pow_right (by decide) hi
  unfold resize
  rw [if_pos hlarge]
  rfl

theorem PowerOfTwo.getBuffer_small (h : io.PowerOfTwo) (hsize : size.toNat ≤ 2 ^ 59)
    {rounds : ℕ} {r : Except Exception StatisticsIO} (hr : getBuffer rounds io size = some r) :
    ∃ i ≤ 59, size.toNat ≤ 2 ^ i ∧ r = .ok { io with buffer := io.buffer.takeD (2 ^ i) 0 } := by
  obtain ⟨j, hj, hlength⟩ := h
  obtain ⟨n, hn, rfl⟩ := Option.map_eq_some_iff.mp hr
  obtain ⟨i, hpow, hle, hleast⟩ := growTo_eq_some hn (toNat_length hj hlength) (by omega)
  have hi : i ≤ 59 := by
    obtain rfl | hleast := hleast
    · exact hj
    · by_contra hi
      have hlarge : 2 ^ 60 ≤ 2 ^ i := Nat.pow_le_pow_right (by decide) (not_le.mp hi)
      omega
  have hsmall : ¬ 2 ^ 60 ≤ n.toNat := by
    rw [hpow, not_le]
    exact Nat.pow_lt_pow_right (by decide) (by omega)
  refine ⟨i, hi, hle, ?_⟩
  unfold resize
  rw [if_neg hsmall, ok_bind, hpow]
  apply if_pos
  rw [List.takeD_length]
  exact hle

theorem Reached.powerOfTwo (h : io.Reached) : io.PowerOfTwo := by
  induction h with
  | make basePath uniqueID => exact ⟨1, by decide, rfl⟩
  | moved path dateTime hasValidDateTime _ ih => exact ih
  | filled words _ hlength ih =>
    obtain ⟨j, hj, hpow⟩ := ih
    exact ⟨j, hj, hlength.trans hpow⟩
  | @grown io io' rounds size _ hbuffer ih =>
    obtain hsize | hsize := Nat.lt_or_ge (2 ^ 59) size.toNat
    · cases ih.getBuffer_large hsize hbuffer
    · obtain ⟨i, hi, -, hok⟩ := ih.getBuffer_small hsize hbuffer
      obtain rfl := Except.ok.inj hok
      exact ⟨i, hi, List.takeD_length ..⟩

end

end StatisticsIO
end Multio.Action.StatisticsMtg2
