import Mathlib.Tactic.IntervalCases
import Mathlib.Tactic.NormNum
import Multio.Lib.Calendar

namespace Multio.Lib.Calendar

def leapDays (y : ℤ) : ℤ := if leapYear y then 1 else 0

def daysBeforeYear (y : ℤ) : ℤ := 365 * y + (y + 3) / 4 - (y + 99) / 100 + (y + 399) / 400

theorem daysBeforeYear_succ (y : ℤ) : daysBeforeYear (y + 1) = daysBeforeYear y + 365 + leapDays y := by
  unfold daysBeforeYear leapDays leapYear
  split_ifs with h
  · simp only [decide_eq_true_eq] at h
    omega
  · simp only [decide_eq_true_eq] at h
    omega

/-- The days of a year before a month; from March on, 153 days make five months. -/
def daysBeforeMonth (y m : ℤ) : ℤ :=
  if m ≤ 2 then 31 * (m - 1) else (153 * (m - 3) + 2) / 5 + 59 + leapDays y

theorem leapDays_mem (y : ℤ) : leapDays y = 0 ∨ leapDays y = 1 := by
  unfold leapDays
  split_ifs
  · exact Or.inr rfl
  · exact Or.inl rfl

theorem monthLength_february (y : ℤ) : monthLength y 2 = 28 + leapDays y := by
  unfold leapDays
  rw [monthLength, if_pos rfl]
  split_ifs <;> rfl

theorem daysBeforeMonth_succ (y : ℤ) {m : ℤ} (h : 1 ≤ m) (h' : m < 12) :
    daysBeforeMonth y (m + 1) = daysBeforeMonth y m + monthLength y m := by
  obtain rfl | hm : m = 2 ∨ m ≠ 2 := em _
  · rw [monthLength_february]
    unfold daysBeforeMonth
    norm_num
    ring
  · unfold daysBeforeMonth monthLength
    interval_cases m <;> first | contradiction | norm_num
    all_goals ring

/-- A year that is near enough to the one of a day, and then that one. -/
def yearOf (n : ℤ) : ℤ :=
  let y := 400 * n / 146097
  if n < daysBeforeYear y then y - 1
  else if daysBeforeYear (y + 1) ≤ n then y + 1
  else y

theorem yearOf_spec (n : ℤ) : daysBeforeYear (yearOf n) ≤ n ∧ n < daysBeforeYear (yearOf n + 1) := by
  unfold yearOf
  simp only []
  split_ifs with hlt hle
  · rw [sub_add_cancel]
    refine ⟨?_, hlt⟩
    unfold daysBeforeYear
    omega
  · refine ⟨hle, ?_⟩
    unfold daysBeforeYear
    omega
  · exact ⟨not_lt.mp hlt, not_le.mp hle⟩

def dayOfYear (n : ℤ) : ℤ := n - daysBeforeYear (yearOf n)

theorem dayOfYear_mem (n : ℤ) : 0 ≤ dayOfYear n ∧ dayOfYear n < 365 + leapDays (yearOf n) := by
  have h := yearOf_spec n
  rw [daysBeforeYear_succ] at h
  unfold dayOfYear
  omega

def monthOf (n : ℤ) : ℤ :=
  if dayOfYear n < 31 then 1
  else if dayOfYear n < 59 + leapDays (yearOf n) then 2
  else (5 * (dayOfYear n - 59 - leapDays (yearOf n)) + 2) / 153 + 3

theorem monthOf_mem (n : ℤ) : 1 ≤ monthOf n ∧ monthOf n ≤ 12 := by
  have h := dayOfYear_mem n
  have hleap := leapDays_mem (yearOf n)
  unfold monthOf
  split_ifs <;> omega

theorem monthOf_spec (n : ℤ) : daysBeforeMonth (yearOf n) (monthOf n) ≤ dayOfYear n ∧
    dayOfYear n < daysBeforeMonth (yearOf n) (monthOf n) + monthLength (yearOf n) (monthOf n) := by
  have h := dayOfYear_mem n
  have hleap := leapDays_mem (yearOf n)
  have hmem := monthOf_mem n
  -- January and February by the days, the months from March on by the division
  by_cases hlt : dayOfYear n < 31
  · have hm : monthOf n = 1 := if_pos hlt
    rw [hm]
    exact ⟨h.1, hlt⟩
  by_cases hfeb : dayOfYear n < 59 + leapDays (yearOf n)
  · have hm : monthOf n = 2 := by
      unfold monthOf
      rw [if_neg hlt, if_pos hfeb]
    rw [hm, monthLength_february]
    unfold daysBeforeMonth
    norm_num
    omega
  · have hm : monthOf n = (5 * (dayOfYear n - 59 - leapDays (yearOf n)) + 2) / 153 + 3 := by
      unfold monthOf
      rw [if_neg hlt, if_neg hfeb]
    have hlower : daysBeforeMonth (yearOf n) (monthOf n) ≤ dayOfYear n := by
      unfold daysBeforeMonth
      rw [if_neg (by omega)]
      omega
    refine ⟨hlower, ?_⟩
    by_cases hdec : monthOf n = 12
    · rw [hdec]
      have hmonth : daysBeforeMonth (yearOf n) 12 + monthLength (yearOf n) 12 =
          365 + leapDays (yearOf n) := by
        unfold daysBeforeMonth monthLength
        norm_num
        ring
      omega
    · rw [← daysBeforeMonth_succ _ hmem.1 (by omega)]
      unfold daysBeforeMonth
      rw [if_neg (by omega)]
      omega

def gregorian : Calendar where
  date y m d := daysBeforeYear y + daysBeforeMonth y m + (d - 1)
  year := yearOf
  month := monthOf
  day n := dayOfYear n - daysBeforeMonth (yearOf n) (monthOf n) + 1

theorem gregorian_isGregorian : gregorian.IsGregorian where
  date_ymd n := by
    unfold gregorian dayOfYear
    ring
  month_mem := monthOf_mem
  day_mem n := by
    have h := monthOf_spec n
    unfold gregorian
    simp only []
    omega
  date_eq y m d := by
    unfold gregorian
    ring
  monthStart_succ i := by
    unfold monthStart gregorian
    simp only []
    by_cases hdec : i % 12 = 11
    · have hyear : (i + 1) / 12 = i / 12 + 1 := by omega
      have hmonth : (i + 1) % 12 = 0 := by omega
      rw [hyear, hmonth, hdec, daysBeforeYear_succ]
      unfold daysBeforeMonth monthLength
      norm_num
      ring
    · have hyear : (i + 1) / 12 = i / 12 := by omega
      have hmonth : (i + 1) % 12 = i % 12 + 1 := by omega
      rw [hyear, hmonth, daysBeforeMonth_succ _ (by omega) (by omega)]
      ring

end Multio.Lib.Calendar
