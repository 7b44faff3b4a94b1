import Mathlib.Data.Int.Notation
import Mathlib.Data.Int.ConditionallyCompleteOrder
import Mathlib.Order.Monotone.Basic
import Mathlib.Order.SuccPred.IntervalSucc
import Mathlib.Tactic.Ring

namespace Multio.Lib

structure Calendar where
  date : ℤ → ℤ → ℤ → ℤ
  year : ℤ → ℤ
  month : ℤ → ℤ
  day : ℤ → ℤ

namespace Calendar

def leapYear (y : ℤ) : Bool := y % 4 = 0 ∧ (y % 100 ≠ 0 ∨ y % 400 = 0)

def monthLength (y m : ℤ) : ℤ :=
  if m = 2 then (if leapYear y then 29 else 28)
  else if m = 4 ∨ m = 6 ∨ m = 9 ∨ m = 11 then 30
  else 31

/-- The first day of a month, with the months numbered through from January of the year 0. -/
def monthStart (c : Calendar) (i : ℤ) : ℤ := c.date (i / 12) (i % 12 + 1) 1

def monthIndex (c : Calendar) (n : ℤ) : ℤ := 12 * c.year n + (c.month n - 1)

/-- The months follow each other, each as long as it is in the Gregorian calendar. -/
structure IsGregorian (c : Calendar) : Prop where
  date_ymd : ∀ n, c.date (c.year n) (c.month n) (c.day n) = n
  month_mem : ∀ n, 1 ≤ c.month n ∧ c.month n ≤ 12
  day_mem : ∀ n, 1 ≤ c.day n ∧ c.day n ≤ monthLength (c.year n) (c.month n)
  date_eq : ∀ y m d, c.date y m d = c.date y m 1 + (d - 1)
  monthStart_succ : ∀ i, c.monthStart (i + 1) =
    c.monthStart i + monthLength (i / 12) (i % 12 + 1)

theorem monthLength_pos (y m : ℤ) : 28 ≤ monthLength y m := by
  unfold monthLength
  split_ifs <;> omega

theorem monthLength_le (y m : ℤ) : monthLength y m ≤ 31 := by
  unfold monthLength
  split_ifs <;> omega

namespace IsGregorian

variable {c : Calendar} (h : c.IsGregorian)

include h

theorem monthStart_strictMono : StrictMono c.monthStart := by
  apply strictMono_int_of_lt_succ
  intro i
  rw [h.monthStart_succ]
  have hpos := monthLength_pos (i / 12) (i % 12 + 1)
  omega

theorem monthStart_monthIndex (n : ℤ) :
    c.monthStart (c.monthIndex n) = c.date (c.year n) (c.month n) 1 := by
  have hm := h.month_mem n
  unfold monthStart monthIndex
  congr 1
  · omega
  · omega

theorem monthStart_le (n : ℤ) :
    c.monthStart (c.monthIndex n) ≤ n ∧ n < c.monthStart (c.monthIndex n + 1) := by
  have hm := h.month_mem n
  have hd := h.day_mem n
  have hn := h.date_ymd n
  rw [h.date_eq, ← h.monthStart_monthIndex] at hn
  have hlength : monthLength (c.monthIndex n / 12) (c.monthIndex n % 12 + 1) =
      monthLength (c.year n) (c.month n) := by
    unfold monthIndex
    congr 1
    · omega
    · omega
  rw [h.monthStart_succ, hlength]
  omega

theorem monthIndex_eq {n i : ℤ} (hi : c.monthStart i ≤ n) (hi' : n < c.monthStart (i + 1)) :
    c.monthIndex n = i := by
  obtain ⟨hn, hn'⟩ := h.monthStart_le n
  have hlt := h.monthStart_strictMono.lt_iff_lt.mp (hi.trans_lt hn')
  have hgt := h.monthStart_strictMono.lt_iff_lt.mp (hn.trans_lt hi')
  omega

theorem monthIndex_mono : Monotone c.monthIndex := by
  intro n n' hn
  have hlt := (h.monthStart_le n).1.trans_lt (hn.trans_lt (h.monthStart_le n').2)
  have hle := h.monthStart_strictMono.lt_iff_lt.mp hlt
  omega

theorem year_mono : Monotone c.year := by
  intro n n' hn
  have hindex := h.monthIndex_mono hn
  have hm := h.month_mem n
  have hm' := h.month_mem n'
  unfold monthIndex at hindex
  omega

theorem ymd_date {y m d : ℤ} (hm : 1 ≤ m ∧ m ≤ 12) (hd : 1 ≤ d ∧ d ≤ monthLength y m) :
    c.year (c.date y m d) = y ∧ c.month (c.date y m d) = m ∧ c.day (c.date y m d) = d := by
  have hyear : (12 * y + (m - 1)) / 12 = y := by omega
  have hmonth : (12 * y + (m - 1)) % 12 + 1 = m := by omega
  have hstart : c.monthStart (12 * y + (m - 1)) = c.date y m 1 := by
    unfold monthStart
    rw [hyear, hmonth]
  have hnext := h.monthStart_succ (12 * y + (m - 1))
  rw [hyear, hmonth, hstart] at hnext
  have hdate := h.date_eq y m d
  have hindex : c.monthIndex (c.date y m d) = 12 * y + (m - 1) := by
    apply h.monthIndex_eq
    · omega
    · omega
  have hmem := h.month_mem (c.date y m d)
  unfold monthIndex at hindex
  have hy : c.year (c.date y m d) = y := by omega
  have hm' : c.month (c.date y m d) = m := by omega
  refine ⟨hy, hm', ?_⟩
  have hday := h.date_ymd (c.date y m d)
  rw [hy, hm', h.date_eq y m (c.day _)] at hday
  omega

end IsGregorian

end Calendar
end Multio.Lib
