import Multio.Action.StatisticsMtg2.OperationWindow
import Multio.Lib.DoubleRounding
import Multio.Lib.GregorianCalendar
import Multio.Lib.TimeWindows

namespace Multio.StatisticsMtg2
open Lib Exception

namespace PeriodUpdater

variable (calendar : Calendar) (u : PeriodUpdater)

/-- `updateWinEndTime` as it is computed: the span is a `long` whose products and sums may overflow,
and the seconds that `eckit` adds are a double. The year of an `eckit::Date`, which counts its days
in a `long`, is far from an overflow. -/
def updateWinEndTime64 (startPoint : DateTime) : Except Exception DateTime :=
  match u.timeUnit with
  | .hour => do
    let seconds ← int64 (3600 * u.span)
    let tmp : DateTime := startPoint + Double.toInt (Double.round seconds)
    .ok (dateTime tmp.date (tmp.time / 3600 * 3600))
  | .day => do
    let seconds ← int64 (86400 * u.span)
    let tmp : DateTime := startPoint + Double.toInt (Double.round seconds)
    .ok (dateTime tmp.date 0)
  | .month => do
    let months ← int64 (calendar.month startPoint.date + u.span)
    let totalSpan ← int64 (months - 1)
    -- the division of `long` truncates
    let endYear := calendar.year startPoint.date + totalSpan.tdiv 12
    let endMonth := totalSpan.tmod 12 + 1
    .ok (dateTime (calendar.date endYear endMonth 1) 0)

/-- The seconds of the span are a `long` and a double, and so are the months up to its end. -/
def Counted : Prop :=
  match u.timeUnit with
  | .hour => 3600 * u.span < 2 ^ 63 ∧
      Double.round ((3600 * u.span : ℤ) : ℚ) = ((3600 * u.span : ℤ) : ℚ)
  | .day => 86400 * u.span < 2 ^ 63 ∧
      Double.round ((86400 * u.span : ℤ) : ℚ) = ((86400 * u.span : ℤ) : ℚ)
  | .month => 12 + u.span < 2 ^ 63

/-- The end of the last of `n` windows. -/
def iterateWinEndTime64 (n : ℕ) (startPoint : DateTime) : Except Exception DateTime :=
  (fun point => point >>= u.updateWinEndTime64 calendar)^[n] (.ok startPoint)

/-- The beginning of the `k`-th window from the one of the time `t` on. -/
def windowStart (t : DateTime) (k : ℕ) : DateTime :=
  (u.updateWinEndTime calendar)^[k] (u.computeWinStartTime calendar t)

/-- A period of `n` of these. -/
def times (n : ℕ) : PeriodUpdater := { u with span := n * u.span }

variable {calendar} (h : calendar.IsGregorian)

theorem counted_of_le (hspan : 1 ≤ u.span)
    (hhour : u.timeUnit = .hour → 3600 * u.span ≤ 2 ^ 53)
    (hday : u.timeUnit = .day → 86400 * u.span ≤ 2 ^ 53)
    (hmonth : u.timeUnit = .month → 12 + u.span < 2 ^ 63) : u.Counted := by
  unfold Counted
  cases hunit : u.timeUnit with
  | hour =>
    have hle := hhour hunit
    exact ⟨by omega, Double.round_intCast (abs_le.mpr (by omega))⟩
  | day =>
    have hle := hday hunit
    exact ⟨by omega, Double.round_intCast (abs_le.mpr (by omega))⟩
  | month => exact hmonth hunit

include h

/-- Where the span is counted, the end of a window is the one of the integers. -/
theorem updateWinEndTime64_eq (hspan : 1 ≤ u.span) (hcounted : u.Counted) (startPoint : DateTime) :
    u.updateWinEndTime64 calendar startPoint = .ok (u.updateWinEndTime calendar startPoint) := by
  unfold Counted at hcounted
  unfold updateWinEndTime64 updateWinEndTime
  cases hunit : u.timeUnit with
  | hour =>
    rw [hunit] at hcounted
    obtain ⟨hlt, hround⟩ := hcounted
    simp only []
    rw [int64_of_mem (by omega) hlt, ok_bind, hround, Double.toInt_intCast]
  | day =>
    rw [hunit] at hcounted
    obtain ⟨hlt, hround⟩ := hcounted
    simp only []
    rw [int64_of_mem (by omega) hlt, ok_bind, hround, Double.toInt_intCast]
  | month =>
    rw [hunit] at hcounted
    have hmonth := h.month_mem startPoint.date
    have hlt : 12 + u.span < 2 ^ 63 := hcounted
    simp only []
    rw [int64_of_mem (by omega) (by omega), ok_bind, int64_of_mem (by omega) (by omega), ok_bind]

theorem iterateWinEndTime64_eq (hspan : 1 ≤ u.span) (hcounted : u.Counted) (n : ℕ)
    (startPoint : DateTime) :
    u.iterateWinEndTime64 calendar n startPoint =
      .ok ((u.updateWinEndTime calendar)^[n] startPoint) := by
  unfold iterateWinEndTime64
  induction n with
  | zero => rfl
  | succ n ih =>
    rw [Function.iterate_succ_apply', Function.iterate_succ_apply', ih, ok_bind]
    exact u.updateWinEndTime64_eq h hspan hcounted _

variable (hspan : 1 ≤ u.span)

include hspan

theorem iterate_updateWinEndTime (n : ℕ) (t : ℤ) :
    (u.updateWinEndTime calendar)^[n + 1] t =
      u.timeUnit.point calendar (u.timeUnit.index calendar t + (n + 1 : ℕ) * u.span) := by
  induction n with
  | zero =>
    rw [Function.iterate_one, u.updateWinEndTime_eq h hspan, Nat.cast_one, one_mul]
  | succ n ih =>
    rw [Function.iterate_succ_apply', ih, u.updateWinEndTime_eq h hspan, u.timeUnit.index_point h]
    congr 1
    push_cast
    ring

theorem windowStart_eq (t : ℤ) (k : ℕ) : u.windowStart calendar t k =
    u.timeUnit.point calendar (u.timeUnit.index calendar t + k * u.span) := by
  unfold windowStart
  rw [u.computeWinStartTime_eq h]
  cases k with
  | zero => rw [Function.iterate_zero_apply, Nat.cast_zero, zero_mul, add_zero]
  | succ k => rw [u.iterate_updateWinEndTime h hspan, u.timeUnit.index_point h]

theorem windowStart_strictMono (t : ℤ) : StrictMono (u.windowStart calendar t : ℕ → ℤ) := by
  intro j k hjk
  rw [u.windowStart_eq h hspan, u.windowStart_eq h hspan]
  apply u.timeUnit.point_strictMono h
  have hmul := mul_lt_mul_of_pos_right (Nat.cast_lt (α := ℤ).mpr hjk) (by omega : 0 < u.span)
  omega

theorem mem_firstWindow (t : ℤ) : u.computeWinStartTime calendar t ≤ t ∧
    t < u.computeWinEndTime calendar (u.computeWinStartTime calendar t) := by
  refine ⟨?_, u.lt_computeWinEndTime h hspan t⟩
  rw [u.computeWinStartTime_eq h]
  exact (u.timeUnit.point_index h t).1

theorem computeWinStartTime_windowStart (t : ℤ) (k : ℕ) :
    u.computeWinStartTime calendar (u.windowStart calendar t k) = u.windowStart calendar t k := by
  rw [u.windowStart_eq h hspan, u.computeWinStartTime_eq h, u.timeUnit.index_point h]

omit h in
theorem one_le_times_span {n : ℕ} (hn : 1 ≤ n) : 1 ≤ (u.times n).span := by
  have hmul := mul_le_mul (Nat.cast_le (α := ℤ).mpr hn) hspan (by omega) (by omega)
  unfold times
  simpa using hmul

theorem iterate_eq_times {n : ℕ} (hn : 1 ≤ n) (startPoint : ℤ) :
    (u.updateWinEndTime calendar)^[n] startPoint =
      (u.times n).updateWinEndTime calendar startPoint := by
  obtain ⟨m, rfl⟩ := Nat.exists_eq_add_of_le' hn
  rw [u.iterate_updateWinEndTime h hspan,
    (u.times (m + 1)).updateWinEndTime_eq h (u.one_le_times_span hspan hn)]
  rfl

theorem updateWinEndTime64_windowStart (hcounted : u.Counted) (t : ℤ) (k : ℕ) :
    u.updateWinEndTime64 calendar (u.windowStart calendar t k) =
      .ok (u.windowStart calendar t (k + 1)) := by
  rw [u.updateWinEndTime64_eq h hspan hcounted]
  unfold windowStart
  rw [Function.iterate_succ_apply']

/-- The windows of a period whose span is counted are not empty, begin at a unit and contain every
time from the first of them on once; `n` of them end where one of the `n`-fold period does. -/
theorem periods_partition (hcounted : u.Counted) (t : ℤ) :
    (∀ k, u.updateWinEndTime64 calendar (u.windowStart calendar t k) =
      .ok (u.windowStart calendar t (k + 1))) ∧
    (u.windowStart calendar t 0 = u.computeWinStartTime calendar t ∧
      u.windowStart calendar t 0 ≤ t ∧ t < u.windowStart calendar t 1) ∧
    StrictMono (u.windowStart calendar t : ℕ → ℤ) ∧
    (∀ k, u.computeWinStartTime calendar (u.windowStart calendar t k) =
      u.windowStart calendar t k) ∧
    (∀ t' : ℤ, u.computeWinStartTime calendar t ≤ t' →
      ∃! k, u.windowStart calendar t k ≤ t' ∧ t' < u.windowStart calendar t (k + 1)) ∧
    ∀ (n : ℕ) (startPoint : ℤ), 1 ≤ n → (u.times n).Counted →
      u.iterateWinEndTime64 calendar n startPoint =
        (u.times n).updateWinEndTime64 calendar startPoint := by
  refine ⟨u.updateWinEndTime64_windowStart h hspan hcounted t,
    ⟨rfl, u.mem_firstWindow h hspan t⟩, u.windowStart_strictMono h hspan t,
    u.computeWinStartTime_windowStart h hspan t, fun t' ht' => ?_, fun n startPoint hn hn' => ?_⟩
  · exact existsUnique_window (u.windowStart_strictMono h hspan t) ht'
  · rw [u.iterateWinEndTime64_eq h hspan hcounted, u.iterate_eq_times h hspan hn,
      (u.times n).updateWinEndTime64_eq h (u.one_le_times_span hspan hn) hn']

omit h hspan

/-- The window is the `k`-th one from the time `t` on. -/
def Spans (calendar : Calendar) (t : DateTime) (k : ℕ) (w : OperationWindow) : Prop :=
  w.startPoint = u.windowStart calendar t k ∧ w.endPoint = u.windowStart calendar t (k + 1)

theorem spans_makeWindow {ctx : StatisticsContext} (opt : StatisticsOptions)
    (cfg : StatisticsConfiguration ctx.arithmetic) :
    u.Spans ctx.calendar (cfg.curr - 3600 * cfg.timespan.getD 0) 0 (makeWindow u opt cfg) :=
  ⟨rfl, rfl⟩

theorem Spans.updateWindow {t : DateTime} {k : ℕ} {w : OperationWindow}
    (hw : u.Spans calendar t k w) :
    u.Spans calendar t (k + 1)
      (w.updateWindow w.endPoint (u.updateWinEndTime calendar w.endPoint)) := by
  refine ⟨hw.2, ?_⟩
  unfold windowStart
  rw [Function.iterate_succ_apply']
  exact congrArg (u.updateWinEndTime calendar) hw.2

/-- The windows that follow the first one are those of the periods, one after the other. -/
theorem spans_iterate {ctx : StatisticsContext} (opt : StatisticsOptions)
    (cfg : StatisticsConfiguration ctx.arithmetic) (k : ℕ) :
    u.Spans ctx.calendar (cfg.curr - 3600 * cfg.timespan.getD 0) k
      ((fun w => w.updateWindow w.endPoint (u.updateWinEndTime ctx.calendar w.endPoint))^[k]
        (makeWindow u opt cfg)) := by
  induction k with
  | zero => exact u.spans_makeWindow opt cfg
  | succ k ih =>
    rw [Function.iterate_succ_apply']
    exact ih.updateWindow

end PeriodUpdater

/-- Spans that the grammar of periods accepts: the seconds of the one overflow, those of the other
are rounded down, so that a window of it is an hour short and two of them are two. -/
theorem periods_not_partition : ∃ u v : PeriodUpdater,
    makePeriodUpdater "4611686018427387904h" = .ok u ∧
    makePeriodUpdater "640511947003809h" = .ok v ∧
    (¬ ∃ endPoint, u.updateWinEndTime64 Calendar.gregorian 0 = .ok endPoint ∧ 0 < endPoint) ∧
    v.iterateWinEndTime64 Calendar.gregorian 2 0 ≠
      (v.times 2).updateWinEndTime64 Calendar.gregorian 0 := by
  refine ⟨{ timeUnit := .hour, span := 4611686018427387904 },
    { timeUnit := .hour, span := 640511947003809 }, by decide +kernel, by decide +kernel,
    fun h => ?_, by decide +kernel⟩
  obtain ⟨endPoint, hend, -⟩ := h
  cases hend

/-- Three periods of seven months from the beginning of the year 0 on. -/
theorem periods_partition_sevenMonths :
    PeriodUpdater.iterateWinEndTime64 Calendar.gregorian { timeUnit := .month, span := 7 } 3 0 =
      .ok (86400 * Calendar.gregorian.date 1 10 1) := by
  have hpartition := PeriodUpdater.periods_partition { timeUnit := .month, span := 7 }
    Calendar.gregorian_isGregorian (by decide) (show (12 + 7 : ℤ) < 2 ^ 63 by decide) 0
  rw [hpartition.2.2.2.2.2 3 0 (by decide) (show (12 + 3 * 7 : ℤ) < 2 ^ 63 by decide)]
  decide

end Multio.StatisticsMtg2
