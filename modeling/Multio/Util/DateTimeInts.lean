import Multio.Util.DateTime

namespace Multio.Util
open Lib

/-- Products with negative powers of ten are those of the rationals. -/
def toDateInts (date : ℤ) : DateInts :=
  let y := date.tdiv 10000
  let rem := date - y * 10000
  let m := rem.tdiv 100
  { year := y, month := m, day := rem - m * 100 }

def toTimeInts (time : ℤ) : TimeInts :=
  let h := time.tdiv 10000
  let rem := time - h * 10000
  let m := rem.tdiv 100
  { hour := h, minute := m, second := rem - m * 100 }

def fromDateInts (ints : DateInts) : ℤ := ints.year * 10000 + ints.month * 100 + ints.day

def fromTimeInts (ints : TimeInts) : ℤ := ints.hour * 10000 + ints.minute * 100 + ints.second

/-- `eckit::Date::yyyymmdd` and `eckit::Time::hhmmss`. -/
structure DateTimeNumbers where
  yyyymmdd : DateInts → ℤ
  hhmmss : TimeInts → ℤ

/-- A date from the year 0 on and a time of the day are numbers of their digits. -/
structure DateTimeNumbers.IsDocumented (numbers : DateTimeNumbers) : Prop where
  yyyymmdd_eq : ∀ d : DateInts, 0 ≤ d.year → 1 ≤ d.month ∧ d.month ≤ 12 →
    1 ≤ d.day ∧ d.day ≤ 31 → numbers.yyyymmdd d = fromDateInts d
  hhmmss_eq : ∀ t : TimeInts, 0 ≤ t.hour ∧ t.hour ≤ 23 → 0 ≤ t.minute ∧ t.minute ≤ 59 →
    0 ≤ t.second ∧ t.second ≤ 59 → numbers.hhmmss t = fromTimeInts t

def wrapDateTime (calendar : Calendar) (numbers : DateTimeNumbers) (t : DateTimeInts) :
    DateTimeInts :=
  if t.time.hour ≥ 24 ∨ t.time.minute ≥ 60 ∨ t.time.second ≥ 60 then
    let wrapped := DateTimeInts.ofSeconds calendar (t.toSeconds calendar)
    { date := toDateInts (numbers.yyyymmdd wrapped.date)
      time := toTimeInts (numbers.hhmmss wrapped.time) }
  else t

/-- `dateTimeDiffInSeconds`, with exact sums. -/
def exactDiffInSeconds (calendar : Calendar) (lhs rhs : DateTimeInts) : ℤ :=
  let l := calendar.date lhs.date.year lhs.date.month lhs.date.day
  let r := calendar.date rhs.date.year rhs.date.month rhs.date.day
  86400 * (l - r) + (lhs.time.seconds - rhs.time.seconds)

/-- A quotient by truncation is the one by the floor if it is not negative. -/
theorem tdiv_eq_ediv_of_nonneg_add {a b q r : ℤ} (ha : a = q * b + r) (hq : 0 ≤ q) (hr : 0 ≤ r)
    (hrb : r < b) : a.tdiv b = q := by
  have hb : 0 < b := lt_of_le_of_lt hr hrb
  have hnonneg : 0 ≤ a := ha ▸ add_nonneg (mul_nonneg hq hb.le) hr
  rw [Int.tdiv_eq_ediv_of_nonneg hnonneg, ha, add_comm, Int.add_mul_ediv_right r q hb.ne',
    Int.ediv_eq_zero_of_lt hr hrb, zero_add]

theorem fromDateInts_toDateInts (date : ℤ) : fromDateInts (toDateInts date) = date := by
  unfold fromDateInts toDateInts
  ring

theorem fromTimeInts_toTimeInts (time : ℤ) : fromTimeInts (toTimeInts time) = time := by
  unfold fromTimeInts toTimeInts
  ring

/-- Fields of two digits are read from the number that they are written to. -/
theorem toDateInts_fromDateInts {d : DateInts} (hy : 0 ≤ d.year)
    (hm : 0 ≤ d.month ∧ d.month < 100) (hd : 0 ≤ d.day ∧ d.day < 100) :
    toDateInts (fromDateInts d) = d := by
  have hyear : (d.year * 10000 + d.month * 100 + d.day).tdiv 10000 = d.year :=
    tdiv_eq_ediv_of_nonneg_add (add_assoc _ _ _) hy (by omega) (by omega)
  have hmonth : (d.year * 10000 + d.month * 100 + d.day - d.year * 10000).tdiv 100 = d.month :=
    tdiv_eq_ediv_of_nonneg_add (by ring) hm.1 hd.1 hd.2
  unfold toDateInts fromDateInts
  dsimp only
  rw [hyear, hmonth]
  ext
  · rfl
  · rfl
  · dsimp only
    ring

theorem toTimeInts_fromTimeInts {t : TimeInts} (hh : 0 ≤ t.hour)
    (hm : 0 ≤ t.minute ∧ t.minute < 100) (hs : 0 ≤ t.second ∧ t.second < 100) :
    toTimeInts (fromTimeInts t) = t := by
  have hhour : (t.hour * 10000 + t.minute * 100 + t.second).tdiv 10000 = t.hour :=
    tdiv_eq_ediv_of_nonneg_add (add_assoc _ _ _) hh (by omega) (by omega)
  have hminute : (t.hour * 10000 + t.minute * 100 + t.second - t.hour * 10000).tdiv 100 =
      t.minute := tdiv_eq_ediv_of_nonneg_add (by ring) hm.1 hs.1 hs.2
  unfold toTimeInts fromTimeInts
  dsimp only
  rw [hhour, hminute]
  ext
  · rfl
  · rfl
  · dsimp only
    ring

namespace DateTimeInts

/-- A day from the year 0 on, and a time of the day or 24:00:00. -/
structure UpToMidnight (t : DateTimeInts) : Prop where
  year : 0 ≤ t.date.year
  month : 1 ≤ t.date.month ∧ t.date.month ≤ 12
  day : 1 ≤ t.date.day ∧ t.date.day ≤ Calendar.monthLength t.date.year t.date.month
  hour : 0 ≤ t.time.hour ∧ t.time.hour ≤ 24
  minute : 0 ≤ t.time.minute ∧ t.time.minute ≤ 59
  second : 0 ≤ t.time.second ∧ t.time.second ≤ 59
  midnight : t.time.hour = 24 → t.time.minute = 0 ∧ t.time.second = 0

section

variable {calendar : Calendar} {numbers : DateTimeNumbers} {t : DateTimeInts}

theorem Valid.upToMidnight (ht : t.Valid) (hyear : 0 ≤ t.date.year) : t.UpToMidnight where
  year := hyear
  month := ht.month
  day := ht.day
  hour := ⟨ht.hour.1, ht.hour.2.trans (by decide)⟩
  minute := ht.minute
  second := ht.second
  midnight h := absurd h (by have := ht.hour; omega)

theorem UpToMidnight.valid (ht : t.UpToMidnight) (h : t.time.hour ≠ 24) : t.Valid where
  month := ht.month
  day := ht.day
  hour := ⟨ht.hour.1, by have := ht.hour; omega⟩
  minute := ht.minute
  second := ht.second

theorem valid_ofSeconds (hcal : calendar.IsGregorian) (n : ℤ) : (ofSeconds calendar n).Valid where
  month := hcal.month_mem _
  day := hcal.day_mem _
  hour := by
    change 0 ≤ n % 86400 / 3600 ∧ n % 86400 / 3600 ≤ 23
    omega
  minute := by
    change 0 ≤ n % 3600 / 60 ∧ n % 3600 / 60 ≤ 59
    omega
  second := by
    change 0 ≤ n % 60 ∧ n % 60 ≤ 59
    omega

theorem Valid.ofNumbers (hnumbers : numbers.IsDocumented) (ht : t.Valid) (hyear : 0 ≤ t.date.year) :
    toDateInts (numbers.yyyymmdd t.date) = t.date ∧
      toTimeInts (numbers.hhmmss t.time) = t.time := by
  have hday := ht.day
  have hlength := Calendar.monthLength_le t.date.year t.date.month
  have hmonth := ht.month
  have hminute := ht.minute
  have hsecond := ht.second
  constructor
  · rw [hnumbers.yyyymmdd_eq t.date hyear hmonth (by omega)]
    exact toDateInts_fromDateInts hyear (by omega) (by omega)
  · rw [hnumbers.hhmmss_eq t.time ht.hour hminute hsecond]
    exact toTimeInts_fromTimeInts ht.hour.1 (by omega) (by omega)

theorem year_ofSeconds_mono (hcal : calendar.IsGregorian) {n n' : ℤ} (h : n ≤ n') :
    (ofSeconds calendar n).date.year ≤ (ofSeconds calendar n').date.year :=
  hcal.year_mono (by omega)

theorem UpToMidnight.year_ofSeconds (hcal : calendar.IsGregorian) (ht : t.UpToMidnight) :
    0 ≤ (ofSeconds calendar (t.toSeconds calendar)).date.year := by
  obtain ⟨hyear, -, -⟩ := hcal.ymd_date ht.month ht.day
  have hseconds : 0 ≤ t.time.seconds := by
    have := ht.hour
    have := ht.minute
    have := ht.second
    unfold TimeInts.seconds
    omega
  have hstart : (ofSeconds calendar (86400 * calendar.date t.date.year t.date.month
      t.date.day)).date.year = t.date.year := by
    unfold ofSeconds
    dsimp only
    rw [Int.mul_ediv_cancel_left _ (by decide), hyear]
  calc
    0 ≤ t.date.year := ht.year
    _ = _ := hstart.symm
    _ ≤ _ := year_ofSeconds_mono hcal (by unfold toSeconds; omega)

/-- A wrapped date-time is the same point in time, with a time of the day. -/
theorem wrapDateTime_spec (hcal : calendar.IsGregorian) (hnumbers : numbers.IsDocumented)
    (ht : t.UpToMidnight) :
    (wrapDateTime calendar numbers t).Valid ∧
      (wrapDateTime calendar numbers t).toSeconds calendar = t.toSeconds calendar := by
  unfold wrapDateTime
  split_ifs with h
  · -- 24:00:00 is the first second of the next day
    have hwrapped := valid_ofSeconds hcal (t.toSeconds calendar)
    obtain ⟨hdate, htime⟩ := hwrapped.ofNumbers hnumbers (ht.year_ofSeconds hcal)
    dsimp only
    rw [hdate, htime]
    exact ⟨hwrapped, toSeconds_ofSeconds hcal _⟩
  · have := ht.minute
    have := ht.second
    exact ⟨ht.valid (by omega), rfl⟩

end

end DateTimeInts

theorem exactDiffInSeconds_eq (calendar : Calendar) (lhs rhs : DateTimeInts) :
    exactDiffInSeconds calendar lhs rhs = lhs.toSeconds calendar - rhs.toSeconds calendar := by
  unfold exactDiffInSeconds DateTimeInts.toSeconds
  dsimp only
  omega

theorem dateTimeDiffInSeconds_eq_exact {calendar : Calendar} {lhs rhs : DateTimeInts}
    (hl : lhs.Valid) (hr : rhs.Valid) (hcounted : Counted calendar lhs rhs) :
    dateTimeDiffInSeconds calendar lhs rhs = exactDiffInSeconds calendar lhs rhs := by
  rw [dateTimeDiffInSeconds_eq hl hr hcounted, exactDiffInSeconds_eq]

end Multio.Util
