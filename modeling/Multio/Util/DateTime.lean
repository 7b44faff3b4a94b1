import Multio.Lib.DoubleRounding
import Multio.Lib.GregorianCalendar
import Multio.Util.Exception

namespace Multio.Util
open Lib Exception

@[ext]
structure DateInts where
  year : ℤ
  month : ℤ
  day : ℤ
  deriving DecidableEq, Repr

@[ext]
structure TimeInts where
  hour : ℤ
  minute : ℤ
  second : ℤ
  deriving DecidableEq, Repr

@[ext]
structure DateTimeInts where
  date : DateInts
  time : TimeInts
  deriving DecidableEq, Repr

inductive TimeUnit
  | year
  | month
  | day
  | hour
  | minute
  | second
  deriving DecidableEq, Repr

structure DateTimeDiff where
  diff : ℤ
  unit : TimeUnit
  deriving DecidableEq, Repr

def TimeInts.seconds (t : TimeInts) : ℤ := (t.hour * 60 + t.minute) * 60 + t.second

/-- The difference of the days is exact; a sum of doubles is rounded. -/
def dateTimeDiffInSeconds (calendar : Calendar) (lhs rhs : DateTimeInts) : ℚ :=
  let l := calendar.date lhs.date.year lhs.date.month lhs.date.day
  let r := calendar.date rhs.date.year rhs.date.month rhs.date.day
  Double.round ((86400 * (l - r) : ℤ) +
    Double.round ((lhs.time.seconds : ℚ) - rhs.time.seconds))

/-- `lhsDate.year - rhsDate.year`, in 64 bits. -/
def yearDiff (lhs rhs : DateInts) : Except Exception ℤ := int64 (lhs.year - rhs.year)

/-- `(lhsDate.year - rhsDate.year) * 12 + (lhsDate.month - rhsDate.month)`, in 64 bits. -/
def monthDiff (lhs rhs : DateInts) : Except Exception ℤ := do
  let years ← yearDiff lhs rhs
  let months ← int64 (years * 12)
  let rest ← int64 (lhs.month - rhs.month)
  int64 (months + rest)

def dateTimeDiff (calendar : Calendar) (lhs rhs : DateTimeInts) : Except Exception DateTimeDiff :=
  let seconds := dateTimeDiffInSeconds calendar lhs rhs
  -- the unit is the smallest one in which the fields differ
  if lhs.time.second ≠ rhs.time.second then
    .ok { diff := Double.toInt seconds, unit := .second }
  else if lhs.time.minute ≠ rhs.time.minute then
    .ok { diff := Double.toInt (Double.round (seconds / 60)), unit := .minute }
  else if lhs.time.hour ≠ rhs.time.hour then
    .ok { diff := Double.toInt (Double.round (seconds / 3600)), unit := .hour }
  else if lhs.date.day ≠ rhs.date.day then
    .ok { diff := Double.toInt (Double.round (seconds / 86400)), unit := .day }
  else if lhs.date.month ≠ rhs.date.month then do
    let diff ← monthDiff lhs.date rhs.date
    .ok { diff, unit := .month }
  else if lhs.date.year ≠ rhs.date.year then do
    let diff ← yearDiff lhs.date rhs.date
    .ok { diff, unit := .year }
  else .ok { diff := 0, unit := .second }

namespace DateTimeInts

structure Valid (t : DateTimeInts) : Prop where
  month : 1 ≤ t.date.month ∧ t.date.month ≤ 12
  day : 1 ≤ t.date.day ∧ t.date.day ≤ Calendar.monthLength t.date.year t.date.month
  hour : 0 ≤ t.time.hour ∧ t.time.hour ≤ 23
  minute : 0 ≤ t.time.minute ∧ t.time.minute ≤ 59
  second : 0 ≤ t.time.second ∧ t.time.second ≤ 59

/-- The seconds up to a date-time, from the day `0` of the calendar on. -/
def toSeconds (calendar : Calendar) (t : DateTimeInts) : ℤ :=
  86400 * calendar.date t.date.year t.date.month t.date.day + t.time.seconds

def ofSeconds (calendar : Calendar) (n : ℤ) : DateTimeInts where
  date := { year := calendar.year (n / 86400), month := calendar.month (n / 86400)
            day := calendar.day (n / 86400) }
  time := { hour := n % 86400 / 3600, minute := n % 3600 / 60, second := n % 60 }

section

variable {calendar : Calendar} {t : DateTimeInts}

theorem Valid.seconds_mem (ht : t.Valid) : 0 ≤ t.time.seconds ∧ t.time.seconds < 86400 := by
  have := ht.hour
  have := ht.minute
  have := ht.second
  unfold TimeInts.seconds
  omega

theorem ofSeconds_toSeconds (hcal : calendar.IsGregorian) (ht : t.Valid) :
    ofSeconds calendar (t.toSeconds calendar) = t := by
  obtain ⟨hyear, hmonth, hday⟩ := hcal.ymd_date ht.month ht.day
  have hsec := ht.seconds_mem
  have hdate : t.toSeconds calendar / 86400 =
      calendar.date t.date.year t.date.month t.date.day := by
    unfold toSeconds
    omega
  have htime : t.toSeconds calendar % 86400 = t.time.seconds := by
    unfold toSeconds
    omega
  obtain ⟨hhour, htime⟩ : t.toSeconds calendar % 86400 / 3600 = t.time.hour ∧
      t.toSeconds calendar % 3600 / 60 = t.time.minute ∧
      t.toSeconds calendar % 60 = t.time.second := by
    have := ht.hour
    have := ht.minute
    have := ht.second
    unfold TimeInts.seconds at htime
    omega
  unfold ofSeconds
  rw [hdate, hyear, hmonth, hday, hhour, htime.1, htime.2]

theorem toSeconds_ofSeconds (hcal : calendar.IsGregorian) (n : ℤ) :
    (ofSeconds calendar n).toSeconds calendar = n := by
  unfold ofSeconds toSeconds TimeInts.seconds
  dsimp only
  rw [hcal.date_ymd]
  omega

end

end DateTimeInts

namespace TimeUnit

def rank : TimeUnit → ℕ
  | .second => 0
  | .minute => 1
  | .hour => 2
  | .day => 3
  | .month => 4
  | .year => 5

def field (t : DateTimeInts) : TimeUnit → ℤ
  | .second => t.time.second
  | .minute => t.time.minute
  | .hour => t.time.hour
  | .day => t.date.day
  | .month => t.date.month
  | .year => t.date.year

/-- So many units later; months and years are added to the fields of the date. -/
def advance (calendar : Calendar) (n : ℤ) (t : DateTimeInts) : TimeUnit → DateTimeInts
  | .second => .ofSeconds calendar (t.toSeconds calendar + n)
  | .minute => .ofSeconds calendar (t.toSeconds calendar + 60 * n)
  | .hour => .ofSeconds calendar (t.toSeconds calendar + 3600 * n)
  | .day => .ofSeconds calendar (t.toSeconds calendar + 86400 * n)
  | .month =>
    let months := 12 * t.date.year + (t.date.month - 1) + n
    { t with date := { t.date with year := months / 12, month := months % 12 + 1 } }
  | .year => { t with date := { t.date with year := t.date.year + n } }

end TimeUnit

/-- The units lead from one date-time to the other, and no number of a coarser unit does. -/
def IsExactDiff (calendar : Calendar) (lhs rhs : DateTimeInts) (d : DateTimeDiff) : Prop :=
  d.unit.advance calendar d.diff rhs = lhs ∧
    ∀ unit : TimeUnit, d.unit.rank < unit.rank → ∀ n, unit.advance calendar n rhs ≠ lhs

def Exact (calendar : Calendar) (lhs rhs : DateTimeInts) : Prop :=
  ∃ d, dateTimeDiff calendar lhs rhs = .ok d ∧ IsExactDiff calendar lhs rhs d

section

variable {calendar : Calendar} {lhs rhs : DateTimeInts}

/-- Two date-times are so many seconds apart that a double counts them. -/
def Counted (calendar : Calendar) (lhs rhs : DateTimeInts) : Prop :=
  |lhs.toSeconds calendar - rhs.toSeconds calendar| ≤ 2 ^ 53

/-- The fields that the difference is taken of can be subtracted: doubles count the seconds where
fields below the month differ, and 64 bits the months or the years where others do. -/
structure Subtractable (calendar : Calendar) (lhs rhs : DateTimeInts) : Prop where
  seconds : lhs.time ≠ rhs.time ∨ lhs.date.day ≠ rhs.date.day → Counted calendar lhs rhs
  months : lhs.time = rhs.time → lhs.date.day = rhs.date.day → lhs.date.month ≠ rhs.date.month →
    ∃ diff, monthDiff lhs.date rhs.date = .ok diff
  years : lhs.time = rhs.time → lhs.date.day = rhs.date.day → lhs.date.month = rhs.date.month →
    ∃ diff, yearDiff lhs.date rhs.date = .ok diff

theorem int64_eq_ok {x diff : ℤ} (h : int64 x = .ok diff) : diff = x := by
  unfold int64 at h
  split_ifs at h
  exact (Except.ok.inj h).symm

theorem yearDiff_eq {l r : DateInts} {diff : ℤ} (h : yearDiff l r = .ok diff) :
    diff = l.year - r.year := int64_eq_ok h

theorem monthDiff_eq {l r : DateInts} {diff : ℤ} (h : monthDiff l r = .ok diff) :
    diff = (l.year - r.year) * 12 + (l.month - r.month) := by
  obtain ⟨years, hyears, h⟩ := bind_eq_ok_iff.mp h
  obtain ⟨months, hmonths, h⟩ := bind_eq_ok_iff.mp h
  obtain ⟨rest, hrest, h⟩ := bind_eq_ok_iff.mp h
  rw [int64_eq_ok h, int64_eq_ok hmonths, int64_eq_ok hrest, yearDiff_eq hyears]

theorem dateTimeDiffInSeconds_eq (hl : lhs.Valid) (hr : rhs.Valid)
    (hcounted : Counted calendar lhs rhs) :
    dateTimeDiffInSeconds calendar lhs rhs =
      ((lhs.toSeconds calendar - rhs.toSeconds calendar : ℤ) : ℚ) := by
  have hlsec := hl.seconds_mem
  have hrsec := hr.seconds_mem
  have htime : Double.round ((lhs.time.seconds : ℚ) - rhs.time.seconds) =
      ((lhs.time.seconds - rhs.time.seconds : ℤ) : ℚ) := by
    rw [← Int.cast_sub]
    exact Double.round_intCast (abs_le.mpr (by omega))
  unfold dateTimeDiffInSeconds
  dsimp only
  rw [htime, ← Int.cast_add]
  have hsum : 86400 * (calendar.date lhs.date.year lhs.date.month lhs.date.day -
      calendar.date rhs.date.year rhs.date.month rhs.date.day) +
      (lhs.time.seconds - rhs.time.seconds) =
      lhs.toSeconds calendar - rhs.toSeconds calendar := by
    unfold DateTimeInts.toSeconds
    omega
  rw [hsum]
  exact Double.round_intCast hcounted

theorem toInt_round_div {n k : ℤ} (hk : 0 < k) (hn : |k * n| ≤ 2 ^ 53) :
    Double.toInt (Double.round (((k * n : ℤ) : ℚ) / k)) = n := by
  have hquot : ((k * n : ℤ) : ℚ) / k = n := by
    rw [Int.cast_mul, mul_div_cancel_left₀ _ (Int.cast_ne_zero.mpr hk.ne')]
  have hle : |n| ≤ 2 ^ 53 := by
    rw [abs_mul, abs_of_pos hk] at hn
    have := abs_nonneg n
    nlinarith
  rw [hquot, Double.round_intCast hle, Double.toInt_intCast]

/-- A number of seconds later is the other date-time if it is as many seconds away. -/
theorem ofSeconds_add_eq_iff (hcal : calendar.IsGregorian) (hl : lhs.Valid) (n : ℤ) :
    DateTimeInts.ofSeconds calendar (rhs.toSeconds calendar + n) = lhs ↔
      lhs.toSeconds calendar - rhs.toSeconds calendar = n := by
  constructor
  · intro h
    rw [← h, DateTimeInts.toSeconds_ofSeconds hcal]
    omega
  · rintro rfl
    rw [add_sub_cancel, DateTimeInts.ofSeconds_toSeconds hcal hl]

theorem toSeconds_sub : lhs.toSeconds calendar - rhs.toSeconds calendar =
    86400 * (calendar.date lhs.date.year lhs.date.month lhs.date.day -
      calendar.date rhs.date.year rhs.date.month rhs.date.day) +
      (3600 * (lhs.time.hour - rhs.time.hour) + 60 * (lhs.time.minute - rhs.time.minute) +
        (lhs.time.second - rhs.time.second)) := by
  unfold DateTimeInts.toSeconds TimeInts.seconds
  omega

theorem second_of_dvd (hl : lhs.Valid) (hr : rhs.Valid)
    (h : 60 ∣ lhs.toSeconds calendar - rhs.toSeconds calendar) :
    lhs.time.second = rhs.time.second := by
  have := hl.second
  have := hr.second
  rw [toSeconds_sub] at h
  omega

theorem minute_of_dvd (hl : lhs.Valid) (hr : rhs.Valid)
    (h : 3600 ∣ lhs.toSeconds calendar - rhs.toSeconds calendar) :
    lhs.time.minute = rhs.time.minute := by
  have hsecond := second_of_dvd hl hr (dvd_trans (by decide) h)
  have := hl.minute
  have := hr.minute
  rw [toSeconds_sub] at h
  omega

theorem hour_of_dvd (hl : lhs.Valid) (hr : rhs.Valid)
    (h : 86400 ∣ lhs.toSeconds calendar - rhs.toSeconds calendar) :
    lhs.time.hour = rhs.time.hour := by
  have hsecond := second_of_dvd hl hr (dvd_trans (by decide) h)
  have hminute := minute_of_dvd hl hr (dvd_trans (by decide) h)
  have := hl.hour
  have := hr.hour
  rw [toSeconds_sub] at h
  omega

theorem field_of_advance (hcal : calendar.IsGregorian) (hl : lhs.Valid) (hr : rhs.Valid)
    {unit u : TimeUnit} {n : ℤ} (h : unit.advance calendar n rhs = lhs) (hu : u.rank < unit.rank) :
    u.field lhs = u.field rhs := by
  have hdvd {k : ℤ} (hk : DateTimeInts.ofSeconds calendar (rhs.toSeconds calendar + k * n) = lhs) :
      k ∣ lhs.toSeconds calendar - rhs.toSeconds calendar :=
    ⟨n, (ofSeconds_add_eq_iff hcal hl _).mp hk⟩
  cases unit with
  | second => exact absurd hu (Nat.not_lt_zero _)
  | minute =>
    cases u with
    | second => exact second_of_dvd hl hr (hdvd h)
    | _ => exact absurd hu (by decide)
  | hour =>
    cases u with
    | second => exact second_of_dvd hl hr (dvd_trans (by decide) (hdvd h))
    | minute => exact minute_of_dvd hl hr (hdvd h)
    | _ => exact absurd hu (by decide)
  | day =>
    cases u with
    | second => exact second_of_dvd hl hr (dvd_trans (by decide) (hdvd h))
    | minute => exact minute_of_dvd hl hr (dvd_trans (by decide) (hdvd h))
    | hour => exact hour_of_dvd hl hr (hdvd h)
    | _ => exact absurd hu (by decide)
  | month =>
    -- months and years only change their fields
    obtain rfl := h
    cases u with
    | year => exact absurd hu (by decide)
    | month => exact absurd hu (by decide)
    | _ => rfl
  | year =>
    obtain rfl := h
    cases u with
    | year => exact absurd hu (by decide)
    | _ => rfl

theorem isExactDiff_of_field (hcal : calendar.IsGregorian) (hl : lhs.Valid) (hr : rhs.Valid)
    {d : DateTimeDiff} (hadvance : d.unit.advance calendar d.diff rhs = lhs)
    (hfield : d.unit.field lhs ≠ d.unit.field rhs) : IsExactDiff calendar lhs rhs d :=
  ⟨hadvance, fun _ hu _ h => hfield (field_of_advance hcal hl hr h hu)⟩

/-- Advancing by the rounded number of units makes up for the difference if it is a whole number
of them. -/
theorem ofSeconds_round (hcal : calendar.IsGregorian) (hl : lhs.Valid) (hr : rhs.Valid)
    (hcounted : Counted calendar lhs rhs) {k : ℤ} (hk : 0 < k)
    (hdvd : k ∣ lhs.toSeconds calendar - rhs.toSeconds calendar) :
    DateTimeInts.ofSeconds calendar (rhs.toSeconds calendar + k * Double.toInt (Double.round
      (dateTimeDiffInSeconds calendar lhs rhs / k))) = lhs := by
  have hdiff := dateTimeDiffInSeconds_eq hl hr hcounted
  obtain ⟨n, hn⟩ := hdvd
  unfold Counted at hcounted
  rw [hn] at hcounted
  rw [hdiff, hn, toInt_round_div hk hcounted]
  exact (ofSeconds_add_eq_iff hcal hl _).mpr hn

theorem dateTimeDiff_exact (hcal : calendar.IsGregorian) (hl : lhs.Valid) (hr : rhs.Valid)
    (hsub : Subtractable calendar lhs rhs) (hne : lhs ≠ rhs) : Exact calendar lhs rhs := by
  have hunit {k : ℤ} (hk : 0 < k) (hfields : lhs.time ≠ rhs.time ∨ lhs.date.day ≠ rhs.date.day) :=
    ofSeconds_round hcal hl hr (hsub.seconds hfields) hk
  simp only [toSeconds_sub] at hunit
  unfold Exact dateTimeDiff
  dsimp only
  -- each branch is taken where the fields of all smaller units are the same
  split_ifs with hsecond hminute hhour hday hmonth hyear
  · have hcounted := hsub.seconds (Or.inl fun h => hsecond (congrArg TimeInts.second h))
    refine ⟨_, rfl, isExactDiff_of_field hcal hl hr ?_ hsecond⟩
    dsimp only
    rw [dateTimeDiffInSeconds_eq hl hr hcounted, Double.toInt_intCast]
    exact (ofSeconds_add_eq_iff hcal hl _).mpr rfl
  · have hfields : lhs.time ≠ rhs.time ∨ lhs.date.day ≠ rhs.date.day :=
      Or.inl fun h => hminute (congrArg TimeInts.minute h)
    exact ⟨_, rfl, isExactDiff_of_field hcal hl hr (hunit (k := 60) (by decide) hfields (by omega))
      hminute⟩
  · have hfields : lhs.time ≠ rhs.time ∨ lhs.date.day ≠ rhs.date.day :=
      Or.inl fun h => hhour (congrArg TimeInts.hour h)
    exact ⟨_, rfl, isExactDiff_of_field hcal hl hr
      (hunit (k := 3600) (by decide) hfields (by omega)) hhour⟩
  · exact ⟨_, rfl, isExactDiff_of_field hcal hl hr
      (hunit (k := 86400) (by decide) (Or.inr hday) (by omega)) hday⟩
  · -- the months of the years are numbered through
    have htime := TimeInts.ext (not_ne_iff.mp hhour) (not_ne_iff.mp hminute)
      (not_ne_iff.mp hsecond)
    have hday := not_ne_iff.mp hday
    obtain ⟨diff, hdiff⟩ := hsub.months htime hday hmonth
    have hmonths := hl.month
    have heq := monthDiff_eq hdiff
    rw [hdiff, ok_bind]
    refine ⟨_, rfl, isExactDiff_of_field hcal hl hr ?_ hmonth⟩
    refine DateTimeInts.ext (DateInts.ext ?_ ?_ hday.symm) htime.symm
    · change (_ + diff) / 12 = lhs.date.year
      omega
    · change (_ + diff) % 12 + 1 = lhs.date.month
      omega
  · have htime := TimeInts.ext (not_ne_iff.mp hhour) (not_ne_iff.mp hminute)
      (not_ne_iff.mp hsecond)
    have hday := not_ne_iff.mp hday
    have hmonth := not_ne_iff.mp hmonth
    obtain ⟨diff, hdiff⟩ := hsub.years htime hday hmonth
    rw [hdiff, ok_bind]
    refine ⟨_, rfl, isExactDiff_of_field hcal hl hr ?_ hyear⟩
    refine DateTimeInts.ext (DateInts.ext ?_ hmonth.symm hday.symm) htime.symm
    rw [yearDiff_eq hdiff]
    exact add_sub_cancel rhs.date.year lhs.date.year
  · refine absurd ?_ hne
    ext
    · exact not_ne_iff.mp hyear
    · exact not_ne_iff.mp hmonth
    · exact not_ne_iff.mp hday
    · exact not_ne_iff.mp hhour
    · exact not_ne_iff.mp hminute
    · exact not_ne_iff.mp hsecond

theorem dateTimeDiff_self (t : DateTimeInts) :
    dateTimeDiff calendar t t = .ok { diff := 0, unit := .second } := by
  unfold dateTimeDiff
  simp only [ne_eq, not_true_eq_false, if_false]

theorem not_exact_self (hcal : calendar.IsGregorian) (hl : lhs.Valid) :
    ¬ Exact calendar lhs lhs := by
  rintro ⟨d, hd, -, hcoarser⟩
  rw [dateTimeDiff_self] at hd
  obtain rfl := Except.ok.inj hd
  apply hcoarser .minute (by decide) 0
  exact (ofSeconds_add_eq_iff hcal hl _).mpr (by omega)

end

def newYear : DateTimeInts where
  date := { year := 2020, month := 1, day := 1 }
  time := { hour := 0, minute := 0, second := 0 }

def yearZero : DateTimeInts where
  date := { year := 0, month := 1, day := 1 }
  time := { hour := 0, minute := 0, second := 0 }

/-- `2 ^ 53 + 1` seconds later. -/
def farAway : DateTimeInts where
  date := { year := 285426781, month := 11, day := 11 }
  time := { hour := 7, minute := 36, second := 33 }

def lastYear : DateTimeInts :=
  { yearZero with date := { year := 2 ^ 63 - 1, month := 2, day := 1 } }

def firstYear : DateTimeInts :=
  { yearZero with date := { year := -2 ^ 63, month := 1, day := 1 } }

def march : DateTimeInts where
  date := { year := 2020, month := 3, day := 29 }
  time := { hour := 12, minute := 0, second := 0 }

def february : DateTimeInts := { march with date := { march.date with month := 2 } }

/-- So many months before that doubles do not count their seconds. -/
def antiquity : DateTimeInts :=
  { march with date := { march.date with year := -2 ^ 40, month := 1 } }

end Multio.Util
