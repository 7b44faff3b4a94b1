import Multio.Action.Statistics.RestartEquivalence
import Multio.Lib.GregorianCalendar

namespace Multio.StatisticsMtg2
open Lib Exception
open Statistics (RestartLibrary FourDigits yyyymmdd hhmmss)

/-- The words of an `IOBuffer`, of which there are `size()`. -/
abbrev IOBuffer := List UInt64

namespace IOBuffer

def get (buf : IOBuffer) (idx : ℕ) : Except Exception UInt64 :=
  match buf[idx]? with
  | some w => .ok w
  | none => .error (.seriousBug "ERROR : idx too large")

def set (buf : IOBuffer) (idx : ℕ) (w : UInt64) : Except Exception IOBuffer :=
  if idx < buf.length then .ok (List.set buf idx w)
  else .error (.seriousBug "ERROR : idx too large")

/-- The words are counted by an `int` up to the last one, which must be there. -/
def checksum (buf : IOBuffer) : Except Exception UInt64 :=
  if buf.length = 0 then .error (.undefinedBehaviour "read outside of the buffer")
  else if 2 ^ 31 < buf.length then .error (.undefinedBehaviour "overflow of an int")
  else .ok (buf.dropLast.foldl (fun sum w => ((sum <<< 1) * 31) ^^^ w) 1979339339)

def computeChecksum (buf : IOBuffer) : Except Exception IOBuffer := do
  buf.set (buf.length - 1) (← buf.checksum)

def checkChecksum (buf : IOBuffer) : Except Exception Unit := do
  let sum ← buf.checksum
  if (← buf.get (buf.length - 1)) ≠ sum then .error (.seriousBug "ERROR : wrong Checksum")
  else .ok ()

/-- Words that are assigned one after the other, from an index on. -/
def assign (buf : IOBuffer) (idx : ℕ) : List UInt64 → Except Exception IOBuffer
  | [] => .ok buf
  | w :: ws => do
    let buf ← buf.set idx w
    assign buf (idx + 1) ws

def read (buf : IOBuffer) (idx : ℕ) : ℕ → Except Exception (List UInt64)
  | 0 => .ok []
  | n + 1 => do
    let w ← buf.get idx
    let ws ← buf.read (idx + 1) n
    .ok (w :: ws)

variable {front back buf : IOBuffer} {ws : List UInt64}

theorem set_append (v w : UInt64) :
    set (front ++ v :: back) front.length w = .ok (front ++ w :: back) := by
  unfold set
  rw [if_pos (by rw [List.length_append, List.length_cons]; omega), List.set_append_right _ _ le_rfl,
    Nat.sub_self, List.set_cons_zero]

theorem get_append (w : UInt64) : get (front ++ w :: back) front.length = .ok w := by
  unfold get
  rw [List.getElem?_append_right le_rfl, Nat.sub_self, List.getElem?_cons_zero]

theorem assign_append (front back : IOBuffer) {old : List UInt64} (h : old.length = ws.length) :
    assign (front ++ (old ++ back)) front.length ws = .ok (front ++ (ws ++ back)) := by
  induction ws generalizing front old with
  | nil =>
    obtain rfl := List.length_eq_zero_iff.mp h
    rfl
  | cons w ws ih =>
    cases old with
    | nil => cases h
    | cons v old =>
      have hnext := ih (front ++ [w]) (Nat.succ.inj h)
      rw [List.length_append, List.length_singleton, List.append_assoc, List.append_assoc] at hnext
      unfold assign
      rw [List.cons_append, set_append, ok_bind]
      exact hnext

theorem read_append (front : IOBuffer) :
    read (front ++ (ws ++ back)) front.length ws.length = .ok ws := by
  induction ws generalizing front with
  | nil => rfl
  | cons w ws ih =>
    have hnext := ih (front ++ [w])
    rw [List.length_append, List.length_singleton, List.append_assoc] at hnext
    rw [List.length_cons, read, List.cons_append, get_append, ok_bind]
    exact hnext ▸ rfl

theorem checkChecksum_of_compute {last : UInt64} {buf' : IOBuffer}
    (h : computeChecksum (ws ++ [last]) = .ok buf') :
    checkChecksum buf' = .ok () ∧ ∃ sum, buf' = ws ++ [sum] := by
  unfold computeChecksum at h
  obtain ⟨sum, hsum, hset⟩ := bind_eq_ok_iff.mp h
  have hindex : (ws ++ [last]).length - 1 = ws.length := by
    rw [List.length_append, List.length_singleton, Nat.add_sub_cancel]
  rw [hindex, set_append] at hset
  obtain rfl := Except.ok.inj hset
  have hsum' : checksum (ws ++ [sum]) = .ok sum := by
    unfold checksum at hsum ⊢
    rw [List.dropLast_concat, List.length_append, List.length_singleton] at hsum ⊢
    exact hsum
  have hindex' : (ws ++ [sum]).length - 1 = ws.length := by
    rw [List.length_append, List.length_singleton, Nat.add_sub_cancel]
  refine ⟨?_, sum, rfl⟩
  unfold checkChecksum
  rw [hsum', ok_bind, hindex', get_append, ok_bind, if_neg (not_not.mpr rfl)]

/-- The checksum can be computed as long as its counter does not overflow. -/
theorem computeChecksum_isOk {last : UInt64} :
    (∃ buf', computeChecksum (ws ++ [last]) = .ok buf') ↔ (ws ++ [last]).length ≤ 2 ^ 31 := by
  have hindex : (ws ++ [last]).length - 1 = ws.length := by
    rw [List.length_append, List.length_singleton, Nat.add_sub_cancel]
  have hpos : (ws ++ [last]).length ≠ 0 := by
    rw [List.length_append, List.length_singleton]
    exact Nat.succ_ne_zero _
  unfold computeChecksum checksum
  rw [if_neg hpos, hindex]
  split_ifs with hlong
  · exact ⟨fun ⟨_, h⟩ => (by cases h), fun h => absurd h (not_le.mpr hlong)⟩
  · rw [ok_bind, set_append]
    exact ⟨fun _ => not_lt.mp hlong, fun _ => ⟨_, rfl⟩⟩

end IOBuffer

def yyyymmdd_hhmmss2DateTime (lib : RestartLibrary) (yyyymmdd hhmmss : UInt64) :
    Except Exception DateTime :=
  Statistics.yyyymmdd_hhmmss2DateTime lib yyyymmdd.toNat hhmmss.toNat

/-- The digits of a day of the Gregorian calendar, with a year of at most four. -/
def ValidDate (date : ℕ) : Prop :=
  date / 10000 ≤ 9999 ∧ (1 ≤ date / 100 % 100 ∧ date / 100 % 100 ≤ 12) ∧
    1 ≤ date % 100 ∧
      ((date % 100 : ℕ) : ℤ) ≤ Calendar.monthLength (date / 10000 : ℕ) (date / 100 % 100 : ℕ)

def ValidTime (time : ℕ) : Prop := time / 10000 ≤ 23 ∧ time / 100 % 100 ≤ 59 ∧ time % 100 ≤ 59

instance (date : ℕ) : Decidable (ValidDate date) := inferInstanceAs (Decidable (_ ∧ _))

instance (time : ℕ) : Decidable (ValidTime time) := inferInstanceAs (Decidable (_ ∧ _))

theorem date_dateTime {n sec : ℤ} (h : 0 ≤ sec ∧ sec < 86400) :
    DateTime.date (dateTime n sec) = n := by
  unfold DateTime.date dateTime
  omega

theorem time_mem (t : DateTime) : 0 ≤ DateTime.time t ∧ DateTime.time t < 86400 := by
  unfold DateTime.time
  omega

theorem fourDigits_dateTime {ctx : Statistics.StatisticsContext} (hcal : ctx.calendar.IsGregorian)
    {y m d sec : ℤ} (hy : 0 ≤ y ∧ y ≤ 9999) (hm : 1 ≤ m ∧ m ≤ 12)
    (hd : 1 ≤ d ∧ d ≤ Calendar.monthLength y m) (hsec : 0 ≤ sec ∧ sec < 86400) :
    FourDigits ctx (dateTime (ctx.calendar.date y m d) sec) := by
  unfold FourDigits
  rw [date_dateTime hsec, (hcal.ymd_date hm hd).1]
  exact hy

theorem tmod_natCast_mod {n k j : ℕ} (h : k ∣ j) :
    (n : ℤ).tmod k = ((n % j : ℕ) : ℤ).tmod k := by
  rw [← Int.ofNat_tmod, ← Int.ofNat_tmod, Nat.mod_mod_of_dvd _ h]

theorem yyyymmdd2ymd_mod (n : ℕ) :
    Statistics.yyyymmdd2ymd n = Statistics.yyyymmdd2ymd (n % 10 ^ 8 : ℕ) := by
  have hday := tmod_natCast_mod (n := n) (by decide : 100 ∣ 10 ^ 8)
  have hmonth := tmod_natCast_mod (n := n) (by decide : 10000 ∣ 10 ^ 8)
  have hyear := tmod_natCast_mod (n := n) (by decide : 100000000 ∣ 10 ^ 8)
  unfold Statistics.yyyymmdd2ymd
  rw [show (n : ℤ).tmod 100 = _ from hday, show (n : ℤ).tmod 10000 = _ from hmonth,
    show (n : ℤ).tmod 100000000 = _ from hyear]
  rfl

theorem hhmmss2hms_mod (n : ℕ) :
    Statistics.hhmmss2hms n = Statistics.hhmmss2hms (n % 10 ^ 6 : ℕ) := by
  have hsecond := tmod_natCast_mod (n := n) (by decide : 100 ∣ 10 ^ 6)
  have hminute := tmod_natCast_mod (n := n) (by decide : 10000 ∣ 10 ^ 6)
  have hhour := tmod_natCast_mod (n := n) (by decide : 1000000 ∣ 10 ^ 6)
  unfold Statistics.hhmmss2hms
  rw [show (n : ℤ).tmod 100 = _ from hsecond, show (n : ℤ).tmod 10000 = _ from hminute,
    show (n : ℤ).tmod 1000000 = _ from hhour]
  rfl

theorem yyyymmdd2ymd_eq_ok_iff {n : ℕ} (hn : n < 10 ^ 8) {y m d : ℤ} :
    Statistics.yyyymmdd2ymd n = .ok (y, m, d) ↔ ValidDate n ∧ y = (n / 10000 : ℕ) ∧
      m = (n / 100 % 100 : ℕ) ∧ d = (n % 100 : ℕ) := by
  have hday : (n : ℤ).tmod 100 = (n % 100 : ℕ) := (Int.ofNat_tmod n 100).symm
  have hmonth : ((n : ℤ).tmod 10000).tdiv 100 = (n / 100 % 100 : ℕ) := by
    rw [Int.tmod_eq_emod_of_nonneg (by omega), Int.tdiv_eq_ediv_of_nonneg (by omega)]
    omega
  have hyear : ((n : ℤ).tmod 100000000).tdiv 10000 = (n / 10000 : ℕ) := by
    rw [Int.tmod_eq_emod_of_nonneg (by omega), Int.tdiv_eq_ediv_of_nonneg (by omega)]
    omega
  unfold Statistics.yyyymmdd2ymd ValidDate
  simp only []
  rw [hday, hmonth, hyear]
  by_cases hm : 1 ≤ n / 100 % 100 ∧ n / 100 % 100 ≤ 12
  · rw [if_neg (by omega), Statistics.lastDayOfTheMonth_eq (by omega) (by omega)]
    by_cases hd : 1 ≤ n % 100 ∧ ((n % 100 : ℕ) : ℤ) ≤
        Calendar.monthLength (n / 10000 : ℕ) (n / 100 % 100 : ℕ)
    · rw [if_neg (by omega)]
      constructor
      · intro h
        obtain ⟨rfl, hrest⟩ := Prod.mk.inj (Except.ok.inj h)
        obtain ⟨rfl, rfl⟩ := Prod.mk.inj hrest
        exact ⟨⟨by omega, hm, hd⟩, rfl, rfl, rfl⟩
      · rintro ⟨-, rfl, rfl, rfl⟩
        rfl
    · rw [if_pos (by omega)]
      exact ⟨fun h => (by cases h), fun h => absurd h.1.2.2 hd⟩
  · rw [if_pos (by omega)]
    exact ⟨fun h => (by cases h), fun h => absurd h.1.2.1 hm⟩

theorem hhmmss2hms_eq_ok_iff {n : ℕ} (hn : n < 10 ^ 6) {h m s : ℤ} :
    Statistics.hhmmss2hms n = .ok (h, m, s) ↔ ValidTime n ∧ h = (n / 10000 : ℕ) ∧
      m = (n / 100 % 100 : ℕ) ∧ s = (n % 100 : ℕ) := by
  have hsecond : (n : ℤ).tmod 100 = (n % 100 : ℕ) := (Int.ofNat_tmod n 100).symm
  have hminute : ((n : ℤ).tmod 10000).tdiv 100 = (n / 100 % 100 : ℕ) := by
    rw [Int.tmod_eq_emod_of_nonneg (by omega), Int.tdiv_eq_ediv_of_nonneg (by omega)]
    omega
  have hhour : ((n : ℤ).tmod 1000000).tdiv 10000 = (n / 10000 : ℕ) := by
    rw [Int.tmod_eq_emod_of_nonneg (by omega), Int.tdiv_eq_ediv_of_nonneg (by omega)]
    omega
  unfold Statistics.hhmmss2hms ValidTime
  simp only []
  rw [hsecond, hminute, hhour]
  by_cases hvalid : n / 10000 ≤ 23 ∧ n / 100 % 100 ≤ 59 ∧ n % 100 ≤ 59
  · rw [if_neg (by omega), if_neg (by omega), if_neg (by omega)]
    constructor
    · intro heq
      obtain ⟨rfl, hrest⟩ := Prod.mk.inj (Except.ok.inj heq)
      obtain ⟨rfl, rfl⟩ := Prod.mk.inj hrest
      exact ⟨hvalid, rfl, rfl, rfl⟩
    · rintro ⟨-, rfl, rfl, rfl⟩
      rfl
  · refine ⟨fun heq => ?_, fun heq => absurd heq.1 hvalid⟩
    split_ifs at heq
    omega

section

variable {ctx : Statistics.StatisticsContext} {lib : RestartLibrary}
  (hlib : lib.Lawful ctx.calendar)

include hlib

/-- Only the last eight digits of a date and the last six ones of a time are read. -/
theorem accepts_iff (date time : UInt64) :
    (∃ t, yyyymmdd_hhmmss2DateTime lib date time = .ok t) ↔
      ValidDate (date.toNat % 10 ^ 8) ∧ ValidTime (time.toNat % 10 ^ 6) := by
  have hdate : date.toNat % 10 ^ 8 < 10 ^ 8 := Nat.mod_lt _ (by decide)
  have htime : time.toNat % 10 ^ 6 < 10 ^ 6 := Nat.mod_lt _ (by decide)
  unfold yyyymmdd_hhmmss2DateTime Statistics.yyyymmdd_hhmmss2DateTime
  rw [yyyymmdd2ymd_mod, hhmmss2hms_mod]
  constructor
  · rintro ⟨t, h⟩
    simp only [bind_eq_ok_iff] at h
    obtain ⟨⟨y, m, d⟩, hymd, ⟨h, min, s⟩, hhms, -⟩ := h
    exact ⟨((yyyymmdd2ymd_eq_ok_iff hdate).mp hymd).1, ((hhmmss2hms_eq_ok_iff htime).mp hhms).1⟩
  · rintro ⟨hd, ht⟩
    obtain ⟨hy, hm, hd₁, hd₂⟩ := id hd
    obtain ⟨hh, hmin, hs⟩ := id ht
    rw [(yyyymmdd2ymd_eq_ok_iff hdate).mpr ⟨hd, rfl, rfl, rfl⟩, ok_bind]
    simp only []
    rw [(hhmmss2hms_eq_ok_iff htime).mpr ⟨ht, rfl, rfl, rfl⟩, ok_bind]
    simp only []
    rw [hlib.makeDate_ok (by omega) (by omega) ⟨by omega, hd₂⟩, ok_bind,
      hlib.makeTime_ok (by omega) (by omega) (by omega), ok_bind]
    exact ⟨_, rfl⟩

end

/-- The members of a window as they are kept: the window type is any number of the type that
underlies the enumeration. -/
structure WindowMembers where
  epochPoint : DateTime
  startPoint : DateTime
  endPoint : DateTime
  creationPoint : DateTime
  prevPoint : DateTime
  currPoint : DateTime
  lastFlush : DateTime
  timeStepInSeconds : Int64
  count : Int64
  counts : List Int64
  windowType : Int64
  deriving DecidableEq

namespace WindowMembers

def restartSize (m : WindowMembers) : ℕ := 18 + m.counts.length + 1

def words (ctx : Statistics.StatisticsContext) (m : WindowMembers) : List UInt64 :=
  [UInt64.ofInt (yyyymmdd ctx m.epochPoint), UInt64.ofInt (hhmmss m.epochPoint),
   UInt64.ofInt (yyyymmdd ctx m.startPoint), UInt64.ofInt (hhmmss m.startPoint),
   UInt64.ofInt (yyyymmdd ctx m.endPoint), UInt64.ofInt (hhmmss m.endPoint),
   UInt64.ofInt (yyyymmdd ctx m.creationPoint), UInt64.ofInt (hhmmss m.creationPoint),
   UInt64.ofInt (yyyymmdd ctx m.prevPoint), UInt64.ofInt (hhmmss m.prevPoint),
   UInt64.ofInt (yyyymmdd ctx m.currPoint), UInt64.ofInt (hhmmss m.currPoint),
   UInt64.ofInt (yyyymmdd ctx m.lastFlush), UInt64.ofInt (hhmmss m.lastFlush),
   m.timeStepInSeconds.toUInt64, m.count.toUInt64, m.windowType.toUInt64,
   UInt64.ofNat m.counts.length]

def serialize (ctx : Statistics.StatisticsContext) (m : WindowMembers) (currState : IOBuffer) :
    Except Exception IOBuffer := do
  let currState ← currState.assign 0 (m.words ctx)
  let currState ← currState.assign 18 (m.counts.map Int64.toUInt64)
  currState.computeChecksum

def dateTimeAt (lib : RestartLibrary) (currState : IOBuffer) (idx : ℕ) : Except Exception DateTime :=
  do yyyymmdd_hhmmss2DateTime lib (← currState.get idx) (← currState.get (idx + 1))

def deserialize (lib : RestartLibrary) (currState : IOBuffer) : Except Exception WindowMembers := do
  currState.checkChecksum
  let epochPoint ← dateTimeAt lib currState 0
  let startPoint ← dateTimeAt lib currState 2
  let endPoint ← dateTimeAt lib currState 4
  let creationPoint ← dateTimeAt lib currState 6
  let prevPoint ← dateTimeAt lib currState 8
  let currPoint ← dateTimeAt lib currState 10
  let lastFlush ← dateTimeAt lib currState 12
  let timeStepInSeconds ← currState.get 14
  let count ← currState.get 15
  let windowType ← currState.get 16
  let countsSize ← currState.get 17
  let counts ← currState.read 18 countsSize.toNat
  .ok { epochPoint, startPoint, endPoint, creationPoint, prevPoint, currPoint, lastFlush,
        timeStepInSeconds := timeStepInSeconds.toInt64, count := count.toInt64,
        counts := counts.map UInt64.toInt64, windowType := windowType.toInt64 }

structure Dated (ctx : Statistics.StatisticsContext) (m : WindowMembers) : Prop where
  epochPoint : FourDigits ctx m.epochPoint
  startPoint : FourDigits ctx m.startPoint
  endPoint : FourDigits ctx m.endPoint
  creationPoint : FourDigits ctx m.creationPoint
  prevPoint : FourDigits ctx m.prevPoint
  currPoint : FourDigits ctx m.currPoint
  lastFlush : FourDigits ctx m.lastFlush

/-- Every buffer of the size that a restart needs is written, and the members are read from it. -/
def Restored (ctx : Statistics.StatisticsContext) (lib : RestartLibrary) (m : WindowMembers) : Prop :=
  ∀ buf : IOBuffer, buf.length = m.restartSize →
    ∃ buf', m.serialize ctx buf = .ok buf' ∧ deserialize lib buf' = .ok m

theorem toNat_ofInt {n : ℤ} (h : 0 ≤ n) (h' : n < 2 ^ 64) : ((UInt64.ofInt n).toNat : ℤ) = n := by
  unfold UInt64.ofInt
  rw [UInt64.toNat_ofNat', Int.emod_eq_of_lt h h', Nat.mod_eq_of_lt (by omega), Int.toNat_of_nonneg h]

section

variable {ctx : Statistics.StatisticsContext} {lib : RestartLibrary}
  (hlib : lib.Lawful ctx.calendar) (hcal : ctx.calendar.IsGregorian) {m : WindowMembers}

include hlib hcal

theorem dateTime_words {t : DateTime} (ht : FourDigits ctx t) :
    yyyymmdd_hhmmss2DateTime lib (UInt64.ofInt (yyyymmdd ctx t)) (UInt64.ofInt (hhmmss t)) =
      .ok t := by
  obtain ⟨hy, hy'⟩ := ht
  have hm := hcal.month_mem (DateTime.date t)
  have hd := hcal.day_mem (DateTime.date t)
  have hlength := Calendar.monthLength_le (ctx.calendar.year (DateTime.date t))
    (ctx.calendar.month (DateTime.date t))
  have htime := time_mem t
  have hdate : ((UInt64.ofInt (yyyymmdd ctx t)).toNat : ℤ) = yyyymmdd ctx t := by
    apply toNat_ofInt
    · unfold yyyymmdd
      omega
    · unfold yyyymmdd
      omega
  have hsecond : ((UInt64.ofInt (hhmmss t)).toNat : ℤ) = hhmmss t := by
    apply toNat_ofInt
    · unfold hhmmss
      omega
    · unfold hhmmss
      omega
  unfold yyyymmdd_hhmmss2DateTime
  rw [hdate, hsecond]
  exact Statistics.dateTime_read hlib hcal ⟨hy, hy'⟩

theorem deserialize_words (hm : m.Dated ctx) (hcounts : m.counts.length < 2 ^ 64) {sum : UInt64}
    (hsum : IOBuffer.checkChecksum (m.words ctx ++ (m.counts.map Int64.toUInt64 ++ [sum])) = .ok ()) :
    deserialize lib (m.words ctx ++ (m.counts.map Int64.toUInt64 ++ [sum])) = .ok m := by
  have hget (i : ℕ) (w : UInt64) (hw : (m.words ctx)[i]? = some w) :
      IOBuffer.get (m.words ctx ++ (m.counts.map Int64.toUInt64 ++ [sum])) i = .ok w := by
    unfold IOBuffer.get
    rw [List.getElem?_append_left (List.getElem?_eq_some_iff.mp hw).1, hw]
  have hpoint (i : ℕ) (t : DateTime) (ht : FourDigits ctx t)
      (hdate : (m.words ctx)[i]? = some (UInt64.ofInt (yyyymmdd ctx t)))
      (htime : (m.words ctx)[i + 1]? = some (UInt64.ofInt (hhmmss t))) :
      dateTimeAt lib (m.words ctx ++ (m.counts.map Int64.toUInt64 ++ [sum])) i = .ok t := by
    unfold dateTimeAt
    rw [hget i _ hdate, ok_bind, hget (i + 1) _ htime, ok_bind, dateTime_words hlib hcal ht]
  have hread : IOBuffer.read (m.words ctx ++ (m.counts.map Int64.toUInt64 ++ [sum])) 18
      (UInt64.ofNat m.counts.length).toNat = .ok (m.counts.map Int64.toUInt64) := by
    rw [UInt64.toNat_ofNat_of_lt' hcounts, ← List.length_map Int64.toUInt64]
    exact IOBuffer.read_append (m.words ctx)
  have hcast : (m.counts.map Int64.toUInt64).map UInt64.toInt64 = m.counts := by
    rw [List.map_map]
    exact List.map_id m.counts
  unfold deserialize
  rw [hsum, ok_bind, hpoint 0 m.epochPoint hm.epochPoint rfl rfl, ok_bind,
    hpoint 2 m.startPoint hm.startPoint rfl rfl, ok_bind,
    hpoint 4 m.endPoint hm.endPoint rfl rfl, ok_bind,
    hpoint 6 m.creationPoint hm.creationPoint rfl rfl, ok_bind,
    hpoint 8 m.prevPoint hm.prevPoint rfl rfl, ok_bind,
    hpoint 10 m.currPoint hm.currPoint rfl rfl, ok_bind,
    hpoint 12 m.lastFlush hm.lastFlush rfl rfl, ok_bind,
    hget 14 m.timeStepInSeconds.toUInt64 rfl, ok_bind, hget 15 m.count.toUInt64 rfl, ok_bind,
    hget 16 m.windowType.toUInt64 rfl, ok_bind, hget 17 (UInt64.ofNat m.counts.length) rfl, ok_bind,
    hread, ok_bind, hcast]
  rfl

omit hlib hcal in
theorem serialize_eq {buf : IOBuffer} (hbuf : buf.length = m.restartSize) : ∃ last,
    m.serialize ctx buf =
      IOBuffer.computeChecksum (m.words ctx ++ m.counts.map Int64.toUInt64 ++ [last]) := by
  unfold restartSize at hbuf
  have hfront : (buf.take 18).length = (m.words ctx).length := by
    rw [List.length_take, hbuf]
    exact min_eq_left (by omega)
  have hmid : ((buf.drop 18).take m.counts.length).length =
      (m.counts.map Int64.toUInt64).length := by
    rw [List.length_take, List.length_drop, List.length_map, hbuf]
    exact min_eq_left (by omega)
  have hback : ((buf.drop 18).drop m.counts.length).length = 1 := by
    rw [List.length_drop, List.length_drop, hbuf]
    omega
  obtain ⟨last, hlast⟩ := List.length_eq_one_iff.mp hback
  refine ⟨last, ?_⟩
  have hwords := IOBuffer.assign_append [] (buf.drop 18) hfront
  have hcounts := IOBuffer.assign_append (m.words ctx) [last] hmid
  rw [List.nil_append, List.nil_append, List.take_append_drop] at hwords
  rw [← hlast, List.take_append_drop] at hcounts
  unfold serialize
  rw [show buf.assign 0 (m.words ctx) = _ from hwords, ok_bind,
    show IOBuffer.assign _ 18 _ = _ from hcounts, ok_bind, hlast, List.append_assoc]

theorem restored_iff (hm : m.Dated ctx) : m.Restored ctx lib ↔ m.restartSize ≤ 2 ^ 31 := by
  have hlength (last : UInt64) : (m.words ctx ++ m.counts.map Int64.toUInt64 ++ [last]).length =
      m.restartSize := by
    rw [List.length_append, List.length_append, List.length_map]
    rfl
  constructor
  · intro hrestored
    obtain ⟨buf', hserialize, -⟩ := hrestored (List.replicate m.restartSize 0) List.length_replicate
    obtain ⟨last, heq⟩ : ∃ last, m.serialize ctx (List.replicate m.restartSize 0) = _ :=
      serialize_eq List.length_replicate
    rw [← hlength last]
    exact IOBuffer.computeChecksum_isOk.mp ⟨buf', heq.symm.trans hserialize⟩
  · intro hshort buf hbuf
    obtain ⟨last, heq⟩ : ∃ last, m.serialize ctx buf = _ := serialize_eq hbuf
    obtain ⟨buf', hbuf'⟩ := IOBuffer.computeChecksum_isOk.mpr ((hlength last).trans_le hshort)
    obtain ⟨hcheck, sum, rfl⟩ := IOBuffer.checkChecksum_of_compute hbuf'
    have hcounts : m.counts.length < 2 ^ 64 := by
      unfold restartSize at hshort
      omega
    refine ⟨_, heq.trans hbuf', ?_⟩
    rw [List.append_assoc] at hcheck ⊢
    exact deserialize_words hlib hcal hm hcounts hcheck

end

/-- The window of the members, if their window type is one of the enumeration. -/
def window? (m : WindowMembers) : Option OperationWindow := do
  let windowType ←
    if m.windowType = 0 then some .forwardOffset
    else if m.windowType = 1 then some WindowType.backwardOffset
    else none
  some { epochPoint := m.epochPoint, startPoint := m.startPoint, creationPoint := m.creationPoint
         currPoint := m.currPoint, prevPoint := m.prevPoint, endPoint := m.endPoint
         lastFlush := m.lastFlush, timeStepInSeconds := m.timeStepInSeconds.toInt
         count := m.count.toInt, counts := m.counts.map Int64.toInt, windowType }

end WindowMembers

namespace OperationWindow

variable (w : OperationWindow)

def members : WindowMembers where
  epochPoint := w.epochPoint
  startPoint := w.startPoint
  endPoint := w.endPoint
  creationPoint := w.creationPoint
  prevPoint := w.prevPoint
  currPoint := w.currPoint
  lastFlush := w.lastFlush
  timeStepInSeconds := Int64.ofInt w.timeStepInSeconds
  count := Int64.ofInt w.count
  counts := w.counts.map Int64.ofInt
  windowType := Int64.ofInt (Statistics.WindowRestart.typeWord w.windowType)

/-- The numbers of a window are those of a `long`. -/
structure Long : Prop where
  timeStepInSeconds : -2 ^ 63 ≤ w.timeStepInSeconds ∧ w.timeStepInSeconds < 2 ^ 63
  count : -2 ^ 63 ≤ w.count ∧ w.count < 2 ^ 63
  counts : ∀ n ∈ w.counts, -2 ^ 63 ≤ n ∧ n < 2 ^ 63

variable {w}

theorem window?_members (hw : w.Long) : w.members.window? = some w := by
  have hcounts : (w.counts.map Int64.ofInt).map Int64.toInt = w.counts := by
    rw [List.map_map]
    conv_rhs => rw [← List.map_id w.counts]
    apply List.map_congr_left
    intro n hn
    exact Int64.toInt_ofInt_of_le (hw.counts n hn).1 (hw.counts n hn).2
  unfold members WindowMembers.window?
  simp only []
  rw [hcounts, Int64.toInt_ofInt_of_le hw.timeStepInSeconds.1 hw.timeStepInSeconds.2,
    Int64.toInt_ofInt_of_le hw.count.1 hw.count.2]
  obtain ⟨e, s, c, u, p, n, l, timeStep, count, counts, windowType⟩ := w
  cases windowType <;> rfl

end OperationWindow

section

variable {ctx : Statistics.StatisticsContext} {lib : RestartLibrary}

theorem OperationWindow.restored (hlib : lib.Lawful ctx.calendar) (hcal : ctx.calendar.IsGregorian)
    {w : OperationWindow} (hw : w.Long) (hdated : Statistics.WindowRestart.Dated ctx w)
    (hsize : w.members.restartSize ≤ 2 ^ 31) {buf : IOBuffer}
    (hbuf : buf.length = w.members.restartSize) : ∃ buf' m, w.members.serialize ctx buf = .ok buf' ∧
      WindowMembers.deserialize lib buf' = .ok m ∧ m.window? = some w := by
  have hm : w.members.Dated ctx := ⟨hdated.epochPoint, hdated.startPoint, hdated.endPoint,
    hdated.creationPoint, hdated.prevPoint, hdated.currPoint, hdated.lastFlush⟩
  obtain ⟨buf', hserialize, hdeserialize⟩ :=
    (WindowMembers.restored_iff hlib hcal hm).mpr hsize buf hbuf
  exact ⟨buf', w.members, hserialize, hdeserialize, window?_members hw⟩

/-- Every member comes back exactly if the counter of the checksum does not overflow, and the valid
dates are accepted exactly if no digit gets lost that they depend on. -/
theorem window_restart_iff (hlib : lib.Lawful ctx.calendar) (hcal : ctx.calendar.IsGregorian) :
    (∀ m : WindowMembers, m.Dated ctx → (m.Restored ctx lib ↔ m.restartSize ≤ 2 ^ 31)) ∧
    ∀ date time : UInt64,
      ((∃ t, yyyymmdd_hhmmss2DateTime lib date time = .ok t) ↔
        ValidDate date.toNat ∧ ValidTime time.toNat) ↔
      (date.toNat < 10 ^ 8 ∧ time.toNat < 10 ^ 6) ∨
        ¬ (ValidDate (date.toNat % 10 ^ 8) ∧ ValidTime (time.toNat % 10 ^ 6)) := by
  refine ⟨fun m hm => WindowMembers.restored_iff hlib hcal hm, fun date time => ?_⟩
  rw [accepts_iff hlib]
  by_cases hdigits : date.toNat < 10 ^ 8 ∧ time.toNat < 10 ^ 6
  · rw [Nat.mod_eq_of_lt hdigits.1, Nat.mod_eq_of_lt hdigits.2]
    exact ⟨fun _ => Or.inl hdigits, fun _ => Iff.rfl⟩
  · have hinvalid : ¬ (ValidDate date.toNat ∧ ValidTime time.toNat) := fun ⟨hd, ht⟩ =>
      hdigits ⟨by have := hd.1; omega, by have := ht.1; omega⟩
    rw [or_iff_right hdigits, iff_false_right hinvalid]

example : ValidDate 20000229 ∧ ¬ ValidDate 19000229 := by decide

/-- The hour is read from two digits only. -/
theorem leading_digits_accepted :
    (∃ t, yyyymmdd_hhmmss2DateTime Statistics.orderedRestart 20200229 1000000 = .ok t) ∧
      ¬ (ValidDate 20200229 ∧ ValidTime 1000000) :=
  ⟨⟨_, rfl⟩, by decide⟩

end

def leapDay : WindowMembers where
  epochPoint := dateTime (Calendar.gregorian.date 2024 2 1) 0
  startPoint := dateTime (Calendar.gregorian.date 2024 2 29) 0
  endPoint := dateTime (Calendar.gregorian.date 2024 3 1) 0
  creationPoint := dateTime (Calendar.gregorian.date 2024 2 29) 0
  prevPoint := dateTime (Calendar.gregorian.date 2024 2 29) 3600
  currPoint := dateTime (Calendar.gregorian.date 2024 2 29) 7200
  lastFlush := dateTime (Calendar.gregorian.date 2024 2 29) 0
  timeStepInSeconds := 3600
  count := 2
  counts := [2, 0, -1]
  windowType := 1

theorem window_restart_leap_day :
    leapDay.Restored Statistics.wordContext Statistics.orderedRestart ∧
    ((∃ t, yyyymmdd_hhmmss2DateTime Statistics.orderedRestart 20240229 235959 = .ok t) ↔
      ValidDate 20240229 ∧ ValidTime 235959) := by
  obtain ⟨hrestored, haccepts⟩ := @window_restart_iff Statistics.wordContext Statistics.orderedRestart
    Statistics.orderedRestart_lawful Calendar.gregorian_isGregorian
  have hdated : leapDay.Dated Statistics.wordContext := by
    constructor <;>
      exact fourDigits_dateTime Calendar.gregorian_isGregorian (by decide) (by decide) (by decide)
        (by decide)
  exact ⟨(hrestored leapDay hdated).mpr (by decide),
    (haccepts 20240229 235959).mpr (Or.inl (by decide))⟩

end Multio.StatisticsMtg2
