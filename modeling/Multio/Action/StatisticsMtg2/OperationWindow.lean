import Multio.Action.StatisticsMtg2.Configuration

namespace Multio.StatisticsMtg2
open Lib Exception

inductive TimeUnit
  | hour
  | day
  | month
  deriving DecidableEq, Repr

def TimeUnit.name : TimeUnit → String
  | .hour => "hour"
  | .day => "day"
  | .month => "month"

structure PeriodUpdater where
  timeUnit : TimeUnit
  span : ℤ
  deriving DecidableEq, Repr

/-- The regular expression `([1-9][0-9]*)([a-z]+)`: its two groups. -/
def parsePeriodGrammar (outputFreq : String) : Except Exception (ℤ × String) :=
  let digits := outputFreq.toList.takeWhile Char.isDigit
  let kind := outputFreq.toList.dropWhile Char.isDigit
  if digits.head? ≠ none ∧ digits.head? ≠ some '0' ∧ kind ≠ [] ∧ kind.all Char.isLower then
    let span : ℕ := digits.foldl (fun n c => 10 * n + (c.toNat - '0'.toNat)) 0
    if span < 2 ^ 63 then .ok (span, String.ofList kind)
    else .error (.outOfRange "stol")
  else .error (.seriousBug ("Wrong grammar in period definition : " ++ outputFreq))

theorem foldl_digits_pos (cs : List Char) {n : ℕ} (hn : 0 < n) :
    0 < cs.foldl (fun n c => 10 * n + (c.toNat - '0'.toNat)) n := by
  induction cs generalizing n with
  | nil => exact hn
  | cons c cs ih =>
    rw [List.foldl_cons]
    apply ih
    omega

theorem digit_pos {c : Char} (hc : c.isDigit = true) (h0 : c ≠ '0') : 0 < c.toNat - '0'.toNat := by
  have hne : c.toNat ≠ '0'.toNat := fun h => h0 (Char.toNat_inj.mp h)
  have hle : '0'.toNat ≤ c.toNat := by
    rw [Char.isDigit, Bool.and_eq_true, decide_eq_true_eq, decide_eq_true_eq] at hc
    exact hc.1
  omega

theorem parsePeriodGrammar_pos {outputFreq kind : String} {span : ℤ}
    (h : parsePeriodGrammar outputFreq = .ok (span, kind)) : 1 ≤ span := by
  unfold parsePeriodGrammar at h
  simp only [] at h
  split_ifs at h with hgrammar hlt
  obtain ⟨hhead, hzero, -⟩ := hgrammar
  obtain rfl := congrArg Prod.fst (Except.ok.inj h)
  have hdigits := List.all_takeWhile (p := Char.isDigit) (l := outputFreq.toList)
  cases hcs : outputFreq.toList.takeWhile Char.isDigit with
  | nil => exact absurd (congrArg List.head? hcs) hhead
  | cons c cs =>
    rw [hcs, List.head?_cons] at hzero
    rw [hcs, List.all_cons, Bool.and_eq_true] at hdigits
    have hc : 0 < c.toNat - '0'.toNat := digit_pos hdigits.1 fun h => hzero (congrArg some h)
    have hpos := foldl_digits_pos cs (n := 10 * 0 + (c.toNat - '0'.toNat)) (by omega)
    rw [List.foldl_cons]
    omega

def makePeriodUpdater (outputFreq : String) : Except Exception PeriodUpdater := do
  let (span, periodKind) ← parsePeriodGrammar outputFreq
  if periodKind = "hour" ∨ periodKind = "h" then .ok { timeUnit := .hour, span }
  else if periodKind = "day" ∨ periodKind = "d" then .ok { timeUnit := .day, span }
  else if periodKind = "month" ∨ periodKind = "m" then .ok { timeUnit := .month, span }
  else .error (.seriousBug ("Unknown period kind : " ++ periodKind))

namespace PeriodUpdater

variable (calendar : Calendar) (u : PeriodUpdater)

def computeWinStartTime (nextTime : DateTime) : DateTime :=
  match u.timeUnit with
  | .hour => dateTime nextTime.date (nextTime.time / 3600 * 3600)
  | .day => dateTime nextTime.date 0
  | .month => dateTime (calendar.date (calendar.year nextTime.date) (calendar.month nextTime.date)
      1) 0

def updateWinEndTime (startPoint : DateTime) : DateTime :=
  match u.timeUnit with
  | .hour =>
    let tmp : DateTime := startPoint + 3600 * u.span
    dateTime tmp.date (tmp.time / 3600 * 3600)
  | .day =>
    let tmp : DateTime := startPoint + 86400 * u.span
    dateTime tmp.date 0
  | .month =>
    let totalSpan := calendar.month startPoint.date + u.span - 1
    let endYear := calendar.year startPoint.date + totalSpan.tdiv 12
    let endMonth := totalSpan.tmod 12 + 1
    dateTime (calendar.date endYear endMonth 1) 0

def computeWinCreationTime (currentTime : DateTime) : DateTime := currentTime

def computeWinEndTime (currentTime : DateTime) : DateTime := u.updateWinEndTime calendar currentTime

end PeriodUpdater

namespace TimeUnit

def point (calendar : Calendar) : TimeUnit → ℤ → ℤ
  | .hour, i => 3600 * i
  | .day, i => 86400 * i
  | .month, i => 86400 * calendar.monthStart i

def index (calendar : Calendar) : TimeUnit → ℤ → ℤ
  | .hour, t => t / 3600
  | .day, t => t / 86400
  | .month, t => calendar.monthIndex (DateTime.date t)

variable {calendar : Calendar} (h : calendar.IsGregorian)

include h

theorem point_strictMono (k : TimeUnit) : StrictMono (k.point calendar) := by
  intro i j hij
  cases k with
  | hour =>
    simp only [point]
    omega
  | day =>
    simp only [point]
    omega
  | month =>
    have hlt := h.monthStart_strictMono hij
    simp only [point]
    omega

theorem point_index (k : TimeUnit) (t : ℤ) :
    k.point calendar (k.index calendar t) ≤ t ∧ t < k.point calendar (k.index calendar t + 1) := by
  cases k with
  | hour =>
    simp only [point, index]
    omega
  | day =>
    simp only [point, index]
    omega
  | month =>
    have hmonth := h.monthStart_le (DateTime.date t)
    simp only [point, index, DateTime.date] at hmonth ⊢
    omega

theorem index_eq {k : TimeUnit} {t : ℤ} {i : ℤ} (hi : k.point calendar i ≤ t)
    (hi' : t < k.point calendar (i + 1)) : k.index calendar t = i := by
  obtain ⟨ht, ht'⟩ := k.point_index h t
  have hlt := (k.point_strictMono h).lt_iff_lt.mp (hi.trans_lt ht')
  have hgt := (k.point_strictMono h).lt_iff_lt.mp (ht.trans_lt hi')
  omega

theorem index_point (k : TimeUnit) (i : ℤ) : k.index calendar (k.point calendar i) = i :=
  index_eq h le_rfl (k.point_strictMono h (lt_add_one i))

end TimeUnit

namespace PeriodUpdater

variable (u : PeriodUpdater) {calendar : Calendar} (h : calendar.IsGregorian)

include h

theorem computeWinStartTime_eq (t : ℤ) :
    u.computeWinStartTime calendar t = u.timeUnit.point calendar (u.timeUnit.index calendar t) := by
  unfold computeWinStartTime
  cases u.timeUnit with
  | hour =>
    simp only [TimeUnit.point, TimeUnit.index, dateTime, DateTime.date, DateTime.time]
    change @Eq ℤ _ _
    omega
  | day => exact add_zero _
  | month =>
    simp only [TimeUnit.point, TimeUnit.index, dateTime]
    rw [h.monthStart_monthIndex, add_zero]

theorem updateWinEndTime_eq (hspan : 1 ≤ u.span) (t : ℤ) :
    u.updateWinEndTime calendar t =
      u.timeUnit.point calendar (u.timeUnit.index calendar t + u.span) := by
  have hm := h.month_mem (DateTime.date t)
  unfold updateWinEndTime
  cases u.timeUnit with
  | hour =>
    simp only [TimeUnit.point, TimeUnit.index, dateTime, DateTime.date, DateTime.time]
    change @Eq ℤ _ _
    omega
  | day =>
    simp only [TimeUnit.point, TimeUnit.index, dateTime, DateTime.date]
    change @Eq ℤ _ _
    omega
  | month =>
    simp only [TimeUnit.point, TimeUnit.index, Calendar.monthStart, Calendar.monthIndex, dateTime]
    rw [Int.tdiv_eq_ediv_of_nonneg (by omega), Int.tmod_eq_emod_of_nonneg (by omega), add_zero]
    congr 2
    · omega
    · omega

theorem lt_updateWinEndTime (hspan : 1 ≤ u.span) (t : ℤ) : t < u.updateWinEndTime calendar t := by
  have hindex := (u.timeUnit.point_index h t).2
  have hmono := (u.timeUnit.point_strictMono h).monotone
    (show u.timeUnit.index calendar t + 1 ≤ u.timeUnit.index calendar t + u.span by omega)
  rw [u.updateWinEndTime_eq h hspan]
  exact hindex.trans_le hmono

/-- The first window ends after the time that it is made for, wherever that lies in its unit. -/
theorem lt_computeWinEndTime (hspan : 1 ≤ u.span) (t : ℤ) :
    t < u.computeWinEndTime calendar (u.computeWinStartTime calendar t) := by
  have hend := u.lt_updateWinEndTime h hspan t
  rw [u.updateWinEndTime_eq h hspan] at hend
  unfold computeWinEndTime
  rw [u.updateWinEndTime_eq h hspan, u.computeWinStartTime_eq h, u.timeUnit.index_point h]
  exact hend

end PeriodUpdater

theorem makePeriodUpdater_pos {outputFreq : String} {u : PeriodUpdater}
    (h : makePeriodUpdater outputFreq = .ok u) : 1 ≤ u.span := by
  unfold makePeriodUpdater at h
  rw [bind_eq_ok_iff] at h
  obtain ⟨⟨span, kind⟩, hparse, h⟩ := h
  have hspan := parsePeriodGrammar_pos hparse
  simp only [] at h
  split_ifs at h <;> exact Except.ok.inj h ▸ hspan

structure OperationWindow where
  epochPoint : DateTime
  startPoint : DateTime
  creationPoint : DateTime
  currPoint : DateTime
  prevPoint : DateTime
  endPoint : DateTime
  lastFlush : DateTime
  timeStepInSeconds : ℤ
  count : ℤ
  counts : List ℤ
  windowType : WindowType
  deriving DecidableEq

namespace OperationWindow

def make (epochPoint startPoint creationPoint endPoint : DateTime) (timeStepInSeconds : ℤ)
    (windowType : WindowType) : OperationWindow where
  epochPoint
  startPoint
  creationPoint
  currPoint := creationPoint
  prevPoint := creationPoint
  endPoint
  lastFlush := epochPoint
  timeStepInSeconds
  count := 0
  counts := []
  windowType

def print (ctx : StatisticsContext) (w : OperationWindow) : String :=
  "OperationWindow(" ++ ctx.printDateTime w.startPoint ++ " to " ++
    ctx.printDateTime w.endPoint ++ ")"

def gtLowerBound (w : OperationWindow) (dt : DateTime) : Bool := w.creationPoint < dt
def geLowerBound (w : OperationWindow) (dt : DateTime) : Bool := w.creationPoint ≤ dt
def leUpperBound (w : OperationWindow) (dt : DateTime) : Bool := dt ≤ w.endPoint
def ltUpperBound (w : OperationWindow) (dt : DateTime) : Bool := dt < w.endPoint

/-- The exception of a bound that is asked for with `throw_error`. -/
def outside (ctx : StatisticsContext) (w : OperationWindow) (dt : DateTime) (bound : String) :
    Exception :=
  .seriousBug (w.print ctx ++ " : " ++ ctx.printDateTime dt ++
    " is outside of current period : " ++ bound ++ " Bound violation\n")

/-- Both types of windows take the bounds of the forward offset here. -/
def updateData (ctx : StatisticsContext) (w : OperationWindow) (currentPoint : DateTime) :
    Except Exception OperationWindow :=
  if !w.gtLowerBound currentPoint then .error (w.outside ctx currentPoint "lower")
  else if !w.leUpperBound currentPoint then .error (w.outside ctx currentPoint "upper")
  else .ok { w with prevPoint := w.currPoint, currPoint := currentPoint, count := w.count + 1 }

theorem updateData_ok (ctx : StatisticsContext) {w : OperationWindow} {t : DateTime}
    (hlower : w.creationPoint < t) (hupper : t ≤ w.endPoint) :
    w.updateData ctx t =
      .ok { w with prevPoint := w.currPoint, currPoint := t, count := w.count + 1 } := by
  unfold updateData gtLowerBound leUpperBound
  rw [decide_eq_true hlower, decide_eq_true hupper]
  rfl

def updateWindow (w : OperationWindow) (startPoint endPoint : DateTime) : OperationWindow :=
  { w with startPoint, creationPoint := startPoint, currPoint := startPoint,
           prevPoint := startPoint, endPoint, count := 0, counts := [] }

def isWithin (w : OperationWindow) (dt : DateTime) : Bool :=
  match w.windowType with
  | .forwardOffset => w.gtLowerBound dt && w.leUpperBound dt
  | .backwardOffset => w.geLowerBound dt && w.ltUpperBound dt

def initCountsLazy (ctx : StatisticsContext) (w : OperationWindow) (size : ℕ) :
    Except Exception OperationWindow :=
  if w.counts.length = size then .ok w
  else if w.counts.length = 0 then .ok { w with counts := List.replicate size 0 }
  else .error (.seriousBug (w.print ctx ++
    " : counts array is already initialized with a different size\n"))

/-- The counter of every point whose value is not missing goes up. -/
def updateCounts (ctx : StatisticsContext) (w : OperationWindow) (missing : List Bool) (size : ℕ) :
    Except Exception OperationWindow := do
  let w ← w.initCountsLazy ctx size
  .ok { w with counts := List.zipWith (fun c isMissing => if isMissing then c else c + 1)
                  w.counts missing }

def currPointInSeconds (w : OperationWindow) : ℤ := w.currPoint - w.epochPoint
def creationPointInSeconds (w : OperationWindow) : ℤ := w.creationPoint - w.epochPoint
def currPointInHours (w : OperationWindow) : ℤ := w.currPointInSeconds.tdiv 3600
def creationPointInHours (w : OperationWindow) : ℤ := w.creationPointInSeconds.tdiv 3600

def currPointInSteps (w : OperationWindow) : Except Exception ℤ :=
  if w.timeStepInSeconds = 0 then .error (.undefinedBehaviour "division by zero")
  else .ok (w.currPointInSeconds.tdiv w.timeStepInSeconds)

end OperationWindow

/-- The window of the time that the first message is about, its time span before its own. -/
def makeWindow {ctx : StatisticsContext} (u : PeriodUpdater) (opt : StatisticsOptions)
    (cfg : StatisticsConfiguration ctx.arithmetic) : OperationWindow :=
  let start : DateTime := cfg.curr - 3600 * cfg.timespan.getD 0
  let startPoint := u.computeWinStartTime ctx.calendar start
  OperationWindow.make cfg.epoch startPoint (PeriodUpdater.computeWinCreationTime start)
    (u.computeWinEndTime ctx.calendar startPoint) cfg.timeStep opt.windowType

end Multio.StatisticsMtg2
