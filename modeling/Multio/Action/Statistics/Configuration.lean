import Multio.Action.StatisticsMtg2.OperationWindow

namespace Multio.Statistics
open StatisticsMtg2 Exception

/-- Dates, periods and windows are those of `statistics-mtg2`, whose code is the same. -/
structure StatisticsContext extends StatisticsMtg2.StatisticsContext where
  /-- `std::hash<std::string>`. -/
  hash : String → UInt64

/-- How often the solver begins to accumulate its fields anew. -/
inductive ResetPeriod
  | hour
  | day
  | month
  | year
  | never
  deriving DecidableEq, Repr

structure StatisticsOptions where
  stepFreq : ℤ := 1
  timeStep : ℤ := 3600
  solverSendInitStep : Bool := false
  readRestart : Bool := false
  writeRestart : Bool := false
  useDateTime : Bool := false
  restartTime : String := "latest"
  restartPath : String := "."
  windowType : WindowType := .forwardOffset
  solverResetAccumulatedFields : ResetPeriod := .month
  valueCountThreshold : Option ℤ := none

structure StatisticsConfiguration (A : FloatArithmetic) where
  date : ℤ
  time : ℤ
  step : ℤ
  timeStep : ℤ
  stepFreq : ℤ
  level : ℤ
  param : String
  levType : String
  gridType : String
  precision : String
  missingValue : Option (A.Real .double)
  key : String
  epoch : DateTime

section

variable (ctx : StatisticsContext) (md : BaseMetadata)

def readStart (useDateTime : Bool) (key startKey what : String) : Except Exception ℤ := do
  match ← getInt64 ctx.toStatisticsContext md (if useDateTime then key else startKey) with
  | some val => .ok val
  | none => .error (.seriousBug ("Unable to find start " ++ what))

def readStartDate (opt : StatisticsOptions) : Except Exception ℤ :=
  readStart ctx md opt.useDateTime "date" "startDate" "date"

def readStartTime (opt : StatisticsOptions) : Except Exception ℤ :=
  readStart ctx md opt.useDateTime "time" "startTime" "time"

def readEither {α : Type} (first second : Except Exception (Option α)) (what : String) :
    Except Exception α := do
  match ← first with
  | some val => .ok val
  | none =>
    match ← second with
    | some val => .ok val
    | none => .error (.seriousBug (what ++ " metadata not present"))

def readStep : Except Exception ℤ :=
  readEither (getInt64 ctx.toStatisticsContext md "endStep")
    (getInt64 ctx.toStatisticsContext md "step") "Step"

def readTimeStep (opt : StatisticsOptions) : Except Exception ℤ :=
  StatisticsMtg2.readTimeStep ctx.toStatisticsContext md opt.timeStep

def readStepFrequency (opt : StatisticsOptions) : Except Exception ℤ := do
  let stepFreq ← getInt64 ctx.toStatisticsContext md "step-frequency"
  .ok (stepFreq.getD opt.stepFreq)

def readLevel : Except Exception ℤ :=
  readEither (getInt64 ctx.toStatisticsContext md "level")
    (getInt64 ctx.toStatisticsContext md "levelist") "Level"

def readParam : Except Exception String :=
  readEither (getString ctx.toStatisticsContext md "param")
    (do
      let paramId ← getInt64 ctx.toStatisticsContext md "paramId"
      .ok (paramId.map fun n : ℤ => toString n)) "Param"

def readLevType : Except Exception String :=
  readEither (getString ctx.toStatisticsContext md "levtype")
    (getString ctx.toStatisticsContext md "category") "LevType"

def readGridType : Except Exception String := do
  match ← getString ctx.toStatisticsContext md "gridType" with
  | some gridType => .ok gridType
  | none => .error (.seriousBug "gridType metadata not present")

end

/-- `operator std::string()` of a peer. -/
def peerText (src : Peer) : String := src.group ++ ":" ++ toString src.id

def generateKey (param : String) (level : ℤ) (levType gridType precision src : String) : String :=
  param ++ "-" ++ toString level ++ "-" ++ levType ++ "-" ++ gridType ++ "-" ++ precision ++
    "-" ++ src

/-- The constructor of `StatisticsConfiguration`; the epoch is asked for right after it. -/
def StatisticsConfiguration.make (ctx : StatisticsContext) (opt : StatisticsOptions)
    (md : BaseMetadata) (src : Peer) :
    Except Exception (StatisticsConfiguration ctx.arithmetic) := do
  let date ← readStartDate ctx md opt
  let time ← readStartTime ctx md opt
  let step ← readStep ctx md
  let timeStep ← readTimeStep ctx md opt
  let stepFreq ← readStepFrequency ctx md opt
  let level ← readLevel ctx md
  let param ← readParam ctx md
  let levType ← readLevType ctx md
  let gridType ← readGridType ctx md
  let precision ← readPrecision ctx.toStatisticsContext md
  let missingValue ← readMissingValue ctx.toStatisticsContext md
  let epoch ← computeEpoch ctx.toStatisticsContext date time
  .ok { date, time, step, timeStep, stepFreq, level, param, levType, gridType, precision,
        missingValue, epoch,
        key := generateKey param level levType gridType precision
          (toString (ctx.hash (peerText src)).toNat) }

namespace StatisticsConfiguration

variable {A : FloatArithmetic} (cfg : StatisticsConfiguration A)

def bitmapPresent : Bool := cfg.missingValue.isSome

def prev : DateTime := cfg.epoch + max (cfg.step - cfg.stepFreq) 0 * cfg.timeStep

def curr : DateTime := cfg.epoch + max cfg.step 0 * cfg.timeStep

def winStart (opt : StatisticsOptions) : DateTime :=
  if opt.solverSendInitStep then cfg.curr else cfg.prev

/-- `currentDateTime(msg, cfg)`. -/
def currentDateTime : DateTime := cfg.epoch + cfg.step * cfg.timeStep

/-- `nextDateTime(msg, cfg)`: the time that the next message is expected to have. -/
def nextDateTime : DateTime := cfg.epoch + (cfg.step + cfg.stepFreq) * cfg.timeStep

theorem curr_eq_currentDateTime (h : 0 ≤ cfg.step) : cfg.curr = cfg.currentDateTime := by
  rw [curr, currentDateTime, max_eq_left h]

end StatisticsConfiguration

section

variable (ctx : StatisticsContext)

/-- `date().yyyymmdd()` and `time().hhmmss()`. -/
def yyyymmdd (t : DateTime) : ℤ :=
  10000 * ctx.calendar.year t.date + 100 * ctx.calendar.month t.date + ctx.calendar.day t.date

def hhmmss (t : DateTime) : ℤ :=
  10000 * (t.time / 3600) + 100 * (t.time % 3600 / 60) + t.time % 60

/-- `isBeginningOfHour` and the like, by the period. -/
def isBeginningOf (period : ResetPeriod) (now : DateTime) : Bool :=
  let hour : Bool := now.time % 3600 = 0
  let day : Bool := now.time = 0
  let month : Bool := ctx.calendar.day now.date = 1
  let year : Bool := ctx.calendar.month now.date = 1
  match period with
  | .hour => hour
  | .day => day
  | .month => day && month
  | .year => day && month && year
  | .never => false

end

end Multio.Statistics
