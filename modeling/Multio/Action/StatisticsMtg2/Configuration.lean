import Multio.Lib.Calendar
import Multio.Message.BaseMetadata

namespace Multio.StatisticsMtg2
open Lib Exception

/-- The arithmetic of `float` and `double`, and their values in memory. -/
structure FloatArithmetic where
  Real : PrecisionTag → Type
  /-- `static_cast<double>` and `static_cast<T>` of a double. -/
  toDouble : {p : PrecisionTag} → Real p → Real .double
  ofDouble : {p : PrecisionTag} → Real .double → Real p
  ofLong : {p : PrecisionTag} → ℤ → Real p
  add : {p : PrecisionTag} → Real p → Real p → Real p
  sub : {p : PrecisionTag} → Real p → Real p → Real p
  mul : {p : PrecisionTag} → Real p → Real p → Real p
  div : {p : PrecisionTag} → Real p → Real p → Real p
  sqrt : {p : PrecisionTag} → Real p → Real p
  less : {p : PrecisionTag} → Real p → Real p → Bool
  equal : {p : PrecisionTag} → Real p → Real p → Bool
  /-- `std::numeric_limits<T>::min()` and `max()`. -/
  limitsMin : (p : PrecisionTag) → Real p
  limitsMax : (p : PrecisionTag) → Real p
  bits : Real .double → UInt64
  ofBits : UInt64 → Real .double
  elements : (p : PrecisionTag) → List UInt8 → List (Real p)
  bytes : (p : PrecisionTag) → List (Real p) → List UInt8

/-- Seconds, counted from the beginning of the day 0. -/
abbrev DateTime := ℤ

/-- `DateTime{date, time}` with the time in seconds of the day. -/
def dateTime (date time : ℤ) : DateTime := 86400 * date + time

def DateTime.date (t : DateTime) : ℤ := t / 86400
def DateTime.time (t : DateTime) : ℤ := t % 86400

inductive WindowType
  | forwardOffset
  | backwardOffset
  deriving DecidableEq, Repr

inductive StatTypeDuration
  | day
  | month
  deriving DecidableEq, Repr

inductive StatTypeOperation
  | average
  | max
  | min
  | standardDeviation
  deriving DecidableEq, Repr

structure SingleStatType where
  duration : StatTypeDuration
  operation : StatTypeOperation
  deriving DecidableEq, Repr

structure StatType where
  firstLevel : SingleStatType
  secondLevel : Option SingleStatType
  deriving DecidableEq, Repr

def StatType.levels (t : StatType) : ℕ := if t.secondLevel.isSome then 2 else 1

def StatType.make (first : SingleStatType) (second : Option SingleStatType) :
    Except Exception StatType :=
  match second with
  | none => .ok { firstLevel := first, secondLevel := none }
  | some s =>
    if first.duration = .month ∧ s.duration = .day then
      .ok { firstLevel := first, secondLevel := some s }
    else .error (.dataModelling "StatType: Invalid level combination")

/-- What is given: the dates, the arithmetic, and how entries of the data model are parsed. -/
structure StatisticsContext extends Context where
  arithmetic : FloatArithmetic
  calendar : Calendar
  /-- `eckit::Date{yyyymmdd}` and `eckit::Time{hour, minute, 0}`, which check their arguments. -/
  parseDate : ℤ → Except Exception ℤ
  parseTime : ℤ → ℤ → Except Exception ℤ
  printDateTime : DateTime → String
  /-- The hash maps that metadata are kept in. -/
  policy : HashPolicy String
  parseTimeDuration : MetadataValue → Except Exception ℤ
  parseParam : MetadataValue → Except Exception ℤ
  parseGrid : MetadataValue → Except Exception String
  parseTruncation : MetadataValue → Except Exception ℤ
  parseStatType : MetadataValue → Except Exception StatType
  dumpStatType : StatType → String
  /-- The tables of parameters: of the operation and the parameter, and of the parameter. -/
  paramMapping : ℤ → ℤ → Option ℤ
  operationMapping : ℤ → Option ℤ

structure StatisticsOptions where
  timeStep : ℤ := 3600
  initialConditionPresent : Bool := false
  readRestart : Bool := false
  writeRestart : Bool := false
  windowType : WindowType := .forwardOffset
  valueCountThreshold : Option ℤ := none
  disableStrictMapping : Bool := false
  disableSquashing : Bool := false
  setMetadata : List (String × String) := []

/-- `parseEntry` for an optional entry: neither a missing key nor null sets it. -/
def parseOptional {α : Type} (parse : MetadataValue → Except Exception α)
    (parametrization md : BaseMetadata) (k : String) : Except Exception (Option α) :=
  match Metadata.find parametrization md k with
  | none => .ok none
  | some .null => .ok none
  | some (.nested _) => .error (.dataModelling ("Unsupported type BaseMetadata for key " ++ k))
  | some v => do
    let x ← parse v
    .ok (some x)

/-- `parseEntry` for a required entry. -/
def parseRequired {α : Type} (parse : MetadataValue → Except Exception α)
    (parametrization md : BaseMetadata) (k : String) : Except Exception α :=
  match Metadata.find parametrization md k with
  | none => .error (.dataModelling ("Missing required key " ++ k))
  | some .null => .error (.dataModelling ("Required key " ++ k ++ " is null"))
  | some (.nested _) => .error (.dataModelling ("Unsupported type BaseMetadata for key " ++ k))
  | some v => parse v

structure StatisticsConfiguration (A : FloatArithmetic) where
  date : ℤ
  time : ℤ
  level : ℤ
  timeStep : ℤ
  step : ℤ
  timespan : Option ℤ
  param : ℤ
  levType : String
  gridType : String
  precision : String
  missingValue : Option (A.Real .double)
  key : String
  epoch : DateTime
  curr : DateTime

def StatisticsConfiguration.bitmapPresent {A : FloatArithmetic} (cfg : StatisticsConfiguration A) :
    Bool := cfg.missingValue.isSome

section

variable (ctx : StatisticsContext) (md : BaseMetadata)

def getInt64 (k : String) : Except Exception (Option ℤ) :=
  Metadata.getOpt MetadataValue.getInt64 ctx.parametrization md k

def getString (k : String) : Except Exception (Option String) :=
  Metadata.getOpt MetadataValue.getString ctx.parametrization md k

/-- `ASSERT(value.has_value())`. -/
def assertSome {α : Type} (what : String) : Option α → Except Exception α
  | some x => .ok x
  | none => .error (.assertionFailed what)

def readStep : Except Exception ℤ := do
  assertSome "stepVal.has_value()" (← getInt64 ctx md "step")

def readDate : Except Exception ℤ := do
  let _ ← assertSome "step has_value()" (← getInt64 ctx md "step")
  assertSome "dateVal.has_value()" (← getInt64 ctx md "date")

def readTime : Except Exception ℤ := do
  let _ ← assertSome "step has_value()" (← getInt64 ctx md "step")
  assertSome "timeVal.has_value()" (← getInt64 ctx md "time")

def readLevel : Except Exception ℤ := do
  match ← getInt64 ctx md "level" with
  | some level => .ok level
  | none => do
    let levelist ← getInt64 ctx md "levelist"
    .ok (levelist.getD 0)

def readTimeStep (defaultTimeStep : ℤ) : Except Exception ℤ := do
  let timeStep ← getInt64 ctx md "timeStep"
  .ok (timeStep.getD defaultTimeStep)

def readTimespan : Except Exception (Option ℤ) :=
  parseOptional ctx.parseTimeDuration ctx.parametrization md "timespan"

/-- The entry is required, so that `paramId` is never asked for. -/
def readParam : Except Exception ℤ :=
  parseRequired ctx.parseParam ctx.parametrization md "param"

def readLevType : Except Exception String := do
  match ← getString ctx md "levtype" with
  | some levType => .ok levType
  | none => .error (.metadata "Levtype missing in metadata")

def readGridType : Except Exception String := do
  match ← parseOptional ctx.parseGrid ctx.parametrization md "grid" with
  | some grid => .ok grid
  | none =>
    match ← parseOptional ctx.parseTruncation ctx.parametrization md "truncation" with
    | some _ => .ok "none"
    | none => .error (.seriousBug ("Cannot find grid or truncation in metadata : " ++
        ctx.toString md))

def readPrecision : Except Exception String := do
  match ← getString ctx md "misc-precision" with
  | some precision => .ok precision
  | none => .error (.seriousBug "precision metadata not present")

def readMissingValue : Except Exception (Option (ctx.arithmetic.Real .double)) := do
  let missingVal ← Metadata.getOpt MetadataValue.getDouble ctx.parametrization md "missingValue"
  let bitMapPresent ← Metadata.getOpt MetadataValue.getBool ctx.parametrization md "bitmapPresent"
  .ok (if bitMapPresent = some true then missingVal.map ctx.arithmetic.ofBits else none)

end

def generateKey (param level : ℤ) (levType gridType precision : String) (src : Peer) : String :=
  toString param ++ "-" ++ toString level ++ "-" ++ levType ++ "-" ++ gridType ++ "-" ++
    precision ++ "-" ++ src.group ++ "_" ++ toString src.id

/-- The time that steps are counted from; the seconds are ignored. -/
def computeEpoch (ctx : StatisticsContext) (date time : ℤ) : Except Exception DateTime := do
  let d ← ctx.parseDate date
  let t ← ctx.parseTime (time.tdiv 10000) ((time.tmod 10000).tdiv 100)
  .ok (dateTime d t)

def computeCurr (epoch : DateTime) (step timeStep : ℤ) : DateTime := epoch + max step 0 * timeStep

/-- The constructor of `StatisticsConfiguration`. -/
def StatisticsConfiguration.make (ctx : StatisticsContext) (opt : StatisticsOptions)
    (md : BaseMetadata) (src : Peer) :
    Except Exception (StatisticsConfiguration ctx.arithmetic) := do
  let date ← readDate ctx md
  let time ← readTime ctx md
  let level ← readLevel ctx md
  let timeStep ← readTimeStep ctx md opt.timeStep
  let step ← readStep ctx md
  let timespan ← readTimespan ctx md
  let param ← readParam ctx md
  let levType ← readLevType ctx md
  let gridType ← readGridType ctx md
  let precision ← readPrecision ctx md
  let missingValue ← readMissingValue ctx md
  let epoch ← computeEpoch ctx date time
  .ok { date, time, level, timeStep, step, timespan, param, levType, gridType, precision,
        missingValue, key := generateKey param level levType gridType precision src, epoch,
        curr := computeCurr epoch step timeStep }

/-- `currentDateTime(msg, cfg)`: unlike in `cfg.curr()`, negative steps count. -/
def currentDateTime {A : FloatArithmetic} (cfg : StatisticsConfiguration A) : DateTime :=
  cfg.epoch + cfg.step * cfg.timeStep

end Multio.StatisticsMtg2
