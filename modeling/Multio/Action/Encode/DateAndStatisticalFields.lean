import Multio.Action.Encode.MappedTimes
import Multio.Lib.WriteLog

namespace Multio.GribEncoder
open Lib Util Exception Writing

/-- What a key of the handle is set to; quotients of seconds are rationals. -/
inductive CodesValue
  | long (v : ℤ)
  | double (v : ℚ)
  deriving DecidableEq

/-- Settings of a handle, which stay if an exception follows. -/
abbrev Encoding : Type → Type := Writing String CodesValue Exception

variable (ctx : EncoderContext)

def timeUnitCodes : TimeUnit → ℤ
  | .year => 4
  | .month => 3
  | .day => 2
  | .hour => 1
  | .minute => 0
  | .second => 13

def types_with_time_reference_offset : List String := ["fc", "fcmean", "cf", "pf", "4v"]

def type_of_statistical_processing : String → Option ℤ
  | "average" => some 0
  | "accumulate" => some 1
  | "maximum" => some 2
  | "minimum" => some 3
  | "difference" => some 4
  | "stddev" => some 6
  | "inverse-difference" => some 8
  | _ => none

section

variable {α : Type} (getter : MetadataValue → Except Exception α) (md : BaseMetadata)

abbrev lookUp (k : String) : Except Exception (Option α) :=
  Metadata.getOpt getter ctx.parametrization md k

end

def getNested : MetadataValue → Except Exception BaseMetadata
  | .nested m => .ok m
  | v => .error (.metadataWrongType "BaseMetadata" v.typeName)

def gribEdition (md : BaseMetadata) : Except Exception String := do
  let edition ← lookUp ctx (·.getString) md "gribEdition"
  .ok (edition.getD "2")

def isTimeRange (md : BaseMetadata) (type : Option String) : Except Exception Bool := do
  let operation ← lookUp ctx (·.getString) md "operation"
  let startStep ← lookUp ctx (·.getInt64) md "startStep"
  let endStep ← lookUp ctx (·.getInt64) md "endStep"
  .ok (operation.any (· ≠ "instant") || type = some "tpa" ||
    (endStep.isSome && startStep.isSome && endStep ≠ startStep))

def significanceOfReferenceTime (md : BaseMetadata) : Except Exception (Option ℤ) := do
  let significance ← lookUp ctx (·.getInt64) md "significanceOfReferenceTime"
  if significance.isSome then .ok significance
  else if (reader ctx md "encoder-overwrites").isSome then do
    let overwrites ← Metadata.get getNested ctx.parametrization md "encoder-overwrites"
    -- an object of the base class does not look into the parametrization
    Metadata.getOpt (·.getInt64) { bucketCount := 1 } overwrites "significanceOfReferenceTime"
  else .ok none

def isReferingToStart (type : Option String) (gribEdition : String)
    (significanceOfReferenceTime : Option ℤ) : Bool :=
  match type with
  | none => false
  | some type =>
    if type = "fc" then !(gribEdition = "2" && significanceOfReferenceTime = some 2)
    else type ∈ types_with_time_reference_offset

def getTimeReference (md : BaseMetadata) (type : Option String) (gribEdition : String)
    (isTimeRange : Bool) (significanceOfReferenceTime : Option ℤ) : Except Exception String := do
  let timeRef ← lookUp ctx (·.getString) md "timeReference"
  .ok (timeRef.getD (if isReferingToStart type gribEdition significanceOfReferenceTime then "start"
    else if isTimeRange then "previous" else "current"))

def getPair (md : BaseMetadata) (date time : String) : Except Exception (ℤ × ℤ) := do
  let d ← Metadata.get (·.getInt64) ctx.parametrization md date
  let t ← Metadata.get (·.getInt64) ctx.parametrization md time
  .ok (d, t)

def getReferenceDateTime (timeRef : String) (md : BaseMetadata) : Except Exception (ℤ × ℤ) :=
  match timeRef with
  | "start" => getPair ctx md "startDate" "startTime"
  | "previous" => getPair ctx md "previousDate" "previousTime"
  | "current" => getPair ctx md "currentDate" "currentTime"
  | _ => .error (.undefinedBehaviour "end iterator dereferenced")

def hours (lhs rhs : DateTimeInts) : CodesValue :=
  .double (exactDiffInSeconds ctx.calendar lhs rhs / 3600)

def setSignificanceOfReferenceTime (gribEdition : String) : Option ℤ → Encoding Unit
  | some significance =>
    if gribEdition = "2" then write "significanceOfReferenceTime" (.long significance) else pure ()
  | none => pure ()

def setReference (t : DateTimeInts) : Encoding Unit := do
  write "year" (.long t.date.year)
  write "month" (.long t.date.month)
  write "day" (.long t.date.day)
  write "hour" (.long t.time.hour)
  write "minute" (.long t.time.minute)
  write "second" (.long t.time.second)

def setStep (timeRef : String) (reference current : DateTimeInts) : Encoding Unit := do
  write "stepUnits" (.long (timeUnitCodes .hour))
  write "startStep" (if timeRef = "start" then hours ctx current reference else .long 0)

def setEndOfOverallTimeInterval (t : DateTimeInts) : Encoding Unit := do
  write "yearOfEndOfOverallTimeInterval" (.long t.date.year)
  write "monthOfEndOfOverallTimeInterval" (.long t.date.month)
  write "dayOfEndOfOverallTimeInterval" (.long t.date.day)
  write "hourOfEndOfOverallTimeInterval" (.long t.time.hour)
  write "minuteOfEndOfOverallTimeInterval" (.long t.time.minute)
  write "secondOfEndOfOverallTimeInterval" (.long t.time.second)

def setLengthOfTimeRange (previous current : DateTimeInts) : Encoding Unit := do
  write "indicatorOfUnitForTimeRange" (.long (timeUnitCodes .hour))
  write "lengthOfTimeRange" (hours ctx current previous)

def setStepRange (timeRef : String) (reference previous current : DateTimeInts) : Encoding Unit :=
  if timeRef = "start" then do
    write "stepUnits" (.long (timeUnitCodes .hour))
    write "startStep" (hours ctx previous reference)
    write "stepUnits" (.long (timeUnitCodes .hour))
    write "endStep" (hours ctx current reference)
  else do
    write "stepUnits" (.long (timeUnitCodes .hour))
    write "startStep" (.long 0)
    write "indicatorOfUnitOfTimeRange" (.long (timeUnitCodes .hour))
    write "forecastTime" (.long 0)
    write "stepUnits" (.long (timeUnitCodes .hour))
    write "endStep" (hours ctx current previous)

def setTypeOfStatisticalProcessing : Option String → Encoding Unit
  | none => pure ()
  | some operation =>
    if operation = "instant" then pure ()
    else match type_of_statistical_processing operation with
      | none => attempt (.error (.userError
          ("setDateAndStatisticalFields - Cannot map value \"" ++ operation ++
            "\"for key \"operation\" (statistical output) to a valid grib2 type of statistical " ++
            "processing.")))
      | some code => write "typeOfStatisticalProcessing" (.long code)

/-- `setValue` of an optional. -/
def setOptional (k : String) : Option ℤ → Encoding Unit
  | some v => write k (.long v)
  | none => pure ()

/-- `withFirstOf(valueSetter(g, k), v)`. -/
def setIfKnown (k : String) (v : Option ℤ) : Encoding Unit :=
  if ctx.hasKey k then setOptional k v else pure ()

/-- The same with a look-up that is not done for an unknown key. -/
def setLookedUp (md : BaseMetadata) (k : String) : Encoding Unit :=
  if ctx.hasKey k then do
    let v ← attempt (lookUp ctx (·.getInt64) md k)
    setOptional k v
  else pure ()

def setGivenTimeIncrement (md : BaseMetadata) (timeIncrement : ℤ) : Encoding Unit :=
  if timeIncrement ≠ 0 then do
    setLookedUp ctx md "indicatorOfUnitForTimeIncrement"
    write "timeIncrement" (.long timeIncrement)
  else do
    write "indicatorOfUnitForTimeIncrement" (.long 255)
    write "timeIncrement" (.long 0)

def setSampleInterval (md : BaseMetadata) : Option ℤ → Encoding Unit
  | some sampleIntervalInSeconds => do
    write "indicatorOfUnitForTimeIncrement" (.long (timeUnitCodes .second))
    write "timeIncrement" (.long sampleIntervalInSeconds)
  | none => do
    write "indicatorOfUnitForTimeIncrement" (.long (timeUnitCodes .second))
    let timeStep ← attempt (lookUp ctx (·.getInt64) md "timeStep")
    setIfKnown ctx "timeIncrement" timeStep

def setTimeIncrement (md : BaseMetadata) (timeRef : String) : Encoding Unit := do
  write "typeOfTimeIncrement" (.long (if timeRef = "start" then 2 else 255))
  let timeIncrement ← attempt (lookUp ctx (·.getInt64) md "timeIncrement")
  match timeIncrement with
  | some timeIncrement => setGivenTimeIncrement ctx md timeIncrement
  | none => do
    let sampleInterval ← attempt (lookUp ctx (·.getInt64) md "sampleIntervalInSeconds")
    setSampleInterval ctx md sampleInterval

def setTimeRange (md : BaseMetadata) (timeRef : String) (operation : Option String)
    (reference current : DateTimeInts) : Encoding Unit := do
  let previous ← attempt (getPair ctx md "previousDate" "previousTime")
  let previous := wrapDateTime ctx.calendar ctx.numbers (dateTimeInts previous)
  setEndOfOverallTimeInterval current
  setLengthOfTimeRange ctx previous current
  setStepRange ctx timeRef reference previous current
  setTypeOfStatisticalProcessing operation
  setTimeIncrement ctx md timeRef

def setAnalysisDateTime (t : DateTimeInts) : Encoding Unit := do
  write "yearOfAnalysis" (.long t.date.year)
  write "monthOfAnalysis" (.long t.date.month)
  write "dayOfAnalysis" (.long t.date.day)
  write "hourOfAnalysis" (.long t.time.hour)
  write "minuteOfAnalysis" (.long t.time.minute)

def setAnalysis (md : BaseMetadata) : Encoding Unit := do
  let dateOfAnalysis ← attempt (lookUp ctx (·.getInt64) md "date-of-analysis")
  let timeOfAnalysis ← attempt (lookUp ctx (·.getInt64) md "time-of-analysis")
  match dateOfAnalysis with
  | none => pure ()
  | some date =>
    setAnalysisDateTime
      (wrapDateTime ctx.calendar ctx.numbers (dateTimeInts (date, timeOfAnalysis.getD 0)))

def setSteps (md : BaseMetadata) (gribEdition timeRef : String) (isTimeRange : Bool)
    (operation : Option String) (reference current : DateTimeInts) : Encoding Unit :=
  if !isTimeRange then setStep ctx timeRef reference current
  else if gribEdition = "2" then setTimeRange ctx md timeRef operation reference current
  else pure ()

def setMappedTimes (md : BaseMetadata) (type : Option String) (gribEdition : String)
    (isTimeRange : Bool) (operation : Option String) (significance : Option ℤ) :
    Encoding Unit := do
  let timeRef ← attempt (getTimeReference ctx md type gribEdition isTimeRange significance)
  let reference ← attempt (getReferenceDateTime ctx timeRef md)
  let reference := wrapDateTime ctx.calendar ctx.numbers (dateTimeInts reference)
  setReference reference
  let current ← attempt (getPair ctx md "currentDate" "currentTime")
  let current := wrapDateTime ctx.calendar ctx.numbers (dateTimeInts current)
  setSteps ctx md gribEdition timeRef isTimeRange operation reference current
  setAnalysis ctx md

/-- `type` is the one of the queried MARS keys. What `find` and `get` copy into the metadata is
dropped with them. -/
def setDateAndStatisticalFields (md : BaseMetadata) (type : Option String) : Encoding Unit := do
  let gribEdition ← attempt (gribEdition ctx md)
  let operation ← attempt (lookUp ctx (·.getString) md "operation")
  let isTimeRange ← attempt (isTimeRange ctx md type)
  let significance ← attempt (significanceOfReferenceTime ctx md)
  setSignificanceOfReferenceTime gribEdition significance
  let md ← attempt (tryMapStepToTimeAndCheckTime ctx md)
  setMappedTimes ctx md type gribEdition isTimeRange operation significance

end Multio.GribEncoder
