import Multio.Action.StatisticsMtg2.Operations
import Multio.Util.Outcome

namespace Multio.StatisticsMtg2
open Exception

structure Config where
  opt : StatisticsOptions
  operations : List String
  outputFrequency : String
  restartTime : String := "latest"
  restartPath : String := "."

structure TemporalStatistics (ctx : StatisticsContext) where
  periodUpdater : PeriodUpdater
  window : OperationWindow
  statistics : List (Operation ctx.arithmetic)
  metadata : BaseMetadata

variable {ctx : StatisticsContext}

def OperationKind.typeOfStatisticalProcessing : OperationKind → Option ℤ
  | .instant => none
  | .average => some 0
  | .accumulate => some 1
  | .maximum => some 2
  | .minimum => some 3
  | .difference => some 4
  | .stddev => some 6
  | .inverseDifference => some 8

/-- `StatisticsParamMapping::applyMapping`. -/
def applyMapping (ctx : StatisticsContext) (md : BaseMetadata) (k : OperationKind) (strict : Bool) :
    Except Exception BaseMetadata :=
  match k.typeOfStatisticalProcessing with
  | none => .ok md
  | some type => do
    match ← getInt64 ctx md "param" with
    | none => .error (.seriousBug "Metadata does not contain param!")
    | some paramOld =>
      match ctx.paramMapping paramOld type with
      | some paramNew => .ok (md.set ctx.policy "param" (.int64 paramNew))
      | none =>
        if strict then
          .error (.seriousBug ("Mapping for param=" ++ toString paramOld ++
            " and typeOfStatisticalProcessing=" ++ toString type ++ " is undefined!\n"))
        else .ok md

/-- `StatisticsOperationMapping::hasOperation`. -/
def hasOperation (ctx : StatisticsContext) (param : ℤ) (k : OperationKind) :
    Except Exception Bool :=
  match k.typeOfStatisticalProcessing with
  | some type => .ok (ctx.operationMapping param = some type)
  | none => .error (.seriousBug ("TypeOfStatisticalProcessing of operation " ++ k.name ++
      " is undefined!\n"))

def outputFrequencyToStatTypeDuration : String → Except Exception StatTypeDuration
  | "1d" => .ok .day
  | "1m" => .ok .month
  | outputFreq => .error (.seriousBug ("Mapping to stattype for outputFrequency=" ++ outputFreq ++
      " is undefined!\n"))

def operationNameToStatTypeOperation : OperationKind → Except Exception StatTypeOperation
  | .average => .ok .average
  | .maximum => .ok .max
  | .minimum => .ok .min
  | .stddev => .ok .standardDeviation
  | k => .error (.seriousBug ("Mapping to stattype for operation=" ++ k.name ++ " is undefined!\n"))

/-- One turn of the loop of `make_operations`. -/
def makeOperation (opt : StatisticsOptions) (cfg : StatisticsConfiguration ctx.arithmetic)
    (precision : PrecisionTag) (payload : List UInt8) (win : OperationWindow) (opname : String) :
    Except Exception (Operation ctx.arithmetic) := do
  let kind ← OperationKind.ofName opname
  let op := Operation.make ctx.arithmetic kind precision payload.length
  if opt.initialConditionPresent then op.initData ctx cfg payload win
  else if kind.needStepZero then
    .error (.userError ("Operation needs step zero and solver does not emit step zero :: " ++
      opname ++ "\n"))
  else .ok (Operation.init ctx op)

def makeOperations (opt : StatisticsOptions) (cfg : StatisticsConfiguration ctx.arithmetic)
    (msg : Message) (win : OperationWindow) (operations : List String) :
    Except Exception (List (Operation ctx.arithmetic)) := do
  let precision ← msg.precision ctx.toContext
  operations.mapM (makeOperation opt cfg precision msg.payload win)

namespace TemporalStatistics

def make (conf : Config) (cfg : StatisticsConfiguration ctx.arithmetic) (msg : Message) :
    Except Exception (TemporalStatistics ctx) := do
  let periodUpdater ← makePeriodUpdater conf.outputFrequency
  let window := makeWindow periodUpdater conf.opt cfg
  let statistics ← makeOperations conf.opt cfg msg window conf.operations
  .ok { periodUpdater, window, statistics, metadata := msg.metadata }

/-- The operations one after the other, all of them with the one window. An exception leaves those
before it changed. -/
def forOperations
    (f : OperationWindow → Operation ctx.arithmetic →
      Except Exception (OperationWindow × Operation ctx.arithmetic)) :
    OperationWindow → List (Operation ctx.arithmetic) →
      Outcome (OperationWindow × List (Operation ctx.arithmetic))
  | win, [] => { state := (win, []) }
  | win, op :: ops => .needing (win, op :: ops) (f win op) fun (win, op) =>
      (forOperations f win ops).map fun (win, ops) => (win, op :: ops)

def updateOperation (opt : StatisticsOptions) (cfg : StatisticsConfiguration ctx.arithmetic)
    (msg : Message) (win : OperationWindow) (op : Operation ctx.arithmetic) :
    Except Exception (OperationWindow × Operation ctx.arithmetic) := do
  let truncation ← parseOptional ctx.parseTruncation ctx.parametrization msg.metadata "truncation"
  if truncation.isSome && !op.kind.supportsSH then
    .error (.seriousBug ("Operation " ++ op.kind.name ++
      " does not support spherical harmonics : " ++ ctx.toString msg.metadata))
  else op.updateData ctx opt cfg msg.payload win

def resetOperation (cfg : StatisticsConfiguration ctx.arithmetic) (sz : ℕ) (win : OperationWindow)
    (op : Operation ctx.arithmetic) :
    Except Exception (OperationWindow × Operation ctx.arithmetic) := do
  let op ← op.updateWindow ctx cfg sz win
  .ok (win, op)

variable (conf : Config) (cfg : StatisticsConfiguration ctx.arithmetic)
  (ts : TemporalStatistics ctx)

def updateData (msg : Message) : Outcome (TemporalStatistics ctx) :=
  .needing ts (ts.window.updateData ctx (currentDateTime cfg)) fun window =>
    (forOperations (updateOperation conf.opt cfg msg) window ts.statistics).map
      fun (window, statistics) => { ts with window, statistics }

def updateWindow (msg : Message) : Outcome (TemporalStatistics ctx) :=
  let window := ts.window.updateWindow ts.window.endPoint
    (ts.periodUpdater.updateWinEndTime ctx.calendar ts.window.endPoint)
  (forOperations (resetOperation cfg msg.size) window ts.statistics).map
    fun (window, statistics) => { ts with window, statistics }

def isOutsideWindow : Bool := !ts.window.isWithin (currentDateTime cfg)

/-- The time span and the parameter of a first statistic; a later one extends the time span, which
is called squashing, or sets the type of the statistic. -/
def loopMetadata (ctx : StatisticsContext) (md : BaseMetadata) (win : OperationWindow)
    (k : OperationKind) (timespan : Option ℤ) (stattype : Option StatType) :
    Except Exception BaseMetadata := do
  let spanned := md.set ctx.policy "timespan"
    (.int64 (win.currPointInHours - win.creationPointInHours))
  match timespan with
  | none => applyMapping ctx spanned k (!conf.opt.disableStrictMapping)
  | some _ =>
    -- the parameter stands for the same operation already
    let squash ←
      if !conf.opt.disableSquashing && (k.isComposable || k = .difference) then do
        let param ← parseRequired ctx.parseParam ctx.parametrization md "param"
        hasOperation ctx param (if k = .difference then .accumulate else k)
      else .ok false
    if squash then
      if stattype.isSome then
        .error (.notImplemented ("Squashing is not implemented for fields with stattype, " ++
          "consider setting option 'disable-squashing'."))
      else .ok spanned
    else do
      let duration ← outputFrequencyToStatTypeDuration conf.outputFrequency
      let operation ← operationNameToStatTypeOperation k
      let stattype ← StatType.make { duration, operation } (stattype.map StatType.firstLevel)
      .ok (md.set ctx.policy "stattype" (.string (ctx.dumpStatType stattype)))

def outputMetadata (ctx : StatisticsContext) (win : OperationWindow) (k : OperationKind)
    (md : BaseMetadata) : Except Exception BaseMetadata := do
  let timespan ← parseOptional ctx.parseTimeDuration ctx.parametrization md "timespan"
  let stattype ← parseOptional ctx.parseStatType ctx.parametrization md "stattype"
  match stattype with
  | some { firstLevel, secondLevel := some second } =>
    .error (.seriousBug ("StatType already has two levels: " ++
      ctx.dumpStatType { firstLevel, secondLevel := some second } ++ "\n"))
  | _ => do
    assert (timespan.isSome || stattype.isNone) "timespan.isSet() || !stattype.isSet()"
    let step ← win.currPointInSteps
    let md := md.set ctx.policy "step" (.int64 step)
    let md ← if k = .instant then .ok md else loopMetadata conf ctx md win k timespan stattype
    .ok (conf.opt.setMetadata.foldl (fun md kv => md.set ctx.policy kv.1 (.string kv.2)) md)

/-- One turn of the loop of `emitStatistics`. -/
def emitOperation (source destination : Peer) (op : Operation ctx.arithmetic) :
    Except Exception (Operation ctx.arithmetic × Message) := do
  let cfg ← StatisticsConfiguration.make ctx conf.opt ts.metadata source
  let metadata ← outputMetadata conf ctx ts.window op.kind ts.metadata
  let (op, payload) ← op.compute ctx conf.opt cfg ts.window
  .ok (op, { header := { tag := .field, source, destination, metadata }, payload })

/-- The messages that are emitted, and the operations, which keep what a later window needs. -/
def emitOperations (source destination : Peer) :
    List (Operation ctx.arithmetic) → Outcome (List (Operation ctx.arithmetic) × List Message)
  | [] => { state := ([], []) }
  | op :: ops => .needing (op :: ops, []) (ts.emitOperation conf source destination op)
      fun (op, msg) =>
        (emitOperations source destination ops).map fun (ops, out) => (op :: ops, msg :: out)

def emitStatistics (source destination : Peer) : Outcome (TemporalStatistics ctx × List Message) :=
  if ts.window.count = 0 then { state := (ts, []) }
  else (ts.emitOperations conf source destination ts.statistics).map
    fun (statistics, out) => ({ ts with statistics }, out)

def outOfOrder : Exception :=
  .seriousBug ("Current time is before or equal to the current point in the window :: " ++
    ctx.printDateTime cfg.curr ++ " > " ++ ctx.printDateTime ts.window.currPoint ++ "\n")

/-- The window of the field is emitted, and the next one begins where it ends. -/
def closeWindow (msg : Message) : Outcome (TemporalStatistics ctx × List Message) :=
  (ts.emitStatistics conf msg.source msg.destination).andThen fun (ts, out) =>
    (ts.updateWindow cfg msg).map fun ts => (ts, out)

/-- The part of `executeImpl` that follows the look-up of the field. -/
def process (msg : Message) : Outcome (TemporalStatistics ctx × List Message) :=
  if cfg.curr = ts.window.currPoint ∧ conf.opt.initialConditionPresent then { state := (ts, []) }
  else if cfg.curr ≤ ts.window.currPoint then
    { state := (ts, []), exception := some (ts.outOfOrder cfg) }
  else
    (if ts.isOutsideWindow cfg then ts.closeWindow conf cfg msg else { state := (ts, []) }).andThen
      fun (ts, out) => (ts.updateData conf cfg msg).map fun ts => (ts, out)

end TemporalStatistics
end Multio.StatisticsMtg2
