import Multio.Action.Statistics.Operations

namespace Multio.StatisticsMtg2.OperationWindow
open Exception

variable (w : OperationWindow)

def endPointInHours : ℤ := (w.endPoint - w.epochPoint).tdiv 3600

def lastPointsDiffInSeconds : ℤ := w.currPoint - w.prevPoint

def timeSpanInSteps : Except Exception ℤ :=
  if w.timeStepInSeconds = 0 then .error (.undefinedBehaviour "division by zero")
  else .ok ((w.endPoint - w.creationPoint).tdiv w.timeStepInSeconds)

end Multio.StatisticsMtg2.OperationWindow

namespace Multio.Statistics
open StatisticsMtg2 Exception

/-- `atol`: blanks, a sign and the digits that follow; anything else counts as zero. -/
def atol (s : String) : ℤ :=
  let digits (cs : List Char) : ℤ :=
    (cs.takeWhile Char.isDigit).foldl (fun n c => 10 * n + (c.toNat - '0'.toNat : ℕ)) 0
  match s.toList.dropWhile Char.isWhitespace with
  | '-' :: cs => -digits cs
  | '+' :: cs => digits cs
  | cs => digits cs

structure MappingParam where
  param : String
  operation : String
  outputFrequency : String
  newParam : String

structure RemapParamID where
  hasMapping : Bool := false
  paramIDMap : String → Option String := fun _ => none

namespace RemapParamID

def key (param operation outputFrequency : String) : String :=
  param ++ "_" ++ operation ++ "_" ++ outputFrequency ++ "\n"

def make (mappings : List MappingParam) : RemapParamID where
  hasMapping := !mappings.isEmpty
  paramIDMap k := (mappings.reverse.find? fun m =>
    k = key m.param m.operation m.outputFrequency).map MappingParam.newParam

/-- `paramId` has to be there, also where `param` is. -/
def applyRemap (ctx : StatisticsContext) (r : RemapParamID) (md : BaseMetadata)
    (opname outputFrequency : String) : Except Exception BaseMetadata :=
  if r.hasMapping then do
    let _ ← getString ctx.toStatisticsContext md "param"
    match ← getInt64 ctx.toStatisticsContext md "paramId" with
    | none => .error (.seriousBug "param/paramId metadata not present")
    | some paramId =>
      match r.paramIDMap (key (toString paramId) opname outputFrequency) with
      | none => .ok md
      | some newParam =>
        .ok ((md.set ctx.policy "paramId" (.int64 (atol newParam))).set ctx.policy "param"
          (.string newParam))
  else .ok md

end RemapParamID

structure Config where
  opt : StatisticsOptions
  operations : List String
  outputFrequency : String
  remapParamID : RemapParamID := {}

structure TemporalStatistics (ctx : StatisticsContext) where
  periodUpdater : PeriodUpdater
  window : OperationWindow
  statistics : List (Operation ctx.arithmetic)

variable {ctx : StatisticsContext}

def makeWindow (u : PeriodUpdater) (opt : StatisticsOptions)
    (cfg : StatisticsConfiguration ctx.arithmetic) : OperationWindow :=
  let startPoint := u.computeWinStartTime ctx.calendar (cfg.winStart opt)
  OperationWindow.make cfg.epoch startPoint
    (PeriodUpdater.computeWinCreationTime (cfg.winStart opt))
    (u.computeWinEndTime ctx.calendar startPoint) cfg.timeStep opt.windowType

/-- One turn of the loop of `make_operations`. -/
def makeOperation (opt : StatisticsOptions) (cfg : StatisticsConfiguration ctx.arithmetic)
    (precision : PrecisionTag) (payload : List UInt8) (opname : String) :
    Except Exception (Operation ctx.arithmetic) := do
  let kind ← OperationKind.ofName opname
  let op := Operation.make ctx.arithmetic kind precision payload.length
  if opt.solverSendInitStep then op.initData ctx opt cfg payload
  else if kind.needStepZero then
    .error (.userError ("Operation needs step zero and solver does not emit step zero :: " ++
      opname ++ "\n"))
  else .ok (op.init ctx)

def makeOperations (opt : StatisticsOptions) (cfg : StatisticsConfiguration ctx.arithmetic)
    (msg : Message) (operations : List String) : Except Exception (List (Operation ctx.arithmetic)) :=
  do
  let precision ← msg.precision ctx.toContext
  operations.mapM (makeOperation opt cfg precision msg.payload)

namespace TemporalStatistics

def make (conf : Config) (cfg : StatisticsConfiguration ctx.arithmetic) (msg : Message) :
    Except Exception (TemporalStatistics ctx) := do
  let periodUpdater ← makePeriodUpdater conf.outputFrequency
  let statistics ← makeOperations conf.opt cfg msg conf.operations
  .ok { periodUpdater, window := makeWindow periodUpdater conf.opt cfg, statistics }

/-- The operations are updated one after the other, all of them with the one window. -/
def updateOperations (opt : StatisticsOptions) (cfg : StatisticsConfiguration ctx.arithmetic)
    (payload : List UInt8) :
    OperationWindow → List (Operation ctx.arithmetic) →
      Except Exception (OperationWindow × List (Operation ctx.arithmetic))
  | win, [] => .ok (win, [])
  | win, op :: ops => do
    let (win, op) ← op.updateData ctx opt cfg payload win
    let (win, ops) ← updateOperations opt cfg payload win ops
    .ok (win, op :: ops)

variable (conf : Config) (cfg : StatisticsConfiguration ctx.arithmetic)
  (ts : TemporalStatistics ctx)

def updateData (payload : List UInt8) : Except Exception (TemporalStatistics ctx) := do
  let window ← ts.window.updateData ctx.toStatisticsContext cfg.currentDateTime
  let (window, statistics) ← updateOperations conf.opt cfg payload window ts.statistics
  .ok { ts with window, statistics }

def updateWindow (payload : List UInt8) : Except Exception (TemporalStatistics ctx) := do
  let window := ts.window.updateWindow ts.window.endPoint
    (ts.periodUpdater.updateWinEndTime ctx.calendar ts.window.endPoint)
  let statistics ← ts.statistics.mapM (Operation.updateWindow ctx conf.opt cfg payload)
  .ok { ts with window, statistics }

def isEndOfWindow : Bool := !ts.window.isWithin cfg.nextDateTime

def outputMetadata (md : BaseMetadata) : Except Exception BaseMetadata := do
  let win := ts.window
  let timeSpanInSteps ← win.timeSpanInSteps
  .ok ((((((((((md.set ctx.policy "sampleIntervalInSeconds" (.int64 win.lastPointsDiffInSeconds)).set
    ctx.policy "startDate" (.int64 (yyyymmdd ctx win.epochPoint))).set
    ctx.policy "startTime" (.int64 (hhmmss win.epochPoint))).set
    ctx.policy "step-frequency" (.int64 timeSpanInSteps)).set
    ctx.policy "previousDate" (.int64 (yyyymmdd ctx win.creationPoint))).set
    ctx.policy "previousTime" (.int64 (hhmmss win.creationPoint))).set
    ctx.policy "currentDate" (.int64 (yyyymmdd ctx win.endPoint))).set
    ctx.policy "currentTime" (.int64 (hhmmss win.endPoint))).set
    ctx.policy "startStepInHours" (.int64 win.creationPointInHours)).set
    ctx.policy "endStepInHours" (.int64 win.endPointInHours))

/-- The loop over the operations; a parameter that was mapped for one stays mapped for the next. -/
def emitOperations (win : OperationWindow) (source destination : Peer) :
    BaseMetadata → List (Operation ctx.arithmetic) → Except Exception (List Message)
  | _, [] => .ok []
  | md, op :: ops => do
    let md := (md.set ctx.policy "operation" (.string op.kind.operation)).set ctx.policy
      "operation-frequency" (.string conf.outputFrequency)
    let md ← conf.remapParamID.applyRemap ctx md op.kind.operation conf.outputFrequency
    let payload ← op.compute ctx conf.opt cfg win
    let out ← emitOperations win source destination md ops
    .ok ({ header := { tag := .field, source, destination, metadata := md }, payload } :: out)

def emit (msg : Message) : Except Exception (List Message) := do
  let md ← ts.outputMetadata msg.metadata
  emitOperations conf cfg ts.window msg.source msg.destination md ts.statistics

/-- What follows an update: a window that ends here is emitted and the next one begins. -/
def closeWindow (msg : Message) : Except Exception (TemporalStatistics ctx × List Message) :=
  if ts.isEndOfWindow cfg then do
    let out ← ts.emit conf cfg msg
    let ts ← ts.updateWindow conf cfg msg.payload
    .ok (ts, out)
  else .ok (ts, [])

def outOfOrder : Exception :=
  .seriousBug ("Current time is greater than the current point in the window :: " ++
    toString (yyyymmdd ctx cfg.curr) ++ " " ++ toString (hhmmss cfg.curr) ++ " " ++
    toString (yyyymmdd ctx ts.window.currPoint) ++ " " ++
    toString (hhmmss ts.window.currPoint) ++ "\n")

/-- The part of `executeImpl` that follows the look-up of the field. -/
def process (msg : Message) : Except Exception (TemporalStatistics ctx × List Message) :=
  if cfg.curr = ts.window.currPoint ∧ conf.opt.solverSendInitStep then .ok (ts, [])
  else if cfg.curr ≤ ts.window.currPoint then .error (ts.outOfOrder cfg)
  else do
    let ts ← ts.updateData conf cfg msg.payload
    ts.closeWindow conf cfg msg

end TemporalStatistics
end Multio.Statistics
