import Multio.Action.Statistics.Configuration
import Multio.Action.StatisticsMtg2.Operations

namespace Multio.Statistics
open StatisticsMtg2 Exception
open StatisticsMtg2.Operation (zeros emittedValues)

inductive OperationKind
  | instant
  | average
  | difference
  | inverseDifference
  | fluxAverage
  | minimum
  | maximum
  | accumulate
  | deAccumulate
  | fixedWindowFluxAverage
  deriving DecidableEq, Repr

namespace OperationKind

def name : OperationKind → String
  | .instant => "instant"
  | .average => "average"
  | .difference => "difference"
  | .inverseDifference => "inverse-difference"
  | .fluxAverage => "flux-average"
  | .minimum => "minimum"
  | .maximum => "maximum"
  | .accumulate => "accumulate"
  | .deAccumulate => "de-accumulate"
  | .fixedWindowFluxAverage => "fixed-window-flux-average"

def operation : OperationKind → String
  | .fluxAverage | .fixedWindowFluxAverage => "average"
  | .deAccumulate => "accumulate"
  | k => k.name

/-- The operation that `make_operation` and `load_operation` make for a name. -/
def ofName : String → Except Exception OperationKind
  | "instant" => .ok .instant
  | "average" => .ok .average
  | "difference" => .ok .difference
  | "inverse-difference" => .ok .inverseDifference
  | "flux-average" => .ok .fluxAverage
  | "minimum" => .ok .minimum
  | "maximum" => .ok .maximum
  | "accumulate" => .ok .accumulate
  | "de-accumulate" => .ok .deAccumulate
  | "fixed-window-flux-average" => .ok .fixedWindowFluxAverage
  | opname => .error (.userError ("Invalid opname in statistics operation :: " ++ opname ++ "\n"))

theorem ofName_name (k : OperationKind) : ofName k.name = .ok k := by
  cases k <;> rfl

theorem name_of_ofName {s : String} {k : OperationKind} (h : ofName s = .ok k) : k.name = s := by
  unfold ofName at h
  split at h <;> first | exact Except.ok.inj h ▸ rfl | cases h

/-- The operations derived from `OperationWithDeaccumulatedData`. -/
def deaccumulated : OperationKind → Bool
  | .difference | .inverseDifference | .deAccumulate | .fixedWindowFluxAverage => true
  | _ => false

def needStepZero (k : OperationKind) : Bool := k.deaccumulated

/-- The value that `OperationWithData` begins each window with. -/
def initialValue (A : FloatArithmetic) (p : PrecisionTag) : OperationKind → A.Real p
  | .maximum => A.limitsMin p
  | .minimum => A.limitsMax p
  | _ => A.ofLong 0

/-- The operations whose updates advance the counters of the window. -/
def usesCounters : OperationKind → Bool
  | .average | .minimum | .maximum => true
  | _ => false

end OperationKind

structure Operation (A : FloatArithmetic) where
  kind : OperationKind
  precision : PrecisionTag
  values : List (A.Real precision)
  initValues : List (A.Real precision) := []

/-- How the values are updated: with the missing value and the counters, if there are any. -/
def updateMode {A : FloatArithmetic} (opt : StatisticsOptions) (cfg : StatisticsConfiguration A) :
    UpdateMode A :=
  .of cfg.missingValue opt.valueCountThreshold

namespace Operation

/-- `make_operation` for messages of `sz` bytes. -/
def make (A : FloatArithmetic) (kind : OperationKind) (precision : PrecisionTag) (sz : ℕ) :
    Operation A where
  kind
  precision
  values := List.replicate (sz / precision.size) (kind.initialValue A precision)
  initValues :=
    if kind.deaccumulated then List.replicate (sz / precision.size) (A.ofLong 0) else []

section

variable {A : FloatArithmetic} (op : Operation A)

def logHeader : String := "operation(" ++ op.kind.name ++ ")"

def byteSize : ℕ := op.values.length * op.precision.size

def checkSize (sz : ℕ) : Except Exception Unit :=
  if op.values.length = sz / op.precision.size then .ok ()
  else .error (.assertionFailed (op.logHeader ++ " :: Expected size: " ++
    toString op.values.length ++ " -- actual size: " ++ toString sz))

def checkTimeInterval (cfg : StatisticsConfiguration A) (win : OperationWindow) :
    Except Exception Unit :=
  if win.count * cfg.stepFreq * cfg.timeStep = 0 then
    .error (.seriousBug (op.logHeader ++ " :: Divide by zero"))
  else .ok ()

/-- The values after a message with the values `val`, in a window of `count` messages. -/
def updateValues (mode : UpdateMode A) (count : ℤ) (counts : List ℤ)
    (val : List (A.Real op.precision)) : Operation A :=
  match op.kind with
  | .accumulate => { op with values := accumulateValues A mode op.values val }
  | .maximum =>
    { op with values := combineValues A mode (StatisticsMtg2.maximum A) op.values val }
  | .minimum =>
    { op with values := combineValues A mode (StatisticsMtg2.minimum A) op.values val }
  | .average => { op with values := averageValues A mode count counts op.values val }
  -- the other operations keep the values of the last message
  | _ => { op with values := val }

end

variable (ctx : StatisticsContext) (opt : StatisticsOptions)

/-- The window with its counters advanced, if the operation does so. -/
def updateCounts (win : OperationWindow) (op : Operation ctx.arithmetic)
    (mode : UpdateMode ctx.arithmetic) (val : List (ctx.arithmetic.Real op.precision)) :
    Except Exception OperationWindow :=
  match op.kind.usesCounters, mode with
  | true, .withMissingAndCounters m =>
    win.updateCounts ctx.toStatisticsContext (val.map (isMissing ctx.arithmetic m))
      op.values.length
  | _, _ => .ok win

def updateData (cfg : StatisticsConfiguration ctx.arithmetic) (payload : List UInt8)
    (win : OperationWindow) (op : Operation ctx.arithmetic) :
    Except Exception (OperationWindow × Operation ctx.arithmetic) := do
  op.checkSize payload.length
  let val := ctx.arithmetic.elements op.precision payload
  let mode := updateMode opt cfg
  let win ← updateCounts ctx win op mode val
  .ok (win, op.updateValues mode win.count win.counts val)

/-- A window begins with the values of a message, unless the solver has just reset its fields. -/
def restartFrom (cfg : StatisticsConfiguration ctx.arithmetic) (payload : List UInt8)
    (op : Operation ctx.arithmetic) : Except Exception (Operation ctx.arithmetic) := do
  op.checkSize payload.length
  if isBeginningOf ctx opt.solverResetAccumulatedFields cfg.currentDateTime then
    .ok { op with initValues := zeros op.initValues, values := zeros op.values }
  else
    .ok { op with initValues := ctx.arithmetic.elements op.precision payload,
                  values := zeros op.values }

def updateWindow (cfg : StatisticsConfiguration ctx.arithmetic) (payload : List UInt8)
    (op : Operation ctx.arithmetic) : Except Exception (Operation ctx.arithmetic) :=
  if op.kind.deaccumulated then restartFrom ctx opt cfg payload op
  else
    .ok { op with values := op.values.map fun _ => op.kind.initialValue ctx.arithmetic op.precision }

/-- `init` with the values of the initial condition. -/
def initData (cfg : StatisticsConfiguration ctx.arithmetic) (payload : List UInt8)
    (op : Operation ctx.arithmetic) : Except Exception (Operation ctx.arithmetic) :=
  if op.kind.deaccumulated then restartFrom ctx opt cfg payload op else .ok op

/-- `init` without an initial condition. -/
def init (op : Operation ctx.arithmetic) : Operation ctx.arithmetic :=
  if op.kind.deaccumulated then
    { op with initValues := zeros op.initValues, values := zeros op.values }
  else op

/-- One over the seconds that the messages of the window stand for. -/
def fluxFactor (A : FloatArithmetic) (cfg : StatisticsConfiguration A) (win : OperationWindow) :
    A.Real .double :=
  A.div (A.ofLong 1) (A.ofLong (win.count * cfg.stepFreq * cfg.timeStep))

def scaled (A : FloatArithmetic) {p : PrecisionTag} (c : A.Real .double) (v : A.Real p) : A.Real p :=
  A.ofDouble (A.mul (A.toDouble v) c)

def computeValues (cfg : StatisticsConfiguration ctx.arithmetic) (win : OperationWindow)
    (op : Operation ctx.arithmetic) :
    Except Exception (List (ctx.arithmetic.Real op.precision)) :=
  let A := ctx.arithmetic
  match op.kind, cfg.missingValue with
  | .instant, _ | .accumulate, _ => .ok op.values
  | .difference, none | .deAccumulate, none => .ok (List.zipWith A.sub op.values op.initValues)
  | .difference, some m | .deAccumulate, some m =>
    .ok (List.zipWith (unlessMissing A m A.sub) op.values op.initValues)
  | .inverseDifference, none => .ok (List.zipWith (fun v1 v2 => A.sub v2 v1) op.values op.initValues)
  | .inverseDifference, some m =>
    .ok (List.zipWith (unlessMissing A m fun v1 v2 => A.sub v2 v1) op.values op.initValues)
  | .fluxAverage, none => .ok (op.values.map (scaled A (fluxFactor A cfg win)))
  | .fluxAverage, some m =>
    .ok (op.values.map fun v =>
      if isMissing A m v then A.ofDouble m else scaled A (fluxFactor A cfg win) v)
  | .fixedWindowFluxAverage, none =>
    .ok (List.zipWith (fun v1 v2 => scaled A (fluxFactor A cfg win) (A.sub v1 v2))
      op.values op.initValues)
  | .fixedWindowFluxAverage, some m =>
    .ok (List.zipWith
      (unlessMissing A m fun v1 v2 => scaled A (fluxFactor A cfg win) (A.sub v1 v2))
      op.values op.initValues)
  -- average, minimum and maximum
  | _, missing => emittedValues A missing opt.valueCountThreshold op.values win.counts

/-- `compute`, with the payload that it fills. -/
def compute (cfg : StatisticsConfiguration ctx.arithmetic) (win : OperationWindow)
    (op : Operation ctx.arithmetic) : Except Exception (List UInt8) := do
  op.checkTimeInterval cfg win
  let values ← computeValues ctx opt cfg win op
  .ok (ctx.arithmetic.bytes op.precision values)

end Operation
end Multio.Statistics
