import Multio.Action.StatisticsMtg2.OperationWindow

namespace Multio.StatisticsMtg2
open Exception

inductive OperationKind
  | instant
  | average
  | difference
  | inverseDifference
  | minimum
  | maximum
  | accumulate
  | stddev
  deriving DecidableEq, Repr

namespace OperationKind

def name : OperationKind → String
  | .instant => "instant"
  | .average => "average"
  | .difference => "difference"
  | .inverseDifference => "inverse-difference"
  | .minimum => "minimum"
  | .maximum => "maximum"
  | .accumulate => "accumulate"
  | .stddev => "stddev"

/-- The operation that `make_operation` makes for a name. -/
def ofName : String → Except Exception OperationKind
  | "instant" => .ok .instant
  | "average" => .ok .average
  | "difference" => .ok .difference
  | "inverse-difference" => .ok .inverseDifference
  | "minimum" => .ok .minimum
  | "maximum" => .ok .maximum
  | "accumulate" => .ok .accumulate
  | "stddev" => .ok .stddev
  | opname => .error (.userError ("Invalid opname in statistics operation :: " ++ opname ++ "\n"))

/-- The operations derived from `OperationWithDeaccumulatedData`. -/
def deaccumulated : OperationKind → Bool
  | .difference | .inverseDifference => true
  | _ => false

def needStepZero (k : OperationKind) : Bool := k.deaccumulated

def isComposable : OperationKind → Bool
  | .average | .minimum | .maximum | .accumulate => true
  | _ => false

def supportsSH : OperationKind → Bool
  | .instant | .average => true
  | _ => false

/-- The value that `OperationWithData` begins each window with. -/
def initialValue (A : FloatArithmetic) (p : PrecisionTag) : OperationKind → A.Real p
  | .maximum => A.limitsMin p
  | .minimum => A.limitsMax p
  | _ => A.ofLong 0

end OperationKind

structure Operation (A : FloatArithmetic) where
  kind : OperationKind
  precision : PrecisionTag
  values : List (A.Real precision)
  initValues : List (A.Real precision) := []
  mean : List (A.Real precision) := []

/-- How the values are updated: with the missing value and the counters, if there are any. -/
inductive UpdateMode (A : FloatArithmetic)
  | withoutMissing
  | withMissing (m : A.Real .double)
  | withMissingAndCounters (m : A.Real .double)

def UpdateMode.of {A : FloatArithmetic} (missing : Option (A.Real .double)) (threshold : Option ℤ) :
    UpdateMode A :=
  match missing with
  | none => .withoutMissing
  | some m => if threshold.isSome then .withMissingAndCounters m else .withMissing m

theorem UpdateMode.of_eq_counters {A : FloatArithmetic} {missing : Option (A.Real .double)}
    {threshold : Option ℤ} {m : A.Real .double}
    (h : UpdateMode.of missing threshold = .withMissingAndCounters m) :
    missing.isSome ∧ threshold.isSome := by
  cases missing with
  | none => cases h
  | some m' =>
    unfold UpdateMode.of at h
    dsimp only at h
    split_ifs at h with ht
    exact ⟨rfl, ht⟩

def UpdateMode.make {A : FloatArithmetic} (opt : StatisticsOptions)
    (cfg : StatisticsConfiguration A) : UpdateMode A :=
  .of cfg.missingValue opt.valueCountThreshold

section

variable (A : FloatArithmetic) {p : PrecisionTag}

def isMissing (m : A.Real .double) (v : A.Real p) : Bool := A.equal m (A.toDouble v)

/-- `m == v1 || m == v2 ? m : f(v1, v2)`. -/
def unlessMissing (m : A.Real .double) (f : A.Real p → A.Real p → A.Real p) (v1 v2 : A.Real p) :
    A.Real p :=
  if isMissing A m v1 || isMissing A m v2 then A.ofDouble m else f v1 v2

/-- `m == v2 ? v1 : f(v1, v2)`. -/
def skipMissing (m : A.Real .double) (f : A.Real p → A.Real p → A.Real p) (v1 v2 : A.Real p) :
    A.Real p :=
  if isMissing A m v2 then v1 else f v1 v2

def icntpp (c : ℤ) : A.Real .double := A.div (A.ofLong 1) (A.ofLong c)

def sc (v : A.Real .double) (c : ℤ) : A.Real .double := A.mul (A.ofLong (c - 1)) v

/-- The mean of `c` values, the last of which is `v2`. -/
def average (c : ℤ) (v1 v2 : A.Real p) : A.Real p :=
  let c2 := icntpp A c
  let c1 := sc A c2 c
  A.ofDouble (A.add (A.mul (A.toDouble v1) c1) (A.mul (A.toDouble v2) c2))

def maximum (v1 v2 : A.Real p) : A.Real p := if A.less v2 v1 then v1 else v2
def minimum (v1 v2 : A.Real p) : A.Real p := if A.less v1 v2 then v1 else v2

/-- The mean and the sum of squares of `c` values, the last of which is `v`. -/
def welford (c : ℤ) (mean value v : A.Real p) : A.Real p × A.Real p :=
  let mean' := A.ofDouble (A.add (A.toDouble mean)
    (A.mul (A.div (A.ofLong 1) (A.ofLong c)) (A.toDouble (A.sub v mean))))
  (mean', A.add value (A.mul (A.sub v mean) (A.sub v mean')))

variable (mode : UpdateMode A)

def combineValues (f : A.Real p → A.Real p → A.Real p) (values val : List (A.Real p)) :
    List (A.Real p) :=
  match mode with
  | .withoutMissing => List.zipWith f values val
  | .withMissing m => List.zipWith (unlessMissing A m f) values val
  | .withMissingAndCounters m => List.zipWith (skipMissing A m f) values val

def accumulateValues (values val : List (A.Real p)) : List (A.Real p) :=
  match mode with
  | .withoutMissing => List.zipWith A.add values val
  | .withMissing m | .withMissingAndCounters m => List.zipWith (unlessMissing A m A.add) values val

def averageValues (count : ℤ) (counts : List ℤ) (values val : List (A.Real p)) :
    List (A.Real p) :=
  match mode with
  | .withoutMissing => List.zipWith (average A count) values val
  | .withMissing m => List.zipWith (unlessMissing A m (average A count)) values val
  | .withMissingAndCounters m =>
    List.zipWith3 (fun v1 v2 c => skipMissing A m (average A c) v1 v2) values val counts

end

theorem length_ite_replicate {α : Type} (c : Prop) [Decidable c] (n : ℕ) (x : α) :
    (if c then List.replicate n x else []).length = if c then n else 0 := by
  split_ifs
  · exact List.length_replicate
  · rfl

theorem length_zipWith3 {α β γ δ : Type} (f : α → β → γ → δ) (xs : List α) (ys : List β)
    (zs : List γ) : (List.zipWith3 f xs ys zs).length =
      min xs.length (min ys.length zs.length) := by
  induction xs generalizing ys zs with
  | nil => simp [List.zipWith3]
  | cons x xs ih =>
    cases ys with
    | nil => simp [List.zipWith3]
    | cons y ys =>
      cases zs with
      | nil => simp [List.zipWith3]
      | cons z zs =>
        rw [List.zipWith3, List.length_cons, ih]
        simp only [List.length_cons]
        omega

section

variable {A : FloatArithmetic} {p : PrecisionTag} {mode : UpdateMode A} {values val : List (A.Real p)}
  {n : ℕ} (hvalues : values.length = n) (hval : val.length = n)

include hvalues hval

theorem length_combineValues {f : A.Real p → A.Real p → A.Real p} :
    (combineValues A mode f values val).length = n := by
  cases mode <;> exact List.length_zipWith.trans (by rw [hvalues, hval, min_self])

theorem length_accumulateValues : (accumulateValues A mode values val).length = n := by
  cases mode <;> exact List.length_zipWith.trans (by rw [hvalues, hval, min_self])

theorem length_averageValues {count : ℤ} {counts : List ℤ}
    (hcounts : ∀ m, mode = .withMissingAndCounters m → counts.length = n) :
    (averageValues A mode count counts values val).length = n := by
  cases mode with
  | withMissingAndCounters m =>
    refine (length_zipWith3 _ _ _ _).trans ?_
    rw [hvalues, hval, hcounts m rfl, min_self, min_self]
  | _ => exact List.length_zipWith.trans (by rw [hvalues, hval, min_self])

end

/-- The operations whose updates advance the counters of the window. -/
def OperationKind.usesCounters : OperationKind → Bool
  | .average | .minimum | .maximum | .stddev => true
  | _ => false

namespace Operation

variable (ctx : StatisticsContext) (opt : StatisticsOptions)

/-- `make_operation` for messages of `sz` bytes. -/
def make (A : FloatArithmetic) (kind : OperationKind) (precision : PrecisionTag) (sz : ℕ) :
    Operation A where
  kind
  precision
  values := List.replicate (sz / precision.size) (kind.initialValue A precision)
  initValues :=
    if kind.deaccumulated then List.replicate (sz / precision.size) (A.ofLong 0) else []
  mean := if kind = .stddev then List.replicate (sz / precision.size) (A.ofLong 0) else []

section

variable {A : FloatArithmetic} (op : Operation A)

def logHeader : String := "operation(" ++ op.kind.name ++ ")"

def byteSize : ℕ := op.values.length * op.precision.size

def checkSize (sz : ℕ) : Except Exception Unit :=
  if op.values.length = sz / op.precision.size then .ok ()
  else .error (.assertionFailed (op.logHeader ++ " :: Expected size: " ++
    toString op.values.length ++ " -- actual size: " ++ toString sz))

/-- The values after a message with the values `val`, in a window of `count` messages. -/
def updateValues (mode : UpdateMode A) (count : ℤ) (counts : List ℤ)
    (val : List (A.Real op.precision)) : Operation A :=
  match op.kind, mode with
  | .instant, _ | .difference, _ | .inverseDifference, _ => { op with values := val }
  | .accumulate, mode => { op with values := accumulateValues A mode op.values val }
  | .maximum, mode => { op with values := combineValues A mode (maximum A) op.values val }
  | .minimum, mode => { op with values := combineValues A mode (minimum A) op.values val }
  | .average, mode => { op with values := averageValues A mode count counts op.values val }
  | .stddev, .withoutMissing =>
    let new := List.zipWith3 (fun mean value v => welford A count mean value v)
      op.mean op.values val
    { op with mean := new.map Prod.fst, values := new.map Prod.snd }
  | .stddev, .withMissing m =>
    let new := List.zipWith3 (fun mean value v =>
      if isMissing A m v then (mean, value) else welford A count mean value v)
      op.mean op.values val
    { op with mean := new.map Prod.fst, values := new.map Prod.snd }
  | .stddev, .withMissingAndCounters m =>
    let new := List.zipWith3 (fun (mean, c) value v =>
      if isMissing A m v then (mean, value) else welford A c mean value v)
      (op.mean.zip counts) op.values val
    { op with mean := new.map Prod.fst, values := new.map Prod.snd }

end

/-- The window with its counters advanced, if the operation does so. -/
def updateCounts (win : OperationWindow) (op : Operation ctx.arithmetic)
    (mode : UpdateMode ctx.arithmetic) (val : List (ctx.arithmetic.Real op.precision)) :
    Except Exception OperationWindow :=
  match op.kind.usesCounters, mode with
  | true, .withMissingAndCounters m =>
    win.updateCounts ctx (val.map (isMissing ctx.arithmetic m)) op.values.length
  | _, _ => .ok win

def updateData (cfg : StatisticsConfiguration ctx.arithmetic) (payload : List UInt8)
    (win : OperationWindow) (op : Operation ctx.arithmetic) :
    Except Exception (OperationWindow × Operation ctx.arithmetic) := do
  op.checkSize payload.length
  let val := ctx.arithmetic.elements op.precision payload
  let mode := UpdateMode.make opt cfg
  let win ← updateCounts ctx win op mode val
  .ok (win, op.updateValues mode win.count win.counts val)

/-- Whether the solver begins to accumulate the field anew with this message. -/
def solverResetAccumulatedField (cfg : StatisticsConfiguration ctx.arithmetic)
    (win : OperationWindow) : Except Exception Bool :=
  match cfg.timespan with
  | none => .ok false
  | some timespan =>
    match ctx.operationMapping cfg.param with
    | none => .error (.seriousBug
        ("Metadata has timespan, but param is not known to be statistical! : param=" ++
          toString cfg.param))
    | some op =>
      if op ≠ 1 then .ok false
      else
        let timeDiff := (cfg.curr - win.prevPoint).tdiv 3600
        if timespan < timeDiff then
          .error (.seriousBug "Window is not alligned with accumulation reset!")
        else .ok (timeDiff = timespan)

def zeros {A : FloatArithmetic} {p : PrecisionTag} (xs : List (A.Real p)) : List (A.Real p) :=
  xs.map fun _ => A.ofLong 0

def updateWindow (cfg : StatisticsConfiguration ctx.arithmetic) (sz : ℕ) (win : OperationWindow)
    (op : Operation ctx.arithmetic) : Except Exception (Operation ctx.arithmetic) :=
  if op.kind.deaccumulated then do
    op.checkSize sz
    let reset ← solverResetAccumulatedField ctx cfg win
    if reset then .ok { op with initValues := zeros op.initValues, values := zeros op.values }
    else .ok { op with values := zeros op.values }
  else
    .ok { op with values := op.values.map fun _ => op.kind.initialValue ctx.arithmetic op.precision }

/-- `init` with the values of the initial condition. -/
def initData (cfg : StatisticsConfiguration ctx.arithmetic) (payload : List UInt8)
    (win : OperationWindow) (op : Operation ctx.arithmetic) :
    Except Exception (Operation ctx.arithmetic) :=
  if op.kind.deaccumulated then do
    op.checkSize payload.length
    let reset ← solverResetAccumulatedField ctx cfg win
    if reset then .ok { op with initValues := zeros op.initValues, values := zeros op.values }
    else .ok { op with initValues := ctx.arithmetic.elements op.precision payload,
                       values := zeros op.values }
  else .ok op

/-- `init` without an initial condition. -/
def init (op : Operation ctx.arithmetic) : Operation ctx.arithmetic :=
  if op.kind.deaccumulated then
    { op with initValues := zeros op.initValues, values := zeros op.values }
  else op

/-- The values, or the missing value where there were too few values. -/
def computeWithThreshold (A : FloatArithmetic) {p : PrecisionTag} (t : ℤ) (m : A.Real .double)
    (f : A.Real p → ℤ → A.Real p) (values : List (A.Real p)) (counts : List ℤ) :
    Except Exception (List (A.Real p)) :=
  if counts.length < values.length then .error (.undefinedBehaviour "read outside of the counters")
  else .ok (List.zipWith (fun v c => if c < t then A.ofDouble m else f v c) values counts)

def emittedValues (A : FloatArithmetic) {p : PrecisionTag} (missing : Option (A.Real .double))
    (threshold : Option ℤ) (values : List (A.Real p)) (counts : List ℤ) :
    Except Exception (List (A.Real p)) :=
  match missing, threshold with
  | some m, some t => computeWithThreshold A t m (fun v _ => v) values counts
  | _, _ => .ok values

theorem exists_emittedValues {A : FloatArithmetic} {p : PrecisionTag}
    {missing : Option (A.Real .double)} {threshold : Option ℤ} {values : List (A.Real p)}
    {counts : List ℤ}
    (h : missing.isSome → threshold.isSome → counts.length = values.length) :
    ∃ out, emittedValues A missing threshold values counts = .ok out := by
  unfold emittedValues
  split
  · unfold computeWithThreshold
    rw [if_neg (h rfl rfl).ge.not_gt]
    exact ⟨_, rfl⟩
  · exact ⟨_, rfl⟩

def computeValues (cfg : StatisticsConfiguration ctx.arithmetic) (win : OperationWindow)
    (op : Operation ctx.arithmetic) :
    Except Exception (List (ctx.arithmetic.Real op.precision)) :=
  let A := ctx.arithmetic
  match op.kind, cfg.missingValue, opt.valueCountThreshold with
  | .instant, _, _ | .accumulate, _, _ => .ok op.values
  | .difference, none, _ => .ok (List.zipWith A.sub op.values op.initValues)
  | .difference, some m, _ => .ok (List.zipWith (unlessMissing A m A.sub) op.values op.initValues)
  | .inverseDifference, none, _ =>
    .ok (List.zipWith (fun v1 v2 => A.sub v2 v1) op.values op.initValues)
  | .inverseDifference, some m, _ =>
    .ok (List.zipWith (unlessMissing A m fun v1 v2 => A.sub v2 v1) op.values op.initValues)
  | .stddev, some m, some t =>
    computeWithThreshold A t m (fun v c => A.sqrt (A.div v (A.ofLong c))) op.values win.counts
  | .stddev, _, _ =>
    .ok (op.values.map fun v => A.ofDouble (A.sqrt
      (A.mul (A.toDouble v) (A.div (A.ofLong 1) (A.ofLong win.count)))))
  | _, missing, threshold => emittedValues A missing threshold op.values win.counts

/-- The payload; differences begin anew with the current values. -/
def compute (cfg : StatisticsConfiguration ctx.arithmetic) (win : OperationWindow)
    (op : Operation ctx.arithmetic) : Except Exception (Operation ctx.arithmetic × List UInt8) := do
  let values ← computeValues ctx opt cfg win op
  .ok (if op.kind.deaccumulated then { op with initValues := op.values } else op,
    ctx.arithmetic.bytes op.precision values)

end Operation
end Multio.StatisticsMtg2
