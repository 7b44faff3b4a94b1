import Multio.Action.Statistics.TemporalStatistics

namespace Multio.Statistics
open Lib StatisticsMtg2 Exception

/-- One file: the size of the field and the words that were written, each as a signed number. -/
structure RestartFile where
  fieldSize : ℕ
  words : List ℤ
  deriving DecidableEq

/-- The files of a directory by their base names, in the order in which they were created. -/
abbrev RestartFiles := List (String × RestartFile)

/-- What is given: how directories are listed, and `eckit::Date` and `eckit::Time` from parts. -/
structure RestartLibrary where
  listing : List String → List String
  makeDate : ℤ → ℤ → ℤ → Except Exception ℤ
  makeTime : ℤ → ℤ → ℤ → Except Exception ℤ
  /-- Whether a folder that is waited for gets created by another process. -/
  masterCreates : String → Bool

def RestartFiles.write (files : RestartFiles) (name : String) (file : RestartFile) : RestartFiles :=
  if files.any fun f => f.1 = name then files.map fun f => if f.1 = name then (name, file) else f
  else files ++ [(name, file)]

def RestartFiles.file (files : RestartFiles) (name : String) : Except Exception RestartFile :=
  match files.find? fun f => f.1 = name with
  | some f => .ok f.2
  | none => .error (.seriousBug ("ERROR : wrong file not exist : (" ++ name ++ ")"))

def RestartFiles.read (files : RestartFiles) (name : String) (readSize : ℕ) :
    Except Exception (List ℤ) := do
  let file ← files.file name
  if file.words.length = readSize then .ok file.words
  else .error (.seriousBug ("ERROR : wrong file size for restart : (" ++ name ++ ")"))

def sumWord (words : List ℤ) : ℤ :=
  let sum : UInt64 := words.foldl (fun sum (w : ℤ) =>
    ((sum <<< 1) * 31) ^^^ UInt64.ofNat (w % 2 ^ 64).toNat) 1979339339
  (sum.toNat : ℤ)

/-- An `int` counts the words before the last one. -/
def checksum (words : List ℤ) : Except Exception ℤ :=
  if 2 ^ 31 ≤ words.length then .error (.undefinedBehaviour "overflow of an int")
  else .ok (sumWord words)

/-- `computeChecksum`, which fills the last word. -/
def computeChecksum (words : List ℤ) : Except Exception (List ℤ) := do
  .ok (words ++ [← checksum words])

/-- `checkChecksum`, with the words before the last one. -/
def checkChecksum (words : List ℤ) : Except Exception (List ℤ) := do
  if words.getLast? = some (← checksum words.dropLast) then .ok words.dropLast
  else .error (.seriousBug "ERROR : wrong Checksum")

theorem computeChecksum_eq_ok_iff {words ws : List ℤ} :
    computeChecksum words = .ok ws ↔ words.length < 2 ^ 31 ∧ ws = words ++ [sumWord words] := by
  unfold computeChecksum checksum
  split_ifs with h
  · constructor
    · intro heq
      cases heq
    · exact fun heq => absurd h (not_le.mpr heq.1)
  · constructor
    · exact fun heq => ⟨not_le.mp h, (Except.ok.inj heq).symm⟩
    · rintro ⟨-, rfl⟩
      rfl

theorem checkChecksum_sumWord {words : List ℤ} (h : words.length < 2 ^ 31) :
    checkChecksum (words ++ [sumWord words]) = .ok words := by
  unfold checkChecksum checksum
  rw [List.getLast?_concat, List.dropLast_concat, if_neg (not_le.mpr h), ok_bind, if_pos rfl]

def lastDayOfTheMonth (y m : ℤ) : ℤ :=
  let i := m - 1
  31 - (max 0 (i.tmod 6 - i.tdiv 6)).tmod 2 -
    (max 0 (2 - i * i.tmod 2)).tmod 2 *
      (if y.tmod 4 = 0 then if y.tmod 100 = 0 then if y.tmod 400 = 0 then 1 else 2 else 1 else 2)

def yyyymmdd2ymd (yyyymmdd : ℤ) : Except Exception (ℤ × ℤ × ℤ) :=
  let d := yyyymmdd.tmod 100
  let m := (yyyymmdd.tmod 10000).tdiv 100
  let y := (yyyymmdd.tmod 100000000).tdiv 10000
  if m < 1 ∨ 12 < m then .error (.seriousBug "invalid month range")
  else if d < 1 ∨ lastDayOfTheMonth y m < d then .error (.seriousBug "invalid day range")
  else .ok (y, m, d)

def hhmmss2hms (hhmmss : ℤ) : Except Exception (ℤ × ℤ × ℤ) :=
  let s := hhmmss.tmod 100
  let m := (hhmmss.tmod 10000).tdiv 100
  let h := (hhmmss.tmod 1000000).tdiv 10000
  if s < 0 ∨ 59 < s then .error (.seriousBug "invalid seconds range")
  else if m < 0 ∨ 59 < m then .error (.seriousBug "invalid minutes range")
  else if h < 0 ∨ 23 < h then .error (.seriousBug "invalid hour range")
  else .ok (h, m, s)

def yyyymmdd_hhmmss2DateTime (lib : RestartLibrary) (yyyymmdd hhmmss : ℤ) :
    Except Exception DateTime := do
  let (dy, dm, dd) ← yyyymmdd2ymd yyyymmdd
  let (th, tm, ts) ← hhmmss2hms hhmmss
  let date ← lib.makeDate dy dm dd
  let time ← lib.makeTime th tm ts
  .ok (dateTime date time)

namespace PeriodRestart

def dump (u : PeriodUpdater) : Except Exception RestartFiles := do
  .ok (RestartFiles.write [] u.timeUnit.name { fieldSize := 1, words := ← computeChecksum [u.span] })

def timeUnit (periodKind : String) : Except Exception TimeUnit :=
  match periodKind with
  | "hour" => .ok .hour
  | "day" => .ok .day
  | "month" => .ok .month
  | _ => .error (.seriousBug ("Unknown period kind : " ++ periodKind))

/-- `load_period_updater`. -/
def load (lib : RestartLibrary) (files : RestartFiles) : Except Exception PeriodUpdater :=
  match lib.listing (files.map Prod.fst) with
  | [] => .error (.seriousBug "No files found in: periodUpdater")
  | [name] => do
    let timeUnit ← timeUnit name
    let words ← checkChecksum (← files.read name 2)
    .ok { timeUnit, span := words.headD 0 }
  | _ => .error (.seriousBug "More than one file found in: periodUpdater")

end PeriodRestart

namespace WindowRestart

def typeWord : WindowType → ℤ
  | .forwardOffset => 0
  | .backwardOffset => 1

def ofTypeWord (w : ℤ) : Except Exception WindowType :=
  if w = 0 then .ok .forwardOffset
  else if w = 1 then .ok .backwardOffset
  else .error (.seriousBug " Unknown window type \n")

def serialize (ctx : StatisticsContext) (w : OperationWindow) : List ℤ :=
  [yyyymmdd ctx w.epochPoint, hhmmss w.epochPoint,
   yyyymmdd ctx w.startPoint, hhmmss w.startPoint,
   yyyymmdd ctx w.endPoint, hhmmss w.endPoint,
   yyyymmdd ctx w.creationPoint, hhmmss w.creationPoint,
   yyyymmdd ctx w.prevPoint, hhmmss w.prevPoint,
   yyyymmdd ctx w.currPoint, hhmmss w.currPoint,
   yyyymmdd ctx w.lastFlush, hhmmss w.lastFlush,
   w.timeStepInSeconds, w.count, typeWord w.windowType, w.counts.length] ++ w.counts

def deserialize (lib : RestartLibrary) : List ℤ → Except Exception OperationWindow
  | e :: e' :: s :: s' :: n :: n' :: c :: c' :: p :: p' :: u :: u' :: l :: l' ::
      timeStepInSeconds :: count :: type :: countsSize :: counts => do
    let epochPoint ← yyyymmdd_hhmmss2DateTime lib e e'
    let startPoint ← yyyymmdd_hhmmss2DateTime lib s s'
    let endPoint ← yyyymmdd_hhmmss2DateTime lib n n'
    let creationPoint ← yyyymmdd_hhmmss2DateTime lib c c'
    let prevPoint ← yyyymmdd_hhmmss2DateTime lib p p'
    let currPoint ← yyyymmdd_hhmmss2DateTime lib u u'
    let lastFlush ← yyyymmdd_hhmmss2DateTime lib l l'
    let windowType ← ofTypeWord type
    -- the counts come last, as many as their size says
    if counts.length < countsSize then .error (.seriousBug "ERROR : idx too large")
    else .ok { epochPoint, startPoint, creationPoint, currPoint, prevPoint, endPoint, lastFlush,
               timeStepInSeconds, count, counts := counts.take countsSize.toNat, windowType }
  | _ => .error (.seriousBug "ERROR : idx too large")

def dump (ctx : StatisticsContext) (w : OperationWindow) : Except Exception RestartFiles := do
  let words ← computeChecksum (serialize ctx w)
  .ok (RestartFiles.write [] "operationWindow" { fieldSize := words.length, words })

def load (lib : RestartLibrary) (files : RestartFiles) : Except Exception OperationWindow := do
  let file ← files.file "operationWindow"
  let words ← files.read "operationWindow" file.fieldSize
  deserialize lib (← checkChecksum words)

end WindowRestart

namespace OperationRestart

variable {A : FloatArithmetic}

def precisionName : PrecisionTag → String
  | .float => "single"
  | .double => "double"

def restartFileName (k : OperationKind) (p : PrecisionTag) : String :=
  k.name ++ "_" ++ precisionName p

def words {p : PrecisionTag} (values : List (A.Real p)) : List ℤ :=
  values.map fun v => ((A.bits (A.toDouble v)).toNat : ℤ)

def ofWords {p : PrecisionTag} (ws : List ℤ) : List (A.Real p) :=
  ws.map fun w => A.ofDouble (A.ofBits (UInt64.ofNat w.toNat))

def serialize (op : Operation A) : List ℤ :=
  if op.kind.deaccumulated then words op.initValues ++ words op.values else words op.values

def dump (files : RestartFiles) (op : Operation A) : Except Exception RestartFiles := do
  let words ← computeChecksum (serialize op)
  .ok (files.write (restartFileName op.kind op.precision) { fieldSize := op.values.length, words })

/-- The regular expression `([a-z]+)_([a-z]+)`: its two groups. -/
def parseFileName (file : String) : Except Exception (String × String) :=
  let opname := file.toList.takeWhile Char.isLower
  match file.toList.dropWhile Char.isLower with
  | '_' :: precision =>
    if opname ≠ [] ∧ precision ≠ [] ∧ precision.all Char.isLower then
      .ok (String.ofList opname, String.ofList precision)
    else .error (.seriousBug ("Wrong grammar in operation definition : " ++ file))
  | _ => .error (.seriousBug ("Wrong grammar in operation definition : " ++ file))

/-- `load_operation` for one file of the listing. -/
def load (A : FloatArithmetic) (files : RestartFiles) (file : String) :
    Except Exception (Operation A) := do
  let (opname, precision) ← parseFileName file
  let precision ← decodePrecisionTag precision
  let kind ← OperationKind.ofName opname
  let fname := restartFileName kind precision
  let size := (← files.file fname).fieldSize
  let ws ← checkChecksum (← files.read fname (if kind.deaccumulated then 2 * size + 1 else size + 1))
  if kind.deaccumulated then
    .ok { kind, precision, values := ofWords (ws.drop size), initValues := ofWords (ws.take size) }
  else .ok { kind, precision, values := ofWords ws }

end OperationRestart

structure FieldRestart where
  periodUpdater : RestartFiles
  operationWindow : RestartFiles
  operations : RestartFiles
  deriving DecidableEq

namespace TemporalStatistics

variable {ctx : StatisticsContext}

def dump (ts : TemporalStatistics ctx) : Except Exception FieldRestart := do
  let periodUpdater ← PeriodRestart.dump ts.periodUpdater
  let operationWindow ← WindowRestart.dump ctx ts.window
  let operations ← ts.statistics.foldlM OperationRestart.dump []
  .ok { periodUpdater, operationWindow, operations }

def load (lib : RestartLibrary) (dir : FieldRestart) : Except Exception (TemporalStatistics ctx) :=
  do
  let periodUpdater ← PeriodRestart.load lib dir.periodUpdater
  let window ← WindowRestart.load lib dir.operationWindow
  let statistics ← (lib.listing (dir.operations.map Prod.fst)).mapM
    (OperationRestart.load ctx.arithmetic dir.operations)
  .ok { periodUpdater, window, statistics }

end TemporalStatistics
end Multio.Statistics
