import Multio.Action.StatisticsMtg2.TemporalStatistics
import Multio.Lib.LinkedFolders
import Multio.Lib.OrderedMap

namespace Multio.StatisticsMtg2
open Lib Exception

/-- What is given: the files of a field, and `eckit::Date` and `eckit::Time` from parts. -/
structure RestartIO (ctx : StatisticsContext) where
  Field : Type
  dump : TemporalStatistics ctx → Field
  load : Field → Except Exception (TemporalStatistics ctx)
  makeDate : ℤ → ℤ → ℤ → Except Exception ℤ
  makeTime : ℤ → ℤ → ℤ → Except Exception ℤ
  /-- Whether a folder that is waited for gets created by another process. -/
  masterCreates : String → Bool

/-- The action with what it has on disk, below its unique directory. -/
structure StatisticsAction (ctx : StatisticsContext) (io : RestartIO ctx) where
  needRestart : Bool := false
  lastDateTime : String := ""
  fieldStats : OrderedMap String (TemporalStatistics ctx) := OrderedMap.empty
  disk : LinkedFolders io.Field := {}

inductive FlushKind
  | default
  | firstStep
  | stepAndRestart
  | lastStep
  | endOfSimulation
  | closeConnection
  deriving DecidableEq, Repr

namespace FlushKind

def ofString : String → Except Exception FlushKind
  | "first-step" => .ok .firstStep
  | "default" => .ok .default
  | "step-and-restart" => .ok .stepAndRestart
  | "last-step" => .ok .lastStep
  | "end-of-simulation" => .ok .endOfSimulation
  | "close-connection" => .ok .closeConnection
  | str => .error (.metadata ("Unknown FlushKind: " ++ str))

def ofInt : ℤ → Except Exception FlushKind
  | 0 => .ok .firstStep
  | 1 => .ok .default
  | 2 => .ok .stepAndRestart
  | 3 => .ok .lastStep
  | 4 => .ok .endOfSimulation
  | 5 => .ok .closeConnection
  | val => .error (.metadata ("Unknown FlushKind: " ++ toString val))

/-- `parseFlushKind(msg)` of a flush. -/
def parse (ctx : StatisticsContext) (md : BaseMetadata) : Except Exception FlushKind :=
  match Metadata.find ctx.parametrization md "flushKind" with
  | none => .ok .default
  | some (.string str) => ofString str
  | some (.int64 val) => ofInt val
  | some _ => .error (.metadata "FlushKind needs to be either string or integer.")

end FlushKind

/-- `std::setw(n) << std::setfill('0')`. -/
def setw (n : ℕ) (x : ℤ) : String :=
  let text := toString x
  String.ofList (List.replicate (n - text.length) '0') ++ text

def dateTimeText (ctx : StatisticsContext) (t : DateTime) : String :=
  let yyyymmdd := 10000 * ctx.calendar.year t.date + 100 * ctx.calendar.month t.date +
    ctx.calendar.day t.date
  let hhmmss := 10000 * (t.time / 3600) + 100 * (t.time % 3600 / 60) + t.time % 60
  setw 8 yyyymmdd ++ "-" ++ setw 6 hhmmss

namespace StatisticsAction

variable {ctx : StatisticsContext} {io : RestartIO ctx} (conf : Config)
  (a : StatisticsAction ctx io)

def generateRestartNameFromFlush (md : BaseMetadata) : Except Exception String := do
  let restartDateTime ← getString ctx md "restartDateTime"
  let step ← getInt64 ctx md "step"
  let timeStep ← getInt64 ctx md "timeStep"
  let date ← getInt64 ctx md "date"
  let time ← getInt64 ctx md "time"
  match restartDateTime, step, timeStep, date, time with
  | some restartDateTime, _, _, _, _ => .ok restartDateTime
  | none, some step, some timeStep, some date, some time => do
    let d ← io.makeDate ((date.tmod 100000000).tdiv 10000) ((date.tmod 10000).tdiv 100)
      (date.tmod 100)
    let t ← io.makeTime ((time.tmod 1000000).tdiv 10000) ((time.tmod 10000).tdiv 100)
      (time.tmod 100)
    .ok (dateTimeText ctx (dateTime d t + step * timeStep))
  -- without a date, the last one that was seen with the step behind it
  | none, some step, _, _, _ => .ok (a.lastDateTime ++ "-" ++ setw 6 step)
  | _, _, _, _, _ => .ok a.lastDateTime

def createMainRestartDirectory (disk : LinkedFolders io.Field) (restartFolderName : String)
    (isMaster : Bool) : Except Exception (LinkedFolders io.Field) :=
  if (disk.folder restartFolderName).isSome then .ok disk
  else if isMaster || io.masterCreates restartFolderName then .ok (disk.create restartFolderName)
  else .error (.seriousBug ("Unable to create the restart directory: " ++ restartFolderName ++ "\n"))

def dumpTemporalStatistics (dateTime : String) : LinkedFolders io.Field →
    List (String × TemporalStatistics ctx) → Outcome (LinkedFolders io.Field)
  | disk, [] => { state := disk }
  | disk, (key, ts) :: rest =>
    if (disk.entry dateTime key).isSome then
      { state := disk, exception := some (.seriousBug ("Current restart already exists (this means " ++
        "that two mpi tasks has the same field): " ++ dateTime ++ "/" ++ key ++ "\n")) }
    else dumpTemporalStatistics dateTime (disk.add dateTime key (io.dump ts)) rest

/-- The files of a restart below a new folder, which the link then stands for. -/
def writeRestart (disk : LinkedFolders io.Field) (restartFolderName : String) (isMaster : Bool) :
    Outcome (LinkedFolders io.Field) :=
  let disk := if isMaster then disk.unlink else disk
  .needing disk (createMainRestartDirectory disk restartFolderName isMaster) fun disk =>
    (dumpTemporalStatistics restartFolderName disk a.fieldStats.entries).andThen fun disk =>
      { state := if isMaster then disk.linkTo restartFolderName else disk }

def tryDumpRestart (md : BaseMetadata) : Outcome (StatisticsAction ctx io) :=
  .needing a (FlushKind.parse ctx md) fun flushKind =>
    if flushKind = .stepAndRestart ∧ conf.opt.writeRestart ∧ a.needRestart then
      .needing a (Metadata.getOpt MetadataValue.getBool ctx.parametrization md "serverRank")
        fun serverRank =>
          .needing a (a.generateRestartNameFromFlush md) fun restartFolderName =>
            (a.writeRestart a.disk restartFolderName (serverRank.getD true)).map
              fun disk => { a with disk }
    else { state := a }

/-- The statistics are emitted one field after the other, in the order of their keys. -/
def emitFields (source destination : Peer) : StatisticsAction ctx io →
    List (String × TemporalStatistics ctx) → Outcome (StatisticsAction ctx io × List Message)
  | a, [] => { state := (a, []) }
  | a, (key, ts) :: rest =>
    ((ts.emitStatistics conf source destination).map fun (ts, out) =>
      ({ a with fieldStats := a.fieldStats.insert key ts }, out)).andThen fun (a, out) =>
        (emitFields source destination a rest).map fun (a, out') => (a, out ++ out')

def emitAllStatistics (source destination : Peer) : Outcome (StatisticsAction ctx io × List Message) :=
  emitFields conf source destination a a.fieldStats.entries

def executeFlush (msg : Message) : Outcome (StatisticsAction ctx io × List Message) :=
  ((a.tryDumpRestart conf msg.metadata).map fun a => (a, [])).andThen fun (a, _) =>
    .needing (a, []) (FlushKind.parse ctx msg.metadata) fun flushKind =>
      (if flushKind = .lastStep then a.emitAllStatistics conf msg.source msg.destination
        else { state := (a, []) }).andThen fun (a, out) => { state := (a, out ++ [msg]) }

def updateLatestDateTime (cfg : StatisticsConfiguration ctx.arithmetic) : StatisticsAction ctx io :=
  { a with lastDateTime := dateTimeText ctx cfg.curr, needRestart := true }

/-- The statistics of a field: those that are there, those of the restart, or new ones. -/
def findOrMake (cfg : StatisticsConfiguration ctx.arithmetic) (msg : Message) :
    Except Exception (TemporalStatistics ctx) :=
  match a.fieldStats.find? cfg.key with
  | some ts => .ok ts
  | none =>
    match conf.opt.readRestart, a.disk.entry conf.restartTime cfg.key with
    | true, some files => io.load files
    | _, _ => TemporalStatistics.make conf cfg msg

def executeField (msg : Message) : Outcome (StatisticsAction ctx io × List Message) :=
  .needing (a, []) (StatisticsConfiguration.make ctx conf.opt msg.metadata msg.source) fun cfg =>
    let a := a.updateLatestDateTime cfg
    if conf.opt.readRestart ∧ (a.disk.folder conf.restartTime).isNone then
      { state := (a, []), exception := some (.seriousBug
        ("Main restart directory does not exist :: " ++ conf.restartPath ++ "\n")) }
    else .needing (a, []) (a.findOrMake conf cfg msg) fun ts =>
      (ts.process conf cfg msg).map fun (ts, out) =>
        ({ a with fieldStats := a.fieldStats.insert cfg.key ts }, out)

/-- `Statistics::executeImpl`, with the messages it passes on. -/
def executeImpl (msg : Message) : Outcome (StatisticsAction ctx io × List Message) :=
  match msg.tag with
  | .flush => a.executeFlush conf msg
  | .field => a.executeField conf msg
  | _ => { state := (a, [msg]) }

/-- Messages in the order in which they arrive, with what each of them makes go out. -/
def run : StatisticsAction ctx io → List Message →
    Outcome (StatisticsAction ctx io × List (List Message))
  | a, [] => { state := (a, []) }
  | a, msg :: msgs =>
    ((a.executeImpl conf msg).map fun (a, out) => (a, [out])).andThen fun (a, outs) =>
      (run a msgs).map fun (a, outs') => (a, outs ++ outs')

end StatisticsAction
end Multio.StatisticsMtg2
