import Multio.Action.Statistics.Restart
import Multio.Lib.OrderedMap

namespace Multio.Statistics
open Lib StatisticsMtg2 Exception

/-- The folders of restarts below the unique directory of the action, by date and time. -/
structure RestartDisk where
  folders : String → Option (List (String × FieldRestart)) := fun _ => none
  /-- The target of the symbolic link `latest`. -/
  latest : Option String := none

namespace RestartDisk

variable (disk : RestartDisk)

def resolve (dateTime : String) : String :=
  if dateTime = "latest" then disk.latest.getD dateTime else dateTime

def folder (dateTime : String) : Option (List (String × FieldRestart)) :=
  disk.folders (disk.resolve dateTime)

def field (dateTime key : String) : Option FieldRestart :=
  (disk.folder dateTime).bind fun fields => (fields.find? fun f => f.1 = key).map Prod.snd

def create (dateTime : String) : RestartDisk :=
  { disk with folders := fun k =>
      if k = disk.resolve dateTime then some ((disk.folder dateTime).getD []) else disk.folders k }

def addField (dateTime key : String) (dir : FieldRestart) : RestartDisk :=
  { disk with folders := fun k =>
      if k = disk.resolve dateTime then some ((disk.folder dateTime).getD [] ++ [(key, dir)])
      else disk.folders k }

/-- `DeleteLatestSymLink`, which leaves a link that leads nowhere. -/
def deleteLatest : RestartDisk :=
  if disk.latest.isSome ∧ (disk.folder "latest").isSome then { disk with latest := none } else disk

/-- `CreateLatestSymLink`: `symlink` does nothing where the path exists. -/
def createLatest (dateTime : String) : RestartDisk :=
  if disk.latest.isSome ∨ (disk.folders "latest").isSome then disk
  else { disk with latest := some dateTime }

end RestartDisk

structure StatisticsAction (ctx : StatisticsContext) where
  needRestart : Bool := false
  lastDateTime : String := ""
  fieldStats : OrderedMap String (TemporalStatistics ctx) := OrderedMap.empty
  disk : RestartDisk := {}

/-- `std::setw(n) << std::setfill('0')`. -/
def setw (n : ℕ) (x : ℤ) : String :=
  let text := toString x
  String.ofList (List.replicate (n - text.length) '0') ++ text

def dateTimeText (ctx : StatisticsContext) (t : DateTime) : String :=
  setw 8 (yyyymmdd ctx t) ++ "-" ++ setw 6 (hhmmss t)

namespace StatisticsAction

variable (lib : RestartLibrary) {ctx : StatisticsContext} (conf : Config) (a : StatisticsAction ctx)

def generateRestartNameFromFlush (md : BaseMetadata) : Except Exception String := do
  let restartDateTime ← getString ctx.toStatisticsContext md "restartDateTime"
  let step ← getInt64 ctx.toStatisticsContext md "step"
  let timeStep ← getInt64 ctx.toStatisticsContext md "timeStep"
  let date ← getInt64 ctx.toStatisticsContext md "date"
  let time ← getInt64 ctx.toStatisticsContext md "time"
  match restartDateTime, step, timeStep, date, time with
  | some restartDateTime, _, _, _, _ => .ok restartDateTime
  | none, some step, some timeStep, some date, some time => do
    let d ← lib.makeDate ((date.tmod 100000000).tdiv 10000) ((date.tmod 10000).tdiv 100)
      (date.tmod 100)
    let t ← lib.makeTime ((time.tmod 1000000).tdiv 10000) ((time.tmod 10000).tdiv 100)
      (time.tmod 100)
    .ok (dateTimeText ctx (dateTime d t + step * timeStep))
  | _, _, _, _, _ => .ok a.lastDateTime

def createMainRestartDirectory (disk : RestartDisk) (restartFolderName : String)
    (isMaster : Bool) : Except Exception RestartDisk :=
  if (disk.folder restartFolderName).isSome then .ok disk
  else if isMaster || lib.masterCreates restartFolderName then .ok (disk.create restartFolderName)
  else .error (.seriousBug ("Unable to create the restart directory: " ++ restartFolderName ++ "\n"))

def dumpTemporalStatistics (dateTime : String) :
    RestartDisk → List (String × TemporalStatistics ctx) → Except Exception RestartDisk
  | disk, [] => .ok disk
  | disk, (key, ts) :: rest =>
    if (disk.field dateTime key).isSome then
      .error (.seriousBug ("Current restart already exists (this means that two mpi tasks has " ++
        "the same field): " ++ dateTime ++ "/" ++ key ++ "\n"))
    else do
      let dir ← ts.dump
      dumpTemporalStatistics dateTime (disk.addField dateTime key dir) rest

def restartFlushes : List String :=
  ["step-and-restart", "last-step", "end-of-simulation", "close-connection"]

def tryDumpRestart (md : BaseMetadata) : Except Exception RestartDisk := do
  match ← getString ctx.toStatisticsContext md "flushKind" with
  | none => .ok a.disk
  | some flushKind =>
    if conf.opt.writeRestart && a.needRestart then do
      let isMaster := (← Metadata.getOpt MetadataValue.getBool ctx.parametrization md
        "serverRank").getD true
      if flushKind ∈ restartFlushes then do
        let restartFolderName ← generateRestartNameFromFlush lib a md
        let disk := if isMaster then a.disk.deleteLatest else a.disk
        let disk ← createMainRestartDirectory lib disk restartFolderName isMaster
        let disk ← dumpTemporalStatistics restartFolderName disk a.fieldStats.entries
        .ok (if isMaster then disk.createLatest restartFolderName else disk)
      else .ok a.disk
    else .ok a.disk

/-- The statistics of a field: those that are there, those of the restart, or new ones. -/
def findOrMake (cfg : StatisticsConfiguration ctx.arithmetic) (msg : Message) :
    Except Exception (TemporalStatistics ctx) :=
  match a.fieldStats.find? cfg.key with
  | some ts => .ok ts
  | none =>
    match conf.opt.readRestart, a.disk.field conf.opt.restartTime cfg.key with
    | true, some dir => TemporalStatistics.load lib dir
    | _, _ => TemporalStatistics.make conf cfg msg

def executeField (msg : Message) : Except Exception (StatisticsAction ctx × List Message) := do
  let cfg ← StatisticsConfiguration.make ctx conf.opt msg.metadata msg.source
  if conf.opt.readRestart ∧ (a.disk.folder conf.opt.restartTime).isNone then
    .error (.seriousBug ("Main restart directory does not exist :: " ++ conf.opt.restartPath ++
      "\n"))
  else do
    let ts ← a.findOrMake lib conf cfg msg
    let (ts, out) ← ts.process conf cfg msg
    .ok ({ a with needRestart := true, lastDateTime := dateTimeText ctx cfg.curr,
                  fieldStats := a.fieldStats.insert cfg.key ts }, out)

/-- `Statistics::executeImpl`, with the messages it passes on. -/
def executeImpl (msg : Message) : Except Exception (StatisticsAction ctx × List Message) :=
  match msg.tag with
  | .flush => do
    let disk ← a.tryDumpRestart lib conf msg.metadata
    .ok ({ a with disk }, [msg])
  | .field => a.executeField lib conf msg
  | _ => .ok (a, [msg])

/-- Messages in the order in which they arrive, with what each of them makes go out. -/
def run : StatisticsAction ctx → List Message → Except Exception (StatisticsAction ctx × List (List Message))
  | a, [] => .ok (a, [])
  | a, msg :: msgs => do
    let (a, out) ← a.executeImpl lib conf msg
    let (a, outs) ← run a msgs
    .ok (a, out :: outs)

theorem run_concat {a a' a'' : StatisticsAction ctx} {msgs : List Message}
    {outs : List (List Message)} {msg : Message} {out : List Message}
    (hrun : run lib conf a msgs = .ok (a', outs))
    (hmsg : a'.executeImpl lib conf msg = .ok (a'', out)) :
    run lib conf a (msgs ++ [msg]) = .ok (a'', outs ++ [out]) := by
  induction msgs generalizing a outs with
  | nil =>
    obtain ⟨rfl, rfl⟩ := Prod.mk.inj (Except.ok.inj hrun)
    rw [List.nil_append, run, hmsg]
    rfl
  | cons m msgs ih =>
    rw [run, bind_eq_ok_iff] at hrun
    obtain ⟨⟨b, out'⟩, hb, hrun⟩ := hrun
    rw [bind_eq_ok_iff] at hrun
    obtain ⟨⟨b', outs'⟩, hb', hrun⟩ := hrun
    obtain ⟨rfl, rfl⟩ := Prod.mk.inj (Except.ok.inj hrun)
    rw [List.cons_append, run, hb, ok_bind]
    simp only []
    rw [ih hb']
    rfl

variable {lib conf a}

theorem executeImpl_field {msg : Message} {cfg : StatisticsConfiguration ctx.arithmetic}
    {ts ts' : TemporalStatistics ctx} {out : List Message} (htag : msg.tag = .field)
    (hcfg : StatisticsConfiguration.make ctx conf.opt msg.metadata msg.source = .ok cfg)
    (hread : conf.opt.readRestart = false) (hts : a.findOrMake lib conf cfg msg = .ok ts)
    (hprocess : ts.process conf cfg msg = .ok (ts', out)) :
    a.executeImpl lib conf msg =
      .ok ({ a with needRestart := true, lastDateTime := dateTimeText ctx cfg.curr,
                    fieldStats := a.fieldStats.insert cfg.key ts' }, out) := by
  rw [executeImpl, htag]
  simp only []
  rw [executeField, hcfg, ok_bind, hread]
  simp only [Bool.false_eq_true, false_and, if_false]
  rw [hts, ok_bind, hprocess]
  rfl

theorem findOrMake_some {msg : Message} {cfg : StatisticsConfiguration ctx.arithmetic}
    {ts : TemporalStatistics ctx} (h : a.fieldStats.find? cfg.key = some ts) :
    a.findOrMake lib conf cfg msg = .ok ts := by
  rw [findOrMake, h]

theorem findOrMake_none {msg : Message} {cfg : StatisticsConfiguration ctx.arithmetic}
    (hread : conf.opt.readRestart = false) (h : a.fieldStats.find? cfg.key = none) :
    a.findOrMake lib conf cfg msg = TemporalStatistics.make conf cfg msg := by
  rw [findOrMake, h, hread]

end StatisticsAction
end Multio.Statistics
