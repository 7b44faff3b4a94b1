import Multio.Action.Statistics.Statistics
import Multio.Lib.LinkedFolders

namespace Multio.Statistics
open Lib StatisticsMtg2 Exception

namespace RestartDisk

variable (disk : RestartDisk)

def linked : LinkedFolders FieldRestart where
  folders := disk.folders
  link := disk.latest

theorem folder_linked (name : String) : disk.linked.folder name = disk.folder name := rfl

theorem linked_create (name : String) : (disk.create name).linked = disk.linked.create name := by
  unfold linked create LinkedFolders.create LinkedFolders.put
  congr 1
  funext k
  rw [Function.update_apply]
  rfl

theorem linked_addField (name key : String) (dir : FieldRestart) :
    (disk.addField name key dir).linked = disk.linked.add name key dir := by
  unfold linked addField LinkedFolders.add LinkedFolders.put
  congr 1
  funext k
  rw [Function.update_apply]
  rfl

theorem linked_deleteLatest : disk.deleteLatest.linked = disk.linked.unlink := by
  unfold deleteLatest LinkedFolders.unlink
  change (if disk.latest.isSome = true ∧ (disk.folder "latest").isSome = true then _ else _ :
    RestartDisk).linked = if disk.latest.isSome = true ∧ (disk.folder "latest").isSome = true then _
    else _
  split_ifs
  · rfl
  · rfl

theorem linked_createLatest (name : String) :
    (disk.createLatest name).linked = disk.linked.linkTo name := by
  unfold createLatest LinkedFolders.linkTo
  change (if disk.latest.isSome = true ∨ (disk.folders "latest").isSome = true then _ else _ :
    RestartDisk).linked = if disk.latest.isSome = true ∨ (disk.folders "latest").isSome = true
    then _ else _
  split_ifs
  · rfl
  · rfl

end RestartDisk

variable {ctx : StatisticsContext} {lib : RestartLibrary} {conf : Config}

namespace StatisticsAction

variable {a b a₁ : StatisticsAction ctx} {msg : Message} {k : String} {out : List Message}

def found (lib : RestartLibrary) (conf : Config) (a : StatisticsAction ctx)
    (cfg : StatisticsConfiguration ctx.arithmetic) (msg : Message) :
    Except Exception (TemporalStatistics ctx) :=
  if conf.opt.readRestart ∧ (a.disk.folder conf.opt.restartTime).isNone then
    .error
      (.seriousBug ("Main restart directory does not exist :: " ++ conf.opt.restartPath ++ "\n"))
  else a.findOrMake lib conf cfg msg

theorem executeImpl_eq {cfg : StatisticsConfiguration ctx.arithmetic} (htag : msg.tag = .field)
    (hcfg : StatisticsConfiguration.make ctx conf.opt msg.metadata msg.source = .ok cfg) :
    a.executeImpl lib conf msg = (a.found lib conf cfg msg >>= fun ts =>
      ts.process conf cfg msg >>= fun (ts, out) =>
        .ok ({ a with needRestart := true, lastDateTime := dateTimeText ctx cfg.curr,
                      fieldStats := a.fieldStats.insert cfg.key ts }, out)) := by
  rw [executeImpl, htag]
  simp only []
  rw [executeField, hcfg, ok_bind]
  unfold found
  split_ifs
  · rfl
  · rfl

theorem createMainRestartDirectory_ok {disk disk₁ : RestartDisk} {name : String} {isMaster : Bool}
    (h : createMainRestartDirectory lib disk name isMaster = .ok disk₁) :
    disk.linked.Grown disk₁.linked ∧ (disk₁.linked.folder name).isSome := by
  unfold createMainRestartDirectory at h
  split_ifs at h with hfolder
  · obtain rfl := Except.ok.inj h
    exact ⟨.refl _, hfolder⟩
  · obtain rfl := Except.ok.inj h
    rw [RestartDisk.linked_create]
    exact ⟨disk.linked.grown_create name, disk.linked.isSome_folder_create name⟩

theorem dumpTemporalStatistics_grown {disk disk₁ : RestartDisk} {name : String}
    {es : List (String × TemporalStatistics ctx)}
    (h : dumpTemporalStatistics name disk es = .ok disk₁) : disk.linked.Grown disk₁.linked := by
  induction es generalizing disk with
  | nil =>
    obtain rfl := Except.ok.inj h
    exact .refl _
  | cons e es ih =>
    rw [dumpTemporalStatistics] at h
    split_ifs at h
    obtain ⟨dir, -, h⟩ := bind_eq_ok_iff.mp h
    have hadd := disk.linked.grown_add name e.1 dir
    rw [← RestartDisk.linked_addField] at hadd
    exact hadd.trans (ih h)

structure Writes (lib : RestartLibrary) (conf : Config) (a : StatisticsAction ctx)
    (md : BaseMetadata) (disk : RestartDisk) (isMaster : Bool) (name : String)
    (disk₁ disk₂ : RestartDisk) : Prop where
  kind : ∃ flushKind ∈ restartFlushes,
    getString ctx.toStatisticsContext md "flushKind" = .ok (some flushKind)
  writes : conf.opt.writeRestart = true
  create : createMainRestartDirectory lib (if isMaster then a.disk.deleteLatest else a.disk) name
    isMaster = .ok disk₁
  dump : dumpTemporalStatistics name disk₁ a.fieldStats.entries = .ok disk₂
  link : disk = if isMaster then disk₂.createLatest name else disk₂

theorem tryDumpRestart_cases {md : BaseMetadata} {disk : RestartDisk}
    (h : a.tryDumpRestart lib conf md = .ok disk) :
    disk = a.disk ∨
      ∃ isMaster name disk₁ disk₂, Writes lib conf a md disk isMaster name disk₁ disk₂ := by
  unfold tryDumpRestart at h
  obtain ⟨flushKind, hflush, h⟩ := bind_eq_ok_iff.mp h
  cases flushKind with
  | none => exact Or.inl (Except.ok.inj h).symm
  | some flushKind =>
    simp only [] at h
    by_cases hwrite : (conf.opt.writeRestart && a.needRestart) = true
    · rw [if_pos hwrite] at h
      obtain ⟨serverRank, -, h⟩ := bind_eq_ok_iff.mp h
      by_cases hkind : flushKind ∈ restartFlushes
      · rw [if_pos hkind] at h
        obtain ⟨name, -, h⟩ := bind_eq_ok_iff.mp h
        obtain ⟨disk₁, hcreate, h⟩ := bind_eq_ok_iff.mp h
        obtain ⟨disk₂, hdump, h⟩ := bind_eq_ok_iff.mp h
        exact Or.inr ⟨serverRank.getD true, name, disk₁, disk₂, ⟨flushKind, hkind, hflush⟩,
          ((Bool.and_eq_true _ _).mp hwrite).1, hcreate, hdump, (Except.ok.inj h).symm⟩
      · rw [if_neg hkind] at h
        exact Or.inl (Except.ok.inj h).symm
    · rw [if_neg hwrite] at h
      exact Or.inl (Except.ok.inj h).symm

/-- The disk that a flush leaves has all the folders, also behind the link. -/
theorem tryDumpRestart_folder {md : BaseMetadata} {disk : RestartDisk} {t : String}
    (h : a.tryDumpRestart lib conf md = .ok disk) (ht : (a.disk.folder t).isSome) :
    (disk.folder t).isSome := by
  obtain rfl | ⟨isMaster, name, disk₁, disk₂, hwrites⟩ := tryDumpRestart_cases h
  · exact ht
  · obtain ⟨hgrown, hname⟩ := createMainRestartDirectory_ok hwrites.create
    have hgrown' := dumpTemporalStatistics_grown hwrites.dump
    rw [hwrites.link, ← RestartDisk.folder_linked]
    rw [← RestartDisk.folder_linked] at ht
    cases isMaster with
    | true =>
      rw [if_pos rfl, RestartDisk.linked_deleteLatest] at hgrown
      rw [if_pos rfl, RestartDisk.linked_createLatest]
      exact LinkedFolders.isSome_folder_linkTo ht (hgrown.trans hgrown') (hgrown'.folder hname)
    | false => exact (hgrown.trans hgrown').folder ht

end StatisticsAction
end Multio.Statistics
