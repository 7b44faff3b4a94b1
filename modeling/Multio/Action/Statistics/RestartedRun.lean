import Multio.Action.KeyedAction
import Multio.Action.Statistics.RestartFolders
import Multio.Action.Statistics.RestartEquivalence

namespace Multio.Statistics
open Lib StatisticsMtg2 Exception Multio.Action

def SameResult {α β : Type} (R : α → β → Prop) : Except Exception α → Except Exception β → Prop
  | .ok x, .ok y => R x y
  | .error e, .error e' => e = e'
  | _, _ => False

namespace SameResult

variable {α β γ δ : Type} {R : α → β → Prop} {S : γ → δ → Prop}

theorem bind {x : Except Exception α} {y : Except Exception β} {f : α → Except Exception γ}
    {g : β → Except Exception δ} (h : SameResult R x y)
    (hfg : ∀ a b, R a b → SameResult S (f a) (g b)) : SameResult S (x >>= f) (y >>= g) := by
  cases x with
  | error e =>
    cases y with
    | error e' => exact h
    | ok b => exact h.elim
  | ok a =>
    cases y with
    | error e' => exact h.elim
    | ok b => exact hfg a b h

theorem mono {R' : α → β → Prop} (hR : ∀ a b, R a b → R' a b) {x : Except Exception α}
    {y : Except Exception β} (h : SameResult R x y) : SameResult R' x y := by
  cases x with
  | error e =>
    cases y with
    | error e' => exact h
    | ok b => exact h.elim
  | ok a =>
    cases y with
    | error e' => exact h.elim
    | ok b => exact hR a b h

theorem of_eq {x y : Except Exception α} (h : x = y) : SameResult Eq x y := by
  subst h
  cases x with
  | error e => rfl
  | ok a => rfl

end SameResult

def Config.reading (conf : Config) (restartTime : String) : Config :=
  { conf with opt := { conf.opt with readRestart := true, restartTime } }

variable {ctx : StatisticsContext} {lib : RestartLibrary} {conf : Config} {t : String}

namespace TemporalStatistics

variable {cfg : StatisticsConfiguration ctx.arithmetic}

theorem make_reading (msg : Message) :
    (make (conf.reading t) cfg msg : Except Exception (TemporalStatistics ctx)) =
      make conf cfg msg := rfl

theorem updateOperations_reading (payload : List UInt8) (win : OperationWindow)
    (ops : List (Operation ctx.arithmetic)) :
    updateOperations (conf.reading t).opt cfg payload win ops =
      updateOperations conf.opt cfg payload win ops := by
  induction ops generalizing win with
  | nil => rfl
  | cons op ops ih =>
    rw [updateOperations, updateOperations]
    simp only [ih]
    rfl

theorem emitOperations_reading (win : OperationWindow) (source destination : Peer)
    (md : BaseMetadata) (ops : List (Operation ctx.arithmetic)) :
    emitOperations (conf.reading t) cfg win source destination md ops =
      emitOperations conf cfg win source destination md ops := by
  induction ops generalizing md with
  | nil => rfl
  | cons op ops ih =>
    rw [emitOperations, emitOperations]
    simp only [ih]
    rfl

theorem process_reading (ts : TemporalStatistics ctx) (msg : Message) :
    ts.process (conf.reading t) cfg msg = ts.process conf cfg msg := by
  unfold process updateData closeWindow emit
  simp only [updateOperations_reading, emitOperations_reading]
  rfl

end TemporalStatistics

def fieldOf (ctx : StatisticsContext) (conf : Config) (msg : Message) : Option String :=
  fieldKey StatisticsConfiguration.key msg
    (StatisticsConfiguration.make ctx conf.opt msg.metadata msg.source)

namespace StatisticsAction

variable {a b a₀ a' : StatisticsAction ctx} {msg : Message} {k : String} {out : List Message}

theorem tryDumpRestart_reading (md : BaseMetadata) :
    a.tryDumpRestart lib (conf.reading t) md = a.tryDumpRestart lib conf md := rfl

theorem dumpTemporalStatistics_field {name : String} {es : List (String × TemporalStatistics ctx)}
    {disk disk₁ : RestartDisk} (h : dumpTemporalStatistics name disk es = .ok disk₁) :
    (∀ k d, disk.field name k = some d → disk₁.field name k = some d) ∧
      ∀ e ∈ es, ∃ dir, e.2.dump = .ok dir ∧ disk₁.field name e.1 = some dir := by
  induction es generalizing disk with
  | nil =>
    obtain rfl := Except.ok.inj h
    exact ⟨fun _ _ hd => hd, fun _ he => absurd he List.not_mem_nil⟩
  | cons e es ih =>
    rw [dumpTemporalStatistics] at h
    split_ifs at h with hfield
    obtain ⟨dir, hdir, h⟩ := bind_eq_ok_iff.mp h
    obtain ⟨hkeep, hall⟩ := ih h
    have hadd : ∀ k, (disk.addField name e.1 dir).field name k =
        (disk.field name k).or (if k = e.1 then some dir else none) := fun k => by
      have hentry := LinkedFolders.entry_add disk.linked name e.1 k dir
      rw [← RestartDisk.linked_addField] at hentry
      exact hentry
    refine ⟨fun k d hd => hkeep k d ?_,
      List.forall_mem_cons.mpr ⟨⟨dir, hdir, hkeep _ _ ?_⟩, hall⟩⟩
    · rw [hadd, hd]
      rfl
    · rw [hadd, Option.not_isSome_iff_eq_none.mp hfield, if_pos rfl]
      rfl

theorem dumpTemporalStatistics_holds {name : String} {es : List (String × TemporalStatistics ctx)}
    {disk disk₁ : RestartDisk} (h : dumpTemporalStatistics name disk es = .ok disk₁)
    (hk : disk₁.linked.Holds k) : disk.linked.Holds k ∨ k ∈ es.map Prod.fst := by
  induction es generalizing disk with
  | nil =>
    obtain rfl := Except.ok.inj h
    exact Or.inl hk
  | cons e es ih =>
    rw [dumpTemporalStatistics] at h
    split_ifs at h
    obtain ⟨dir, -, h⟩ := bind_eq_ok_iff.mp h
    obtain hold | hmem := ih h
    · rw [RestartDisk.linked_addField] at hold
      obtain hold | rfl := LinkedFolders.holds_add hold
      · exact Or.inl hold
      · exact Or.inr List.mem_cons_self
    · exact Or.inr (List.mem_cons_of_mem _ hmem)

theorem createMainRestartDirectory_holds {disk disk₁ : RestartDisk} {name : String}
    {isMaster : Bool} (h : createMainRestartDirectory lib disk name isMaster = .ok disk₁)
    (hk : disk₁.linked.Holds k) : disk.linked.Holds k := by
  unfold createMainRestartDirectory at h
  split_ifs at h
  · obtain rfl := Except.ok.inj h
    exact hk
  · obtain rfl := Except.ok.inj h
    rw [RestartDisk.linked_create] at hk
    exact LinkedFolders.holds_create hk

theorem tryDumpRestart_holds {md : BaseMetadata} {disk : RestartDisk}
    (h : a.tryDumpRestart lib conf md = .ok disk) (hk : disk.linked.Holds k) :
    a.disk.linked.Holds k ∨ (a.fieldStats.find? k).isSome := by
  obtain rfl | ⟨isMaster, name, disk₁, disk₂, hwrites⟩ := tryDumpRestart_cases h
  · exact Or.inl hk
  · have hdisk₂ : disk₂.linked.Holds k := by
      have hlink := hwrites.link
      cases isMaster with
      | true =>
        rw [hlink, if_pos rfl, RestartDisk.linked_createLatest] at hk
        exact LinkedFolders.holds_linkTo.mp hk
      | false =>
        rw [hlink] at hk
        exact hk
    obtain hdisk₁ | hmem := dumpTemporalStatistics_holds hwrites.dump hdisk₂
    · have hbefore := createMainRestartDirectory_holds hwrites.create hdisk₁
      left
      split_ifs at hbefore
      · rw [RestartDisk.linked_deleteLatest] at hbefore
        exact LinkedFolders.holds_unlink.mp hbefore
      · exact hbefore
    · right
      obtain ⟨e, he, rfl⟩ := List.mem_map.mp hmem
      rw [OrderedMap.find?_eq_some_iff.mpr he]
      rfl

/-- The flush writes a restart, which is found at the restart time. -/
structure Restarts (lib : RestartLibrary) (conf : Config) (a : StatisticsAction ctx)
    (md : BaseMetadata) (t : String) (disk : RestartDisk) : Prop where
  writes : conf.opt.writeRestart = true
  need : a.needRestart = true
  kind : ∃ flushKind ∈ restartFlushes,
    getString ctx.toStatisticsContext md "flushKind" = .ok (some flushKind)
  dump : a.tryDumpRestart lib conf md = .ok disk
  /-- The name of the folder, which is not that of the link. -/
  name : ∃ name, generateRestartNameFromFlush lib a md = .ok name ∧ name ≠ LinkedFolders.latest ∧
    disk.resolve t = name

theorem Restarts.field {md : BaseMetadata} {disk : RestartDisk}
    (h : a.Restarts lib conf md t disk) :
    (disk.folder t).isSome ∧
      ∀ k ts, a.fieldStats.find? k = some ts →
        ∃ dir, ts.dump = .ok dir ∧ disk.field t k = some dir := by
  obtain ⟨flushKind, hmem, hkind⟩ := h.kind
  obtain ⟨name, hname, hlatest, hresolve⟩ := h.name
  have hdump := h.dump
  unfold tryDumpRestart at hdump
  rw [hkind, ok_bind] at hdump
  simp only [] at hdump
  rw [if_pos (by rw [h.writes, h.need]; rfl)] at hdump
  obtain ⟨serverRank, -, hdump⟩ := bind_eq_ok_iff.mp hdump
  rw [if_pos hmem, hname, ok_bind] at hdump
  obtain ⟨disk₁, hcreate, hdump⟩ := bind_eq_ok_iff.mp hdump
  obtain ⟨disk₂, hdump, hdisk⟩ := bind_eq_ok_iff.mp hdump
  have hfolder : disk.folder t = disk₂.folder name := by
    have hfolders : disk.linked.folders = disk₂.linked.folders := by
      rw [← Except.ok.inj hdisk]
      split_ifs
      · rw [RestartDisk.linked_createLatest, LinkedFolders.folders_linkTo]
      · rfl
    rw [← disk₂.folder_linked, LinkedFolders.folder_of_ne_latest _ hlatest, ← hfolders, ← hresolve]
    rfl
  refine ⟨?_, fun k ts hk => ?_⟩
  · rw [hfolder]
    exact (dumpTemporalStatistics_grown hdump).folder (createMainRestartDirectory_ok hcreate).2
  · have hentry := (dumpTemporalStatistics_field hdump).2 (k, ts)
      (OrderedMap.find?_eq_some_iff.mp hk)
    unfold RestartDisk.field at hentry ⊢
    rw [hfolder]
    exact hentry

/-- The fields have the operations that are configured, and something is to be written as soon as
there is a field. -/
structure Made (conf : Config) (a : StatisticsAction ctx) : Prop where
  configured : ∀ k ts, a.fieldStats.find? k = some ts →
    ∃ p, TemporalStatistics.Configured p conf.operations ts
  known : a.needRestart = true → ∃ k, (a.fieldStats.find? k).isSome

theorem Made.init (disk : RestartDisk) : Made conf ({ disk } : StatisticsAction ctx) where
  configured _ _ hk := by cases hk
  known h := by cases h

theorem configured_make {cfg : StatisticsConfiguration ctx.arithmetic} {ts : TemporalStatistics ctx}
    (hA : Lawful ctx.arithmetic) (h : TemporalStatistics.make conf cfg msg = .ok ts) :
    ∃ p, ts.Configured p conf.operations := by
  have hmake := h
  unfold TemporalStatistics.make makeOperations at hmake
  obtain ⟨u, -, hmake⟩ := bind_eq_ok_iff.mp hmake
  obtain ⟨ops, hops, -⟩ := bind_eq_ok_iff.mp hmake
  obtain ⟨p, hp, -⟩ := bind_eq_ok_iff.mp hops
  exact ⟨p, .make hA hp h⟩

theorem Made.step (hA : Lawful ctx.arithmetic) (hread : conf.opt.readRestart = false)
    (h : Made conf a) (hmsg : a.executeImpl lib conf msg = .ok (a', out)) : Made conf a' := by
  -- only fields change the statistics
  by_cases htag : msg.tag = .field
  · cases hcfg : StatisticsConfiguration.make ctx conf.opt msg.metadata msg.source with
    | error e =>
      rw [executeImpl, htag] at hmsg
      simp only [] at hmsg
      rw [executeField, hcfg] at hmsg
      cases hmsg
    | ok cfg =>
      rw [executeImpl_eq htag hcfg] at hmsg
      obtain ⟨ts, hfound, hmsg⟩ := bind_eq_ok_iff.mp hmsg
      obtain ⟨⟨ts', out'⟩, hprocess, hmsg⟩ := bind_eq_ok_iff.mp hmsg
      obtain ⟨rfl, -⟩ := Prod.mk.inj (Except.ok.inj hmsg)
      have hts : ∃ p, ts.Configured p conf.operations := by
        unfold found at hfound
        rw [hread, if_neg (by simp)] at hfound
        cases hfind : a.fieldStats.find? cfg.key with
        | some ts₁ =>
          rw [findOrMake_some hfind] at hfound
          obtain rfl := Except.ok.inj hfound
          exact h.configured _ _ hfind
        | none =>
          rw [findOrMake_none hread hfind] at hfound
          exact configured_make hA hfound
      obtain ⟨p, hp⟩ := hts
      refine ⟨fun k ts₁ hk => ?_, fun _ => ⟨cfg.key, Option.isSome_of_eq_some
        ((OrderedMap.find?_insert _ _ _ _).trans (if_pos rfl))⟩⟩
      rw [OrderedMap.find?_insert] at hk
      split_ifs at hk
      · obtain rfl := Option.some.inj hk
        exact ⟨p, hp.of_kept (TemporalStatistics.kept_process hA hprocess)⟩
      · exact h.configured k ts₁ hk
  · have hsame : a'.fieldStats = a.fieldStats ∧ a'.needRestart = a.needRestart := by
      unfold executeImpl at hmsg
      split at hmsg
      · obtain ⟨disk, -, hmsg⟩ := bind_eq_ok_iff.mp hmsg
        obtain ⟨rfl, -⟩ := Prod.mk.inj (Except.ok.inj hmsg)
        exact ⟨rfl, rfl⟩
      · exact absurd ‹_› htag
      · obtain ⟨rfl, -⟩ := Prod.mk.inj (Except.ok.inj hmsg)
        exact ⟨rfl, rfl⟩
    refine ⟨fun k ts hk => h.configured k ts (hsame.1 ▸ hk), fun hneed => ?_⟩
    rw [hsame.1]
    exact h.known (hsame.2 ▸ hneed)

theorem Made.run (hA : Lawful ctx.arithmetic) (hread : conf.opt.readRestart = false)
    (h : Made conf a) {msgs : List Message} {outs : List (List Message)}
    (hrun : run lib conf a msgs = .ok (a', outs)) : Made conf a' := by
  induction msgs generalizing a outs with
  | nil =>
    obtain ⟨rfl, -⟩ := Prod.mk.inj (Except.ok.inj hrun)
    exact h
  | cons msg msgs ih =>
    rw [StatisticsAction.run] at hrun
    obtain ⟨⟨a₁, out⟩, hmsg, hrun⟩ := bind_eq_ok_iff.mp hrun
    obtain ⟨⟨a₂, outs'⟩, hmsgs, hrun⟩ := bind_eq_ok_iff.mp hrun
    obtain ⟨rfl, -⟩ := Prod.mk.inj (Except.ok.inj hrun)
    exact ih (h.step hA hread hmsg) hmsgs

/-- The statistics of a field are the same, or still to be loaded. -/
structure Resumed (lib : RestartLibrary) (conf : Config) (t : String) (K : Set String)
    (a₀ : StatisticsAction ctx) (pre : List Message) (a b : StatisticsAction ctx) : Prop where
  disk : b.disk = a.disk
  mounted : (a.disk.folder t).isSome
  stats : ∀ k, b.fieldStats.find? k = a.fieldStats.find? k ∨
    b.fieldStats.find? k = none ∧ (a₀.fieldStats.find? k).isSome ∧
      (∀ m ∈ pre, fieldOf ctx conf m ≠ some k) ∧ ∃ ts dir, a.fieldStats.find? k = some ts ∧
        a.disk.field t k = some dir ∧ TemporalStatistics.load lib dir = .ok ts
  fresh : ∀ k ∈ K, a.fieldStats.find? k = none → ¬ a.disk.linked.Holds k
  last : (∃ m ∈ pre, ∃ k, fieldOf ctx conf m = some k) →
    b.needRestart = a.needRestart ∧ b.lastDateTime = a.lastDateTime

/-- What a run that reads a restart finds of a field that it does not know. -/
theorem findOrMake_reading {cfg : StatisticsConfiguration ctx.arithmetic}
    (hnone : b.fieldStats.find? cfg.key = none) :
    b.findOrMake lib (conf.reading t) cfg msg = ((b.disk.field t cfg.key).map
      (TemporalStatistics.load lib)).getD (TemporalStatistics.make conf cfg msg) := by
  have htime : (conf.reading t).opt.restartTime = t := rfl
  rw [findOrMake, hnone]
  simp only [htime]
  cases b.disk.field t cfg.key with
  | some dir => rfl
  | none => exact TemporalStatistics.make_reading msg

namespace Resumed

variable {K : Set String} {pre : List Message}

theorem found (hread : conf.opt.readRestart = false) (h : Resumed lib conf t K a₀ pre a b)
    {cfg : StatisticsConfiguration ctx.arithmetic} (hkey : cfg.key ∈ K) :
    b.found lib (conf.reading t) cfg msg = a.found lib conf cfg msg := by
  have hmounted : (b.disk.folder t).isNone = false := by
    rw [h.disk, Option.isNone_eq_false_iff]
    exact h.mounted
  have hreading : b.found lib (conf.reading t) cfg msg =
      b.findOrMake lib (conf.reading t) cfg msg :=
    if_neg fun hno => Bool.false_ne_true (hmounted.symm.trans hno.2)
  have hgoing : a.found lib conf cfg msg = a.findOrMake lib conf cfg msg :=
    if_neg fun hno => Bool.false_ne_true (hread.symm.trans hno.1)
  rw [hreading, hgoing]
  obtain hsame | ⟨hnone, -, -, ts, dir, hts, hdir, hload⟩ := h.stats cfg.key
  · cases hfind : a.fieldStats.find? cfg.key with
    | some ts =>
      rw [findOrMake_some hfind, findOrMake_some (hsame.trans hfind)]
    | none =>
      have hfield : b.disk.field t cfg.key = none := by
        rw [h.disk]
        exact LinkedFolders.entry_of_not_holds (h.fresh _ hkey hfind) t
      rw [findOrMake_none hread hfind, findOrMake_reading (hsame.trans hfind), hfield]
      rfl
  · rw [findOrMake_some hts, findOrMake_reading hnone, h.disk, hdir]
    exact hload

def Next (lib : RestartLibrary) (conf : Config) (t : String) (K : Set String)
    (a₀ : StatisticsAction ctx) (pre : List Message)
    (x y : StatisticsAction ctx × List Message) : Prop :=
  x.2 = y.2 ∧ Resumed lib conf t K a₀ pre x.1 y.1

theorem field (hread : conf.opt.readRestart = false) (h : Resumed lib conf t K a₀ pre a b)
    (htag : msg.tag = .field) (hK : ∀ k, fieldOf ctx conf msg = some k → k ∈ K) :
    SameResult (Next lib conf t K a₀ (pre ++ [msg])) (a.executeImpl lib conf msg)
      (b.executeImpl lib (conf.reading t) msg) := by
  cases hcfg : StatisticsConfiguration.make ctx conf.opt msg.metadata msg.source with
  | error e =>
    have herror : ∀ (conf' : Config) (c : StatisticsAction ctx),
        StatisticsConfiguration.make ctx conf'.opt msg.metadata msg.source = .error e →
        c.executeImpl lib conf' msg = .error e := fun conf' c he => by
      rw [executeImpl, htag]
      simp only []
      rw [executeField, he]
      rfl
    rw [herror conf a hcfg, herror (conf.reading t) b hcfg]
    rfl
  | ok cfg =>
    have hkey : fieldOf ctx conf msg = some cfg.key :=
      fieldKey_eq_some_iff.mpr ⟨htag, cfg, hcfg, rfl⟩
    have hreading : b.executeImpl lib (conf.reading t) msg = _ := executeImpl_eq htag hcfg
    rw [executeImpl_eq htag hcfg, hreading, h.found hread (hK _ hkey)]
    -- both actions find or make the statistics of the field, and go on with them in the same way
    refine SameResult.bind (SameResult.of_eq rfl) fun ts ts' hts => ?_
    subst hts
    refine SameResult.bind (SameResult.of_eq
      (TemporalStatistics.process_reading ts msg).symm) fun x y hxy => ?_
    subst hxy
    refine ⟨rfl, h.disk, h.mounted, fun k => ?_, fun k hk hnone => ?_, fun _ => ⟨rfl, rfl⟩⟩
    · rw [OrderedMap.find?_insert, OrderedMap.find?_insert]
      split_ifs with hk
      · exact Or.inl rfl
      · refine (h.stats k).imp id ?_
        rintro ⟨hnone, hknown, hpre, hload⟩
        refine ⟨hnone, hknown, ?_, hload⟩
        rw [List.forall_mem_append, List.forall_mem_singleton]
        exact ⟨hpre, fun hsame => hk (Option.some.inj (hsame.symm.trans hkey))⟩
    · rw [OrderedMap.find?_insert] at hnone
      split_ifs at hnone
      exact h.fresh k hk hnone

theorem fieldOf_rest (htag : msg.tag ≠ .field) : fieldOf ctx conf msg = none := if_neg htag

theorem rest (h : Resumed lib conf t K a₀ pre a b) (htag : msg.tag ≠ .field) :
    Resumed lib conf t K a₀ (pre ++ [msg]) a b where
  disk := h.disk
  mounted := h.mounted
  stats k := by
    refine (h.stats k).imp id ?_
    rintro ⟨hnone, hknown, hpre, hload⟩
    refine ⟨hnone, hknown, ?_, hload⟩
    rw [List.forall_mem_append, List.forall_mem_singleton, fieldOf_rest htag]
    exact ⟨hpre, (Option.some_ne_none k).symm⟩
  fresh := h.fresh
  last := by
    rintro ⟨m, hm, k, hk⟩
    obtain hpre | hlast := List.mem_append.mp hm
    · exact h.last ⟨m, hpre, k, hk⟩
    · rw [List.mem_singleton.mp hlast, fieldOf_rest htag] at hk
      cases hk

/-- Once all fields of the restart have had a message, both runs are in the same state. -/
theorem eq_of_forall (h : Resumed lib conf t K a₀ pre a b)
    (hmade : ∃ k, (a₀.fieldStats.find? k).isSome)
    (hall : ∀ k, (a₀.fieldStats.find? k).isSome → ∃ m ∈ pre, fieldOf ctx conf m = some k) :
    b = a := by
  have hstats : b.fieldStats = a.fieldStats := OrderedMap.ext_find? fun k => by
    obtain hsame | ⟨-, hknown, hpre, -⟩ := h.stats k
    · exact hsame
    · obtain ⟨m, hm, hk⟩ := hall k hknown
      exact absurd hk (hpre m hm)
  obtain ⟨k, hk⟩ := hmade
  obtain ⟨m, hm, hmk⟩ := hall k hk
  obtain ⟨hneed, hlast⟩ := h.last ⟨m, hm, k, hmk⟩
  have hdisk := h.disk
  cases a
  cases b
  cases hstats
  cases hneed
  cases hlast
  cases hdisk
  rfl

theorem flush (h : Resumed lib conf t K a₀ pre a b) (htag : msg.tag = .flush) (hba : b = a) :
    SameResult (Next lib conf t K a₀ (pre ++ [msg])) (a.executeImpl lib conf msg)
      (b.executeImpl lib (conf.reading t) msg) := by
  subst hba
  rw [executeImpl, executeImpl, htag]
  simp only []
  rw [tryDumpRestart_reading]
  cases hdump : b.tryDumpRestart lib conf msg.metadata with
  | error e => rfl
  | ok disk =>
    refine ⟨rfl, rest ⟨rfl, tryDumpRestart_folder hdump h.mounted, fun k => Or.inl rfl,
      fun k hk hnone hholds => ?_, fun _ => ⟨rfl, rfl⟩⟩ (by rw [htag]; decide)⟩
    obtain hold | hknown := tryDumpRestart_holds hdump hholds
    · exact h.fresh k hk hnone hold
    · rw [hnone] at hknown
      cases hknown

/-- What a message needs for the two runs to stay related: a flush comes when all fields of the
restart have had a message. -/
def Admits (ctx : StatisticsContext) (conf : Config) (K : Set String) (a₀ : StatisticsAction ctx)
    (pre : List Message) (msg : Message) : Prop :=
  (∀ k, fieldOf ctx conf msg = some k → k ∈ K) ∧
    (msg.tag = .flush →
      ∀ k, (a₀.fieldStats.find? k).isSome → ∃ m ∈ pre, fieldOf ctx conf m = some k)

theorem step (hread : conf.opt.readRestart = false) (hmade : ∃ k, (a₀.fieldStats.find? k).isSome)
    (h : Resumed lib conf t K a₀ pre a b) (hadmits : Admits ctx conf K a₀ pre msg) :
    SameResult (Next lib conf t K a₀ (pre ++ [msg])) (a.executeImpl lib conf msg)
      (b.executeImpl lib (conf.reading t) msg) := by
  by_cases htag : msg.tag = .field
  · exact h.field hread htag hadmits.1
  · by_cases hflush : msg.tag = .flush
    · exact h.flush hflush (h.eq_of_forall hmade (hadmits.2 hflush))
    · have hpasses : ∀ (conf' : Config) (c : StatisticsAction ctx),
          c.executeImpl lib conf' msg = .ok (c, [msg]) := fun conf' c => by
        unfold executeImpl
        split
        · exact absurd ‹_› hflush
        · exact absurd ‹_› htag
        · rfl
      rw [hpasses conf a, hpasses (conf.reading t) b]
      exact ⟨rfl, h.rest htag⟩

theorem run (hread : conf.opt.readRestart = false) (hmade : ∃ k, (a₀.fieldStats.find? k).isSome)
    {msgs : List Message} (h : Resumed lib conf t K a₀ pre a b)
    (hadmits : ∀ mid m, mid ++ [m] <+: msgs → Admits ctx conf K a₀ (pre ++ mid) m) :
    SameResult (fun x y => x.2 = y.2 ∧ Resumed lib conf t K a₀ (pre ++ msgs) x.1 y.1)
      (StatisticsAction.run lib conf a msgs)
      (StatisticsAction.run lib (conf.reading t) b msgs) := by
  induction msgs generalizing pre a b with
  | nil =>
    rw [List.append_nil]
    exact ⟨rfl, h⟩
  | cons msg msgs ih =>
    rw [StatisticsAction.run, StatisticsAction.run]
    have hfirst := hadmits [] msg ⟨msgs, rfl⟩
    rw [List.append_nil] at hfirst
    refine SameResult.bind (h.step hread hmade hfirst) fun x y hxy => ?_
    obtain ⟨a₁, out⟩ := x
    obtain ⟨b₁, out'⟩ := y
    obtain ⟨hout, h₁⟩ := hxy
    have hrest := ih h₁ fun mid m hmid => by
      rw [List.append_assoc]
      exact hadmits (msg :: mid) m (List.cons_prefix_cons.mpr ⟨rfl, hmid⟩)
    refine SameResult.bind hrest fun x y hxy => ?_
    obtain ⟨houts, hlast⟩ := hxy
    rw [List.append_assoc] at hlast
    exact ⟨List.cons_eq_cons.mpr ⟨hout, houts⟩, hlast⟩

end Resumed

/-- Messages that a restarted run can go on with: no field that is new has files of an older run,
and a flush comes when all fields of the restart have had a message. -/
structure Resumable (ctx : StatisticsContext) (conf : Config) (a : StatisticsAction ctx)
    (disk : RestartDisk) (suffix : List Message) : Prop where
  fresh : ∀ m ∈ suffix, ∀ k, fieldOf ctx conf m = some k → a.fieldStats.find? k = none →
    ¬ disk.linked.Holds k
  flushes : ∀ pre m, pre ++ [m] <+: suffix → m.tag = .flush →
    ∀ k, (a.fieldStats.find? k).isSome → ∃ m' ∈ pre, fieldOf ctx conf m' = some k

def SameAfter (ctx : StatisticsContext) (conf : Config) (suffix : List Message)
    (x y : StatisticsAction ctx × List (List Message)) : Prop :=
  x.2 = y.2 ∧ x.1.disk = y.1.disk ∧ ∀ m ∈ suffix, ∀ k, fieldOf ctx conf m = some k →
    x.1.fieldStats.find? k = y.1.fieldStats.find? k

/-- A run ends with a flush that writes a restart. A run that reads it goes on as the first one
would have: it ends with the same exception, or it sends and writes the same. -/
theorem restarted_run (hA : Lawful ctx.arithmetic) (hcal : ctx.calendar.IsGregorian)
    (hlib : lib.Lawful ctx.calendar) (hread : conf.opt.readRestart = false)
    (hops : ∀ p, TemporalStatistics.Restartable lib p conf.operations)
    {d disk : RestartDisk} {msgs suffix : List Message} {outs : List (List Message)}
    {md : BaseMetadata} (hrun : run lib conf { disk := d } msgs = .ok (a, outs))
    (hflush : a.Restarts lib conf md t disk)
    (hdated : ∀ k ts, a.fieldStats.find? k = some ts → WindowRestart.Dated ctx ts.window)
    (hsuffix : Resumable ctx conf a disk suffix) :
    SameResult (SameAfter ctx conf suffix) (run lib conf { a with disk } suffix)
      (run lib (conf.reading t) { disk } suffix) := by
  have hmade := (Made.init d).run hA hread hrun
  obtain ⟨hmounted, hdumped⟩ := hflush.field
  -- the fields that have a message after the restart: for these both actions agree in the end
  let K : Set String := fun k => ∃ m ∈ suffix, fieldOf ctx conf m = some k
  have hstart : Resumed lib conf t K a [] { a with disk } { disk } :=
    { disk := rfl
      mounted := hmounted
      stats := fun k => by
        by_cases hk : ∃ ts, a.fieldStats.find? k = some ts
        · obtain ⟨ts, hk⟩ := hk
          obtain ⟨p, hp⟩ := hmade.configured k ts hk
          obtain ⟨dir, hdir, hfield⟩ := hdumped k ts hk
          exact Or.inr ⟨rfl, Option.isSome_of_eq_some hk,
            fun _ hm => absurd hm List.not_mem_nil, ts, dir, hk, hfield,
            (hp.load_eq_ok_iff hA hcal hlib (hdated k ts hk) hdir).mpr (hops p)⟩
        · rw [← Option.isSome_iff_exists, Option.not_isSome_iff_eq_none] at hk
          exact Or.inl hk.symm
      fresh := fun k ⟨m, hm, hmk⟩ hnone => hsuffix.fresh m hm k hmk hnone
      last := fun ⟨_, hm, _⟩ => absurd hm List.not_mem_nil }
  have hadmits : ∀ mid m, mid ++ [m] <+: suffix → Resumed.Admits ctx conf K a ([] ++ mid) m :=
    fun mid m hmid =>
      ⟨fun k hk => ⟨m, hmid.subset (List.mem_append_right _ List.mem_cons_self), hk⟩,
        hsuffix.flushes mid m hmid⟩
  refine (hstart.run hread (hmade.known hflush.need) hadmits).mono fun x y ⟨houts, h⟩ =>
    ⟨houts, h.disk.symm, fun m hm k hk => ?_⟩
  obtain hsame | ⟨-, -, hno, -⟩ := h.stats k
  · exact hsame.symm
  · exact absurd hk (hno m hm)

def keeping : Config where
  opt := { solverSendInitStep := true, writeRestart := true }
  operations := ["average", "minimum"]
  outputFrequency := "2h"

def restartFlush (restartDateTime : String) : Message where
  header :=
    { tag := .flush
      source := {}
      destination := {}
      metadata :=
        { bucketCount := 541
          nodes := [("flushKind", .string "step-and-restart"),
            ("restartDateTime", .string restartDateTime)] } }
  payload := []

/-- A second restart is written between the messages that follow the first one. -/
def afterRestart : List Message :=
  [fieldMessage 2, restartFlush "20200101-020000", fieldMessage 3]

set_option maxRecDepth 4000 in
theorem restarted_run_hours :
    ∃ (a : StatisticsAction wordContext) (outs : List (List Message)) (disk : RestartDisk),
      run orderedRestart keeping {} [fieldMessage 0, fieldMessage 1] = .ok (a, outs) ∧
      a.Restarts orderedRestart keeping (restartFlush "20200101-010000").metadata "latest" disk ∧
      SameResult (SameAfter wordContext keeping afterRestart)
        (run orderedRestart keeping { a with disk } afterRestart)
        (run orderedRestart (keeping.reading "latest") { disk } afterRestart) := by
  let key := "130-0-sfc-regular_ll-double-0"
  have hkeys : fieldOf wordContext keeping (fieldMessage 2) = some key ∧
      fieldOf wordContext keeping (restartFlush "20200101-020000") = none ∧
      fieldOf wordContext keeping (fieldMessage 3) = some key := ⟨rfl, rfl, rfl⟩
  obtain ⟨a, outs, disk, hrun, hflush, ts, hentries, hdated⟩ :
      ∃ (a : StatisticsAction wordContext) (outs : List (List Message)) (disk : RestartDisk),
        run orderedRestart keeping {} [fieldMessage 0, fieldMessage 1] = .ok (a, outs) ∧
        a.Restarts orderedRestart keeping (restartFlush "20200101-010000").metadata "latest" disk ∧
        ∃ ts, a.fieldStats.entries = [(key, ts)] ∧ WindowRestart.Dated wordContext ts.window := by
    refine ⟨_, _, _, rfl, ⟨rfl, rfl, ⟨"step-and-restart", by decide, rfl⟩, rfl, "20200101-010000",
      rfl, by decide, rfl⟩, _, rfl, ?_⟩
    exact ⟨by decide, by decide, by decide, by decide, by decide, by decide, by decide⟩
  have hknown : ∀ k ts', a.fieldStats.find? k = some ts' ↔ k = key ∧ ts' = ts := fun k ts' => by
    rw [OrderedMap.find?_eq_some_iff, hentries, List.mem_singleton, Prod.mk.injEq]
  refine ⟨a, outs, disk, hrun, hflush, restarted_run wordArithmetic_lawful
    Calendar.gregorian_isGregorian orderedRestart_lawful rfl (fun p => ?_) hrun hflush ?_ ?_⟩
  · exact ⟨by decide, by decide, rfl⟩
  · intro k ts' hk
    obtain ⟨-, rfl⟩ := (hknown k ts').mp hk
    exact hdated
  · refine ⟨fun m hm k hk hnone => ?_, fun pre m hpre htag k hk => ?_⟩
    · have hkey : k = key := by
        simp only [afterRestart, List.mem_cons, List.not_mem_nil, or_false] at hm
        obtain rfl | rfl | rfl := hm
        · exact Option.some.inj (hk.symm.trans hkeys.1)
        · rw [hkeys.2.1] at hk
          cases hk
        · exact Option.some.inj (hk.symm.trans hkeys.2.2)
      rw [(hknown k ts).mpr ⟨hkey, rfl⟩] at hnone
      cases hnone
    · obtain ⟨ts', hk⟩ := Option.isSome_iff_exists.mp hk
      obtain ⟨rfl, -⟩ := (hknown k ts').mp hk
      refine ⟨fieldMessage 2, ?_, hkeys.1⟩
      cases pre with
      | nil =>
        obtain ⟨rfl, -⟩ := List.cons_prefix_cons.mp hpre
        cases htag
      | cons m' pre =>
        obtain ⟨rfl, -⟩ := List.cons_prefix_cons.mp hpre
        exact List.mem_cons_self

end StatisticsAction
end Multio.Statistics
