import Multio.Action.KeyedAction
import Multio.Action.StatisticsMtg2.ExactContext
import Multio.Action.StatisticsMtg2.FieldSteps

namespace Multio.StatisticsMtg2
open Lib Exception Multio.Action

variable {ctx : StatisticsContext} {io : RestartIO ctx}

def isLastStep (ctx : StatisticsContext) (msg : Message) : Bool :=
  msg.tag = .flush ∧ (FlushKind.parse ctx msg.metadata).toOption = some .lastStep

/-- Whether a message may write a restart that fields are then loaded from. -/
def writesRestart (ctx : StatisticsContext) (conf : Config) (msg : Message) : Bool :=
  msg.tag = .flush ∧ conf.opt.readRestart ∧ conf.opt.writeRestart ∧
    (FlushKind.parse ctx msg.metadata).toOption = some .stepAndRestart

namespace StatisticsAction

def keyed (io : RestartIO ctx) (conf : Config) : KeyedAction where
  State := StatisticsAction ctx io
  Stats := TemporalStatistics ctx
  Disk := Option (LinkedFolders io.Field)
  execute a msg := a.executeImpl conf msg
  key msg := fieldKey StatisticsConfiguration.key msg
    (StatisticsConfiguration.make ctx conf.opt msg.metadata msg.source)
  stats a k := a.fieldStats.find? k
  keys a := a.fieldStats.entries.map Prod.fst
  emitted msg ts :=
    if isLastStep ctx msg then (ts.emitStatistics conf msg.source msg.destination).state.2 else []
  after msg ts :=
    if isLastStep ctx msg then (ts.emitStatistics conf msg.source msg.destination).state.1 else ts
  disk a := if conf.opt.readRestart then some a.disk else none
  mounted a := conf.opt.readRestart = true → (a.disk.folder conf.restartTime).isSome
  writes := writesRestart ctx conf

variable {conf : Config} {a b a₁ : StatisticsAction ctx io} {msg : Message} {k : String}
  {out : List Message}

/-- The statistics that a message of a field finds or makes, where the restarts are there. -/
def found (conf : Config) (a : StatisticsAction ctx io)
    (cfg : StatisticsConfiguration ctx.arithmetic) (msg : Message) :
    Except Exception (TemporalStatistics ctx) :=
  if conf.opt.readRestart ∧ (a.disk.folder conf.restartTime).isNone then
    .error (.seriousBug ("Main restart directory does not exist :: " ++ conf.restartPath ++ "\n"))
  else a.findOrMake conf cfg msg

theorem executeImpl_field {cfg : StatisticsConfiguration ctx.arithmetic} (htag : msg.tag = .field)
    (hcfg : StatisticsConfiguration.make ctx conf.opt msg.metadata msg.source = .ok cfg) :
    a.executeImpl conf msg =
      .needing (a.updateLatestDateTime cfg, []) (a.found conf cfg msg) fun ts =>
        (ts.process conf cfg msg).map fun (ts, out) =>
          ({ a.updateLatestDateTime cfg with fieldStats := a.fieldStats.insert cfg.key ts },
            out) := by
  rw [executeImpl, htag]
  simp only []
  rw [executeField, hcfg]
  unfold found
  change (if conf.opt.readRestart = true ∧ (a.disk.folder conf.restartTime).isNone = true then _
    else _) = _
  split_ifs
  · rfl
  · rfl

theorem found_congr {cfg : StatisticsConfiguration ctx.arithmetic}
    (hstats : a.fieldStats.find? cfg.key = b.fieldStats.find? cfg.key)
    (hagree : (keyed io conf).Agree a b cfg.key) : a.found conf cfg msg = b.found conf cfg msg := by
  unfold found findOrMake
  rw [hstats]
  cases hread : conf.opt.readRestart with
  | false => simp only [Bool.false_eq_true, false_and, if_false]
  | true =>
    obtain hdisk | ⟨hsome, hmounted, hmounted'⟩ := hagree
    · have hsame : a.disk = b.disk := by
        simp only [keyed, hread, if_true, Option.some.injEq] at hdisk
        exact hdisk
      rw [hsame]
    · have hfolder := Option.isNone_eq_false_iff.mpr (hmounted hread)
      have hfolder' := Option.isNone_eq_false_iff.mpr (hmounted' hread)
      rw [hfolder, hfolder']
      change (a.fieldStats.find? cfg.key).isSome = true at hsome
      rw [hstats] at hsome
      obtain ⟨ts, hts⟩ := Option.isSome_iff_exists.mp hsome
      rw [hts]

theorem mounted_of_found {cfg : StatisticsConfiguration ctx.arithmetic}
    {ts : TemporalStatistics ctx} (h : a.found conf cfg msg = .ok ts) :
    (keyed io conf).mounted a := by
  intro hread
  unfold found at h
  split_ifs at h with hnone
  rw [not_and, Bool.not_eq_true, Option.isNone_eq_false_iff] at hnone
  exact hnone hread

theorem executeImpl_field_returns {cfg : StatisticsConfiguration ctx.arithmetic}
    (htag : msg.tag = .field)
    (hcfg : StatisticsConfiguration.make ctx conf.opt msg.metadata msg.source = .ok cfg)
    (hret : (a.executeImpl conf msg).Returns (a₁, out)) :
    ∃ ts ts₁, a.found conf cfg msg = .ok ts ∧ (ts.process conf cfg msg).Returns (ts₁, out) ∧
      a₁.disk = a.disk ∧ a₁.fieldStats = a.fieldStats.insert cfg.key ts₁ := by
  rw [executeImpl_field htag hcfg] at hret
  obtain ⟨ts, hfound, hret⟩ := Outcome.needing_returns_iff.mp hret
  obtain ⟨⟨ts₁, out₁⟩, hprocess, heq⟩ := Outcome.map_returns_iff.mp hret
  obtain ⟨rfl, rfl⟩ := Prod.mk.inj heq
  exact ⟨ts, ts₁, hfound, hprocess, rfl, rfl⟩

/-- A last step changes what is known of a field by what is known of it. -/
theorem emitFields_returns {src dst : Peer} {es : List (String × TemporalStatistics ctx)}
    (hes : es.Pairwise fun e e' => e.1 < e'.1)
    (hret : (emitFields conf src dst a es).Returns (a₁, out)) :
    a₁.disk = a.disk ∧
      (∀ k, a₁.fieldStats.find? k =
        ((OrderedMap.lookup k es).map fun ts => (ts.emitStatistics conf src dst).state.1).or
          (a.fieldStats.find? k)) ∧
      (out = es.flatMap fun e => (e.2.emitStatistics conf src dst).state.2) ∧
      ∀ e ∈ es, (e.2.emitStatistics conf src dst).exception = none := by
  -- on the fields: each is emitted once, and the statistics of the others are not touched
  induction es generalizing a out with
  | nil =>
    obtain ⟨rfl, rfl⟩ := Prod.mk.inj (Outcome.returns_mk.mp hret)
    exact ⟨rfl, fun k => rfl, rfl, fun e he => absurd he List.not_mem_nil⟩
  | cons e es ih =>
    obtain ⟨hhead, htail⟩ := List.pairwise_cons.mp hes
    rw [emitFields] at hret
    obtain ⟨⟨a₂, out₂⟩, hfirst, hret⟩ := Outcome.andThen_returns_iff.mp hret
    obtain ⟨⟨ts₂, out₂'⟩, hemit, heq⟩ := Outcome.map_returns_iff.mp hfirst
    obtain ⟨rfl, rfl⟩ := Prod.mk.inj heq
    obtain ⟨⟨a₃, out₃⟩, hrest, heq⟩ := Outcome.map_returns_iff.mp hret
    obtain ⟨rfl, rfl⟩ := Prod.mk.inj heq
    obtain ⟨hdisk, hstats, rfl, hreturn⟩ := ih htail hrest
    obtain ⟨hnone, hstate⟩ := Outcome.returns_iff.mp hemit
    refine ⟨hdisk, fun k => ?_, ?_, List.forall_mem_cons.mpr ⟨hnone, hreturn⟩⟩
    · rw [hstats, OrderedMap.lookup]
      rw [show ({ a with fieldStats := a.fieldStats.insert e.1 ts₂ } :
        StatisticsAction ctx io).fieldStats = a.fieldStats.insert e.1 ts₂ from rfl,
        OrderedMap.find?_insert]
      by_cases hk : k = e.1
      · have hnone : OrderedMap.lookup k es = none := by
          cases hlookup : OrderedMap.lookup k es with
          | none => rfl
          | some ts =>
            have hlt := hhead _ ((OrderedMap.lookup_eq_some_iff htail).mp hlookup)
            exact absurd hk.symm hlt.ne
        rw [hnone, if_pos hk, if_pos hk, Option.map_some, hstate]
        rfl
      · rw [if_neg hk, if_neg hk]
    · rw [List.flatMap_cons, hstate]

theorem createMainRestartDirectory_ok {disk disk₁ : LinkedFolders io.Field} {name : String}
    {isMaster : Bool} (h : createMainRestartDirectory disk name isMaster = .ok disk₁) :
    disk.Grown disk₁ ∧ (disk₁.folder name).isSome := by
  unfold createMainRestartDirectory at h
  split_ifs at h with hfolder
  · obtain rfl := Except.ok.inj h
    exact ⟨.refl _, hfolder⟩
  · obtain rfl := Except.ok.inj h
    exact ⟨disk.grown_create name, disk.isSome_folder_create name⟩

theorem dumpTemporalStatistics_grown {disk disk₁ : LinkedFolders io.Field} {name : String}
    {es : List (String × TemporalStatistics ctx)}
    (h : (dumpTemporalStatistics name disk es).Returns disk₁) : disk.Grown disk₁ := by
  induction es generalizing disk with
  | nil =>
    obtain rfl := Outcome.returns_mk.mp h
    exact .refl _
  | cons e es ih =>
    rw [dumpTemporalStatistics] at h
    split_ifs at h
    · exact absurd h Outcome.not_returns_mk_some
    · exact (disk.grown_add name e.1 _).trans (ih h)

/-- The disk that a restart leaves has all the folders, also behind the link. -/
theorem writeRestart_folder {disk disk₁ : LinkedFolders io.Field} {name t : String}
    {isMaster : Bool} (hret : (a.writeRestart disk name isMaster).Returns disk₁)
    (h : (disk.folder t).isSome) :
    (disk₁.folder t).isSome := by
  obtain ⟨disk₂, hcreate, hret⟩ := Outcome.needing_returns_iff.mp hret
  obtain ⟨disk₃, hdump, hret⟩ := Outcome.andThen_returns_iff.mp hret
  obtain rfl := Outcome.returns_mk.mp hret
  obtain ⟨hgrown, hname⟩ := createMainRestartDirectory_ok hcreate
  have hgrown' := dumpTemporalStatistics_grown hdump
  cases isMaster with
  | true => exact LinkedFolders.isSome_folder_linkTo h (hgrown.trans hgrown') (hgrown'.folder hname)
  | false => exact (hgrown.trans hgrown').folder h

theorem tryDumpRestart_returns {md : BaseMetadata} (hret : (a.tryDumpRestart conf md).Returns a₁) :
    a₁.fieldStats = a.fieldStats ∧
      (∀ t, (a.disk.folder t).isSome → (a₁.disk.folder t).isSome) ∧
      (conf.opt.writeRestart = false ∨ FlushKind.parse ctx md ≠ .ok .stepAndRestart →
        a₁.disk = a.disk) := by
  obtain ⟨flushKind, hkind, hret⟩ := Outcome.needing_returns_iff.mp hret
  split_ifs at hret with hrestart
  · obtain ⟨serverRank, -, hret⟩ := Outcome.needing_returns_iff.mp hret
    obtain ⟨name, -, hret⟩ := Outcome.needing_returns_iff.mp hret
    obtain ⟨disk₁, hwrite, rfl⟩ := Outcome.map_returns_iff.mp hret
    refine ⟨rfl, fun t => writeRestart_folder hwrite, ?_⟩
    rintro (hno | hno)
    · rw [hno] at hrestart
      exact absurd hrestart.2.1 Bool.false_ne_true
    · exact absurd (hrestart.1 ▸ hkind) hno
  · obtain rfl := Outcome.returns_mk.mp hret
    exact ⟨rfl, fun t h => h, fun _ => rfl⟩

/-- A flush emits the statistics of each field by itself, and is passed on after them. -/
theorem executeImpl_flush_returns (htag : msg.tag = .flush)
    (hret : (a.executeImpl conf msg).Returns (a₁, out)) :
    (∀ k, a₁.fieldStats.find? k = (a.fieldStats.find? k).map ((keyed io conf).after msg)) ∧
      out = (a.fieldStats.entries.flatMap fun e => (keyed io conf).emitted msg e.2) ++ [msg] ∧
      (∀ t, (a.disk.folder t).isSome → (a₁.disk.folder t).isSome) ∧
      (conf.opt.writeRestart = false ∨ FlushKind.parse ctx msg.metadata ≠ .ok .stepAndRestart →
        a₁.disk = a.disk) ∧
      (isLastStep ctx msg = true → ∀ e ∈ a.fieldStats.entries,
        (e.2.emitStatistics conf msg.source msg.destination).exception = none) := by
  rw [executeImpl, htag] at hret
  obtain ⟨⟨a₂, out₂⟩, hfirst, hret⟩ := Outcome.andThen_returns_iff.mp hret
  obtain ⟨a₂', hdump, heq⟩ := Outcome.map_returns_iff.mp hfirst
  obtain ⟨rfl, rfl⟩ := Prod.mk.inj heq
  obtain ⟨hstats, hfolders, hdisk⟩ := tryDumpRestart_returns hdump
  obtain ⟨flushKind, hkind, hret⟩ := Outcome.needing_returns_iff.mp hret
  obtain ⟨⟨a₃, out₃⟩, hemit, hret⟩ := Outcome.andThen_returns_iff.mp hret
  obtain ⟨rfl, rfl⟩ := Prod.mk.inj (Outcome.returns_mk.mp hret)
  have hlast : isLastStep ctx msg = decide (flushKind = .lastStep) := by
    unfold isLastStep
    rw [htag, hkind]
    simp [Except.toOption]
  unfold keyed
  simp only [hlast, decide_eq_true_eq]
  -- after the restart is written, only the last step emits
  split_ifs at hemit with hkindlast
  · simp only [hkindlast, if_true]
    obtain ⟨hdisk', hstats', rfl, hreturn⟩ := emitFields_returns a₂'.fieldStats.sorted hemit
    refine ⟨fun k => ?_, by rw [hstats], fun t h => ?_, fun h => ?_, fun _ => hstats ▸ hreturn⟩
    · rw [hstats' k, ← hstats]
      change ((a₂'.fieldStats.find? k).map _).or (a₂'.fieldStats.find? k) = _
      cases a₂'.fieldStats.find? k with
      | none => rfl
      | some ts => rfl
    · rw [hdisk']
      exact hfolders t h
    · rw [hdisk']
      exact hdisk h
  · obtain ⟨rfl, rfl⟩ := Prod.mk.inj (Outcome.returns_mk.mp hemit)
    simp only [hkindlast, if_false]
    refine ⟨fun k => ?_, by simp, hfolders, hdisk, fun h => absurd h (by simp)⟩
    rw [hstats]
    exact Option.map_id'.symm ▸ rfl

theorem executeImpl_rest (hfield : msg.tag ≠ .field) (hflush : msg.tag ≠ .flush) :
    a.executeImpl conf msg = { state := (a, [msg]) } := by
  unfold executeImpl
  split
  · exact absurd ‹_› hflush
  · exact absurd ‹_› hfield
  · rfl

theorem answer_congr {cfg : StatisticsConfiguration ctx.arithmetic} (htag : msg.tag = .field)
    (hcfg : StatisticsConfiguration.make ctx conf.opt msg.metadata msg.source = .ok cfg)
    (hstats : a.fieldStats.find? cfg.key = b.fieldStats.find? cfg.key)
    (hagree : (keyed io conf).Agree a b cfg.key) :
    (keyed io conf).answer a msg cfg.key = (keyed io conf).answer b msg cfg.key := by
  have hkey : (keyed io conf).key msg = some cfg.key :=
    fieldKey_eq_some_iff.mpr ⟨htag, cfg, hcfg, rfl⟩
  unfold KeyedAction.answer
  rw [if_pos hkey, if_pos hkey]
  simp only [keyed]
  rw [executeImpl_field htag hcfg, executeImpl_field htag hcfg, found_congr hstats hagree]
  cases b.found conf cfg msg with
  | error e =>
    simp only [Outcome.needing, updateLatestDateTime, hstats]
  | ok ts =>
    simp only [Outcome.needing, Outcome.map_state, Outcome.map_exception, OrderedMap.find?_insert,
      if_true]

theorem keyed_accept_iff :
    (keyed io conf).accept a msg = some a₁ ↔ ∃ out, (a.executeImpl conf msg).Returns (a₁, out) :=
  KeyedAction.accept_eq_some_iff (A := keyed io conf)

theorem keyed_field (htag : msg.tag = .field) (ha : (keyed io conf).accept a msg = some a₁) :
    ∃ k ts, (keyed io conf).key msg = some k ∧
      (∀ k', a₁.fieldStats.find? k' = if k' = k then some ts else a.fieldStats.find? k') ∧
      (keyed io conf).mounted a ∧ a₁.disk = a.disk := by
  obtain ⟨out, hret⟩ := keyed_accept_iff.mp ha
  cases hcfg : StatisticsConfiguration.make ctx conf.opt msg.metadata msg.source with
  | ok cfg =>
    obtain ⟨ts, ts₁, hfound, -, hdisk, hstats⟩ := executeImpl_field_returns htag hcfg hret
    refine ⟨cfg.key, ts₁, fieldKey_eq_some_iff.mpr ⟨htag, cfg, hcfg, rfl⟩, fun k' => ?_,
      mounted_of_found hfound, hdisk⟩
    rw [hstats, OrderedMap.find?_insert]
  | error e =>
    rw [executeImpl, htag] at hret
    obtain ⟨cfg, hcfg', -⟩ := Outcome.needing_returns_iff.mp hret
    rw [hcfg] at hcfg'
    cases hcfg'

theorem keyed_rest (htag : msg.tag ≠ .field) (ha : (keyed io conf).accept a msg = some a₁) :
    (∀ k, a₁.fieldStats.find? k = (a.fieldStats.find? k).map ((keyed io conf).after msg)) ∧
      (∀ t, (a.disk.folder t).isSome → (a₁.disk.folder t).isSome) ∧
      (writesRestart ctx conf msg = false → conf.opt.readRestart = true → a₁.disk = a.disk) := by
  obtain ⟨out, hret⟩ := keyed_accept_iff.mp ha
  by_cases hflush : msg.tag = .flush
  · obtain ⟨hstats, -, hfolders, hdisk, -⟩ := executeImpl_flush_returns hflush hret
    refine ⟨hstats, hfolders, fun hwrites hread => hdisk ?_⟩
    have hno := of_decide_eq_false hwrites
    by_cases hwrite : conf.opt.writeRestart = true
    · right
      intro hkind
      refine hno ⟨hflush, hread, hwrite, ?_⟩
      rw [hkind]
      rfl
    · exact Or.inl (Bool.eq_false_iff.mpr hwrite)
  · rw [executeImpl_rest htag hflush] at hret
    obtain ⟨rfl, -⟩ := Prod.mk.inj (Outcome.returns_mk.mp hret)
    have hlast : isLastStep ctx msg = false := decide_eq_false fun h => hflush h.1
    refine ⟨fun k => ?_, fun t h => h, fun _ _ => rfl⟩
    simp only [keyed, hlast, Bool.false_eq_true, if_false]
    exact Option.map_id'.symm ▸ rfl

theorem keyed_lawful : (keyed io conf).Lawful where
  tag hkey := (fieldKey_eq_some_iff.mp hkey).1
  own hkey hstats hagree := by
    obtain ⟨htag, cfg, hcfg, rfl⟩ := fieldKey_eq_some_iff.mp hkey
    exact answer_congr htag hcfg hstats hagree
  field htag ha := by
    obtain ⟨k, ts, hkey, hstats, hmounted, hdisk⟩ := keyed_field htag ha
    refine ⟨k, ts, hkey, hstats, hmounted, fun hread => ?_, ?_⟩
    · rw [hdisk]
      exact hmounted hread
    · simp only [keyed, hdisk]
  rest htag ha := by
    obtain ⟨hstats, hfolders, hdisk⟩ := keyed_rest htag ha
    refine ⟨hstats, fun hmounted hread => hfolders _ (hmounted hread), fun hwrites => ?_⟩
    simp only [keyed]
    split_ifs with hread
    · rw [hdisk hwrites hread]
    · rfl

theorem keyed_answer_messages (htag : msg.tag ≠ .field) :
    ((keyed io conf).answer a msg k).messages =
      ((a.fieldStats.find? k).map ((keyed io conf).emitted msg)).getD [] :=
  congrArg KeyedAction.Answer.messages (if_neg fun hkey => htag (keyed_lawful.tag hkey))

theorem executeImpl_emits (htag : msg.tag ≠ .field)
    (hret : (a.executeImpl conf msg).Returns (a₁, out)) :
    out = ((a.fieldStats.entries.map Prod.fst).flatMap fun k =>
      ((keyed io conf).answer a msg k).messages) ++ [msg] := by
  by_cases hflush : msg.tag = .flush
  · obtain ⟨-, rfl, -⟩ := executeImpl_flush_returns hflush hret
    rw [List.flatMap_map, List.append_left_inj]
    refine List.flatMap_congr fun e he => ?_
    rw [keyed_answer_messages htag, OrderedMap.find?_eq_some_iff.mpr he]
    rfl
  · rw [executeImpl_rest htag hflush] at hret
    obtain ⟨-, rfl⟩ := Prod.mk.inj (Outcome.returns_mk.mp hret)
    have hlast : isLastStep ctx msg = false := decide_eq_false fun h => hflush h.1
    have hnone : ∀ k, ((keyed io conf).answer a msg k).messages = [] := by
      intro k
      rw [keyed_answer_messages htag]
      simp only [keyed, hlast, Bool.false_eq_true, if_false]
      cases a.fieldStats.find? k with
      | none => rfl
      | some ts => rfl
    rw [List.flatMap_eq_nil_iff.mpr fun k _ => hnone k, List.nil_append]

theorem keyed_emits : (keyed io conf).Emits := by
  intro a a₁ msg htag ha
  obtain ⟨out, hret⟩ := keyed_accept_iff.mp ha
  exact (congrArg Prod.snd (Outcome.returns_iff.mp hret).2).trans (executeImpl_emits htag hret)

end StatisticsAction

def otherField (step : ℤ) (values : List ℚ) : Message :=
  let msg := hourlyField step [] values
  { msg with header := { msg.header with
      metadata := msg.metadata.set exactContext.policy "param" (.int64 131) } }

def isOtherField (msg : Message) : Bool :=
  (getInt64 exactContext.toStatisticsContext msg.metadata "param").toOption = some (some 131)

abbrev dailyAverages : KeyedAction := StatisticsAction.keyed noFiles (daily ["average"])

def averageKey : String := "130-0-sfc-O320-double-null_18446744073709551615"

end Multio.StatisticsMtg2
