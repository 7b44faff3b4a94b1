import Multio.Action.Statistics.WordContext
import Multio.Action.StatisticsMtg2.SharedWindow

namespace Multio.StatisticsMtg2
open Lib Exception

variable {ctx : StatisticsContext}

def kindsOf (operations : List String) : List OperationKind :=
  operations.filterMap fun opname => (OperationKind.ofName opname).toOption

def Config.only (conf : Config) (opname : String) : Config := { conf with operations := [opname] }

theorem emitOperations_only (conf : Config) (opname : String) (ts : TemporalStatistics ctx)
    (src dst : Peer) (ops : List (Operation ctx.arithmetic)) :
    ts.emitOperations (conf.only opname) src dst ops = ts.emitOperations conf src dst ops := by
  induction ops with
  | nil => rfl
  | cons op ops ih =>
    rw [TemporalStatistics.emitOperations, TemporalStatistics.emitOperations, ih]
    rfl

theorem emitStatistics_only (conf : Config) (opname : String) (ts : TemporalStatistics ctx)
    (src dst : Peer) :
    ts.emitStatistics (conf.only opname) src dst = ts.emitStatistics conf src dst := by
  unfold TemporalStatistics.emitStatistics
  rw [emitOperations_only]

theorem process_only (conf : Config) (opname : String) (cfg : StatisticsConfiguration ctx.arithmetic)
    (ts : TemporalStatistics ctx) (msg : Message) :
    ts.process (conf.only opname) cfg msg = ts.process conf cfg msg := by
  unfold TemporalStatistics.process TemporalStatistics.closeWindow
  simp only [emitStatistics_only]
  rfl

section

variable {conf : Config} {cfg : StatisticsConfiguration ctx.arithmetic} {msg : Message}
  {precision : PrecisionTag} {win : OperationWindow} {opname : String}

theorem makeOperation_kind {payload : List UInt8} {op : Operation ctx.arithmetic}
    (h : makeOperation conf.opt cfg precision payload win opname = .ok op) :
    OperationKind.ofName opname = .ok op.kind := by
  simp only [makeOperation, bind_eq_ok_iff] at h
  obtain ⟨kind, hkind, h⟩ := h
  rw [hkind]
  split_ifs at h
  · unfold Operation.initData at h
    split_ifs at h
    · simp only [bind_eq_ok_iff] at h
      obtain ⟨-, -, reset, -, h⟩ := h
      split_ifs at h
      · rw [← Except.ok.inj h]
        rfl
      · rw [← Except.ok.inj h]
        rfl
    · rw [← Except.ok.inj h]
      rfl
  · rw [← Except.ok.inj h]
    unfold Operation.init
    split_ifs <;> rfl

theorem makeOperations_kinds {operations : List String} {payload : List UInt8}
    {ops : List (Operation ctx.arithmetic)}
    (h : List.Forall₂ (fun opname op =>
      makeOperation conf.opt cfg precision payload win opname = .ok op) operations ops) :
    ops.map Operation.kind = kindsOf operations := by
  induction h with
  | nil => rfl
  | cons hop hops ih =>
    have hkind := makeOperation_kind hop
    rw [List.map_cons, ih, kindsOf, kindsOf, List.filterMap_cons, hkind]
    rfl

theorem getElem?_of_forall₂ {α β : Type} {R : α → β → Prop} {xs : List α} {ys : List β}
    (h : List.Forall₂ R xs ys) {i : ℕ} {x : α} (hx : xs[i]? = some x) :
    ∃ y, ys[i]? = some y ∧ R x y := by
  induction h generalizing i with
  | nil => cases hx
  | @cons a b xs ys hab hrest ih =>
    cases i with
    | zero =>
      obtain rfl := Option.some.inj hx
      exact ⟨b, rfl, hab⟩
    | succ i => exact ih hx

theorem restricted_make {i : ℕ} (hi : conf.operations[i]? = some opname)
    {ts : TemporalStatistics ctx} (h : TemporalStatistics.make conf cfg msg = .ok ts) :
    ∃ ts', TemporalStatistics.make (conf.only opname) cfg msg = .ok ts' ∧
      Restricted (kindsOf conf.operations) i ts ts' := by
  simp only [TemporalStatistics.make, makeOperations, bind_eq_ok_iff] at h ⊢
  obtain ⟨u, hu, ops, ⟨precision, hprecision, hops⟩, hts⟩ := h
  obtain rfl := Except.ok.inj hts
  have hforall := mapM_eq_ok_iff.mp hops
  obtain ⟨op, hop, hturn⟩ := getElem?_of_forall₂ hforall hi
  obtain ⟨hlt, rfl⟩ := List.getElem?_eq_some_iff.mp hop
  refine ⟨_, ⟨u, hu, [ops[i]], ⟨precision, hprecision, mapM_eq_ok_iff.mpr (.cons hturn .nil)⟩, rfl⟩,
    rfl, rfl, makeOperations_kinds hforall, ops.take i, ops[i], ops.drop (i + 1), ?_, ?_, rfl, rfl,
    fun _ => rfl⟩
  · rw [← List.drop_eq_getElem_cons hlt, List.take_append_drop]
  · rw [List.length_take]
    omega

end

/-- A restart of all operations and one of the `i`-th alone. -/
def RestrictedFiles (io : RestartIO ctx) (kinds : List OperationKind) (i : ℕ)
    (files files' : io.Field) : Prop :=
  ∀ ts, io.load files = .ok ts → ∃ ts', io.load files' = .ok ts' ∧ Restricted kinds i ts ts'

/-- The actions with all operations and with one of them. Files of fields that are known are not
read any more. -/
structure RestrictedAction {io : RestartIO ctx} (kinds : List OperationKind) (i : ℕ)
    (a a' : StatisticsAction ctx io) : Prop where
  needRestart : a'.needRestart = a.needRestart
  lastDateTime : a'.lastDateTime = a.lastDateTime
  fieldStats : OrderedMap.Related (Restricted kinds i) a.fieldStats a'.fieldStats
  disk : LinkedFolders.Related (fun key files files' => a.fieldStats.find? key = none →
    RestrictedFiles io kinds i files files') a.disk a'.disk

namespace RestrictedAction

open StatisticsAction

variable {io : RestartIO ctx} {kinds : List OperationKind} {i : ℕ}
  {a a' a₁ : StatisticsAction ctx io} {conf : Config} {cfg : StatisticsConfiguration ctx.arithmetic}
  {opname : String} {msg : Message} {out : List Message}

theorem insert (h : RestrictedAction kinds i a a') (key : String) {ts ts' : TemporalStatistics ctx}
    (hts : Restricted kinds i ts ts') :
    RestrictedAction kinds i { a with fieldStats := a.fieldStats.insert key ts }
      { a' with fieldStats := a'.fieldStats.insert key ts' } where
  needRestart := h.needRestart
  lastDateTime := h.lastDateTime
  fieldStats := h.fieldStats.insert key hts
  disk := by
    refine h.disk.mono fun k files files' hfiles hnone => hfiles ?_
    rw [OrderedMap.find?_insert] at hnone
    split_ifs at hnone
    exact hnone

theorem updateLatestDateTime (h : RestrictedAction kinds i a a')
    (cfg : StatisticsConfiguration ctx.arithmetic) :
    RestrictedAction kinds i (a.updateLatestDateTime cfg) (a'.updateLatestDateTime cfg) where
  needRestart := rfl
  lastDateTime := rfl
  fieldStats := h.fieldStats
  disk := h.disk

theorem findOrMake (h : RestrictedAction (kindsOf conf.operations) i a a')
    (hi : conf.operations[i]? = some opname) {ts : TemporalStatistics ctx}
    (hts : a.findOrMake conf cfg msg = .ok ts) :
    ∃ ts', a'.findOrMake (conf.only opname) cfg msg = .ok ts' ∧
      Restricted (kindsOf conf.operations) i ts ts' := by
  have hfind := h.fieldStats.find? cfg.key
  have hentry := h.disk.entry conf.restartTime cfg.key
  unfold StatisticsAction.findOrMake at hts ⊢
  rw [show (conf.only opname).opt = conf.opt from rfl,
    show (conf.only opname).restartTime = conf.restartTime from rfl]
  generalize a'.fieldStats.find? cfg.key = found' at hfind ⊢
  generalize hfound : a.fieldStats.find? cfg.key = found at hfind hts hentry
  generalize a'.disk.entry conf.restartTime cfg.key = entry' at hentry ⊢
  generalize a.disk.entry conf.restartTime cfg.key = entry at hentry hts
  cases hfind with
  | @some ts₀ ts' hrel =>
    obtain rfl := Except.ok.inj hts
    exact ⟨ts', rfl, hrel⟩
  | none =>
    cases hentry with
    | none =>
      have hmake : TemporalStatistics.make conf cfg msg = .ok ts := by
        cases hread : conf.opt.readRestart <;> rw [hread] at hts <;> exact hts
      obtain ⟨ts', hmake', hrel⟩ := restricted_make hi hmake
      refine ⟨ts', ?_, hrel⟩
      cases conf.opt.readRestart <;> exact hmake'
    | @some files files' hfiles =>
      cases hread : conf.opt.readRestart with
      | true =>
        rw [hread] at hts
        exact hfiles rfl ts hts
      | false =>
        rw [hread] at hts
        exact restricted_make hi hts

theorem executeField (h : RestrictedAction (kindsOf conf.operations) i a a')
    (hi : conf.operations[i]? = some opname)
    (hsep : ∀ cfg, StatisticsConfiguration.make ctx conf.opt msg.metadata msg.source = .ok cfg →
      Separate conf.opt (kindsOf conf.operations) cfg)
    (hret : (a.executeField conf msg).Returns (a₁, out)) :
    ∃ a₁' out', (a'.executeField (conf.only opname) msg).Returns (a₁', out') ∧
      RestrictedAction (kindsOf conf.operations) i a₁ a₁' ∧
      Picks (kindsOf conf.operations).length i out out' := by
  obtain ⟨cfg, hcfg, hret⟩ := Outcome.needing_returns_iff.mp hret
  have hupdate := h.updateLatestDateTime cfg
  simp only at hret
  split_ifs at hret with hmain
  · exact absurd hret Outcome.not_returns_mk_some
  · obtain ⟨ts, hts, hret⟩ := Outcome.needing_returns_iff.mp hret
    obtain ⟨⟨ts₁, out₁⟩, hprocess, heq⟩ := Outcome.map_returns_iff.mp hret
    obtain ⟨rfl, rfl⟩ := Prod.mk.inj heq
    obtain ⟨ts', hts', hrel⟩ := hupdate.findOrMake hi hts
    obtain ⟨ts₁', out', hprocess', hrel₁, hpicks⟩ := hrel.process (hsep cfg hcfg) hprocess
    refine ⟨_, out', Outcome.needing_returns_iff.mpr ⟨cfg, hcfg, ?_⟩, hupdate.insert cfg.key hrel₁,
      hpicks⟩
    simp only
    have hmain' : ¬ ((conf.only opname).opt.readRestart = true ∧
        ((a'.updateLatestDateTime cfg).disk.folder (conf.only opname).restartTime).isNone = true) := by
      intro hno
      refine hmain ⟨hno.1, ?_⟩
      rw [← Option.not_isSome, ← hupdate.disk.isSome_folder, Option.not_isSome]
      exact hno.2
    rw [← process_only conf opname] at hprocess'
    rw [if_neg hmain']
    exact Outcome.needing_returns_iff.mpr ⟨ts', hts', Outcome.map_returns_iff.mpr
      ⟨(ts₁', out'), hprocess', rfl⟩⟩

theorem dumpTemporalStatistics {R : String → io.Field → io.Field → Prop} {name : String}
    {es es' : List (String × TemporalStatistics ctx)}
    (hes : List.Forall₂ (fun e e' => e.1 = e'.1 ∧ Restricted kinds i e.2 e'.2) es es')
    (hR : ∀ e ∈ es, ∀ files files', R e.1 files files') {disk disk' disk₁ : LinkedFolders io.Field}
    (hdisk : LinkedFolders.Related R disk disk')
    (hret : (StatisticsAction.dumpTemporalStatistics name disk es).Returns disk₁) :
    ∃ disk₁', (StatisticsAction.dumpTemporalStatistics name disk' es').Returns disk₁' ∧
      LinkedFolders.Related R disk₁ disk₁' := by
  induction hes generalizing disk disk' with
  | nil =>
    obtain rfl := Outcome.returns_mk.mp hret
    exact ⟨disk', rfl, hdisk⟩
  | @cons e e' es es' he hes ih =>
    obtain ⟨key, ts⟩ := e
    obtain ⟨key', ts'⟩ := e'
    obtain ⟨rfl, -⟩ := he
    rw [List.forall_mem_cons] at hR
    rw [StatisticsAction.dumpTemporalStatistics] at hret ⊢
    rw [LinkedFolders.isSome_of_rel (hdisk.entry name key)]
    split_ifs at hret ⊢ with hexists
    · exact absurd hret Outcome.not_returns_mk_some
    · exact ih hR.2 (hdisk.add name key (hR.1 _ _)) hret

theorem createMainRestartDirectory {R : String → io.Field → io.Field → Prop} {name : String}
    {isMaster : Bool} {disk disk' disk₁ : LinkedFolders io.Field}
    (hdisk : LinkedFolders.Related R disk disk')
    (h : StatisticsAction.createMainRestartDirectory disk name isMaster = .ok disk₁) :
    ∃ disk₁', StatisticsAction.createMainRestartDirectory disk' name isMaster = .ok disk₁' ∧
      LinkedFolders.Related R disk₁ disk₁' := by
  unfold StatisticsAction.createMainRestartDirectory at h ⊢
  rw [hdisk.isSome_folder]
  split_ifs at h ⊢
  · obtain rfl := Except.ok.inj h
    exact ⟨disk', rfl, hdisk⟩
  · obtain rfl := Except.ok.inj h
    exact ⟨disk'.create name, rfl, hdisk.create name⟩

theorem writeRestart (h : RestrictedAction kinds i a a') {name : String} {isMaster : Bool}
    {disk₁ : LinkedFolders io.Field} (hret : (a.writeRestart a.disk name isMaster).Returns disk₁) :
    ∃ disk₁', (a'.writeRestart a'.disk name isMaster).Returns disk₁' ∧
      LinkedFolders.Related (fun key files files' => a.fieldStats.find? key = none →
        RestrictedFiles io kinds i files files') disk₁ disk₁' := by
  have hunlink : LinkedFolders.Related (fun key files files' => a.fieldStats.find? key = none →
      RestrictedFiles io kinds i files files') (if isMaster then a.disk.unlink else a.disk)
      (if isMaster then a'.disk.unlink else a'.disk) := by
    split_ifs
    · exact h.disk.unlink
    · exact h.disk
  obtain ⟨disk₂, hcreate, hret⟩ := Outcome.needing_returns_iff.mp hret
  obtain ⟨disk₃, hdump, hret⟩ := Outcome.andThen_returns_iff.mp hret
  obtain rfl := Outcome.returns_mk.mp hret
  obtain ⟨disk₂', hcreate', hdisk₂⟩ := createMainRestartDirectory hunlink hcreate
  have hknown : ∀ e ∈ a.fieldStats.entries, ∀ files files', a.fieldStats.find? e.1 = none →
      RestrictedFiles io kinds i files files' := by
    intro e he files files' hnone
    rw [OrderedMap.find?_eq_some_iff.mpr he] at hnone
    cases hnone
  obtain ⟨disk₃', hdump', hdisk₃⟩ := dumpTemporalStatistics h.fieldStats hknown hdisk₂ hdump
  refine ⟨if isMaster then disk₃'.linkTo name else disk₃', Outcome.needing_returns_iff.mpr
    ⟨disk₂', hcreate', Outcome.andThen_returns_iff.mpr ⟨disk₃', hdump', rfl⟩⟩, ?_⟩
  split_ifs
  · exact hdisk₃.linkTo name
  · exact hdisk₃

theorem tryDumpRestart (h : RestrictedAction kinds i a a') {md : BaseMetadata}
    (hret : (a.tryDumpRestart conf md).Returns a₁) :
    ∃ a₁', (a'.tryDumpRestart (conf.only opname) md).Returns a₁' ∧
      RestrictedAction kinds i a₁ a₁' := by
  have hname : a'.generateRestartNameFromFlush md = a.generateRestartNameFromFlush md := by
    unfold StatisticsAction.generateRestartNameFromFlush
    rw [h.lastDateTime]
  obtain ⟨flushKind, hkind, hret⟩ := Outcome.needing_returns_iff.mp hret
  split_ifs at hret with hrestart
  · obtain ⟨serverRank, hrank, hret⟩ := Outcome.needing_returns_iff.mp hret
    obtain ⟨name, hname', hret⟩ := Outcome.needing_returns_iff.mp hret
    obtain ⟨disk₁, hwrite, rfl⟩ := Outcome.map_returns_iff.mp hret
    obtain ⟨disk₁', hwrite', hdisk⟩ := h.writeRestart hwrite
    refine ⟨{ a' with disk := disk₁' }, Outcome.needing_returns_iff.mpr ⟨flushKind, hkind, ?_⟩,
      ⟨h.needRestart, h.lastDateTime, h.fieldStats, hdisk⟩⟩
    rw [if_pos ⟨hrestart.1, hrestart.2.1, h.needRestart.trans hrestart.2.2⟩]
    refine Outcome.needing_returns_iff.mpr ⟨serverRank, hrank, Outcome.needing_returns_iff.mpr
      ⟨name, hname.trans hname', Outcome.map_returns_iff.mpr ⟨disk₁', hwrite', rfl⟩⟩⟩
  · obtain rfl := Outcome.returns_mk.mp hret
    refine ⟨a', Outcome.needing_returns_iff.mpr ⟨flushKind, hkind, ?_⟩, h⟩
    have hrestart' : ¬ (flushKind = .stepAndRestart ∧ (conf.only opname).opt.writeRestart = true ∧
        a'.needRestart = true) := by
      rw [h.needRestart]
      exact hrestart
    rw [if_neg hrestart']
    rfl

theorem emitFields {src dst : Peer} {es es' : List (String × TemporalStatistics ctx)}
    (hes : List.Forall₂ (fun e e' => e.1 = e'.1 ∧ Restricted kinds i e.2 e'.2) es es')
    (h : RestrictedAction kinds i a a')
    (hret : (StatisticsAction.emitFields conf src dst a es).Returns (a₁, out)) :
    ∃ a₁' out', (StatisticsAction.emitFields (conf.only opname) src dst a' es').Returns (a₁', out') ∧
      RestrictedAction kinds i a₁ a₁' ∧ Picks kinds.length i out out' := by
  induction hes generalizing a a' out with
  | nil =>
    obtain ⟨rfl, rfl⟩ := Prod.mk.inj (Outcome.returns_mk.mp hret)
    exact ⟨a', [], rfl, h, Picks.nil⟩
  | @cons e e' es es' he hes ih =>
    obtain ⟨key, ts⟩ := e
    obtain ⟨key', ts'⟩ := e'
    obtain ⟨rfl, hts⟩ := he
    obtain ⟨⟨a₂, out₂⟩, hfirst, hrest⟩ := Outcome.andThen_returns_iff.mp hret
    obtain ⟨⟨ts₂, out₃⟩, hemit, heq⟩ := Outcome.map_returns_iff.mp hfirst
    obtain ⟨rfl, rfl⟩ := Prod.mk.inj heq
    obtain ⟨⟨a₄, out₄⟩, hloop, heq⟩ := Outcome.map_returns_iff.mp hrest
    obtain ⟨rfl, rfl⟩ := Prod.mk.inj heq
    obtain ⟨ts₂', out₃', hemit', hts₂, hpicks⟩ := hts.emitStatistics hemit
    obtain ⟨a₄', out₄', hloop', h₄, hpicks'⟩ := ih (h.insert key hts₂) hloop
    rw [← emitStatistics_only conf opname] at hemit'
    exact ⟨a₄', out₃' ++ out₄', Outcome.andThen_returns_iff.mpr ⟨_, Outcome.map_returns_iff.mpr
      ⟨_, hemit', rfl⟩, Outcome.map_returns_iff.mpr ⟨_, hloop', rfl⟩⟩, h₄, hpicks.append hpicks'⟩

end RestrictedAction

/-- What is passed on without the statistics: flushes and messages that are not fields. -/
def forwarded (msg : Message) : List Message := if msg.tag = .field then [] else [msg]

/-- What a message makes go out with all of `n` operations and with the `i`-th alone. -/
def Independent (n i : ℕ) (msg : Message) (out out' : List Message) : Prop :=
  ∃ emitted emitted', Picks n i emitted emitted' ∧ out = emitted ++ forwarded msg ∧
    out' = emitted' ++ forwarded msg

namespace RestrictedAction

open StatisticsAction

variable {io : RestartIO ctx} {i : ℕ} {a a' a₁ : StatisticsAction ctx io} {conf : Config}
  {opname : String} {msg : Message} {out : List Message}

theorem executeFlush (h : RestrictedAction (kindsOf conf.operations) i a a')
    (htag : msg.tag = .flush) (hret : (a.executeFlush conf msg).Returns (a₁, out)) :
    ∃ a₁' out', (a'.executeFlush (conf.only opname) msg).Returns (a₁', out') ∧
      RestrictedAction (kindsOf conf.operations) i a₁ a₁' ∧
      Independent (kindsOf conf.operations).length i msg out out' := by
  have hforwarded : forwarded msg = [msg] := by
    rw [forwarded, htag]
    rfl
  obtain ⟨⟨a₂, out₂⟩, hfirst, hret⟩ := Outcome.andThen_returns_iff.mp hret
  obtain ⟨a₃, hdump, heq⟩ := Outcome.map_returns_iff.mp hfirst
  obtain ⟨rfl, rfl⟩ := Prod.mk.inj heq
  obtain ⟨flushKind, hkind, hret⟩ := Outcome.needing_returns_iff.mp hret
  obtain ⟨⟨a₄, out₄⟩, hemit, hret⟩ := Outcome.andThen_returns_iff.mp hret
  obtain ⟨rfl, rfl⟩ := Prod.mk.inj (Outcome.returns_mk.mp hret)
  obtain ⟨a₃', hdump', h₃⟩ := h.tryDumpRestart hdump
  have hemitted : ∃ a₄' out₄', (if flushKind = .lastStep
      then a₃'.emitAllStatistics (conf.only opname) msg.source msg.destination
      else { state := (a₃', []) }).Returns (a₄', out₄') ∧
      RestrictedAction (kindsOf conf.operations) i a₄ a₄' ∧
      Picks (kindsOf conf.operations).length i out₄ out₄' := by
    split_ifs at hemit ⊢
    · exact emitFields h₃.fieldStats h₃ hemit
    · obtain ⟨rfl, rfl⟩ := Prod.mk.inj (Outcome.returns_mk.mp hemit)
      exact ⟨a₃', [], rfl, h₃, Picks.nil⟩
  obtain ⟨a₄', out₄', hemit', h₄, hpicks⟩ := hemitted
  refine ⟨a₄', out₄' ++ [msg], Outcome.andThen_returns_iff.mpr ⟨(a₃', []),
    Outcome.map_returns_iff.mpr ⟨a₃', hdump', rfl⟩, Outcome.needing_returns_iff.mpr
      ⟨flushKind, hkind, Outcome.andThen_returns_iff.mpr ⟨(a₄', out₄'), hemit', rfl⟩⟩⟩, h₄, ?_⟩
  exact ⟨out₄, out₄', hpicks, by rw [hforwarded], by rw [hforwarded]⟩

theorem executeImpl (h : RestrictedAction (kindsOf conf.operations) i a a')
    (hi : conf.operations[i]? = some opname)
    (hsep : msg.tag = .field → ∀ cfg,
      StatisticsConfiguration.make ctx conf.opt msg.metadata msg.source = .ok cfg →
      Separate conf.opt (kindsOf conf.operations) cfg)
    (hret : (a.executeImpl conf msg).Returns (a₁, out)) :
    ∃ a₁' out', (a'.executeImpl (conf.only opname) msg).Returns (a₁', out') ∧
      RestrictedAction (kindsOf conf.operations) i a₁ a₁' ∧
      Independent (kindsOf conf.operations).length i msg out out' := by
  unfold StatisticsAction.executeImpl at hret ⊢
  split at hret
  case h_1 htag => exact h.executeFlush htag hret
  case h_2 htag =>
    obtain ⟨a₁', out', hret', h₁, hpicks⟩ := h.executeField hi (hsep htag) hret
    have hforwarded : forwarded msg = [] := if_pos htag
    refine ⟨a₁', out', hret', h₁, out, out', hpicks, ?_, ?_⟩
    · rw [hforwarded, List.append_nil]
    · rw [hforwarded, List.append_nil]
  case h_3 hflush hfield =>
    obtain ⟨rfl, rfl⟩ := Prod.mk.inj (Outcome.returns_mk.mp hret)
    have hforwarded : forwarded msg = [msg] := if_neg hfield
    exact ⟨a', [msg], rfl, h, [], [], Picks.nil, hforwarded.symm, hforwarded.symm⟩

theorem run (h : RestrictedAction (kindsOf conf.operations) i a a')
    (hi : conf.operations[i]? = some opname) {msgs : List Message}
    (hsep : ∀ msg ∈ msgs, msg.tag = .field → ∀ cfg,
      StatisticsConfiguration.make ctx conf.opt msg.metadata msg.source = .ok cfg →
      Separate conf.opt (kindsOf conf.operations) cfg)
    {outs : List (List Message)} (hret : (a.run conf msgs).Returns (a₁, outs)) :
    ∃ a₁' outs', (a'.run (conf.only opname) msgs).Returns (a₁', outs') ∧
      RestrictedAction (kindsOf conf.operations) i a₁ a₁' ∧
      List.Forall₂ (fun msg out => Independent (kindsOf conf.operations).length i msg out.1 out.2)
        msgs (outs.zip outs') ∧ outs'.length = outs.length := by
  induction msgs generalizing a a' outs with
  | nil =>
    obtain ⟨rfl, rfl⟩ := Prod.mk.inj (Outcome.returns_mk.mp hret)
    exact ⟨a', [], rfl, h, .nil, rfl⟩
  | cons msg msgs ih =>
    rw [List.forall_mem_cons] at hsep
    obtain ⟨⟨a₂, outs₂⟩, hfirst, hrest⟩ := Outcome.andThen_returns_iff.mp hret
    obtain ⟨⟨a₃, out⟩, hexecute, heq⟩ := Outcome.map_returns_iff.mp hfirst
    obtain ⟨rfl, rfl⟩ := Prod.mk.inj heq
    obtain ⟨⟨a₄, outs₄⟩, hrun, heq⟩ := Outcome.map_returns_iff.mp hrest
    obtain ⟨rfl, rfl⟩ := Prod.mk.inj heq
    obtain ⟨a₃', out', hexecute', h₃, hout⟩ := h.executeImpl hi hsep.1 hexecute
    obtain ⟨a₄', outs₄', hrun', h₄, houts, hlength⟩ := ih h₃ hsep.2 hrun
    refine ⟨a₄', out' :: outs₄', Outcome.andThen_returns_iff.mpr ⟨(a₃', [out']),
      Outcome.map_returns_iff.mpr ⟨(a₃', out'), hexecute', rfl⟩,
      Outcome.map_returns_iff.mpr ⟨(a₄', outs₄'), hrun', rfl⟩⟩, h₄, .cons hout houts, ?_⟩
    rw [List.length_cons, hlength]
    rfl

end RestrictedAction

/-- In a run of these messages every operation emits what it emits alone, where the restart that
may be read is one of that operation. -/
def EmitIndependently (io : RestartIO ctx) (conf : Config) (msgs : List Message) : Prop :=
  ∀ i opname, conf.operations[i]? = some opname →
    ∀ disk disk' : LinkedFolders io.Field,
      LinkedFolders.Related (fun _ => RestrictedFiles io (kindsOf conf.operations) i) disk disk' →
      ∀ a outs, (StatisticsAction.run conf { disk } msgs).Returns (a, outs) →
        ∃ a' outs', (StatisticsAction.run (conf.only opname) { disk := disk' } msgs).Returns
            (a', outs') ∧
          List.Forall₂ (fun msg out => Independent (kindsOf conf.operations).length i msg out.1 out.2)
            msgs (outs.zip outs') ∧ outs'.length = outs.length

theorem operations_independent (io : RestartIO ctx) {conf : Config} {msgs : List Message}
    (hsep : ∀ msg ∈ msgs, msg.tag = .field → ∀ cfg,
      StatisticsConfiguration.make ctx conf.opt msg.metadata msg.source = .ok cfg →
      Separate conf.opt (kindsOf conf.operations) cfg) : EmitIndependently io conf msgs := by
  intro i opname hi disk disk' hdisk a outs hret
  have h : RestrictedAction (kindsOf conf.operations) i ({ disk } : StatisticsAction ctx io)
      { disk := disk' } :=
    ⟨rfl, rfl, OrderedMap.related_empty, hdisk.mono fun _ _ _ hfiles _ => hfiles⟩
  obtain ⟨a', outs', hret', -, houts, hlength⟩ := h.run hi hsep hret
  exact ⟨a', outs', hret', houts, hlength⟩

def noRestart : RestartIO Statistics.wordContext.toStatisticsContext where
  Field := Unit
  dump _ := ()
  load _ := .error (.seriousBug "Unable to find the restart field\n")
  makeDate := Statistics.orderedRestart.makeDate
  makeTime := Statistics.orderedRestart.makeTime
  masterCreates _ := true

/-- Days of at least two values, with the initial condition sent. -/
def dailyOf (operations : List String) : Config where
  opt := { initialConditionPresent := true, valueCountThreshold := some 2,
           disableStrictMapping := true }
  operations
  outputFrequency := "1d"

def maskedField (step : ℤ) : Message where
  header :=
    { tag := .field
      source := {}
      destination := {}
      metadata :=
        { bucketCount := 541
          nodes := [("step", .int64 step), ("date", .int64 20200101), ("time", .int64 0),
            ("param", .int64 130), ("levtype", .string "sfc"), ("grid", .string "O320"),
            ("misc-precision", .string "double"), ("missingValue", .double 7),
            ("bitmapPresent", .bool true)] } }
  payload := [0, 0, 0, 0, 0, 0, 0xF0, 0x3F]

def lastStep : Message where
  header :=
    { tag := .flush
      source := {}
      destination := {}
      metadata := { bucketCount := 541, nodes := [("flushKind", .string "last-step")] } }

theorem operations_independent_daily : EmitIndependently noRestart (dailyOf ["maximum", "instant"])
    [maskedField 0, maskedField 1, lastStep] :=
  operations_independent noRestart fun _ _ _ _ _ _ => by decide

theorem subset_of_independent {n i : ℕ} {msg : Message} {out out' : List Message}
    (h : Independent n i msg out out') : out' ⊆ out := by
  obtain ⟨emitted, emitted', ⟨blocks, -, rfl, rfl⟩, rfl, rfl⟩ := h
  apply List.append_subset.mpr
  refine ⟨fun m hm => List.mem_append_left _ ?_, List.subset_append_right _ _⟩
  obtain ⟨b, hb, hat⟩ := List.mem_filterMap.mp hm
  exact List.mem_flatten.mpr ⟨b, hb, List.mem_of_getElem? hat⟩

/-- The one value of the day counts twice when both extremes are asked for. -/
theorem extremes_count_twice : ¬ EmitIndependently noRestart (dailyOf ["maximum", "minimum"])
    [maskedField 0, maskedField 1, lastStep] := by
  intro h
  obtain ⟨a', outs', hret', houts, -⟩ := h 0 "maximum" rfl {} {} ⟨rfl, fun _ => .none⟩ _ _
    (Outcome.returns_iff.mpr ⟨by decide +kernel, rfl⟩)
  obtain ⟨-, hstate⟩ := Outcome.returns_iff.mp hret'
  obtain rfl := congrArg Prod.snd hstate
  have hpayload : ∀ p ∈ (StatisticsAction.run (dailyOf ["maximum", "minimum"])
      ({} : StatisticsAction _ noRestart) [maskedField 0, maskedField 1, lastStep]).state.2.zip
      (StatisticsAction.run ((dailyOf ["maximum", "minimum"]).only "maximum")
      ({} : StatisticsAction _ noRestart) [maskedField 0, maskedField 1, lastStep]).state.2,
      ∀ m ∈ p.2, m.payload ∈ p.1.map Message.payload := by
    intro p hp m hm
    obtain ⟨k, hk⟩ := List.mem_iff_getElem?.mp hp
    obtain ⟨msg, -, hmsg⟩ := getElem?_of_forall₂ houts.flip hk
    exact List.mem_map_of_mem (subset_of_independent hmsg hm)
  revert hpayload
  decide +kernel

end Multio.StatisticsMtg2
