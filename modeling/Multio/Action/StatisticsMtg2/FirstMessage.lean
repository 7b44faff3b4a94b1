import Multio.Action.StatisticsMtg2.FieldSizes
import Multio.Action.StatisticsMtg2.MessageTime
import Multio.Action.StatisticsMtg2.OperationIndependence

namespace Multio.StatisticsMtg2
open Lib Exception

variable {ctx : StatisticsContext}

theorem hours_tdiv_le {d hours : ℤ} (h : d ≤ 3600 * hours) : d.tdiv 3600 ≤ hours := by
  rcases le_total 0 d with hd | hd
  · rw [Int.tdiv_eq_ediv_of_nonneg hd]
    omega
  · have hneg : d.tdiv 3600 = -((-d) / 3600) := by
      rw [← Int.tdiv_eq_ediv_of_nonneg (neg_nonneg.mpr hd), Int.neg_tdiv, neg_neg]
    rw [hneg]
    omega

namespace Operation

/-- No accumulation has been reset before the window begins that the message is in. -/
theorem exists_solverReset_iff {cfg : StatisticsConfiguration ctx.arithmetic} {w : OperationWindow}
    (hbegin : cfg.curr - w.prevPoint ≤ 3600 * cfg.timespan.getD 0) :
    (∃ reset, solverResetAccumulatedField ctx cfg w = .ok reset) ↔
      (cfg.timespan.isSome = true → (ctx.operationMapping cfg.param).isSome = true) := by
  unfold solverResetAccumulatedField
  cases hspan : cfg.timespan with
  | none => exact iff_of_true ⟨false, rfl⟩ fun h => absurd h Bool.false_ne_true
  | some timespan =>
    cases hmap : ctx.operationMapping cfg.param with
    | none =>
      refine iff_of_false (fun h => ?_) fun h => Bool.false_ne_true (h rfl)
      obtain ⟨reset, h⟩ := h
      cases h
    | some op =>
      refine iff_of_true ?_ fun _ => rfl
      rw [hspan, Option.getD_some] at hbegin
      have hle := hours_tdiv_le hbegin
      by_cases hop : op ≠ 1
      · exact ⟨false, if_pos hop⟩
      · exact ⟨_, (if_neg hop).trans (if_neg (not_lt.mpr hle))⟩

end Operation

section

variable {conf : Config} {cfg : StatisticsConfiguration ctx.arithmetic} {msg : Message}
  {p : PrecisionTag} {opname : String}

/-- Operations that begin with step zero need an initial condition, and a parameter that tells what
its time span is about. -/
def CanBegin (ctx : StatisticsContext) (opt : StatisticsOptions)
    (cfg : StatisticsConfiguration ctx.arithmetic) (k : OperationKind) : Prop :=
  k.deaccumulated = true → opt.initialConditionPresent = true ∧
    (cfg.timespan.isSome = true → (ctx.operationMapping cfg.param).isSome = true)

theorem exists_makeOperation_iff {payload : List UInt8} {w : OperationWindow}
    (hbegin : cfg.curr - w.prevPoint ≤ 3600 * cfg.timespan.getD 0) :
    (∃ op, makeOperation conf.opt cfg p payload w opname = .ok op) ↔
      ∃ k, OperationKind.ofName opname = .ok k ∧ CanBegin ctx conf.opt cfg k := by
  have hinit (k : OperationKind) :
      (∃ op, (Operation.make ctx.arithmetic k p payload.length).initData ctx cfg payload w =
        .ok op) ↔ (k.deaccumulated = true → cfg.timespan.isSome = true →
          (ctx.operationMapping cfg.param).isSome = true) :=
    (Operation.exists_initData_iff (Operation.fits_make ctx.arithmetic k p payload.length)).trans
      (imp_congr_right fun _ => (and_iff_right rfl).trans (Operation.exists_solverReset_iff hbegin))
  unfold CanBegin
  simp only [makeOperation, bind_eq_ok_iff]
  rw [exists_comm]
  refine exists_congr fun k => ?_
  rw [exists_and_left]
  refine and_congr_right fun _ => ?_
  by_cases hinitial : conf.opt.initialConditionPresent = true
  · simp only [hinitial, if_true, true_and]
    exact hinit k
  · simp only [hinitial, Bool.false_eq_true, if_false, false_and, imp_false]
    by_cases hzero : k.needStepZero = true
    · simp only [if_pos hzero]
      refine iff_of_false (fun h => ?_) fun h => h hzero
      obtain ⟨op, h⟩ := h
      cases h
    · simp only [if_neg hzero]
      exact iff_of_true ⟨_, rfl⟩ hzero

theorem forall_made_iff {P : OperationKind → Prop} {operations : List String}
    {ops : List (Operation ctx.arithmetic)}
    (h : List.Forall₂ (fun opname op => OperationKind.ofName opname = .ok op.kind) operations ops) :
    (∀ op ∈ ops, P op.kind) ↔
      ∀ opname ∈ operations, ∃ k, OperationKind.ofName opname = .ok k ∧ P k := by
  induction h with
  | nil => exact iff_of_true (fun _ h => absurd h List.not_mem_nil) fun _ h => absurd h List.not_mem_nil
  | @cons opname op operations ops hop hops ih =>
    rw [List.forall_mem_cons, List.forall_mem_cons, ih, hop]
    refine and_congr ⟨fun h => ⟨_, rfl, h⟩, fun h => ?_⟩ Iff.rfl
    obtain ⟨k, hk, h⟩ := h
    obtain rfl := Except.ok.inj hk
    exact h

namespace TemporalStatistics

variable {ts : TemporalStatistics ctx}

theorem prevPoint_makeWindow (u : PeriodUpdater) (opt : StatisticsOptions)
    (cfg : StatisticsConfiguration ctx.arithmetic) :
    cfg.curr - (makeWindow u opt cfg).prevPoint ≤ 3600 * cfg.timespan.getD 0 := by
  change @LE.le ℤ _ (cfg.curr - (cfg.curr - 3600 * cfg.timespan.getD 0)) _
  omega

theorem exists_make_iff : (∃ ts, TemporalStatistics.make conf cfg msg = .ok ts) ↔
    (∃ u, makePeriodUpdater conf.outputFrequency = .ok u) ∧
    (∃ p, msg.precision ctx.toContext = .ok p) ∧
    ∀ opname ∈ conf.operations,
      ∃ k, OperationKind.ofName opname = .ok k ∧ CanBegin ctx conf.opt cfg k := by
  simp only [make_eq_ok_iff, makeOperations, bind_eq_ok_iff]
  constructor
  · intro h
    obtain ⟨ts, u, hu, ops, ⟨p, hp, hops⟩, -⟩ := h
    refine ⟨⟨u, hu⟩, ⟨p, hp⟩, fun opname hopname => ?_⟩
    exact (exists_makeOperation_iff (prevPoint_makeWindow u conf.opt cfg)).mp
      (exists_mapM_iff.mp ⟨ops, hops⟩ opname hopname)
  · intro h
    obtain ⟨⟨u, hu⟩, ⟨p, hp⟩, hall⟩ := h
    obtain ⟨ops, hops⟩ := exists_mapM_iff.mpr fun opname hopname =>
      show ∃ op, makeOperation conf.opt cfg p msg.payload (makeWindow u conf.opt cfg) opname = .ok op
      from (exists_makeOperation_iff (prevPoint_makeWindow u conf.opt cfg)).mpr (hall opname hopname)
    exact ⟨_, u, hu, ops, ⟨p, hp, hops⟩, rfl⟩

theorem kinds_make (h : TemporalStatistics.make conf cfg msg = .ok ts) :
    List.Forall₂ (fun opname op => OperationKind.ofName opname = .ok op.kind) conf.operations
      ts.statistics := by
  obtain ⟨u, -, ops, hops, rfl⟩ := make_eq_ok_iff.mp h
  simp only [makeOperations, bind_eq_ok_iff] at hops
  obtain ⟨p, -, hops⟩ := hops
  exact (mapM_eq_ok_iff.mp hops).imp fun _ _ => makeOperation_kind

/-- A window without messages is not emitted: the next one takes its place. -/
theorem closeWindow_of_count (hcount : ts.window.count = 0) :
    ts.closeWindow conf cfg msg = (ts.updateWindow cfg msg).map fun ts => (ts, []) := by
  unfold closeWindow emitStatistics
  rw [if_pos hcount]
  rfl

def FirstFits (cfg : StatisticsConfiguration ctx.arithmetic) (msg : Message)
    (ts : TemporalStatistics ctx) : Prop :=
  (∃ w, ts.window.advance ctx ts.periodUpdater (currentDateTime cfg) = .ok w) ∧
    ∀ op ∈ ts.statistics, SupportsGrid ctx msg.metadata op.kind

theorem process_first_iff (conf : Config) (hA : ReadsValues ctx.arithmetic)
    (hts : ts.Sized p (msg.size / p.size)) (hcount : ts.window.count = 0) (hlater : ts.window.currPoint < cfg.curr)
    (hreset : ∀ op ∈ ts.statistics, op.kind.deaccumulated = true →
      ∃ reset, Operation.solverResetAccumulatedField ctx cfg ts.nextWindow = .ok reset) :
    (ts.process conf cfg msg).exception = none ↔ ts.FirstFits cfg msg := by
  have hdata {ts' : TemporalStatistics ctx} (hts' : ts'.Sized p (msg.size / p.size)) :
      (ts'.updateData conf cfg msg).exception = none ↔
        (∃ w, ts'.window.updateData ctx (currentDateTime cfg) = .ok w) ∧
          ∀ op ∈ ts'.statistics, SupportsGrid ctx msg.metadata op.kind := by
    rw [updateData_exception_iff hA hts']
    exact and_congr_right fun _ => forall₂_congr fun _ _ => and_iff_left rfl
  unfold process FirstFits OperationWindow.advance OperationWindow.windowFor
  rw [if_neg fun h => hlater.ne' h.1, if_neg (not_le.mpr hlater)]
  by_cases houtside : ts.isOutsideWindow cfg = true
  · rw [if_pos houtside, if_neg (isOutsideWindow_eq_true_iff.mp houtside), closeWindow_of_count hcount]
    have hnone : (ts.updateWindow cfg msg).exception = none :=
      (updateWindow_exception_iff hts).mpr fun op hop hdeacc => ⟨rfl, hreset op hop hdeacc⟩
    obtain ⟨ops, hloop, hts₁⟩ := updateWindow_returns (Outcome.returns_iff.mpr ⟨hnone, rfl⟩)
    have hkinds := (forOperations_frame (R := Eq) (fun _ => rfl) (fun _ _ _ => Eq.trans)
      (fun _ _ _ _ _ => resetOperation_frame) hloop).2
    have hsized : (ts.updateWindow cfg msg).state.Sized p (msg.size / p.size) := hts.updateWindow
    rw [Outcome.andThen_exception_eq_none_iff, Outcome.map_exception, and_iff_right hnone]
    change ((ts.updateWindow cfg msg).state.updateData conf cfg msg).exception = none ↔ _
    rw [hdata hsized, hts₁]
    refine and_congr Iff.rfl ?_
    rw [← List.forall_mem_map (f := Operation.kind) (P := SupportsGrid ctx msg.metadata), hkinds,
      List.forall_mem_map]
  · rw [if_neg houtside, Bool.not_eq_true] at *
    rw [if_pos (isOutsideWindow_eq_false_iff.mp houtside)]
    rw [Outcome.andThen_exception_eq_none_iff, and_iff_right rfl, Outcome.map_exception, hdata hts]

/-- When the first message is in time for the window that is made for it. -/
def StartsInTime (ctx : StatisticsContext) (opt : StatisticsOptions)
    (cfg : StatisticsConfiguration ctx.arithmetic) (u : PeriodUpdater) : Prop :=
  let w := makeWindow u opt cfg
  let v := w.windowFor ctx u (currentDateTime cfg)
  if cfg.timespan.getD 0 = 0 then
    opt.initialConditionPresent = true ∧
      (w.isWithin (currentDateTime cfg) = true ∨ w.creationPoint = currentDateTime cfg)
  else 0 < cfg.timespan.getD 0 ∧ v.isWithin (currentDateTime cfg) = true ∧
    currentDateTime cfg ≠ v.creationPoint

def InitialCondition (opt : StatisticsOptions) (cfg : StatisticsConfiguration ctx.arithmetic) : Prop :=
  opt.initialConditionPresent = true ∧ cfg.timespan.getD 0 = 0

theorem isWithin_congr {w w' : OperationWindow} (htype : w.windowType = w'.windowType)
    (hcreation : w.creationPoint = w'.creationPoint) (hend : w.endPoint = w'.endPoint)
    (t : DateTime) : w.isWithin t = w'.isWithin t := by
  unfold OperationWindow.isWithin OperationWindow.gtLowerBound OperationWindow.geLowerBound
    OperationWindow.leUpperBound OperationWindow.ltUpperBound
  rw [htype, hcreation, hend]

theorem reset_make (hcal : ctx.calendar.IsGregorian)
    (hts : TemporalStatistics.make conf cfg msg = .ok ts) :
    ∀ op ∈ ts.statistics, op.kind.deaccumulated = true →
      ∃ reset, Operation.solverResetAccumulatedField ctx cfg ts.nextWindow = .ok reset := by
  have hcan := (forall_made_iff (P := CanBegin ctx conf.opt cfg) (kinds_make hts)).mpr
    (exists_make_iff.mp ⟨ts, hts⟩).2.2
  obtain ⟨u, hu, ops, -, rfl⟩ := make_eq_ok_iff.mp hts
  intro op hop hdeacc
  refine (Operation.exists_solverReset_iff ?_).mpr (hcan op hop hdeacc).2
  have hend := u.lt_computeWinEndTime hcal (makePeriodUpdater_pos hu)
    (cfg.curr - 3600 * cfg.timespan.getD 0)
  exact (sub_le_sub_left hend.le cfg.curr).trans (prevPoint_makeWindow u conf.opt cfg)

theorem Processed.isWithin {ts₁ : TemporalStatistics ctx} {out : List Message}
    (h : Processed conf cfg msg ts ts₁ out) (hlater : ts.window.currPoint < cfg.curr) :
    let v := ts.window.windowFor ctx ts.periodUpdater (currentDateTime cfg)
    v.creationPoint < currentDateTime cfg ∧
      (ts₁.window.isWithin (currentDateTime cfg) = true ∨
        ts₁.window.creationPoint = currentDateTime cfg ↔ v.isWithin (currentDateTime cfg) = true) := by
  obtain ⟨counts, hadvance⟩ := h.advance hlater
  obtain ⟨hlower, -, heq⟩ := OperationWindow.updateData_eq_ok_iff.mp hadvance
  obtain ⟨-, -, hcreation, -, -, hend, -, -, -, -, htype⟩ := OperationWindow.mk.inj heq
  refine ⟨hlower, ?_⟩
  rw [isWithin_congr htype hcreation hend]
  exact or_iff_left fun h => hlower.ne (hcreation.symm.trans h)

theorem first_message_processed_iff (hA : ReadsValues ctx.arithmetic)
    (hcal : ctx.calendar.IsGregorian) (hts : TemporalStatistics.make conf cfg msg = .ok ts) :
    (∃ ts₁ out, (ts.process conf cfg msg).Returns (ts₁, out) ∧
      (InitialCondition conf.opt cfg → out = [] ∧ ts₁ = ts) ∧
      (ts₁.window.isWithin (currentDateTime cfg) = true ∨
        ts₁.window.creationPoint = currentDateTime cfg)) ↔
    StartsInTime ctx conf.opt cfg ts.periodUpdater ∧
      (cfg.timespan.getD 0 ≠ 0 → ∀ op ∈ ts.statistics, SupportsGrid ctx msg.metadata op.kind) := by
  obtain ⟨p, hsized⟩ := sized_make hA hts
  have hreset := reset_make hcal hts
  obtain ⟨u, hu, ops, hops, rfl⟩ := make_eq_ok_iff.mp hts
  have hcurr : (makeWindow u conf.opt cfg).currPoint = cfg.curr - 3600 * cfg.timespan.getD 0 := rfl
  unfold StartsInTime InitialCondition
  by_cases hspan : cfg.timespan.getD 0 = 0
  · -- the message is where the window begins
    rw [if_pos hspan]
    rw [hspan, mul_zero, sub_zero] at hcurr
    by_cases hinitial : conf.opt.initialConditionPresent = true
    · have hignored (ts : TemporalStatistics ctx) (h : ts.window.currPoint = cfg.curr) :
          ts.process conf cfg msg = { state := (ts, []) } := if_pos ⟨h.symm, hinitial⟩
      rw [hignored _ hcurr]
      constructor
      · intro h
        obtain ⟨ts₁, out, hret, -, hwindow⟩ := h
        obtain ⟨rfl, rfl⟩ := Prod.mk.inj (Outcome.returns_mk.mp hret)
        exact ⟨⟨hinitial, hwindow⟩, fun h => absurd hspan h⟩
      · intro h
        exact ⟨_, [], rfl, fun _ => ⟨rfl, rfl⟩, h.1.2⟩
    · refine iff_of_false (fun h => ?_) fun h => hinitial h.1.1
      obtain ⟨ts₁, out, hret, -⟩ := h
      cases process_returns hret with
      | ignored h => exact hinitial h
      | inside hlater => exact absurd hcurr hlater.ne
      | outside hlater => exact absurd hcurr hlater.ne
  · rw [if_neg hspan]
    by_cases hpos : 0 < cfg.timespan.getD 0
    · -- with a positive time span the message lies after the point that the window is made for
      have hlater : (makeWindow u conf.opt cfg).currPoint < cfg.curr := by
        rw [hcurr]
        exact sub_lt_self _ (mul_pos (by norm_num) hpos)
      have hiff := process_first_iff conf hA hsized rfl hlater hreset
      constructor
      · intro h
        obtain ⟨ts₁, out, hret, -, hwindow⟩ := h
        obtain ⟨-, hgrid⟩ := hiff.mp (Outcome.returns_iff.mp hret).1
        obtain ⟨hlower, hwithin⟩ := (process_returns hret).isWithin hlater
        exact ⟨⟨hpos, hwithin.mp hwindow, hlower.ne'⟩, fun _ => hgrid⟩
      · intro h
        obtain ⟨⟨-, hwithin, hne⟩, hgrid⟩ := h
        have hfits := (OperationWindow.exists_advance_iff hwithin).mpr (Or.inr hne)
        have hnone := hiff.mpr ⟨hfits, hgrid hspan⟩
        have hret := Outcome.returns_iff.mpr ⟨hnone, rfl⟩
        refine ⟨_, _, hret, fun h => absurd h.2 hspan, ?_⟩
        exact ((process_returns hret).isWithin hlater).2.mpr hwithin
    · -- a negative time span puts the beginning of the window after the message
      refine iff_of_false (fun h => ?_) fun h => hpos h.1.1
      obtain ⟨ts₁, out, hret, -⟩ := h
      have hlate : cfg.curr < (makeWindow u conf.opt cfg).currPoint := by
        rw [hcurr]
        have hneg := mul_neg_of_pos_of_neg (show (0 : ℤ) < 3600 by norm_num)
          (lt_of_le_of_ne (not_lt.mp hpos) hspan)
        exact (sub_zero cfg.curr).symm.trans_lt (sub_lt_sub_left hneg cfg.curr)
      cases process_returns hret with
      | ignored _ h => exact absurd h hlate.ne
      | inside hlater => exact absurd hlater hlate.not_gt
      | outside hlater => exact absurd hlater hlate.not_gt

end TemporalStatistics
end

namespace StatisticsAction

variable {io : RestartIO ctx} (conf : Config) (a : StatisticsAction ctx io)
  (cfg : StatisticsConfiguration ctx.arithmetic) (msg : Message)

/-- Neither the action nor the files of a restart know the field. -/
def NewField (key : String) : Prop :=
  a.fieldStats.find? key = none ∧
    (conf.opt.readRestart = true → a.disk.entry conf.restartTime key = none)

/-- The message is processed, an initial condition only makes the statistics, and the window
contains the time of the message or begins at it. -/
def FirstAccepted : Prop :=
  ∃ a' out ts, (a.executeImpl conf msg).Returns (a', out) ∧ a'.fieldStats.find? cfg.key = some ts ∧
    (TemporalStatistics.InitialCondition conf.opt cfg →
      out = [] ∧ TemporalStatistics.make conf cfg msg = .ok ts) ∧
    (ts.window.isWithin (currentDateTime cfg) = true ∨
      ts.window.creationPoint = currentDateTime cfg)

/-- What the options and the first message of a field have to be. -/
structure AcceptsFirst : Prop where
  restart : conf.opt.readRestart = true → (a.disk.folder conf.restartTime).isSome = true
  precision : ∃ p, msg.precision ctx.toContext = .ok p
  operations : ∀ opname ∈ conf.operations, ∃ k, OperationKind.ofName opname = .ok k ∧
    CanBegin ctx conf.opt cfg k ∧
    (cfg.timespan.getD 0 ≠ 0 → TemporalStatistics.SupportsGrid ctx msg.metadata k)
  time : ∃ u, makePeriodUpdater conf.outputFrequency = .ok u ∧
    TemporalStatistics.StartsInTime ctx conf.opt cfg u

variable {conf a cfg msg}

theorem executeImpl_first_returns_iff (htag : msg.tag = .field)
    (hcfg : StatisticsConfiguration.make ctx conf.opt msg.metadata msg.source = .ok cfg)
    (hnew : a.NewField conf cfg.key) {a' : StatisticsAction ctx io} {out : List Message} :
    (a.executeImpl conf msg).Returns (a', out) ↔
      (conf.opt.readRestart = true → (a.disk.folder conf.restartTime).isSome = true) ∧
      ∃ ts ts₁, TemporalStatistics.make conf cfg msg = .ok ts ∧
        (ts.process conf cfg msg).Returns (ts₁, out) ∧
        a' = { a.updateLatestDateTime cfg with fieldStats := a.fieldStats.insert cfg.key ts₁ } := by
  -- a new field has no folder to be read from, so it is made
  have hmake : a.findOrMake conf cfg msg = TemporalStatistics.make conf cfg msg := by
    unfold findOrMake
    rw [hnew.1]
    simp only []
    cases hread : conf.opt.readRestart with
    | false => rfl
    | true => rw [hnew.2 hread]
  rw [executeImpl_of_field htag]
  have hexecuted := executeField_executed conf a msg
  generalize a.executeField conf msg = x at hexecuted
  cases hexecuted with
  | unread e h => cases hcfg.symm.trans h
  | noFolder cfg' e _ hfolder =>
    refine iff_of_false Outcome.not_returns_mk_some fun h => ?_
    exact Option.isSome_iff_ne_none.mp (h.1 hfolder.1) (Option.isNone_iff_eq_none.mp hfolder.2)
  | notMade cfg' e h hno =>
    obtain rfl := Except.ok.inj (hcfg.symm.trans h)
    refine iff_of_false Outcome.not_returns_mk_some fun h => ?_
    obtain ⟨-, ts, ts₁, hts, -⟩ := h
    cases (hmake.trans hts).symm.trans hno
  | processed cfg' ts h hfolder hfound =>
    obtain rfl := Except.ok.inj (hcfg.symm.trans h)
    rw [Outcome.map_returns_iff]
    constructor
    · intro h
      obtain ⟨⟨ts₁, out₁⟩, hret, heq⟩ := h
      obtain ⟨rfl, rfl⟩ := Prod.mk.inj heq
      refine ⟨fun hread => ?_, ts, ts₁, hmake.symm.trans hfound, hret, rfl⟩
      exact Option.isSome_iff_ne_none.mpr fun hnone =>
        hfolder ⟨hread, Option.isNone_iff_eq_none.mpr hnone⟩
    · intro h
      obtain ⟨-, ts', ts₁, hts, hret, rfl⟩ := h
      obtain rfl := Except.ok.inj (hfound.symm.trans (hmake.trans hts))
      exact ⟨(ts₁, out), hret, rfl⟩

/-- A first message is accepted exactly if it is an initial condition, or has a time span that puts
it into its window, and everything that is configured can be made for it. -/
theorem first_message_accepted_iff (hA : ReadsValues ctx.arithmetic)
    (hcal : ctx.calendar.IsGregorian) (htag : msg.tag = .field)
    (hcfg : StatisticsConfiguration.make ctx conf.opt msg.metadata msg.source = .ok cfg)
    (hnew : a.NewField conf cfg.key) :
    a.FirstAccepted conf cfg msg ↔ a.AcceptsFirst conf cfg msg := by
  constructor
  · intro h
    obtain ⟨a', out, ts₁, hret, hfind, hinitial, hwindow⟩ := h
    obtain ⟨hrestart, ts, ts₂, hts, hprocess, rfl⟩ :=
      (executeImpl_first_returns_iff htag hcfg hnew).mp hret
    have hsame : ts₂ = ts₁ := by
      rw [OrderedMap.find?_insert, if_pos rfl] at hfind
      exact Option.some.inj hfind
    subst hsame
    have hfirst : TemporalStatistics.InitialCondition conf.opt cfg → out = [] ∧ ts₂ = ts := by
      intro h
      obtain ⟨hout, hmade⟩ := hinitial h
      exact ⟨hout, (Except.ok.inj (hts.symm.trans hmade)).symm⟩
    obtain ⟨htime, hgrid⟩ := (TemporalStatistics.first_message_processed_iff hA hcal hts).mp
      ⟨ts₂, out, hprocess, hfirst, hwindow⟩
    obtain ⟨-, hprecision, hcan⟩ := TemporalStatistics.exists_make_iff.mp ⟨ts, hts⟩
    have hkinds := TemporalStatistics.kinds_make hts
    obtain ⟨u, hu, ops, -, rfl⟩ := TemporalStatistics.make_eq_ok_iff.mp hts
    refine ⟨hrestart, hprecision, fun opname hopname => ?_, u, hu, htime⟩
    obtain ⟨k, hk, hcan⟩ := hcan opname hopname
    refine ⟨k, hk, hcan, fun hspan => ?_⟩
    obtain ⟨k', hk', hgrid⟩ := (forall_made_iff hkinds).mp (hgrid hspan) opname hopname
    obtain rfl := Except.ok.inj (hk.symm.trans hk')
    exact hgrid
  · intro h
    obtain ⟨hrestart, hprecision, hoperations, u, hu, htime⟩ := h
    have hcan (opname : String) (hopname : opname ∈ conf.operations) :
        ∃ k, OperationKind.ofName opname = .ok k ∧ CanBegin ctx conf.opt cfg k :=
      (hoperations opname hopname).imp fun _ => And.imp_right And.left
    obtain ⟨ts, hts⟩ := TemporalStatistics.exists_make_iff.mpr ⟨⟨u, hu⟩, hprecision, hcan⟩
    have hgrid (hspan : cfg.timespan.getD 0 ≠ 0) :=
      (forall_made_iff (TemporalStatistics.kinds_make hts)).mpr fun opname hopname =>
        (hoperations opname hopname).imp fun _ => And.imp_right fun h => h.2 hspan
    have hupdater : ts.periodUpdater = u := by
      obtain ⟨u', hu', ops, -, rfl⟩ := TemporalStatistics.make_eq_ok_iff.mp hts
      exact Except.ok.inj (hu'.symm.trans hu)
    obtain ⟨ts₁, out, hret, hinitial, hwindow⟩ :=
      (TemporalStatistics.first_message_processed_iff hA hcal hts).mpr ⟨hupdater ▸ htime, hgrid⟩
    refine ⟨_, out, ts₁, (executeImpl_first_returns_iff htag hcfg hnew).mpr
      ⟨hrestart, ts, ts₁, hts, hret, rfl⟩, ?_, fun h => ?_, hwindow⟩
    · rw [OrderedMap.find?_insert, if_pos rfl]
    · obtain ⟨hout, rfl⟩ := hinitial h
      exact ⟨hout, hts⟩

end StatisticsAction

def dailyAverage : Config where
  opt := {}
  operations := ["average"]
  outputFrequency := "1d"

/-- Without a time span, the first message is refused by default. -/
theorem first_message_refused : ∃ cfg,
    StatisticsConfiguration.make exactContext.toStatisticsContext dailyAverage.opt
      (hourlyField 1 [] [1]).metadata {} = .ok cfg ∧
    ({} : StatisticsAction _ noFiles).NewField dailyAverage cfg.key ∧
    ¬ ({} : StatisticsAction _ noFiles).FirstAccepted dailyAverage cfg (hourlyField 1 [] [1]) := by
  refine ⟨_, rfl, ⟨rfl, fun _ => rfl⟩, fun h => ?_⟩
  obtain ⟨a', out, ts, hret, -⟩ := h
  have hrefused : (({} : StatisticsAction _ noFiles).executeImpl dailyAverage
    (hourlyField 1 [] [1])).exception.isSome = true := by decide +kernel
  rw [(Outcome.returns_iff.mp hret).1] at hrefused
  exact absurd hrefused Bool.false_ne_true

/-- With a time span of an hour, it is accepted. -/
theorem first_message_accepted_iff_noon : ∃ cfg,
    StatisticsConfiguration.make exactContext.toStatisticsContext dailyAverage.opt
      (hourlyField 12 [("timespan", .int64 1)] [1]).metadata {} = .ok cfg ∧
    ({} : StatisticsAction _ noFiles).FirstAccepted dailyAverage cfg
      (hourlyField 12 [("timespan", .int64 1)] [1]) := by
  have hcfg : StatisticsConfiguration.make exactContext.toStatisticsContext dailyAverage.opt
    (hourlyField 12 [("timespan", .int64 1)] [1]).metadata {} = .ok _ := rfl
  refine ⟨_, hcfg, (StatisticsAction.first_message_accepted_iff exactArithmetic_readsValues
    Calendar.gregorian_isGregorian rfl hcfg ⟨rfl, fun _ => rfl⟩).mpr ⟨?_, ⟨.double, rfl⟩, ?_, ?_⟩⟩
  · exact fun h => absurd h (by decide)
  · intro opname hopname
    obtain rfl := List.mem_singleton.mp hopname
    exact ⟨.average, rfl, fun h => absurd h (by decide), fun _ => ⟨none, rfl, fun _ => rfl⟩⟩
  · exact ⟨{ timeUnit := .day, span := 1 }, rfl, by
      unfold TemporalStatistics.StartsInTime
      decide +kernel⟩

end Multio.StatisticsMtg2
