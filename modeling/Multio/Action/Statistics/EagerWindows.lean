import Multio.Action.Statistics.OperationSizes
import Multio.Action.Statistics.Statistics
import Multio.Lib.TimeWindows

namespace Multio.Statistics
open Lib StatisticsMtg2 Exception

variable {ctx : StatisticsContext}

/-- The metadata have what the mapping of parameters asks for. -/
structure Remappable (ctx : StatisticsContext) (md : BaseMetadata) : Prop where
  keyed : md.Keyed
  param : ∃ s, getString ctx.toStatisticsContext md "param" = .ok s
  paramId : ∃ n, getInt64 ctx.toStatisticsContext md "paramId" = .ok (some n)

theorem Remappable.set {md : BaseMetadata} (h : Remappable ctx md) {k : String}
    (hparam : "param" ≠ k) (hparamId : "paramId" ≠ k) (v : MetadataValue) :
    Remappable ctx (md.set ctx.policy k v) where
  keyed := BaseMetadata.keyed_set h.keyed k v
  param := by
    unfold getString
    rw [BaseMetadata.getOpt_set_of_ne h.keyed _ _ hparam]
    exact h.param
  paramId := by
    unfold getInt64
    rw [BaseMetadata.getOpt_set_of_ne h.keyed _ _ hparamId]
    exact h.paramId

theorem Remappable.applyRemap {md : BaseMetadata} (h : Remappable ctx md) (r : RemapParamID)
    (opname outputFrequency : String) :
    ∃ md', r.applyRemap ctx md opname outputFrequency = .ok md' ∧ Remappable ctx md' := by
  obtain ⟨s, hs⟩ := h.param
  obtain ⟨n, hn⟩ := h.paramId
  unfold RemapParamID.applyRemap
  split_ifs with hmapping
  · rw [hs, ok_bind, hn, ok_bind]
    simp only []
    cases r.paramIDMap (RemapParamID.key (toString n) opname outputFrequency) with
    | none => exact ⟨md, rfl, h⟩
    | some newParam =>
      have hkeyed : (md.set ctx.policy "paramId" (.int64 (atol newParam))).Keyed :=
        BaseMetadata.keyed_set h.keyed _ _
      refine ⟨_, rfl, BaseMetadata.keyed_set hkeyed "param" (.string newParam), ?_, ?_⟩
      · refine ⟨some newParam, ?_⟩
        have hget : MetadataValue.getString (.string newParam) = .ok newParam := rfl
        exact BaseMetadata.getOpt_set_self hkeyed _ hget _
      · refine ⟨atol newParam, ?_⟩
        unfold getInt64
        rw [BaseMetadata.getOpt_set_of_ne hkeyed _ _ (by decide)]
        have hget : MetadataValue.getInt64 (.int64 (atol newParam)) = .ok (atol newParam) := rfl
        exact BaseMetadata.getOpt_set_self h.keyed _ hget _
  · exact ⟨md, rfl, h⟩

def Mappable (conf : Config) (ctx : StatisticsContext) (md : BaseMetadata) : Prop :=
  conf.remapParamID.hasMapping = true → Remappable ctx md

theorem Mappable.set {conf : Config} {md : BaseMetadata} (h : Mappable conf ctx md) {k : String}
    (hparam : "param" ≠ k) (hparamId : "paramId" ≠ k) (v : MetadataValue) :
    Mappable conf ctx (md.set ctx.policy k v) := fun hmapping => (h hmapping).set hparam hparamId v

theorem Mappable.applyRemap {conf : Config} {md : BaseMetadata} (h : Mappable conf ctx md)
    (opname : String) :
    ∃ md', conf.remapParamID.applyRemap ctx md opname conf.outputFrequency = .ok md' ∧
      Mappable conf ctx md' := by
  by_cases hmapping : conf.remapParamID.hasMapping = true
  · obtain ⟨md', hmd', h'⟩ := (h hmapping).applyRemap conf.remapParamID opname conf.outputFrequency
    exact ⟨md', hmd', fun _ => h'⟩
  · exact ⟨md, if_neg hmapping, h⟩

namespace TemporalStatistics

variable {conf : Config} {cfg : StatisticsConfiguration ctx.arithmetic} {p : PrecisionTag} {sz : ℕ}

theorem emitOperations_ok {win : OperationWindow} (source destination : Peer)
    (hinterval : win.count * cfg.stepFreq * cfg.timeStep ≠ 0)
    {ops : List (Operation ctx.arithmetic)} (hops : ∀ op ∈ ops, op.Fits p sz ∧
      (Counting conf.opt cfg → op.kind.usesCounters = true → win.counts.length = sz / p.size))
    {md : BaseMetadata} (hmd : Mappable conf ctx md) :
    ∃ out, emitOperations conf cfg win source destination md ops = .ok out := by
  induction ops generalizing md with
  | nil => exact ⟨[], rfl⟩
  | cons op ops ih =>
    rw [List.forall_mem_cons] at hops
    obtain ⟨payload, hpayload⟩ := hops.1.1.compute hinterval hops.1.2
    have hset := (hmd.set (k := "operation") (by decide) (by decide)
      (.string op.kind.operation)).set (k := "operation-frequency") (by decide) (by decide)
      (.string conf.outputFrequency)
    obtain ⟨md', hmd', hmappable⟩ := hset.applyRemap op.kind.operation
    obtain ⟨out, hout⟩ := ih hops.2 hmappable
    unfold emitOperations
    simp only []
    rw [hmd', ok_bind, hpayload, ok_bind, hout]
    exact ⟨_, rfl⟩

theorem emit_ok {ts : TemporalStatistics ctx} (msg : Message)
    (htimeStep : ts.window.timeStepInSeconds ≠ 0)
    (hinterval : ts.window.count * cfg.stepFreq * cfg.timeStep ≠ 0)
    (hops : ∀ op ∈ ts.statistics, op.Fits p sz ∧
      (Counting conf.opt cfg → op.kind.usesCounters = true →
        ts.window.counts.length = sz / p.size))
    (hmd : Mappable conf ctx msg.metadata) : ∃ out, ts.emit conf cfg msg = .ok out := by
  unfold emit outputMetadata OperationWindow.timeSpanInSteps
  simp only []
  rw [if_neg htimeStep, ok_bind, ok_bind]
  apply emitOperations_ok _ _ hinterval hops
  repeat apply Mappable.set _ (by decide) (by decide)
  exact hmd

variable (conf cfg) in
theorem updateOperations_ok (hA : Lawful ctx.arithmetic) {payload : List UInt8}
    (hpayload : payload.length = sz) {ops : List (Operation ctx.arithmetic)}
    (hops : ∀ op ∈ ops, op.Fits p sz) {win : OperationWindow}
    (hwin : Operation.CountersFit (sz / p.size) win) :
    ∃ counts ops', updateOperations conf.opt cfg payload win ops = .ok ({ win with counts }, ops') ∧
      Operation.CountersFit (sz / p.size) { win with counts } ∧
      (win.counts.length = sz / p.size → counts.length = sz / p.size) ∧
      ∀ op ∈ ops', op.Fits p sz ∧
        (Counting conf.opt cfg → op.kind.usesCounters = true → counts.length = sz / p.size) := by
  induction ops generalizing win with
  | nil => exact ⟨win.counts, [], rfl, hwin, id, fun op hop => by cases hop⟩
  | cons op ops ih =>
    rw [List.forall_mem_cons] at hops
    obtain ⟨counts, op', hop', hfits, hkind, hcounts, hkeep, hcounting⟩ :=
      hops.1.updateData conf.opt cfg hA hpayload hwin
    obtain ⟨counts', ops', hops', hcounts', hkeep', hall⟩ := ih hops.2 hcounts
    refine ⟨counts', op' :: ops', ?_, hcounts', fun h => hkeep' (hkeep h), ?_⟩
    · unfold updateOperations
      rw [hop', ok_bind]
      simp only []
      rw [hops']
      rfl
    · rw [List.forall_mem_cons]
      exact ⟨⟨hfits, fun h huses => hkeep' (hcounting h (hkind ▸ huses))⟩, hall⟩

variable (conf cfg) in
theorem updateWindows_ok (hA : Lawful ctx.arithmetic) {payload : List UInt8}
    (hpayload : payload.length = sz) {ops : List (Operation ctx.arithmetic)}
    (hops : ∀ op ∈ ops, op.Fits p sz) :
    ∃ ops', ops.mapM (Operation.updateWindow ctx conf.opt cfg payload) = .ok ops' ∧
      ∀ op ∈ ops', op.Fits p sz := by
  induction ops with
  | nil => exact ⟨[], rfl, fun op hop => by cases hop⟩
  | cons op ops ih =>
    rw [List.forall_mem_cons] at hops
    obtain ⟨op', hop', hfits⟩ := hops.1.updateWindow conf.opt cfg hA hpayload
    obtain ⟨ops', hops', hall⟩ := ih hops.2
    refine ⟨op' :: ops', ?_, List.forall_mem_cons.mpr ⟨hfits, hall⟩⟩
    rw [List.mapM_cons, hop', ok_bind, hops']
    rfl

/-- The points between the windows of a field, from the one that the first is made for. -/
def windowPoint (calendar : Calendar) (u : PeriodUpdater) (start : DateTime) : ℕ → DateTime
  | 0 => start
  | 1 => u.computeWinEndTime calendar (u.computeWinStartTime calendar start)
  | k + 2 => u.updateWinEndTime calendar (windowPoint calendar u start (k + 1))

theorem windowPoint_strictMono {calendar : Calendar} (h : calendar.IsGregorian) {u : PeriodUpdater}
    (hspan : 1 ≤ u.span) (start : DateTime) : StrictMono (windowPoint calendar u start) := by
  apply strictMono_nat_of_lt_succ
  intro k
  cases k with
  | zero => exact u.lt_computeWinEndTime h hspan start
  | succ k => exact u.lt_updateWinEndTime h hspan _

/-- The field is in the `k`-th window, which began by the `j`-th time and does not end before it,
and has counted the times since. -/
structure Within (p : PrecisionTag) (sz : ℕ) (u : PeriodUpdater) (timeStep : ℤ) (start : DateTime)
    (time : ℕ → DateTime) (k j : ℕ) (ts : TemporalStatistics ctx) : Prop where
  periodUpdater : ts.periodUpdater = u
  forward : ts.window.windowType = .forwardOffset
  timeStep : ts.window.timeStepInSeconds = timeStep
  creationPoint : ts.window.creationPoint = windowPoint ctx.calendar u start k
  endPoint : ts.window.endPoint = windowPoint ctx.calendar u start (k + 1)
  currPoint : ts.window.currPoint = time j
  begun : windowPoint ctx.calendar u start k ≤ time j
  notOver : time j ≤ windowPoint ctx.calendar u start (k + 1)
  count : ts.window.count = countAfter time (windowPoint ctx.calendar u start k) j
  counts : Operation.CountersFit (sz / p.size) ts.window
  fits : ∀ op ∈ ts.statistics, op.Fits p sz

/-- A message whose times are the `j`-th and, as it predicts, the next one. -/
structure Timed (timeStep : ℤ) (time : ℕ → DateTime) (j : ℕ)
    (cfg : StatisticsConfiguration ctx.arithmetic) : Prop where
  curr : cfg.curr = time j
  current : cfg.currentDateTime = time j
  next : cfg.nextDateTime = time (j + 1)
  timeStep : cfg.timeStep = timeStep
  interval : 0 < cfg.stepFreq * cfg.timeStep

variable {u : PeriodUpdater} {timeStep : ℤ} {start : DateTime} {time : ℕ → DateTime} {k j : ℕ}
  {ts : TemporalStatistics ctx}

variable (conf) in
theorem Within.updateData (h : ts.Within p sz u timeStep start time k j)
    (hA : Lawful ctx.arithmetic) (hmono : StrictMono time)
    (hend : time (j + 1) ≤ windowPoint ctx.calendar u start (k + 1))
    (hcfg : Timed timeStep time (j + 1) cfg) {payload : List UInt8} (hpayload : payload.length = sz) :
    ∃ upd, ts.updateData conf cfg payload = .ok upd ∧
      upd.Within p sz u timeStep start time k (j + 1) ∧
      ∀ op ∈ upd.statistics, Counting conf.opt cfg → op.kind.usesCounters = true →
        upd.window.counts.length = sz / p.size := by
  have hnext : time j < time (j + 1) := hmono (Nat.lt_succ_self j)
  have hlower : ts.window.creationPoint < time (j + 1) := by
    rw [h.creationPoint]
    exact h.begun.trans_lt hnext
  have hupper : time (j + 1) ≤ ts.window.endPoint := by rwa [h.endPoint]
  unfold TemporalStatistics.updateData
  rw [hcfg.current, OperationWindow.updateData_ok ctx.toStatisticsContext hlower hupper, ok_bind]
  have hwin : Operation.CountersFit (sz / p.size)
      { ts.window with prevPoint := ts.window.currPoint, currPoint := time (j + 1),
                       count := ts.window.count + 1 } := h.counts
  obtain ⟨counts, ops, hops, hcounts, -, hall⟩ :=
    updateOperations_ok conf cfg hA hpayload h.fits hwin
  rw [hops]
  refine ⟨_, rfl, ?_, fun op hop => (hall op hop).2⟩
  exact
    { periodUpdater := h.periodUpdater
      forward := h.forward
      timeStep := h.timeStep
      creationPoint := h.creationPoint
      endPoint := h.endPoint
      currPoint := rfl
      begun := h.begun.trans hnext.le
      notOver := hend
      count := by
        simp only []
        rw [countAfter_succ (h.begun.trans_lt hnext), h.count, Nat.cast_succ]
      counts := hcounts
      fits := fun op hop => (hall op hop).1 }

/-- The window ends exactly where the prediction of the next message says so. -/
theorem Within.isEndOfWindow_iff (h : ts.Within p sz u timeStep start time k (j + 1))
    (hmono : StrictMono time)
    (hend : windowPoint ctx.calendar u start (k + 1) ∈ Set.range time)
    (hahead : time j < windowPoint ctx.calendar u start (k + 1))
    (hcfg : Timed timeStep time (j + 1) cfg) :
    ts.isEndOfWindow cfg = true ↔ time (j + 1) = windowPoint ctx.calendar u start (k + 1) := by
  have hlower : windowPoint ctx.calendar u start k < time (j + 2) :=
    h.begun.trans_lt (hmono (Nat.lt_succ_self _))
  rw [← lt_next_next_iff hmono hend hahead]
  unfold TemporalStatistics.isEndOfWindow OperationWindow.isWithin OperationWindow.gtLowerBound
    OperationWindow.leUpperBound
  rw [h.forward]
  simp only []
  rw [hcfg.next, h.creationPoint, h.endPoint, decide_eq_true hlower]
  simp

/-- At its end a window is emitted, and the field is at the beginning of the next one. -/
theorem Within.close (h : ts.Within p sz u timeStep start time k j)
    (hA : Lawful ctx.arithmetic) (hmono : StrictMono time)
    (hW : StrictMono (windowPoint ctx.calendar u start))
    (hend : time j = windowPoint ctx.calendar u start (k + 1))
    (hcount : 0 < countAfter time (windowPoint ctx.calendar u start k) j)
    (hcounting : ∀ op ∈ ts.statistics, Counting conf.opt cfg → op.kind.usesCounters = true →
      ts.window.counts.length = sz / p.size)
    (hcfg : Timed timeStep time j cfg) {msg : Message} (hpayload : msg.payload.length = sz)
    (hmd : Mappable conf ctx msg.metadata) :
    ∃ out ts', ts.emit conf cfg msg = .ok out ∧ ts.updateWindow conf cfg msg.payload = .ok ts' ∧
      ts'.Within p sz u timeStep start time (k + 1) j := by
  -- the length of the window goes into the metadata, and it must not be zero
  have hne : ts.window.count * cfg.stepFreq * cfg.timeStep ≠ 0 := by
    rw [mul_assoc, h.count]
    apply mul_ne_zero (Nat.cast_ne_zero.mpr hcount.ne') hcfg.interval.ne'
  have htimeStep : ts.window.timeStepInSeconds ≠ 0 := by
    rw [h.timeStep, ← hcfg.timeStep]
    exact right_ne_zero_of_mul hcfg.interval.ne'
  obtain ⟨out, hout⟩ := emit_ok msg htimeStep hne
    (fun op hop => ⟨h.fits op hop, hcounting op hop⟩) hmd
  obtain ⟨ops, hops, hfits⟩ := updateWindows_ok conf cfg hA hpayload h.fits
  unfold TemporalStatistics.updateWindow
  simp only []
  rw [hops, hout]
  refine ⟨out, _, rfl, rfl, ?_⟩
  exact
    { periodUpdater := h.periodUpdater
      forward := h.forward
      timeStep := h.timeStep
      creationPoint := h.endPoint
      endPoint := by
        unfold OperationWindow.updateWindow
        simp only []
        rw [h.periodUpdater, h.endPoint]
        rfl
      currPoint := h.endPoint.trans hend.symm
      begun := hend.ge
      notOver := hend.le.trans (hW (Nat.lt_succ_self _)).le
      count := by
        rw [countAfter_eq_zero hmono.monotone hend.le]
        rfl
      counts := Or.inl rfl
      fits := hfits }

/-- The operations are known, and can do without the initial condition where there is none. -/
def Accepted (conf : Config) : Prop :=
  ∀ opname ∈ conf.operations, ∃ kind, OperationKind.ofName opname = .ok kind ∧
    (conf.opt.solverSendInitStep = false → kind.needStepZero = false)

variable (cfg) in
theorem makeOperations_ok (hA : Lawful ctx.arithmetic) {opt : StatisticsOptions} {msg : Message}
    (hpayload : msg.payload.length = sz) (hprecision : msg.precision ctx.toContext = .ok p)
    {operations : List String}
    (hops : ∀ opname ∈ operations, ∃ kind, OperationKind.ofName opname = .ok kind ∧
      (opt.solverSendInitStep = false → kind.needStepZero = false)) :
    ∃ ops, makeOperations opt cfg msg operations = .ok ops ∧ ∀ op ∈ ops, op.Fits p sz := by
  unfold makeOperations
  rw [hprecision, ok_bind]
  induction operations with
  | nil => exact ⟨[], rfl, fun op hop => by cases hop⟩
  | cons opname operations ih =>
    rw [List.forall_mem_cons] at hops
    obtain ⟨⟨kind, hkind, hzero⟩, hrest⟩ := hops
    obtain ⟨ops, hops, hfits⟩ := ih hrest
    have hfresh : (Operation.make ctx.arithmetic kind p sz).Fits p sz := Operation.fits_make _ _ _ _
    have hop : ∃ op, makeOperation opt cfg p msg.payload opname = .ok op ∧ op.Fits p sz := by
      unfold makeOperation
      rw [hkind, ok_bind, hpayload]
      simp only []
      split_ifs with hinit hneed
      · exact hfresh.initData hA hpayload
      · rw [Bool.not_eq_true] at hinit
        rw [hzero hinit] at hneed
        cases hneed
      · exact ⟨_, rfl, hfresh.init⟩
    obtain ⟨op, hop, hopfits⟩ := hop
    refine ⟨op :: ops, ?_, List.forall_mem_cons.mpr ⟨hopfits, hfits⟩⟩
    rw [List.mapM_cons, hop, ok_bind, hops]
    rfl

theorem make_within (hA : Lawful ctx.arithmetic) (hcal : ctx.calendar.IsGregorian)
    (hforward : conf.opt.windowType = .forwardOffset)
    (hu : makePeriodUpdater conf.outputFrequency = .ok u) (hops : Accepted conf) {msg : Message}
    (hpayload : msg.payload.length = sz) (hprecision : msg.precision ctx.toContext = .ok p)
    (htimeStep : cfg.timeStep = timeStep) (hstart : cfg.winStart conf.opt = start)
    (htime : time 0 = start) :
    ∃ ts : TemporalStatistics ctx, make conf cfg msg = .ok ts ∧
      ts.Within p sz u timeStep start time 0 0 := by
  obtain ⟨ops, hmake, hfits⟩ := makeOperations_ok cfg hA hpayload hprecision hops
  unfold make
  rw [hu, ok_bind, hmake, ok_bind]
  refine ⟨_, rfl, ?_⟩
  exact
    { periodUpdater := rfl
      forward := hforward
      timeStep := htimeStep
      creationPoint := hstart
      endPoint := by rw [← hstart]; rfl
      currPoint := hstart.trans htime.symm
      begun := htime.ge
      notOver := htime.trans_le (windowPoint_strictMono hcal (makePeriodUpdater_pos hu) start
        Nat.zero_lt_one).le
      count := by
        unfold countAfter
        rw [Finset.filter_false_of_mem]
        · rfl
        · intro i hi
          obtain rfl : i = 0 := by simpa using hi
          exact not_lt_of_ge htime.le
      counts := Or.inl rfl
      fits := hfits }

/-- A message is accumulated in the window from `creationPoint` to `endPoint` as its `count`-th,
and the window is emitted while its last message is processed. -/
structure EagerStep (conf : Config) (cfg : StatisticsConfiguration ctx.arithmetic) (msg : Message)
    (ts ts' : TemporalStatistics ctx) (out : List Message) (creationPoint endPoint : DateTime)
    (count : ℕ) : Prop where
  after : creationPoint < cfg.currentDateTime
  before : cfg.currentDateTime ≤ endPoint
  accumulated : ∃ upd : TemporalStatistics ctx, ts.updateData conf cfg msg.payload = .ok upd ∧
    upd.window.creationPoint = creationPoint ∧ upd.window.endPoint = endPoint ∧
    upd.window.count = count ∧
    (cfg.currentDateTime = endPoint →
      upd.emit conf cfg msg = .ok out ∧ upd.updateWindow conf cfg msg.payload = .ok ts') ∧
    (cfg.currentDateTime ≠ endPoint → out = [] ∧ ts' = upd)

theorem Within.process (h : ts.Within p sz u timeStep start time k j)
    (hA : Lawful ctx.arithmetic) (hmono : StrictMono time)
    (hW : StrictMono (windowPoint ctx.calendar u start))
    (hahead : time j < windowPoint ctx.calendar u start (k + 1))
    (hend : windowPoint ctx.calendar u start (k + 1) ∈ Set.range time)
    (hcfg : Timed timeStep time (j + 1) cfg) {msg : Message} (hpayload : msg.payload.length = sz)
    (hmd : Mappable conf ctx msg.metadata) :
    ∃ ts' out k', ts.process conf cfg msg = .ok (ts', out) ∧
      EagerStep conf cfg msg ts ts' out (windowPoint ctx.calendar u start k)
        (windowPoint ctx.calendar u start (k + 1))
        (countAfter time (windowPoint ctx.calendar u start k) (j + 1)) ∧
      ts'.Within p sz u timeStep start time k' (j + 1) ∧
      time (j + 1) < windowPoint ctx.calendar u start (k' + 1) := by
  have hnext : time j < time (j + 1) := hmono (Nat.lt_succ_self j)
  have hlower := h.begun.trans_lt hnext
  have hupper := next_le hmono hend hahead
  obtain ⟨upd, hupd, hwithin, hcounting⟩ :=
    h.updateData conf hA hmono hupper hcfg hpayload
  have hprocess : ts.process conf cfg msg = upd.closeWindow conf cfg msg := by
    unfold TemporalStatistics.process
    rw [hcfg.curr, h.currPoint, if_neg (fun heq => hnext.ne' heq.1), if_neg (not_le_of_gt hnext),
      hupd]
    rfl
  have hclose := hwithin.isEndOfWindow_iff hmono hend hahead hcfg
  rw [hprocess]
  unfold closeWindow
  -- the window is closed by the message at its end, and by no other
  by_cases heq : time (j + 1) = windowPoint ctx.calendar u start (k + 1)
  · obtain ⟨out, ts', hout, hts', hwithin'⟩ := hwithin.close hA hmono hW heq
      (countAfter_pos hlower) hcounting hcfg hpayload hmd
    rw [if_pos (hclose.mpr heq), hout, ok_bind, hts']
    refine ⟨ts', out, k + 1, rfl, ⟨?_, ?_, upd, hupd, hwithin.creationPoint, hwithin.endPoint,
      hwithin.count, ?_, ?_⟩, hwithin', heq.trans_lt (hW (Nat.lt_succ_self _))⟩
    · rwa [hcfg.current]
    · rwa [hcfg.current]
    · exact fun _ => ⟨hout, hts'⟩
    · exact fun hne => absurd (hcfg.current.trans heq) hne
  · rw [if_neg fun hend => heq (hclose.mp hend)]
    refine ⟨upd, [], k, rfl, ⟨?_, ?_, upd, hupd, hwithin.creationPoint, hwithin.endPoint,
      hwithin.count, ?_, ?_⟩, hwithin, lt_of_le_of_ne hupper heq⟩
    · rwa [hcfg.current]
    · rwa [hcfg.current]
    · exact fun hend => absurd (hcfg.current.symm.trans hend) heq
    · exact fun _ => ⟨rfl, rfl⟩

end TemporalStatistics
end Multio.Statistics
