import Multio.Action.StatisticsMtg2.CombinedValues

namespace Multio.Statistics
open Lib StatisticsMtg2 Exception
open Operation (CountersFit)
open StatisticsMtg2.TemporalStatistics (CountersOnly)

variable {ctx : StatisticsContext}

structure History where
  /-- The message that the statistics were made for. -/
  initial : Message
  /-- The windows that were emitted, by their messages, and what was emitted for each. -/
  emitted : List (List Message × List Message) := []
  /-- The messages of the window. -/
  inputs : List Message := []

/-- A message is ignored, or goes into the window, which may end with it. -/
def History.message (h : History) (conf : Config) (ts : TemporalStatistics ctx)
    (cfg : StatisticsConfiguration ctx.arithmetic) (msg : Message) (out : List Message) : History :=
  if cfg.curr = ts.window.currPoint ∧ conf.opt.solverSendInitStep then h
  else if ts.isEndOfWindow cfg then
    { h with emitted := h.emitted ++ [(h.inputs ++ [msg], out)], inputs := [] }
  else { h with inputs := h.inputs ++ [msg] }

structure ReadAs (conf : Config) (missing : Option (ctx.arithmetic.Real .double)) (msg : Message)
    (cfg : StatisticsConfiguration ctx.arithmetic) : Prop where
  make : StatisticsConfiguration.make ctx conf.opt msg.metadata msg.source = .ok cfg
  missing : cfg.missingValue = missing

/-- The statistics of a field with their history: made for a first message and advanced by the
others. -/
inductive Recorded (conf : Config) (missing : Option (ctx.arithmetic.Real .double)) :
    TemporalStatistics ctx → History → Prop
  | made {ts : TemporalStatistics ctx} {msg : Message} {cfg : StatisticsConfiguration ctx.arithmetic}
      (hcfg : ReadAs conf missing msg cfg) (hmake : TemporalStatistics.make conf cfg msg = .ok ts) :
      Recorded conf missing ts { initial := msg }
  | message {ts ts₁ : TemporalStatistics ctx} {h : History} {msg : Message}
      {cfg : StatisticsConfiguration ctx.arithmetic} {out : List Message}
      (hts : Recorded conf missing ts h) (hcfg : ReadAs conf missing msg cfg)
      (hprocess : ts.process conf cfg msg = .ok (ts₁, out)) :
      Recorded conf missing ts₁ (h.message conf ts cfg msg out)

namespace Operation

theorem updateData_frame {opt : StatisticsOptions} {cfg : StatisticsConfiguration ctx.arithmetic}
    {payload : List UInt8} {op op₁ : Operation ctx.arithmetic} {w w₁ : OperationWindow}
    (h : op.updateData ctx opt cfg payload w = .ok (w₁, op₁)) :
    CountersOnly (op.kind.usesCounters = true ∧ Counting opt cfg) w w₁ ∧ op₁.kind = op.kind := by
  simp only [updateData, bind_eq_ok_iff] at h
  obtain ⟨-, -, win, hwin, heq⟩ := h
  obtain ⟨rfl, rfl⟩ := Prod.mk.inj (Except.ok.inj heq)
  refine ⟨?_, updateValues_kind _ _ _ _⟩
  unfold updateCounts at hwin
  split at hwin
  · rename_i m hk hmode
    refine ⟨OperationWindow.updateCounts_window hwin, fun hno => ?_⟩
    exact absurd ⟨hk, updateMode_counters hmode⟩ hno
  · obtain rfl := Except.ok.inj hwin
    exact CountersOnly.refl _ _

theorem restartFrom_kind {opt : StatisticsOptions} {cfg : StatisticsConfiguration ctx.arithmetic}
    {payload : List UInt8} {op op₁ : Operation ctx.arithmetic}
    (h : op.restartFrom ctx opt cfg payload = .ok op₁) : op₁.kind = op.kind := by
  simp only [restartFrom, bind_eq_ok_iff] at h
  obtain ⟨-, -, h⟩ := h
  split_ifs at h
  · rw [← Except.ok.inj h]
  · rw [← Except.ok.inj h]

theorem updateWindow_kind {opt : StatisticsOptions} {cfg : StatisticsConfiguration ctx.arithmetic}
    {payload : List UInt8} {op op₁ : Operation ctx.arithmetic}
    (h : op.updateWindow ctx opt cfg payload = .ok op₁) : op₁.kind = op.kind := by
  unfold updateWindow at h
  split_ifs at h
  · exact restartFrom_kind h
  · rw [← Except.ok.inj h]

end Operation

theorem makeOperation_kind {opt : StatisticsOptions} {cfg : StatisticsConfiguration ctx.arithmetic}
    {p : PrecisionTag} {payload : List UInt8} {opname : String} {op : Operation ctx.arithmetic}
    (h : makeOperation opt cfg p payload opname = .ok op) :
    OperationKind.ofName opname = .ok op.kind := by
  simp only [makeOperation, bind_eq_ok_iff] at h
  obtain ⟨kind, hkind, h⟩ := h
  rw [hkind]
  split_ifs at h
  · unfold Operation.initData at h
    split_ifs at h
    · rw [Operation.restartFrom_kind h]
      rfl
    · rw [← Except.ok.inj h]
      rfl
  · rw [← Except.ok.inj h]
    unfold Operation.init
    split_ifs <;> rfl

/-- Neither an initial condition nor its absence is of interest to an operation that does not
deaccumulate. -/
theorem makeOperation_eq_make {opt : StatisticsOptions} {cfg : StatisticsConfiguration ctx.arithmetic}
    {p : PrecisionTag} {payload : List UInt8} {opname : String}
    {k : OperationKind} {op : Operation ctx.arithmetic} (hk : OperationKind.ofName opname = .ok k)
    (hno : ¬ k.deaccumulated = true) (h : makeOperation opt cfg p payload opname = .ok op) :
    op = Operation.make ctx.arithmetic k p payload.length := by
  obtain ⟨k', hk', h⟩ := bind_eq_ok_iff.mp h
  obtain rfl := Except.ok.inj (hk.symm.trans hk')
  dsimp only at h
  split_ifs at h
  · exact (Except.ok.inj ((if_neg hno).symm.trans h)).symm
  · exact (Except.ok.inj h).symm.trans (if_neg hno)

abbrev CountsAlone (operations : List String) (i : ℕ) : Prop :=
  NamedAlone OperationKind.ofName OperationKind.usesCounters operations i

abbrev Place (needed : Prop) (i : ℕ) (ts : TemporalStatistics ctx)
    (op : Operation ctx.arithmetic) : Prop :=
  PlaceAmong Operation.kind OperationKind.usesCounters needed i ts.statistics op

namespace TemporalStatistics

variable {conf : Config} {cfg : StatisticsConfiguration ctx.arithmetic} {payload : List UInt8}
  {ops ops' : List (Operation ctx.arithmetic)} {w w' : OperationWindow}

/-- What the operations may change of the window all of them change, and they stay what they are. -/
theorem updateOperations_frame {changed : Prop}
    (hops : ∀ op ∈ ops, op.kind.usesCounters = true → Counting conf.opt cfg → changed)
    (h : updateOperations conf.opt cfg payload w ops = .ok (w', ops')) :
    CountersOnly changed w w' ∧ ops'.map Operation.kind = ops.map Operation.kind := by
  induction ops generalizing w ops' with
  | nil =>
    obtain ⟨rfl, rfl⟩ := Prod.mk.inj (Except.ok.inj h)
    exact ⟨CountersOnly.refl _ _, rfl⟩
  | cons op ops ih =>
    rw [List.forall_mem_cons] at hops
    simp only [updateOperations, bind_eq_ok_iff] at h
    obtain ⟨⟨w₁, op₁⟩, hop, ⟨w₂, ops₁⟩, hrest, heq⟩ := h
    obtain ⟨rfl, rfl⟩ := Prod.mk.inj (Except.ok.inj heq)
    obtain ⟨hw, hkind⟩ := Operation.updateData_frame hop
    obtain ⟨hw', hkinds⟩ := ih hops.2 hrest
    refine ⟨(hw.imp fun hc => hops.1 hc.1 hc.2).trans hw', ?_⟩
    rw [List.map_cons, List.map_cons, hkind, hkinds]

/-- What the loop does to the operation at a place: the others, before and after it, may change no
more than they may. -/
theorem updateOperations_at {changed : Prop} {i : ℕ} {op : Operation ctx.arithmetic}
    (hop : ops[i]? = some op)
    (hothers : ∀ j o, ops[j]? = some o → j ≠ i → o.kind.usesCounters = true →
      Counting conf.opt cfg → changed)
    (h : updateOperations conf.opt cfg payload w ops = .ok (w', ops')) :
    ops'.map Operation.kind = ops.map Operation.kind ∧ ∃ w₁ w₂ op₁,
      op.updateData ctx conf.opt cfg payload w₁ = .ok (w₂, op₁) ∧ ops'[i]? = some op₁ ∧
      CountersOnly changed w w₁ ∧ CountersOnly changed w₂ w' := by
  induction ops generalizing i w ops' with
  | nil => cases hop
  | cons o ops ih =>
    refine ⟨(updateOperations_frame (fun _ _ _ _ => True.intro) h).2, ?_⟩
    simp only [updateOperations, bind_eq_ok_iff] at h
    obtain ⟨⟨w₁, o₁⟩, hturn, ⟨w₂, ops₁⟩, hrest, heq⟩ := h
    obtain ⟨rfl, rfl⟩ := Prod.mk.inj (Except.ok.inj heq)
    cases i with
    | zero =>
      obtain rfl := Option.some.inj hop
      refine ⟨w, w₁, o₁, hturn, rfl, CountersOnly.refl _ _, ?_⟩
      refine (updateOperations_frame (fun o' ho' => ?_) hrest).1
      obtain ⟨j, hj⟩ := List.mem_iff_getElem?.mp ho'
      exact hothers (j + 1) o' hj (Nat.succ_ne_zero j)
    | succ i =>
      obtain ⟨-, w₃, w₄, op₁, hop₁, hat, hbefore, hafter⟩ :=
        ih hop (fun j o' hj hne => hothers (j + 1) o' hj (fun heq => hne (Nat.succ.inj heq))) hrest
      refine ⟨w₃, w₄, op₁, hop₁, hat, ?_, hafter⟩
      have hfirst := hothers 0 o rfl (Nat.succ_ne_zero i).symm
      exact ((Operation.updateData_frame hturn).1.imp fun hc => hfirst hc.1 hc.2).trans hbefore

theorem isEndOfWindow_updateData {ts ts₁ : TemporalStatistics ctx}
    (h : ts.updateData conf cfg payload = .ok ts₁) : ts₁.isEndOfWindow cfg = ts.isEndOfWindow cfg := by
  simp only [updateData, bind_eq_ok_iff] at h
  obtain ⟨w, hw, ⟨w', ops⟩, hloop, heq⟩ := h
  obtain rfl := Except.ok.inj heq
  obtain ⟨-, -, rfl⟩ := OperationWindow.updateData_eq_ok_iff.mp hw
  obtain ⟨⟨hwindow, -⟩, -⟩ := updateOperations_frame (fun _ _ _ _ => True.intro) hloop
  unfold isEndOfWindow
  rw [hwindow]
  rfl

end TemporalStatistics

structure KeptBySteps (conf : Config) (missing : Option (ctx.arithmetic.Real .double))
    (I : TemporalStatistics ctx → History → Prop) : Prop where
  made {ts : TemporalStatistics ctx} {msg : Message} {cfg : StatisticsConfiguration ctx.arithmetic} :
    ReadAs conf missing msg cfg → TemporalStatistics.make conf cfg msg = .ok ts →
      I ts { initial := msg }
  update {ts ts₁ : TemporalStatistics ctx} {h : History} {msg : Message}
      {cfg : StatisticsConfiguration ctx.arithmetic} :
    I ts h → ReadAs conf missing msg cfg → ts.updateData conf cfg msg.payload = .ok ts₁ →
      I ts₁ { h with inputs := h.inputs ++ [msg] }
  close {ts ts₁ : TemporalStatistics ctx} {h : History} {msg : Message}
      {cfg : StatisticsConfiguration ctx.arithmetic} {out : List Message} :
    I ts { h with inputs := h.inputs ++ [msg] } → ReadAs conf missing msg cfg →
      ts.emit conf cfg msg = .ok out → ts.updateWindow conf cfg msg.payload = .ok ts₁ →
        I ts₁ { h with emitted := h.emitted ++ [(h.inputs ++ [msg], out)], inputs := [] }

theorem Recorded.invariant {conf : Config} {missing : Option (ctx.arithmetic.Real .double)}
    {ts : TemporalStatistics ctx} {h : History} {I : TemporalStatistics ctx → History → Prop}
    (hts : Recorded conf missing ts h) (hkept : KeptBySteps conf missing I) : I ts h := by
  induction hts with
  | made hcfg hmake => exact hkept.made hcfg hmake
  | @message ts ts₁ h msg cfg out _ hcfg hprocess ih =>
    unfold TemporalStatistics.process at hprocess
    unfold History.message
    split_ifs at hprocess with hignored hlate
    · obtain ⟨rfl, rfl⟩ := Prod.mk.inj (Except.ok.inj hprocess)
      rw [if_pos hignored]
      exact ih
    · rw [if_neg hignored]
      obtain ⟨ts₂, hdata, hclose⟩ := bind_eq_ok_iff.mp hprocess
      have hupdated := hkept.update ih hcfg hdata
      unfold TemporalStatistics.closeWindow at hclose
      rw [TemporalStatistics.isEndOfWindow_updateData hdata] at hclose
      split_ifs at hclose ⊢ with hlast
      · simp only [bind_eq_ok_iff] at hclose
        obtain ⟨out', hemit, ts₃, hwindow, heq⟩ := hclose
        obtain ⟨rfl, rfl⟩ := Prod.mk.inj (Except.ok.inj heq)
        exact hkept.close hupdated hcfg hemit hwindow
      · obtain ⟨rfl, rfl⟩ := Prod.mk.inj (Except.ok.inj hclose)
        exact hupdated

namespace Place

variable {needed : Prop} {i : ℕ} {ts ts₁ : TemporalStatistics ctx} {op : Operation ctx.arithmetic}
  {conf : Config} {cfg : StatisticsConfiguration ctx.arithmetic} {msg : Message}

theorem made {opname : String} (hi : conf.operations[i]? = some opname)
    (halone : needed → CountsAlone conf.operations i)
    (hmake : TemporalStatistics.make conf cfg msg = .ok ts) :
    ∃ p op, msg.precision ctx.toContext = .ok p ∧
      makeOperation conf.opt cfg p msg.payload opname = .ok op ∧ Place needed i ts op ∧
      ts.window.count = 0 ∧ ts.window.counts = [] := by
  simp only [TemporalStatistics.make, makeOperations, bind_eq_ok_iff] at hmake
  obtain ⟨u, -, ops, ⟨p, hp, hmakes⟩, hts⟩ := hmake
  obtain rfl := Except.ok.inj hts
  have hall := mapM_eq_ok_iff.mp hmakes
  obtain ⟨op, hop, hturn⟩ := getElem?_of_forall₂ hall hi
  exact ⟨p, op, hp, hturn, .made (hall.imp fun _ _ => makeOperation_kind) halone hop, rfl, rfl⟩

variable (h : Place needed i ts op)

include h

theorem updateData {payload : List UInt8} (hdata : ts.updateData conf cfg payload = .ok ts₁) :
    ∃ w₁ w₂ op₁, op.updateData ctx conf.opt cfg payload w₁ = .ok (w₂, op₁) ∧
      Place needed i ts₁ op₁ ∧ w₁.count = ts.window.count + 1 ∧ ts₁.window.count = w₂.count ∧
      ((Counting conf.opt cfg → needed) →
        w₁.counts = ts.window.counts ∧ ts₁.window.counts = w₂.counts) := by
  simp only [TemporalStatistics.updateData, bind_eq_ok_iff] at hdata
  obtain ⟨w, hw, ⟨w', ops⟩, hloop, heq⟩ := hdata
  obtain rfl := Except.ok.inj heq
  obtain ⟨-, -, rfl⟩ := OperationWindow.updateData_eq_ok_iff.mp hw
  have hothers : ∀ j o, ts.statistics[j]? = some o → j ≠ i → o.kind.usesCounters = true →
      Counting conf.opt cfg → ¬ (Counting conf.opt cfg → needed) := by
    intro j o hj hne huses hcounting hneeded
    rw [h.alone (hneeded hcounting) j o.kind (by rw [List.getElem?_map, hj]; rfl) hne] at huses
    cases huses
  obtain ⟨hkinds, w₁, w₂, op₁, hupdate, hat, ⟨hw₁, hcounts₁⟩, ⟨hw₂, hcounts₂⟩⟩ :=
    TemporalStatistics.updateOperations_at h.operation hothers hloop
  refine ⟨w₁, w₂, op₁, hupdate, h.of_kinds hat hkinds, ?_, ?_, fun hneeded => ⟨?_, ?_⟩⟩
  · rw [hw₁]
  · rw [hw₂]
  · exact hcounts₁ (not_not.mpr hneeded)
  · exact hcounts₂ (not_not.mpr hneeded)

theorem updateWindow {payload : List UInt8} (hwindow : ts.updateWindow conf cfg payload = .ok ts₁) :
    ∃ op₁, op.updateWindow ctx conf.opt cfg payload = .ok op₁ ∧ Place needed i ts₁ op₁ ∧
      ts₁.window.count = 0 ∧ ts₁.window.counts = [] := by
  simp only [TemporalStatistics.updateWindow, bind_eq_ok_iff] at hwindow
  obtain ⟨ops, hresets, heq⟩ := hwindow
  obtain rfl := Except.ok.inj heq
  have hall := mapM_eq_ok_iff.mp hresets
  obtain ⟨op₁, hat, hreset⟩ := getElem?_of_forall₂ hall h.operation
  have hkinds : List.Forall₂ Eq (ops.map Operation.kind) (ts.statistics.map Operation.kind) :=
    List.forall₂_map_left_iff.mpr (List.forall₂_map_right_iff.mpr
      (hall.flip.imp fun _ _ => Operation.updateWindow_kind))
  rw [List.forall₂_eq_eq_eq] at hkinds
  exact ⟨op₁, hreset, h.of_kinds hat hkinds, rfl, rfl⟩

omit h in
theorem emitOperations_at {w : OperationWindow} {src dst : Peer}
    {ops : List (Operation ctx.arithmetic)} (hop : ops[i]? = some op) {md : BaseMetadata}
    {out : List Message}
    (hemit : TemporalStatistics.emitOperations conf cfg w src dst md ops = .ok out) :
    ∃ msg, out[i]? = some msg ∧ op.compute ctx conf.opt cfg w = .ok msg.payload := by
  induction ops generalizing i md out with
  | nil => cases hop
  | cons o ops ih =>
    simp only [TemporalStatistics.emitOperations, bind_eq_ok_iff] at hemit
    obtain ⟨md', -, payload, hcompute, out', hrest, heq⟩ := hemit
    obtain rfl := Except.ok.inj heq
    cases i with
    | zero =>
      obtain rfl := Option.some.inj hop
      exact ⟨_, rfl, hcompute⟩
    | succ i => exact ih hop hrest

theorem emit {out : List Message} (hemit : ts.emit conf cfg msg = .ok out) :
    ∃ msg, out[i]? = some msg ∧ op.compute ctx conf.opt cfg ts.window = .ok msg.payload := by
  simp only [TemporalStatistics.emit, bind_eq_ok_iff] at hemit
  obtain ⟨md, -, hemit⟩ := hemit
  exact emitOperations_at h.operation hemit

end Place

namespace OperationKind

/-- The operation of `statistics-mtg2` that combines values in the same way. -/
def combining : OperationKind → Option StatisticsMtg2.OperationKind
  | .average => some .average
  | .maximum => some .maximum
  | .minimum => some .minimum
  | _ => none

/-- How the operation combines a value with the `count`-th one. -/
def combination (A : FloatArithmetic) (p : PrecisionTag) (k : OperationKind) :
    Option (ℤ → A.Real p → A.Real p → A.Real p) := k.combining.bind (·.combination A p)

theorem of_combination {A : FloatArithmetic} {p : PrecisionTag} {k : OperationKind}
    {f : ℤ → A.Real p → A.Real p → A.Real p} (hf : k.combination A p = some f) :
    k.deaccumulated = false ∧ k.usesCounters = true := by
  cases k <;> first | (cases hf; done) | exact ⟨rfl, rfl⟩

end OperationKind

namespace Operation

theorem getElem?_updateValues {A : FloatArithmetic} {op : Operation A}
    {f : ℤ → A.Real op.precision → A.Real op.precision → A.Real op.precision}
    (hf : op.kind.combination A op.precision = some f)
    (mode : UpdateMode A) (count : ℤ) (counts : List ℤ) (val : List (A.Real op.precision)) :
    ∃ values, op.updateValues mode count counts val = { op with values } ∧
      ∀ (i : ℕ) (v x : A.Real op.precision) (c : ℤ), op.values[i]? = some v → val[i]? = some x →
        (∀ m, mode = .withMissingAndCounters m → counts[i]? = some c) →
        values[i]? = some (combined A mode f count c v x) := by
  obtain ⟨kind, p, values, initValues⟩ := op
  cases kind with
  | average =>
    obtain rfl := Option.some.inj hf
    exact ⟨_, rfl, fun i v x c => getElem?_averageValues mode count⟩
  | maximum =>
    obtain rfl := Option.some.inj hf
    exact ⟨_, rfl, fun i v x c hv hx _ => getElem?_combineValues mode count c hv hx⟩
  | minimum =>
    obtain rfl := Option.some.inj hf
    exact ⟨_, rfl, fun i v x c hv hx _ => getElem?_combineValues mode count c hv hx⟩
  | _ => cases hf

variable {opt : StatisticsOptions} {cfg : StatisticsConfiguration ctx.arithmetic}
  {op op₂ : Operation ctx.arithmetic} {w w₁ w₂ : OperationWindow} {payload : List UInt8} {n : ℕ}
  {f : ℤ → ctx.arithmetic.Real op.precision → ctx.arithmetic.Real op.precision →
    ctx.arithmetic.Real op.precision} (hf : op.kind.combination ctx.arithmetic op.precision = some f)

include hf

theorem updateCounts_eq (hop : op.values.length = n) (hw : CountersFit n w)
    (mode : UpdateMode ctx.arithmetic) (val : List (ctx.arithmetic.Real op.precision)) :
    updateCounts ctx w op mode val = .ok (w.counted n true mode val) := by
  have huses := (OperationKind.of_combination hf).2
  unfold updateCounts OperationWindow.counted
  rw [huses]
  cases mode with
  | withMissingAndCounters m =>
    simp only [OperationWindow.updateCounts]
    rw [hop, OperationWindow.initCountsLazy_eq hw]
    rfl
  | withoutMissing => rfl
  | withMissing m => rfl

theorem advanced_updateData (hA : ReadsValues ctx.arithmetic) {sz : ℕ}
    (hop : op.Fits op.precision sz) (hcount : w₁.count = w.count + 1) (hcounts : w₁.counts = w.counts)
    (hupdate : op.updateData ctx opt cfg payload w₁ = .ok (w₂, op₂))
    {v : ℕ → ctx.arithmetic.Real op.precision} {inputs : List (List UInt8)}
    (h : Advanced ctx.arithmetic op.precision (updateMode opt cfg)
      (combined ctx.arithmetic (updateMode opt cfg) f) v (sz / op.precision.size) inputs w op.values) :
    ∃ values, op₂ = { op with values } ∧ op₂.Fits op.precision sz ∧
      Advanced ctx.arithmetic op.precision (updateMode opt cfg)
        (combined ctx.arithmetic (updateMode opt cfg) f) v (sz / op.precision.size)
        (inputs ++ [payload]) w₂ values := by
  have hw₁ := CountersFit.of_eq h.counts hcounts
  have hstarted : w₁.startedCounts (sz / op.precision.size) =
      w.startedCounts (sz / op.precision.size) := by
    unfold OperationWindow.startedCounts
    rw [hcounts]
  simp only [updateData, bind_eq_ok_iff] at hupdate
  obtain ⟨u, hsize, hupdate⟩ := hupdate
  have hval : (ctx.arithmetic.elements op.precision payload).length = sz / op.precision.size := by
    unfold checkSize at hsize
    split_ifs at hsize with heq
    rw [hA, ← heq, hop.values]
  rw [updateCounts_eq hf hop.values hw₁] at hupdate
  obtain ⟨w', hw', heq⟩ := hupdate
  obtain rfl := Except.ok.inj hw'
  obtain ⟨rfl, rfl⟩ := Prod.mk.inj (Except.ok.inj heq)
  have hfits := hop.updateValues (updateMode opt cfg) (w₁.counted (sz / op.precision.size) true
    (updateMode opt cfg) (ctx.arithmetic.elements op.precision payload)).count hval
    fun m hmode _ => OperationWindow.counts_counted hw₁ hval hmode rfl
  obtain ⟨values, hvalues, hpoint⟩ := getElem?_updateValues hf (updateMode opt cfg) _ _ _
  refine ⟨values, hvalues, hfits, h.next (OperationWindow.count_counted.trans hcount)
    (OperationWindow.countersFit_counted hw₁ hval) hval fun i x c u hx hu hc => ?_⟩
  obtain ⟨hcounted, hread⟩ := OperationWindow.getElem?_counted (updateMode opt cfg) (hstarted ▸ hc) hx
  exact ⟨hpoint i u x _ hu hx hread, hcounted⟩

end Operation

/-- The operation at a place, whose values are those of the messages of its window. -/
structure Accumulated (conf : Config) (missing : Option (ctx.arithmetic.Real .double)) (i : ℕ)
    (k : OperationKind)
    (f : (p : PrecisionTag) → ℤ → ctx.arithmetic.Real p → ctx.arithmetic.Real p →
      ctx.arithmetic.Real p)
    (ts : TemporalStatistics ctx) (h : History) (op : Operation ctx.arithmetic) : Prop where
  place : Place (PointsCounted missing conf.opt.valueCountThreshold) i ts op
  kind : op.kind = k
  precision : h.initial.precision ctx.toContext = .ok op.precision
  fits : op.Fits op.precision h.initial.size
  advanced : Advanced ctx.arithmetic op.precision (.of missing conf.opt.valueCountThreshold)
    (combined ctx.arithmetic (.of missing conf.opt.valueCountThreshold) (f op.precision))
    (fun _ => k.initialValue ctx.arithmetic op.precision) (h.initial.size / op.precision.size)
    (h.inputs.map Message.payload) ts.window op.values
  emitted : ∀ window ∈ h.emitted, ∀ msg, window.2[i]? = some msg →
    (emissionOf ctx.arithmetic op.precision (h.initial.size / op.precision.size) missing
      conf.opt.valueCountThreshold window.1 msg).Computed (f op.precision)
        (k.initialValue ctx.arithmetic op.precision)

section

variable {conf : Config} {missing : Option (ctx.arithmetic.Real .double)}
  {ts ts₁ : TemporalStatistics ctx} {h : History} {i : ℕ} {opname : String} {k : OperationKind}
  {f : (p : PrecisionTag) → ℤ → ctx.arithmetic.Real p → ctx.arithmetic.Real p →
    ctx.arithmetic.Real p} (hf : ∀ p, k.combination ctx.arithmetic p = some (f p))
  {msg : Message} {cfg : StatisticsConfiguration ctx.arithmetic}

include hf

theorem accumulated_made (hi : conf.operations[i]? = some opname)
    (hk : OperationKind.ofName opname = .ok k)
    (halone : PointsCounted missing conf.opt.valueCountThreshold → CountsAlone conf.operations i)
    (hmake : TemporalStatistics.make conf cfg msg = .ok ts) :
    ∃ op, Accumulated conf missing i k f ts { initial := msg } op := by
  obtain ⟨p, op, hp, hturn, hplace, hcount, hcounts⟩ := Place.made hi halone hmake
  have hno : ¬ k.deaccumulated = true :=
    Bool.eq_false_iff.mp (OperationKind.of_combination (hf p)).1
  obtain rfl := makeOperation_eq_make hk hno hturn
  refine ⟨_, hplace, rfl, hp, Operation.fits_make _ k p _, ?_, ?_⟩
  · exact Advanced.start_replicate hcount hcounts _
  · exact fun _ h => absurd h List.not_mem_nil

variable (hA : ReadsValues ctx.arithmetic) {op : Operation ctx.arithmetic}
  (hacc : Accumulated conf missing i k f ts h op) (hcfg : cfg.missingValue = missing)

include hacc

include hA hcfg in
theorem Accumulated.update (hdata : ts.updateData conf cfg msg.payload = .ok ts₁) :
    ∃ op, Accumulated conf missing i k f ts₁ { h with inputs := h.inputs ++ [msg] } op := by
  obtain ⟨w₁, w₂, op₁, hupdate, hplace, hcount₁, hcount₂, hcounts⟩ := hacc.place.updateData hdata
  obtain ⟨hcounts₁, hcounts₂⟩ := hcounts fun hcounting => hcfg ▸ ⟨hcounting.2, hcounting.1⟩
  have hmode : updateMode conf.opt cfg = .of missing conf.opt.valueCountThreshold :=
    congrArg (UpdateMode.of · _) hcfg
  have hadvanced := hacc.advanced
  rw [← hmode] at hadvanced
  obtain ⟨values, rfl, hfits, hnext⟩ := Operation.advanced_updateData
    (hacc.kind ▸ hf op.precision) hA hacc.fits hcount₁ hcounts₁ hupdate hadvanced
  rw [hmode] at hnext
  refine ⟨_, hplace, hacc.kind, hacc.precision, hfits, ?_, hacc.emitted⟩
  rw [List.map_append]
  exact hnext.of_eq hcount₂ hcounts₂

include hcfg in
theorem Accumulated.emit {out : List Message} (hemit : ts.emit conf cfg msg = .ok out) :
    Accumulated conf missing i k f ts { h with emitted := h.emitted ++ [(h.inputs, out)] } op := by
  obtain ⟨msg', hat, hcompute⟩ := hacc.place.emit hemit
  simp only [Operation.compute, bind_eq_ok_iff] at hcompute
  obtain ⟨u, hinterval, values, hvalues, hpayload⟩ := hcompute
  -- no interval is divided by where the window is empty
  have hcount : ts.window.count ≠ 0 := fun hzero => by
    unfold Operation.checkTimeInterval at hinterval
    rw [hzero, zero_mul, zero_mul, if_pos rfl] at hinterval
    cases hinterval
  have huses : op.kind.usesCounters = true :=
    hacc.kind ▸ (OperationKind.of_combination (hf op.precision)).2
  rw [Operation.computeValues_of_usesCounters huses, hcfg] at hvalues
  refine ⟨hacc.place, hacc.kind, hacc.precision, hacc.fits, hacc.advanced, ?_⟩
  intro window hwindow msg₁ hmsg
  obtain hbefore | hlast := List.mem_append.mp hwindow
  · exact hacc.emitted window hbefore msg₁ hmsg
  · obtain rfl := List.mem_singleton.mp hlast
    obtain rfl := Option.some.inj (hat.symm.trans hmsg)
    exact Advanced.computed (e := emissionOf _ _ _ _ _ _ _) hacc.advanced hacc.fits.values hcount
      hvalues (Except.ok.inj hpayload).symm

theorem Accumulated.next (hwindow : ts.updateWindow conf cfg msg.payload = .ok ts₁) :
    ∃ op, Accumulated conf missing i k f ts₁ { h with inputs := [] } op := by
  obtain ⟨op₁, hreset, hplace, hcount, hcounts⟩ := hacc.place.updateWindow hwindow
  have hno : ¬ op.kind.deaccumulated = true := by
    rw [hacc.kind, (OperationKind.of_combination (hf op.precision)).1]
    exact Bool.false_ne_true
  obtain rfl := Except.ok.inj ((if_neg hno).symm.trans hreset)
  have hfits := hacc.fits
  refine ⟨_, hplace, hacc.kind, hacc.precision,
    ⟨rfl, (List.length_map _).trans hfits.values, hfits.initValues⟩, ?_, hacc.emitted⟩
  dsimp only
  rw [List.map_const', hfits.values, hacc.kind]
  exact Advanced.start_replicate hcount hcounts _

omit hf hacc in
include hA in
/-- In every history, what is emitted is what combining the messages of each window makes of it. -/
theorem Recorded.accumulated (hi : conf.operations[i]? = some opname)
    (hk : OperationKind.ofName opname = .ok k)
    (hf : ∀ p, k.combination ctx.arithmetic p = some (f p))
    (halone : PointsCounted missing conf.opt.valueCountThreshold → CountsAlone conf.operations i)
    (hts : Recorded conf missing ts h) : ∃ op, Accumulated conf missing i k f ts h op :=
  hts.invariant (I := fun ts h => ∃ op, Accumulated conf missing i k f ts h op)
    { made := fun _ hmake => accumulated_made hf hi hk halone hmake
      update := fun hacc hcfg hdata =>
        hacc.elim fun _ hacc => hacc.update hf hA hcfg.missing hdata
      close := fun hacc hcfg hemit hwindow =>
        hacc.elim fun _ hacc => (hacc.emit hf hcfg.missing hemit).next hf hwindow }

end
end Multio.Statistics
