import Multio.Action.StatisticsMtg2.Statistics

namespace Multio.StatisticsMtg2
open Lib Exception

variable {ctx : StatisticsContext}

theorem OperationWindow.updateData_eq_ok_iff {w w₁ : OperationWindow} {t : DateTime} :
    w.updateData ctx t = .ok w₁ ↔ w.creationPoint < t ∧ t ≤ w.endPoint ∧
      w₁ = { w with prevPoint := w.currPoint, currPoint := t, count := w.count + 1 } := by
  constructor
  · intro h
    unfold OperationWindow.updateData OperationWindow.gtLowerBound OperationWindow.leUpperBound at h
    split_ifs at h with hlower hupper
    rw [Bool.not_eq_true', decide_eq_false_iff_not, not_not] at hlower hupper
    exact ⟨hlower, hupper, (Except.ok.inj h).symm⟩
  · rintro ⟨hlower, hupper, rfl⟩
    exact OperationWindow.updateData_ok ctx hlower hupper

theorem OperationWindow.updateCounts_window {w w₁ : OperationWindow} {isMissing : List Bool}
    {size : ℕ} (h : w.updateCounts ctx isMissing size = .ok w₁) : w₁ = { w with counts := w₁.counts } := by
  simp only [updateCounts, bind_eq_ok_iff] at h
  obtain ⟨w₂, hlazy, heq⟩ := h
  have hw₂ : w₂ = { w with counts := w₂.counts } := by
    unfold initCountsLazy at hlazy
    split_ifs at hlazy
    · rw [← Except.ok.inj hlazy]
    · rw [← Except.ok.inj hlazy]
  rw [← Except.ok.inj heq, hw₂]

def SameFor (k : OperationKind) (w w' : OperationWindow) : Prop :=
  w' = { w with counts := w'.counts } ∧ (k.usesCounters = true → w'.counts = w.counts)

theorem SameFor.eq {k : OperationKind} {w w' : OperationWindow} (h : SameFor k w w')
    (hk : k.usesCounters = true) : w' = w := by
  rw [h.1, h.2 hk]

/-- The values at the points are counted, not only the messages. -/
def CountsPoints (opt : StatisticsOptions) {A : FloatArithmetic} (cfg : StatisticsConfiguration A) :
    Prop :=
  cfg.bitmapPresent = true ∧ opt.valueCountThreshold.isSome = true

namespace Operation

variable {opt : StatisticsOptions} {cfg : StatisticsConfiguration ctx.arithmetic}
  {payload : List UInt8} {w w' w₁ : OperationWindow} {op op₁ : Operation ctx.arithmetic}

theorem updateValues_kind {A : FloatArithmetic} (op : Operation A) (mode : UpdateMode A)
    (count : ℤ) (counts : List ℤ) (val : List (A.Real op.precision)) :
    (op.updateValues mode count counts val).kind = op.kind := by
  unfold updateValues
  split <;> rfl

theorem updateValues_counts {A : FloatArithmetic} (op : Operation A)
    (hk : op.kind.usesCounters = false) (mode : UpdateMode A) (count : ℤ) (counts counts' : List ℤ)
    (val : List (A.Real op.precision)) :
    op.updateValues mode count counts val = op.updateValues mode count counts' val := by
  obtain ⟨kind, precision, values, initValues, mean⟩ := op
  cases kind with
  | instant => rfl
  | difference => rfl
  | inverseDifference => rfl
  | accumulate => cases mode <;> rfl
  | average => cases hk
  | minimum => cases hk
  | maximum => cases hk
  | stddev => cases hk

theorem updateData_kind (h : op.updateData ctx opt cfg payload w = .ok (w₁, op₁)) :
    op₁.kind = op.kind := by
  simp only [updateData, bind_eq_ok_iff] at h
  obtain ⟨-, -, win, -, heq⟩ := h
  obtain ⟨-, rfl⟩ := Prod.mk.inj (Except.ok.inj heq)
  exact updateValues_kind op _ _ _ _

/-- Only the counters of a window change, and these only where points are counted. -/
theorem updateData_window (h : op.updateData ctx opt cfg payload w = .ok (w₁, op₁)) :
    w₁ = { w with counts := w₁.counts } ∧
      (op.kind.usesCounters = false ∨ ¬ CountsPoints opt cfg → w₁.counts = w.counts) := by
  simp only [updateData, bind_eq_ok_iff] at h
  obtain ⟨-, -, win, hwin, heq⟩ := h
  obtain ⟨rfl, -⟩ := Prod.mk.inj (Except.ok.inj heq)
  unfold updateCounts at hwin
  split at hwin
  case h_1 m hk hmode =>
    have hcounts : CountsPoints opt cfg := UpdateMode.of_eq_counters hmode
    refine ⟨OperationWindow.updateCounts_window hwin, ?_⟩
    rintro (hno | hno)
    · rw [hk] at hno
      cases hno
    · exact absurd hcounts hno
  case h_2 =>
    obtain rfl := Except.ok.inj hwin
    exact ⟨rfl, fun _ => rfl⟩

theorem updateData_same (h : op.updateData ctx opt cfg payload w = .ok (w₁, op₁))
    (hsame : SameFor op.kind w w') :
    ∃ w₁', op.updateData ctx opt cfg payload w' = .ok (w₁', op₁) ∧ SameFor op₁.kind w₁ w₁' := by
  rw [updateData_kind h]
  cases hk : op.kind.usesCounters with
  | true =>
    rw [hsame.eq hk]
    exact ⟨w₁, h, rfl, fun _ => rfl⟩
  | false =>
    simp only [updateData, bind_eq_ok_iff] at h ⊢
    obtain ⟨u, hsize, win, hwin, heq⟩ := h
    have hunchanged : ∀ v : OperationWindow, updateCounts ctx v op (UpdateMode.make opt cfg)
        (ctx.arithmetic.elements op.precision payload) = .ok v := by
      intro v
      unfold updateCounts
      rw [hk]
    rw [hunchanged] at hwin
    obtain rfl := Except.ok.inj hwin
    obtain ⟨rfl, rfl⟩ := Prod.mk.inj (Except.ok.inj heq)
    refine ⟨w', ⟨u, hsize, w', hunchanged w', ?_⟩, hsame.1, fun hno => ?_⟩
    · have hcount : w'.count = w.count := by rw [hsame.1]
      rw [hcount, updateValues_counts op hk]
    · rw [hk] at hno
      cases hno

theorem updateWindow_kind {sz : ℕ} (h : op.updateWindow ctx cfg sz w = .ok op₁) :
    op₁.kind = op.kind := by
  unfold updateWindow at h
  split_ifs at h with hk
  · simp only [bind_eq_ok_iff] at h
    obtain ⟨-, -, reset, -, h⟩ := h
    split_ifs at h
    · rw [← Except.ok.inj h]
    · rw [← Except.ok.inj h]
  · rw [← Except.ok.inj h]

theorem compute_kind {bytes : List UInt8} (h : op.compute ctx opt cfg w = .ok (op₁, bytes)) :
    op₁.kind = op.kind := by
  simp only [compute, bind_eq_ok_iff] at h
  obtain ⟨values, -, heq⟩ := h
  obtain ⟨rfl, -⟩ := Prod.mk.inj (Except.ok.inj heq)
  split_ifs <;> rfl

theorem computeValues_same (hsame : SameFor op.kind w w') :
    op.computeValues ctx opt cfg w' = op.computeValues ctx opt cfg w := by
  cases hk : op.kind.usesCounters with
  | true => rw [hsame.eq hk]
  | false =>
    obtain ⟨kind, precision, values, initValues, mean⟩ := op
    unfold computeValues
    cases kind with
    | instant => rfl
    | accumulate => rfl
    | difference => cases cfg.missingValue <;> rfl
    | inverseDifference => cases cfg.missingValue <;> rfl
    | average => cases hk
    | minimum => cases hk
    | maximum => cases hk
    | stddev => cases hk

theorem compute_same (hsame : SameFor op.kind w w') :
    op.compute ctx opt cfg w' = op.compute ctx opt cfg w := by
  unfold compute
  rw [computeValues_same hsame]

end Operation

namespace TemporalStatistics

section

variable {f : OperationWindow → Operation ctx.arithmetic →
    Except Exception (OperationWindow × Operation ctx.arithmetic)}
  {w w' : OperationWindow} {op : Operation ctx.arithmetic}
  {pre ops ops' : List (Operation ctx.arithmetic)}

theorem forOperations_cons_iff : (forOperations f w (op :: ops)).Returns (w', ops') ↔
    ∃ w₁ op₁ ops₁, f w op = .ok (w₁, op₁) ∧ (forOperations f w₁ ops).Returns (w', ops₁) ∧
      ops' = op₁ :: ops₁ := by
  rw [forOperations, Outcome.needing_returns_iff]
  constructor
  · rintro ⟨⟨w₁, op₁⟩, hf, h⟩
    obtain ⟨⟨w₂, ops₁⟩, hrest, heq⟩ := Outcome.map_returns_iff.mp h
    obtain ⟨rfl, rfl⟩ := Prod.mk.inj heq
    exact ⟨w₁, op₁, ops₁, hf, hrest, rfl⟩
  · rintro ⟨w₁, op₁, ops₁, hf, h, rfl⟩
    exact ⟨(w₁, op₁), hf, Outcome.map_returns_iff.mpr ⟨_, h, rfl⟩⟩

theorem forOperations_append_iff : (forOperations f w (pre ++ ops)).Returns (w', ops') ↔
    ∃ w₁ pre₁ ops₁, (forOperations f w pre).Returns (w₁, pre₁) ∧
      (forOperations f w₁ ops).Returns (w', ops₁) ∧ ops' = pre₁ ++ ops₁ := by
  induction pre generalizing w ops' with
  | nil =>
    constructor
    · intro h
      exact ⟨w, [], ops', rfl, h, rfl⟩
    · rintro ⟨w₁, pre₁, ops₁, hpre, h, rfl⟩
      obtain ⟨rfl, rfl⟩ := Prod.mk.inj (Outcome.returns_mk.mp hpre)
      exact h
  | cons op pre ih =>
    rw [List.cons_append, forOperations_cons_iff]
    constructor
    · rintro ⟨w₁, op₁, rest, hf, h, rfl⟩
      obtain ⟨w₂, pre₁, ops₁, hpre, hrest, rfl⟩ := ih.mp h
      exact ⟨w₂, op₁ :: pre₁, ops₁, forOperations_cons_iff.mpr ⟨w₁, op₁, pre₁, hf, hpre, rfl⟩,
        hrest, rfl⟩
    · rintro ⟨w₂, pre', ops₁, hpre, hrest, rfl⟩
      obtain ⟨w₁, op₁, pre₁, hf, hpre', rfl⟩ := forOperations_cons_iff.mp hpre
      exact ⟨w₁, op₁, pre₁ ++ ops₁, hf, ih.mpr ⟨w₂, pre₁, ops₁, hpre', hrest, rfl⟩, rfl⟩

/-- What every operation does to the window all of them do, and the operations stay what they are. -/
theorem forOperations_frame {R : OperationWindow → OperationWindow → Prop} (hrefl : ∀ w, R w w)
    (htrans : ∀ w₁ w₂ w₃, R w₁ w₂ → R w₂ w₃ → R w₁ w₃)
    (hf : ∀ op ∈ ops, ∀ w w₁ op₁, f w op = .ok (w₁, op₁) → R w w₁ ∧ op₁.kind = op.kind)
    (h : (forOperations f w ops).Returns (w', ops')) :
    R w w' ∧ ops'.map Operation.kind = ops.map Operation.kind := by
  induction ops generalizing w ops' with
  | nil =>
    obtain ⟨rfl, rfl⟩ := Prod.mk.inj (Outcome.returns_mk.mp h)
    exact ⟨hrefl w, rfl⟩
  | cons op ops ih =>
    rw [List.forall_mem_cons] at hf
    obtain ⟨w₁, op₁, ops₁, hop, hrest, rfl⟩ := forOperations_cons_iff.mp h
    obtain ⟨hR, hkind⟩ := hf.1 w w₁ op₁ hop
    obtain ⟨hR', hkinds⟩ := ih hf.2 hrest
    refine ⟨htrans _ _ _ hR hR', ?_⟩
    rw [List.map_cons, List.map_cons, hkind, hkinds]

end

/-- The counters are all that changes, and only if they are asked for. -/
def CountersOnly (changed : Prop) (w w₁ : OperationWindow) : Prop :=
  w₁ = { w with counts := w₁.counts } ∧ (¬ changed → w₁.counts = w.counts)

theorem CountersOnly.refl (changed : Prop) (w : OperationWindow) : CountersOnly changed w w :=
  ⟨rfl, fun _ => rfl⟩

theorem CountersOnly.imp {changed changed' : Prop} {w w₁ : OperationWindow}
    (h : CountersOnly changed w w₁) (himp : changed → changed') : CountersOnly changed' w w₁ :=
  ⟨h.1, fun hno => h.2 (mt himp hno)⟩

theorem CountersOnly.trans {changed : Prop} {w₁ w₂ w₃ : OperationWindow}
    (h : CountersOnly changed w₁ w₂) (h' : CountersOnly changed w₂ w₃) :
    CountersOnly changed w₁ w₃ := by
  refine ⟨?_, fun hno => (h'.2 hno).trans (h.2 hno)⟩
  rw [h'.1, h.1]

theorem updateOperation_frame {opt : StatisticsOptions} {cfg : StatisticsConfiguration ctx.arithmetic}
    {msg : Message} {changed : Prop} {op : Operation ctx.arithmetic}
    (hop : op.kind.usesCounters = true → CountsPoints opt cfg → changed) {w w₁ : OperationWindow}
    {op₁ : Operation ctx.arithmetic} (h : updateOperation opt cfg msg w op = .ok (w₁, op₁)) :
    CountersOnly changed w w₁ ∧ op₁.kind = op.kind := by
  simp only [updateOperation, bind_eq_ok_iff] at h
  obtain ⟨truncation, -, h⟩ := h
  split_ifs at h
  obtain ⟨hw, hcounts⟩ := Operation.updateData_window h
  refine ⟨⟨hw, fun hno => hcounts ?_⟩, Operation.updateData_kind h⟩
  by_cases hk : op.kind.usesCounters = true
  · exact Or.inr fun hpoints => hno (hop hk hpoints)
  · exact Or.inl (Bool.eq_false_of_not_eq_true hk)

theorem resetOperation_frame {cfg : StatisticsConfiguration ctx.arithmetic} {sz : ℕ}
    {w w₁ : OperationWindow} {op op₁ : Operation ctx.arithmetic}
    (h : resetOperation cfg sz w op = .ok (w₁, op₁)) : w = w₁ ∧ op₁.kind = op.kind := by
  simp only [resetOperation, bind_eq_ok_iff] at h
  obtain ⟨op', hop, heq⟩ := h
  obtain ⟨rfl, rfl⟩ := Prod.mk.inj (Except.ok.inj heq)
  exact ⟨rfl, Operation.updateWindow_kind hop⟩

theorem emitOperations_cons_iff {conf : Config} {ts : TemporalStatistics ctx} {src dst : Peer}
    {op : Operation ctx.arithmetic} {ops ops' : List (Operation ctx.arithmetic)} {out : List Message} :
    (ts.emitOperations conf src dst (op :: ops)).Returns (ops', out) ↔
      ∃ op₁ msg ops₁ out₁, ts.emitOperation conf src dst op = .ok (op₁, msg) ∧
        (ts.emitOperations conf src dst ops).Returns (ops₁, out₁) ∧ ops' = op₁ :: ops₁ ∧
        out = msg :: out₁ := by
  rw [emitOperations, Outcome.needing_returns_iff]
  constructor
  · rintro ⟨⟨op₁, msg⟩, hop, h⟩
    obtain ⟨⟨ops₁, out₁⟩, hrest, heq⟩ := Outcome.map_returns_iff.mp h
    obtain ⟨rfl, rfl⟩ := Prod.mk.inj heq
    exact ⟨op₁, msg, ops₁, out₁, hop, hrest, rfl, rfl⟩
  · rintro ⟨op₁, msg, ops₁, out₁, hop, hrest, rfl, rfl⟩
    exact ⟨(op₁, msg), hop, Outcome.map_returns_iff.mpr ⟨_, hrest, rfl⟩⟩

theorem emitOperation_kind {conf : Config} {ts : TemporalStatistics ctx} {src dst : Peer}
    {op op₁ : Operation ctx.arithmetic} {msg : Message}
    (h : ts.emitOperation conf src dst op = .ok (op₁, msg)) : op₁.kind = op.kind := by
  simp only [emitOperation, bind_eq_ok_iff] at h
  obtain ⟨cfg, -, md, -, ⟨op', payload⟩, hcompute, heq⟩ := h
  obtain ⟨rfl, -⟩ := Prod.mk.inj (Except.ok.inj heq)
  exact Operation.compute_kind hcompute

/-- One message for each operation, which the operation makes on its own. -/
theorem emitOperations_at {conf : Config} {ts : TemporalStatistics ctx} {src dst : Peer}
    {pre post ops' : List (Operation ctx.arithmetic)} {op : Operation ctx.arithmetic}
    {out : List Message}
    (h : (ts.emitOperations conf src dst (pre ++ op :: post)).Returns (ops', out)) :
    out.length = (pre ++ op :: post).length ∧
      ops'.map Operation.kind = (pre ++ op :: post).map Operation.kind ∧
      ∃ pre₁ op₁ post₁ msg, ops' = pre₁ ++ op₁ :: post₁ ∧ pre₁.length = pre.length ∧
        ts.emitOperation conf src dst op = .ok (op₁, msg) ∧ out[pre.length]? = some msg := by
  -- emitting changes neither how many operations there are nor their kinds
  have hframe : ∀ {ops ops' : List (Operation ctx.arithmetic)} {out : List Message},
      (ts.emitOperations conf src dst ops).Returns (ops', out) →
      out.length = ops.length ∧ ops'.map Operation.kind = ops.map Operation.kind := by
    intro ops
    induction ops with
    | nil =>
      intro ops' out h
      obtain ⟨rfl, rfl⟩ := Prod.mk.inj (Outcome.returns_mk.mp h)
      exact ⟨rfl, rfl⟩
    | cons op ops ih =>
      intro ops' out h
      obtain ⟨op₁, msg, ops₁, out₁, hop, hrest, rfl, rfl⟩ := emitOperations_cons_iff.mp h
      obtain ⟨hlen, hkinds⟩ := ih hrest
      rw [List.length_cons, List.length_cons, List.map_cons, List.map_cons, hlen, hkinds,
        emitOperation_kind hop]
      exact ⟨rfl, rfl⟩
  refine ⟨(hframe h).1, (hframe h).2, ?_⟩
  induction pre generalizing ops' out with
  | nil =>
    obtain ⟨op₁, msg, ops₁, out₁, hop, -, rfl, rfl⟩ := emitOperations_cons_iff.mp h
    exact ⟨[], op₁, ops₁, msg, rfl, rfl, hop, rfl⟩
  | cons o pre ih =>
    obtain ⟨o₁, msg, ops₁, out₁, -, hrest, rfl, rfl⟩ := emitOperations_cons_iff.mp h
    obtain ⟨pre₁, op₁, post₁, msg', rfl, hlen, hop, hat⟩ := ih hrest
    refine ⟨o₁ :: pre₁, op₁, post₁, msg', rfl, ?_, hop, ?_⟩
    · rw [List.length_cons, List.length_cons, hlen]
    · rw [List.length_cons, List.getElem?_cons_succ, hat]

theorem forOperations_singleton {f : OperationWindow → Operation ctx.arithmetic →
      Except Exception (OperationWindow × Operation ctx.arithmetic)} {w w' : OperationWindow}
    {op op' : Operation ctx.arithmetic} (h : f w op = .ok (w', op')) :
    (forOperations f w [op]).Returns (w', [op']) :=
  forOperations_cons_iff.mpr ⟨w', op', [], h, rfl, rfl⟩

end TemporalStatistics

/-- The statistics of a field with all operations and with the `i`-th of them alone. -/
structure Restricted (kinds : List OperationKind) (i : ℕ) (ts ts' : TemporalStatistics ctx) :
    Prop where
  periodUpdater : ts'.periodUpdater = ts.periodUpdater
  metadata : ts'.metadata = ts.metadata
  kinds : ts.statistics.map Operation.kind = kinds
  operation : ∃ pre op post, ts.statistics = pre ++ op :: post ∧ pre.length = i ∧
    ts'.statistics = [op] ∧ SameFor op.kind ts.window ts'.window

/-- Messages in blocks, one for each of `n` operations, and the `i`-th of each block. -/
def Picks (n i : ℕ) (out out' : List Message) : Prop :=
  ∃ blocks : List (List Message), (∀ b ∈ blocks, b.length = n) ∧ out = blocks.flatten ∧
    out' = blocks.filterMap fun b => b[i]?

namespace Picks

variable {n i : ℕ} {out out' out₁ out₁' : List Message}

theorem nil : Picks n i [] [] :=
  ⟨[], fun _ hb => absurd hb List.not_mem_nil, rfl, rfl⟩

theorem block (hlen : out.length = n) {msg : Message} (hat : out[i]? = some msg) :
    Picks n i out [msg] := by
  refine ⟨[out], ?_, ?_, ?_⟩
  · intro b hb
    rw [List.mem_singleton.mp hb]
    exact hlen
  · rw [List.flatten_singleton]
  · rw [List.filterMap_cons, hat]
    rfl

theorem append (h : Picks n i out out') (h₁ : Picks n i out₁ out₁') :
    Picks n i (out ++ out₁) (out' ++ out₁') := by
  obtain ⟨blocks, hlen, rfl, rfl⟩ := h
  obtain ⟨blocks₁, hlen₁, rfl, rfl⟩ := h₁
  refine ⟨blocks ++ blocks₁, ?_, List.flatten_append.symm, List.filterMap_append.symm⟩
  exact List.forall_mem_append.mpr ⟨hlen, hlen₁⟩

end Picks

/-- An operation that advances the counters is the only one where points are counted. -/
def Separate (opt : StatisticsOptions) (kinds : List OperationKind)
    (cfg : StatisticsConfiguration ctx.arithmetic) : Prop :=
  CountsPoints opt cfg → kinds.countP OperationKind.usesCounters ≤ 1

namespace SameFor

variable {k : OperationKind} {w w₁ w' : OperationWindow}

theorem of_countersOnly (h : SameFor k w w')
    (hw : TemporalStatistics.CountersOnly (¬ k.usesCounters = true) w w₁) : SameFor k w₁ w' := by
  refine ⟨?_, fun hk => ?_⟩
  · rw [hw.1]
    exact h.1
  · rw [hw.2 (not_not.mpr hk), h.2 hk]

theorem updateData (h : SameFor k w w') {t : DateTime} (hw : w.updateData ctx t = .ok w₁) :
    ∃ w₁', w'.updateData ctx t = .ok w₁' ∧ SameFor k w₁ w₁' := by
  obtain ⟨hlower, hupper, rfl⟩ := OperationWindow.updateData_eq_ok_iff.mp hw
  refine ⟨{ w' with prevPoint := w'.currPoint, currPoint := t, count := w'.count + 1 }, ?_, ?_, h.2⟩
  · rw [h.1]
    exact OperationWindow.updateData_eq_ok_iff.mpr ⟨hlower, hupper, rfl⟩
  · rw [h.1]

theorem updateWindow (h : SameFor k w w') (startPoint endPoint : DateTime) :
    w'.updateWindow startPoint endPoint = w.updateWindow startPoint endPoint := by
  rw [h.1]
  rfl

end SameFor

/-- Beside an operation that advances the counters there is no other one. -/
theorem unused_of_countP_le {kinds pre post : List OperationKind} {k : OperationKind}
    (hcount : kinds.countP OperationKind.usesCounters ≤ 1) (hkinds : pre ++ k :: post = kinds)
    {k' : OperationKind} (hk' : k' ∈ pre ∨ k' ∈ post) (huses : k'.usesCounters = true) :
    ¬ k.usesCounters = true := by
  intro hk
  rw [← hkinds, List.countP_append, List.countP_cons, if_pos hk] at hcount
  rcases hk' with hmem | hmem
  · have hpos := List.countP_pos_iff.mpr ⟨k', hmem, huses⟩
    omega
  · have hpos := List.countP_pos_iff.mpr ⟨k', hmem, huses⟩
    omega

namespace Restricted

open TemporalStatistics

variable {kinds : List OperationKind} {i : ℕ} {ts ts' ts₁ : TemporalStatistics ctx}
  {conf : Config} {cfg : StatisticsConfiguration ctx.arithmetic} {msg : Message}

theorem updateData (h : Restricted kinds i ts ts') (hsep : Separate conf.opt kinds cfg)
    (hret : (ts.updateData conf cfg msg).Returns ts₁) :
    ∃ ts₁', (ts'.updateData conf cfg msg).Returns ts₁' ∧ Restricted kinds i ts₁ ts₁' := by
  obtain ⟨w, hw, hret⟩ := Outcome.needing_returns_iff.mp hret
  obtain ⟨⟨w₃, ops⟩, hloop, rfl⟩ := Outcome.map_returns_iff.mp hret
  obtain ⟨pre, op, post, hops, hlen, hone, hsame⟩ := h.operation
  obtain ⟨w', hw', hsame⟩ := hsame.updateData hw
  have hkinds := h.kinds
  rw [hops, List.map_append, List.map_cons] at hkinds
  rw [hops] at hloop
  obtain ⟨w₁, pre₁, rest, hpre, hrest, rfl⟩ := forOperations_append_iff.mp hloop
  obtain ⟨w₂, op₁, post₁, hop, hpost, rfl⟩ := forOperations_cons_iff.mp hrest
  -- the other operations only change counters that this one does not read
  have hframe : ∀ {o : Operation ctx.arithmetic}, o ∈ pre ∨ o ∈ post →
      o.kind.usesCounters = true → CountsPoints conf.opt cfg → ¬ op.kind.usesCounters = true := by
    intro o ho huses hpoints
    refine unused_of_countP_le (hsep hpoints) hkinds ?_ huses
    exact ho.imp List.mem_map_of_mem List.mem_map_of_mem
  obtain ⟨hw₁, hkinds₁⟩ := forOperations_frame (CountersOnly.refl _)
    (fun _ _ _ => CountersOnly.trans)
    (fun o ho _ _ _ => updateOperation_frame (hframe (Or.inl ho))) hpre
  obtain ⟨hw₃, hkinds₃⟩ := forOperations_frame (CountersOnly.refl _)
    (fun _ _ _ => CountersOnly.trans)
    (fun o ho _ _ _ => updateOperation_frame (hframe (Or.inr ho))) hpost
  have hop' := hop
  simp only [updateOperation, bind_eq_ok_iff] at hop'
  obtain ⟨truncation, htruncation, hop'⟩ := hop'
  split_ifs at hop' with hsh
  have hkind := Operation.updateData_kind hop'
  obtain ⟨w₂', hop'', hsame₂⟩ := Operation.updateData_same hop' (hsame.of_countersOnly hw₁)
  have hturn : updateOperation conf.opt cfg msg w' op = .ok (w₂', op₁) := by
    rw [updateOperation, htruncation, ok_bind, if_neg hsh, hop'']
  refine ⟨{ ts' with window := w₂', statistics := [op₁] }, ?_, h.periodUpdater, h.metadata, ?_, ?_⟩
  · refine Outcome.needing_returns_iff.mpr ⟨w', hw', Outcome.map_returns_iff.mpr ⟨(w₂', [op₁]), ?_, rfl⟩⟩
    rw [hone]
    exact forOperations_singleton hturn
  · rw [← hkinds, List.map_append, List.map_cons, hkinds₁, hkinds₃, hkind]
  · refine ⟨pre₁, op₁, post₁, rfl, ?_, rfl, ?_⟩
    · have hlen₁ := congrArg List.length hkinds₁
      rw [List.length_map, List.length_map] at hlen₁
      rw [hlen₁, hlen]
    · rw [← hkind] at hw₃
      exact hsame₂.of_countersOnly hw₃

theorem updateWindow (h : Restricted kinds i ts ts') (hret : (ts.updateWindow cfg msg).Returns ts₁) :
    ∃ ts₁', (ts'.updateWindow cfg msg).Returns ts₁' ∧ Restricted kinds i ts₁ ts₁' := by
  unfold TemporalStatistics.updateWindow at hret
  obtain ⟨⟨w₃, ops⟩, hloop, rfl⟩ := Outcome.map_returns_iff.mp hret
  obtain ⟨pre, op, post, hops, hlen, hone, hsame⟩ := h.operation
  have hkinds := h.kinds
  rw [hops, List.map_append, List.map_cons] at hkinds
  rw [hops] at hloop
  obtain ⟨w₁, pre₁, rest, hpre, hrest, rfl⟩ := forOperations_append_iff.mp hloop
  obtain ⟨w₂, op₁, post₁, hop, hpost, rfl⟩ := forOperations_cons_iff.mp hrest
  obtain ⟨hw₁, hkinds₁⟩ := forOperations_frame (R := Eq) (fun _ => rfl) (fun _ _ _ => Eq.trans)
    (fun _ _ _ _ _ => resetOperation_frame) hpre
  obtain ⟨hw₃, hkinds₃⟩ := forOperations_frame (R := Eq) (fun _ => rfl) (fun _ _ _ => Eq.trans)
    (fun _ _ _ _ _ => resetOperation_frame) hpost
  obtain ⟨hw₂, hkind⟩ := resetOperation_frame hop
  obtain rfl := hw₂
  obtain rfl := hw₃
  have hend : ts'.window.endPoint = ts.window.endPoint := by rw [hsame.1]
  refine ⟨{ ts' with window := w₁, statistics := [op₁] }, ?_, h.periodUpdater, h.metadata, ?_, ?_⟩
  · unfold TemporalStatistics.updateWindow
    refine Outcome.map_returns_iff.mpr ⟨(w₁, [op₁]), ?_, rfl⟩
    rw [hone, hend, hsame.updateWindow, h.periodUpdater, hw₁]
    exact forOperations_singleton hop
  · rw [← hkinds, List.map_append, List.map_cons, hkinds₁, hkinds₃, hkind]
  · refine ⟨pre₁, op₁, post₁, rfl, ?_, rfl, rfl, fun _ => rfl⟩
    have hlen₁ := congrArg List.length hkinds₁
    rw [List.length_map, List.length_map] at hlen₁
    rw [hlen₁, hlen]

theorem emitOperation_eq (h : Restricted kinds i ts ts') {op : Operation ctx.arithmetic}
    (hsame : SameFor op.kind ts.window ts'.window) (src dst : Peer) :
    ts'.emitOperation conf src dst op = ts.emitOperation conf src dst op := by
  have hmetadata : ∀ md, outputMetadata conf ctx ts'.window op.kind md =
      outputMetadata conf ctx ts.window op.kind md := by
    intro md
    rw [hsame.1]
    rfl
  unfold TemporalStatistics.emitOperation
  simp only [h.metadata, hmetadata, Operation.compute_same hsame]

theorem emitStatistics (h : Restricted kinds i ts ts') {src dst : Peer} {out : List Message}
    (hret : (ts.emitStatistics conf src dst).Returns (ts₁, out)) :
    ∃ ts₁' out', (ts'.emitStatistics conf src dst).Returns (ts₁', out') ∧
      Restricted kinds i ts₁ ts₁' ∧ Picks kinds.length i out out' := by
  obtain ⟨pre, op, post, hops, hlen, hone, hsame⟩ := h.operation
  have hcount : ts'.window.count = ts.window.count := by rw [hsame.1]
  unfold TemporalStatistics.emitStatistics at hret ⊢
  rw [hcount]
  split_ifs at hret ⊢ with hzero
  · obtain ⟨rfl, rfl⟩ := Prod.mk.inj (Outcome.returns_mk.mp hret)
    exact ⟨ts', [], rfl, h, Picks.nil⟩
  · obtain ⟨⟨ops, out₁⟩, hloop, heq⟩ := Outcome.map_returns_iff.mp hret
    obtain ⟨rfl, rfl⟩ := Prod.mk.inj heq
    rw [hops] at hloop
    obtain ⟨hlength, hkinds, pre₁, op₁, post₁, msg, rfl, hlen₁, hop, hat⟩ := emitOperations_at hloop
    rw [← hops, ← List.length_map Operation.kind, h.kinds] at hlength
    rw [hlen] at hat
    rw [← h.emitOperation_eq hsame] at hop
    refine ⟨{ ts' with statistics := [op₁] }, [msg],
      Outcome.map_returns_iff.mpr ⟨([op₁], [msg]), ?_, rfl⟩, ⟨h.periodUpdater, h.metadata, ?_, ?_⟩,
      Picks.block hlength hat⟩
    · rw [hone]
      exact emitOperations_cons_iff.mpr ⟨op₁, msg, [], [], hop, rfl, rfl, rfl⟩
    · rw [hkinds, ← hops, h.kinds]
    · rw [← emitOperation_kind hop] at hsame
      exact ⟨pre₁, op₁, post₁, rfl, hlen₁.trans hlen, rfl, hsame⟩

theorem window_eq (h : Restricted kinds i ts ts') :
    ts'.window = { ts.window with counts := ts'.window.counts } := by
  obtain ⟨pre, op, post, -, -, -, hsame⟩ := h.operation
  exact hsame.1

theorem closeWindow (h : Restricted kinds i ts ts') {out : List Message}
    (hret : (ts.closeWindow conf cfg msg).Returns (ts₁, out)) :
    ∃ ts₁' out', (ts'.closeWindow conf cfg msg).Returns (ts₁', out') ∧
      Restricted kinds i ts₁ ts₁' ∧ Picks kinds.length i out out' := by
  obtain ⟨⟨ts₂, out₂⟩, hemit, hret⟩ := Outcome.andThen_returns_iff.mp hret
  obtain ⟨ts₃, hwindow, heq⟩ := Outcome.map_returns_iff.mp hret
  obtain ⟨rfl, rfl⟩ := Prod.mk.inj heq
  obtain ⟨ts₂', out', hemit', h₂, hpicks⟩ := h.emitStatistics hemit
  obtain ⟨ts₁', hwindow', h₁⟩ := h₂.updateWindow hwindow
  exact ⟨ts₁', out', Outcome.andThen_returns_iff.mpr ⟨(ts₂', out'), hemit',
    Outcome.map_returns_iff.mpr ⟨ts₁', hwindow', rfl⟩⟩, h₁, hpicks⟩

theorem process (h : Restricted kinds i ts ts') (hsep : Separate conf.opt kinds cfg)
    {out : List Message} (hret : (ts.process conf cfg msg).Returns (ts₁, out)) :
    ∃ ts₁' out', (ts'.process conf cfg msg).Returns (ts₁', out') ∧
      Restricted kinds i ts₁ ts₁' ∧ Picks kinds.length i out out' := by
  have hcurr : ts'.window.currPoint = ts.window.currPoint := by rw [h.window_eq]
  have houtside : ts'.isOutsideWindow cfg = ts.isOutsideWindow cfg := by
    unfold isOutsideWindow
    rw [h.window_eq]
    rfl
  unfold TemporalStatistics.process at hret ⊢
  rw [hcurr, houtside]
  split_ifs at hret ⊢ with hinitial hlate
  · obtain ⟨rfl, rfl⟩ := Prod.mk.inj (Outcome.returns_mk.mp hret)
    exact ⟨ts', [], rfl, h, Picks.nil⟩
  · exact absurd hret Outcome.not_returns_mk_some
  · obtain ⟨⟨ts₂, out₂⟩, hclose, hret⟩ := Outcome.andThen_returns_iff.mp hret
    obtain ⟨ts₃, hdata, heq⟩ := Outcome.map_returns_iff.mp hret
    obtain ⟨rfl, rfl⟩ := Prod.mk.inj heq
    obtain ⟨ts₂', out', hclose', h₂, hpicks⟩ := h.closeWindow hclose
    obtain ⟨ts₁', hdata', h₁⟩ := h₂.updateData hsep hdata
    exact ⟨ts₁', out', Outcome.andThen_returns_iff.mpr ⟨(ts₂', out'), hclose',
      Outcome.map_returns_iff.mpr ⟨ts₁', hdata', rfl⟩⟩, h₁, hpicks⟩
  · obtain ⟨⟨ts₂, out₂⟩, hclose, hret⟩ := Outcome.andThen_returns_iff.mp hret
    obtain ⟨ts₃, hdata, heq⟩ := Outcome.map_returns_iff.mp hret
    obtain ⟨rfl, rfl⟩ := Prod.mk.inj heq
    obtain ⟨rfl, rfl⟩ := Prod.mk.inj (Outcome.returns_mk.mp hclose)
    obtain ⟨ts₁', hdata', h₁⟩ := h.updateData hsep hdata
    exact ⟨ts₁', [], Outcome.andThen_returns_iff.mpr ⟨(ts', []), rfl,
      Outcome.map_returns_iff.mpr ⟨ts₁', hdata', rfl⟩⟩, h₁, Picks.nil⟩

end Restricted
end Multio.StatisticsMtg2
