import Multio.Action.Statistics.OperationSizes
import Multio.Action.StatisticsMtg2.FieldSteps

namespace Multio.StatisticsMtg2
open Lib Exception
open Statistics.Operation (CountersFit)

def ReadsValues (A : FloatArithmetic) : Prop :=
  ∀ (p : PrecisionTag) (bytes : List UInt8), (A.elements p bytes).length = bytes.length / p.size

namespace Operation

/-- The operation keeps `n` values of a precision. -/
structure Fits {A : FloatArithmetic} (p : PrecisionTag) (n : ℕ) (op : Operation A) : Prop where
  precision : op.precision = p
  values : op.values.length = n
  initValues : op.initValues.length = if op.kind.deaccumulated then n else 0
  mean : op.mean.length = if op.kind = .stddev then n else 0

variable {A : FloatArithmetic} {p : PrecisionTag} {n sz : ℕ} {op : Operation A}

theorem fits_make (A : FloatArithmetic) (kind : OperationKind) (p : PrecisionTag) (sz : ℕ) :
    (make A kind p sz).Fits p (sz / p.size) where
  precision := rfl
  values := List.length_replicate
  initValues := length_ite_replicate _ _ _
  mean := length_ite_replicate _ _ _

theorem Fits.checkSize_eq_ok_iff (h : op.Fits p n) : op.checkSize sz = .ok () ↔ sz / p.size = n := by
  unfold checkSize
  rw [h.values, h.precision]
  constructor
  · intro hok
    split_ifs at hok with hsize
    exact hsize.symm
  · exact fun hsize => if_pos hsize.symm

theorem Fits.updateValues (h : op.Fits p n) (mode : UpdateMode A) (count : ℤ) {counts : List ℤ}
    {val : List (A.Real op.precision)} (hval : val.length = n)
    (hcounts : ∀ m, mode = .withMissingAndCounters m → op.kind.usesCounters = true →
      counts.length = n) :
    (op.updateValues mode count counts val).Fits p n := by
  obtain ⟨kind, precision, values, initValues, mean⟩ := op
  obtain ⟨hp, hv, hi, hm⟩ := h
  cases kind with
  | instant => exact ⟨hp, hval, hi, hm⟩
  | difference => exact ⟨hp, hval, hi, hm⟩
  | inverseDifference => exact ⟨hp, hval, hi, hm⟩
  | accumulate => exact ⟨hp, length_accumulateValues hv hval, hi, hm⟩
  | minimum => exact ⟨hp, length_combineValues hv hval, hi, hm⟩
  | maximum => exact ⟨hp, length_combineValues hv hval, hi, hm⟩
  | average =>
    exact ⟨hp, length_averageValues hv hval fun m hmode => hcounts m hmode rfl, hi, hm⟩
  | stddev =>
    rw [if_pos rfl] at hm
    have hnew (f : A.Real precision → A.Real precision → A.Real precision →
        A.Real precision × A.Real precision) : (List.zipWith3 f mean values val).length = n := by
      rw [length_zipWith3, hm, hv, hval, min_self, min_self]
    cases mode with
    | withoutMissing =>
      exact ⟨hp, (List.length_map _).trans (hnew _), hi, (List.length_map _).trans (hnew _)⟩
    | withMissing m =>
      exact ⟨hp, (List.length_map _).trans (hnew _), hi, (List.length_map _).trans (hnew _)⟩
    | withMissingAndCounters m =>
      have hzip (f : A.Real precision × ℤ → A.Real precision → A.Real precision →
          A.Real precision × A.Real precision) :
          (List.zipWith3 f (mean.zip counts) values val).length = n := by
        rw [length_zipWith3, List.length_zip, hm, hv, hval, hcounts m rfl rfl, min_self, min_self]
      exact ⟨hp, (List.length_map _).trans (hzip _), hi, (List.length_map _).trans (hzip _)⟩

end Operation

namespace OperationWindow

def startedCounts (n : ℕ) (w : OperationWindow) : List ℤ :=
  if w.counts = [] then List.replicate n 0 else w.counts

variable {n : ℕ} {w : OperationWindow} (h : CountersFit n w)

include h

theorem length_startedCounts : (w.startedCounts n).length = n := by
  unfold startedCounts
  split_ifs with hnil
  · exact List.length_replicate
  · exact h.resolve_left hnil

theorem initCountsLazy_eq (ctx : StatisticsContext) :
    w.initCountsLazy ctx n = .ok { w with counts := w.startedCounts n } := by
  unfold initCountsLazy startedCounts
  by_cases hnil : w.counts = []
  · rw [if_pos hnil, hnil, List.length_nil, if_pos rfl]
    split_ifs with hn
    · rw [← hn, List.replicate_zero, ← hnil]
    · rfl
  · rw [if_neg hnil, if_pos (h.resolve_left hnil)]

omit h

/-- The window with its counters advanced, in an operation that does so. -/
def counted {A : FloatArithmetic} {p : PrecisionTag} (n : ℕ) (uses : Bool) (mode : UpdateMode A)
    (val : List (A.Real p)) (w : OperationWindow) : OperationWindow :=
  match uses, mode with
  | true, .withMissingAndCounters m =>
    { w with counts := List.zipWith (fun c isMissing => if isMissing then c else c + 1)
                         (w.startedCounts n) (val.map (isMissing A m)) }
  | _, _ => w

section

variable {A : FloatArithmetic} {p : PrecisionTag} {uses : Bool} {mode : UpdateMode A}
  {val : List (A.Real p)}

theorem counts_counted (h : CountersFit n w) (hval : val.length = n) {m : A.Real .double}
    (hmode : mode = .withMissingAndCounters m) (huses : uses = true) :
    (w.counted n uses mode val).counts.length = n := by
  unfold counted
  rw [hmode, huses]
  simp only [List.length_zipWith, List.length_map, length_startedCounts h, hval, min_self]

theorem countersFit_counted (h : CountersFit n w) (hval : val.length = n) :
    CountersFit n (w.counted n uses mode val) := by
  cases uses with
  | false => exact h
  | true =>
    cases hmode : mode with
    | withMissingAndCounters m => exact Or.inr (counts_counted h hval rfl rfl)
    | _ => exact h

theorem count_counted : (w.counted n uses mode val).count = w.count := by
  unfold counted
  split <;> rfl

end

end OperationWindow

namespace Operation

variable {ctx : StatisticsContext} {opt : StatisticsOptions}
  {cfg : StatisticsConfiguration ctx.arithmetic} {w w₁ : OperationWindow} {payload : List UInt8}
  {op op₁ : Operation ctx.arithmetic} {p : PrecisionTag} {n : ℕ}

theorem updateCounts_eq (hop : op.values.length = n) (hw : CountersFit n w)
    (mode : UpdateMode ctx.arithmetic) (val : List (ctx.arithmetic.Real op.precision)) :
    updateCounts ctx w op mode val = .ok (w.counted n op.kind.usesCounters mode val) := by
  unfold updateCounts OperationWindow.counted
  split
  · rename_i m hkind
    unfold OperationWindow.updateCounts
    rw [hop, OperationWindow.initCountsLazy_eq hw, ok_bind, hkind]
  · rename_i hnone
    split
    · rename_i m hkind
      exact absurd rfl (hnone m hkind)
    · rfl

section

variable (hop : op.Fits p n) (hw : CountersFit n w)

include hop hw

theorem updateData_eq (hsize : payload.length / p.size = n) :
    op.updateData ctx opt cfg payload w =
      let val := ctx.arithmetic.elements op.precision payload
      let w₁ := w.counted n op.kind.usesCounters (UpdateMode.make opt cfg) val
      .ok (w₁, op.updateValues (UpdateMode.make opt cfg) w₁.count w₁.counts val) := by
  unfold Operation.updateData
  rw [hop.checkSize_eq_ok_iff.mpr hsize, ok_bind]
  simp only []
  rw [updateCounts_eq hop.values hw, ok_bind]

theorem exists_updateData_iff :
    (∃ r, op.updateData ctx opt cfg payload w = .ok r) ↔ payload.length / p.size = n := by
  constructor
  · rintro ⟨r, h⟩
    simp only [Operation.updateData, bind_eq_ok_iff] at h
    obtain ⟨u, hsize, -⟩ := h
    exact hop.checkSize_eq_ok_iff.mp hsize
  · exact fun hsize => ⟨_, updateData_eq hop hw hsize⟩

theorem Fits.updateData (hA : ReadsValues ctx.arithmetic)
    (h : op.updateData ctx opt cfg payload w = .ok (w₁, op₁)) : op₁.Fits p n ∧ CountersFit n w₁ := by
  have hsize := (exists_updateData_iff hop hw).mp ⟨_, h⟩
  have hval : (ctx.arithmetic.elements op.precision payload).length = n := by
    rw [hA, hop.precision, hsize]
  rw [updateData_eq hop hw hsize] at h
  obtain ⟨rfl, rfl⟩ := Prod.mk.inj (Except.ok.inj h)
  exact ⟨hop.updateValues _ _ hval fun m hmode => OperationWindow.counts_counted hw hval hmode,
    OperationWindow.countersFit_counted hw hval⟩

end

theorem length_zeros {A : FloatArithmetic} {p : PrecisionTag} (xs : List (A.Real p)) :
    (zeros xs).length = xs.length :=
  List.length_map _

/-- Where the window of accumulations begins, the solver must not have reset them before. -/
theorem exists_updateWindow_iff (hop : op.Fits p n) {sz : ℕ} :
    (∃ op₁, op.updateWindow ctx cfg sz w = .ok op₁) ↔ (op.kind.deaccumulated = true →
      sz / p.size = n ∧ ∃ reset, solverResetAccumulatedField ctx cfg w = .ok reset) := by
  unfold updateWindow
  by_cases hk : op.kind.deaccumulated = true
  · rw [if_pos hk]
    simp only [bind_eq_ok_iff, hk, forall_const]
    constructor
    · rintro ⟨op₁, u, hsize, reset, hreset, -⟩
      exact ⟨hop.checkSize_eq_ok_iff.mp hsize, reset, hreset⟩
    · rintro ⟨hsize, reset, hreset⟩
      cases reset with
      | true => exact ⟨_, (), hop.checkSize_eq_ok_iff.mpr hsize, true, hreset, rfl⟩
      | false => exact ⟨_, (), hop.checkSize_eq_ok_iff.mpr hsize, false, hreset, rfl⟩
  · rw [if_neg hk]
    exact iff_of_true ⟨_, rfl⟩ fun h => absurd h hk

theorem exists_initData_iff (hop : op.Fits p n) :
    (∃ op₁, op.initData ctx cfg payload w = .ok op₁) ↔ (op.kind.deaccumulated = true →
      payload.length / p.size = n ∧ ∃ reset, solverResetAccumulatedField ctx cfg w = .ok reset) := by
  unfold initData
  by_cases hk : op.kind.deaccumulated = true
  · rw [if_pos hk]
    simp only [bind_eq_ok_iff, hk, forall_const]
    constructor
    · rintro ⟨op₁, u, hsize, reset, hreset, -⟩
      exact ⟨hop.checkSize_eq_ok_iff.mp hsize, reset, hreset⟩
    · rintro ⟨hsize, reset, hreset⟩
      cases reset with
      | true => exact ⟨_, (), hop.checkSize_eq_ok_iff.mpr hsize, true, hreset, rfl⟩
      | false => exact ⟨_, (), hop.checkSize_eq_ok_iff.mpr hsize, false, hreset, rfl⟩
  · rw [if_neg hk]
    exact iff_of_true ⟨_, rfl⟩ fun h => absurd h hk

theorem Fits.updateWindow (hop : op.Fits p n) {sz : ℕ}
    (h : op.updateWindow ctx cfg sz w = .ok op₁) : op₁.Fits p n := by
  unfold Operation.updateWindow at h
  split_ifs at h with hk
  · simp only [bind_eq_ok_iff] at h
    obtain ⟨-, -, reset, -, h⟩ := h
    split_ifs at h
    · rw [← Except.ok.inj h]
      exact ⟨hop.precision, (length_zeros _).trans hop.values, (length_zeros _).trans hop.initValues,
        hop.mean⟩
    · rw [← Except.ok.inj h]
      exact ⟨hop.precision, (length_zeros _).trans hop.values, hop.initValues, hop.mean⟩
  · rw [← Except.ok.inj h]
    exact ⟨hop.precision, (List.length_map _).trans hop.values, hop.initValues, hop.mean⟩

theorem Fits.compute (hop : op.Fits p n) {bytes : List UInt8}
    (h : op.compute ctx opt cfg w = .ok (op₁, bytes)) : op₁.Fits p n := by
  simp only [Operation.compute, bind_eq_ok_iff] at h
  obtain ⟨values, -, heq⟩ := h
  obtain ⟨rfl, -⟩ := Prod.mk.inj (Except.ok.inj heq)
  split_ifs with hk
  · refine ⟨hop.precision, hop.values, ?_, hop.mean⟩
    simp only [hk, if_true]
    exact hop.values
  · exact hop

theorem Fits.initData (hA : ReadsValues ctx.arithmetic) (hop : op.Fits p n)
    (h : op.initData ctx cfg payload w = .ok op₁) : op₁.Fits p n := by
  unfold Operation.initData at h
  split_ifs at h with hk
  · simp only [bind_eq_ok_iff] at h
    obtain ⟨u, hsize, reset, -, h⟩ := h
    split_ifs at h
    · rw [← Except.ok.inj h]
      exact ⟨hop.precision, (length_zeros _).trans hop.values, (length_zeros _).trans hop.initValues,
        hop.mean⟩
    · rw [← Except.ok.inj h]
      refine ⟨hop.precision, (length_zeros _).trans hop.values, ?_, hop.mean⟩
      simp only [hk, if_true]
      rw [hA, hop.precision]
      exact hop.checkSize_eq_ok_iff.mp hsize
  · rw [← Except.ok.inj h]
    exact hop

theorem Fits.init (hop : op.Fits p n) : (op.init ctx).Fits p n := by
  unfold Operation.init
  split_ifs
  · exact ⟨hop.precision, (length_zeros _).trans hop.values, (length_zeros _).trans hop.initValues,
      hop.mean⟩
  · exact hop

end Operation

namespace TemporalStatistics

section

variable {ctx : StatisticsContext} {f : OperationWindow → Operation ctx.arithmetic →
    Except Exception (OperationWindow × Operation ctx.arithmetic)}
  {I : OperationWindow → Prop} {J : Operation ctx.arithmetic → Prop}
  (hstep : ∀ {w w₁ op op₁}, I w → J op → f w op = .ok (w₁, op₁) → I w₁ ∧ J op₁)
  {w : OperationWindow} {ops : List (Operation ctx.arithmetic)}

include hstep

/-- What all operations keep of the window and of themselves is kept by the loop, also where it
ends with an exception. -/
theorem forOperations_state (hw : I w) (hops : ∀ op ∈ ops, J op) :
    I (forOperations f w ops).state.1 ∧ ∀ op ∈ (forOperations f w ops).state.2, J op := by
  induction ops generalizing w with
  | nil => exact ⟨hw, hops⟩
  | cons op ops ih =>
    rw [List.forall_mem_cons] at hops
    rw [forOperations]
    cases hf : f w op with
    | error e => exact ⟨hw, List.forall_mem_cons.mpr hops⟩
    | ok r =>
      obtain ⟨w₁, op₁⟩ := r
      obtain ⟨hw₁, hop₁⟩ := hstep hw hops.1 hf
      obtain ⟨hw', hops'⟩ := ih hw₁ hops.2
      exact ⟨hw', List.forall_mem_cons.mpr ⟨hop₁, hops'⟩⟩

theorem forOperations_exception_iff {accepts : Operation ctx.arithmetic → Prop}
    (haccepts : ∀ {w op}, I w → J op → ((∃ r, f w op = .ok r) ↔ accepts op)) (hw : I w)
    (hops : ∀ op ∈ ops, J op) :
    (forOperations f w ops).exception = none ↔ ∀ op ∈ ops, accepts op := by
  induction ops generalizing w with
  | nil => exact iff_of_true rfl fun op hop => absurd hop List.not_mem_nil
  | cons op ops ih =>
    rw [List.forall_mem_cons] at hops ⊢
    rw [forOperations, ← haccepts hw hops.1]
    cases hf : f w op with
    | error e =>
      refine iff_of_false (fun h => Option.some_ne_none e h) fun h => ?_
      obtain ⟨⟨r, hr⟩, -⟩ := h
      cases hr
    | ok r =>
      obtain ⟨w₁, op₁⟩ := r
      rw [and_iff_right ⟨_, rfl⟩]
      exact ih (hstep hw hops.1 hf).1 hops.2

end

variable {ctx : StatisticsContext} {conf : Config} {cfg : StatisticsConfiguration ctx.arithmetic}
  {msg : Message} {ts ts₁ : TemporalStatistics ctx} {p : PrecisionTag} {n : ℕ}

/-- All operations keep `n` values, which are counted all or not at all. -/
structure Sized (p : PrecisionTag) (n : ℕ) (ts : TemporalStatistics ctx) : Prop where
  statistics : ∀ op ∈ ts.statistics, op.Fits p n
  window : CountersFit n ts.window

def SupportsGrid (ctx : StatisticsContext) (md : BaseMetadata) (k : OperationKind) : Prop :=
  ∃ truncation, parseOptional ctx.parseTruncation ctx.parametrization md "truncation" =
    .ok truncation ∧ (truncation.isSome = true → k.supportsSH = true)

theorem exists_updateOperation_iff {op : Operation ctx.arithmetic} {w : OperationWindow}
    (hop : op.Fits p n) (hw : CountersFit n w) :
    (∃ r, updateOperation conf.opt cfg msg w op = .ok r) ↔
      SupportsGrid ctx msg.metadata op.kind ∧ msg.size / p.size = n := by
  have hdata : (∃ r, op.updateData ctx conf.opt cfg msg.payload w = .ok r) ↔ _ :=
    Operation.exists_updateData_iff hop hw
  unfold Message.size SupportsGrid
  rw [← hdata]
  simp only [updateOperation, bind_eq_ok_iff]
  constructor
  · rintro ⟨r, truncation, htruncation, hr⟩
    split_ifs at hr with hsh
    exact ⟨⟨truncation, htruncation, by simpa using hsh⟩, r, hr⟩
  · rintro ⟨⟨truncation, htruncation, hsh⟩, r, hr⟩
    refine ⟨r, truncation, htruncation, ?_⟩
    rw [if_neg (by simpa using hsh)]
    exact hr

theorem updateOperation_fits (hA : ReadsValues ctx.arithmetic) {op op₁ : Operation ctx.arithmetic}
    {w w₁ : OperationWindow} (hw : CountersFit n w) (hop : op.Fits p n)
    (h : updateOperation conf.opt cfg msg w op = .ok (w₁, op₁)) :
    CountersFit n w₁ ∧ op₁.Fits p n := by
  simp only [updateOperation, bind_eq_ok_iff] at h
  obtain ⟨truncation, -, h⟩ := h
  split_ifs at h
  exact (Operation.Fits.updateData hop hw hA h).symm

theorem exists_resetOperation_iff {op : Operation ctx.arithmetic} {w : OperationWindow}
    (hop : op.Fits p n) {sz : ℕ} :
    (∃ r, resetOperation cfg sz w op = .ok r) ↔ (op.kind.deaccumulated = true →
      sz / p.size = n ∧ ∃ reset, Operation.solverResetAccumulatedField ctx cfg w = .ok reset) := by
  rw [← Operation.exists_updateWindow_iff hop]
  simp only [resetOperation, bind_eq_ok_iff]
  constructor
  · rintro ⟨r, op₁, hop₁, -⟩
    exact ⟨op₁, hop₁⟩
  · rintro ⟨op₁, hop₁⟩
    exact ⟨(w, op₁), op₁, hop₁, rfl⟩

theorem resetOperation_fits {op op₁ : Operation ctx.arithmetic} {w w₁ : OperationWindow} {sz : ℕ}
    (hop : op.Fits p n) (h : resetOperation cfg sz w op = .ok (w₁, op₁)) :
    w₁ = w ∧ op₁.Fits p n := by
  simp only [resetOperation, bind_eq_ok_iff] at h
  obtain ⟨op', hop', heq⟩ := h
  obtain ⟨rfl, rfl⟩ := Prod.mk.inj (Except.ok.inj heq)
  exact ⟨rfl, hop.updateWindow hop'⟩

theorem updateData_exception_iff (hA : ReadsValues ctx.arithmetic) (hts : ts.Sized p n) :
    (ts.updateData conf cfg msg).exception = none ↔
      (∃ w, ts.window.updateData ctx (currentDateTime cfg) = .ok w) ∧
        ∀ op ∈ ts.statistics, SupportsGrid ctx msg.metadata op.kind ∧ msg.size / p.size = n := by
  unfold updateData
  cases hw : ts.window.updateData ctx (currentDateTime cfg) with
  | error e =>
    refine iff_of_false (fun h => Option.some_ne_none e h) fun h => ?_
    obtain ⟨⟨w, hw⟩, -⟩ := h
    cases hw
  | ok w =>
    obtain ⟨-, -, rfl⟩ := OperationWindow.updateData_eq_ok_iff.mp hw
    rw [and_iff_right ⟨_, rfl⟩]
    exact forOperations_exception_iff (updateOperation_fits hA)
      (fun hw hop => exists_updateOperation_iff hop hw) hts.window hts.statistics

theorem updateWindow_exception_iff (hts : ts.Sized p n) :
    (ts.updateWindow cfg msg).exception = none ↔
      ∀ op ∈ ts.statistics, op.kind.deaccumulated = true → msg.size / p.size = n ∧
        ∃ reset, Operation.solverResetAccumulatedField ctx cfg ts.nextWindow = .ok reset := by
  unfold updateWindow
  exact forOperations_exception_iff (I := (· = ts.nextWindow))
    (fun hw hop h => by
      obtain ⟨rfl, hop₁⟩ := resetOperation_fits hop h
      exact ⟨hw, hop₁⟩)
    (fun hw hop => by
      rw [exists_resetOperation_iff hop, hw]) rfl hts.statistics

theorem Sized.updateData (hA : ReadsValues ctx.arithmetic) (hts : ts.Sized p n) :
    (ts.updateData conf cfg msg).state.Sized p n := by
  unfold TemporalStatistics.updateData
  cases hw : ts.window.updateData ctx (currentDateTime cfg) with
  | error e => exact hts
  | ok w =>
    obtain ⟨-, -, rfl⟩ := OperationWindow.updateData_eq_ok_iff.mp hw
    obtain ⟨hwindow, hops⟩ := forOperations_state (f := updateOperation conf.opt cfg msg)
      (I := CountersFit n) (J := Operation.Fits p n)
      (updateOperation_fits hA) (w := { ts.window with
        count := ts.window.count + 1, prevPoint := ts.window.currPoint,
        currPoint := currentDateTime cfg }) hts.window hts.statistics
    exact ⟨hops, hwindow⟩

theorem Sized.updateWindow (hts : ts.Sized p n) : (ts.updateWindow cfg msg).state.Sized p n := by
  unfold TemporalStatistics.updateWindow
  obtain ⟨hwindow, hops⟩ := forOperations_state (f := resetOperation cfg msg.size)
    (I := CountersFit n) (J := Operation.Fits p n)
    (fun hw hop h => by
      obtain ⟨rfl, hop₁⟩ := resetOperation_fits hop h
      exact ⟨hw, hop₁⟩) (w := ts.nextWindow) (Or.inl rfl) hts.statistics
  exact ⟨hops, hwindow⟩

theorem Sized.emitStatistics (hts : ts.Sized p n) {src dst : Peer} :
    (ts.emitStatistics conf src dst).state.1.Sized p n := by
  have hloop : ∀ ops : List (Operation ctx.arithmetic), (∀ op ∈ ops, op.Fits p n) →
      ∀ op ∈ (ts.emitOperations conf src dst ops).state.1, op.Fits p n := by
    intro ops
    induction ops with
    | nil => exact id
    | cons op ops ih =>
      intro hops
      rw [emitOperations]
      cases hop : ts.emitOperation conf src dst op with
      | error e => exact hops
      | ok r =>
        obtain ⟨op₁, out⟩ := r
        rw [List.forall_mem_cons] at hops
        simp only [emitOperation, bind_eq_ok_iff] at hop
        obtain ⟨cfg, -, md, -, ⟨op', payload⟩, hcompute, heq⟩ := hop
        obtain ⟨rfl, -⟩ := Prod.mk.inj (Except.ok.inj heq)
        exact List.forall_mem_cons.mpr ⟨hops.1.compute hcompute, ih hops.2⟩
  unfold TemporalStatistics.emitStatistics
  split_ifs
  · exact hts
  · exact ⟨hloop _ hts.statistics, hts.window⟩

theorem make_eq_ok_iff : TemporalStatistics.make conf cfg msg = .ok ts ↔
    ∃ u, makePeriodUpdater conf.outputFrequency = .ok u ∧ ∃ ops,
      makeOperations conf.opt cfg msg (makeWindow u conf.opt cfg) conf.operations = .ok ops ∧
      ts = { periodUpdater := u, window := makeWindow u conf.opt cfg, statistics := ops,
             metadata := msg.metadata } := by
  simp only [TemporalStatistics.make, bind_eq_ok_iff, Except.ok.injEq]
  constructor
  · intro h
    obtain ⟨u, hu, ops, hops, heq⟩ := h
    exact ⟨u, hu, ops, hops, heq.symm⟩
  · intro h
    obtain ⟨u, hu, ops, hops, heq⟩ := h
    exact ⟨u, hu, ops, hops, heq.symm⟩

theorem makeOperation_fits (hA : ReadsValues ctx.arithmetic) {opt : StatisticsOptions}
    {payload : List UInt8} {w : OperationWindow} {opname : String} {op : Operation ctx.arithmetic}
    (h : makeOperation opt cfg p payload w opname = .ok op) : op.Fits p (payload.length / p.size) := by
  simp only [makeOperation, bind_eq_ok_iff] at h
  obtain ⟨kind, -, h⟩ := h
  have hmake := Operation.fits_make ctx.arithmetic kind p payload.length
  split_ifs at h
  · exact hmake.initData hA h
  · rw [← Except.ok.inj h]
    exact hmake.init

theorem sized_make (hA : ReadsValues ctx.arithmetic) (h : TemporalStatistics.make conf cfg msg = .ok ts) :
    ∃ p, ts.Sized p (msg.size / p.size) := by
  obtain ⟨u, -, ops, hops, rfl⟩ := make_eq_ok_iff.mp h
  simp only [makeOperations, bind_eq_ok_iff] at hops
  obtain ⟨p, -, hops⟩ := hops
  refine ⟨p, ?_, Or.inl rfl⟩
  intro op hop
  obtain ⟨i, hi, rfl⟩ := List.getElem_of_mem hop
  have hall := List.forall₂_iff_get.mp (mapM_eq_ok_iff.mp hops)
  exact makeOperation_fits hA (hall.2 i (hall.1 ▸ hi) hi)

end TemporalStatistics
end Multio.StatisticsMtg2
