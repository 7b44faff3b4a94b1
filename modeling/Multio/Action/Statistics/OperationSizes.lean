import Multio.Action.Statistics.TemporalStatistics

namespace Multio.Statistics
open StatisticsMtg2 Exception

/-- What is relied on of the arithmetic: values are read from memory one after the other, and
they survive the conversion to double and to bits. -/
structure Lawful (A : FloatArithmetic) : Prop where
  elements_length : ∀ (p : PrecisionTag) (bytes : List UInt8),
    (A.elements p bytes).length = bytes.length / p.size
  ofDouble_toDouble : ∀ {p : PrecisionTag} (v : A.Real p), A.ofDouble (A.toDouble v) = v
  ofBits_bits : ∀ v : A.Real .double, A.ofBits (A.bits v) = v

def Counting (opt : StatisticsOptions) {A : FloatArithmetic} (cfg : StatisticsConfiguration A) :
    Prop := opt.valueCountThreshold.isSome ∧ cfg.missingValue.isSome

theorem updateMode_counters {A : FloatArithmetic} {opt : StatisticsOptions}
    {cfg : StatisticsConfiguration A} {m : A.Real .double}
    (h : updateMode opt cfg = .withMissingAndCounters m) : Counting opt cfg := by
  exact (UpdateMode.of_eq_counters h).symm

namespace Operation

/-- The operation has room for the values of messages of `sz` bytes. -/
structure Fits {A : FloatArithmetic} (p : PrecisionTag) (sz : ℕ) (op : Operation A) : Prop where
  precision : op.precision = p
  values : op.values.length = sz / op.precision.size
  initValues : op.initValues.length = if op.kind.deaccumulated then sz / op.precision.size else 0

variable {A : FloatArithmetic} {p : PrecisionTag} {sz n : ℕ} {op : Operation A}

theorem fits_make (A : FloatArithmetic) (kind : OperationKind) (p : PrecisionTag) (sz : ℕ) :
    (make A kind p sz).Fits p sz where
  precision := rfl
  values := List.length_replicate
  initValues := length_ite_replicate _ _ _

theorem Fits.checkSize (h : op.Fits p sz) : op.checkSize sz = .ok () := if_pos h.values

@[simp]
theorem length_zeros (xs : List (A.Real p)) :
    (StatisticsMtg2.Operation.zeros xs).length = xs.length := by
  unfold StatisticsMtg2.Operation.zeros
  exact List.length_map _

@[simp]
theorem updateValues_kind (mode : UpdateMode A) (count : ℤ) (counts : List ℤ)
    (val : List (A.Real op.precision)) : (op.updateValues mode count counts val).kind = op.kind := by
  unfold updateValues
  split <;> rfl

theorem Fits.updateValues (h : op.Fits p sz) (mode : UpdateMode A) (count : ℤ) {counts : List ℤ}
    {val : List (A.Real op.precision)} (hval : val.length = sz / op.precision.size)
    (hcounts : ∀ m, mode = .withMissingAndCounters m → op.kind.usesCounters = true →
      counts.length = sz / op.precision.size) :
    (op.updateValues mode count counts val).Fits p sz := by
  obtain ⟨kind, precision, values, initValues⟩ := op
  obtain ⟨hp, hv, hi⟩ := h
  cases kind with
  | accumulate => exact ⟨hp, length_accumulateValues hv hval, hi⟩
  | maximum => exact ⟨hp, length_combineValues hv hval, hi⟩
  | minimum => exact ⟨hp, length_combineValues hv hval, hi⟩
  | average => exact ⟨hp, length_averageValues hv hval fun m hmode => hcounts m hmode rfl, hi⟩
  | _ => exact ⟨hp, hval, hi⟩

/-- The counters of a window: none yet, or one for each of `n` points. -/
def CountersFit (n : ℕ) (win : OperationWindow) : Prop := win.counts = [] ∨ win.counts.length = n

theorem initCountsLazy_ok (ctx : StatisticsContext) {n : ℕ} {win : OperationWindow}
    (h : CountersFit n win) : ∃ counts, counts.length = n ∧
      win.initCountsLazy ctx.toStatisticsContext n = .ok { win with counts } := by
  unfold OperationWindow.initCountsLazy
  by_cases hlen : win.counts.length = n
  · exact ⟨win.counts, hlen, if_pos hlen⟩
  · have hnil : win.counts.length = 0 := List.length_eq_zero_iff.mpr (h.resolve_right hlen)
    refine ⟨List.replicate n 0, List.length_replicate, ?_⟩
    rw [if_neg hlen, if_pos hnil]

section

variable {ctx : StatisticsContext} {opt : StatisticsOptions}
  {cfg : StatisticsConfiguration ctx.arithmetic} {win : OperationWindow}
  {op : Operation ctx.arithmetic}

/-- Only the counters of the window change; in a counting mode they are there afterwards. -/
theorem updateCounts_ok (hlen : op.values.length = n)
    (hwin : CountersFit n win) {val : List (ctx.arithmetic.Real op.precision)}
    (hval : val.length = n) (mode : UpdateMode ctx.arithmetic) :
    ∃ counts, updateCounts ctx win op mode val = .ok { win with counts } ∧
      CountersFit n { win with counts } ∧ (win.counts.length = n → counts.length = n) ∧
      ∀ m, mode = .withMissingAndCounters m → op.kind.usesCounters = true → counts.length = n := by
  unfold updateCounts
  split
  · rename_i m hkind
    obtain ⟨counts, hcounts, hinit⟩ := initCountsLazy_ok ctx hwin
    refine ⟨List.zipWith (fun c isMissing => if isMissing then c else c + 1) counts
      (val.map (isMissing ctx.arithmetic m)), ?_, ?_⟩
    · unfold OperationWindow.updateCounts
      rw [hlen, hinit]
      rfl
    · have hzip : (List.zipWith (fun c isMissing => if isMissing then c else c + 1) counts
          (val.map (isMissing ctx.arithmetic m))).length = n := by
        rw [List.length_zipWith, List.length_map, hcounts, hval, min_self]
      exact ⟨Or.inr hzip, fun _ => hzip, fun _ _ _ => hzip⟩
  · rename_i hnot
    exact ⟨win.counts, rfl, hwin, id, fun m hm hkind => absurd hm (hnot m hkind)⟩

variable (opt cfg) in
theorem Fits.updateData (h : op.Fits p sz) (hA : Lawful ctx.arithmetic) {payload : List UInt8}
    (hpayload : payload.length = sz) (hwin : CountersFit (sz / p.size) win) :
    ∃ counts op', op.updateData ctx opt cfg payload win = .ok ({ win with counts }, op') ∧
      op'.Fits p sz ∧ op'.kind = op.kind ∧ CountersFit (sz / p.size) { win with counts } ∧
      (win.counts.length = sz / p.size → counts.length = sz / p.size) ∧
      (Counting opt cfg → op.kind.usesCounters = true → counts.length = sz / p.size) := by
  obtain rfl := h.precision
  have hvalues := h.values
  have hval : (ctx.arithmetic.elements op.precision payload).length = sz / op.precision.size := by
    rw [hA.elements_length, hpayload]
  obtain ⟨counts, hcounts, hfit, hkeep, hcounting⟩ :=
    updateCounts_ok hvalues hwin hval (updateMode opt cfg)
  refine ⟨counts, op.updateValues (updateMode opt cfg) win.count counts
    (ctx.arithmetic.elements op.precision payload), ?_, ?_, updateValues_kind _ _ _ _, hfit, hkeep,
    ?_⟩
  · unfold Operation.updateData
    rw [hpayload, h.checkSize, ok_bind]
    simp only []
    rw [hcounts]
    rfl
  · exact h.updateValues _ _ hval hcounting
  · rintro ⟨hthreshold, hmissing⟩
    obtain ⟨m, hm⟩ := Option.isSome_iff_exists.mp hmissing
    apply hcounting m
    unfold updateMode
    rw [hm]
    exact if_pos hthreshold

theorem Fits.restartFrom (h : op.Fits p sz) (hA : Lawful ctx.arithmetic)
    (hkind : op.kind.deaccumulated = true) {payload : List UInt8} (hpayload : payload.length = sz) :
    ∃ op', op.restartFrom ctx opt cfg payload = .ok op' ∧ op'.Fits p sz := by
  have hinit := h.initValues
  rw [if_pos hkind] at hinit
  unfold Operation.restartFrom
  rw [hpayload, h.checkSize, ok_bind]
  split_ifs
  · refine ⟨_, rfl, h.precision, ?_, ?_⟩
    · exact (length_zeros _).trans h.values
    · rw [if_pos hkind]
      exact (length_zeros _).trans hinit
  · refine ⟨_, rfl, h.precision, ?_, ?_⟩
    · exact (length_zeros _).trans h.values
    · rw [if_pos hkind, hA.elements_length, hpayload]

variable (opt cfg) in
theorem Fits.updateWindow (h : op.Fits p sz) (hA : Lawful ctx.arithmetic) {payload : List UInt8}
    (hpayload : payload.length = sz) :
    ∃ op', op.updateWindow ctx opt cfg payload = .ok op' ∧ op'.Fits p sz := by
  unfold Operation.updateWindow
  split_ifs with hkind
  · exact h.restartFrom hA hkind hpayload
  · exact ⟨_, rfl, h.precision, (List.length_map _).trans h.values, h.initValues⟩

theorem Fits.initData (h : op.Fits p sz) (hA : Lawful ctx.arithmetic) {payload : List UInt8}
    (hpayload : payload.length = sz) :
    ∃ op', op.initData ctx opt cfg payload = .ok op' ∧ op'.Fits p sz := by
  unfold Operation.initData
  split_ifs with hkind
  · exact h.restartFrom hA hkind hpayload
  · exact ⟨op, rfl, h⟩

theorem Fits.init (h : op.Fits p sz) : (op.init ctx).Fits p sz := by
  unfold Operation.init
  split_ifs with hkind
  · refine ⟨h.precision, (length_zeros _).trans h.values, ?_⟩
    rw [h.initValues.symm]
    exact length_zeros _
  · exact h

theorem computeValues_of_usesCounters (huses : op.kind.usesCounters = true) :
    op.computeValues ctx opt cfg win = StatisticsMtg2.Operation.emittedValues ctx.arithmetic
      cfg.missingValue opt.valueCountThreshold op.values win.counts := by
  obtain ⟨kind, p, values, initValues⟩ := op
  cases kind <;> first | (cases huses; done) | rfl

theorem Fits.compute (h : op.Fits p sz)
    (hinterval : win.count * cfg.stepFreq * cfg.timeStep ≠ 0)
    (hcounts : Counting opt cfg → op.kind.usesCounters = true → win.counts.length = sz / p.size) :
    ∃ payload, op.compute ctx opt cfg win = .ok payload := by
  have hvalues : ∃ values, op.computeValues ctx opt cfg win = .ok values := by
    cases huses : op.kind.usesCounters with
    | true =>
      rw [computeValues_of_usesCounters huses]
      apply StatisticsMtg2.Operation.exists_emittedValues
      intro hmissing ht
      rw [h.values, h.precision]
      exact hcounts ⟨ht, hmissing⟩ huses
    | false =>
      obtain ⟨kind, precision, values, initValues⟩ := op
      unfold computeValues
      cases kind <;> first | (cases huses; done) | (cases cfg.missingValue <;> exact ⟨_, rfl⟩)
  obtain ⟨values, hvalues⟩ := hvalues
  refine ⟨ctx.arithmetic.bytes op.precision values, ?_⟩
  unfold Operation.compute checkTimeInterval
  rw [if_neg hinterval, ok_bind, hvalues]
  rfl

end

end Operation
end Multio.Statistics
