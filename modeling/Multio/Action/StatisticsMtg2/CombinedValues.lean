import Multio.Action.StatisticsMtg2.FieldHistory
import Multio.Action.StatisticsMtg2.OperationPlace
import Multio.Action.StatisticsMtg2.PointValues

namespace Multio.StatisticsMtg2
open Lib Exception

variable {ctx : StatisticsContext} {conf : Config} {missing : Option (ctx.arithmetic.Real .double)}
  {ts ts₁ : TemporalStatistics ctx} {h : History}

/-- The window of some messages, and a message that was emitted for it. -/
def emissionOf (A : FloatArithmetic) (p : PrecisionTag) (n : ℕ) (missing : Option (A.Real .double))
    (threshold : Option ℤ) (inputs : List Message) (msg : Message) : Emission A where
  precision := p
  points := n
  missing
  threshold
  inputs := inputs.map Message.payload
  payload := msg.payload

theorem OperationKind.deaccumulated_of_combination {A : FloatArithmetic} {p : PrecisionTag}
    {k : OperationKind} {f : ℤ → A.Real p → A.Real p → A.Real p} (hf : k.combination A p = some f) :
    k.deaccumulated = false ∧ k ≠ .stddev := by
  cases k <;> first | (cases hf; done) | exact ⟨rfl, fun h => by cases h⟩

theorem computeValues_of_combination {op : Operation ctx.arithmetic}
    (hf : (op.kind.combination ctx.arithmetic op.precision).isSome = true) (opt : StatisticsOptions)
    (cfg : StatisticsConfiguration ctx.arithmetic) (w : OperationWindow) :
    op.computeValues ctx opt cfg w =
      Operation.emittedValues ctx.arithmetic cfg.missingValue opt.valueCountThreshold op.values w.counts := by
  obtain ⟨kind, p, values, initValues, mean⟩ := op
  cases kind <;> first | (cases hf; done) | rfl

theorem countsPoints_iff {opt : StatisticsOptions} {cfg : StatisticsConfiguration ctx.arithmetic} :
    CountsPoints opt cfg ↔ PointsCounted cfg.missingValue opt.valueCountThreshold :=
  Iff.rfl

/-- The operation at a place, whose values are those of the messages of its window. -/
structure Accumulated (conf : Config) (missing : Option (ctx.arithmetic.Real .double)) (i : ℕ)
    (k : OperationKind)
    (f : (p : PrecisionTag) → ℤ → ctx.arithmetic.Real p → ctx.arithmetic.Real p →
      ctx.arithmetic.Real p)
    (ts : TemporalStatistics ctx) (h : History) (op : Operation ctx.arithmetic) : Prop where
  place : Place (PointsCounted missing conf.opt.valueCountThreshold) i ts op
  kind : op.kind = k
  precision : h.initial.precision ctx.toContext = .ok op.precision
  fits : op.Fits op.precision (h.initial.size / op.precision.size)
  metadata : readMissingValue ctx ts.metadata = .ok missing
  advanced : Advanced ctx.arithmetic op.precision (.of missing conf.opt.valueCountThreshold)
    (combined ctx.arithmetic (.of missing conf.opt.valueCountThreshold) (f op.precision))
    (fun _ => k.initialValue ctx.arithmetic op.precision) (h.initial.size / op.precision.size)
    (h.inputs.map Message.payload) ts.window op.values
  emitted : ∀ window ∈ h.emitted, ∀ msg, window.2[i]? = some msg →
    (emissionOf ctx.arithmetic op.precision (h.initial.size / op.precision.size) missing
      conf.opt.valueCountThreshold window.1 msg).Computed (f op.precision)
        (k.initialValue ctx.arithmetic op.precision)

section

variable {i : ℕ} {opname : String} {k : OperationKind}
  {f : (p : PrecisionTag) → ℤ → ctx.arithmetic.Real p → ctx.arithmetic.Real p →
    ctx.arithmetic.Real p} (hf : ∀ p, k.combination ctx.arithmetic p = some (f p))

include hf

theorem accumulated_made (hi : conf.operations[i]? = some opname)
    (hk : OperationKind.ofName opname = .ok k)
    (halone : PointsCounted missing conf.opt.valueCountThreshold → CountsAlone conf.operations i)
    {msg : Message} {cfg : StatisticsConfiguration ctx.arithmetic} (hcfg : ReadAs conf missing msg cfg)
    (hmake : TemporalStatistics.make conf cfg msg = .ok ts) (reset : Bool) :
    ∃ op, Accumulated conf missing i k f ts { initial := msg, reset } op := by
  obtain ⟨p, w, op, hp, hturn, hplace, hmetadata, hcount, hcounts, -⟩ := Place.made hi halone hmake
  have hno : ¬ k.deaccumulated = true :=
    Bool.eq_false_iff.mp (OperationKind.deaccumulated_of_combination (hf p)).1
  obtain rfl := makeOperation_eq_make hk hno hturn
  refine ⟨_, hplace, rfl, hp, Operation.fits_make _ k p _, ?_, ?_, ?_⟩
  · rw [hmetadata]
    exact hcfg.missing ▸ StatisticsConfiguration.readMissingValue_make hcfg.make
  · exact Advanced.start_replicate hcount hcounts _
  · exact fun _ h => absurd h List.not_mem_nil

variable (hA : ReadsValues ctx.arithmetic) {op : Operation ctx.arithmetic}
  (hacc : Accumulated conf missing i k f ts h op)

include hacc

include hA in
theorem Accumulated.update {msg : Message} {cfg : StatisticsConfiguration ctx.arithmetic}
    (hcfg : ReadAs conf missing msg cfg) (hdata : (ts.updateData conf cfg msg).Returns ts₁) :
    ∃ op, Accumulated conf missing i k f ts₁ { h with inputs := h.inputs ++ [msg] } op := by
  obtain ⟨w₁, w₂, op₁, hupdate, hplace, hmetadata, hcount₁, hcount₂, hcounts⟩ :=
    hacc.place.updateData hdata
  obtain ⟨hcounts₁, hcounts₂⟩ := hcounts fun hpoints => hcfg.missing ▸ countsPoints_iff.mp hpoints
  have hmode : UpdateMode.make conf.opt cfg = .of missing conf.opt.valueCountThreshold :=
    congrArg (UpdateMode.of · _) hcfg.missing
  have hadvanced := hacc.advanced
  rw [← hmode] at hadvanced
  obtain ⟨values, rfl, hnext⟩ := Operation.advanced_updateData hA hacc.fits hcount₁ hcounts₁ hupdate
    (hacc.kind ▸ hf op.precision) hadvanced
  have hcounters := CountersFit.of_eq hadvanced.counts hcounts₁
  have hfits := (Operation.Fits.updateData hacc.fits hcounters hA hupdate).1
  rw [hmode] at hnext
  refine ⟨_, hplace, hacc.kind, hacc.precision, hfits, hmetadata ▸ hacc.metadata, ?_, hacc.emitted⟩
  rw [List.map_append]
  exact hnext.of_eq hcount₂ hcounts₂

theorem Accumulated.next {msg : Message} {cfg : StatisticsConfiguration ctx.arithmetic}
    (hwindow : (ts.updateWindow cfg msg).Returns ts₁) (reset : Bool) :
    ∃ op, Accumulated conf missing i k f ts₁ { h with inputs := [], reset } op := by
  obtain ⟨op₁, hop₁, hplace, hnext, hmetadata⟩ := hacc.place.updateWindow hwindow
  have hfits := hacc.fits.updateWindow hop₁
  have hno : ¬ op.kind.deaccumulated = true := by
    rw [hacc.kind, (OperationKind.deaccumulated_of_combination (hf op.precision)).1]
    exact Bool.false_ne_true
  obtain rfl := Except.ok.inj ((if_neg hno).symm.trans hop₁)
  refine ⟨_, hplace, hacc.kind, hacc.precision, hfits, hmetadata ▸ hacc.metadata, ?_, hacc.emitted⟩
  rw [hnext]
  dsimp only
  rw [List.map_const', hacc.fits.values, hacc.kind]
  exact Advanced.start_replicate rfl rfl _

theorem Accumulated.emit {src dst : Peer} {out : List Message}
    (hemit : (ts.emitStatistics conf src dst).Returns (ts₁, out)) :
    ∃ op, Accumulated conf missing i k f ts₁ (h.emission out) op := by
  obtain ⟨-, rfl, rfl⟩ | ⟨hcount, cfg, op₁, msg, hcfg, hcompute, hat, hplace, hsame, hmetadata⟩ :=
    hacc.place.emitStatistics hemit
  · refine ⟨op, hacc.place, hacc.kind, hacc.precision, hacc.fits, hacc.metadata, hacc.advanced, ?_⟩
    intro window hwindow msg hmsg
    obtain hbefore | hlast := List.mem_append.mp hwindow
    · exact hacc.emitted window hbefore msg hmsg
    · rw [List.mem_singleton.mp hlast] at hmsg
      cases hmsg
  · simp only [Operation.compute, bind_eq_ok_iff] at hcompute
    obtain ⟨values, hvalues, heq⟩ := hcompute
    obtain ⟨hop₁, hpayload⟩ := Prod.mk.inj (Except.ok.inj heq)
    have hno : ¬ op.kind.deaccumulated = true := by
      rw [hacc.kind, (OperationKind.deaccumulated_of_combination (hf op.precision)).1]
      exact Bool.false_ne_true
    obtain rfl : op = op₁ := (if_neg hno).symm.trans hop₁
    have hmissing : cfg.missingValue = missing :=
      Except.ok.inj ((StatisticsConfiguration.readMissingValue_make hcfg).symm.trans hacc.metadata)
    rw [computeValues_of_combination (by rw [hacc.kind, hf]; rfl), hmissing] at hvalues
    refine ⟨op, hplace, hacc.kind, hacc.precision, hacc.fits, hmetadata ▸ hacc.metadata,
      hsame ▸ hacc.advanced, ?_⟩
    intro window hwindow msg' hmsg
    obtain hbefore | hlast := List.mem_append.mp hwindow
    · exact hacc.emitted window hbefore msg' hmsg
    · obtain rfl := List.mem_singleton.mp hlast
      obtain rfl := Option.some.inj (hat.symm.trans hmsg)
      exact Advanced.computed (e := emissionOf _ _ _ _ _ _ _) hacc.advanced hacc.fits.values hcount
        hvalues hpayload.symm

omit hf hacc in
include hA in
/-- In every history, what is emitted is what combining the messages of each window makes of it. -/
theorem Recorded.accumulated (hi : conf.operations[i]? = some opname)
    (hk : OperationKind.ofName opname = .ok k)
    (hf : ∀ p, k.combination ctx.arithmetic p = some (f p))
    (halone : PointsCounted missing conf.opt.valueCountThreshold → CountsAlone conf.operations i)
    (hts : Recorded conf missing ts h) : ∃ op, Accumulated conf missing i k f ts h op :=
  hts.invariant (I := fun ts h => ∃ op, Accumulated conf missing i k f ts h op)
    { made := fun hcfg hmake => accumulated_made hf hi hk halone hcfg hmake _
      update := fun ⟨_, hacc⟩ hcfg hdata => hacc.update hf hA hcfg hdata
      emit := fun ⟨_, hacc⟩ hemit => hacc.emit hf hemit
      next := fun ⟨_, hacc⟩ _ hwindow => hacc.next hf hwindow _ }

end
end Multio.StatisticsMtg2
