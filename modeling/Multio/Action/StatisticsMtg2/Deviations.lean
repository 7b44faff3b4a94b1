import Multio.Action.StatisticsMtg2.ExactContext
import Multio.Action.StatisticsMtg2.FieldHistory
import Multio.Action.StatisticsMtg2.OperationPlace
import Multio.Action.StatisticsMtg2.UpdateModes
import Multio.Lib.RunningStatistics

namespace Multio.StatisticsMtg2
open Lib Exception

section

variable {A : FloatArithmetic} {K : Type} [Field K] (U : Unrounded A K) {p : PrecisionTag}

def welfordStep (count : ℤ) (u : A.Real p × A.Real p) (x : A.Real p) : A.Real p × A.Real p :=
  welford A count u.1 u.2 x

theorem Unrounded.value_mean (n : ℕ) (u : A.Real p × A.Real p) (x : A.Real p) :
    U.value (welfordStep (n + 1) u x).1 =
      U.value u.1 + 1 / (n + 1) * (U.value x - U.value u.1) := by
  unfold welfordStep welford
  simp only [U.ofDouble, U.add, U.mul, U.div, U.sub, U.toDouble, U.ofLong]
  push_cast
  rfl

theorem Unrounded.value_squares (count : ℤ) (u : A.Real p × A.Real p) (x : A.Real p) :
    U.value (welfordStep count u x).2 = U.value u.2 +
      (U.value x - U.value u.1) * (U.value x - U.value (welfordStep count u x).1) := by
  unfold welfordStep welford
  simp only [U.add, U.mul, U.sub]

variable [CharZero K]

/-- The mean and the squared deviations of all values, whatever the mean was before. -/
theorem Unrounded.value_deviations (u : A.Real p × A.Real p) (xs : List (A.Real p)) :
    (xs ≠ [] → U.value (combineAll A welfordStep u xs).1 = mean (xs.map U.value)) ∧
      U.value (combineAll A welfordStep u xs).2 =
        U.value u.2 + squaredDeviations (xs.map U.value) := by
  induction xs using List.reverseRecOn with
  | nil =>
    refine ⟨fun h => absurd rfl h, ?_⟩
    rw [List.map_nil, squaredDeviations_eq]
    simp [combineAll, PointState.after]
  | append_singleton xs x ih =>
    obtain ⟨hmean, hsquares⟩ := ih
    have hnext : U.value (welfordStep (xs.length + 1) (combineAll A welfordStep u xs) x).1 =
        mean (xs.map U.value ++ [U.value x]) := by
      rw [U.value_mean, mean_concat', List.length_map]
      by_cases hxs : xs = []
      · -- the first value is the mean
        rw [hxs]
        simp [mean]
      · rw [hmean hxs]
    rw [combineAll_concat, List.map_append, List.map_singleton, U.value_squares, hnext, hsquares,
      squaredDeviations_concat, add_assoc]
    refine ⟨fun _ => rfl, ?_⟩
    by_cases hxs : xs = []
    · -- it does not deviate from itself
      rw [hxs]
      simp [mean]
    · rw [hmean hxs]

end
section

variable {A : FloatArithmetic} {p : PrecisionTag} {missing : Option (A.Real .double)}
  {threshold : Option ℤ}

def presentValues (missing : Option (A.Real .double)) (xs : List (A.Real p)) : List (A.Real p) :=
  match missing with
  | none => xs
  | some m => valid A m xs

/-- Without counters, no value that is not missing follows a missing one. -/
def Gapless (missing : Option (A.Real .double)) (threshold : Option ℤ) (xs : List (A.Real p)) :
    Prop :=
  ∀ m, missing = some m → threshold = none →
    xs.Pairwise fun x y => isMissing A m x = true → isMissing A m y = true

/-- Only the values that are not missing make up the mean and the squares. -/
theorem value_moments (u : A.Real p × A.Real p) {xs : List (A.Real p)}
    (hxs : Gapless missing threshold xs) :
    (PointState.after A (.of missing threshold) (moments A (.of missing threshold)) u xs).value =
      combineAll A welfordStep u (presentValues missing xs) := by
  cases missing with
  | none => rfl
  | some m =>
    cases threshold with
    | none => exact PointState.value_before_missing (hxs m rfl rfl)
    | some t => exact PointState.value_eq

end

variable {ctx : StatisticsContext} {conf : Config} {missing : Option (ctx.arithmetic.Real .double)}
  {i : ℕ} {ts ts₁ : TemporalStatistics ctx} {h : History}

/-- The standard deviation at a place, with the values of the messages of its window. -/
structure Deviating (conf : Config) (missing : Option (ctx.arithmetic.Real .double)) (i : ℕ)
    (ts : TemporalStatistics ctx) (h : History) (op : Operation ctx.arithmetic) : Prop where
  place : Place (PointsCounted missing conf.opt.valueCountThreshold) i ts op
  kind : op.kind = .stddev
  precision : h.initial.precision ctx.toContext = .ok op.precision
  fits : op.Fits op.precision (h.initial.size / op.precision.size)
  /-- Each window begins with some means. -/
  advanced : ∃ μ : ℕ → ctx.arithmetic.Real op.precision,
    Advanced ctx.arithmetic op.precision (.of missing conf.opt.valueCountThreshold)
      (moments ctx.arithmetic (.of missing conf.opt.valueCountThreshold))
      (fun j => (μ j, ctx.arithmetic.ofLong 0)) (h.initial.size / op.precision.size)
      (h.inputs.map Message.payload) ts.window (op.mean.zip op.values)

theorem deviating_made (hi : conf.operations[i]? = some "stddev")
    (halone : PointsCounted missing conf.opt.valueCountThreshold → CountsAlone conf.operations i)
    {msg : Message} {cfg : StatisticsConfiguration ctx.arithmetic}
    (hmake : TemporalStatistics.make conf cfg msg = .ok ts) (reset : Bool) :
    ∃ op, Deviating conf missing i ts { initial := msg, reset } op := by
  obtain ⟨p, w, op, hp, hturn, hplace, -, hcount, hcounts, -⟩ := Place.made hi halone hmake
  obtain rfl := makeOperation_eq_make (k := .stddev) rfl Bool.false_ne_true hturn
  refine ⟨_, hplace, rfl, hp, Operation.fits_make _ .stddev p _,
    fun _ => ctx.arithmetic.ofLong 0, Advanced.start hcount hcounts fun j hj => ?_⟩
  exact List.getElem?_zip_eq_some.mpr
    ⟨List.getElem?_replicate.trans (if_pos hj), List.getElem?_replicate.trans (if_pos hj)⟩

section

variable {op : Operation ctx.arithmetic} (hdev : Deviating conf missing i ts h op)

include hdev

theorem Deviating.update (hA : ReadsValues ctx.arithmetic) {msg : Message}
    {cfg : StatisticsConfiguration ctx.arithmetic} (hcfg : ReadAs conf missing msg cfg)
    (hdata : (ts.updateData conf cfg msg).Returns ts₁) :
    ∃ op, Deviating conf missing i ts₁ { h with inputs := h.inputs ++ [msg] } op := by
  obtain ⟨w₁, w₂, op₁, hupdate, hplace, -, hcount₁, hcount₂, hcounts⟩ := hdev.place.updateData hdata
  obtain ⟨hcounts₁, hcounts₂⟩ := hcounts fun hpoints => hcfg.missing ▸ hpoints
  have hmode : UpdateMode.make conf.opt cfg = .of missing conf.opt.valueCountThreshold :=
    congrArg (UpdateMode.of · _) hcfg.missing
  obtain ⟨μ, hadvanced⟩ := hdev.advanced
  rw [← hmode] at hadvanced
  obtain ⟨mean, values, rfl, hnext⟩ := Operation.advanced_updateData_stddev hA hdev.fits hcount₁
    hcounts₁ hupdate hdev.kind hadvanced
  have hfits := (Operation.Fits.updateData hdev.fits (CountersFit.of_eq hadvanced.counts hcounts₁) hA
    hupdate).1
  rw [hmode] at hnext
  refine ⟨_, hplace, hdev.kind, hdev.precision, hfits, μ, ?_⟩
  rw [List.map_append]
  exact hnext.of_eq hcount₂ hcounts₂

theorem Deviating.next {msg : Message} {cfg : StatisticsConfiguration ctx.arithmetic}
    (hwindow : (ts.updateWindow cfg msg).Returns ts₁) (reset : Bool) :
    ∃ op, Deviating conf missing i ts₁ { h with inputs := [], reset } op := by
  obtain ⟨op₁, hop₁, hplace, hnext, -⟩ := hdev.place.updateWindow hwindow
  have hfits := hdev.fits.updateWindow hop₁
  have hno : ¬ op.kind.deaccumulated = true := by
    rw [hdev.kind]
    exact Bool.false_ne_true
  obtain rfl := Except.ok.inj ((if_neg hno).symm.trans hop₁)
  refine ⟨_, hplace, hdev.kind, hdev.precision, hfits,
    fun j => op.mean[j]?.getD (ctx.arithmetic.ofLong 0), ?_⟩
  rw [hnext]
  refine Advanced.start rfl rfl fun j hj => List.getElem?_zip_eq_some.mpr ⟨?_, ?_⟩
  · have hlt : j < op.mean.length := by
      rw [hdev.fits.mean, if_pos hdev.kind]
      exact hj
    simp only [List.getElem?_eq_getElem hlt, Option.getD_some]
  · have hlt : j < op.values.length := hdev.fits.values.symm ▸ hj
    rw [List.getElem?_map, List.getElem?_eq_getElem hlt, hdev.kind]
    rfl

theorem Deviating.emit {src dst : Peer} {out : List Message}
    (hemit : (ts.emitStatistics conf src dst).Returns (ts₁, out)) :
    ∃ op, Deviating conf missing i ts₁ (h.emission out) op := by
  obtain ⟨-, rfl, rfl⟩ | ⟨-, cfg, op₁, msg, -, hcompute, -, hplace, hsame, -⟩ :=
    hdev.place.emitStatistics hemit
  · exact ⟨op, hdev.place, hdev.kind, hdev.precision, hdev.fits, hdev.advanced⟩
  · simp only [Operation.compute, bind_eq_ok_iff] at hcompute
    obtain ⟨values, -, heq⟩ := hcompute
    have hno : ¬ op.kind.deaccumulated = true := by
      rw [hdev.kind]
      exact Bool.false_ne_true
    obtain rfl : op = op₁ := (if_neg hno).symm.trans (Prod.mk.inj (Except.ok.inj heq)).1
    exact ⟨op, hplace, hdev.kind, hdev.precision, hdev.fits, hsame ▸ hdev.advanced⟩

end

/-- In every state of a field, the accumulated values are the sums of the squared deviations of the
values of the window that are not missing, wherever those are numbered without a gap. -/
theorem deviations_exact {K : Type} [Field K] [CharZero K] (U : Unrounded ctx.arithmetic K)
    (hA : ReadsValues ctx.arithmetic) (hi : conf.operations[i]? = some "stddev")
    (halone : PointsCounted missing conf.opt.valueCountThreshold → CountsAlone conf.operations i)
    (hts : Recorded conf missing ts h) :
    ∃ op, ts.statistics[i]? = some op ∧ op.kind = .stddev ∧
      h.initial.precision ctx.toContext = .ok op.precision ∧
      op.values.length = h.initial.size / op.precision.size ∧ ∀ j < op.values.length,
        let xs := column ctx.arithmetic op.precision (h.inputs.map Message.payload) j
        Gapless missing conf.opt.valueCountThreshold xs → ∃ v, op.values[j]? = some v ∧
          U.value v = squaredDeviations ((presentValues missing xs).map U.value) := by
  obtain ⟨op, hdev⟩ := hts.invariant (I := fun ts h => ∃ op, Deviating conf missing i ts h op)
    { made := fun _ hmake => deviating_made hi halone hmake _
      update := fun ⟨_, hdev⟩ hcfg hdata => hdev.update hA hcfg hdata
      emit := fun ⟨_, hdev⟩ hemit => hdev.emit hemit
      next := fun ⟨_, hdev⟩ _ hwindow => hdev.next hwindow _ }
  refine ⟨op, hdev.place.operation, hdev.kind, hdev.precision, hdev.fits.values, fun j hj => ?_⟩
  intro xs hgapless
  obtain ⟨μ, hadvanced⟩ := hdev.advanced
  have hpoint := (hadvanced.point j (hdev.fits.values ▸ hj)).1
  rw [value_moments _ hgapless] at hpoint
  obtain ⟨-, hvalue⟩ := List.getElem?_zip_eq_some.mp hpoint
  refine ⟨_, hvalue, ?_⟩
  rw [(U.value_deviations _ _).2, U.ofLong, Int.cast_zero, zero_add]

/-- Deviations of days, of as many values as the threshold asks for. -/
def deviationsOf (threshold : Option ℤ) : Config :=
  { daily ["stddev"] with opt := { (daily ["stddev"]).opt with valueCountThreshold := threshold } }

/-- A value after a missing one does not replace the mean. -/
theorem gap_before_value_deviates :
    ∃ (ts : TemporalStatistics exactContext.toStatisticsContext) (h : History),
    Recorded (deviationsOf none)
      (some (exactArithmetic.ofBits 0x40C3878000000000)) ts h ∧
    ¬ ∃ op, ts.statistics[0]? = some op ∧ ∀ j < op.values.length, ∃ v, op.values[j]? = some v ∧
      exactUnrounded.value v = squaredDeviations ((presentValues
        (some (exactArithmetic.ofBits 0x40C3878000000000))
        (column exactArithmetic op.precision (h.inputs.map Message.payload) j)).map
          exactUnrounded.value) := by
  let run := record exactContext.toStatisticsContext (deviationsOf none) (hourlyField 0 missing9999 [5])
    [hourlyField 1 missing9999 [9999], hourlyField 2 missing9999 [3]]
  have hrun : run.isSome = true ∧ ∀ s ∈ run, s.1.statistics.map (fun op =>
        (op.precision, op.values.map exactUnrounded.value)) = [(.double, [9 / 2])] ∧
      squaredDeviations ((presentValues
        (some (exactArithmetic.ofBits 0x40C3878000000000))
        (column exactArithmetic .double (s.2.inputs.map Message.payload) 0)).map
          exactUnrounded.value) = 0 := by
    decide +kernel
  obtain ⟨⟨ts, h⟩, hs⟩ := Option.isSome_iff_exists.mp hrun.1
  -- the run keeps 9/2, and the deviations of the one value that is there add up to 0
  obtain ⟨hvalues, hinputs⟩ := hrun.2 (ts, h) hs
  refine ⟨ts, h, (recorded_of_record (fun msg hmsg => ?_) hs).1, fun hno => ?_⟩
  · simp only [List.mem_cons, List.not_mem_nil, or_false] at hmsg
    obtain rfl | rfl | rfl := hmsg <;> rfl
  · obtain ⟨op, hop, hpoints⟩ := hno
    have hat := congrArg (·[0]?) hvalues
    simp only [List.getElem?_map, hop, Option.map_some] at hat
    obtain ⟨hprecision, hlist⟩ := Prod.mk.inj (Option.some.inj hat)
    have hlength : (op.values.map exactUnrounded.value).length = 1 := by
      rw [hlist]
      rfl
    have hlt : 0 < op.values.length := (List.length_map _).symm.trans hlength ▸ Nat.zero_lt_one
    obtain ⟨v, hv, hvalue⟩ := hpoints 0 hlt
    have hfirst : (op.values.map exactUnrounded.value)[0]? = some (exactUnrounded.value v) :=
      List.getElem?_map.trans (congrArg (Option.map exactUnrounded.value) hv)
    rw [hlist] at hfirst
    rw [← Option.some.inj hfirst] at hvalue
    obtain ⟨kind, p, values, initValues, mean⟩ := op
    obtain rfl : p = .double := hprecision
    rw [hinputs] at hvalue
    exact absurd hvalue (by decide +kernel)

/-- Where values are counted, the missing ones do not matter. -/
theorem deviations_exact_gap : ∃ (ts : TemporalStatistics exactContext.toStatisticsContext) (h : History)
    (op : Operation exactContext.arithmetic), Recorded (deviationsOf (some 2))
      (some (exactArithmetic.ofBits 0x40C3878000000000)) ts h ∧ ts.statistics[0]? = some op ∧
    ∃ v, op.values[0]? = some v ∧ exactUnrounded.value v = squaredDeviations ((presentValues
      (some (exactArithmetic.ofBits 0x40C3878000000000))
      (column exactArithmetic op.precision (h.inputs.map Message.payload) 0)).map
        exactUnrounded.value) := by
  have hsome : (record exactContext.toStatisticsContext (deviationsOf (some 2))
      (hourlyField 0 missing9999 [5]) [hourlyField 1 missing9999 [9999], hourlyField 2 missing9999 [1],
        hourlyField 3 missing9999 [3]]).isSome = true := by decide +kernel
  obtain ⟨⟨ts, h⟩, hs⟩ := Option.isSome_iff_exists.mp hsome
  obtain ⟨hts, hinitial⟩ := recorded_of_record (fun msg hmsg => by
    simp only [List.mem_cons, List.not_mem_nil, or_false] at hmsg
    obtain rfl | rfl | rfl | rfl := hmsg <;> rfl) hs
  obtain ⟨op, hop, -, hprecision, hlength, hpoint⟩ := deviations_exact exactUnrounded
    exactArithmetic_readsValues rfl (fun _ => namedAlone_singleton "stddev") hts
  refine ⟨ts, h, op, hts, hop, hpoint 0 ?_ fun m _ hnone => ?_⟩
  · rw [hinitial] at hprecision hlength
    obtain ⟨kind, p, values, initValues, mean⟩ := op
    obtain rfl : PrecisionTag.double = p := Except.ok.inj hprecision
    have hone : (hourlyField 0 missing9999 [5]).size / PrecisionTag.double.size = 1 := by
      decide +kernel
    exact lt_of_lt_of_eq Nat.zero_lt_one (hlength.trans hone).symm
  · cases hnone

end Multio.StatisticsMtg2
