import Multio.Action.Statistics.FieldHistory
import Multio.Action.StatisticsMtg2.ExactContext
import Multio.Lib.SuccessiveDifferences

namespace Multio.Statistics
open Lib StatisticsMtg2 Exception
open StatisticsMtg2.Operation (zeros)
open Operation (scaled)

variable {ctx : StatisticsContext}

section

variable (ctx : StatisticsContext) (conf : Config)

def configurationOf (msg : Message) : Option (StatisticsConfiguration ctx.arithmetic) :=
  (StatisticsConfiguration.make ctx conf.opt msg.metadata msg.source).toOption

def restartsAfter (msg : Message) : Bool :=
  (configurationOf ctx conf msg).any fun cfg =>
    isBeginningOf ctx conf.opt.solverResetAccumulatedFields cfg.currentDateTime

def openingValues (p : PrecisionTag) (opening : Message) : List (ctx.arithmetic.Real p) :=
  if restartsAfter ctx conf opening then zeros (ctx.arithmetic.elements p opening.payload)
  else ctx.arithmetic.elements p opening.payload

def windowSeconds (inputs : List Message) : ℤ :=
  (inputs.getLast?.bind (configurationOf ctx conf)).elim 0 fun cfg =>
    inputs.length * cfg.stepFreq * cfg.timeStep

end

def perSecond (A : FloatArithmetic) (seconds : ℤ) : A.Real .double :=
  A.div (A.ofLong 1) (A.ofLong seconds)

namespace OperationKind

/-- What the operation makes of the last values of a window and those that it began with. -/
def windowValues (A : FloatArithmetic) (p : PrecisionTag) (seconds : ℤ) :
    OperationKind → Option (List (A.Real p) → List (A.Real p) → List (A.Real p))
  | .deAccumulate => some (List.zipWith A.sub)
  | .fixedWindowFluxAverage =>
    some (List.zipWith fun v1 v2 => scaled A (perSecond A seconds) (A.sub v1 v2))
  | .fluxAverage => some fun last _ => last.map (scaled A (perSecond A seconds))
  | _ => none

variable {A : FloatArithmetic} {p : PrecisionTag} {seconds : ℤ} {k : OperationKind}
  {f : List (A.Real p) → List (A.Real p) → List (A.Real p)}
  (hf : k.windowValues A p seconds = some f)

include hf

theorem usesCounters_of_windowValues : k.usesCounters = false := by
  cases k <;> first | (cases hf; done) | rfl

theorem updateValues_of_windowValues {op : Operation A} (hk : op.kind = k) (mode : UpdateMode A)
    (count : ℤ) (counts : List ℤ) (val : List (A.Real op.precision)) :
    op.updateValues mode count counts val = { op with values := val } := by
  subst hk
  obtain ⟨kind, p, values, initValues⟩ := op
  cases kind <;> first | (cases hf; done) | rfl

omit hf in
theorem windowValues_of_not_deaccumulated (hk : k.deaccumulated = false)
    (hf : k.windowValues A p seconds = some f) (last opening opening' : List (A.Real p)) :
    f last opening = f last opening' := by
  cases k <;> first | (cases hf; done) | (cases hk; done) | skip
  obtain rfl := Option.some.inj hf
  rfl

end OperationKind

theorem Operation.computeValues_of_windowValues {op : Operation ctx.arithmetic}
    {cfg : StatisticsConfiguration ctx.arithmetic} {w : OperationWindow}
    {f : List (ctx.arithmetic.Real op.precision) → List (ctx.arithmetic.Real op.precision) →
      List (ctx.arithmetic.Real op.precision)}
    (hf : op.kind.windowValues ctx.arithmetic op.precision
      (w.count * cfg.stepFreq * cfg.timeStep) = some f)
    (opt : StatisticsOptions) (hmissing : cfg.missingValue = none) :
    op.computeValues ctx opt cfg w = .ok (f op.values op.initValues) := by
  obtain ⟨kind, p, values, initValues⟩ := op
  unfold Operation.computeValues
  rw [hmissing]
  cases kind <;> first | (cases hf; done) | skip
  all_goals
    obtain rfl := Option.some.inj hf
    rfl

def History.opening (h : History) : Message := openingAfter Prod.fst h.initial h.emitted

/-- The windows of a history, each with the last message before it. -/
def History.windows (h : History) : List (Message × List Message × List Message) :=
  opened Prod.fst h.initial h.emitted

/-- For a window, the operation at a place has emitted what it makes of the last values and of
those of the opening. -/
structure Deaccumulated (conf : Config) (i : ℕ) (k : OperationKind) (p : PrecisionTag) (n : ℕ)
    (f : ℤ → List (ctx.arithmetic.Real p) → List (ctx.arithmetic.Real p) →
      List (ctx.arithmetic.Real p))
    (window : Message × List Message × List Message) (last msg : Message) : Prop where
  closed : window.2.1.getLast? = some last
  emitted : window.2.2[i]? = some msg
  length : (ctx.arithmetic.elements p last.payload).length = n
  openingLength : k.deaccumulated = true → (openingValues ctx conf p window.1).length = n
  payload : msg.payload = ctx.arithmetic.bytes p (f (windowSeconds ctx conf window.2.1)
    (ctx.arithmetic.elements p last.payload) (openingValues ctx conf p window.1))

/-- The operation at a place, with the last values of its window and those of the opening. -/
structure Deaccumulating (conf : Config) (i : ℕ) (k : OperationKind)
    (f : (p : PrecisionTag) → ℤ → List (ctx.arithmetic.Real p) → List (ctx.arithmetic.Real p) →
      List (ctx.arithmetic.Real p))
    (ts : TemporalStatistics ctx) (h : History) (op : Operation ctx.arithmetic) : Prop where
  place : Place False i ts op
  kind : op.kind = k
  precision : h.initial.precision ctx.toContext = .ok op.precision
  fits : op.Fits op.precision h.initial.size
  count : ts.window.count = h.inputs.length
  values : ∀ msg, h.inputs.getLast? = some msg →
    op.values = ctx.arithmetic.elements op.precision msg.payload
  initValues : k.deaccumulated = true →
    op.initValues = openingValues ctx conf op.precision h.opening
  emitted : ∀ window ∈ h.windows, ∃ last msg, Deaccumulated conf i k op.precision
    (h.initial.size / op.precision.size) (f op.precision) window last msg

section

variable {conf : Config} {ts ts₁ : TemporalStatistics ctx} {h : History} {i : ℕ} {opname : String}
  {k : OperationKind} {msg : Message} {cfg : StatisticsConfiguration ctx.arithmetic}
  {f : (p : PrecisionTag) → ℤ → List (ctx.arithmetic.Real p) → List (ctx.arithmetic.Real p) →
    List (ctx.arithmetic.Real p)}

theorem configurationOf_eq (hcfg : ReadAs conf none msg cfg) :
    configurationOf ctx conf msg = some cfg := by
  rw [configurationOf, hcfg.make]
  rfl

theorem restartsAfter_eq (hcfg : ReadAs conf none msg cfg) : restartsAfter ctx conf msg =
    isBeginningOf ctx conf.opt.solverResetAccumulatedFields cfg.currentDateTime := by
  rw [restartsAfter, configurationOf_eq hcfg]
  rfl

theorem Operation.restartFrom_eq {op op₁ : Operation ctx.arithmetic} {sz : ℕ}
    (hA : ReadsValues ctx.arithmetic) (hfits : op.Fits op.precision sz)
    (hdeacc : op.kind.deaccumulated = true) (hcfg : ReadAs conf none msg cfg)
    (h : op.restartFrom ctx conf.opt cfg msg.payload = .ok op₁) :
    op₁ = { op with
      initValues := openingValues ctx conf op.precision msg, values := zeros op.values } ∧
    (openingValues ctx conf op.precision msg).length = sz / op.precision.size := by
  obtain ⟨u, hsize, h⟩ := bind_eq_ok_iff.mp h
  have hlength : (ctx.arithmetic.elements op.precision msg.payload).length =
      sz / op.precision.size := by
    unfold checkSize at hsize
    split_ifs at hsize with heq
    rw [hA, ← heq, hfits.values]
  have hinit := hfits.initValues
  rw [if_pos hdeacc] at hinit
  rw [openingValues, restartsAfter_eq hcfg]
  split_ifs at h ⊢ with hrestarts
  · have hzeros : zeros op.initValues = zeros (ctx.arithmetic.elements op.precision msg.payload) := by
      unfold zeros
      rw [List.map_const', List.map_const', hinit, hlength]
    rw [← hzeros]
    exact ⟨(Except.ok.inj h).symm, (length_zeros _).trans hinit⟩
  · exact ⟨(Except.ok.inj h).symm, hlength⟩

variable (hA : ReadsValues ctx.arithmetic)
  (hf : ∀ p seconds, k.windowValues ctx.arithmetic p seconds = some (f p seconds))

include hA in
theorem deaccumulating_made (hinit : conf.opt.solverSendInitStep = true)
    (hi : conf.operations[i]? = some opname) (hk : OperationKind.ofName opname = .ok k)
    (hcfg : ReadAs conf none msg cfg) (hmake : TemporalStatistics.make conf cfg msg = .ok ts) :
    ∃ op, Deaccumulating conf i k f ts { initial := msg } op := by
  obtain ⟨p, op, hp, hturn, hplace, hcount, -⟩ := Place.made hi (fun hno : False => hno.elim) hmake
  obtain ⟨k', hk', hturn⟩ := bind_eq_ok_iff.mp hturn
  obtain rfl := Except.ok.inj (hk.symm.trans hk')
  rw [if_pos hinit] at hturn
  have hfits := Operation.fits_make ctx.arithmetic k p msg.payload.length
  have hnothing : ∀ window ∈ History.windows { initial := msg }, ∃ last out, Deaccumulated conf i k p
      (msg.size / p.size) (f p) window last out := fun _ hwindow => absurd hwindow List.not_mem_nil
  unfold Operation.initData at hturn
  by_cases hdeacc : k.deaccumulated = true
  · have hrestart := (if_pos hdeacc).symm.trans hturn
    obtain ⟨rfl, hlength⟩ := Operation.restartFrom_eq hA hfits hdeacc hcfg hrestart
    refine ⟨_, hplace, rfl, hp, ⟨rfl, ?_, ?_⟩, hcount, ?_, fun _ => rfl, hnothing⟩
    · exact (Operation.length_zeros _).trans hfits.values
    · exact hlength.trans (if_pos hdeacc).symm
    · exact fun _ hlast => absurd hlast (by simp)
  · obtain rfl := Except.ok.inj ((if_neg hdeacc).symm.trans hturn)
    refine ⟨_, hplace, rfl, hp, hfits, hcount, ?_, fun hyes => absurd hyes hdeacc, hnothing⟩
    exact fun _ hlast => absurd hlast (by simp)

variable {op : Operation ctx.arithmetic}

include hA hf in
theorem Deaccumulating.update (hdeacc : Deaccumulating conf i k f ts h op)
    (hdata : ts.updateData conf cfg msg.payload = .ok ts₁) :
    ∃ op, Deaccumulating conf i k f ts₁ { h with inputs := h.inputs ++ [msg] } op := by
  obtain ⟨w₁, w₂, op₁, hupdate, hplace, hcount₁, hcount₂, -⟩ := hdeacc.place.updateData hdata
  simp only [Operation.updateData, bind_eq_ok_iff] at hupdate
  obtain ⟨u, hsize, w, hw, heq⟩ := hupdate
  obtain ⟨rfl, rfl⟩ := Prod.mk.inj (Except.ok.inj heq)
  have hval : (ctx.arithmetic.elements op.precision msg.payload).length =
      h.initial.size / op.precision.size := by
    unfold Operation.checkSize at hsize
    split_ifs at hsize with hsame
    rw [hA, ← hsame, hdeacc.fits.values]
  have huses : op.kind.usesCounters = false := by
    rw [hdeacc.kind]
    exact OperationKind.usesCounters_of_windowValues (hf op.precision 0)
  obtain rfl : w₁ = w := by
    unfold Operation.updateCounts at hw
    rw [huses] at hw
    exact Except.ok.inj hw
  rw [OperationKind.updateValues_of_windowValues (hf op.precision 0) hdeacc.kind] at hplace
  refine ⟨_, hplace, hdeacc.kind, hdeacc.precision, ⟨rfl, hval, hdeacc.fits.initValues⟩, ?_, ?_,
    hdeacc.initValues, hdeacc.emitted⟩
  · rw [hcount₂, hcount₁, hdeacc.count, List.length_append, Nat.cast_add]
    rfl
  · intro last hlast
    rw [List.getLast?_concat] at hlast
    rw [Option.some.inj hlast]

include hf in
theorem Deaccumulating.emit (hdeacc : Deaccumulating conf i k f ts h op)
    (hcfg : ReadAs conf none msg cfg) (hlast : h.inputs.getLast? = some msg) {out : List Message}
    (hemit : ts.emit conf cfg msg = .ok out) :
    ∃ sent, Deaccumulated conf i k op.precision (h.initial.size / op.precision.size) (f op.precision)
      (h.opening, h.inputs, out) msg sent := by
  obtain ⟨sent, hat, hcompute⟩ := hdeacc.place.emit hemit
  simp only [Operation.compute, bind_eq_ok_iff] at hcompute
  obtain ⟨u, -, values, hvalues, hpayload⟩ := hcompute
  rw [Operation.computeValues_of_windowValues (hdeacc.kind ▸ hf op.precision _) _ hcfg.missing]
    at hvalues
  have hseconds : windowSeconds ctx conf h.inputs =
      ts.window.count * cfg.stepFreq * cfg.timeStep := by
    rw [windowSeconds, hlast, Option.bind_some, configurationOf_eq hcfg, hdeacc.count]
    rfl
  have hinit := hdeacc.fits.initValues
  rw [hdeacc.kind] at hinit
  refine ⟨sent, hlast, hat, ?_, fun hyes => ?_, ?_⟩
  · rw [← hdeacc.values msg hlast]
    exact hdeacc.fits.values
  · rw [← hdeacc.initValues hyes, hinit, if_pos hyes]
  · rw [← Except.ok.inj hpayload, ← Except.ok.inj hvalues, hseconds, hdeacc.values msg hlast]
    by_cases hyes : k.deaccumulated = true
    · rw [hdeacc.initValues hyes]
    · rw [OperationKind.windowValues_of_not_deaccumulated (Bool.eq_false_iff.mpr hyes)
        (hf op.precision _)]

include hA in
theorem Deaccumulating.next (hdeacc : Deaccumulating conf i k f ts h op)
    (hcfg : ReadAs conf none msg cfg) (hlast : h.inputs.getLast? = some msg) {out sent : _}
    (hsent : Deaccumulated conf i k op.precision (h.initial.size / op.precision.size)
      (f op.precision) (h.opening, h.inputs, out) msg sent)
    (hwindow : ts.updateWindow conf cfg msg.payload = .ok ts₁) :
    ∃ op, Deaccumulating conf i k f ts₁
      { h with emitted := h.emitted ++ [(h.inputs, out)], inputs := [] } op := by
  obtain ⟨op₁, hreset, hplace, hcount, -⟩ := hdeacc.place.updateWindow hwindow
  have hopening : History.opening { h with emitted := h.emitted ++ [(h.inputs, out)], inputs := [] } =
      msg := by
    rw [History.opening, openingAfter_concat, List.getLastD_eq_getLast?, hlast]
    rfl
  have hwindows : ∀ window ∈ History.windows
      { h with emitted := h.emitted ++ [(h.inputs, out)], inputs := [] },
      ∃ last sent, Deaccumulated conf i k op.precision (h.initial.size / op.precision.size)
        (f op.precision) window last sent := by
    intro window hmem
    rw [History.windows, opened_concat] at hmem
    obtain hbefore | hnow := List.mem_append.mp hmem
    · exact hdeacc.emitted window hbefore
    · obtain rfl := List.mem_singleton.mp hnow
      exact ⟨msg, sent, hsent⟩
  unfold Operation.updateWindow at hreset
  -- only these operations begin the next window with the last message of this one
  by_cases hyes : op.kind.deaccumulated = true
  · rw [if_pos hyes] at hreset
    obtain ⟨rfl, hlength⟩ := Operation.restartFrom_eq hA hdeacc.fits hyes hcfg hreset
    refine ⟨_, hplace, hdeacc.kind, hdeacc.precision, ⟨rfl, ?_, ?_⟩, hcount, ?_, fun _ => ?_, hwindows⟩
    · exact (Operation.length_zeros _).trans hdeacc.fits.values
    · exact hlength.trans (if_pos hyes).symm
    · exact fun _ hlast => absurd hlast (by simp)
    · rw [hopening]
  · rw [if_neg hyes] at hreset
    obtain rfl := Except.ok.inj hreset
    refine ⟨_, hplace, hdeacc.kind, hdeacc.precision,
      ⟨rfl, (List.length_map _).trans hdeacc.fits.values, hdeacc.fits.initValues⟩, hcount, ?_,
      fun hk => absurd (hdeacc.kind ▸ hk) hyes, hwindows⟩
    exact fun _ hlast => absurd hlast (by simp)

include hA hf in
theorem Recorded.deaccumulating (hinit : conf.opt.solverSendInitStep = true)
    (hi : conf.operations[i]? = some opname) (hk : OperationKind.ofName opname = .ok k)
    (hts : Recorded conf none ts h) : ∃ op, Deaccumulating conf i k f ts h op :=
  hts.invariant (I := fun ts h => ∃ op, Deaccumulating conf i k f ts h op)
    { made := fun hcfg hmake => deaccumulating_made hA hinit hi hk hcfg hmake
      update := fun hdeacc _ hdata => hdeacc.elim fun _ hdeacc => hdeacc.update hA hf hdata
      close := fun hdeacc hcfg hemit hwindow => hdeacc.elim fun _ hdeacc =>
        (hdeacc.emit hf hcfg List.getLast?_concat hemit).elim fun _ hsent =>
          hdeacc.next hA hcfg List.getLast?_concat hsent hwindow }

end

section

variable {K : Type} [Field K] (U : Unrounded ctx.arithmetic K) {conf : Config} {p : PrecisionTag}
  {i n j : ℕ}

def valueAt (p : PrecisionTag) (j : ℕ) (msg : Message) : K :=
  (ctx.arithmetic.elements p msg.payload)[j]?.elim 0 U.value

/-- The message at a place has this number for the point `j` of `n`. -/
def EmitsNumber (p : PrecisionTag) (i n j : ℕ) (out : List Message) (x : K) : Prop :=
  ∃ msg values v, out[i]? = some msg ∧ msg.payload = ctx.arithmetic.bytes p values ∧
    values.length = n ∧ values[j]? = some v ∧ U.value v = x

theorem valueAt_eq {msg : Message} {v : ctx.arithmetic.Real p}
    (h : (ctx.arithmetic.elements p msg.payload)[j]? = some v) : valueAt U p j msg = U.value v := by
  rw [valueAt, h]
  rfl

theorem reference_eq {opening : Message} {r : ctx.arithmetic.Real p}
    (h : (openingValues ctx conf p opening)[j]? = some r) :
    reference (restartsAfter ctx conf) (valueAt U p j) opening = U.value r := by
  rw [openingValues] at h
  rw [reference]
  split_ifs at h ⊢ with hrestarts
  · rw [zeros, List.getElem?_map] at h
    obtain ⟨v, -, rfl⟩ := Option.map_eq_some_iff.mp h
    exact ((U.ofLong 0).trans Int.cast_zero).symm
  · exact valueAt_eq U h

theorem value_scaled (seconds : ℤ) (v : ctx.arithmetic.Real p) :
    U.value (scaled ctx.arithmetic (perSecond ctx.arithmetic seconds) v) = U.value v / seconds := by
  rw [scaled, perSecond, U.ofDouble, U.mul, U.toDouble, U.div, U.ofLong, U.ofLong, Int.cast_one,
    mul_one_div]

variable {k : OperationKind} {window : Message × List Message × List Message} {last msg : Message}
  {ds : List K}
  {f : ℤ → List (ctx.arithmetic.Real p) → List (ctx.arithmetic.Real p) → List (ctx.arithmetic.Real p)}

/-- The increments of a window are the difference of its last value and what it began with. -/
theorem Deaccumulated.sum_eq (h : Deaccumulated conf i k p n f window last msg)
    (hsum : RunningSum (restartsAfter ctx conf) (valueAt U p j) window.1 window.2.1 ds)
    (hinside : ∀ msg ∈ window.2.1.dropLast, restartsAfter ctx conf msg = false) :
    ds.sum = valueAt U p j last -
      reference (restartsAfter ctx conf) (valueAt U p j) window.1 := by
  have hne : window.2.1 ≠ [] := by
    intro hnil
    have hclosed := h.closed
    rw [hnil] at hclosed
    cases hclosed
  have hlast : window.2.1.getLastD window.1 = last := by
    rw [List.getLastD_eq_getLast?, h.closed]
    rfl
  rw [hsum.sum_eq hne hinside, hlast]

theorem Deaccumulated.exists_last (h : Deaccumulated conf i k p n f window last msg) (hj : j < n) :
    ∃ v, (ctx.arithmetic.elements p last.payload)[j]? = some v :=
  ⟨_, List.getElem?_eq_getElem (h.length.symm ▸ hj)⟩

theorem Deaccumulated.exists_opening (h : Deaccumulated conf i k p n f window last msg)
    (hk : k.deaccumulated = true) (hj : j < n) :
    ∃ r, (openingValues ctx conf p window.1)[j]? = some r :=
  ⟨_, List.getElem?_eq_getElem ((h.openingLength hk).symm ▸ hj)⟩

theorem Deaccumulated.emitsNumber_zipWith
    {g : ℤ → ctx.arithmetic.Real p → ctx.arithmetic.Real p → ctx.arithmetic.Real p}
    (h : Deaccumulated conf i k p n (fun seconds => List.zipWith (g seconds)) window last msg)
    (hk : k.deaccumulated = true) (hj : j < n)
    (hsum : RunningSum (restartsAfter ctx conf) (valueAt U p j) window.1 window.2.1 ds)
    (hinside : ∀ msg ∈ window.2.1.dropLast, restartsAfter ctx conf msg = false) (number : K → K)
    (hg : ∀ v r, U.value (g (windowSeconds ctx conf window.2.1) v r) =
      number (U.value v - U.value r)) :
    EmitsNumber U p i n j window.2.2 (number ds.sum) := by
  obtain ⟨v, hv⟩ := h.exists_last hj
  obtain ⟨r, hr⟩ := h.exists_opening hk hj
  refine ⟨msg, _, g (windowSeconds ctx conf window.2.1) v r, h.emitted, h.payload, ?_, ?_, ?_⟩
  · rw [List.length_zipWith, h.length, h.openingLength hk, min_self]
  · rw [List.getElem?_zipWith, hv, hr]
  · rw [hg, h.sum_eq U hsum hinside, valueAt_eq U hv, reference_eq U hr]

theorem Deaccumulated.emitsNumber_fluxAverage
    (h : Deaccumulated conf i k p n (fun seconds last _ => last.map (scaled ctx.arithmetic
      (perSecond ctx.arithmetic seconds))) window last msg) (hj : j < n)
    (hsum : RunningSum (restartsAfter ctx conf) (valueAt U p j) window.1 window.2.1 ds)
    (hinside : ∀ msg ∈ window.2.1.dropLast, restartsAfter ctx conf msg = false)
    (hopening : restartsAfter ctx conf window.1 = true) :
    EmitsNumber U p i n j window.2.2 (ds.sum / windowSeconds ctx conf window.2.1) := by
  obtain ⟨v, hv⟩ := h.exists_last hj
  refine ⟨msg, _, scaled ctx.arithmetic (perSecond ctx.arithmetic
    (windowSeconds ctx conf window.2.1)) v, h.emitted, h.payload, ?_, ?_, ?_⟩
  · rw [List.length_map, h.length]
  · rw [List.getElem?_map, hv]
    rfl
  · -- nothing is carried over from the window before
    rw [value_scaled, h.sum_eq U hsum hinside, valueAt_eq U hv, reference, hopening, if_pos rfl,
      sub_zero]

variable (conf p n j) in
/-- What the three operations emit for a window with these increments. -/
structure EmitsIncrements (window : Message × List Message × List Message) (ds : List K) :
    Prop where
  deAccumulate : ∀ i, conf.operations[i]? = some "de-accumulate" →
    EmitsNumber U p i n j window.2.2 ds.sum
  fixedWindowFluxAverage : ∀ i, conf.operations[i]? = some "fixed-window-flux-average" →
    EmitsNumber U p i n j window.2.2 (ds.sum / windowSeconds ctx conf window.2.1)
  fluxAverage : restartsAfter ctx conf window.1 = true →
    ∀ i, conf.operations[i]? = some "flux-average" →
      EmitsNumber U p i n j window.2.2 (ds.sum / windowSeconds ctx conf window.2.1)

variable {ts : TemporalStatistics ctx} {h : History}

include U in
theorem emitsIncrements (hA : ReadsValues ctx.arithmetic)
    (hinit : conf.opt.solverSendInitStep = true) (hts : Recorded conf none ts h)
    (hp : h.initial.precision ctx.toContext = .ok p) (hj : j < h.initial.size / p.size)
    {window : Message × List Message × List Message} (hwindow : window ∈ h.windows)
    (hsum : RunningSum (restartsAfter ctx conf) (valueAt U p j) window.1 window.2.1 ds)
    (hinside : ∀ msg ∈ window.2.1.dropLast, restartsAfter ctx conf msg = false) :
    EmitsIncrements U conf p (h.initial.size / p.size) j window ds where
  deAccumulate i hi := by
    obtain ⟨op, hdeacc⟩ := hts.deaccumulating (k := .deAccumulate) hA (fun _ _ => rfl) hinit hi rfl
    obtain rfl := Except.ok.inj (hp.symm.trans hdeacc.precision)
    obtain ⟨last, msg, hemitted⟩ := hdeacc.emitted window hwindow
    exact hemitted.emitsNumber_zipWith U (g := fun _ => ctx.arithmetic.sub) rfl hj hsum hinside id
      U.sub
  fixedWindowFluxAverage i hi := by
    obtain ⟨op, hdeacc⟩ :=
      hts.deaccumulating (k := .fixedWindowFluxAverage) hA (fun _ _ => rfl) hinit hi rfl
    obtain rfl := Except.ok.inj (hp.symm.trans hdeacc.precision)
    obtain ⟨last, msg, hemitted⟩ := hdeacc.emitted window hwindow
    apply hemitted.emitsNumber_zipWith U rfl hj hsum hinside
      fun sum => sum / (windowSeconds ctx conf window.2.1 : K)
    intro v r
    rw [value_scaled, U.sub]
  fluxAverage hopening i hi := by
    obtain ⟨op, hdeacc⟩ := hts.deaccumulating (k := .fluxAverage) hA (fun _ _ => rfl) hinit hi rfl
    obtain rfl := Except.ok.inj (hp.symm.trans hdeacc.precision)
    obtain ⟨last, msg, hemitted⟩ := hdeacc.emitted window hwindow
    exact hemitted.emitsNumber_fluxAverage U hj hsum hinside hopening

end

theorem History.emitted_message {conf : Config} {ts : TemporalStatistics ctx} (h : History)
    {cfg : StatisticsConfiguration ctx.arithmetic} (hlater : ts.window.currPoint < cfg.curr)
    (hend : cfg.currentDateTime = ts.window.endPoint) (hinterval : 0 < cfg.stepFreq * cfg.timeStep)
    (msg : Message) (out : List Message) :
    (h.message conf ts cfg msg out).emitted = h.emitted ++ [(h.inputs ++ [msg], out)] := by
  have hnext : ts.window.endPoint < cfg.nextDateTime := by
    rw [← hend, StatisticsConfiguration.currentDateTime, StatisticsConfiguration.nextDateTime,
      add_mul, ← add_assoc]
    exact lt_add_of_pos_right _ hinterval
  have hclosed : ts.isEndOfWindow cfg = true := by
    unfold TemporalStatistics.isEndOfWindow OperationWindow.isWithin OperationWindow.leUpperBound
      OperationWindow.ltUpperBound
    cases ts.window.windowType with
    | forwardOffset => simp [hnext]
    | backwardOffset => simp [hnext.le]
  rw [History.message, if_neg fun hignored => hlater.ne' hignored.1, if_pos hclosed]

/-- The increments of a running sum come out of every window in which it does not start anew, and
a message at the end of its window closes it. -/
theorem deaccumulation_exact {K : Type} [Field K] (U : Unrounded ctx.arithmetic K)
    (hA : ReadsValues ctx.arithmetic) {conf : Config} {ts : TemporalStatistics ctx} {h : History}
    (hinit : conf.opt.solverSendInitStep = true) (hts : Recorded conf none ts h)
    {p : PrecisionTag} (hp : h.initial.precision ctx.toContext = .ok p)
    {j : ℕ} (hj : j < h.initial.size / p.size) {dss : List (List K)} {es : List K}
    (hlength : List.Forall₂ (fun window ds => window.1.length = ds.length) h.emitted dss)
    (hsum : RunningSum (restartsAfter ctx conf) (valueAt U p j) h.initial
      (h.emitted.flatMap Prod.fst ++ h.inputs) (dss.flatten ++ es))
    (hinside : ∀ window ∈ h.emitted, ∀ msg ∈ window.1.dropLast,
      restartsAfter ctx conf msg = false) :
    List.Forall₂ (EmitsIncrements U conf p (h.initial.size / p.size) j) h.windows dss ∧
      ∀ (msg : Message) (cfg : StatisticsConfiguration ctx.arithmetic) (out : List Message),
        ts.window.currPoint < cfg.curr → cfg.currentDateTime = ts.window.endPoint →
        0 < cfg.stepFreq * cfg.timeStep →
        (h.message conf ts cfg msg out).emitted = h.emitted ++ [(h.inputs ++ [msg], out)] := by
  refine ⟨?_, fun msg cfg out hlater hend hinterval =>
    h.emitted_message hlater hend hinterval msg out⟩
  have hwindows := (List.forall₂_and_left (p := (· ∈ h.windows)) _ _).mpr
    ⟨fun _ hwindow => hwindow, hsum.opened hlength⟩
  refine hwindows.imp fun window ds ⟨hwindow, hsum⟩ => ?_
  exact emitsIncrements U hA hinit hts hp hj hwindow hsum
    (hinside window.2 (mem_of_mem_opened hwindow))

def recordMessages (ctx : StatisticsContext) (conf : Config) :
    TemporalStatistics ctx × History → List Message → Option (TemporalStatistics ctx × History)
  | s, [] => some s
  | s, msg :: msgs => do
    let cfg ← configurationOf ctx conf msg
    if cfg.bitmapPresent then none
    else do
      let (ts, out) ← (s.1.process conf cfg msg).toOption
      recordMessages ctx conf (ts, s.2.message conf s.1 cfg msg out) msgs

def record (ctx : StatisticsContext) (conf : Config) (first : Message) (msgs : List Message) :
    Option (TemporalStatistics ctx × History) := do
  let cfg ← configurationOf ctx conf first
  if cfg.bitmapPresent then none
  else do
    let ts ← (TemporalStatistics.make conf cfg first).toOption
    recordMessages ctx conf (ts, { initial := first }) msgs

theorem readAs_of_configurationOf {conf : Config} {msg : Message}
    {cfg : StatisticsConfiguration ctx.arithmetic} (hcfg : configurationOf ctx conf msg = some cfg)
    (hmissing : ¬ cfg.bitmapPresent = true) : ReadAs conf none msg cfg :=
  ⟨eq_ok_of_toOption hcfg, Option.not_isSome_iff_eq_none.mp hmissing⟩

theorem Recorded.recordMessages {conf : Config} {ts : TemporalStatistics ctx} {h : History}
    {msgs : List Message} (hts : Recorded conf none ts h) {s : TemporalStatistics ctx × History}
    (hrun : Statistics.recordMessages ctx conf (ts, h) msgs = some s) :
    Recorded conf none s.1 s.2 := by
  induction msgs generalizing ts h with
  | nil =>
    obtain rfl := Option.some.inj hrun
    exact hts
  | cons msg msgs ih =>
    simp only [Statistics.recordMessages, Option.bind_eq_bind, Option.bind_eq_some_iff] at hrun
    obtain ⟨cfg, hcfg, hrun⟩ := hrun
    split_ifs at hrun with hmissing
    obtain ⟨⟨ts₁, out⟩, hprocess, hrest⟩ := Option.bind_eq_some_iff.mp hrun
    exact ih (hts.message (readAs_of_configurationOf hcfg hmissing) (eq_ok_of_toOption hprocess))
      hrest

theorem recorded_of_record {conf : Config} {first : Message} {msgs : List Message}
    {s : TemporalStatistics ctx × History} (hrun : record ctx conf first msgs = some s) :
    Recorded conf none s.1 s.2 := by
  simp only [record, Option.bind_eq_bind, Option.bind_eq_some_iff] at hrun
  obtain ⟨cfg, hcfg, hrun⟩ := hrun
  split_ifs at hrun with hmissing
  obtain ⟨ts, hmake, hrest⟩ := Option.bind_eq_some_iff.mp hrun
  exact (Recorded.made (readAs_of_configurationOf hcfg hmissing)
    (eq_ok_of_toOption hmake)).recordMessages hrest

def accumulatedHours : Config where
  opt := { solverSendInitStep := true, solverResetAccumulatedFields := .day }
  operations := ["de-accumulate", "fixed-window-flux-average", "flux-average"]
  outputFrequency := "2h"

def accumulatedMessage (step : ℤ) (x : ℚ) : Message :=
  { fieldMessage step with payload := exactArithmetic.bytes .double (exactValues [x]) }

def accumulatedUnrounded : Unrounded exactContext.arithmetic ℚ := exactUnrounded

theorem deaccumulation_exact_four_hours :
    ∃ (ts : TemporalStatistics exactContext) (h : History), Recorded accumulatedHours none ts h ∧
      List.Forall₂ (EmitsIncrements accumulatedUnrounded accumulatedHours .double 1 0) h.windows
        ([[1, 2], [4, 8]] : List (List ℚ)) := by
  -- the first window begins at midnight, after a last value of 5
  let run := record exactContext accumulatedHours (accumulatedMessage 0 5)
    [accumulatedMessage 1 1, accumulatedMessage 2 3, accumulatedMessage 3 7, accumulatedMessage 4 15]
  have hrun : run.isSome = true ∧ ∀ s ∈ run,
      s.2.initial.precision exactContext.toContext = .ok .double ∧
      s.2.initial.size / PrecisionTag.double.size = 1 ∧
      List.Forall₂ (fun window ds => window.1.length = ds.length) s.2.emitted
        ([[1, 2], [4, 8]] : List (List ℚ)) ∧
      RunningSum (restartsAfter exactContext accumulatedHours)
        (valueAt accumulatedUnrounded .double 0) s.2.initial
        (s.2.emitted.flatMap Prod.fst ++ s.2.inputs)
        (([[1, 2], [4, 8]] : List (List ℚ)).flatten ++ []) ∧
      ∀ window ∈ s.2.emitted, ∀ msg ∈ window.1.dropLast,
        restartsAfter exactContext accumulatedHours msg = false := by decide +kernel
  obtain ⟨⟨ts, h⟩, hs⟩ := Option.isSome_iff_exists.mp hrun.1
  obtain ⟨hprecision, hsize, hlength, hsum, hinside⟩ := hrun.2 (ts, h) hs
  have hts := recorded_of_record hs
  have hj : 0 < h.initial.size / PrecisionTag.double.size := by
    rw [hsize]
    exact Nat.zero_lt_one
  have hexact := deaccumulation_exact accumulatedUnrounded exactArithmetic_readsValues rfl hts
    hprecision hj hlength hsum hinside
  rw [hsize] at hexact
  exact ⟨ts, h, hts, hexact.1⟩

end Multio.Statistics
