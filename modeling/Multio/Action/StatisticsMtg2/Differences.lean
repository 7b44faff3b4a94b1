import Multio.Action.StatisticsMtg2.ExactContext
import Multio.Action.StatisticsMtg2.FieldHistory
import Multio.Action.StatisticsMtg2.OperationPlace
import Multio.Action.StatisticsMtg2.PointValues
import Multio.Lib.SuccessiveDifferences

namespace Multio.StatisticsMtg2
open Lib Exception

/-- How the operation compares a value with the one of the window before. -/
def OperationKind.comparison (A : FloatArithmetic) (p : PrecisionTag) :
    OperationKind → Option (A.Real p → A.Real p → A.Real p)
  | .difference => some A.sub
  | .inverseDifference => some fun v1 v2 => A.sub v2 v1
  | _ => none

def comparedUnless {A : FloatArithmetic} {p : PrecisionTag} (missing : Option (A.Real .double))
    (f : A.Real p → A.Real p → A.Real p) : A.Real p → A.Real p → A.Real p :=
  match missing with
  | none => f
  | some m => unlessMissing A m f

namespace History

variable (A : FloatArithmetic) (p : PrecisionTag) (h : History)

def initialValues : List (A.Real p) := A.elements p h.initial.payload

/-- The values of the last messages of the windows that were emitted. -/
def lastInputs : List (List (A.Real p)) :=
  (h.emitted.map Prod.fst).filterMap fun inputs =>
    inputs.getLast?.map fun msg => A.elements p msg.payload

def payloads (i : ℕ) : List (List UInt8) :=
  h.emitted.filterMap fun window => window.2[i]?.map Message.payload

variable {A p h} {i : ℕ} {out : List Message}

theorem lastInputs_emission_of_nil (hnil : h.inputs = []) (out : List Message) :
    (h.emission out).lastInputs A p = h.lastInputs A p := by
  unfold lastInputs emission
  rw [List.map_append, List.filterMap_append, hnil]
  exact List.append_nil _

theorem lastInputs_emission {last : Message} (hlast : h.inputs.getLast? = some last)
    (out : List Message) :
    (h.emission out).lastInputs A p = h.lastInputs A p ++ [A.elements p last.payload] := by
  unfold lastInputs emission
  rw [List.map_append, List.filterMap_append, List.map_singleton, List.filterMap_cons, hlast]
  rfl

theorem payloads_emission_of_none (hout : out[i]? = none) :
    (h.emission out).payloads i = h.payloads i := by
  unfold payloads emission
  rw [List.filterMap_append, List.filterMap_cons, hout]
  exact List.append_nil _

theorem payloads_emission {msg : Message} (hout : out[i]? = some msg) :
    (h.emission out).payloads i = h.payloads i ++ [msg.payload] := by
  unfold payloads emission
  rw [List.filterMap_append, List.filterMap_cons, hout]
  rfl

end History

variable {ctx : StatisticsContext} {conf : Config} {missing : Option (ctx.arithmetic.Real .double)}
  {i : ℕ} {k : OperationKind} {ts ts₁ : TemporalStatistics ctx} {h : History}
  {f : (p : PrecisionTag) → ctx.arithmetic.Real p → ctx.arithmetic.Real p → ctx.arithmetic.Real p}

/-- The operation at a place, with the values of the last message and those to compare them with. -/
structure Differencing (conf : Config) (missing : Option (ctx.arithmetic.Real .double)) (i : ℕ)
    (k : OperationKind)
    (f : (p : PrecisionTag) → ctx.arithmetic.Real p → ctx.arithmetic.Real p → ctx.arithmetic.Real p)
    (ts : TemporalStatistics ctx) (h : History) (op : Operation ctx.arithmetic) : Prop where
  place : Place False i ts op
  kind : op.kind = k
  precision : h.initial.precision ctx.toContext = .ok op.precision
  fits : op.Fits op.precision (h.initial.size / op.precision.size)
  metadata : readMissingValue ctx ts.metadata = .ok missing
  count : ts.window.count = h.inputs.length
  values : ∀ msg, h.inputs.getLast? = some msg →
    op.values = ctx.arithmetic.elements op.precision msg.payload
  lengths : ∀ vs ∈ h.lastInputs ctx.arithmetic op.precision,
    vs.length = h.initial.size / op.precision.size
  initValues : h.reset = false → op.initValues =
    (h.lastInputs ctx.arithmetic op.precision).getLastD
      (h.initialValues ctx.arithmetic op.precision)
  payloads : h.reset = false → h.payloads i =
    (successive (List.zipWith (comparedUnless missing (f op.precision)))
      (h.initialValues ctx.arithmetic op.precision)
      (h.lastInputs ctx.arithmetic op.precision)).map (ctx.arithmetic.bytes op.precision)

theorem OperationKind.deaccumulated_of_comparison {A : FloatArithmetic} {p : PrecisionTag}
    {g : A.Real p → A.Real p → A.Real p} (hf : k.comparison A p = some g) :
    k.deaccumulated = true ∧ k.usesCounters = false := by
  cases k <;> first | (cases hf; done) | exact ⟨rfl, rfl⟩

theorem updateValues_of_comparison {A : FloatArithmetic} {op : Operation A}
    {g : A.Real op.precision → A.Real op.precision → A.Real op.precision}
    (hf : op.kind.comparison A op.precision = some g) (mode : UpdateMode A) (count : ℤ)
    (counts : List ℤ) (val : List (A.Real op.precision)) :
    op.updateValues mode count counts val = { op with values := val } := by
  obtain ⟨kind, p, values, initValues, mean⟩ := op
  cases kind <;> first | (cases hf; done) | rfl

theorem computeValues_of_comparison {op : Operation ctx.arithmetic}
    {g : ctx.arithmetic.Real op.precision → ctx.arithmetic.Real op.precision →
      ctx.arithmetic.Real op.precision} (hf : op.kind.comparison ctx.arithmetic op.precision = some g)
    (opt : StatisticsOptions) (cfg : StatisticsConfiguration ctx.arithmetic) (w : OperationWindow) :
    op.computeValues ctx opt cfg w =
      .ok (List.zipWith (comparedUnless cfg.missingValue g) op.values op.initValues) := by
  unfold Operation.computeValues comparedUnless
  obtain ⟨kind, p, values, initValues, mean⟩ := op
  cases kind <;> first | (cases hf; done) | skip
  all_goals
    obtain rfl := Option.some.inj hf
    cases cfg.missingValue <;> rfl

/-- What an initial condition leaves, unless the solver resets the field. -/
theorem Operation.initValues_of_initData {cfg : StatisticsConfiguration ctx.arithmetic}
    {payload : List UInt8} {w : OperationWindow} {op op₁ : Operation ctx.arithmetic}
    (hdeacc : op.kind.deaccumulated = true) (h : op.initData ctx cfg payload w = .ok op₁)
    (hreset : solverResets ctx cfg w = false) :
    ∃ values, op₁ = { op with initValues := ctx.arithmetic.elements op.precision payload, values } := by
  simp only [initData, hdeacc, if_true, bind_eq_ok_iff] at h
  obtain ⟨u, -, reset, hr, h⟩ := h
  cases reset with
  | true =>
    unfold solverResets at hreset
    rw [hr] at hreset
    exact absurd hreset (by decide)
  | false => exact ⟨_, (Except.ok.inj h).symm⟩

/-- Where a window begins, the values to compare with stay, unless the solver resets the field. -/
theorem Operation.initValues_of_updateWindow {cfg : StatisticsConfiguration ctx.arithmetic} {sz : ℕ}
    {w : OperationWindow} {op op₁ : Operation ctx.arithmetic} (hdeacc : op.kind.deaccumulated = true)
    (h : op.updateWindow ctx cfg sz w = .ok op₁) : ∃ initValues values,
      op₁ = { op with initValues, values } ∧
      (solverResets ctx cfg w = false → initValues = op.initValues) := by
  simp only [updateWindow, hdeacc, if_true, bind_eq_ok_iff] at h
  obtain ⟨u, -, reset, hr, h⟩ := h
  cases reset with
  | true =>
    refine ⟨_, _, (Except.ok.inj h).symm, fun hreset => ?_⟩
    unfold solverResets at hreset
    rw [hr] at hreset
    exact absurd hreset (by decide)
  | false => exact ⟨_, _, (Except.ok.inj h).symm, fun _ => rfl⟩

section

variable {opname : String} (hA : ReadsValues ctx.arithmetic)
  (hf : ∀ p, k.comparison ctx.arithmetic p = some (f p))

include hf

include hA in
theorem differencing_made (hi : conf.operations[i]? = some opname)
    (hk : OperationKind.ofName opname = .ok k) {msg : Message}
    {cfg : StatisticsConfiguration ctx.arithmetic}
    (hmissing : readMissingValue ctx msg.metadata = .ok missing)
    (hmake : TemporalStatistics.make conf cfg msg = .ok ts) :
    ∃ op, Differencing conf missing i k f ts
      { initial := msg,
        reset := conf.opt.initialConditionPresent && solverResets ctx cfg ts.window } op := by
  obtain ⟨p, w, op, hp, hturn, hplace, hmetadata, hcount, -, rfl⟩ :=
    Place.made hi (fun hno : False => hno.elim) hmake
  have hdeacc := (OperationKind.deaccumulated_of_comparison (hf p)).1
  have hfits := TemporalStatistics.makeOperation_fits hA hturn
  have hkind : op.kind = k := Except.ok.inj ((makeOperation_kind hturn).symm.trans hk)
  have hvalues : (conf.opt.initialConditionPresent && solverResets ctx cfg ts.window) = false →
      op.initValues = ctx.arithmetic.elements op.precision msg.payload := fun hreset => by
    simp only [makeOperation, bind_eq_ok_iff] at hturn
    obtain ⟨k', hk', hturn⟩ := hturn
    obtain rfl := Except.ok.inj (hk.symm.trans hk')
    split_ifs at hturn with hpresent hneeded
    · rw [hpresent, Bool.true_and] at hreset
      obtain ⟨values, rfl⟩ := Operation.initValues_of_initData hdeacc hturn hreset
      rfl
    · exact absurd hdeacc hneeded
  obtain rfl := hfits.precision
  refine ⟨op, hplace, hkind, hp, hfits, ?_, hcount, fun _ h => ?_, ?_, hvalues, fun _ => rfl⟩
  · rw [hmetadata]
    exact hmissing
  · cases h
  · exact fun _ h => absurd h List.not_mem_nil

variable {op : Operation ctx.arithmetic} (hdiff : Differencing conf missing i k f ts h op)

include hdiff

include hA in
theorem Differencing.update {msg : Message} {cfg : StatisticsConfiguration ctx.arithmetic}
    (hdata : (ts.updateData conf cfg msg).Returns ts₁) :
    ∃ op, Differencing conf missing i k f ts₁ { h with inputs := h.inputs ++ [msg] } op := by
  obtain ⟨w₁, w₂, op₁, hupdate, hplace, hmetadata, hcount₁, hcount₂, -⟩ :=
    hdiff.place.updateData hdata
  obtain ⟨hwindow, -⟩ := Operation.updateData_window hupdate
  simp only [Operation.updateData, bind_eq_ok_iff] at hupdate
  obtain ⟨u, hsize, w, hw, heq⟩ := hupdate
  obtain ⟨rfl, rfl⟩ := Prod.mk.inj (Except.ok.inj heq)
  have hval : (ctx.arithmetic.elements op.precision msg.payload).length =
      h.initial.size / op.precision.size := by
    rw [hA]
    exact hdiff.fits.checkSize_eq_ok_iff.mp hsize
  obtain ⟨hdeacc, huses⟩ := OperationKind.deaccumulated_of_comparison (hf op.precision)
  rw [← hdiff.kind] at hdeacc huses
  have huncounted : ∀ m, UpdateMode.make conf.opt cfg = .withMissingAndCounters m →
      op.kind.usesCounters = true → w.counts.length = h.initial.size / op.precision.size :=
    fun _ _ hno => absurd hno (by rw [huses]; exact Bool.false_ne_true)
  have hfits := hdiff.fits.updateValues (UpdateMode.make conf.opt cfg) w.count hval huncounted
  have hvalues : op.updateValues (UpdateMode.make conf.opt cfg) w.count w.counts
      (ctx.arithmetic.elements op.precision msg.payload) =
      { op with values := ctx.arithmetic.elements op.precision msg.payload } :=
    updateValues_of_comparison (hdiff.kind ▸ hf op.precision) _ _ _ _
  rw [hvalues] at hplace hfits
  refine ⟨_, hplace, hdiff.kind, hdiff.precision, hfits, hmetadata ▸ hdiff.metadata, ?_, ?_,
    hdiff.lengths, hdiff.initValues, hdiff.payloads⟩
  · have hcount : w.count = w₁.count := by rw [hwindow]
    rw [hcount₂, hcount, hcount₁, hdiff.count, List.length_append, Nat.cast_add]
    rfl
  · intro last hlast
    rw [List.getLast?_concat] at hlast
    rw [Option.some.inj hlast]

theorem Differencing.next {msg : Message} {cfg : StatisticsConfiguration ctx.arithmetic}
    (hwindow : (ts.updateWindow cfg msg).Returns ts₁) :
    ∃ op, Differencing conf missing i k f ts₁
      { h with inputs := [], reset := h.reset || solverResets ctx cfg ts.nextWindow } op := by
  obtain ⟨op₁, hop₁, hplace, hnext, hmetadata⟩ := hdiff.place.updateWindow hwindow
  have hdeacc : op.kind.deaccumulated = true := by
    rw [hdiff.kind]
    exact (OperationKind.deaccumulated_of_comparison (hf op.precision)).1
  have hfits := hdiff.fits.updateWindow hop₁
  obtain ⟨initValues, values, rfl, hsame⟩ := Operation.initValues_of_updateWindow hdeacc hop₁
  refine ⟨_, hplace, hdiff.kind, hdiff.precision, hfits, hmetadata ▸ hdiff.metadata, ?_, fun _ h => ?_,
    hdiff.lengths, fun hreset => ?_, fun hreset => ?_⟩
  · rw [hnext]
    rfl
  · cases h
  · obtain ⟨hbefore, hnow⟩ := Bool.or_eq_false_iff.mp hreset
    exact (hsame hnow).trans (hdiff.initValues hbefore)
  · exact hdiff.payloads (Bool.or_eq_false_iff.mp hreset).1

theorem Differencing.emit {src dst : Peer} {out : List Message}
    (hemit : (ts.emitStatistics conf src dst).Returns (ts₁, out)) :
    ∃ op, Differencing conf missing i k f ts₁ (h.emission out) op := by
  obtain ⟨hcount, rfl, rfl⟩ | ⟨hcount, cfg, op₁, msg, hcfg, hcompute, hat, hplace, hsame, hmetadata⟩ :=
    hdiff.place.emitStatistics hemit
  · have hnil : h.inputs = [] := by
      have hlength := hdiff.count
      rw [hcount] at hlength
      exact List.length_eq_zero_iff.mp (Nat.cast_eq_zero.mp hlength.symm)
    have hlast : (h.emission []).lastInputs ctx.arithmetic op.precision =
        h.lastInputs ctx.arithmetic op.precision := History.lastInputs_emission_of_nil hnil []
    have hpayloads : (h.emission []).payloads i = h.payloads i :=
      History.payloads_emission_of_none List.getElem?_nil
    refine ⟨op, hdiff.place, hdiff.kind, hdiff.precision, hdiff.fits, hdiff.metadata, hdiff.count,
      hdiff.values, hlast ▸ hdiff.lengths, hlast ▸ hdiff.initValues, ?_⟩
    rw [hlast, hpayloads]
    exact hdiff.payloads
  · have hne : h.inputs ≠ [] := fun hnil => by
      have hlength := hdiff.count
      rw [hnil] at hlength
      exact hcount hlength
    have hlast := List.getLast?_eq_some_getLast hne
    have hvalues := hdiff.values _ hlast
    have hdeacc : op.kind.deaccumulated = true := by
      rw [hdiff.kind]
      exact (OperationKind.deaccumulated_of_comparison (hf op.precision)).1
    have hfits := hdiff.fits.compute hcompute
    simp only [Operation.compute, bind_eq_ok_iff] at hcompute
    obtain ⟨values, hcomputed, heq⟩ := hcompute
    obtain ⟨hop₁, hpayload⟩ := Prod.mk.inj (Except.ok.inj heq)
    obtain rfl : { op with initValues := op.values } = op₁ := (if_pos hdeacc).symm.trans hop₁
    rw [computeValues_of_comparison (hdiff.kind ▸ hf op.precision)] at hcomputed
    have hmissing : cfg.missingValue = missing :=
      Except.ok.inj ((StatisticsConfiguration.readMissingValue_make hcfg).symm.trans hdiff.metadata)
    -- the last message is what the next one is compared with
    have hinputs : (h.emission out).lastInputs ctx.arithmetic op.precision =
        h.lastInputs ctx.arithmetic op.precision ++ [op.values] :=
      hvalues ▸ History.lastInputs_emission hlast out
    have hpayloads : (h.emission out).payloads i = h.payloads i ++ [msg.payload] :=
      History.payloads_emission hat
    refine ⟨_, hplace, hdiff.kind, hdiff.precision, hfits, hmetadata ▸ hdiff.metadata,
      hsame ▸ hdiff.count, hdiff.values, ?_, fun hreset => ?_, fun hreset => ?_⟩
    · rw [hinputs]
      exact List.forall_mem_append.mpr ⟨hdiff.lengths, List.forall_mem_singleton.mpr hdiff.fits.values⟩
    · rw [hinputs, List.getLastD_concat]
    · rw [hinputs, hpayloads, successive_concat, List.map_append, List.map_singleton,
        hdiff.payloads hreset, ← hpayload, ← Except.ok.inj hcomputed, hmissing, hdiff.initValues hreset]
      rfl

omit hdiff in
include hA in
theorem RecordedBy.differencing (hi : conf.operations[i]? = some opname)
    (hk : OperationKind.ofName opname = .ok k) (hts : RecordedBy conf (Read conf) ts h)
    (hmissing : readMissingValue ctx h.initial.metadata = .ok missing) :
    ∃ op, Differencing conf missing i k f ts h op :=
  hts.invariant (I := fun ts h => readMissingValue ctx h.initial.metadata = .ok missing →
      ∃ op, Differencing conf missing i k f ts h op)
    { made := fun _ hmake hmissing => differencing_made hA hf hi hk hmissing hmake
      update := fun hdiff _ hdata hmissing =>
        (hdiff hmissing).elim fun _ hdiff => hdiff.update hA hf hdata
      emit := fun hdiff hemit hmissing => (hdiff hmissing).elim fun _ hdiff => hdiff.emit hf hemit
      next := fun hdiff _ hwindow hmissing =>
        (hdiff hmissing).elim fun _ hdiff => hdiff.next hf hwindow }
    hmissing

end

/-- The operation at a place has emitted these values for the point `j` of `n`. -/
def History.EmitsAt (A : FloatArithmetic) (p : PrecisionTag) (h : History) (i n j : ℕ)
    (ds : List (A.Real p)) : Prop :=
  ∃ vss : List (List (A.Real p)), h.payloads i = vss.map (A.bytes p) ∧
    (∀ vs ∈ vss, vs.length = n) ∧ vss.map (·[j]?) = ds.map some

def NoneMissing {A : FloatArithmetic} {p : PrecisionTag} (missing : Option (A.Real .double))
    (v : A.Real p) (xs : List (A.Real p)) : Prop :=
  ∀ m, missing = some m → ∀ x ∈ v :: xs, isMissing A m x = false

theorem comparedUnless_eq {A : FloatArithmetic} {p : PrecisionTag} {missing : Option (A.Real .double)}
    {g : A.Real p → A.Real p → A.Real p} {x v : A.Real p}
    (hx : ∀ m, missing = some m → isMissing A m x = false)
    (hv : ∀ m, missing = some m → isMissing A m v = false) :
    comparedUnless missing g x v = g x v := by
  cases missing with
  | none => rfl
  | some m =>
    unfold comparedUnless unlessMissing
    simp only [hx m rfl, hv m rfl, Bool.or_self, Bool.false_eq_true, if_false]

/-- Where one of the two values that are compared is missing, the missing value is emitted. -/
def MissingEmitted {A : FloatArithmetic} {p : PrecisionTag} (m : A.Real .double) (v : A.Real p)
    (xs ds : List (A.Real p)) : Prop :=
  ∀ (k : ℕ) (x y : A.Real p), (v :: xs)[k]? = some y → xs[k]? = some x →
    (isMissing A m x || isMissing A m y) = true → ds[k]? = some (A.ofDouble m)

theorem missingEmitted_successive {A : FloatArithmetic} {p : PrecisionTag} (m : A.Real .double)
    (g : A.Real p → A.Real p → A.Real p) (v : A.Real p) (xs : List (A.Real p)) :
    MissingEmitted m v xs (successive (comparedUnless (some m) g) v xs) := by
  intro k x y hy hx hany
  rw [getElem?_successive hy hx, comparedUnless, unlessMissing, if_pos hany]

theorem Differencing.emitsAt {op : Operation ctx.arithmetic} (hA : ReadsValues ctx.arithmetic)
    (hdiff : Differencing conf missing i k f ts h op) (hreset : h.reset = false) {p : PrecisionTag}
    (hp : h.initial.precision ctx.toContext = .ok p) {v : ctx.arithmetic.Real p}
    {xs : List (ctx.arithmetic.Real p)} {j : ℕ}
    (hv : (h.initialValues ctx.arithmetic p)[j]? = some v)
    (hxs : (h.lastInputs ctx.arithmetic p).map (·[j]?) = xs.map some) :
    h.EmitsAt ctx.arithmetic p i (h.initial.size / p.size) j
      (successive (comparedUnless missing (f p)) v xs) := by
  obtain rfl := Except.ok.inj (hp.symm.trans hdiff.precision)
  refine ⟨_, hdiff.payloads hreset, length_of_mem_successive (hA _ _) hdiff.lengths, ?_⟩
  exact successive_getElem? hv hxs

theorem successive_noneMissing {A : FloatArithmetic} {p : PrecisionTag}
    {missing : Option (A.Real .double)} {v : A.Real p} {xs : List (A.Real p)}
    (hpresent : NoneMissing missing v xs) (g : A.Real p → A.Real p → A.Real p) :
    successive (comparedUnless missing g) v xs = successive g v xs := by
  have hgood : ∀ x ∈ v :: xs, ∀ m, missing = some m → isMissing A m x = false :=
    fun x hx m hm => hpresent m hm x hx
  rw [List.forall_mem_cons] at hgood
  apply @successive_congr _ _ _ _ (fun x => ∀ m, missing = some m → isMissing A m x = false)
  · intro x v hx hv
    exact comparedUnless_eq hx hv
  · exact hgood.1
  · exact hgood.2

structure SameInputs (h h' : History) : Prop where
  initial : h'.initial = h.initial
  windows : h'.emitted.map Prod.fst = h.emitted.map Prod.fst

theorem SameInputs.initialValues {h' : History} (hsame : SameInputs h h') (A : FloatArithmetic)
    (p : PrecisionTag) : h'.initialValues A p = h.initialValues A p := by
  unfold History.initialValues
  rw [hsame.initial]

theorem SameInputs.lastInputs {h' : History} (hsame : SameInputs h h') (A : FloatArithmetic)
    (p : PrecisionTag) : h'.lastInputs A p = h.lastInputs A p := by
  unfold History.lastInputs
  rw [hsame.windows]

/-- Every point has an initial value and as many last inputs as windows were emitted. -/
theorem Differencing.exists_inputs {op : Operation ctx.arithmetic} (hA : ReadsValues ctx.arithmetic)
    (hdiff : Differencing conf missing i k f ts h op) {p : PrecisionTag}
    (hp : h.initial.precision ctx.toContext = .ok p) {j : ℕ} (hj : j < h.initial.size / p.size) :
    ∃ (v : ctx.arithmetic.Real p) (xs : List (ctx.arithmetic.Real p)),
      (h.initialValues ctx.arithmetic p)[j]? = some v ∧
      (h.lastInputs ctx.arithmetic p).map (·[j]?) = xs.map some := by
  obtain rfl := Except.ok.inj (hp.symm.trans hdiff.precision)
  have hlt : j < (h.initialValues ctx.arithmetic op.precision).length := by
    unfold History.initialValues
    rw [hA]
    exact hj
  obtain ⟨xs, hxs⟩ := exists_map_getElem? fun vs hvs => (hdiff.lengths vs hvs).symm ▸ hj
  exact ⟨_, xs, List.getElem?_eq_getElem hlt, hxs⟩

/-- At each point where nothing that is compared is missing, the emitted differences are those of
the successive last inputs; if they are not rounded, they add up to the difference of the ends, and
the inverse differences are their negations. Both emit the missing value where one is missing. -/
theorem differences_telescope (hA : ReadsValues ctx.arithmetic)
    (hi : conf.operations[i]? = some "difference") (hts : RecordedBy conf (Read conf) ts h)
    (hmissing : readMissingValue ctx h.initial.metadata = .ok missing) (hreset : h.reset = false)
    {p : PrecisionTag} (hp : h.initial.precision ctx.toContext = .ok p)
    {j : ℕ} (hj : j < h.initial.size / p.size) :
    ∃ v xs, (h.initialValues ctx.arithmetic p)[j]? = some v ∧
      (h.lastInputs ctx.arithmetic p).map (·[j]?) = xs.map some ∧
      (NoneMissing missing v xs →
        h.EmitsAt ctx.arithmetic p i (h.initial.size / p.size) j
          (successive ctx.arithmetic.sub v xs) ∧
        (∀ {K : Type} [Field K] (U : Unrounded ctx.arithmetic K),
          ((successive ctx.arithmetic.sub v xs).map U.value).sum =
            U.value (xs.getLastD v) - U.value v) ∧
        ∀ {conf' : Config} {i' : ℕ} {ts' : TemporalStatistics ctx} {h' : History},
          conf'.operations[i']? = some "inverse-difference" → RecordedBy conf' (Read conf') ts' h' →
          SameInputs h h' → h'.reset = false →
          ∃ ds, h'.EmitsAt ctx.arithmetic p i' (h.initial.size / p.size) j ds ∧
            ∀ {K : Type} [Field K] (U : Unrounded ctx.arithmetic K),
              ds.map U.value = (successive ctx.arithmetic.sub v xs).map fun d => -U.value d) ∧
      ∀ m, missing = some m →
        (∃ ds, h.EmitsAt ctx.arithmetic p i (h.initial.size / p.size) j ds ∧
          MissingEmitted m v xs ds) ∧
        ∀ {conf' : Config} {i' : ℕ} {ts' : TemporalStatistics ctx} {h' : History},
          conf'.operations[i']? = some "inverse-difference" → RecordedBy conf' (Read conf') ts' h' →
          SameInputs h h' → h'.reset = false →
          ∃ ds, h'.EmitsAt ctx.arithmetic p i' (h.initial.size / p.size) j ds ∧
            MissingEmitted m v xs ds := by
  obtain ⟨op, hdiff⟩ := hts.differencing (f := fun _ => ctx.arithmetic.sub) (k := .difference) hA
    (fun _ => rfl) hi rfl hmissing
  obtain ⟨v, xs, hv, hxs⟩ := hdiff.exists_inputs hA hp hj
  have hemits := hdiff.emitsAt hA hreset hp hv hxs
  -- the same point of the same messages, for the inverse difference
  have hinverse : ∀ {conf' : Config} {i' : ℕ} {ts' : TemporalStatistics ctx} {h' : History},
      conf'.operations[i']? = some "inverse-difference" → RecordedBy conf' (Read conf') ts' h' →
      SameInputs h h' → h'.reset = false →
      h'.EmitsAt ctx.arithmetic p i' (h.initial.size / p.size) j
        (successive (comparedUnless missing fun v1 v2 => ctx.arithmetic.sub v2 v1) v xs) := by
    intro conf' i' ts' h' hi' hts' hsame hreset'
    obtain ⟨op', hdiff'⟩ := hts'.differencing (f := fun _ v1 v2 => ctx.arithmetic.sub v2 v1)
      (k := .inverseDifference) hA (fun _ => rfl) hi' rfl
      (hsame.initial ▸ hmissing)
    have hv' : (h'.initialValues ctx.arithmetic p)[j]? = some v := hsame.initialValues _ p ▸ hv
    have hxs' : (h'.lastInputs ctx.arithmetic p).map (·[j]?) = xs.map some :=
      hsame.lastInputs _ p ▸ hxs
    exact hsame.initial ▸ hdiff'.emitsAt hA hreset' (hsame.initial ▸ hp) hv' hxs'
  refine ⟨v, xs, hv, hxs, fun hpresent => ⟨?_, ?_, ?_⟩, fun m hm => ⟨?_, ?_⟩⟩
  · rw [successive_noneMissing hpresent] at hemits
    exact hemits
  · intro K _ U
    rw [map_successive]
    simp only [U.sub]
    exact sum_successive_sub U.value _ xs
  · intro conf' i' ts' h' hi' hts' hsame hreset'
    refine ⟨_, hinverse hi' hts' hsame hreset', fun U => ?_⟩
    rw [successive_noneMissing hpresent, map_successive, map_successive]
    simp only [U.sub, neg_sub]
  · subst hm
    exact ⟨_, hemits, missingEmitted_successive m _ v xs⟩
  · intro conf' i' ts' h' hi' hts' hsame hreset'
    subst hm
    exact ⟨_, hinverse hi' hts' hsame hreset', missingEmitted_successive m _ v xs⟩

/-- Where an input is missing, both operations emit the missing value, in this window and the next. -/
theorem missing_differences_repeat :
    ∃ (ts : TemporalStatistics exactContext.toStatisticsContext) (h : History),
    Recorded (daily ["difference", "inverse-difference"])
      (some (exactArithmetic.ofBits 0x40C3878000000000)) ts h ∧ h.reset = false ∧
    h.initialValues exactArithmetic .double = exactValues [5] ∧
    h.lastInputs exactArithmetic .double = [exactValues [9999], exactValues [3]] ∧
    ∃ ds, h.EmitsAt exactArithmetic .double 0 1 0 ds ∧ h.EmitsAt exactArithmetic .double 1 1 0 ds ∧
      (ds.map exactUnrounded.value).sum ≠ 3 - 5 ∧
      ds.map exactUnrounded.value ≠ ds.map fun d => -exactUnrounded.value d := by
  let run := record exactContext.toStatisticsContext (daily ["difference", "inverse-difference"])
    (hourlyField 0 missing9999 [5]) [hourlyField 1 missing9999 [9999], hourlyField 30 missing9999 [3]]
  have hrun : run.isSome = true ∧ ∀ s ∈ run, s.2.reset = false ∧
      s.2.initialValues exactArithmetic .double = exactValues [5] ∧
      s.2.lastInputs exactArithmetic .double = [exactValues [9999], exactValues [3]] ∧
      ∀ i ∈ [0, 1], s.2.payloads i =
        [exactValues [9999], exactValues [9999]].map (exactArithmetic.bytes .double) := by
    decide +kernel
  obtain ⟨⟨ts, h⟩, hs⟩ := Option.isSome_iff_exists.mp hrun.1
  obtain ⟨hreset, hinitial, hlast, hpayloads⟩ := hrun.2 (ts, h) hs
  have hemits : ∀ i ∈ [0, 1], h.EmitsAt exactArithmetic .double i 1 0 (exactValues [9999, 9999]) :=
    fun i hi => ⟨_, hpayloads i hi, by decide, rfl⟩
  have hsum : ((exactValues [9999, 9999]).map (exactUnrounded.value (p := .double))).sum ≠ 3 - 5 := by
    decide +kernel
  have hnegated : (exactValues [9999, 9999]).map (exactUnrounded.value (p := .double)) ≠
      (exactValues [9999, 9999]).map fun d => -exactUnrounded.value (p := .double) d := by decide +kernel
  refine ⟨ts, h, (recorded_of_record (fun msg hmsg => ?_) hs).1, hreset, hinitial, hlast, _,
    hemits 0 (by decide), hemits 1 (by decide), hsum, hnegated⟩
  simp only [List.mem_cons, List.not_mem_nil, or_false] at hmsg
  obtain rfl | rfl | rfl := hmsg <;> rfl

theorem differences_telescope_two_days :
    ∃ (ts : TemporalStatistics exactContext.toStatisticsContext) (h : History),
    Recorded (daily ["difference", "inverse-difference"])
      none ts h ∧
    h.lastInputs exactArithmetic .double = [exactValues [7], exactValues [4]] ∧
    ∃ ds ds', h.EmitsAt exactArithmetic .double 0 1 0 ds ∧ h.EmitsAt exactArithmetic .double 1 1 0 ds' ∧
      (ds.map exactUnrounded.value).sum = 4 - 5 ∧
      ds'.map exactUnrounded.value = ds.map fun d => -exactUnrounded.value d := by
  let run := record exactContext.toStatisticsContext (daily ["difference", "inverse-difference"])
    (hourlyField 0 [] [5]) [hourlyField 1 [] [2], hourlyField 2 [] [7], hourlyField 30 [] [4]]
  have hrun : run.isSome = true ∧ ∀ s ∈ run, s.2.reset = false ∧
      s.2.initialValues exactArithmetic .double = exactValues [5] ∧
      s.2.lastInputs exactArithmetic .double = [exactValues [7], exactValues [4]] := by
    decide +kernel
  obtain ⟨⟨ts, h⟩, hs⟩ := Option.isSome_iff_exists.mp hrun.1
  obtain ⟨hreset, hinitial, hlast⟩ := hrun.2 (ts, h) hs
  obtain ⟨hts, hfirst⟩ := recorded_of_record (fun msg hmsg => by
    simp only [List.mem_cons, List.not_mem_nil, or_false] at hmsg
    obtain rfl | rfl | rfl | rfl := hmsg <;> rfl) hs
  have hprecision : h.initial.precision exactContext.toContext = .ok .double := hfirst ▸ rfl
  have hmissing : readMissingValue exactContext.toStatisticsContext h.initial.metadata = .ok none :=
    hfirst ▸ rfl
  have hpoints : h.initial.size / PrecisionTag.double.size = 1 := by
    rw [hfirst]
    decide +kernel
  obtain ⟨v, xs, hv, hxs, htelescope, -⟩ := differences_telescope exactArithmetic_readsValues
    (i := 0) rfl hts.read hmissing hreset hprecision (lt_of_lt_of_eq Nat.zero_lt_one hpoints.symm)
  obtain ⟨hemits, hsum, hinverse⟩ := htelescope fun m hm => by cases hm
  have hop : (daily ["difference", "inverse-difference"]).operations[1]? =
    some "inverse-difference" := rfl
  obtain ⟨ds', hemits', hnegated⟩ := hinverse hop hts.read ⟨rfl, rfl⟩ hreset
  rw [hpoints] at hemits hemits'
  refine ⟨ts, h, hts, hlast, _, ds', hemits, hemits', (hsum exactUnrounded).trans ?_,
    hnegated exactUnrounded⟩
  have hfive : some v = (exactValues [5])[0]? :=
    hv.symm.trans (congrArg (·[0]?) hinitial)
  have hinputs : xs.map some = (exactValues [7, 4]).map some :=
    hxs.symm.trans (congrArg (List.map (·[0]?)) hlast)
  obtain rfl := List.map_injective_iff.mpr (Option.some_injective _) hinputs
  obtain rfl := Option.some.inj hfive
  rfl

end Multio.StatisticsMtg2
