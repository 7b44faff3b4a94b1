import Mathlib.Data.List.Zip
import Multio.Action.StatisticsMtg2.FieldSizes

namespace Multio.StatisticsMtg2
open Lib Exception
open Statistics.Operation (CountersFit)
open Operation (emittedValues)

/-- The messages of the window, those that count for the point, and what has come of them. -/
structure PointState (σ : Type) where
  count : ℤ := 0
  present : ℤ := 0
  value : σ

section

variable (A : FloatArithmetic) {p : PrecisionTag}

/-- Values that are not missing are counted apart, if values are counted at all. -/
def presentAfter (mode : UpdateMode A) (present : ℤ) (x : A.Real p) : ℤ :=
  match mode with
  | .withMissingAndCounters m => if isMissing A m x then present else present + 1
  | _ => present

/-- How a value is combined with another one, by its number in the window or at the point. -/
def combined (mode : UpdateMode A) (f : ℤ → A.Real p → A.Real p → A.Real p) (count present : ℤ)
    (v x : A.Real p) : A.Real p :=
  match mode with
  | .withoutMissing => f count v x
  | .withMissing m => unlessMissing A m (f count) v x
  | .withMissingAndCounters m => skipMissing A m (f present) v x

def moments (mode : UpdateMode A) (count present : ℤ) (v : A.Real p × A.Real p) (x : A.Real p) :
    A.Real p × A.Real p :=
  match mode with
  | .withoutMissing => welford A count v.1 v.2 x
  | .withMissing m => if isMissing A m x then v else welford A count v.1 v.2 x
  | .withMissingAndCounters m => if isMissing A m x then v else welford A present v.1 v.2 x

variable {σ : Type} (mode : UpdateMode A) (combine : ℤ → ℤ → σ → A.Real p → σ)

def PointState.next (s : PointState σ) (x : A.Real p) : PointState σ where
  count := s.count + 1
  present := presentAfter A mode s.present x
  value := combine (s.count + 1) (presentAfter A mode s.present x) s.value x

/-- The point after the values `xs` of a window that began with `v`. -/
def PointState.after (v : σ) (xs : List (A.Real p)) : PointState σ :=
  xs.foldl (PointState.next A mode combine) { value := v }

theorem PointState.after_concat (v : σ) (xs : List (A.Real p)) (x : A.Real p) :
    after A mode combine v (xs ++ [x]) = (after A mode combine v xs).next A mode combine x := by
  unfold after
  rw [List.foldl_append]
  rfl

theorem PointState.count_after (v : σ) (xs : List (A.Real p)) :
    (after A mode combine v xs).count = xs.length := by
  induction xs using List.reverseRecOn with
  | nil => rfl
  | append_singleton xs x ih =>
    rw [after_concat, List.length_append, Nat.cast_add, ← ih]
    rfl

def column (p : PrecisionTag) (inputs : List (List UInt8)) (i : ℕ) : List (A.Real p) :=
  inputs.filterMap fun bytes => (A.elements p bytes)[i]?

theorem column_concat (inputs : List (List UInt8)) (bytes : List UInt8) {i : ℕ} {x : A.Real p}
    (hx : (A.elements p bytes)[i]? = some x) :
    column A p (inputs ++ [bytes]) i = column A p inputs i ++ [x] := by
  unfold column
  rw [List.filterMap_append, List.filterMap_cons, hx]
  rfl

end

theorem CountersFit.of_eq {n : ℕ} {w w₁ : OperationWindow} (h : CountersFit n w)
    (hcounts : w₁.counts = w.counts) : CountersFit n w₁ := by
  unfold CountersFit
  rw [hcounts]
  exact h

/-- Values that have been advanced with the messages of a window, and the counters beside them. -/
structure Advanced (A : FloatArithmetic) {σ : Type} (p : PrecisionTag) (mode : UpdateMode A)
    (combine : ℤ → ℤ → σ → A.Real p → σ) (v : ℕ → σ) (n : ℕ) (inputs : List (List UInt8))
    (w : OperationWindow) (values : List σ) : Prop where
  count : w.count = inputs.length
  counts : CountersFit n w
  columns : ∀ i < n, (column A p inputs i).length = inputs.length
  point : ∀ i < n,
    values[i]? = some (PointState.after A mode combine (v i) (column A p inputs i)).value ∧
    (w.startedCounts n)[i]? = some (PointState.after A mode combine (v i) (column A p inputs i)).present

section

variable {A : FloatArithmetic} {σ : Type} {p : PrecisionTag} {mode : UpdateMode A}
  {combine : ℤ → ℤ → σ → A.Real p → σ} {v : ℕ → σ} {n : ℕ} {inputs : List (List UInt8)}
  {w w₁ : OperationWindow} {values values₁ : List σ}

theorem Advanced.start (hcount : w.count = 0) (hcounts : w.counts = [])
    (hvalues : ∀ i < n, values[i]? = some (v i)) :
    Advanced A p mode combine v n [] w values where
  count := hcount
  counts := Or.inl hcounts
  columns _ _ := rfl
  point i hi := by
    refine ⟨hvalues i hi, ?_⟩
    unfold OperationWindow.startedCounts
    rw [if_pos hcounts, List.getElem?_replicate, if_pos hi]
    rfl

theorem Advanced.start_replicate (hcount : w.count = 0) (hcounts : w.counts = []) (x : σ) :
    Advanced A p mode combine (fun _ => x) n [] w (List.replicate n x) :=
  .start hcount hcounts fun _ hi => List.getElem?_replicate.trans (if_pos hi)

theorem Advanced.of_eq (h : Advanced A p mode combine v n inputs w values)
    (hcount : w₁.count = w.count) (hcounts : w₁.counts = w.counts) :
    Advanced A p mode combine v n inputs w₁ values where
  count := hcount.trans h.count
  counts := CountersFit.of_eq h.counts hcounts
  columns := h.columns
  point i hi := by
    unfold OperationWindow.startedCounts
    rw [hcounts]
    exact h.point i hi

theorem Advanced.next (h : Advanced A p mode combine v n inputs w values) {bytes : List UInt8}
    (hcount : w₁.count = w.count + 1) (hcounts : CountersFit n w₁)
    (hlength : (A.elements p bytes).length = n)
    (hpoint : ∀ (i : ℕ) (x : A.Real p) (c : ℤ) (u : σ), (A.elements p bytes)[i]? = some x →
      values[i]? = some u → (w.startedCounts n)[i]? = some c →
      values₁[i]? = some (combine w₁.count (presentAfter A mode c x) u x) ∧
      (w₁.startedCounts n)[i]? = some (presentAfter A mode c x)) :
    Advanced A p mode combine v n (inputs ++ [bytes]) w₁ values₁ where
  count := by
    rw [hcount, h.count, List.length_append, Nat.cast_add]
    rfl
  counts := hcounts
  columns i hi := by
    obtain ⟨x, hx⟩ : ∃ x, (A.elements p bytes)[i]? = some x :=
      ⟨_, List.getElem?_eq_getElem (hlength ▸ hi)⟩
    rw [column_concat A inputs bytes hx, List.length_append, List.length_append, h.columns i hi]
    rfl
  point i hi := by
    obtain ⟨hvalue, hpresent⟩ := h.point i hi
    obtain ⟨x, hx⟩ : ∃ x, (A.elements p bytes)[i]? = some x :=
      ⟨_, List.getElem?_eq_getElem (hlength ▸ hi)⟩
    obtain ⟨hvalue₁, hpresent₁⟩ := hpoint i x _ _ hx hvalue hpresent
    rw [column_concat A inputs bytes hx, PointState.after_concat]
    refine ⟨hvalue₁.trans (congrArg some ?_), hpresent₁⟩
    unfold PointState.next
    rw [PointState.count_after, h.columns i hi, hcount, h.count]

end

namespace OperationWindow

variable {A : FloatArithmetic} {p : PrecisionTag} {n : ℕ} {w : OperationWindow}

theorem startedCounts_of_getElem? {i : ℕ} {c : ℤ} (h : w.counts[i]? = some c) :
    w.startedCounts n = w.counts := by
  unfold startedCounts
  refine if_neg fun hnil => ?_
  rw [hnil] at h
  cases h

theorem getElem?_counted (mode : UpdateMode A) {val : List (A.Real p)} {i : ℕ} {c : ℤ} {x : A.Real p}
    (hc : (w.startedCounts n)[i]? = some c) (hx : val[i]? = some x) :
    ((w.counted n true mode val).startedCounts n)[i]? = some (presentAfter A mode c x) ∧
      ∀ m, mode = .withMissingAndCounters m →
        (w.counted n true mode val).counts[i]? = some (presentAfter A mode c x) := by
  cases hmode : mode with
  | withMissingAndCounters m =>
    have hnew : (w.counted n true (.withMissingAndCounters m) val).counts[i]? =
        some (presentAfter A (.withMissingAndCounters m) c x) := by
      unfold counted
      simp only [List.getElem?_zipWith, List.getElem?_map, hc, hx, Option.map_some]
      rfl
    rw [startedCounts_of_getElem? hnew]
    exact ⟨hnew, fun _ _ => hnew⟩
  | withoutMissing => exact ⟨hc, fun m h => by cases h⟩
  | withMissing m => exact ⟨hc, fun m h => by cases h⟩

end OperationWindow

theorem getElem?_zipWith3 {α β γ δ : Type} (f : α → β → γ → δ) {xs : List α} {ys : List β}
    {zs : List γ} {i : ℕ} {x : α} {y : β} {z : γ} (hx : xs[i]? = some x) (hy : ys[i]? = some y)
    (hz : zs[i]? = some z) : (List.zipWith3 f xs ys zs)[i]? = some (f x y z) := by
  have hzip : List.zipWith3 f xs ys zs =
      List.zipWith (fun xy z => f xy.1 xy.2 z) (List.zip xs ys) zs :=
    (List.zipWith_zipWith_left (fun xy z => f xy.1 xy.2 z) Prod.mk xs ys zs).symm
  rw [hzip, List.getElem?_zipWith, List.zip, List.getElem?_zipWith, hx, hy, hz]

theorem getElem?_combineValues {A : FloatArithmetic} {p : PrecisionTag} (mode : UpdateMode A)
    {f : A.Real p → A.Real p → A.Real p} {values val : List (A.Real p)} (count c : ℤ) {i : ℕ}
    {v x : A.Real p} (hv : values[i]? = some v) (hx : val[i]? = some x) :
    (combineValues A mode f values val)[i]? = some (combined A mode (fun _ => f) count c v x) := by
  cases mode <;>
  · refine List.getElem?_zipWith.trans ?_
    rw [hv, hx]
    rfl

theorem getElem?_averageValues {A : FloatArithmetic} {p : PrecisionTag} (mode : UpdateMode A)
    {values val : List (A.Real p)} (count : ℤ) {counts : List ℤ} {i : ℕ} {v x : A.Real p} {c : ℤ}
    (hv : values[i]? = some v) (hx : val[i]? = some x)
    (hc : ∀ m, mode = .withMissingAndCounters m → counts[i]? = some c) :
    (averageValues A mode count counts values val)[i]? =
      some (combined A mode (average A) count c v x) := by
  cases mode with
  | withMissingAndCounters m => exact getElem?_zipWith3 _ hv hx (hc m rfl)
  | _ =>
    refine List.getElem?_zipWith.trans ?_
    rw [hv, hx]
    rfl

namespace OperationKind

/-- How the operation combines a value with the `count`-th one. -/
def combination (A : FloatArithmetic) (p : PrecisionTag) :
    OperationKind → Option (ℤ → A.Real p → A.Real p → A.Real p)
  | .average => some (StatisticsMtg2.average A)
  | .maximum => some fun _ => StatisticsMtg2.maximum A
  | .minimum => some fun _ => StatisticsMtg2.minimum A
  | _ => none

end OperationKind

namespace Operation

variable {A : FloatArithmetic} {op : Operation A}
  {f : ℤ → A.Real op.precision → A.Real op.precision → A.Real op.precision}

theorem getElem?_updateValues (hf : op.kind.combination A op.precision = some f)
    (mode : UpdateMode A) (count : ℤ) (counts : List ℤ) (val : List (A.Real op.precision)) :
    ∃ values, op.updateValues mode count counts val = { op with values } ∧
      ∀ (i : ℕ) (v x : A.Real op.precision) (c : ℤ), op.values[i]? = some v → val[i]? = some x →
        (∀ m, mode = .withMissingAndCounters m → counts[i]? = some c) →
        values[i]? = some (combined A mode f count c v x) := by
  obtain ⟨kind, p, values, initValues, mean⟩ := op
  cases kind with
  | average =>
    obtain rfl := Option.some.inj hf
    exact ⟨_, rfl, fun i v x c => getElem?_averageValues mode count⟩
  | maximum =>
    obtain rfl := Option.some.inj hf
    exact ⟨_, rfl, fun i v x c hv hx _ => getElem?_combineValues mode count c hv hx⟩
  | minimum =>
    obtain rfl := Option.some.inj hf
    exact ⟨_, rfl, fun i v x c hv hx _ => getElem?_combineValues mode count c hv hx⟩
  | _ => cases hf

theorem usesCounters_of_combination (hf : op.kind.combination A op.precision = some f) :
    op.kind.usesCounters = true := by
  cases hk : op.kind <;> rw [hk] at hf <;> first | rfl | cases hf

theorem getElem?_updateValues_stddev (hk : op.kind = .stddev) (mode : UpdateMode A) (count : ℤ)
    (counts : List ℤ) (val : List (A.Real op.precision)) :
    ∃ mean values, op.updateValues mode count counts val = { op with mean, values } ∧
      ∀ (i : ℕ) (u : A.Real op.precision × A.Real op.precision) (x : A.Real op.precision) (c : ℤ),
        (op.mean.zip op.values)[i]? = some u → val[i]? = some x →
        (∀ m, mode = .withMissingAndCounters m → counts[i]? = some c) →
        (mean.zip values)[i]? = some (moments A mode count c u x) := by
  obtain ⟨kind, p, values, initValues, mean⟩ := op
  obtain rfl : kind = .stddev := hk
  have hzip {new : List (A.Real p × A.Real p)} {i : ℕ} {u : A.Real p × A.Real p}
      (h : new[i]? = some u) : ((new.map Prod.fst).zip (new.map Prod.snd))[i]? = some u := by
    rw [List.getElem?_zip_eq_some, List.getElem?_map, List.getElem?_map, h]
    exact ⟨rfl, rfl⟩
  cases mode with
  | withoutMissing =>
    refine ⟨_, _, rfl, fun i u x c hu hx _ => hzip ?_⟩
    obtain ⟨hmean, hvalue⟩ := List.getElem?_zip_eq_some.mp hu
    exact getElem?_zipWith3 _ hmean hvalue hx
  | withMissing m =>
    refine ⟨_, _, rfl, fun i u x c hu hx _ => hzip ?_⟩
    obtain ⟨hmean, hvalue⟩ := List.getElem?_zip_eq_some.mp hu
    exact getElem?_zipWith3 _ hmean hvalue hx
  | withMissingAndCounters m =>
    refine ⟨_, _, rfl, fun i u x c hu hx hc => hzip ?_⟩
    obtain ⟨hmean, hvalue⟩ := List.getElem?_zip_eq_some.mp hu
    have hcounted : (mean.zip counts)[i]? = some (u.1, c) :=
      List.getElem?_zip_eq_some.mpr ⟨hmean, hc m rfl⟩
    exact getElem?_zipWith3 _ hcounted hvalue hx

end Operation

/-- A window that is emitted: the messages it was given, and the payload for them. -/
structure Emission (A : FloatArithmetic) where
  precision : PrecisionTag
  points : ℕ
  missing : Option (A.Real .double)
  threshold : Option ℤ
  inputs : List (List UInt8)
  payload : List UInt8

namespace Emission

variable {A : FloatArithmetic} (e : Emission A)

def column (i : ℕ) : List (A.Real e.precision) := StatisticsMtg2.column A e.precision e.inputs i

/-- The point after the window, which began with the value `v`. -/
def pointAfter (f : ℤ → A.Real e.precision → A.Real e.precision → A.Real e.precision)
    (v : A.Real e.precision) (i : ℕ) : PointState (A.Real e.precision) :=
  PointState.after A (.of e.missing e.threshold) (combined A (.of e.missing e.threshold) f) v
    (e.column i)

/-- What is emitted for a point: its value, or the missing value where too few were present. -/
def valueOf (s : PointState (A.Real e.precision)) : A.Real e.precision :=
  match e.missing, e.threshold with
  | some m, some t => if s.present < t then A.ofDouble m else s.value
  | _, _ => s.value

def Emits (values : List (A.Real e.precision)) : Prop :=
  e.payload = A.bytes e.precision values ∧ values.length = e.points

/-- The payload has, for each point, what combining the values of the window makes of it. -/
structure Computed (f : ℤ → A.Real e.precision → A.Real e.precision → A.Real e.precision)
    (v : A.Real e.precision) : Prop where
  nonempty : e.inputs ≠ []
  columns : ∀ i < e.points, (e.column i).length = e.inputs.length
  values : ∃ values, e.Emits values ∧
    ∀ i < e.points, values[i]? = some (e.valueOf (e.pointAfter f v i))

end Emission

theorem getElem?_emittedValues {A : FloatArithmetic} (e : Emission A) {w : OperationWindow}
    {values values₁ : List (A.Real e.precision)} (hcounts : CountersFit e.points w)
    (hlength : values.length = e.points)
    (hemit : emittedValues A e.missing e.threshold values w.counts = .ok values₁) :
    values₁.length = e.points ∧ ∀ (i : ℕ) (s : PointState (A.Real e.precision)),
      values[i]? = some s.value → (w.startedCounts e.points)[i]? = some s.present →
      values₁[i]? = some (e.valueOf s) := by
  obtain ⟨p, n, missing, threshold, inputs, payload⟩ := e
  unfold Emission.valueOf
  cases missing with
  | none =>
    obtain rfl := Except.ok.inj hemit
    exact ⟨hlength, fun i s hs _ => hs⟩
  | some m =>
    cases threshold with
    | none =>
      obtain rfl := Except.ok.inj hemit
      exact ⟨hlength, fun i s hs _ => hs⟩
    | some t =>
      simp only [emittedValues, Operation.computeWithThreshold] at hemit
      split_ifs at hemit with hshort
      obtain rfl := Except.ok.inj hemit
      rw [hlength, not_lt] at hshort
      -- the counters are there, unless there are no points
      have hlen : w.counts.length = n := hcounts.elim (fun hnil => by
        rw [hnil] at hshort ⊢
        exact (Nat.le_zero.mp hshort).symm) id
      refine ⟨?_, fun i s hs hc => ?_⟩
      · rw [List.length_zipWith, hlength, hlen, min_self]
      · have hstarted : w.startedCounts n = w.counts := by
          unfold OperationWindow.startedCounts
          split_ifs with hnil
          · rw [hnil] at hlen ⊢
            rw [← hlen]
            rfl
          · rfl
        rw [hstarted] at hc
        rw [List.getElem?_zipWith, hs, hc]

/-- What has been advanced with the messages of a window is emitted for it. -/
theorem Advanced.computed {A : FloatArithmetic} {e : Emission A}
    {f : ℤ → A.Real e.precision → A.Real e.precision → A.Real e.precision} {v : A.Real e.precision}
    {w : OperationWindow} {values values₁ : List (A.Real e.precision)}
    (h : Advanced A e.precision (.of e.missing e.threshold)
      (combined A (.of e.missing e.threshold) f) (fun _ => v) e.points e.inputs w values)
    (hlength : values.length = e.points) (hcount : w.count ≠ 0)
    (hemit : emittedValues A e.missing e.threshold values w.counts = .ok values₁)
    (hpayload : e.payload = A.bytes e.precision values₁) : e.Computed f v where
  nonempty hnil := by
    have hzero := h.count
    rw [hnil] at hzero
    exact hcount hzero
  columns := h.columns
  values := by
    obtain ⟨hlength₁, hvalues⟩ := getElem?_emittedValues e h.counts hlength hemit
    exact ⟨values₁, ⟨hpayload, hlength₁⟩, fun i hi =>
      hvalues i _ (h.point i hi).1 (h.point i hi).2⟩

namespace Operation

variable {ctx : StatisticsContext} {opt : StatisticsOptions}
  {cfg : StatisticsConfiguration ctx.arithmetic} {op op₂ : Operation ctx.arithmetic}
  {p : PrecisionTag} {n : ℕ} {inputs : List (List UInt8)} {payload : List UInt8}
  {w w₁ w₂ : OperationWindow} (hA : ReadsValues ctx.arithmetic) (hop : op.Fits p n)
  (hcount : w₁.count = w.count + 1) (hcounts : w₁.counts = w.counts)
  (hupdate : op.updateData ctx opt cfg payload w₁ = .ok (w₂, op₂))

include hA hop hcount hcounts hupdate

theorem updated (huses : op.kind.usesCounters = true) (hw : CountersFit n w) :
    let mode := UpdateMode.make opt cfg
    let val := ctx.arithmetic.elements op.precision payload
    op₂ = op.updateValues mode w₂.count w₂.counts val ∧ val.length = n ∧
      w₂.count = w.count + 1 ∧ CountersFit n w₂ ∧
      ∀ (i : ℕ) (x : ctx.arithmetic.Real op.precision) (c : ℤ), val[i]? = some x →
        (w.startedCounts n)[i]? = some c →
        (w₂.startedCounts n)[i]? = some (presentAfter ctx.arithmetic mode c x) ∧
          ∀ m, mode = .withMissingAndCounters m →
            w₂.counts[i]? = some (presentAfter ctx.arithmetic mode c x) := by
  have hw₁ : CountersFit n w₁ := CountersFit.of_eq hw hcounts
  have hstarted : w₁.startedCounts n = w.startedCounts n := by
    unfold OperationWindow.startedCounts
    rw [hcounts]
  have hsize := (exists_updateData_iff hop hw₁).mp ⟨_, hupdate⟩
  have hval : (ctx.arithmetic.elements op.precision payload).length = n := by
    rw [hA, hop.precision, hsize]
  rw [updateData_eq hop hw₁ hsize, huses] at hupdate
  obtain ⟨rfl, rfl⟩ := Prod.mk.inj (Except.ok.inj hupdate)
  refine ⟨rfl, hval, OperationWindow.count_counted.trans hcount,
    OperationWindow.countersFit_counted hw₁ hval, fun i x c hx hc => ?_⟩
  exact OperationWindow.getElem?_counted _ (hstarted ▸ hc) hx

theorem advanced_updateData
    {f : ℤ → ctx.arithmetic.Real op.precision → ctx.arithmetic.Real op.precision →
      ctx.arithmetic.Real op.precision} (hf : op.kind.combination ctx.arithmetic op.precision = some f)
    {v : ℕ → ctx.arithmetic.Real op.precision}
    (h : Advanced ctx.arithmetic op.precision (UpdateMode.make opt cfg)
      (combined ctx.arithmetic (UpdateMode.make opt cfg) f) v n inputs w op.values) :
    ∃ values, op₂ = { op with values } ∧
      Advanced ctx.arithmetic op.precision (UpdateMode.make opt cfg)
        (combined ctx.arithmetic (UpdateMode.make opt cfg) f) v n (inputs ++ [payload]) w₂ values := by
  obtain ⟨rfl, hval, hcount₂, hfit, hcounters⟩ := updated hA hop hcount hcounts hupdate
    (usesCounters_of_combination hf) h.counts
  obtain ⟨values, hvalues, hpoint⟩ := getElem?_updateValues hf (UpdateMode.make opt cfg) w₂.count
    w₂.counts (ctx.arithmetic.elements op.precision payload)
  refine ⟨values, hvalues, h.next hcount₂ hfit hval fun i x c u hx hu hc => ?_⟩
  obtain ⟨hstarted, hc₂⟩ := hcounters i x c hx hc
  exact ⟨hpoint i u x _ hu hx hc₂, hstarted⟩

theorem advanced_updateData_stddev (hk : op.kind = .stddev)
    {v : ℕ → ctx.arithmetic.Real op.precision × ctx.arithmetic.Real op.precision}
    (h : Advanced ctx.arithmetic op.precision (UpdateMode.make opt cfg)
      (moments ctx.arithmetic (UpdateMode.make opt cfg)) v n inputs w (op.mean.zip op.values)) :
    ∃ mean values, op₂ = { op with mean, values } ∧
      Advanced ctx.arithmetic op.precision (UpdateMode.make opt cfg)
        (moments ctx.arithmetic (UpdateMode.make opt cfg)) v n (inputs ++ [payload]) w₂
        (mean.zip values) := by
  obtain ⟨rfl, hval, hcount₂, hfit, hcounters⟩ := updated hA hop hcount hcounts hupdate
    (by rw [hk]; rfl) h.counts
  obtain ⟨mean, values, hvalues, hpoint⟩ := getElem?_updateValues_stddev hk
    (UpdateMode.make opt cfg) w₂.count w₂.counts (ctx.arithmetic.elements op.precision payload)
  refine ⟨mean, values, hvalues, h.next hcount₂ hfit hval fun i x c u hx hu hc => ?_⟩
  obtain ⟨hstarted, hc₂⟩ := hcounters i x c hx hc
  exact ⟨hpoint i u x _ hu hx hc₂, hstarted⟩

end Operation
end Multio.StatisticsMtg2
