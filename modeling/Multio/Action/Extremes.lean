import Mathlib.Order.OrderDual
import Multio.Action.Emissions
import Multio.Action.StatisticsMtg2.ExactContext

namespace Multio.StatisticsMtg2
open Lib Exception

/-- What is relied on of the arithmetic: finite numbers are compared by their values, which
conversions keep, and none of them is above the last one. -/
structure OrderedArithmetic (A : FloatArithmetic) (K : Type) [LinearOrder K] where
  finite : {p : PrecisionTag} → A.Real p → Prop
  value : {p : PrecisionTag} → A.Real p → K
  less_iff : ∀ {p : PrecisionTag} {v x : A.Real p}, finite v → finite x →
    (A.less v x = true ↔ value v < value x)
  equal_iff : ∀ (m : A.Real .double) {x : A.Real .double}, finite x →
    (A.equal m x = true ↔ finite m ∧ value m = value x)
  toDouble : ∀ {p : PrecisionTag} {v : A.Real p}, finite v →
    finite (A.toDouble v) ∧ value (A.toDouble v) = value v
  /-- A number of the smaller precision is converted to itself. -/
  ofDouble : ∀ {p : PrecisionTag} {m : A.Real .double} {v : A.Real p}, finite m → finite v →
    value m = value v → finite (A.ofDouble m : A.Real p) ∧ value (A.ofDouble m : A.Real p) = value v
  limitsMin : ∀ p, finite (A.limitsMin p)
  limitsMax : ∀ p, finite (A.limitsMax p) ∧
    ∀ v : A.Real p, finite v → value v ≤ value (A.limitsMax p)

namespace Emission

variable {A : FloatArithmetic} {e : Emission A} {i : ℕ} {xs : List (A.Real e.precision)}

variable {K : Type} [LinearOrder K]

/-- The missing value is not taken for the value `v` that a window begins with. -/
def Apart (e : Emission A) (v : A.Real e.precision) : Prop :=
  ¬ ∃ m, e.missing = some m ∧ e.threshold = none ∧ isMissing A m v = true

/-- Some value that makes up the emission is not below the value that a window begins with. -/
def Reaches (e : Emission A) (value : A.Real e.precision → K) (v : A.Real e.precision) (i : ℕ) :
    Prop :=
  ∀ xs, e.considered i = some xs → e.Apart v ∧ ∃ x ∈ xs, value v ≤ value x

variable {value : A.Real e.precision → K} {good : A.Real e.precision → Prop}
  {pick : A.Real e.precision → A.Real e.precision → A.Real e.precision} {v : A.Real e.precision}

theorem greatest_iff (hpick : PicksGreater value good pick) (hv : good v)
    (hxs : ∀ x ∈ e.column i, good x)
    (hm : ∀ (m : A.Real .double) (x : A.Real e.precision), good x → isMissing A m x = true →
      isMissing A m (A.ofDouble m : A.Real e.precision) = true) :
    e.Meets (Greatest value) i (e.valueOf (e.pointAfter (fun _ => pick) v i)) ↔
      e.Reaches value v i := by
  unfold Meets Reaches
  -- where something counts as missing nothing is asked of what is emitted
  cases hconsidered : e.considered i with
  | none =>
    obtain ⟨m, hmissing, hvalue⟩ := valueOf_of_not_considered (f := fun _ => pick) (v := v)
      hconsidered fun m _ x hx => hm m x (hxs x hx)
    rw [hmissing]
    exact iff_of_true hvalue fun _ h => by cases h
  | some xs =>
    have hgood : ∀ x ∈ xs, good x := fun x hx => hxs x ((sublist_of_considered hconsidered).mem hx)
    simp only [Option.some.injEq, forall_eq']
    by_cases hapart : e.Apart v
    · -- what is picked on the way is `v` or a value that is not missing
      have hway : ∀ m, e.missing = some m → e.threshold = none → ∀ pre x, pre ++ [x] <+: xs →
          isMissing A m (combineAll A (fun _ => pick) v pre) = false := by
        intro m hmissing ht pre x hpre
        have hsub : ∀ y ∈ pre, y ∈ xs := fun y hy => hpre.subset (List.mem_append_left [x] hy)
        rw [combineAll_eq_foldl]
        obtain hmem | ⟨heq, -⟩ :=
          foldl_pick_mem hpick pre hv fun y hy => hgood y (hsub y hy)
        · exact present_of_considered hconsidered hmissing ht _ (hsub _ hmem)
        · rw [heq]
          exact Bool.eq_false_iff.mpr fun hv' => hapart ⟨m, hmissing, ht, hv'⟩
      rw [valueOf_of_considered hconsidered hway, combineAll_eq_foldl,
        greatest_foldl_iff hpick xs hv hgood]
      exact (and_iff_right hapart).symm
    · refine iff_of_false (fun h => ?_) fun h => hapart h.1
      obtain ⟨m, hmissing, ht, hmv⟩ := not_not.mp hapart
      have hmm := hm m v hv hmv
      have hcolumn := List.ne_nil_of_mem ((sublist_of_considered hconsidered).mem h.1)
      rw [valueOf_of_missing hmissing ht hmm (Or.inl ⟨hmv, hcolumn⟩)] at h
      exact absurd hmm (Bool.eq_false_iff.mp (present_of_considered hconsidered hmissing ht _ h.1))

end Emission

section

variable {A : FloatArithmetic} {K : Type} [LinearOrder K] (O : OrderedArithmetic A K)

namespace OrderedArithmetic

theorem isMissing_iff (m : A.Real .double) {p : PrecisionTag} {x : A.Real p} (hx : O.finite x) :
    isMissing A m x = true ↔ O.finite m ∧ O.value m = O.value x := by
  rw [← (O.toDouble hx).2]
  exact O.equal_iff m (O.toDouble hx).1

/-- What is emitted for a missing value is missing, if it stands for one of the values. -/
theorem isMissing_ofDouble {m : A.Real .double} {p : PrecisionTag} {x : A.Real p} (hx : O.finite x)
    (h : isMissing A m x = true) : isMissing A m (A.ofDouble m : A.Real p) = true := by
  obtain ⟨hm, hvalue⟩ := (O.isMissing_iff m hx).mp h
  obtain ⟨hfinite, hsame⟩ := O.ofDouble hm hx hvalue
  exact (O.isMissing_iff m hfinite).mpr ⟨hm, hvalue.trans hsame.symm⟩

theorem maximum_picks (p : PrecisionTag) :
    PicksGreater (O.value (p := p)) O.finite (maximum A) := fun _ _ hv hx =>
  if_congr (O.less_iff hx hv) rfl rfl

theorem minimum_picks (p : PrecisionTag) :
    PicksGreater (OrderDual.toDual ∘ O.value (p := p)) O.finite (minimum A) := fun _ _ hv hx =>
  if_congr (O.less_iff hv hx) rfl rfl

end OrderedArithmetic

theorem combines_maximum (A : FloatArithmetic) :
    Combines A "maximum" (fun _ _ => maximum A) A.limitsMin where
  statistics := ⟨.maximum, rfl, fun _ => rfl, fun _ => rfl⟩
  statisticsMtg2 := ⟨.maximum, rfl, fun _ => rfl, fun _ => rfl⟩

theorem combines_minimum (A : FloatArithmetic) :
    Combines A "minimum" (fun _ _ => minimum A) A.limitsMax where
  statistics := ⟨.minimum, rfl, fun _ => rfl, fun _ => rfl⟩
  statisticsMtg2 := ⟨.minimum, rfl, fun _ => rfl, fun _ => rfl⟩

end

def Least {α K : Type} [LinearOrder K] (value : α → K) (xs : List α) (v : α) : Prop :=
  v ∈ xs ∧ ∀ x ∈ xs, value v ≤ value x

section

variable {ctx : Statistics.StatisticsContext} {K : Type} [LinearOrder K]
  (O : OrderedArithmetic ctx.arithmetic K) (hA : ReadsValues ctx.arithmetic)
  {e : Emission ctx.arithmetic} (hfinite : ∀ i < e.points, ∀ x ∈ e.column i, O.finite x)
  (ht : ∀ t, e.threshold = some t → 1 ≤ t)

include hA hfinite ht

/-- At each point of each emission, a maximum is exact if and only if the smallest positive number
does not matter, and a minimum if and only if the missing value is not the greatest number. -/
theorem extremes_exact_iff :
    (Emits ctx "maximum" e → ∃ values, e.Emits values ∧ ∀ i < e.points, ∃ v, values[i]? = some v ∧
      (e.Meets (Greatest O.value) i v ↔
        e.Reaches O.value (ctx.arithmetic.limitsMin e.precision) i)) ∧
    (Emits ctx "minimum" e → ∃ values, e.Emits values ∧ ∀ i < e.points, ∃ v, values[i]? = some v ∧
      (e.Meets (Least O.value) i v ↔
        (e.considered i ≠ none → e.Apart (ctx.arithmetic.limitsMax e.precision)))) := by
  constructor
  · intro hemits
    obtain ⟨values, hvalues, hpoint⟩ :=
      (hemits.computed hA (combines_maximum ctx.arithmetic)).values
    refine ⟨values, hvalues, fun i hi => ⟨_, hpoint i hi, ?_⟩⟩
    exact Emission.greatest_iff (O.maximum_picks e.precision) (O.limitsMin e.precision) (hfinite i hi)
      fun m x hx => O.isMissing_ofDouble hx
  · intro hemits
    have hcomputed := hemits.computed hA (combines_minimum ctx.arithmetic)
    obtain ⟨values, hvalues, hpoint⟩ := hcomputed.values
    refine ⟨values, hvalues, fun i hi => ⟨_, hpoint i hi, ?_⟩⟩
    refine (Emission.greatest_iff (O.minimum_picks e.precision) (O.limitsMax e.precision).1
      (hfinite i hi) fun m x hx => O.isMissing_ofDouble hx).trans ?_
    unfold Emission.Reaches
    cases hconsidered : e.considered i with
    | none => exact iff_of_true (fun _ h => by cases h) fun h => absurd rfl h
    | some xs =>
      -- no value is greater than the one that a minimum begins with
      obtain ⟨x, hx⟩ := List.exists_mem_of_ne_nil xs
        (Emission.considered_ne_nil (hcomputed.column_ne_nil hi) ht hconsidered)
      have hle := (O.limitsMax e.precision).2 x
        (hfinite i hi x ((Emission.sublist_of_considered hconsidered).mem hx))
      simp only [Option.some.injEq, forall_eq']
      exact ⟨fun h _ => h.1, fun h => ⟨h (by simp), x, hx, hle⟩⟩

end

def exactOrdered : OrderedArithmetic exactArithmetic ℚ where
  finite := @fun p (v : ℚ) => v ≤ (BinaryFormat.of p).limitsMax
  value := @fun _ (v : ℚ) => v
  less_iff := @fun _ (v x : ℚ) _ _ => decide_eq_true_iff (p := v < x)
  equal_iff := fun (m x : ℚ) hx => by
    refine (decide_eq_true_iff (p := m = x)).trans ⟨fun h => ⟨?_, h⟩, fun h => h.2⟩
    exact h ▸ hx
  toDouble := @fun p v hv => by
    refine ⟨?_, rfl⟩
    have hfloat : (BinaryFormat.of .float).limitsMax ≤ (BinaryFormat.of .double).limitsMax := by
      decide +kernel
    cases p with
    | float => exact le_trans hv hfloat
    | double => exact hv
  ofDouble := @fun _ (m v : ℚ) _ hv (h : m = v) => ⟨h ▸ hv, h⟩
  limitsMin p := by
    have hle : (BinaryFormat.of p).limitsMin ≤ (BinaryFormat.of p).limitsMax := by
      cases p <;> decide +kernel
    exact hle
  limitsMax p := ⟨le_refl (BinaryFormat.of p).limitsMax, fun _ hv => hv⟩

/-- A day of one message with the value `x`, for which `y` is emitted. -/
def dayOf (x y : ℚ) : Emission exactArithmetic where
  precision := .double
  points := 1
  missing := none
  threshold := none
  inputs := [exactArithmetic.bytes .double [x]]
  payload := exactArithmetic.bytes .double [y]

section

variable {x y : ℚ} (hx : (dayOf x y).column 0 = exactValues [x])

include hx

theorem column_dayOf {i : ℕ} (hi : i < (dayOf x y).points) :
    (dayOf x y).column i = exactValues [x] := by
  obtain rfl := Nat.lt_one_iff.mp hi
  exact hx

theorem finite_dayOf (hle : x ≤ (BinaryFormat.of .double).limitsMax) :
    ∀ i < (dayOf x y).points, ∀ v ∈ (dayOf x y).column i, exactOrdered.finite v := by
  intro i hi v hv
  rw [column_dayOf hx hi] at hv
  exact List.mem_singleton.mp hv ▸ hle

end

theorem emits_dayOf {opname : String} {x y : ℚ}
    (hrun : ∃ r ∈ record exactContext.toStatisticsContext (daily [opname]) (hourlyField 0 [] [x])
        [hourlyField 1 [] [x]], ∃ window ∈ r.2.emitted,
      window.1.map Message.payload = (dayOf x y).inputs ∧
      window.2[0]?.map Message.payload = some (dayOf x y).payload) :
    Emits exactContext opname (dayOf x y) := by
  have hsize : (hourlyField 0 [] [x]).size / PrecisionTag.double.size = 1 := by
    unfold hourlyField exactArithmetic Message.size
    simp [Util.littleEndian_length, PrecisionTag.size]
  have hops : (daily [opname]).operations = [opname] := rfl
  refine emits_of_record hops (fun msg hmsg => ?_) rfl hsize hrun
  obtain rfl | hmsg := List.mem_cons.mp hmsg
  · rfl
  · obtain rfl := List.mem_singleton.mp hmsg
    rfl

/-- The maximum of a day with temperatures below zero is above zero. -/
theorem negative_maximum_missed :
    let e := dayOf (-2) (BinaryFormat.of .double).limitsMin
    Emits exactContext "maximum" e ∧
    (∀ i < e.points, ∀ x ∈ e.column i, exactOrdered.finite x) ∧
    ∀ values, e.Emits values → ¬ ∀ i < e.points, ∃ v, values[i]? = some v ∧
      e.Meets (Greatest exactOrdered.value) i v := by
  have hcolumn : (dayOf (-2) (BinaryFormat.of .double).limitsMin).column 0 = exactValues [-2] := by
    decide +kernel
  refine ⟨emits_dayOf (by decide +kernel), finite_dayOf hcolumn (by decide +kernel), ?_⟩
  intro values hvalues hmeets
  obtain ⟨v, hv, hgreatest⟩ := hmeets 0 Nat.zero_lt_one
  -- the maximum could only be the one value
  have hmem := hgreatest.1
  rw [show Emission.column _ 0 = _ from hcolumn] at hmem
  obtain rfl := List.mem_singleton.mp hmem
  obtain ⟨x, rfl⟩ := List.length_eq_one_iff.mp hvalues.2
  obtain rfl := Option.some.inj hv
  have hbytes : exactArithmetic.bytes .double [(BinaryFormat.of .double).limitsMin] ≠
      exactArithmetic.bytes .double [(-2 : ℚ)] := by decide +kernel
  exact hbytes hvalues.1

/-- The maximum of a day with temperatures above zero is the one that was measured. -/
theorem extremes_exact_iff_warm : ∃ values, (dayOf 3 3).Emits values ∧
    ∃ v, values[0]? = some v ∧ (dayOf 3 3).Meets (Greatest exactOrdered.value) 0 v := by
  have hcolumn : (dayOf 3 3).column 0 = exactValues [3] := by decide +kernel
  have hemits : Emits exactContext "maximum" (dayOf 3 3) := emits_dayOf (by decide +kernel)
  obtain ⟨values, hvalues, hpoint⟩ := (extremes_exact_iff exactOrdered exactArithmetic_readsValues
    (finite_dayOf hcolumn (by decide +kernel)) (fun _ h => by cases h)).1 hemits
  obtain ⟨v, hv, hiff⟩ := hpoint 0 Nat.zero_lt_one
  refine ⟨values, hvalues, v, hv, hiff.mpr fun xs hxs => ⟨fun hno => ?_, (3 : ℚ), ?_, ?_⟩⟩
  · obtain ⟨m, hm, -⟩ := hno
    cases hm
  · obtain rfl : xs = exactValues [3] := (Option.some.inj hxs).symm.trans hcolumn
    exact List.mem_singleton_self _
  · have hle : (BinaryFormat.of .double).limitsMin ≤ 3 := by decide +kernel
    exact hle

end Multio.StatisticsMtg2
