import Multio.Action.Emissions
import Multio.Action.StatisticsMtg2.ExactContext

namespace Multio.StatisticsMtg2
open Lib Exception

section

variable {A : FloatArithmetic} {K : Type} [Field K] (U : Unrounded A K)

def Unrounded.IsMean {p : PrecisionTag} (xs : List (A.Real p)) (v : A.Real p) : Prop :=
  xs ≠ [] ∧ U.value v = mean (xs.map U.value)

theorem Unrounded.isMissing_iff (m : A.Real .double) {p : PrecisionTag} (x : A.Real p) :
    isMissing A m x = true ↔ U.value m = U.value x := by
  rw [← U.toDouble x]
  exact U.equal_iff m (A.toDouble x)

theorem Unrounded.value_average (n : ℕ) {p : PrecisionTag} (v x : A.Real p) :
    U.value (average A (n + 1) v x) =
      U.value v * (n * (1 / (n + 1))) + U.value x * (1 / (n + 1)) := by
  unfold average icntpp sc
  simp only [U.ofDouble, U.add, U.mul, U.div, U.toDouble, U.ofLong]
  push_cast
  ring

variable [CharZero K]

theorem Unrounded.value_combineAll {p : PrecisionTag} (xs : List (A.Real p)) :
    U.value (combineAll A (average A) (A.ofLong 0) xs) = mean (xs.map U.value) := by
  induction xs using List.reverseRecOn with
  | nil =>
    refine (U.ofLong 0).trans ?_
    simp [mean]
  | append_singleton xs x ih =>
    rw [combineAll_concat, U.value_average, ih, List.map_append, List.map_singleton, mean_concat,
      List.length_map]

end

theorem combines_average (A : FloatArithmetic) :
    Combines A "average" (fun _ => average A) fun _ => A.ofLong 0 where
  statistics := ⟨.average, rfl, fun _ => rfl, fun _ => rfl⟩
  statisticsMtg2 := ⟨.average, rfl, fun _ => rfl, fun _ => rfl⟩

section

variable {ctx : Statistics.StatisticsContext} {K : Type} [Field K] [LinearOrder K]
  [IsStrictOrderedRing K] (U : Unrounded ctx.arithmetic K) {e : Emission ctx.arithmetic}

/-- The missing value is neither zero nor in the range of the values that are not missing. -/
def Emission.MissingOutside {A : FloatArithmetic} (U : Unrounded A K) (e : Emission A) : Prop :=
  ∀ m, e.missing = some m → U.value m ≠ 0 ∧ ∀ i < e.points,
    (∀ x ∈ valid A m (e.column i), U.value m < U.value x) ∨
    ∀ x ∈ valid A m (e.column i), U.value x < U.value m

theorem Emission.isMissing_combineAll (hout : e.MissingOutside U) {i : ℕ} (hi : i < e.points)
    {m : ctx.arithmetic.Real .double} (hm : e.missing = some m)
    {xs : List (ctx.arithmetic.Real e.precision)}
    (hxs : ∀ x ∈ xs, x ∈ valid ctx.arithmetic m (e.column i)) :
    isMissing ctx.arithmetic m
      (combineAll ctx.arithmetic (average ctx.arithmetic) (ctx.arithmetic.ofLong 0) xs) = false := by
  rw [Bool.eq_false_iff]
  intro hmissing
  have hvalue := (U.isMissing_iff m _).mp hmissing
  rw [U.value_combineAll] at hvalue
  obtain ⟨hzero, hrange⟩ := hout m hm
  by_cases hnil : xs = []
  · rw [hnil] at hvalue
    exact hzero (hvalue.trans (by simp [mean]))
  · have hne : xs.map U.value ≠ [] := mt List.map_eq_nil_iff.mp hnil
    obtain hbelow | habove := hrange i hi
    · exact (lt_mean hne (List.forall_mem_map.mpr fun x hx => hbelow x (hxs x hx))).ne hvalue
    · exact (mean_lt hne (List.forall_mem_map.mpr fun x hx => habove x (hxs x hx))).ne' hvalue

/-- At each point of each emission, the average is the mean of the values that count there. -/
theorem averages_exact (hA : ReadsValues ctx.arithmetic) (ht : ∀ t, e.threshold = some t → 1 ≤ t)
    (hout : e.MissingOutside U) (hemits : Emits ctx "average" e) :
    ∃ values, e.Emits values ∧ ∀ i < e.points, ∃ v, values[i]? = some v ∧ e.Meets U.IsMean i v := by
  have hcomputed := hemits.computed hA (combines_average ctx.arithmetic)
  obtain ⟨values, hvalues, hpoint⟩ := hcomputed.values
  refine ⟨values, hvalues, fun i hi => ⟨_, hpoint i hi, ?_⟩⟩
  unfold Emission.Meets
  cases hconsidered : e.considered i with
  | none =>
    obtain ⟨m, hm, hvalue⟩ := Emission.valueOf_of_not_considered hconsidered fun m _ x _ _ =>
      (U.isMissing_iff m _).mpr (U.ofDouble m).symm
    rw [hm]
    exact hvalue
  | some xs =>
    rw [Emission.valueOf_of_considered hconsidered fun m hm hnone pre x hpre => ?_]
    · exact ⟨Emission.considered_ne_nil (hcomputed.column_ne_nil hi) ht hconsidered,
      U.value_combineAll xs⟩
    · refine Emission.isMissing_combineAll U hout hi hm fun y hy => List.mem_filter.mpr ?_
      have hy := hpre.subset (List.mem_append_left [x] hy)
      rw [Emission.present_of_considered hconsidered hm hnone y hy]
      exact ⟨(Emission.sublist_of_considered hconsidered).mem hy, rfl⟩

end

/-- Averages of days, of as many values as the threshold asks for. -/
def gappyDays (threshold : ℤ) : Config :=
  { daily ["average"] with opt := { (daily ["average"]).opt with valueCountThreshold := some threshold } }

/-- Three hours, the second of which is missing, where two are enough. -/
def gappyDay : Emission exactArithmetic where
  precision := .double
  points := 1
  missing := some (exactArithmetic.ofBits 0x40C3878000000000)
  threshold := some 2
  inputs := [1, 9999, 3].map fun x => exactArithmetic.bytes .double (exactValues [x])
  payload := exactArithmetic.bytes .double (exactValues [2])

theorem averages_exact_gap : ∃ values, gappyDay.Emits values ∧
    ∃ v, values[0]? = some v ∧ gappyDay.Meets exactUnrounded.IsMean 0 v := by
  have hemits : Emits exactContext "average" gappyDay := by
    have hrun : ∃ r ∈ record exactContext.toStatisticsContext (gappyDays 2)
        (hourlyField 0 missing9999 [5]) [hourlyField 1 missing9999 [1],
          hourlyField 2 missing9999 [9999], hourlyField 3 missing9999 [3]],
        ∃ window ∈ r.2.emitted, window.1.map Message.payload = gappyDay.inputs ∧
          window.2[0]?.map Message.payload = some gappyDay.payload := by decide +kernel
    have hops : (gappyDays 2).operations = ["average"] := rfl
    have hsize : (hourlyField 0 missing9999 [5]).size / PrecisionTag.double.size = 1 := by
      decide +kernel
    refine emits_of_record hops (fun msg hmsg => ?_) rfl hsize hrun
    simp only [List.mem_cons, List.not_mem_nil, or_false] at hmsg
    obtain rfl | rfl | rfl | rfl := hmsg <;> rfl
  have hout : gappyDay.MissingOutside exactUnrounded := by
    intro m hm
    obtain rfl := Option.some.inj hm
    have hvalue : (BinaryFormat.of .double).decode (0x40C3878000000000 : UInt64).toNat = 9999 := by
      decide +kernel
    have hvalid : valid exactArithmetic (exactArithmetic.ofBits 0x40C3878000000000)
        (gappyDay.column 0) = exactValues [1, 3] := by decide +kernel
    refine ⟨ne_of_eq_of_ne hvalue (by decide), fun i hi => Or.inr fun x hx => ?_⟩
    obtain rfl := Nat.lt_one_iff.mp hi
    rw [hvalid] at hx
    refine lt_of_lt_of_eq (b := (9999 : ℚ)) ?_ hvalue.symm
    obtain rfl | hx := List.mem_cons.mp hx
    · exact (by decide : (1 : ℚ) < 9999)
    · exact List.mem_singleton.mp hx ▸ (by decide : (3 : ℚ) < 9999)
  have ht : ∀ t, gappyDay.threshold = some t → 1 ≤ t := fun t h => Option.some.inj h ▸ by decide
  obtain ⟨values, hvalues, hpoint⟩ :=
    averages_exact exactUnrounded exactArithmetic_readsValues ht hout hemits
  exact ⟨values, hvalues, hpoint 0 Nat.zero_lt_one⟩

end Multio.StatisticsMtg2
