import Multio.Action.Statistics.FieldHistory
import Multio.Action.StatisticsMtg2.UpdateModes
import Multio.Lib.RunningStatistics

namespace Multio.StatisticsMtg2
open Lib Exception

namespace Emission

variable {A : FloatArithmetic} (e : Emission A)

/-- The values of a window that make up what is emitted for a point: all of them, if none is
missing, or those that are not, if they reach the threshold. -/
def considered (i : ℕ) : Option (List (A.Real e.precision)) :=
  match e.missing, e.threshold with
  | none, _ => some (e.column i)
  | some m, none => if (e.column i).any (isMissing A m) then none else some (e.column i)
  | some m, some t =>
    if t ≤ (valid A m (e.column i)).length then some (valid A m (e.column i)) else none

/-- The emitted value has a property with the values that make it up; the missing value is emitted
where there are none. -/
def Meets (P : List (A.Real e.precision) → A.Real e.precision → Prop) (i : ℕ)
    (v : A.Real e.precision) : Prop :=
  match e.considered i, e.missing with
  | some xs, _ => P xs v
  | none, some m => v = A.ofDouble m
  | none, none => False

variable {e} {i : ℕ} {xs : List (A.Real e.precision)}
  {f : ℤ → A.Real e.precision → A.Real e.precision → A.Real e.precision} {v : A.Real e.precision}

theorem sublist_of_considered (h : e.considered i = some xs) : xs.Sublist (e.column i) := by
  unfold considered at h
  split at h
  · rw [← Option.some.inj h]
  · split_ifs at h
    rw [← Option.some.inj h]
  · split_ifs at h
    rw [← Option.some.inj h]
    exact List.filter_sublist

/-- Values only make up an emission without a threshold if none of them is missing. -/
theorem present_of_considered (h : e.considered i = some xs) {m : A.Real .double}
    (hm : e.missing = some m) (ht : e.threshold = none) : ∀ x ∈ xs, isMissing A m x = false := by
  unfold considered at h
  rw [hm, ht] at h
  simp only [] at h
  split_ifs at h with hmissing
  obtain rfl := Option.some.inj h
  rw [List.any_eq_true] at hmissing
  exact fun x hx => Bool.eq_false_iff.mpr fun hx' => hmissing ⟨x, hx, hx'⟩

theorem considered_ne_nil (hcolumn : e.column i ≠ []) (ht : ∀ t, e.threshold = some t → 1 ≤ t)
    (h : e.considered i = some xs) : xs ≠ [] := by
  unfold considered at h
  split at h
  · exact Option.some.inj h ▸ hcolumn
  · split_ifs at h
    exact Option.some.inj h ▸ hcolumn
  · rename_i m t _ hthreshold
    split_ifs at h with hreached
    rw [← Option.some.inj h]
    intro hnil
    rw [hnil] at hreached
    have := ht t hthreshold
    simp only [List.length_nil, Nat.cast_zero] at hreached
    omega

theorem Computed.column_ne_nil (h : e.Computed f v) (hi : i < e.points) : e.column i ≠ [] := by
  intro hnil
  have hlength := h.columns i hi
  rw [hnil] at hlength
  exact h.nonempty (List.length_eq_zero_iff.mp hlength.symm)

/-- What is combined is emitted, unless something counts as missing on the way. -/
theorem valueOf_of_considered (h : e.considered i = some xs)
    (hway : ∀ m, e.missing = some m → e.threshold = none → ∀ pre x, pre ++ [x] <+: xs →
      isMissing A m (combineAll A f v pre) = false) :
    e.valueOf (e.pointAfter f v i) = combineAll A f v xs := by
  obtain ⟨p, n, missing, threshold, inputs, payload⟩ := e
  unfold considered at h
  unfold valueOf pointAfter
  cases missing with
  | none =>
    obtain rfl := Option.some.inj h
    rfl
  | some m =>
    cases threshold with
    | none =>
      simp only [] at h
      split_ifs at h with hmissing
      obtain rfl := Option.some.inj h
      refine PointState.value_of_present (fun x hx => ?_) (hway m rfl rfl)
      rw [List.any_eq_true] at hmissing
      exact Bool.eq_false_iff.mpr fun hx' => hmissing ⟨x, hx, hx'⟩
    | some t =>
      simp only [] at h
      split_ifs at h with hreached
      obtain rfl := Option.some.inj h
      refine (if_neg ?_).trans PointState.value_eq
      exact not_lt.mpr (PointState.present_eq ▸ hreached)

theorem valueOf_of_missing {m : A.Real .double} (hmissing : e.missing = some m)
    (ht : e.threshold = none) (hm : isMissing A m (A.ofDouble m : A.Real e.precision) = true)
    (h : isMissing A m v = true ∧ e.column i ≠ [] ∨ ∃ x ∈ e.column i, isMissing A m x = true) :
    e.valueOf (e.pointAfter f v i) = A.ofDouble m := by
  obtain ⟨p, n, missing, threshold, inputs, payload⟩ := e
  obtain rfl : missing = some m := hmissing
  obtain rfl : threshold = none := ht
  exact PointState.value_of_missing hm h

theorem valueOf_of_not_considered (h : e.considered i = none)
    (hm : ∀ m, e.missing = some m → ∀ x ∈ e.column i, isMissing A m x = true →
      isMissing A m (A.ofDouble m : A.Real e.precision) = true) :
    ∃ m, e.missing = some m ∧ e.valueOf (e.pointAfter f v i) = A.ofDouble m := by
  unfold considered at h
  split at h
  · cases h
  · rename_i m hmissing ht
    split_ifs at h with hany
    obtain ⟨x, hx, hx'⟩ := List.any_eq_true.mp hany
    exact ⟨m, hmissing, valueOf_of_missing hmissing ht (hm m hmissing x hx hx') (Or.inr ⟨x, hx, hx'⟩)⟩
  · rename_i m t hmissing ht
    split_ifs at h with hreached
    refine ⟨m, hmissing, ?_⟩
    obtain ⟨p, n, missing, threshold, inputs, payload⟩ := e
    obtain rfl : missing = some m := hmissing
    obtain rfl : threshold = some t := ht
    exact if_pos (PointState.present_eq ▸ not_le.mp hreached)

end Emission

/-- What the actions emit for an operation with the name `opname`, in any history of a field. No other
operation of the field may advance the counters where they are needed. -/
inductive Emits (ctx : Statistics.StatisticsContext) (opname : String) :
    Emission ctx.arithmetic → Prop
  | statistics {conf : Statistics.Config} {missing : Option (ctx.arithmetic.Real .double)} {i : ℕ}
      {ts : Statistics.TemporalStatistics ctx} {h : Statistics.History} {p : PrecisionTag}
      {window : List Message × List Message} {msg : Message}
      (hi : conf.operations[i]? = some opname)
      (halone : PointsCounted missing conf.opt.valueCountThreshold →
        Statistics.CountsAlone conf.operations i)
      (hts : Statistics.Recorded conf missing ts h)
      (hp : h.initial.precision ctx.toContext = .ok p) (hwindow : window ∈ h.emitted)
      (hmsg : window.2[i]? = some msg) :
      Emits ctx opname (emissionOf ctx.arithmetic p (h.initial.size / p.size) missing
        conf.opt.valueCountThreshold window.1 msg)
  | statisticsMtg2 {conf : Config} {missing : Option (ctx.arithmetic.Real .double)} {i : ℕ}
      {ts : TemporalStatistics ctx.toStatisticsContext} {h : History} {p : PrecisionTag}
      {window : List Message × List Message} {msg : Message}
      (hi : conf.operations[i]? = some opname)
      (halone : PointsCounted missing conf.opt.valueCountThreshold → CountsAlone conf.operations i)
      (hts : Recorded conf missing ts h)
      (hp : h.initial.precision ctx.toContext = .ok p) (hwindow : window ∈ h.emitted)
      (hmsg : window.2[i]? = some msg) :
      Emits ctx opname (emissionOf ctx.arithmetic p (h.initial.size / p.size) missing
        conf.opt.valueCountThreshold window.1 msg)

/-- Both actions have the operation, and it begins with `v` and combines by `f`. -/
structure Combines (A : FloatArithmetic) (opname : String)
    (f : (p : PrecisionTag) → ℤ → A.Real p → A.Real p → A.Real p) (v : (p : PrecisionTag) → A.Real p) :
    Prop where
  statistics : ∃ k, Statistics.OperationKind.ofName opname = .ok k ∧
    (∀ p, k.combination A p = some (f p)) ∧ ∀ p, k.initialValue A p = v p
  statisticsMtg2 : ∃ k, OperationKind.ofName opname = .ok k ∧
    (∀ p, k.combination A p = some (f p)) ∧ ∀ p, k.initialValue A p = v p

theorem Emits.computed {ctx : Statistics.StatisticsContext} {opname : String}
    {e : Emission ctx.arithmetic} (hA : ReadsValues ctx.arithmetic)
    {f : (p : PrecisionTag) → ℤ → ctx.arithmetic.Real p → ctx.arithmetic.Real p →
      ctx.arithmetic.Real p} {v : (p : PrecisionTag) → ctx.arithmetic.Real p}
    (hop : Combines ctx.arithmetic opname f v) (h : Emits ctx opname e) :
    e.Computed (f e.precision) (v e.precision) := by
  cases h with
  | @statistics conf missing i ts h p window msg hi halone hts hp hwindow hmsg =>
    obtain ⟨k, hk, hf, hv⟩ := hop.statistics
    obtain ⟨op, hacc⟩ := Statistics.Recorded.accumulated hA hi hk hf halone hts
    obtain rfl := Except.ok.inj (hp.symm.trans hacc.precision)
    rw [← hv]
    exact hacc.emitted window hwindow msg hmsg
  | @statisticsMtg2 conf missing i ts h p window msg hi halone hts hp hwindow hmsg =>
    obtain ⟨k, hk, hf, hv⟩ := hop.statisticsMtg2
    obtain ⟨op, hacc⟩ := Recorded.accumulated hA hi hk hf halone hts
    obtain rfl := Except.ok.inj (hp.symm.trans hacc.precision)
    rw [← hv]
    exact hacc.emitted window hwindow msg hmsg

theorem emits_of_record {ctx : Statistics.StatisticsContext} {opname : String} {conf : Config}
    {missing : Option (ctx.arithmetic.Real .double)} {first : Message} {msgs : List Message}
    {p : PrecisionTag} {n : ℕ} {inputs : List (List UInt8)} {payload : List UInt8}
    (hops : conf.operations = [opname])
    (hmissing : ∀ msg ∈ first :: msgs,
      readMissingValue ctx.toStatisticsContext msg.metadata = .ok missing)
    (hp : first.precision ctx.toContext = .ok p) (hn : first.size / p.size = n)
    (hrun : ∃ r ∈ record ctx.toStatisticsContext conf first msgs, ∃ window ∈ r.2.emitted,
      window.1.map Message.payload = inputs ∧ window.2[0]?.map Message.payload = some payload) :
    Emits ctx opname { precision := p, points := n, missing, threshold := conf.opt.valueCountThreshold,
                       inputs, payload } := by
  obtain ⟨⟨ts, h⟩, hrecord, window, hwindow, rfl, hpayload⟩ := hrun
  obtain ⟨msg, hmsg, rfl⟩ := Option.map_eq_some_iff.mp hpayload
  obtain ⟨hts, rfl⟩ := recorded_of_record hmissing hrecord
  obtain rfl := hn
  refine .statisticsMtg2 (i := 0) (by rw [hops]; rfl) (fun _ => ?_) hts hp hwindow hmsg
  rw [hops]
  exact namedAlone_singleton opname

end Multio.StatisticsMtg2
