import Mathlib.Algebra.BigOperators.Group.List.Lemmas
import Mathlib.Algebra.Order.BigOperators.Group.List
import Mathlib.Algebra.Order.Field.Basic
import Mathlib.Data.Nat.Cast.Order.Basic
import Mathlib.Tactic.FieldSimp
import Mathlib.Tactic.LinearCombination
import Mathlib.Tactic.Ring

namespace Multio.Lib

section

variable {α K : Type} [LinearOrder K] {value : α → K}

def Greatest (value : α → K) (xs : List α) (v : α) : Prop := v ∈ xs ∧ ∀ x ∈ xs, value x ≤ value v

def PicksGreater (value : α → K) (good : α → Prop) (pick : α → α → α) : Prop :=
  ∀ v x, good v → good x → pick v x = if value x < value v then v else x

variable {good : α → Prop} {pick : α → α → α} (hpick : PicksGreater value good pick)

include hpick

theorem foldl_pick_mem (xs : List α) {v : α} (hv : good v) (hxs : ∀ x ∈ xs, good x) :
    xs.foldl pick v ∈ xs ∨ xs.foldl pick v = v ∧ ∀ x ∈ xs, value x < value v := by
  induction xs generalizing v with
  | nil => exact Or.inr ⟨rfl, fun _ h => absurd h List.not_mem_nil⟩
  | cons x xs ih =>
    rw [List.forall_mem_cons] at hxs
    rw [List.foldl_cons, hpick v x hv hxs.1]
    split_ifs with hlt
    · refine (ih hv hxs.2).imp (List.mem_cons_of_mem x) fun h => ⟨h.1, ?_⟩
      exact List.forall_mem_cons.mpr ⟨hlt, h.2⟩
    · refine Or.inl ((ih hxs.1 hxs.2).elim (List.mem_cons_of_mem x) fun h => ?_)
      rw [h.1]
      exact List.mem_cons_self

theorem le_foldl_pick (xs : List α) {v : α} (hv : good v) (hxs : ∀ x ∈ xs, good x) :
    value v ≤ value (xs.foldl pick v) ∧ ∀ x ∈ xs, value x ≤ value (xs.foldl pick v) := by
  induction xs generalizing v with
  | nil => exact ⟨le_rfl, fun _ h => absurd h List.not_mem_nil⟩
  | cons x xs ih =>
    rw [List.forall_mem_cons] at hxs ⊢
    rw [List.foldl_cons, hpick v x hv hxs.1]
    split_ifs with hlt
    · obtain ⟨hle, hall⟩ := ih hv hxs.2
      exact ⟨hle, hlt.le.trans hle, hall⟩
    · obtain ⟨hle, hall⟩ := ih hxs.1 hxs.2
      exact ⟨(not_lt.mp hlt).trans hle, hle, hall⟩

theorem greatest_foldl_iff (xs : List α) {v : α} (hv : good v) (hxs : ∀ x ∈ xs, good x) :
    Greatest value xs (xs.foldl pick v) ↔ ∃ x ∈ xs, value v ≤ value x := by
  obtain ⟨hle, hall⟩ := le_foldl_pick hpick xs hv hxs
  constructor
  · exact fun h => ⟨_, h.1, hle⟩
  · intro h
    obtain ⟨x, hx, hvx⟩ := h
    obtain hmem | ⟨-, hbelow⟩ := foldl_pick_mem hpick xs hv hxs
    · exact ⟨hmem, hall⟩
    · exact absurd (hbelow x hx) (not_lt.mpr hvx)

end

section

variable {K : Type} [Field K]

def mean (xs : List K) : K := xs.sum / xs.length

def squaredDeviations (xs : List K) : K := (xs.map fun x => (x - mean xs) ^ 2).sum

variable [CharZero K]

theorem length_mul_mean (xs : List K) : xs.length * mean xs = xs.sum := by
  unfold mean
  by_cases hxs : xs = []
  · rw [hxs]
    simp
  · have hlen : (xs.length : K) ≠ 0 := Nat.cast_ne_zero.mpr (mt List.length_eq_zero_iff.mp hxs)
    exact mul_div_cancel₀ _ hlen

theorem mean_concat (xs : List K) (x : K) :
    mean (xs ++ [x]) = mean xs * (xs.length * (1 / (xs.length + 1))) + x * (1 / (xs.length + 1)) := by
  rw [← mul_assoc, mul_comm (mean xs), length_mul_mean, ← add_mul, mul_one_div]
  unfold mean
  rw [List.sum_append, List.sum_singleton, List.length_append, List.length_singleton,
    Nat.cast_add, Nat.cast_one]

theorem mean_concat' (xs : List K) (x : K) :
    mean (xs ++ [x]) = mean xs + 1 / (xs.length + 1) * (x - mean xs) := by
  have hlater : (xs.length : K) + 1 ≠ 0 := Nat.cast_add_one_ne_zero _
  rw [mean_concat]
  field_simp
  ring

theorem squaredDeviations_eq (xs : List K) :
    squaredDeviations xs = (xs.map (· ^ 2)).sum - xs.sum * mean xs := by
  have hexpand (μ : K) (ys : List K) : (ys.map fun x => (x - μ) ^ 2).sum =
      (ys.map (· ^ 2)).sum - 2 * μ * ys.sum + ys.length * μ ^ 2 := by
    induction ys with
    | nil => simp
    | cons y ys ih =>
      simp only [List.map_cons, List.sum_cons, ih, List.length_cons, Nat.cast_add, Nat.cast_one]
      ring
  unfold squaredDeviations
  rw [hexpand, pow_two, ← mul_assoc, length_mul_mean]
  ring

/-- The deviations of one more element from both means are what its square adds. -/
theorem squaredDeviations_concat (xs : List K) (x : K) :
    squaredDeviations (xs ++ [x]) =
      squaredDeviations xs + (x - mean xs) * (x - mean (xs ++ [x])) := by
  have hsum : (xs.length + 1) * mean (xs ++ [x]) = xs.sum + x := by
    have h := length_mul_mean (xs ++ [x])
    rwa [List.length_append, List.length_singleton, Nat.cast_add, Nat.cast_one, List.sum_append,
      List.sum_singleton] at h
  rw [squaredDeviations_eq, squaredDeviations_eq, List.map_append, List.sum_append, List.sum_append,
    List.map_singleton, List.sum_singleton, List.sum_singleton]
  -- both means are sums over their numbers of elements
  rw [← length_mul_mean xs] at hsum ⊢
  linear_combination (-mean xs) * hsum
end

section

variable {K : Type} [Field K] [LinearOrder K] [IsStrictOrderedRing K] {xs : List K} {m : K}

theorem lt_mean (hne : xs ≠ []) (h : ∀ x ∈ xs, m < x) : m < mean xs := by
  have hlen : (0 : K) < xs.length := Nat.cast_pos.mpr (List.length_pos_iff.mpr hne)
  have hsum := List.sum_lt_sum_of_ne_nil hne (fun _ => m) id h
  rw [List.map_id, List.map_const', List.sum_replicate, nsmul_eq_mul] at hsum
  unfold mean
  rw [lt_div_iff₀ hlen, mul_comm]
  exact hsum

theorem mean_lt (hne : xs ≠ []) (h : ∀ x ∈ xs, x < m) : mean xs < m := by
  have hlen : (0 : K) < xs.length := Nat.cast_pos.mpr (List.length_pos_iff.mpr hne)
  have hsum := List.sum_lt_sum_of_ne_nil hne id (fun _ => m) h
  rw [List.map_id, List.map_const', List.sum_replicate, nsmul_eq_mul] at hsum
  unfold mean
  rw [div_lt_iff₀ hlen, mul_comm]
  exact hsum

end
end Multio.Lib
