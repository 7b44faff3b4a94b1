import Mathlib.Algebra.Order.BigOperators.Group.Finset
import Mathlib.Algebra.BigOperators.Group.Finset.Piecewise
import Mathlib.Algebra.BigOperators.Ring.Finset

namespace Multio.Lib

variable {α κ : Type} (mark : α → Bool)

/-- What stands before the mark with number `k`. -/
def beforeMark : ℕ → List α → List α
  | _, [] => []
  | 0, a :: as => if mark a then [] else a :: beforeMark 0 as
  | k + 1, a :: as => a :: beforeMark (if mark a then k else k + 1) as

theorem prefix_beforeMark (k : ℕ) (as : List α) : beforeMark mark k as <+: as := by
  induction as generalizing k with
  | nil =>
    rw [beforeMark]
  | cons a as ih =>
    cases k with
    | zero =>
      rw [beforeMark]
      split_ifs
      · exact List.nil_prefix
      · exact (List.prefix_cons_inj a).mpr (ih 0)
    | succ k => exact (List.prefix_cons_inj a).mpr (ih _)

theorem beforeMark_append {k : ℕ} {as : List α} (h : k < as.countP mark) (bs : List α) :
    beforeMark mark k (as ++ bs) = beforeMark mark k as := by
  induction as generalizing k with
  | nil => simp at h
  | cons a as ih =>
    rw [List.countP_cons] at h
    rw [List.cons_append]
    cases k with
    | zero =>
      rw [beforeMark, beforeMark]
      split_ifs with ha
      · rfl
      · rw [if_neg ha] at h
        exact congrArg (a :: ·) (ih h)
    | succ k =>
      rw [beforeMark, beforeMark]
      refine congrArg (a :: ·) (ih ?_)
      split_ifs at h ⊢ <;> omega

theorem countP_eq_sum [DecidableEq κ] {parties : Finset κ} {key : α → κ} {as : List α}
    (h : ∀ a ∈ as, key a ∈ parties) :
    as.countP mark = ∑ c ∈ parties, (as.filter fun a => key a = c).countP mark := by
  induction as with
  | nil => simp
  | cons a as ih =>
    rw [List.forall_mem_cons] at h
    have hstep : ∀ c ∈ parties, ((a :: as).filter fun a => key a = c).countP mark =
        (as.filter fun a => key a = c).countP mark +
          if key a = c then (if mark a then 1 else 0) else 0 := by
      intro c _
      by_cases hc : key a = c
      · rw [List.filter_cons_of_pos (by simpa using hc), List.countP_cons, if_pos hc]
      · rw [List.filter_cons_of_neg (by simpa using hc), if_neg hc, Nat.add_zero]
    rw [Finset.sum_congr rfl hstep, Finset.sum_add_distrib, ← ih h.2, Finset.sum_ite_eq,
      if_pos h.1, List.countP_cons]

theorem card_mul_le_sum {parties : Finset κ} {marks : κ → ℕ} {n : ℕ}
    (hle : ∀ c ∈ parties, n ≤ marks c) : parties.card * n ≤ ∑ c ∈ parties, marks c := by
  have hconst : ∑ _c ∈ parties, n = parties.card * n := Finset.sum_const_nat fun _ _ => rfl
  rw [← hconst]
  exact Finset.sum_le_sum hle

/-- As many marks as there are in `n` rounds, none of which has two marks of one party. -/
theorem eq_of_sum_eq_card_mul {parties : Finset κ} {marks : κ → ℕ} {n : ℕ}
    (hle : ∀ c ∈ parties, marks c ≤ n) (hsum : ∑ c ∈ parties, marks c = parties.card * n) :
    ∀ c ∈ parties, marks c = n := by
  have hconst : ∑ _c ∈ parties, n = parties.card * n := Finset.sum_const_nat fun _ _ => rfl
  exact (Finset.sum_eq_sum_iff_of_le hle).mp (hsum.trans hconst.symm)

end Multio.Lib
