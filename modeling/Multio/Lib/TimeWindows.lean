import Mathlib.Data.Set.Card
import Mathlib.Order.Interval.Finset.Nat
import Mathlib.Data.Int.ConditionallyCompleteOrder
import Mathlib.Data.Int.SuccPred
import Mathlib.Order.Monotone.Basic
import Mathlib.Order.SuccPred.IntervalSucc

namespace Multio.Lib

variable {T : Type} [LinearOrder T] {time : ℕ → T}

/-- How many of the times up to the `j`-th lie after `w`. -/
def countAfter (time : ℕ → T) (w : T) (j : ℕ) : ℕ :=
  ((Finset.range (j + 1)).filter fun i => w < time i).card

theorem countAfter_succ {w : T} {j : ℕ} (h : w < time (j + 1)) :
    countAfter time w (j + 1) = countAfter time w j + 1 := by
  unfold countAfter
  rw [Finset.range_add_one (n := j + 1), Finset.filter_insert, if_pos h]
  apply Finset.card_insert_of_notMem
  simp

theorem countAfter_eq_zero (hmono : Monotone time) {w : T} {j : ℕ} (h : time j ≤ w) :
    countAfter time w j = 0 := by
  unfold countAfter
  rw [Finset.card_eq_zero, Finset.filter_eq_empty_iff]
  intro i hi
  apply not_lt_of_ge
  exact (hmono (Nat.le_of_lt_succ (Finset.mem_range.mp hi))).trans h

theorem countAfter_pos {w : T} {j : ℕ} (h : w < time j) : 0 < countAfter time w j := by
  apply Finset.card_pos.mpr
  exact ⟨j, Finset.mem_filter.mpr ⟨Finset.self_mem_range_succ j, h⟩⟩

/-- Counting up to a time is counting the times of the window that ends there. -/
theorem countAfter_eq_ncard (hmono : StrictMono time) (w : T) (j : ℕ) :
    countAfter time w j = {i | w < time i ∧ time i ≤ time j}.ncard := by
  rw [countAfter, ← Set.ncard_coe_finset]
  congr 1
  ext i
  simp only [Finset.coe_filter, Finset.mem_range, Set.mem_ofPred_eq, hmono.le_iff_le,
    Nat.lt_succ_iff]
  exact And.comm

section

variable {e : T} {j : ℕ} (hmono : StrictMono time) (he : e ∈ Set.range time) (h : time j < e)

include hmono he h

theorem next_le : time (j + 1) ≤ e := by
  obtain ⟨i, rfl⟩ := he
  exact hmono.monotone (hmono.lt_iff_lt.mp h)

/-- The time after the next one is past the end exactly if the next one is the end. -/
theorem lt_next_next_iff : e < time (j + 2) ↔ time (j + 1) = e := by
  obtain ⟨i, rfl⟩ := he
  have hji := hmono.lt_iff_lt.mp h
  rw [hmono.lt_iff_lt, hmono.injective.eq_iff]
  omega

end

/-- From the first of increasing points on, each time is between two of them that follow each
other. -/
theorem existsUnique_window {W : ℕ → ℤ} (hW : StrictMono W) {t : ℤ} (ht : W 0 ≤ t) :
    ∃! k, W k ≤ t ∧ t < W (k + 1) := by
  have hmem : t ∈ ⋃ k : ℕ, Set.Ico (W k) (W (Order.succ k)) := by
    rw [iUnion_Ico_map_succ_eq_Ici (fun k => hW.monotone (Nat.zero_le k))
      hW.not_bddAbove_range_of_isSuccArchimedean]
    exact ht
  obtain ⟨k, hk⟩ := Set.mem_iUnion.mp hmem
  refine ⟨k, hk, fun j hj => ?_⟩
  have hlt := hW.lt_iff_lt.mp (hj.1.trans_lt hk.2)
  have hgt := hW.lt_iff_lt.mp (hk.1.trans_lt hj.2)
  exact le_antisymm (Nat.lt_succ_iff.mp hlt) (Nat.lt_succ_iff.mp hgt)

end Multio.Lib
