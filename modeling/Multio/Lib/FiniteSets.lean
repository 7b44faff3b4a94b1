import Mathlib.Algebra.BigOperators.Ring.Finset
import Mathlib.Algebra.Order.BigOperators.Group.Finset
import Mathlib.Data.Set.Finite.Basic

namespace Multio.Lib

theorem exists_of_left_inverse {α ε : Type} {s : Set α} (hs : s.Finite) {f g : α → Except ε α}
    (h : ∀ a ∈ s, ∃ b ∈ s, f a = .ok b ∧ g b = .ok a) :
    ∀ b ∈ s, ∃ a ∈ s, g b = .ok a ∧ f a = .ok b := by
  choose! F hmem hf hg using h
  have hinj : Set.InjOn F hs.toFinset := by
    intro a ha a' ha' heq
    have ha := hg a (hs.mem_toFinset.mp ha)
    have ha' := hg a' (hs.mem_toFinset.mp ha')
    rw [heq, ha'] at ha
    exact (Except.ok.inj ha).symm
  have hmaps : Set.MapsTo F hs.toFinset hs.toFinset := by
    intro a ha
    exact hs.mem_toFinset.mpr (hmem a (hs.mem_toFinset.mp ha))
  have hsurj := Finset.surjOn_of_injOn_of_card_le F hmaps hinj (Nat.le_refl _)
  intro b hb
  obtain ⟨a, ha, rfl⟩ := hsurj (hs.mem_toFinset.mpr hb)
  have ha := hs.mem_toFinset.mp ha
  exact ⟨a, ha, hg a ha, hf a ha⟩

section

open Finset

variable {ι α : Type} [DecidableEq ι] [DecidableEq α]

theorem disjoint_of_sum_card_le {s : Finset ι} {t : ι → Finset α}
    (h : ∑ i ∈ s, (t i).card ≤ (s.biUnion t).card) :
    ∀ i ∈ s, ∀ j ∈ s, i ≠ j → Disjoint (t i) (t j) := by
  induction s using Finset.induction_on with
  | empty => simp
  | insert a s ha ih =>
    rw [sum_insert ha, biUnion_insert] at h
    have hunion := card_union_le (t a) (s.biUnion t)
    have hle := card_biUnion_le (s := s) (t := t)
    have hrest := ih (by omega)
    have hdisjoint : Disjoint (t a) (s.biUnion t) :=
      card_union_eq_card_add_card.mp (by omega)
    rw [disjoint_biUnion_right] at hdisjoint
    intro i hi j hj hij
    rcases mem_insert.mp hi with rfl | his
    · rcases mem_insert.mp hj with rfl | hjs
      · exact absurd rfl hij
      · exact hdisjoint j hjs
    · rcases mem_insert.mp hj with rfl | hjs
      · exact (hdisjoint i his).symm
      · exact hrest i his j hjs hij

omit [DecidableEq ι] in
theorem biUnion_eq_of_card_le {s : Finset ι} {t : ι → Finset α} {u : Finset α}
    (hcard : u.card ≤ (s.biUnion t).card) (hsub : ∀ i ∈ s, t i ⊆ u) : s.biUnion t = u :=
  eq_of_subset_of_card_le (biUnion_subset.mpr hsub) hcard

end

end Multio.Lib
