import Mathlib.Data.List.Basic
import Mathlib.Data.Nat.ModEq

namespace Multio.Lib

variable {α : Type}

/-- The elements of a queue are in their slots; the first one has the number `c`. -/
def Stored (slot : ℕ → ℕ) (data : List α) (c : ℕ) (xs : List α) : Prop :=
  ∀ i x, xs[i]? = some x → data[slot (c + i)]? = some x

namespace Stored

variable {slot : ℕ → ℕ} {data : List α} {c : ℕ} {x : α} {xs : List α}

theorem nil (slot : ℕ → ℕ) (data : List α) (c : ℕ) : Stored slot data c [] := by
  intro i x hx
  rw [List.getElem?_nil] at hx
  cases hx

/-- An element goes in behind the others if none of them is in its slot. -/
theorem push (h : Stored slot data c xs) (hslot : slot (c + xs.length) < data.length)
    (hapart : ∀ i < xs.length, slot (c + i) ≠ slot (c + xs.length)) :
    Stored slot (data.set (slot (c + xs.length)) x) c (xs ++ [x]) := by
  intro i y hy
  -- an element that was there, the new one, or none
  obtain hi | rfl | hi := Nat.lt_trichotomy i xs.length
  · rw [List.getElem?_append_left hi] at hy
    rw [List.getElem?_set_ne (hapart i hi).symm]
    exact h i y hy
  · rw [List.getElem?_concat_length] at hy
    rw [List.getElem?_set_self hslot]
    exact hy
  · rw [List.getElem?_append_right hi.le, List.getElem?_singleton, if_neg (by omega)] at hy
    cases hy

theorem head (h : Stored slot data c (x :: xs)) : data[slot c]? = some x := h 0 x rfl

theorem pop (h : Stored slot data c (x :: xs)) : Stored slot data (c + 1) xs := by
  intro i y hy
  rw [Nat.add_assoc, Nat.add_comm 1 i]
  exact h (i + 1) y hy

end Stored

/-- The slot of a number that is counted modulo `m`. -/
def wrappedSlot (m n i : ℕ) : ℕ := i % m % n

/-- Two of `n` numbers in a row share a slot exactly if the count begins anew between them, and they
are as far from each other as the slots are from filling `m`. -/
theorem wrappedSlot_eq_iff {m n p q : ℕ} (hn : 0 < n) (hm : n ≤ m) (hq : q < p) (hp : p < q + n) :
    wrappedSlot m n q = wrappedSlot m n p ↔ m ≤ p ∧ p % m < m % n ∧ p = q + m % n := by
  have hpos : 0 < m := hn.trans_le hm
  have hplt := Nat.mod_lt p hpos
  have hqlt := Nat.mod_lt q hpos
  have hpdiv := Nat.div_add_mod p m
  have hqdiv := Nat.div_add_mod q m
  have hle : q / m ≤ p / m := Nat.div_le_div_right hq.le
  have hge : p / m ≤ q / m + 1 := by
    rw [← Nat.add_div_right q hpos]
    exact Nat.div_le_div_right (hp.le.trans (Nat.add_le_add_left hm q))
  unfold wrappedSlot
  obtain hround | hround := Nat.le_and_le_add_one_iff.mp ⟨hle, hge⟩
  · -- the count goes on, and the numbers are less than `n` apart
    rw [hround] at hpdiv
    have happart : ¬ q % m ≡ p % m [MOD n] := by
      rw [Nat.modEq_iff_dvd' (by omega)]
      intro hdvd
      have := Nat.le_of_dvd (by omega) hdvd
      omega
    constructor
    · exact fun h => absurd h happart
    · rintro ⟨-, hlt, hpq⟩
      omega
  · -- the count begins anew, and `m` is added to the distance
    rw [hround, Nat.mul_succ] at hpdiv
    have hmp : m ≤ p := by omega
    have happart : p % m ≡ q % m [MOD n] ↔ p - q ≡ m [MOD n] := by
      rw [Nat.modEq_iff_dvd' (by omega), Nat.modEq_iff_dvd' (by omega)]
      have hsame : q % m - p % m = m - (p - q) := by omega
      rw [hsame]
    have hdiff : p - q ≡ m [MOD n] ↔ p = q + m % n := by
      unfold Nat.ModEq
      rw [Nat.mod_eq_of_lt (by omega)]
      omega
    constructor
    · intro h
      have hpq := hdiff.mp (happart.mp h.symm)
      exact ⟨hmp, by omega, hpq⟩
    · rintro ⟨-, -, hpq⟩
      exact (happart.mpr (hdiff.mpr hpq)).symm

end Multio.Lib
