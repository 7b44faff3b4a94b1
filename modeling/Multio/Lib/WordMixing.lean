import Mathlib.Data.Nat.ModEq
import Mathlib.Data.Nat.Prime.Basic
import Mathlib.Data.List.Basic

namespace Multio.Lib.Word

/-- Words that agree in their `k` lowest bits. -/
def AgreeTo (k : ℕ) (a b : UInt64) : Prop := a.toNat ≡ b.toNat [MOD 2 ^ k]

instance (k : ℕ) (a b : UInt64) : Decidable (AgreeTo k a b) :=
  inferInstanceAs (Decidable (_ % _ = _ % _))

variable {k : ℕ} {a b m w : UInt64}

theorem agreeTo_64 : AgreeTo 64 a b ↔ a = b := by
  unfold AgreeTo Nat.ModEq
  rw [Nat.mod_eq_of_lt (by exact a.toNat_lt), Nat.mod_eq_of_lt (by exact b.toNat_lt),
    UInt64.toNat_inj]

theorem agreeTo_zero (a b : UInt64) : AgreeTo 0 a b := Nat.modEq_one

theorem mod_word_modEq (hk : k ≤ 64) (n : ℕ) : n % 2 ^ 64 ≡ n [MOD 2 ^ k] :=
  (Nat.mod_modEq n (2 ^ 64)).of_dvd (Nat.pow_dvd_pow 2 hk)

theorem agreeTo_xor_right : AgreeTo k (a ^^^ w) (b ^^^ w) ↔ AgreeTo k a b := by
  unfold AgreeTo Nat.ModEq
  rw [UInt64.toNat_xor, UInt64.toNat_xor, Nat.xor_mod_two_pow, Nat.xor_mod_two_pow]
  constructor
  · intro h
    -- the word cancels itself out
    have hcancel := congrArg (· ^^^ w.toNat % 2 ^ k) h
    simpa only [Nat.xor_assoc, Nat.xor_self, Nat.xor_zero] using hcancel
  · exact fun h => congrArg (· ^^^ w.toNat % 2 ^ k) h

theorem agreeTo_xor_left : AgreeTo k (w ^^^ a) (w ^^^ b) ↔ AgreeTo k a b := by
  rw [UInt64.xor_comm w a, UInt64.xor_comm w b]
  exact agreeTo_xor_right

theorem agreeTo_mul_right (hk : k ≤ 64) (hm : m.toNat % 2 = 1) :
    AgreeTo k (a * m) (b * m) ↔ AgreeTo k a b := by
  have hcoprime : Nat.gcd (2 ^ k) m.toNat = 1 :=
    Nat.Coprime.pow_left k (Nat.coprime_two_left.mpr (Nat.odd_iff.mpr hm))
  unfold AgreeTo
  rw [UInt64.toNat_mul, UInt64.toNat_mul]
  constructor
  · intro h
    have hprod := ((mod_word_modEq hk _).symm.trans h).trans (mod_word_modEq hk _)
    exact Nat.ModEq.cancel_right_of_coprime hcoprime hprod
  · intro h
    exact ((mod_word_modEq hk _).trans (h.mul_right _)).trans (mod_word_modEq hk _).symm

theorem agreeTo_shiftLeft (hk : k ≤ 64) :
    AgreeTo k (a <<< 1) (b <<< 1) ↔ AgreeTo (k - 1) a b := by
  cases k with
  | zero => exact iff_of_true (agreeTo_zero _ _) (agreeTo_zero _ _)
  | succ k =>
    have hshift (n : ℕ) : n <<< ((1 : UInt64).toNat % 64) = 2 * n := by
      rw [Nat.shiftLeft_eq, Nat.mul_comm]
      rfl
    unfold AgreeTo
    rw [UInt64.toNat_shiftLeft, UInt64.toNat_shiftLeft, hshift, hshift, Nat.add_sub_cancel,
      Nat.pow_succ']
    have hword (n : ℕ) : n % 2 ^ 64 ≡ n [MOD 2 * 2 ^ k] := by
      rw [← Nat.pow_succ']
      exact mod_word_modEq hk n
    constructor
    · intro h
      exact Nat.ModEq.mul_left_cancel' (by decide) (((hword _).symm.trans h).trans (hword _))
    · intro h
      exact ((hword _).trans (h.mul_left' 2)).trans (hword _).symm

/-- Where every step shifts a difference by one bit, so does every word that is taken in. -/
theorem agreeTo_foldl {f : UInt64 → UInt64 → UInt64}
    (hf : ∀ k ≤ 64, ∀ a b w, AgreeTo k (f a w) (f b w) ↔ AgreeTo (k - 1) a b) (hk : k ≤ 64)
    (ws : List UInt64) : AgreeTo k (ws.foldl f a) (ws.foldl f b) ↔ AgreeTo (k - ws.length) a b := by
  induction ws generalizing a b with
  | nil => exact Iff.rfl
  | cons w ws ih =>
    rw [List.foldl_cons, List.foldl_cons, ih, hf _ ((Nat.sub_le ..).trans hk), List.length_cons,
      Nat.sub_sub]

end Multio.Lib.Word
