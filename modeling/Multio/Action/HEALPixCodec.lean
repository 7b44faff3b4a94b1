import Multio.Action.HEALPix
import Multio.Lib.Interleave
import Mathlib.Tactic.Positivity

namespace Multio.Action
open Exception Lib RenumberHealpix

theorem toInt_setWidth {b : BitVec 64} {v : ℕ} (hb : b.toNat = v) (hv : v < 2 ^ 31) :
    (b.setWidth 32).toInt = v := by
  have htoNat : (b.setWidth 32).toNat = v := by
    rw [BitVec.toNat_setWidth, hb, Nat.mod_eq_of_lt (by omega)]
  rw [BitVec.toInt_eq_toNat_of_lt (by omega), htoNat]

theorem nestEncodeBits_eq {n : ℕ} (hn : spreadBits n < 2 ^ 31) :
    nestEncodeBits tables n = spreadBits n := by
  have h32 : Spaced n 32 (BitVec.ofNat 64 n &&& 0x00000000ffffffff) :=
    spaced_half rfl (by decide : Masks 32 (0x00000000ffffffff : BitVec 64))
  have h16 := h32.spread (h := 16) (by decide) (by decide : Masks 16 0x0000ffff0000ffff)
  have h8 := h16.spread (h := 8) (by decide) (by decide : Masks 8 0x00ff00ff00ff00ff)
  have h4 := h8.spread (h := 4) (by decide) (by decide : Masks 4 0x0f0f0f0f0f0f0f0f)
  have h2 := h4.spread (h := 2) (by decide) (by decide : Masks 2 0x3333333333333333)
  have h1 := h2.spread (h := 1) (by decide) (by decide : Masks 1 0x5555555555555555)
  exact toInt_setWidth (toNat_of_spaced_one h1 (by omega)) hn

theorem nestDecodeBits_eq {n : ℕ} (hn : gatherBits n < 2 ^ 31) :
    nestDecodeBits tables n = gatherBits n := by
  have h1 : Spaced (gatherBits n) 1 (BitVec.ofNat 64 n &&& 0x5555555555555555) :=
    spaced_gather (by decide)
  have h2 := h1.gather (by decide) (by decide) (by decide : Masks 2 0x3333333333333333)
  have h4 := h2.gather (by decide) (by decide) (by decide : Masks 4 0x0f0f0f0f0f0f0f0f)
  have h8 := h4.gather (by decide) (by decide) (by decide : Masks 8 0x00ff00ff00ff00ff)
  have h16 := h8.gather (by decide) (by decide) (by decide : Masks 16 0x0000ffff0000ffff)
  have h32 := h16.gather (by decide) (by decide) (by decide : Masks 32 0x00000000ffffffff)
  exact toInt_setWidth (toNat_of_spaced_half rfl h32 (by omega)) hn

theorem two_pow_two_mul (k : ℕ) : 2 ^ (2 * k) = 4 ^ k := by
  rw [Nat.pow_mul]

theorem nestToFij_ok (ctx : HEALPixContext) {f m k : ℕ} (hk : k ≤ 15) (hm : m < 4 ^ k) :
    nestToFij tables ctx (f * 4 ^ k + m : ℕ) k =
      .ok (↑f, ↑(gatherBits m), ↑(gatherBits (m / 2))) := by
  have hpow : 2 ^ k < 2 ^ 31 := Nat.pow_lt_pow_right (by omega) (by omega)
  have hface : ((f * 4 ^ k + m : ℕ) : ℤ) >>> (2 * k) = f := by
    rw [Int.shiftRight_eq_div_pow, two_pow_two_mul, ← Int.natCast_ediv, Nat.mul_comm,
      Nat.mul_add_div (by positivity), Nat.div_eq_of_lt hm, Nat.add_zero]
  have hrest : ((f * 4 ^ k + m : ℕ) : ℤ) % 2 ^ (2 * k) = m := by
    rw [show (2 : ℤ) ^ (2 * k) = ((4 ^ k : ℕ) : ℤ) by rw [← two_pow_two_mul]; norm_cast,
      ← Int.natCast_emod, Nat.mul_comm, Nat.mul_add_mod, Nat.mod_eq_of_lt hm]
  have hhalf : (m : ℤ) >>> (1 : ℕ) = (m / 2 : ℕ) := by
    rw [Int.shiftRight_eq_div_pow, ← Int.natCast_ediv]
  rw [nestToFij, ctx.check_ok (decide_eq_true (Int.natCast_nonneg _)), ok_bind]
  simp only [hface, hrest, hhalf]
  rw [nestDecodeBits_eq ((gatherBits_lt hm).trans hpow),
    nestDecodeBits_eq ((gatherBits_lt (show m / 2 < 4 ^ k by omega)).trans hpow)]

theorem toInt_ofInt {x : ℤ} (h : -2 ^ 31 ≤ x ∧ x < 2 ^ 31) : (BitVec.ofInt 32 x).toInt = x := by
  rw [BitVec.toInt_ofInt, Int.bmod_eq_of_le h.1 h.2]

theorem fijToNest_gather {f m k : ℕ} (hk : k ≤ 15) (hm : m < 4 ^ k)
    (hlt : f * 4 ^ k + m < 2 ^ 31) :
    fijToNest tables f (gatherBits m) (gatherBits (m / 2)) k = (f * 4 ^ k + m : ℕ) := by
  have hpow : 4 ^ k < 2 ^ 31 := by
    rw [← two_pow_two_mul]
    exact Nat.pow_lt_pow_right (by omega) (by omega)
  have hm' := interleave_gather m
  have hpow' : (f : ℤ) <<< (2 * k) = (f * 4 ^ k : ℕ) := by
    rw [Int.shiftLeft_eq', two_pow_two_mul]
    norm_cast
  have hsum : f * 4 ^ k + spreadBits (gatherBits m) + spreadBits (gatherBits (m / 2)) * 2 ^ 1 =
      f * 4 ^ k + m := by omega
  rw [fijToNest, nestEncodeBits_eq (by omega), nestEncodeBits_eq (by omega), hpow',
    Int.shiftLeft_eq', ← Int.natCast_mul, ← Int.natCast_add, ← Int.natCast_add, hsum]
  exact toInt_ofInt ⟨by omega, by omega⟩

end Multio.Action
