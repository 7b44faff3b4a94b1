import Mathlib.Data.Nat.Bitwise
import Mathlib.Tactic.Ring

namespace Multio.Lib

def spreadBits (n : ℕ) : ℕ := if n = 0 then 0 else n % 2 + 4 * spreadBits (n / 2)

def gatherBits (n : ℕ) : ℕ := if n = 0 then 0 else n % 2 + 2 * gatherBits (n / 4)

theorem spreadBits_eq (n : ℕ) : spreadBits n = n % 2 + 4 * spreadBits (n / 2) := by
  by_cases hn : n = 0
  · rw [hn]
    simp [spreadBits]
  · conv_lhs => rw [spreadBits, if_neg hn]

theorem gatherBits_eq (n : ℕ) : gatherBits n = n % 2 + 2 * gatherBits (n / 4) := by
  by_cases hn : n = 0
  · rw [hn]
    simp [gatherBits]
  · conv_lhs => rw [gatherBits, if_neg hn]

theorem gatherBits_lt {n k : ℕ} (h : n < 4 ^ k) : gatherBits n < 2 ^ k := by
  induction k generalizing n with
  | zero =>
    obtain rfl : n = 0 := by simpa using h
    simp [gatherBits]
  | succ k ih =>
    have hquarter : n / 4 < 4 ^ k := by omega
    have hlt := ih hquarter
    rw [gatherBits_eq, Nat.pow_succ]
    omega

theorem interleave_gather (n : ℕ) :
    spreadBits (gatherBits n) + 2 * spreadBits (gatherBits (n / 2)) = n := by
  induction n using Nat.strong_induction_on with
  | _ n ih =>
    by_cases hn : n = 0
    · rw [hn]
      simp [spreadBits, gatherBits]
    have heven := gatherBits_eq n
    have hodd := gatherBits_eq (n / 2)
    have hspread := spreadBits_eq (gatherBits n)
    have hspread' := spreadBits_eq (gatherBits (n / 2))
    have hhalf : gatherBits n / 2 = gatherBits (n / 4) := by omega
    have hhalf' : gatherBits (n / 2) / 2 = gatherBits (n / 4 / 2) := by
      rw [show n / 4 / 2 = n / 2 / 4 by omega]
      omega
    rw [hhalf] at hspread
    rw [hhalf'] at hspread'
    have hrest := ih (n / 4) (by omega)
    omega

theorem testBit_spread (n p : ℕ) :
    (spreadBits n).testBit p = (decide (p % 2 = 0) && n.testBit (p / 2)) := by
  induction p using Nat.strong_induction_on generalizing n with
  | _ p ih =>
    rw [spreadBits_eq]
    match p with
    | 0 => simp [Nat.testBit_zero]; omega
    | 1 => rw [Nat.testBit_eq_decide_div_mod_eq]; simp; omega
    | p + 2 =>
      have hshift : (n % 2 + 4 * spreadBits (n / 2)) / 2 / 2 = spreadBits (n / 2) := by omega
      have hplace : p / 2 + 1 = (p + 2) / 2 := by omega
      rw [Nat.testBit_succ, Nat.testBit_succ, hshift, ih p (by omega), Nat.testBit_div_two, hplace,
        Nat.add_mod_right]

theorem testBit_gather (n p : ℕ) : (gatherBits n).testBit p = n.testBit (2 * p) := by
  induction p generalizing n with
  | zero =>
    rw [gatherBits_eq, Nat.testBit_zero, Nat.testBit_zero]
    congr 2
    omega
  | succ p ih =>
    have hhalf : gatherBits n / 2 = gatherBits (n / 4) := by
      have := gatherBits_eq n
      omega
    rw [Nat.testBit_succ, hhalf, ih, show n / 4 = n / 2 / 2 by omega, Nat.testBit_div_two,
      Nat.testBit_div_two]
    congr 1

variable {W x h : ℕ} {b mask : BitVec W}

/-- Groups of `w` bits with as many zeros above each. -/
def Spaced (x w : ℕ) (b : BitVec W) : Prop :=
  ∀ p < W, b.getLsbD p = (decide (p / w % 2 = 0) && x.testBit (p / (w * 2) * w + p % w))

def Masks (w : ℕ) (mask : BitVec W) : Prop := ∀ p < W, mask.getLsbD p = decide (p / w % 2 = 0)

instance (w : ℕ) (mask : BitVec W) : Decidable (Masks w mask) :=
  inferInstanceAs (Decidable (∀ p < W, mask.getLsbD p = decide (p / w % 2 = 0)))

theorem exists_group (hh : 0 < h) (p : ℕ) : ∃ q r, r < h ∧ p = h * q + r :=
  ⟨p / h, p % h, Nat.mod_lt _ hh, (Nat.div_add_mod p h).symm⟩

theorem group_div {q r : ℕ} (hr : r < h) : (h * q + r) / h = q := by
  rw [Nat.mul_add_div (by omega), Nat.div_eq_of_lt hr, Nat.add_zero]

theorem group_mod {q r : ℕ} (hr : r < h) : (h * q + r) % h = r := by
  rw [Nat.mul_add_mod, Nat.mod_eq_of_lt hr]

theorem group_double {q r : ℕ} (hr : r < h) :
    (h * q + r) / (h * 2 * 2) * (h * 2) + (h * q + r) % (h * 2) =
      (q / 4 * 2 + q % 2) * h + r := by
  rw [Nat.mod_mul, ← Nat.div_div_eq_div_mul, ← Nat.div_div_eq_div_mul, group_div hr, group_mod hr,
    Nat.div_div_eq_div_mul]
  ring

theorem spaced_iff (hh : 0 < h) : Spaced x h b ↔ ∀ q r, r < h → h * q + r < W →
    b.getLsbD (h * q + r) = (decide (q % 2 = 0) && x.testBit (q / 2 * h + r)) := by
  constructor
  · intro hb q r hr hp
    rw [hb _ hp, ← Nat.div_div_eq_div_mul, group_div hr, group_mod hr]
  · intro hb p hp
    obtain ⟨q, r, hr, rfl⟩ := exists_group hh p
    rw [hb q r hr hp, ← Nat.div_div_eq_div_mul, group_div hr, group_mod hr]

theorem spaced_double_iff (hh : 0 < h) : Spaced x (h * 2) b ↔ ∀ q r, r < h → h * q + r < W →
    b.getLsbD (h * q + r) =
      (decide (q / 2 % 2 = 0) && x.testBit ((q / 4 * 2 + q % 2) * h + r)) := by
  constructor
  · intro hb q r hr hp
    rw [hb _ hp, group_double hr, ← Nat.div_div_eq_div_mul, group_div hr]
  · intro hb p hp
    obtain ⟨q, r, hr, rfl⟩ := exists_group hh p
    rw [hb q r hr hp, group_double hr, ← Nat.div_div_eq_div_mul, group_div hr]

theorem Masks.group (hmask : Masks h mask) {q r : ℕ} (hr : r < h) (hp : h * q + r < W) :
    mask.getLsbD (h * q + r) = decide (q % 2 = 0) := by
  rw [hmask _ hp, group_div hr]

theorem Masks.double (hmask : Masks (h * 2) mask) {q r : ℕ} (hr : r < h) (hp : h * q + r < W) :
    mask.getLsbD (h * q + r) = decide (q / 2 % 2 = 0) := by
  rw [hmask _ hp, ← Nat.div_div_eq_div_mul, group_div hr]

theorem Spaced.spread (hb : Spaced x (h * 2) b) (hh : 0 < h) (hmask : Masks h mask) :
    Spaced x h ((b ^^^ b <<< h) &&& mask) := by
  rw [spaced_double_iff hh] at hb
  rw [spaced_iff hh]
  intro q r hr hp
  rw [BitVec.getLsbD_and, BitVec.getLsbD_xor, BitVec.getLsbD_shiftLeft, hmask.group hr hp,
    hb q r hr hp, decide_eq_true hp]
  obtain rfl | ⟨q, rfl⟩ : q = 0 ∨ ∃ q', q = q' + 1 := by
    cases q with
    | zero => exact Or.inl rfl
    | succ q => exact Or.inr ⟨q, rfl⟩
  · rw [decide_eq_true (show h * 0 + r < h by omega)]
    simp
  · have hbelow : h * (q + 1) + r - h = h * q + r := by
      rw [Nat.mul_add, Nat.mul_one]
      omega
    have hge : ¬ h * (q + 1) + r < h := by
      rw [Nat.mul_add, Nat.mul_one]
      omega
    have hp' : h * q + r < W := by
      rw [← hbelow]
      exact (Nat.sub_le _ _).trans_lt hp
    rw [hbelow, hb q r hr hp', decide_eq_false hge]
    -- one of the two groups is empty, and the other one has the bit
    obtain ⟨a, rfl | rfl | rfl | rfl⟩ :
        ∃ a, q = 4 * a ∨ q = 4 * a + 1 ∨ q = 4 * a + 2 ∨ q = 4 * a + 3 := ⟨q / 4, by omega⟩
    · simp [show (4 * a + 1) % 2 = 1 by omega]
    · rw [show (4 * a + 1 + 1) / 2 % 2 = 1 by omega, show (4 * a + 1) / 2 % 2 = 0 by omega,
        show (4 * a + 1 + 1) % 2 = 0 by omega,
        show (4 * a + 1) / 4 * 2 + (4 * a + 1) % 2 = (4 * a + 1 + 1) / 2 by omega]
      simp
    · simp [show (4 * a + 2 + 1) % 2 = 1 by omega]
    · rw [show (4 * a + 3 + 1) / 2 % 2 = 0 by omega, show (4 * a + 3) / 2 % 2 = 1 by omega,
        show (4 * a + 3 + 1) % 2 = 0 by omega,
        show (4 * a + 3 + 1) / 4 * 2 + 0 = (4 * a + 3 + 1) / 2 by omega]
      simp

theorem Spaced.gather (hb : Spaced x h b) (hh : 0 < h) (hW : h * 4 ∣ W)
    (hmask : Masks (h * 2) mask) : Spaced x (h * 2) ((b ^^^ b >>> h) &&& mask) := by
  rw [spaced_iff hh] at hb
  rw [spaced_double_iff hh]
  intro q r hr hp
  have habove : h + (h * q + r) = h * (q + 1) + r := by ring
  rw [BitVec.getLsbD_and, BitVec.getLsbD_xor, BitVec.getLsbD_ushiftRight, hmask.double hr hp,
    hb q r hr hp, habove]
  -- groups at even places stay, those at odd places move next to them, and the mask takes the rest
  -- away
  obtain ⟨a, rfl | rfl | hq⟩ : ∃ a, q = 4 * a ∨ q = 4 * a + 1 ∨ q / 2 % 2 = 1 :=
    ⟨q / 4, by omega⟩
  · have hnext : b.getLsbD (h * (4 * a + 1) + r) = false := by
      rcases Nat.lt_or_ge (h * (4 * a + 1) + r) W with hlt | hge
      · rw [hb _ r hr hlt, show (4 * a + 1) % 2 = 1 by omega]
        rfl
      · exact BitVec.getLsbD_of_ge b _ hge
    rw [hnext, show 4 * a / 2 % 2 = 0 by omega, show 4 * a % 2 = 0 by omega,
      show 4 * a / 4 * 2 + 0 = 4 * a / 2 by omega]
    simp
  · have hlt : h * (4 * a + 1 + 1) + r < W := by
      obtain ⟨m, rfl⟩ := hW
      have ha : a < m := by
        by_contra hge
        have := Nat.mul_le_mul_left h (show 4 * m ≤ 4 * a + 1 by omega)
        rw [Nat.mul_assoc] at hp
        omega
      have := Nat.mul_le_mul_left h (show 4 * a + 1 + 1 + 1 ≤ 4 * m by omega)
      rw [Nat.mul_add h (4 * a + 1 + 1) 1, Nat.mul_one] at this
      rw [Nat.mul_assoc]
      omega
    rw [hb _ r hr hlt, show (4 * a + 1) % 2 = 1 by omega, show (4 * a + 1 + 1) % 2 = 0 by omega,
      show (4 * a + 1) / 2 % 2 = 0 by omega, show (4 * a + 1) / 4 * 2 + 1 = (4 * a + 1 + 1) / 2 by
        omega]
    simp
  · rw [hq]
    simp

theorem spaced_half (hW : W = h * 2) (hmask : Masks h mask) :
    Spaced x h (BitVec.ofNat W x &&& mask) := by
  intro p hp
  rw [BitVec.getLsbD_and, BitVec.getLsbD_ofNat, hmask p hp, decide_eq_true hp, Bool.true_and,
    Bool.and_comm]
  rcases Nat.lt_or_ge p h with hlt | hge
  · rw [Nat.div_eq_of_lt (by omega : p < h * 2), Nat.mod_eq_of_lt hlt, Nat.zero_mul, Nat.zero_add]
  · have hdiv : p / h = 1 := by
      rw [Nat.div_eq_iff (by omega)]
      omega
    rw [hdiv]
    rfl

theorem toNat_of_spaced_half (hW : W = h * 2) (hb : Spaced x h b) (hx : x < 2 ^ h) :
    b.toNat = x := by
  apply Nat.eq_of_testBit_eq
  intro p
  rw [BitVec.testBit_toNat]
  rcases Nat.lt_or_ge p W with hp | hp
  · rw [hb p hp]
    rcases Nat.lt_or_ge p h with hlt | hge
    · rw [Nat.div_eq_of_lt (by omega : p < h * 2), Nat.mod_eq_of_lt hlt, Nat.div_eq_of_lt hlt,
        Nat.zero_mul, Nat.zero_add]
      rfl
    · have hdiv : p / h = 1 := by
        rw [Nat.div_eq_iff (by omega)]
        omega
      rw [hdiv, Nat.testBit_lt_two_pow (hx.trans_le (Nat.pow_le_pow_right (by omega) hge))]
      rfl
  · rw [BitVec.getLsbD_of_ge b _ hp,
      Nat.testBit_lt_two_pow (hx.trans_le (Nat.pow_le_pow_right (by omega) (by omega)))]

theorem spaced_gather (hmask : Masks 1 mask) :
    Spaced (gatherBits x) 1 (BitVec.ofNat W x &&& mask) := by
  intro p hp
  rw [BitVec.getLsbD_and, BitVec.getLsbD_ofNat, hmask p hp, decide_eq_true hp, Bool.true_and,
    Bool.and_comm, testBit_gather, Nat.div_one, Nat.mod_one, Nat.one_mul, Nat.mul_one, Nat.add_zero]
  by_cases heven : p % 2 = 0
  · rw [show 2 * (p / 2) = p by omega]
  · rw [decide_eq_false heven, Bool.false_and, Bool.false_and]

theorem toNat_of_spaced_one (hb : Spaced x 1 b) (hx : spreadBits x < 2 ^ W) :
    b.toNat = spreadBits x := by
  apply Nat.eq_of_testBit_eq
  intro p
  rw [BitVec.testBit_toNat, testBit_spread]
  rcases Nat.lt_or_ge p W with hp | hp
  · rw [hb p hp, Nat.div_one, Nat.mod_one, Nat.one_mul, Nat.mul_one, Nat.add_zero]
  · rw [BitVec.getLsbD_of_ge b _ hp, ← testBit_spread,
      Nat.testBit_lt_two_pow (hx.trans_le (Nat.pow_le_pow_right (by omega) hp))]

end Multio.Lib
