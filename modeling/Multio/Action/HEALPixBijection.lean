import Multio.Action.HEALPixCodec
import Multio.Lib.FiniteSets
import Mathlib.Tactic.IntervalCases
import Mathlib.Tactic.Linarith
import Mathlib.Order.Interval.Finset.Basic
import Mathlib.Data.Int.Interval

namespace Multio.Action
open Exception Lib RenumberHealpix

/-- A valid object of side length `N`. -/
structure HEALPix.Sized (h : HEALPix) (N : ℤ) : Prop where
  two_le : 2 ≤ N
  even : N % 2 = 0
  le : N ≤ 8192
  Nside : h.Nside = N
  Npix : h.Npix = 12 * (N * N)
  Ncap : h.Ncap = 2 * (N * (N - 1))
  pow : (2 : ℤ) ^ h.k = N

theorem shiftRight_one (x : ℤ) : x >>> (1 : ℕ) = x / 2 := Int.shiftRight_eq_div_pow x 1

theorem shiftRight_two (x : ℤ) : x >>> (2 : ℕ) = x / 4 := Int.shiftRight_eq_div_pow x 2

theorem shiftLeft_one (x : ℤ) : x <<< (1 : ℕ) = x * 2 := Int.shiftLeft_eq x 1

theorem pll_polar {g : ℤ} (hg : 0 ≤ g ∧ g < 4) :
    pll tables g = .ok (2 * g + 1) ∧ pll tables (g + 8) = .ok (2 * g + 1) := by
  obtain ⟨h₁, h₂⟩ := hg
  interval_cases g <;> exact ⟨rfl, rfl⟩

theorem pll_belt {g : ℤ} (hg : 0 ≤ g ∧ g < 4) : pll tables (g + 4) = .ok (2 * g) := by
  obtain ⟨h₁, h₂⟩ := hg
  interval_cases g <;> rfl

theorem div03_eq {g a b : ℤ} (hg : 0 ≤ g ∧ g < 4) (ha : 0 ≤ a ∧ a < b) :
    div03 (g * b + a) b = g := by
  obtain ⟨h₁, h₂⟩ := hg
  unfold div03
  simp only [shiftLeft_one]
  interval_cases g <;> split_ifs <;> omega

theorem ring_of_sqrt (ctx : HEALPixContext) {x R : ℤ} (hR : 1 ≤ R)
    (hlo : (2 * R - 1) * (2 * R - 1) ≤ x) (hhi : x < (2 * R + 1) * (2 * R + 1))
    (hx : x < 2 ^ 31) : (1 + ctx.sqrt x) / 2 = R := by
  obtain ⟨hpos, hle, hlt⟩ := ctx.exact x (by nlinarith) hx
  have hge : 2 * R - 1 ≤ ctx.sqrt x := by
    by_contra hcon
    nlinarith
  have hlt' : ctx.sqrt x < 2 * R + 1 := by
    by_contra hcon
    nlinarith
  omega

theorem index_lt {g a R : ℤ} (hg : 0 ≤ g ∧ g < 4) (ha : 0 ≤ a ∧ a < R) :
    0 ≤ g * R + a ∧ g * R + a < 4 * R := by
  obtain ⟨h₁, h₂⟩ := hg
  interval_cases g <;> omega

theorem quotient_eq {x q a N : ℤ} (hx : x = q * N + a) (ha : 0 ≤ a ∧ a < N) : x / N = q := by
  rw [hx, Int.add_comm, Int.add_mul_ediv_right _ _ (by omega), Int.ediv_eq_zero_of_lt ha.1 ha.2,
    Int.zero_add]

namespace HEALPix.Sized

variable (ctx : HEALPixContext) {h : HEALPix} {N : ℤ} (hs : h.Sized N)
include hs

theorem shiftRight_k (x : ℤ) : x >>> h.k = x / N := by
  rw [Int.shiftRight_eq_div_pow, ← hs.pow]
  norm_cast

theorem shiftLeft_k (x : ℤ) : x <<< h.k = x * N := by
  rw [Int.shiftLeft_eq, hs.pow]

theorem shiftRight_k_two (x : ℤ) : x >>> (h.k + 2) = x / (4 * N) := by
  rw [Int.shiftRight_eq_div_pow, ← hs.pow, Nat.pow_add]
  congr 1
  push_cast
  ring

variable {f i j ring Nring phi shift c idx : ℤ}

theorem toNest_ok (hf : f < 12) (hc : pll tables f = .ok c) (hi : 0 ≤ i ∧ i < N)
    (hj : 0 ≤ j ∧ j < N) (hr : (2 + f / 4) * N - ring - 1 = i + j)
    (hp : 2 * phi - c * Nring - shift - 1 = i - j ∨
      2 * phi - c * Nring - shift - 1 = i - j + 8 * N) :
    h.toNest tables ctx f ring Nring phi shift = .ok (fijToNest tables f i j h.k) := by
  have hwrap : (if 2 * phi - c * Nring - shift - 1 ≥ 2 * N then
      2 * phi - c * Nring - shift - 1 - 8 * N else 2 * phi - c * Nring - shift - 1) = i - j := by
    split_ifs <;> omega
  rw [HEALPix.toNest, hc, ok_bind]
  simp only [shiftRight_one, shiftRight_two, hs.shiftLeft_k, hs.Nside]
  rw [hwrap, hr, show (i + j + (i - j)) / 2 = i by omega, show (i + j - (i - j)) / 2 = j by omega,
    ctx.check_ok (decide_eq_true ⟨hf, hi.2, hj.2⟩), ok_bind]

theorem toRingLocal_ok (hc : pll tables f = .ok c)
    (hidx : c * Nring + i - j + 1 + shift = 2 * (idx + 1) ∧ 0 ≤ idx ∨
      c * Nring + i - j + 1 + shift = 2 * (idx + 1) - 8 * N ∧ idx < 4 * N)
    (hlt : idx < 4 * Nring) :
    h.toRingLocal tables ctx f i j (4 * Nring) shift = .ok idx := by
  have htwo := hs.two_le
  have hquarter : (4 * Nring) >>> (2 : ℕ) = Nring := by
    rw [shiftRight_two]
    omega
  rw [HEALPix.toRingLocal, hc, ok_bind]
  simp only [hquarter, hs.Nside]
  rcases hidx with ⟨hx, hpos⟩ | ⟨hx, hlow⟩
  · rw [hx, Int.mul_tdiv_cancel_left _ (by omega), ctx.check_ok (decide_eq_true (by omega)), ok_bind,
      if_neg (by omega)]
    congr 1
    omega
  · rw [hx, show 2 * (idx + 1) - 8 * N = 2 * (idx + 1 - 4 * N) by ring,
      Int.mul_tdiv_cancel_left _ (by omega), ctx.check_ok (decide_eq_true (by omega)), ok_bind,
      if_pos (by omega)]
    congr 1
    omega

variable {g a R t : ℤ}

theorem mul_self_le : N * N ≤ 67108864 := by
  have htwo := hs.two_le
  have hle := hs.le
  nlinarith

include hs in
/-- The pixels of a polar cap up to a ring, within those of the square of side `N`. -/
theorem ring_mul_self_le (hR : 1 ≤ R ∧ R < N) : R * R + R ≤ N * N - N := by
  have htwo := hs.two_le
  nlinarith

include hs in
theorem belt_mul_le (ht : 0 ≤ t ∧ t ≤ 2 * N) : t * N ≤ 2 * (N * N) := by
  have htwo := hs.two_le
  nlinarith

theorem ringToNest_north (hR : 1 ≤ R ∧ R < N) (hg : 0 ≤ g ∧ g < 4) (ha : 0 ≤ a ∧ a < R) :
    h.ringToNest tables ctx (2 * R * (R - 1) + (g * R + a)) =
      h.toNest tables ctx g R R (g * R + a + 1) 0 := by
  obtain ⟨hlo, hhi⟩ := index_lt hg ha
  have hNN := hs.mul_self_le
  have hRN := hs.ring_mul_self_le hR
  have hring : (1 + ctx.sqrt (2 * (2 * R * (R - 1) + (g * R + a)) + 1)) / 2 = R :=
    ring_of_sqrt ctx hR.1 (by linarith) (by linarith) (by linarith)
  have hphi : 1 + (2 * R * (R - 1) + (g * R + a)) - 2 * R * (R - 1) = g * R + a + 1 := by ring
  have hcap : 2 * R * (R - 1) + (g * R + a) < h.Ncap := by
    rw [hs.Ncap]
    linarith
  have hRR : 0 ≤ R * (R - 1) := mul_nonneg (by omega) (by omega)
  rw [HEALPix.ringToNest, if_pos hcap, int32_ok (by constructor <;> linarith), ok_bind]
  simp only [shiftRight_one]
  rw [hring, hphi, int32_ok (by constructor <;> linarith), ok_bind, add_sub_cancel_right,
    div03_eq hg ha]

theorem ringToNest_south (hR : 1 ≤ R ∧ R < N) (hg : 0 ≤ g ∧ g < 4) (ha : 0 ≤ a ∧ a < R) :
    h.ringToNest tables ctx (12 * (N * N) - 2 * R * (R + 1) + (g * R + a)) =
      h.toNest tables ctx (g + 8) (4 * N - R) R (g * R + a + 1) 0 := by
  obtain ⟨hlo, hhi⟩ := index_lt hg ha
  have hNN := hs.mul_self_le
  have hRN := hs.ring_mul_self_le hR
  have hRR : 0 ≤ R * R := mul_self_nonneg R
  set r := 12 * (N * N) - 2 * R * (R + 1) + (g * R + a) with hr
  have hring : (1 + ctx.sqrt (2 * (12 * (N * N)) - 2 * r - 1)) / 2 = R :=
    ring_of_sqrt ctx hR.1 (by linarith) (by linarith) (by linarith)
  have hsum : 1 + r + 2 * R * (R - 1) + 4 * R = g * R + a + 1 + 12 * (N * N) := by
    rw [hr]
    ring
  have hcap : ¬ r < h.Ncap := by
    rw [hs.Ncap, not_lt]
    linarith
  have hcap' : h.Npix - h.Ncap ≤ r := by
    rw [hs.Npix, hs.Ncap]
    linarith
  rw [HEALPix.ringToNest, if_neg hcap, if_pos hcap', hs.Npix, hs.Nside,
    int32_ok (by constructor <;> linarith), ok_bind, int32_ok (by constructor <;> linarith),
    ok_bind]
  simp only [shiftRight_one]
  rw [hring, hsum, int32_ok (by constructor <;> linarith), ok_bind,
    int32_ok (by constructor <;> linarith), ok_bind, add_sub_cancel_right, add_sub_cancel_right,
    div03_eq hg ha]

/-- The face between the two diagonals through a pixel of the belt. -/
def beltFace (ifm ifp : ℤ) : ℤ :=
  if ifp = ifm then Int.lor ifp 4 else if ifp < ifm then ifp else ifm + 8

theorem ringToNest_belt (ht : 0 ≤ t ∧ t ≤ 2 * N) (hidx : 0 ≤ idx ∧ idx < 4 * N) :
    h.ringToNest tables ctx (2 * (N * (N - 1)) + t * (4 * N) + idx) =
      h.toNest tables ctx
        (beltFace (1 + (idx - (1 + t) / 2) / N) (1 + (idx - (1 - t + 2 * N) / 2) / N))
        (t + N) N (idx + 1) ((t + N) % 2) := by
  have htwo := hs.two_le
  have htN : 0 ≤ t * N := mul_nonneg ht.1 (by omega)
  have htN' := hs.belt_mul_le ht
  set r := 2 * (N * (N - 1)) + t * (4 * N) + idx with hr
  have hcap : ¬ r < h.Ncap := by
    rw [hs.Ncap, not_lt]
    linarith
  have hcap' : ¬ h.Npix - h.Ncap ≤ r := by
    rw [hs.Npix, hs.Ncap, not_le]
    linarith
  have hip : r - h.Ncap = t * (4 * N) + idx := by
    rw [hs.Ncap, hr]
    ring
  have htmp : (t * (4 * N) + idx) / (4 * N) = t := by
    rw [Int.add_comm, Int.add_mul_ediv_right _ _ (by omega), Int.ediv_eq_zero_of_lt hidx.1 hidx.2,
      Int.zero_add]
  have hphi : t * (4 * N) + idx - t * 4 * N + 1 = idx + 1 := by ring
  rw [HEALPix.ringToNest, if_neg hcap, if_neg hcap', hip]
  simp only [shiftRight_one, hs.shiftRight_k, hs.shiftRight_k_two, hs.Nside, htmp, hphi,
    add_sub_cancel_right]
  rfl

variable {n : ℤ}

theorem nestToRing_ok (hfij : nestToFij tables ctx n h.k = .ok (f, i, j)) (hf : f < 12)
    (hi : i < N) (hj : j < N) (hring : (f / 4 + 2) * N - i - j - 1 = ring) :
    h.nestToRing tables ctx n =
      (if ring < N then do
        let r0 ← int32 (2 * ring * (ring - 1))
        int32 (r0 + (← h.toRingLocal tables ctx f i j (4 * ring) 0))
      else if ring < 3 * N then do
        let r0 ← int32 (2 * (N * (N - 1)) + (ring - N) * (4 * N))
        int32 (r0 + (← h.toRingLocal tables ctx f i j (4 * N) ((ring - N) % 2)))
      else do
        let r0 ← int32 (12 * (N * N) - 2 * (4 * N - ring) * (4 * N - ring + 1))
        int32 (r0 + (← h.toRingLocal tables ctx f i j (4 * (4 * N - ring)) 0)) :
        Except Exception ℤ) := by
  rw [HEALPix.nestToRing, hfij, ok_bind]
  simp only [shiftRight_two, hs.Nside, hs.Npix, hs.Ncap, hring]
  rw [ctx.check_ok (decide_eq_true ⟨hf, hi, hj⟩), ok_bind]

theorem nestToRing_north (hfij : nestToFij tables ctx n h.k = .ok (f, i, j)) (hf : f < 12)
    (hi : i < N) (hj : j < N) (hring : (f / 4 + 2) * N - i - j - 1 = R) (hR : 1 ≤ R ∧ R < N)
    (hlocal : h.toRingLocal tables ctx f i j (4 * R) 0 = .ok idx) (hidx : 0 ≤ idx ∧ idx < 4 * R) :
    h.nestToRing tables ctx n = .ok (2 * R * (R - 1) + idx) := by
  have hNN := hs.mul_self_le
  have hRN := hs.ring_mul_self_le hR
  have hRR : 0 ≤ R * (R - 1) := mul_nonneg (by omega) (by omega)
  rw [hs.nestToRing_ok ctx hfij hf hi hj hring, if_pos hR.2, int32_ok (by constructor <;> linarith),
    ok_bind, hlocal, ok_bind, int32_ok (by constructor <;> linarith)]

theorem nestToRing_south (hfij : nestToFij tables ctx n h.k = .ok (f, i, j)) (hf : f < 12)
    (hi : i < N) (hj : j < N) (hring : (f / 4 + 2) * N - i - j - 1 = 4 * N - R)
    (hR : 1 ≤ R ∧ R ≤ N) (hlocal : h.toRingLocal tables ctx f i j (4 * R) 0 = .ok idx)
    (hidx : 0 ≤ idx ∧ idx < 4 * R) :
    h.nestToRing tables ctx n = .ok (12 * (N * N) - 2 * R * (R + 1) + idx) := by
  have hNN := hs.mul_self_le
  have hle := hs.le
  have hRN : R * R ≤ N * N := by nlinarith
  have hRR : 0 ≤ R * R := mul_self_nonneg R
  rw [hs.nestToRing_ok ctx hfij hf hi hj hring, if_neg (by omega), if_neg (by omega),
    show 4 * N - (4 * N - R) = R by ring, int32_ok (by constructor <;> linarith), ok_bind, hlocal,
    ok_bind, int32_ok (by constructor <;> linarith)]

theorem nestToRing_belt (hfij : nestToFij tables ctx n h.k = .ok (f, i, j)) (hf : f < 12)
    (hi : i < N) (hj : j < N) (hring : (f / 4 + 2) * N - i - j - 1 = t + N)
    (ht : 0 ≤ t ∧ t < 2 * N) (hlocal : h.toRingLocal tables ctx f i j (4 * N) (t % 2) = .ok idx)
    (hidx : 0 ≤ idx ∧ idx < 4 * N) :
    h.nestToRing tables ctx n = .ok (2 * (N * (N - 1)) + t * (4 * N) + idx) := by
  have hNN := hs.mul_self_le
  have htwo := hs.two_le
  have hle := hs.le
  have htN : 0 ≤ t * N := mul_nonneg ht.1 (by omega)
  have htN' := hs.belt_mul_le ⟨ht.1, ht.2.le⟩
  have hNN' : 0 ≤ N * (N - 1) := mul_nonneg (by omega) (by omega)
  rw [hs.nestToRing_ok ctx hfij hf hi hj hring, if_neg (by omega), if_pos (by omega),
    add_sub_cancel_right, int32_ok (by constructor <;> linarith), ok_bind, hlocal, ok_bind,
    int32_ok (by constructor <;> linarith)]

/-- The ring index of a pixel leads back to its face and coordinates. -/
def RoundTrips (h : HEALPix) (ctx : HEALPixContext) (N n f i j : ℤ) : Prop :=
  ∃ r, (0 ≤ r ∧ r < 12 * (N * N)) ∧ h.nestToRing tables ctx n = .ok r ∧
    h.ringToNest tables ctx r = .ok (fijToNest tables f i j h.k)

theorem roundTrips_north (hfij : nestToFij tables ctx n h.k = .ok (f, i, j)) (hfg : f = g)
    (hg : 0 ≤ g ∧ g < 4) (hi : 0 ≤ i ∧ i < N) (hj : 0 ≤ j ∧ j < N)
    (hring : 2 * N - i - j - 1 < N) : RoundTrips h ctx N n f i j := by
  set R := 2 * N - i - j - 1 with hR
  have hR' : 1 ≤ R ∧ R < N := ⟨by omega, hring⟩
  have ha : 0 ≤ N - 1 - j ∧ N - 1 - j < R := by omega
  have hidx := index_lt hg ha
  have hc : pll tables f = .ok (2 * g + 1) := hfg ▸ (pll_polar hg).1
  have hface : f / 4 = 0 := by omega
  have hx : (2 * g + 1) * R + i - j + 1 + 0 = 2 * (g * R + (N - 1 - j) + 1) := by
    rw [hR]
    ring
  have hlocal := hs.toRingLocal_ok ctx hc (Or.inl ⟨hx, hidx.1⟩) hidx.2
  have hring' : (f / 4 + 2) * N - i - j - 1 = R := by rw [hface, hR]; ring
  have hRN := hs.ring_mul_self_le hR'
  have hRR : 0 ≤ R * (R - 1) := mul_nonneg (by omega) (by omega)
  refine ⟨_, ?_, hs.nestToRing_north ctx hfij (by omega) hi.2 hj.2 hring' hR' hlocal hidx, ?_⟩
  · constructor <;> linarith
  · rw [hs.ringToNest_north ctx hR' hg ha, hfg]
    refine hs.toNest_ok ctx (by omega) (pll_polar hg).1 hi hj ?_ (Or.inl ?_)
    · rw [show g / 4 = 0 by omega, hR]
      ring
    · linarith

theorem roundTrips_south (hfij : nestToFij tables ctx n h.k = .ok (f, i, j)) (hfg : f = g + 8)
    (hg : 0 ≤ g ∧ g < 4) (hi : 0 ≤ i ∧ i < N) (hj : 0 ≤ j ∧ j < N) (hring : i + j + 1 < N) :
    RoundTrips h ctx N n f i j := by
  set R := i + j + 1 with hR
  have hR' : 1 ≤ R ∧ R < N := ⟨by omega, hring⟩
  have ha : 0 ≤ i ∧ i < R := by omega
  have hidx := index_lt hg ha
  have hc : pll tables f = .ok (2 * g + 1) := hfg ▸ (pll_polar hg).2
  have hface : f / 4 = 2 := by omega
  have hx : (2 * g + 1) * R + i - j + 1 + 0 = 2 * (g * R + i + 1) := by
    rw [hR]
    ring
  have hlocal := hs.toRingLocal_ok ctx hc (Or.inl ⟨hx, hidx.1⟩) hidx.2
  have hring' : (f / 4 + 2) * N - i - j - 1 = 4 * N - R := by rw [hface, hR]; ring
  have hRN := hs.ring_mul_self_le hR'
  have hRR : R ≤ R * R := le_mul_of_one_le_left (by omega) hR'.1
  refine ⟨_, ?_, hs.nestToRing_south ctx hfij (by omega) hi.2 hj.2 hring' ⟨hR'.1, hR'.2.le⟩ hlocal hidx,
    ?_⟩
  · constructor <;> linarith
  · rw [hs.ringToNest_south ctx hR' hg ha, ← hfg]
    refine hs.toNest_ok ctx (by omega) hc hi hj ?_ (Or.inl ?_)
    · rw [hface, hR]
      ring
    · linarith

/-- A pixel of the belt, given its ring, its index and the face that the index tells. -/
theorem roundTrips_belt (hfij : nestToFij tables ctx n h.k = .ok (f, i, j)) (hf : 0 ≤ f ∧ f < 12)
    (hc : pll tables f = .ok c) (hi : 0 ≤ i ∧ i < N) (hj : 0 ≤ j ∧ j < N)
    (hring : (f / 4 + 2) * N - i - j - 1 = t + N) (ht : 0 ≤ t ∧ t ≤ 2 * N)
    (hidx : 0 ≤ idx ∧ idx < 4 * N)
    (hx : c * N + i - j + 1 + t % 2 = 2 * (idx + 1) ∨
      c * N + i - j + 1 + t % 2 = 2 * (idx + 1) - 8 * N)
    (hface : beltFace (1 + (idx - (1 + t) / 2) / N) (1 + (idx - (1 - t + 2 * N) / 2) / N) = f) :
    RoundTrips h ctx N n f i j := by
  have htwo := hs.two_le
  have heven := hs.even
  have hlocal : h.toRingLocal tables ctx f i j (4 * N) (t % 2) = .ok idx :=
    hs.toRingLocal_ok ctx hc (hx.imp (fun hx => ⟨hx, hidx.1⟩) fun hx => ⟨hx, hidx.2⟩) hidx.2
  have htN : 0 ≤ t * N := mul_nonneg ht.1 (by omega)
  have htN' := hs.belt_mul_le ht
  have hNN : 0 ≤ N * (N - 1) := mul_nonneg (by omega) (by omega)
  refine ⟨2 * (N * (N - 1)) + t * (4 * N) + idx, ?_, ?_, ?_⟩
  · constructor <;> linarith
  · rcases lt_or_eq_of_le ht.2 with hlt | heq
    · exact hs.nestToRing_belt ctx hfij hf.2 hi.2 hj.2 hring ⟨ht.1, hlt⟩ hlocal hidx
    · -- the last ring of the belt is computed like those of the cap
      rw [heq, Int.mul_emod_right] at hlocal
      rw [hs.nestToRing_south ctx hfij hf.2 hi.2 hj.2 (by rw [hring, heq]; ring) ⟨by omega, le_refl N⟩
        hlocal hidx, heq]
      congr 1
      ring
  · rw [hs.ringToNest_belt ctx ht hidx, hface, show (t + N) % 2 = t % 2 by omega]
    refine hs.toNest_ok ctx hf.2 hc hi hj ?_ (hx.imp ?_ ?_)
    · rw [Int.add_comm 2]
      omega
    · intro hx
      omega
    · intro hx
      omega

theorem roundTrips_belt_north (hfij : nestToFij tables ctx n h.k = .ok (f, i, j)) (hfg : f = g)
    (hg : 0 ≤ g ∧ g < 4) (hi : 0 ≤ i ∧ i < N) (hj : 0 ≤ j ∧ j < N) (hring : i + j + 1 ≤ N) :
    RoundTrips h ctx N n f i j := by
  set t := N - 1 - i - j with ht
  have htop : 0 ≤ t ∧ t ≤ 2 * N := by omega
  have hslot := index_lt hg (show 0 ≤ N - t / 2 - j - 1 ∧ N - t / 2 - j - 1 < N by omega)
  have hfirst : (g * N + (N - t / 2 - j - 1) - (1 + t) / 2) / N = g :=
    quotient_eq (a := i) (by omega) hi
  have hsecond : (g * N + (N - t / 2 - j - 1) - (1 - t + 2 * N) / 2) / N = g - 1 := by
    refine quotient_eq (a := N - 1 - j) ?_ (by omega)
    rw [Int.sub_mul, Int.one_mul]
    omega
  have hc : pll tables f = .ok (2 * g + 1) := by rw [hfg, (pll_polar hg).1]
  refine hs.roundTrips_belt ctx hfij (by omega) hc hi hj ?_ htop hslot
    (Or.inl ?_) ?_
  · rw [show f / 4 = 0 by omega, ht]
    ring
  · rw [Int.add_mul, Int.mul_assoc, Int.one_mul]
    omega
  · rw [hfirst, hsecond, beltFace, if_neg (by omega), if_pos (by omega)]
    omega

theorem roundTrips_belt_south (hfij : nestToFij tables ctx n h.k = .ok (f, i, j)) (hfg : f = g + 8)
    (hg : 0 ≤ g ∧ g < 4) (hi : 0 ≤ i ∧ i < N) (hj : 0 ≤ j ∧ j < N) (hring : N ≤ i + j + 1) :
    RoundTrips h ctx N n f i j := by
  set t := 3 * N - 1 - i - j with ht
  have htop : 0 ≤ t ∧ t ≤ 2 * N := by omega
  have hslot := index_lt hg (show 0 ≤ 2 * N - t / 2 - j - 1 ∧ 2 * N - t / 2 - j - 1 < N by omega)
  have hfirst : (g * N + (2 * N - t / 2 - j - 1) - (1 + t) / 2) / N = g - 1 := by
    refine quotient_eq (a := i) ?_ hi
    rw [Int.sub_mul, Int.one_mul]
    omega
  have hsecond : (g * N + (2 * N - t / 2 - j - 1) - (1 - t + 2 * N) / 2) / N = g :=
    quotient_eq (a := N - 1 - j) (by omega) (by omega)
  have hc : pll tables f = .ok (2 * g + 1) := by rw [hfg, (pll_polar hg).2]
  refine hs.roundTrips_belt ctx hfij (by omega) hc hi hj ?_ htop hslot
    (Or.inl ?_) ?_
  · rw [show f / 4 = 2 by omega, ht]
    ring
  · rw [Int.add_mul, Int.mul_assoc, Int.one_mul]
    omega
  · rw [hfirst, hsecond, beltFace, if_neg (by omega), if_neg (by omega)]
    omega

/-- The faces of the belt; the first of them also has the end of the rings. -/
theorem roundTrips_belt_middle (hfij : nestToFij tables ctx n h.k = .ok (f, i, j)) (hfg : f = g + 4)
    (hg : 0 ≤ g ∧ g < 4) (hi : 0 ≤ i ∧ i < N) (hj : 0 ≤ j ∧ j < N) :
    RoundTrips h ctx N n f i j := by
  set t := 2 * N - 1 - i - j with ht
  have htop : 0 ≤ t ∧ t ≤ 2 * N := by omega
  have hc : pll tables f = .ok (2 * g) := by rw [hfg, pll_belt hg]
  have hring : (f / 4 + 2) * N - i - j - 1 = t + N := by
    rw [show f / 4 = 1 by omega, ht]
    ring
  have hG : 0 ≤ g * N ∧ g * N ≤ 3 * N := by
    obtain ⟨h₁, h₂⟩ := hg
    interval_cases g <;> omega
  -- only the first face of the belt lies across the beginning of a ring
  rcases lt_or_ge (g * N + (N - t / 2 - j - 1)) 0 with hneg | hpos
  · have hg0 : g = 0 := by
      by_contra hne
      have : 1 * N ≤ g * N := Int.mul_le_mul_of_nonneg_right (by omega) (by omega)
      omega
    rw [hg0] at hfg hc hneg
    have hfirst : (5 * N - t / 2 - j - 1 - (1 + t) / 2) / N = 3 :=
      quotient_eq (a := i) (by omega) hi
    have hsecond : (5 * N - t / 2 - j - 1 - (1 - t + 2 * N) / 2) / N = 3 :=
      quotient_eq (a := N - 1 - j) (by omega) (by omega)
    have hslot : 0 ≤ 5 * N - t / 2 - j - 1 ∧ 5 * N - t / 2 - j - 1 < 4 * N := by omega
    refine hs.roundTrips_belt ctx hfij (by omega) hc hi hj hring htop hslot (Or.inr ?_) ?_
    · omega
    · rw [hfirst, hsecond, hfg]
      rfl
  · have hfirst : (g * N + (N - t / 2 - j - 1) - (1 + t) / 2) / N = g - 1 := by
      refine quotient_eq (a := i) ?_ hi
      rw [Int.sub_mul, Int.one_mul]
      omega
    have hsecond : (g * N + (N - t / 2 - j - 1) - (1 - t + 2 * N) / 2) / N = g - 1 := by
      refine quotient_eq (a := N - 1 - j) ?_ (by omega)
      rw [Int.sub_mul, Int.one_mul]
      omega
    have hslot : 0 ≤ g * N + (N - t / 2 - j - 1) ∧ g * N + (N - t / 2 - j - 1) < 4 * N := by omega
    refine hs.roundTrips_belt ctx hfij (by omega) hc hi hj hring htop hslot (Or.inl ?_) ?_
    · rw [Int.mul_assoc]
      omega
    · rw [hfirst, hsecond, beltFace, if_pos rfl, hfg]
      obtain ⟨h₁, h₂⟩ := hg
      interval_cases g <;> rfl

theorem roundTrips (hfij : nestToFij tables ctx n h.k = .ok (f, i, j)) (hf : 0 ≤ f ∧ f < 12)
    (hi : 0 ≤ i ∧ i < N) (hj : 0 ≤ j ∧ j < N) : RoundTrips h ctx N n f i j := by
  rcases lt_or_ge f 4 with hnorth | hmiddle
  · rcases lt_or_ge N (i + j + 1) with hcap | hbelt
    · exact hs.roundTrips_north ctx hfij rfl ⟨hf.1, hnorth⟩ hi hj (by omega)
    · exact hs.roundTrips_belt_north ctx hfij rfl ⟨hf.1, hnorth⟩ hi hj hbelt
  rcases lt_or_ge f 8 with hmiddle' | hsouth
  · exact hs.roundTrips_belt_middle ctx hfij (show f = (f - 4) + 4 by ring) (by omega) hi hj
  · rcases lt_or_ge (i + j + 1) N with hcap | hbelt
    · exact hs.roundTrips_south ctx hfij (show f = (f - 8) + 8 by ring) (by omega) hi hj hcap
    · exact hs.roundTrips_belt_south ctx hfij (show f = (f - 8) + 8 by ring) (by omega) hi hj hbelt

end HEALPix.Sized

theorem HEALPix.make_ok (ctx : HEALPixContext) {k : ℕ} (hk : 1 ≤ k) (hle : k ≤ 13) :
    ∃ h, HEALPix.make ctx (2 ^ k) = .ok h ∧ h.Sized (2 ^ k) ∧ h.k = k := by
  refine ⟨{ Nside := 2 ^ k, Npix := 12 * (2 ^ k * 2 ^ k), Ncap := 2 * (2 ^ k * (2 ^ k - 1)), k },
    ?_, ?_, rfl⟩
  · interval_cases k <;> rfl
  · refine ⟨?_, ?_, ?_, rfl, rfl, rfl, rfl⟩
    · interval_cases k <;> norm_num
    · interval_cases k <;> norm_num
    · interval_cases k <;> norm_num

def pixels (k : ℕ) : Set ℤ := {n | 0 ≤ n ∧ n < 12 * (2 ^ k) ^ 2}

theorem pixels_finite (k : ℕ) : (pixels k).Finite := Set.finite_Ico 0 (12 * (2 ^ k) ^ 2)

theorem nestToRing_ringToNest (ctx : HEALPixContext) {k : ℕ} (hk : k ≤ 13) {h : HEALPix}
    (hs : h.Sized (2 ^ k)) (hhk : h.k = k) {n : ℤ} (hn : n ∈ pixels k) :
    ∃ r ∈ pixels k, RenumberHealpix.nestToRing ctx h n = .ok r ∧
      RenumberHealpix.ringToNest ctx h r = .ok n := by
  obtain ⟨hpos, hlt⟩ := hn
  have hsq : ((2 : ℤ) ^ k) ^ 2 = ((4 ^ k : ℕ) : ℤ) := by
    rw [← pow_mul, Nat.mul_comm, pow_mul]
    norm_cast
  obtain ⟨f, m, hm, hf, rfl⟩ : ∃ f m : ℕ, m < 4 ^ k ∧ f < 12 ∧ n = (f * 4 ^ k + m : ℕ) := by
    refine ⟨n.toNat / 4 ^ k, n.toNat % 4 ^ k, Nat.mod_lt _ (by positivity), ?_, ?_⟩
    · rw [Nat.div_lt_iff_lt_mul (by positivity)]
      omega
    · rw [Nat.mul_comm, Nat.div_add_mod]
      omega
  have hfij : nestToFij tables ctx (f * 4 ^ k + m : ℕ) h.k =
      .ok (↑f, ↑(gatherBits m), ↑(gatherBits (m / 2))) := by
    rw [hhk, nestToFij_ok ctx (by omega) hm]
  have hi := gatherBits_lt hm
  have hj := gatherBits_lt (show m / 2 < 4 ^ k by omega)
  obtain ⟨r, hr, hring, hnest⟩ := hs.roundTrips ctx hfij ⟨by omega, by omega⟩
    ⟨Int.natCast_nonneg _, by exact_mod_cast hi⟩ ⟨Int.natCast_nonneg _, by exact_mod_cast hj⟩
  refine ⟨r, ?_, hring, ?_⟩
  · rw [pixels, pow_two]
    exact hr
  · have hbound : 4 ^ k ≤ 4 ^ 13 := Nat.pow_le_pow_right (by decide) hk
    rw [RenumberHealpix.ringToNest, hnest, hhk, fijToNest_gather (by omega) hm (by omega)]

/-- Both orderings number the same pixels, and the copies agree. -/
theorem ordering_bijection (ctx : HEALPixContext) (k : ℕ) (hk : 1 ≤ k)
    (hsize : 12 * (2 ^ k) ^ 2 < 2 ^ 31) :
    ∃ h, HEALPix.make ctx (2 ^ k) = .ok h ∧
      (∀ n ∈ pixels k, ∃ r ∈ pixels k, RenumberHealpix.nestToRing ctx h n = .ok r ∧
        RenumberHealpix.ringToNest ctx h r = .ok n) ∧
      (∀ r ∈ pixels k, ∃ n ∈ pixels k, RenumberHealpix.ringToNest ctx h r = .ok n ∧
        RenumberHealpix.nestToRing ctx h n = .ok r) ∧
      ∀ x, Interpolate.nestToRing ctx h x = RenumberHealpix.nestToRing ctx h x ∧
        Interpolate.ringToNest ctx h x = RenumberHealpix.ringToNest ctx h x := by
  have hle : k ≤ 13 := by
    by_contra hgt
    have hpow : 2 ^ 14 ≤ 2 ^ k := Nat.pow_le_pow_right (by omega) (by omega)
    have := Nat.pow_le_pow_left hpow 2
    omega
  obtain ⟨h, hmake, hs, hhk⟩ := HEALPix.make_ok ctx hk hle
  have hround : ∀ n ∈ pixels k, ∃ r ∈ pixels k, RenumberHealpix.nestToRing ctx h n = .ok r ∧
      RenumberHealpix.ringToNest ctx h r = .ok n :=
    fun n hn => nestToRing_ringToNest ctx hle hs hhk hn
  exact ⟨h, hmake, hround, exists_of_left_inverse (pixels_finite k) hround, fun x => ⟨rfl, rfl⟩⟩

theorem ordering_bijection_two :
    ∃ h, HEALPix.make default 2 = .ok h ∧
      ∀ n ∈ pixels 1, ∃ r ∈ pixels 1, RenumberHealpix.nestToRing default h n = .ok r ∧
        RenumberHealpix.ringToNest default h r = .ok n := by
  obtain ⟨h, hmake, hround, -⟩ := ordering_bijection default 1 (by decide) (by decide)
  exact ⟨h, hmake, hround⟩

end Multio.Action
