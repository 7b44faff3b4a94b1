import Multio.Util.Exception
import Mathlib.Data.Int.Bitwise
import Mathlib.Data.Nat.Sqrt
import Mathlib.Tactic.Zify

namespace Multio.Action
open Exception

/-- The constants of a copy: the text of the two files is the same but for these. -/
structure Tables where
  masks : Vector (BitVec 64) 6
  pll : List ℤ

/-- The square root of doubles, which is the exact one on what is asked of it, and whether `assert`
is on: it is not with `NDEBUG`. -/
structure HEALPixContext where
  assertions : Bool
  sqrt : ℤ → ℤ
  exact : ∀ n, 0 ≤ n → n < 2 ^ 31 → 0 ≤ sqrt n ∧ sqrt n * sqrt n ≤ n ∧
    n < (sqrt n + 1) * (sqrt n + 1)

instance : Inhabited HEALPixContext where
  default := {
    assertions := true
    sqrt n := Nat.sqrt n.toNat
    exact n hn _ := by
      have hle := Nat.sqrt_le n.toNat
      have hlt := Nat.lt_succ_sqrt n.toNat
      zify at hle hlt
      rw [Int.toNat_of_nonneg hn] at hle hlt
      exact ⟨Int.natCast_nonneg _, hle, hlt⟩ }

/-- `assert(cond)` of the standard library. -/
def HEALPixContext.check (ctx : HEALPixContext) (cond : Bool) (what : String) :
    Except Exception Unit :=
  assert (cond || !ctx.assertions) what

theorem HEALPixContext.check_ok (ctx : HEALPixContext) {cond : Bool} (h : cond = true)
    (what : String) : ctx.check cond what = .ok () :=
  assert_ok (by rw [h, Bool.true_or]) what

variable (t : Tables) (ctx : HEALPixContext)

def nestEncodeBits (n : ℤ) : ℤ :=
  let b := BitVec.ofInt 64 n &&& t.masks[0]
  let b := (b ^^^ b <<< 16) &&& t.masks[1]
  let b := (b ^^^ b <<< 8) &&& t.masks[2]
  let b := (b ^^^ b <<< 4) &&& t.masks[3]
  let b := (b ^^^ b <<< 2) &&& t.masks[4]
  let b := (b ^^^ b <<< 1) &&& t.masks[5]
  (b.setWidth 32).toInt

def nestDecodeBits (n : ℤ) : ℤ :=
  let b := BitVec.ofInt 64 n &&& t.masks[5]
  let b := (b ^^^ b >>> 1) &&& t.masks[4]
  let b := (b ^^^ b >>> 2) &&& t.masks[3]
  let b := (b ^^^ b >>> 4) &&& t.masks[2]
  let b := (b ^^^ b >>> 8) &&& t.masks[1]
  let b := (b ^^^ b >>> 16) &&& t.masks[0]
  (b.setWidth 32).toInt

/-- The low bits of `n` are what is left of it by the mask `(1 << (2 * k)) - 1`. -/
def nestToFij (n : ℤ) (k : ℕ) : Except Exception (ℤ × ℤ × ℤ) := do
  ctx.check (0 ≤ n) "0 <= n"
  let f := n >>> (2 * k)
  let n := n % 2 ^ (2 * k)
  let i := nestDecodeBits t n
  let j := nestDecodeBits t (n >>> (1 : ℕ))
  .ok (f, i, j)

/-- The bits of `j` are doubled as those of an `int`, whose highest one is its sign. -/
def fijToNest (f i j : ℤ) (k : ℕ) : ℤ :=
  (BitVec.ofInt 32 (f <<< (2 * k) + nestEncodeBits t i + nestEncodeBits t j <<< (1 : ℕ))).toInt

def div03 (a b : ℤ) : ℤ :=
  let c := if a ≥ b <<< (1 : ℕ) then 1 else 0
  let a := a - c * (b <<< (1 : ℕ))
  c <<< (1 : ℕ) + if a ≥ b then 1 else 0

def isPowerOf2 (n : ℤ) : Bool :=
  (List.range 32).countP (fun p => (BitVec.ofInt 32 n).getLsbD p) = 1

def pll (f : ℤ) : Except Exception ℤ :=
  match if 0 ≤ f then t.pll[f.toNat]? else none with
  | some c => .ok c
  | none => .error (.undefinedBehaviour "index out of the array")

structure HEALPix where
  Nside : ℤ
  Npix : ℤ
  Ncap : ℤ
  k : ℕ

namespace HEALPix

/-- The constructor; `log2` of a power of two is exact. -/
def make (Nside : ℤ) : Except Exception HEALPix := do
  let Npix ← int32 (12 * Nside * Nside)
  let Ncap ← int32 ((Nside * (Nside - 1)) <<< (1 : ℕ))
  let k : ℤ := if isPowerOf2 Nside then Nat.log2 Nside.toNat else -1
  ctx.check (0 ≤ k) "0 <= k_"
  ctx.check (0 < Nside) "0 < Nside_"
  .ok { Nside, Npix, Ncap, k := k.toNat }

variable (h : HEALPix)

def toNest (f ring Nring phi shift : ℤ) : Except Exception ℤ := do
  let r := (2 + f >>> (2 : ℕ)) <<< h.k - ring - 1
  let p := 2 * phi - (← pll t f) * Nring - shift - 1
  let p := if p ≥ 2 * h.Nside then p - 8 * h.Nside else p
  let i := (r + p) >>> (1 : ℕ)
  let j := (r - p) >>> (1 : ℕ)
  ctx.check (f < 12 ∧ i < h.Nside ∧ j < h.Nside) "f < 12 && i < Nside_ && j < Nside_"
  .ok (fijToNest t f i j h.k)

/-- Sums that may come near the range of `int` are checked. -/
def ringToNest (r : ℤ) : Except Exception ℤ :=
  if r < h.Ncap then do
    -- the polar cap of the north, whose rings grow by four
    let Nring := (1 + ctx.sqrt (← int32 (2 * r + 1))) >>> (1 : ℕ)
    let phi ← int32 (1 + r - 2 * Nring * (Nring - 1))
    let f := div03 (phi - 1) Nring
    h.toNest t ctx f Nring Nring phi 0
  else if h.Npix - h.Ncap ≤ r then do
    -- the polar cap of the south, counted from the last pixel
    let Nring := (1 + ctx.sqrt (← int32 ((← int32 (2 * h.Npix)) - 2 * r - 1))) >>> (1 : ℕ)
    let phi ← int32 ((← int32 (1 + r + 2 * Nring * (Nring - 1) + 4 * Nring)) - h.Npix)
    let ring := 4 * h.Nside - Nring
    let f := div03 (phi - 1) Nring + 8
    h.toNest t ctx f ring Nring phi 0
  else
    -- the belt, where all rings have the same length
    let ip := r - h.Ncap
    let tmp := ip >>> (h.k + 2)
    let Nring := h.Nside
    let phi := ip - tmp * 4 * h.Nside + 1
    let ring := tmp + h.Nside
    let ifm := 1 + (phi - 1 - (1 + tmp) >>> (1 : ℕ)) >>> h.k
    let ifp := 1 + (phi - 1 - (1 - tmp + 2 * h.Nside) >>> (1 : ℕ)) >>> h.k
    let f := if ifp = ifm then Int.lor ifp 4 else if ifp < ifm then ifp else ifm + 8
    h.toNest t ctx f ring Nring phi (ring % 2)

def toRingLocal (f i j Nring shift : ℤ) : Except Exception ℤ := do
  let Nring := Nring >>> (2 : ℕ)
  let r := ((← pll t f) * Nring + i - j + 1 + shift).tdiv 2 - 1
  ctx.check (r < 4 * Nring) "r < 4 * Nring"
  .ok (if r < 0 then r + 4 * h.Nside else r)

def nestToRing (n : ℤ) : Except Exception ℤ := do
  let (f, i, j) ← nestToFij t ctx n h.k
  ctx.check (f < 12 ∧ i < h.Nside ∧ j < h.Nside) "f < 12 && i < Nside_ && j < Nside_"
  let ring := (f >>> (2 : ℕ) + 2) * h.Nside - i - j - 1
  if ring < h.Nside then
    let Nring := 4 * ring
    let r0 ← int32 (2 * ring * (ring - 1))
    int32 (r0 + (← h.toRingLocal t ctx f i j Nring 0))
  else if ring < 3 * h.Nside then
    let Nring := 4 * h.Nside
    let r0 ← int32 (h.Ncap + (ring - h.Nside) * Nring)
    let shift := (ring - h.Nside) % 2
    int32 (r0 + (← h.toRingLocal t ctx f i j Nring shift))
  else
    let N := 4 * h.Nside - ring
    let Nring := 4 * N
    let r0 ← int32 (h.Npix - 2 * N * (N + 1))
    int32 (r0 + (← h.toRingLocal t ctx f i j Nring 0))

end HEALPix

namespace RenumberHealpix

def tables : Tables where
  masks := #v[0x00000000ffffffff, 0x0000ffff0000ffff, 0x00ff00ff00ff00ff,
    0x0f0f0f0f0f0f0f0f, 0x3333333333333333, 0x5555555555555555]
  pll := [1, 3, 5, 7, 0, 2, 4, 6, 1, 3, 5, 7]

def ringToNest (h : HEALPix) (r : ℤ) : Except Exception ℤ := h.ringToNest tables ctx r

def nestToRing (h : HEALPix) (n : ℤ) : Except Exception ℤ := h.nestToRing tables ctx n

end RenumberHealpix

namespace Interpolate

def tables : Tables where
  masks := #v[0x00000000ffffffff, 0x0000ffff0000ffff, 0x00ff00ff00ff00ff,
    0x0f0f0f0f0f0f0f0f, 0x3333333333333333, 0x5555555555555555]
  pll := [1, 3, 5, 7, 0, 2, 4, 6, 1, 3, 5, 7]

def ringToNest (h : HEALPix) (r : ℤ) : Except Exception ℤ := h.ringToNest tables ctx r

def nestToRing (h : HEALPix) (n : ℤ) : Except Exception ℤ := h.nestToRing tables ctx n

end Interpolate
end Multio.Action
