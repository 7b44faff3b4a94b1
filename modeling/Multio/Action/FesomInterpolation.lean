import Multio.Lib.GroupedRows
import Multio.Action.HEALPixCache

namespace Multio.Action.InterpolateFesom
open Exception Lib

/-- A weight, with its index in the HEALPix grid and the one in the FESOM grid. -/
structure Tri (R : Type) where
  i : ℤ
  j : ℤ
  v : R
  deriving DecidableEq

namespace Tri

variable {R : Type} (t : Tri R)

/-- The constructor for indices of type `size_t`. -/
def ofSizes (i j : ℕ) (v : R) : Tri R := ⟨castInt i, castInt j, v⟩

def h : ℕ := castSize t.i

def f : ℕ := castSize t.j

/-- `idx`; the product is one of `size_t`. -/
def idx (scale : ℕ) : ℕ := (t.h * scale + t.f) % 2 ^ 64

end Tri

/-- The scale of the indices that the triplets are sorted by, and the row before the first one. -/
def indexScale : ℕ := 1000000000

/-- What the constructor keeps of the triplets; how `std::sort` orders equal indices is open. -/
structure FesomInterpolationWeights {R : Type} (triplets : List (Tri R)) where
  triplets_ : List (Tri R)
  perm : triplets_.Perm triplets
  sorted : triplets_.Pairwise fun a b => a.idx indexScale ≤ b.idx indexScale

/-- `nside2npix`. -/
def nside2npix (NSide : ℕ) : ℕ := NSide * NSide * 12 % 2 ^ 64

/-- The compressed rows that `Fesom2HEALPix` reads from the cache. -/
structure CompressedRows (R : Type) where
  nnz : ℕ
  nRows : ℕ
  nCols : ℕ
  nOutRows : ℕ
  landSeaMask : List ℤ
  rowStart : List ℤ
  colIdx : List ℤ
  values : List R

section

variable {R : Type}

/-- The local variables of the loop in `triplets2CSR`. -/
structure CsrLoop (R : Type) where
  cnt : ℕ := 0
  prev : ℕ := indexScale
  nRows : ℕ := 0
  nCols : ℕ := 0
  landSeaMask : List ℤ := []
  rowStart : List ℤ := []
  colIdx : List ℤ := []
  values : List R := []

def CsrLoop.next (s : CsrLoop R) (t : Tri R) : CsrLoop R :=
  let cnt := s.cnt + 1
  let curr := t.h
  let nCols := if s.nCols < t.f + 1 then t.f + 1 else s.nCols
  let s := { s with colIdx := s.colIdx ++ [castInt t.f], values := s.values ++ [t.v], cnt, nCols }
  let s :=
    if curr ≠ s.prev then
      { s with nRows := s.nRows + 1
               rowStart := s.rowStart ++ [castInt (cnt - 1)]
               landSeaMask := s.landSeaMask ++ [castInt curr] }
    else s
  { s with prev := curr }

/-- `triplets2CSR`; the number of columns is set once more after the loop. -/
def triplets2CSR (NSide : ℕ) (triplets : List (Tri R)) : CompressedRows R :=
  let s := triplets.foldl CsrLoop.next {}
  { nnz := triplets.length
    nRows := s.nRows
    nCols := triplets.length
    nOutRows := nside2npix NSide
    landSeaMask := s.landSeaMask
    rowStart := s.rowStart ++ [castInt triplets.length]
    colIdx := s.colIdx
    values := s.values }

def generateCacheFromTriplets {triplets : List (Tri R)} (NSide : ℕ)
    (w : FesomInterpolationWeights triplets) : CompressedRows R :=
  triplets2CSR NSide w.triplets_

end

/-- An element of an array, outside of which an access is undefined behaviour. -/
def element {α : Type} (xs : List α) (i : ℕ) : Except Exception α :=
  match xs[i]? with
  | some x => .ok x
  | none => .error (.undefinedBehaviour "access outside of the array")

namespace CompressedRows

section

variable {R : Type} (c : CompressedRows R)

def row (iRow : ℕ) : Except Exception (ℕ × List ℕ) := do
  let outIdx ← element c.landSeaMask iRow
  let start ← element c.rowStart iRow
  let stop ← element c.rowStart (iRow + 1)
  .ok (castSize outIdx, List.range' (castSize start) (castSize stop - castSize start))

def column (colPtr : ℕ) : Except Exception ℕ := do
  let iCol ← element c.colIdx colPtr
  .ok (castSize iCol)

def appendTriplet (outIdx : ℕ) (triplets : List (Tri R)) (colPtr : ℕ) :
    Except Exception (List (Tri R)) := do
  let iCol ← c.column colPtr
  let weight ← element c.values colPtr
  .ok (triplets ++ [Tri.ofSizes outIdx iCol weight])

def appendRow (triplets : List (Tri R)) (iRow : ℕ) : Except Exception (List (Tri R)) := do
  let (outIdx, colPtrs) ← c.row iRow
  colPtrs.foldlM (c.appendTriplet outIdx) triplets

def getTriplets : Except Exception (List (Tri R)) :=
  (List.range c.nRows).foldlM c.appendRow []

end

variable {R : Type} [Semiring R] (c : CompressedRows R)

/-- `HEALPixField[outIdx] += weight * inpVal`. -/
def addTerm (fesomField : List R) (outIdx : ℕ) (HEALPixField : List R) (colPtr : ℕ) :
    Except Exception (List R) := do
  let iCol ← c.column colPtr
  let weight ← element c.values colPtr
  let inpVal ← element fesomField iCol
  let sum ← element HEALPixField outIdx
  .ok (HEALPixField.set outIdx (sum + weight * inpVal))

def interpolateRow (fesomField HEALPixField : List R) (iRow : ℕ) : Except Exception (List R) := do
  let (outIdx, colPtrs) ← c.row iRow
  let _ ← element HEALPixField outIdx
  colPtrs.foldlM (c.addTerm fesomField outIdx) (HEALPixField.set outIdx 0)

/-- `interpolate`, with the values of the output field. They are values of a semiring, which a cast
to another precision keeps. -/
def interpolate (fesomField : List R) (outputSize : ℕ) (missingValue : R) :
    Except Exception (List R) :=
  if outputSize ≠ c.nOutRows then
    .error (.seriousBug (" - Wrong output size: " ++ toString outputSize ++ " " ++
      toString c.nOutRows ++ "\n"))
  else
    (List.range c.nRows).foldlM (c.interpolateRow fesomField)
      (List.replicate c.nOutRows missingValue)

end CompressedRows

end Multio.Action.InterpolateFesom
