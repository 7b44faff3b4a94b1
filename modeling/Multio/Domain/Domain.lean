import Multio.Util.Exception
import Multio.Lib.Scatter
import Mathlib.Data.Int.Notation

namespace Multio
open Exception Scatter

/-- The twelve entries of the definition of a `Structured` domain. -/
structure Structured where
  niGlobal : ℤ
  njGlobal : ℤ
  ibegin : ℤ
  ni : ℤ
  jbegin : ℤ
  nj : ℤ
  dataDim : ℤ
  dataIbegin : ℤ
  dataNi : ℤ
  dataJbegin : ℤ
  dataNj : ℤ
  dataPartialSize : ℤ
  deriving DecidableEq, Repr

/-- A part of a global field: a list of global indices, or a box of a global grid. -/
inductive Domain
  | unstructured (definition : List ℤ) (globalSize : ℤ)
  | structured (s : Structured)
  deriving DecidableEq, Repr

def inRange (val low upp : ℤ) : Bool := low ≤ val && val < upp

/-- The constructor of `Structured`: without the twelfth entry the part is one of the whole grid. -/
def Structured.ofDefinition : List ℤ → Except Exception Structured
  | [a, b, c, d, e, f, g, h, i, j, k] => do
    let partialSize ← int32 (a * b)
    .ok ⟨a, b, c, d, e, f, g, h, i, j, k, partialSize⟩
  | [a, b, c, d, e, f, g, h, i, j, k, l] => .ok ⟨a, b, c, d, e, f, g, h, i, j, k, l⟩
  | _ => .error (.assertionFailed "definition_.size() == 12")

namespace Domain

def localSize : Domain → Except Exception ℤ
  | .unstructured definition _ => .ok definition.length
  | .structured s => int32 (s.ni * s.nj)

def partialSize : Domain → ℤ
  | .unstructured _ globalSize => globalSize
  | .structured s => s.dataPartialSize

end Domain

/-- `*(git + id) = x` on the payload of the global message. -/
def storeWord (w : ℕ) (dst : List UInt8) (id : ℤ) (x : List UInt8) :
    Except Exception (List UInt8) :=
  if 0 ≤ id ∧ (id.toNat + 1) * w ≤ dst.length then .ok (putWord w dst id.toNat x)
  else .error (.undefinedBehaviour "write outside of the payload")

def unstructuredToGlobal (definition : List ℤ) (w : ℕ) (src dst : List UInt8) :
    Except Exception (List UInt8) := do
  assert (src.length = definition.length * w)
    "local.payload().size() == definition_.size() * sizeof(Precision)"
  definition.zipIdx.foldlM (fun dst (id, l) => storeWord w dst id (word w src l)) dst

/-- The values of `for (auto i = low; i != low + n; ++i)`. -/
def loopRange (low n : ℤ) : Except Exception (List ℤ) := do
  let upp ← int32 (low + n)
  if low ≤ upp then .ok ((List.range n.toNat).map (fun (k : ℕ) => low + k))
  else .error (.undefinedBehaviour "signed overflow")

namespace Structured

/-- `(jbegin + j) * ni_global + (ibegin + i)`. -/
def globalIndex (s : Structured) (i j : ℤ) : Except Exception ℤ := do
  let row ← int32 (s.jbegin + j)
  let rowBegin ← int32 (row * s.niGlobal)
  let column ← int32 (s.ibegin + i)
  int32 (rowBegin + column)

/-- One point of the loops of `toGlobalImpl`, `l` being its place in the local payload. -/
def pointToGlobal (s : Structured) (w : ℕ) (src : List UInt8) (j : ℤ) (dst : List UInt8)
    (il : ℤ × ℕ) : Except Exception (List UInt8) :=
  if inRange il.1 0 s.ni && inRange j 0 s.nj then do
    let gidx ← s.globalIndex il.1 j
    storeWord w dst gidx (word w src il.2)
  else .ok dst

def rowToGlobal (s : Structured) (w : ℕ) (src dst : List UInt8) (ja : ℤ × ℕ) :
    Except Exception (List UInt8) := do
  let is ← loopRange s.dataIbegin s.dataNi
  (is.zipIdx (ja.2 * s.dataNi.toNat)).foldlM (s.pointToGlobal w src ja.1) dst

def toGlobal (s : Structured) (w : ℕ) (src dst : List UInt8) : Except Exception (List UInt8) := do
  assert ((w * s.niGlobal * s.njGlobal) % 2 ^ 64 = dst.length)
    "sizeof(Precision) * ni_global * nj_global == global.size()"
  if (w * s.dataNi * s.dataNj) % 2 ^ 64 ≠ src.length then
    .error (.assertionFailed ("Local size is " ++ toString (src.length / w) ++
      " while it is expected to equal " ++ toString s.dataNi ++ " times " ++ toString s.dataNj))
  else do
    let js ← loopRange s.dataJbegin s.dataNj
    js.zipIdx.foldlM (s.rowToGlobal w src) dst

end Structured

def Domain.toGlobal : Domain → ℕ → List UInt8 → List UInt8 → Except Exception (List UInt8)
  | .unstructured definition _ => unstructuredToGlobal definition
  | .structured s => s.toGlobal

/-- The pairs of a global index and a local one of a row of data. -/
def Structured.rowMap (s : Structured) (a : ℕ) : List (ℕ × ℕ) :=
  (List.range s.dataNi.toNat).filterMap fun (b : ℕ) =>
    if inRange (s.dataIbegin + b) 0 s.ni && inRange (s.dataJbegin + a) 0 s.nj then
      some (((s.jbegin + (s.dataJbegin + a)) * s.niGlobal +
        (s.ibegin + (s.dataIbegin + b))).toNat, a * s.dataNi.toNat + b)
    else none

/-- The pairs of a global index and the index of its value in the local payload. -/
def Domain.indexMap : Domain → List (ℕ × ℕ)
  | .unstructured definition _ => definition.zipIdx.map fun (id, l) => (id.toNat, l)
  | .structured s => (List.range s.dataNj.toNat).flatMap s.rowMap

def Domain.dataSize : Domain → ℕ
  | .unstructured definition _ => definition.length
  | .structured s => s.dataNi.toNat * s.dataNj.toNat

/-- A box within the global grid of `n` points, none of whose indices overflows. -/
structure Structured.InBounds (s : Structured) (n : ℕ) : Prop where
  niGlobal : 0 ≤ s.niGlobal ∧ s.niGlobal < 2 ^ 31
  njGlobal : 0 ≤ s.njGlobal ∧ s.njGlobal < 2 ^ 31
  size_eq : s.niGlobal * s.njGlobal = n
  size_le : n ≤ 2 ^ 31
  ni : 0 ≤ s.ni ∧ 0 ≤ s.ibegin ∧ s.ibegin + s.ni ≤ s.niGlobal
  nj : 0 ≤ s.nj ∧ 0 ≤ s.jbegin ∧ s.jbegin + s.nj ≤ s.njGlobal
  dataNi : 0 ≤ s.dataNi ∧ -2 ^ 31 ≤ s.dataIbegin ∧ s.dataIbegin + s.dataNi < 2 ^ 31
  dataNj : 0 ≤ s.dataNj ∧ -2 ^ 31 ≤ s.dataJbegin ∧ s.dataJbegin + s.dataNj < 2 ^ 31

/-- A part whose indices are within a global field of `n` values. -/
def Domain.InBounds (n : ℕ) : Domain → Prop
  | .unstructured definition _ => ∀ id ∈ definition, 0 ≤ id ∧ id < n
  | .structured s => s.InBounds n

end Multio
