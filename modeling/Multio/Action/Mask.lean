import Multio.Domain.Mask
import Multio.Message.BaseMetadata
import Multio.Util.ByteOrder

namespace Multio.Action
open Exception Scatter Domain Lib Util

/-- The arithmetic of floating point numbers, on their bits. -/
structure FloatArithmetic where
  /-- `static_cast<float>` of a double. -/
  toFloat : UInt64 → UInt32
  addFloat : UInt32 → UInt32 → UInt32
  addDouble : UInt64 → UInt64 → UInt64

namespace FloatArithmetic

/-- `static_cast<Precision>(v)`. -/
def cast (F : FloatArithmetic) : PrecisionTag → UInt64 → List UInt8
  | .float, v => littleEndian 4 (F.toFloat v).toNat
  | .double, v => littleEndian 8 v.toNat

/-- `x + static_cast<Precision>(v)`. -/
def add (F : FloatArithmetic) : PrecisionTag → List UInt8 → UInt64 → List UInt8
  | .float, x, v =>
    littleEndian 4 (F.addFloat (UInt32.ofNat (ofLittleEndian x)) (F.toFloat v)).toNat
  | .double, x, v => littleEndian 8 (F.addDouble (UInt64.ofNat (ofLittleEndian x)) v).toNat

end FloatArithmetic

structure MaskActionContext extends Context where
  policy : HashPolicy String
  arithmetic : FloatArithmetic

structure Mask where
  applyBitmap : Bool := true
  /-- `std::numeric_limits<float>::max()`. -/
  missingValue : UInt64 := 0x47EFFFFFE0000000
  offsetFields : List String := []
  /-- 273.15. -/
  offsetValue : UInt64 := 0x4071126666666666

/-- The values from `offset` on are replaced by what `f` makes of them. -/
def updateRun (w : ℕ) (f : List UInt8 → List UInt8) (payload : List UInt8) (offset len : ℕ) :
    Except Exception (List UInt8) :=
  (List.range' offset len).foldlM (fun b (i : ℕ) => storeWord w b i (f (word w b i))) payload

/-- The loop over the runs of a mask, of which those of `sign` are updated. -/
def updateRuns (w : ℕ) (sign : Bool) (f : List UInt8 → List UInt8) :
    List (Bool × ℕ) → ℕ → List UInt8 → Except Exception (List UInt8)
  | [], _, payload => .ok payload
  | (v, len) :: runs, offset, payload => do
    let payload ← (if v = sign then updateRun w f payload offset len else .ok payload :
      Except _ (List UInt8))
    updateRuns w sign f runs (offset + len) payload

def bitmaskRuns (h : MaskPayloadHeader) (bitmask : Buffer) :
    Except Exception (List (Bool × ℕ)) := do
  match ← liftMask (EncodedRunLengthPayload.values h.numBits bitmask) with
  | some runs => .ok runs
  | none => .error (.undefinedBehaviour "endless loop")

namespace Mask

variable (ctx : MaskActionContext) (a : Mask) (store : Multio.Mask)

def applyMask (p : PrecisionTag) (msg : Message) : Except Exception Message := do
  let bkey ← Multio.Mask.key ctx.toContext msg.metadata
  let bitmask ← store.get bkey
  let h ← liftMask (decodeMaskPayloadHeader bitmask)
  if h.numBits * p.size ≠ msg.size then
    .error (.seriousBug ("Mask::applyMask: Mask for key \"" ++ bkey ++ "\" has a size of " ++
      toString h.numBits ++ " but the message contains " ++ toString (msg.size / p.size) ++
      " values. \n"))
  else do
    let runs ← bitmaskRuns h bitmask
    let payload ← updateRuns p.size false (fun _ => ctx.arithmetic.cast p a.missingValue) runs 0
      msg.payload
    .ok { msg with payload }

def applyOffset (p : PrecisionTag) (msg : Message) : Except Exception Message := do
  let bkey ← Multio.Mask.key ctx.toContext msg.metadata
  let bitmask ← store.get bkey
  let h ← liftMask (decodeMaskPayloadHeader bitmask)
  assert (h.numBits = msg.size / p.size) "bitmask.size() == msg.size() / sizeof(Precision)"
  let runs ← bitmaskRuns h bitmask
  let payload ← updateRuns p.size true (fun x => ctx.arithmetic.add p x a.offsetValue) runs 0
    msg.payload
  .ok { msg with payload }

def createMasked (p : PrecisionTag) (msg : Message) : Except Exception Message := do
  let msg ← (if a.applyBitmap then a.applyMask ctx store p msg else .ok msg : Except _ Message)
  let name ← msg.name ctx.toContext
  let msg ← (if name ∈ a.offsetFields then a.applyOffset ctx store p msg else .ok msg :
    Except _ Message)
  let md := (msg.metadata.set ctx.policy "missingValue" (.double a.missingValue)).set ctx.policy
    "bitmapPresent" (.bool true)
  -- the metadata is modified, which also drops the field id
  .ok { msg with header := { msg.header with metadata := md, fieldId_ := none } }

/-- `Mask::executeImpl`, with the message it passes on. -/
def executeImpl (msg : Message) : Except Exception Message :=
  match msg.tag with
  | .field => do
    let p ← msg.precision ctx.toContext
    a.createMasked ctx store p msg
  | _ => .ok msg

end Mask
end Multio.Action
