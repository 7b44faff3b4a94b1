import Multio.Domain.Mappings
import Multio.Domain.MaskCompression

namespace Multio
open Exception Lib Domain

def Domain.MaskError.toException : MaskError → Exception
  | .compression what => .maskCompression what
  | .assertion what => .assertionFailed what
  | .outOfBounds _ _ => .undefinedBehaviour "access outside of the mask payload"
  | .undefinedShift => .undefinedBehaviour "shift out of an int"
  | .nonTermination => .undefinedBehaviour "endless loop"

def liftMask {α : Type} (x : Except MaskError α) : Except Exception α :=
  x.mapError MaskError.toException

/-- `bmask[bidx] = v`. -/
def storeBit (bmask : List Bool) (bidx : ℤ) (v : Bool) : Except Exception (List Bool) :=
  if 0 ≤ bidx ∧ bidx < bmask.length then .ok (bmask.set bidx.toNat v)
  else .error (.undefinedBehaviour "write outside of the bitmask")

namespace Structured

/-- One point of the loops of `toBitmask`; `st` is the iterator `lit` and the mask. -/
def pointToBitmask (s : Structured) (payload : Buffer) (h : MaskPayloadHeader) (j : ℤ)
    (st : MaskPayloadIterator × List Bool) (i : ℤ) :
    Except Exception (MaskPayloadIterator × List Bool) := do
  let bmask ←
    if inRange i 0 s.ni && inRange j 0 s.nj then do
      let bidx ← s.globalIndex i j
      storeBit st.2 bidx st.1.val
    else .ok st.2
  let lit ← liftMask (st.1.increment payload h)
  .ok (lit, bmask)

def rowToBitmask (s : Structured) (payload : Buffer) (h : MaskPayloadHeader)
    (st : MaskPayloadIterator × List Bool) (j : ℤ) :
    Except Exception (MaskPayloadIterator × List Bool) := do
  let is ← loopRange s.dataIbegin s.dataNi
  is.foldlM (s.pointToBitmask payload h j) st

def toBitmask (s : Structured) (payload : Buffer) (bmask : List Bool) :
    Except Exception (List Bool) := do
  let gridSize ← int32 (s.niGlobal * s.njGlobal)
  assert (s.dataPartialSize ≤ gridSize) "data_partial_size <= (ni_global * nj_global)"
  assert (gridSize % 2 ^ 64 = bmask.length) "ni_global * nj_global == bmask.size()"
  let h ← liftMask (decodeMaskPayloadHeader payload)
  let dataSize ← int32 (s.dataNj * s.dataNi)
  let expectedBitmaskSize := dataSize % 2 ^ 64
  if (h.numBits : ℤ) ≠ expectedBitmaskSize then
    .error (.seriousBug ("Structured::toBitmask: The bitmask has a size of " ++
      toString h.numBits ++ " but is expected to have a size of " ++
      toString expectedBitmaskSize ++ "\n"))
  else do
    -- one iterator goes through the local mask, row after row
    let lit ← liftMask (MaskPayloadIterator.begin payload h)
    let js ← loopRange s.dataJbegin s.dataNj
    let st ← js.foldlM (s.rowToBitmask payload h) (lit, bmask)
    .ok st.2

end Structured

def Domain.toBitmask : Domain → Buffer → List Bool → Except Exception (List Bool)
  | .unstructured _ _, _, _ => .error (.notImplemented "Unstructured::toBitmask")
  | .structured s, payload, bmask => s.toBitmask payload bmask

/-- The context of messages and the bytes found in a newly allocated buffer. -/
structure MaskContext extends Context where
  memory : ℕ → UInt8

structure Mask where
  messages : OrderedMap String (List Message) := ∅
  bitmasks : OrderedMap String Buffer := ∅

namespace Mask

def key (ctx : Context) (md : BaseMetadata) : Except Exception String := do
  let domain ← Metadata.get MetadataValue.getString ctx.parametrization md "domain"
  let level ← Metadata.get MetadataValue.getInt64 ctx.parametrization md "level"
  .ok ("(" ++ domain ++ "," ++ toString level ++ ")")

def get (s : Mask) (bkey : String) : Except Exception Buffer :=
  match s.bitmasks.find? bkey with
  | some b => .ok b
  | none => .error (.assertionFailed ("There is no bitmask for " ++ bkey))

variable (ctx : MaskContext) (mappings : Mappings)

def collected (s : Mask) (fid : String) : List Message := (s.messages.find? fid).getD []

def addPartialMask (s : Mask) (msg : Message) : Mask :=
  let fid := msg.fieldId ctx.toContext
  { s with messages := s.messages.insert fid (s.collected fid ++ [msg]) }

def allPartsArrived (s : Mask) (msg : Message) : Except Exception Bool := do
  let domainMap ← mappings.get (← msg.domain ctx.toContext)
  if ← domainMap.isComplete then do
    let size ← domainMap.size
    .ok ((s.collected (msg.fieldId ctx.toContext)).length = size)
  else .ok false

/-- The interior bits of one local mask put into the global one. -/
def addToBitmask (bitmask : List Bool) (msg : Message) : Except Exception (List Bool) := do
  let domainMap ← mappings.get (← msg.domain ctx.toContext)
  let domain ← domainMap.at_ msg.source
  domain.toBitmask msg.payload bitmask

def createBitmask (s : Mask) (inMsg : Message) : Except Exception Mask := do
  let fid := inMsg.fieldId ctx.toContext
  let globalSize ← inMsg.globalSize ctx.toContext
  if globalSize < 0 then .error (.lengthError "vector<bool>::_M_fill_insert")
  else do
    -- all points are masked where no part says otherwise
    let bitmask ← (s.collected fid).foldlM (addToBitmask ctx mappings)
      (List.replicate globalSize.toNat false)
    let bkey ← key ctx.toContext inMsg.metadata
    let encoded ← liftMask (encodeMaskRunLength ctx.memory bitmask)
    .ok { messages := s.messages.insert fid [], bitmasks := s.bitmasks.insert bkey encoded }

/-- `Mask::add` with the store it leaves behind, also when it throws. -/
def add (s : Mask) (msg : Message) : Except Exception Unit × Mask :=
  let s := s.addPartialMask ctx msg
  match s.allPartsArrived ctx mappings msg with
  | .error e => (.error e, s)
  | .ok false => (.ok (), s)
  | .ok true =>
    match s.createBitmask ctx mappings msg with
    | .error e => (.error e, s)
    | .ok s' => (.ok (), s')

end Mask
end Multio
