import Multio.Util.BinaryUtils
import Multio.Lib.BitField
import Multio.Lib.Loops

namespace Multio.Domain
open BitField Iteration

inductive MaskError
  | compression (what : String)
  | assertion (what : String)
  | outOfBounds (offset size : ℕ)
  | undefinedShift
  | nonTermination
  deriving DecidableEq, Repr

/-- The bytes of a buffer, outside of which an access is an error. -/
abbrev Buffer := List UInt8

inductive MaskPayloadFormat
  | bitMask
  | runLength
  deriving DecidableEq, Repr

structure MaskPayloadHeader where
  format : MaskPayloadFormat
  numBits : ℕ
  runLengthNumBitsPerInt : ℕ := 0
  runLengthStartValue : Bool := false
  deriving DecidableEq, Repr

def MASK_PAYLOAD_HEADER_SIZE : ℕ := 5
def MASK_PAYLOAD_SPARSE_MAX_NUM_BITS : ℕ := 64

/-- The bytes of `eckit::Buffer b{size}` before anything is written to it. -/
def allocate (mem : ℕ → UInt8) (size : ℕ) : Buffer := (List.range size).map mem

def load (b : Buffer) (offset : ℕ) : Except MaskError UInt8 :=
  if offset < b.length then .ok (b.getD offset 0) else .error (.outOfBounds offset b.length)

def store (b : Buffer) (offset : ℕ) (x : UInt8) : Except MaskError Buffer :=
  if offset < b.length then .ok (b.set offset x) else .error (.outOfBounds offset b.length)

/-- `b[offset] |= x`. -/
def storeOr (b : Buffer) (offset x : ℕ) : Except MaskError Buffer := do
  let c ← load b offset
  store b offset (orByte c x)

/-- `std::memcpy(b.data(), src.data(), src.size())`. -/
def copyFront (b src : Buffer) : Except MaskError Buffer :=
  if src.length ≤ b.length then .ok (src ++ b.drop src.length)
  else .error (.outOfBounds src.length b.length)

def formatBit : MaskPayloadFormat → ℕ
  | .bitMask => 0
  | .runLength => 1

def encodeMaskPayloadHeader (h : MaskPayloadHeader) : Except MaskError Buffer := do
  let b0 := UInt8.ofNat (formatBit h.format <<< 7)
  let b0 ← match h.format with
    | .runLength =>
      let b0 := orByte b0 ((if h.runLengthStartValue then 1 else 0) <<< 6)
      if h.runLengthNumBitsPerInt > MASK_PAYLOAD_SPARSE_MAX_NUM_BITS then
        .error (.compression
          "RunLength format must provide a number of bits <=64 for integer representation")
      else
        -- the subtraction is on `std::size_t`, so width 0 becomes 255
        .ok (orByte b0 ((h.runLengthNumBitsPerInt + (2 ^ 64 - 1)) % 2 ^ 64 &&& 0xFF))
    | .bitMask => .ok b0
  if h.numBits > 2 ^ 32 - 1 then
    .error (.compression ("Number of bits is larger than expected (greater than 1^32-1).  " ++
      "Please refactor the header to reserve more bytes for that information."))
  else
    .ok [b0, UInt8.ofNat (h.numBits >>> 24), UInt8.ofNat (h.numBits >>> 16),
      UInt8.ofNat (h.numBits >>> 8), UInt8.ofNat h.numBits]

def decodeMaskPayloadHeader (b : Buffer) : Except MaskError MaskPayloadHeader :=
  match b with
  | b0 :: b1 :: b2 :: b3 :: b4 :: _ =>
    let numBits := (b1.toNat <<< 24) ||| (b2.toNat <<< 16) ||| (b3.toNat <<< 8) ||| b4.toNat
    if b0.toNat >>> 7 = 1 then
      .ok { format := .runLength, numBits := numBits,
            runLengthNumBitsPerInt := (b0.toNat &&& (1 <<< 6 - 1)) + 1,
            runLengthStartValue := (b0.toNat >>> 6 &&& 1) = 1 }
    else .ok { format := .bitMask, numBits := numBits }
  | _ => .error (.compression
      "Buffer needs to contain at least 5 bytes for compression header information")

def computeBufferSizeMaskBitMask (size : ℕ) : ℕ :=
  MASK_PAYLOAD_HEADER_SIZE + (size >>> 3) + (if size &&& (1 <<< 3 - 1) = 0 then 0 else 1)

structure MaskRunLengthProperties where
  bufSize : ℕ
  numValues : ℕ
  numBitsPerInt : ℕ
  startValue : Bool
  deriving DecidableEq, Repr

structure RunCounts where
  numValues : ℕ
  maxNum : ℕ
  counter : ℕ
  currentSign : Bool

def RunCounts.step (s : RunCounts) (v : Bool) : RunCounts :=
  if v = s.currentSign then { s with counter := s.counter + 1 }
  else { numValues := s.numValues + 1, maxNum := max s.maxNum s.counter,
         counter := 1, currentSign := v }

def computeMaskRunLengthProperties (maskVals : List Bool) : MaskRunLengthProperties :=
  match maskVals with
  | [] => { bufSize := 0, numValues := 0, numBitsPerInt := 0, startValue := false }
  | startValue :: rest =>
    let s := rest.foldl RunCounts.step
      { numValues := 0, maxNum := 0, counter := 1, currentSign := startValue }
    -- the last run ends with the mask
    let numValues := s.numValues + 1
    let maxNum := max s.maxNum s.counter
    let numBitsPerInt := Util.bitWidth 64 (if maxNum > 1 then maxNum - 1 else 1)
    let bufSizeBits := numBitsPerInt * numValues
    { bufSize := (bufSizeBits >>> 3) + (if bufSizeBits &&& (1 <<< 3 - 1) = 0 then 0 else 1) +
        MASK_PAYLOAD_HEADER_SIZE,
      numValues, numBitsPerInt, startValue }

/-- The loop of `computeMaskRunLengthProperties` counts the points in an `unsigned int`, which is
below any number from 2^32 on for ever. -/
def measureRuns (maskVals : List Bool) : Except MaskError MaskRunLengthProperties :=
  if maskVals.length < 2 ^ 32 then .ok (computeMaskRunLengthProperties maskVals)
  else .error .nonTermination

/-- One iteration of the loop of `encodeMaskBitMask`, for the value `v` at index `i`. -/
def bitMaskStep (b : Buffer) (vi : Bool × ℕ) : Except MaskError Buffer := do
  let offset := MASK_PAYLOAD_HEADER_SIZE + (vi.2 >>> 3)
  let r8 := vi.2 &&& (1 <<< 3 - 1)
  let b ← if r8 = 0 then store b offset 0 else .ok b
  if vi.1 then storeOr b offset (1 <<< r8) else .ok b

def encodeMaskBitMask (mem : ℕ → UInt8) (maskVals : List Bool) : Except MaskError Buffer := do
  let encodedHeader ← encodeMaskPayloadHeader { format := .bitMask, numBits := maskVals.length }
  let b ← copyFront (allocate mem (computeBufferSizeMaskBitMask maskVals.length)) encodedHeader
  maskVals.zipIdx.foldlM bitMaskStep b

/-- The buffer and the place of the next bit, captured by `writeCounter`. -/
structure BitWriter where
  b : Buffer
  bufOffset : ℕ
  remainingBits : ℕ

def BitWriter.advance (bufSize numBitsToWrite : ℕ) (s : BitWriter) : Except MaskError BitWriter :=
  if s.remainingBits = 0 then
    let bufOffset := s.bufOffset + 1
    if bufOffset < bufSize then do
      let b ← store s.b bufOffset 0
      .ok { b, bufOffset, remainingBits := 8 }
    else if numBitsToWrite = 0 then .ok { s with bufOffset, remainingBits := 8 }
    else .error (.assertion "numBitsToWrite == 0")
  else .ok s

/-- The `do … while` loop of `writeCounter`; each turn writes at least one bit. -/
def BitWriter.writeLoop (bufSize valToWrite : ℕ) :
    ℕ → ℕ → BitWriter → Except MaskError BitWriter
  | 0, _, _ => .error .nonTermination
  | fuel + 1, numBitsToWrite, s =>
    if s.remainingBits ≥ numBitsToWrite then do
      -- what is left of the value fits into this byte
      let nextRemainingBits := s.remainingBits - numBitsToWrite
      let b ← storeOr s.b s.bufOffset
        ((valToWrite &&& (1 <<< numBitsToWrite - 1)) <<< nextRemainingBits)
      BitWriter.advance bufSize 0 { s with b, remainingBits := nextRemainingBits }
    else do
      -- its highest bits fill this byte
      let nextNumBitsToWrite := numBitsToWrite - s.remainingBits
      let b ← storeOr s.b s.bufOffset
        (valToWrite >>> nextNumBitsToWrite &&& (1 <<< s.remainingBits - 1))
      let s' ← BitWriter.advance bufSize nextNumBitsToWrite { s with b, remainingBits := 0 }
      BitWriter.writeLoop bufSize valToWrite fuel nextNumBitsToWrite s'

/-- `writeCounter`: lengths are stored one lower, since 0 has no meaning. -/
def BitWriter.writeCounter (props : MaskRunLengthProperties) (counter : ℕ) (s : BitWriter) :
    Except MaskError BitWriter :=
  BitWriter.writeLoop props.bufSize (counter - 1) (props.numBitsPerInt + 1) props.numBitsPerInt s

/-- The variables of the loop of `encodeMaskRunLength`. -/
structure RunEncoder where
  counter : ℕ
  currentSign : Bool
  w : BitWriter

def RunEncoder.step (props : MaskRunLengthProperties) (s : RunEncoder) (v : Bool) :
    Except MaskError RunEncoder :=
  if v = s.currentSign then .ok { s with counter := s.counter + 1 }
  else do
    let w ← s.w.writeCounter props s.counter
    .ok { counter := 1, currentSign := v, w }

def encodeMaskRunLengthWith (mem : ℕ → UInt8) (maskVals : List Bool)
    (props : MaskRunLengthProperties) : Except MaskError Buffer := do
  let encodedHeader ← encodeMaskPayloadHeader
    { format := .runLength, numBits := maskVals.length,
      runLengthNumBitsPerInt := props.numBitsPerInt, runLengthStartValue := props.startValue }
  let b ← copyFront (allocate mem props.bufSize) encodedHeader
  let b ← store b MASK_PAYLOAD_HEADER_SIZE 0
  let s ← (maskVals.drop 1).foldlM (RunEncoder.step props)
    { counter := 1, currentSign := props.startValue,
      w := { b, bufOffset := MASK_PAYLOAD_HEADER_SIZE, remainingBits := 8 } }
  let w ← s.w.writeCounter props s.counter
  .ok w.b

def encodeMaskRunLength (mem : ℕ → UInt8) (maskVals : List Bool) : Except MaskError Buffer := do
  let props ← measureRuns maskVals
  encodeMaskRunLengthWith mem maskVals props

def encodeMask (mem : ℕ → UInt8) (maskVals : List Bool) : Except MaskError Buffer := do
  let props ← measureRuns maskVals
  if computeBufferSizeMaskBitMask maskVals.length < props.bufSize then
    encodeMaskBitMask mem maskVals
  else encodeMaskRunLengthWith mem maskVals props

/-- `x << n` on a 32-bit `int` has a meaning: below its width, if an unsigned one has room. -/
def shiftDefined (x n : ℕ) : Bool := decide (n < 32) && decide (x <<< n < 2 ^ 32)

/-- `x << n` on a 32-bit `int`, converted to `std::size_t`. -/
def intShiftLeft (x n : ℕ) : Except MaskError ℕ :=
  if shiftDefined x n then .ok (((BitVec.ofNat 32 x) <<< n).signExtend 64).toNat
  else .error .undefinedShift

/-- The state of a `RunLengthIterator`, its payload and header apart. -/
structure RunLengthIterator where
  index : ℕ
  runLengthOffset : ℕ
  runLengthRemainingBits : ℕ
  val : Bool × ℕ
  deriving DecidableEq, Repr

/-- The `do … while` loop of `updateValue`, `b` being the byte at the current offset. -/
def RunLengthIterator.readLoop (payload : Buffer) :
    ℕ → ℕ → UInt8 → RunLengthIterator → Except MaskError RunLengthIterator
  | 0, _, _, _ => .error .nonTermination
  | fuel + 1, numBitsToRead, b, s => do
    let (numBitsToRead, s) ←
      if s.runLengthRemainingBits ≥ numBitsToRead then
        -- the field ends in this byte
        let nextRemainingBits := s.runLengthRemainingBits - numBitsToRead
        .ok (0, { s with
          val := (s.val.1, s.val.2 |||
            (b.toNat &&& ((1 <<< numBitsToRead - 1) <<< nextRemainingBits)) >>> nextRemainingBits)
          runLengthRemainingBits := nextRemainingBits })
      else do
        let nextNumBitsToRead := numBitsToRead - s.runLengthRemainingBits
        -- a byte is promoted to `int` before it is shifted
        let bits ← intShiftLeft (b.toNat &&& (1 <<< s.runLengthRemainingBits - 1)) nextNumBitsToRead
        .ok (nextNumBitsToRead, { s with
          val := (s.val.1, s.val.2 ||| bits)
          runLengthRemainingBits := 0 })
    if s.runLengthRemainingBits = 0 then
      let runLengthOffset := s.runLengthOffset + 1
      -- behind the last byte nothing more is read
      if runLengthOffset ≥ payload.length then .ok { s with runLengthOffset }
      else do
        let b ← load payload runLengthOffset
        let s := { s with runLengthOffset, runLengthRemainingBits := 8 }
        if numBitsToRead > 0 then RunLengthIterator.readLoop payload fuel numBitsToRead b s
        else .ok s
    else if numBitsToRead > 0 then RunLengthIterator.readLoop payload fuel numBitsToRead b s
    else .ok s

def RunLengthIterator.updateValue (payload : Buffer) (h : MaskPayloadHeader)
    (s : RunLengthIterator) : Except MaskError RunLengthIterator := do
  let s := { s with index := (s.index + s.val.2) % 2 ^ 64 }
  if s.index ≥ h.numBits then .ok s
  else
    let b ← load payload s.runLengthOffset
    let s ← RunLengthIterator.readLoop payload (h.runLengthNumBitsPerInt + 1)
      h.runLengthNumBitsPerInt b { s with val := (s.val.1, 0) }
    .ok { s with val := (!s.val.1, (s.val.2 + 1) % 2 ^ 64) }

/-- The iterator at `begin()`. -/
def RunLengthIterator.begin (payload : Buffer) (h : MaskPayloadHeader) :
    Except MaskError RunLengthIterator :=
  if h.format ≠ .runLength then
    .error (.compression "RunLengthIterator needs a MaskPayloadHeader with run-length format")
  else RunLengthIterator.updateValue payload h
    { index := 0, runLengthOffset := MASK_PAYLOAD_HEADER_SIZE, runLengthRemainingBits := 8,
      val := (!h.runLengthStartValue, 0) }

/-- The iterator over one payload; `end()` has index `numBits`. -/
def RunLengthIterator.iter (payload : Buffer) (h : MaskPayloadHeader) :
    ForwardIter RunLengthIterator MaskError (Bool × ℕ) where
  deref s := s.val
  next s := s.updateValue payload h
  atEnd s := s.index = h.numBits

/-- The state of a `MaskPayloadIterator`; `rl` is its run decoder and the place in the run. -/
structure MaskPayloadIterator where
  index : ℕ
  val : Bool
  rl : Option (RunLengthIterator × ℕ)
  deriving DecidableEq, Repr

def MaskPayloadIterator.updateValue (payload : Buffer) (h : MaskPayloadHeader)
    (s : MaskPayloadIterator) : Except MaskError MaskPayloadIterator :=
  match h.format with
  | .runLength => do
    let it ← if s.index = 0 then RunLengthIterator.begin payload h
      else match s.rl with
        | some (it, _) => it.updateValue payload h
        | none => .error (.assertion "rl_")
    .ok { s with val := it.val.1, rl := some (it, 0) }
  | .bitMask => do
    let c ← load payload ((s.index >>> 3) + MASK_PAYLOAD_HEADER_SIZE)
    .ok { s with val := (c.toNat >>> (s.index &&& (1 <<< 3 - 1)) &&& 1) = 1 }

/-- The iterator at `begin()`. -/
def MaskPayloadIterator.begin (payload : Buffer) (h : MaskPayloadHeader) :
    Except MaskError MaskPayloadIterator :=
  let s : MaskPayloadIterator := { index := 0, val := h.runLengthStartValue, rl := none }
  let expBufSize := computeBufferSizeMaskBitMask h.numBits
  if h.format = .bitMask ∧ expBufSize ≠ payload.length then
    .error (.compression
      s!"MaskPayloadIterator (BitMask): The expected size of the buffer ({expBufSize}) is different to the real size of the buffer: {payload.length}\n")
  else s.updateValue payload h

def MaskPayloadIterator.increment (payload : Buffer) (h : MaskPayloadHeader)
    (s : MaskPayloadIterator) : Except MaskError MaskPayloadIterator :=
  if s.index + 1 < h.numBits then
    match h.format, s.rl with
    | .runLength, some (it, counter) =>
      let s := { s with index := s.index + 1, rl := some (it, counter + 1) }
      if counter + 1 ≥ it.val.2 then s.updateValue payload h else .ok s
    | .runLength, none => .error (.assertion "rl_")
    | .bitMask, _ => MaskPayloadIterator.updateValue payload h { s with index := s.index + 1 }
  else .ok { s with index := h.numBits }

def MaskPayloadIterator.iter (payload : Buffer) (h : MaskPayloadHeader) :
    ForwardIter MaskPayloadIterator MaskError Bool where
  deref s := s.val
  next s := s.increment payload h
  atEnd s := s.index = h.numBits

/-- The values of an `EncodedBitMaskPayload`, which accepts both formats, from begin to end. -/
def EncodedBitMaskPayload.values (fuel : ℕ) (payload : Buffer) :
    Except MaskError (Option (List Bool)) := do
  let h ← decodeMaskPayloadHeader payload
  let s ← MaskPayloadIterator.begin payload h
  (MaskPayloadIterator.iter payload h).drain fuel s

/-- The runs of an `EncodedRunLengthPayload` from begin to end. -/
def EncodedRunLengthPayload.values (fuel : ℕ) (payload : Buffer) :
    Except MaskError (Option (List (Bool × ℕ))) := do
  let h ← decodeMaskPayloadHeader payload
  let s ← RunLengthIterator.begin payload h
  (RunLengthIterator.iter payload h).drain fuel s

end Multio.Domain
