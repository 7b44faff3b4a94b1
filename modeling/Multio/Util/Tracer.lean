import Multio.Util.Exception
import Multio.Util.RingBuffer
import Mathlib.Algebra.Group.Nat.Defs

namespace Multio.Util.Tracer

def CHUNK_MASK : ℕ := 0xFF000000
def CHUNK_SHIFT : ℕ := 24
def INDEX_MASK : ℕ := 0x00FFFFFF

def chunkOf (chunkAndIndex : ℕ) : ℕ := (chunkAndIndex &&& CHUNK_MASK) >>> CHUNK_SHIFT

def indexOf (chunkAndIndex : ℕ) : ℕ := chunkAndIndex &&& INDEX_MASK

/-- `(chunk << CHUNK_SHIFT) | index`. -/
def pack (chunk index : ℕ) : ℕ := chunk <<< CHUNK_SHIFT % 2 ^ 32 ||| index

structure TraceEvent where
  event : UInt64
  timestamp : UInt64
  deriving DecidableEq, Repr

structure TracerConfig where
  numChunks : ℕ
  chunkSize : ℕ

def TracerConfig.chunkSize_ (c : TracerConfig) : ℕ := c.chunkSize * 2 % 2 ^ 32

structure Shared where
  /-- The event whose words begin at an index of a chunk; `none` for words that are zero. -/
  traceChunks_ : ℕ × ℕ → Option TraceEvent
  currentChunkAndIndex_ : ℕ
  availableQueue_ : RingBuffer ℕ
  writeQueue_ : RingBuffer ℕ
  running_ : Bool
  /-- What has been written to the output file. -/
  outputFile : List TraceEvent

inductive HandOver
  | load
  | loaded (chunkAndIndex : ℕ)
  | popped (chunkAndIndex chunkNext : ℕ)
  /-- The word has been swapped: `chunk` is to be pushed to the write queue. -/
  | pushWrite (chunk chunkNext : ℕ)
  /-- The word was another one: `chunk` is to be pushed back to the available queue. -/
  | pushBack (chunk chunkAndIndex : ℕ)
  deriving DecidableEq, Repr

inductive Call
  | recordEvent (e : TraceEvent) (pc : HandOver)
  /-- The end of `recordEvent`, after its loop. -/
  | storeEvent (e : TraceEvent) (chunk index : ℕ)
  | flushCurrentChunk (pc : HandOver)
  deriving DecidableEq, Repr

/-- A step of the loop of `recordEvent`. -/
def recordEvent (c : TracerConfig) (e : TraceEvent) (s : Shared) : HandOver → Shared × Call
  | .load => (s, .recordEvent e (.loaded s.currentChunkAndIndex_))
  | .loaded chunkAndIndex =>
    let nextSize := indexOf chunkAndIndex + 2
    if nextSize > c.chunkSize_ then
      match s.availableQueue_.pop with
      | some (availableQueue_, some chunkNext) =>
        ({ s with availableQueue_ }, .recordEvent e (.popped chunkAndIndex chunkNext))
      -- it pops until there is a chunk
      | _ => (s, .recordEvent e (.loaded chunkAndIndex))
    else if s.currentChunkAndIndex_ = chunkAndIndex then
      ({ s with currentChunkAndIndex_ := pack (chunkOf chunkAndIndex) nextSize },
        .storeEvent e (chunkOf chunkAndIndex) (indexOf chunkAndIndex))
    else (s, .recordEvent e (.loaded s.currentChunkAndIndex_))
  | .popped chunkAndIndex chunkNext =>
    if s.currentChunkAndIndex_ = chunkAndIndex then
      ({ s with currentChunkAndIndex_ := pack chunkNext 2 },
        .recordEvent e (.pushWrite (chunkOf chunkAndIndex) chunkNext))
    else (s, .recordEvent e (.pushBack chunkNext s.currentChunkAndIndex_))
  | .pushWrite chunk chunkNext =>
    match s.writeQueue_.push chunk with
    | some writeQueue_ => ({ s with writeQueue_ }, .storeEvent e chunkNext 0)
    -- it waits while the queue is full
    | none => (s, .recordEvent e (.pushWrite chunk chunkNext))
  | .pushBack chunk chunkAndIndex =>
    match s.availableQueue_.push chunk with
    | some availableQueue_ => ({ s with availableQueue_ }, .recordEvent e (.loaded chunkAndIndex))
    | none => (s, .recordEvent e (.pushBack chunk chunkAndIndex))

/-- A step of `flushCurrentChunk`, which may return. -/
def flushCurrentChunk (s : Shared) : HandOver → Shared × Option Call
  | .load => (s, some (.flushCurrentChunk (.loaded s.currentChunkAndIndex_)))
  | .loaded chunkAndIndex =>
    match s.availableQueue_.pop with
    | some (availableQueue_, some availableChunkId) =>
      ({ s with availableQueue_ },
        some (.flushCurrentChunk (.popped chunkAndIndex availableChunkId)))
    | _ => (s, some (.flushCurrentChunk (.loaded chunkAndIndex)))
  | .popped chunkAndIndex availableChunkId =>
    let chunkNext := availableChunkId <<< CHUNK_SHIFT &&& CHUNK_MASK
    if s.currentChunkAndIndex_ = chunkAndIndex then
      ({ s with currentChunkAndIndex_ := chunkNext },
        some (.flushCurrentChunk (.pushWrite (chunkOf chunkAndIndex) availableChunkId)))
    else
      -- it is the shifted id that is put back
      (s, some (.flushCurrentChunk (.pushBack chunkNext s.currentChunkAndIndex_)))
  | .pushWrite chunk chunkNext =>
    match s.writeQueue_.push chunk with
    | some writeQueue_ => ({ s with writeQueue_ }, none)
    | none => (s, some (.flushCurrentChunk (.pushWrite chunk chunkNext)))
  | .pushBack chunk chunkAndIndex =>
    match s.availableQueue_.push chunk with
    | some availableQueue_ =>
      ({ s with availableQueue_ }, some (.flushCurrentChunk (.loaded chunkAndIndex)))
    | none => (s, some (.flushCurrentChunk (.pushBack chunk chunkAndIndex)))

def Call.step (c : TracerConfig) (s : Shared) : Call → Option (Shared × Option Call)
  | recordEvent e pc =>
    let result := Tracer.recordEvent c e s pc
    some (result.1, some result.2)
  | storeEvent e chunk index =>
    if chunk < c.numChunks ∧ index + 1 < c.chunkSize_ then
      let traceChunks_ := fun slot =>
        if slot = (chunk, index) then some e else s.traceChunks_ slot
      some ({ s with traceChunks_ }, none)
    else none
  | flushCurrentChunk pc => some (Tracer.flushCurrentChunk s pc)

inductive Writer
  | checkRunning
  | pop
  | write (id : ℕ)
  | clear (id : ℕ)
  | pushAvailable (id : ℕ)
  | stopped
  deriving DecidableEq, Repr

/-- The events of a chunk, in their order; both words of an event lie in the chunk. -/
def chunkEvents (c : TracerConfig) (s : Shared) (id : ℕ) : List TraceEvent :=
  (List.range (c.chunkSize_ - 1)).filterMap fun index => s.traceChunks_ (id, index)

/-- A step of `writerThread_`. -/
def Writer.step (c : TracerConfig) (s : Shared) : Writer → Option (Shared × Writer)
  | checkRunning => some (s, if s.running_ then pop else stopped)
  | pop =>
    match s.writeQueue_.pop with
    | some (writeQueue_, some id) => some ({ s with writeQueue_ }, write id)
    | _ => some (s, checkRunning)
  | write id =>
    if id < c.numChunks then
      some ({ s with outputFile := s.outputFile ++ chunkEvents c s id }, clear id)
    else none
  | clear id =>
    let traceChunks_ := fun slot => if slot.1 = id then none else s.traceChunks_ slot
    some ({ s with traceChunks_ }, pushAvailable id)
  | pushAvailable id =>
    match s.availableQueue_.push id with
    | some availableQueue_ => some ({ s with availableQueue_ }, checkRunning)
    | none => some (s, pushAvailable id)
  | stopped => none

inductive Lifetime
  | alive
  | closing (chunk : ℕ)
  | closed
  | stopping
  | destroyed
  deriving DecidableEq, Repr

/-- All threads; each of them takes one atomic step at a time, and what the language leaves undefined
is no step. -/
structure System where
  shared : Shared
  calls : List Call
  writer : Writer
  lifetime : Lifetime
  /-- The events of the calls of `recordEvent` that have returned. -/
  recorded : List TraceEvent

/-- Ids that are pushed one after the other, none of which waits in a queue that is long enough. -/
def pushAll (queue : RingBuffer ℕ) (ids : List ℕ) : RingBuffer ℕ :=
  ids.foldl (fun queue id => (queue.push id).getD queue) queue

def make (c : TracerConfig) : System where
  shared :=
    { traceChunks_ := fun _ => none
      currentChunkAndIndex_ := 0
      availableQueue_ :=
        pushAll (.make 0 (UInt32.ofNat c.numChunks)) (List.range c.numChunks).tail
      writeQueue_ := .make 0 (UInt32.ofNat c.numChunks)
      running_ := true
      outputFile := [] }
  calls := []
  writer := .checkRunning
  lifetime := .alive
  recorded := []

/-- Who takes the next step; a call may start, and `call i` is the one at position `i`. -/
inductive Actor
  | startRecord (e : TraceEvent)
  | startFlush
  | call (i : ℕ)
  | writer
  | destructor
  deriving DecidableEq, Repr

def destructorStep (s : System) : Option System :=
  match s.lifetime with
  | .alive =>
    if s.calls = [] then
      some { s with lifetime := .closing (chunkOf s.shared.currentChunkAndIndex_) }
    else none
  | .closing chunk =>
    match s.shared.writeQueue_.push chunk with
    | some writeQueue_ =>
      some { s with shared := { s.shared with writeQueue_ }, lifetime := .closed }
    | none => some s
  | .closed => some { s with shared := { s.shared with running_ := false }, lifetime := .stopping }
  -- the writer is joined
  | .stopping => if s.writer = .stopped then some { s with lifetime := .destroyed } else none
  | .destroyed => none

def startCall (s : System) (call : Call) : Option System :=
  match s.lifetime with
  | .alive => some { s with calls := call :: s.calls }
  | _ => none

/-- The event that has been recorded when a step of the call returns. -/
def Call.returned : Call → List TraceEvent
  | storeEvent e _ _ => [e]
  | _ => []

def callStep (c : TracerConfig) (s : System) (i : ℕ) : Option System := do
  let call ← s.calls[i]?
  let (shared, next) ← call.step c s.shared
  match next with
  | some call' => some { s with shared, calls := s.calls.set i call' }
  | none =>
    some { s with shared, calls := s.calls.eraseIdx i, recorded := s.recorded ++ call.returned }

def writerStep (c : TracerConfig) (s : System) : Option System := do
  let (shared, writer) ← s.writer.step c s.shared
  some { s with shared, writer }

def System.step (c : TracerConfig) (s : System) : Actor → Option System
  | .startRecord e => startCall s (.recordEvent e .load)
  | .startFlush => startCall s (.flushCurrentChunk .load)
  | .call i => callStep c s i
  | .writer => writerStep c s
  | .destructor => destructorStep s

def System.run (c : TracerConfig) (s : System) : List Actor → Option System
  | [] => some s
  | a :: as => (s.step c a).bind fun s => s.run c as

end Multio.Util.Tracer
