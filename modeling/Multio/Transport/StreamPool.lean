import Multio.Message.Message
import Multio.Lib.OrderedMap

namespace Multio.Transport
open Exception Lib

inductive BufferStatus
  | available
  | fillingUp
  | transmitting
  deriving DecidableEq, Repr

/-- A buffer; its request is the number of the send that was started last. -/
structure MpiBuffer where
  status : BufferStatus := .available
  request : Option ℕ := none
  content : List UInt8

/-- A call of `iSend`: the bytes it was given and, once it is complete, those that were sent. Until
then it reads its buffer at any time. -/
structure Send where
  dest : Peer
  buffer : ℕ
  bytes : List UInt8
  arrived : Option (List UInt8) := none

structure MpiOutputStream where
  buffer : ℕ
  position : ℕ := 0

/-- What `encodeMessage` writes, and how a stream enlarges its buffer. -/
structure StreamContext where
  encode : Message → List UInt8
  resize : List UInt8 → ℕ → List UInt8
  prefix_resize : ∀ content size, content <+: resize content size

instance : Inhabited StreamContext where
  default := {
    encode msg := msg.payload
    resize content size := content ++ List.replicate (size - content.length) 0
    prefix_resize _ _ := List.prefix_append _ _ }

/-- The pool, with the calls of `iSend` and the messages written so far. A message that waits for a
buffer is kept with the index of the buffer to be looked at next. -/
structure StreamPool where
  buffers : List MpiBuffer
  streams : OrderedMap Peer MpiOutputStream := ∅
  acquiring : Option (Message × ℕ) := none
  sends : List Send := []
  written : List Message := []

/-- `makeBuffers`; the contents are those of the memory allocated. -/
def makeBuffers (contents : List (List UInt8)) : StreamPool where
  buffers := contents.map fun content => { content }

/-- The content of a buffer after `bytes` are written at a position. -/
def StreamContext.overwrite (ctx : StreamContext) (content : List UInt8) (position : ℕ)
    (bytes : List UInt8) : List UInt8 :=
  let content := if content.length < position + bytes.length
    then ctx.resize content (position + bytes.length) else content
  content.take position ++ bytes ++ content.drop (position + bytes.length)

namespace StreamPool

variable (ctx : StreamContext) (p : StreamPool)

/-- `request.test()`. -/
def test (b : MpiBuffer) : Bool :=
  match b.request with
  | some k => ((p.sends[k]?).bind Send.arrived).isSome
  | none => true

def canFitMessage (strm : MpiOutputStream) (sz : ℕ) : Bool :=
  match p.buffers[strm.buffer]? with
  | some b => strm.position + sz + 4096 < b.content.length
  | none => false

/-- `encodeMessage(strm, msg)` on the open stream of the message's destination. -/
def encodeMessage (strm : MpiOutputStream) (msg : Message) : StreamPool :=
  let bytes := ctx.encode msg
  { p with
    buffers := p.buffers.modify strm.buffer fun b =>
      { b with content := ctx.overwrite b.content strm.position bytes }
    streams := p.streams.insert msg.destination
      { strm with position := strm.position + bytes.length }
    written := p.written ++ [msg] }

def sendBuffer (dest : Peer) : Except Exception StreamPool :=
  match p.streams.find? dest with
  | none => .error (.outOfRange "map::at")
  | some strm =>
    match p.buffers[strm.buffer]? with
    | none => .error (.undefinedBehaviour "buffer outside of the pool")
    | some b => .ok { p with
        buffers := p.buffers.set strm.buffer
          { b with request := some p.sends.length, status := .transmitting }
        sends := p.sends ++ [{ dest, buffer := strm.buffer, bytes := b.content.take strm.position }]
        streams := p.streams.erase dest }

/-- `createNewStream` up to the loop of `acquireAvailableBuffer`. -/
def createNewStream (msg : Message) : Except Exception StreamPool :=
  if p.buffers.length < p.streams.size then
    .error (.badValue "Too few buffers to cover all MPI destinations")
  else .ok { p with acquiring := some (msg, 0) }

/-- `bufferedSend`, with the pool it leaves also when it throws. `draw` is the outcome of the
random choice of `shallFitMessage`. -/
def bufferedSend (msg : Message) (draw : Bool) : Except Exception Unit × StreamPool :=
  match p.streams.find? msg.destination with
  | none =>
    match p.createNewStream msg with
    | .ok p' => (.ok (), p')
    | .error e => (.error e, p)
  | some strm =>
    -- otherwise the stream is dispatched, and the message begins another one
    if p.canFitMessage strm msg.size && draw then (.ok (), p.encodeMessage ctx strm msg)
    else
      match p.sendBuffer msg.destination with
      | .error e => (.error e, p)
      | .ok p' =>
        match p'.createNewStream msg with
        | .ok p'' => (.ok (), p'')
        | .error e => (.error e, p')

/-- The predicate of `find_if` on a buffer; `exchanged` says whether the exchange of its status
succeeds, which it need not. -/
def acquires (b : MpiBuffer) (exchanged : Bool) : Bool :=
  match b.status with
  | .available => exchanged
  | .transmitting => p.test b && exchanged && p.test b
  | .fillingUp => false

/-- One turn of the loop that looks for a buffer; a message that gets one is written. -/
def poll (exchanged : Bool) : StreamPool :=
  match p.acquiring with
  | none => p
  | some (msg, i) =>
    match p.buffers[i]? with
    -- the loop over the buffers begins anew
    | none => { p with acquiring := some (msg, 0) }
    | some b =>
      if p.acquires b exchanged then
        encodeMessage ctx { p with
          buffers := p.buffers.set i { b with status := .fillingUp }
          streams := p.streams.emplace msg.destination { buffer := i }
          acquiring := none } { buffer := i } msg
      else { p with acquiring := some (msg, i + 1) }

/-- A send is complete: its bytes have been read from the buffer. -/
def complete (k : ℕ) : StreamPool :=
  match p.sends[k]? with
  | none => p
  | some s =>
    match s.arrived, p.buffers[s.buffer]? with
    | none, some b =>
      { p with
        sends := p.sends.set k { s with arrived := some (b.content.take s.bytes.length) } }
    | _, _ => p

inductive Event
  | bufferedSend (msg : Message) (draw : Bool)
  | sendBuffer (dest : Peer)
  | poll (exchanged : Bool)
  | complete (k : ℕ)

def step (p : StreamPool) : Event → StreamPool
  | .bufferedSend msg draw => if p.acquiring.isSome then p else (p.bufferedSend ctx msg draw).2
  | .sendBuffer dest =>
    if p.acquiring.isSome then p
    else
      match p.sendBuffer dest with
      | .ok p' => p'
      | .error _ => p
  | .poll exchanged => p.poll ctx exchanged
  | .complete k => p.complete k

def run (p : StreamPool) (events : List Event) : StreamPool := events.foldl (step ctx) p

/-- The message of a call of `bufferedSend` that does not throw. -/
def accepts (p : StreamPool) : Event → List Message
  | .bufferedSend msg draw =>
    if p.acquiring.isSome then []
    else
      match (p.bufferedSend ctx msg draw).1 with
      | .ok () => [msg]
      | .error _ => []
  | _ => []

def accepted (p : StreamPool) : List Event → List Message
  | [] => []
  | event :: events => p.accepts ctx event ++ accepted (step ctx p event) events

def waiting (p : StreamPool) : List Message := (p.acquiring.map Prod.fst).toList

end StreamPool
end Multio.Transport
