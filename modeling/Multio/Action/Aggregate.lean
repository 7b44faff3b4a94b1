import Multio.Domain.Mappings

namespace Multio.Action
open Exception Lib

/-- The context of messages and the bytes found in newly allocated buffers. -/
structure AggregateContext extends Context where
  memory : Message → ℕ → UInt8

structure AggregationCatalogue where
  messageMap : OrderedMap String Message := ∅
  processedParts : OrderedMap String (Finset Peer) := ∅

namespace AggregationCatalogue

def contains (c : AggregationCatalogue) (key : String) : Bool :=
  c.messageMap.contains key && c.processedParts.contains key

def getMessage (c : AggregationCatalogue) (key : String) : Except Exception Message :=
  match c.messageMap.find? key with
  | some msg => .ok msg
  | none => .error (.outOfRange "map::at")

/-- The write through the reference that `getMessage` returns. -/
def setMessage (c : AggregationCatalogue) (key : String) (msg : Message) : AggregationCatalogue :=
  { c with messageMap := c.messageMap.insert key msg }

def processedPartsAt (c : AggregationCatalogue) (key : String) : Except Exception (Finset Peer) :=
  match c.processedParts.find? key with
  | some parts => .ok parts
  | none => .error (.outOfRange "map::at")

def partsCount (c : AggregationCatalogue) (key : String) : Except Exception ℕ := do
  assert (c.contains key) "contains(key)"
  let parts ← c.processedPartsAt key
  .ok parts.card

def bookProcessedPart (c : AggregationCatalogue) (key : String) (peer : Peer) :
    Except Exception AggregationCatalogue := do
  assert (c.contains key) "contains(key)"
  let parts ← c.processedPartsAt key
  .ok { c with processedParts := c.processedParts.insert key (insert peer parts) }

/-- The preallocated global message; its source is the destination of the parts. -/
def newMessage (ctx : AggregateContext) (msg : Message) (size : ℕ) : Message where
  header := { tag := msg.tag, source := msg.destination, destination := msg.destination,
              metadata := msg.metadata }
  payload := (List.range size).map (ctx.memory msg)

def addNew (ctx : AggregateContext) (c : AggregationCatalogue) (msg : Message) :
    Except Exception AggregationCatalogue := do
  let fid := msg.fieldId ctx.toContext
  assert (!c.contains fid) "not contains(msg.fieldId())"
  let precision ← msg.precision ctx.toContext
  let globalSize ← msg.globalSize ctx.toContext
  -- a negative size becomes a huge one
  if globalSize < 0 then .error .badAlloc
  else
    let global := newMessage ctx msg (globalSize.toNat * precision.size)
    .ok { messageMap := c.messageMap.emplace fid global
          processedParts := c.processedParts.emplace fid ∅ }

def extract (c : AggregationCatalogue) (fid : String) :
    Except Exception (Message × AggregationCatalogue) :=
  match c.messageMap.find? fid with
  | none => .error (.assertionFailed "it != end(messageMap_)")
  | some msg => .ok (msg,
      { messageMap := c.messageMap.erase fid, processedParts := c.processedParts.erase fid })

end AggregationCatalogue

structure Aggregate where
  aggCatalogue : AggregationCatalogue := {}
  flushes : OrderedMap String (Finset Peer) := ∅

namespace Aggregate

variable (ctx : AggregateContext) (mappings : Mappings)

def allPartsArrived (c : AggregationCatalogue) (msg : Message) : Except Exception Bool := do
  let domainMap ← mappings.get (← msg.domain ctx.toContext)
  if ← domainMap.isComplete then do
    let count ← c.partsCount (msg.fieldId ctx.toContext)
    let size ← domainMap.size
    .ok (count = size)
  else .ok false

/-- `toGlobal(msg, aggCatalogue_.getMessage(fid))` with the domain of the message's source. -/
def toGlobal (c : AggregationCatalogue) (msg : Message) :
    Except Exception AggregationCatalogue := do
  let fid := msg.fieldId ctx.toContext
  let domainMap ← mappings.get (← msg.domain ctx.toContext)
  let domain ← domainMap.at_ msg.source
  let global ← c.getMessage fid
  let precision ← msg.precision ctx.toContext
  let payload ← domain.toGlobal precision.size msg.payload global.payload
  .ok (c.setMessage fid { global with payload })

def handleField (c : AggregationCatalogue) (msg : Message) :
    Except Exception (AggregationCatalogue × Bool) := do
  let fid := msg.fieldId ctx.toContext
  let c ← (if c.contains fid then .ok c else c.addNew ctx msg : Except _ AggregationCatalogue)
  let c ← toGlobal ctx mappings c msg
  let c ← c.bookProcessedPart fid msg.source
  let arrived ← allPartsArrived ctx mappings c msg
  .ok (c, arrived)

/-- The number of flushes received, this one included; a second flush of a peer throws. -/
def flushCount (flushes : OrderedMap String (Finset Peer)) (msg : Message) :
    Except Exception (OrderedMap String (Finset Peer) × ℕ) :=
  let fid := msg.fieldId ctx.toContext
  let peers := (flushes.find? fid).getD ∅
  if msg.source ∈ peers then do
    let text ← msg.print ctx.toContext
    .error (.userError ("Flush message " ++ text ++ " has already been received"))
  else .ok (flushes.insert fid (insert msg.source peers), (insert msg.source peers).card)

def handleFlush (flushes : OrderedMap String (Finset Peer)) (msg : Message) :
    Except Exception (OrderedMap String (Finset Peer) × Bool) := do
  let domain ← Metadata.get MetadataValue.getString ctx.parametrization msg.metadata "domain"
  if domain = "global" then .ok (flushes, true)
  else do
    let domainMap ← mappings.get domain
    let (flushes, flCount) ← flushCount ctx flushes msg
    if ← domainMap.isComplete then do
      let size ← domainMap.size
      if flCount = size then .ok (flushes.erase (msg.fieldId ctx.toContext), true)
      else .ok (flushes, false)
    else .ok (flushes, false)

/-- `Message{{Tag::Flush, Peer{}, Peer{}, std::string(fid)}}`; its metadata is parsed from `fid`. -/
def globalFlush (parse : String → Except Exception BaseMetadata) (fid : String) :
    Except Exception Message := do
  let metadata ← parse fid
  .ok { header :=
          { tag := .flush, source := {}, destination := {}, metadata, fieldId_ := some fid } }

/-- `Aggregate::executeImpl`, with the messages it passes on. -/
def executeImpl (parse : String → Except Exception BaseMetadata) (a : Aggregate) (msg : Message) :
    Except Exception (Aggregate × List Message) :=
  match msg.tag with
  | .field => do
    let (c, arrived) ← handleField ctx mappings a.aggCatalogue msg
    if arrived then do
      -- all parts have arrived
      let (out, c) ← c.extract (msg.fieldId ctx.toContext)
      .ok ({ a with aggCatalogue := c }, [out])
    else .ok ({ a with aggCatalogue := c }, [])
  | .flush => do
    let (flushes, arrived) ← handleFlush ctx mappings a.flushes msg
    if arrived then do
      let out ← globalFlush parse (msg.fieldId ctx.toContext)
      .ok ({ a with flushes := flushes.erase (msg.fieldId ctx.toContext) }, [out])
    else .ok ({ a with flushes }, [])
  | _ => .ok (a, [])

/-- Messages in the order in which they arrive, with what each of them makes go out. -/
def run (parse : String → Except Exception BaseMetadata) :
    Aggregate → List Message → Except Exception (Aggregate × List (List Message))
  | a, [] => .ok (a, [])
  | a, m :: ms => do
    let (a, out) ← executeImpl ctx mappings parse a m
    let (a, outs) ← run parse a ms
    .ok (a, out :: outs)

end Aggregate
end Multio.Action
