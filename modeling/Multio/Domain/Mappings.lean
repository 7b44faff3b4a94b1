import Multio.Domain.Domain
import Multio.Lib.OrderedMap
import Multio.Message.Message

namespace Multio
open Exception Lib

structure DomainMap where
  domainMap : OrderedMap Peer Domain := ∅
  consistent : Bool := false

abbrev Mappings := OrderedMap String DomainMap

namespace DomainMap

def at_ (d : DomainMap) (peer : Peer) : Except Exception Domain :=
  match d.domainMap.find? peer with
  | some domain => .ok domain
  | none => .error (.outOfRange "map::at")

/-- `totalSize += domain.second->localSize()`, where `totalSize` is an `int`. -/
def addSize (totalSize : ℤ) (e : Peer × Domain) : Except Exception ℤ := do
  let localSize ← e.2.localSize
  .ok ((totalSize + localSize).bmod (2 ^ 32))

def isComplete (d : DomainMap) : Except Exception Bool :=
  if d.consistent then .ok true
  else do
    let totalSize ← d.domainMap.entries.foldlM addSize 0
    match d.domainMap.entries with
    | [] => .error (.undefinedBehaviour "dereferenced end iterator")
    | (_, first) :: _ => .ok (totalSize = first.partialSize)

def size (d : DomainMap) : Except Exception ℕ := do
  if ← d.isComplete then .ok d.domainMap.size
  else .error (.seriousBug "Function size() is called before domain map is partially complete")

end DomainMap

def decodeInt32 (a b c d : UInt8) : ℤ :=
  (BitVec.ofNat 32 (a.toNat + b.toNat <<< 8 + c.toNat <<< 16 + d.toNat <<< 24)).toInt

def decodeInt32s : List UInt8 → List ℤ
  | a :: b :: c :: d :: rest => decodeInt32 a b c d :: decodeInt32s rest
  | _ => []

namespace Mappings

def get (m : Mappings) (name : String) : Except Exception DomainMap :=
  match m.find? name with
  | some d => .ok d
  | none => .error (.assertionFailed ("Cannot find domainMaps for " ++ name))

/-- The index map of a domain message: `msg.size()` bytes are copied to `msg.size() / 4` entries. -/
def localMap (msg : Message) : Except Exception (List ℤ) :=
  if msg.size % 4 = 0 then .ok (decodeInt32s msg.payload)
  else .error (.undefinedBehaviour "write outside of the index map")

def makeDomain (ctx : Context) (msg : Message) : Except Exception Domain := do
  let localMap ← localMap msg
  let representation ←
    Metadata.get MetadataValue.getString ctx.parametrization msg.metadata "representation"
  if representation = "unstructured" then do
    let globalSize ← msg.globalSize ctx
    .ok (.unstructured localMap globalSize)
  else if representation = "structured" then do
    let s ← Structured.ofDefinition localMap
    .ok (.structured s)
  else .error (.assertionFailed ("Unsupported domain representation " ++ representation))

/-- `Mappings::add`: the first domain of a peer under a name stays. -/
def add (ctx : Context) (m : Mappings) (msg : Message) : Except Exception Mappings := do
  let name ← msg.name ctx
  let d := (m.find? name).getD {}
  if d.domainMap.contains msg.source then .ok (m.insert name d)
  else do
    let domain ← makeDomain ctx msg
    .ok (m.insert name { d with domainMap := d.domainMap.emplace msg.source domain })

end Mappings
end Multio
