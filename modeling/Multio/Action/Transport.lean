import Multio.Lib.OrderedMap
import Multio.Lib.RoundRobin
import Multio.Message.BaseMetadata

namespace Multio.Action
open Lib

/-- `std::hash` and the formatting of streams besides the context of messages. -/
structure TransportContext extends Context where
  policy : HashPolicy String
  hash : String → ℕ
  showDouble : UInt64 → String
  showFloat : UInt32 → String

inductive DistributionType
  | hashedCyclic
  | hashedToSingle
  | even
  deriving DecidableEq, Repr

structure Transport where
  client : Peer
  serverPeers : List Peer
  serverId : ℕ
  usedServerCount : ℕ
  hashKeys : List String
  distType : DistributionType
  destinations : OrderedMap String Peer
  counters : List ℕ

/-- In `size_t`, where nothing less one is the largest value. -/
def serverIdDenom (clientCount serverCount : ℕ) : ℕ :=
  if serverCount = 0 then 1 else (clientCount + (2 ^ 64 - 1)) % 2 ^ 64 / serverCount + 1

/-- The value of `hash-keys` of the configuration. -/
def getHashKeys (conf : Option (List String)) : List String :=
  conf.getD ["category", "name", "level"]

/-- The value of `MULTIO_SERVER_DISTRIBUTION` in the environment. -/
def distributionType (key : Option String) : Except Exception DistributionType :=
  match key with
  | none => .ok .hashedToSingle
  | some "hashed_cyclic" => .ok .hashedCyclic
  | some "hashed_to_single" => .ok .hashedToSingle
  | some "even" => .ok .even
  | some key => .error (.transport ("Transport::distributionType(): Unsupported distribution type \"" ++
      key ++ "\" read from environment variable MULTIO_SERVER_DISTRIBUTION\n"))

namespace Transport

def make (client : Peer) (serverPeers : List Peer) (clientCount usedServerCount : ℕ)
    (hashKeys : List String) (distType : DistributionType) : Transport where
  client
  serverPeers
  serverId := client.id / serverIdDenom clientCount serverPeers.length
  usedServerCount
  hashKeys
  distType
  destinations := ∅
  counters := List.replicate serverPeers.length 0

variable (ctx : TransportContext)

def getMetadataValue (metadata : BaseMetadata) (hashKey : String) :
    Except Exception MetadataValue :=
  match Metadata.find ctx.parametrization metadata hashKey with
  | some v => .ok v
  | none => .error (.transport ("The hash key \"" ++ hashKey ++
      "\" is not defined in the metadata object: " ++ ctx.toString metadata ++ "\n"))

def showScalar (hashKey : String) : MetadataValue → Except Exception String
  | .null => .ok "null"
  | .bool v => .ok (if v then "1" else "0")
  | .int64 v => .ok (toString v)
  | .double bits => .ok (ctx.showDouble bits)
  | .float bits => .ok (ctx.showFloat bits)
  | .string v => .ok v
  | _ => .error (.metadataWrongTypeKey hashKey)

def constructHash (hashKeys : List String) (metadata : BaseMetadata) : Except Exception String := do
  let shown ← hashKeys.mapM fun hashKey => do
    showScalar ctx hashKey (← getMetadataValue ctx metadata hashKey)
  .ok (String.join shown)

/-- `*serverPeers_[id]` after its assertion. -/
def serverPeer (t : Transport) (id : ℕ) : Except Exception Peer :=
  match t.serverPeers[id]? with
  | some peer => .ok peer
  | none => .error (.assertionFailed "id < serverPeers_.size()")

def chooseServer (t : Transport) (metadata : BaseMetadata) :
    Except Exception (Peer × Transport) := do
  let serverCount := t.serverPeers.length
  Exception.assert (0 < serverCount) "No server to choose from"
  let hashString ← constructHash ctx t.hashKeys metadata
  match t.distType with
  | .hashedCyclic =>
    Exception.assert (t.usedServerCount ≤ serverCount) "usedServerCount_ <= serverCount_"
    if t.usedServerCount = 0 then .error (.undefinedBehaviour "division by zero")
    let offset := ctx.hash hashString % t.usedServerCount
    .ok (← t.serverPeer ((t.serverId + offset) % 2 ^ 64 % serverCount), t)
  | .hashedToSingle =>
    .ok (← t.serverPeer (ctx.hash hashString % serverCount), t)
  | .even =>
    match t.destinations.find? hashString with
    | some dest => .ok (dest, t)
    | none =>
      -- a new string goes to the first of the servers with the fewest strings
      let id := minElement t.counters
      let dest ← t.serverPeer id
      Exception.assert (id < t.counters.length) "id < counters_.size()"
      .ok (dest, { t with
        counters := t.counters.modify id (· + 1)
        destinations := t.destinations.insert hashString dest })

def trMsg (t : Transport) (msg : Message) (md : BaseMetadata) (server : Peer) : Message where
  header := { tag := msg.tag, source := t.client, destination := server, metadata := md }
  payload := msg.payload

/-- The copy of the metadata of which `get<bool>("toAllServers")` is asked. -/
def askedMetadata (msg : Message) : BaseMetadata :=
  msg.metadata.fetch ctx.policy ctx.parametrization "toAllServers"

/-- The messages that are handed to `bufferedSend`. -/
def executeImpl (t : Transport) (msg : Message) : Except Exception (List Message × Transport) := do
  if ← Metadata.get MetadataValue.getBool ctx.parametrization msg.metadata "toAllServers" then
    .ok (t.serverPeers.map (t.trMsg msg msg.metadata), t)
  else
    let (server, t) ← t.chooseServer ctx msg.metadata
    .ok ([t.trMsg msg (askedMetadata ctx msg) server], t)

/-- All that a client sends; a message that throws is not sent and changes nothing. -/
def sent (t : Transport) : List Message → List Message
  | [] => []
  | msg :: msgs =>
    match t.executeImpl ctx msg with
    | .ok (out, t) => out ++ t.sent msgs
    | .error _ => t.sent msgs

end Transport
end Multio.Action
