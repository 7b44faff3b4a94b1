import Multio.Server.Listener
import Multio.Lib.Rounds
import Mathlib.Logic.Function.Basic

namespace Multio.Server.Barrier
open Exception Lib

structure Peers where
  clients : Finset Peer
  servers : List Peer
  nodup : servers.Nodup

def IsRequest (msg : Message) : Bool := msg.tag = .synchronization

/-- Where a client is in `synchronize`: with the servers to which it has not sent its request yet,
or in the barrier of the communicator. -/
inductive Phase
  | running
  | requesting (servers : List Peer)
  | waiting

/-- A client, with all that it has sent and how often it has entered and left the barrier. -/
structure MultioClient where
  phase : Phase := .running
  entered : ℕ := 0
  left : ℕ := 0
  sent : Peer → List Message := fun _ => []
  inFlight : Peer → List Message := fun _ => []

namespace MultioClient

def put (c : MultioClient) (server : Peer) (msg : Message) : MultioClient :=
  { c with
    sent := Function.update c.sent server (c.sent server ++ [msg])
    inFlight := Function.update c.inFlight server (c.inFlight server ++ [msg]) }

/-- Everything but a request is sent outside of `synchronize`. -/
def bufferedSend (c : MultioClient) (msg : Message) : MultioClient :=
  match c.phase with
  | .running => if IsRequest msg then c else c.put msg.destination msg
  | _ => c

def synchronize (peers : Peers) (c : MultioClient) : MultioClient :=
  match c.phase with
  | .running => { c with phase := .requesting peers.servers }
  | _ => c

/-- The message that `synchronize` sends. -/
def request (c server : Peer) : Message where
  header := { tag := .synchronization, source := c, destination := server,
              metadata := { bucketCount := 1 } }

/-- The next turn of the loop over the servers; after it comes `waitAll`, which may take any
time, and then the barrier. -/
def sendRequest (local_ : Peer) (c : MultioClient) : MultioClient :=
  match c.phase with
  | .requesting (server :: rest) =>
    { c.put server (request local_ server) with phase := .requesting rest }
  | .requesting [] => { c with phase := .waiting, entered := c.entered + 1 }
  | _ => c

end MultioClient

/-- What `handle` of the dispatcher calls. -/
inductive Call
  | mappings (msg : Message)
  | mask (msg : Message)
  | parametrization (msg : Message)
  | synchronize
  | plans (msg : Message)

def Call.isSynchronize : Call → Bool
  | .synchronize => true
  | _ => false

def handle (msg : Message) : Call :=
  match msg.tag with
  | .domain => .mappings msg
  | .mask => .mask msg
  | .parametrization => .parametrization msg
  | .synchronization => .synchronize
  | _ => .plans msg

/-- A server, with all that its listener has received. Its queue holds every message ever put into
it, of which the dispatcher has taken out the first `handled`. -/
structure MultioServer where
  listener : Listener
  listening : Bool := true
  received : List Message := []
  handled : ℕ := 0
  calls : List Call := []
  entered : ℕ := 0
  left : ℕ := 0

namespace MultioServer

def queue (sv : MultioServer) : List Message := sv.listener.msgQueue

def receivedFrom (sv : MultioServer) (c : Peer) : List Message :=
  sv.received.filter fun msg => msg.source = c

def receive (ctx : Context) (sv : MultioServer) (msg : Message) :
    Except Exception MultioServer := do
  let listener ← sv.listener.receive ctx msg
  .ok { sv with
    listener
    listening := listener.moreConnections
    received := sv.received ++ [msg] }

/-- A turn of the loop of `dispatch`; on a server `synchronize` is the barrier, in which the
dispatcher stays until it is left. -/
def dispatch (sv : MultioServer) : MultioServer :=
  if sv.left < sv.entered then sv
  else
    match sv.queue[sv.handled]? with
    | none => sv
    | some msg =>
      { sv with
        handled := sv.handled + 1
        calls := sv.calls ++ [handle msg]
        entered := if IsRequest msg then sv.entered + 1 else sv.entered }

end MultioServer

structure System where
  client : Peer → MultioClient
  server : Peer → MultioServer

inductive Event
  | bufferedSend (msg : Message)
  | synchronize (c : Peer)
  | sendRequest (c : Peer)
  | leaveClient (c : Peer)
  | receive (c s : Peer)
  | dispatch (s : Peer)
  | leaveServer (s : Peer)

variable (ctx : Context) (peers : Peers)

namespace System

def init : System where
  client _ := {}
  server _ := { listener := { clientCount := peers.clients.card } }

def setClient (sys : System) (c : Peer) (cl : MultioClient) : System :=
  { sys with client := Function.update sys.client c cl }

def setServer (sys : System) (s : Peer) (sv : MultioServer) : System :=
  { sys with server := Function.update sys.server s sv }

def CanLeave (sys : System) (n : ℕ) : Prop :=
  (∀ c ∈ peers.clients, n < (sys.client c).entered) ∧
    ∀ s ∈ peers.servers, n < (sys.server s).entered

instance (sys : System) (n : ℕ) : Decidable (sys.CanLeave peers n) :=
  inferInstanceAs (Decidable (_ ∧ _))

def leaveClient (sys : System) (c : Peer) : System :=
  let cl := sys.client c
  match cl.phase with
  | .waiting =>
    if sys.CanLeave peers cl.left then
      sys.setClient c { cl with phase := .running, left := cl.left + 1 }
    else sys
  | _ => sys

def leaveServer (sys : System) (s : Peer) : System :=
  let sv := sys.server s
  if sv.left < sv.entered ∧ sys.CanLeave peers sv.left then
    sys.setServer s { sv with left := sv.left + 1 }
  else sys

/-- The listener of a server takes the next message of a client. -/
def receive (sys : System) (c s : Peer) : System :=
  match (sys.client c).inFlight s with
  | [] => sys
  | msg :: rest =>
    if (sys.server s).listening then
      match (sys.server s).receive ctx msg with
      | .error _ => sys.setServer s { sys.server s with listening := false }
      | .ok sv =>
        (sys.setServer s sv).setClient c
          { sys.client c with inFlight := Function.update (sys.client c).inFlight s rest }
    else sys

def step (sys : System) : Event → System
  | .bufferedSend msg =>
    if msg.source ∈ peers.clients then
      sys.setClient msg.source ((sys.client msg.source).bufferedSend msg)
    else sys
  | .synchronize c => sys.setClient c ((sys.client c).synchronize peers)
  | .sendRequest c => sys.setClient c ((sys.client c).sendRequest c)
  | .leaveClient c => sys.leaveClient peers c
  | .receive c s => if c ∈ peers.clients ∧ s ∈ peers.servers then sys.receive ctx c s else sys
  | .dispatch s => sys.setServer s (sys.server s).dispatch
  | .leaveServer s => sys.leaveServer peers s

def run (sys : System) (events : List Event) : System := events.foldl (step ctx peers) sys

end System
end Multio.Server.Barrier
