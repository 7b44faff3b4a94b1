import Multio.Message.WireRoundTrip
import Multio.Transport.BufferBounds

namespace Multio.Transport
open Exception Lib

structure WireContext extends Context where
  codec : JsonCodec
  policy : HashPolicy String
  items : ItemStream
  resize : List UInt8 → ℕ → List UInt8
  prefix_resize : ∀ content size, content <+: resize content size

namespace WireContext

variable (w : WireContext)

def streams : StreamContext where
  encode msg := (msg.encode w.toContext).flatMap w.items.write
  resize := w.resize
  prefix_resize := w.prefix_resize

def Fits (msg : Message) : Prop := ∀ item ∈ msg.encode w.toContext, w.items.Fits item

def arriving (msg : Message) : Except Exception Message :=
  (decodeMessage w.codec w.policy (msg.encode w.toContext)).map Prod.fst

/-- `decodeMessage(strm)`, with what it leaves in the stream; a message has eight items. -/
def decode (bytes : List UInt8) : Except Exception (Message × List UInt8) := do
  let (items, rest) ← w.items.readItems 8 bytes
  let (msg, _) ← decodeMessage w.codec w.policy items
  .ok (msg, rest)

end WireContext

structure ReceivedBuffer where
  buffer : ℕ
  size : ℕ

/-- `MpiTransport` on a server, with the two threads that use it: the one that listens, and the one
that is given messages. Both stop at an exception. -/
structure MpiServer where
  pool : StreamPool
  /-- What the listening thread has received and not queued yet. -/
  listening : Option ReceivedBuffer := none
  streamQueue : List ReceivedBuffer := []
  /-- The buffer that is being decoded, with the position of its stream. -/
  decoding : Option (ReceivedBuffer × ℕ) := none
  msgPack : List Message := []
  /-- What `receive` has returned so far. -/
  received : List Message := []
  /-- The buffers received so far, with the clients that sent them. -/
  arrivals : List (Peer × List UInt8) := []
  exception : Option Exception := none

namespace MpiServer

variable (s : MpiServer)

def setBuffer (i : ℕ) (b : MpiBuffer) : MpiServer :=
  { s with pool := { s.pool with buffers := s.pool.buffers.set i b } }

/-- `listen`, up to the queue, when a buffer of the pool has been acquired. -/
def listen (c : Peer) (i : ℕ) (sent : List UInt8) : MpiServer :=
  match s.listening, s.pool.buffers[i]? with
  | none, some b =>
    if s.pool.acquires b true then
      let b := { b with status := .fillingUp }
      match blockingReceive b sent with
      | .ok b => { s.setBuffer i b with
          listening := some { buffer := i, size := sent.length }
          arrivals := s.arrivals ++ [(c, sent)] }
      | .error e => { s.setBuffer i b with exception := some e }
    else s
  | _, _ => s

/-- `streamQueue_.push`, which waits as long as the queue is full. -/
def push : MpiServer :=
  match s.listening with
  | some r =>
    if s.streamQueue.length < 1024 then
      { s with listening := none, streamQueue := s.streamQueue ++ [r] }
    else s
  | none => s

/-- What `receive` does next: it decodes a message or gives the buffer back, it returns a message,
or it takes a buffer from the queue. -/
def receive (w : WireContext) : MpiServer :=
  match s.decoding with
  | some (r, position) =>
    match s.pool.buffers[r.buffer]? with
    | some b =>
      -- the stream is read to the end of what was received
      if position < r.size then
        match w.decode (b.content.drop position) with
        | .ok (msg, rest) => { s with
            decoding := some (r, b.content.length - rest.length), msgPack := s.msgPack ++ [msg] }
        | .error e => { s with exception := some e }
      else { s.setBuffer r.buffer { b with status := .available } with decoding := none }
    | none => s
  | none =>
    match s.msgPack, s.streamQueue with
    -- what has been decoded is given out before another stream is opened
    | msg :: msgs, _ => { s with msgPack := msgs, received := s.received ++ [msg] }
    | [], r :: rs => { s with streamQueue := rs, decoding := some (r, 0) }
    | [], [] => s

/-- The buffers that have been received and not been decoded, with the position in them. -/
def held : List (ReceivedBuffer × ℕ) :=
  s.decoding.toList ++ (s.streamQueue ++ s.listening.toList).map fun r => (r, 0)

def unread : List UInt8 :=
  s.held.flatMap fun h =>
    ((s.pool.buffers[h.1.buffer]?).map fun b => (b.content.take h.1.size).drop h.2).getD []

end MpiServer

/-- A client: what it sent by `send`, before any of the messages that go through its pool. -/
structure MpiClient where
  opened : List Message
  pool : StreamPool

/-- `openConnections`. -/
def MpiClient.openConnections (metadata : BaseMetadata) (client : Peer) (serverPeers : List Peer) :
    List Message :=
  serverPeers.map fun q =>
    { header := { tag := .open, source := client, destination := q, metadata }, payload := [] }

/-- What has been sent to a server, and the bytes that have been read of it. -/
def MpiClient.posted (w : WireContext) (c : MpiClient) (q : Peer) :
    List (List UInt8 × Option (List UInt8)) :=
  (c.opened.filter fun m => m.destination = q).map
      (fun m => (w.streams.encode m, some (w.streams.encode m))) ++
    c.pool.sends.filterMap fun s => if s.dest = q then some (s.bytes, s.arrived) else none

structure MpiSystem where
  clients : Peer → MpiClient
  servers : Peer → MpiServer

namespace MpiSystem

variable (w : WireContext) (sys : MpiSystem)

inductive Event
  | client (c : Peer) (event : StreamPool.Event)
  | listen (q c : Peer) (i : ℕ)
  | push (q : Peer)
  | receive (q : Peer)

def inFlight (c q : Peer) : List (List UInt8 × Option (List UInt8)) :=
  ((sys.clients c).posted w q).drop ((sys.servers q).arrivals.countP fun a => a.1 = c)

def serve (q : Peer) (f : MpiServer → MpiServer) : MpiSystem :=
  if (sys.servers q).exception.isSome then sys
  else { sys with servers := Function.update sys.servers q (f (sys.servers q)) }

/-- A buffer is received when it is the oldest one of its client and its bytes have been read. -/
def step : Event → MpiSystem
  | .client c event =>
    let client := sys.clients c
    let pool := StreamPool.step w.streams client.pool event
    { sys with clients := Function.update sys.clients c { client with pool } }
  | .listen q c i =>
    match (sys.inFlight w c q).head? with
    | some (_, some sent) => sys.serve q fun s => s.listen c i sent
    | _ => sys
  | .push q => sys.serve q MpiServer.push
  | .receive q => sys.serve q fun s => s.receive w

def run (events : List Event) : MpiSystem := events.foldl (step w) sys

def calls (c : Peer) (events : List Event) : List StreamPool.Event :=
  events.filterMap fun
    | .client c' event => if c' = c then some event else none
    | .listen _ _ _ => none
    | .push _ => none
    | .receive _ => none

/-- All messages that clients are given are within the ranges of the stream. -/
def AllFit (opened : Peer → List Message) (events : List Event) : Prop :=
  (∀ c, ∀ m ∈ opened c, w.Fits m) ∧
    ∀ c msg draw, .client c (.bufferedSend msg draw) ∈ events → w.Fits msg

/-- The messages of each client that were sent by themselves, and the contents of all buffers. -/
def start (opened : Peer → List Message) (clients servers : Peer → List (List UInt8)) :
    MpiSystem where
  clients c := { opened := opened c, pool := makeBuffers (clients c) }
  servers q := { pool := makeBuffers (servers q) }

def sentTo (c q : Peer) : List Message :=
  ((sys.clients c).opened.filter fun m => m.destination = q) ++ (sys.clients c).pool.writtenFor q

/-- A server has received whole buffers of messages: of each client what it wrote first, while the
rest is in flight or in its open stream. It gives out the messages of these buffers, while the rest
is in the buffers that it holds. -/
structure Accounts (q : Peer) (buffers : List (Peer × List Message)) : Prop where
  sent : ∀ c, ∃ rest, (buffers.filter fun b => b.1 = c).flatMap Prod.snd ++ rest = sys.sentTo c q ∧
    rest.flatMap w.streams.encode =
      (sys.inFlight w c q).flatMap Prod.fst ++ (sys.clients c).pool.openBytes q
  given : ∃ rest : List Message, ((sys.servers q).received ++ (sys.servers q).msgPack).map .ok ++
      rest.map w.arriving = (buffers.flatMap Prod.snd).map w.arriving ∧
    rest.flatMap w.streams.encode = (sys.servers q).unread ∧ ∀ m ∈ rest, w.Fits m

end MpiSystem

namespace WireContext

variable (w : WireContext) {msg : Message} {ms ms' : List Message}

theorem readItems_encode (hmsg : w.Fits msg) (rest : List UInt8) :
    w.items.readItems 8 (w.streams.encode msg ++ rest) = .ok (msg.encode w.toContext, rest) :=
  w.items.readItems_write hmsg rest

theorem decode_encode (hmsg : w.Fits msg) (rest : List UInt8) :
    w.decode (w.streams.encode msg ++ rest) = (w.arriving msg).map fun m => (m, rest) := by
  unfold decode arriving
  rw [w.readItems_encode hmsg, ok_bind]
  simp only
  cases decodeMessage w.codec w.policy (msg.encode w.toContext) with
  | ok x => rfl
  | error e => rfl

theorem encode_ne_nil (hmsg : w.Fits msg) : w.streams.encode msg ≠ [] := by
  intro h
  have hread := w.readItems_encode hmsg []
  rw [h, List.append_nil, ItemStream.readItems] at hread
  obtain ⟨x, hx, -⟩ := bind_eq_ok_iff.mp hread
  exact w.items.read_nil _ _ hx

theorem map_arriving_eq (hms : ∀ m ∈ ms, w.Fits m) (hms' : ∀ m ∈ ms', w.Fits m)
    (h : ms.flatMap w.streams.encode = ms'.flatMap w.streams.encode) :
    ms.map w.arriving = ms'.map w.arriving := by
  have hitems : ms.map (fun m => m.encode w.toContext) =
      ms'.map fun m => m.encode w.toContext := by
    refine Blocks.map_eq_of_flatMap_eq (fun bytes => (w.items.readItems 8 bytes).toOption)
      (fun msg hmsg rest => ?_) ?_ hms hms' h
    · rw [w.readItems_encode hmsg]
      rfl
    · cases hread : w.items.readItems 8 [] with
      | error e => rfl
      | ok x =>
        rw [ItemStream.readItems] at hread
        obtain ⟨x, hx, -⟩ := bind_eq_ok_iff.mp hread
        exact absurd hx (w.items.read_nil _ _)
  have harriving : w.arriving = (fun items =>
      (decodeMessage w.codec w.policy items).map Prod.fst) ∘ fun m => m.encode w.toContext := rfl
  rw [harriving, ← List.map_map, hitems, List.map_map]

end WireContext

namespace MpiServer

variable {w : WireContext} {s : MpiServer} {past : List Message} {groups : List (List Message)}
  {h : ReceivedBuffer × ℕ} {ms : List Message} {i : ℕ} {b : MpiBuffer}

def Contains (w : WireContext) (s : MpiServer) (h : ReceivedBuffer × ℕ) (ms : List Message) :
    Prop :=
  ∃ b : MpiBuffer, s.pool.buffers[h.1.buffer]? = some b ∧ h.1.size ≤ b.content.length ∧
    h.2 ≤ h.1.size ∧ (b.content.take h.1.size).drop h.2 = ms.flatMap w.streams.encode

/-- All that was received has been decoded or is held, in buffers that are not shared and that
nothing is received into. -/
structure Holds (w : WireContext) (s : MpiServer) (past : List Message)
    (groups : List (List Message)) : Prop where
  decoded : (s.received ++ s.msgPack).map .ok = past.map w.arriving
  held : List.Forall₂ (Contains w s) s.held groups
  arrivals : s.arrivals.flatMap Prod.snd =
    (past ++ groups.flatten).flatMap w.streams.encode
  fits : ∀ m ∈ past ++ groups.flatten, w.Fits m
  unshared : (s.held.map fun h => h.1.buffer).Nodup
  status : s.exception = none → ∀ i b, s.pool.buffers[i]? = some b →
    b.status = if i ∈ s.held.map (fun h => h.1.buffer) then .fillingUp else .available

theorem Contains.congr {s' : MpiServer} (hc : Contains w s h ms)
    (hbuffers : s'.pool.buffers[h.1.buffer]? = s.pool.buffers[h.1.buffer]?) :
    Contains w s' h ms := by
  obtain ⟨b, hb, hrest⟩ := hc
  exact ⟨b, hbuffers.trans hb, hrest⟩

theorem contains_of_ne {hs : List (ReceivedBuffer × ℕ)}
    (hc : List.Forall₂ (Contains w s) hs groups)
    (hi : i ∉ hs.map fun h => h.1.buffer) {s' : MpiServer}
    (hbuffers : ∀ j, j ≠ i → s'.pool.buffers[j]? = s.pool.buffers[j]?) :
    List.Forall₂ (Contains w s') hs groups := by
  induction hc with
  | nil => exact .nil
  | cons hhead htail ih =>
    rw [List.map_cons, List.mem_cons, not_or] at hi
    obtain ⟨hne, hi⟩ := hi
    exact .cons (hhead.congr (hbuffers _ (Ne.symm hne))) (ih hi)

theorem Holds.unread (hs : s.Holds w past groups) :
    groups.flatten.flatMap w.streams.encode = s.unread := by
  have hall : ∀ {hs : List (ReceivedBuffer × ℕ)} {groups : List (List Message)},
      List.Forall₂ (Contains w s) hs groups → groups.flatten.flatMap w.streams.encode =
        hs.flatMap fun h => ((s.pool.buffers[h.1.buffer]?).map fun b =>
          (b.content.take h.1.size).drop h.2).getD [] := by
    intro hs groups hc
    induction hc with
    | nil => rfl
    | cons hhead htail ih =>
      obtain ⟨b, hb, -, -, hbytes⟩ := hhead
      rw [List.flatten_cons, List.flatMap_append, List.flatMap_cons, ih, hb, ← hbytes]
      rfl
  exact hall hs.held

theorem Holds.push (hs : s.Holds w past groups) : s.push.Holds w past groups := by
  unfold MpiServer.push
  split
  · next r hr =>
    split_ifs
    · have hheld : ({ s with listening := none, streamQueue := s.streamQueue ++ [r] } :
          MpiServer).held = s.held := by
        unfold MpiServer.held
        rw [hr]
        simp
      refine ⟨hs.decoded, ?_, hs.arrivals, hs.fits, ?_, ?_⟩
      · rw [hheld]
        exact hs.held
      · rw [hheld]
        exact hs.unshared
      · rw [hheld]
        exact hs.status
    · exact hs
  · exact hs

theorem push_arrivals (s : MpiServer) : s.push.arrivals = s.arrivals := by
  unfold MpiServer.push
  split
  · split_ifs
    · rfl
    · rfl
  · rfl

theorem Holds.decoding (hs : s.Holds w past groups) {r : ReceivedBuffer} {position : ℕ}
    (hr : s.decoding = some (r, position)) :
    ∃ g gs, groups = g :: gs ∧ Contains w s (r, position) g ∧
      List.Forall₂ (Contains w s) ((s.streamQueue ++ s.listening.toList).map fun r => (r, 0)) gs ∧
      r.buffer ∉ (s.streamQueue ++ s.listening.toList).map ReceivedBuffer.buffer := by
  have hheld := hs.held
  have hunshared := hs.unshared
  unfold MpiServer.held at hheld hunshared
  rw [hr, Option.toList_some, List.singleton_append] at hheld hunshared
  cases hheld with
  | @cons _ g _ gs hhead htail =>
    refine ⟨g, gs, rfl, hhead, htail, ?_⟩
    rw [List.map_cons, List.map_map] at hunshared
    exact (List.nodup_cons.mp hunshared).1

theorem decode_of_contains {r : ReceivedBuffer} {position : ℕ} {m : Message} (hm : w.Fits m)
    (hb : s.pool.buffers[r.buffer]? = some b)
    (hc : Contains w s (r, position) (m :: ms)) :
    ∃ rest, w.decode (b.content.drop position) = (w.arriving m).map (fun m' => (m', rest)) ∧
      ∀ s' : MpiServer, s'.pool.buffers[r.buffer]? = some b →
        Contains w s' (r, b.content.length - rest.length) ms := by
  obtain ⟨b', hb', hsize, hposition, hbytes⟩ := hc
  obtain rfl := Option.some.inj (hb.symm.trans hb')
  simp only [List.flatMap_cons] at hsize hposition hbytes
  have htaken : (b.content.take r.size).length = r.size := List.length_take_of_le hsize
  have hdrop : b.content.drop position =
      w.streams.encode m ++ (ms.flatMap w.streams.encode ++ b.content.drop r.size) := by
    rw [← List.append_assoc, ← hbytes, ← List.drop_append_of_le_length (by simpa [htaken]),
      List.take_append_drop]
  have hlength := congrArg List.length hbytes
  rw [List.length_drop, htaken, List.length_append] at hlength
  refine ⟨ms.flatMap w.streams.encode ++ b.content.drop r.size, ?_,
    fun s' hs' => ⟨b, hs', hsize, ?_, ?_⟩⟩
  · rw [hdrop]
    exact w.decode_encode hm _
  · rw [List.length_append, List.length_drop]
    simp only
    omega
  · have hnext : b.content.length -
        (ms.flatMap w.streams.encode ++ b.content.drop r.size).length =
          position + (w.streams.encode m).length := by
      rw [List.length_append, List.length_drop]
      omega
    simp only
    rw [hnext, ← List.drop_drop, hbytes, List.drop_left]

theorem Contains.eq_nil {r : ReceivedBuffer} {position : ℕ} (hc : Contains w s (r, position) ms)
    (hms : ∀ m ∈ ms, w.Fits m) (hposition : ¬ position < r.size) : ms = [] := by
  obtain ⟨b, -, hsize, -, hbytes⟩ := hc
  simp only at hsize hbytes
  rw [List.drop_eq_nil_of_le (by rw [List.length_take_of_le hsize]; omega)] at hbytes
  refine List.eq_nil_iff_forall_not_mem.mpr fun m hm => ?_
  exact w.encode_ne_nil (hms m hm) (List.flatMap_eq_nil_iff.mp hbytes.symm m hm)

theorem Contains.eq_cons {r : ReceivedBuffer} {position : ℕ} (hc : Contains w s (r, position) ms)
    (hposition : position < r.size) : ∃ m ms', ms = m :: ms' := by
  refine List.exists_cons_of_ne_nil fun hnil => ?_
  obtain ⟨b, -, hsize, -, hbytes⟩ := hc
  have hlength := congrArg List.length hbytes
  rw [hnil, List.length_drop, List.length_take_of_le hsize] at hlength
  simp only [List.flatMap_nil, List.length_nil] at hlength
  omega

theorem Holds.release (hs : s.Holds w past groups) {r : ReceivedBuffer} {position : ℕ}
    (hr : s.decoding = some (r, position)) (hb : s.pool.buffers[r.buffer]? = some b)
    (hposition : ¬ position < r.size) :
    ∃ groups', ({ s.setBuffer r.buffer { b with status := .available } with
      decoding := none } : MpiServer).Holds w past groups' := by
  obtain ⟨g, gs, rfl, hhead, htail, hnot⟩ := hs.decoding hr
  -- nothing is left to be read, so no message is
  obtain rfl := hhead.eq_nil
    (fun m hm => hs.fits m (List.mem_append_right _ (List.mem_append_left _ hm))) hposition
  have hlt := (List.getElem?_eq_some_iff.mp hb).1
  refine ⟨gs, hs.decoded, ?_, ?_, hs.fits, ?_, ?_⟩
  · refine contains_of_ne (i := r.buffer) htail ?_ fun j hj => List.getElem?_set_ne (Ne.symm hj)
    rw [List.map_map]
    exact hnot
  · rw [show ({ s.setBuffer r.buffer { b with status := .available } with
      decoding := none } : MpiServer).arrivals = s.arrivals from rfl, hs.arrivals]
    rfl
  · have hunshared := hs.unshared
    unfold MpiServer.held at hunshared
    rw [hr] at hunshared
    exact (List.nodup_cons.mp hunshared).2
  · intro hexception i b' hb'
    have hstatus := hs.status hexception i
    unfold MpiServer.held at hstatus ⊢
    rw [hr] at hstatus
    change (s.pool.buffers.set r.buffer _)[i]? = some b' at hb'
    rw [List.getElem?_set] at hb'
    split_ifs at hb' with hi
    · obtain rfl := Option.some.inj hb'
      rw [← hi, if_neg]
      rw [Option.toList_none, List.nil_append, List.map_map]
      exact hnot
    · rw [hstatus b' hb']
      refine if_congr ?_ rfl rfl
      rw [Option.toList_some, List.singleton_append, List.map_cons, List.mem_cons]
      exact or_iff_right (Ne.symm hi)

theorem receive_arrivals (w : WireContext) (s : MpiServer) :
    (s.receive w).arrivals = s.arrivals := by
  unfold MpiServer.receive
  split
  · split
    · split_ifs
      · split
        · rfl
        · rfl
      · rfl
    · rfl
  · split
    · rfl
    · rfl
    · rfl

theorem Holds.receive (hs : s.Holds w past groups) :
    ∃ past' groups', (s.receive w).Holds w past' groups' := by
  unfold MpiServer.receive
  -- a stream that is open is read on, then a message is given out, then a buffer is opened
  split
  · next r position hr =>
    obtain ⟨g, gs, rfl, hhead, htail, hnot⟩ := hs.decoding hr
    split
    · next b hb =>
      split_ifs with hposition
      · obtain ⟨m, ms, rfl⟩ := hhead.eq_cons hposition
        have hm := hs.fits m (List.mem_append_right _ (List.mem_append_left _ List.mem_cons_self))
        obtain ⟨rest, hdecode, hcontains⟩ := decode_of_contains hm hb hhead
        rw [hdecode]
        cases harriving : w.arriving m with
        | error e =>
          exact ⟨past, (m :: ms) :: gs, hs.decoded, hs.held, hs.arrivals, hs.fits, hs.unshared,
            fun hnone => by cases hnone⟩
        | ok m' =>
          refine ⟨past ++ [m], ms :: gs, ?_⟩
          change Holds w { s with
            decoding := some (r, b.content.length - rest.length)
            msgPack := s.msgPack ++ [m'] } _ _
          refine ⟨?_, ?_, ?_, by simpa using hs.fits, ?_, ?_⟩
          · rw [← List.append_assoc, List.map_append, hs.decoded, List.map_append,
              List.map_singleton, List.map_singleton, harriving]
          · exact .cons (hcontains _ hb) htail
          · simp [hs.arrivals]
          · have hunshared := hs.unshared
            unfold MpiServer.held at hunshared
            rw [hr] at hunshared
            exact hunshared
          · have hstatus := hs.status
            unfold MpiServer.held at hstatus
            rw [hr] at hstatus
            exact hstatus
      · obtain ⟨groups', hrelease⟩ := hs.release hr hb hposition
        exact ⟨past, groups', hrelease⟩
    · exact ⟨past, g :: gs, hs⟩
  · next hnone =>
    split
    · next msg msgs hmsgs =>
      refine ⟨past, groups, ?_, hs.held, hs.arrivals, hs.fits, hs.unshared, hs.status⟩
      rw [← hs.decoded, hmsgs]
      simp
    · next r rs hmsgs hqueue =>
      have hheld : ({ s with streamQueue := rs, decoding := some (r, 0) } : MpiServer).held =
          s.held := by
        unfold MpiServer.held
        rw [hnone, hqueue]
        rfl
      refine ⟨past, groups, hs.decoded, ?_, hs.arrivals, hs.fits, ?_, ?_⟩
      · rw [hheld]
        exact hs.held
      · rw [hheld]
        exact hs.unshared
      · rw [hheld]
        exact hs.status
    · exact ⟨past, groups, hs⟩

theorem acquires_iff (hexception : s.exception = none) (hs : s.Holds w past groups)
    (hb : s.pool.buffers[i]? = some b) :
    s.pool.acquires b true = true ↔ i ∉ s.held.map fun h => h.1.buffer := by
  have hstatus := hs.status hexception i b hb
  split_ifs at hstatus with hi
  · rw [StreamPool.acquires, hstatus]
    exact iff_of_false Bool.false_ne_true (not_not.mpr hi)
  · rw [StreamPool.acquires, hstatus]
    exact iff_of_true rfl hi

theorem listen_cases (s : MpiServer) (c : Peer) (i : ℕ) (sent : List UInt8) :
    s.listen c i sent = s ∨
      ∃ b, s.listening = none ∧ s.pool.buffers[i]? = some b ∧ s.pool.acquires b true = true ∧
        ((b.content.length ≤ sent.length ∧ ∃ e, s.listen c i sent =
            { s.setBuffer i { b with status := .fillingUp } with exception := some e }) ∨
          sent.length < b.content.length ∧ s.listen c i sent =
            { s.setBuffer i { b with status := .fillingUp
                                     content := sent ++ b.content.drop sent.length } with
              listening := some { buffer := i, size := sent.length }
              arrivals := s.arrivals ++ [(c, sent)] }) := by
  unfold MpiServer.listen
  split
  · next b hnone hb =>
    split_ifs with hacquires
    · right
      refine ⟨b, hnone, hb, hacquires, ?_⟩
      by_cases hsize : sent.length < b.content.length
      · refine Or.inr ⟨hsize, ?_⟩
        simp only [blockingReceive, if_pos hsize]
      · refine Or.inl ⟨not_lt.mp hsize, .assertionFailed "sz < buffer.content.size()", ?_⟩
        simp only [blockingReceive, if_neg hsize]
    · exact Or.inl rfl
  · exact Or.inl rfl

theorem listen_arrivals (s : MpiServer) (c : Peer) (i : ℕ) (sent : List UInt8) :
    (s.listen c i sent).arrivals = s.arrivals ∨
      (s.listen c i sent).arrivals = s.arrivals ++ [(c, sent)] := by
  obtain hsame | ⟨b, -, -, -, ⟨-, e, herror⟩ | ⟨-, hok⟩⟩ := listen_cases s c i sent
  · rw [hsame]
    exact Or.inl rfl
  · rw [herror]
    exact Or.inl rfl
  · rw [hok]
    exact Or.inr rfl

theorem Holds.listen (hs : s.Holds w past groups) (hexception : s.exception = none) (c : Peer)
    (i : ℕ) {sent : List UInt8} {g : List Message} (hg : ∀ m ∈ g, w.Fits m)
    (hsent : sent = g.flatMap w.streams.encode) :
    ∃ groups', (s.listen c i sent).Holds w past groups' := by
  -- nothing to receive, a buffer that is too small, or a buffer that is filled
  obtain hsame | ⟨b, hnone, hb, hacquires, ⟨-, herror⟩ | ⟨hsize, hok⟩⟩ := listen_cases s c i sent
  · rw [hsame]
    exact ⟨groups, hs⟩
  · have hfree := (acquires_iff hexception hs hb).mp hacquires
    obtain ⟨e, herror⟩ := herror
    rw [herror]
    refine ⟨groups, hs.decoded, ?_, hs.arrivals, hs.fits, hs.unshared, fun hno => by cases hno⟩
    exact contains_of_ne hs.held hfree fun j hj => List.getElem?_set_ne (Ne.symm hj)
  · have hfree := (acquires_iff hexception hs hb).mp hacquires
    have hlt := (List.getElem?_eq_some_iff.mp hb).1
    rw [hok]
    set content := sent ++ b.content.drop sent.length with hcontent
    set s' : MpiServer := { s.setBuffer i { b with status := .fillingUp, content } with
      listening := some { buffer := i, size := sent.length }
      arrivals := s.arrivals ++ [(c, sent)] } with hs'
    have hheld : s'.held = s.held ++ [({ buffer := i, size := sent.length }, 0)] := by
      unfold MpiServer.held
      rw [hs', hnone]
      simp [setBuffer]
    have hself : s'.pool.buffers[i]? = some { b with status := .fillingUp, content } :=
      List.getElem?_set_self hlt
    have hother : ∀ j, j ≠ i → s'.pool.buffers[j]? = s.pool.buffers[j]? :=
      fun j hj => List.getElem?_set_ne (Ne.symm hj)
    refine ⟨groups ++ [g], hs.decoded, ?_, ?_, ?_, ?_, ?_⟩
    · rw [hheld]
      refine List.rel_append (contains_of_ne hs.held hfree hother) (.cons ?_ .nil)
      refine ⟨_, hself, ?_, Nat.zero_le _, ?_⟩
      · simp [hcontent]
      · simp [hcontent, hsent]
    · rw [hs', List.flatMap_append, hs.arrivals, List.flatten_append, ← List.append_assoc,
        List.flatMap_append]
      simp [hsent]
    · intro m hm
      rw [List.flatten_append, ← List.append_assoc, List.flatten_singleton] at hm
      exact (List.mem_append.mp hm).elim (hs.fits m) (hg m)
    · rw [hheld, List.map_append, List.nodup_append]
      refine ⟨hs.unshared, List.nodup_singleton _, ?_⟩
      intro x hx y hy heq
      rw [List.map_singleton, List.mem_singleton] at hy
      rw [heq, hy] at hx
      exact hfree hx
    · intro _ j b' hb'
      have hmem : j ∈ s'.held.map (fun h => h.1.buffer) ↔
          j ∈ s.held.map (fun h => h.1.buffer) ∨ j = i := by
        rw [hheld, List.map_append, List.mem_append, List.map_singleton, List.mem_singleton]
      by_cases hj : j = i
      · rw [hj, hself] at hb'
        obtain rfl := Option.some.inj hb'
        rw [if_pos (hmem.mpr (Or.inr hj))]
      · rw [hother j hj] at hb'
        rw [hs.status hexception j b' hb']
        exact if_congr ((or_iff_left hj).symm.trans hmem.symm) rfl rfl

end MpiServer

namespace StreamPool

variable {ctx : StreamContext} {p p' p'' : StreamPool}

structure Grown (p p' : StreamPool) : Prop where
  dispatched : ∀ dest, p.dispatched dest <+: p'.dispatched dest
  written : p.written <+: p'.written

theorem Grown.refl (p : StreamPool) : Grown p p := ⟨fun _ => List.prefix_rfl, List.prefix_rfl⟩

theorem Grown.trans (h : Grown p p') (h' : Grown p' p'') : Grown p p'' :=
  ⟨fun dest => (h.dispatched dest).trans (h'.dispatched dest), h.written.trans h'.written⟩

theorem grown_encodeMessage (p : StreamPool) (strm : MpiOutputStream) (msg : Message) :
    Grown p (p.encodeMessage ctx strm msg) :=
  ⟨fun _ => List.prefix_rfl, List.prefix_append _ _⟩

theorem grown_sendBuffer {dest : Peer} (h : p.sendBuffer dest = .ok p') : Grown p p' := by
  obtain ⟨strm, b, -, -, rfl⟩ := sendBuffer_ok h
  refine ⟨fun dest' => ?_, List.prefix_rfl⟩
  unfold dispatched
  rw [List.filterMap_append]
  exact List.prefix_append _ _

theorem grown_createNewStream {msg : Message} (h : p.createNewStream msg = .ok p') :
    Grown p p' := by
  unfold createNewStream at h
  split_ifs at h
  obtain rfl := Except.ok.inj h
  exact ⟨fun _ => List.prefix_rfl, List.prefix_rfl⟩

theorem grown_bufferedSend (p : StreamPool) (msg : Message) (draw : Bool) :
    Grown p (p.bufferedSend ctx msg draw).2 := by
  unfold StreamPool.bufferedSend
  split
  · split
    · next hnew => exact grown_createNewStream hnew
    · exact .refl p
  · split_ifs
    · exact grown_encodeMessage p _ msg
    · split
      · exact .refl p
      · next hsend =>
        split
        · next hnew => exact (grown_sendBuffer hsend).trans (grown_createNewStream hnew)
        · exact grown_sendBuffer hsend

theorem grown_complete (p : StreamPool) (k : ℕ) : Grown p (p.complete k) := by
  unfold StreamPool.complete
  split
  · exact .refl p
  · next hs =>
    split
    · refine ⟨fun dest => ⟨[], (List.append_nil _).trans (Eq.symm ?_)⟩, List.prefix_rfl⟩
      exact Blocks.filterMap_set hs rfl
    · exact .refl p

theorem grown_step (p : StreamPool) (event : Event) : Grown p (step ctx p event) := by
  cases event with
  | bufferedSend msg draw =>
    unfold StreamPool.step
    simp only
    split_ifs
    · exact .refl p
    · exact grown_bufferedSend p msg draw
  | sendBuffer dest =>
    unfold StreamPool.step
    simp only
    split_ifs
    · exact .refl p
    · split
      · next hsend => exact grown_sendBuffer hsend
      · exact .refl p
  | poll exchanged =>
    unfold StreamPool.step
    simp only
    unfold StreamPool.poll
    split
    · exact .refl p
    · split
      · exact ⟨fun _ => List.prefix_rfl, List.prefix_rfl⟩
      · split_ifs
        · exact ⟨fun _ => List.prefix_rfl, List.prefix_append _ _⟩
        · exact ⟨fun _ => List.prefix_rfl, List.prefix_rfl⟩
  | complete k => exact grown_complete p k

end StreamPool

namespace MpiClient

variable {w : WireContext} {c : MpiClient} {q : Peer}

theorem map_fst_posted : (c.posted w q).map Prod.fst =
    ((c.opened.filter fun m => m.destination = q).map fun m => [m]).map
      (·.flatMap w.streams.encode) ++ c.pool.dispatched q := by
  unfold posted StreamPool.dispatched
  rw [List.map_append, List.map_map, List.map_map, List.map_filterMap]
  congr 1
  · simp [Function.comp_def]
  · refine congrArg (fun f => List.filterMap f c.pool.sends) (funext fun s => ?_)
    split_ifs
    · rfl
    · rfl

theorem posted_spec (h : StreamPool.Owned w.streams c.pool)
    (hfits : ∀ m ∈ c.opened ++ c.pool.written, w.Fits m) {x : List UInt8 × Option (List UInt8)}
    (hx : x ∈ c.posted w q) : (∀ sent, x.2 = some sent → sent = x.1) ∧
      ∃ g : List Message, x.1 = g.flatMap w.streams.encode ∧ ∀ m ∈ g, w.Fits m := by
  constructor
  · intro sent hsent
    obtain hx | hx := List.mem_append.mp hx
    · obtain ⟨m, -, rfl⟩ := List.mem_map.mp hx
      exact (Option.some.inj hsent).symm
    · obtain ⟨s, hs, hsome⟩ := List.mem_filterMap.mp hx
      split_ifs at hsome
      obtain rfl := Option.some.inj hsome
      exact h.arrives s hs sent hsent
  · have hfst := List.mem_map_of_mem (f := Prod.fst) hx
    rw [map_fst_posted] at hfst
    obtain hfst | hfst := List.mem_append.mp hfst
    · obtain ⟨g, hg, hx⟩ := List.mem_map.mp hfst
      obtain ⟨m, hm, rfl⟩ := List.mem_map.mp hg
      refine ⟨[m], hx.symm, fun m' hm' => ?_⟩
      obtain rfl := List.mem_singleton.mp hm'
      exact hfits m' (List.mem_append_left _ (List.mem_filter.mp hm).1)
    · obtain ⟨groups, last, hwritten, hclosed, -⟩ := h.whole q
      rw [hclosed] at hfst
      obtain ⟨g, hg, hx⟩ := List.mem_map.mp hfst
      refine ⟨g, hx.symm, fun m hm => hfits m (List.mem_append_right _ ?_)⟩
      have hof : m ∈ c.pool.writtenFor q :=
        hwritten ▸ List.mem_append_left _ (List.mem_flatten_of_mem hg hm)
      exact (List.mem_filter.mp hof).1

end MpiClient

namespace MpiSystem

variable {w : WireContext} {sys : MpiSystem}

/-- Pools own their buffers, servers hold what they have received, and that is what each client has
sent first. -/
structure Inv (w : WireContext) (sys : MpiSystem) : Prop where
  owned : ∀ c, StreamPool.Owned w.streams (sys.clients c).pool
  fits : ∀ c, ∀ m ∈ (sys.clients c).opened ++
    ((sys.clients c).pool.written ++ (sys.clients c).pool.waiting), w.Fits m
  arrivals : ∀ q c, ((sys.servers q).arrivals.filter fun a => a.1 = c).map Prod.snd <+:
    ((sys.clients c).posted w q).map Prod.fst
  holds : ∀ q, ∃ past groups, (sys.servers q).Holds w past groups

theorem start_inv {opened : Peer → List Message} (hopened : ∀ c, ∀ m ∈ opened c, w.Fits m)
    (clients servers : Peer → List (List UInt8)) : Inv w (start opened clients servers) where
  owned c := StreamPool.makeBuffers_owned w.streams (clients c)
  fits c m hm := hopened c m (by rwa [← List.append_nil (opened c)])
  arrivals q c := List.nil_prefix
  holds q := by
    refine ⟨[], [], rfl, .nil, rfl, fun m hm => absurd hm List.not_mem_nil, List.nodup_nil, ?_⟩
    intro _ i b hb
    refine Eq.trans ?_ (if_neg List.not_mem_nil).symm
    change ((servers q).map fun content => ({ content } : MpiBuffer))[i]? = some b at hb
    rw [List.getElem?_map] at hb
    obtain ⟨content, -, rfl⟩ := Option.map_eq_some_iff.mp hb
    rfl

theorem Inv.client (h : sys.Inv w) (c : Peer) {event : StreamPool.Event}
    (hevent : ∀ msg draw, event = .bufferedSend msg draw → w.Fits msg) :
    (sys.step w (.client c event)).Inv w := by
  refine ⟨fun c' => ?_, fun c' m hm => ?_, fun q c' => ?_, h.holds⟩
  · by_cases hc : c' = c
    · rw [hc, step]
      simp only [Function.update_self]
      exact (h.owned c).step event
    · rw [step]
      simp only [Function.update_of_ne hc]
      exact h.owned c'
  · by_cases hc : c' = c
    · rw [hc, step] at hm
      simp only [Function.update_self] at hm
      rw [StreamPool.step_written, ← List.append_assoc] at hm
      obtain hm | hm := List.mem_append.mp hm
      · exact h.fits c m hm
      · obtain ⟨draw, hcall⟩ := StreamPool.eq_of_mem_accepts hm
        exact hevent m draw hcall
    · rw [step] at hm
      simp only [Function.update_of_ne hc] at hm
      exact h.fits c' m hm
  · refine (h.arrivals q c').trans ?_
    by_cases hc : c' = c
    · rw [hc, step]
      simp only [Function.update_self]
      rw [MpiClient.map_fst_posted, MpiClient.map_fst_posted]
      exact (List.prefix_append_right_inj _).mpr ((StreamPool.grown_step _ event).dispatched q)
    · rw [step]
      simp only [Function.update_of_ne hc]
      exact List.prefix_rfl

/-- One server takes a step that keeps what it holds, and receives nothing but what comes next. -/
theorem Inv.serve (h : sys.Inv w) {q : Peer} {f : MpiServer → MpiServer}
    (hholds : (sys.servers q).exception = none →
      ∃ past groups, (f (sys.servers q)).Holds w past groups)
    (harrivals : ∀ c, ((f (sys.servers q)).arrivals.filter fun a => a.1 = c).map Prod.snd <+:
      ((sys.clients c).posted w q).map Prod.fst) : (sys.serve q f).Inv w := by
  unfold MpiSystem.serve
  split_ifs with hexception
  · exact h
  · refine ⟨h.owned, h.fits, fun q' c => ?_, fun q' => ?_⟩
    · by_cases hq : q' = q
      · rw [hq]
        simp only [Function.update_self]
        exact harrivals c
      · simp only [Function.update_of_ne hq]
        exact h.arrivals q' c
    · by_cases hq : q' = q
      · rw [hq]
        simp only [Function.update_self]
        exact hholds (Option.not_isSome_iff_eq_none.mp hexception)
      · simp only [Function.update_of_ne hq]
        exact h.holds q'

theorem inFlight_eq (sys : MpiSystem) (q c : Peer) : sys.inFlight w c q =
    ((sys.clients c).posted w q).drop
      (((sys.servers q).arrivals.filter fun a => a.1 = c).map Prod.snd).length := by
  unfold inFlight
  rw [List.length_map, List.countP_eq_length_filter]

theorem Inv.fits_written (h : sys.Inv w) (c : Peer) :
    ∀ m ∈ (sys.clients c).opened ++ (sys.clients c).pool.written, w.Fits m :=
  fun m hm => h.fits c m (by rw [← List.append_assoc]; exact List.mem_append_left _ hm)

theorem Inv.fits_sentTo (h : sys.Inv w) {c q : Peer} {m : Message} (hm : m ∈ sys.sentTo c q) :
    w.Fits m := by
  unfold sentTo StreamPool.writtenFor at hm
  rw [← List.filter_append] at hm
  exact h.fits_written c m (List.mem_filter.mp hm).1

theorem Inv.listen (h : sys.Inv w) (q c : Peer) (i : ℕ) : (sys.step w (.listen q c i)).Inv w := by
  rw [step]
  split
  · next bytes sent hhead =>
    have hmem : (bytes, some sent) ∈ (sys.clients c).posted w q :=
      List.mem_of_mem_drop (List.mem_of_mem_head? hhead)
    obtain ⟨hread, g, hbytes, hg⟩ := MpiClient.posted_spec (h.owned c) (h.fits_written c) hmem
    obtain rfl : sent = bytes := hread sent rfl
    refine h.serve (fun hexception => ?_) fun c' => ?_
    · obtain ⟨past, groups, hholds⟩ := h.holds q
      exact ⟨past, hholds.listen hexception c i hg hbytes⟩
    · have hbefore := h.arrivals q c'
      obtain hsame | hnext := MpiServer.listen_arrivals (sys.servers q) c i sent
      · rw [hsame]
        exact hbefore
      · rw [hnext, List.filter_append]
        by_cases hc : c = c'
        · rw [← hc, List.filter_cons_of_pos (by simp), List.filter_nil, List.map_append,
            List.map_singleton]
          refine Blocks.prefix_concat_of_head (h.arrivals q c) ?_
          rw [← List.map_drop, List.head?_map, ← inFlight_eq, hhead]
          rfl
        · rw [List.filter_cons_of_neg (by simpa using hc), List.filter_nil, List.append_nil]
          exact hbefore
  · exact h

theorem Inv.step (h : sys.Inv w) {event : Event}
    (hevent : ∀ c msg draw, event = .client c (.bufferedSend msg draw) → w.Fits msg) :
    (sys.step w event).Inv w := by
  cases event with
  | client c event => exact h.client c fun msg draw hcall => hevent c msg draw (hcall ▸ rfl)
  | listen q c i => exact h.listen q c i
  | push q =>
    rw [MpiSystem.step]
    refine h.serve (fun _ => ?_) fun c => ?_
    · obtain ⟨past, groups, hholds⟩ := h.holds q
      exact ⟨past, groups, hholds.push⟩
    · rw [MpiServer.push_arrivals]
      exact h.arrivals q c
  | receive q =>
    rw [MpiSystem.step]
    refine h.serve (fun _ => ?_) fun c => ?_
    · obtain ⟨past, groups, hholds⟩ := h.holds q
      exact hholds.receive
    · rw [MpiServer.receive_arrivals]
      exact h.arrivals q c

theorem Inv.run (h : sys.Inv w) {events : List Event}
    (hevents : ∀ c msg draw, .client c (.bufferedSend msg draw) ∈ events → w.Fits msg) :
    (sys.run w events).Inv w := by
  induction events generalizing sys with
  | nil => exact h
  | cons event events ih =>
    refine ih (h.step fun c msg draw hcall => ?_) fun c msg draw hmem => ?_
    · exact hevents c msg draw (hcall ▸ List.mem_cons_self)
    · exact hevents c msg draw (List.mem_cons_of_mem _ hmem)

theorem Inv.accounts (h : sys.Inv w) (q : Peer) : ∃ buffers, sys.Accounts w q buffers := by
  choose groups last hwritten hdispatched hopen using fun c => (h.owned c).whole q
  set blocks : Peer → List (List Message) := fun c =>
    (((sys.clients c).opened.filter fun m => m.destination = q).map fun m => [m]) ++ groups c
    with hblocks
  have hposted : ∀ c, ((sys.clients c).posted w q).map Prod.fst =
      (blocks c).map (·.flatMap w.streams.encode) := fun c => by
    rw [MpiClient.map_fst_posted, hdispatched, hblocks, List.map_append]
  have hsent : ∀ c, (blocks c).flatten ++ last c = sys.sentTo c q := fun c => by
    rw [MpiSystem.sentTo, ← hwritten, hblocks, List.flatten_append, ← List.flatMap_def,
      List.flatMap_singleton', List.append_assoc]
  -- the buffers that have arrived are blocks of whole messages of the clients, in their order
  obtain ⟨buffers, hbuffers, hof⟩ := Blocks.exists_keyed
    (fun ms : List Message => ms.flatMap w.streams.encode) (sys.servers q).arrivals blocks
    fun c => hposted c ▸ h.arrivals q c
  refine ⟨buffers, fun c => ?_, ?_⟩
  · obtain ⟨others, hothers⟩ := hof c
    have hlength : (((sys.servers q).arrivals.filter fun a => a.1 = c).map Prod.snd).length =
        ((buffers.filter fun b => b.1 = c).map Prod.snd).length := by
      rw [← hbuffers, List.filter_map, List.length_map, List.length_map, List.length_map]
      rfl
    refine ⟨others.flatten ++ last c, ?_, ?_⟩
    · rw [← hsent c, ← hothers, List.flatten_append, List.append_assoc, List.flatMap_def]
    · have hrest : ((sys.inFlight w c q).map Prod.fst) =
          others.map (·.flatMap w.streams.encode) := by
        rw [inFlight_eq, List.map_drop, hposted, ← hothers, List.map_append, hlength,
          List.drop_left' (List.length_map _)]
      rw [List.flatMap_append, ← hopen, List.flatMap_def (l := sys.inFlight w c q), hrest]
      rw [← List.flatMap_def, ← List.flatMap_assoc, List.flatMap_id']
  · obtain ⟨past, held, hholds⟩ := h.holds q
    refine ⟨held.flatten, ?_, hholds.unread, fun m hm =>
      hholds.fits m (List.mem_append_right _ hm)⟩
    rw [hholds.decoded, ← List.map_append]
    refine w.map_arriving_eq hholds.fits (fun m hm => ?_) ?_
    · obtain ⟨b, hb, hm⟩ := List.mem_flatMap.mp hm
      obtain ⟨others, hothers⟩ := hof b.1
      refine h.fits_sentTo (c := b.1) (q := q) ?_
      rw [← hsent b.1, ← hothers]
      refine List.mem_append_left _ (List.mem_flatten_of_mem (List.mem_append_left _ ?_) hm)
      exact List.mem_map_of_mem (List.mem_filter.mpr ⟨hb, decide_eq_true rfl⟩)
    · rw [← hholds.arrivals, ← hbuffers, List.flatMap_map, List.flatMap_assoc]

theorem clients_serve {f : MpiServer → MpiServer} : (sys.serve q f).clients = sys.clients := by
  unfold MpiSystem.serve
  split_ifs
  · rfl
  · rfl

theorem step_client (sys : MpiSystem) (c : Peer) (event : Event) :
    (sys.step w event).clients c = { sys.clients c with
      pool := StreamPool.run w.streams (sys.clients c).pool (calls c [event]) } := by
  cases event with
  | client c' event =>
    rw [step]
    by_cases hc : c' = c
    · simp [calls, hc, StreamPool.run]
    · simp [calls, hc, StreamPool.run, Function.update_of_ne (Ne.symm hc)]
  | listen q c' i =>
    rw [step]
    split
    · rw [clients_serve]
      rfl
    · rfl
  | push q =>
    rw [step, clients_serve]
    rfl
  | receive q =>
    rw [step, clients_serve]
    rfl

theorem run_client (sys : MpiSystem) (c : Peer) (events : List Event) :
    (sys.run w events).clients c = { sys.clients c with
      pool := StreamPool.run w.streams (sys.clients c).pool (calls c events) } := by
  induction events generalizing sys with
  | nil => rfl
  | cons event events ih =>
    have hcalls : calls c (event :: events) = calls c [event] ++ calls c events :=
      List.filterMap_append (l := [event])
    refine (ih (sys.step w event)).trans ?_
    rw [step_client, hcalls, StreamPool.run, StreamPool.run, StreamPool.run, List.foldl_append]

/-- What a client has written for a server, and what waits, is what it was given for it. -/
def Written (sys : MpiSystem) (c q : Peer) (given : List Message) : Prop :=
  sys.sentTo c q ++ (sys.clients c).pool.waiting.filter (fun m => m.destination = q) =
    given.filter fun m => m.destination = q

theorem run_written (w : WireContext) (opened : Peer → List Message)
    (clients servers : Peer → List (List UInt8)) (events : List Event) (c q : Peer) :
    Written ((start opened clients servers).run w events) c q
      (opened c ++ StreamPool.accepted w.streams (makeBuffers (clients c)) (calls c events)) := by
  have hwritten := StreamPool.run_written w.streams (makeBuffers (clients c))
    (calls c events)
  rw [show (makeBuffers (clients c)).written ++ (makeBuffers (clients c)).waiting = [] from rfl,
    List.nil_append] at hwritten
  unfold Written sentTo StreamPool.writtenFor
  rw [run_client, ← List.filter_append, ← List.filter_append, List.append_assoc]
  exact congrArg (fun ms => (opened c ++ ms).filter fun m => m.destination = q) hwritten

/-- Whatever clients, network and servers do, and in whatever order: nothing that a client was
given for a server is lost, given out twice or given out in another order. -/
theorem run_accounts (w : WireContext) {opened : Peer → List Message}
    (clients servers : Peer → List (List UInt8)) {events : List Event}
    (hfits : AllFit w opened events) (q : Peer) :
    (∃ buffers, ((start opened clients servers).run w events).Accounts w q buffers) ∧
      ∀ c, Written ((start opened clients servers).run w events) c q
        (opened c ++ StreamPool.accepted w.streams (makeBuffers (clients c)) (calls c events)) :=
  ⟨((start_inv hfits.1 clients servers).run hfits.2).accounts q,
    fun c => run_written w opened clients servers events c q⟩

end MpiSystem

def scaleWire : WireContext where
  toContext := jsonContext scaleCodec.print { bucketCount := 541 }
  codec := scaleCodec
  policy := scalePolicy
  items := taggedStream
  resize content size := content ++ List.replicate (size - content.length) 0
  prefix_resize := prefix_append_zeros

def scaleOpened (c : Peer) : List Message :=
  if c = scaleMessage.source then
    MpiClient.openConnections { bucketCount := 541 } c [scaleMessage.destination]
  else []

/-- The server receives what opens the connection, and then the buffer with the message. -/
def scaleEvents : List MpiSystem.Event :=
  let client := scaleMessage.source
  let server := scaleMessage.destination
  [.listen server client 0, .push server] ++ List.replicate 4 (.receive server) ++
    [.client client (.bufferedSend scaleMessage true), .client client (.poll true),
      .client client (.sendBuffer server), .client client (.complete 0),
      .listen server client 0, .push server] ++ List.replicate 4 (.receive server)

theorem scaleWire_fits : MpiSystem.AllFit scaleWire scaleOpened scaleEvents := by
  have hsent : ∀ item ∈ scaleMessage.encode scaleWire.toContext, FitsTagged item := by decide
  have hopened : ∀ m ∈ scaleOpened scaleMessage.source, ∀ item ∈ m.encode scaleWire.toContext,
      FitsTagged item := by decide
  constructor
  · intro c m hm
    by_cases hc : c = scaleMessage.source
    · exact hopened m (hc ▸ hm)
    · rw [scaleOpened, if_neg hc] at hm
      cases hm
  · intro c msg draw hmem
    simp only [scaleEvents, List.mem_append, List.mem_cons, List.mem_replicate,
      MpiSystem.Event.client.injEq, StreamPool.Event.bufferedSend.injEq, reduceCtorEq,
      List.not_mem_nil, and_false, false_or, or_false] at hmem
    rw [hmem.2.1]
    exact hsent

namespace MpiSystem

def scaleStart : MpiSystem :=
  start scaleOpened (fun _ => [List.replicate 200 0]) fun _ => [List.replicate 200 0]

/-- Both messages arrive. -/
theorem run_accounts_scale :
    ((scaleStart.run scaleWire scaleEvents).servers scaleMessage.destination).received.map
        Message.tag = [.open, .field] ∧
      (∃ buffers, (scaleStart.run scaleWire scaleEvents).Accounts scaleWire
        scaleMessage.destination buffers) ∧
      Written (scaleStart.run scaleWire scaleEvents) scaleMessage.source scaleMessage.destination
        (scaleOpened scaleMessage.source ++ [scaleMessage]) := by
  obtain ⟨haccounts, hwritten⟩ := run_accounts scaleWire (fun _ => [List.replicate 200 0])
    (fun _ => [List.replicate 200 0]) scaleWire_fits scaleMessage.destination
  exact ⟨by decide +kernel, haccounts, hwritten scaleMessage.source⟩

end MpiSystem
end Multio.Transport
