import Multio.Transport.ItemStream
import Multio.Transport.StreamDelivery

namespace Multio.Transport
open Exception Lib

/-- `MpiTransport::blockingReceive` of the bytes that were sent. -/
def blockingReceive (buffer : MpiBuffer) (sent : List UInt8) : Except Exception MpiBuffer :=
  if sent.length < buffer.content.length then
    .ok { buffer with content := sent ++ buffer.content.drop sent.length }
  else .error (.assertionFailed "sz < buffer.content.size()")

def overhead (ctx : StreamContext) (msg : Message) : ℕ := (ctx.encode msg).length - msg.size

/-- `eckit::round`: the next multiple of a number. -/
structure Rounds (round : ℕ → ℕ → ℕ) : Prop where
  le : ∀ x n, 0 < n → x ≤ round x n
  lt : ∀ x n, 0 < n → round x n < x + n
  dvd : ∀ x n, 0 < n → n ∣ round x n

/-- What the stream of `TcpTransport::send` holds of the encoded message. -/
def TcpTransport.streamBuffer (ctx : StreamContext) (round : ℕ → ℕ → ℕ) (msg : Message) :
    List UInt8 :=
  (ctx.encode msg).take (round msg.size 8 + 4096)

/-- The allowance and the padding of the payload have to do for the rest of the message. -/
theorem TcpTransport.streamBuffer_eq_iff (ctx : StreamContext) {round : ℕ → ℕ → ℕ}
    (hround : Rounds round) (msg : Message) :
    streamBuffer ctx round msg = ctx.encode msg ↔
      overhead ctx msg ≤ round msg.size 8 - msg.size + 4096 := by
  have hle := hround.le msg.size 8 (by decide)
  unfold streamBuffer overhead
  rw [List.take_eq_self_iff]
  omega

theorem StreamContext.length_overwrite (ctx : StreamContext) {content bytes : List UInt8}
    {position : ℕ} (hfits : position + bytes.length ≤ content.length) :
    (ctx.overwrite content position bytes).length = content.length := by
  unfold overwrite
  simp only [if_neg (not_lt.mpr hfits), List.length_append, List.length_take, List.length_drop]
  omega

namespace StreamPool

/-- The message is shorter than a buffer, and where the payload and the allowance fit into an open
stream, so does the message. -/
def Event.HasRoom (ctx : StreamContext) (size : ℕ) (p : StreamPool) : Event → Prop
  | .bufferedSend msg draw => p.acquiring = none → (ctx.encode msg).length < size ∧
      ∀ strm, p.streams.find? msg.destination = some strm →
        p.canFitMessage strm msg.size = true → draw = true →
          strm.position + (ctx.encode msg).length < size
  | .sendBuffer _ => True
  | .poll _ => True
  | .complete _ => True

def HaveRoom (ctx : StreamContext) (size : ℕ) : StreamPool → List Event → Prop
  | _, [] => True
  | p, event :: events =>
    event.HasRoom ctx size p ∧ HaveRoom ctx size (step ctx p event) events

/-- The buffers have the configured size, and what is written and dispatched is shorter. -/
structure Bounded (ctx : StreamContext) (size : ℕ) (p : StreamPool) : Prop where
  buffers : ∀ b ∈ p.buffers, b.content.length = size
  streams : ∀ dest strm, p.streams.find? dest = some strm → strm.position < size
  waiting : ∀ msg i, p.acquiring = some (msg, i) → (ctx.encode msg).length < size
  sends : ∀ s ∈ p.sends, s.bytes.length < size

variable {ctx : StreamContext} {size : ℕ} {p p' : StreamPool}

theorem makeBuffers_bounded {contents : List (List UInt8)}
    (hcontents : ∀ content ∈ contents, content.length = size) :
    (makeBuffers contents).Bounded ctx size where
  buffers b hb := by
    obtain ⟨content, hcontent, rfl⟩ := List.mem_map.mp hb
    exact hcontents content hcontent
  streams _ _ h := by cases h
  waiting _ _ h := by cases h
  sends _ h := by cases h

theorem Bounded.encodeMessage (h : p.Bounded ctx size) {strm : MpiOutputStream} {msg : Message}
    (hfits : strm.position + (ctx.encode msg).length < size) (hidle : p.acquiring = none) :
    (p.encodeMessage ctx strm msg).Bounded ctx size where
  buffers b hb := by
    obtain ⟨i, hi⟩ := List.mem_iff_getElem?.mp hb
    rw [StreamPool.encodeMessage, List.getElem?_modify] at hi
    obtain ⟨b₀, hb₀, rfl⟩ := Option.map_eq_some_iff.mp hi
    have hlength := h.buffers b₀ (List.mem_of_getElem? hb₀)
    split_ifs
    · exact (ctx.length_overwrite (hlength.symm ▸ hfits.le)).trans hlength
    · exact hlength
  streams dest strm' hstrm' := by
    rw [StreamPool.encodeMessage, OrderedMap.find?_insert] at hstrm'
    split_ifs at hstrm'
    · cases hstrm'
      exact hfits
    · exact h.streams dest strm' hstrm'
  waiting msg' i hwaiting := absurd (hwaiting.symm.trans hidle) (by simp)
  sends := h.sends

theorem Bounded.sendBuffer (h : p.Bounded ctx size) {dest : Peer}
    (hsend : p.sendBuffer dest = .ok p') : p'.Bounded ctx size := by
  obtain ⟨strm, b, hstrm, hb, rfl⟩ := sendBuffer_ok hsend
  refine ⟨?_, ?_, h.waiting, ?_⟩
  · intro b' hb'
    obtain hold | rfl := List.mem_or_eq_of_mem_set hb'
    · exact h.buffers b' hold
    · exact h.buffers b (List.mem_of_getElem? hb)
  · intro dest' strm' hstrm'
    rw [OrderedMap.find?_erase] at hstrm'
    split_ifs at hstrm'
    exact h.streams dest' strm' hstrm'
  · intro s hs
    obtain hold | hnew := List.mem_append.mp hs
    · exact h.sends s hold
    · obtain rfl := List.mem_singleton.mp hnew
      exact (List.length_take_le _ _).trans_lt (h.streams dest strm hstrm)

theorem Bounded.createNewStream (h : p.Bounded ctx size) {msg : Message}
    (hmsg : (ctx.encode msg).length < size) (hnew : p.createNewStream msg = .ok p') :
    p'.Bounded ctx size := by
  unfold StreamPool.createNewStream at hnew
  split_ifs at hnew
  cases hnew
  refine ⟨h.buffers, h.streams, ?_, h.sends⟩
  intro msg' i hwaiting
  cases hwaiting
  exact hmsg

theorem Bounded.bufferedSend (h : p.Bounded ctx size) {msg : Message} {draw : Bool}
    (hidle : p.acquiring = none) (hroom : (Event.bufferedSend msg draw).HasRoom ctx size p) :
    (p.bufferedSend ctx msg draw).2.Bounded ctx size := by
  obtain ⟨hmsg, hopen⟩ := hroom hidle
  unfold StreamPool.bufferedSend
  split
  · split
    · next hnew => exact h.createNewStream hmsg hnew
    · exact h
  · next strm hstrm =>
    split_ifs with hfits
    · rw [Bool.and_eq_true] at hfits
      exact h.encodeMessage (hopen strm hstrm hfits.1 hfits.2) hidle
    · split
      · exact h
      · next p' hsend =>
        split
        · next hnew => exact (h.sendBuffer hsend).createNewStream hmsg hnew
        · exact h.sendBuffer hsend

theorem Bounded.poll (h : p.Bounded ctx size) (exchanged : Bool) :
    (p.poll ctx exchanged).Bounded ctx size := by
  -- a turn that takes no buffer changes nothing but the one to be looked at next
  have hlook : ∀ msg i j, p.acquiring = some (msg, i) →
      Bounded ctx size { p with acquiring := some (msg, j) } := by
    intro msg i j hacquiring
    refine ⟨h.buffers, h.streams, ?_, h.sends⟩
    intro m k hm
    cases hm
    exact h.waiting msg i hacquiring
  unfold StreamPool.poll
  split
  · exact h
  · next msg i hacquiring =>
    have hmsg := h.waiting msg i hacquiring
    split
    · exact hlook msg i 0 hacquiring
    · next b hb =>
      split_ifs
      · refine Bounded.encodeMessage ?_ ((Nat.zero_add _).trans_lt hmsg) rfl
        refine ⟨?_, ?_, ?_, h.sends⟩
        · intro b' hb'
          obtain hold | rfl := List.mem_or_eq_of_mem_set hb'
          · exact h.buffers b' hold
          · exact h.buffers b (List.mem_of_getElem? hb)
        · intro dest strm hstrm
          simp only [OrderedMap.emplace] at hstrm
          split_ifs at hstrm
          · exact h.streams dest strm hstrm
          · rw [OrderedMap.find?_insert] at hstrm
            split_ifs at hstrm
            · cases hstrm
              exact Nat.zero_lt_of_lt hmsg
            · exact h.streams dest strm hstrm
        · exact fun _ _ hwaiting => by cases hwaiting
      · exact hlook msg i (i + 1) hacquiring

theorem Bounded.complete (h : p.Bounded ctx size) (k : ℕ) : (p.complete k).Bounded ctx size := by
  unfold StreamPool.complete
  split
  · exact h
  · next s hs =>
    split
    · refine ⟨h.buffers, h.streams, h.waiting, ?_⟩
      intro s' hs'
      obtain hold | rfl := List.mem_or_eq_of_mem_set hs'
      · exact h.sends s' hold
      · exact h.sends s (List.mem_of_getElem? hs)
    · exact h

theorem Bounded.step (h : p.Bounded ctx size) {event : Event} (hroom : event.HasRoom ctx size p) :
    (step ctx p event).Bounded ctx size := by
  cases event with
  | bufferedSend msg draw =>
    unfold StreamPool.step
    simp only
    split_ifs with hidle
    · exact h
    · exact h.bufferedSend (Option.not_isSome_iff_eq_none.mp hidle) hroom
  | sendBuffer dest =>
    unfold StreamPool.step
    simp only
    split_ifs
    · exact h
    · split
      · next hsend => exact h.sendBuffer hsend
      · exact h
  | poll exchanged => exact h.poll exchanged
  | complete k => exact h.complete k

theorem Bounded.run (h : p.Bounded ctx size) {events : List Event}
    (hroom : HaveRoom ctx size p events) : (run ctx p events).Bounded ctx size := by
  induction events generalizing p with
  | nil => exact h
  | cons event events ih => exact ih (h.step hroom.1) hroom.2

theorem Bounded.haveRoom (h : p.Bounded ctx size) {events : List Event}
    (hmsgs : ∀ msg draw, Event.bufferedSend msg draw ∈ events →
      (ctx.encode msg).length < size ∧ overhead ctx msg ≤ 4096) :
    HaveRoom ctx size p events := by
  induction events generalizing p with
  | nil => trivial
  | cons event events ih =>
    have hroom : event.HasRoom ctx size p := by
      cases event with
      | bufferedSend msg draw =>
        obtain ⟨hmsg, hoverhead⟩ := hmsgs msg draw List.mem_cons_self
        refine fun _ => ⟨hmsg, fun strm _ hfits _ => ?_⟩
        unfold canFitMessage at hfits
        split at hfits
        · next b hb =>
          rw [h.buffers b (List.mem_of_getElem? hb), decide_eq_true_iff] at hfits
          unfold overhead at hoverhead
          omega
        · cases hfits
      | sendBuffer dest => trivial
      | poll exchanged => trivial
      | complete k => trivial
    exact ⟨hroom, ih (h.step hroom) fun msg draw hmem =>
      hmsgs msg draw (List.mem_cons_of_mem _ hmem)⟩

theorem sendBuffer_of_open {dest : Peer} {strm : MpiOutputStream} {b : MpiBuffer}
    (hstrm : p.streams.find? dest = some strm) (hb : p.buffers[strm.buffer]? = some b) :
    ∃ p', p.sendBuffer dest = .ok p' ∧ p'.sends = p.sends ++
      [{ dest, buffer := strm.buffer, bytes := b.content.take strm.position }] := by
  unfold StreamPool.sendBuffer
  rw [hstrm]
  simp only
  rw [hb]
  exact ⟨_, rfl, rfl⟩

/-- What is accepted for an open stream without having room is dispatched all the same. -/
theorem exists_send_of_no_room {msg : Message} {strm : MpiOutputStream} (hidle : p.acquiring = none)
    (hstrm : p.streams.find? msg.destination = some strm)
    (hfits : p.canFitMessage strm msg.size = true)
    (hlonger : size ≤ strm.position + (ctx.encode msg).length) :
    ∃ s ∈ (StreamPool.run ctx p [.bufferedSend msg true, .sendBuffer msg.destination]).sends,
      s.dest = msg.destination ∧ size ≤ s.bytes.length := by
  obtain ⟨b, hb, hposition⟩ : ∃ b, p.buffers[strm.buffer]? = some b ∧
      strm.position ≤ b.content.length := by
    unfold canFitMessage at hfits
    split at hfits
    · next b hb =>
      refine ⟨b, hb, ?_⟩
      rw [decide_eq_true_iff] at hfits
      omega
    · cases hfits
  obtain ⟨-, hlength⟩ := ctx.overwrite_spec hposition (ctx.encode msg)
  -- the message is accepted for its payload and enlarges the buffer for the rest
  have hwritten : StreamPool.step ctx p (.bufferedSend msg true) =
      p.encodeMessage ctx strm msg := by
    simp only [StreamPool.step, hidle, Option.isSome_none, Bool.false_eq_true, if_false,
      StreamPool.bufferedSend, hstrm, hfits, Bool.and_self, if_true]
  have hopen : (p.encodeMessage ctx strm msg).streams.find? msg.destination =
      some { strm with position := strm.position + (ctx.encode msg).length } := by
    rw [StreamPool.encodeMessage, OrderedMap.find?_insert, if_pos rfl]
  have hbuffer : (p.encodeMessage ctx strm msg).buffers[strm.buffer]? = some
      { b with content := ctx.overwrite b.content strm.position (ctx.encode msg) } := by
    rw [StreamPool.encodeMessage, List.getElem?_modify_eq, hb]
    rfl
  obtain ⟨p', hsend, hsends⟩ := sendBuffer_of_open hopen hbuffer
  have hsent : StreamPool.step ctx (p.encodeMessage ctx strm msg) (.sendBuffer msg.destination) =
      p' := by
    simp only [StreamPool.step, hsend]
    rw [if_neg (by rw [StreamPool.encodeMessage, hidle]; exact Bool.false_ne_true)]
  rw [StreamPool.run, List.foldl_cons, hwritten, List.foldl_cons, List.foldl_nil, hsent, hsends]
  refine ⟨_, List.mem_concat_self, rfl, ?_⟩
  rw [List.length_take, Nat.min_eq_left hlength]
  exact hlonger

theorem run_open (ctx : StreamContext) {content : List UInt8} {msg : Message}
    (hfits : (ctx.encode msg).length ≤ content.length) :
    let p := StreamPool.run ctx (makeBuffers [content]) [.bufferedSend msg true, .poll true]
    p.acquiring = none ∧ p.streams.find? msg.destination =
        some { buffer := 0, position := (ctx.encode msg).length } ∧
      ∃ b, p.buffers = [b] ∧ b.content.length = content.length := by
  have hrun : StreamPool.run ctx (makeBuffers [content]) [.bufferedSend msg true, .poll true] =
      StreamPool.encodeMessage ctx
        { buffers := [{ status := .fillingUp, content }]
          streams := OrderedMap.emplace ∅ msg.destination { buffer := 0 } }
        { buffer := 0 } msg := rfl
  simp only [hrun, StreamPool.encodeMessage, OrderedMap.find?_insert, if_true, Nat.zero_add,
    List.modify_zero_cons, true_and]
  refine ⟨_, rfl, ctx.length_overwrite ?_⟩
  rwa [Nat.zero_add]

end StreamPool

theorem blockingReceive_eq_ok_iff (buffer : MpiBuffer) (sent : List UInt8) :
    (∃ received, blockingReceive buffer sent = .ok received) ↔
      sent.length < buffer.content.length := by
  unfold blockingReceive
  split_ifs with hshorter <;> simp [hshorter]

open StreamPool in
/-- In a run with room for its messages the receiver takes every buffer that is dispatched, and it
refuses the buffer that a message without room was accepted for. A buffer of its own holds a message
exactly if the allowance does for all but the payload. -/
theorem dispatched_buffers_fit (ctx : StreamContext) {round : ℕ → ℕ → ℕ} (hround : Rounds round)
    {size : ℕ} {contents : List (List UInt8)}
    (hcontents : ∀ content ∈ contents, content.length = size) {events : List Event}
    (hroom : HaveRoom ctx size (makeBuffers contents) events) :
    (∀ s ∈ (run ctx (makeBuffers contents) events).sends, ∀ buffer : MpiBuffer,
      buffer.content.length = size → ∃ received, blockingReceive buffer s.bytes = .ok received) ∧
    (∀ (msg : Message) (strm : MpiOutputStream),
      (run ctx (makeBuffers contents) events).acquiring = none →
      (run ctx (makeBuffers contents) events).streams.find? msg.destination = some strm →
      (run ctx (makeBuffers contents) events).canFitMessage strm msg.size = true →
      size ≤ strm.position + (ctx.encode msg).length →
      ∃ s ∈ (run ctx (makeBuffers contents)
          (events ++ [.bufferedSend msg true, .sendBuffer msg.destination])).sends,
        ∀ buffer : MpiBuffer, buffer.content.length = size →
          ¬ ∃ received, blockingReceive buffer s.bytes = .ok received) ∧
    ∀ msg, TcpTransport.streamBuffer ctx round msg = ctx.encode msg ↔
      overhead ctx msg ≤ round msg.size 8 - msg.size + 4096 := by
  refine ⟨?_, ?_, TcpTransport.streamBuffer_eq_iff ctx hround⟩
  · intro s hs buffer hbuffer
    rw [blockingReceive_eq_ok_iff, hbuffer]
    exact ((makeBuffers_bounded hcontents).run hroom).sends s hs
  · intro msg strm hidle hstrm hfits hlonger
    obtain ⟨s, hs, -, hlength⟩ := exists_send_of_no_room hidle hstrm hfits hlonger
    refine ⟨s, ?_, ?_⟩
    · rw [run, List.foldl_append]
      exact hs
    · intro buffer hbuffer
      rw [blockingReceive_eq_ok_iff, hbuffer]
      exact not_lt.mpr hlength

def printStrings (md : BaseMetadata) : String :=
  String.ofList ('{' :: (md.nodes.flatMap fun e =>
    '"' :: e.1.toList ++ ['"', ':', '"'] ++ ((e.2.getString).toOption.getD "").toList ++ ['"']) ++
      ['}'])

def printContext : Context where
  parametrization := { bucketCount := 1 }
  toString := printStrings

theorem prefix_append_zeros (content : List UInt8) (size : ℕ) :
    content <+: content ++ List.replicate (size - content.length) 0 :=
  List.prefix_append _ _

def taggedStreams : StreamContext where
  encode msg := (msg.encode printContext).flatMap taggedItem
  resize content size := content ++ List.replicate (size - content.length) 0
  prefix_resize := prefix_append_zeros

/-- A message without payload, whose metadata have a text of some length. -/
def annotated (n : ℕ) : Message where
  header :=
    { tag := .notification
      source := {}
      destination := { group := "multio", id := 2 }
      metadata :=
        { bucketCount := 541
          nodes := [("name", .string (String.ofList (List.replicate n 'x')))] } }

theorem length_encode_annotated (n : ℕ) : (taggedStreams.encode (annotated n)).length = n + 73 := by
  simp [taggedStreams, printContext, annotated, Message.encode, Header.encode, Header.fieldId,
    printStrings, taggedItem, MetadataValue.getString, Message.size, Except.toOption]
  omega

def roundUp (x n : ℕ) : ℕ := (x + n - 1) / n * n

theorem rounds_roundUp : Rounds roundUp where
  le x n hn := by
    have hdiv := Nat.div_add_mod (x + n - 1) n
    have hmod := Nat.mod_lt (x + n - 1) hn
    rw [roundUp, Nat.mul_comm]
    omega
  lt x n hn := by
    have hle := Nat.div_mul_le_self (x + n - 1) n
    rw [roundUp]
    omega
  dvd _ _ _ := Nat.dvd_mul_left _ _

open StreamPool in
/-- Two notifications go out in one buffer. -/
theorem dispatched_buffers_fit_two :
    let sends := (run taggedStreams (makeBuffers [List.replicate 8192 0])
      [.bufferedSend (annotated 0) true, .poll true, .bufferedSend (annotated 0) true,
        .sendBuffer (annotated 0).destination]).sends
    (∃ s ∈ sends, 2 * (taggedStreams.encode (annotated 0)).length ≤ s.bytes.length) ∧
    (∀ s ∈ sends, ∀ buffer : MpiBuffer, buffer.content.length = 8192 →
      ∃ received, blockingReceive buffer s.bytes = .ok received) ∧
    TcpTransport.streamBuffer taggedStreams roundUp (annotated 0) =
      taggedStreams.encode (annotated 0) := by
  obtain ⟨msg, hmsg⟩ : ∃ msg, msg = annotated 0 := ⟨_, rfl⟩
  have hlength : (taggedStreams.encode msg).length = 73 := hmsg ▸ length_encode_annotated 0
  have hsize : msg.size = 0 := hmsg ▸ rfl
  obtain ⟨content, hcontent⟩ : ∃ content, content = List.replicate 8192 (0 : UInt8) := ⟨_, rfl⟩
  have hlong : content.length = 8192 := hcontent ▸ List.length_replicate
  rw [← hmsg, ← hcontent]
  intro sends
  have hcontents : ∀ c ∈ [content], c.length = 8192 := by
    intro c hc
    rw [List.mem_singleton.mp hc, hlong]
  have hoverhead : overhead taggedStreams msg ≤ 4096 := by
    unfold overhead
    omega
  have hroom : HaveRoom taggedStreams 8192 (makeBuffers [content])
      [.bufferedSend msg true, .poll true, .bufferedSend msg true,
        .sendBuffer msg.destination] := by
    apply (makeBuffers_bounded hcontents).haveRoom
    intro msg' draw hmem
    simp only [List.mem_cons, Event.bufferedSend.injEq, reduceCtorEq, List.not_mem_nil,
      or_false, false_or] at hmem
    obtain ⟨rfl, -⟩ | ⟨rfl, -⟩ := hmem <;> exact ⟨by omega, hoverhead⟩
  obtain ⟨hfits, -, htcp⟩ := dispatched_buffers_fit taggedStreams rounds_roundUp hcontents hroom
  refine ⟨?_, hfits, (htcp msg).mpr (le_add_left hoverhead)⟩
  -- the second message is accepted for the stream of the first one
  obtain ⟨hidle, hstrm, b, hb, hopened⟩ := run_open taggedStreams
    (show (taggedStreams.encode msg).length ≤ content.length by omega)
  have haccepted : (run taggedStreams (makeBuffers [content])
      [.bufferedSend msg true, .poll true]).canFitMessage
        { buffer := 0, position := (taggedStreams.encode msg).length } msg.size = true := by
    simp only [canFitMessage, hb, List.getElem?_cons_zero, hopened, hlong, hlength, hsize,
      decide_eq_true_iff]
    omega
  obtain ⟨s, hs, -, hsent⟩ := exists_send_of_no_room hidle hstrm haccepted
    (Nat.two_mul (taggedStreams.encode msg).length).le
  exact ⟨s, hs, hsent⟩

open StreamPool in
/-- Two messages without payload, each of which is shorter than a buffer, are dispatched in one. -/
theorem metadata_outgrow_buffers :
    ¬ ∀ (ctx : StreamContext) (round : ℕ → ℕ → ℕ), Rounds round →
      ∀ (size : ℕ) (contents : List (List UInt8)) (events : List Event),
      (∀ content ∈ contents, content.length = size) →
      (∀ msg draw, Event.bufferedSend msg draw ∈ events → (ctx.encode msg).length < size) →
      (∀ s ∈ (run ctx (makeBuffers contents) events).sends, ∀ buffer : MpiBuffer,
        buffer.content.length = size → ∃ received, blockingReceive buffer s.bytes = .ok received) ∧
      ∀ msg, (ctx.encode msg).length < size →
        TcpTransport.streamBuffer ctx round msg = ctx.encode msg := by
  intro h
  obtain ⟨msg, hlength, hsize⟩ : ∃ msg : Message, (taggedStreams.encode msg).length = 9073 ∧
      msg.size = 0 := ⟨annotated 9000, length_encode_annotated 9000, rfl⟩
  obtain ⟨content, hcontent⟩ : ∃ content : List UInt8, content.length = 16384 :=
    ⟨List.replicate _ 0, List.length_replicate⟩
  have hcontents : ∀ c ∈ [content], c.length = 16384 := by
    intro c hc
    rw [List.mem_singleton.mp hc, hcontent]
  have hevents : ∀ msg' draw, Event.bufferedSend msg' draw ∈
      [.bufferedSend msg true, .poll true] ++
        [.bufferedSend msg true, .sendBuffer msg.destination] →
      (taggedStreams.encode msg').length < 16384 := by
    intro msg' draw hmem
    simp only [List.cons_append, List.nil_append, List.mem_cons, Event.bufferedSend.injEq,
      reduceCtorEq, List.not_mem_nil, or_false, false_or] at hmem
    obtain ⟨rfl, -⟩ | ⟨rfl, -⟩ := hmem <;> omega
  obtain ⟨hfits, -⟩ := h taggedStreams roundUp rounds_roundUp 16384 _ _ hcontents hevents
  have hfirst : (taggedStreams.encode msg).length ≤ content.length := by omega
  obtain ⟨hidle, hstrm, b, hb, hopened⟩ := run_open taggedStreams hfirst
  have haccepted : (run taggedStreams (makeBuffers [content])
      [.bufferedSend msg true, .poll true]).canFitMessage
        { buffer := 0, position := (taggedStreams.encode msg).length } msg.size = true := by
    simp only [canFitMessage, hb, List.getElem?_cons_zero, hopened, hcontent, hlength, hsize,
      decide_eq_true_iff]
    omega
  -- two messages with long metadata are put into one buffer
  have hlonger : 16384 ≤ (taggedStreams.encode msg).length +
      (taggedStreams.encode msg).length := by omega
  obtain ⟨s, hs, -, hsent⟩ := exists_send_of_no_room hidle hstrm haccepted hlonger
  rw [run, List.foldl_append] at hfits
  have hreceived := hfits s hs { content } hcontent
  rw [blockingReceive_eq_ok_iff, hcontent] at hreceived
  omega

end Multio.Transport
