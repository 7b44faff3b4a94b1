import Multio.Transport.StreamPool
import Multio.Lib.Blocks

namespace Multio.Transport
open Exception Lib

theorem StreamContext.overwrite_spec (ctx : StreamContext) {content : List UInt8} {position : ℕ}
    (hposition : position ≤ content.length) (bytes : List UInt8) :
    (ctx.overwrite content position bytes).take (position + bytes.length) =
        content.take position ++ bytes ∧
      position + bytes.length ≤ (ctx.overwrite content position bytes).length := by
  unfold overwrite
  set enlarged := if content.length < position + bytes.length
    then ctx.resize content (position + bytes.length) else content with henlarged
  have hprefix : content <+: enlarged := by
    rw [henlarged]
    split_ifs
    · exact ctx.prefix_resize _ _
    · exact List.prefix_refl _
  obtain ⟨rest, hrest⟩ := hprefix
  have htake : enlarged.take position = content.take position := by
    rw [← hrest, List.take_append_of_le_length hposition]
  have hlen : (content.take position ++ bytes).length = position + bytes.length := by
    rw [List.length_append, List.length_take, Nat.min_eq_left hposition]
  simp only
  rw [htake]
  constructor
  · rw [List.take_left' hlen]
  · rw [List.length_append, hlen]
    exact Nat.le_add_right _ _

namespace StreamPool

def openBytes (p : StreamPool) (dest : Peer) : List UInt8 :=
  match p.streams.find? dest with
  | some strm => ((p.buffers[strm.buffer]?).map fun b => b.content.take strm.position).getD []
  | none => []

def dispatched (p : StreamPool) (dest : Peer) : List (List UInt8) :=
  p.sends.filterMap fun s => if s.dest = dest then some s.bytes else none

def writtenFor (p : StreamPool) (dest : Peer) : List Message :=
  p.written.filter fun msg => msg.destination = dest

/-- The sends of the buffers of open streams are complete, open streams do not share buffers, a
buffer stays as it is until its send is complete, and what was dispatched and the open stream are
what was written, message for message. -/
structure Delivers (ctx : StreamContext) (p : StreamPool) : Prop where
  completed : ∀ dest strm, p.streams.find? dest = some strm →
    ∀ s ∈ p.sends, s.buffer = strm.buffer → s.arrived.isSome
  unshared : ∀ dest dest' strm strm', p.streams.find? dest = some strm →
    p.streams.find? dest' = some strm' → strm.buffer = strm'.buffer → dest = dest'
  intact : ∀ s ∈ p.sends, s.arrived = none → ∃ b : MpiBuffer, p.buffers[s.buffer]? = some b ∧
    b.content.take s.bytes.length = s.bytes
  arrives : ∀ s ∈ p.sends, ∀ bytes, s.arrived = some bytes → bytes = s.bytes
  whole : ∀ dest, Blocks ctx.encode (p.dispatched dest) (p.openBytes dest) (p.writtenFor dest)
  all : ∀ dest, (p.dispatched dest).flatten ++ p.openBytes dest =
    (p.writtenFor dest).flatMap ctx.encode

structure Owned (ctx : StreamContext) (p : StreamPool) : Prop where
  filling : ∀ dest strm, p.streams.find? dest = some strm →
    ∃ b : MpiBuffer, p.buffers[strm.buffer]? = some b ∧ b.status = .fillingUp ∧
      strm.position ≤ b.content.length
  unshared : ∀ dest dest' strm strm', p.streams.find? dest = some strm →
    p.streams.find? dest' = some strm' → strm.buffer = strm'.buffer → dest = dest'
  pending : ∀ (k : ℕ) (s : Send), p.sends[k]? = some s → s.arrived = none →
    ∃ b : MpiBuffer, p.buffers[s.buffer]? = some b ∧ b.status = .transmitting ∧
      b.request = some k ∧ b.content.take s.bytes.length = s.bytes
  arrives : ∀ s ∈ p.sends, ∀ bytes, s.arrived = some bytes → bytes = s.bytes
  waiting : ∀ msg i, p.acquiring = some (msg, i) → p.streams.find? msg.destination = none
  whole : ∀ dest, Blocks ctx.encode (p.dispatched dest) (p.openBytes dest) (p.writtenFor dest)

variable {ctx : StreamContext} {p p' : StreamPool}

theorem Owned.stream_apart (h : Owned ctx p) {dest dest' : Peer} {strm strm' : MpiOutputStream}
    (hstrm : p.streams.find? dest = some strm) (hstrm' : p.streams.find? dest' = some strm')
    (hne : dest' ≠ dest) : strm.buffer ≠ strm'.buffer :=
  fun heq => hne (h.unshared _ _ _ _ hstrm' hstrm heq.symm)

/-- A buffer that is filled up is not the one of a pending send, which is transmitting. -/
theorem Owned.send_apart (h : Owned ctx p) {dest : Peer} {strm : MpiOutputStream}
    (hstrm : p.streams.find? dest = some strm) {k : ℕ} {s : Send} (hs : p.sends[k]? = some s)
    (harrived : s.arrived = none) : strm.buffer ≠ s.buffer := by
  intro heq
  obtain ⟨b, hb, hfilling, -⟩ := h.filling dest strm hstrm
  obtain ⟨b', hb', htransmitting, -⟩ := h.pending k s hs harrived
  rw [← heq, hb] at hb'
  cases hb'
  rw [hfilling] at htransmitting
  cases htransmitting

theorem Owned.delivers (h : Owned ctx p) : Delivers ctx p where
  completed dest strm hstrm s hs hbuffer := by
    obtain ⟨k, hk⟩ := List.getElem?_of_mem hs
    cases harrived : s.arrived with
    | some bytes => rfl
    | none => exact absurd hbuffer.symm (h.send_apart hstrm hk harrived)
  unshared := h.unshared
  intact s hs harrived := by
    obtain ⟨k, hk⟩ := List.getElem?_of_mem hs
    obtain ⟨b, hb, -, -, htake⟩ := h.pending k s hk harrived
    exact ⟨b, hb, htake⟩
  arrives := h.arrives
  whole := h.whole
  all dest := (h.whole dest).flatten_append

theorem openBytes_of_find {dest : Peer} {strm : MpiOutputStream} {b : MpiBuffer}
    (hstrm : p.streams.find? dest = some strm) (hb : p.buffers[strm.buffer]? = some b) :
    p.openBytes dest = b.content.take strm.position := by
  rw [openBytes, hstrm]
  simp only
  rw [hb]
  rfl

theorem openBytes_of_none {dest : Peer} (h : p.streams.find? dest = none) :
    p.openBytes dest = [] := by
  rw [openBytes, h]

theorem openBytes_congr {dest : Peer} (hfind : p'.streams.find? dest = p.streams.find? dest)
    (hbuffers : ∀ strm, p.streams.find? dest = some strm →
      p'.buffers[strm.buffer]? = p.buffers[strm.buffer]?) :
    p'.openBytes dest = p.openBytes dest := by
  unfold openBytes
  rw [hfind]
  cases hstrm : p.streams.find? dest with
  | none => rfl
  | some strm =>
    simp only
    rw [hbuffers strm hstrm]

/-- The stream of a destination is put on a buffer that no other open stream has. -/
structure Placed (p p' : StreamPool) (dest : Peer) (strm : MpiOutputStream) : Prop where
  find : ∀ dest', p'.streams.find? dest' =
    if dest' = dest then some strm else p.streams.find? dest'
  apart : ∀ dest' strm', p.streams.find? dest' = some strm' → dest' ≠ dest →
    strm.buffer ≠ strm'.buffer
  other : ∀ i, strm.buffer ≠ i → p'.buffers[i]? = p.buffers[i]?

section Placed
variable {dest : Peer} {strm : MpiOutputStream}

theorem Placed.filling (hplaced : Placed p p' dest strm) (h : Owned ctx p) {b : MpiBuffer}
    (hself : p'.buffers[strm.buffer]? = some b) (hfilling : b.status = .fillingUp)
    (hposition : strm.position ≤ b.content.length) :
    ∀ dest' strm', p'.streams.find? dest' = some strm' →
      ∃ b' : MpiBuffer, p'.buffers[strm'.buffer]? = some b' ∧ b'.status = .fillingUp ∧
        strm'.position ≤ b'.content.length := by
  intro dest' strm' hstrm'
  rw [hplaced.find] at hstrm'
  split_ifs at hstrm' with hdest
  · cases hstrm'
    exact ⟨b, hself, hfilling, hposition⟩
  · rw [hplaced.other _ (hplaced.apart dest' strm' hstrm' hdest)]
    exact h.filling dest' strm' hstrm'

theorem Placed.unshared (hplaced : Placed p p' dest strm) (h : Owned ctx p) :
    ∀ dest₁ dest₂ strm₁ strm₂, p'.streams.find? dest₁ = some strm₁ →
      p'.streams.find? dest₂ = some strm₂ → strm₁.buffer = strm₂.buffer → dest₁ = dest₂ := by
  intro dest₁ dest₂ strm₁ strm₂ h₁ h₂ heq
  rw [hplaced.find] at h₁ h₂
  split_ifs at h₁ h₂ with hdest₁ hdest₂ hdest₂
  · rw [hdest₁, hdest₂]
  · cases h₁
    exact absurd heq (hplaced.apart _ _ h₂ hdest₂)
  · cases h₂
    exact absurd heq.symm (hplaced.apart _ _ h₁ hdest₁)
  · exact h.unshared dest₁ dest₂ strm₁ strm₂ h₁ h₂ heq

theorem Placed.openBytes_of_ne (hplaced : Placed p p' dest strm) {dest' : Peer}
    (hne : dest' ≠ dest) : p'.openBytes dest' = p.openBytes dest' :=
  openBytes_congr ((hplaced.find dest').trans (if_neg hne))
    fun strm' hstrm' => hplaced.other _ (hplaced.apart dest' strm' hstrm' hne)

end Placed

theorem Owned.encodeMessage (h : Owned ctx p) {msg : Message} {strm : MpiOutputStream}
    (hstrm : p.streams.find? msg.destination = some strm) (hidle : p.acquiring = none) :
    Owned ctx (p.encodeMessage ctx strm msg) := by
  obtain ⟨b, hb, hfilling, hposition⟩ := h.filling _ _ hstrm
  obtain ⟨htake, hlen⟩ := ctx.overwrite_spec hposition (ctx.encode msg)
  set b' : MpiBuffer :=
    { b with content := ctx.overwrite b.content strm.position (ctx.encode msg) } with hb'
  set p' := p.encodeMessage ctx strm msg with hp'
  have hself : p'.buffers[strm.buffer]? = some b' := by
    rw [hp', StreamPool.encodeMessage]
    simp only
    rw [List.getElem?_modify_eq, hb]
    rfl
  have hother : ∀ i, strm.buffer ≠ i → p'.buffers[i]? = p.buffers[i]? := by
    intro i hi
    rw [hp', StreamPool.encodeMessage]
    simp only
    rw [List.getElem?_modify_ne _ _ hi]
  have hplaced : Placed p p' msg.destination
      { strm with position := strm.position + (ctx.encode msg).length } :=
    { find dest := OrderedMap.find?_insert ..
      apart dest strm' hstrm' hdest := fun hbuffer =>
        h.stream_apart hstrm hstrm' hdest hbuffer
      other := hother }
  refine ⟨hplaced.filling h hself hfilling hlen, hplaced.unshared h, ?_, h.arrives, ?_, ?_⟩
  · intro k s hs harrived
    rw [hother _ (h.send_apart hstrm hs harrived)]
    exact h.pending k s hs harrived
  · intro m i hacquiring
    exact absurd (hacquiring.symm.trans hidle) (by simp)
  · intro dest
    have hdispatched : p'.dispatched dest = p.dispatched dest := rfl
    -- the bytes of this destination grow by the message, those of the others stay
    by_cases hdest : msg.destination = dest
    · have hnow : p'.openBytes dest = b'.content.take (strm.position + (ctx.encode msg).length) :=
        openBytes_of_find ((hplaced.find dest).trans (if_pos hdest.symm)) hself
      have hbefore : p.openBytes dest = b.content.take strm.position :=
        openBytes_of_find (hdest ▸ hstrm) hb
      have hopen : p'.openBytes dest = p.openBytes dest ++ ctx.encode msg := by
        rw [hnow, hbefore, ← htake]
      have hwritten : p'.writtenFor dest = p.writtenFor dest ++ [msg] := by
        rw [writtenFor, hp', StreamPool.encodeMessage]
        simp only
        rw [List.filter_append, List.filter_singleton, decide_eq_true hdest]
        rfl
      rw [hdispatched, hopen, hwritten]
      exact (h.whole dest).append msg
    · have hwritten : p'.writtenFor dest = p.writtenFor dest := by
        rw [writtenFor, hp', StreamPool.encodeMessage]
        simp only
        rw [List.filter_append, List.filter_singleton, decide_eq_false hdest]
        exact List.append_nil _
      rw [hdispatched, hplaced.openBytes_of_ne (Ne.symm hdest), hwritten]
      exact h.whole dest

theorem sendBuffer_ok {dest : Peer} (h : p.sendBuffer dest = .ok p') :
    ∃ strm b, p.streams.find? dest = some strm ∧ p.buffers[strm.buffer]? = some b ∧
      p' = { p with
        buffers := p.buffers.set strm.buffer
          { b with request := some p.sends.length, status := .transmitting }
        sends := p.sends ++ [{ dest, buffer := strm.buffer, bytes := b.content.take strm.position }]
        streams := p.streams.erase dest } := by
  unfold StreamPool.sendBuffer at h
  split at h
  · cases h
  · next strm hstrm =>
    split at h
    · cases h
    · next b hb => exact ⟨strm, b, hstrm, hb, (Except.ok.inj h).symm⟩

theorem Owned.sendBuffer (h : Owned ctx p) {dest : Peer} (hsend : p.sendBuffer dest = .ok p') :
    Owned ctx p' ∧ p'.acquiring = p.acquiring ∧ p'.streams.find? dest = none := by
  obtain ⟨strm, b, hstrm, hb, hp'⟩ := sendBuffer_ok hsend
  obtain ⟨b₁, hb₁, -, hposition⟩ := h.filling _ _ hstrm
  rw [hb] at hb₁
  cases hb₁
  have hfind : ∀ dest', p'.streams.find? dest' =
      if dest' = dest then none else p.streams.find? dest' := by
    intro dest'
    rw [hp']
    exact OrderedMap.find?_erase ..
  have hself : p'.buffers[strm.buffer]? =
      some { b with request := some p.sends.length, status := .transmitting } := by
    rw [hp']
    exact List.getElem?_set_self (List.getElem?_eq_some_iff.mp hb).1
  have hother : ∀ i, strm.buffer ≠ i → p'.buffers[i]? = p.buffers[i]? := by
    intro i hi
    rw [hp']
    exact List.getElem?_set_ne hi
  have hacquiring : p'.acquiring = p.acquiring := by rw [hp']
  refine ⟨⟨?_, ?_, ?_, ?_, ?_, ?_⟩, hacquiring, by rw [hfind, if_pos rfl]⟩
  · intro dest' strm' hstrm'
    rw [hfind] at hstrm'
    split_ifs at hstrm' with hdest
    rw [hother _ (h.stream_apart hstrm hstrm' hdest)]
    exact h.filling dest' strm' hstrm'
  · intro dest₁ dest₂ strm₁ strm₂ h₁ h₂
    rw [hfind] at h₁ h₂
    split_ifs at h₁ h₂
    exact h.unshared dest₁ dest₂ strm₁ strm₂ h₁ h₂
  · intro k s hs harrived
    rw [hp'] at hs
    -- a send that was started before, and the one that is started now
    rcases Nat.lt_or_ge k p.sends.length with hk | hk
    · rw [List.getElem?_append_left hk] at hs
      rw [hother _ (h.send_apart hstrm hs harrived)]
      exact h.pending k s hs harrived
    · rw [List.getElem?_append_right hk, List.getElem?_singleton] at hs
      split_ifs at hs with hzero
      cases hs
      refine ⟨_, hself, rfl, ?_, ?_⟩
      · exact congrArg some (by omega)
      · rw [List.length_take, Nat.min_eq_left hposition]
  · intro s hs
    rw [hp'] at hs
    rcases List.mem_append.mp hs with hs | hs
    · exact h.arrives s hs
    · rw [List.mem_singleton.mp hs]
      intro bytes hbytes
      cases hbytes
  · intro msg i hwaiting
    rw [hfind]
    split_ifs
    · rfl
    · exact h.waiting msg i (hacquiring ▸ hwaiting)
  · intro dest'
    have hwritten : p'.writtenFor dest' = p.writtenFor dest' := by rw [hp']; rfl
    have hdispatched : p'.dispatched dest' = p.dispatched dest' ++
        if dest = dest' then [b.content.take strm.position] else [] := by
      rw [dispatched, hp', List.filterMap_append]
      simp only [List.filterMap_cons, List.filterMap_nil]
      split_ifs <;> rfl
    -- what was open for the destination is now dispatched
    by_cases hdest : dest = dest'
    · have hnow : p'.openBytes dest' = [] :=
        openBytes_of_none ((hfind dest').trans (if_pos hdest.symm))
      have hbefore : p.openBytes dest' = b.content.take strm.position :=
        openBytes_of_find (hdest ▸ hstrm) hb
      rw [hdispatched, if_pos hdest, hnow, hwritten, ← hbefore]
      exact (h.whole dest').cut
    · have hopen : p'.openBytes dest' = p.openBytes dest' :=
        openBytes_congr ((hfind dest').trans (if_neg (Ne.symm hdest)))
          fun strm' hstrm' => hother _ (h.stream_apart hstrm hstrm' (Ne.symm hdest))
      rw [hdispatched, if_neg hdest, List.append_nil, hopen, hwritten]
      exact h.whole dest'

theorem Owned.createNewStream (h : Owned ctx p) {msg : Message}
    (hnone : p.streams.find? msg.destination = none) (hnew : p.createNewStream msg = .ok p') :
    Owned ctx p' := by
  unfold StreamPool.createNewStream at hnew
  split_ifs at hnew
  cases hnew
  refine ⟨h.filling, h.unshared, h.pending, h.arrives, ?_, h.whole⟩
  intro m i hacquiring
  cases hacquiring
  exact hnone

theorem Owned.bufferedSend (h : Owned ctx p) (hidle : p.acquiring = none) (msg : Message)
    (draw : Bool) : Owned ctx (p.bufferedSend ctx msg draw).2 := by
  unfold StreamPool.bufferedSend
  split
  · next hnone =>
    split
    · next hnew => exact h.createNewStream hnone hnew
    · exact h
  · next strm hstrm =>
    split_ifs
    · exact h.encodeMessage hstrm hidle
    · split
      · exact h
      · next hsend =>
        obtain ⟨h', -, hnone⟩ := h.sendBuffer hsend
        split
        · next hnew => exact h'.createNewStream hnone hnew
        · exact h'

/-- A buffer that can be had belongs to no open stream and to no send that is not complete. -/
theorem Owned.unowned (h : Owned ctx p) {i : ℕ} {b : MpiBuffer} (hb : p.buffers[i]? = some b)
    {exchanged : Bool} (hacquires : p.acquires b exchanged = true) :
    (∀ dest strm, p.streams.find? dest = some strm → i ≠ strm.buffer) ∧
      ∀ s ∈ p.sends, s.arrived = none → i ≠ s.buffer := by
  constructor
  · intro dest strm hstrm heq
    obtain ⟨b', hb', hfilling, -⟩ := h.filling dest strm hstrm
    rw [← heq, hb] at hb'
    cases hb'
    rw [acquires, hfilling] at hacquires
    cases hacquires
  · intro s hs harrived heq
    obtain ⟨k, hk⟩ := List.getElem?_of_mem hs
    obtain ⟨b', hb', htransmitting, hrequest, -⟩ := h.pending k s hk harrived
    rw [← heq, hb] at hb'
    cases hb'
    have htest : p.test b = false := by
      rw [test, hrequest]
      simp only
      rw [hk, Option.bind_some, harrived]
      rfl
    rw [acquires, htransmitting] at hacquires
    simp only at hacquires
    rw [htest] at hacquires
    cases hacquires

theorem Owned.emplace (h : Owned ctx p) {msg : Message} {i : ℕ} {b : MpiBuffer}
    (hnone : p.streams.find? msg.destination = none) (hb : p.buffers[i]? = some b)
    {exchanged : Bool} (hacquires : p.acquires b exchanged = true) :
    Owned ctx { p with
      buffers := p.buffers.set i { b with status := .fillingUp }
      streams := p.streams.emplace msg.destination { buffer := i }
      acquiring := none } := by
  obtain ⟨hstreams, hsends⟩ := h.unowned hb hacquires
  set p' : StreamPool := { p with
    buffers := p.buffers.set i { b with status := .fillingUp }
    streams := p.streams.emplace msg.destination { buffer := i }
    acquiring := none } with hp'
  -- the buffer was owned by nobody, so no other stream and no send sees the change
  have hself : p'.buffers[i]? = some { b with status := .fillingUp } :=
    List.getElem?_set_self (List.getElem?_eq_some_iff.mp hb).1
  have hplaced : Placed p p' msg.destination { buffer := i } :=
    { find dest := by
        rw [hp']
        simp only
        rw [OrderedMap.emplace_of_none _ hnone, OrderedMap.find?_insert]
      apart dest strm hstrm _ := hstreams dest strm hstrm
      other j hj := List.getElem?_set_ne hj }
  refine ⟨hplaced.filling h hself rfl (Nat.zero_le _), hplaced.unshared h, ?_, h.arrives, ?_, ?_⟩
  · intro k s hs harrived
    rw [hplaced.other _ (hsends s (List.mem_of_getElem? hs) harrived)]
    exact h.pending k s hs harrived
  · intro m j hacquiring
    cases hacquiring
  · intro dest
    have hopen : p'.openBytes dest = p.openBytes dest := by
      by_cases hdest : dest = msg.destination
      · rw [openBytes_of_find ((hplaced.find dest).trans (if_pos hdest)) hself,
          openBytes_of_none (hdest ▸ hnone)]
        rfl
      · exact hplaced.openBytes_of_ne hdest
    rw [hopen]
    exact h.whole dest

theorem Owned.poll (h : Owned ctx p) (exchanged : Bool) : Owned ctx (p.poll ctx exchanged) := by
  have hlook : ∀ msg i j, p.acquiring = some (msg, i) →
      Owned ctx { p with acquiring := some (msg, j) } := by
    intro msg i j hacquiring
    refine ⟨h.filling, h.unshared, h.pending, h.arrives, ?_, h.whole⟩
    intro m k hm
    cases hm
    exact h.waiting msg i hacquiring
  unfold StreamPool.poll
  split
  · exact h
  · next msg i hacquiring =>
    have hnone := h.waiting msg i hacquiring
    split
    · exact hlook msg i 0 hacquiring
    · next b hb =>
      split_ifs with hacquires
      · refine (h.emplace hnone hb hacquires).encodeMessage ?_ rfl
        simp only
        rw [OrderedMap.emplace_of_none _ hnone, OrderedMap.find?_insert, if_pos rfl]
      · exact hlook msg i (i + 1) hacquiring

theorem Owned.complete (h : Owned ctx p) (k : ℕ) : Owned ctx (p.complete k) := by
  unfold StreamPool.complete
  split
  · exact h
  · next s hs =>
    split
    · next b harrived hb =>
      obtain ⟨b', hb', -, -, htake⟩ := h.pending k s hs harrived
      rw [hb] at hb'
      cases hb'
      refine ⟨h.filling, h.unshared, ?_, ?_, h.waiting, ?_⟩
      · intro k' s' hs' harrived'
        simp only at hs'
        rw [List.getElem?_set] at hs'
        split_ifs at hs'
        · cases hs'
          cases harrived'
        · exact h.pending k' s' hs' harrived'
      · intro s' hs' bytes hbytes
        rcases List.mem_or_eq_of_mem_set hs' with hs' | rfl
        · exact h.arrives s' hs' bytes hbytes
        · rw [← Option.some.inj hbytes]
          exact htake
      · intro dest
        have hdispatched : ({ p with
            sends := p.sends.set k
              { s with arrived := some (b.content.take s.bytes.length) } }).dispatched dest =
            p.dispatched dest := Blocks.filterMap_set hs rfl
        rw [hdispatched]
        exact h.whole dest
    · exact h

theorem makeBuffers_owned (ctx : StreamContext) (contents : List (List UInt8)) :
    Owned ctx (makeBuffers contents) where
  filling _ _ h := by cases h
  unshared _ _ _ _ h := by cases h
  pending k _ h := by simp [makeBuffers] at h
  arrives _ h := by cases h
  waiting _ _ h := by cases h
  whole _ := Blocks.empty

theorem Owned.step (h : Owned ctx p) (event : Event) : Owned ctx (step ctx p event) := by
  cases event with
  | bufferedSend msg draw =>
    unfold StreamPool.step
    simp only
    split_ifs with hidle
    · exact h
    · exact h.bufferedSend (Option.not_isSome_iff_eq_none.mp hidle) msg draw
  | sendBuffer dest =>
    unfold StreamPool.step
    simp only
    split_ifs
    · exact h
    · split
      · next hsend => exact (h.sendBuffer hsend).1
      · exact h
  | poll exchanged => exact h.poll exchanged
  | complete k => exact h.complete k

theorem Owned.run (h : Owned ctx p) (events : List Event) : Owned ctx (run ctx p events) := by
  induction events generalizing p with
  | nil => exact h
  | cons event events ih => exact ih (h.step event)

theorem sendBuffer_written {dest : Peer} (h : p.sendBuffer dest = .ok p') :
    p'.written = p.written ∧ p'.waiting = p.waiting := by
  obtain ⟨_, _, _, _, rfl⟩ := sendBuffer_ok h
  exact ⟨rfl, rfl⟩

theorem createNewStream_waiting {msg : Message} (h : p.createNewStream msg = .ok p') :
    p'.written = p.written ∧ p'.waiting = [msg] := by
  unfold StreamPool.createNewStream at h
  split_ifs at h
  cases h
  exact ⟨rfl, rfl⟩

theorem waiting_of_idle (h : p.acquiring = none) : p.waiting = [] := by
  rw [waiting, h]
  rfl

/-- A call that does not throw writes its message or leaves it waiting, one that throws neither. -/
theorem bufferedSend_written (hidle : p.acquiring = none) (msg : Message) (draw : Bool) :
    (p.bufferedSend ctx msg draw).2.written ++ (p.bufferedSend ctx msg draw).2.waiting =
      p.written ++ p.accepts ctx (.bufferedSend msg draw) := by
  have hnone := waiting_of_idle hidle
  have hcall : p.acquiring.isSome = false := by rw [hidle]; rfl
  simp only [accepts, hcall, Bool.false_eq_true, if_false]
  unfold StreamPool.bufferedSend
  cases hstrm : p.streams.find? msg.destination with
  | none =>
    cases hnew : p.createNewStream msg with
    | error e => simp [hnone]
    | ok p' =>
      obtain ⟨hwritten, hwaiting⟩ := createNewStream_waiting hnew
      simp [hwritten, hwaiting]
  | some strm =>
    by_cases hfit : (p.canFitMessage strm msg.size && draw) = true
    · have hwaiting : (p.encodeMessage ctx strm msg).waiting = [] := waiting_of_idle hidle
      simp only [hfit, if_true, hwaiting, List.append_nil]
      rfl
    · simp only [hfit]
      cases hsend : p.sendBuffer msg.destination with
      | error e => simp [hnone]
      | ok p' =>
        obtain ⟨hwritten, hwaiting⟩ := sendBuffer_written hsend
        cases hnew : p'.createNewStream msg with
        | error e => simp [hnew, hnone, hwritten, hwaiting]
        | ok p'' =>
          obtain ⟨hwritten', hwaiting'⟩ := createNewStream_waiting hnew
          simp [hnew, hwritten, hwritten', hwaiting']

theorem poll_written (p : StreamPool) (exchanged : Bool) :
    (p.poll ctx exchanged).written ++ (p.poll ctx exchanged).waiting = p.written ++ p.waiting := by
  unfold StreamPool.poll
  cases hacquiring : p.acquiring with
  | none => rfl
  | some next =>
    obtain ⟨msg, i⟩ := next
    have hwaiting : p.waiting = [msg] := by rw [waiting, hacquiring]; rfl
    cases hb : p.buffers[i]? with
    | none => simp [hb, waiting, hacquiring]
    | some b =>
      simp only [hb]
      split_ifs
      · rw [hwaiting]
        exact List.append_nil _
      · simp [waiting, hacquiring]

theorem complete_written (p : StreamPool) (k : ℕ) :
    (p.complete k).written = p.written ∧ (p.complete k).waiting = p.waiting := by
  unfold StreamPool.complete
  split
  · exact ⟨rfl, rfl⟩
  · split <;> exact ⟨rfl, rfl⟩

theorem step_written (p : StreamPool) (event : Event) :
    (step ctx p event).written ++ (step ctx p event).waiting =
      p.written ++ p.waiting ++ p.accepts ctx event := by
  cases event with
  | bufferedSend msg draw =>
    unfold StreamPool.step
    simp only
    split_ifs with hidle
    · simp [accepts, hidle]
    · have hnone := Option.not_isSome_iff_eq_none.mp hidle
      rw [bufferedSend_written hnone, waiting_of_idle hnone, List.append_nil]
  | sendBuffer dest =>
    have hnone : p.accepts ctx (.sendBuffer dest) = [] := rfl
    rw [hnone, List.append_nil]
    unfold StreamPool.step
    simp only
    split_ifs
    · rfl
    · split
      · next hsend =>
        obtain ⟨hwritten, hwaiting⟩ := sendBuffer_written hsend
        rw [hwritten, hwaiting]
      · rfl
  | poll exchanged =>
    exact (poll_written p exchanged).trans (List.append_nil _).symm
  | complete k =>
    obtain ⟨hwritten, hwaiting⟩ := complete_written p k
    have hnone : p.accepts ctx (.complete k) = [] := rfl
    rw [hnone, List.append_nil, step, hwritten, hwaiting]

theorem eq_of_mem_accepts {event : Event} {m : Message} (h : m ∈ p.accepts ctx event) :
    ∃ draw, event = .bufferedSend m draw := by
  cases event with
  | bufferedSend msg draw =>
    rw [accepts] at h
    split_ifs at h
    · cases h
    · cases hcall : (p.bufferedSend ctx msg draw).1 with
      | ok _ =>
        rw [hcall] at h
        exact ⟨draw, congrArg (Event.bufferedSend · draw) (List.mem_singleton.mp h).symm⟩
      | error e =>
        rw [hcall] at h
        cases h
  | sendBuffer dest => cases h
  | poll exchanged => cases h
  | complete k => cases h

/-- What has been written and what waits is what the calls of a run have been given. -/
theorem run_written (ctx : StreamContext) (p : StreamPool) (events : List Event) :
    (run ctx p events).written ++ (run ctx p events).waiting =
      p.written ++ p.waiting ++ accepted ctx p events := by
  induction events generalizing p with
  | nil => exact (List.append_nil _).symm
  | cons event events ih =>
    rw [accepted, ← List.append_assoc, ← step_written]
    exact ih (step ctx p event)

/-- Whatever is called and in whatever order sends complete, the pool delivers the messages that
it has accepted, but for the one that waits for a buffer. -/
theorem pool_delivers (ctx : StreamContext) (contents : List (List UInt8)) (events : List Event) :
    Delivers ctx (run ctx (makeBuffers contents) events) ∧
      (run ctx (makeBuffers contents) events).written ++
          (run ctx (makeBuffers contents) events).waiting =
        accepted ctx (makeBuffers contents) events :=
  ⟨((makeBuffers_owned ctx contents).run events).delivers, run_written ctx (makeBuffers contents) events⟩

end StreamPool
end Multio.Transport
