import Multio.Transport.StreamDelivery

namespace Multio.Transport
open Exception Lib

namespace StreamPool

def AllHeld (p : StreamPool) : Prop :=
  ∀ i < p.buffers.length, ∃ dest strm, p.streams.find? dest = some strm ∧ strm.buffer = i

def Event.whileWaiting : Event → Bool
  | .poll _ => true
  | .complete _ => true
  | .bufferedSend _ _ => false
  | .sendBuffer _ => false

/-- Some course of the sends and of the exchanges ends the loop. -/
def CanEnd (ctx : StreamContext) (p : StreamPool) : Prop :=
  ∃ events : List Event, (∀ event ∈ events, event.whileWaiting = true) ∧
    (run ctx p events).acquiring = none

/-- A request for a stream is refused when every buffer is held; a request that is not refused
finds a buffer that is in transmission or available, and its loop can end. -/
structure ExhaustionReported (ctx : StreamContext) (p : StreamPool) (msg : Message) : Prop where
  throws : p.AllHeld → ∃ e, p.createNewStream msg = .error e
  ends : ∀ p', p.createNewStream msg = .ok p' →
    (∃ b ∈ p.buffers, b.status = .transmitting ∨ b.status = .available) ∧ p'.CanEnd ctx

/-- A buffer that is filled is held by a stream, and one in transmission has its send. -/
structure Held (p : StreamPool) : Prop where
  filling : ∀ (i : ℕ) (b : MpiBuffer), p.buffers[i]? = some b → b.status = .fillingUp →
    ∃ dest strm, p.streams.find? dest = some strm ∧ strm.buffer = i
  transmitting : ∀ (i : ℕ) (b : MpiBuffer), p.buffers[i]? = some b → b.status = .transmitting →
    ∃ (k : ℕ) (s : Send), b.request = some k ∧ p.sends[k]? = some s ∧ s.buffer = i

variable {ctx : StreamContext} {p p' : StreamPool}

theorem makeBuffers_held (contents : List (List UInt8)) : (makeBuffers contents).Held := by
  have havailable : ∀ (i : ℕ) (b : MpiBuffer), (makeBuffers contents).buffers[i]? = some b →
      b.status = .available := by
    intro i b hb
    obtain ⟨content, -, rfl⟩ := List.mem_map.mp (List.mem_of_getElem? hb)
    rfl
  constructor
  · intro i b hb hfilling
    rw [havailable i b hb] at hfilling
    cases hfilling
  · intro i b hb htransmitting
    rw [havailable i b hb] at htransmitting
    cases htransmitting

/-- Writing to an open stream changes neither who holds a buffer nor its send. -/
theorem Held.encodeMessage (h : p.Held) {msg : Message} {strm : MpiOutputStream}
    (hstrm : p.streams.find? msg.destination = some strm) :
    (p.encodeMessage ctx strm msg).Held := by
  -- writing into a buffer changes neither its status nor its request
  have hbuffers : ∀ (i : ℕ) (b : MpiBuffer),
      (p.encodeMessage ctx strm msg).buffers[i]? = some b →
      ∃ b₀ : MpiBuffer, p.buffers[i]? = some b₀ ∧ b.status = b₀.status ∧
        b.request = b₀.request := by
    intro i b hb
    rw [StreamPool.encodeMessage, List.getElem?_modify] at hb
    cases hb₀ : p.buffers[i]? with
    | none => rw [hb₀] at hb; cases hb
    | some b₀ =>
      rw [hb₀] at hb
      simp only [Option.map_eq_map, Option.map_some, Option.some.injEq] at hb
      refine ⟨b₀, rfl, ?_, ?_⟩
      · rw [← hb]
        split_ifs <;> rfl
      · rw [← hb]
        split_ifs <;> rfl
  constructor
  · intro i b hb hfilling
    obtain ⟨b₀, hb₀, hstatus, -⟩ := hbuffers i b hb
    obtain ⟨dest, strm', hstrm', hbuffer⟩ := h.filling i b₀ hb₀ (hstatus ▸ hfilling)
    have hfind : (p.encodeMessage ctx strm msg).streams.find? dest =
        if dest = msg.destination then
          some { strm with position := strm.position + (ctx.encode msg).length }
        else p.streams.find? dest := OrderedMap.find?_insert ..
    by_cases hdest : dest = msg.destination
    · rw [hdest, hstrm] at hstrm'
      cases hstrm'
      exact ⟨dest, _, hfind.trans (if_pos hdest), hbuffer⟩
    · exact ⟨dest, strm', hfind.trans ((if_neg hdest).trans hstrm'), hbuffer⟩
  · intro i b hb htransmitting
    obtain ⟨b₀, hb₀, hstatus, hrequest⟩ := hbuffers i b hb
    obtain ⟨k, s, hk, hs⟩ := h.transmitting i b₀ hb₀ (hstatus ▸ htransmitting)
    exact ⟨k, s, hrequest.trans hk, hs⟩

theorem Held.sendBuffer (h : p.Held) {dest : Peer} (hsend : p.sendBuffer dest = .ok p') :
    p'.Held := by
  obtain ⟨strm, b, hstrm, hb, rfl⟩ := sendBuffer_ok hsend
  constructor
  · intro i b' hb' hfilling
    simp only at hb'
    rw [List.getElem?_set] at hb'
    split_ifs at hb' with hi
    · cases hb'
      cases hfilling
    · obtain ⟨dest', strm', hstrm', hbuffer⟩ := h.filling i b' hb' hfilling
      refine ⟨dest', strm', ?_, hbuffer⟩
      simp only
      rw [OrderedMap.find?_erase, if_neg, hstrm']
      intro hdest
      rw [hdest, hstrm] at hstrm'
      cases hstrm'
      exact hi hbuffer
  · intro i b' hb' htransmitting
    simp only at hb'
    rw [List.getElem?_set] at hb'
    split_ifs at hb' with hi
    · cases hb'
      refine ⟨p.sends.length, _, rfl, List.getElem?_concat_length, hi⟩
    · obtain ⟨k, s, hk, hs, hbuffer⟩ := h.transmitting i b' hb' htransmitting
      refine ⟨k, s, hk, ?_, hbuffer⟩
      simp only
      rw [List.getElem?_append_left (List.getElem?_eq_some_iff.mp hs).1, hs]

theorem Held.createNewStream (h : p.Held) {msg : Message}
    (hnew : p.createNewStream msg = .ok p') : p'.Held := by
  unfold StreamPool.createNewStream at hnew
  split_ifs at hnew
  cases hnew
  exact ⟨h.filling, h.transmitting⟩

theorem Held.bufferedSend (h : p.Held) (msg : Message) (draw : Bool) :
    (p.bufferedSend ctx msg draw).2.Held := by
  unfold StreamPool.bufferedSend
  split
  · split
    · next hnew => exact h.createNewStream hnew
    · exact h
  · next strm hstrm =>
    split_ifs
    · exact h.encodeMessage hstrm
    · split
      · exact h
      · next hsend =>
        split
        · next hnew => exact (h.sendBuffer hsend).createNewStream hnew
        · exact h.sendBuffer hsend

/-- A buffer that was acquired is held by the stream that is opened on it. -/
theorem Held.emplace (h : p.Held) {msg : Message} {i : ℕ} {b : MpiBuffer}
    (hnone : p.streams.find? msg.destination = none) :
    Held { p with
      buffers := p.buffers.set i { b with status := .fillingUp }
      streams := p.streams.emplace msg.destination { buffer := i }
      acquiring := none } := by
  constructor
  · intro j b' hb' hfilling
    simp only at hb' ⊢
    rw [List.getElem?_set] at hb'
    split_ifs at hb' with hj
    · refine ⟨msg.destination, { buffer := i }, ?_, hj⟩
      rw [OrderedMap.emplace_of_none _ hnone, OrderedMap.find?_insert, if_pos rfl]
    · obtain ⟨dest, strm, hstrm, hbuffer⟩ := h.filling j b' hb' hfilling
      refine ⟨dest, strm, ?_, hbuffer⟩
      rw [OrderedMap.emplace_of_none _ hnone, OrderedMap.find?_insert, if_neg, hstrm]
      intro hdest
      rw [hdest, hnone] at hstrm
      cases hstrm
  · intro j b' hb' htransmitting
    simp only at hb'
    rw [List.getElem?_set] at hb'
    split_ifs at hb'
    · cases hb'
      cases htransmitting
    · exact h.transmitting j b' hb' htransmitting

theorem Held.poll (h : p.Held) (howned : Owned ctx p) (exchanged : Bool) :
    (p.poll ctx exchanged).Held := by
  unfold StreamPool.poll
  split
  · exact h
  · next msg i hacquiring =>
    have hnone := howned.waiting msg i hacquiring
    split
    · exact ⟨h.filling, h.transmitting⟩
    · next b hb =>
      split_ifs
      · apply (h.emplace hnone).encodeMessage
        simp only
        rw [OrderedMap.emplace_of_none _ hnone, OrderedMap.find?_insert, if_pos rfl]
      · exact ⟨h.filling, h.transmitting⟩

theorem Held.complete (h : p.Held) (k : ℕ) : (p.complete k).Held := by
  unfold StreamPool.complete
  split
  · exact h
  · next s hs =>
    split
    · refine ⟨h.filling, ?_⟩
      intro i b hb htransmitting
      obtain ⟨k', s', hk', hs', hbuffer⟩ := h.transmitting i b hb htransmitting
      by_cases hkk : k = k'
      · subst hkk
        rw [hs] at hs'
        cases hs'
        exact ⟨k, _, hk', List.getElem?_set_self (List.getElem?_eq_some_iff.mp hs).1, hbuffer⟩
      · exact ⟨k', s', hk', (List.getElem?_set_ne hkk).trans hs', hbuffer⟩
    · exact h

theorem Held.step (h : p.Held) (howned : Owned ctx p) (event : Event) :
    (step ctx p event).Held := by
  cases event with
  | bufferedSend msg draw =>
    unfold StreamPool.step
    simp only
    split_ifs
    · exact h
    · exact h.bufferedSend msg draw
  | sendBuffer dest =>
    unfold StreamPool.step
    simp only
    split_ifs
    · exact h
    · split
      · next hsend => exact h.sendBuffer hsend
      · exact h
  | poll exchanged => exact h.poll howned exchanged
  | complete k => exact h.complete k

theorem Held.run (h : p.Held) (howned : Owned ctx p) (events : List Event) :
    (run ctx p events).Held := by
  induction events generalizing p with
  | nil => exact h
  | cons event events ih => exact ih (h.step howned event) (howned.step event)

def isFilling (p : StreamPool) (i : ℕ) : Prop :=
  ∃ b : MpiBuffer, p.buffers[i]? = some b ∧ b.status = .fillingUp

theorem size_eq_filling (howned : Owned ctx p) (hheld : p.Held) [DecidablePred p.isFilling] :
    p.streams.size = ((Finset.range p.buffers.length).filter p.isFilling).card := by
  rw [OrderedMap.size_eq_card]
  apply Finset.card_bij fun dest _ => ((p.streams.find? dest).map MpiOutputStream.buffer).getD 0
  · intro dest hdest
    obtain ⟨strm, hstrm⟩ := OrderedMap.mem_keys.mp hdest
    obtain ⟨b, hb, hfilling, -⟩ := howned.filling dest strm hstrm
    rw [hstrm, Option.map_some, Option.getD_some, Finset.mem_filter, Finset.mem_range]
    exact ⟨(List.getElem?_eq_some_iff.mp hb).1, b, hb, hfilling⟩
  · intro dest hdest dest' hdest' heq
    obtain ⟨strm, hstrm⟩ := OrderedMap.mem_keys.mp hdest
    obtain ⟨strm', hstrm'⟩ := OrderedMap.mem_keys.mp hdest'
    rw [hstrm, hstrm', Option.map_some, Option.map_some, Option.getD_some,
      Option.getD_some] at heq
    exact howned.unshared dest dest' strm strm' hstrm hstrm' heq
  · intro i hi
    rw [Finset.mem_filter, Finset.mem_range] at hi
    obtain ⟨-, b, hb, hfilling⟩ := hi
    obtain ⟨dest, strm, hstrm, hbuffer⟩ := hheld.filling i b hb hfilling
    refine ⟨dest, OrderedMap.mem_keys.mpr ⟨strm, hstrm⟩, ?_⟩
    rw [hstrm, Option.map_some, Option.getD_some, hbuffer]

theorem size_le (howned : Owned ctx p) (hheld : p.Held) :
    p.streams.size ≤ p.buffers.length := by
  classical
  rw [size_eq_filling howned hheld]
  exact (Finset.card_filter_le _ _).trans_eq (Finset.card_range _)

/-- A pool with fewer streams than buffers has a buffer that nobody fills, and only such a pool. -/
theorem size_lt_iff (howned : Owned ctx p) (hheld : p.Held) :
    p.streams.size < p.buffers.length ↔ ∃ i < p.buffers.length, ¬p.isFilling i := by
  classical
  have hle := size_le howned hheld
  have hall : p.streams.size = p.buffers.length ↔ ∀ i < p.buffers.length, p.isFilling i := by
    have hcard := Finset.card_filter_eq_iff (s := Finset.range p.buffers.length)
      (p := p.isFilling)
    rw [Finset.card_range] at hcard
    rw [size_eq_filling howned hheld, hcard]
    simp only [Finset.mem_range]
  rw [lt_iff_le_and_ne, and_iff_right hle, ne_eq, hall]
  simp only [not_forall, exists_prop]

theorem step_filled {event : Event} (hevent : event.whileWaiting = true)
    (hfilled : ∀ i < p.buffers.length, p.isFilling i) (hwaiting : p.acquiring.isSome) :
    (∀ i < (step ctx p event).buffers.length, (step ctx p event).isFilling i) ∧
      (step ctx p event).acquiring.isSome := by
  cases event with
  | bufferedSend msg draw => cases hevent
  | sendBuffer dest => cases hevent
  | poll exchanged =>
    change (∀ i < (p.poll ctx exchanged).buffers.length, (p.poll ctx exchanged).isFilling i) ∧
      (p.poll ctx exchanged).acquiring.isSome
    unfold StreamPool.poll
    split
    · exact ⟨hfilled, hwaiting⟩
    · next msg i hacquiring =>
      split
      · exact ⟨hfilled, rfl⟩
      · next b hb =>
        obtain ⟨b', hb', hfilling⟩ := hfilled i (List.getElem?_eq_some_iff.mp hb).1
        rw [hb] at hb'
        cases hb'
        rw [if_neg (by rw [acquires, hfilling]; exact Bool.false_ne_true)]
        exact ⟨hfilled, rfl⟩
  | complete k =>
    change (∀ i < (p.complete k).buffers.length, (p.complete k).isFilling i) ∧
      (p.complete k).acquiring.isSome
    unfold StreamPool.complete
    split
    · exact ⟨hfilled, hwaiting⟩
    · split
      · exact ⟨hfilled, hwaiting⟩
      · exact ⟨hfilled, hwaiting⟩

theorem not_canEnd_of_filled (hfilled : ∀ i < p.buffers.length, p.isFilling i)
    (hwaiting : p.acquiring.isSome) : ¬p.CanEnd ctx := by
  rintro ⟨events, hevents, hend⟩
  induction events generalizing p with
  | nil =>
    rw [show p.acquiring = none from hend] at hwaiting
    cases hwaiting
  | cons event events ih =>
    rw [List.forall_mem_cons] at hevents
    obtain ⟨hfilled', hwaiting'⟩ := step_filled hevents.1 hfilled hwaiting
    exact ih hfilled' hwaiting' hevents.2 hend

theorem CanEnd.of_step (event : Event) (hevent : event.whileWaiting = true)
    (h : (step ctx p event).CanEnd ctx) : p.CanEnd ctx := by
  obtain ⟨events, hevents, hend⟩ := h
  exact ⟨event :: events, List.forall_mem_cons.mpr ⟨hevent, hevents⟩, hend⟩

theorem poll_false {msg : Message} {i : ℕ} (hacquiring : p.acquiring = some (msg, i))
    (hi : i < p.buffers.length) : p.poll ctx false = { p with acquiring := some (msg, i + 1) } := by
  have hrefused : ∀ b, p.acquires b false = false := by
    intro b
    rw [acquires]
    cases b.status with
    | available => rfl
    | fillingUp => rfl
    | transmitting => simp only [Bool.and_false, Bool.false_and]
  rw [StreamPool.poll, hacquiring]
  simp only [List.getElem?_eq_getElem hi, hrefused, Bool.false_eq_true, if_false]

theorem canEnd_of_acquires {msg : Message} {i j : ℕ} {b : MpiBuffer} (hle : j ≤ i)
    (hacquiring : p.acquiring = some (msg, j)) (hb : p.buffers[i]? = some b)
    (hacquires : p.acquires b true = true) : p.CanEnd ctx := by
  have hi := (List.getElem?_eq_some_iff.mp hb).1
  obtain ⟨n, rfl⟩ := Nat.exists_eq_add_of_le hle
  induction n generalizing p j with
  | zero =>
    apply CanEnd.of_step (.poll true) rfl
    refine ⟨[], by simp, ?_⟩
    change (p.poll ctx true).acquiring = none
    rw [Nat.add_zero] at hb
    rw [StreamPool.poll, hacquiring]
    simp only [hb, hacquires, if_true]
    rfl
  | succ n ih =>
    apply CanEnd.of_step (.poll false) rfl
    change (p.poll ctx false).CanEnd ctx
    rw [poll_false hacquiring (by omega)]
    have hnext : j + (n + 1) = j + 1 + n := by omega
    rw [hnext] at hb hi
    exact ih rfl hacquires (Nat.le_add_right _ _) hb hi

theorem acquires_complete (hheld : p.Held) {i : ℕ} {b : MpiBuffer}
    (hb : p.buffers[i]? = some b) (htransmitting : b.status = .transmitting) :
    ∃ k, (p.complete k).buffers = p.buffers ∧ (p.complete k).acquiring = p.acquiring ∧
      (p.complete k).acquires b true = true := by
  obtain ⟨k, s, hrequest, hs, hbuffer⟩ := hheld.transmitting i b hb htransmitting
  refine ⟨k, ?_⟩
  have hfinished : ∀ q : StreamPool, (q.sends[k]?.bind Send.arrived).isSome →
      q.acquires b true = true := by
    intro q hq
    have htest : q.test b = true := by
      rw [test, hrequest]
      exact hq
    rw [acquires, htransmitting]
    simp only [htest, Bool.and_self]
  rw [StreamPool.complete, hs]
  simp only
  cases harrived : s.arrived with
  | none =>
    rw [hbuffer, hb]
    refine ⟨rfl, rfl, hfinished _ ?_⟩
    simp only
    rw [List.getElem?_set_self (List.getElem?_eq_some_iff.mp hs).1]
    rfl
  | some bytes =>
    refine ⟨rfl, rfl, hfinished p ?_⟩
    rw [hs, Option.bind_some, harrived]
    rfl

theorem canEnd_of_free (hheld : p.Held) {msg : Message}
    (hacquiring : p.acquiring = some (msg, 0)) {i : ℕ} (hi : i < p.buffers.length)
    (hfree : ¬p.isFilling i) : p.CanEnd ctx := by
  have hb := List.getElem?_eq_getElem hi
  cases hstatus : p.buffers[i].status with
  | fillingUp => exact absurd ⟨_, hb, hstatus⟩ hfree
  | available =>
    apply canEnd_of_acquires (Nat.zero_le i) hacquiring hb
    rw [acquires, hstatus]
  | transmitting =>
    obtain ⟨k, hbuffers, hsame, hacquires⟩ := acquires_complete hheld hb hstatus
    apply CanEnd.of_step (.complete k) rfl
    exact canEnd_of_acquires (Nat.zero_le i) (hsame.trans hacquiring)
      ((congrArg (·[i]?) hbuffers).trans hb) hacquires

theorem filled_of_allHeld (howned : Owned ctx p) (h : p.AllHeld) :
    ∀ i < p.buffers.length, p.isFilling i := by
  intro i hi
  obtain ⟨dest, strm, hstrm, rfl⟩ := h i hi
  obtain ⟨b, hb, hfilling, -⟩ := howned.filling dest strm hstrm
  exact ⟨b, hb, hfilling⟩

/-- In every state that calls and sends lead to, a request for a stream is answered as it should
be exactly when fewer streams are open than there are buffers. -/
theorem exhaustion_reported_iff (ctx : StreamContext) (contents : List (List UInt8))
    (events : List Event) (msg : Message) :
    ExhaustionReported ctx (run ctx (makeBuffers contents) events) msg ↔
      (run ctx (makeBuffers contents) events).streams.size <
        (run ctx (makeBuffers contents) events).buffers.length := by
  have howned := (makeBuffers_owned ctx contents).run events
  have hheld := (makeBuffers_held contents).run (makeBuffers_owned ctx contents) events
  generalize run ctx (makeBuffers contents) events = p at howned hheld ⊢
  -- no more streams than buffers: the comparison never finds too few
  have hnew : p.createNewStream msg = .ok { p with acquiring := some (msg, 0) } := by
    rw [StreamPool.createNewStream, if_neg (Nat.not_lt.mpr (size_le howned hheld))]
  rw [size_lt_iff howned hheld]
  constructor
  · intro hreported
    obtain ⟨⟨b, hb, hstatus⟩, -⟩ := hreported.ends _ hnew
    obtain ⟨i, hi⟩ := List.getElem?_of_mem hb
    refine ⟨i, (List.getElem?_eq_some_iff.mp hi).1, ?_⟩
    rintro ⟨b', hb', hfilling⟩
    rw [hi] at hb'
    cases hb'
    rw [hfilling] at hstatus
    rcases hstatus with hstatus | hstatus
    · cases hstatus
    · cases hstatus
  · rintro ⟨i, hi, hfree⟩
    constructor
    · intro hall
      exact absurd (filled_of_allHeld howned hall i hi) hfree
    · intro p' hp'
      rw [hnew, Except.ok.injEq] at hp'
      subst hp'
      constructor
      · refine ⟨p.buffers[i], List.getElem_mem hi, ?_⟩
        cases hstatus : p.buffers[i].status with
        | transmitting => exact .inl rfl
        | available => exact .inr rfl
        | fillingUp => exact absurd ⟨_, List.getElem?_eq_getElem hi, hstatus⟩ hfree
      · exact canEnd_of_free (p := { p with acquiring := some (msg, 0) })
          ⟨hheld.filling, hheld.transmitting⟩ rfl hi hfree

def toServer (id : ℕ) : Message where
  header := { tag := .field, source := {}, destination := { group := "multio", id },
              metadata := { bucketCount := 541 } }

def onlyBufferHeld : StreamPool :=
  run default (makeBuffers [[]]) [.bufferedSend (toServer 2) true, .poll true]

/-- The second destination waits for ever. -/
theorem exhausted_pool_waits :
    onlyBufferHeld.AllHeld ∧
      onlyBufferHeld.createNewStream (toServer 3) =
        .ok { onlyBufferHeld with acquiring := some (toServer 3, 0) } ∧
      ¬CanEnd default { onlyBufferHeld with acquiring := some (toServer 3, 0) } ∧
      ¬ExhaustionReported default onlyBufferHeld (toServer 3) := by
  have hnew : onlyBufferHeld.createNewStream (toServer 3) =
      .ok { onlyBufferHeld with acquiring := some (toServer 3, 0) } := rfl
  have hwaits : ¬CanEnd default { onlyBufferHeld with acquiring := some (toServer 3, 0) } := by
    apply not_canEnd_of_filled
    · intro i hi
      obtain rfl : i = 0 := Nat.lt_one_iff.mp hi
      exact ⟨_, rfl, rfl⟩
    · rfl
  refine ⟨?_, hnew, hwaits, ?_⟩
  · intro i hi
    obtain rfl : i = 0 := Nat.lt_one_iff.mp hi
    exact ⟨{ group := "multio", id := 2 }, _, rfl, rfl⟩
  · intro hreported
    exact hwaits (hreported.ends _ hnew).2

end StreamPool
end Multio.Transport
