import Multio.Transport.MpiTransport

namespace Multio.Transport
open Exception Lib

theorem WireContext.decode_length {w : WireContext} {bytes rest : List UInt8} {m : Message}
    (h : w.decode bytes = .ok (m, rest)) : rest.length < bytes.length := by
  unfold WireContext.decode at h
  obtain ⟨⟨items, rest'⟩, hread, h⟩ := bind_eq_ok_iff.mp h
  obtain ⟨⟨m', more⟩, -, h⟩ := bind_eq_ok_iff.mp h
  obtain ⟨-, rfl⟩ := Prod.mk.inj (Except.ok.inj h)
  have hle := ItemStream.readItems_length hread
  omega

namespace MpiServer

variable {w : WireContext} {s : MpiServer} {past : List Message} {groups : List (List Message)}

/-- How many steps a server can still take with what it has received. -/
def load (s : MpiServer) : ℕ :=
  (s.listening.map fun r => 4 + 2 * r.size).getD 0 +
    (s.streamQueue.map fun r => 3 + 2 * r.size).sum +
    (s.decoding.map fun d => 2 + 2 * (d.1.size - d.2)).getD 0 + s.msgPack.length +
    if s.exception = none then 1 else 0

theorem push_load (s : MpiServer) : s.push = s ∧ (s.streamQueue = [] → s.listening = none) ∨
    s.push.load < s.load := by
  unfold MpiServer.push
  split
  · next r hr =>
    split_ifs with hroom
    · right
      simp only [load, hr, Option.map_none, Option.getD_none, Option.map_some, Option.getD_some,
        List.map_append, List.sum_append, List.map_singleton, List.sum_singleton]
      omega
    · refine Or.inl ⟨rfl, fun hempty => ?_⟩
      rw [hempty] at hroom
      exact absurd (by decide) hroom
  · next hnone => exact Or.inl ⟨rfl, fun _ => hnone⟩

theorem receive_load (hs : s.Holds w past groups) (hexception : s.exception = none) :
    s.receive w = s ∧ s.decoding = none ∧ s.streamQueue = [] ∧ s.msgPack = [] ∨
      (s.receive w).load < s.load := by
  unfold MpiServer.receive
  -- reading on, giving out and opening a buffer each use up some of the load
  split
  · next r position hr =>
    right
    obtain ⟨g, gs, -, ⟨b', hb', -⟩, -⟩ := hs.decoding hr
    split
    · next b hb =>
      split_ifs with hposition
      · split
        · next msg rest hdecode =>
          have hlength := WireContext.decode_length hdecode
          rw [List.length_drop] at hlength
          simp only [load, hr, Option.map_some, Option.getD_some, List.length_append,
            List.length_singleton]
          omega
        · simp only [load, hexception, if_true, reduceCtorEq, if_false]
          omega
      · simp only [load, hr, setBuffer, Option.map_some, Option.getD_some, Option.map_none,
          Option.getD_none]
        omega
    · next hnone =>
      rw [hnone] at hb'
      cases hb'
  · next hnone =>
    split
    · next msg msgs hmsgs =>
      right
      simp only [load, hmsgs, List.length_cons]
      omega
    · next r rs hmsgs hqueue =>
      right
      simp only [load, hnone, hqueue, Option.map_none, Option.getD_none, Option.map_some,
        Option.getD_some, List.map_cons, List.sum_cons]
      omega
    · next hmsgs hqueue => exact Or.inl ⟨rfl, hnone, hqueue, hmsgs⟩

theorem listen_load (hexception : s.exception = none) (c : Peer) (i : ℕ) (sent : List UInt8) :
    s.listen c i sent = s ∨ ∃ arrived, (s.listen c i sent).arrivals = s.arrivals ++ arrived ∧
      (s.listen c i sent).load + 1 ≤ s.load + (arrived.map fun a => 5 + 2 * a.2.length).sum := by
  obtain hsame | ⟨b, hnone, -, -, ⟨-, e, herror⟩ | ⟨-, hok⟩⟩ := listen_cases s c i sent
  · exact Or.inl hsame
  · right
    refine ⟨[], ?_, ?_⟩
    · rw [herror]
      exact (List.append_nil _).symm
    · rw [herror]
      simp only [load, setBuffer, hexception, if_true, reduceCtorEq, if_false]
      omega
  · right
    refine ⟨[(c, sent)], ?_, ?_⟩
    · rw [hok]
    · rw [hok]
      simp only [load, setBuffer, hnone, Option.map_none, Option.getD_none, Option.map_some,
        Option.getD_some, List.map_singleton, List.sum_singleton]
      omega

theorem listen_ne (hs : s.Holds w past groups) (hexception : s.exception = none)
    (hheld : s.held = []) (hpool : s.pool.buffers ≠ []) (c : Peer) (sent : List UInt8) :
    s.listen c 0 sent ≠ s := by
  obtain ⟨b, buffers, hbuffers⟩ := List.exists_cons_of_ne_nil hpool
  have hb : s.pool.buffers[0]? = some b := by rw [hbuffers]; rfl
  have hnone : s.listening = none := by
    unfold MpiServer.held at hheld
    cases hlistening : s.listening with
    | none => rfl
    | some r => simp [hlistening] at hheld
  have hfree : s.pool.acquires b true = true :=
    (acquires_iff hexception hs hb).mpr (by rw [hheld]; exact List.not_mem_nil)
  intro hsame
  unfold MpiServer.listen at hsame
  rw [hnone, hb] at hsame
  simp only [hfree, if_true] at hsame
  split at hsame
  · have harrivals := congrArg (fun s => s.arrivals.length) hsame
    simp at harrivals
  · have hexception' := congrArg MpiServer.exception hsame
    rw [hexception] at hexception'
    cases hexception'

end MpiServer

namespace MpiSystem

variable {w : WireContext} {sys : MpiSystem} {q : Peer}

def Event.server : Event → Option Peer
  | .client _ _ => none
  | .listen q _ _ => some q
  | .push q => some q
  | .receive q => some q

def Busy (w : WireContext) (q : Peer) : MpiSystem → List Event → Prop
  | _, [] => True
  | sys, e :: es => e.server = some q ∧ sys.step w e ≠ sys ∧ Busy w q (sys.step w e) es

def AtRest (w : WireContext) (sys : MpiSystem) (q : Peer) : Prop :=
  ∀ e : Event, e.server = some q → sys.step w e = sys

theorem serve_of_eq {f : MpiServer → MpiServer} (h : f (sys.servers q) = sys.servers q) :
    sys.serve q f = sys := by
  unfold MpiSystem.serve
  split_ifs
  · rfl
  · rw [h, Function.update_eq_self]

theorem servers_serve {f : MpiServer → MpiServer} (hexception : (sys.servers q).exception = none) :
    (sys.serve q f).servers q = f (sys.servers q) := by
  unfold MpiSystem.serve
  rw [if_neg (by rw [hexception]; exact Bool.false_ne_true)]
  exact Function.update_self ..

theorem serve_of_isSome {f : MpiServer → MpiServer}
    (hexception : (sys.servers q).exception.isSome = true) : sys.serve q f = sys :=
  if_pos hexception

/-- A step that changes something lowers the load, by what has not just been received. -/
theorem Inv.step_load (h : sys.Inv w) {e : Event} (he : e.server = some q)
    (hne : sys.step w e ≠ sys) : ∃ arrived,
      ((sys.step w e).servers q).arrivals = (sys.servers q).arrivals ++ arrived ∧
      ((sys.step w e).servers q).load + 1 ≤
        (sys.servers q).load + (arrived.map fun a => 5 + 2 * a.2.length).sum := by
  -- a step of one thread changes the server only
  have hserve : ∀ f : MpiServer → MpiServer, sys.step w e = sys.serve q f →
      ((sys.servers q).exception = none → f (sys.servers q) = sys.servers q ∨ ∃ arrived,
        (f (sys.servers q)).arrivals = (sys.servers q).arrivals ++ arrived ∧
        (f (sys.servers q)).load + 1 ≤
          (sys.servers q).load + (arrived.map fun a => 5 + 2 * a.2.length).sum) →
      ∃ arrived, ((sys.step w e).servers q).arrivals = (sys.servers q).arrivals ++ arrived ∧
        ((sys.step w e).servers q).load + 1 ≤
          (sys.servers q).load + (arrived.map fun a => 5 + 2 * a.2.length).sum := by
    intro f hf hload
    rw [hf] at hne ⊢
    have hexception : (sys.servers q).exception = none :=
      Option.not_isSome_iff_eq_none.mp fun hsome => hne (serve_of_isSome hsome)
    rw [servers_serve hexception]
    obtain hsame | hchanged := hload hexception
    · exact absurd (serve_of_eq hsame) hne
    · exact hchanged
  obtain ⟨past, groups, hholds⟩ := h.holds q
  cases e with
  | client c event => cases he
  | listen q' c i =>
    obtain rfl := Option.some.inj he
    cases hhead : (sys.inFlight w c q').head? with
    | none =>
      rw [MpiSystem.step, hhead] at hne
      exact absurd rfl hne
    | some x =>
      obtain ⟨bytes, arrived⟩ := x
      cases arrived with
      | none =>
        rw [MpiSystem.step, hhead] at hne
        exact absurd rfl hne
      | some sent =>
        refine hserve (fun s => s.listen c i sent) (by rw [MpiSystem.step, hhead]) fun hnone => ?_
        exact MpiServer.listen_load hnone c i sent
  | push q' =>
    obtain rfl := Option.some.inj he
    refine hserve MpiServer.push rfl fun hnone => ?_
    obtain ⟨hsame, -⟩ | hload := MpiServer.push_load (sys.servers q')
    · exact Or.inl hsame
    · refine Or.inr ⟨[], ?_, ?_⟩
      · rw [MpiServer.push_arrivals, List.append_nil]
      · rw [List.map_nil, List.sum_nil, Nat.add_zero]
        exact hload
  | receive q' =>
    obtain rfl := Option.some.inj he
    refine hserve (fun s => s.receive w) rfl fun hnone => ?_
    obtain ⟨hsame, -⟩ | hload := MpiServer.receive_load hholds hnone
    · exact Or.inl hsame
    · refine Or.inr ⟨[], ?_, ?_⟩
      · rw [MpiServer.receive_arrivals, List.append_nil]
      · rw [List.map_nil, List.sum_nil, Nat.add_zero]
        exact hload

/-- What a server can do is bounded by its load and by what it receives. -/
theorem Inv.busy_length (h : sys.Inv w) {steps : List Event} (hbusy : Busy w q sys steps) :
    ∃ arrived, ((sys.run w steps).servers q).arrivals = (sys.servers q).arrivals ++ arrived ∧
      steps.length ≤ (sys.servers q).load + (arrived.map fun a => 5 + 2 * a.2.length).sum := by
  induction steps generalizing sys with
  | nil => exact ⟨[], (List.append_nil _).symm, Nat.zero_le _⟩
  | cons e steps ih =>
    obtain ⟨he, hne, hbusy⟩ := hbusy
    obtain ⟨first, hfirst, hload⟩ := h.step_load he hne
    have hserver : ∀ c msg draw, e = .client c (.bufferedSend msg draw) → w.Fits msg := by
      intro c msg draw hcall
      rw [hcall] at he
      cases he
    obtain ⟨rest, hrest, hlength⟩ := ih (h.step hserver) hbusy
    refine ⟨first ++ rest, ?_, ?_⟩
    · rw [← List.append_assoc, ← hfirst]
      exact hrest
    · rw [List.map_append, List.sum_append, List.length_cons]
      omega

/-- A server at rest holds nothing, and nothing that could be received is on its way. -/
theorem Inv.at_rest (h : sys.Inv w) (hrest : AtRest w sys q)
    (hexception : (sys.servers q).exception = none) :
    (sys.servers q).held = [] ∧ (sys.servers q).msgPack = [] ∧
      ((sys.servers q).pool.buffers ≠ [] → ∀ c, ∀ x ∈ (sys.inFlight w c q).head?, x.2 = none) := by
  obtain ⟨past, groups, hholds⟩ := h.holds q
  have hfixed : ∀ f : MpiServer → MpiServer, sys.serve q f = sys →
      f (sys.servers q) = sys.servers q := fun f hf => by
    have hserve := servers_serve (f := f) hexception
    rw [hf] at hserve
    exact hserve.symm
  have hpush := hfixed MpiServer.push (hrest (.push q) rfl)
  have hreceive := hfixed (fun s => s.receive w) (hrest (.receive q) rfl)
  obtain ⟨-, hdecoding, hqueue, hmsgs⟩ | hload := MpiServer.receive_load hholds hexception
  · obtain ⟨-, hlistening⟩ | hload := MpiServer.push_load (sys.servers q)
    · have hheld : (sys.servers q).held = [] := by
        unfold MpiServer.held
        rw [hdecoding, hqueue, hlistening hqueue]
        rfl
      refine ⟨hheld, hmsgs, fun hpool c x hx => ?_⟩
      obtain ⟨bytes, arrived⟩ := x
      cases arrived with
      | none => rfl
      | some sent =>
        have hstep := hrest (.listen q c 0) rfl
        rw [MpiSystem.step, Option.mem_def.mp hx] at hstep
        exact absurd (hfixed _ hstep) (MpiServer.listen_ne hholds hexception hheld hpool c sent)
    · rw [hpush] at hload
      exact absurd hload (lt_irrefl _)
  · rw [hreceive] at hload
    exact absurd hload (lt_irrefl _)

end MpiSystem

namespace MpiServer

variable {w : WireContext} {s : MpiServer} {past : List Message} {groups : List (List Message)}

theorem push_exception (s : MpiServer) : s.push.exception = s.exception := by
  unfold MpiServer.push
  split
  · split_ifs
    · rfl
    · rfl
  · rfl

theorem exists_of_listen_exception (hbefore : s.exception = none) {c : Peer} {i : ℕ}
    {sent : List UInt8} (hafter : (s.listen c i sent).exception ≠ none) :
    ∃ b ∈ (s.listen c i sent).pool.buffers, b.content.length ≤ sent.length := by
  obtain hsame | ⟨b, -, hb, -, ⟨hsize, e, herror⟩ | ⟨-, hok⟩⟩ := listen_cases s c i sent
  · rw [hsame] at hafter
    exact absurd hbefore hafter
  · rw [herror]
    exact ⟨_, List.mem_set (List.getElem?_eq_some_iff.mp hb).1 _, hsize⟩
  · rw [hok] at hafter
    exact absurd hbefore hafter

theorem exists_of_receive_exception (hs : s.Holds w past groups) (hbefore : s.exception = none)
    (hafter : (s.receive w).exception ≠ none) :
    ∃ m ∈ groups.flatten, ∃ e, w.arriving m = .error e := by
  unfold MpiServer.receive at hafter
  split at hafter
  · next r position hr =>
    obtain ⟨g, gs, rfl, hhead, -⟩ := hs.decoding hr
    split at hafter
    · next b hb =>
      split_ifs at hafter with hposition
      · obtain ⟨m, ms, rfl⟩ := hhead.eq_cons hposition
        have hm := hs.fits m (List.mem_append_right _ (List.mem_append_left _ List.mem_cons_self))
        obtain ⟨rest, hdecode, -⟩ := decode_of_contains hm hb hhead
        rw [hdecode] at hafter
        cases harriving : w.arriving m with
        | error e => exact ⟨m, List.mem_flatten_of_mem List.mem_cons_self List.mem_cons_self, e,
            harriving⟩
        | ok m' =>
          rw [harriving] at hafter
          exact absurd hbefore hafter
      · exact absurd hbefore hafter
    · exact absurd hbefore hafter
  · split at hafter
    · exact absurd hbefore hafter
    · exact absurd hbefore hafter
    · exact absurd hbefore hafter

end MpiServer

namespace MpiSystem

variable {w : WireContext} {sys : MpiSystem} {q : Peer}

/-- A client has sent a buffer that is as long as one of the server's, or a message that cannot be
read. -/
def Refusal (w : WireContext) (sys : MpiSystem) (q : Peer) : Prop :=
  (∃ c, ∃ bytes ∈ ((sys.clients c).posted w q).map Prod.fst,
    ∃ b ∈ (sys.servers q).pool.buffers, b.content.length ≤ bytes.length) ∨
  ∃ c, ∃ m ∈ sys.sentTo c q, ∃ e, w.arriving m = .error e

theorem Refusal.client (h : sys.Refusal w q) (c : Peer) (event : StreamPool.Event) :
    (sys.step w (.client c event)).Refusal w q := by
  obtain ⟨c', bytes, hbytes, hb⟩ | ⟨c', m, hm, he⟩ := h
  · refine Or.inl ⟨c', bytes, ?_, hb⟩
    by_cases hc : c' = c
    · rw [hc, step]
      simp only [Function.update_self]
      rw [hc] at hbytes
      rw [MpiClient.map_fst_posted] at hbytes ⊢
      exact ((List.prefix_append_right_inj _).mpr
        ((StreamPool.grown_step _ event).dispatched q)).subset hbytes
    · rw [step]
      simp only [Function.update_of_ne hc]
      exact hbytes
  · refine Or.inr ⟨c', m, ?_, he⟩
    by_cases hc : c' = c
    · rw [hc] at hm
      rw [hc, sentTo, step]
      simp only [Function.update_self]
      exact ((List.prefix_append_right_inj _).mpr
        ((StreamPool.grown_step _ event).written.filter _)).subset hm
    · rw [sentTo, step]
      simp only [Function.update_of_ne hc]
      exact hm

theorem Inv.exists_unreadable (h : sys.Inv w) {past : List Message} {groups : List (List Message)}
    (hholds : (sys.servers q).Holds w past groups) {m : Message} (hm : m ∈ groups.flatten)
    {e : Exception} (he : w.arriving m = .error e) :
    ∃ c, ∃ m ∈ sys.sentTo c q, ∃ e, w.arriving m = .error e := by
  obtain ⟨buffers, haccounts⟩ := h.accounts q
  obtain ⟨rest, hgiven, hunread, hfits⟩ := haccounts.given
  have hrest : groups.flatten.map w.arriving = rest.map w.arriving :=
    w.map_arriving_eq (fun m hm => hholds.fits m (List.mem_append_right _ hm)) hfits
      (hholds.unread.trans hunread.symm)
  have hmem : Except.error e ∈ (buffers.flatMap Prod.snd).map w.arriving := by
    rw [← hgiven, ← hrest, ← he]
    exact List.mem_append_right _ (List.mem_map_of_mem hm)
  obtain ⟨m', hm', he'⟩ := List.mem_map.mp hmem
  obtain ⟨b, hb, hmb⟩ := List.mem_flatMap.mp hm'
  obtain ⟨more, hsent, -⟩ := haccounts.sent b.1
  refine ⟨b.1, m', ?_, e, he'⟩
  rw [← hsent]
  exact List.mem_append_left _
    (List.mem_flatMap.mpr ⟨b, List.mem_filter.mpr ⟨hb, decide_eq_true rfl⟩, hmb⟩)

theorem Inv.refusal (h : sys.Inv w) {e : Event} (hbefore : (sys.servers q).exception = none)
    (hafter : ((sys.step w e).servers q).exception ≠ none) : (sys.step w e).Refusal w q := by
  have hserve : ∀ (q' : Peer) (f : MpiServer → MpiServer),
      ((sys.serve q' f).servers q).exception ≠ none →
      q' = q ∧ (f (sys.servers q)).exception ≠ none := by
    intro q' f hf
    by_cases hq : q' = q
    · rw [hq, servers_serve hbefore] at hf
      exact ⟨hq, hf⟩
    · refine absurd ?_ hf
      unfold MpiSystem.serve
      split_ifs
      · exact hbefore
      · simp only [Function.update_of_ne (Ne.symm hq)]
        exact hbefore
  obtain ⟨past, groups, hholds⟩ := h.holds q
  -- only listening and receiving can fail
  cases e with
  | client c event => exact absurd hbefore hafter
  | listen q' c i =>
    rw [MpiSystem.step] at hafter ⊢
    split at hafter
    · next bytes sent hhead =>
      obtain ⟨rfl, hexception⟩ := hserve q' _ hafter
      obtain ⟨b, hb, hlength⟩ := MpiServer.exists_of_listen_exception hbefore hexception
      have hmem : (bytes, some sent) ∈ (sys.clients c).posted w q' :=
        List.mem_of_mem_drop (List.mem_of_mem_head? hhead)
      obtain ⟨hread, -⟩ := MpiClient.posted_spec (h.owned c) (h.fits_written c) hmem
      obtain rfl : sent = bytes := hread sent rfl
      refine Or.inl ⟨c, sent, ?_, b, ?_, hlength⟩
      · rw [show (sys.serve q' _).clients = sys.clients from clients_serve]
        exact List.mem_map_of_mem (f := Prod.fst) hmem
      · simp only [servers_serve hbefore]
        exact hb
    · exact absurd hbefore hafter
  | push q' =>
    obtain ⟨rfl, hexception⟩ := hserve q' _ hafter
    rw [MpiServer.push_exception] at hexception
    exact absurd hbefore hexception
  | receive q' =>
    obtain ⟨rfl, hexception⟩ := hserve q' _ hafter
    obtain ⟨m, hm, e, he⟩ := MpiServer.exists_of_receive_exception hholds hbefore hexception
    obtain ⟨c, m', hm', he'⟩ := h.exists_unreadable hholds hm he
    refine Or.inr ⟨c, m', ?_, he'⟩
    rw [MpiSystem.step, sentTo, clients_serve]
    exact hm'

theorem Refusal.server (h : sys.Refusal w q) {e : Event}
    (hexception : (sys.servers q).exception.isSome = true) (hclient : e.server ≠ none) :
    (sys.step w e).Refusal w q := by
  have hserve : ∀ (q' : Peer) (f : MpiServer → MpiServer), (sys.serve q' f).Refusal w q := by
    intro q' f
    have hsame : (sys.serve q' f).servers q = sys.servers q := by
      by_cases hq : q' = q
      · rw [hq, serve_of_isSome hexception]
      · unfold MpiSystem.serve
        split_ifs
        · rfl
        · exact Function.update_of_ne (Ne.symm hq) ..
    unfold Refusal sentTo
    rw [hsame, clients_serve]
    exact h
  cases e with
  | client c event => exact absurd rfl hclient
  | listen q' c i =>
    rw [MpiSystem.step]
    split
    · exact hserve q' _
    · exact h
  | push q' => exact hserve q' _
  | receive q' => exact hserve q' _

theorem Inv.run_refusal (h : sys.Inv w) {events : List Event}
    (hevents : ∀ c msg draw, .client c (.bufferedSend msg draw) ∈ events → w.Fits msg)
    (hbefore : (sys.servers q).exception ≠ none → sys.Refusal w q)
    (hafter : ((sys.run w events).servers q).exception ≠ none) :
    (sys.run w events).Refusal w q := by
  induction events generalizing sys with
  | nil => exact hbefore hafter
  | cons e events ih =>
    have hstep : (sys.step w e).Inv w :=
      h.step fun c msg draw hcall => hevents c msg draw (hcall ▸ List.mem_cons_self)
    refine ih hstep (fun c msg draw hmem => hevents c msg draw (List.mem_cons_of_mem _ hmem))
      (fun hstep => ?_) hafter
    by_cases hnone : (sys.servers q).exception = none
    · exact h.refusal hnone hstep
    · by_cases hclient : e.server = none
      · cases e with
        | client c event => exact (hbefore hnone).client c event
        | listen q' c i => cases hclient
        | push q' => cases hclient
        | receive q' => cases hclient
      · exact (hbefore hnone).server (Option.isSome_iff_ne_none.mpr hnone) hclient

theorem Inv.given_all (h : sys.Inv w) (hrest : AtRest w sys q)
    (hexception : (sys.servers q).exception = none) {buffers : List (Peer × List Message)}
    (haccounts : sys.Accounts w q buffers) :
    (sys.servers q).received.map .ok = (buffers.flatMap Prod.snd).map w.arriving := by
  obtain ⟨hheld, hmsgs, -⟩ := h.at_rest hrest hexception
  obtain ⟨rest, hgiven, hunread, hfits⟩ := haccounts.given
  have hnil : rest = [] := by
    unfold MpiServer.unread at hunread
    rw [hheld, List.flatMap_nil, List.flatMap_eq_nil_iff] at hunread
    exact List.eq_nil_iff_forall_not_mem.mpr fun m hm => w.encode_ne_nil (hfits m hm) (hunread m hm)
  rw [hnil, hmsgs, List.map_nil, List.append_nil, List.append_nil] at hgiven
  exact hgiven

/-- A server takes a bounded number of steps for what it receives. When it comes to rest, it has
given out all that has reached it, unless it has stopped, for which there is a reason. -/
structure ComesToRest (w : WireContext) (sys : MpiSystem) (q : Peer) : Prop where
  bounded : ∀ steps, Busy w q sys steps → ∃ arrived,
    ((sys.run w steps).servers q).arrivals = (sys.servers q).arrivals ++ arrived ∧
    steps.length ≤ (sys.servers q).load + (arrived.map fun a => 5 + 2 * a.2.length).sum
  complete : AtRest w sys q → (sys.servers q).exception = none → ∃ buffers,
    sys.Accounts w q buffers ∧
    (sys.servers q).received.map .ok = (buffers.flatMap Prod.snd).map w.arriving ∧
    ((sys.servers q).pool.buffers ≠ [] → ∀ c, ∀ x ∈ (sys.inFlight w c q).head?, x.2 = none)
  stopped : (sys.servers q).exception ≠ none → sys.Refusal w q

theorem comes_to_rest (w : WireContext) {opened : Peer → List Message}
    (clients servers : Peer → List (List UInt8)) {events : List Event}
    (hfits : AllFit w opened events) (q : Peer) :
    ComesToRest w ((start opened clients servers).run w events) q ∧
      ∀ c, Written ((start opened clients servers).run w events) c q
        (opened c ++ StreamPool.accepted w.streams (makeBuffers (clients c)) (calls c events)) := by
  have hstart := start_inv hfits.1 clients servers
  have h := hstart.run hfits.2
  refine ⟨⟨fun steps hbusy => h.busy_length hbusy, fun hrest hexception => ?_, fun hafter => ?_⟩,
    fun c => run_written w opened clients servers events c q⟩
  · obtain ⟨-, -, hwaiting⟩ := h.at_rest hrest hexception
    obtain ⟨buffers, haccounts⟩ := h.accounts q
    exact ⟨buffers, haccounts, h.given_all hrest hexception haccounts, hwaiting⟩
  · exact hstart.run_refusal hfits.2 (fun hno => absurd rfl hno) hafter

/-- The server has given out both messages. -/
theorem comes_to_rest_scale :
    ((scaleStart.run scaleWire scaleEvents).servers scaleMessage.destination).received.length = 2 ∧
      ((scaleStart.run scaleWire scaleEvents).servers scaleMessage.destination).exception = none ∧
      ComesToRest scaleWire (scaleStart.run scaleWire scaleEvents) scaleMessage.destination := by
  refine ⟨by decide +kernel, by decide +kernel, ?_⟩
  exact (comes_to_rest scaleWire (fun _ => [List.replicate 200 0])
    (fun _ => [List.replicate 200 0]) scaleWire_fits scaleMessage.destination).1

end MpiSystem
end Multio.Transport
