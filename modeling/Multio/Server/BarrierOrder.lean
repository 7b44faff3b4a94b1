import Multio.Server.Barrier

namespace Multio.Server.Barrier
open Exception Lib

def requests (ms : List Message) : ℕ := ms.countP IsRequest

theorem requests_append (ms ms' : List Message) :
    requests (ms ++ ms') = requests ms + requests ms' := List.countP_append ..

theorem requests_concat (ms : List Message) (m : Message) :
    requests (ms ++ [m]) = requests ms + if IsRequest m then 1 else 0 := by
  rw [requests_append, requests, requests, List.countP_singleton]

theorem requests_cons_of_request {m : Message} (hm : IsRequest m = true) (ms : List Message) :
    requests (m :: ms) = requests ms + 1 := List.countP_cons_of_pos hm

/-- What a turn of the receive loop does to the count of requests and the queue. -/
theorem receive_cases {ctx : Context} {l l' : Listener} {m : Message}
    (h : l.receive ctx m = .ok l') :
    l'.clientCount = l.clientCount ∧
      ((IsRequest m = false ∧ ¬ IsData m ∧ l'.syncCount = l.syncCount ∧
          l'.msgQueue = l.msgQueue) ∨
        (IsRequest m = false ∧ IsData m ∧ l'.syncCount = l.syncCount ∧
          l'.msgQueue = l.msgQueue ++ [m]) ∨
        (IsRequest m = true ∧ ¬ IsData m ∧ l.syncCount + 1 ≠ l.clientCount ∧
          l'.syncCount = l.syncCount + 1 ∧ l'.msgQueue = l.msgQueue) ∨
        (IsRequest m = true ∧ ¬ IsData m ∧ l.syncCount + 1 = l.clientCount ∧
          l'.syncCount = 0 ∧ l'.msgQueue = l.msgQueue ++ [m])) := by
  unfold Listener.receive at h
  -- only the last request of a round and the data enter the queue
  cases htag : m.tag with
  | «open» =>
    rw [htag] at h
    cases h
    exact ⟨rfl, Or.inl ⟨by simp [IsRequest, htag], by simp [IsData, htag], rfl, rfl⟩⟩
  | close =>
    rw [htag] at h
    simp only at h
    split_ifs at h
    cases h
    exact ⟨rfl, Or.inl ⟨by simp [IsRequest, htag], by simp [IsData, htag], rfl, rfl⟩⟩
  | empty =>
    rw [htag] at h
    obtain ⟨_, -, h⟩ := bind_eq_ok_iff.mp h
    cases h
  | grib =>
    rw [htag] at h
    obtain ⟨_, -, h⟩ := bind_eq_ok_iff.mp h
    cases h
  | synchronization =>
    rw [htag] at h
    obtain ⟨_, -, h⟩ := bind_eq_ok_iff.mp h
    have hrequest : IsRequest m = true := by simp [IsRequest, htag]
    have hdata : ¬ IsData m := by simp [IsData, htag]
    split_ifs at h with hlast
    · cases h
      exact ⟨rfl, Or.inr (Or.inr (Or.inr ⟨hrequest, hdata, hlast, rfl, rfl⟩))⟩
    · cases h
      exact ⟨rfl, Or.inr (Or.inr (Or.inl ⟨hrequest, hdata, hlast, rfl, rfl⟩))⟩
  | _ =>
    rw [htag] at h
    obtain ⟨_, -, h⟩ := bind_eq_ok_iff.mp h
    cases h
    exact ⟨rfl, Or.inr (Or.inl ⟨by simp [IsRequest, htag], by simp [IsData, htag], rfl, rfl⟩)⟩

/-- What holds of a server alone: the requests not counted yet are those of a round that has
begun, and before an entry of a round stands what its clients sent before their requests. -/
structure ServerInv (clients : Finset Peer) (sv : MultioServer) : Prop where
  clientCount : sv.listener.clientCount = clients.card
  source : ∀ m ∈ sv.received, m.source ∈ clients
  count : requests sv.received = sv.listener.syncCount + clients.card * requests sv.queue
  below : clients.Nonempty → sv.listener.syncCount < clients.card
  ahead : ∀ c ∈ clients, requests sv.queue ≤ requests (sv.receivedFrom c)
  data : sv.queue.filter IsData = sv.received.filter IsData
  ordered : ∀ pre m post, sv.queue = pre ++ m :: post → IsRequest m = true → ∀ c ∈ clients,
    ((beforeMark IsRequest (requests pre) (sv.receivedFrom c)).filter IsData).Sublist pre
  handled : sv.handled ≤ sv.queue.length
  calls : sv.calls = (sv.queue.take sv.handled).map handle
  entered : sv.entered = requests (sv.queue.take sv.handled)

namespace ServerInv

variable {clients : Finset Peer} {sv sv' : MultioServer}

theorem init (clients : Finset Peer) :
    ServerInv clients { listener := { clientCount := clients.card } } where
  clientCount := rfl
  source _ h := by cases h
  count := rfl
  below h := h.card_pos
  ahead _ _ := Nat.le_refl 0
  data := rfl
  ordered pre m post h := by
    have hlen := congrArg List.length h
    simp [MultioServer.queue] at hlen
  handled := Nat.le_refl 0
  calls := rfl
  entered := rfl

theorem requests_received (h : ServerInv clients sv) :
    requests sv.received = ∑ c ∈ clients, requests (sv.receivedFrom c) :=
  countP_eq_sum IsRequest h.source

/-- A round has an entry in the queue once the requests of all clients have been received. -/
theorem lt_requests_iff (h : ServerInv clients sv) (hne : clients.Nonempty) (k : ℕ) :
    k < requests sv.queue ↔ ∀ c ∈ clients, k < requests (sv.receivedFrom c) := by
  constructor
  · intro hk c hc
    exact Nat.lt_of_lt_of_le hk (h.ahead c hc)
  · intro hall
    by_contra hk
    have hsum : clients.card * (requests sv.queue + 1) ≤ requests sv.received := by
      rw [h.requests_received]
      exact card_mul_le_sum fun c hc => Nat.lt_of_le_of_lt (not_lt.mp hk) (hall c hc)
    have hbelow := h.below hne
    have hcount := h.count
    rw [Nat.mul_add, Nat.mul_one] at hsum
    omega

theorem receivedFrom_concat (h : sv'.received = sv.received ++ [m]) (c : Peer) :
    sv'.receivedFrom c = sv.receivedFrom c ++ [m].filter fun msg => msg.source = c := by
  rw [MultioServer.receivedFrom, h, List.filter_append]
  rfl

theorem ordered_append (h : ServerInv clients sv) {c : Peer} (hc : c ∈ clients)
    (rest : List Message) {pre post : List Message} {m : Message}
    (hqueue : sv.queue = pre ++ m :: post) (hm : IsRequest m = true) :
    ((beforeMark IsRequest (requests pre) (sv.receivedFrom c ++ rest)).filter IsData).Sublist
      pre := by
  have hlt : requests pre < requests (sv.receivedFrom c) := by
    refine Nat.lt_of_lt_of_le ?_ (h.ahead c hc)
    rw [hqueue, requests_append, requests_cons_of_request hm]
    omega
  rw [beforeMark_append IsRequest hlt]
  exact h.ordered pre m post hqueue hm c hc

theorem source_received (h : ServerInv clients sv) {m : Message}
    (hreceived : sv'.received = sv.received ++ [m]) (hsource : m.source ∈ clients) :
    ∀ x ∈ sv'.received, x.source ∈ clients := by
  rw [hreceived, List.forall_mem_append, List.forall_mem_singleton]
  exact ⟨h.source, hsource⟩

theorem split_of_append {queue entry pre post : List Message} {m x : Message}
    (hentry : entry = [] ∨ entry = [m]) (hsplit : queue ++ entry = pre ++ x :: post) :
    (∃ post', queue = pre ++ x :: post') ∨ pre = queue ∧ x = m := by
  rcases hentry with rfl | rfl
  · exact Or.inl ⟨post, by rw [← hsplit, List.append_nil]⟩
  · rcases List.eq_nil_or_concat post with rfl | ⟨post', y, rfl⟩
    · obtain ⟨hpre, hlast⟩ := List.append_inj' hsplit rfl
      exact Or.inr ⟨hpre.symm, (List.singleton_inj.mp hlast).symm⟩
    · rw [List.concat_eq_append, ← List.cons_append, ← List.append_assoc] at hsplit
      exact Or.inl ⟨post', (List.append_inj' hsplit rfl).1⟩

theorem data_sublist (h : ServerInv clients sv) {m : Message}
    (hreceived : sv'.received = sv.received ++ [m]) (hm : ¬ IsData m) (k : ℕ) (c : Peer) :
    ((beforeMark IsRequest k (sv'.receivedFrom c)).filter IsData).Sublist sv.queue := by
  have hdata : sv'.received.filter IsData = sv.queue.filter IsData := by
    rw [h.data, hreceived, List.filter_append, List.filter_cons_of_neg (by simpa using hm),
      List.filter_nil, List.append_nil]
  have hsub : ((beforeMark IsRequest k (sv'.receivedFrom c)).filter IsData).Sublist
      (sv'.received.filter IsData) :=
    ((prefix_beforeMark IsRequest _ _).sublist.trans List.filter_sublist).filter _
  rw [hdata] at hsub
  exact hsub.trans List.filter_sublist

theorem extend (h : ServerInv clients sv) {m : Message} {entry : List Message}
    (hentry : entry = [] ∧ ¬ IsData m ∨ entry = [m])
    (hreceived : sv'.received = sv.received ++ [m]) (hqueue : sv'.queue = sv.queue ++ entry)
    (hclientCount : sv'.listener.clientCount = clients.card) (hsource : m.source ∈ clients)
    (hcount : requests sv'.received = sv'.listener.syncCount + clients.card * requests sv'.queue)
    (hbelow : clients.Nonempty → sv'.listener.syncCount < clients.card)
    (hahead : ∀ c ∈ clients, requests sv'.queue ≤ requests (sv'.receivedFrom c))
    (hhandled : sv'.handled = sv.handled) (hcalls : sv'.calls = sv.calls)
    (hentered : sv'.entered = sv.entered) : ServerInv clients sv' := by
  have htake : sv'.queue.take sv'.handled = sv.queue.take sv.handled := by
    rw [hqueue, hhandled, List.take_append_of_le_length h.handled]
  have hdata : sv'.queue.filter IsData = sv'.received.filter IsData := by
    rw [hqueue, hreceived, List.filter_append, List.filter_append, h.data]
    rcases hentry with ⟨rfl, hm⟩ | rfl
    · rw [List.filter_cons_of_neg (by simpa using hm)]
    · rfl
  refine ⟨hclientCount, ?_, hcount, hbelow, hahead, hdata, ?_, ?_, ?_, ?_⟩
  · exact h.source_received hreceived hsource
  · intro pre x post hsplit hx c hc
    rw [hqueue] at hsplit
    rcases split_of_append (hentry.imp_left And.left) hsplit with ⟨post', hold⟩ | ⟨rfl, rfl⟩
    · rw [receivedFrom_concat hreceived]
      exact h.ordered_append hc _ hold hx
    · -- the entry of a round: all data received so far stands before it
      have hnotData : ¬ IsData x := by
        unfold IsRequest at hx
        simp [IsData, of_decide_eq_true hx]
      exact h.data_sublist hreceived hnotData _ c
  · rw [hhandled, hqueue, List.length_append]
    exact Nat.le_add_right_of_le h.handled
  · rw [hcalls, htake, h.calls]
  · rw [hentered, htake, h.entered]

theorem receive (h : ServerInv clients sv) {ctx : Context} {m : Message}
    (hreceive : sv.receive ctx m = .ok sv') (hsource : m.source ∈ clients)
    (hroom : ∀ c ∈ clients, requests (sv'.receivedFrom c) ≤ requests sv.queue + 1) :
    ServerInv clients sv' := by
  obtain ⟨l', hl', hsv'⟩ := bind_eq_ok_iff.mp hreceive
  obtain ⟨hclientCount, hcases⟩ := receive_cases hl'
  have hreceived : sv'.received = sv.received ++ [m] := by cases hsv'; rfl
  have hlistener : sv'.listener = l' := by cases hsv'; rfl
  have hrest : sv'.handled = sv.handled ∧ sv'.calls = sv.calls ∧ sv'.entered = sv.entered := by
    cases hsv'
    exact ⟨rfl, rfl, rfl⟩
  rw [← hlistener] at hclientCount hcases
  have hclients := hclientCount.trans h.clientCount
  have hpos := h.below ⟨m.source, hsource⟩
  have hcount := h.count
  have hall : requests sv'.received = requests sv.received + if IsRequest m then 1 else 0 := by
    rw [hreceived, requests_concat]
  have hahead : ∀ c ∈ clients, requests sv.queue ≤ requests (sv'.receivedFrom c) := by
    intro c hc
    rw [receivedFrom_concat hreceived, requests_append]
    exact Nat.le_add_right_of_le (h.ahead c hc)
  -- opened or closed, data, a request that is not the last of its round, and the last one
  rcases hcases with ⟨hm, hdata, hsync, hqueue⟩ | ⟨hm, hdata, hsync, hqueue⟩ |
    ⟨hm, hdata, hlast, hsync, hqueue⟩ | ⟨hm, hdata, hlast, hsync, hqueue⟩
  · have hsame : sv'.queue = sv.queue := hqueue
    refine h.extend (Or.inl ⟨rfl, hdata⟩) hreceived (by rw [hsame, List.append_nil]) hclients
      hsource ?_ ?_ ?_ hrest.1 hrest.2.1 hrest.2.2
    · rw [hall, hm, hsync, hsame, hcount]
      rfl
    · rw [hsync]
      exact fun _ => hpos
    · rw [hsame]
      exact hahead
  · have hmore : sv'.queue = sv.queue ++ [m] := hqueue
    have hsame : requests sv'.queue = requests sv.queue := by
      rw [hmore, requests_concat, hm]
      rfl
    refine h.extend (Or.inr rfl) hreceived hmore hclients hsource ?_ ?_ ?_ hrest.1 hrest.2.1
      hrest.2.2
    · rw [hall, hm, hsync, hsame, hcount]
      rfl
    · rw [hsync]
      exact fun _ => hpos
    · rw [hsame]
      exact hahead
  · have hsame : sv'.queue = sv.queue := hqueue
    refine h.extend (Or.inl ⟨rfl, hdata⟩) hreceived (by rw [hsame, List.append_nil]) hclients
      hsource ?_ ?_ ?_ hrest.1 hrest.2.1 hrest.2.2
    · rw [hall, hm, hsync, hsame, hcount, if_pos rfl]
      omega
    · rw [hsync]
      have hclientCount' := h.clientCount
      omega
    · rw [hsame]
      exact hahead
  · -- the requests of a round are complete, and none of the next round is there yet
    have hmore : sv'.queue = sv.queue ++ [m] := hqueue
    have hround : requests sv'.queue = requests sv.queue + 1 := by
      rw [hmore, requests_concat, hm]
      rfl
    have htotal : requests sv'.received = clients.card * (requests sv.queue + 1) := by
      have hclientCount' := h.clientCount
      rw [hall, hm, hcount, if_pos rfl, Nat.mul_add, Nat.mul_one]
      omega
    refine h.extend (Or.inr rfl) hreceived hmore hclients hsource ?_ ?_ ?_ hrest.1 hrest.2.1
      hrest.2.2
    · rw [htotal, hround, hsync, Nat.zero_add]
    · rw [hsync]
      exact fun _ => Nat.zero_lt_of_lt hpos
    · have hsum := countP_eq_sum IsRequest (h.source_received hreceived hsource)
      have heach := eq_of_sum_eq_card_mul hroom (hsum.symm.trans htotal)
      intro c hc
      rw [hround, heach c hc]

theorem dispatch (h : ServerInv clients sv) : ServerInv clients sv.dispatch := by
  unfold MultioServer.dispatch
  split_ifs
  · exact h
  · split
    · exact h
    · next m hm =>
      obtain ⟨hlt, hget⟩ := List.getElem?_eq_some_iff.mp hm
      have htake : sv.queue.take (sv.handled + 1) = sv.queue.take sv.handled ++ [m] := by
        rw [List.take_succ_eq_append_getElem hlt, hget]
      refine ⟨h.clientCount, h.source, h.count, h.below, h.ahead, h.data, h.ordered, hlt, ?_, ?_⟩
      · exact (congrArg (· ++ [handle m]) h.calls).trans
          ((List.map_append ..).symm.trans (congrArg (List.map handle) htake.symm))
      · refine Eq.trans ?_ (congrArg requests htake.symm)
        rw [requests_concat, ← h.entered]
        split_ifs <;> rfl

theorem entered_le (h : ServerInv clients sv) : sv.entered ≤ requests sv.queue := by
  rw [h.entered]
  exact (List.take_sublist _ _).countP_le

end ServerInv

/-- The requests of a client are one round ahead of the barriers it has left, on the servers to
which it has sent the request of the current round. -/
def PhaseInv (peers : Peers) (cl : MultioClient) : Prop :=
  match cl.phase with
  | .running => cl.entered = cl.left ∧ ∀ s ∈ peers.servers, requests (cl.sent s) = cl.left
  | .requesting rest => cl.entered = cl.left ∧ ∃ done, peers.servers = done ++ rest ∧
      (∀ s ∈ done, requests (cl.sent s) = cl.left + 1) ∧
      ∀ s ∈ rest, requests (cl.sent s) = cl.left
  | .waiting => cl.entered = cl.left + 1 ∧ ∀ s ∈ peers.servers, requests (cl.sent s) = cl.left + 1

theorem PhaseInv.requests_le {peers : Peers} {cl : MultioClient} (h : PhaseInv peers cl) {s : Peer}
    (hs : s ∈ peers.servers) : requests (cl.sent s) ≤ cl.left + 1 := by
  unfold PhaseInv at h
  split at h
  · exact (h.2 s hs).le.trans (Nat.le_succ _)
  · next rest =>
    obtain ⟨-, done, hservers, hdone, hrest⟩ := h
    rw [hservers] at hs
    rcases List.mem_append.mp hs with hs | hs
    · exact (hdone s hs).le
    · exact (hrest s hs).le.trans (Nat.le_succ _)
  · exact (h.2 s hs).le

/-- What is sent and not received yet stays at the end of what is sent. -/
def Sends (cl cl' : MultioClient) : Prop :=
  cl'.left = cl.left ∧ ∀ s ms, cl.sent s = ms ++ cl.inFlight s → cl'.sent s = ms ++ cl'.inFlight s

theorem Sends.refl (cl : MultioClient) : Sends cl cl := ⟨rfl, fun _ _ h => h⟩

theorem sent_put (cl : MultioClient) (s t : Peer) (m : Message) :
    (cl.put t m).sent s = if s = t then cl.sent s ++ [m] else cl.sent s := by
  unfold MultioClient.put
  simp only
  rw [Function.update_apply]
  split_ifs with hst
  · rw [hst]
  · rfl

theorem sends_put (cl : MultioClient) (t : Peer) (m : Message) : Sends cl (cl.put t m) := by
  refine ⟨rfl, fun s ms h => ?_⟩
  rw [sent_put]
  unfold MultioClient.put
  simp only
  rw [Function.update_apply]
  split_ifs with hst
  · rw [h, hst, List.append_assoc]
  · exact h

theorem sends_bufferedSend (cl : MultioClient) (m : Message) : Sends cl (cl.bufferedSend m) := by
  unfold MultioClient.bufferedSend
  split
  · split_ifs
    · exact Sends.refl cl
    · exact sends_put cl _ m
  · exact Sends.refl cl

theorem sends_synchronize (cl : MultioClient) (peers : Peers) :
    Sends cl (cl.synchronize peers) := by
  unfold MultioClient.synchronize
  split
  · exact ⟨rfl, fun _ _ h => h⟩
  · exact Sends.refl cl

theorem sends_sendRequest (cl : MultioClient) (c : Peer) : Sends cl (cl.sendRequest c) := by
  unfold MultioClient.sendRequest
  split
  · exact sends_put cl _ _
  · exact ⟨rfl, fun _ _ h => h⟩
  · exact Sends.refl cl

theorem PhaseInv.bufferedSend {peers : Peers} {cl : MultioClient} (h : PhaseInv peers cl)
    (m : Message) : PhaseInv peers (cl.bufferedSend m) := by
  unfold MultioClient.bufferedSend
  split
  · next hphase =>
    split_ifs with hm
    · exact h
    · unfold PhaseInv at h ⊢
      rw [show (cl.put m.destination m).phase = cl.phase from rfl]
      rw [hphase] at h ⊢
      refine ⟨h.1, fun s hs => ?_⟩
      rw [sent_put]
      split_ifs
      · rw [requests_concat, h.2 s hs, if_neg hm]
        rfl
      · exact h.2 s hs
  · exact h

theorem PhaseInv.synchronize {peers : Peers} {cl : MultioClient} (h : PhaseInv peers cl) :
    PhaseInv peers (cl.synchronize peers) := by
  unfold MultioClient.synchronize
  split
  · next hphase =>
    unfold PhaseInv at h
    rw [hphase] at h
    exact ⟨h.1, [], rfl, fun _ hs => (by cases hs), h.2⟩
  · exact h

theorem PhaseInv.sendRequest {peers : Peers} {cl : MultioClient} (h : PhaseInv peers cl)
    (c : Peer) : PhaseInv peers (cl.sendRequest c) := by
  unfold MultioClient.sendRequest
  split
  · next server rest hphase =>
    unfold PhaseInv at h
    rw [hphase] at h
    obtain ⟨hentered, done, hservers, hdone, hrest⟩ := h
    -- the servers are all different
    have hnodup := peers.nodup
    rw [hservers] at hnodup
    have hdone_ne : ∀ s ∈ done, s ≠ server := by
      rintro s hs rfl
      exact (List.nodup_append.mp hnodup).2.2 s hs s List.mem_cons_self rfl
    have hrest_ne : ∀ s ∈ rest, s ≠ server := by
      rintro s hs rfl
      exact (List.nodup_cons.mp (List.nodup_append.mp hnodup).2.1).1 hs
    refine ⟨hentered, done ++ [server], by rw [hservers, List.append_assoc]; rfl, ?_, ?_⟩
    · intro s hs
      refine (congrArg requests (sent_put cl s server _)).trans ?_
      rcases List.mem_append.mp hs with hs | hs
      · rw [if_neg (hdone_ne s hs)]
        exact hdone s hs
      · rw [if_pos (List.mem_singleton.mp hs), List.mem_singleton.mp hs, requests_concat,
          hrest server List.mem_cons_self]
        rfl
    · intro s hs
      refine (congrArg requests (sent_put cl s server _)).trans ?_
      rw [if_neg (hrest_ne s hs)]
      exact hrest s (List.mem_cons_of_mem _ hs)
  · next hphase =>
    unfold PhaseInv at h
    rw [hphase] at h
    obtain ⟨hentered, done, hservers, hdone, -⟩ := h
    rw [List.append_nil] at hservers
    exact ⟨congrArg (· + 1) hentered, fun s hs => hdone s (hservers ▸ hs)⟩
  · exact h

def Own (c : Peer) (cl : MultioClient) : Prop := ∀ s, ∀ m ∈ cl.sent s, m.source = c

theorem Own.put {c : Peer} {cl : MultioClient} (h : Own c cl) (t : Peer) {m : Message}
    (hm : m.source = c) : Own c (cl.put t m) := by
  intro s x hx
  rw [sent_put] at hx
  split_ifs at hx
  · rcases List.mem_append.mp hx with hx | hx
    · exact h s x hx
    · exact List.mem_singleton.mp hx ▸ hm
  · exact h s x hx

theorem Own.bufferedSend {c : Peer} {cl : MultioClient} (h : Own c cl) {m : Message}
    (hm : m.source = c) : Own c (cl.bufferedSend m) := by
  unfold MultioClient.bufferedSend
  split
  · split_ifs
    · exact h
    · exact h.put _ hm
  · exact h

theorem Own.synchronize {c : Peer} {cl : MultioClient} (h : Own c cl) (peers : Peers) :
    Own c (cl.synchronize peers) := by
  unfold MultioClient.synchronize
  split
  · exact h
  · exact h

theorem Own.sendRequest {c : Peer} {cl : MultioClient} (h : Own c cl) :
    Own c (cl.sendRequest c) := by
  unfold MultioClient.sendRequest
  split
  · exact h.put _ rfl
  · exact h
  · exact h

structure Inv (peers : Peers) (sys : System) : Prop where
  phase : ∀ c ∈ peers.clients, PhaseInv peers (sys.client c)
  own : ∀ c ∈ peers.clients, Own c (sys.client c)
  server : ∀ s ∈ peers.servers, ServerInv peers.clients (sys.server s)
  fifo : ∀ c ∈ peers.clients, ∀ s ∈ peers.servers,
    (sys.client c).sent s = (sys.server s).receivedFrom c ++ (sys.client c).inFlight s
  barrier : ∀ c ∈ peers.clients, ∀ s ∈ peers.servers,
    (sys.client c).left ≤ (sys.server s).entered

namespace Inv

variable {ctx : Context} {peers : Peers} {sys : System}

theorem init (peers : Peers) : Inv peers (System.init peers) where
  phase _ _ := ⟨rfl, fun _ _ => rfl⟩
  own _ _ _ _ h := by cases h
  server _ _ := ServerInv.init _
  fifo _ _ _ _ := rfl
  barrier _ _ _ _ := Nat.le_refl 0

theorem setClient (h : Inv peers sys) {c : Peer} {cl : MultioClient}
    (hphase : c ∈ peers.clients → PhaseInv peers cl) (hown : c ∈ peers.clients → Own c cl)
    (hsends : Sends (sys.client c) cl) : Inv peers (sys.setClient c cl) := by
  have hset (P : Peer → MultioClient → Prop) :=
    Function.forall_update_iff sys.client (a := c) (b := cl) P
  refine ⟨?_, ?_, h.server, ?_, ?_⟩
  · exact (hset fun c' cl' => c' ∈ peers.clients → PhaseInv peers cl').mpr
      ⟨hphase, fun c' _ => h.phase c'⟩
  · exact (hset fun c' cl' => c' ∈ peers.clients → Own c' cl').mpr ⟨hown, fun c' _ => h.own c'⟩
  · refine (hset fun c' cl' => c' ∈ peers.clients → ∀ s ∈ peers.servers,
      cl'.sent s = (sys.server s).receivedFrom c' ++ cl'.inFlight s).mpr ⟨?_, fun c' _ => h.fifo c'⟩
    exact fun hc s hs => hsends.2 s _ (h.fifo c hc s hs)
  · refine (hset fun c' cl' => c' ∈ peers.clients → ∀ s ∈ peers.servers,
      cl'.left ≤ (sys.server s).entered).mpr ⟨?_, fun c' _ => h.barrier c'⟩
    rw [hsends.1]
    exact h.barrier c

theorem setServer (h : Inv peers sys) {s : Peer} {sv : MultioServer}
    (hserver : s ∈ peers.servers → ServerInv peers.clients sv)
    (hreceived : sv.received = (sys.server s).received)
    (hentered : (sys.server s).entered ≤ sv.entered) : Inv peers (sys.setServer s sv) := by
  have hset (P : Peer → MultioServer → Prop) :=
    Function.forall_update_iff sys.server (a := s) (b := sv) P
  refine ⟨h.phase, h.own, ?_, ?_, ?_⟩
  · exact (hset fun s' sv' => s' ∈ peers.servers → ServerInv peers.clients sv').mpr
      ⟨hserver, fun s' _ => h.server s'⟩
  · intro c hc
    refine (hset fun s' sv' => s' ∈ peers.servers →
      (sys.client c).sent s' = sv'.receivedFrom c ++ (sys.client c).inFlight s').mpr
        ⟨fun hs => ?_, fun s' _ => h.fifo c hc s'⟩
    rw [MultioServer.receivedFrom, hreceived]
    exact h.fifo c hc s hs
  · intro c hc
    exact (hset fun s' sv' => s' ∈ peers.servers → (sys.client c).left ≤ sv'.entered).mpr
      ⟨fun hs => (h.barrier c hc s hs).trans hentered, fun s' _ => h.barrier c hc s'⟩

theorem requests_sent_le (h : Inv peers sys) {c s : Peer} (hc : c ∈ peers.clients)
    (hs : s ∈ peers.servers) :
    requests ((sys.client c).sent s) ≤ requests (sys.server s).queue + 1 :=
  calc requests ((sys.client c).sent s) ≤ (sys.client c).left + 1 := (h.phase c hc).requests_le hs
    _ ≤ (sys.server s).entered + 1 := Nat.succ_le_succ (h.barrier c hc s hs)
    _ ≤ requests (sys.server s).queue + 1 := Nat.succ_le_succ (h.server s hs).entered_le

theorem leaveClient (h : Inv peers sys) (c : Peer) : Inv peers (sys.leaveClient peers c) := by
  unfold System.leaveClient
  simp only
  split
  · next hphase =>
    split_ifs with hleave
    · have hset (P : Peer → MultioClient → Prop) := Function.forall_update_iff sys.client (a := c)
        (b := { sys.client c with phase := .running, left := (sys.client c).left + 1 }) P
      refine ⟨?_, ?_, h.server, ?_, ?_⟩
      · refine (hset fun c' cl' => c' ∈ peers.clients → PhaseInv peers cl').mpr
          ⟨fun hc => ?_, fun c' _ => h.phase c'⟩
        have hwaiting := h.phase c hc
        unfold PhaseInv at hwaiting
        rw [hphase] at hwaiting
        exact hwaiting
      · exact (hset fun c' cl' => c' ∈ peers.clients → Own c' cl').mpr
          ⟨h.own c, fun c' _ => h.own c'⟩
      · exact (hset fun c' cl' => c' ∈ peers.clients → ∀ s ∈ peers.servers,
          cl'.sent s = (sys.server s).receivedFrom c' ++ cl'.inFlight s).mpr
            ⟨h.fifo c, fun c' _ => h.fifo c'⟩
      · -- all servers have entered the barrier that is left
        exact (hset fun c' cl' => c' ∈ peers.clients → ∀ s ∈ peers.servers,
          cl'.left ≤ (sys.server s).entered).mpr ⟨fun _ => hleave.2, fun c' _ => h.barrier c'⟩
    · exact h
  · exact h

theorem leaveServer (h : Inv peers sys) (s : Peer) : Inv peers (sys.leaveServer peers s) := by
  unfold System.leaveServer
  simp only
  split_ifs
  · refine h.setServer (fun hs => ?_) rfl (Nat.le_refl _)
    have hs' := h.server s hs
    exact ⟨hs'.clientCount, hs'.source, hs'.count, hs'.below, hs'.ahead, hs'.data, hs'.ordered,
      hs'.handled, hs'.calls, hs'.entered⟩
  · exact h

/-- The listener of a server takes a message off the stream of a client. -/
theorem receive_ok (h : Inv peers sys) {c s : Peer} (hc : c ∈ peers.clients)
    (hs : s ∈ peers.servers) {m : Message} {rest : List Message}
    (hflight : (sys.client c).inFlight s = m :: rest) {sv : MultioServer}
    (hreceive : (sys.server s).receive ctx m = .ok sv) :
    Inv peers ((sys.setServer s sv).setClient c
      { sys.client c with inFlight := Function.update (sys.client c).inFlight s rest }) := by
  have hfifo := h.fifo c hc s hs
  have hsource : m.source = c := by
    refine h.own c hc s m ?_
    rw [hfifo, hflight]
    exact List.mem_append_right _ List.mem_cons_self
  have hsv : sv.received = (sys.server s).received ++ [m] ∧
      sv.entered = (sys.server s).entered := by
    obtain ⟨l', -, hsv⟩ := bind_eq_ok_iff.mp hreceive
    cases hsv
    exact ⟨rfl, rfl⟩
  have hself : (sys.client c).sent s = sv.receivedFrom c ++ rest := by
    rw [ServerInv.receivedFrom_concat hsv.1, List.filter_cons_of_pos (by simpa using hsource),
      hfifo, hflight, List.append_assoc]
    rfl
  have hothers : ∀ c', c' ≠ c → sv.receivedFrom c' = (sys.server s).receivedFrom c' := by
    intro c' hne
    rw [ServerInv.receivedFrom_concat hsv.1, List.filter_cons_of_neg, List.filter_nil,
      List.append_nil]
    simpa [hsource] using hne.symm
  -- a client is at most one round ahead of what the server has handled
  have hroom : ∀ c' ∈ peers.clients,
      requests (sv.receivedFrom c') ≤ requests (sys.server s).queue + 1 := by
    intro c' hc'
    refine Nat.le_trans ?_ (h.requests_sent_le hc' hs)
    by_cases heq : c' = c
    · rw [heq, hself, requests_append]
      exact Nat.le_add_right _ _
    · rw [hothers c' heq, h.fifo c' hc' s hs, requests_append]
      exact Nat.le_add_right _ _
  have hsetClient (P : Peer → MultioClient → Prop) := Function.forall_update_iff sys.client (a := c)
    (b := { sys.client c with inFlight := Function.update (sys.client c).inFlight s rest }) P
  have hsetServer (P : Peer → MultioServer → Prop) := Function.forall_update_iff sys.server
    (a := s) (b := sv) P
  refine ⟨?_, ?_, ?_, ?_, ?_⟩
  · exact (hsetClient fun c' cl => c' ∈ peers.clients → PhaseInv peers cl).mpr
      ⟨h.phase c, fun c' _ => h.phase c'⟩
  · exact (hsetClient fun c' cl => c' ∈ peers.clients → Own c' cl).mpr
      ⟨h.own c, fun c' _ => h.own c'⟩
  · exact (hsetServer fun s' sv' => s' ∈ peers.servers → ServerInv peers.clients sv').mpr
      ⟨fun hs => (h.server s hs).receive hreceive (hsource ▸ hc) hroom, fun s' _ => h.server s'⟩
  · refine (hsetClient fun c' cl => c' ∈ peers.clients → ∀ s' ∈ peers.servers,
      cl.sent s' = (Function.update sys.server s sv s').receivedFrom c' ++ cl.inFlight s').mpr
        ⟨fun hc => ?_, fun c' hne hc' => ?_⟩
    · refine (hsetServer fun s' sv' => s' ∈ peers.servers → (sys.client c).sent s' =
        sv'.receivedFrom c ++ Function.update (sys.client c).inFlight s rest s').mpr
          ⟨fun hs => ?_, fun s' hne hs' => ?_⟩
      · rw [Function.update_self]
        exact hself
      · rw [Function.update_of_ne hne]
        exact h.fifo c hc s' hs'
    · refine (hsetServer fun s' sv' => s' ∈ peers.servers → (sys.client c').sent s' =
        sv'.receivedFrom c' ++ (sys.client c').inFlight s').mpr
          ⟨fun hs => ?_, fun s' _ => h.fifo c' hc' s'⟩
      rw [hothers c' hne]
      exact h.fifo c' hc' s hs
  · have hentered : ∀ c' ∈ peers.clients, ∀ s' ∈ peers.servers,
        (sys.client c').left ≤ (Function.update sys.server s sv s').entered := by
      intro c' hc'
      refine (hsetServer fun s' sv' => s' ∈ peers.servers → (sys.client c').left ≤ sv'.entered).mpr
        ⟨fun hs => ?_, fun s' _ => h.barrier c' hc' s'⟩
      rw [hsv.2]
      exact h.barrier c' hc' s hs
    exact (hsetClient fun c' cl => c' ∈ peers.clients → ∀ s' ∈ peers.servers,
      cl.left ≤ (Function.update sys.server s sv s').entered).mpr
        ⟨hentered c, fun c' _ => hentered c'⟩

theorem receive (h : Inv peers sys) {c s : Peer} (hc : c ∈ peers.clients)
    (hs : s ∈ peers.servers) : Inv peers (sys.receive ctx c s) := by
  unfold System.receive
  split
  · exact h
  · next hflight =>
    split_ifs
    · split
      · refine h.setServer (fun hs => ?_) rfl (Nat.le_refl _)
        have hs' := h.server s hs
        exact ⟨hs'.clientCount, hs'.source, hs'.count, hs'.below, hs'.ahead, hs'.data, hs'.ordered,
          hs'.handled, hs'.calls, hs'.entered⟩
      · next hreceive => exact h.receive_ok hc hs hflight hreceive
    · exact h

theorem dispatch (h : Inv peers sys) (s : Peer) :
    Inv peers (sys.setServer s (sys.server s).dispatch) := by
  have hrest : (sys.server s).dispatch.received = (sys.server s).received ∧
      (sys.server s).entered ≤ (sys.server s).dispatch.entered := by
    unfold MultioServer.dispatch
    split_ifs
    · exact ⟨rfl, Nat.le_refl _⟩
    · split
      · exact ⟨rfl, Nat.le_refl _⟩
      · refine ⟨rfl, ?_⟩
        simp only
        split_ifs
        · exact Nat.le_succ _
        · exact Nat.le_refl _
  exact h.setServer (fun hs => (h.server s hs).dispatch) hrest.1 hrest.2

theorem step (h : Inv peers sys) (event : Event) : Inv peers (sys.step ctx peers event) := by
  cases event with
  | bufferedSend msg =>
    unfold System.step
    simp only
    split_ifs with hc
    · exact h.setClient (fun hc => (h.phase _ hc).bufferedSend msg)
        (fun hc => (h.own _ hc).bufferedSend rfl) (sends_bufferedSend _ msg)
    · exact h
  | synchronize c =>
    exact h.setClient (fun hc => (h.phase c hc).synchronize)
      (fun hc => (h.own c hc).synchronize peers) (sends_synchronize _ peers)
  | sendRequest c =>
    exact h.setClient (fun hc => (h.phase c hc).sendRequest c)
      (fun hc => (h.own c hc).sendRequest) (sends_sendRequest _ c)
  | leaveClient c => exact h.leaveClient c
  | receive c s =>
    unfold System.step
    simp only
    split_ifs with hcs
    · exact h.receive hcs.1 hcs.2
    · exact h
  | dispatch s => exact h.dispatch s
  | leaveServer s => exact h.leaveServer s

theorem run (h : Inv peers sys) (events : List Event) : Inv peers (sys.run ctx peers events) := by
  induction events generalizing sys with
  | nil => exact h
  | cons event events ih => exact ih (h.step event)

end Inv

/-- A round has an entry in the queue of a server once the requests of all clients have been
received, and the barrier of a round is entered after all data sent before the requests has been
handed over, in order. -/
structure Synchronised (peers : Peers) (sys : System) : Prop where
  enqueued : peers.clients.Nonempty → ∀ s ∈ peers.servers, ∀ k,
    k < requests (sys.server s).queue ↔
      ∀ c ∈ peers.clients, k < requests ((sys.server s).receivedFrom c)
  handedOver : ∀ s ∈ peers.servers, ∀ before after,
    (sys.server s).calls = before ++ .synchronize :: after → ∀ c ∈ peers.clients,
    (((beforeMark IsRequest (before.countP Call.isSynchronize) ((sys.client c).sent s)).filter
      IsData).map handle).Sublist before

theorem isSynchronize_handle (m : Message) : (handle m).isSynchronize = IsRequest m := by
  unfold handle IsRequest
  cases m.tag <;> rfl

theorem countP_isSynchronize_map (ms : List Message) :
    (ms.map handle).countP Call.isSynchronize = requests ms := by
  rw [List.countP_map]
  exact List.countP_congr fun m _ => by rw [Function.comp_apply, isSynchronize_handle]

theorem Inv.synchronised {peers : Peers} {sys : System} (h : Inv peers sys) :
    Synchronised peers sys where
  enqueued hne s hs k := (h.server s hs).lt_requests_iff hne k
  handedOver s hs before after hcalls c hc := by
    have hserver := h.server s hs
    rw [hserver.calls] at hcalls
    obtain ⟨pre, rest, htake, hpre, hrest⟩ := List.map_eq_append_iff.mp hcalls
    obtain ⟨m, post, hcons, hm, -⟩ := List.map_eq_cons_iff.mp hrest
    have hqueue : (sys.server s).queue =
        pre ++ m :: (post ++ (sys.server s).queue.drop (sys.server s).handled) := by
      rw [← List.cons_append, ← hcons, ← List.append_assoc, ← htake, List.take_append_drop]
    have hrequest : IsRequest m = true := by
      rw [← isSynchronize_handle, hm]
      rfl
    have hcount : before.countP Call.isSynchronize = requests pre := by
      rw [← hpre, countP_isSynchronize_map]
    rw [hcount, h.fifo c hc s hs, ← hpre]
    exact (hserver.ordered_append hc _ hqueue hrequest).map _

/-- Whatever clients send and in whatever order everybody takes steps, rounds are synchronised. -/
theorem synchronise_barrier (ctx : Context) (peers : Peers) (events : List Event) :
    Synchronised peers ((System.init peers).run ctx peers events) :=
  ((Inv.init peers).run events).synchronised

end Multio.Server.Barrier
