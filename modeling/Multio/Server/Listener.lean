import Multio.Message.Message
import Mathlib.Data.Finset.Sort
import Mathlib.Data.Finset.Card
import Mathlib.Data.List.Dedup

namespace Multio.Server
open Exception

/-- The queue holds every message that was ever put into it: another thread takes them out. -/
structure Listener where
  clientCount : ℕ
  openedCount : ℕ := 0
  syncCount : ℕ := 0
  connections : Finset Peer := ∅
  msgQueue : List Message := []

/-- How a run of the loop ends: stopped with some messages not received, or in `receive`. -/
inductive Listening
  | stopped (l : Listener) (unread : List Message)
  | waiting (l : Listener)

namespace Listener

def moreConnections (l : Listener) : Bool :=
  !decide (l.connections = ∅) || l.openedCount != l.clientCount

def checkConnection (l : Listener) (conn : Peer) : Except Exception Unit :=
  if conn ∈ l.connections then .ok ()
  else .error (.seriousBug ("Connection to " ++ conn.print ++ " is not open"))

/-- `msgQueue_.emplace`. -/
def enqueue (l : Listener) (msg : Message) : Listener :=
  { l with msgQueue := l.msgQueue ++ [msg] }

variable (ctx : Context)

/-- The `switch` on the tag of a message that has been received. -/
def receive (l : Listener) (msg : Message) : Except Exception Listener :=
  match msg.tag with
  | .open => .ok { l with connections := insert msg.source l.connections,
                          openedCount := l.openedCount + 1 }
  | .close =>
    if msg.source ∈ l.connections then
      .ok { l with connections := l.connections.erase msg.source }
    else .error (.undefinedBehaviour "erased end iterator")
  | .synchronization => do
    l.checkConnection msg.source
    -- only the last request of a round is passed on
    if l.syncCount + 1 = l.clientCount then .ok { l.enqueue msg with syncCount := 0 }
    else .ok { l with syncCount := l.syncCount + 1 }
  | .domain | .parametrization | .mask | .notification | .flush | .field => do
    l.checkConnection msg.source
    .ok (l.enqueue msg)
  | .empty | .grib => do
    let text ← msg.print ctx
    .error (.seriousBug ("Unhandled message: " ++ text ++ "\n"))

/-- The loop of `start`; `checkInterrupt` is that of the queue, which other threads interrupt. -/
def start (checkInterrupt : Listener → Except Exception Bool) :
    Listener → List Message → Except Exception Listening
  | l, [] => .ok (.waiting l)
  | l, msg :: msgs => do
    let l ← l.receive ctx msg
    if l.moreConnections then do
      if ← checkInterrupt l then start checkInterrupt l msgs
      else .ok (.stopped l msgs)
    else .ok (.stopped l msgs)

end Listener

/-- The tags of what a client sends between its `Open` and its `Close`. -/
def IsData (m : Message) : Prop :=
  m.tag = .domain ∨ m.tag = .mask ∨ m.tag = .field ∨ m.tag = .notification ∨
    m.tag = .parametrization ∨ m.tag = .flush

instance : DecidablePred IsData := fun m => by unfold IsData; infer_instance

structure IsStream (ms : List Message) : Prop where
  shape : ∃ o data c, ms = o :: (data ++ [c]) ∧ o.tag = .open ∧ (∀ m ∈ data, IsData m) ∧
    c.tag = .close

structure ClientInterleaving (clients : Finset Peer) (T : List Message) : Prop where
  source_mem : ∀ m ∈ T, m.source ∈ clients
  stream : ∀ p ∈ clients, IsStream (T.filter fun m => m.source = p)

def tagged (t : Tag) (ms : List Message) : Finset Peer :=
  ((ms.filter fun m => m.tag = t).map Message.source).toFinset

theorem mem_tagged {t : Tag} {ms : List Message} {p : Peer} :
    p ∈ tagged t ms ↔ ∃ m ∈ ms, m.tag = t ∧ m.source = p := by
  simp [tagged, and_assoc]

theorem tagged_append_self {m : Message} (ms : List Message) :
    tagged m.tag (ms ++ [m]) = insert m.source (tagged m.tag ms) := by
  ext p
  simp only [mem_tagged, List.mem_append, List.mem_singleton, Finset.mem_insert]
  constructor
  · rintro ⟨x, hx | rfl, ht, hp⟩
    · exact Or.inr ⟨x, hx, ht, hp⟩
    · exact Or.inl hp.symm
  · rintro (rfl | ⟨x, hx, ht, hp⟩)
    · exact ⟨m, Or.inr rfl, rfl, rfl⟩
    · exact ⟨x, Or.inl hx, ht, hp⟩

theorem tagged_append_of_ne {t : Tag} {m : Message} (h : m.tag ≠ t) (ms : List Message) :
    tagged t (ms ++ [m]) = tagged t ms := by
  simp [tagged, h]

theorem IsData.ne_open {m : Message} (h : IsData m) : m.tag ≠ .open := by
  unfold IsData at h
  intro htag
  simp [htag] at h

theorem IsData.ne_close {m : Message} (h : IsData m) : m.tag ≠ .close := by
  unfold IsData at h
  intro htag
  simp [htag] at h

/-- A message of a stream is its `Open`, its `Close` or data between them. -/
theorem IsStream.split {ms pre post : List Message} {m : Message} (h : IsStream ms)
    (heq : ms = pre ++ m :: post) :
    (m.tag = .open ∧ pre = []) ∨
    ((∃ x ∈ pre, x.tag = .open) ∧ (∀ x ∈ pre, x.tag ≠ .close) ∧
      (IsData m ∨ m.tag = .close ∧ post = [])) := by
  obtain ⟨o, data, c, hms, ho, hdata, hc⟩ := h.shape
  rw [hms] at heq
  -- the first message opens, and a message after it is data or the last one
  cases pre with
  | nil =>
    obtain ⟨rfl, -⟩ := List.cons.inj heq
    exact Or.inl ⟨ho, rfl⟩
  | cons x pre =>
    rw [List.cons_append] at heq
    obtain ⟨rfl, hrest⟩ := List.cons.inj heq
    refine Or.inr ⟨⟨o, List.mem_cons_self, ho⟩, ?_, ?_⟩
    · have hpre : ∀ x ∈ pre, x ∈ data := by
        intro x hx
        rcases List.eq_nil_or_concat post with rfl | ⟨post, y, rfl⟩
        · rw [(List.append_inj' hrest rfl).1]
          exact hx
        · have hrest' : data ++ [c] = (pre ++ m :: post) ++ [y] := by
            rw [hrest]
            simp
          rw [(List.append_inj' hrest' rfl).1]
          exact List.mem_append_left _ hx
      intro x hx
      rcases List.mem_cons.mp hx with rfl | hx
      · rw [ho]
        decide
      · exact (hdata x (hpre x hx)).ne_close
    · rcases List.eq_nil_or_concat post with rfl | ⟨post, y, rfl⟩
      · obtain ⟨-, hlast⟩ := List.append_inj' hrest rfl
        rw [← List.singleton_inj.mp hlast]
        exact Or.inr ⟨hc, rfl⟩
      · have hrest' : data ++ [c] = (pre ++ m :: post) ++ [y] := by
          rw [hrest]
          simp
        apply Or.inl (hdata m _)
        rw [(List.append_inj' hrest' rfl).1]
        simp

namespace ClientInterleaving

variable {clients : Finset Peer} {T : List Message}

/-- What the next message is, and how the connection of its source stands. -/
theorem next (hT : ClientInterleaving clients T) {pre post : List Message} {m : Message}
    (heq : T = pre ++ m :: post) :
    (m.tag = .open ∧ m.source ∉ tagged .open pre ∧ m.source ∉ tagged .close pre) ∨
    (m.source ∈ tagged .open pre ∧ m.source ∉ tagged .close pre ∧
      (IsData m ∨ m.tag = .close ∧ ∀ x ∈ post, x.source ≠ m.source)) := by
  have hmem : m.source ∈ clients := hT.source_mem m (by rw [heq]; simp)
  have hstream : T.filter (fun x => x.source = m.source) =
      pre.filter (fun x => x.source = m.source) ++
        m :: post.filter (fun x => x.source = m.source) := by
    rw [heq, List.filter_append, List.filter_cons_of_pos (by simp)]
  have hown : ∀ {ms : List Message} {x : Message}, x ∈ ms → x.source = m.source →
      x ∈ ms.filter fun x => x.source = m.source :=
    fun hx hs => List.mem_filter.mpr ⟨hx, decide_eq_true hs⟩
  rcases (hT.stream _ hmem).split hstream with ⟨htag, hnil⟩ | ⟨⟨x, hx, hopen⟩, hclose, hm⟩
  · have habsent : ∀ t, m.source ∉ tagged t pre := by
      intro t ht
      obtain ⟨x, hx, -, hs⟩ := mem_tagged.mp ht
      have := hown hx hs
      rw [hnil] at this
      cases this
    exact Or.inl ⟨htag, habsent _, habsent _⟩
  · refine Or.inr ⟨?_, ?_, ?_⟩
    · obtain ⟨hmem, hs⟩ := List.mem_filter.mp hx
      exact mem_tagged.mpr ⟨x, hmem, hopen, of_decide_eq_true hs⟩
    · intro ht
      obtain ⟨x, hx, htag, hs⟩ := mem_tagged.mp ht
      exact hclose x (hown hx hs) htag
    · rcases hm with hdata | ⟨hc, hnil⟩
      · exact Or.inl hdata
      · refine Or.inr ⟨hc, ?_⟩
        intro x hx hs
        have := hown hx hs
        rw [hnil] at this
        cases this

theorem not_closed (hT : ClientInterleaving clients T) {pre post : List Message}
    (heq : T = pre ++ post) {m : Message} (hm : m ∈ post) : m.source ∉ tagged .close pre := by
  obtain ⟨l, r, rfl⟩ := List.append_of_mem hm
  have heq' : T = (pre ++ l) ++ m :: r := by rw [heq, List.append_assoc]
  have hclose : m.source ∉ tagged .close (pre ++ l) := by
    rcases hT.next heq' with h | h
    · exact h.2.2
    · exact h.2.1
  intro h
  obtain ⟨x, hx, htag, hs⟩ := mem_tagged.mp h
  exact hclose (mem_tagged.mpr ⟨x, List.mem_append_left _ hx, htag, hs⟩)

theorem tagged_all (hT : ClientInterleaving clients T) :
    tagged .open T = clients ∧ tagged .close T = clients := by
  have hsub : ∀ t, tagged t T ⊆ clients := by
    intro t p hp
    obtain ⟨m, hm, -, rfl⟩ := mem_tagged.mp hp
    exact hT.source_mem m hm
  have hends : ∀ p ∈ clients, p ∈ tagged .open T ∧ p ∈ tagged .close T := by
    intro p hp
    obtain ⟨o, data, c, hms, ho, -, hc⟩ := (hT.stream p hp).shape
    have hmem : ∀ x ∈ o :: (data ++ [c]), x ∈ T ∧ x.source = p := by
      intro x hx
      rw [← hms] at hx
      obtain ⟨hxT, hxs⟩ := List.mem_filter.mp hx
      exact ⟨hxT, of_decide_eq_true hxs⟩
    obtain ⟨hoT, hos⟩ := hmem o (by simp)
    obtain ⟨hcT, hcs⟩ := hmem c (by simp)
    exact ⟨mem_tagged.mpr ⟨o, hoT, ho, hos⟩, mem_tagged.mpr ⟨c, hcT, hc, hcs⟩⟩
  exact ⟨Finset.Subset.antisymm (hsub _) fun p hp => (hends p hp).1,
    Finset.Subset.antisymm (hsub _) fun p hp => (hends p hp).2⟩

end ClientInterleaving

/-- The state of the listener after the trace `pre`. -/
structure ListenerInv (clients : Finset Peer) (l : Listener) (pre : List Message) : Prop where
  clientCount : l.clientCount = clients.card
  openedCount : l.openedCount = (tagged .open pre).card
  connections : l.connections = tagged .open pre \ tagged .close pre
  msgQueue : l.msgQueue = pre.filter IsData

namespace ListenerInv

variable {clients : Finset Peer} {T : List Message} {l : Listener} {pre post : List Message}
  {m : Message}

theorem receive (h : ListenerInv clients l pre) (hT : ClientInterleaving clients T)
    (heq : T = pre ++ m :: post) (ctx : Context) :
    ∃ l', l.receive ctx m = .ok l' ∧ ListenerInv clients l' (pre ++ [m]) := by
  -- the next message of the interleaving opens, carries data or closes
  rcases hT.next heq with ⟨htag, hopened, hclosed⟩ | ⟨hopened, hclosed, hdata | ⟨htag, -⟩⟩
  · have hnotData : ¬ IsData m := fun hd => hd.ne_open htag
    have hopen : tagged .open (pre ++ [m]) = insert m.source (tagged .open pre) := by
      rw [← htag, tagged_append_self]
    refine ⟨{ l with connections := insert m.source l.connections,
                     openedCount := l.openedCount + 1 }, ?_, h.clientCount, ?_, ?_, ?_⟩
    · simp only [Listener.receive, htag]
    · rw [hopen, Finset.card_insert_of_notMem hopened, h.openedCount]
    · rw [hopen, tagged_append_of_ne (by rw [htag]; decide),
        Finset.insert_sdiff_of_notMem _ hclosed, h.connections]
    · rw [List.filter_append, List.filter_singleton]
      simp [hnotData, h.msgQueue]
  · have hconn : m.source ∈ l.connections := by
      rw [h.connections]
      exact Finset.mem_sdiff.mpr ⟨hopened, hclosed⟩
    refine ⟨l.enqueue m, ?_, h.clientCount, ?_, ?_, ?_⟩
    · rcases hdata with htag | htag | htag | htag | htag | htag
      all_goals simp only [Listener.receive, htag, Listener.checkConnection, if_pos hconn, ok_bind]
    · rw [tagged_append_of_ne hdata.ne_open]
      exact h.openedCount
    · rw [tagged_append_of_ne hdata.ne_open, tagged_append_of_ne hdata.ne_close]
      exact h.connections
    · rw [List.filter_append, List.filter_singleton]
      simp [Listener.enqueue, hdata, h.msgQueue]
  · have hconn : m.source ∈ l.connections := by
      rw [h.connections]
      exact Finset.mem_sdiff.mpr ⟨hopened, hclosed⟩
    have hnotData : ¬ IsData m := fun hd => hd.ne_close htag
    have hclose : tagged .close (pre ++ [m]) = insert m.source (tagged .close pre) := by
      rw [← htag, tagged_append_self]
    refine ⟨{ l with connections := l.connections.erase m.source }, ?_, h.clientCount, ?_, ?_, ?_⟩
    · simp only [Listener.receive, htag, if_pos hconn]
    · rw [tagged_append_of_ne (by rw [htag]; decide)]
      exact h.openedCount
    · rw [hclose, tagged_append_of_ne (by rw [htag]; decide), Finset.sdiff_insert, h.connections]
    · rw [List.filter_append, List.filter_singleton]
      simp [hnotData, h.msgQueue]

/-- There are more connections exactly as long as there is more to receive. -/
theorem moreConnections (h : ListenerInv clients l pre) (hT : ClientInterleaving clients T)
    (heq : T = pre ++ post) : l.moreConnections = true ↔ post ≠ [] := by
  unfold Listener.moreConnections
  rw [h.connections, h.openedCount, h.clientCount]
  constructor
  · rintro hmore rfl
    rw [List.append_nil] at heq
    obtain ⟨hopen, hclose⟩ := hT.tagged_all
    rw [← heq, hopen, hclose] at hmore
    simp at hmore
  · intro hpost
    obtain ⟨m, hm⟩ := List.exists_mem_of_ne_nil post hpost
    have hclient : m.source ∈ clients := hT.source_mem m (by rw [heq]; simp [hm])
    have hclosed := hT.not_closed heq hm
    by_cases hopened : m.source ∈ tagged .open pre
    · have hne : tagged .open pre \ tagged .close pre ≠ ∅ :=
        Finset.ne_empty_of_mem (Finset.mem_sdiff.mpr ⟨hopened, hclosed⟩)
      simp [hne]
    · have hsub : tagged .open pre ⊆ clients := by
        intro p hp
        obtain ⟨x, hx, -, rfl⟩ := mem_tagged.mp hp
        exact hT.source_mem x (by rw [heq]; simp [hx])
      have hcard : (tagged .open pre).card < clients.card :=
        Finset.card_lt_card ⟨hsub, fun h => hopened (h hclient)⟩
      simp [hcard.ne]

/-- A part of an interleaving that is not its end is received without leaving the loop. -/
theorem start_append (h : ListenerInv clients l pre) (hT : ClientInterleaving clients T)
    (ctx : Context) {checkInterrupt : Listener → Except Exception Bool}
    (hcheck : ∀ l, checkInterrupt l = .ok true) (ms : List Message) (heq : T = pre ++ (ms ++ post))
    (hpost : post ≠ []) :
    ∃ l', ListenerInv clients l' (pre ++ ms) ∧
      ∀ more, l.start ctx checkInterrupt (ms ++ more) = l'.start ctx checkInterrupt more := by
  induction ms generalizing l pre with
  | nil => exact ⟨l, by rwa [List.append_nil], fun _ => rfl⟩
  | cons m ms ih =>
    obtain ⟨l₁, hreceive, h₁⟩ := h.receive hT heq ctx
    have heq₁ : T = (pre ++ [m]) ++ (ms ++ post) := by rw [heq]; simp
    have hmore : l₁.moreConnections = true := (h₁.moreConnections hT heq₁).mpr (by simp [hpost])
    obtain ⟨l', h', hrun⟩ := ih h₁ heq₁
    refine ⟨l', by simpa using h', ?_⟩
    intro more
    rw [List.cons_append, Listener.start, hreceive, ok_bind, if_pos hmore, hcheck, ok_bind,
      if_pos rfl, hrun]

end ListenerInv

/-- The listening loop on the messages of its clients: nothing throws, the data messages are
enqueued, and the loop waits for more until the last `Close`, and stops there. -/
theorem listener_protocol (ctx : Context) (checkInterrupt : Listener → Except Exception Bool)
    (hcheck : ∀ l, checkInterrupt l = .ok true) (clients : Finset Peer) (hne : clients.Nonempty)
    (T : List Message) (hT : ClientInterleaving clients T) :
    (∀ pre post, T = pre ++ post → post ≠ [] → ∃ l,
      Listener.start ctx checkInterrupt { clientCount := clients.card } pre = .ok (.waiting l) ∧
      l.msgQueue = pre.filter IsData) ∧
    (∃ pre m, T = pre ++ [m] ∧ m.tag = .close) ∧
    (∃ l, (∀ more, Listener.start ctx checkInterrupt { clientCount := clients.card } (T ++ more) =
        .ok (.stopped l more)) ∧
      l.msgQueue = T.filter IsData ∧
      ∀ p ∈ clients, l.msgQueue.filter (fun m => m.source = p) =
        (T.filter fun m => m.source = p).filter IsData) := by
  have hinit : ListenerInv clients { clientCount := clients.card } [] := ⟨rfl, rfl, rfl, rfl⟩
  have hT_ne : T ≠ [] := by
    obtain ⟨p, hp⟩ := hne
    obtain ⟨o, data, c, hms, -⟩ := (hT.stream p hp).shape
    rintro rfl
    cases hms
  obtain ⟨pre, m, heq⟩ : ∃ pre m, T = pre ++ [m] :=
    ⟨T.dropLast, T.getLast hT_ne, (List.dropLast_append_getLast hT_ne).symm⟩
  -- before the last message it waits; the last one closes; with it the loop stops
  refine ⟨?_, ?_, ?_⟩
  · intro pre post heq hpost
    obtain ⟨l, hl, hrun⟩ := hinit.start_append hT ctx hcheck pre heq hpost
    refine ⟨l, ?_, hl.msgQueue⟩
    have hwait := hrun []
    rwa [List.append_nil] at hwait
  · refine ⟨pre, m, heq, ?_⟩
    by_contra htag
    have hclosed : m.source ∈ tagged .close T := by
      rw [hT.tagged_all.2]
      exact hT.source_mem m (by rw [heq]; simp)
    rw [heq, tagged_append_of_ne htag] at hclosed
    exact hT.not_closed heq List.mem_cons_self hclosed
  · obtain ⟨l, hl, hrun⟩ := hinit.start_append hT ctx hcheck pre heq (List.cons_ne_nil m [])
    obtain ⟨l', hreceive, hl'⟩ := hl.receive hT heq ctx
    have hT_eq : T = ([] ++ pre ++ [m]) ++ [] := by rw [heq]; simp
    have hstop : ¬ l'.moreConnections = true := by
      rw [hl'.moreConnections hT hT_eq]
      simp
    rw [List.nil_append, ← heq] at hl'
    refine ⟨l', ?_, hl'.msgQueue, ?_⟩
    · intro more
      rw [heq, List.append_assoc, hrun, List.singleton_append, Listener.start, hreceive, ok_bind,
        if_neg hstop]
    · intro p _
      rw [hl'.msgQueue, List.filter_filter, List.filter_filter]
      congr 1
      funext x
      exact Bool.and_comm _ _

/-- A message of peer `i`. -/
def clientMessage (t : Tag) (i : ℕ) : Message where
  header := { tag := t, source := { group := "c", id := i }, destination := {},
              metadata := { bucketCount := 541 } }

/-- The second client opens after the first has closed. -/
theorem listener_protocol_two :
    ∃ l, Listener.start { parametrization := { bucketCount := 541 }, toString := fun _ => "" }
        (fun _ => .ok true) { clientCount := 2 }
        [clientMessage .open 0, clientMessage .field 0, clientMessage .close 0,
          clientMessage .open 1, clientMessage .flush 1, clientMessage .close 1] =
          .ok (.stopped l []) ∧
      l.msgQueue = [clientMessage .field 0, clientMessage .flush 1] := by
  obtain ⟨-, -, l, hstop, hqueue, -⟩ := listener_protocol
    { parametrization := { bucketCount := 541 }, toString := fun _ => "" } (fun _ => .ok true)
    (fun _ => rfl) {{ group := "c", id := 0 }, { group := "c", id := 1 }} (by decide)
    [clientMessage .open 0, clientMessage .field 0, clientMessage .close 0,
      clientMessage .open 1, clientMessage .flush 1, clientMessage .close 1]
    ⟨by decide, by
      intro p hp
      rcases Finset.mem_insert.mp hp with rfl | hp
      · exact ⟨clientMessage .open 0, [clientMessage .field 0], clientMessage .close 0, rfl, rfl,
          by simp [IsData, clientMessage, Message.tag], rfl⟩
      · rw [Finset.mem_singleton.mp hp]
        exact ⟨clientMessage .open 1, [clientMessage .flush 1], clientMessage .close 1, rfl, rfl,
          by simp [IsData, clientMessage, Message.tag], rfl⟩⟩
  exact ⟨l, hstop [], hqueue⟩

end Multio.Server
