import Multio.Action.AggregateOrder
import Multio.Lib.RepeatedRounds

namespace Multio.Action
open Exception Lib

namespace Aggregate

/-- A flush of the peer `p` for a domain that is complete, with as many peers as there are. -/
structure IsFlush (ctx : AggregateContext) (mappings : Mappings)
    (parse : String → Except Exception BaseMetadata) (parties : Finset Peer) (fid : String)
    (p : Peer) (m : Message) : Prop where
  tag : m.tag = .flush
  source : m.source = p
  fieldId : m.fieldId ctx.toContext = fid
  domain : ∃ name dm,
    Metadata.get MetadataValue.getString ctx.parametrization m.metadata "domain" = .ok name ∧
      name ≠ "global" ∧ mappings.get name = .ok dm ∧ dm.isComplete = .ok true ∧
        dm.size = .ok parties.card
  /-- The text of the flush can be read back. -/
  parsed : ∃ md, parse fid = .ok md

def roundFlush (parse : String → Except Exception BaseMetadata) (fid : String) : List Message :=
  (globalFlush parse fid).toOption.toList

def flushPeers (a : Aggregate) (fid : String) : Finset Peer := (a.flushes.find? fid).getD ∅

/-- In every round one arrival makes a flush go out, the last one of the round. -/
structure ForwardsRounds (parse : String → Except Exception BaseMetadata) (parties : Finset Peer)
    (n : ℕ) (fid : ℕ → String) (order : List (Peer × ℕ)) (outs : List (List Message)) : Prop where
  length_eq : outs.length = order.length
  one_per_round : ∀ j < n, ∃! k : ℕ,
    ∃ p out, order[k]? = some (p, j) ∧ outs[k]? = some out ∧ out ≠ []
  after_all : ∀ (k : ℕ) p (j : ℕ) (out : List Message), order[k]? = some (p, j) →
    outs[k]? = some out → out ≠ [] →
    Complete parties j (order.take (k + 1)) ∧
      ∃ m, globalFlush parse (fid j) = .ok m ∧ out = [m]

variable {ctx : AggregateContext} {mappings : Mappings}
  {parse : String → Except Exception BaseMetadata} {parties : Finset Peer} {fid : String}
  {p : Peer} {m : Message} {a : Aggregate}

theorem roundFlush_eq (h : ∃ md, parse fid = .ok md) :
    ∃ m, globalFlush parse fid = .ok m ∧ roundFlush parse fid = [m] := by
  obtain ⟨md, hmd⟩ := h
  rw [roundFlush, globalFlush, hmd, ok_bind]
  exact ⟨_, rfl, rfl⟩

theorem handleFlush_eq (h : IsFlush ctx mappings parse parties fid p m)
    (flushes : OrderedMap String (Finset Peer)) :
    handleFlush ctx mappings flushes m = flushCount ctx flushes m >>= fun r =>
      if r.2 = parties.card then .ok (r.1.erase fid, true) else .ok (r.1, false) := by
  obtain ⟨name, dm, hname, hglobal, hget, hcomplete, hsize⟩ := h.domain
  rw [handleFlush, hname, ok_bind, if_neg hglobal, hget, ok_bind, h.fieldId]
  simp only [hcomplete, hsize, ok_bind, if_true]

theorem executeImpl_booked (h : IsFlush ctx mappings parse parties fid p m)
    (hp : p ∈ a.flushPeers fid) :
    ∃ text, executeImpl ctx mappings parse a m = .error (.userError text) := by
  have hprint : ∃ text, m.print ctx.toContext = .ok text := by
    rw [Message.print, h.tag]
    exact ⟨_, rfl⟩
  obtain ⟨text, htext⟩ := hprint
  have hcount : flushCount ctx a.flushes m =
      .error (.userError ("Flush message " ++ text ++ " has already been received")) := by
    rw [flushCount, h.fieldId, h.source]
    refine (if_pos hp).trans ?_
    rw [htext]
    rfl
  refine ⟨"Flush message " ++ text ++ " has already been received", ?_⟩
  rw [executeImpl, h.tag]
  simp only []
  rw [handleFlush_eq h, hcount]
  rfl

/-- The first flush of a peer in a round: the last peer makes the flush go out. -/
theorem executeImpl_first (h : IsFlush ctx mappings parse parties fid p m)
    (hp : p ∉ a.flushPeers fid) :
    ∃ a', executeImpl ctx mappings parse a m = .ok (a',
        if (insert p (a.flushPeers fid)).card = parties.card then roundFlush parse fid else []) ∧
      (∀ t ≠ fid, a'.flushPeers t = a.flushPeers t) ∧
      a'.flushPeers fid =
        if (insert p (a.flushPeers fid)).card = parties.card then ∅
        else insert p (a.flushPeers fid) := by
  have hcount : flushCount ctx a.flushes m = .ok (a.flushes.insert fid (insert p (a.flushPeers fid)),
      (insert p (a.flushPeers fid)).card) := by
    rw [flushCount, h.fieldId, h.source]
    exact if_neg hp
  have hhandle := handleFlush_eq h a.flushes
  rw [hcount, ok_bind] at hhandle
  rw [executeImpl, h.tag]
  simp only []
  rw [hhandle]
  split_ifs with hcard
  · obtain ⟨flush, hflush, hround⟩ := roundFlush_eq h.parsed
    rw [ok_bind, if_pos rfl, h.fieldId, hround, hflush]
    refine ⟨_, rfl, ?_, ?_⟩
    · intro t ht
      simp only [flushPeers, OrderedMap.find?_erase, OrderedMap.find?_insert, if_neg ht]
    · simp [flushPeers]
  · rw [ok_bind, if_neg Bool.false_ne_true]
    refine ⟨_, rfl, ?_, ?_⟩
    · intro t ht
      simp only [flushPeers, OrderedMap.find?_insert, if_neg ht]
    · simp [flushPeers]

variable {n : ℕ} {fids : ℕ → String} {flush : Peer → ℕ → Message}

def arrivals (flush : Peer → ℕ → Message) (order : List (Peer × ℕ)) : List Message :=
  order.map fun e => flush e.1 e.2

/-- What each arrival makes go out when `pre` has arrived before. -/
def answers (parse : String → Except Exception BaseMetadata) (parties : Finset Peer)
    (fids : ℕ → String) : List (Peer × ℕ) → List (Peer × ℕ) → List (List Message)
  | _, [] => []
  | pre, e :: post =>
    (if Complete parties e.2 (pre ++ [e]) then roundFlush parse (fids e.2) else []) ::
      answers parse parties fids (pre ++ [e]) post

theorem getElem?_answers (pre order : List (Peer × ℕ)) (k : ℕ) :
    (answers parse parties fids pre order)[k]? = order[k]?.map fun e =>
      if Complete parties e.2 (pre ++ order.take (k + 1)) then roundFlush parse (fids e.2)
      else [] := by
  induction order generalizing pre k with
  | nil => rfl
  | cons e post ih =>
    cases k with
    | zero => rfl
    | succ k =>
      rw [answers, List.getElem?_cons_succ, ih, List.getElem?_cons_succ, List.take_succ_cons,
        List.append_assoc, List.singleton_append]

variable {order pre post : List (Peer × ℕ)}

def Booked (parties : Finset Peer) (fids : ℕ → String) (pre : List (Peer × ℕ)) (a : Aggregate) :
    Prop :=
  ∀ t, a.flushPeers t = waiting parties fids pre t

theorem step_booked (horder : Interleaving parties n order) {p : Peer} {j : ℕ}
    (hsplit : order = pre ++ (p, j) :: post)
    (hflush : IsFlush ctx mappings parse parties (fids j) p m)
    (hrepeat : NoEarlyRepeat parties fids (pre ++ [(p, j)])) (ha : Booked parties fids pre a) :
    ∃ a', executeImpl ctx mappings parse a m = .ok (a',
        if Complete parties j (pre ++ [(p, j)]) then roundFlush parse (fids j) else []) ∧
      Booked parties fids (pre ++ [(p, j)]) a' := by
  have hp : p ∉ a.flushPeers (fids j) := by
    rw [ha]
    exact not_mem_waiting horder hsplit hrepeat
  obtain ⟨a', hstep, hother, hself⟩ := executeImpl_first hflush hp
  simp only [ha (fids j), card_insert_waiting_eq_iff horder hsplit hrepeat] at hstep hself
  refine ⟨a', hstep, ?_⟩
  intro t
  by_cases ht : t = fids j
  · rw [ht, hself]
    split_ifs with hcomplete
    · rw [waiting_of_complete horder hsplit hrepeat hcomplete]
    · rw [waiting_of_open horder hsplit hrepeat hcomplete]
  · rw [hother t ht, ha, waiting_append_of_ne ht]

theorem run_booked (horder : Interleaving parties n order)
    (hflush : ∀ p ∈ parties, ∀ j < n,
      IsFlush ctx mappings parse parties (fids j) p (flush p j))
    (hsplit : order = pre ++ post) (hrepeat : NoEarlyRepeat parties fids order)
    (ha : Booked parties fids pre a) :
    ∃ a', run ctx mappings parse a (arrivals flush post) =
      .ok (a', answers parse parties fids pre post) := by
  induction post generalizing pre a with
  | nil => exact ⟨a, rfl⟩
  | cons e post ih =>
    obtain ⟨p, j⟩ := e
    have hp : p ∈ parties := party_mem horder hsplit
    have hj : j < n := (horder.mem_iff hp j).mp (by rw [hsplit]; simp)
    have hpre : NoEarlyRepeat parties fids (pre ++ [(p, j)]) := by
      rw [hsplit, List.append_cons] at hrepeat
      exact hrepeat.of_append
    obtain ⟨a₁, hstep, ha₁⟩ := step_booked horder hsplit (hflush p hp j hj) hpre ha
    rw [List.append_cons] at hsplit
    obtain ⟨a', hrun⟩ := ih hsplit ha₁
    refine ⟨a', ?_⟩
    rw [arrivals, List.map_cons, run, hstep, ok_bind]
    simp only []
    rw [← arrivals, hrun]
    rfl

theorem run_early (horder : Interleaving parties n order)
    (hflush : ∀ p ∈ parties, ∀ j < n,
      IsFlush ctx mappings parse parties (fids j) p (flush p j))
    (hsplit : order = pre ++ post) (hpre : NoEarlyRepeat parties fids pre)
    (hrepeat : ¬NoEarlyRepeat parties fids order) (ha : Booked parties fids pre a) :
    ∃ text, run ctx mappings parse a (arrivals flush post) = .error (.userError text) := by
  induction post generalizing pre a with
  | nil =>
    rw [List.append_nil] at hsplit
    rw [hsplit] at hrepeat
    exact absurd hpre hrepeat
  | cons e post ih =>
    obtain ⟨p, j⟩ := e
    have hp : p ∈ parties := party_mem horder hsplit
    have hj : j < n := (horder.mem_iff hp j).mp (by rw [hsplit]; simp)
    rw [arrivals, List.map_cons, run, ← arrivals]
    by_cases hearly : ∀ i < j, fids i = fids j → Complete parties i pre
    · have hpre' := @NoEarlyRepeat.concat _ _ _ _ _ p _ hpre hearly
      obtain ⟨a₁, hstep, ha₁⟩ := step_booked horder hsplit (hflush p hp j hj) hpre' ha
      rw [List.append_cons] at hsplit
      obtain ⟨text, hrun⟩ := ih hsplit hpre' ha₁
      refine ⟨text, ?_⟩
      rw [hstep, ok_bind]
      simp only []
      rw [hrun]
      rfl
    · push Not at hearly
      obtain ⟨i, hij, htag, hopen⟩ := hearly
      have hbooked : p ∈ a.flushPeers (fids j) := by
        rw [ha]
        exact mem_waiting_of_early horder hsplit hij htag hopen
      obtain ⟨text, hstep⟩ := executeImpl_booked (hflush p hp j hj) hbooked
      exact ⟨text, by rw [hstep]; rfl⟩

theorem answers_length (pre order : List (Peer × ℕ)) :
    (answers parse parties fids pre order).length = order.length := by
  induction order generalizing pre with
  | nil => rfl
  | cons e post ih => rw [answers, List.length_cons, ih, List.length_cons]

theorem answer_ne_nil_iff (horder : Interleaving parties n order)
    (hparsed : ∀ j < n, ∃ md, parse (fids j) = .ok md) {k j : ℕ} {p : Peer} {out : List Message}
    (hget : order[k]? = some (p, j)) (hout : (answers parse parties fids [] order)[k]? = some out) :
    (out ≠ [] ↔ Complete parties j (order.take (k + 1))) ∧
      (out ≠ [] → ∃ m, globalFlush parse (fids j) = .ok m ∧ out = [m]) := by
  have hmem := List.mem_of_getElem? hget
  obtain ⟨m, hm, hround⟩ :=
    roundFlush_eq (hparsed j ((horder.mem_iff (horder.party _ hmem) j).mp hmem))
  rw [getElem?_answers, hget, Option.map_some, Option.some.injEq, List.nil_append, hround] at hout
  rw [← hout]
  split_ifs with hcomplete
  · exact ⟨iff_of_true (List.cons_ne_nil _ _) hcomplete, fun _ => ⟨m, hm, rfl⟩⟩
  · exact ⟨iff_of_false (fun h => h rfl) hcomplete, fun h => absurd rfl h⟩

theorem answers_forwardsRounds (hparties : parties.Nonempty)
    (horder : Interleaving parties n order) (hparsed : ∀ j < n, ∃ md, parse (fids j) = .ok md) :
    ForwardsRounds parse parties n fids order (answers parse parties fids [] order) where
  length_eq := answers_length _ _
  one_per_round j hj := by
    refine (existsUnique_congr ?_).mp (horder.existsUnique_completing hparties hj)
    intro k
    constructor
    · rintro ⟨p, hget, hcomplete⟩
      obtain ⟨out, hout⟩ : ∃ out, (answers parse parties fids [] order)[k]? = some out := by
        rw [getElem?_answers, hget]
        exact ⟨_, rfl⟩
      exact ⟨p, out, hget, hout,
        (answer_ne_nil_iff horder hparsed hget hout).1.mpr hcomplete⟩
    · rintro ⟨p, out, hget, hout, hne⟩
      exact ⟨p, hget, (answer_ne_nil_iff horder hparsed hget hout).1.mp hne⟩
  after_all k p j out hget hout hne :=
    ⟨(answer_ne_nil_iff horder hparsed hget hout).1.mp hne,
      (answer_ne_nil_iff horder hparsed hget hout).2 hne⟩

/-- One flush goes out in every round, after the flushes of all peers, unless a peer repeats a flush
before all peers have sent it, which ends the run. -/
theorem flush_rounds (ctx : AggregateContext) (mappings : Mappings)
    (parse : String → Except Exception BaseMetadata) {parties : Finset Peer}
    (hparties : parties.Nonempty) {n : ℕ} {fids : ℕ → String} {flush : Peer → ℕ → Message}
    (hflush : ∀ p ∈ parties, ∀ j < n, IsFlush ctx mappings parse parties (fids j) p (flush p j))
    {order : List (Peer × ℕ)} (horder : Interleaving parties n order) {a : Aggregate}
    (ha : ∀ t, a.flushPeers t = ∅) :
    (NoEarlyRepeat parties fids order →
      ∃ a' outs, run ctx mappings parse a (arrivals flush order) = .ok (a', outs) ∧
        ForwardsRounds parse parties n fids order outs) ∧
    (¬NoEarlyRepeat parties fids order →
      ∃ text, run ctx mappings parse a (arrivals flush order) = .error (.userError text)) := by
  have hbooked : Booked parties fids [] a := by
    intro t
    rw [ha]
    simp [waiting]
  constructor
  · intro hrepeat
    obtain ⟨a', hrun⟩ := run_booked horder hflush rfl hrepeat hbooked
    obtain ⟨p, hp⟩ := hparties
    exact ⟨a', _, hrun, answers_forwardsRounds ⟨p, hp⟩ horder
      fun j hj => (hflush p hp j hj).parsed⟩
  · intro hrepeat
    apply run_early horder hflush rfl _ hrepeat hbooked
    intro pre p j post heq
    cases pre <;> cases heq

def client (i : ℕ) : Peer := { group := "c", id := i }

def twoParties : Finset Peer := {client 0, client 1}

/-- A flush of the peer `p` for a domain. -/
def domainFlush (name : String) (p : Peer) : Message where
  header := { tag := .flush, source := p, destination := {},
              metadata := { bucketCount := 541, nodes := [("domain", .string name)] } }

def parseNothing (_ : String) : Except Exception BaseMetadata := .ok { bucketCount := 541 }

theorem domainFlush_isFlush (p : Peer) :
    IsFlush twoContext twoMappings parseNothing twoParties "f" p (domainFlush "d" p) :=
  ⟨rfl, rfl, rfl, ⟨"d", twoDomains, rfl, by decide, rfl, by decide, by decide⟩, _, rfl⟩

/-- The second peer is ahead of the first one in the second round. -/
theorem flush_rounds_two :
    ∃ a outs, run twoContext twoMappings parseNothing {}
        (arrivals (fun p _ => domainFlush "d" p)
          [(client 0, 0), (client 1, 0), (client 1, 1), (client 0, 1)]) = .ok (a, outs) ∧
      ForwardsRounds parseNothing twoParties 2 (fun _ => "f")
        [(client 0, 0), (client 1, 0), (client 1, 1), (client 0, 1)] outs := by
  refine (flush_rounds twoContext twoMappings parseNothing ⟨client 0, by decide⟩
    (fun p _ _ _ => domainFlush_isFlush p) ⟨by decide, by decide⟩ (fun _ => rfl)).1 ?_
  have hnil : NoEarlyRepeat twoParties (fun _ : ℕ => "f") [] := by
    intro pre p j post heq
    cases pre <;> cases heq
  exact (((hnil.concat (by decide)).concat (by decide)).concat (by decide)).concat (by decide)

/-- A flush that the first peer repeats before the second one has sent it is refused, and flushes of
the domain `global` go out one by one. -/
theorem repeated_flush_refused :
    Interleaving twoParties 2 [(client 0, 0), (client 0, 1), (client 1, 0), (client 1, 1)] ∧
    (∃ text, run twoContext twoMappings parseNothing {}
        (arrivals (fun p _ => domainFlush "d" p)
          [(client 0, 0), (client 0, 1), (client 1, 0), (client 1, 1)]) =
      .error (.userError text)) ∧
    ∃ a outs, run twoContext twoMappings parseNothing {}
        (arrivals (fun p _ => domainFlush "global" p) [(client 0, 0), (client 1, 0)]) =
      .ok (a, outs) ∧
      ¬ForwardsRounds parseNothing twoParties 1 (fun _ => "f")
        [(client 0, 0), (client 1, 0)] outs := by
  refine ⟨⟨by decide, by decide⟩, ?_, ?_⟩
  · exact ⟨_, rfl⟩
  · refine ⟨_, _, rfl, ?_⟩
    intro h
    have hcomplete := (h.after_all 0 (client 0) 0 _ rfl rfl (by decide)).1
    exact absurd hcomplete (by decide)

end Aggregate
end Multio.Action
