import Multio.Action.Transport

namespace Multio.Action
open Lib

structure Distribution where
  serverPeers : List Peer
  clientCount : ℕ
  usedServerCount : ℕ
  hashKeys : List String
  distType : DistributionType

structure Client where
  peer : Peer
  parametrization : BaseMetadata
  messages : List Message
  keyed : ∀ msg ∈ messages, msg.metadata.Keyed

variable (ctx : TransportContext)

def Client.context (c : Client) : TransportContext :=
  { ctx with parametrization := c.parametrization }

def distributes (msg : Message) : Prop :=
  Metadata.get MetadataValue.getBool ctx.parametrization msg.metadata "toAllServers" = .ok false

instance (msg : Message) : Decidable (distributes ctx msg) :=
  match h : Metadata.get MetadataValue.getBool ctx.parametrization msg.metadata "toAllServers" with
  | .ok false => .isTrue h
  | .ok true => .isFalse (fun h' => by rw [distributes, h] at h'; cases h')
  | .error _ => .isFalse (fun h' => by rw [distributes, h] at h'; cases h')

def hashValues (hashKeys : List String) (msg : Message) : List (Option MetadataValue) :=
  hashKeys.map (Metadata.find ctx.parametrization msg.metadata)

def hashString (hashKeys : List String) (msg : Message) : Option String :=
  if distributes ctx msg then (Transport.constructHash ctx hashKeys msg.metadata).toOption else none

namespace Distribution

variable (D : Distribution)

def transport (c : Client) : Transport :=
  .make c.peer D.serverPeers D.clientCount D.usedServerCount D.hashKeys D.distType

def sent (c : Client) : List Message := (D.transport c).sent (c.context ctx) c.messages

/-- Parts of one field go to one server, whichever clients send them. -/
def CoLocated (clients : List Client) : Prop :=
  ∀ c ∈ clients, ∀ c' ∈ clients, ∀ msg ∈ D.sent ctx c, ∀ msg' ∈ D.sent ctx c',
    distributes (c.context ctx) msg → distributes (c'.context ctx) msg' →
    hashValues (c.context ctx) D.hashKeys msg = hashValues (c'.context ctx) D.hashKeys msg' →
    msg.destination = msg'.destination

/-- The hash strings that a client sees, in the order of their first occurrence. -/
def seenBy (c : Client) : List String :=
  firstSeen [] (c.messages.filterMap (hashString (c.context ctx) D.hashKeys))

/-- Fields that two clients both send have ranks, among those that each of the two
sends, at which the same server stands. -/
def SameTurns (clients : List Client) : Prop :=
  ∀ c ∈ clients, ∀ c' ∈ clients, ∀ msg ∈ c.messages, ∀ msg' ∈ c'.messages, ∀ k k',
    hashString (c.context ctx) D.hashKeys msg = some k →
    hashString (c'.context ctx) D.hashKeys msg' = some k' →
    hashValues (c.context ctx) D.hashKeys msg = hashValues (c'.context ctx) D.hashKeys msg' →
    D.serverPeers[(D.seenBy ctx c).idxOf k % D.serverPeers.length]? =
      D.serverPeers[(D.seenBy ctx c').idxOf k' % D.serverPeers.length]?

end Distribution

namespace Transport

variable {ctx} {t : Transport}

/-- The state of an even distribution once the hash strings `seen` have been given servers. -/
def EvenAfter (t : Transport) (seen : List String) : Prop :=
  (∀ k, t.destinations.find? k =
    if k ∈ seen then t.serverPeers[seen.idxOf k % t.serverPeers.length]? else none) ∧
  t.counters = Lib.counters t.serverPeers.length seen.length

theorem serverPeer_ok {id : ℕ} (h : id < t.serverPeers.length) :
    t.serverPeer id = .ok t.serverPeers[id] := by
  rw [serverPeer, List.getElem?_eq_getElem h]

theorem chooseServer_even {seen : List String} {k : String} {metadata : BaseMetadata}
    (hservers : 0 < t.serverPeers.length) (heven : t.distType = .even) (hafter : t.EvenAfter seen)
    (hk : constructHash ctx t.hashKeys metadata = .ok k) :
    let seen' := if k ∈ seen then seen else seen ++ [k]
    ∃ dest destinations counters,
      t.chooseServer ctx metadata =
        .ok (dest, { t with destinations := destinations, counters := counters }) ∧
      EvenAfter { t with destinations := destinations, counters := counters } seen' ∧
      t.serverPeers[seen'.idxOf k % t.serverPeers.length]? = some dest := by
  intro seen'
  obtain ⟨hdest, hcount⟩ := hafter
  have hfind := hdest k
  -- a string that was sent before keeps its server, a new one gets the first of the least used
  by_cases hmem : k ∈ seen
  · have hlt := Nat.mod_lt (seen.idxOf k) hservers
    rw [if_pos hmem, List.getElem?_eq_getElem hlt] at hfind
    have hseen : seen' = seen := if_pos hmem
    have hchoose : t.chooseServer ctx metadata =
        .ok (t.serverPeers[seen.idxOf k % t.serverPeers.length], t) := by
      rw [chooseServer, Exception.assert_ok (by simpa using hservers), Exception.ok_bind, hk,
        Exception.ok_bind, heven]
      simp only [hfind]
    refine ⟨t.serverPeers[seen.idxOf k % t.serverPeers.length], t.destinations, t.counters,
      hchoose, ?_, ?_⟩
    · rw [hseen]
      exact ⟨hdest, hcount⟩
    · rw [hseen, List.getElem?_eq_getElem hlt]
  · have hlt := Nat.mod_lt seen.length hservers
    rw [if_neg hmem] at hfind
    have hseen : seen' = seen ++ [k] := if_neg hmem
    have hid : minElement t.counters = seen.length % t.serverPeers.length := by
      rw [hcount, minElement_counters hservers]
    have hlength : t.counters.length = t.serverPeers.length := by
      rw [hcount, Lib.counters, List.length_append, List.length_replicate, List.length_replicate]
      omega
    refine ⟨t.serverPeers[seen.length % t.serverPeers.length],
      t.destinations.insert k t.serverPeers[seen.length % t.serverPeers.length],
      t.counters.modify (minElement t.counters) (· + 1), ?_, ⟨?_, ?_⟩, ?_⟩
    · rw [chooseServer, Exception.assert_ok (by simpa using hservers), Exception.ok_bind, hk,
        Exception.ok_bind, heven]
      simp only [hfind]
      rw [hid, serverPeer_ok hlt, Exception.ok_bind,
        Exception.assert_ok (by rw [hlength]; simpa using hlt), Exception.ok_bind]
    · intro k'
      rw [OrderedMap.find?_insert, hseen]
      by_cases hkk : k' = k
      · rw [if_pos hkk, hkk, if_pos (by simp), idxOf_concat hmem, List.getElem?_eq_getElem hlt]
      · rw [if_neg hkk, hdest k']
        by_cases hk' : k' ∈ seen
        · rw [if_pos hk', if_pos (by simp [hk']), List.idxOf_append_of_mem hk']
        · rw [if_neg hk', if_neg (by simp [hk', hkk])]
    · rw [hid, hseen, List.length_append, List.length_singleton]
      simp only
      rw [hcount, counters_succ hservers]
    · rw [hseen, idxOf_concat hmem, List.getElem?_eq_getElem hlt]

/-- The index of the server of a hash string once `seen` have been given theirs. -/
def place (ctx : TransportContext) (t : Transport) (seen : List String) (k : String) : ℕ :=
  (if t.distType = .even then seen.idxOf k else ctx.hash k) % t.serverPeers.length

theorem chooseServer_ok {seen : List String} {k : String} {metadata : BaseMetadata}
    (hservers : 0 < t.serverPeers.length) (hcyclic : t.distType ≠ .hashedCyclic)
    (hafter : t.distType = .even → t.EvenAfter seen)
    (hk : constructHash ctx t.hashKeys metadata = .ok k) :
    let seen' := if k ∈ seen then seen else seen ++ [k]
    ∃ dest destinations counters,
      t.chooseServer ctx metadata =
        .ok (dest, { t with destinations := destinations, counters := counters }) ∧
      (t.distType = .even →
        EvenAfter { t with destinations := destinations, counters := counters } seen') ∧
      t.serverPeers[t.place ctx seen' k]? = some dest := by
  intro seen'
  by_cases heven : t.distType = .even
  · obtain ⟨dest, destinations, counters, hchoose, hafter', hdest⟩ :=
      chooseServer_even hservers heven (hafter heven) hk
    refine ⟨dest, destinations, counters, hchoose, fun _ => hafter', ?_⟩
    rw [place, if_pos heven]
    exact hdest
  · have hdist : t.distType = .hashedToSingle := by
      cases h : t.distType with
      | hashedCyclic => exact absurd h hcyclic
      | hashedToSingle => rfl
      | even => exact absurd h heven
    have hlt := Nat.mod_lt (ctx.hash k) hservers
    have hchoose : t.chooseServer ctx metadata =
        .ok (t.serverPeers[ctx.hash k % t.serverPeers.length], t) := by
      rw [chooseServer, Exception.assert_ok (by simpa using hservers), Exception.ok_bind, hk,
        Exception.ok_bind, hdist]
      simp only [serverPeer_ok hlt, Exception.ok_bind]
    refine ⟨_, t.destinations, t.counters, hchoose, fun h => absurd h heven, ?_⟩
    rw [place, if_neg heven, List.getElem?_eq_getElem hlt]

section

variable {msg : Message} (hmsg : msg.metadata.Keyed) (dest : Peer)

include hmsg

/-- What is read of a message is not changed by what has been copied into its metadata. -/
theorem find_trMsg (k : String) :
    Metadata.find ctx.parametrization (t.trMsg msg (askedMetadata ctx msg) dest).metadata k =
      Metadata.find ctx.parametrization msg.metadata k :=
  BaseMetadata.find_fetch hmsg _ _ k

theorem distributes_trMsg :
    distributes ctx (t.trMsg msg (askedMetadata ctx msg) dest) ↔ distributes ctx msg := by
  unfold distributes Metadata.get
  rw [find_trMsg hmsg]

theorem hashValues_trMsg (hashKeys : List String) :
    hashValues ctx hashKeys (t.trMsg msg (askedMetadata ctx msg) dest) =
      hashValues ctx hashKeys msg :=
  List.map_congr_left fun k _ => find_trMsg hmsg dest k

end

theorem sent_of_hashString_none (msg : Message) (msgs : List Message)
    (h : hashString ctx t.hashKeys msg = none) :
    ∃ outs, t.sent ctx (msg :: msgs) = outs ++ t.sent ctx msgs ∧
      ∀ out ∈ outs, ¬ distributes ctx out := by
  rw [sent, executeImpl]
  cases hall : Metadata.get MetadataValue.getBool ctx.parametrization msg.metadata "toAllServers"
    with
  | error e => exact ⟨[], rfl, by simp⟩
  | ok all =>
    cases all with
    | true =>
      refine ⟨t.serverPeers.map (t.trMsg msg msg.metadata), rfl, ?_⟩
      intro out hout
      obtain ⟨server, _, rfl⟩ := List.mem_map.mp hout
      intro hfalse
      have htrue : distributes ctx msg := hfalse
      rw [distributes, hall] at htrue
      cases htrue
    | false =>
      have hdist : distributes ctx msg := hall
      rw [hashString, if_pos hdist] at h
      refine ⟨[], ?_, by simp⟩
      cases hk : constructHash ctx t.hashKeys msg.metadata with
      | ok k => rw [hk] at h; cases h
      | error e =>
        have hchoose : ∃ e', t.chooseServer ctx msg.metadata = .error e' := by
          rw [chooseServer, hk]
          cases Exception.assert (0 < t.serverPeers.length) "No server to choose from" with
          | error e' => exact ⟨e', rfl⟩
          | ok _ => exact ⟨e, rfl⟩
        obtain ⟨e', he'⟩ := hchoose
        simp only [Exception.ok_bind, Bool.false_eq_true, if_false, he', Exception.error_bind,
          List.nil_append]

theorem sent_of_hashString_some {msg : Message} {k : String} (msgs : List Message)
    (h : hashString ctx t.hashKeys msg = some k) :
    distributes ctx msg ∧ constructHash ctx t.hashKeys msg.metadata = .ok k ∧
      ∀ dest t', t.chooseServer ctx msg.metadata = .ok (dest, t') →
        t.sent ctx (msg :: msgs) =
          t'.trMsg msg (askedMetadata ctx msg) dest :: t'.sent ctx msgs := by
  rw [hashString] at h
  split_ifs at h with hdist
  refine ⟨hdist, ?_, ?_⟩
  · cases hk : constructHash ctx t.hashKeys msg.metadata with
    | error e => rw [hk] at h; cases h
    | ok k' =>
      rw [hk] at h
      cases h
      rfl
  · intro dest t' hchoose
    rw [sent, executeImpl, hdist]
    simp only [Exception.ok_bind, Bool.false_eq_true, if_false, hchoose, List.singleton_append]

theorem mem_sent_iff {seen : List String} (hservers : 0 < t.serverPeers.length)
    (hcyclic : t.distType ≠ .hashedCyclic) (hafter : t.distType = .even → t.EvenAfter seen)
    {msgs : List Message} (hmsgs : ∀ msg ∈ msgs, msg.metadata.Keyed) (out : Message) :
    out ∈ t.sent ctx msgs ∧ distributes ctx out ↔
      ∃ msg ∈ msgs, ∃ k dest, hashString ctx t.hashKeys msg = some k ∧
        out = t.trMsg msg (askedMetadata ctx msg) dest ∧ t.serverPeers[t.place ctx
          (firstSeen seen (msgs.filterMap (hashString ctx t.hashKeys))) k]? = some dest := by
  -- the strings seen so far are carried along, as they tell the place of the next one
  induction msgs generalizing t seen with
  | nil => simp [sent]
  | cons msg msgs ih =>
    obtain ⟨hmsg, hmsgs⟩ := List.forall_mem_cons.mp hmsgs
    cases hk : hashString ctx t.hashKeys msg with
    | none =>
      obtain ⟨outs, hsent, houts⟩ := sent_of_hashString_none msg msgs hk
      rw [hsent, List.filterMap_cons_none hk, List.exists_mem_cons_iff, hk]
      have hrest := ih hservers hcyclic hafter hmsgs
      rw [← hrest, List.mem_append]
      constructor
      · rintro ⟨hmem | hmem, hdist⟩
        · exact absurd hdist (houts out hmem)
        · exact .inr ⟨hmem, hdist⟩
      · rintro (⟨k, dest, hnone, _⟩ | ⟨hmem, hdist⟩)
        · cases hnone
        · exact ⟨.inr hmem, hdist⟩
    | some k =>
      obtain ⟨hdist, hhash, hsent⟩ := sent_of_hashString_some msgs hk
      obtain ⟨dest, destinations, counters, hchoose, hafter', hdest⟩ :=
        chooseServer_ok hservers hcyclic hafter hhash
      rw [hsent _ _ hchoose, List.filterMap_cons_some hk, firstSeen, List.exists_mem_cons_iff, hk]
      have hrest := ih (t := { t with destinations := destinations, counters := counters })
        hservers hcyclic hafter' hmsgs
      have hmem : k ∈ (if k ∈ seen then seen else seen ++ [k]) := by
        split_ifs with hseen
        · exact hseen
        · simp
      rw [List.mem_cons, or_and_right]
      refine or_congr ?_ hrest
      constructor
      · rintro ⟨rfl, _⟩
        refine ⟨k, dest, rfl, rfl, ?_⟩
        rw [place, idxOf_firstSeen hmem]
        exact hdest
      · rintro ⟨k', dest', hkk, rfl, hdest'⟩
        cases hkk
        rw [place, idxOf_firstSeen hmem] at hdest'
        rw [place, hdest'] at hdest
        cases hdest
        exact ⟨rfl, (distributes_trMsg hmsg dest).mpr hdist⟩

theorem sent_of_no_servers (h : t.serverPeers = []) (msgs : List Message) :
    t.sent ctx msgs = [] := by
  induction msgs with
  | nil => rfl
  | cons msg msgs ih =>
    have hchoose : t.chooseServer ctx msg.metadata =
        .error (.assertionFailed "No server to choose from") := by
      rw [chooseServer, h]
      rfl
    rw [sent, executeImpl, hchoose]
    rcases Metadata.get MetadataValue.getBool ctx.parametrization msg.metadata "toAllServers" with
      e | _ | _
    · exact ih
    · exact ih
    · simp only [Exception.ok_bind, if_true, h, List.map_nil, List.nil_append]
      exact ih

end Transport

variable {ctx} {D : Distribution}

theorem showScalar_congr {ctx ctx' : TransportContext} {key s s' : String}
    {metadata metadata' : BaseMetadata} (hdouble : ctx.showDouble = ctx'.showDouble)
    (hfloat : ctx.showFloat = ctx'.showFloat)
    (hfind : Metadata.find ctx.parametrization metadata key =
      Metadata.find ctx'.parametrization metadata' key)
    (h : (Transport.getMetadataValue ctx metadata key >>= Transport.showScalar ctx key) = .ok s)
    (h' : (Transport.getMetadataValue ctx' metadata' key >>= Transport.showScalar ctx' key) =
      .ok s') : s = s' := by
  obtain ⟨v, hv, hs⟩ := Exception.bind_eq_ok_iff.mp h
  obtain ⟨v', hv', hs'⟩ := Exception.bind_eq_ok_iff.mp h'
  rw [Transport.getMetadataValue] at hv hv'
  rw [hfind] at hv
  have hvalue : v = v' := by
    cases hf : Metadata.find ctx'.parametrization metadata' key with
    | none => rw [hf] at hv; cases hv
    | some w =>
      rw [hf] at hv hv'
      cases hv
      cases hv'
      rfl
  have hshow : Transport.showScalar ctx key = Transport.showScalar ctx' key := by
    funext w
    cases w <;> simp only [Transport.showScalar, hdouble, hfloat]
  rw [hshow, hvalue, hs'] at hs
  cases hs
  rfl

theorem constructHash_congr {ctx ctx' : TransportContext} {hashKeys : List String} {k k' : String}
    {metadata metadata' : BaseMetadata} (hdouble : ctx.showDouble = ctx'.showDouble)
    (hfloat : ctx.showFloat = ctx'.showFloat)
    (hfind : hashKeys.map (Metadata.find ctx.parametrization metadata) =
      hashKeys.map (Metadata.find ctx'.parametrization metadata'))
    (h : Transport.constructHash ctx hashKeys metadata = .ok k)
    (h' : Transport.constructHash ctx' hashKeys metadata' = .ok k') : k = k' := by
  obtain ⟨shown, hshown, hk⟩ := Exception.bind_eq_ok_iff.mp h
  obtain ⟨shown', hshown', hk'⟩ := Exception.bind_eq_ok_iff.mp h'
  have hsame : shown = shown' := by
    have hall := Exception.mapM_eq_ok_iff.mp hshown
    have hall' := Exception.mapM_eq_ok_iff.mp hshown'
    clear hshown hshown' hk hk' h h'
    induction hall generalizing shown' with
    | nil => rw [List.forall₂_nil_left_iff.mp hall']
    | @cons key s keys shown hs _ ih =>
      obtain ⟨s', shown', hs', hrest', rfl⟩ := List.forall₂_cons_left_iff.mp hall'
      rw [List.map_cons, List.map_cons, List.cons.injEq] at hfind
      rw [showScalar_congr hdouble hfloat hfind.1 hs hs', ih hfind.2 shown' hrest']
  cases hk
  cases hk'
  rw [hsame]

theorem hashString_congr {c c' : Client} {msg msg' : Message} {k k' : String}
    (hvalues : hashValues (c.context ctx) D.hashKeys msg =
      hashValues (c'.context ctx) D.hashKeys msg')
    (hk : hashString (c.context ctx) D.hashKeys msg = some k)
    (hk' : hashString (c'.context ctx) D.hashKeys msg' = some k') : k = k' := by
  have hhash : Transport.constructHash (c.context ctx) D.hashKeys msg.metadata = .ok k :=
    (Transport.sent_of_hashString_some (t := D.transport c) [] hk).2.1
  have hhash' : Transport.constructHash (c'.context ctx) D.hashKeys msg'.metadata = .ok k' :=
    (Transport.sent_of_hashString_some (t := D.transport c') [] hk').2.1
  apply constructHash_congr _ _ hvalues hhash hhash'
  · rfl
  · rfl

theorem Distribution.evenAfter_nil (D : Distribution) (c : Client) :
    (D.transport c).EvenAfter [] := by
  constructor
  · intro k
    rfl
  · exact (counters_zero D.serverPeers.length).symm

theorem Distribution.mem_sent_iff (hservers : 0 < D.serverPeers.length)
    (hcyclic : D.distType ≠ .hashedCyclic) (c : Client) (out : Message) :
    out ∈ D.sent ctx c ∧ distributes (c.context ctx) out ↔
      ∃ msg ∈ c.messages, ∃ k dest, hashString (c.context ctx) D.hashKeys msg = some k ∧
        out = (D.transport c).trMsg msg (Transport.askedMetadata (c.context ctx) msg) dest ∧
        D.serverPeers[(D.transport c).place (c.context ctx) (D.seenBy ctx c) k]? = some dest :=
  Transport.mem_sent_iff (t := D.transport c) hservers hcyclic (fun _ => D.evenAfter_nil c)
    c.keyed out

/-- Hashing sends parts of one field to one server. An even distribution does if and
only if fields that two clients both send get the same server at their ranks. -/
theorem Distribution.coLocated_iff (ctx : TransportContext) (D : Distribution)
    (clients : List Client) (hcyclic : D.distType ≠ .hashedCyclic) :
    D.CoLocated ctx clients ↔ D.distType = .hashedToSingle ∨ D.SameTurns ctx clients := by
  rcases Nat.eq_zero_or_pos D.serverPeers.length with hnone | hservers
  · have hnil : D.serverPeers = [] := List.length_eq_zero_iff.mp hnone
    constructor
    · intro _
      right
      intro c _ c' _ msg _ msg' _ k k' _ _ _
      rw [hnil, List.getElem?_nil, List.getElem?_nil]
    · intro _ c _ c' _ msg hmsg
      rw [Distribution.sent, Transport.sent_of_no_servers hnil] at hmsg
      cases hmsg
  constructor
  · intro hco
    by_cases hsingle : D.distType = .hashedToSingle
    · exact .inl hsingle
    right
    have heven : D.distType = .even := by
      cases h : D.distType with
      | hashedCyclic => exact absurd h hcyclic
      | hashedToSingle => exact absurd h hsingle
      | even => rfl
    have hplace : ∀ c k, (D.transport c).place (c.context ctx) (D.seenBy ctx c) k =
        (D.seenBy ctx c).idxOf k % D.serverPeers.length := by
      intro c k
      rw [Transport.place, if_pos (show (D.transport c).distType = .even from heven)]
      rfl
    intro c hc c' hc' msg hmsg msg' hmsg' k k' hk hk' hvalues
    -- both messages are sent on, each to the server at its place
    have hlt := Nat.mod_lt ((D.seenBy ctx c).idxOf k) hservers
    have hlt' := Nat.mod_lt ((D.seenBy ctx c').idxOf k') hservers
    rw [List.getElem?_eq_getElem hlt, List.getElem?_eq_getElem hlt']
    obtain ⟨hsent, hdist⟩ := (mem_sent_iff hservers hcyclic c _).mpr
      ⟨msg, hmsg, k, _, hk, rfl, by rw [hplace, List.getElem?_eq_getElem hlt]⟩
    obtain ⟨hsent', hdist'⟩ := (mem_sent_iff hservers hcyclic c' _).mpr
      ⟨msg', hmsg', k', _, hk', rfl, by rw [hplace, List.getElem?_eq_getElem hlt']⟩
    have hkeyed := c.keyed msg hmsg
    have hkeyed' := c'.keyed msg' hmsg'
    exact congrArg some (hco c hc c' hc' _ hsent _ hsent' hdist hdist' (by
      rwa [Transport.hashValues_trMsg hkeyed, Transport.hashValues_trMsg hkeyed']))
  · intro hturns c hc c' hc' out hout out' hout' hdist hdist' hvalues
    obtain ⟨msg, hmsg, k, dest, hk, rfl, hdest⟩ :=
      (mem_sent_iff hservers hcyclic c out).mp ⟨hout, hdist⟩
    obtain ⟨msg', hmsg', k', dest', hk', rfl, hdest'⟩ :=
      (mem_sent_iff hservers hcyclic c' out').mp ⟨hout', hdist'⟩
    rw [Transport.hashValues_trMsg (c.keyed msg hmsg),
      Transport.hashValues_trMsg (c'.keyed msg' hmsg')] at hvalues
    have hkk : k = k' := hashString_congr hvalues hk hk'
    change dest = dest'
    rw [Transport.place] at hdest hdest'
    by_cases heven : D.distType = .even
    · have hsame := hturns.resolve_left (by rw [heven]; decide) c hc c' hc' msg hmsg msg' hmsg'
        k k' hk hk' hvalues
      rw [if_pos (show (D.transport c).distType = .even from heven)] at hdest
      rw [if_pos (show (D.transport c').distType = .even from heven)] at hdest'
      have hboth : some dest = some dest' := hdest.symm.trans (hsame.trans hdest')
      exact Option.some.inj hboth
    · rw [if_neg (show (D.transport c).distType ≠ .even from heven), hkk] at hdest
      rw [if_neg (show (D.transport c').distType ≠ .even from heven)] at hdest'
      have hboth : some dest = some dest' := hdest.symm.trans hdest'
      exact Option.some.inj hboth

def plainContext : TransportContext where
  parametrization := { bucketCount := 541 }
  toString _ := ""
  policy := { hash := String.length, nextBucketCount := fun _ => 541 }
  hash := String.length
  showDouble _ := ""
  showFloat _ := ""

def partOf (name : String) : Message where
  header := { tag := .field, source := {}, destination := {},
              metadata := { bucketCount := 541,
                            nodes := [("category", .string "ocean-2d"), ("name", .string name),
                                      ("level", .int64 0), ("toAllServers", .bool false)] } }

def twoServers (distType : DistributionType) : Distribution where
  serverPeers := [{ group := "multio", id := 2 }, { group := "multio", id := 3 }]
  clientCount := 2
  usedServerCount := 1
  hashKeys := getHashKeys none
  distType

theorem partOf_keyed (name : String) : (partOf name).metadata.Keyed := by
  change ["category", "name", "level", "toAllServers"].Nodup
  decide

def clientOfTwo (id : ℕ) (first second : String) : Client where
  peer := { group := "multio", id }
  parametrization := { bucketCount := 541 }
  messages := [partOf first, partOf second]
  keyed := by simp [partOf_keyed]

def opposite : List Client := [clientOfTwo 0 "sst" "ssh", clientOfTwo 1 "ssh" "sst"]

theorem coLocated_iff_two :
    (twoServers .hashedToSingle).CoLocated plainContext opposite :=
  (Distribution.coLocated_iff plainContext (twoServers .hashedToSingle) opposite (by decide)).mpr
    (.inl rfl)

def sentPart (c : Client) (name : String) (server : ℕ) : Message :=
  ((twoServers .even).transport c).trMsg (partOf name) (partOf name).metadata
    { group := "multio", id := server }

theorem even_separates_parts : ¬ (twoServers .even).CoLocated plainContext opposite := by
  intro h
  let c : Client := opposite.head (by decide)
  let c' : Client := opposite.getLast (by decide)
  have hsent : sentPart c "sst" 2 ∈ (twoServers .even).sent plainContext c := by
    have hall : (twoServers .even).sent plainContext c =
        [sentPart c "sst" 2, sentPart c "ssh" 3] := by rfl
    rw [hall]
    exact List.mem_cons_self
  have hsent' : sentPart c' "sst" 3 ∈ (twoServers .even).sent plainContext c' := by
    have hall : (twoServers .even).sent plainContext c' =
        [sentPart c' "ssh" 2, sentPart c' "sst" 3] := by rfl
    rw [hall]
    exact List.mem_cons_of_mem _ List.mem_cons_self
  have hsame := h c (List.head_mem _) c' (List.getLast_mem _) _ hsent _ hsent' rfl rfl rfl
  exact absurd (congrArg Peer.id hsame) (by decide)

end Multio.Action
