import Multio.Action.AggregateOrder
import Multio.Action.CoLocation
import Multio.Server.CompletesEarly

namespace Multio.Server
open Multio.Action Lib Exception Scatter

section Sent

variable {ctx : TransportContext} {t : Transport}

theorem sent_toAllServers {msg : Message} (msgs : List Message)
    (h : Metadata.get MetadataValue.getBool ctx.parametrization msg.metadata "toAllServers" =
      .ok true) :
    t.sent ctx (msg :: msgs) =
      t.serverPeers.map (t.trMsg msg msg.metadata) ++ t.sent ctx msgs := by
  rw [Transport.sent, Transport.executeImpl, h]
  rfl

theorem sent_fields {seen : List String} (hservers : 0 < t.serverPeers.length)
    (hcyclic : t.distType ≠ .hashedCyclic) (hafter : t.distType = .even → t.EvenAfter seen)
    (msgs : List Message) (hmsgs : ∀ m ∈ msgs, (hashString ctx t.hashKeys m).isSome) :
    List.Forall₂ (fun m out => distributes ctx m ∧ ∃ q ∈ t.serverPeers,
      out = t.trMsg m (Transport.askedMetadata ctx m) q) msgs (t.sent ctx msgs) := by
  induction msgs generalizing t seen with
  | nil => exact .nil
  | cons m msgs ih =>
    obtain ⟨hm, hmsgs⟩ := List.forall_mem_cons.mp hmsgs
    obtain ⟨k, hk⟩ := Option.isSome_iff_exists.mp hm
    obtain ⟨hdist, hhash, hsent⟩ := Transport.sent_of_hashString_some msgs hk
    obtain ⟨dest, destinations, counters, hchoose, hafter', hdest⟩ :=
      Transport.chooseServer_ok hservers hcyclic hafter hhash
    rw [hsent _ _ hchoose]
    refine .cons ⟨hdist, dest, List.mem_of_getElem? hdest, rfl⟩ ?_
    exact ih (t := { t with destinations, counters }) hservers hcyclic hafter' hmsgs

end Sent

/-- Clients that share a deployment, with the servers that they distribute their fields to. -/
structure Campaign where
  server : DispatchContext
  client : TransportContext
  deployment : Deployment
  distribution : Distribution
  clients : List Client
  /-- What arrives of a message. -/
  wire : Message → Message := id

namespace Campaign

variable (C : Campaign)

def sentMetadata (c : Client) (m : Message) : BaseMetadata :=
  if distributes (c.context C.client) m then Transport.askedMetadata (c.context C.client) m
  else m.metadata

/-- The text of the metadata, which names the field on the servers. -/
def sentField (c : Client) (m : Message) : String := C.server.toString (C.sentMetadata c m)

def sentTo (c : Client) (m : Message) (q : Peer) : Message :=
  (C.distribution.transport c).trMsg m (C.sentMetadata c m) q

def arrived (c : Client) (m : Message) (q : Peer) : Message := C.wire (C.sentTo c m q)

/-- The client first sends its domain to all servers, then its part of each field, once. -/
structure Program (c : Client) (d : Message) (fs : List Message) : Prop where
  messages : c.messages = d :: fs
  toAllServers : Metadata.get MetadataValue.getBool c.parametrization d.metadata "toAllServers" =
    .ok true
  domain : ∀ q, IsDomainMessage C.server C.deployment (C.arrived c d q)
  distributed : ∀ m ∈ fs, (hashString (c.context C.client) C.distribution.hashKeys m).isSome
  fields : ∀ m ∈ fs, ∀ q, IsFieldMessage C.server C.deployment (C.arrived c m q)
  once : (fs.map (C.sentField c)).Nodup
  each : ∀ f ∈ C.deployment.fields, f ∈ fs.map (C.sentField c)

/-- A message arrives as it is, but for its metadata; it keeps their text, as they were sent. -/
structure Carries : Prop where
  tag : ∀ m, (C.wire m).tag = m.tag
  source : ∀ m, (C.wire m).source = m.source
  destination : ∀ m, (C.wire m).destination = m.destination
  payload : ∀ m, (C.wire m).payload = m.payload
  fieldId : ∀ c m q, (C.arrived c m q).fieldId C.server.toContext = C.sentField c m

structure WellFormed : Prop where
  deployment : C.deployment.WellFormed
  carries : C.Carries
  /-- No client has an empty part. -/
  parts : ∀ p ∈ C.deployment.clients, (C.deployment.dom p).indexMap ≠ []
  servers : C.distribution.serverPeers ≠ []
  distinct : C.distribution.serverPeers.Nodup
  distType : C.distribution.distType ≠ .hashedCyclic
  peers : ∀ p, p ∈ C.deployment.clients ↔ ∃ c ∈ C.clients, c.peer = p
  program : ∀ c ∈ C.clients, ∃ d fs, C.Program c d fs
  /-- The hash keys are among what makes a field. -/
  sameField : ∀ c ∈ C.clients, ∀ c' ∈ C.clients, ∀ m ∈ c.messages, ∀ m' ∈ c'.messages,
    m.tag = .field → m'.tag = .field →
    C.sentField c m = C.sentField c' m' →
      hashValues (c.context C.client) C.distribution.hashKeys m =
        hashValues (c'.context C.client) C.distribution.hashKeys m'

/-- Every server gets what is sent to it, the messages of each client in their order. -/
structure Delivered (T : Peer → List Message) : Prop where
  source : ∀ q ∈ C.distribution.serverPeers, ∀ m ∈ T q, m.source ∈ C.deployment.clients
  stream : ∀ q ∈ C.distribution.serverPeers, ∀ c ∈ C.clients,
    (T q).filter (fun m => m.source = c.peer) =
      ((C.distribution.sent C.client c).filter fun m => m.destination = q).map C.wire

structure Whole (fid : String) (global : Message) : Prop where
  length : global.payload.length = (C.deployment.spec fid).bytes
  points : ∀ c ∈ C.clients, ∀ m ∈ c.messages, m.tag = .field →
    C.sentField c m = fid → ∀ e ∈ (C.deployment.dom c.peer).indexMap,
      word (C.deployment.precision fid).size global.payload e.1 =
        word (C.deployment.precision fid).size m.payload e.2

/-- A server that gets `ms` sends the whole field on, once, and nothing is left of it. -/
def AggregatesWhole (fid : String) (ms : List Message) : Prop :=
  ∃ s outs global, dispatch C.server {} ms = .ok (s, outs) ∧
    outputs C.server.toContext fid ms outs = [global] ∧ C.Whole fid global ∧
    s.aggregate.aggCatalogue.messageMap.find? fid = none ∧
    s.aggregate.aggCatalogue.processedParts.find? fid = none

def SendsNothing (fid : String) (ms : List Message) : Prop :=
  ∃ s outs, dispatch C.server {} ms = .ok (s, outs) ∧ outputs C.server.toContext fid ms outs = []

end Campaign

section Gathered

variable {ctx : DispatchContext} {D : Deployment} {T : List Message}

theorem points_lt (hD : D.WellFormed) (hparts : ∀ p ∈ D.clients, (D.dom p).indexMap ≠ [])
    {ps : Finset Peer} (h : ps ⊂ D.clients) : D.points ps < D.size := by
  rw [← hD.points_clients]
  obtain ⟨p, hp, hnot⟩ := Finset.exists_of_ssubset h
  exact Finset.sum_lt_sum_of_subset h.subset hp hnot (List.length_pos_iff.mpr (hparts p hp))
    fun _ _ _ => Nat.zero_le _

theorem not_completesEarly (hD : D.WellFormed)
    (hparts : ∀ p ∈ D.clients, (D.dom p).indexMap ≠ []) (hT : Interleaving ctx D T) :
    ∀ l m r, T = l ++ m :: r → ¬ CompletesEarly ctx D l m := by
  rintro l m r heq ⟨-, hne, hpoints, -⟩
  have hlt := points_lt hD hparts ((hT.registered_subset heq).ssubset_of_ne hne)
  exact hlt.ne hpoints

theorem gathered_total (hD : D.WellFormed) (hT : Interleaving ctx D T)
    (hearly : ∀ l m r, T = l ++ m :: r → ¬ CompletesEarly ctx D l m) {fid : String}
    (pre post : List Message) (heq : T = pre ++ post)
    (hall : senders ctx.toContext fid pre = D.clients) :
    ∃ out, gathered ctx D fid (eventsOf D pre) = [out] ∧
      (parts ctx D).total ((parts ctx D).under fid (eventsOf D pre)) = some out := by
  induction pre using List.reverseRecOn generalizing post with
  | nil =>
    obtain ⟨p, hp⟩ := hD.nonempty
    rw [← hall] at hp
    cases hp
  | append_singleton pre m ih =>
    have heq' : T = pre ++ m :: post := by rw [heq]; simp
    -- the message is the last part of the field, or is of no concern to it
    by_cases hm : m.tag = .field ∧ m.fieldId ctx.toContext = fid
    · obtain ⟨htag, rfl⟩ := hm
      have hmissing : m.source ∉ senders ctx.toContext (m.fieldId ctx.toContext) pre := by
        obtain h | h := hT.next heq'
        · rw [h.1.tag] at htag
          cases htag
        · exact h.2.2
      have hreg : registered pre = D.clients := by
        apply Finset.Subset.antisymm (hT.registered_subset heq')
        rw [← hall, ← registered_append_field htag]
        exact hT.senders_subset heq _
      have hsilent : (parts ctx D).Silent (m.fieldId ctx.toContext) (fun _ => none)
          (eventsOf D pre) := by
        apply silent_of_ne_clients hT heq' hearly
        intro hpre
        rw [hpre] at hmissing
        exact hmissing (hT.source_mem m (by rw [heq']; simp))
      have hgoal : goal D pre =
          some ((parts ctx D).peers (m.fieldId ctx.toContext)
            (eventsOf D pre ++ [(m, goal D pre)])) := by
        rw [← eventsOf_append_field htag, peers_eventsOf, hall, goal_eq_some_iff, hreg]
        exact ⟨hD.points_clients, rfl⟩
      have hkey : (parts ctx D).key (m, goal D pre) = m.fieldId ctx.toContext := rfl
      obtain ⟨-, out, htotal, hout⟩ := (parts ctx D).run_finishing rfl hsilent hkey hgoal
      rw [eventsOf_append_field htag]
      refine ⟨out, ?_, htotal⟩
      rw [gathered_append, if_pos hkey, hout, gathered_eq_nil_iff.mpr hsilent]
      rfl
    · rw [senders_append_of_ne hm] at hall
      obtain ⟨out, hout, htotal⟩ := ih (m :: post) heq' hall
      refine ⟨out, ?_⟩
      by_cases htag : m.tag = .field
      · have hkey : (parts ctx D).key (m, goal D pre) ≠ fid := fun h => hm ⟨htag, h⟩
        rw [eventsOf_append_field htag, gathered_append, if_neg hkey, List.append_nil,
          Gather.under_append, (parts ctx D).under_singleton_of_ne hkey, List.append_nil]
        exact ⟨hout, htotal⟩
      · rw [eventsOf_append_of_ne htag]
        exact ⟨hout, htotal⟩

theorem foldl_parts {fid : String} {part : Peer → List UInt8}
    (es : List (Message × Option (Finset Peer)))
    (hes : ∀ e ∈ es, e.1.fieldId ctx.toContext = fid ∧ e.1.payload = part e.1.source)
    (global : Message) :
    (es.foldl (fun a x => (parts ctx D).add x a) global).payload =
      scatterAll (D.precision fid).size part (es.map fun e => (e.1.source, D.dom e.1.source))
        global.payload := by
  induction es generalizing global with
  | nil => rfl
  | cons e es ih =>
    obtain ⟨hfid, hpart⟩ := hes e List.mem_cons_self
    rw [List.foldl_cons, ih fun x hx => hes x (List.mem_cons_of_mem _ hx)]
    simp only [parts, gather, addPart, hfid, hpart]
    rfl

theorem SystemInv.partition (hD : D.WellFormed) {ms : List Message} {s : ServerState}
    {outs : List (List Message)} (h : SystemInv ctx D ms s outs)
    (hreg : registered ms = D.clients) :
    (∀ e, e ∈ ((s.mappings.find? D.name).getD {}).domainMap.entries ↔
      e.1 ∈ D.clients ∧ e.2 = D.dom e.1) ∧
    Partition ((s.mappings.find? D.name).getD {}) D.size := by
  set dm := (s.mappings.find? D.name).getD {} with hdm
  have hentry : ∀ e, e ∈ dm.domainMap.entries ↔ e.1 ∈ D.clients ∧ e.2 = D.dom e.1 := by
    intro e
    rw [← hreg, ← h.keys]
    constructor
    · intro he
      have hfind := OrderedMap.find?_eq_some_iff.mpr he
      exact ⟨OrderedMap.mem_keys.mpr ⟨_, hfind⟩, h.dom _ _ hfind⟩
    · rintro ⟨hkey, heq⟩
      obtain ⟨d, hd⟩ := OrderedMap.mem_keys.mp hkey
      have hdom := h.dom _ _ hd
      rw [← heq] at hdom
      exact OrderedMap.find?_eq_some_iff.mp (hdom ▸ hd)
  refine ⟨hentry, Multiset.coe_eq_coe.mp ?_⟩
  rw [Multiset.coe_range, ← hD.partition, ← Multiset.coe_bind, Multiset.bind, Multiset.join,
    Multiset.map_coe, Multiset.sum_coe, ← hreg, ← h.keys, OrderedMap.sum_keys]
  congr 1
  refine List.map_congr_left fun e he => ?_
  rw [((hentry e).mp he).2]

theorem Interleaving.isFieldMessage (hT : Interleaving ctx D T) {m : Message} (hm : m ∈ T)
    (htag : m.tag = .field) : IsFieldMessage ctx D m := by
  obtain ⟨pre, post, rfl⟩ := List.append_of_mem hm
  obtain ⟨hdomain, -⟩ | ⟨hfield, -⟩ := hT.next rfl
  · rw [hdomain.tag] at htag
    cases htag
  · exact hfield

theorem Interleaving.unique (hT : Interleaving ctx D T) {m m' : Message} (hm : m ∈ T)
    (hm' : m' ∈ T) (htag : m.tag = .field) (htag' : m'.tag = .field)
    (hsource : m.source = m'.source) (hfid : m.fieldId ctx.toContext = m'.fieldId ctx.toContext) :
    m = m' := by
  obtain ⟨d, fs, hfilter, hd, -, hnodup, -⟩ := hT.stream m.source (hT.source_mem m hm)
  have hmem : ∀ x ∈ T, x.tag = .field → x.source = m.source → x ∈ fs := by
    intro x hx hxtag hxsource
    have hxd : x ∈ d :: fs := by
      rw [← hfilter]
      exact List.mem_filter.mpr ⟨hx, decide_eq_true hxsource⟩
    obtain rfl | hxfs := List.mem_cons.mp hxd
    · rw [hd.tag] at hxtag
      cases hxtag
    · exact hxfs
  exact List.inj_on_of_nodup_map hnodup (hmem m hm htag rfl) (hmem m' hm' htag' hsource.symm) hfid

theorem Interleaving.exists_part (hT : Interleaving ctx D T) (fid : String) :
    ∃ part : Peer → List UInt8, ∀ m ∈ T, m.tag = .field → m.fieldId ctx.toContext = fid →
      m.payload = part m.source := by
  have hpart : ∀ p, ∃ b, ∀ m ∈ T, m.tag = .field → m.fieldId ctx.toContext = fid →
      m.source = p → m.payload = b := by
    intro p
    by_cases h : ∃ m ∈ T, m.tag = .field ∧ m.fieldId ctx.toContext = fid ∧ m.source = p
    · obtain ⟨m, hm, htag, hfid, rfl⟩ := h
      exact ⟨m.payload, fun m' hm' htag' hfid' hsource => congrArg Message.payload
        (hT.unique hm' hm htag' htag hsource (hfid'.trans hfid.symm))⟩
    · exact ⟨[], fun m hm htag hfid hsource => absurd ⟨m, hm, htag, hfid, hsource⟩ h⟩
  choose part hpart using hpart
  exact ⟨part, fun m hm htag hfid => hpart m.source m hm htag hfid rfl⟩

theorem mem_under_eventsOf {fid : String} {ms : List Message} {e : Message × Option (Finset Peer)}
    (he : e ∈ (parts ctx D).under fid (eventsOf D ms)) :
    e.1 ∈ ms ∧ e.1.tag = .field ∧ e.1.fieldId ctx.toContext = fid := by
  obtain ⟨hmem, hkey⟩ := List.mem_filter.mp he
  obtain ⟨es, es', heq⟩ := List.append_of_mem hmem
  obtain ⟨pre, m, post, rfl, htag, rfl, -⟩ := eventsOf_eq_append heq
  exact ⟨by simp, htag, of_decide_eq_true hkey⟩

theorem gathered_points (hD : D.WellFormed) (hT : Interleaving ctx D T)
    (hearly : ∀ l m r, T = l ++ m :: r → ¬ CompletesEarly ctx D l m) {fid : String}
    (hall : senders ctx.toContext fid T = D.clients) :
    ∃ out, gathered ctx D fid (eventsOf D T) = [out] ∧
      out.payload.length = (D.spec fid).bytes ∧
      ∀ m ∈ T, m.tag = .field → m.fieldId ctx.toContext = fid →
        ∀ e ∈ (D.dom m.source).indexMap, word (D.precision fid).size out.payload e.1 =
          word (D.precision fid).size m.payload e.2 := by
  have hsplit : T = T ++ [] := (List.append_nil T).symm
  obtain ⟨out, hout, htotal⟩ := gathered_total hD hT hearly T [] hsplit hall
  obtain ⟨s, outs, -, hinv⟩ := hT.dispatch_prefix hD T [] hsplit
  have hreg : registered T = D.clients :=
    Finset.Subset.antisymm (hT.registered_subset hsplit) (hall ▸ hT.senders_subset hsplit fid)
  obtain ⟨hentry, hpartition⟩ := hinv.partition hD hreg
  set w := (D.precision fid).size with hw
  set es := (parts ctx D).under fid (eventsOf D T) with hes
  obtain ⟨part, hpayload⟩ := hT.exists_part fid
  have hparts : ∀ e ∈ es, e.1.fieldId ctx.toContext = fid ∧ e.1.payload = part e.1.source := by
    intro e he
    obtain ⟨hmem, htag, hfid⟩ := mem_under_eventsOf he
    exact ⟨hfid, hpayload e.1 hmem htag hfid⟩
  have hne : es ≠ [] := by
    intro hnil
    rw [hnil] at htotal
    cases htotal
  obtain ⟨e₀, he₀, hstart⟩ := (parts ctx D).total_of_ne_nil hne
  -- the parts are scattered one after the other, in whatever order they came
  have hscatter := @foldl_parts ctx D fid part es hparts ((parts ctx D).start e₀)
  rw [Option.some.inj (hstart.symm.trans htotal)] at hscatter
  have hinit : ((parts ctx D).start e₀).payload.length = D.size * w := by
    simp [parts, gather, AggregationCatalogue.newMessage, (hparts e₀ he₀).1, FieldSpec.bytes,
      Deployment.spec, hw]
  have hmem : ∀ x ∈ es.map (fun e => (e.1.source, D.dom e.1.source)),
      ∃ m ∈ T, m.tag = .field ∧ m.fieldId ctx.toContext = fid ∧ x = (m.source, D.dom m.source) := by
    intro x hx
    obtain ⟨e, he, rfl⟩ := List.mem_map.mp hx
    obtain ⟨hm, htag, hfid⟩ := mem_under_eventsOf he
    exact ⟨e.1, hm, htag, hfid, rfl⟩
  have hfit : PartsFit w D.size part (es.map fun e => (e.1.source, D.dom e.1.source)) := by
    intro x hx
    obtain ⟨m, hm, htag, hfid, rfl⟩ := hmem x hx
    have hfits := (hT.isFieldMessage hm htag).fits
    rw [hfid] at hfits
    exact ⟨hfits.inBounds, hpayload m hm htag hfid ▸ hfits.payload_eq⟩
  have hsub : ∀ x ∈ es.map (fun e => (e.1.source, D.dom e.1.source)),
      x ∈ ((s.mappings.find? D.name).getD {}).domainMap.entries := by
    intro x hx
    obtain ⟨m, hm, -, -, rfl⟩ := hmem x hx
    exact (hentry _).mpr ⟨hT.source_mem m hm, rfl⟩
  refine ⟨out, hout, ?_, fun m hm htag hfid e he => ?_⟩
  · rw [hscatter]
    exact scatterAll_length hfit hinit
  · have hpeer : m.source ∈ (parts ctx D).peers fid (eventsOf D T) := by
      rw [peers_eventsOf]
      exact mem_senders.mpr ⟨m, hm, ⟨htag, hfid⟩, rfl⟩
    obtain ⟨e', he', hkey, hsource⟩ := (Gather.mem_peers _).mp hpeer
    have hheard : (m.source, D.dom m.source) ∈ es.map fun e => (e.1.source, D.dom e.1.source) :=
      List.mem_map.mpr ⟨e', List.mem_filter.mpr ⟨he', decide_eq_true hkey⟩, by rw [← hsource]; rfl⟩
    rw [hscatter, word_scatterAll hpartition _ hsub hfit hinit hheard he, hpayload m hm htag hfid]

end Gathered

namespace Campaign

variable {C : Campaign} {T : Peer → List Message} {q : Peer}

def deploymentOf (C : Campaign) (ms : List Message) : Deployment :=
  { C.deployment with
    fields := C.deployment.fields.filter fun f => (senders C.server.toContext f ms).Nonempty }

theorem deploymentOf_wellFormed (hC : C.WellFormed) (ms : List Message) :
    (C.deploymentOf ms).WellFormed :=
  ⟨hC.deployment.nonempty, hC.deployment.size_lt, hC.deployment.inBounds,
    hC.deployment.dataCovers, hC.deployment.whole, hC.deployment.partition⟩

theorem sentTo_of_distributes {c : Client} {m : Message} (h : distributes (c.context C.client) m)
    (q : Peer) : C.sentTo c m q = (C.distribution.transport c).trMsg m
      (Transport.askedMetadata (c.context C.client) m) q := by
  unfold sentTo sentMetadata
  rw [if_pos h]

theorem Program.sentTo_domain {c : Client} {d : Message} {fs : List Message}
    (h : C.Program c d fs) : C.sentTo c d = (C.distribution.transport c).trMsg d d.metadata := by
  have hall : ¬ distributes (c.context C.client) d := by
    intro hdist
    cases h.toAllServers.symm.trans hdist
  unfold sentTo sentMetadata
  rw [if_neg hall]

/-- A client sends its domain to all servers, and each of its fields to one of them. -/
theorem Program.sent {c : Client} {d : Message} {fs : List Message} (hC : C.WellFormed)
    (h : C.Program c d fs) : ∃ outs,
      C.distribution.sent C.client c = C.distribution.serverPeers.map (C.sentTo c d) ++ outs ∧
      List.Forall₂ (fun m out => ∃ q ∈ C.distribution.serverPeers, out = C.sentTo c m q)
        fs outs := by
  refine ⟨(C.distribution.transport c).sent (c.context C.client) fs, ?_, ?_⟩
  · rw [Distribution.sent, h.messages, h.sentTo_domain]
    exact sent_toAllServers fs h.toAllServers
  · apply (sent_fields (t := C.distribution.transport c)
      (List.length_pos_iff.mpr hC.servers) hC.distType (fun _ => C.distribution.evenAfter_nil c) fs
      h.distributed).imp
    rintro m out ⟨hdist, q, hq, rfl⟩
    exact ⟨q, hq, (sentTo_of_distributes hdist q).symm⟩

structure Sent (C : Campaign) (c : Client) (m : Message) (q : Peer) : Prop where
  client : c ∈ C.clients
  message : m ∈ c.messages
  tag : m.tag = .field
  server : q ∈ C.distribution.serverPeers
  hash : (hashString (c.context C.client) C.distribution.hashKeys m).isSome
  sent : C.sentTo c m q ∈ C.distribution.sent C.client c

structure Routed (C : Campaign) (c : Client) (fs outs : List Message) : Prop where
  arrives : ∀ m ∈ fs, ∃ q, C.Sent c m q ∧ C.sentTo c m q ∈ outs
  origin : ∀ out ∈ outs, ∃ m ∈ fs, ∃ q, C.Sent c m q ∧ out = C.sentTo c m q
  fieldIds : (outs.map fun m => (C.wire m).fieldId C.server.toContext) =
    fs.map (C.sentField c)

theorem routed_of_forall₂ (hC : C.WellFormed) {c : Client} (hc : c ∈ C.clients)
    {fs outs : List Message}
    (houts : List.Forall₂ (fun m out => ∃ q ∈ C.distribution.serverPeers, out = C.sentTo c m q)
      fs outs)
    (hmessages : ∀ m ∈ fs, m ∈ c.messages ∧ m.tag = .field)
    (hhash : ∀ m ∈ fs, (hashString (c.context C.client) C.distribution.hashKeys m).isSome)
    (hsent : ∀ out ∈ outs, out ∈ C.distribution.sent C.client c) : Routed C c fs outs := by
  induction houts with
  | nil => exact ⟨by simp, by simp, rfl⟩
  | @cons m out fs outs hout _ ih =>
    obtain ⟨q, hq, rfl⟩ := hout
    obtain ⟨hm, hmessages⟩ := List.forall_mem_cons.mp hmessages
    obtain ⟨hmhash, hhash⟩ := List.forall_mem_cons.mp hhash
    obtain ⟨hmsent, hsent⟩ := List.forall_mem_cons.mp hsent
    have ih := ih hmessages hhash hsent
    have hfirst : C.Sent c m q := ⟨hc, hm.1, hm.2, hq, hmhash, hmsent⟩
    refine ⟨List.forall_mem_cons.mpr ⟨⟨q, hfirst, List.mem_cons_self⟩, fun m' hm' => ?_⟩,
      List.forall_mem_cons.mpr ⟨⟨m, List.mem_cons_self, q, hfirst, rfl⟩, fun out hout => ?_⟩, ?_⟩
    · obtain ⟨q', hsent', hmem⟩ := ih.arrives m' hm'
      exact ⟨q', hsent', List.mem_cons_of_mem _ hmem⟩
    · obtain ⟨m', hm', hrest⟩ := ih.origin out hout
      exact ⟨m', List.mem_cons_of_mem _ hm', hrest⟩
    · rw [List.map_cons, List.map_cons, ih.fieldIds]
      exact congrArg (· :: _) (hC.carries.fieldId c m q)

theorem Carries.tag_arrived (h : C.Carries) (c : Client) (m : Message) (q : Peer) :
    (C.arrived c m q).tag = m.tag := h.tag (C.sentTo c m q)

theorem Carries.source_arrived (h : C.Carries) (c : Client) (m : Message) (q : Peer) :
    (C.arrived c m q).source = c.peer := h.source (C.sentTo c m q)

theorem Carries.payload_arrived (h : C.Carries) (c : Client) (m : Message) (q : Peer) :
    (C.arrived c m q).payload = m.payload := h.payload (C.sentTo c m q)

theorem Program.tag_eq (hC : C.WellFormed) {c : Client} {d : Message} {fs : List Message}
    (h : C.Program c d fs) {m : Message} (hm : m ∈ fs) : m.tag = .field :=
  (hC.carries.tag_arrived c m {}).symm.trans (h.fields m hm {}).isPart.tag

theorem Program.domain_tag_eq (hC : C.WellFormed) {c : Client} {d : Message} {fs : List Message}
    (h : C.Program c d fs) : d.tag = .domain :=
  (hC.carries.tag_arrived c d {}).symm.trans (h.domain {}).tag

/-- What a client sends to each server: its domain, then some of its fields. -/
theorem Program.routed (hC : C.WellFormed) {c : Client} (hc : c ∈ C.clients) {d : Message}
    {fs : List Message} (h : C.Program c d fs) :
    ∃ outs, Routed C c fs outs ∧ ∀ q ∈ C.distribution.serverPeers,
      (C.distribution.sent C.client c).filter (fun m => m.destination = q) =
        C.sentTo c d q :: outs.filter fun m => m.destination = q := by
  obtain ⟨outs, hsent, houts⟩ := h.sent hC
  refine ⟨outs, routed_of_forall₂ hC hc houts (fun m hm => ?_) h.distributed (fun out hout => ?_),
    fun q hq => ?_⟩
  · refine ⟨?_, h.tag_eq hC hm⟩
    rw [h.messages]
    exact List.mem_cons_of_mem d hm
  · rw [hsent]
    exact List.mem_append_right _ hout
  · have hone : (C.distribution.serverPeers.map (C.sentTo c d)).filter
        (fun m => m.destination = q) = [C.sentTo c d q] := by
      rw [List.filter_map]
      change (C.distribution.serverPeers.filter fun q' => q' = q).map (C.sentTo c d) = _
      rw [List.filter_eq, List.count_eq_one_of_mem hC.distinct hq]
      rfl
    rw [hsent, List.filter_append, hone, List.singleton_append]

theorem Delivered.routed (hC : C.WellFormed) (hT : C.Delivered T) {c : Client} (hc : c ∈ C.clients)
    {d : Message} {fs : List Message} (h : C.Program c d fs) :
    ∃ outs, Routed C c fs outs ∧ ∀ q ∈ C.distribution.serverPeers,
      (T q).filter (fun m => m.source = c.peer) =
        C.arrived c d q :: (outs.filter fun m => m.destination = q).map C.wire := by
  obtain ⟨outs, hrouted, hsent⟩ := h.routed hC hc
  refine ⟨outs, hrouted, fun q hq => ?_⟩
  rw [hT.stream q hq c hc, hsent q hq]
  rfl

/-- A field message that a server gets is one that a client has sent to it. -/
theorem Delivered.origin (hC : C.WellFormed) (hT : C.Delivered T)
    (hq : q ∈ C.distribution.serverPeers) {m : Message} (hm : m ∈ T q) (htag : m.tag = .field) :
    ∃ c m', C.Sent c m' q ∧ m = C.arrived c m' q := by
  obtain ⟨c, hc, hpeer⟩ := (hC.peers m.source).mp (hT.source q hq m hm)
  obtain ⟨d, fs, hprogram⟩ := hC.program c hc
  obtain ⟨outs, hrouted, hstream⟩ := hT.routed hC hc hprogram
  have hmem : m ∈ C.arrived c d q :: (outs.filter fun m => m.destination = q).map C.wire := by
    rw [← hstream q hq]
    exact List.mem_filter.mpr ⟨hm, decide_eq_true hpeer.symm⟩
  obtain rfl | hmem := List.mem_cons.mp hmem
  · rw [(hprogram.domain q).tag] at htag
    cases htag
  · obtain ⟨out, hout, rfl⟩ := List.mem_map.mp hmem
    obtain ⟨hout, hdest⟩ := List.mem_filter.mp hout
    obtain ⟨m', -, q', hsent, rfl⟩ := hrouted.origin out hout
    obtain rfl : q' = q := of_decide_eq_true hdest
    exact ⟨c, m', hsent, rfl⟩

theorem Delivered.arrives (hC : C.WellFormed) (hT : C.Delivered T) {c : Client}
    (hc : c ∈ C.clients) {m : Message} (hm : m ∈ c.messages) (htag : m.tag = .field) :
    ∃ q, C.Sent c m q ∧ C.arrived c m q ∈ T q := by
  obtain ⟨d, fs, hprogram⟩ := hC.program c hc
  rw [hprogram.messages] at hm
  obtain rfl | hm := List.mem_cons.mp hm
  · rw [hprogram.domain_tag_eq hC] at htag
    cases htag
  · obtain ⟨outs, hrouted, hstream⟩ := hT.routed hC hc hprogram
    obtain ⟨q, hsent, hmem⟩ := hrouted.arrives m hm
    refine ⟨q, hsent, ?_⟩
    have hfiltered : C.arrived c m q ∈ (T q).filter fun m => m.source = c.peer := by
      rw [hstream q hsent.server]
      exact List.mem_cons_of_mem _ (List.mem_map_of_mem
        (List.mem_filter.mpr ⟨hmem, decide_eq_true rfl⟩))
    exact (List.mem_filter.mp hfiltered).1

theorem Sent.server_eq (hC : C.WellFormed) (hco : C.distribution.CoLocated C.client C.clients)
    {c c' : Client} {m m' : Message} {q q' : Peer} (h : C.Sent c m q) (h' : C.Sent c' m' q')
    (hfid : C.sentField c m = C.sentField c' m') : q = q' := by
  obtain ⟨k, hk⟩ := Option.isSome_iff_exists.mp h.hash
  obtain ⟨k', hk'⟩ := Option.isSome_iff_exists.mp h'.hash
  have hdist : distributes (c.context C.client) m :=
    (Transport.sent_of_hashString_some (t := C.distribution.transport c) [] hk).1
  have hdist' : distributes (c'.context C.client) m' :=
    (Transport.sent_of_hashString_some (t := C.distribution.transport c') [] hk').1
  have hvalues := hC.sameField c h.client c' h'.client m h.message m' h'.message h.tag h'.tag hfid
  have hkeyed := c.keyed m h.message
  have hkeyed' := c'.keyed m' h'.message
  have hsent := h.sent
  have hsent' := h'.sent
  rw [sentTo_of_distributes hdist] at hsent
  rw [sentTo_of_distributes hdist'] at hsent'
  exact hco c h.client c' h'.client _ hsent _ hsent'
    ((Transport.distributes_trMsg hkeyed q).mpr hdist)
    ((Transport.distributes_trMsg hkeyed' q').mpr hdist') (by
      rwa [Transport.hashValues_trMsg hkeyed, Transport.hashValues_trMsg hkeyed'])

/-- What a server gets is an interleaving of the deployment of its fields. -/
theorem Delivered.interleaving (hC : C.WellFormed)
    (hco : C.distribution.CoLocated C.client C.clients)
    (hT : C.Delivered T) (hq : q ∈ C.distribution.serverPeers) :
    Interleaving C.server (C.deploymentOf (T q)) (T q) := by
  refine ⟨hT.source q hq, fun p hp => ?_⟩
  obtain ⟨c, hc, rfl⟩ := (hC.peers p).mp hp
  obtain ⟨d, fs, hprogram⟩ := hC.program c hc
  obtain ⟨outs, hrouted, hstream⟩ := hT.routed hC hc hprogram
  have hdomain := hprogram.domain q
  refine ⟨C.arrived c d q, (outs.filter fun m => m.destination = q).map C.wire, hstream q hq,
    ⟨hdomain.tag, hdomain.name, hdomain.domain⟩, fun out hout => ?_, ?_, fun f hf => ?_⟩
  · have hmem : out ∈ T q := by
      have hcons := List.mem_cons_of_mem (C.arrived c d q) hout
      rw [← hstream q hq] at hcons
      exact (List.mem_filter.mp hcons).1
    obtain ⟨out', hout', rfl⟩ := List.mem_map.mp hout
    obtain ⟨m, hm, q', -, rfl⟩ := hrouted.origin out' (List.mem_filter.mp hout').1
    have hfield := hprogram.fields m hm q'
    refine ⟨hfield.isPart, Finset.mem_filter.mpr ⟨hfield.field, c.peer, ?_⟩, hfield.fits⟩
    exact mem_senders.mpr ⟨_, hmem, ⟨hfield.isPart.tag, rfl⟩, hC.carries.source_arrived c m q'⟩
  · have hnodup := hprogram.once
    rw [← hrouted.fieldIds] at hnodup
    rw [List.map_map]
    exact hnodup.sublist (List.filter_sublist.map _)
  · -- a part of the field has come to this server, so the part of the client goes there too
    obtain ⟨hf, p, hp⟩ := Finset.mem_filter.mp hf
    obtain ⟨m₀, hm₀, ⟨htag, hfid⟩, -⟩ := mem_senders.mp hp
    obtain ⟨c', m', hsent', rfl⟩ := hT.origin hC hq hm₀ htag
    obtain ⟨m, hm, rfl⟩ := List.mem_map.mp (hprogram.each f hf)
    obtain ⟨q', hsent, hmem⟩ := hrouted.arrives m hm
    obtain rfl := hsent.server_eq hC hco hsent'
      (hfid.symm.trans (hC.carries.fieldId c' m' q))
    exact List.mem_map.mpr ⟨_, List.mem_map_of_mem
      (List.mem_filter.mpr ⟨hmem, decide_eq_true rfl⟩), hC.carries.fieldId c m q'⟩

/-- The server that a part of a field goes to gets all of them and sends the whole field on. -/
theorem Sent.aggregatesWhole (hC : C.WellFormed)
    (hco : C.distribution.CoLocated C.client C.clients) (hT : C.Delivered T) {c : Client}
    {m : Message} (h : C.Sent c m q) (harrived : C.arrived c m q ∈ T q) {fid : String}
    (hfid : C.sentField c m = fid) (hmem : fid ∈ C.deployment.fields) :
    C.AggregatesWhole fid (T q) := by
  have hD := deploymentOf_wellFormed hC (T q)
  have hI := hT.interleaving hC hco h.server
  have hearly := not_completesEarly hD hC.parts hI
  have hsplit : T q = T q ++ [] := (List.append_nil _).symm
  have htag : (C.arrived c m q).tag = .field := (hC.carries.tag_arrived c m q).trans h.tag
  have hfid' : (C.arrived c m q).fieldId C.server.toContext = fid :=
    (hC.carries.fieldId c m q).trans hfid
  have hfield : fid ∈ (C.deploymentOf (T q)).fields :=
    Finset.mem_filter.mpr ⟨hmem, c.peer, mem_senders.mpr ⟨_, harrived, ⟨htag, hfid'⟩,
      hC.carries.source_arrived c m q⟩⟩
  -- all clients with a part of the field send it to this server
  have hall : senders C.server.toContext fid (T q) = (C.deploymentOf (T q)).clients := by
    apply Finset.Subset.antisymm
    · exact (hI.senders_subset hsplit fid).trans (hI.registered_subset hsplit)
    · intro p hp
      obtain ⟨d, fs, hfilter, -, hfs, -, heach⟩ := hI.stream p hp
      obtain ⟨m', hm', hfidm⟩ := List.mem_map.mp (heach fid hfield)
      have hcons := List.mem_cons_of_mem d hm'
      rw [← hfilter] at hcons
      obtain ⟨hm'', hsource⟩ := List.mem_filter.mp hcons
      exact mem_senders.mpr ⟨m', hm'', ⟨(hfs m' hm').isPart.tag, hfidm⟩, of_decide_eq_true hsource⟩
  obtain ⟨s, outs, hrun, hinv⟩ := hI.dispatch_prefix hD (T q) [] hsplit
  obtain ⟨global, hout, hlength, hpoints⟩ := gathered_points hD hI hearly hall
  have hgone := (gathered_of_eq_clients hD hI hearly (T q) [] hsplit hall).1
  rw [← hinv.pending] at hgone
  refine ⟨s, outs, global, hrun, (hinv.outputs_eq fid).trans hout,
    ⟨hlength, fun c' hc' m' hm' htag' hfidm e he => ?_⟩,
    hinv.catalogue.synced.pending_eq_none hgone⟩
  obtain ⟨q', hsent', harrived'⟩ := hT.arrives hC hc' hm' htag'
  obtain rfl := hsent'.server_eq hC hco h (hfidm.trans hfid.symm)
  have hpoint := hpoints _ harrived' ((hC.carries.tag_arrived c' m' q').trans htag')
    ((hC.carries.fieldId c' m' q').trans hfidm)
  rw [hC.carries.source_arrived, hC.carries.payload_arrived] at hpoint
  exact hpoint e he

theorem Sent.sendsNothing (hC : C.WellFormed)
    (hco : C.distribution.CoLocated C.client C.clients) (hT : C.Delivered T) {c : Client}
    {m : Message} (h : C.Sent c m q) {q' : Peer} (hq' : q' ∈ C.distribution.serverPeers)
    (hne : q' ≠ q) : C.SendsNothing (C.sentField c m) (T q') := by
  have hI := hT.interleaving hC hco hq'
  obtain ⟨s, outs, hrun, -⟩ := hI.dispatch_prefix (deploymentOf_wellFormed hC (T q')) (T q') []
    (List.append_nil _).symm
  refine ⟨s, outs, hrun, ?_⟩
  unfold outputs
  rw [List.flatMap_eq_nil_iff]
  intro x hx
  obtain ⟨hzip, hkey⟩ := List.mem_filter.mp hx
  obtain ⟨htag', hfid'⟩ := of_decide_eq_true hkey
  obtain ⟨c', m', hsent', heq⟩ := hT.origin hC hq' (List.of_mem_zip hzip).1 htag'
  rw [heq, hC.carries.fieldId] at hfid'
  exact absurd (hsent'.server_eq hC hco h hfid') hne

/-- Each field has a server, which depends on what the clients send only. -/
theorem exists_sent (hC : C.WellFormed) {fid : String} (hfid : fid ∈ C.deployment.fields) :
    ∃ c m q, C.Sent c m q ∧ C.sentField c m = fid := by
  obtain ⟨p, hp⟩ := hC.deployment.nonempty
  obtain ⟨c, hc, rfl⟩ := (hC.peers p).mp hp
  obtain ⟨d, fs, hprogram⟩ := hC.program c hc
  obtain ⟨m, hm, rfl⟩ := List.mem_map.mp (hprogram.each fid hfid)
  obtain ⟨outs, hrouted, -⟩ := hprogram.routed hC hc
  obtain ⟨q, hsent, -⟩ := hrouted.arrives m hm
  exact ⟨c, m, q, hsent, rfl⟩

theorem Sent.aggregated (hC : C.WellFormed)
    (hco : C.distribution.CoLocated C.client C.clients) (hT : C.Delivered T) {c : Client}
    {m : Message} (h : C.Sent c m q)
    (hmem : C.sentField c m ∈ C.deployment.fields) :
    C.AggregatesWhole (C.sentField c m) (T q) := by
  obtain ⟨q', hsent, harrived⟩ := hT.arrives hC h.client h.message h.tag
  obtain rfl := hsent.server_eq hC hco h rfl
  exact hsent.aggregatesWhole hC hco hT harrived rfl hmem

/-- Each field is sent on by exactly one server, once and whole. -/
theorem distributed_aggregation (C : Campaign) (hC : C.WellFormed)
    (hco : C.distribution.CoLocated C.client C.clients) (T : Peer → List Message)
    (hT : C.Delivered T) (fid : String) (hfid : fid ∈ C.deployment.fields) :
    ∃ q ∈ C.distribution.serverPeers, C.AggregatesWhole fid (T q) ∧
      ∀ q' ∈ C.distribution.serverPeers, q' ≠ q → C.SendsNothing fid (T q') := by
  obtain ⟨c, m, q, hsent, rfl⟩ := exists_sent hC hfid
  exact ⟨q, hsent.server, hsent.aggregated hC hco hT hfid,
    fun q' hq' hne => hsent.sendsNothing hC hco hT hq' hne⟩

end Campaign

def namesContext : DispatchContext where
  parametrization := { bucketCount := 541 }
  toString md := (md.find? "name").elim "" fun v =>
    (MetadataValue.getString v).toOption.getD ""
  memory _ _ := 0
  parse _ := .error .terminate
  other s _ := .ok s

def serverPeer (i : ℕ) : Peer := { group := "s", id := i }

def pointDomain (i : ℕ) : Message where
  header := { tag := .domain, source := {}, destination := {},
              metadata := { bucketCount := 541,
                            nodes := [("name", .string "d"), ("toAllServers", .bool true),
                                      ("representation", .string "unstructured"),
                                      ("misc-globalSize", .int64 2)] } }
  payload := [UInt8.ofNat i, 0, 0, 0]

def point (i : ℕ) : Message where
  header := { tag := .field, source := {}, destination := {},
              metadata := { bucketCount := 541,
                            nodes := [("name", .string "f"), ("toAllServers", .bool false),
                                      ("domain", .string "d"), ("misc-precision", .string "single"),
                                      ("misc-globalSize", .int64 2)] } }
  payload := List.replicate 4 (UInt8.ofNat i)

def clientOf (i : ℕ) : Client where
  peer := { group := "c", id := i }
  parametrization := { bucketCount := 541 }
  messages := [pointDomain i, point i]
  keyed := by
    have hdomain : (pointDomain i).metadata.Keyed := by
      change ["name", "toAllServers", "representation", "misc-globalSize"].Nodup
      decide
    have hpoint : (point i).metadata.Keyed := by
      change ["name", "toAllServers", "domain", "misc-precision", "misc-globalSize"].Nodup
      decide
    simp [hdomain, hpoint]

def pointServers : Campaign where
  server := namesContext
  client := { toContext := namesContext.toContext
              policy := { hash := String.length, nextBucketCount := fun _ => 541 }
              hash := String.length
              showDouble := fun _ => "", showFloat := fun _ => "" }
  deployment :=
    { clients := {{ group := "c", id := 0 }, { group := "c", id := 1 }}
      name := "d"
      size := 2
      dom := fun p => .unstructured [p.id] 2
      precision := fun _ => .float
      fields := {"f"} }
  distribution :=
    { serverPeers := [serverPeer 0, serverPeer 1]
      clientCount := 2
      usedServerCount := 1
      hashKeys := ["name"]
      distType := .hashedToSingle }
  clients := [clientOf 0, clientOf 1]

theorem sent_clientOf (i : ℕ) : pointServers.distribution.sent pointServers.client (clientOf i) =
    [pointServers.sentTo (clientOf i) (pointDomain i) (serverPeer 0),
     pointServers.sentTo (clientOf i) (pointDomain i) (serverPeer 1),
     pointServers.sentTo (clientOf i) (point i) (serverPeer 1)] := rfl

/-- At the second server, the messages of the second client arrive first. -/
def turned (q : Peer) : List Message :=
  if q = serverPeer 0 then
    [pointServers.sentTo (clientOf 0) (pointDomain 0) q,
     pointServers.sentTo (clientOf 1) (pointDomain 1) q]
  else
    [pointServers.sentTo (clientOf 1) (pointDomain 1) q,
     pointServers.sentTo (clientOf 1) (point 1) q,
     pointServers.sentTo (clientOf 0) (pointDomain 0) q,
     pointServers.sentTo (clientOf 0) (point 0) q]

theorem pointServers_makeDomain {i : ℕ} (hi : i < 2) (q : Peer) :
    Mappings.makeDomain pointServers.server.toContext
      (pointServers.sentTo (clientOf i) (pointDomain i) q) = .ok (.unstructured [(i : ℤ)] 2) := by
  change Mappings.makeDomain pointServers.server.toContext (pointDomain i) = _
  obtain rfl | rfl := Nat.le_one_iff_eq_zero_or_eq_one.mp (Nat.lt_succ_iff.mp hi)
  · rfl
  · rfl

theorem pointServers_program {i : ℕ} (hi : i < 2) :
    pointServers.Program (clientOf i) (pointDomain i) [point i] where
  messages := rfl
  toAllServers := rfl
  domain q := ⟨rfl, rfl, pointServers_makeDomain hi q⟩
  distributed m hm := by
    rw [List.mem_singleton.mp hm]
    rfl
  fields m hm q := by
    rw [List.mem_singleton.mp hm]
    refine ⟨⟨rfl, rfl, rfl, rfl⟩, Finset.mem_singleton.mpr rfl, ?_, rfl, ?_⟩
    · intro l hl
      rw [List.mem_singleton.mp hl]
      exact ⟨Int.natCast_nonneg i, Int.ofNat_lt.mpr hi⟩
    · change (List.replicate 4 (UInt8.ofNat i)).length < 2 ^ 64
      rw [List.length_replicate]
      decide
  once := List.nodup_singleton _
  each f hf := hf

theorem mem_pointServers_peers {p : Peer} (hp : p ∈ pointServers.deployment.clients) :
    ∃ i < 2, (clientOf i).peer = p := by
  obtain rfl | hp := Finset.mem_insert.mp hp
  · exact ⟨0, by decide, rfl⟩
  · exact ⟨1, by decide, (Finset.mem_singleton.mp hp).symm⟩

theorem mem_pointServers_clients {c : Client} (hc : c ∈ pointServers.clients) :
    ∃ i < 2, c = clientOf i := by
  obtain rfl | hc := List.mem_cons.mp hc
  · exact ⟨0, by decide, rfl⟩
  · exact ⟨1, by decide, List.mem_singleton.mp hc⟩

theorem clientOf_mem {i : ℕ} (hi : i < 2) : clientOf i ∈ pointServers.clients ∧
    (clientOf i).peer ∈ pointServers.deployment.clients := by
  obtain rfl | rfl := Nat.le_one_iff_eq_zero_or_eq_one.mp (Nat.lt_succ_iff.mp hi)
  · exact ⟨List.mem_cons_self, by decide⟩
  · exact ⟨List.mem_cons_of_mem _ List.mem_cons_self, by decide⟩

theorem pointServers_hashValues {c c' : Client} (hc : c ∈ pointServers.clients)
    (hc' : c' ∈ pointServers.clients) {m m' : Message} (hm : m ∈ c.messages)
    (hm' : m' ∈ c'.messages) (htag : m.tag = .field) (htag' : m'.tag = .field) :
    hashValues (c.context pointServers.client) pointServers.distribution.hashKeys m =
      hashValues (c'.context pointServers.client) pointServers.distribution.hashKeys m' := by
  have hpoint : ∀ c ∈ pointServers.clients, ∀ m ∈ c.messages, m.tag = .field →
      ∃ i, m = point i := by
    intro c hc m hm htag
    obtain ⟨i, -, rfl⟩ := mem_pointServers_clients hc
    obtain rfl | hm := List.mem_cons.mp hm
    · cases htag
    · exact ⟨i, List.mem_singleton.mp hm⟩
  obtain ⟨i, rfl⟩ := hpoint c hc m hm htag
  obtain ⟨i', rfl⟩ := hpoint c' hc' m' hm' htag'
  obtain ⟨k, -, rfl⟩ := mem_pointServers_clients hc
  obtain ⟨k', -, rfl⟩ := mem_pointServers_clients hc'
  rfl

theorem pointServers_wellFormed : pointServers.WellFormed where
  carries := ⟨fun _ => rfl, fun _ => rfl, fun _ => rfl, fun _ => rfl, fun _ _ _ => rfl⟩
  deployment :=
    { nonempty := by decide
      size_lt := by decide
      inBounds := fun p hp l hl => by
        rw [List.mem_singleton.mp hl]
        obtain ⟨i, hi, rfl⟩ := mem_pointServers_peers hp
        exact ⟨Int.natCast_nonneg i, Int.ofNat_lt.mpr hi⟩
      dataCovers := fun _ _ => trivial
      whole := by decide
      partition := by decide }
  parts := by decide
  servers := by decide
  distinct := by decide
  distType := by decide
  peers p := by
    constructor
    · intro hp
      obtain ⟨i, hi, rfl⟩ := mem_pointServers_peers hp
      exact ⟨clientOf i, (clientOf_mem hi).1, rfl⟩
    · rintro ⟨c, hc, rfl⟩
      obtain ⟨i, hi, rfl⟩ := mem_pointServers_clients hc
      exact (clientOf_mem hi).2
  program c hc := by
    obtain ⟨i, hi, rfl⟩ := mem_pointServers_clients hc
    exact ⟨_, _, pointServers_program hi⟩
  sameField c hc c' hc' m hm m' hm' htag htag' _ :=
    pointServers_hashValues hc hc' hm hm' htag htag'

theorem pointServers_coLocated :
    pointServers.distribution.CoLocated pointServers.client pointServers.clients := by
  have hsecond : ∀ c ∈ pointServers.clients, ∀ m ∈ pointServers.distribution.sent
      pointServers.client c, distributes (c.context pointServers.client) m →
      m.destination = serverPeer 1 := by
    intro c hc m hm hdist
    obtain ⟨i, -, rfl⟩ := mem_pointServers_clients hc
    rw [sent_clientOf] at hm
    obtain rfl | hm := List.mem_cons.mp hm
    · cases hdist
    · obtain rfl | hm := List.mem_cons.mp hm
      · cases hdist
      · rw [List.mem_singleton.mp hm]
        rfl
  intro c hc c' hc' m hm m' hm' hdist hdist' _
  rw [hsecond c hc m hm hdist, hsecond c' hc' m' hm' hdist']

theorem pointServers_delivered : pointServers.Delivered turned where
  source := by decide
  stream q hq c hc := by
    obtain ⟨i, hi, rfl⟩ := mem_pointServers_clients hc
    rw [sent_clientOf]
    obtain rfl | rfl := Nat.le_one_iff_eq_zero_or_eq_one.mp (Nat.lt_succ_iff.mp hi)
    · obtain rfl | hq := List.mem_cons.mp hq
      · rfl
      · rw [List.mem_singleton.mp hq]
        rfl
    · obtain rfl | hq := List.mem_cons.mp hq
      · rfl
      · rw [List.mem_singleton.mp hq]
        rfl

theorem distributed_aggregation_two : ∃ q ∈ [serverPeer 0, serverPeer 1],
    pointServers.AggregatesWhole "f" (turned q) ∧
      ∀ q' ∈ [serverPeer 0, serverPeer 1], q' ≠ q → pointServers.SendsNothing "f" (turned q') :=
  Campaign.distributed_aggregation pointServers pointServers_wellFormed pointServers_coLocated
    turned pointServers_delivered "f" (by decide)

end Multio.Server
