import Multio.Server.Dispatcher
import Multio.Action.AggregateStep
import Multio.Domain.DomainSize
import Mathlib.Algebra.Order.BigOperators.Group.Finset
import Mathlib.Algebra.BigOperators.Group.Multiset.Basic
import Mathlib.Algebra.Order.Group.Multiset

namespace Multio.Server
open Multio.Action Lib Exception

/-- Clients that each hold a part of the fields of one domain. -/
structure Deployment where
  clients : Finset Peer
  name : String
  size : ℕ
  dom : Peer → Domain
  precision : String → PrecisionTag
  fields : Finset String

namespace Deployment

def spec (D : Deployment) (fid : String) : FieldSpec :=
  { domain := D.name, precision := D.precision fid, size := D.size }

/-- The parts are disjoint and cover the field; some of them may be empty. -/
structure WellFormed (D : Deployment) : Prop where
  nonempty : D.clients.Nonempty
  size_lt : D.size < 2 ^ 31
  inBounds : ∀ p ∈ D.clients, (D.dom p).InBounds D.size
  dataCovers : ∀ p ∈ D.clients, (D.dom p).DataCovers
  whole : ∀ p ∈ D.clients, (D.dom p).partialSize = D.size
  partition : ∑ p ∈ D.clients, (((D.dom p).indexMap.map Prod.fst : List ℕ) : Multiset ℕ) =
    Multiset.range D.size

def points (D : Deployment) (ps : Finset Peer) : ℕ := ∑ p ∈ ps, (D.dom p).indexMap.length

theorem WellFormed.points_clients {D : Deployment} (hD : D.WellFormed) :
    D.points D.clients = D.size := by
  have hcard := congrArg Multiset.card hD.partition
  rw [Multiset.card_sum, Multiset.card_range] at hcard
  rw [← hcard]
  apply Finset.sum_congr rfl
  intro p _
  simp

theorem WellFormed.points_le {D : Deployment} (hD : D.WellFormed) {ps : Finset Peer}
    (h : ps ⊆ D.clients) : D.points ps ≤ D.size := by
  rw [← hD.points_clients]
  exact Finset.sum_le_sum_of_subset h

end Deployment

def registered (ms : List Message) : Finset Peer :=
  ((ms.filter fun m => m.tag = .domain).map Message.source).toFinset

def senders (ctx : Context) (fid : String) (ms : List Message) : Finset Peer :=
  ((ms.filter fun m => m.tag = .field ∧ m.fieldId ctx = fid).map Message.source).toFinset

variable (ctx : DispatchContext) (D : Deployment)

structure IsDomainMessage (m : Message) : Prop where
  tag : m.tag = .domain
  name : m.name ctx.toContext = .ok D.name
  domain : Mappings.makeDomain ctx.toContext m = .ok (D.dom m.source)

structure IsFieldMessage (m : Message) : Prop where
  isPart : IsPart ctx.toContext (D.spec (m.fieldId ctx.toContext)) m
  field : m.fieldId ctx.toContext ∈ D.fields
  fits : Fits (D.spec (m.fieldId ctx.toContext)) (D.dom m.source) m

/-- Every client sends its domain and then its part of each field, once. -/
structure Interleaving (T : List Message) : Prop where
  source_mem : ∀ m ∈ T, m.source ∈ D.clients
  stream : ∀ p ∈ D.clients, ∃ d fs, T.filter (fun m => m.source = p) = d :: fs ∧
    IsDomainMessage ctx D d ∧ (∀ m ∈ fs, IsFieldMessage ctx D m) ∧
    (fs.map fun m => m.fieldId ctx.toContext).Nodup ∧
    ∀ f ∈ D.fields, f ∈ fs.map fun m => m.fieldId ctx.toContext

/-- The last registered part of a field arrives while the registered parts add up to the field
but a client's domain is missing. -/
def CompletesEarly (pre : List Message) (m : Message) : Prop :=
  m.tag = .field ∧ registered pre ≠ D.clients ∧ D.points (registered pre) = D.size ∧
    senders ctx.toContext (m.fieldId ctx.toContext) (pre ++ [m]) = registered pre

theorem mem_registered {ms : List Message} {p : Peer} :
    p ∈ registered ms ↔ ∃ m ∈ ms, m.tag = .domain ∧ m.source = p := by
  simp [registered, and_assoc]

theorem mem_senders {ctx : Context} {fid : String} {ms : List Message} {p : Peer} :
    p ∈ senders ctx fid ms ↔
      ∃ m ∈ ms, (m.tag = .field ∧ m.fieldId ctx = fid) ∧ m.source = p := by
  simp [senders, and_assoc]

theorem registered_append (ms ms' : List Message) :
    registered (ms ++ ms') = registered ms ∪ registered ms' := by
  simp [registered, List.toFinset_append]

theorem senders_append (ctx : Context) (fid : String) (ms ms' : List Message) :
    senders ctx fid (ms ++ ms') = senders ctx fid ms ∪ senders ctx fid ms' := by
  simp [senders, List.toFinset_append]

variable {ctx D}

theorem Interleaving.next {T pre post : List Message} {m : Message} (hT : Interleaving ctx D T)
    (heq : T = pre ++ m :: post) :
    (IsDomainMessage ctx D m ∧ m.source ∉ registered pre) ∨
      (IsFieldMessage ctx D m ∧ m.source ∈ registered pre ∧
        m.source ∉ senders ctx.toContext (m.fieldId ctx.toContext) pre) := by
  obtain ⟨d, fs, hfilter, hd, hfs, hnodup, -⟩ := hT.stream m.source
    (hT.source_mem m (by rw [heq]; simp))
  rw [heq, List.filter_append, List.filter_cons_of_pos (by simp)] at hfilter
  -- the first message of a client is its domain, and the later ones are its fields
  cases hpre : pre.filter (fun x => x.source = m.source) with
  | nil =>
    rw [hpre, List.nil_append] at hfilter
    obtain ⟨rfl, -⟩ := List.cons.inj hfilter
    refine Or.inl ⟨hd, ?_⟩
    intro hreg
    obtain ⟨x, hx, -, hs⟩ := mem_registered.mp hreg
    have : x ∈ pre.filter (fun x => x.source = m.source) :=
      List.mem_filter.mpr ⟨hx, decide_eq_true hs⟩
    rw [hpre] at this
    cases this
  | cons x xs =>
    rw [hpre, List.cons_append] at hfilter
    obtain ⟨rfl, hfs_eq⟩ := List.cons.inj hfilter
    have hm : m ∈ fs := by rw [← hfs_eq]; simp
    have hmem : ∀ y, y ∈ pre ∧ y.source = m.source ↔ y ∈ x :: xs := by
      intro y
      rw [← hpre, List.mem_filter, decide_eq_true_eq]
    refine Or.inr ⟨hfs m hm, ?_, ?_⟩
    · obtain ⟨hx, hs⟩ := (hmem x).mpr List.mem_cons_self
      exact mem_registered.mpr ⟨x, hx, hd.tag, hs⟩
    · intro hsend
      obtain ⟨y, hy, ⟨htag, hfid⟩, hs⟩ := mem_senders.mp hsend
      rcases List.mem_cons.mp ((hmem y).mp ⟨hy, hs⟩) with rfl | hyx
      · rw [hd.tag] at htag
        cases htag
      · rw [← hfs_eq, List.map_append, List.map_cons] at hnodup
        have hdis := List.disjoint_of_nodup_append hnodup
        exact hdis (List.mem_map.mpr ⟨y, hyx, rfl⟩) (by rw [hfid]; exact List.mem_cons_self)

theorem Interleaving.registered_subset {T pre post : List Message} (hT : Interleaving ctx D T)
    (heq : T = pre ++ post) : registered pre ⊆ D.clients := by
  intro p hp
  obtain ⟨m, hm, -, rfl⟩ := mem_registered.mp hp
  exact hT.source_mem m (by rw [heq]; exact List.mem_append_left _ hm)

theorem Interleaving.senders_subset {T pre post : List Message} (hT : Interleaving ctx D T)
    (heq : T = pre ++ post) (fid : String) :
    senders ctx.toContext fid pre ⊆ registered pre := by
  intro p hp
  obtain ⟨m, hm, ⟨htag, -⟩, rfl⟩ := mem_senders.mp hp
  obtain ⟨l, r, rfl⟩ := List.append_of_mem hm
  have heq' : T = l ++ m :: (r ++ post) := by rw [heq]; simp
  rcases hT.next heq' with h | h
  · rw [h.1.tag] at htag
    cases htag
  · rw [registered_append]
    exact Finset.mem_union_left _ h.2.1

/-- The peers that complete a field according to the domains registered so far. -/
def goal (D : Deployment) (pre : List Message) : Option (Finset Peer) :=
  if D.points (registered pre) = D.size then some (registered pre) else none

/-- The field messages of `ms`, which follows `pre`, each with the peers that complete its field. -/
def events (D : Deployment) (pre : List Message) :
    List Message → List (Message × Option (Finset Peer))
  | [] => []
  | m :: ms =>
    (if m.tag = .field then [(m, goal D pre)] else []) ++ events D (pre ++ [m]) ms

theorem events_append (D : Deployment) (pre ms ms' : List Message) :
    events D pre (ms ++ ms') = events D pre ms ++ events D (pre ++ ms) ms' := by
  induction ms generalizing pre with
  | nil => simp [events]
  | cons m ms ih =>
    rw [List.cons_append, events, events, ih, List.append_assoc, List.append_assoc]
    rfl

def eventsOf (D : Deployment) (ms : List Message) : List (Message × Option (Finset Peer)) :=
  events D [] ms

theorem eventsOf_append_field {ms : List Message} {m : Message} (h : m.tag = .field) :
    eventsOf D (ms ++ [m]) = eventsOf D ms ++ [(m, goal D ms)] := by
  rw [eventsOf, events_append, List.nil_append]
  simp [events, h, eventsOf]

theorem eventsOf_append_of_ne {ms : List Message} {m : Message} (h : m.tag ≠ .field) :
    eventsOf D (ms ++ [m]) = eventsOf D ms := by
  rw [eventsOf, events_append, List.nil_append]
  simp [events, h, eventsOf]

def parts (ctx : DispatchContext) (D : Deployment) :
    Gather String Peer Message (Message × Option (Finset Peer)) :=
  gather ctx.toAggregateContext D.spec fun _ p => D.dom p

theorem peers_eventsOf (fid : String) (ms : List Message) :
    (parts ctx D).peers fid (eventsOf D ms) = senders ctx.toContext fid ms := by
  induction ms using List.reverseRecOn with
  | nil => rfl
  | append_singleton ms m ih =>
    rw [senders_append, ← ih]
    by_cases htag : m.tag = .field
    · rw [eventsOf_append_field htag]
      by_cases hfid : m.fieldId ctx.toContext = fid
      · rw [(parts ctx D).peers_append_of_eq _
          (show (parts ctx D).key (m, goal D ms) = fid from hfid)]
        ext p
        simp [senders, htag, hfid, parts, gather]
      · rw [(parts ctx D).peers_append_of_ne _
          (show (parts ctx D).key (m, goal D ms) ≠ fid from hfid)]
        simp [senders, htag, hfid]
    · rw [eventsOf_append_of_ne htag]
      simp [senders, htag]

/-- The messages that the field messages of a field made go out. -/
def outputs (ctx : Context) (fid : String) (ms : List Message) (outs : List (List Message)) :
    List Message :=
  ((ms.zip outs).filter fun x => x.1.tag = .field ∧ x.1.fieldId ctx = fid).flatMap Prod.snd

theorem outputs_append {ctx : Context} {fid : String} {ms : List Message} {m : Message}
    {outs : List (List Message)} {out : List Message} (h : ms.length = outs.length) :
    outputs ctx fid (ms ++ [m]) (outs ++ [out]) = outputs ctx fid ms outs ++
      (if m.tag = .field ∧ m.fieldId ctx = fid then out else []) := by
  rw [outputs, List.zip_append h, List.filter_append, List.flatMap_append, outputs]
  congr 1
  by_cases hm : m.tag = .field ∧ m.fieldId ctx = fid
  · simp [hm]
  · simp [hm]

def gathered (ctx : DispatchContext) (D : Deployment) (fid : String)
    (es : List (Message × Option (Finset Peer))) : List Message :=
  ((es.zip ((parts ctx D).run (fun _ => none) es).2).filter
    fun x => (parts ctx D).key x.1 = fid).flatMap fun x => x.2.toList

theorem gathered_append (fid : String) (es : List (Message × Option (Finset Peer)))
    (e : Message × Option (Finset Peer)) :
    gathered ctx D fid (es ++ [e]) = gathered ctx D fid es ++
      (if (parts ctx D).key e = fid then
        ((parts ctx D).step ((parts ctx D).run (fun _ => none) es).1 e).2.toList else []) := by
  rw [gathered, Gather.run_append, List.zip_append ((parts ctx D).run_length _ es).symm,
    List.filter_append, List.flatMap_append, gathered]
  congr 1
  by_cases he : (parts ctx D).key e = fid
  · simp [he, Gather.run]
  · simp [he, Gather.run]

/-- The state of the server after the trace `ms`, of which `outs` went out. -/
structure SystemInv (ctx : DispatchContext) (D : Deployment) (ms : List Message)
    (s : ServerState) (outs : List (List Message)) : Prop where
  consistent : ((s.mappings.find? D.name).getD {}).consistent = false
  keys : ((s.mappings.find? D.name).getD {}).domainMap.keys = registered ms
  dom : ∀ p d, ((s.mappings.find? D.name).getD {}).domainMap.find? p = some d → d = D.dom p
  pending : s.aggregate.aggCatalogue.pending =
    ((parts ctx D).run (fun _ => none) (eventsOf D ms)).1
  catalogue : CatalogueInv s.mappings D.spec s.aggregate.aggCatalogue
  length_eq : ms.length = outs.length
  outputs_eq : ∀ fid, outputs ctx.toContext fid ms outs = gathered ctx D fid (eventsOf D ms)

theorem SystemInv.initial : SystemInv ctx D [] {} [] where
  consistent := rfl
  keys := rfl
  dom p d h := by cases h
  pending := rfl
  catalogue := CatalogueInv.empty _ _
  length_eq := rfl
  outputs_eq _ := rfl

section Registered
variable {ms : List Message} {s : ServerState} {outs : List (List Message)}

theorem SystemInv.find?_mappings (h : SystemInv ctx D ms s outs) {p : Peer}
    (hp : p ∈ registered ms) :
    s.mappings.find? D.name = some ((s.mappings.find? D.name).getD {}) := by
  cases hfind : s.mappings.find? D.name with
  | none =>
    rw [← h.keys, hfind] at hp
    obtain ⟨d, hd⟩ := OrderedMap.mem_keys.mp hp
    cases hd
  | some dm => rfl

theorem SystemInv.find?_domain (h : SystemInv ctx D ms s outs) {p : Peer}
    (hp : p ∈ registered ms) :
    ((s.mappings.find? D.name).getD {}).domainMap.find? p = some (D.dom p) := by
  rw [← h.keys] at hp
  obtain ⟨d, hd⟩ := OrderedMap.mem_keys.mp hp
  rw [hd, h.dom _ _ hd]

/-- The mappings are complete once the peers that are registered have all the points. -/
theorem SystemInv.isComplete (h : SystemInv ctx D ms s outs) (hD : D.WellFormed)
    (hclients : registered ms ⊆ D.clients) {p : Peer} (hp : p ∈ registered ms) :
    ((s.mappings.find? D.name).getD {}).isComplete =
      .ok (decide (D.points (registered ms) = D.size)) := by
  have hlt := hD.size_lt
  have hsub : ∀ p ∈ ((s.mappings.find? D.name).getD {}).domainMap.keys, p ∈ D.clients := by
    intro p hp
    rw [h.keys] at hp
    exact hclients hp
  have hne : ((s.mappings.find? D.name).getD {}).domainMap.entries ≠ [] := by
    intro hnil
    have hentry := OrderedMap.find?_eq_some_iff.mp (h.find?_domain hp)
    rw [hnil] at hentry
    cases hentry
  rw [DomainMap.isComplete_eq (n := D.size) h.consistent hne h.dom ?_ ?_ ?_, h.keys]
  · rfl
  · intro p hp
    apply Domain.localSize_eq (hD.inBounds p (hsub p hp)) (hD.dataCovers p (hsub p hp))
    have hle : D.points {p} ≤ D.size :=
      hD.points_le (Finset.singleton_subset_iff.mpr (hsub p hp))
    simp only [Deployment.points, Finset.sum_singleton] at hle
    omega
  · intro p hp
    exact hD.whole p (hsub p hp)
  · rw [h.keys]
    exact lt_of_le_of_lt (hD.points_le hclients) hlt

/-- Another peer in the mappings leaves the parts that are there on registered ones. -/
theorem SystemInv.catalogue_insert (h : SystemInv ctx D ms s outs) (p : Peer) (d : Domain) :
    CatalogueInv (s.mappings.insert D.name { ((s.mappings.find? D.name).getD {}) with
      domainMap := ((s.mappings.find? D.name).getD {}).domainMap.insert p d })
      D.spec s.aggregate.aggCatalogue := by
  refine ⟨h.catalogue.synced, h.catalogue.sized, fun fid msg ps hps => ?_⟩
  obtain ⟨dm, hdm, hsub⟩ := h.catalogue.registered fid msg ps hps
  have hget (dm' : DomainMap) :
      Mappings.get (s.mappings.insert D.name dm') (D.spec fid).domain = .ok dm' := by
    simp [Mappings.get, Deployment.spec]
  refine ⟨_, hget _, ?_⟩
  have hsame : (s.mappings.find? D.name).getD {} = dm := by
    unfold Mappings.get at hdm
    simp only [Deployment.spec] at hdm
    cases hfind : s.mappings.find? D.name with
    | none =>
      rw [hfind] at hdm
      cases hdm
    | some d =>
      rw [hfind] at hdm
      exact Except.ok.inj hdm
  rw [OrderedMap.keys_insert, hsame]
  exact hsub.trans (Finset.subset_insert _ _)

theorem SystemInv.domain (h : SystemInv ctx D ms s outs) {m : Message}
    (hm : IsDomainMessage ctx D m) (hnew : m.source ∉ registered ms) :
    ∃ s', handle ctx s m = .ok (s', []) ∧ SystemInv ctx D (ms ++ [m]) s' (outs ++ [[]]) := by
  have hcatalogue := h.catalogue_insert m.source (D.dom m.source)
  set dm := (s.mappings.find? D.name).getD {} with hdm
  -- the peer is new, so that its domain is added and no other one is lost
  have habsent : dm.domainMap.find? m.source = none := by
    cases hfind : dm.domainMap.find? m.source with
    | none => rfl
    | some d =>
      rw [← h.keys] at hnew
      exact absurd (OrderedMap.mem_keys.mpr ⟨d, hfind⟩) hnew
  set dm' : DomainMap := { dm with domainMap := dm.domainMap.insert m.source (D.dom m.source) }
    with hdm'
  have hadd : Mappings.add ctx.toContext s.mappings m = .ok (s.mappings.insert D.name dm') := by
    simp only [Mappings.add]
    rw [hm.name, ok_bind, ← hdm, OrderedMap.not_contains_iff.mpr habsent,
      if_neg Bool.false_ne_true, hm.domain, ok_bind, OrderedMap.emplace_of_none _ habsent]
  have hget : (((s.mappings.insert D.name dm').find? D.name).getD {}) = dm' := by simp
  have htag : m.tag ≠ .field := by rw [hm.tag]; decide
  refine ⟨{ s with mappings := s.mappings.insert D.name dm' }, ?_, ?_⟩
  · simp only [handle, hm.tag, hadd, ok_bind]
  · refine
      { consistent := by simp only [hget]; exact h.consistent
        keys := ?_, dom := ?_, pending := ?_, catalogue := hcatalogue
        length_eq := by simp [h.length_eq], outputs_eq := ?_ }
    · simp only [hget]
      rw [hdm', registered_append, OrderedMap.keys_insert, h.keys, Finset.union_comm]
      simp [registered, hm.tag]
    · intro p d hd
      simp only [hget] at hd
      simp only [hdm', OrderedMap.find?_insert] at hd
      by_cases hp : p = m.source
      · rw [if_pos hp] at hd
        rw [hp, Option.some.inj hd]
      · rw [if_neg hp] at hd
        exact h.dom p d hd
    · rw [eventsOf_append_of_ne htag]
      exact h.pending
    · intro fid
      rw [eventsOf_append_of_ne htag, outputs_append h.length_eq, h.outputs_eq]
      simp [htag]

theorem SystemInv.field (hD : D.WellFormed) (h : SystemInv ctx D ms s outs)
    (hclients : registered ms ⊆ D.clients) {m : Message} (hm : IsFieldMessage ctx D m)
    (hreg : m.source ∈ registered ms) :
    ∃ s' out, handle ctx s m = .ok (s', out) ∧
      SystemInv ctx D (ms ++ [m]) s' (outs ++ [out]) := by
  have hcomplete := h.isComplete hD hclients hreg
  have hmap : s.mappings.get D.name = .ok ((s.mappings.find? D.name).getD {}) := by
    rw [Mappings.get, h.find?_mappings hreg]
    rfl
  obtain ⟨a', hstep, hpend, hinv⟩ := Aggregate.executeImpl_field (fun _ p => D.dom p)
    ctx.parse h.catalogue hm.isPart hmap (h.find?_domain hreg) hm.fits hcomplete
  have hgoal : (if decide (D.points (registered ms) = D.size) then
      some ((s.mappings.find? D.name).getD {}).domainMap.keys else none) = goal D ms := by
    rw [goal, h.keys]
    simp only [decide_eq_true_eq]
  rw [hgoal] at hstep hpend
  refine ⟨{ s with aggregate := a' },
    ((parts ctx D).step s.aggregate.aggCatalogue.pending (m, goal D ms)).2.toList, ?_, ?_⟩
  · simp only [handle, hm.isPart.tag]
    rw [hstep, ok_bind]
    rfl
  · refine
      { consistent := h.consistent, keys := ?_, dom := h.dom, pending := ?_, catalogue := hinv
        length_eq := by simp [h.length_eq], outputs_eq := ?_ }
    · rw [registered_append, ← h.keys]
      simp [registered, hm.isPart.tag]
    · rw [eventsOf_append_field hm.isPart.tag, Gather.run_append, ← h.pending]
      exact hpend
    · intro fid
      rw [eventsOf_append_field hm.isPart.tag, outputs_append h.length_eq, h.outputs_eq,
        gathered_append, ← h.pending]
      congr 1
      simp only [hm.isPart.tag, true_and]
      rfl

end Registered

theorem Interleaving.dispatch_prefix (hD : D.WellFormed) {T : List Message}
    (hT : Interleaving ctx D T) (pre post : List Message) (heq : T = pre ++ post) :
    ∃ s outs, dispatch ctx {} pre = .ok (s, outs) ∧ SystemInv ctx D pre s outs := by
  induction pre using List.reverseRecOn generalizing post with
  | nil => exact ⟨{}, [], rfl, SystemInv.initial⟩
  | append_singleton pre m ih =>
    have heq' : T = pre ++ m :: post := by rw [heq]; simp
    obtain ⟨s, outs, hrun, hinv⟩ := ih (m :: post) heq'
    obtain ⟨s', out, hstep, hinv'⟩ : ∃ s' out, handle ctx s m = .ok (s', out) ∧
        SystemInv ctx D (pre ++ [m]) s' (outs ++ [out]) := by
      rcases hT.next heq' with ⟨hm, hnew⟩ | ⟨hm, hreg, -⟩
      · obtain ⟨s', hstep, hinv'⟩ := hinv.domain hm hnew
        exact ⟨s', [], hstep, hinv'⟩
      · exact hinv.field hD (hT.registered_subset heq') hm hreg
    refine ⟨s', outs ++ [out], dispatch_append ctx hrun ?_, hinv'⟩
    simp only [dispatch, hstep, ok_bind]

end Multio.Server
