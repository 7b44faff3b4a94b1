import Multio.Action.AggregateStep
import Mathlib.Data.List.Nodup
import Mathlib.Data.List.Pairwise
import Mathlib.Tactic.IntervalCases

namespace Multio.Action
open Exception Lib Scatter

/-- The index maps of the registered parts list every index below `n` once. -/
def Partition (dm : DomainMap) (n : ℕ) : Prop :=
  (dm.domainMap.entries.flatMap fun e => e.2.indexMap.map Prod.fst).Perm (List.range n)

instance (dm : DomainMap) (n : ℕ) : Decidable (Partition dm n) :=
  inferInstanceAs (Decidable (List.Perm _ _))

/-- Every registered part scattered into `init`, in the order of the registration map. -/
def scatterParts (w : ℕ) (dm : DomainMap) (part : Peer → List UInt8) (init : List UInt8) :
    List UInt8 :=
  dm.domainMap.entries.foldl (fun b e => scatter w (part e.1) b e.2.indexMap) init

def scatterAll (w : ℕ) (part : Peer → List UInt8) (es : List (Peer × Domain)) (b : List UInt8) :
    List UInt8 :=
  es.foldl (fun b e => scatter w (part e.1) b e.2.indexMap) b

section
variable {dm : DomainMap} {n w : ℕ} {part : Peer → List UInt8}

theorem Partition.nodup (h : Partition dm n) {e : Peer × Domain} (he : e ∈ dm.domainMap.entries) :
    (e.2.indexMap.map Prod.fst).Nodup :=
  (List.nodup_flatMap.mp (h.nodup_iff.mpr List.nodup_range)).1 e he

theorem Partition.disjoint (h : Partition dm n) {e e' : Peer × Domain}
    (he : e ∈ dm.domainMap.entries) (he' : e' ∈ dm.domainMap.entries) (hne : e ≠ e') :
    (e.2.indexMap.map Prod.fst).Disjoint (e'.2.indexMap.map Prod.fst) := by
  have hsymm : Std.Symm (Function.onFun List.Disjoint
      fun e : Peer × Domain => e.2.indexMap.map Prod.fst) := ⟨fun _ _ hd => List.Disjoint.symm hd⟩
  have hpair := (List.nodup_flatMap.mp (h.nodup_iff.mpr List.nodup_range)).2
  exact hpair.forall he he' hne

theorem Partition.covers (h : Partition dm n) {g : ℕ} (hg : g < n) :
    ∃ e ∈ dm.domainMap.entries, ∃ l, (g, l) ∈ e.2.indexMap := by
  have hmem := h.mem_iff.mpr (List.mem_range.mpr hg)
  obtain ⟨e, he, hg⟩ := List.mem_flatMap.mp hmem
  obtain ⟨p, hp, rfl⟩ := List.mem_map.mp hg
  exact ⟨e, he, p.2, hp⟩

def PartsFit (w n : ℕ) (part : Peer → List UInt8) (es : List (Peer × Domain)) : Prop :=
  ∀ e ∈ es, e.2.InBounds n ∧ (part e.1).length = e.2.dataSize * w

theorem scatterAll_length {es : List (Peer × Domain)} (hes : PartsFit w n part es)
    {b : List UInt8} (hb : b.length = n * w) : (scatterAll w part es b).length = n * w := by
  induction es generalizing b with
  | nil => exact hb
  | cons e es ih =>
    obtain ⟨hbounds, hlen⟩ := hes e List.mem_cons_self
    exact ih (fun x hx => hes x (List.mem_cons_of_mem _ hx))
      (scatter_length _ (Domain.indexMap_inRange hbounds) hlen hb)

theorem word_scatterAll (h : Partition dm n) (es : List (Peer × Domain))
    (hsub : ∀ e ∈ es, e ∈ dm.domainMap.entries) (hes : PartsFit w n part es) {b : List UInt8}
    (hb : b.length = n * w) {e : Peer × Domain} (he : e ∈ es) {g l : ℕ}
    (hg : (g, l) ∈ e.2.indexMap) : word w (scatterAll w part es b) g = word w (part e.1) l := by
  induction es using List.reverseRecOn with
  | nil => exact absurd he List.not_mem_nil
  | append_singleton es x ih =>
    have hes' : PartsFit w n part es := fun y hy => hes y (List.mem_append_left _ hy)
    have hlen := scatterAll_length hes' hb
    obtain ⟨hbounds, hxlen⟩ := hes x (by simp)
    have hx := hsub x (by simp)
    have hrange := Domain.indexMap_inRange hbounds
    rw [scatterAll, List.foldl_append]
    change word w (scatter w (part x.1) (scatterAll w part es b) x.2.indexMap) g = _
    by_cases hex : e = x
    · subst hex
      exact word_scatter_of_mem _ hrange hxlen hlen (h.nodup hx) hg
    · have heold : e ∈ es := by
        rcases List.mem_append.mp he with he | he
        · exact he
        · exact absurd (List.mem_singleton.mp he) hex
      have hne : ∀ p ∈ x.2.indexMap, p.1 ≠ g := by
        intro p hp heq
        have hdis := h.disjoint (hsub e he) hx hex
        exact hdis (List.mem_map.mpr ⟨(g, l), hg, rfl⟩) (List.mem_map.mpr ⟨p, hp, heq⟩)
      rw [word_scatter_of_not_mem _ hrange hxlen hlen hne]
      exact ih (fun y hy => hsub y (List.mem_append_left _ hy)) hes' heold

/-- Once all parts are there, neither the order, repetitions nor the old contents matter. -/
theorem scatterAll_eq_scatterParts (h : Partition dm n) {es : List (Peer × Domain)}
    (hall : ∀ e, e ∈ es ↔ e ∈ dm.domainMap.entries) (hes : PartsFit w n part es)
    {b init : List UInt8} (hb : b.length = n * w) (hinit : init.length = n * w) :
    scatterAll w part es b = scatterParts w dm part init := by
  have hes' : PartsFit w n part dm.domainMap.entries := fun e he => hes e ((hall e).mpr he)
  refine ext_word (scatterAll_length hes hb) (scatterAll_length hes' hinit) ?_
  intro g hg
  obtain ⟨e, he, l, hgl⟩ := h.covers hg
  exact (word_scatterAll h es (fun x hx => (hall x).mp hx) hes hb ((hall e).mpr he) hgl).trans
    (word_scatterAll h _ (fun x hx => hx) hes' hinit he hgl).symm

end

/-- A `Field` message that is a part of a field with registered, complete domains. -/
structure RegisteredPart (ctx : Context) (mappings : Mappings) (spec : String → FieldSpec)
    (m : Message) : Prop where
  isPart : IsPart ctx (spec (m.fieldId ctx)) m
  registered : ∃ dm d, mappings.get (spec (m.fieldId ctx)).domain = .ok dm ∧
    dm.isComplete = .ok true ∧ dm.domainMap.find? m.source = some d ∧
    Fits (spec (m.fieldId ctx)) d m

def registeredDomain (mappings : Mappings) (name : String) (peer : Peer) : Domain :=
  match mappings.find? name with
  | some dm => (dm.domainMap.find? peer).getD (.unstructured [] 0)
  | none => .unstructured [] 0

def withRegistered (ctx : Context) (mappings : Mappings) (spec : String → FieldSpec)
    (m : Message) : Message × Option (Finset Peer) :=
  (m, (mappings.find? (spec (m.fieldId ctx)).domain).map fun dm => dm.domainMap.keys)

namespace Aggregate

variable {ctx : AggregateContext} {mappings : Mappings} {spec : String → FieldSpec}

theorem find?_of_get {name : String} {dm : DomainMap} (h : mappings.get name = .ok dm) :
    mappings.find? name = some dm := by
  unfold Mappings.get at h
  split at h
  next d hd => rw [hd, Except.ok.inj h]
  next => cases h

theorem executeImpl_registered (parse : String → Except Exception BaseMetadata) {a : Aggregate}
    (hc : CatalogueInv mappings spec a.aggCatalogue)
    {m : Message} (hm : RegisteredPart ctx.toContext mappings spec m) :
    ∃ a', executeImpl ctx mappings parse a m =
        .ok (a', ((gather ctx spec (registeredDomain mappings)).step a.aggCatalogue.pending
          (withRegistered ctx.toContext mappings spec m)).2.toList) ∧
      a'.aggCatalogue.pending =
        ((gather ctx spec (registeredDomain mappings)).step a.aggCatalogue.pending
          (withRegistered ctx.toContext mappings spec m)).1 ∧
      CatalogueInv mappings spec a'.aggCatalogue := by
  obtain ⟨dm, d, hget, hcomplete, hd, hfit⟩ := hm.registered
  have hfind := find?_of_get hget
  have hdom : registeredDomain mappings (spec (m.fieldId ctx.toContext)).domain m.source = d := by
    simp [registeredDomain, hfind, hd]
  have hevent : withRegistered ctx.toContext mappings spec m = (m, some dm.domainMap.keys) := by
    simp [withRegistered, hfind]
  rw [hevent]
  exact executeImpl_field _ parse hc hm.isPart hget (by rw [hd, hdom]) (by rw [hdom]; exact hfit)
    hcomplete

theorem run_registered (parse : String → Except Exception BaseMetadata) {a : Aggregate}
    (hc : CatalogueInv mappings spec a.aggCatalogue)
    (ms : List Message) (hms : ∀ m ∈ ms, RegisteredPart ctx.toContext mappings spec m) :
    ∃ a', run ctx mappings parse a ms =
        .ok (a', ((gather ctx spec (registeredDomain mappings)).run a.aggCatalogue.pending
          (ms.map (withRegistered ctx.toContext mappings spec))).2.map Option.toList) ∧
      a'.aggCatalogue.pending =
        ((gather ctx spec (registeredDomain mappings)).run a.aggCatalogue.pending
          (ms.map (withRegistered ctx.toContext mappings spec))).1 ∧
      CatalogueInv mappings spec a'.aggCatalogue := by
  induction ms generalizing a with
  | nil => exact ⟨a, rfl, rfl, hc⟩
  | cons m ms ih =>
    obtain ⟨a₁, hstep, hpend₁, hc₁⟩ :=
      executeImpl_registered parse hc (hms m List.mem_cons_self)
    obtain ⟨a₂, hrun, hpend₂, hc₂⟩ := ih hc₁ fun x hx => hms x (List.mem_cons_of_mem _ hx)
    rw [hpend₁] at hrun hpend₂
    refine ⟨a₂, ?_, hpend₂, hc₂⟩
    rw [run, hstep, ok_bind]
    simp only [hrun, ok_bind]
    rfl

theorem foldl_add (mappings : Mappings) (spec : String → FieldSpec) {fid : String}
    {part : Peer → List UInt8}
    (es : List (Message × Option (Finset Peer)))
    (hes : ∀ e ∈ es, e.1.fieldId ctx.toContext = fid ∧ e.1.payload = part e.1.source)
    (global : Message) :
    (es.foldl (fun a x => (gather ctx spec (registeredDomain mappings)).add x a) global).payload =
      scatterAll (spec fid).precision.size part
        (es.map fun e =>
          (e.1.source, registeredDomain mappings (spec fid).domain e.1.source)) global.payload := by
  induction es generalizing global with
  | nil => rfl
  | cons e es ih =>
    obtain ⟨hfid, hpart⟩ := hes e List.mem_cons_self
    rw [List.foldl_cons, ih fun x hx => hes x (List.mem_cons_of_mem _ hx)]
    simp only [gather, addPart, hfid, hpart]
    rfl

section
variable {fid : String} {dm : DomainMap} {part : Peer → List UInt8}

theorem goal_withRegistered (hdm : mappings.get (spec fid).domain = .ok dm) {m : Message}
    (hk : m.fieldId ctx.toContext = fid) :
    (gather ctx spec (registeredDomain mappings)).goal
      (withRegistered ctx.toContext mappings spec m) = some dm.domainMap.keys := by
  simp [gather, withRegistered, hk, find?_of_get hdm]

theorem mem_peers_withRegistered {ms : List Message} {p : Peer} :
    p ∈ (gather ctx spec (registeredDomain mappings)).peers fid
        (ms.map (withRegistered ctx.toContext mappings spec)) ↔
      ∃ m ∈ ms, m.fieldId ctx.toContext = fid ∧ m.source = p := by
  simp [gather, withRegistered]

theorem registered_entry (hdm : mappings.get (spec fid).domain = .ok dm) {m : Message}
    (hm : RegisteredPart ctx.toContext mappings spec m) (hk : m.fieldId ctx.toContext = fid) :
    (m.source, registeredDomain mappings (spec fid).domain m.source) ∈ dm.domainMap.entries ∧
      Fits (spec fid) (registeredDomain mappings (spec fid).domain m.source) m := by
  obtain ⟨dm', d, hget, -, hd, hfit⟩ := hm.registered
  rw [hk] at hget hfit
  rw [Except.ok.inj (hget.symm.trans hdm)] at hd
  have hdom : registeredDomain mappings (spec fid).domain m.source = d := by
    simp [registeredDomain, find?_of_get hdm, hd]
  rw [hdom]
  exact ⟨OrderedMap.find?_eq_some_iff.mp hd, hfit⟩

theorem source_mem_keys (hdm : mappings.get (spec fid).domain = .ok dm) {m : Message}
    (hm : RegisteredPart ctx.toContext mappings spec m) (hk : m.fieldId ctx.toContext = fid) :
    m.source ∈ dm.domainMap.keys :=
  OrderedMap.mem_keys.mpr ⟨_, OrderedMap.find?_eq_some_iff.mpr (registered_entry hdm hm hk).1⟩

/-- A registered peer that sends nothing before the last part keeps the field unfinished. -/
theorem unfinished_of_missing (hdm : mappings.get (spec fid).domain = .ok dm) {p : Peer}
    (hp : p ∈ dm.domainMap.keys) {ms : List Message}
    (hmissing : ∀ m ∈ ms, m.fieldId ctx.toContext = fid → m.source ≠ p) :
    (gather ctx spec (registeredDomain mappings)).Unfinished fid
      (ms.map (withRegistered ctx.toContext mappings spec)) := by
  intro pre e post heq hk hdone
  obtain ⟨ms₁, ms₂, hms, rfl, hms₂⟩ := List.map_eq_append_iff.mp heq
  obtain ⟨m, ms₃, rfl, rfl, rfl⟩ := List.map_eq_cons_iff.mp hms₂
  have hkey : m.fieldId ctx.toContext = fid := hk
  rw [goal_withRegistered hdm hkey, Option.some.injEq] at hdone
  have hheard := hdone ▸ hp
  rw [← List.map_singleton, ← List.map_append, mem_peers_withRegistered] at hheard
  obtain ⟨x, hx, hxk, hxs⟩ := hheard
  refine hmissing x ?_ hxk hxs
  rw [hms, List.append_cons]
  exact List.mem_append_left _ hx

/-- Messages among which each registered peer of the field sends its part. -/
structure WholeField (ctx : AggregateContext) (mappings : Mappings) (spec : String → FieldSpec)
    (fid : String) (dm : DomainMap) (part : Peer → List UInt8) (ms : List Message) : Prop where
  registered : ∀ m ∈ ms, RegisteredPart ctx.toContext mappings spec m
  domain_eq : mappings.get (spec fid).domain = .ok dm
  payload_eq : ∀ m ∈ ms, m.fieldId ctx.toContext = fid → m.payload = part m.source
  covers : ∀ p ∈ dm.domainMap.keys, ∃ m ∈ ms, m.fieldId ctx.toContext = fid ∧ m.source = p

namespace WholeField

variable {ms : List Message} (h : WholeField ctx mappings spec fid dm part ms)
include h

theorem peers_eq : (gather ctx spec (registeredDomain mappings)).peers fid
    (ms.map (withRegistered ctx.toContext mappings spec)) = dm.domainMap.keys := by
  ext p
  rw [mem_peers_withRegistered]
  constructor
  · rintro ⟨m, hm, hk, rfl⟩
    exact source_mem_keys h.domain_eq (h.registered m hm) hk
  · exact h.covers p

/-- The entries that the parts of the field are scattered by are those of the registration map. -/
theorem mem_scattered_iff (x : Peer × Domain) :
    x ∈ ((gather ctx spec (registeredDomain mappings)).under fid
        (ms.map (withRegistered ctx.toContext mappings spec))).map
        (fun e => (e.1.source, registeredDomain mappings (spec fid).domain e.1.source)) ↔
      x ∈ dm.domainMap.entries := by
  simp only [Gather.under, List.mem_map, List.mem_filter, decide_eq_true_eq]
  constructor
  · rintro ⟨_, ⟨⟨m, hm, rfl⟩, hk⟩, rfl⟩
    exact (registered_entry h.domain_eq (h.registered m hm) hk).1
  · intro hx
    have hfind := OrderedMap.find?_eq_some_iff.mpr hx
    obtain ⟨m, hm, hk, hs⟩ := h.covers x.1 (OrderedMap.mem_keys.mpr ⟨x.2, hfind⟩)
    have hentry := (registered_entry h.domain_eq (h.registered m hm) hk).1
    have hdom := OrderedMap.find?_eq_some_iff.mpr hentry
    rw [hs, hfind] at hdom
    refine ⟨_, ⟨⟨m, hm, rfl⟩, hk⟩, ?_⟩
    exact Prod.ext hs (by rw [Option.some.inj hdom, ← hs]; rfl)

/-- The parts of the field add up to the registered parts, each in its places. -/
theorem payload_total (hpartition : Partition dm (spec fid).size) {global : Message}
    (htotal : (gather ctx spec (registeredDomain mappings)).total
      ((gather ctx spec (registeredDomain mappings)).under fid
        (ms.map (withRegistered ctx.toContext mappings spec))) = some global)
    {init : List UInt8} (hinit : init.length = (spec fid).bytes) :
    global.payload = scatterParts (spec fid).precision.size dm part init := by
  set g := gather ctx spec (registeredDomain mappings) with hg
  set evs := g.under fid (ms.map (withRegistered ctx.toContext mappings spec)) with hevs
  have hmem : ∀ e ∈ evs, ∃ m ∈ ms, m.fieldId ctx.toContext = fid ∧ e.1 = m := by
    intro e he
    obtain ⟨hmem, hk⟩ := List.mem_filter.mp he
    obtain ⟨m, hm, rfl⟩ := List.mem_map.mp hmem
    exact ⟨m, hm, of_decide_eq_true hk, rfl⟩
  have hparts : ∀ e ∈ evs, e.1.fieldId ctx.toContext = fid ∧ e.1.payload = part e.1.source := by
    intro e he
    obtain ⟨m, hm, hk, rfl⟩ := hmem e he
    exact ⟨hk, h.payload_eq e.1 hm hk⟩
  have hne : evs ≠ [] := by
    intro hnil
    rw [hnil] at htotal
    cases htotal
  obtain ⟨e₀, he₀, hstart⟩ := g.total_of_ne_nil hne
  rw [← Option.some.inj (hstart.symm.trans htotal),
    foldl_add mappings spec evs hparts (g.start e₀)]
  refine scatterAll_eq_scatterParts hpartition h.mem_scattered_iff ?_ ?_ hinit
  · intro x hx
    obtain ⟨e, he, rfl⟩ := List.mem_map.mp hx
    obtain ⟨m, hm, hk, rfl⟩ := hmem e he
    have hfit := (registered_entry h.domain_eq (h.registered e.1 hm) hk).2
    exact ⟨hfit.inBounds, (h.payload_eq e.1 hm hk) ▸ hfit.payload_eq⟩
  · simp [hg, gather, AggregationCatalogue.newMessage, (hparts e₀ he₀).1, FieldSpec.bytes]

end WholeField

theorem outputs_of_silent {s : Gather.Pending String Peer Message} {ms : List Message}
    (hsilent : (gather ctx spec (registeredDomain mappings)).Silent fid s
      (ms.map (withRegistered ctx.toContext mappings spec))) :
    ∀ p ∈ ms.zip (((gather ctx spec (registeredDomain mappings)).run s
        (ms.map (withRegistered ctx.toContext mappings spec))).2.map Option.toList),
      p.1.fieldId ctx.toContext = fid → p.2 = [] := by
  intro p hp hk
  rw [List.zip_map_right, List.mem_map] at hp
  obtain ⟨q, hq, rfl⟩ := hp
  have hnone := hsilent (withRegistered ctx.toContext mappings spec q.1, q.2) (by
    rw [List.zip_map_left, List.mem_map]
    exact ⟨q, hq, rfl⟩) hk
  exact congrArg Option.toList hnone

/-- A part of the field leaves what is pending for the other fields as it is. -/
theorem pending_of_ne (parse : String → Except Exception BaseMetadata) {a : Aggregate}
    (ha : CatalogueInv mappings spec a.aggCatalogue) {pre : List Message} {m : Message}
    (hall : ∀ x ∈ pre ++ [m], RegisteredPart ctx.toContext mappings spec x)
    {s s' : Aggregate} {outs : List (List Message)} {out : List Message}
    (hrun : run ctx mappings parse a pre = .ok (s, outs))
    (hstep : executeImpl ctx mappings parse s m = .ok (s', out)) {k : String}
    (hk : k ≠ m.fieldId ctx.toContext) :
    s'.aggCatalogue.pending k = s.aggCatalogue.pending k := by
  obtain ⟨b, hb, -, hcb⟩ := run_registered parse ha pre
    (fun x hx => hall x (List.mem_append_left _ hx))
  obtain ⟨rfl, -⟩ := Prod.mk.inj (Except.ok.inj (hb.symm.trans hrun))
  obtain ⟨b', hb', hpendb, -⟩ := executeImpl_registered parse hcb (hall m (by simp))
  obtain ⟨rfl, -⟩ := Prod.mk.inj (Except.ok.inj (hb'.symm.trans hstep))
  rw [hpendb]
  exact Gather.step_of_ne _ _ _ hk

end

/-- Aggregation of a field whose parts are registered: whatever the order of the parts, and of the
parts of other fields among them, one global message goes out, with the last part. -/
theorem aggregate_order_independent (ctx : AggregateContext) (mappings : Mappings)
    (spec : String → FieldSpec) (parse : String → Except Exception BaseMetadata) (a : Aggregate)
    (ha : CatalogueInv mappings spec a.aggCatalogue)
    (before after : List Message) (last : Message)
    (hall : ∀ m ∈ before ++ last :: after, RegisteredPart ctx.toContext mappings spec m)
    (fid : String) (hlast : last.fieldId ctx.toContext = fid)
    (dm : DomainMap) (hdm : mappings.get (spec fid).domain = .ok dm)
    (hpartition : Partition dm (spec fid).size)
    (habsent : a.aggCatalogue.pending fid = none)
    (part : Peer → List UInt8)
    (hpart : ∀ m ∈ before ++ [last], m.fieldId ctx.toContext = fid → m.payload = part m.source)
    (hnew : ∀ m ∈ before, m.fieldId ctx.toContext = fid → m.source ≠ last.source)
    (heach : ∀ p ∈ dm.domainMap.keys, p ≠ last.source →
      ∃ m ∈ before, m.fieldId ctx.toContext = fid ∧ m.source = p)
    (hafter : ∀ m ∈ after, m.fieldId ctx.toContext ≠ fid) :
    ∃ a₁ outs₁ a₂ global a₃ outs₃,
      run ctx mappings parse a before = .ok (a₁, outs₁) ∧
      executeImpl ctx mappings parse a₁ last = .ok (a₂, [global]) ∧
      run ctx mappings parse a₂ after = .ok (a₃, outs₃) ∧
      (∀ p ∈ before.zip outs₁, p.1.fieldId ctx.toContext = fid → p.2 = []) ∧
      (∀ init, init.length = (spec fid).bytes →
        global.payload = scatterParts (spec fid).precision.size dm part init) ∧
      (∀ a' ∈ [a₂, a₃], a'.aggCatalogue.messageMap.find? fid = none ∧
        a'.aggCatalogue.processedParts.find? fid = none) ∧
      (∀ pre m post s outs s' out, before ++ [last] = pre ++ m :: post →
        m.fieldId ctx.toContext = fid → run ctx mappings parse a pre = .ok (s, outs) →
        executeImpl ctx mappings parse s m = .ok (s', out) →
        ∀ k, k ≠ fid → s'.aggCatalogue.pending k = s.aggCatalogue.pending k) := by
  set g := gather ctx spec (registeredDomain mappings)
  set ev := withRegistered ctx.toContext mappings spec
  have hsplit : before ++ last :: after = (before ++ [last]) ++ after := by simp
  rw [hsplit] at hall
  have hparts : ∀ m ∈ before ++ [last], RegisteredPart ctx.toContext mappings spec m :=
    fun m hm => hall m (List.mem_append_left _ hm)
  have hlastPart := hparts last (by simp)
  have hwhole : WholeField ctx mappings spec fid dm part (before ++ [last]) := by
    refine ⟨hparts, hdm, hpart, ?_⟩
    intro p hp
    by_cases hpl : p = last.source
    · exact ⟨last, by simp, hlast, hpl.symm⟩
    · obtain ⟨m, hm, hk, hs⟩ := heach p hp hpl
      exact ⟨m, List.mem_append_left _ hm, hk, hs⟩
  obtain ⟨a₁, hrun₁, hpend₁, hc₁⟩ := run_registered parse ha before
    (fun m hm => hparts m (List.mem_append_left _ hm))
  obtain ⟨a₂, hstep₂, hpend₂, hc₂⟩ := executeImpl_registered parse hc₁ hlastPart
  obtain ⟨a₃, hrun₃, hpend₃, hc₃⟩ := run_registered parse hc₂ after
    (fun m hm => hall m (List.mem_append_right _ hm))
  -- the last peer is missing until the last part
  have hunfinished : g.Unfinished fid (before.map ev) :=
    unfinished_of_missing hdm (source_mem_keys hdm hlastPart hlast) hnew
  have hsilent := Gather.Unfinished.silent g habsent (before.map ev) hunfinished
  have hmap : before.map ev ++ [ev last] = (before ++ [last]).map ev := by simp
  have hcomplete : g.goal (ev last) = some (g.peers fid (before.map ev ++ [ev last])) := by
    rw [goal_withRegistered hdm hlast, hmap, hwhole.peers_eq]
  obtain ⟨hgone, global, hglobal, hout⟩ := g.run_finishing habsent hsilent
    (show g.key (ev last) = fid from hlast) hcomplete
  rw [← hpend₁] at hgone hout
  refine ⟨a₁, _, a₂, global, a₃, _, hrun₁, ?_, hrun₃, outputs_of_silent hsilent, ?_, ?_, ?_⟩
  · rw [hstep₂, hout]
    rfl
  · intro init hinit
    exact hwhole.payload_total hpartition (by rw [← hmap]; exact hglobal) hinit
  · have hgone₂ : a₂.aggCatalogue.pending fid = none := by rw [hpend₂]; exact hgone
    have hgone₃ : a₃.aggCatalogue.pending fid = none := by
      rw [hpend₃, Gather.run_of_ne _ _ _ ?_, hgone₂]
      intro e he
      obtain ⟨m, hm, rfl⟩ := List.mem_map.mp he
      exact hafter m hm
    intro a' ha'
    rcases List.mem_pair.mp ha' with rfl | rfl
    · exact hc₂.synced.pending_eq_none hgone₂
    · exact hc₃.synced.pending_eq_none hgone₃
  · intro pre m post s outs s' out heq hk hrun hstep k hne
    refine pending_of_ne parse ha ?_ hrun hstep (hk.symm ▸ hne)
    intro x hx
    apply hparts
    rw [heq, List.append_cons]
    exact List.mem_append_left _ hx

def twoContext : AggregateContext where
  parametrization := { bucketCount := 541 }
  toString _ := "f"
  memory _ _ := 0xFF

def twoSpec (_ : String) : FieldSpec := { domain := "d", precision := .float, size := 2 }

def twoDomains : DomainMap where
  domainMap := (OrderedMap.empty.insert { group := "c", id := 0 } (.unstructured [0] 2)).insert
    { group := "c", id := 1 } (.unstructured [1] 2)

def twoMappings : Mappings := OrderedMap.empty.insert "d" twoDomains

/-- The part of peer `i`, a value of four bytes `i`. -/
def twoPart (i : ℕ) : Message where
  header := { tag := .field, source := { group := "c", id := i }, destination := {},
              metadata := { bucketCount := 541,
                            nodes := [("domain", .string "d"), ("misc-precision", .string "single"),
                                      ("misc-globalSize", .int64 2)] } }
  payload := List.replicate 4 (UInt8.ofNat i)

theorem twoPart_registered (i : ℕ) (hi : i < 2) :
    RegisteredPart twoContext.toContext twoMappings twoSpec (twoPart i) := by
  refine ⟨⟨rfl, rfl, rfl, rfl⟩, twoDomains, .unstructured [(i : ℤ)] 2, rfl, by decide, ?_, ?_⟩
  · interval_cases i <;> decide
  · refine ⟨?_, ?_, by simp [twoPart]⟩
    · intro id hid
      rw [List.mem_singleton.mp hid]
      exact ⟨by omega, by simp only [twoSpec]; omega⟩
    · simp [twoPart, twoSpec, Domain.dataSize, PrecisionTag.size]

theorem aggregate_order_independent_two :
    ∃ a₁ outs a₂ global,
      run twoContext twoMappings (fun _ => .error .terminate) {} [twoPart 1] = .ok (a₁, outs) ∧
      executeImpl twoContext twoMappings (fun _ => .error .terminate) a₁ (twoPart 0) =
        .ok (a₂, [global]) ∧
      global.payload = [0, 0, 0, 0, 1, 1, 1, 1] := by
  obtain ⟨a₁, outs, a₂, global, -, -, hrun, hstep, -, -, hpayload, -⟩ :=
    aggregate_order_independent twoContext twoMappings twoSpec (fun _ => .error .terminate) {}
      (CatalogueInv.empty _ _) [twoPart 1] [] (twoPart 0)
      (by
        intro m hm
        rcases List.mem_pair.mp hm with rfl | rfl
        · exact twoPart_registered 1 (by decide)
        · exact twoPart_registered 0 (by decide))
      "f" rfl twoDomains rfl (by decide) rfl (fun p => List.replicate 4 (UInt8.ofNat p.id))
      (by
        intro m hm _
        rcases List.mem_pair.mp hm with rfl | rfl <;> rfl)
      (by decide) (by decide) (by decide)
  exact ⟨a₁, outs, a₂, global, hrun, hstep, hpayload (List.replicate 8 0) (by decide)⟩

end Aggregate
end Multio.Action
