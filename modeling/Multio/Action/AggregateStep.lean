import Multio.Action.Aggregate
import Multio.Domain.DomainScatter
import Multio.Lib.Gather

namespace Multio.Action
open Exception Lib Scatter

structure FieldSpec where
  domain : String
  precision : PrecisionTag
  size : ℕ

def FieldSpec.bytes (f : FieldSpec) : ℕ := f.size * f.precision.size

theorem PrecisionTag.size_le (p : PrecisionTag) : p.size ≤ 8 := by cases p <;> decide

/-- A `Field` message that carries what its field is specified to have. -/
structure IsPart (ctx : Context) (f : FieldSpec) (m : Message) : Prop where
  tag : m.tag = .field
  domain : m.domain ctx = .ok f.domain
  precision : m.precision ctx = .ok f.precision
  globalSize : m.globalSize ctx = .ok (f.size : ℤ)

/-- The payload of the message has the size that the domain of its source asks for. -/
structure Fits (f : FieldSpec) (d : Domain) (m : Message) : Prop where
  inBounds : d.InBounds f.size
  payload_eq : m.payload.length = d.dataSize * f.precision.size
  payload_lt : m.payload.length < 2 ^ 64

/-- The bytes of a field after the payload of `m`, a part with domain `d`, is added to `b`. -/
def addPart (f : FieldSpec) (d : Domain) (m : Message) (b : List UInt8) : List UInt8 :=
  scatter f.precision.size m.payload b d.indexMap

theorem addPart_length {f : FieldSpec} {d : Domain} {m : Message} {b : List UInt8}
    (hm : Fits f d m) (hb : b.length = f.bytes) : (addPart f d m b).length = f.bytes :=
  scatter_length _ (Domain.indexMap_inRange hm.inBounds) hm.payload_eq hb

/-- The gathering of parts; an event is a message with the peers that complete its field. -/
def gather (ctx : AggregateContext) (spec : String → FieldSpec) (dom : String → Peer → Domain) :
    Gather String Peer Message (Message × Option (Finset Peer)) where
  key e := e.1.fieldId ctx.toContext
  peer e := e.1.source
  start e := AggregationCatalogue.newMessage ctx e.1 (spec (e.1.fieldId ctx.toContext)).bytes
  add e global :=
    let f := spec (e.1.fieldId ctx.toContext)
    { global with payload := addPart f (dom f.domain e.1.source) e.1 global.payload }
  goal e := e.2

namespace AggregationCatalogue

/-- The global message under construction and the peers heard of, by field. -/
def pending (c : AggregationCatalogue) (fid : String) : Option (Message × Finset Peer) :=
  match c.messageMap.find? fid, c.processedParts.find? fid with
  | some msg, some parts => some (msg, parts)
  | _, _ => none

def Synced (c : AggregationCatalogue) : Prop :=
  ∀ fid, c.messageMap.find? fid = none ↔ c.processedParts.find? fid = none

variable {c : AggregationCatalogue} {fid : String}

theorem pending_eq_some_iff {msg : Message} {parts : Finset Peer} :
    c.pending fid = some (msg, parts) ↔
      c.messageMap.find? fid = some msg ∧ c.processedParts.find? fid = some parts := by
  unfold pending
  split
  next h₁ h₂ => simp [h₁, h₂]
  next h =>
    constructor
    · intro h'
      cases h'
    · rintro ⟨h₁, h₂⟩
      exact absurd h₂ (h _ _ h₁)

theorem Synced.pending_eq_none (hc : c.Synced) (h : c.pending fid = none) :
    c.messageMap.find? fid = none ∧ c.processedParts.find? fid = none := by
  cases hm : c.messageMap.find? fid with
  | none => exact ⟨rfl, (hc fid).mp hm⟩
  | some msg =>
    cases hp : c.processedParts.find? fid with
    | none => exact absurd ((hc fid).mpr hp) (by simp [hm])
    | some parts =>
      rw [pending_eq_some_iff.mpr ⟨hm, hp⟩] at h
      cases h

theorem contains_of_pending {e : Message × Finset Peer} (h : c.pending fid = some e) :
    c.contains fid = true := by
  obtain ⟨hm, hp⟩ := pending_eq_some_iff.mp h
  simp [contains, OrderedMap.contains, hm, hp]

theorem not_contains_of_none (hc : c.Synced) (h : c.pending fid = none) :
    c.contains fid = false := by
  obtain ⟨hm, -⟩ := hc.pending_eq_none h
  simp [contains, OrderedMap.contains, hm]

theorem pending_insert (c : AggregationCatalogue) (fid : String) (msg : Message)
    (parts : Finset Peer) :
    pending { messageMap := c.messageMap.insert fid msg,
              processedParts := c.processedParts.insert fid parts } =
      Function.update c.pending fid (some (msg, parts)) := by
  funext k
  by_cases hk : k = fid
  · subst hk
    rw [Function.update_self]
    exact pending_eq_some_iff.mpr ⟨by simp, by simp⟩
  · rw [Function.update_of_ne hk]
    simp [pending, hk]

theorem pending_setMessage {msg msg' : Message} {parts : Finset Peer}
    (h : c.pending fid = some (msg, parts)) :
    (c.setMessage fid msg').pending = Function.update c.pending fid (some (msg', parts)) := by
  funext k
  by_cases hk : k = fid
  · subst hk
    rw [Function.update_self]
    exact pending_eq_some_iff.mpr ⟨by simp [setMessage], (pending_eq_some_iff.mp h).2⟩
  · rw [Function.update_of_ne hk]
    simp [pending, setMessage, hk]

theorem pending_erase (c : AggregationCatalogue) (fid : String) :
    pending { messageMap := c.messageMap.erase fid,
              processedParts := c.processedParts.erase fid } =
      Function.update c.pending fid none := by
  funext k
  by_cases hk : k = fid
  · subst hk
    simp [pending]
  · rw [Function.update_of_ne hk]
    simp [pending, hk]

theorem Synced.insert (hc : c.Synced) (fid : String) (msg : Message) (parts : Finset Peer) :
    Synced { messageMap := c.messageMap.insert fid msg,
             processedParts := c.processedParts.insert fid parts } := by
  intro k
  by_cases hk : k = fid
  · simp [hk]
  · simpa [hk] using hc k

theorem Synced.erase (hc : c.Synced) (fid : String) :
    Synced { messageMap := c.messageMap.erase fid,
             processedParts := c.processedParts.erase fid } := by
  intro k
  by_cases hk : k = fid
  · simp [hk]
  · simpa [hk] using hc k

theorem Synced.setMessage {msg : Message} {parts : Finset Peer} (hc : c.Synced)
    (h : c.pending fid = some (msg, parts)) (msg' : Message) : (c.setMessage fid msg').Synced := by
  intro k
  by_cases hk : k = fid
  · subst hk
    simp [AggregationCatalogue.setMessage, (pending_eq_some_iff.mp h).2]
  · simpa [AggregationCatalogue.setMessage, hk] using hc k

variable {ctx : AggregateContext} {f : FieldSpec} {m : Message}

theorem addNew_ok (hc : c.Synced) (hm : IsPart ctx.toContext f m)
    (h : c.pending (m.fieldId ctx.toContext) = none) :
    ∃ c', c.addNew ctx m = .ok c' ∧ c'.Synced ∧
      c'.pending = Function.update c.pending (m.fieldId ctx.toContext)
        (some (newMessage ctx m f.bytes, ∅)) := by
  obtain ⟨hmsg, hparts⟩ := hc.pending_eq_none h
  refine ⟨{ messageMap := c.messageMap.insert (m.fieldId ctx.toContext)
              (newMessage ctx m f.bytes),
            processedParts := c.processedParts.insert (m.fieldId ctx.toContext) ∅ },
    ?_, hc.insert _ _ _, pending_insert c _ _ _⟩
  simp only [addNew]
  rw [assert_ok (by rw [not_contains_of_none hc h]; rfl), ok_bind, hm.precision, ok_bind,
    hm.globalSize, ok_bind, if_neg (by omega), Int.toNat_natCast,
    OrderedMap.emplace_of_none _ hmsg, OrderedMap.emplace_of_none _ hparts]
  rfl

theorem bookProcessedPart_ok {msg : Message} {parts : Finset Peer} (hc : c.Synced)
    (h : c.pending fid = some (msg, parts)) (peer : Peer) :
    ∃ c', c.bookProcessedPart fid peer = .ok c' ∧ c'.Synced ∧
      c'.pending = Function.update c.pending fid (some (msg, insert peer parts)) := by
  obtain ⟨hmsg, hparts⟩ := pending_eq_some_iff.mp h
  refine ⟨{ c with processedParts := c.processedParts.insert fid (insert peer parts) }, ?_, ?_, ?_⟩
  · unfold bookProcessedPart
    rw [assert_ok (contains_of_pending h), ok_bind]
    simp only [processedPartsAt, hparts, ok_bind]
  · intro k
    by_cases hk : k = fid
    · simp [hk, hmsg]
    · simpa [hk] using hc k
  · funext k
    by_cases hk : k = fid
    · subst hk
      rw [Function.update_self]
      exact pending_eq_some_iff.mpr ⟨hmsg, by simp⟩
    · rw [Function.update_of_ne hk]
      simp [pending, hk]

theorem partsCount_ok {msg : Message} {parts : Finset Peer}
    (h : c.pending fid = some (msg, parts)) : c.partsCount fid = .ok parts.card := by
  unfold partsCount
  rw [assert_ok (contains_of_pending h), ok_bind]
  simp only [processedPartsAt, (pending_eq_some_iff.mp h).2, ok_bind]

theorem extract_ok {msg : Message} {parts : Finset Peer} (hc : c.Synced)
    (h : c.pending fid = some (msg, parts)) :
    ∃ c', c.extract fid = .ok (msg, c') ∧ c'.Synced ∧
      c'.pending = Function.update c.pending fid none := by
  refine ⟨_, ?_, hc.erase fid, pending_erase c fid⟩
  simp only [extract, (pending_eq_some_iff.mp h).1]

end AggregationCatalogue

/-- What holds of the catalogue between messages: its entries have the size of their field, and
the peers heard of are registered. -/
structure CatalogueInv (mappings : Mappings) (spec : String → FieldSpec)
    (c : AggregationCatalogue) : Prop where
  synced : c.Synced
  sized : ∀ fid msg parts, c.pending fid = some (msg, parts) →
    msg.payload.length = (spec fid).bytes
  registered : ∀ fid msg parts, c.pending fid = some (msg, parts) →
    ∃ dm, mappings.get (spec fid).domain = .ok dm ∧ parts ⊆ dm.domainMap.keys

theorem CatalogueInv.empty (mappings : Mappings) (spec : String → FieldSpec) :
    CatalogueInv mappings spec {} := by
  have hnone : ∀ fid, AggregationCatalogue.pending {} fid = none := fun _ => rfl
  refine ⟨fun _ => ⟨fun _ => rfl, fun _ => rfl⟩, ?_, ?_⟩
  · intro fid msg parts h
    cases (hnone fid).symm.trans h
  · intro fid msg parts h
    cases (hnone fid).symm.trans h

/-- An entry of the right size whose peers are registered may replace the one of a field. -/
theorem CatalogueInv.update {mappings : Mappings} {spec : String → FieldSpec}
    {c c' : AggregationCatalogue} (hc : CatalogueInv mappings spec c) (hsync : c'.Synced)
    {fid : String} {e : Option (Message × Finset Peer)}
    (hpending : c'.pending = Function.update c.pending fid e)
    (he : ∀ msg parts, e = some (msg, parts) → msg.payload.length = (spec fid).bytes ∧
      ∃ dm, mappings.get (spec fid).domain = .ok dm ∧ parts ⊆ dm.domainMap.keys) :
    CatalogueInv mappings spec c' := by
  refine ⟨hsync, ?_, ?_⟩
  · intro k msg parts h
    rw [hpending] at h
    by_cases hk : k = fid
    · subst hk
      rw [Function.update_self] at h
      exact (he msg parts h).1
    · rw [Function.update_of_ne hk] at h
      exact hc.sized k msg parts h
  · intro k msg parts h
    rw [hpending] at h
    by_cases hk : k = fid
    · subst hk
      rw [Function.update_self] at h
      exact (he msg parts h).2
    · rw [Function.update_of_ne hk] at h
      exact hc.registered k msg parts h

namespace Aggregate

variable {ctx : AggregateContext} {mappings : Mappings} {spec : String → FieldSpec}
  {f : FieldSpec} {m : Message} {dm : DomainMap}

/-- The catalogue in which the field of the message has an entry. -/
def entryCatalogue (ctx : AggregateContext) (c : AggregationCatalogue) (m : Message) :
    Except Exception AggregationCatalogue :=
  if c.contains (m.fieldId ctx.toContext) then .ok c else c.addNew ctx m

theorem entryCatalogue_ok {c : AggregationCatalogue} (hc : CatalogueInv mappings spec c)
    (hm : IsPart ctx.toContext (spec (m.fieldId ctx.toContext)) m) :
    ∃ c₁ msg parts, entryCatalogue ctx c m = .ok c₁ ∧ c₁.Synced ∧
      c₁.pending = Function.update c.pending (m.fieldId ctx.toContext) (some (msg, parts)) ∧
      (c.pending (m.fieldId ctx.toContext)).getD (AggregationCatalogue.newMessage ctx m
        (spec (m.fieldId ctx.toContext)).bytes, ∅) = (msg, parts) ∧
      msg.payload.length = (spec (m.fieldId ctx.toContext)).bytes ∧
      ∀ dm, mappings.get (spec (m.fieldId ctx.toContext)).domain = .ok dm →
        parts ⊆ dm.domainMap.keys := by
  set fid := m.fieldId ctx.toContext with hfid
  cases hp : c.pending fid with
  | none =>
    obtain ⟨c₁, hnew, hsync₁, hpend₁⟩ := AggregationCatalogue.addNew_ok hc.synced hm hp
    refine ⟨c₁, _, ∅, ?_, hsync₁, hpend₁, rfl, ?_, fun _ _ => Finset.empty_subset _⟩
    · rw [entryCatalogue, if_neg, hnew]
      rw [AggregationCatalogue.not_contains_of_none hc.synced hp]
      decide
    · simp [AggregationCatalogue.newMessage]
  | some e =>
    obtain ⟨msg, parts⟩ := e
    refine ⟨c, msg, parts, ?_, hc.synced, ?_, rfl, hc.sized fid msg parts hp, ?_⟩
    · rw [entryCatalogue, if_pos (AggregationCatalogue.contains_of_pending hp)]
    · rw [← hp, Function.update_eq_self]
    · intro dm hdm
      obtain ⟨dm', hdm', hsub⟩ := hc.registered fid msg parts hp
      have hsame : dm' = dm := Except.ok.inj (hdm'.symm.trans hdm)
      exact hsame ▸ hsub

theorem toGlobal_ok {c : AggregationCatalogue} (hc : c.Synced) (hm : IsPart ctx.toContext f m)
    (hdm : mappings.get f.domain = .ok dm) {d : Domain}
    (hd : dm.domainMap.find? m.source = some d) {msg : Message} {parts : Finset Peer}
    (h : c.pending (m.fieldId ctx.toContext) = some (msg, parts)) {payload : List UInt8}
    (hpayload : d.toGlobal f.precision.size m.payload msg.payload = .ok payload) :
    ∃ c', toGlobal ctx mappings c m = .ok c' ∧ c'.Synced ∧
      c'.pending = Function.update c.pending (m.fieldId ctx.toContext)
        (some ({ msg with payload }, parts)) := by
  refine ⟨c.setMessage (m.fieldId ctx.toContext) { msg with payload }, ?_,
    AggregationCatalogue.Synced.setMessage hc h _,
    AggregationCatalogue.pending_setMessage h⟩
  simp only [toGlobal]
  simp only [hm.domain, hdm, ok_bind, DomainMap.at_, hd, AggregationCatalogue.getMessage,
    (AggregationCatalogue.pending_eq_some_iff.mp h).1, hm.precision, hpayload]

theorem allPartsArrived_ok {c : AggregationCatalogue} (hm : IsPart ctx.toContext f m)
    (hdm : mappings.get f.domain = .ok dm) {complete : Bool}
    (hcomplete : dm.isComplete = .ok complete) {msg : Message} {parts : Finset Peer}
    (h : c.pending (m.fieldId ctx.toContext) = some (msg, parts))
    (hsub : parts ⊆ dm.domainMap.keys) :
    allPartsArrived ctx mappings c m =
      .ok (decide ((if complete then some dm.domainMap.keys else none) = some parts)) := by
  unfold allPartsArrived
  rw [hm.domain, ok_bind, hdm, ok_bind, hcomplete, ok_bind]
  cases complete with
  | false => rfl
  | true =>
    have hsize : dm.size = .ok dm.domainMap.size := by
      unfold DomainMap.size
      rw [hcomplete]
      rfl
    rw [if_pos rfl, AggregationCatalogue.partsCount_ok h, ok_bind, hsize, ok_bind]
    congr 2
    rw [if_pos rfl, Option.some.injEq, OrderedMap.size_eq_card]
    apply propext
    constructor
    · intro hcard
      exact (Finset.eq_of_subset_of_card_le hsub hcard.ge).symm
    · intro heq
      rw [heq]

theorem handleField_ok {c : AggregationCatalogue} (hc : CatalogueInv mappings spec c)
    (hm : IsPart ctx.toContext (spec (m.fieldId ctx.toContext)) m)
    (hdm : mappings.get (spec (m.fieldId ctx.toContext)).domain = .ok dm) {d : Domain}
    (hd : dm.domainMap.find? m.source = some d) {msg : Message} {parts : Finset Peer}
    (hget : (c.pending (m.fieldId ctx.toContext)).getD (AggregationCatalogue.newMessage ctx m
      (spec (m.fieldId ctx.toContext)).bytes, ∅) = (msg, parts)) {payload : List UInt8}
    (hpayload : d.toGlobal (spec (m.fieldId ctx.toContext)).precision.size m.payload msg.payload =
      .ok payload) {complete : Bool} (hcomplete : dm.isComplete = .ok complete) :
    ∃ c', handleField ctx mappings c m = .ok (c', decide
        ((if complete then some dm.domainMap.keys else none) = some (insert m.source parts))) ∧
      c'.Synced ∧ c'.pending = Function.update c.pending (m.fieldId ctx.toContext)
        (some ({ msg with payload }, insert m.source parts)) ∧
      insert m.source parts ⊆ dm.domainMap.keys := by
  obtain ⟨c₁, msg₁, parts₁, hc₁, hsync₁, hpend₁, hget₁, -, hsub⟩ := entryCatalogue_ok hc hm
  obtain ⟨rfl, rfl⟩ := Prod.mk.inj (hget₁.symm.trans hget)
  set fid := m.fieldId ctx.toContext with hfid
  have hp₁ : c₁.pending fid = some (msg₁, parts₁) := by rw [hpend₁, Function.update_self]
  obtain ⟨c₂, hc₂, hsync₂, hpend₂⟩ := toGlobal_ok hsync₁ hm hdm hd hp₁ hpayload
  have hp₂ : c₂.pending fid = some ({ msg₁ with payload }, parts₁) := by
    rw [hpend₂, Function.update_self]
  obtain ⟨c₃, hc₃, hsync₃, hpend₃⟩ :=
    AggregationCatalogue.bookProcessedPart_ok hsync₂ hp₂ m.source
  have hp₃ : c₃.pending fid = some ({ msg₁ with payload }, insert m.source parts₁) := by
    rw [hpend₃, Function.update_self]
  have hsub' : insert m.source parts₁ ⊆ dm.domainMap.keys := by
    rw [Finset.insert_subset_iff]
    exact ⟨OrderedMap.mem_keys.mpr ⟨d, hd⟩, hsub dm hdm⟩
  refine ⟨c₃, ?_, hsync₃, ?_, hsub'⟩
  · unfold entryCatalogue at hc₁
    simp only [handleField]
    rw [← hfid, hc₁, ok_bind, hc₂, ok_bind, hc₃, ok_bind,
      allPartsArrived_ok hm hdm hcomplete hp₃ hsub', ok_bind]
  · rw [hpend₃, hpend₂, hpend₁, Function.update_idem, Function.update_idem]

/-- A part of a field makes the catalogue take one step of the gathering. -/
theorem executeImpl_field (dom : String → Peer → Domain)
    (parse : String → Except Exception BaseMetadata) {a : Aggregate}
    (hc : CatalogueInv mappings spec a.aggCatalogue)
    (hm : IsPart ctx.toContext (spec (m.fieldId ctx.toContext)) m)
    (hdm : mappings.get (spec (m.fieldId ctx.toContext)).domain = .ok dm)
    (hd : dm.domainMap.find? m.source =
      some (dom (spec (m.fieldId ctx.toContext)).domain m.source))
    (hfit : Fits (spec (m.fieldId ctx.toContext))
      (dom (spec (m.fieldId ctx.toContext)).domain m.source) m)
    {complete : Bool} (hcomplete : dm.isComplete = .ok complete) :
    ∃ a', executeImpl ctx mappings parse a m =
        .ok (a', ((gather ctx spec dom).step a.aggCatalogue.pending
          (m, if complete then some dm.domainMap.keys else none)).2.toList) ∧
      a'.aggCatalogue.pending = ((gather ctx spec dom).step a.aggCatalogue.pending
          (m, if complete then some dm.domainMap.keys else none)).1 ∧
      CatalogueInv mappings spec a'.aggCatalogue := by
  set fid := m.fieldId ctx.toContext with hfid
  set event : Message × Option (Finset Peer) :=
    (m, if complete then some dm.domainMap.keys else none) with hevent
  obtain ⟨c₁, msg, parts, -, -, -, hget, hsize, -⟩ := entryCatalogue_ok hc hm
  set d := dom (spec fid).domain m.source
  set msg' : Message := { msg with payload := addPart (spec fid) d m msg.payload } with hmsg'
  have hscatter := Domain.toGlobal_eq_scatter hfit.inBounds (PrecisionTag.size_le _)
    hfit.payload_eq hfit.payload_lt hsize
  obtain ⟨c₃, hfield, hsync₃, hpending₃, hsub'⟩ := handleField_ok hc hm hdm hd hget hscatter
    hcomplete
  have hp₃ : c₃.pending fid = some (msg', insert m.source parts) := by
    rw [hpending₃, Function.update_self]
    rfl
  have hcollect : (gather ctx spec dom).collect a.aggCatalogue.pending event =
      (msg', insert m.source parts) := by
    simp only [Gather.collect, gather, hevent]
    rw [← hfid, hget]
  have hlen : msg'.payload.length = (spec fid).bytes := addPart_length hfit hsize
  have hinv₃ : CatalogueInv mappings spec c₃ := by
    refine hc.update hsync₃ hpending₃ ?_
    intro x xs hx
    cases hx
    exact ⟨hlen, dm, hdm, hsub'⟩
  simp only [executeImpl, hm.tag, hfield, Gather.step, hcollect]
  -- the message goes out when the peers heard of are those of the goal
  by_cases hdone : event.2 = some (insert m.source parts)
  · obtain ⟨c₄, hc₄, hsync₄, hpend₄⟩ := AggregationCatalogue.extract_ok hsync₃ hp₃
    have hpending₄ : c₄.pending = Function.update a.aggCatalogue.pending fid none := by
      rw [hpend₄, hpending₃, Function.update_idem]
    refine ⟨{ a with aggCatalogue := c₄ }, ?_, ?_, ?_⟩
    · rw [if_pos (show (gather ctx spec dom).goal event = _ from hdone)]
      change (if decide (event.2 = some (insert m.source parts)) = true then _ else _) = _
      rw [if_pos (decide_eq_true hdone)]
      change (c₃.extract fid >>= _) = _
      rw [hc₄]
      rfl
    · rw [if_pos (show (gather ctx spec dom).goal event = _ from hdone)]
      exact hpending₄
    · refine hc.update hsync₄ hpending₄ ?_
      intro x xs hx
      cases hx
  · refine ⟨{ a with aggCatalogue := c₃ }, ?_, ?_, hinv₃⟩
    · rw [if_neg (show ¬ (gather ctx spec dom).goal event = _ from hdone)]
      change (if decide (event.2 = some (insert m.source parts)) = true then _ else _) = _
      rw [if_neg (by simpa using hdone)]
      rfl
    · rw [if_neg (show ¬ (gather ctx spec dom).goal event = _ from hdone)]
      exact hpending₃

end Aggregate
end Multio.Action
