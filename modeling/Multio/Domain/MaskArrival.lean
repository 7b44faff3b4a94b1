import Multio.Domain.GlobalMask
import Multio.Domain.MaskCompleteness

namespace Multio
open Exception Scatter Domain Lib

structure MaskSpec where
  fieldId : String
  domain : String
  size : ℕ
  bkey : String

structure IsMask (ctx : Context) (f : MaskSpec) (msg : Message) : Prop where
  fieldId : msg.fieldId ctx = f.fieldId
  domain : msg.domain ctx = .ok f.domain
  globalSize : msg.globalSize ctx = .ok f.size
  bkey : Mask.key ctx msg.metadata = .ok f.bkey

/-- A complete domain map of boxes within the grid that do not overlap. -/
structure DisjointBoxes (dm : DomainMap) (dom : Peer → Structured) (n : ℕ) : Prop where
  complete : dm.isComplete = .ok true
  find : ∀ p ∈ dm.domainMap.keys, dm.domainMap.find? p = some (.structured (dom p))
  inBounds : ∀ p ∈ dm.domainMap.keys, (dom p).InBounds n
  disjoint : ∀ p ∈ dm.domainMap.keys, ∀ q ∈ dm.domainMap.keys, p ≠ q →
    Disjoint (dom p).interior (dom q).interior
  /-- What `toBitmask` asserts, and that its products are an `int`. -/
  partialSize : ∀ p ∈ dm.domainMap.keys, (dom p).dataPartialSize ≤ n
  dataSize : ∀ p ∈ dm.domainMap.keys, (dom p).dataNj * (dom p).dataNi < 2 ^ 31

theorem DisjointBoxes.mask_length_lt {dm : DomainMap} {dom : Peer → Structured} {n : ℕ}
    (h : DisjointBoxes dm dom n) {p : Peer} (hp : p ∈ dm.domainMap.keys) {mask : List Bool}
    (hmask : mask.length = (dom p).dataNi.toNat * (dom p).dataNj.toNat) :
    mask.length < 2 ^ 31 := by
  have hsize : (mask.length : ℤ) = (dom p).dataNj * (dom p).dataNi := by
    rw [hmask]
    push_cast
    rw [Int.toNat_of_nonneg (h.inBounds p hp).dataNi.1,
      Int.toNat_of_nonneg (h.inBounds p hp).dataNj.1, mul_comm]
  have := h.dataSize p hp
  omega

namespace Mask

def addAll (ctx : MaskContext) (mappings : Mappings) : Mask → List Message → Except Exception Mask
  | s, [] => .ok s
  | s, m :: ms =>
    match s.add ctx mappings m with
    | (.error e, _) => .error e
    | (.ok (), s') => addAll ctx mappings s' ms

theorem addAll_append (ctx : MaskContext) (mappings : Mappings) (s : Mask) (ms ms' : List Message) :
    addAll ctx mappings s (ms ++ ms') =
      addAll ctx mappings s ms >>= fun s' => addAll ctx mappings s' ms' := by
  induction ms generalizing s with
  | nil => rfl
  | cons m ms ih =>
    rw [List.cons_append, addAll, addAll]
    split
    · rfl
    · exact ih _

section Arrival

variable {ctx : MaskContext} {mappings : Mappings} {f : MaskSpec} {dm : DomainMap}
  {dom : Peer → Structured} {mask : Peer → List Bool}

theorem allPartsArrived_eq (hdm : mappings.get f.domain = .ok dm)
    (hcomplete : dm.isComplete = .ok true)
    {msg : Message} (hmsg : IsMask ctx.toContext f msg) (s : Mask) :
    s.allPartsArrived ctx mappings msg =
      .ok (decide ((s.collected f.fieldId).length = dm.domainMap.keys.card)) := by
  rw [allPartsArrived, hmsg.domain, ok_bind, hdm, ok_bind, hcomplete, ok_bind, if_pos rfl,
    DomainMap.size, hcomplete, ok_bind, if_pos rfl, ok_bind, hmsg.fieldId,
    OrderedMap.size_eq_card]

theorem collected_addPartialMask_self {msg : Message} (hmsg : IsMask ctx.toContext f msg)
    (s : Mask) :
    (s.addPartialMask ctx msg).collected f.fieldId = s.collected f.fieldId ++ [msg] := by
  rw [collected_addPartialMask, if_pos hmsg.fieldId.symm]

theorem addAll_collecting (hdm : mappings.get f.domain = .ok dm)
    (hcomplete : dm.isComplete = .ok true) {ms : List Message}
    (hms : ∀ m ∈ ms, IsMask ctx.toContext f m) {s : Mask}
    (hmissing : (s.collected f.fieldId).length + ms.length < dm.domainMap.keys.card) :
    ∃ s', addAll ctx mappings s ms = .ok s' ∧
      s'.collected f.fieldId = s.collected f.fieldId ++ ms := by
  induction ms generalizing s with
  | nil => exact ⟨s, rfl, (List.append_nil _).symm⟩
  | cons m ms ih =>
    rw [List.forall_mem_cons] at hms
    rw [List.length_cons] at hmissing
    have hcollected := collected_addPartialMask_self hms.1 s
    have hadd : s.add ctx mappings m = (.ok (), s.addPartialMask ctx m) := by
      unfold add
      dsimp only
      rw [allPartsArrived_eq hdm hcomplete hms.1, hcollected, List.length_append,
        List.length_singleton, decide_eq_false (by omega)]
    obtain ⟨s', hs', hcollected'⟩ := ih hms.2
      (by rw [hcollected, List.length_append, List.length_singleton]; omega)
    refine ⟨s', ?_, ?_⟩
    · rw [addAll, hadd]
      exact hs'
    · rw [hcollected', hcollected, List.append_assoc, List.singleton_append]

theorem addToBitmask_ok (hdm : mappings.get f.domain = .ok dm)
    (hboxes : DisjointBoxes dm dom f.size) (hsize : f.size < 2 ^ 31) {msg : Message}
    (hmsg : IsMask ctx.toContext f msg) (hsource : msg.source ∈ dm.domainMap.keys)
    (hmask : (mask msg.source).length =
      (dom msg.source).dataNi.toNat * (dom msg.source).dataNj.toNat)
    (hreads : ReadsAs msg.payload (mask msg.source)) {bitmask : List Bool}
    (hlen : bitmask.length = f.size) :
    addToBitmask ctx mappings bitmask msg =
      .ok (scatter 1 (mask msg.source) bitmask (Domain.structured (dom msg.source)).indexMap) := by
  rw [addToBitmask, hmsg.domain, ok_bind, hdm, ok_bind, DomainMap.at_, hboxes.find _ hsource,
    ok_bind]
  exact Structured.toBitmask_ok (hboxes.inBounds _ hsource) hsize (hboxes.partialSize _ hsource)
    (hboxes.dataSize _ hsource) hmask hreads hlen

theorem foldlM_addToBitmask (hdm : mappings.get f.domain = .ok dm)
    (hboxes : DisjointBoxes dm dom f.size) (hsize : f.size < 2 ^ 31) {ms : List Message}
    (hms : ∀ m ∈ ms, IsMask ctx.toContext f m ∧ m.source ∈ dm.domainMap.keys ∧
      ReadsAs m.payload (mask m.source))
    (hmask : ∀ p ∈ dm.domainMap.keys,
      (mask p).length = (dom p).dataNi.toNat * (dom p).dataNj.toNat) {bitmask : List Bool}
    (hlen : bitmask.length = f.size) :
    ms.foldlM (addToBitmask ctx mappings) bitmask =
      .ok (addMasks dom mask (ms.map Message.source) bitmask) := by
  induction ms generalizing bitmask with
  | nil => rfl
  | cons m ms ih =>
    rw [List.forall_mem_cons] at hms
    obtain ⟨⟨hm, hsource, hreads⟩, hms⟩ := hms
    have hlen' := scatter_length (w := 1) _ (structured_inRange (hboxes.inBounds _ hsource))
      (show (mask m.source).length = _ by rw [hmask _ hsource, Nat.mul_one])
      (by rw [hlen, Nat.mul_one])
    rw [Nat.mul_one] at hlen'
    rw [List.foldlM_cons, addToBitmask_ok hdm hboxes hsize hm hsource (hmask _ hsource) hreads hlen,
      ok_bind, ih hms hlen']
    rfl

theorem getElem?_unionMask (hboxes : DisjointBoxes dm dom f.size) {ps : List Peer}
    (hnodup : ps.Nodup) (hps : ∀ p ∈ ps, p ∈ dm.domainMap.keys)
    (hmask : ∀ p ∈ dm.domainMap.keys,
      (mask p).length = (dom p).dataNi.toNat * (dom p).dataNj.toNat) {g : ℕ} :
    (addMasks dom mask ps (List.replicate f.size false))[g]? = some true ↔
      UnionBit dom mask ps g := by
  rw [getElem?_addMasks hnodup (fun p hp => hboxes.inBounds p (hps p hp))
    (fun p hp => hmask p (hps p hp))
    (fun p hp q hq => hboxes.disjoint p (hps p hp) q (hps q hq)) List.length_replicate]
  have hfalse : (List.replicate f.size false)[g]? ≠ some true := by
    rw [List.getElem?_replicate]
    split_ifs <;> simp
  simp [hfalse]

/-- Once the masks of all peers have arrived, in whatever order, the global mask is stored. -/
theorem addAll_stores (hdm : mappings.get f.domain = .ok dm)
    (hboxes : DisjointBoxes dm dom f.size) (hpos : 0 < f.size) (hsize : f.size < 2 ^ 31)
    (hmask : ∀ p ∈ dm.domainMap.keys,
      (mask p).length = (dom p).dataNi.toNat * (dom p).dataNj.toNat) {ms : List Message}
    (hms : ∀ m ∈ ms, IsMask ctx.toContext f m ∧ ReadsAs m.payload (mask m.source))
    (hnodup : (ms.map Message.source).Nodup)
    (hpeers : (ms.map Message.source).toFinset = dm.domainMap.keys) (hne : ms ≠ []) {s : Mask}
    (hs : s.collected f.fieldId = []) :
    ∃ s' b, addAll ctx mappings s ms = .ok s' ∧ s'.get f.bkey = .ok b ∧
      DecodesTo (addMasks dom mask (ms.map Message.source) (List.replicate f.size false))
        (runLengthHeader f.size (computeMaskRunLengthProperties
          (addMasks dom mask (ms.map Message.source) (List.replicate f.size false)))) b := by
  have hsource : ∀ m ∈ ms, m.source ∈ dm.domainMap.keys := by
    intro m hm
    rw [← hpeers, List.mem_toFinset]
    exact List.mem_map_of_mem hm
  have hcard : ms.length = dm.domainMap.keys.card := by
    rw [← hpeers, List.toFinset_card_of_nodup hnodup, List.length_map]
  set B := addMasks dom mask (ms.map Message.source) (List.replicate f.size false) with hB
  have hlen : B.length = f.size := by
    have hps : ∀ p ∈ ms.map Message.source, p ∈ dm.domainMap.keys := by
      intro p hp
      obtain ⟨m, hm, rfl⟩ := List.mem_map.mp hp
      exact hsource m hm
    exact addMasks_length (fun p hp => hboxes.inBounds p (hps p hp))
      (fun p hp => hmask p (hps p hp)) List.length_replicate
  obtain ⟨b, henc, -, hdec⟩ := encodeMaskRunLength_decodes ctx.memory
    (show 0 < B.length by omega) (by omega)
  rw [hlen] at hdec
  -- all masks but the last one are collected
  obtain ⟨init, last, rfl⟩ : ∃ init last, ms = init ++ [last] :=
    ⟨_, _, (List.dropLast_append_getLast hne).symm⟩
  have hlast := hms last (by simp)
  obtain ⟨s₁, hs₁, hcollected⟩ := addAll_collecting hdm hboxes.complete
    (fun m hm => (hms m (List.mem_append_left _ hm)).1) (s := s)
    (by rw [hs, ← hcard]; simp)
  rw [hs, List.nil_append] at hcollected
  have hall : (s₁.addPartialMask ctx last).collected f.fieldId = init ++ [last] := by
    rw [collected_addPartialMask_self hlast.1, hcollected]
  have hfold := foldlM_addToBitmask hdm hboxes hsize
    (fun m hm => ⟨(hms m hm).1, hsource m hm, (hms m hm).2⟩) hmask
    (List.length_replicate (n := f.size) (a := false))
  obtain ⟨s₂, hs₂, hcreate⟩ : ∃ s₂ : Mask, s₂.get f.bkey = .ok b ∧
      (s₁.addPartialMask ctx last).createBitmask ctx mappings last = .ok s₂ := by
    refine ⟨{ messages := (s₁.addPartialMask ctx last).messages.insert f.fieldId [],
              bitmasks := (s₁.addPartialMask ctx last).bitmasks.insert f.bkey b }, ?_, ?_⟩
    · rw [get, OrderedMap.find?_insert, if_pos rfl]
    · unfold createBitmask
      dsimp only
      rw [hlast.1.globalSize, ok_bind, if_neg (by omega), hlast.1.fieldId, hall,
        Int.toNat_natCast, hfold, ok_bind, hlast.1.bkey, ok_bind, ← hB, henc]
      rfl
  refine ⟨s₂, b, ?_, hs₂, hdec⟩
  rw [addAll_append, hs₁, ok_bind, addAll]
  unfold add
  dsimp only
  rw [allPartsArrived_eq hdm hboxes.complete hlast.1, hall, decide_eq_true hcard]
  dsimp only
  rw [hcreate]
  rfl

end Arrival
end Mask
end Multio
