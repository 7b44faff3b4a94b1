import Multio.Action.Mask
import Multio.Domain.DomainScatter
import Multio.Domain.MaskArrival

namespace Multio.Action
open Exception Scatter Domain

section Runs

variable {w n : ℕ} {f : List UInt8 → List UInt8}

theorem updateRun_ok (hf : ∀ x, x.length = w → (f x).length = w) {payload : List UInt8}
    (hlen : payload.length = n * w) {offset len : ℕ} (hle : offset + len ≤ n) :
    ∃ out, updateRun w f payload offset len = .ok out ∧ out.length = n * w ∧
      ∀ g, word w out g =
        if offset ≤ g ∧ g < offset + len then f (word w payload g) else word w payload g := by
  induction len generalizing payload offset with
  | zero =>
    refine ⟨payload, rfl, hlen, fun g => ?_⟩
    rw [if_neg (by omega)]
  | succ len ih =>
    have hlt : offset < n := by omega
    have hword := hf _ (word_length hlen hlt)
    obtain ⟨out, hout, hlen', hwords⟩ := ih (putWord_length hlen hlt hword)
      (show offset + 1 + len ≤ n by omega)
    refine ⟨out, ?_, hlen', fun g => ?_⟩
    · rw [updateRun, List.range'_succ, List.foldlM_cons, storeWord_ok _ hlen ⟨by omega, by omega⟩]
      exact hout
    · rw [hwords]
      by_cases hg : g = offset
      · rw [if_neg (by omega), if_pos (by omega), hg]
        exact word_putWord_self hlen hlt hword
      · rw [word_putWord_ne hlen hlt hword hg]
        by_cases hin : offset ≤ g ∧ g < offset + (len + 1)
        · rw [if_pos hin, if_pos (by omega)]
        · rw [if_neg hin, if_neg (by omega)]

/-- The loop over the runs of a mask changes the values whose bit is `sign`. -/
theorem updateRuns_ok (hf : ∀ x, x.length = w → (f x).length = w) (sign : Bool)
    {runs : List (Bool × ℕ)} {mask : List Bool}
    (hruns : runs.flatMap (fun r => List.replicate r.2 r.1) = mask) {payload : List UInt8}
    (hlen : payload.length = n * w) {offset : ℕ} (hle : offset + mask.length ≤ n) :
    ∃ out, updateRuns w sign f runs offset payload = .ok out ∧ out.length = n * w ∧
      ∀ g, word w out g =
        if offset ≤ g ∧ mask[g - offset]? = some sign then f (word w payload g)
        else word w payload g := by
  induction runs generalizing mask payload offset with
  | nil =>
    obtain rfl : mask = [] := hruns.symm
    exact ⟨payload, rfl, hlen, fun g => by simp⟩
  | cons r runs ih =>
    obtain ⟨v, len⟩ := r
    rw [List.flatMap_cons] at hruns
    set rest := runs.flatMap (fun r => List.replicate r.2 r.1) with hrest
    have hsplit : ∀ g, offset ≤ g → mask[g - offset]? =
        if g < offset + len then some v else rest[g - (offset + len)]? := by
      intro g hg
      rw [← hruns]
      by_cases hin : g < offset + len
      · rw [if_pos hin, List.getElem?_append_left (by rw [List.length_replicate]; omega),
          List.getElem?_replicate, if_pos (by omega)]
      · rw [if_neg hin, List.getElem?_append_right (by rw [List.length_replicate]; omega),
          List.length_replicate, Nat.sub_sub]
    have hmask : mask.length = len + rest.length := by
      rw [← hruns, List.length_append, List.length_replicate]
    -- the values of this run
    obtain ⟨payload', hrun, hlen', hwords'⟩ : ∃ payload',
        (if v = sign then updateRun w f payload offset len else .ok payload) = .ok payload' ∧
        payload'.length = n * w ∧ ∀ g, word w payload' g =
          if v = sign ∧ offset ≤ g ∧ g < offset + len then f (word w payload g)
          else word w payload g := by
      by_cases hv : v = sign
      · obtain ⟨payload', h, hlen', hwords'⟩ := updateRun_ok hf hlen
          (show offset + len ≤ n by omega)
        refine ⟨payload', by rw [if_pos hv, h], hlen', fun g => ?_⟩
        rw [hwords']
        simp only [hv, true_and]
      · refine ⟨payload, if_neg hv, hlen, fun g => ?_⟩
        rw [if_neg (by tauto)]
    obtain ⟨out, hout, hlen'', hwords⟩ := ih hrest.symm hlen'
      (show offset + len + rest.length ≤ n by omega)
    refine ⟨out, ?_, hlen'', fun g => ?_⟩
    · rw [updateRuns, hrun, ok_bind, hout]
    · rw [hwords, hwords']
      by_cases hg : offset ≤ g
      · rw [hsplit g hg]
        by_cases hin : g < offset + len
        · rw [if_neg (by omega), if_pos hin]
          simp [hg, hin]
        · rw [if_neg hin, if_neg (c := v = sign ∧ _) (by omega)]
          simp [hg, show offset + len ≤ g by omega]
      · rw [if_neg (by omega), if_neg (by omega), if_neg (by omega)]

end Runs

theorem FloatArithmetic.cast_length (F : FloatArithmetic) (p : PrecisionTag) (v : UInt64) :
    (F.cast p v).length = p.size := by
  cases p <;> exact Util.littleEndian_length _ _

theorem bitmaskRuns_ok {mask : List Bool} {h : MaskPayloadHeader} {b : Buffer}
    (hdec : DecodesTo mask h b) (hformat : h.format = .runLength)
    (hbits : h.numBits = mask.length) :
    ∃ runs, runs.flatMap (fun r => List.replicate r.2 r.1) = mask ∧
      bitmaskRuns h b = .ok runs := by
  obtain ⟨runs, hruns, hvalues⟩ := hdec.runs hformat
  refine ⟨runs, hruns, ?_⟩
  rw [bitmaskRuns, hvalues _ hbits.ge]
  rfl

namespace Mask

variable {ctx : MaskActionContext} {a : Mask} {store : Multio.Mask} {bkey : String}
  {mask : List Bool} {h : MaskPayloadHeader} {b : Buffer}

theorem applyMask_ok (hstore : store.get bkey = .ok b) (hdec : DecodesTo mask h b)
    (hformat : h.format = .runLength) (hbits : h.numBits = mask.length) (p : PrecisionTag)
    {msg : Message} (hkey : Multio.Mask.key ctx.toContext msg.metadata = .ok bkey)
    (hsize : msg.size = mask.length * p.size) :
    ∃ payload, a.applyMask ctx store p msg = .ok { msg with payload } ∧
      payload.length = msg.size ∧ ∀ g, word p.size payload g =
        if mask[g]? = some false then ctx.arithmetic.cast p a.missingValue
        else word p.size msg.payload g := by
  obtain ⟨runs, hruns, hvalues⟩ := bitmaskRuns_ok hdec hformat hbits
  obtain ⟨payload, hpayload, hlen, hwords⟩ := updateRuns_ok
    (f := fun _ => ctx.arithmetic.cast p a.missingValue) (w := p.size)
    (fun _ _ => FloatArithmetic.cast_length _ _ _) false hruns hsize
    (show 0 + mask.length ≤ mask.length by rw [Nat.zero_add])
  refine ⟨payload, ?_, by rw [hlen, hsize], fun g => by simpa using hwords g⟩
  have hheader : liftMask (decodeMaskPayloadHeader b) = .ok h := by
    rw [hdec.header]
    rfl
  rw [applyMask, hkey, ok_bind, hstore, ok_bind, hheader, ok_bind,
    if_neg (by rw [not_not, hbits, hsize]), hvalues, ok_bind, hpayload]
  rfl

theorem createMasked_ok (happly : a.applyBitmap = true) {p : PrecisionTag} {msg : Message}
    {payload : List UInt8} (hmasked : a.applyMask ctx store p msg = .ok { msg with payload })
    {name : String} (hname : msg.name ctx.toContext = .ok name) (hoffset : name ∉ a.offsetFields) :
    ∃ out, a.createMasked ctx store p msg = .ok out ∧ out.payload = payload := by
  have hname' : Message.name ctx.toContext { msg with payload } = .ok name := hname
  rw [createMasked, if_pos happly, hmasked, ok_bind, hname', ok_bind, if_neg hoffset]
  exact ⟨_, rfl, rfl⟩

/-- From the local masks of the parts to the masked field: whatever the order in which the
masks of all peers arrive, the stored mask has the interior bits of the parts, and the action
replaces the values without a bit, and no other ones, by the missing value. -/
theorem global_mask_end_to_end (maskCtx : MaskContext) (mappings : Mappings) (f : MaskSpec)
    (dm : DomainMap) (dom : Peer → Structured) (mask : Peer → List Bool)
    (hdm : mappings.get f.domain = .ok dm) (hboxes : DisjointBoxes dm dom f.size)
    (hpos : 0 < f.size) (hsize : f.size < 2 ^ 31)
    (hmask : ∀ p ∈ dm.domainMap.keys,
      (mask p).length = (dom p).dataNi.toNat * (dom p).dataNj.toNat)
    (ms : List Message) (hne : ms ≠ []) (hnodup : (ms.map Message.source).Nodup)
    (hpeers : (ms.map Message.source).toFinset = dm.domainMap.keys)
    (hms : ∀ m ∈ ms, IsMask maskCtx.toContext f m ∧
      ∃ memory, encodeMask memory (mask m.source) = .ok m.payload)
    (s : Multio.Mask) (hs : s.collected f.fieldId = []) :
    ∃ store b B h, Multio.Mask.addAll maskCtx mappings s ms = .ok store ∧
      store.get f.bkey = .ok b ∧ DecodesTo B h b ∧ B.length = f.size ∧
      (∀ g, B[g]? = some true ↔ ∃ p ∈ dm.domainMap.keys, (dom p).InteriorBit (mask p) g) ∧
      ∀ (ctx : MaskActionContext) (a : Mask) (p : PrecisionTag) (msg : Message),
        Multio.Mask.key ctx.toContext msg.metadata = .ok f.bkey → msg.size = f.size * p.size →
        ∃ payload, a.applyMask ctx store p msg = .ok { msg with payload } ∧
          payload.length = msg.size ∧
          (∀ g < f.size, word p.size payload g =
            if B[g]? = some false then ctx.arithmetic.cast p a.missingValue
            else word p.size msg.payload g) ∧
          ∀ name, msg.tag = .field → msg.precision ctx.toContext = .ok p →
            msg.name ctx.toContext = .ok name → a.applyBitmap = true → name ∉ a.offsetFields →
            ∃ out, a.executeImpl ctx store msg = .ok out ∧ out.payload = payload := by
  have hkeys : ∀ p, p ∈ ms.map Message.source ↔ p ∈ dm.domainMap.keys := by
    intro p
    rw [← hpeers, List.mem_toFinset]
  have hreads : ∀ m ∈ ms, IsMask maskCtx.toContext f m ∧ ReadsAs m.payload (mask m.source) := by
    intro m hm
    obtain ⟨hspec, memory, henc⟩ := hms m hm
    have hp := (hkeys m.source).mp (List.mem_map_of_mem hm)
    exact ⟨hspec, readsAs_encodeMask henc (hboxes.mask_length_lt hp (hmask _ hp))⟩
  -- the store first, then what the loop over its runs does to the values
  obtain ⟨store, b, hadd, hget, hdec⟩ := Multio.Mask.addAll_stores hdm hboxes hpos hsize hmask
    hreads hnodup hpeers hne hs
  have hlen := addMasks_length (fun p hp => hboxes.inBounds p ((hkeys p).mp hp))
    (fun p hp => hmask p ((hkeys p).mp hp)) (List.length_replicate (n := f.size) (a := false))
  refine ⟨store, b, _, _, hadd, hget, hdec, hlen, ?_, ?_⟩
  · intro g
    rw [Multio.Mask.getElem?_unionMask hboxes hnodup (fun p hp => (hkeys p).mp hp) hmask]
    constructor
    · rintro ⟨p, hp, hbit⟩
      exact ⟨p, (hkeys p).mp hp, (interiorBit_iff (hboxes.inBounds p ((hkeys p).mp hp))).mpr hbit⟩
    · rintro ⟨p, hp, hbit⟩
      exact ⟨p, (hkeys p).mpr hp, (interiorBit_iff (hboxes.inBounds p hp)).mp hbit⟩
  · intro ctx a p msg hkey hmsg
    obtain ⟨payload, happly, hpayload, hwords⟩ :=
      applyMask_ok (a := a) hget hdec rfl hlen.symm p hkey (by rw [hlen, hmsg])
    refine ⟨payload, happly, hpayload, fun g _ => hwords g, ?_⟩
    intro name htag hprecision hname hbitmap hoffset
    rw [executeImpl, htag]
    dsimp only
    rw [hprecision, ok_bind]
    exact createMasked_ok hbitmap happly hname hoffset

open Multio.Mask Lib

def halfBox (p : Peer) : Structured :=
  { niGlobal := 4, njGlobal := 1, ibegin := 2 * p.id, ni := 2, jbegin := 0, nj := 1,
    dataDim := 2, dataIbegin := -1, dataNi := 4, dataJbegin := 0, dataNj := 1,
    dataPartialSize := 4 }

def halfPeer (i : ℕ) : Peer := { group := "c", id := i }

def halvesMap : DomainMap :=
  { domainMap := ((∅ : OrderedMap Peer Domain).insert (halfPeer 0)
        (.structured (halfBox (halfPeer 0)))).insert (halfPeer 1)
          (.structured (halfBox (halfPeer 1))) }

/-- One point of the first half is masked, and so are the halo points of the second one. -/
def halfMask (p : Peer) : List Bool :=
  if p.id = 0 then [true, true, false, true] else [false, true, true, false]

def halfMessage (i : ℕ) (payload : List UInt8) : Message where
  header := { tag := .mask, source := halfPeer i, destination := {},
              metadata := { bucketCount := 541,
                            nodes := [("domain", .string "grid"), ("level", .int64 0),
                                      ("misc-globalSize", .int64 4)] } }
  payload

theorem mem_halves {p : Peer} (hp : p ∈ halvesMap.domainMap.keys) :
    p = halfPeer 0 ∨ p = halfPeer 1 := by
  rw [halvesMap, OrderedMap.keys_insert, OrderedMap.keys_insert] at hp
  simp only [Finset.mem_insert] at hp
  rcases hp with hp | hp | hp
  · exact .inr hp
  · exact .inl hp
  · exact absurd hp (Finset.notMem_empty p)

theorem halves_boxes : DisjointBoxes halvesMap halfBox 4 where
  complete := rfl
  find p hp := by rcases mem_halves hp with rfl | rfl <;> rfl
  inBounds p hp := by
    rcases mem_halves hp with rfl | rfl <;> constructor <;> decide
  disjoint p hp q hq hne := by
    rw [Set.disjoint_left]
    rintro g ⟨i, j, hi, hi', hj, hj', rfl⟩ ⟨i', j', hi₂, hi₂', hj₂, hj₂', heq⟩
    rcases mem_halves hp with rfl | rfl <;> rcases mem_halves hq with rfl | rfl <;>
      simp only [halfBox, halfPeer, ne_eq, not_true_eq_false] at * <;> omega
  partialSize p hp := by rcases mem_halves hp with rfl | rfl <;> decide
  dataSize p hp := by rcases mem_halves hp with rfl | rfl <;> decide

theorem exists_encodeMask (mem : ℕ → UInt8) {mask : List Bool} (hpos : 0 < mask.length)
    (hlt : mask.length < 2 ^ 31) : ∃ b, encodeMask mem mask = .ok b := by
  rw [encodeMask_of_lt mem (by omega)]
  split_ifs
  · obtain ⟨b, hb, -⟩ := encodeMaskBitMask_decodes mem hpos (by omega)
    exact ⟨b, hb⟩
  · obtain ⟨b, hb, -⟩ := encodeMaskRunLength_decodes mem hpos hlt
    exact ⟨b, hb⟩

/-- The bits of the halo do not count. -/
theorem global_mask_end_to_end_two : ∃ b₀ b₁ store b B h,
    encodeMask (fun _ => 0xFF) (halfMask (halfPeer 0)) = .ok b₀ ∧
      encodeMask (fun _ => 0xFF) (halfMask (halfPeer 1)) = .ok b₁ ∧
      Multio.Mask.addAll halvesContext ((∅ : Mappings).insert "grid" halvesMap) {}
        [halfMessage 1 b₁, halfMessage 0 b₀] = .ok store ∧
      store.get "(grid,0)" = .ok b ∧ DecodesTo B h b ∧ B.length = 4 ∧
      B[0]? = some true ∧ B[1]? ≠ some true := by
  obtain ⟨b₀, hb₀⟩ := exists_encodeMask (fun _ => 0xFF)
    (show 0 < (halfMask (halfPeer 0)).length by decide) (by decide)
  obtain ⟨b₁, hb₁⟩ := exists_encodeMask (fun _ => 0xFF)
    (show 0 < (halfMask (halfPeer 1)).length by decide) (by decide)
  obtain ⟨store, b, B, h, hadd, hget, hdecodes, hlength, hbits, -⟩ := global_mask_end_to_end
    halvesContext ((∅ : Mappings).insert "grid" halvesMap)
    { fieldId := "lsm", domain := "grid", size := 4, bkey := "(grid,0)" } halvesMap halfBox
    halfMask rfl halves_boxes (by decide) (by decide)
    (fun p hp => by rcases mem_halves hp with rfl | rfl <;> rfl)
    [halfMessage 1 b₁, halfMessage 0 b₀] (by simp)
    (show [halfPeer 1, halfPeer 0].Nodup by decide)
    (show [halfPeer 1, halfPeer 0].toFinset = halvesMap.domainMap.keys by decide)
    (by
      simp only [List.mem_cons, List.not_mem_nil, or_false]
      rintro m (rfl | rfl)
      · exact ⟨⟨rfl, rfl, rfl, rfl⟩, _, hb₁⟩
      · exact ⟨⟨rfl, rfl, rfl, rfl⟩, _, hb₀⟩) {} rfl
  refine ⟨b₀, b₁, store, b, B, h, hb₀, hb₁, hadd, hget, hdecodes, hlength, ?_, fun hbit => ?_⟩
  · exact (hbits 0).mpr ⟨halfPeer 0, by decide, 0, 1, by decide, by decide, by decide, by decide,
      by decide, rfl⟩
  · obtain ⟨p, hp, i, j, hi, -, hcolumn, hrow, hpoint, hset⟩ := (hbits 1).mp hbit
    rcases mem_halves hp with rfl | rfl
    · -- the second point of the first half, whose bit is not set
      simp only [halfBox, halfPeer] at hi hcolumn hrow hpoint hset
      obtain rfl : i = 0 := by omega
      obtain rfl : j = 2 := by omega
      cases hset
    · simp only [halfBox, halfPeer] at hcolumn hrow hpoint
      omega

end Mask
end Multio.Action
