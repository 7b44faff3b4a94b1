import Multio.Action.AggregateStep
import Multio.Domain.DomainConsistency

namespace Multio
open Exception Scatter

/-- The size checks of `toGlobal`. -/
def Domain.SizesMatch (w srcLength dstLength : ℕ) : Domain → Prop
  | .unstructured definition _ => srcLength = definition.length * w
  | .structured s => (w * s.niGlobal * s.njGlobal) % 2 ^ 64 = dstLength ∧
      (w * s.dataNi * s.dataNj) % 2 ^ 64 = srcLength

/-- What `toGlobal` reaches has its place among `n` values. -/
def Domain.WritesWithin (n : ℕ) : Domain → Prop
  | .unstructured definition _ => ∀ id ∈ definition, 0 ≤ id ∧ id < n
  | .structured s => s.PointsWithin n ∧ 8 * (s.dataNi * s.dataNj) < 2 ^ 64

theorem nonneg_of_loopRange {low size : ℤ} {xs : List ℤ} (h : loopRange low size = .ok xs) :
    0 ≤ size := by
  obtain ⟨upp, hupp, h⟩ := bind_eq_ok_iff.mp h
  split_ifs at h with hle
  rw [eq_of_int32 hupp] at hle
  omega

theorem Structured.PointsWithin.dataSize_eq {s : Structured} {n w : ℕ} (hs : s.PointsWithin n)
    (hw : w ≤ 8) (hwrap : 8 * (s.dataNi * s.dataNj) < 2 ^ 64) :
    (w * s.dataNi * s.dataNj) % 2 ^ 64 = (s.dataNi.toNat * s.dataNj.toNat * w : ℕ) := by
  obtain ⟨js, hjs⟩ := hs.rows
  have hnj := nonneg_of_loopRange hjs
  rcases Int.le_iff_lt_or_eq.mp hnj with hpos | hzero
  · obtain ⟨is, his⟩ := hs.columns (by omega)
    have hni := nonneg_of_loopRange his
    have hproduct : 0 ≤ s.dataNi * s.dataNj := mul_nonneg hni hnj
    have hle : (w : ℤ) * (s.dataNi * s.dataNj) ≤ 8 * (s.dataNi * s.dataNj) :=
      mul_le_mul_of_nonneg_right (by omega) hproduct
    rw [mul_assoc, Int.emod_eq_of_lt (mul_nonneg (by omega) hproduct) (by omega)]
    push_cast
    rw [Int.toNat_of_nonneg hni, Int.toNat_of_nonneg hnj, mul_comm]
  · rw [← hzero]
    simp

/-- A part whose places are among those of the field is scattered or not accepted. -/
theorem Domain.toGlobal_cases {d : Domain} {n w : ℕ} {src dst : List UInt8} (hw : w ≤ 8)
    (hdst : dst.length = n * w)
    (hwithin : d.SizesMatch w src.length dst.length → d.WritesWithin n) :
    (d.toGlobal w src dst = .ok (scatter w src dst d.indexMap) ∧
      src.length = d.dataSize * w ∧ InRange d.indexMap n d.dataSize) ∨
      ∃ what, d.toGlobal w src dst = .error (.assertionFailed what) := by
  cases d with
  | unstructured definition globalSize =>
    by_cases hsrc : src.length = definition.length * w
    · exact .inl ⟨unstructuredToGlobal_eq (hwithin hsrc) globalSize hsrc hdst, hsrc,
        unstructured_inRange (hwithin hsrc) globalSize⟩
    · refine .inr ⟨"local.payload().size() == definition_.size() * sizeof(Precision)", ?_⟩
      change unstructuredToGlobal definition w src dst = _
      rw [unstructuredToGlobal, assert, if_neg (by rw [decide_eq_true_eq]; exact hsrc)]
      rfl
  | structured s =>
    by_cases hglobal : (w * s.niGlobal * s.njGlobal) % 2 ^ 64 = dst.length
    · by_cases hlocal : (w * s.dataNi * s.dataNj) % 2 ^ 64 = (src.length : ℤ)
      · obtain ⟨hs, hwrap⟩ := hwithin ⟨hglobal, hlocal⟩
        have hsrc : src.length = s.dataNi.toNat * s.dataNj.toNat * w := by
          rw [hs.dataSize_eq hw hwrap] at hlocal
          omega
        exact .inl ⟨hs.toGlobal_eq hsrc hdst hglobal hlocal, hsrc, hs.indexMap_inRange⟩
      · have hsizes : s.toGlobal w src dst = .error (.assertionFailed ("Local size is " ++
            toString (src.length / w) ++ " while it is expected to equal " ++
            toString s.dataNi ++ " times " ++ toString s.dataNj)) := by
          rw [Structured.toGlobal, assert_ok (decide_eq_true hglobal), ok_bind, if_pos hlocal]
        exact .inr ⟨_, hsizes⟩
    · refine .inr ⟨"sizeof(Precision) * ni_global * nj_global == global.size()", ?_⟩
      change s.toGlobal w src dst = _
      rw [Structured.toGlobal, assert, if_neg (by rw [decide_eq_true_eq]; exact hglobal)]
      rfl

namespace Action
open Lib

/-- The word of a global payload is that of a part received for the field. -/
def Written (ctx : Context) (mappings : Mappings) (spec : String → FieldSpec) (ms : List Message)
    (fid : String) (payload : List UInt8) (g : ℕ) : Prop :=
  ∃ m ∈ ms, m.tag = .field ∧ m.fieldId ctx = fid ∧
    ∃ dm d l, mappings.get (spec fid).domain = .ok dm ∧ dm.domainMap.find? m.source = some d ∧
      (g, l) ∈ d.indexMap ∧
      word (spec fid).precision.size payload g = word (spec fid).precision.size m.payload l

namespace Aggregate

/-- No `toGlobal` of a run leaves the payload, and the fields that go out are written by parts. -/
def Safe (ctx : AggregateContext) (mappings : Mappings) (spec : String → FieldSpec)
    (parse : String → Except Exception BaseMetadata) (ms : List Message) : Prop :=
  ∀ pre m post a outs, ms = pre ++ m :: post → m.tag = .field →
    run ctx mappings parse {} pre = .ok (a, outs) →
    (∀ c what, entryCatalogue ctx a.aggCatalogue m = .ok c →
      toGlobal ctx mappings c m ≠ .error (.undefinedBehaviour what)) ∧
    ∀ a' out, executeImpl ctx mappings parse a m = .ok (a', [out]) →
      out.payload.length = (spec (m.fieldId ctx.toContext)).bytes ∧
      ∀ g < (spec (m.fieldId ctx.toContext)).size,
        Written ctx.toContext mappings spec (pre ++ [m]) (m.fieldId ctx.toContext) out.payload g

/-- The part has its places in the field if it is accepted, and the registered parts cover the
field if the part is the last one. -/
structure PartSound (ctx : AggregateContext) (mappings : Mappings) (spec : String → FieldSpec)
    (c : AggregationCatalogue) (m : Message) : Prop where
  within : ∀ dm d, mappings.get (spec (m.fieldId ctx.toContext)).domain = .ok dm →
    dm.domainMap.find? m.source = some d →
    d.SizesMatch (spec (m.fieldId ctx.toContext)).precision.size m.payload.length
      (spec (m.fieldId ctx.toContext)).bytes →
    d.WritesWithin (spec (m.fieldId ctx.toContext)).size
  covers : ∀ dm, mappings.get (spec (m.fieldId ctx.toContext)).domain = .ok dm →
    dm.isComplete = .ok true →
    insert m.source ((c.processedParts.find? (m.fieldId ctx.toContext)).getD ∅) =
      dm.domainMap.keys →
    ∀ g < (spec (m.fieldId ctx.toContext)).size,
      ∃ p d l, dm.domainMap.find? p = some d ∧ (g, l) ∈ d.indexMap

structure Filled (ctx : Context) (mappings : Mappings) (spec : String → FieldSpec)
    (ms : List Message) (c : AggregationCatalogue) : Prop where
  inv : CatalogueInv mappings spec c
  written : ∀ fid msg parts, c.pending fid = some (msg, parts) →
    ∀ dm p d g l, mappings.get (spec fid).domain = .ok dm → p ∈ parts →
      dm.domainMap.find? p = some d → (g, l) ∈ d.indexMap →
      Written ctx mappings spec ms fid msg.payload g

variable {ctx : AggregateContext} {mappings : Mappings} {spec : String → FieldSpec}
  {ms : List Message} {m : Message} {c : AggregationCatalogue}

theorem written_append {fid : String} {payload payload' : List UInt8} {g : ℕ}
    (h : Written ctx.toContext mappings spec ms fid payload g)
    (hword : word (spec fid).precision.size payload' g = word (spec fid).precision.size payload g)
    (m : Message) : Written ctx.toContext mappings spec (ms ++ [m]) fid payload' g := by
  obtain ⟨m', hm', htag, hfid, dm, d, l, hdm, hd, hl, heq⟩ := h
  exact ⟨m', List.mem_append_left _ hm', htag, hfid, dm, d, l, hdm, hd, hl, hword.trans heq⟩

/-- Of a part that has its places in the field `toGlobal` succeeds or throws. -/
theorem toGlobal_ne_undefined (hc : CatalogueInv mappings spec c)
    (hm : IsPart ctx.toContext (spec (m.fieldId ctx.toContext)) m)
    (hsound : PartSound ctx mappings spec c m) {c₁ : AggregationCatalogue}
    (hentry : entryCatalogue ctx c m = .ok c₁) (what : String) :
    toGlobal ctx mappings c₁ m ≠ .error (.undefinedBehaviour what) := by
  obtain ⟨c₁', msg, parts, hentry', -, hpend, -, hsize, -⟩ := entryCatalogue_ok hc hm
  obtain rfl : c₁' = c₁ := Except.ok.inj (hentry'.symm.trans hentry)
  have hp : c₁'.pending (m.fieldId ctx.toContext) = some (msg, parts) := by
    rw [hpend, Function.update_self]
  unfold toGlobal
  dsimp only
  rw [hm.domain, ok_bind]
  cases hdm : mappings.get (spec (m.fieldId ctx.toContext)).domain with
  | error e =>
    unfold Mappings.get at hdm
    split at hdm
    · cases hdm
    · cases hdm
      rw [error_bind]
      simp
  | ok dm =>
    rw [ok_bind, DomainMap.at_]
    cases hd : dm.domainMap.find? m.source with
    | none => simp [error_bind]
    | some d =>
      simp only [ok_bind, AggregationCatalogue.getMessage,
        (AggregationCatalogue.pending_eq_some_iff.mp hp).1, hm.precision]
      have hwithin := hsound.within dm d hdm hd
      rw [← hsize] at hwithin
      -- within its index map a part is scattered or refused for its size
      rcases Domain.toGlobal_cases (PrecisionTag.size_le _) hsize hwithin with
        ⟨hok, -⟩ | ⟨text, herror⟩
      · rw [hok, ok_bind]
        simp
      · rw [herror, error_bind]
        simp

theorem handleField_inv (hc : CatalogueInv mappings spec c)
    (hm : IsPart ctx.toContext (spec (m.fieldId ctx.toContext)) m) {c' : AggregationCatalogue}
    {arrived : Bool} (h : handleField ctx mappings c m = .ok (c', arrived)) :
    ∃ dm d complete msg parts payload,
      mappings.get (spec (m.fieldId ctx.toContext)).domain = .ok dm ∧
      dm.domainMap.find? m.source = some d ∧ dm.isComplete = .ok complete ∧
      (c.pending (m.fieldId ctx.toContext)).getD (AggregationCatalogue.newMessage ctx m
        (spec (m.fieldId ctx.toContext)).bytes, ∅) = (msg, parts) ∧
      msg.payload.length = (spec (m.fieldId ctx.toContext)).bytes ∧
      d.toGlobal (spec (m.fieldId ctx.toContext)).precision.size m.payload msg.payload =
        .ok payload := by
  obtain ⟨c₁, msg, parts, hentry, -, hpend, hget, hsize, -⟩ := entryCatalogue_ok hc hm
  have hp : c₁.pending (m.fieldId ctx.toContext) = some (msg, parts) := by
    rw [hpend, Function.update_self]
  obtain ⟨c₁', hentry', h⟩ := bind_eq_ok_iff.mp h
  obtain rfl : c₁ = c₁' := Except.ok.inj (hentry.symm.trans hentry')
  obtain ⟨c₂, hglobal, h⟩ := bind_eq_ok_iff.mp h
  obtain ⟨c₃, -, h⟩ := bind_eq_ok_iff.mp h
  obtain ⟨arrived', harrived, -⟩ := bind_eq_ok_iff.mp h
  simp only [toGlobal, hm.domain, ok_bind] at hglobal
  obtain ⟨dm, hdm, hglobal⟩ := bind_eq_ok_iff.mp hglobal
  obtain ⟨d, hd, hglobal⟩ := bind_eq_ok_iff.mp hglobal
  simp only [AggregationCatalogue.getMessage, (AggregationCatalogue.pending_eq_some_iff.mp hp).1,
    hm.precision, ok_bind] at hglobal
  obtain ⟨payload, hpayload, -⟩ := bind_eq_ok_iff.mp hglobal
  rw [allPartsArrived, hm.domain, ok_bind, hdm, ok_bind] at harrived
  obtain ⟨complete, hcomplete, -⟩ := bind_eq_ok_iff.mp harrived
  have hfind : dm.domainMap.find? m.source = some d := by
    rw [DomainMap.at_] at hd
    cases hp : dm.domainMap.find? m.source with
    | none => rw [hp] at hd; cases hd
    | some d' => rw [hp] at hd; cases hd; rfl
  exact ⟨dm, d, complete, msg, parts, payload, hdm, hfind, hcomplete, hget, hsize, hpayload⟩

theorem processedParts_eq (hc : c.Synced) {fid : String} {e : Message × Finset Peer}
    {fresh : Message} (h : (c.pending fid).getD (fresh, ∅) = e) :
    (c.processedParts.find? fid).getD ∅ = e.2 := by
  cases hp : c.pending fid with
  | none =>
    rw [hp, Option.getD_none] at h
    rw [(AggregationCatalogue.Synced.pending_eq_none hc hp).2, ← h]
    rfl
  | some e' =>
    rw [hp, Option.getD_some] at h
    rw [(AggregationCatalogue.pending_eq_some_iff.mp hp).2, ← h]
    rfl

/-- The entry of a field after a part has been taken in: the places of the parts heard of before,
and those of this one, have been written. -/
theorem written_addPart (hc : Filled ctx.toContext mappings spec ms c)
    (hm : IsPart ctx.toContext (spec (m.fieldId ctx.toContext)) m) {dm : DomainMap} {d : Domain}
    (hdm : mappings.get (spec (m.fieldId ctx.toContext)).domain = .ok dm)
    (hd : dm.domainMap.find? m.source = some d) {msg : Message} {parts : Finset Peer}
    (hget : (c.pending (m.fieldId ctx.toContext)).getD (AggregationCatalogue.newMessage ctx m
      (spec (m.fieldId ctx.toContext)).bytes, ∅) = (msg, parts))
    (hsize : msg.payload.length = (spec (m.fieldId ctx.toContext)).bytes)
    (hsrc : m.payload.length =
      d.dataSize * (spec (m.fieldId ctx.toContext)).precision.size)
    (hrange : InRange d.indexMap (spec (m.fieldId ctx.toContext)).size d.dataSize)
    {p : Peer} (hp : p ∈ insert m.source parts) {d' : Domain}
    (hd' : dm.domainMap.find? p = some d') {g l : ℕ} (hg : (g, l) ∈ d'.indexMap) :
    Written ctx.toContext mappings spec (ms ++ [m]) (m.fieldId ctx.toContext)
      (scatter (spec (m.fieldId ctx.toContext)).precision.size m.payload msg.payload d.indexMap)
      g := by
  by_cases hnew : ∃ l', (g, l') ∈ d.indexMap
  · obtain ⟨l', hl', hword⟩ := exists_word_scatter d.indexMap hrange hsrc hsize hnew
    exact ⟨m, by simp, hm.tag, rfl, dm, d, l', hdm, hd, hl', hword⟩
  · -- the place is one of a part heard of before
    have hne : p ≠ m.source := by
      rintro rfl
      rw [hd] at hd'
      cases hd'
      exact hnew ⟨l, hg⟩
    have hold := (Finset.mem_insert.mp hp).resolve_left hne
    have hpending : c.pending (m.fieldId ctx.toContext) = some (msg, parts) := by
      cases hpend : c.pending (m.fieldId ctx.toContext) with
      | none =>
        rw [hpend, Option.getD_none] at hget
        obtain ⟨-, rfl⟩ := Prod.mk.inj hget
        exact absurd hold (Finset.notMem_empty p)
      | some e =>
        rw [hpend, Option.getD_some] at hget
        rw [hget]
    refine written_append (hc.written _ _ _ hpending dm p d' g l hdm hold hd' hg) ?_ m
    apply word_scatter_of_not_mem d.indexMap hrange hsrc hsize
    rintro ⟨g', l'⟩ hl' rfl
    exact hnew ⟨l', hl'⟩

theorem Filled.append (hc : Filled ctx.toContext mappings spec ms c) (m : Message) :
    Filled ctx.toContext mappings spec (ms ++ [m]) c :=
  ⟨hc.inv, fun fid msg parts h dm p d g l hdm hp hd hl =>
    written_append (hc.written fid msg parts h dm p d g l hdm hp hd hl) rfl m⟩

theorem Filled.extract (hc : Filled ctx.toContext mappings spec ms c) {fid : String} {msg : Message}
    {parts : Finset Peer} (h : c.pending fid = some (msg, parts)) :
    ∃ c', c.extract fid = .ok (msg, c') ∧ Filled ctx.toContext mappings spec ms c' := by
  obtain ⟨c', hextract, hsync, hpending⟩ := AggregationCatalogue.extract_ok hc.inv.synced h
  refine ⟨c', hextract, hc.inv.update hsync hpending (by simp), ?_⟩
  intro k msg' parts' hk
  rw [hpending] at hk
  by_cases hkey : k = fid
  · subst hkey
    rw [Function.update_self] at hk
    cases hk
  · rw [Function.update_of_ne hkey] at hk
    exact hc.written k msg' parts' hk

/-- The entries of the other fields stay, and that of the message's field may be replaced by one
whose places have been written. -/
theorem Filled.update (hc : Filled ctx.toContext mappings spec ms c) {c' : AggregationCatalogue}
    (hc' : CatalogueInv mappings spec c') {fid : String} {e : Option (Message × Finset Peer)}
    (hpending : c'.pending = Function.update c.pending fid e) (m : Message)
    (he : ∀ msg parts, e = some (msg, parts) →
      ∀ dm p d g l, mappings.get (spec fid).domain = .ok dm → p ∈ parts →
        dm.domainMap.find? p = some d → (g, l) ∈ d.indexMap →
        Written ctx.toContext mappings spec (ms ++ [m]) fid msg.payload g) :
    Filled ctx.toContext mappings spec (ms ++ [m]) c' := by
  refine ⟨hc', ?_⟩
  intro k msg parts h dm p d g l hdm hp hd hl
  rw [hpending] at h
  by_cases hk : k = fid
  · subst hk
    rw [Function.update_self] at h
    exact he msg parts h dm p d g l hdm hp hd hl
  · rw [Function.update_of_ne hk] at h
    exact (hc.append m).written k msg parts h dm p d g l hdm hp hd hl

theorem handleField_filled (hc : Filled ctx.toContext mappings spec ms c)
    (hm : IsPart ctx.toContext (spec (m.fieldId ctx.toContext)) m)
    (hsound : PartSound ctx mappings spec c m) {c' : AggregationCatalogue} {arrived : Bool}
    (h : handleField ctx mappings c m = .ok (c', arrived)) :
    Filled ctx.toContext mappings spec (ms ++ [m]) c' ∧
      ∃ msg parts, c'.pending (m.fieldId ctx.toContext) = some (msg, parts) ∧
        (arrived = true → ∀ g < (spec (m.fieldId ctx.toContext)).size,
          Written ctx.toContext mappings spec (ms ++ [m]) (m.fieldId ctx.toContext)
            msg.payload g) := by
  obtain ⟨dm, d, complete, msg, parts, payload, hdm, hd, hcomplete, hget, hsize, hpayload⟩ :=
    handleField_inv hc.inv hm h
  have hwithin := hsound.within dm d hdm hd
  rw [← hsize] at hwithin
  obtain ⟨hpayload', hsrc, hrange⟩ : payload = scatter
        (spec (m.fieldId ctx.toContext)).precision.size m.payload msg.payload d.indexMap ∧
      m.payload.length = d.dataSize * (spec (m.fieldId ctx.toContext)).precision.size ∧
      InRange d.indexMap (spec (m.fieldId ctx.toContext)).size d.dataSize := by
    rcases Domain.toGlobal_cases (PrecisionTag.size_le _) hsize hwithin with
      ⟨hok, hsrc, hrange⟩ | ⟨text, herror⟩
    · exact ⟨Except.ok.inj (hpayload.symm.trans hok), hsrc, hrange⟩
    · rw [herror] at hpayload
      cases hpayload
  subst hpayload'
  obtain ⟨c₃, hfield, hsync, hpending, hsub⟩ :=
    handleField_ok hc.inv hm hdm hd hget hpayload hcomplete
  obtain ⟨rfl, harrived⟩ := Prod.mk.inj (Except.ok.inj (hfield.symm.trans h))
  -- what the parts heard of should write is written, by this message or by one before
  have hall : ∀ p ∈ insert m.source parts, ∀ d' g l, dm.domainMap.find? p = some d' →
      (g, l) ∈ d'.indexMap → Written ctx.toContext mappings spec (ms ++ [m])
        (m.fieldId ctx.toContext) (scatter (spec (m.fieldId ctx.toContext)).precision.size
          m.payload msg.payload d.indexMap) g := by
    intro p hp d' g l hd' hl
    exact written_addPart hc hm hdm hd hget hsize hsrc hrange hp hd' hl
  refine ⟨?_, _, _, by rw [hpending, Function.update_self], ?_⟩
  · apply hc.update _ hpending m
    · rintro msg' parts' heq dm' p d' g l hdm' hp' hd' hl
      cases heq
      obtain rfl : dm' = dm := Except.ok.inj (hdm'.symm.trans hdm)
      exact hall p hp' d' g l hd' hl
    · apply hc.inv.update hsync hpending
      intro msg' parts' heq
      cases heq
      exact ⟨scatter_length _ hrange hsrc hsize, dm, hdm, hsub⟩
  · intro harr g hg
    rw [harr, decide_eq_true_eq] at harrived
    have hkeys : complete = true ∧ dm.domainMap.keys = insert m.source parts := by
      cases complete with
      | false => cases harrived
      | true => exact ⟨rfl, Option.some.inj harrived⟩
    obtain ⟨rfl, hkeys⟩ := hkeys
    have hprocessed := processedParts_eq hc.inv.synced hget
    -- all registered parts have been heard of, and they cover the field
    obtain ⟨p, d', l, hd', hl⟩ := hsound.covers dm hdm hcomplete (by rw [hprocessed, hkeys]) g hg
    exact hall p (hkeys ▸ OrderedMap.mem_keys.mpr ⟨d', hd'⟩) d' g l hd' hl

theorem Filled.empty : Filled ctx.toContext mappings spec [] {} := by
  refine ⟨CatalogueInv.empty mappings spec, ?_⟩
  intro fid msg parts h
  have hnone : AggregationCatalogue.pending {} fid = none := rfl
  cases hnone.symm.trans h

/-- A message keeps every place written, and a field that it makes go out is written by parts. -/
theorem executeImpl_filled (parse : String → Except Exception BaseMetadata) {a a' : Aggregate}
    (hc : Filled ctx.toContext mappings spec ms a.aggCatalogue)
    (hm : m.tag = .field → IsPart ctx.toContext (spec (m.fieldId ctx.toContext)) m)
    (hsound : m.tag = .field → PartSound ctx mappings spec a.aggCatalogue m) {outs : List Message}
    (h : executeImpl ctx mappings parse a m = .ok (a', outs)) :
    Filled ctx.toContext mappings spec (ms ++ [m]) a'.aggCatalogue ∧
      (m.tag = .field → ∀ out ∈ outs,
        out.payload.length = (spec (m.fieldId ctx.toContext)).bytes ∧
        ∀ g < (spec (m.fieldId ctx.toContext)).size, Written ctx.toContext mappings spec
          (ms ++ [m]) (m.fieldId ctx.toContext) out.payload g) := by
  unfold executeImpl at h
  split at h
  next htag =>
    obtain ⟨⟨c, arrived⟩, hfield, h⟩ := bind_eq_ok_iff.mp h
    obtain ⟨hfilled, msg, parts, hpending, hwritten⟩ :=
      handleField_filled hc (hm htag) (hsound htag) hfield
    dsimp only at h
    split_ifs at h with harrived
    · obtain ⟨c', hextract, hfilled'⟩ := hfilled.extract hpending
      rw [hextract, ok_bind] at h
      cases h
      refine ⟨hfilled', fun _ out hout => ?_⟩
      obtain rfl := List.mem_singleton.mp hout
      exact ⟨hfilled.inv.sized _ _ _ hpending, hwritten harrived⟩
    · cases h
      exact ⟨hfilled, fun _ out hout => absurd hout List.not_mem_nil⟩
  next htag =>
    obtain ⟨⟨flushes, arrived⟩, -, h⟩ := bind_eq_ok_iff.mp h
    dsimp only at h
    split_ifs at h with harrived
    · obtain ⟨out, -, h⟩ := bind_eq_ok_iff.mp h
      cases h
      exact ⟨hc.append m, fun hfield => absurd (htag.symm.trans hfield) (by decide)⟩
    · cases h
      exact ⟨hc.append m, fun hfield => absurd (htag.symm.trans hfield) (by decide)⟩
  next hfield hflush =>
    cases h
    exact ⟨hc.append m, fun htag => absurd htag hfield⟩

theorem run_append_singleton (parse : String → Except Exception BaseMetadata) {a a' : Aggregate}
    {outs : List (List Message)}
    (h : run ctx mappings parse a (ms ++ [m]) = .ok (a', outs)) :
    ∃ a₁ outs₁ out, run ctx mappings parse a ms = .ok (a₁, outs₁) ∧
      executeImpl ctx mappings parse a₁ m = .ok (a', out) := by
  induction ms generalizing a outs with
  | nil =>
    obtain ⟨⟨a₁, out⟩, hstep, h⟩ := bind_eq_ok_iff.mp h
    cases h
    exact ⟨a, [], out, rfl, hstep⟩
  | cons x ms ih =>
    obtain ⟨⟨a₁, out⟩, hstep, h⟩ := bind_eq_ok_iff.mp h
    obtain ⟨⟨a₂, outs'⟩, hrun, h⟩ := bind_eq_ok_iff.mp h
    cases h
    obtain ⟨a₃, outs₃, out', hrun', hlast⟩ := ih hrun
    refine ⟨a₃, out :: outs₃, out', ?_, hlast⟩
    rw [run, hstep, ok_bind]
    simp only [hrun', ok_bind]

theorem run_filled (parse : String → Except Exception BaseMetadata)
    (hspec : ∀ m ∈ ms, m.tag = .field →
      IsPart ctx.toContext (spec (m.fieldId ctx.toContext)) m)
    (hsound : ∀ pre m post a outs, ms = pre ++ m :: post → m.tag = .field →
      run ctx mappings parse {} pre = .ok (a, outs) →
      PartSound ctx mappings spec a.aggCatalogue m) {pre post : List Message}
    (hpre : ms = pre ++ post) {a : Aggregate} {outs : List (List Message)}
    (hrun : run ctx mappings parse {} pre = .ok (a, outs)) :
    Filled ctx.toContext mappings spec pre a.aggCatalogue := by
  induction pre using List.reverseRecOn generalizing post a outs with
  | nil =>
    cases hrun
    exact Filled.empty
  | append_singleton pre m ih =>
    obtain ⟨a₁, outs₁, out, hrun₁, hstep⟩ := run_append_singleton parse hrun
    rw [List.append_assoc, List.singleton_append] at hpre
    have hmem : m ∈ ms := by simp [hpre]
    exact (executeImpl_filled parse (ih hpre hrun₁) (hspec m hmem)
      (fun htag => hsound pre m post a₁ outs₁ hpre htag hrun₁) hstep).1

/-- In every run whose parts are sound, no part is written outside of its field, and every value
of a field that goes out has been written by a part. -/
theorem aggregate_safe (ctx : AggregateContext) (mappings : Mappings) (spec : String → FieldSpec)
    (parse : String → Except Exception BaseMetadata) (ms : List Message)
    (hspec : ∀ m ∈ ms, m.tag = .field →
      IsPart ctx.toContext (spec (m.fieldId ctx.toContext)) m)
    (hsound : ∀ pre m post a outs, ms = pre ++ m :: post → m.tag = .field →
      run ctx mappings parse {} pre = .ok (a, outs) →
      PartSound ctx mappings spec a.aggCatalogue m) :
    Safe ctx mappings spec parse ms := by
  intro pre m post a outs hms htag hrun
  have hmem : m ∈ ms := by simp [hms]
  have hfilled := run_filled parse hspec hsound hms hrun
  have hpart := hsound pre m post a outs hms htag hrun
  constructor
  · intro c what hentry
    exact toGlobal_ne_undefined hfilled.inv (hspec m hmem htag) hpart hentry what
  · intro a' out hstep
    exact (executeImpl_filled parse hfilled (hspec m hmem) (fun _ => hpart) hstep).2 htag out
      (List.mem_singleton.mpr rfl)

open Mappings (indexContext indexMessage localField indexMap mem_indexMap)

def indexAggregateContext : AggregateContext := { indexContext with memory := fun _ _ => 0xFF }

def indexSpec (_ : String) : FieldSpec := { domain := "grid", precision := .float, size := 2 }

def indexMappings (second : UInt8) : Mappings :=
  (∅ : Mappings).insert "grid" (indexMap second false)

theorem localField_isPart (i : ℕ) :
    IsPart indexAggregateContext.toContext
      (indexSpec ((localField i).fieldId indexAggregateContext.toContext)) (localField i) :=
  ⟨rfl, rfl, rfl, rfl⟩

theorem localField_sound (i : ℕ) (c : AggregationCatalogue) :
    PartSound indexAggregateContext (indexMappings 1) indexSpec c (localField i) := by
  constructor
  · intro dm d hdm hd _
    obtain rfl : indexMap 1 false = dm := Except.ok.inj hdm
    rcases mem_indexMap (OrderedMap.mem_keys.mpr ⟨d, hd⟩) with hp | hp
    · rw [hp] at hd
      cases hd
      intro id hid
      obtain rfl := List.mem_singleton.mp hid
      change (0 : ℤ) ≤ 0 ∧ (0 : ℤ) < (2 : ℕ)
      decide
    · rw [hp] at hd
      cases hd
      intro id hid
      obtain rfl := List.mem_singleton.mp hid
      change (0 : ℤ) ≤ 1 ∧ (1 : ℤ) < (2 : ℕ)
      decide
  · intro dm hdm _ _ g hg
    obtain rfl : indexMap 1 false = dm := Except.ok.inj hdm
    have hg' : g < 2 := hg
    obtain rfl | rfl : g = 0 ∨ g = 1 := by omega
    · exact ⟨{ group := "c", id := 0 }, .unstructured [0] 2, 0, rfl, by decide⟩
    · exact ⟨{ group := "c", id := 1 }, .unstructured [1] 2, 0, rfl, by decide⟩

theorem aggregate_safe_two : Safe indexAggregateContext (indexMappings 1) indexSpec
    (fun _ => .error .terminate) [localField 0, localField 1] := by
  apply aggregate_safe
  · simp only [List.mem_cons, List.not_mem_nil, or_false]
    rintro m (rfl | rfl) -
    · exact localField_isPart 0
    · exact localField_isPart 1
  · intro pre m post a outs hms _ _
    have hmem : m ∈ [localField 0, localField 1] := by simp [hms]
    simp only [List.mem_cons, List.not_mem_nil, or_false] at hmem
    rcases hmem with rfl | rfl
    · exact localField_sound 0 _
    · exact localField_sound 1 _

/-- The index maps [0] and [7] are accepted, and so are [0] and [0]. -/
theorem stray_or_repeated_index_unsafe :
    ((Mappings.add indexContext ∅ (indexMessage 0 0) >>= fun m =>
        m.add indexContext (indexMessage 1 7)) = .ok (indexMappings 7) ∧
      ¬ Safe indexAggregateContext (indexMappings 7) indexSpec (fun _ => .error .terminate)
        [localField 0, localField 1]) ∧
    (Mappings.add indexContext ∅ (indexMessage 0 0) >>= fun m =>
        m.add indexContext (indexMessage 1 0)) = .ok (indexMappings 0) ∧
      ¬ Safe indexAggregateContext (indexMappings 0) indexSpec (fun _ => .error .terminate)
        [localField 0, localField 1] := by
  refine ⟨⟨rfl, fun h => ?_⟩, rfl, fun h => ?_⟩
  · exact (h [localField 0] (localField 1) [] _ _ rfl rfl rfl).1 _ _ rfl rfl
  · obtain ⟨-, hwritten⟩ := (h [localField 0] (localField 1) [] _ _ rfl rfl rfl).2 _ _ rfl
    obtain ⟨m, hm, -, -, dm, d, l, hdm, hd, hl, -⟩ := hwritten 1 (by decide)
    obtain rfl : indexMap 0 false = dm := Except.ok.inj hdm
    rcases mem_indexMap (OrderedMap.mem_keys.mpr ⟨d, hd⟩) with hp | hp
    · rw [hp] at hd
      cases hd
      revert hl
      simp [Domain.indexMap]
    · rw [hp] at hd
      cases hd
      revert hl
      simp [Domain.indexMap]

end Aggregate
end Action
end Multio
