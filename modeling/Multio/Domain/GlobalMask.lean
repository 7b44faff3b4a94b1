import Multio.Domain.Mask
import Multio.Domain.MaskRoundTrip
import Multio.Domain.DomainScatter
import Mathlib.Order.CompletePartialOrder

namespace Multio
open Exception Scatter Domain Iteration Lib

theorem storeBit_ok {bmask : List Bool} {n : ℕ} (hlen : bmask.length = n) {bidx : ℤ}
    (hb : 0 ≤ bidx ∧ bidx < n) (v : Bool) :
    storeBit bmask bidx v = .ok (putWord 1 bmask bidx.toNat [v]) := by
  have hlt : bidx.toNat < bmask.length := by omega
  rw [storeBit, if_pos ⟨hb.1, by omega⟩, putWord_one bmask hlt]

section Part

variable {s : Structured} {n : ℕ} {payload : Buffer} {h : MaskPayloadHeader} {mask : List Bool}

theorem pointToBitmask_ok (hb : s.InBounds n) {bmask : List Bool} (hlen : bmask.length = n)
    (a b : ℕ) {st : MaskPayloadIterator} {v : Bool} {vs : List Bool}
    (hyields : (MaskPayloadIterator.iter payload h).Yields st (v :: vs))
    (hv : mask[a * s.dataNi.toNat + b]? = some v) :
    ∃ st', (MaskPayloadIterator.iter payload h).Yields st' vs ∧
      s.pointToBitmask payload h (s.dataJbegin + a) (st, bmask) (s.dataIbegin + b) =
        .ok (st', scatter 1 mask bmask (s.pointMap a b).toList) := by
  cases hyields with
  | @step _ st' _ hend hnext hrest =>
    have hincrement : liftMask (st.increment payload h) = .ok st' := by
      have hnext' : st.increment payload h = .ok st' := hnext
      rw [hnext']
      rfl
    refine ⟨st', hrest, ?_⟩
    unfold Structured.pointToBitmask Structured.pointMap
    by_cases hin : (inRange (s.dataIbegin + b) 0 s.ni && inRange (s.dataJbegin + a) 0 s.nj) = true
    · rw [if_pos hin, if_pos hin]
      rw [Bool.and_eq_true] at hin
      obtain ⟨hrow, hlt⟩ := globalIndex_bounds hb hin.1 hin.2
      obtain ⟨-, hi₀, -⟩ := hb.ni
      have hi := hin.1
      simp only [inRange, Bool.and_eq_true, decide_eq_true_eq] at hi
      rw [globalIndex_ok hb hin.1 hin.2, ok_bind, storeBit_ok hlen ⟨by omega, hlt⟩, ok_bind,
        hincrement, Option.toList_some, scatter, List.foldl_cons, List.foldl_nil, word_one hv]
      rfl
    · rw [if_neg hin, if_neg hin, ok_bind, hincrement]
      rfl

theorem foldlM_pointToBitmask (hb : s.InBounds n)
    (hmask : mask.length = s.dataNi.toNat * s.dataNj.toNat) {bmask : List Bool}
    (hlen : bmask.length = n) {a b len : ℕ} (ha : a < s.dataNj.toNat)
    (hbs : b + len = s.dataNi.toNat) {st : MaskPayloadIterator}
    (hyields : (MaskPayloadIterator.iter payload h).Yields st
      (mask.drop (a * s.dataNi.toNat + b))) :
    ∃ st', (MaskPayloadIterator.iter payload h).Yields st' (mask.drop ((a + 1) * s.dataNi.toNat)) ∧
      (List.range' b len).foldlM (fun st (b : ℕ) =>
          s.pointToBitmask payload h (s.dataJbegin + a) st (s.dataIbegin + b)) (st, bmask) =
        .ok (st', scatter 1 mask bmask ((List.range' b len).filterMap (s.pointMap a))) := by
  have hrows : (a + 1) * s.dataNi.toNat ≤ mask.length := by
    rw [hmask, Nat.mul_comm s.dataNi.toNat]
    exact Nat.mul_le_mul_right _ ha
  rw [Nat.add_mul, Nat.one_mul] at hrows
  -- on the points left of the row, with the iterator one point further each time
  induction len generalizing b bmask st with
  | zero =>
    refine ⟨st, ?_, rfl⟩
    rw [Nat.add_mul, Nat.one_mul, ← hbs, Nat.add_zero]
    rw [← hbs, Nat.add_zero] at hyields
    exact hyields
  | succ len ih =>
    have hl : a * s.dataNi.toNat + b < mask.length := by omega
    rw [List.drop_eq_getElem_cons hl] at hyields
    obtain ⟨st', hyields', hpoint⟩ := pointToBitmask_ok hb hlen a b hyields
      (List.getElem?_eq_getElem hl)
    have hrange : InRange (s.pointMap a b).toList n (s.dataNi.toNat * s.dataNj.toNat) := by
      intro p hp
      exact hb.pointsWithin.pointMap_lt ha (by omega) (Option.mem_toList.mp hp)
    have hlen' := scatter_length (w := 1) _ hrange
      (show mask.length = _ by rw [hmask, Nat.mul_one])
      (by rw [hlen, Nat.mul_one])
    rw [Nat.mul_one] at hlen'
    obtain ⟨st'', hyields'', hrest⟩ := ih (b := b + 1) hlen' (by omega) hyields'
    have hsplit : (List.range' b (len + 1)).filterMap (s.pointMap a) =
        (s.pointMap a b).toList ++ (List.range' (b + 1) len).filterMap (s.pointMap a) := by
      rw [List.range'_succ]
      cases h : s.pointMap a b <;> simp [h]
    refine ⟨st'', hyields'', ?_⟩
    rw [hsplit, List.range'_succ, List.foldlM_cons, hpoint, ok_bind, hrest, scatter_append]

theorem rowToBitmask_ok (hb : s.InBounds n)
    (hmask : mask.length = s.dataNi.toNat * s.dataNj.toNat) {bmask : List Bool}
    (hlen : bmask.length = n) {a : ℕ} (ha : a < s.dataNj.toNat) {st : MaskPayloadIterator}
    (hyields : (MaskPayloadIterator.iter payload h).Yields st (mask.drop (a * s.dataNi.toNat))) :
    ∃ st', (MaskPayloadIterator.iter payload h).Yields st' (mask.drop ((a + 1) * s.dataNi.toNat)) ∧
      s.rowToBitmask payload h (st, bmask) (s.dataJbegin + a) =
        .ok (st', scatter 1 mask bmask (s.rowMap a)) := by
  obtain ⟨st', hyields', hfold⟩ := foldlM_pointToBitmask hb hmask hlen ha (Nat.zero_add _)
    (by rwa [Nat.add_zero])
  refine ⟨st', hyields', ?_⟩
  unfold Structured.rowToBitmask
  rw [loopRange_ok hb.dataNi.2.1 hb.dataNi.1 hb.dataNi.2.2, ok_bind, List.foldlM_map,
    List.range_eq_range', hfold, rowMap_eq, List.range_eq_range']

theorem foldlM_rowToBitmask (hb : s.InBounds n)
    (hmask : mask.length = s.dataNi.toNat * s.dataNj.toNat) {bmask : List Bool}
    (hlen : bmask.length = n) {a len : ℕ} (has : a + len = s.dataNj.toNat)
    {st : MaskPayloadIterator}
    (hyields : (MaskPayloadIterator.iter payload h).Yields st (mask.drop (a * s.dataNi.toNat))) :
    ∃ st', (List.range' a len).foldlM (fun st (a : ℕ) =>
        s.rowToBitmask payload h st (s.dataJbegin + a)) (st, bmask) =
      .ok (st', scatter 1 mask bmask ((List.range' a len).flatMap s.rowMap)) := by
  induction len generalizing a bmask st with
  | zero => exact ⟨st, rfl⟩
  | succ len ih =>
    obtain ⟨st', hyields', hrow⟩ := rowToBitmask_ok hb hmask hlen (by omega) hyields
    have hrange : InRange (s.rowMap a) n (s.dataNi.toNat * s.dataNj.toNat) := by
      rw [rowMap_eq]
      exact hb.pointsWithin.rowMap_inRange (by omega) fun b hb => List.mem_range.mp hb
    have hlen' := scatter_length (w := 1) _ hrange
      (show mask.length = _ by rw [hmask, Nat.mul_one])
      (by rw [hlen, Nat.mul_one])
    rw [Nat.mul_one] at hlen'
    obtain ⟨st'', hrest⟩ := ih (a := a + 1) hlen' (by omega) hyields'
    refine ⟨st'', ?_⟩
    rw [List.range'_succ, List.foldlM_cons, hrow, ok_bind, hrest, List.flatMap_cons, scatter_append]

def ReadsAs (payload : Buffer) (mask : List Bool) : Prop :=
  ∃ h, decodeMaskPayloadHeader payload = .ok h ∧ h.numBits = mask.length ∧
    ∃ st, MaskPayloadIterator.begin payload h = .ok st ∧
      (MaskPayloadIterator.iter payload h).Yields st mask

/-- Within bounds `toBitmask` scatters the local mask to the places of its index map. -/
theorem Structured.toBitmask_ok (hb : s.InBounds n) (hn : n < 2 ^ 31)
    (hpiece : s.dataPartialSize ≤ n) (hdata : s.dataNj * s.dataNi < 2 ^ 31)
    (hmask : mask.length = s.dataNi.toNat * s.dataNj.toNat) (hreads : ReadsAs payload mask)
    {bmask : List Bool} (hlen : bmask.length = n) :
    s.toBitmask payload bmask =
      .ok (scatter 1 mask bmask (Domain.structured s).indexMap) := by
  obtain ⟨h, hheader, hbits, st, hbegin, hyields⟩ := hreads
  have hni := hb.dataNi.1
  have hnj := hb.dataNj.1
  have hproduct : 0 ≤ s.dataNj * s.dataNi := mul_nonneg hnj hni
  have hsize : (h.numBits : ℤ) = s.dataNj * s.dataNi := by
    rw [hbits, hmask]
    push_cast
    rw [Int.toNat_of_nonneg hni, Int.toNat_of_nonneg hnj, mul_comm]
  obtain ⟨st', hfold⟩ := foldlM_rowToBitmask hb hmask hlen (Nat.zero_add _)
    (by rwa [Nat.zero_mul])
  rw [Structured.toBitmask, hb.size_eq, int32_ok ⟨by omega, by omega⟩, ok_bind,
    assert_ok (decide_eq_true hpiece), ok_bind, assert_ok, ok_bind, hheader]
  · change (int32 (s.dataNj * s.dataNi) >>= _) = _
    rw [int32_ok ⟨by omega, hdata⟩, ok_bind]
    simp only
    rw [if_neg (by rw [not_not, hsize]; omega), hbegin]
    change (loopRange s.dataJbegin s.dataNj >>= _) = _
    rw [loopRange_ok hb.dataNj.2.1 hnj hb.dataNj.2.2, ok_bind, List.foldlM_map,
      List.range_eq_range', hfold, ok_bind, Domain.indexMap, List.range_eq_range']
  · rw [decide_eq_true_eq, hlen]
    omega

def Structured.interior (s : Structured) : Set ℤ :=
  {g | ∃ i j, 0 ≤ i ∧ i < s.ni ∧ 0 ≤ j ∧ j < s.nj ∧
    g = (s.jbegin + j) * s.niGlobal + (s.ibegin + i)}

theorem pointMap_eq_some (hb : s.InBounds n) {a b : ℕ} {p : ℕ × ℕ} (hp : s.pointMap a b = some p) :
    inRange (s.dataIbegin + b) 0 s.ni = true ∧ inRange (s.dataJbegin + a) 0 s.nj = true ∧
      (p.1 : ℤ) = (s.jbegin + (s.dataJbegin + a)) * s.niGlobal +
        (s.ibegin + (s.dataIbegin + b)) := by
  unfold Structured.pointMap at hp
  split_ifs at hp with hin
  rw [Bool.and_eq_true] at hin
  obtain ⟨hrow, -⟩ := globalIndex_bounds hb hin.1 hin.2
  obtain ⟨-, hi₀, -⟩ := hb.ni
  have hi := hin.1
  simp only [inRange, Bool.and_eq_true, decide_eq_true_eq] at hi
  obtain rfl := (Option.some.inj hp).symm
  exact ⟨hin.1, hin.2, Int.toNat_of_nonneg (by omega)⟩

theorem indexMap_subset_interior (hb : s.InBounds n) {p : ℕ × ℕ}
    (hp : p ∈ (Domain.structured s).indexMap) : (p.1 : ℤ) ∈ s.interior := by
  obtain ⟨a, -, hp⟩ := List.mem_flatMap.mp hp
  rw [rowMap_eq] at hp
  obtain ⟨b, -, hp⟩ := List.mem_filterMap.mp hp
  obtain ⟨hi, hj, heq⟩ := pointMap_eq_some hb hp
  simp only [inRange, Bool.and_eq_true, decide_eq_true_eq] at hi hj
  exact ⟨_, _, hi.1, hi.2, hj.1, hj.2, heq⟩

/-- The point of the data in column `b` and row `a` is one of the box. -/
def Structured.InBox (s : Structured) (a b : ℕ) : Prop :=
  (0 ≤ s.dataIbegin + b ∧ s.dataIbegin + b < s.ni) ∧
    0 ≤ s.dataJbegin + a ∧ s.dataJbegin + a < s.nj

/-- The value of the point `g` of the grid is at the place `l` of the data. -/
def Structured.Visits (s : Structured) (g l : ℕ) : Prop :=
  ∃ a b : ℕ, a < s.dataNj.toNat ∧ b < s.dataNi.toNat ∧ s.InBox a b ∧
    (g : ℤ) = (s.jbegin + (s.dataJbegin + a)) * s.niGlobal + (s.ibegin + (s.dataIbegin + b)) ∧
    l = a * s.dataNi.toNat + b

theorem Structured.visits_iff (hb : s.InBounds n) {g l : ℕ} :
    s.Visits g l ↔ (g, l) ∈ (Domain.structured s).indexMap := by
  constructor
  · rintro ⟨a, b, ha, hb', ⟨hi, hj⟩, hg, rfl⟩
    refine List.mem_flatMap.mpr ⟨a, List.mem_range.mpr ha, ?_⟩
    rw [rowMap_eq]
    refine List.mem_filterMap.mpr ⟨b, List.mem_range.mpr hb', ?_⟩
    unfold Structured.pointMap
    rw [if_pos (by simp [inRange, hi, hj]), ← hg, Int.toNat_natCast]
  · intro hl
    obtain ⟨a, ha, hl⟩ := List.mem_flatMap.mp hl
    rw [rowMap_eq] at hl
    obtain ⟨b, hb', hl⟩ := List.mem_filterMap.mp hl
    obtain ⟨hi, hj, hg⟩ := pointMap_eq_some hb hl
    simp only [inRange, Bool.and_eq_true, decide_eq_true_eq] at hi hj
    unfold Structured.pointMap at hl
    split_ifs at hl with hin
    cases hl
    exact ⟨a, b, List.mem_range.mp ha, List.mem_range.mp hb', ⟨hi, hj⟩, hg, rfl⟩

/-- The global point is in the box of the part and has its bit set in the local mask. -/
def Structured.InteriorBit (s : Structured) (mask : List Bool) (g : ℕ) : Prop :=
  ∃ a b : ℕ, a < s.dataNj.toNat ∧ b < s.dataNi.toNat ∧
    (0 ≤ s.dataIbegin + b ∧ s.dataIbegin + b < s.ni) ∧
    (0 ≤ s.dataJbegin + a ∧ s.dataJbegin + a < s.nj) ∧
    (g : ℤ) = (s.jbegin + (s.dataJbegin + a)) * s.niGlobal + (s.ibegin + (s.dataIbegin + b)) ∧
    mask[a * s.dataNi.toNat + b]? = some true

theorem interiorBit_iff (hb : s.InBounds n) {g : ℕ} : s.InteriorBit mask g ↔
    ∃ l, (g, l) ∈ (Domain.structured s).indexMap ∧ mask[l]? = some true := by
  simp only [← Structured.visits_iff hb]
  constructor
  · rintro ⟨a, b, ha, hb', hi, hj, hg, hbit⟩
    exact ⟨_, ⟨a, b, ha, hb', ⟨hi, hj⟩, hg, rfl⟩, hbit⟩
  · rintro ⟨l, ⟨a, b, ha, hb', ⟨hi, hj⟩, hg, rfl⟩, hbit⟩
    exact ⟨a, b, ha, hb', hi, hj, hg, hbit⟩

theorem pointMap_injective (hb : s.InBounds n) {a a' b b' : ℕ} {p p' : ℕ × ℕ}
    (hp : s.pointMap a b = some p) (hp' : s.pointMap a' b' = some p') (heq : p.1 = p'.1) :
    a = a' ∧ b = b' := by
  obtain ⟨hi, hj, hg⟩ := pointMap_eq_some hb hp
  obtain ⟨hi', hj', hg'⟩ := pointMap_eq_some hb hp'
  simp only [inRange, Bool.and_eq_true, decide_eq_true_eq] at hi hj hi' hj'
  obtain ⟨-, hi₀, hi₁⟩ := hb.ni
  have hpos : 0 < s.niGlobal := by omega
  have hcolumn : (p.1 : ℤ) % s.niGlobal = s.ibegin + (s.dataIbegin + b) := by
    rw [hg, Int.add_comm, Int.add_mul_emod_self_right, Int.emod_eq_of_lt (by omega) (by omega)]
  have hcolumn' : (p'.1 : ℤ) % s.niGlobal = s.ibegin + (s.dataIbegin + b') := by
    rw [hg', Int.add_comm, Int.add_mul_emod_self_right, Int.emod_eq_of_lt (by omega) (by omega)]
  rw [heq] at hcolumn hg
  have hbb : b = b' := by omega
  have hrow : (s.jbegin + (s.dataJbegin + a)) * s.niGlobal =
      (s.jbegin + (s.dataJbegin + a')) * s.niGlobal := by omega
  have hjj := mul_right_cancel₀ hpos.ne' hrow
  exact ⟨by omega, hbb⟩

theorem structured_indexMap_nodup (hb : s.InBounds n) :
    ((Domain.structured s).indexMap.map Prod.fst).Nodup := by
  rw [Domain.indexMap, List.map_flatMap, List.nodup_flatMap]
  have hmem : ∀ {a g}, g ∈ (s.rowMap a).map Prod.fst →
      ∃ b p, s.pointMap a b = some p ∧ p.1 = g := by
    intro a g hg
    obtain ⟨p, hp, rfl⟩ := List.mem_map.mp hg
    rw [rowMap_eq] at hp
    obtain ⟨b, -, hp⟩ := List.mem_filterMap.mp hp
    exact ⟨b, p, hp, rfl⟩
  constructor
  · intro a _
    rw [rowMap_eq, List.map_filterMap]
    apply List.Nodup.filterMap _ List.nodup_range
    intro b b' g hg hg'
    obtain ⟨p, hp, rfl⟩ := Option.map_eq_some_iff.mp hg
    obtain ⟨p', hp', heq⟩ := Option.map_eq_some_iff.mp hg'
    exact (pointMap_injective hb hp hp' heq.symm).2
  · apply List.Nodup.pairwise_of_forall_ne List.nodup_range
    intro a _ a' _ hne g hg hg'
    obtain ⟨b, p, hp, rfl⟩ := hmem hg
    obtain ⟨b', p', hp', heq⟩ := hmem hg'
    exact hne (pointMap_injective hb hp hp' heq.symm).1

end Part

/-- The masks of the parts put into a global one, one part after the other. -/
def addMasks (dom : Peer → Structured) (mask : Peer → List Bool) (ps : List Peer)
    (init : List Bool) : List Bool :=
  ps.foldl (fun b p => scatter 1 (mask p) b (Domain.structured (dom p)).indexMap) init

/-- The bit of a point in the union of the interior bits of the parts. -/
def UnionBit (dom : Peer → Structured) (mask : Peer → List Bool) (ps : List Peer) (g : ℕ) : Prop :=
  ∃ p ∈ ps, ∃ l, (g, l) ∈ (Domain.structured (dom p)).indexMap ∧ (mask p)[l]? = some true

section Parts

variable {dom : Peer → Structured} {mask : Peer → List Bool} {n : ℕ}

theorem addMasks_length {ps : List Peer} (hb : ∀ p ∈ ps, (dom p).InBounds n)
    (hmask : ∀ p ∈ ps, (mask p).length = (dom p).dataNi.toNat * (dom p).dataNj.toNat)
    {init : List Bool} (hinit : init.length = n) : (addMasks dom mask ps init).length = n := by
  induction ps generalizing init with
  | nil => exact hinit
  | cons p ps ih =>
    rw [List.forall_mem_cons] at hb hmask
    have hlen := scatter_length (w := 1) _ (structured_inRange hb.1)
      (show (mask p).length = _ by rw [hmask.1, Nat.mul_one]) (by rw [hinit, Nat.mul_one])
    rw [Nat.mul_one] at hlen
    exact ih hb.2 hmask.2 hlen

theorem getElem?_addMasks {ps : List Peer} (hnodup : ps.Nodup)
    (hb : ∀ p ∈ ps, (dom p).InBounds n)
    (hmask : ∀ p ∈ ps, (mask p).length = (dom p).dataNi.toNat * (dom p).dataNj.toNat)
    (hdisjoint : ∀ p ∈ ps, ∀ q ∈ ps, p ≠ q → Disjoint (dom p).interior (dom q).interior)
    {init : List Bool} (hinit : init.length = n) {g : ℕ} :
    (addMasks dom mask ps init)[g]? = some true ↔ UnionBit dom mask ps g ∨
      init[g]? = some true ∧ ∀ p ∈ ps, ∀ l, (g, l) ∉ (Domain.structured (dom p)).indexMap := by
  induction ps generalizing init with
  | nil => simp [addMasks, UnionBit]
  | cons p ps ih =>
    rw [List.nodup_cons] at hnodup
    rw [List.forall_mem_cons] at hb hmask
    have hsrc : (mask p).length = ((dom p).dataNi.toNat * (dom p).dataNj.toNat) * 1 := by
      rw [hmask.1, Nat.mul_one]
    have hdst : init.length = n * 1 := by rw [hinit, Nat.mul_one]
    have hlen := scatter_length (w := 1) _ (structured_inRange hb.1) hsrc hdst
    rw [Nat.mul_one] at hlen
    have hrest := ih hnodup.2 hb.2 hmask.2
      (fun q hq r hr => hdisjoint q (List.mem_cons_of_mem p hq) r (List.mem_cons_of_mem p hr)) hlen
    rw [addMasks, List.foldl_cons]
    refine hrest.trans ?_
    by_cases hcover : ∃ l, (g, l) ∈ (Domain.structured (dom p)).indexMap
    · obtain ⟨l, hl⟩ := hcover
      -- no other part covers the point
      have hothers : ∀ q ∈ ps, ∀ l', (g, l') ∉ (Domain.structured (dom q)).indexMap := by
        intro q hq l' hl'
        have hne : p ≠ q := fun heq => hnodup.1 (heq ▸ hq)
        have hinterior : (g : ℤ) ∈ (dom p).interior := indexMap_subset_interior hb.1 hl
        have hinterior' : (g : ℤ) ∈ (dom q).interior := indexMap_subset_interior (hb.2 q hq) hl'
        exact Set.disjoint_left.mp
          (hdisjoint p List.mem_cons_self q (List.mem_cons_of_mem p hq) hne) hinterior hinterior'
      have hbit : (scatter 1 (mask p) init (Domain.structured (dom p)).indexMap)[g]? =
          (mask p)[l]? :=
        getElem?_eq_of_word (word_scatter_of_mem _ (structured_inRange hb.1) hsrc hdst
          (structured_indexMap_nodup hb.1) hl)
      rw [hbit]
      constructor
      · rintro (⟨q, hq, l', hl', -⟩ | ⟨htrue, -⟩)
        · exact absurd hl' (hothers q hq l')
        · exact .inl ⟨p, List.mem_cons_self, l, hl, htrue⟩
      · rintro (⟨q, hq, l', hl', htrue⟩ | ⟨-, hnone⟩)
        · rcases List.mem_cons.mp hq with rfl | hq
          · have hbit' := getElem?_eq_of_word (word_scatter_of_mem _ (structured_inRange hb.1) hsrc
              hdst (structured_indexMap_nodup hb.1) hl')
            rw [hbit] at hbit'
            exact .inr ⟨hbit'.trans htrue, hothers⟩
          · exact absurd hl' (hothers q hq l')
        · exact absurd hl (hnone p List.mem_cons_self l)
    · have hbit :
          (scatter 1 (mask p) init (Domain.structured (dom p)).indexMap)[g]? = init[g]? := by
        apply getElem?_eq_of_word (word_scatter_of_not_mem _ (structured_inRange hb.1) hsrc hdst _)
        rintro ⟨g', l⟩ hl rfl
        exact hcover ⟨l, hl⟩
      rw [hbit]
      have hunion : UnionBit dom mask (p :: ps) g ↔ UnionBit dom mask ps g := by
        constructor
        · rintro ⟨q, hq, l, hl, htrue⟩
          rcases List.mem_cons.mp hq with rfl | hq
          · exact absurd ⟨l, hl⟩ hcover
          · exact ⟨q, hq, l, hl, htrue⟩
        · rintro ⟨q, hq, hl⟩
          exact ⟨q, List.mem_cons_of_mem p hq, hl⟩
      rw [hunion, List.forall_mem_cons]
      have hnone : ∀ l, (g, l) ∉ (Domain.structured (dom p)).indexMap :=
        fun l hl => hcover ⟨l, hl⟩
      simp [hnone]

end Parts

theorem readsAs_of_decodesTo {mask : List Bool} {h : MaskPayloadHeader} {b : Buffer}
    (hb : DecodesTo mask h b) (hbits : h.numBits = mask.length) : ReadsAs b mask := by
  have hvalues := hb.values mask.length (le_refl _)
  rw [EncodedBitMaskPayload.values, hb.header, ok_bind] at hvalues
  obtain ⟨st, hbegin, hdrain⟩ := bind_eq_ok_iff.mp hvalues
  exact ⟨h, hb.header, hbits, st, hbegin, yields_of_drain _ hdrain⟩

theorem readsAs_encodeMask {mem : ℕ → UInt8} {mask : List Bool} {b : Buffer}
    (henc : encodeMask mem mask = .ok b) (hlen : mask.length < 2 ^ 31) : ReadsAs b mask := by
  have hpos : 0 < mask.length := by
    rw [List.length_pos_iff]
    rintro rfl
    cases henc
  rw [encodeMask_of_lt mem (by omega)] at henc
  split_ifs at henc with hshort
  · obtain ⟨b', henc', -, hdec⟩ := encodeMaskBitMask_decodes mem hpos (by omega)
    obtain rfl : b' = b := Except.ok.inj (henc'.symm.trans henc)
    exact readsAs_of_decodesTo hdec rfl
  · obtain ⟨b', henc', -, hdec⟩ := encodeMaskRunLength_decodes mem hpos hlen
    obtain rfl : b' = b := Except.ok.inj (henc'.symm.trans henc)
    exact readsAs_of_decodesTo hdec rfl

end Multio
