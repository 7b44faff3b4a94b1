import Multio.Action.HEALPixBijection
import Multio.Domain.DomainScatter
import Multio.Message.BaseMetadata

namespace Multio.Action
open Exception Scatter

/-- `static_cast<int>` of a `size_t`. -/
def castInt (n : ℕ) : ℤ := (BitVec.ofNat 32 n).toInt

/-- `static_cast<size_t>` of an `int`. -/
def castSize (n : ℤ) : ℕ := (BitVec.ofInt 64 n).toNat

/-- `CacheGenerator::execute` for one exponent of its list: the table that is recorded. -/
def CacheGenerator.table (ctx : HEALPixContext) (exponent : ℕ) : Except Exception (List ℕ) := do
  if 64 ≤ exponent then .error (.undefinedBehaviour "shift by the width of the type")
  else
    let Nside := 2 ^ exponent
    let Idx ← HEALPix.make ctx (castInt Nside)
    (List.range (Nside * Nside * 12 % 2 ^ 64)).mapM fun j => do
      let n ← RenumberHealpix.ringToNest ctx Idx (castInt j)
      .ok (castSize n)

namespace HEALPixRingToNest

/-- `applyMap`; what comes after the last whole value of the payload is not read. -/
def applyMap (policy : Lib.HashPolicy String) (p : PrecisionTag) (msg : Message) (map : List ℕ) :
    Except Exception Message := do
  if map.length ≠ msg.size / p.size then
    .error (.seriousBug ("HEALPix_ring2nest: Map has size " ++ toString map.length ++
      " but the message contains " ++ toString (msg.size / p.size) ++ " values. \n"))
  else
    let src := msg.payload.take (map.length * p.size)
    let out := List.replicate (map.length * p.size) 0
    let payload ← (map.map Int.ofNat).zipIdx.foldlM
      (fun out (place, i) => storeWord p.size out place (word p.size src i)) out
    let md := BaseMetadata.set policy msg.metadata "orderingConvention" (.string "nested")
    .ok { header := { tag := .field, source := msg.source, destination := msg.destination
                      metadata := md }
          payload }

end HEALPixRingToNest

/-- If the generator accepts an exponent, its table is a permutation of the pixels, and a field that
the table is applied to has the same values as before, each as often. -/
def Renumbers (policy : Lib.HashPolicy String) (ctx : HEALPixContext) (k : ℕ) : Prop :=
  (∃ what, CacheGenerator.table ctx k = .error (.assertionFailed what)) ∨
    ∃ map, CacheGenerator.table ctx k = .ok map ∧ map.Perm (List.range (12 * 4 ^ k)) ∧
      ∀ (p : PrecisionTag) (msg : Message), msg.size / p.size = 12 * 4 ^ k →
        ∃ out, HEALPixRingToNest.applyMap policy p msg map = .ok out ∧
          out.size = 12 * 4 ^ k * p.size ∧
          (words p.size out.payload (12 * 4 ^ k)).Perm (words p.size msg.payload (12 * 4 ^ k))

theorem castInt_of_lt {n : ℕ} (h : n < 2 ^ 31) : castInt n = n := by
  unfold castInt
  rw [BitVec.toInt_ofNat', Int.bmod_def]
  omega

theorem castInt_pow {k : ℕ} (hk : 32 ≤ k) : castInt (2 ^ k) = 0 := by
  obtain ⟨j, rfl⟩ := Nat.exists_eq_add_of_le hk
  have hrem : ((2 ^ 32 * 2 ^ j : ℕ) : ℤ) % (2 ^ 32 : ℕ) = 0 := by
    rw [Nat.cast_mul]
    exact Int.mul_emod_right _ _
  unfold castInt
  rw [BitVec.toInt_ofNat', Nat.pow_add, Int.bmod_def, hrem]
  rfl

theorem castSize_natCast {n : ℕ} (h : n < 2 ^ 64) : castSize n = n := by
  unfold castSize
  rw [BitVec.toNat_ofInt]
  omega

theorem perm_range {n : ℕ} {F : ℕ → ℕ} (hlt : ∀ j < n, F j < n)
    (hinj : ∀ j < n, ∀ j' < n, F j = F j' → j = j') :
    ((List.range n).map F).Perm (List.range n) := by
  have hnodup : ((List.range n).map F).Nodup := by
    apply List.Nodup.map_on _ List.nodup_range
    intro j hj j' hj' heq
    exact hinj j (List.mem_range.mp hj) j' (List.mem_range.mp hj') heq
  have hsub : (List.range n).map F ⊆ List.range n := by
    intro m hm
    obtain ⟨j, hj, rfl⟩ := List.mem_map.mp hm
    exact List.mem_range.mpr (hlt j (List.mem_range.mp hj))
  exact (hnodup.subperm hsub).perm_of_length_le (by rw [List.length_map])

theorem table_perm (ctx : HEALPixContext) {k : ℕ} (hk : 1 ≤ k) (hle : k ≤ 13) :
    ∃ map, CacheGenerator.table ctx k = .ok map ∧ map.Perm (List.range (12 * 4 ^ k)) := by
  have hpow : 4 ^ k ≤ 4 ^ 13 := Nat.pow_le_pow_right (by decide) hle
  have hside : 2 ^ k ≤ 2 ^ 13 := Nat.pow_le_pow_right (by decide) hle
  have hsq : 2 ^ k * 2 ^ k = 4 ^ k := by rw [← Nat.mul_pow]
  have hsq' : (2 ^ k) ^ 2 = 4 ^ k := by rw [← hsq, Nat.pow_two]
  obtain ⟨h, hmake, hs, hhk⟩ := HEALPix.make_ok ctx hk hle
  have hring := Lib.exists_of_left_inverse (pixels_finite k)
    fun n hn => nestToRing_ringToNest ctx hle hs hhk hn
  have hpixels (n : ℤ) : n ∈ pixels k ↔ 0 ≤ n ∧ n < (12 * 4 ^ k : ℕ) := by
    rw [← hsq']
    push_cast
    exact Iff.rfl
  have hnest : ∀ j < 12 * 4 ^ k, ∃ m : ℕ, m < 12 * 4 ^ k ∧
      RenumberHealpix.ringToNest ctx h (castInt j) = .ok (m : ℤ) ∧
        RenumberHealpix.nestToRing ctx h m = .ok (j : ℤ) := by
    intro j hj
    obtain ⟨n, hn, hto, hfrom⟩ := hring j ((hpixels j).mpr ⟨by omega, by omega⟩)
    obtain ⟨hpos, hlt⟩ := (hpixels n).mp hn
    obtain ⟨m, rfl⟩ := Int.eq_ofNat_of_zero_le hpos
    rw [castInt_of_lt (by omega)]
    exact ⟨m, by omega, hto, hfrom⟩
  -- the way back makes the places distinct
  choose! F hlt hto hfrom using hnest
  refine ⟨(List.range (12 * 4 ^ k)).map F, ?_, perm_range hlt ?_⟩
  · have hlength : 2 ^ k * 2 ^ k * 12 % 2 ^ 64 = 12 * 4 ^ k := by
      rw [hsq]
      omega
    have hmake' : HEALPix.make ctx (castInt (2 ^ k)) = .ok h := by
      rw [castInt_of_lt (by omega)]
      push_cast
      exact hmake
    unfold CacheGenerator.table
    rw [if_neg (by omega)]
    dsimp only
    rw [hmake', ok_bind, hlength]
    apply mapM_eq_ok_iff.mpr
    rw [List.forall₂_map_right_iff, List.forall₂_same]
    intro j hj
    have hj' := List.mem_range.mp hj
    rw [hto j hj', ok_bind, castSize_natCast (by have := hlt j hj'; omega)]
  · intro j hj j' hj' heq
    have hback := hfrom j hj
    rw [heq, hfrom j' hj'] at hback
    exact (Int.ofNat_inj.mp (Except.ok.inj hback)).symm

theorem applyMap_perm (policy : Lib.HashPolicy String) {n : ℕ} {map : List ℕ}
    (hmap : map.Perm (List.range n)) (p : PrecisionTag) {msg : Message}
    (hsize : msg.size / p.size = n) :
    ∃ out, HEALPixRingToNest.applyMap policy p msg map = .ok out ∧ out.size = n * p.size ∧
      (words p.size out.payload n).Perm (words p.size msg.payload n) := by
  have hlength : map.length = n := hmap.length_eq.trans List.length_range
  have hle : n * p.size ≤ msg.payload.length := by
    rw [← hsize]
    exact Nat.div_mul_le_self _ _
  have hsrc : (msg.payload.take (n * p.size)).length = n * p.size := by
    rw [List.length_take]
    exact Nat.min_eq_left hle
  have hdst : (List.replicate (n * p.size) (0 : UInt8)).length = n * p.size := List.length_replicate
  have hids : ∀ id ∈ map.map Int.ofNat, 0 ≤ id ∧ id < n := by
    intro id hid
    obtain ⟨m, hm, rfl⟩ := List.mem_map.mp hid
    have hlt := List.mem_range.mp (hmap.mem_iff.mp hm)
    exact ⟨Int.natCast_nonneg m, Int.ofNat_lt.mpr hlt⟩
  have hfold := foldlM_unstructured (m := n) (map.map Int.ofNat) hids (k := 0)
    (by rw [List.length_map]; omega) hsrc hdst
  have hindex : ((map.map Int.ofNat).zipIdx).map (fun (id, l) => (id.toNat, l)) = map.zipIdx := by
    rw [List.zipIdx_map, List.map_map]
    exact List.map_id _
  rw [hindex] at hfold
  have hwords : words p.size (msg.payload.take (n * p.size)) n = words p.size msg.payload n := by
    apply List.map_congr_left
    intro i hi
    exact word_take _ (List.mem_range.mp hi)
  -- the loop is a scatter along a permutation, which loses no word
  have hperm := words_scatter_perm hmap hsrc hdst
  rw [hwords] at hperm
  have hsize' : ¬ map.length ≠ msg.size / p.size := by
    rw [hlength, hsize]
    exact not_not.mpr rfl
  let md := BaseMetadata.set policy msg.metadata "orderingConvention" (.string "nested")
  let out := scatter p.size (msg.payload.take (n * p.size)) (List.replicate (n * p.size) 0)
    map.zipIdx
  refine ⟨{ header := { tag := .field, source := msg.source, destination := msg.destination
                        metadata := md }
            payload := out }, ?_, ?_, hperm⟩
  · unfold HEALPixRingToNest.applyMap
    rw [if_neg hsize', hlength]
    dsimp only
    rw [hfold, ok_bind]
  · exact scatter_length _ (inRange_zipIdx hmap) hsrc hdst

variable (policy : Lib.HashPolicy String) (ctx : HEALPixContext)

theorem table_zero : CacheGenerator.table ctx 0 = .ok
    [1431655765, 1431655766, 1431655767, 1431655768, 2 ^ 64 - 1431655762, 2 ^ 64 - 1431655761,
      2 ^ 64 - 1431655760, 2 ^ 64 - 1431655759, 1431655773, 1431655774, 1431655775,
      1431655776] := rfl

theorem table_overflow {k : ℕ} (hk : 14 ≤ k ∧ k ≤ 31) :
    CacheGenerator.table ctx k = .error (.undefinedBehaviour "signed overflow") := by
  obtain ⟨hk, hk'⟩ := hk
  -- the number of pixels is not an `int`
  interval_cases k <;> rfl

/-- The generator has no pixels to number where `Nside` is zero as an `int`. -/
theorem table_empty {k : ℕ} (hk : 32 ≤ k ∧ k ≤ 63) : CacheGenerator.table ctx k =
    if ctx.assertions then .error (.assertionFailed "0 <= k_") else .ok [] := by
  have hlt : ¬ 64 ≤ k := by omega
  have hsize : 2 ^ k * 2 ^ k * 12 % 2 ^ 64 = 0 := by
    have hpow : 2 ^ k * 2 ^ k * 12 = 2 ^ 64 * (2 ^ (k + k - 64) * 12) := by
      rw [← Nat.pow_add, ← Nat.mul_assoc, ← Nat.pow_add]
      congr 2
      omega
    rw [hpow]
    exact Nat.mul_mod_right _ _
  unfold CacheGenerator.table
  rw [if_neg hlt]
  dsimp only
  rw [castInt_pow hk.1, hsize]
  cases hassertions : ctx.assertions with
  | true =>
    unfold HEALPix.make HEALPixContext.check
    rw [hassertions]
    rfl
  | false =>
    unfold HEALPix.make HEALPixContext.check
    rw [hassertions]
    rfl

theorem not_renumbers_of_error {k : ℕ} {what : String}
    (h : CacheGenerator.table ctx k = .error (.undefinedBehaviour what)) :
    ¬ Renumbers policy ctx k := by
  rintro (⟨what', hrefused⟩ | ⟨map, hmap, -⟩)
  · cases h.symm.trans hrefused
  · cases h.symm.trans hmap

theorem not_renumbers_zero : ¬ Renumbers policy ctx 0 := by
  have htable := table_zero ctx
  rintro (⟨what, hrefused⟩ | ⟨map, hmap, hperm, -⟩)
  · cases htable.symm.trans hrefused
  · obtain rfl := Except.ok.inj (htable.symm.trans hmap)
    have hmem := hperm.mem_iff.mp List.mem_cons_self
    exact absurd (List.mem_range.mp hmem) (by decide)

theorem not_renumbers_empty {k : ℕ} (h : CacheGenerator.table ctx k = .ok []) :
    ¬ Renumbers policy ctx k := by
  rintro (⟨what, hrefused⟩ | ⟨map, hmap, hperm, -⟩)
  · cases h.symm.trans hrefused
  · obtain rfl := Except.ok.inj (h.symm.trans hmap)
    have hlength := hperm.length_eq
    rw [List.length_nil, List.length_range] at hlength
    have hpos : 0 < 4 ^ k := Nat.pow_pos (by decide)
    omega

/-- The exponents whose tables renumber the pixels, and those that are refused. -/
theorem renumbers_iff (k : ℕ) : Renumbers policy ctx k ↔
    (1 ≤ k ∧ k ≤ 13) ∨ (ctx.assertions = true ∧ 32 ≤ k ∧ k ≤ 63) := by
  constructor
  · intro h
    by_contra hk
    obtain rfl | hpos := Nat.eq_zero_or_pos k
    · exact not_renumbers_zero policy ctx h
    obtain hlt | hge := Nat.lt_or_ge k 32
    · exact not_renumbers_of_error policy ctx (table_overflow ctx (by omega)) h
    obtain hlt | hge := Nat.lt_or_ge k 64
    · have htable := table_empty ctx (k := k) (by omega)
      rw [if_neg fun hassertions => hk (Or.inr ⟨hassertions, by omega⟩)] at htable
      exact not_renumbers_empty policy ctx htable h
    · have hshift : CacheGenerator.table ctx k =
          .error (.undefinedBehaviour "shift by the width of the type") := if_pos hge
      exact not_renumbers_of_error policy ctx hshift h
  · rintro (⟨hk, hle⟩ | ⟨hassertions, hk⟩)
    · obtain ⟨map, hmap, hperm⟩ := table_perm ctx hk hle
      exact Or.inr ⟨map, hmap, hperm, fun p msg hsize => applyMap_perm policy hperm p hsize⟩
    · exact Or.inl ⟨_, (table_empty ctx hk).trans (if_pos hassertions)⟩

theorem cache_not_permutation :
    ¬ ∀ (policy : Lib.HashPolicy String) (ctx : HEALPixContext) (k : ℕ), Renumbers policy ctx k :=
  fun h => not_renumbers_zero { hash := String.length, nextBucketCount := fun _ => 541 } default
    (h _ _ 0)

end Multio.Action
