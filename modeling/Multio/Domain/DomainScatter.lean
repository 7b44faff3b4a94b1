import Multio.Domain.Domain
import Mathlib.Tactic.Linarith
import Mathlib.Tactic.NormNum

namespace Multio
open Exception Scatter

variable {w n m : ℕ} {src dst : List UInt8}

theorem storeWord_ok {id : ℤ} (x : List UInt8) (hdst : dst.length = n * w)
    (hid : 0 ≤ id ∧ id < n) : storeWord w dst id x = .ok (putWord w dst id.toNat x) := by
  have hlt : id.toNat < n := by omega
  exact if_pos ⟨hid.1, hdst ▸ succ_mul_le hlt⟩

theorem foldlM_unstructured (ids : List ℤ) {k : ℕ} (hids : ∀ id ∈ ids, 0 ≤ id ∧ id < n)
    (hk : k + ids.length ≤ m) (hsrc : src.length = m * w) (hdst : dst.length = n * w) :
    (ids.zipIdx k).foldlM (fun dst (id, l) => storeWord w dst id (word w src l)) dst =
      .ok (scatter w src dst ((ids.zipIdx k).map fun (id, l) => (id.toNat, l))) := by
  induction ids generalizing k dst with
  | nil => rfl
  | cons id ids ih =>
    have hid := hids id List.mem_cons_self
    simp only [List.length_cons] at hk
    rw [List.zipIdx_cons, List.foldlM_cons]
    change (storeWord w dst id (word w src k) >>= _) = _
    rw [storeWord_ok _ hdst hid]
    have hlen : (putWord w dst id.toNat (word w src k)).length = n * w :=
      putWord_length hdst (by omega) (word_length hsrc (by omega))
    exact ih (fun x hx => hids x (List.mem_cons_of_mem _ hx)) (by omega) hlen

theorem unstructured_inRange {definition : List ℤ}
    (hids : ∀ id ∈ definition, 0 ≤ id ∧ id < n) (globalSize : ℤ) :
    InRange (Domain.unstructured definition globalSize).indexMap n definition.length := by
  intro p hp
  obtain ⟨⟨id, l⟩, hq, rfl⟩ := List.mem_map.mp hp
  have hget := List.mem_zipIdx hq
  have hid := hids id (List.fst_mem_of_mem_zipIdx hq)
  simp only at hget ⊢
  omega

theorem unstructuredToGlobal_eq {definition : List ℤ}
    (hids : ∀ id ∈ definition, 0 ≤ id ∧ id < n) (globalSize : ℤ)
    (hsrc : src.length = definition.length * w) (hdst : dst.length = n * w) :
    unstructuredToGlobal definition w src dst =
      .ok (scatter w src dst (Domain.unstructured definition globalSize).indexMap) := by
  unfold unstructuredToGlobal
  rw [assert_ok (decide_eq_true hsrc)]
  exact foldlM_unstructured definition hids (by omega) hsrc hdst

theorem loopRange_ok {low size : ℤ} (hlow : -2 ^ 31 ≤ low) (hsize : 0 ≤ size)
    (hupp : low + size < 2 ^ 31) :
    loopRange low size = .ok ((List.range size.toNat).map (fun (k : ℕ) => low + k)) := by
  unfold loopRange
  rw [int32_ok ⟨by omega, hupp⟩]
  exact if_pos (by omega)

theorem eq_of_loopRange {low size : ℤ} {xs : List ℤ} (h : loopRange low size = .ok xs) :
    xs = (List.range size.toNat).map (fun (k : ℕ) => low + k) := by
  obtain ⟨upp, -, h⟩ := bind_eq_ok_iff.mp h
  split_ifs at h
  cases h
  rfl

theorem eq_of_int32 {x y : ℤ} (h : int32 x = .ok y) : y = x := by
  unfold int32 at h
  split_ifs at h
  cases h
  rfl

theorem eq_of_globalIndex {s : Structured} {i j g : ℤ} (h : s.globalIndex i j = .ok g) :
    g = (s.jbegin + j) * s.niGlobal + (s.ibegin + i) := by
  obtain ⟨row, hrow, h⟩ := bind_eq_ok_iff.mp h
  obtain ⟨rowBegin, hrowBegin, h⟩ := bind_eq_ok_iff.mp h
  obtain ⟨column, hcolumn, h⟩ := bind_eq_ok_iff.mp h
  rw [eq_of_int32 h, eq_of_int32 hrowBegin, eq_of_int32 hrow, eq_of_int32 hcolumn]

/-- The loops of `toGlobal` run, and what they write to is among `n` values. -/
structure Structured.PointsWithin (s : Structured) (n : ℕ) : Prop where
  rows : ∃ js, loopRange s.dataJbegin s.dataNj = .ok js
  columns : 0 < s.dataNj.toNat → ∃ is, loopRange s.dataIbegin s.dataNi = .ok is
  points : ∀ a b : ℕ, a < s.dataNj.toNat → b < s.dataNi.toNat →
    inRange (s.dataIbegin + b) 0 s.ni = true → inRange (s.dataJbegin + a) 0 s.nj = true →
    ∃ g, s.globalIndex (s.dataIbegin + b) (s.dataJbegin + a) = .ok g ∧ 0 ≤ g ∧ g < n

theorem zipIdx_map_range (low : ℤ) (size off : ℕ) :
    ((List.range size).map (fun (k : ℕ) => low + k)).zipIdx off =
      (List.range size).map (fun (k : ℕ) => (low + k, off + k)) := by
  apply List.ext_getElem
  · simp
  · intro i h₁ h₂
    simp

variable {s : Structured}

theorem globalIndex_bounds (hb : s.InBounds n) {i j : ℤ} (hi : inRange i 0 s.ni = true)
    (hj : inRange j 0 s.nj = true) :
    0 ≤ (s.jbegin + j) * s.niGlobal ∧
      (s.jbegin + j) * s.niGlobal + (s.ibegin + i) < n := by
  simp only [inRange, Bool.and_eq_true, decide_eq_true_eq] at hi hj
  obtain ⟨-, hi₀, hi₁⟩ := hb.ni
  obtain ⟨-, hj₀, hj₁⟩ := hb.nj
  constructor
  · exact mul_nonneg (by omega) hb.niGlobal.1
  · have hrow : (s.jbegin + j + 1) * s.niGlobal ≤ s.njGlobal * s.niGlobal :=
      mul_le_mul_of_nonneg_right (by omega) hb.niGlobal.1
    have hsize := hb.size_eq
    rw [add_mul, one_mul] at hrow
    rw [mul_comm] at hsize
    omega

theorem globalIndex_ok (hb : s.InBounds n) {i j : ℤ} (hi : inRange i 0 s.ni = true)
    (hj : inRange j 0 s.nj = true) :
    s.globalIndex i j = .ok ((s.jbegin + j) * s.niGlobal + (s.ibegin + i)) := by
  obtain ⟨hrow, hlt⟩ := globalIndex_bounds hb hi hj
  have hsize := hb.size_le
  have hni := hb.niGlobal.2
  have hnj := hb.njGlobal.2
  obtain ⟨-, hi₀, hi₁⟩ := hb.ni
  obtain ⟨-, hj₀, hj₁⟩ := hb.nj
  simp only [inRange, Bool.and_eq_true, decide_eq_true_eq] at hi hj
  unfold Structured.globalIndex
  rw [int32_ok (x := s.jbegin + j) ⟨by omega, by omega⟩]
  change (int32 ((s.jbegin + j) * s.niGlobal) >>= _) = _
  rw [int32_ok ⟨by omega, by omega⟩]
  change (int32 (s.ibegin + i) >>= _) = _
  rw [int32_ok ⟨by omega, by omega⟩]
  exact int32_ok ⟨by omega, by omega⟩

/-- The pair of place `b` of row `a`, when the box holds it. -/
def Structured.pointMap (s : Structured) (a b : ℕ) : Option (ℕ × ℕ) :=
  if inRange (s.dataIbegin + b) 0 s.ni && inRange (s.dataJbegin + a) 0 s.nj then
    some (((s.jbegin + (s.dataJbegin + a)) * s.niGlobal +
      (s.ibegin + (s.dataIbegin + b))).toNat, a * s.dataNi.toNat + b)
  else none

theorem rowMap_eq (s : Structured) (a : ℕ) :
    s.rowMap a = (List.range s.dataNi.toNat).filterMap (s.pointMap a) := rfl

theorem Structured.InBounds.pointsWithin (hb : s.InBounds n) : s.PointsWithin n where
  rows := ⟨_, loopRange_ok hb.dataNj.2.1 hb.dataNj.1 hb.dataNj.2.2⟩
  columns _ := ⟨_, loopRange_ok hb.dataNi.2.1 hb.dataNi.1 hb.dataNi.2.2⟩
  points a b _ _ hi hj := by
    obtain ⟨hrow, hlt⟩ := globalIndex_bounds hb hi hj
    obtain ⟨-, hi₀, -⟩ := hb.ni
    refine ⟨_, globalIndex_ok hb hi hj, ?_, hlt⟩
    simp only [inRange, Bool.and_eq_true, decide_eq_true_eq] at hi
    omega

namespace Structured.PointsWithin

variable (hs : s.PointsWithin n)
include hs

theorem pointMap_lt {a b : ℕ} (ha : a < s.dataNj.toNat) (hbn : b < s.dataNi.toNat) {p : ℕ × ℕ}
    (hp : s.pointMap a b = some p) : p.1 < n ∧ p.2 < s.dataNi.toNat * s.dataNj.toNat := by
  unfold Structured.pointMap at hp
  split_ifs at hp with hin
  rw [Bool.and_eq_true] at hin
  obtain rfl := (Option.some.inj hp).symm
  obtain ⟨g, hg, hpos, hlt⟩ := hs.points a b ha hbn hin.1 hin.2
  rw [eq_of_globalIndex hg] at hpos hlt
  refine ⟨by simp only; omega, ?_⟩
  calc a * s.dataNi.toNat + b < a * s.dataNi.toNat + s.dataNi.toNat := by omega
    _ = (a + 1) * s.dataNi.toNat := by ring
    _ ≤ s.dataNj.toNat * s.dataNi.toNat := Nat.mul_le_mul_right _ ha
    _ = s.dataNi.toNat * s.dataNj.toNat := Nat.mul_comm _ _

theorem rowMap_inRange {a : ℕ} (ha : a < s.dataNj.toNat) {bs : List ℕ}
    (hbs : ∀ b ∈ bs, b < s.dataNi.toNat) :
    InRange (bs.filterMap (s.pointMap a)) n (s.dataNi.toNat * s.dataNj.toNat) := by
  intro p hp
  obtain ⟨b, hbn, hp⟩ := List.mem_filterMap.mp hp
  exact hs.pointMap_lt ha (hbs b hbn) hp

theorem indexMap_inRange :
    InRange (Domain.structured s).indexMap n (s.dataNi.toNat * s.dataNj.toNat) := by
  intro p hp
  obtain ⟨a, ha, hp⟩ := List.mem_flatMap.mp hp
  rw [rowMap_eq] at hp
  exact hs.rowMap_inRange (List.mem_range.mp ha) (fun b hbn => List.mem_range.mp hbn) p hp

theorem pointToGlobal_ok (hdst : dst.length = n * w) {a b : ℕ} (ha : a < s.dataNj.toNat)
    (hbn : b < s.dataNi.toNat) :
    s.pointToGlobal w src (s.dataJbegin + a) dst
        (s.dataIbegin + b, a * s.dataNi.toNat + b) =
      .ok (scatter w src dst (s.pointMap a b).toList) := by
  unfold Structured.pointToGlobal Structured.pointMap
  by_cases hin : (inRange (s.dataIbegin + b) 0 s.ni && inRange (s.dataJbegin + a) 0 s.nj) = true
  · rw [if_pos hin, if_pos hin]
    rw [Bool.and_eq_true] at hin
    obtain ⟨g, hg, hpos, hlt⟩ := hs.points a b ha hbn hin.1 hin.2
    rw [hg, ← eq_of_globalIndex hg]
    exact storeWord_ok _ hdst ⟨hpos, hlt⟩
  · rw [if_neg hin, if_neg hin]
    rfl

theorem foldlM_point (hsrc : src.length = s.dataNi.toNat * s.dataNj.toNat * w)
    (hdst : dst.length = n * w) {a : ℕ} (ha : a < s.dataNj.toNat) (bs : List ℕ)
    (hbs : ∀ b ∈ bs, b < s.dataNi.toNat) :
    bs.foldlM (fun dst (b : ℕ) => s.pointToGlobal w src (s.dataJbegin + a) dst
        (s.dataIbegin + b, a * s.dataNi.toNat + b)) dst =
      .ok (scatter w src dst (bs.filterMap (s.pointMap a))) := by
  induction bs generalizing dst with
  | nil => rfl
  | cons b bs ih =>
    rw [List.forall_mem_cons] at hbs
    have hrange : InRange (s.pointMap a b).toList n (s.dataNi.toNat * s.dataNj.toNat) := by
      intro p hp
      exact hs.pointMap_lt ha hbs.1 (Option.mem_toList.mp hp)
    have hsplit : (b :: bs).filterMap (s.pointMap a) =
        (s.pointMap a b).toList ++ bs.filterMap (s.pointMap a) := by
      cases h : s.pointMap a b <;> simp [h]
    rw [List.foldlM_cons, hs.pointToGlobal_ok hdst ha hbs.1, hsplit, scatter_append]
    exact ih (scatter_length _ hrange hsrc hdst) hbs.2

theorem rowToGlobal_ok (hsrc : src.length = s.dataNi.toNat * s.dataNj.toNat * w)
    (hdst : dst.length = n * w) {a : ℕ} (ha : a < s.dataNj.toNat) :
    s.rowToGlobal w src dst (s.dataJbegin + a, a) = .ok (scatter w src dst (s.rowMap a)) := by
  obtain ⟨is, his⟩ := hs.columns (by omega)
  unfold Structured.rowToGlobal
  rw [his, eq_of_loopRange his]
  change (((List.range s.dataNi.toNat).map _).zipIdx _).foldlM _ _ = _
  rw [zipIdx_map_range, List.foldlM_map]
  exact hs.foldlM_point hsrc hdst ha _ fun b hbn => List.mem_range.mp hbn

theorem foldlM_row (hsrc : src.length = s.dataNi.toNat * s.dataNj.toNat * w)
    (hdst : dst.length = n * w) (as : List ℕ) (has : ∀ a ∈ as, a < s.dataNj.toNat) :
    as.foldlM (fun dst (a : ℕ) => s.rowToGlobal w src dst (s.dataJbegin + a, a)) dst =
      .ok (scatter w src dst (as.flatMap s.rowMap)) := by
  induction as generalizing dst with
  | nil => rfl
  | cons a as ih =>
    rw [List.forall_mem_cons] at has
    have hrange : InRange (s.rowMap a) n (s.dataNi.toNat * s.dataNj.toNat) := by
      rw [rowMap_eq]
      exact hs.rowMap_inRange has.1 fun b hbn => List.mem_range.mp hbn
    rw [List.foldlM_cons, hs.rowToGlobal_ok hsrc hdst has.1, List.flatMap_cons, scatter_append]
    exact ih (scatter_length _ hrange hsrc hdst) has.2

end Structured.PointsWithin

theorem structured_inRange (hb : s.InBounds n) :
    InRange (Domain.structured s).indexMap n (s.dataNi.toNat * s.dataNj.toNat) :=
  hb.pointsWithin.indexMap_inRange

theorem Domain.indexMap_inRange {d : Domain} (hb : d.InBounds n) :
    InRange d.indexMap n d.dataSize := by
  cases d with
  | unstructured definition globalSize => exact unstructured_inRange hb globalSize
  | structured s => exact structured_inRange hb

/-- Of a payload with the right size, `toGlobal` of a box scatters the values it reaches. -/
theorem Structured.PointsWithin.toGlobal_eq (hs : s.PointsWithin n)
    (hsrc : src.length = s.dataNi.toNat * s.dataNj.toNat * w) (hdst : dst.length = n * w)
    (hglobal : (w * s.niGlobal * s.njGlobal) % 2 ^ 64 = dst.length)
    (hlocal : (w * s.dataNi * s.dataNj) % 2 ^ 64 = (src.length : ℤ)) :
    s.toGlobal w src dst = .ok (scatter w src dst (Domain.structured s).indexMap) := by
  obtain ⟨js, hjs⟩ := hs.rows
  unfold Structured.toGlobal
  rw [assert_ok (decide_eq_true hglobal)]
  change (if _ ≠ _ then _ else _) = _
  rw [if_neg (not_not.mpr hlocal), hjs, eq_of_loopRange hjs]
  change (((List.range s.dataNj.toNat).map _).zipIdx 0).foldlM _ _ = _
  rw [zipIdx_map_range, List.foldlM_map]
  simp only [Nat.zero_add]
  exact hs.foldlM_row hsrc hdst _ fun a ha => List.mem_range.mp ha

/-- Within bounds, and for payloads of the right sizes, `toGlobal` scatters the local payload. -/
theorem Domain.toGlobal_eq_scatter {d : Domain} (hb : d.InBounds n) (hw : w ≤ 8)
    (hsrc : src.length = d.dataSize * w) (hsize : src.length < 2 ^ 64)
    (hdst : dst.length = n * w) :
    d.toGlobal w src dst = .ok (scatter w src dst d.indexMap) := by
  cases d with
  | unstructured definition globalSize =>
    exact unstructuredToGlobal_eq hb globalSize hsrc hdst
  | structured s =>
    apply hb.pointsWithin.toGlobal_eq hsrc hdst
    · have hn : n * w ≤ 2 ^ 31 * 8 := Nat.mul_le_mul hb.size_le hw
      have heq : (w * s.niGlobal * s.njGlobal : ℤ) = dst.length := by
        rw [hdst, mul_assoc, hb.size_eq]
        push_cast
        ring
      rw [heq]
      apply Int.emod_eq_of_lt (by omega)
      omega
    · have heq : (w * s.dataNi * s.dataNj : ℤ) = src.length := by
        rw [hsrc, Domain.dataSize]
        push_cast
        rw [Int.toNat_of_nonneg hb.dataNi.1, Int.toNat_of_nonneg hb.dataNj.1]
        ring
      rw [heq]
      apply Int.emod_eq_of_lt (by omega)
      omega

end Multio
