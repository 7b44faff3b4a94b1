import Multio.Domain.DomainConsistency
import Multio.Domain.GlobalMask

namespace Multio
open Exception Scatter Domain Lib

namespace Structured

/-- What the three loops do to a grid of `n` points, given data of the right size. -/
structure IndexAgreement (s : Structured) (n : ℕ) : Prop where
  toGlobal : ∀ (p : PrecisionTag) (src dst : List UInt8),
    src.length = s.dataNi.toNat * s.dataNj.toNat * p.size → dst.length = n * p.size →
    ∃ out, s.toGlobal p.size src dst = .ok out ∧ out.length = dst.length ∧
      (∀ g l, s.Visits g l → word p.size out g = word p.size src l) ∧
      ∀ g, (∀ l, ¬s.Visits g l) → word p.size out g = word p.size dst g
  collectIndices : ∀ (p : PrecisionTag) (src : List UInt8) (gl : Finset ℤ),
    src.length = s.dataNi.toNat * s.dataNj.toNat * p.size → gl.card < n →
    (∀ g l, s.Visits g l → (g : ℤ) ∉ gl) →
    ∃ out, s.collectIndices p src gl = .ok out ∧
      ∀ x, x ∈ out ↔ x ∈ gl ∨ ∃ g l : ℕ, s.Visits g l ∧ x = g
  toBitmask : ∀ (payload : Buffer) (mask bmask : List Bool), s.dataPartialSize ≤ n →
    ReadsAs payload mask → mask.length = s.dataNi.toNat * s.dataNj.toNat → bmask.length = n →
    ∃ out, s.toBitmask payload bmask = .ok out ∧ out.length = bmask.length ∧
      (∀ g l : ℕ, s.Visits g l → out[g]? = mask[l]?) ∧
      ∀ g : ℕ, (∀ l, ¬s.Visits g l) → out[g]? = bmask[g]?
  injective : ∀ g l g' l', s.Visits g l → s.Visits g' l' → (g = g' ↔ l = l')
  inRange : ∀ g l, s.Visits g l → g < n ∧ (g : ℤ) ∈ s.interior
  /-- The points of the data outside of the box, its halo, are not written. -/
  place : ∀ a b, a < s.dataNj.toNat → b < s.dataNi.toNat →
    ((∃ g, s.Visits g (a * s.dataNi.toNat + b)) ↔ s.InBox a b)

variable {s : Structured} {n : ℕ}

theorem place_injective {w a a' b b' : ℕ} (hb : b < w) (hb' : b' < w)
    (h : a * w + b = a' * w + b') : a = a' ∧ b = b' := by
  have hmod := congrArg (· % w) h
  have hdiv := congrArg (· / w) h
  simp only [Nat.mul_add_mod_self_right, Nat.mod_eq_of_lt hb, Nat.mod_eq_of_lt hb'] at hmod
  rw [hmod] at h
  have hw : 0 < w := by omega
  exact ⟨Nat.eq_of_mul_eq_mul_right hw (Nat.add_right_cancel h), hmod⟩

theorem visits_injective (hb : s.InBounds n) {g l g' l' : ℕ} (h : s.Visits g l)
    (h' : s.Visits g' l') : g = g' ↔ l = l' := by
  constructor
  · rintro rfl
    have heq := List.inj_on_of_nodup_map (structured_indexMap_nodup hb) ((visits_iff hb).mp h)
      ((visits_iff hb).mp h') rfl
    exact congrArg Prod.snd heq
  · rintro rfl
    obtain ⟨a, b, -, hb', -, hg, hl⟩ := h
    obtain ⟨a', b', -, hb'', -, hg', hl'⟩ := h'
    obtain ⟨rfl, rfl⟩ := place_injective hb' hb'' (hl.symm.trans hl')
    exact Int.ofNat_inj.mp (hg.trans hg'.symm)

theorem visits_place (hb : s.InBounds n) {a b : ℕ} (ha : a < s.dataNj.toNat)
    (hb' : b < s.dataNi.toNat) : (∃ g, s.Visits g (a * s.dataNi.toNat + b)) ↔ s.InBox a b := by
  constructor
  · rintro ⟨g, a', b', -, hlt, hbox, -, hl⟩
    obtain ⟨rfl, rfl⟩ := place_injective hb' hlt hl
    exact hbox
  · intro hbox
    have hi : Multio.inRange (s.dataIbegin + b) 0 s.ni = true := by simp [Multio.inRange, hbox.1]
    have hj : Multio.inRange (s.dataJbegin + a) 0 s.nj = true := by simp [Multio.inRange, hbox.2]
    obtain ⟨hrow, -⟩ := globalIndex_bounds hb hi hj
    obtain ⟨-, hi₀, -⟩ := hb.ni
    have hpos := hbox.1.1
    exact ⟨_, a, b, ha, hb', hbox, Int.toNat_of_nonneg (by omega), rfl⟩

/-- A loop whose body adds new indices `g x` adds all of them, when none comes twice. -/
theorem foldlM_union_ok {β : Type} {f : Finset ℤ → β → Except Exception (Finset ℤ)}
    {g : β → List ℤ}
    (hf : ∀ x gl, (g x).Nodup → (∀ y ∈ g x, y ∉ gl) → f gl x = .ok (gl ∪ (g x).toFinset))
    {xs : List β} {gl : Finset ℤ} (hnodup : (xs.flatMap g).Nodup)
    (hgl : ∀ y ∈ xs.flatMap g, y ∉ gl) :
    xs.foldlM f gl = .ok (gl ∪ (xs.flatMap g).toFinset) := by
  induction xs generalizing gl with
  | nil =>
    rw [List.foldlM_nil, List.flatMap_nil, List.toFinset_nil, Finset.union_empty]
    rfl
  | cons x xs ih =>
    rw [List.flatMap_cons] at hnodup hgl ⊢
    rw [List.nodup_append] at hnodup
    rw [List.forall_mem_append] at hgl
    have hrest : ∀ y ∈ xs.flatMap g, y ∉ gl ∪ (g x).toFinset := by
      intro y hy hmem
      rcases Finset.mem_union.mp hmem with hmem | hmem
      · exact hgl.2 y hy hmem
      · exact hnodup.2.2 y (List.mem_toFinset.mp hmem) y hy rfl
    rw [List.foldlM_cons, hf x gl hnodup.1 hgl.1, ok_bind, ih hnodup.2.1 hrest,
      List.toFinset_append, Finset.union_assoc]

theorem collectPoint_eq (hb : s.InBounds n) {j i : ℤ} {gl : Finset ℤ}
    (hgl : ∀ y ∈ s.pointIndices j i, y ∉ gl) :
    s.collectPoint j gl i = .ok (gl ∪ (s.pointIndices j i).toFinset) := by
  unfold collectPoint pointIndices at *
  split_ifs at hgl ⊢ with hin
  · rw [Bool.and_eq_true] at hin
    rw [globalIndex_ok hb hin.1 hin.2, ok_bind, assert_ok, ok_bind, List.toFinset_cons,
      List.toFinset_nil, insert_empty_eq, Finset.union_comm]
    · rfl
    · exact decide_eq_true (hgl _ List.mem_cons_self)
  · rw [List.toFinset_nil, Finset.union_empty]

theorem collectRow_eq (hb : s.InBounds n) {j : ℤ} {gl : Finset ℤ}
    (hnodup : ((dataRange s.dataIbegin s.dataNi).flatMap (s.pointIndices j)).Nodup)
    (hgl : ∀ y ∈ (dataRange s.dataIbegin s.dataNi).flatMap (s.pointIndices j), y ∉ gl) :
    s.collectRow gl j =
      .ok (gl ∪ ((dataRange s.dataIbegin s.dataNi).flatMap (s.pointIndices j)).toFinset) := by
  rw [collectRow, loopRange_ok hb.dataNi.2.1 hb.dataNi.1 hb.dataNi.2.2, ok_bind]
  exact foldlM_union_ok (g := s.pointIndices j) (fun i gl _ hi => collectPoint_eq hb hi) hnodup hgl

theorem indices_eq (hb : s.InBounds n) :
    s.indices = (Domain.structured s).indexMap.map fun p => (p.1 : ℤ) := by
  have hpoint : ∀ a b : ℕ, s.pointIndices (s.dataJbegin + a) (s.dataIbegin + b) =
      ((s.pointMap a b).map fun p => (p.1 : ℤ)).toList := by
    intro a b
    cases hp : s.pointMap a b with
    | none =>
      unfold pointMap at hp
      split_ifs at hp with hin
      rw [pointIndices, if_neg hin]
      rfl
    | some p =>
      obtain ⟨hi, hj, hg⟩ := pointMap_eq_some hb hp
      rw [pointIndices, hi, hj, ← hg]
      rfl
  simp only [indices, dataRange, List.flatMap_map, Domain.indexMap, List.map_flatMap, hpoint,
    rowMap_eq, List.filterMap_eq_flatMap_toList, Option.toList_map]

theorem mem_indices_iff (hb : s.InBounds n) {x : ℤ} :
    x ∈ s.indices ↔ ∃ g l : ℕ, s.Visits g l ∧ x = g := by
  rw [indices_eq hb, List.mem_map]
  simp only [visits_iff hb]
  constructor
  · rintro ⟨⟨g, l⟩, hmem, rfl⟩
    exact ⟨g, l, hmem, rfl⟩
  · rintro ⟨g, l, hmem, rfl⟩
    exact ⟨(g, l), hmem, rfl⟩

theorem indices_nodup (hb : s.InBounds n) : s.indices.Nodup := by
  have hnodup := (structured_indexMap_nodup hb).map (@Nat.cast_injective ℤ _ _)
  rw [List.map_map] at hnodup
  rw [indices_eq hb]
  exact hnodup

/-- `collectIndices` of data of the right size adds the indices of the box. -/
theorem collectIndices_eq (hb : s.InBounds n) (hn : n < 2 ^ 31)
    (hdata : s.dataNj * s.dataNi < 2 ^ 31) {p : PrecisionTag} {src : List UInt8} {gl : Finset ℤ}
    (hsrc : src.length = s.dataNi.toNat * s.dataNj.toNat * p.size) (hcard : gl.card < n)
    (hgl : ∀ y ∈ s.indices, y ∉ gl) :
    s.collectIndices p src gl = .ok (gl ∪ s.indices.toFinset) := by
  have hni := hb.dataNi.1
  have hnj := hb.dataNj.1
  have hproduct : 0 ≤ s.dataNi * s.dataNj := mul_nonneg hni hnj
  rw [mul_comm] at hdata
  have hsize : ((src.length / p.size : ℕ) : ℤ) = s.dataNi * s.dataNj := by
    rw [hsrc, Nat.mul_div_cancel _ (by cases p <;> decide)]
    push_cast
    rw [Int.toNat_of_nonneg hni, Int.toNat_of_nonneg hnj]
  rw [collectIndices, hb.size_eq, int32_ok ⟨by omega, by omega⟩, ok_bind, assert_ok, ok_bind,
    int32_ok ⟨by omega, hdata⟩, ok_bind, if_neg (not_not.mpr hsize),
    loopRange_ok hb.dataNj.2.1 hnj hb.dataNj.2.2, ok_bind]
  · exact foldlM_union_ok
      (g := fun j => (dataRange s.dataIbegin s.dataNi).flatMap fun i => s.pointIndices j i)
      (fun j gl hnodup hj => collectRow_eq hb hnodup hj) (indices_nodup hb) hgl
  · rw [decide_eq_true_eq]
    omega

/-- The three loops visit the same points of the grid. -/
theorem index_agreement {s : Structured} {n : ℕ} (hb : s.InBounds n) (hn : n < 2 ^ 31)
    (hdata : s.dataNj * s.dataNi < 2 ^ 31) : s.IndexAgreement n where
  -- each loop is known as a function of the index map, which tells the points it visits
  toGlobal p src dst hsrc hdst := by
    have hw : p.size ≤ 8 := by cases p <;> decide
    have hsize : s.dataNi.toNat * s.dataNj.toNat < 2 ^ 31 := by
      rw [← Int.ofNat_lt]
      push_cast
      rw [Int.toNat_of_nonneg hb.dataNi.1, Int.toNat_of_nonneg hb.dataNj.1, mul_comm]
      exact hdata
    have hrange := structured_inRange hb
    refine ⟨_, Domain.toGlobal_eq_scatter (d := .structured s) hb hw hsrc ?_ hdst, ?_, ?_, ?_⟩
    · have hbytes := Nat.mul_le_mul hsize.le hw
      omega
    · rw [scatter_length _ hrange hsrc hdst, hdst]
    · intro g l hvisit
      exact word_scatter_of_mem _ hrange hsrc hdst (structured_indexMap_nodup hb)
        ((visits_iff hb).mp hvisit)
    · intro g hg
      apply word_scatter_of_not_mem _ hrange hsrc hdst
      rintro ⟨g', l⟩ hmem rfl
      exact hg l ((visits_iff hb).mpr hmem)
  collectIndices p src gl hsrc hcard hgl := by
    refine ⟨_, collectIndices_eq hb hn hdata hsrc hcard ?_, ?_⟩
    · intro y hy
      obtain ⟨g, l, hvisit, rfl⟩ := (mem_indices_iff hb).mp hy
      exact hgl g l hvisit
    · intro x
      rw [Finset.mem_union, List.mem_toFinset, mem_indices_iff hb]
  toBitmask payload mask bmask hpiece hreads hmask hlen := by
    have hrange := structured_inRange hb
    have hmask' : mask.length = s.dataNi.toNat * s.dataNj.toNat * 1 := by rw [hmask, Nat.mul_one]
    have hlen' : bmask.length = n * 1 := by rw [hlen, Nat.mul_one]
    refine ⟨_, toBitmask_ok hb hn hpiece hdata hmask hreads hlen, ?_, ?_, ?_⟩
    · rw [scatter_length _ hrange hmask' hlen', hlen']
    · intro g l hvisit
      exact getElem?_eq_of_word (word_scatter_of_mem _ hrange hmask' hlen'
        (structured_indexMap_nodup hb) ((visits_iff hb).mp hvisit))
    · intro g hg
      apply getElem?_eq_of_word (word_scatter_of_not_mem _ hrange hmask' hlen' _)
      rintro ⟨g', l⟩ hmem rfl
      exact hg l ((visits_iff hb).mpr hmem)
  injective g l g' l' h h' := visits_injective hb h h'
  inRange g l h :=
    ⟨(structured_inRange hb _ ((visits_iff hb).mp h)).1,
      indexMap_subset_interior hb ((visits_iff hb).mp h)⟩
  place a b ha hb' := visits_place hb ha hb'

structure InsideGrid (s : Structured) : Prop where
  columns : 0 ≤ s.ibegin ∧ 0 ≤ s.ni ∧ s.ibegin + s.ni ≤ s.niGlobal
  rows : 0 ≤ s.jbegin ∧ 0 ≤ s.nj ∧ s.jbegin + s.nj ≤ s.njGlobal

/-- Four points of a grid of twelve, with a halo of one point on all sides. -/
def haloBox : Structured := ⟨4, 3, 1, 2, 0, 2, 2, -1, 4, -1, 4, 12⟩

theorem haloBox_inBounds : haloBox.InBounds 12 := by
  constructor <;> decide

example : haloBox.indices = [1, 2, 5, 6] := by decide

theorem index_agreement_halo : haloBox.IndexAgreement 12 :=
  index_agreement haloBox_inBounds (by decide) (by decide)

/-- One point of a grid with more points than `int` has numbers. -/
def wideGrid : Structured := ⟨65536, 65536, 0, 1, 0, 1, 2, 0, 1, 0, 1, 1⟩

/-- The product of the sides overflows before the loops of `collectIndices` start. -/
theorem wide_grid_not_collected :
    wideGrid.InsideGrid ∧ wideGrid.Visits 0 0 ∧ ¬wideGrid.IndexAgreement (2 ^ 32) := by
  refine ⟨⟨by decide, by decide⟩, ⟨0, 0, by decide, by decide, ⟨by decide, by decide⟩, rfl, rfl⟩, ?_⟩
  intro h
  have hvisits : ∀ g l, wideGrid.Visits g l → (g : ℤ) ∉ (∅ : Finset ℤ) :=
    fun g _ _ => Finset.notMem_empty _
  obtain ⟨out, hout, -⟩ := h.collectIndices .float [0, 0, 0, 0] ∅ rfl (by decide) hvisits
  cases hout

end Structured
end Multio
