import Multio.Action.FesomInterpolation
import Mathlib.Algebra.BigOperators.Group.List.Basic

namespace Multio.Action.InterpolateFesom
open Exception Lib

section

variable {α σ : Type}

/-- A loop over the places from the end of `pre` on does what a loop over the elements does. -/
theorem foldlM_range_ok {f : σ → ℕ → Except Exception σ} {g : σ → α → σ} {P : σ → Prop}
    (pre xs : List α) {s : σ} (hs : P s)
    (h : ∀ pre' x post, pre ++ xs = pre' ++ x :: post → x ∈ xs → ∀ s, P s →
      f s pre'.length = .ok (g s x) ∧ P (g s x)) :
    (List.range' pre.length xs.length).foldlM f s = .ok (xs.foldl g s) ∧ P (xs.foldl g s) := by
  induction xs generalizing pre s with
  | nil => exact ⟨rfl, hs⟩
  | cons x xs ih =>
    obtain ⟨hf, hg⟩ := h pre x xs rfl List.mem_cons_self s hs
    have hpre : (pre ++ [x]).length = pre.length + 1 := List.length_append
    have hrest := ih (pre ++ [x]) hg fun pre' y post heq hy =>
      h pre' y post (by rw [← heq, List.append_assoc]; rfl) (List.mem_cons_of_mem _ hy)
    rw [hpre] at hrest
    rw [List.length_cons, List.range'_succ, List.foldlM_cons, hf, ok_bind]
    exact hrest

theorem ok_of_foldlM {f : σ → α → Except Exception σ} {xs : List α} {s s' : σ}
    (h : xs.foldlM f s = .ok s') {x : α} (hx : x ∈ xs) : ∃ s₁ s₂, f s₁ x = .ok s₂ := by
  induction xs generalizing s with
  | nil => cases hx
  | cons y xs ih =>
    rw [List.foldlM_cons, bind_eq_ok_iff] at h
    obtain ⟨s₁, hy, hrest⟩ := h
    obtain rfl | hx := List.mem_cons.mp hx
    · exact ⟨s, s₁, hy⟩
    · exact ih hrest hx

theorem element_append (pre post : List α) (x : α) :
    element (pre ++ x :: post) pre.length = .ok x := by
  rw [element, List.getElem?_append_right le_rfl, Nat.sub_self]
  rfl

theorem element_of_getElem? {xs : List α} {i : ℕ} {x : α} (h : xs[i]? = some x) :
    element xs i = .ok x := by
  rw [element, h]

theorem lt_of_element {xs : List α} {i : ℕ} {x : α} (h : element xs i = .ok x) : i < xs.length := by
  by_contra hge
  rw [element, List.getElem?_eq_none (not_lt.mp hge)] at h
  cases h

end

section

variable {R : Type}

theorem foldl_next (ts : List (Tri R)) (s : CsrLoop R) :
    (ts.foldl CsrLoop.next s).nRows = s.nRows + (changes Tri.h s.prev s.cnt ts).length ∧
    (ts.foldl CsrLoop.next s).landSeaMask =
      s.landSeaMask ++ (changes Tri.h s.prev s.cnt ts).map (fun m => castInt m.1) ∧
    (ts.foldl CsrLoop.next s).rowStart =
      s.rowStart ++ (changes Tri.h s.prev s.cnt ts).map (fun m => castInt m.2) ∧
    (ts.foldl CsrLoop.next s).colIdx = s.colIdx ++ ts.map (fun t => castInt t.f) ∧
    (ts.foldl CsrLoop.next s).values = s.values ++ ts.map Tri.v := by
  induction ts generalizing s with
  | nil => simp [changes]
  | cons t ts ih =>
    rw [List.foldl_cons, changes]
    obtain ⟨hrows, hmask, hstart, hcol, hval⟩ := ih (s.next t)
    rw [hrows, hmask, hstart, hcol, hval]
    by_cases hrow : t.h = s.prev
    · simp [CsrLoop.next, hrow]
    · simp [CsrLoop.next, hrow]
      omega

/-- The compressed rows are these, the entries before them being those of no row. -/
structure Compressed (c : CompressedRows R) (before : List (Tri R))
    (rows : List (ℕ × List (Tri R))) : Prop where
  nRows : c.nRows = rows.length
  landSeaMask : c.landSeaMask = (rowMarks before.length rows).map fun m => castInt m.1
  rowStart : c.rowStart = (rowMarks before.length rows).map (fun m => castInt m.2) ++
    [castInt (before ++ rows.flatMap Prod.snd).length]
  colIdx : c.colIdx = (before ++ rows.flatMap Prod.snd).map fun t => castInt t.f
  values : c.values = (before ++ rows.flatMap Prod.snd).map Tri.v

theorem compressed {ts before : List (Tri R)} {rows : List (ℕ × List (Tri R))} (NSide : ℕ)
    (hmarks : changes Tri.h indexScale 0 ts = rowMarks before.length rows)
    (hflat : before ++ rows.flatMap Prod.snd = ts) :
    Compressed (triplets2CSR NSide ts) before rows := by
  obtain ⟨hrows, hmask, hstart, hcol, hval⟩ := foldl_next ts ({} : CsrLoop R)
  rw [hmarks] at hrows hmask hstart
  constructor
  · rw [triplets2CSR, hrows, length_rowMarks]
    exact Nat.zero_add _
  · exact hmask
  · rw [hflat]
    exact congrArg (· ++ [castInt ts.length]) hstart
  · rw [hflat]
    exact hcol
  · rw [hflat]
    exact hval

theorem compressed_of_ne (NSide : ℕ) {ts : List (Tri R)}
    (h : ∀ t rest, ts = t :: rest → t.h ≠ indexScale) :
    Compressed (triplets2CSR NSide ts) [] (groupRows Tri.h ts) := by
  apply compressed NSide _ (flatMap_groupRows Tri.h ts)
  rw [changes_eq]
  cases ts with
  | nil => rfl
  | cons t ts =>
    obtain ⟨g, rows, hrows⟩ := head_groupRows Tri.h t ts
    rw [hrows, marksAfter, if_neg (h t ts rfl)]
    rfl

theorem compressed_of_eq (NSide : ℕ) {t : Tri R} (rest : List (Tri R)) (h : t.h = indexScale) :
    ∃ before rows, groupRows Tri.h (t :: rest) = (t.h, before) :: rows ∧
      Compressed (triplets2CSR NSide (t :: rest)) before rows := by
  obtain ⟨before, rows, hgroups⟩ := head_groupRows Tri.h t rest
  refine ⟨before, rows, hgroups, compressed NSide ?_ ?_⟩
  · rw [changes_eq, hgroups, marksAfter, if_pos h, Nat.zero_add]
  · conv_rhs => rw [← flatMap_groupRows Tri.h (t :: rest), hgroups]
    rfl

end

section

variable {R : Type} {c : CompressedRows R} {before : List (Tri R)}
  {rows pre post : List (ℕ × List (Tri R))} {row : ℕ × List (Tri R)}

/-- All places of the entries are numbers of 32 bits, and so are the indices of the rows. -/
structure Small (before : List (Tri R)) (rows : List (ℕ × List (Tri R))) : Prop where
  length : (before ++ rows.flatMap Prod.snd).length < 2 ^ 31
  keys : ∀ row ∈ rows, row.1 < 2 ^ 31
  columns : ∀ row ∈ rows, ∀ t ∈ row.2, t.f < 2 ^ 31

theorem castSize_castInt {n : ℕ} (h : n < 2 ^ 31) : castSize (castInt n) = n := by
  rw [castInt_of_lt h, castSize_natCast (h.trans (by decide))]

theorem Compressed.landSeaMask_row (h : Compressed c before (pre ++ row :: post)) :
    element c.landSeaMask pre.length = .ok (castInt row.1) := by
  have hpre : ((rowMarks before.length pre).map fun m => castInt m.1).length = pre.length := by
    rw [List.length_map, length_rowMarks]
  rw [h.landSeaMask, rowMarks_append, List.map_append, rowMarks, List.map_cons, ← hpre]
  exact element_append _ _ _

theorem Compressed.rowStart_row (h : Compressed c before (pre ++ rows)) :
    element c.rowStart pre.length =
      .ok (castInt (before ++ pre.flatMap Prod.snd).length) := by
  have hpre : ((rowMarks before.length pre).map fun m => castInt m.2).length = pre.length := by
    rw [List.length_map, length_rowMarks]
  obtain ⟨places, hplaces⟩ := head_rowMarks (before ++ pre.flatMap Prod.snd).length rows
  have hstart : c.rowStart = (rowMarks before.length pre).map (fun m => castInt m.2) ++
      castInt (before ++ pre.flatMap Prod.snd).length :: places.map fun n => castInt n := by
    have hend : (before ++ (pre ++ rows).flatMap Prod.snd).length =
        (before ++ pre.flatMap Prod.snd).length + (rows.flatMap Prod.snd).length := by
      rw [List.flatMap_append, ← List.append_assoc, List.length_append]
    have hmap := congrArg (List.map fun n => castInt n) hplaces
    rw [List.map_append, List.map_map] at hmap
    rw [h.rowStart, rowMarks_append, List.map_append, List.append_assoc, hend,
      ← List.length_append]
    exact congrArg _ hmap
  rw [hstart, ← hpre]
  exact element_append _ _ _

theorem Compressed.row_eq (h : Compressed c before (pre ++ row :: post))
    (hsmall : Small before (pre ++ row :: post)) :
    c.row pre.length =
      .ok (row.1, List.range' (before ++ pre.flatMap Prod.snd).length row.2.length) := by
  have hkey := hsmall.keys row (by simp)
  have hlen := hsmall.length
  have hnext : (before ++ (pre ++ [row]).flatMap Prod.snd).length =
      (before ++ pre.flatMap Prod.snd).length + row.2.length := by
    simp
    omega
  have hstop : element c.rowStart (pre.length + 1) =
      .ok (castInt (before ++ (pre ++ [row]).flatMap Prod.snd).length) := by
    have hsplit : pre ++ row :: post = (pre ++ [row]) ++ post := by simp
    have := (hsplit ▸ h).rowStart_row
    rwa [List.length_append] at this
  have hle : (before ++ pre.flatMap Prod.snd).length + row.2.length ≤
      (before ++ (pre ++ row :: post).flatMap Prod.snd).length := by
    simp
    omega
  rw [CompressedRows.row, h.landSeaMask_row, ok_bind, h.rowStart_row, ok_bind, hstop, ok_bind,
    hnext, castSize_castInt hkey, castSize_castInt (by omega), castSize_castInt (by omega),
    Nat.add_sub_cancel_left]

theorem Compressed.entry (h : Compressed c before rows) {xs ys : List (Tri R)} {t : Tri R}
    (hxs : before ++ rows.flatMap Prod.snd = xs ++ t :: ys) (ht : t.f < 2 ^ 31) :
    c.column xs.length = .ok t.f ∧ element c.values xs.length = .ok t.v := by
  have hcol : element c.colIdx xs.length = .ok (castInt t.f) := by
    rw [h.colIdx, hxs, List.map_append, List.map_cons]
    have := element_append (xs.map fun t => castInt t.f) (ys.map fun t => castInt t.f) (castInt t.f)
    rwa [List.length_map] at this
  have hval : element c.values xs.length = .ok t.v := by
    rw [h.values, hxs, List.map_append, List.map_cons]
    have := element_append (xs.map Tri.v) (ys.map Tri.v) t.v
    rwa [List.length_map] at this
  rw [CompressedRows.column, hcol, ok_bind, castSize_castInt ht]
  exact ⟨rfl, hval⟩

theorem Compressed.foldlM_row {σ : Type} {f : σ → ℕ → Except Exception σ} {g : σ → Tri R → σ}
    {P : σ → Prop} (h : Compressed c before (pre ++ row :: post))
    (hsmall : Small before (pre ++ row :: post))
    (hf : ∀ t ∈ row.2, ∀ p, c.column p = .ok t.f → element c.values p = .ok t.v → ∀ s, P s →
      f s p = .ok (g s t) ∧ P (g s t)) {s : σ} (hs : P s) :
    (List.range' (before ++ pre.flatMap Prod.snd).length row.2.length).foldlM f s =
      .ok (row.2.foldl g s) ∧ P (row.2.foldl g s) := by
  apply foldlM_range_ok _ _ hs
  intro xs t ys hxs ht s hs
  have hall : before ++ (pre ++ row :: post).flatMap Prod.snd =
      xs ++ t :: (ys ++ post.flatMap Prod.snd) := by
    rw [List.flatMap_append, List.flatMap_cons, ← List.append_assoc, ← List.append_assoc, hxs,
      List.append_assoc, List.cons_append]
  obtain ⟨hcol, hval⟩ := h.entry hall (hsmall.columns row (by simp) t ht)
  exact hf t ht xs.length hcol hval s hs

theorem Compressed.foldlM_rows {σ : Type} {f : σ → ℕ → Except Exception σ}
    {g : σ → ℕ × List (Tri R) → σ} {P : σ → Prop} (h : Compressed c before rows)
    (hf : ∀ pre row post, rows = pre ++ row :: post → ∀ s, P s →
      f s pre.length = .ok (g s row) ∧ P (g s row)) {s : σ} (hs : P s) :
    (List.range c.nRows).foldlM f s = .ok (rows.foldl g s) ∧ P (rows.foldl g s) := by
  rw [h.nRows, List.range_eq_range']
  exact foldlM_range_ok [] rows hs fun pre row post hrows _ => hf pre row post hrows

theorem foldl_append_singleton {α β : Type} (f : α → β) (xs : List α) (ys : List β) :
    xs.foldl (fun ys x => ys ++ [f x]) ys = ys ++ xs.map f := by
  induction xs generalizing ys with
  | nil => simp
  | cons x xs ih => rw [List.foldl_cons, ih, List.append_assoc, List.map_cons]; rfl

theorem Compressed.appendRow (h : Compressed c before (pre ++ row :: post))
    (hsmall : Small before (pre ++ row :: post)) (triplets : List (Tri R)) :
    c.appendRow triplets pre.length =
      .ok (triplets ++ row.2.map fun t => Tri.ofSizes row.1 t.f t.v) := by
  rw [CompressedRows.appendRow, h.row_eq hsmall, ok_bind]
  have hloop := h.foldlM_row hsmall (f := c.appendTriplet row.1) (P := fun _ => True)
    (g := fun triplets t => triplets ++ [Tri.ofSizes row.1 t.f t.v])
    (fun t _ p hcol hval triplets _ => by
      rw [CompressedRows.appendTriplet, hcol, ok_bind, hval, ok_bind]
      exact ⟨rfl, trivial⟩) (s := triplets) trivial
  rw [foldl_append_singleton] at hloop
  exact hloop.1

theorem Compressed.getTriplets (h : Compressed c before rows) (hsmall : Small before rows) :
    c.getTriplets = .ok (rows.flatMap fun row => row.2.map fun t => Tri.ofSizes row.1 t.f t.v) := by
  rw [List.flatMap_eq_foldl]
  refine (h.foldlM_rows (P := fun _ => True) ?_ trivial).1
  rintro pre row post rfl triplets -
  exact ⟨h.appendRow hsmall triplets, trivial⟩

end

section

variable {R : Type} [Semiring R] {c : CompressedRows R} {before : List (Tri R)}
  {rows pre post : List (ℕ × List (Tri R))} {row : ℕ × List (Tri R)} {field out : List R}

def term (field : List R) (t : Tri R) : R := t.v * field.getD t.f 0

theorem foldl_set_add (k : ℕ) (hk : k < out.length) (ts : List (Tri R)) (a : R) :
    ts.foldl (fun out t => out.set k (out.getD k 0 + term field t)) (out.set k a) =
      out.set k (a + (ts.map (term field)).sum) := by
  induction ts generalizing a with
  | nil => rw [List.foldl_nil, List.map_nil, List.sum_nil, add_zero]
  | cons t ts ih =>
    have hcell : (out.set k a).getD k 0 = a := by
      rw [List.getD_eq_getElem?_getD, List.getElem?_set_self hk]
      rfl
    rw [List.foldl_cons, hcell, List.set_set, ih, List.map_cons, List.sum_cons, add_assoc]

theorem addTerm_ok {k p : ℕ} {t : Tri R} (hcol : c.column p = .ok t.f)
    (hval : element c.values p = .ok t.v) (hfield : t.f < field.length) (hk : k < out.length) :
    c.addTerm field k out p = .ok (out.set k (out.getD k 0 + term field t)) := by
  have hinp : element field t.f = .ok field[t.f] :=
    element_of_getElem? (List.getElem?_eq_getElem hfield)
  have hsum : element out k = .ok out[k] := element_of_getElem? (List.getElem?_eq_getElem hk)
  rw [CompressedRows.addTerm, hcol, ok_bind, hval, ok_bind, hinp, ok_bind, hsum, ok_bind, term,
    List.getD_eq_getElem field 0 hfield, List.getD_eq_getElem out 0 hk]

theorem Compressed.interpolateRow (h : Compressed c before (pre ++ row :: post))
    (hsmall : Small before (pre ++ row :: post)) (hfield : ∀ t ∈ row.2, t.f < field.length)
    (hout : row.1 < out.length) :
    c.interpolateRow field out pre.length =
      .ok (out.set row.1 (row.2.map (term field)).sum) := by
  have helem : element out row.1 = .ok out[row.1] :=
    element_of_getElem? (List.getElem?_eq_getElem hout)
  have hloop := h.foldlM_row hsmall (f := c.addTerm field row.1)
    (P := fun out => row.1 < out.length)
    (g := fun out t => out.set row.1 (out.getD row.1 0 + term field t))
    (fun t ht p hcol hval out hlt =>
      ⟨addTerm_ok hcol hval (hfield t ht) hlt, by rwa [List.length_set]⟩)
    (s := out.set row.1 0) (by rwa [List.length_set])
  rw [foldl_set_add row.1 hout, zero_add] at hloop
  rw [CompressedRows.interpolateRow, h.row_eq hsmall, ok_bind]
  simp only [helem, ok_bind]
  exact hloop.1

theorem Compressed.interpolate (h : Compressed c before rows) (hsmall : Small before rows)
    (hfield : ∀ row ∈ rows, ∀ t ∈ row.2, t.f < field.length)
    (hkeys : ∀ row ∈ rows, row.1 < c.nOutRows) (missing : R) :
    c.interpolate field c.nOutRows missing =
      .ok ((rows.map fun row => (row.1, (row.2.map (term field)).sum)).foldl
        (fun out cell => out.set cell.1 cell.2) (List.replicate c.nOutRows missing)) := by
  rw [CompressedRows.interpolate, if_neg (not_not.mpr rfl), List.foldl_map]
  refine (h.foldlM_rows (P := fun out => out.length = c.nOutRows) ?_ List.length_replicate).1
  rintro pre row post rfl out hlen
  have hrow : row ∈ pre ++ row :: post := by simp
  refine ⟨h.interpolateRow hsmall (hfield row hrow) ?_, ?_⟩
  · rw [hlen]
    exact hkeys row hrow
  · rwa [List.length_set]

end

section

variable {R : Type} {c : CompressedRows R} {before : List (Tri R)}
  {rows pre post : List (ℕ × List (Tri R))} {row : ℕ × List (Tri R)}

theorem Compressed.column_entry (h : Compressed c before (pre ++ row :: post))
    (hsmall : Small before (pre ++ row :: post)) {xs ys : List (Tri R)} {t : Tri R}
    (hrow : row.2 = xs ++ t :: ys) :
    c.column ((before ++ pre.flatMap Prod.snd).length + xs.length) = .ok t.f := by
  have hall : before ++ (pre ++ row :: post).flatMap Prod.snd =
      (before ++ pre.flatMap Prod.snd ++ xs) ++ t :: (ys ++ post.flatMap Prod.snd) := by
    rw [List.flatMap_append, List.flatMap_cons, hrow]
    simp
  have ht : t ∈ row.2 := by simp [hrow]
  rw [← List.length_append]
  exact (h.entry hall (hsmall.columns row (by simp) t ht)).1

theorem Compressed.exists_column (h : Compressed c before (pre ++ row :: post))
    (hsmall : Small before (pre ++ row :: post)) {p : ℕ}
    (hp : p ∈ List.range' (before ++ pre.flatMap Prod.snd).length row.2.length) :
    ∃ t ∈ row.2, c.column p = .ok t.f := by
  obtain ⟨i, hi, rfl⟩ := List.mem_range'.mp hp
  have hsplit : row.2 = row.2.take i ++ row.2[i] :: row.2.drop (i + 1) := by
    rw [← List.drop_eq_getElem_cons hi, List.take_append_drop]
  have hcol := h.column_entry hsmall hsplit
  rw [List.length_take_of_le hi.le] at hcol
  rw [Nat.one_mul]
  exact ⟨row.2[i], List.getElem_mem hi, hcol⟩

theorem Compressed.column_of_mem (h : Compressed c before (pre ++ row :: post))
    (hsmall : Small before (pre ++ row :: post)) {t : Tri R} (ht : t ∈ row.2) :
    ∃ p ∈ List.range' (before ++ pre.flatMap Prod.snd).length row.2.length,
      c.column p = .ok t.f := by
  obtain ⟨xs, ys, hsplit⟩ := List.append_of_mem ht
  refine ⟨_, ?_, h.column_entry hsmall hsplit⟩
  rw [List.mem_range']
  refine ⟨xs.length, ?_, by rw [Nat.one_mul]⟩
  rw [hsplit, List.length_append, List.length_cons]
  omega

end

section

variable {R : Type} {NSide inputSize : ℕ} {t : Tri R} {triplets : List (Tri R)}

/-- Both indices are of type `std::int32_t` and lie in their grids. -/
structure Tri.InRange (t : Tri R) (NSide inputSize : ℕ) : Prop where
  i_nonneg : 0 ≤ t.i
  i_lt : t.i < 12 * NSide ^ 2
  i_int32 : t.i < 2 ^ 31
  j_nonneg : 0 ≤ t.j
  j_lt : t.j < inputSize

theorem castSize_of_nonneg {n : ℤ} (h : 0 ≤ n) (hlt : n < 2 ^ 63) : castSize n = n.toNat := by
  obtain ⟨m, rfl⟩ := Int.eq_ofNat_of_zero_le h
  exact castSize_natCast (by omega)

theorem Tri.InRange.h_eq (ht : t.InRange NSide inputSize) : t.h = t.i.toNat :=
  castSize_of_nonneg ht.i_nonneg (ht.i_int32.trans (by decide))

theorem Tri.InRange.f_eq (ht : t.InRange NSide inputSize) (hsize : inputSize < indexScale) :
    t.f = t.j.toNat := by
  have hj := ht.j_lt
  unfold indexScale at hsize
  exact castSize_of_nonneg ht.j_nonneg (by omega)

theorem Tri.InRange.ofSizes (ht : t.InRange NSide inputSize) (hsize : inputSize < indexScale) :
    Tri.ofSizes t.h t.f t.v = t := by
  have hi := ht.i_int32
  have hi' := ht.i_nonneg
  have hj := ht.j_lt
  have hj' := ht.j_nonneg
  unfold indexScale at hsize
  rw [Tri.ofSizes, ht.h_eq, ht.f_eq hsize, castInt_of_lt (by omega), castInt_of_lt (by omega),
    Int.toNat_of_nonneg hi', Int.toNat_of_nonneg hj']

theorem Tri.InRange.h_lt (ht : t.InRange NSide inputSize) : t.h < 2 ^ 31 := by
  have := ht.i_int32
  rw [ht.h_eq]
  omega

theorem Tri.InRange.f_lt (ht : t.InRange NSide inputSize) (hsize : inputSize < indexScale) :
    t.f < indexScale := by
  have := ht.j_lt
  rw [ht.f_eq hsize]
  omega

theorem Tri.InRange.idx_eq (ht : t.InRange NSide inputSize) (hsize : inputSize < indexScale) :
    t.idx indexScale = t.h * indexScale + t.f := by
  have hh := ht.h_lt
  have hf := ht.f_lt hsize
  unfold indexScale at hf ⊢
  exact Nat.mod_eq_of_lt (by omega)

theorem Tri.InRange.h_le {u : Tri R} (ht : t.InRange NSide inputSize)
    (hu : u.InRange NSide inputSize) (hsize : inputSize < indexScale)
    (hle : t.idx indexScale ≤ u.idx indexScale) : t.h ≤ u.h := by
  have hf := hu.f_lt hsize
  rw [ht.idx_eq hsize, hu.idx_eq hsize] at hle
  by_contra hlt
  have hstep : (u.h + 1) * indexScale ≤ t.h * indexScale :=
    Nat.mul_le_mul_right _ (not_le.mp hlt)
  rw [Nat.add_mul, Nat.one_mul] at hstep
  omega

/-- What interpolation with the compressed rows is to do: the product with each field, reads that
stay within the recorded columns, and the triplets, which are returned by rows. -/
structure IsSparseProduct [Semiring R] (NSide inputSize : ℕ) {triplets : List (Tri R)}
    (w : FesomInterpolationWeights triplets) : Prop where
  product : ∀ (field : List R) (missing : R), field.length = inputSize →
    ∃ out, (generateCacheFromTriplets NSide w).interpolate field (12 * NSide ^ 2) missing =
        .ok out ∧
      out.length = 12 * NSide ^ 2 ∧
      ∀ i < 12 * NSide ^ 2, out[i]? =
        some (if ∃ t ∈ triplets, t.i = (i : ℤ) then
            ((triplets.filter (·.i = (i : ℤ))).map fun t => t.v * field.getD t.j.toNat 0).sum
          else missing)
  reads : ∀ iRow < (generateCacheFromTriplets NSide w).nRows, ∀ outIdx colPtrs,
    (generateCacheFromTriplets NSide w).row iRow = .ok (outIdx, colPtrs) →
      ∀ p ∈ colPtrs, ∀ iCol, (generateCacheFromTriplets NSide w).column p = .ok iCol →
        iCol < (generateCacheFromTriplets NSide w).nCols
  triplets : ∃ ts, (generateCacheFromTriplets NSide w).getTriplets = .ok ts ∧ ts.Perm triplets ∧
    ts.Pairwise fun a b => a.i ≤ b.i

variable (w : FesomInterpolationWeights triplets)

theorem sorted_rows (h : ∀ t ∈ triplets, t.InRange NSide inputSize)
    (hsize : inputSize < indexScale) : w.triplets_.Pairwise fun a b => a.h ≤ b.h := by
  apply w.sorted.imp_of_mem
  intro a b ha hb hle
  exact (h a (w.perm.mem_iff.mp ha)).h_le (h b (w.perm.mem_iff.mp hb)) hsize hle

theorem small_rows (h : ∀ t ∈ triplets, t.InRange NSide inputSize)
    (hsize : inputSize < indexScale) (hcount : triplets.length < 2 ^ 31)
    {before : List (Tri R)} {rows : List (ℕ × List (Tri R))}
    (hflat : before ++ rows.flatMap Prod.snd = w.triplets_)
    (hrows : ∀ row ∈ rows, row.2 ≠ [] ∧ ∀ t ∈ row.2, t.h = row.1) : Small before rows := by
  have hmem {row : ℕ × List (Tri R)} {t : Tri R} (hrow : row ∈ rows) (ht : t ∈ row.2) :
      t.InRange NSide inputSize := by
    apply h t
    rw [← w.perm.mem_iff, ← hflat]
    exact List.mem_append_right _ (List.mem_flatMap.mpr ⟨row, hrow, ht⟩)
  constructor
  · rw [hflat, w.perm.length_eq]
    exact hcount
  · intro row hrow
    obtain ⟨hne, hkeys⟩ := hrows row hrow
    obtain ⟨t, ht⟩ := List.exists_mem_of_ne_nil _ hne
    have hi := (hmem hrow ht).i_int32
    rw [← hkeys t ht, (hmem hrow ht).h_eq]
    omega
  · intro row hrow t ht
    have hj := (hmem hrow ht).j_lt
    rw [(hmem hrow ht).f_eq hsize]
    unfold indexScale at hsize
    omega

/-- The index that stands for no row is not the first of the rows. -/
def FirstRowKept (triplets : List (Tri R)) : Prop :=
  (∃ t ∈ triplets, t.i < indexScale) ∨ ∀ t ∈ triplets, t.i ≠ indexScale

theorem head_ne (h : ∀ t ∈ triplets, t.InRange NSide inputSize) (hsize : inputSize < indexScale)
    (hkept : FirstRowKept triplets) {t : Tri R} {rest : List (Tri R)}
    (hts : w.triplets_ = t :: rest) : t.h ≠ indexScale := by
  have hmem : t ∈ triplets := w.perm.mem_iff.mp (hts ▸ List.mem_cons_self)
  have hle : ∀ u ∈ rest, t.h ≤ u.h := (List.pairwise_cons.mp (hts ▸ sorted_rows w h hsize)).1
  have ht := h t hmem
  have hti := ht.i_nonneg
  intro heq
  rw [ht.h_eq] at heq
  obtain ⟨u, hu, hlt⟩ | hall := hkept
  · have hui := (h u hu).i_nonneg
    obtain rfl | hu' := List.mem_cons.mp (hts ▸ w.perm.mem_iff.mpr hu)
    · omega
    · have := hle u hu'
      rw [ht.h_eq, (h u hu).h_eq] at this
      omega
  · exact hall t hmem (by omega)

theorem head_eq (h : ∀ t ∈ triplets, t.InRange NSide inputSize) (hsize : inputSize < indexScale)
    (hlost : ¬ FirstRowKept triplets) :
    ∃ t rest, w.triplets_ = t :: rest ∧ t.h = indexScale := by
  obtain ⟨hge, hex⟩ := not_or.mp hlost
  push Not at hge hex
  obtain ⟨u, hu, hui⟩ := hex
  cases hts : w.triplets_ with
  | nil => exact absurd (w.perm.mem_iff.mpr hu) (by simp [hts])
  | cons t rest =>
    have hmem : t ∈ triplets := w.perm.mem_iff.mp (hts ▸ List.mem_cons_self)
    have hle : t.h ≤ u.h := by
      obtain rfl | hu' := List.mem_cons.mp (hts ▸ w.perm.mem_iff.mpr hu)
      · exact le_rfl
      · exact (List.pairwise_cons.mp (hts ▸ sorted_rows w h hsize)).1 u hu'
    have hti := hge t hmem
    rw [(h u hu).h_eq, hui] at hle
    refine ⟨t, rest, rfl, ?_⟩
    rw [(h t hmem).h_eq] at hle ⊢
    omega

theorem castSize_castInt_wide {n : ℕ} (h : 2 ^ 31 ≤ n) (hlt : n < 2 ^ 32) :
    castSize (castInt n) = 2 ^ 64 - 2 ^ 32 + n := by
  have hint : castInt n = n - 2 ^ 32 := by
    unfold castInt
    rw [BitVec.toInt_ofNat', Int.bmod_def]
    omega
  rw [hint, castSize, BitVec.toNat_ofInt]
  omega

/-- The last row does not end where the number of triplets is negative as a number of 32 bits. -/
theorem Compressed.getTriplets_wide {c : CompressedRows R} {before : List (Tri R)}
    {pre : List (ℕ × List (Tri R))} {row : ℕ × List (Tri R)}
    (hc : Compressed c before (pre ++ [row])) (hrow : row.2 ≠ [])
    (hwide : 2 ^ 31 ≤ (before ++ (pre ++ [row]).flatMap Prod.snd).length)
    (hlt : (before ++ (pre ++ [row]).flatMap Prod.snd).length < 2 ^ 32) (ts : List (Tri R)) :
    c.getTriplets ≠ .ok ts := by
  intro hok
  have hlast : pre.length ∈ List.range c.nRows := by
    rw [hc.nRows, List.mem_range, List.length_append, List.length_singleton]
    exact Nat.lt_succ_self _
  obtain ⟨s₁, s₂, happend⟩ := ok_of_foldlM hok hlast
  have hstop : element c.rowStart (pre.length + 1) =
      .ok (castInt (before ++ (pre ++ [row]).flatMap Prod.snd).length) := by
    have := (List.append_nil (pre ++ [row]) ▸ hc).rowStart_row
    rwa [List.length_append] at this
  have hstart : (before ++ pre.flatMap Prod.snd).length <
      (before ++ (pre ++ [row]).flatMap Prod.snd).length := by
    have := List.length_pos_of_ne_nil hrow
    simp
    omega
  rw [CompressedRows.appendRow, CompressedRows.row, hc.landSeaMask_row, ok_bind, hc.rowStart_row,
    ok_bind, hstop, ok_bind, castSize_castInt_wide hwide hlt, ok_bind] at happend
  generalize (before ++ pre.flatMap Prod.snd).length = start at happend hstart
  have hlen : c.colIdx.length = (before ++ (pre ++ [row]).flatMap Prod.snd).length := by
    rw [hc.colIdx, List.length_map]
  generalize (before ++ (pre ++ [row]).flatMap Prod.snd).length = n at *
  -- a place outside of the columns that the loop reads
  have hplace : ∃ p ∈ List.range' (castSize (castInt start))
      (2 ^ 64 - 2 ^ 32 + n - castSize (castInt start)), n ≤ p := by
    by_cases hsmall : start < 2 ^ 31
    · refine ⟨n, ?_, le_rfl⟩
      rw [castSize_castInt hsmall, List.mem_range'_1]
      omega
    · refine ⟨2 ^ 64 - 2 ^ 32 + start, ?_, by omega⟩
      rw [castSize_castInt_wide (by omega) (by omega), List.mem_range'_1]
      omega
  obtain ⟨p, hp, hge⟩ := hplace
  obtain ⟨u₁, u₂, htriplet⟩ := ok_of_foldlM happend hp
  rw [CompressedRows.appendTriplet, bind_eq_ok_iff] at htriplet
  obtain ⟨iCol, hcol, -⟩ := htriplet
  rw [CompressedRows.column, bind_eq_ok_iff] at hcol
  obtain ⟨j, hj, -⟩ := hcol
  have := lt_of_element hj
  omega

variable (NSide) in
theorem compressed_rows (h : ∀ t ∈ triplets, t.InRange NSide inputSize)
    (hsize : inputSize < indexScale) (hkept : FirstRowKept triplets) :
    Compressed (generateCacheFromTriplets NSide w) [] (groupRows Tri.h w.triplets_) :=
  compressed_of_ne NSide fun _ _ hts => head_ne w h hsize hkept hts

theorem small_groupRows (h : ∀ t ∈ triplets, t.InRange NSide inputSize)
    (hsize : inputSize < indexScale) (hcount : triplets.length < 2 ^ 31) :
    Small [] (groupRows Tri.h w.triplets_) :=
  small_rows w h hsize hcount (flatMap_groupRows Tri.h w.triplets_)
    fun _ hrow => mem_groupRows Tri.h hrow

theorem mem_of_row (h : ∀ t ∈ triplets, t.InRange NSide inputSize) {row : ℕ × List (Tri R)}
    (hrow : row ∈ groupRows Tri.h w.triplets_) {t : Tri R} (ht : t ∈ row.2) :
    t ∈ triplets ∧ t.InRange NSide inputSize := by
  have hmem : t ∈ triplets := by
    rw [← w.perm.mem_iff, ← flatMap_groupRows Tri.h w.triplets_]
    exact List.mem_flatMap.mpr ⟨row, hrow, ht⟩
  exact ⟨hmem, h t hmem⟩

theorem getTriplets_ok (h : ∀ t ∈ triplets, t.InRange NSide inputSize)
    (hsize : inputSize < indexScale) (hkept : FirstRowKept triplets)
    (hcount : triplets.length < 2 ^ 31) :
    (generateCacheFromTriplets NSide w).getTriplets = .ok w.triplets_ := by
  rw [(compressed_rows NSide w h hsize hkept).getTriplets (small_groupRows w h hsize hcount)]
  congr 1
  conv_rhs => rw [← flatMap_groupRows Tri.h w.triplets_]
  apply List.flatMap_congr
  intro row hrow
  have hkeys := (mem_groupRows Tri.h hrow).2
  conv_rhs => rw [← List.map_id row.2]
  apply List.map_congr_left
  intro t ht
  rw [← hkeys t ht, (mem_of_row w h hrow ht).2.ofSizes hsize]
  rfl

/-- If all triplets come back, none is before the rows, and their number is small. -/
theorem compressed_of_back (h : ∀ t ∈ triplets, t.InRange NSide inputSize)
    (hsize : inputSize < indexScale) (hcount : triplets.length < 2 ^ 32)
    {before : List (Tri R)} {rows : List (ℕ × List (Tri R))}
    (hc : Compressed (generateCacheFromTriplets NSide w) before rows)
    (hflat : before ++ rows.flatMap Prod.snd = w.triplets_)
    (hrows : ∀ row ∈ rows, row.2 ≠ [] ∧ ∀ t ∈ row.2, t.h = row.1) {ts : List (Tri R)}
    (hts : (generateCacheFromTriplets NSide w).getTriplets = .ok ts) (hperm : ts.Perm triplets) :
    before = [] ∧ triplets.length < 2 ^ 31 := by
  have hlen : (before ++ rows.flatMap Prod.snd).length = triplets.length := by
    rw [hflat, w.perm.length_eq]
  by_cases hsmall : triplets.length < 2 ^ 31
  · rw [hc.getTriplets (small_rows w h hsize hsmall hflat hrows)] at hts
    have hback := hperm.length_eq
    rw [← Except.ok.inj hts, ← hlen, List.length_append] at hback
    have hsame : (rows.flatMap fun row => row.2.map fun t => Tri.ofSizes row.1 t.f t.v).length =
        (rows.flatMap Prod.snd).length := by
      simp [List.length_flatMap]
    exact ⟨List.eq_nil_of_length_eq_zero (by omega), hsmall⟩
  · obtain rfl | ⟨pre, row, rfl⟩ := List.eq_nil_or_concat' rows
    · -- without rows there is nothing to come back
      have hnil : ts = [] := by
        rw [CompressedRows.getTriplets, hc.nRows] at hts
        exact (Except.ok.inj hts).symm
      rw [hnil] at hperm
      have := hperm.length_eq
      rw [List.length_nil] at this
      omega
    · exact absurd hts (hc.getTriplets_wide (hrows row (by simp)).1 (by omega) (by omega) ts)

/-- The triplets come back exactly if the first row is kept and their number is one of 32 bits with
a sign. -/
theorem triplets_back_iff (h : ∀ t ∈ triplets, t.InRange NSide inputSize)
    (hsize : inputSize < indexScale) (hcount : triplets.length < 2 ^ 32) :
    (∃ ts, (generateCacheFromTriplets NSide w).getTriplets = .ok ts ∧ ts.Perm triplets ∧
        ts.Pairwise fun a b => a.i ≤ b.i) ↔
      FirstRowKept triplets ∧ triplets.length < 2 ^ 31 := by
  constructor
  · rintro ⟨ts, hts, hperm, -⟩
    by_cases hkept : FirstRowKept triplets
    · exact ⟨hkept, (compressed_of_back w h hsize hcount (compressed_rows NSide w h hsize hkept)
        (flatMap_groupRows Tri.h w.triplets_) (fun _ hrow => mem_groupRows Tri.h hrow) hts
        hperm).2⟩
    · obtain ⟨t, rest, htriplets, heq⟩ := head_eq w h hsize hkept
      obtain ⟨before, rows, hgroups, hc⟩ := compressed_of_eq NSide rest heq
      rw [← htriplets] at hgroups hc
      have hflat : before ++ rows.flatMap Prod.snd = w.triplets_ := by
        conv_rhs => rw [← flatMap_groupRows Tri.h w.triplets_, hgroups]
        rfl
      have hrows : ∀ row ∈ rows, row.2 ≠ [] ∧ ∀ t ∈ row.2, t.h = row.1 := fun row hrow =>
        mem_groupRows Tri.h (hgroups ▸ List.mem_cons_of_mem _ hrow)
      have hbefore := (compressed_of_back w h hsize hcount hc hflat hrows hts hperm).1
      exact absurd hbefore (mem_groupRows Tri.h (hgroups ▸ List.mem_cons_self)).1
  · rintro ⟨hkept, hcount⟩
    refine ⟨w.triplets_, getTriplets_ok w h hsize hkept hcount, w.perm, ?_⟩
    apply (sorted_rows w h hsize).imp_of_mem
    intro a b ha hb hle
    have hai := h a (w.perm.mem_iff.mp ha)
    have hbi := h b (w.perm.mem_iff.mp hb)
    have := hai.i_nonneg
    have := hbi.i_nonneg
    rw [hai.h_eq, hbi.h_eq] at hle
    omega

/-- The reads stay within the recorded columns exactly if these are more than each index. -/
theorem reads_iff (h : ∀ t ∈ triplets, t.InRange NSide inputSize)
    (hsize : inputSize < indexScale) (hkept : FirstRowKept triplets)
    (hcount : triplets.length < 2 ^ 31) :
    (∀ iRow < (generateCacheFromTriplets NSide w).nRows, ∀ outIdx colPtrs,
      (generateCacheFromTriplets NSide w).row iRow = .ok (outIdx, colPtrs) →
        ∀ p ∈ colPtrs, ∀ iCol, (generateCacheFromTriplets NSide w).column p = .ok iCol →
          iCol < (generateCacheFromTriplets NSide w).nCols) ↔
      ∀ t ∈ triplets, t.j < triplets.length := by
  have hc := compressed_rows NSide w h hsize hkept
  have hs := small_groupRows w h hsize hcount
  -- the number of columns that is kept is the number of triplets, whatever the other grid is
  have hcols : (generateCacheFromTriplets NSide w).nCols = triplets.length := w.perm.length_eq
  have hlt {t : Tri R} (ht : t ∈ triplets) : t.f < triplets.length ↔ t.j < triplets.length := by
    have := (h t ht).j_nonneg
    rw [(h t ht).f_eq hsize]
    omega
  rw [hcols]
  constructor
  · intro hreads t ht
    have hmem : t ∈ (groupRows Tri.h w.triplets_).flatMap Prod.snd := by
      rw [flatMap_groupRows]
      exact w.perm.mem_iff.mpr ht
    obtain ⟨row, hrow, htrow⟩ := List.mem_flatMap.mp hmem
    obtain ⟨pre, post, hrows⟩ := List.append_of_mem hrow
    rw [hrows] at hc hs
    obtain ⟨p, hp, hcol⟩ := hc.column_of_mem hs htrow
    have hiRow : pre.length < (generateCacheFromTriplets NSide w).nRows := by
      rw [hc.nRows, List.length_append, List.length_cons]
      omega
    exact (hlt ht).mp (hreads pre.length hiRow _ _ (hc.row_eq hs) p hp _ hcol)
  · intro hcolumns iRow hiRow outIdx colPtrs hrow p hp iCol hcol
    rw [hc.nRows] at hiRow
    have hsplit := List.take_append_drop iRow (groupRows Tri.h w.triplets_)
    rw [List.drop_eq_getElem_cons hiRow] at hsplit
    have hlen : ((groupRows Tri.h w.triplets_).take iRow).length = iRow :=
      List.length_take_of_le hiRow.le
    rw [← hsplit] at hc hs
    have heq := hc.row_eq hs
    rw [hlen, hrow] at heq
    obtain ⟨-, rfl⟩ := Prod.mk.inj (Except.ok.inj heq)
    obtain ⟨t, ht, hcol'⟩ := hc.exists_column hs hp
    obtain rfl := Except.ok.inj (hcol.symm.trans hcol')
    exact (hlt (mem_of_row w h (List.getElem_mem hiRow) ht).1).mpr
      (hcolumns t (mem_of_row w h (List.getElem_mem hiRow) ht).1)

theorem nside2npix_eq (hside : 12 * NSide ^ 2 < 2 ^ 64) : nside2npix NSide = 12 * NSide ^ 2 := by
  have hmul : NSide * NSide * 12 = 12 * NSide ^ 2 := by ring
  rw [nside2npix, hmul, Nat.mod_eq_of_lt hside]

theorem sum_row [Semiring R] (h : ∀ t ∈ triplets, t.InRange NSide inputSize)
    (hsize : inputSize < indexScale) {row : ℕ × List (Tri R)}
    (hrow : row ∈ groupRows Tri.h w.triplets_) (field : List R) :
    (row.2.map (term field)).sum =
      ((triplets.filter (·.i = (row.1 : ℤ))).map fun t => t.v * field.getD t.j.toNat 0).sum := by
  have hnodup := (pairwise_groupRows (sorted_rows w h hsize)).imp (fun hlt => ne_of_lt hlt)
  have hentries : w.triplets_.filter (·.h = row.1) = row.2 := by
    conv_lhs => rw [← flatMap_groupRows Tri.h w.triplets_]
    exact filter_eq_of_mem (fun row hrow => (mem_groupRows Tri.h hrow).2) hnodup hrow
  have hindex : w.triplets_.filter (·.h = row.1) = w.triplets_.filter (·.i = (row.1 : ℤ)) := by
    apply List.filter_congr
    intro t ht
    have ht := h t (w.perm.mem_iff.mp ht)
    have := ht.i_nonneg
    rw [ht.h_eq]
    exact decide_eq_decide.mpr (by omega)
  have hterms : row.2.map (term field) =
      row.2.map fun t => t.v * field.getD t.j.toNat 0 := by
    apply List.map_congr_left
    intro t ht
    rw [term, (mem_of_row w h hrow ht).2.f_eq hsize]
  rw [hterms, ← hentries, hindex]
  exact ((w.perm.filter _).map _).sum_eq

theorem column_lt (h : ∀ t ∈ triplets, t.InRange NSide inputSize) (hsize : inputSize < indexScale)
    {row : ℕ × List (Tri R)} (hrow : row ∈ groupRows Tri.h w.triplets_) {t : Tri R}
    (ht : t ∈ row.2) : t.f < inputSize := by
  have ht := (mem_of_row w h hrow ht).2
  have := ht.j_lt
  have := ht.j_nonneg
  rw [ht.f_eq hsize]
  omega

theorem mem_rowKeys_iff (h : ∀ t ∈ triplets, t.InRange NSide inputSize) (i : ℕ) :
    i ∈ (groupRows Tri.h w.triplets_).map Prod.fst ↔ ∃ t ∈ triplets, t.i = (i : ℤ) := by
  rw [List.mem_map]
  constructor
  · rintro ⟨row, hrow, rfl⟩
    obtain ⟨hne, hkeys⟩ := mem_groupRows Tri.h hrow
    obtain ⟨t, ht⟩ := List.exists_mem_of_ne_nil _ hne
    obtain ⟨htriplet, hrange⟩ := mem_of_row w h hrow ht
    have := hrange.i_nonneg
    refine ⟨t, htriplet, ?_⟩
    rw [← hkeys t ht, hrange.h_eq]
    omega
  · rintro ⟨t, ht, hti⟩
    have hmem : t ∈ (groupRows Tri.h w.triplets_).flatMap Prod.snd := by
      rw [flatMap_groupRows]
      exact w.perm.mem_iff.mpr ht
    obtain ⟨row, hrow, htrow⟩ := List.mem_flatMap.mp hmem
    refine ⟨row, hrow, ?_⟩
    rw [← (mem_groupRows Tri.h hrow).2 t htrow, (h t ht).h_eq]
    omega

theorem rowKey_lt (h : ∀ t ∈ triplets, t.InRange NSide inputSize) {row : ℕ × List (Tri R)}
    (hrow : row ∈ groupRows Tri.h w.triplets_) : row.1 < 12 * NSide ^ 2 := by
  obtain ⟨t, ht, hti⟩ := (mem_rowKeys_iff w h row.1).mp (List.mem_map_of_mem hrow)
  have := (h t ht).i_lt
  zify
  omega

theorem product_ok [Semiring R] (h : ∀ t ∈ triplets, t.InRange NSide inputSize)
    (hsize : inputSize < indexScale) (hkept : FirstRowKept triplets)
    (hcount : triplets.length < 2 ^ 31) (hside : 12 * NSide ^ 2 < 2 ^ 64) {field : List R}
    (hfield : field.length = inputSize) (missing : R) :
    ∃ out, (generateCacheFromTriplets NSide w).interpolate field (12 * NSide ^ 2) missing =
        .ok out ∧
      out.length = 12 * NSide ^ 2 ∧
      ∀ i < 12 * NSide ^ 2, out[i]? =
        some (if ∃ t ∈ triplets, t.i = (i : ℤ) then
            ((triplets.filter (·.i = (i : ℤ))).map fun t => t.v * field.getD t.j.toNat 0).sum
          else missing) := by
  have hc := compressed_rows NSide w h hsize hkept
  have hs := small_groupRows w h hsize hcount
  have hout : (generateCacheFromTriplets NSide w).nOutRows = 12 * NSide ^ 2 := nside2npix_eq hside
  have hnodup := (pairwise_groupRows (sorted_rows w h hsize)).imp (fun hlt => ne_of_lt hlt)
  have hcells : ((groupRows Tri.h w.triplets_).map fun row =>
      (row.1, (row.2.map (term field)).sum)).map Prod.fst =
        (groupRows Tri.h w.triplets_).map Prod.fst := by
    rw [List.map_map]
    rfl
  rw [← hout]
  -- each row sets its cell to zero before it adds; the cells of no row keep the missing value
  refine ⟨_, hc.interpolate hs (fun row hrow t ht => hfield ▸ column_lt w h hsize hrow ht)
    (fun row hrow => hout ▸ rowKey_lt w h hrow) missing, ?_, fun i hi => ?_⟩
  · rw [length_foldl_set, List.length_replicate]
  · split
    · next hex =>
      obtain ⟨row, hrow, hkey⟩ := List.mem_map.mp ((mem_rowKeys_iff w h i).mpr hex)
      have hcell := getElem?_foldl_set_of_mem (List.replicate _ missing)
        (hcells ▸ hnodup) (List.mem_map_of_mem hrow)
        (by rw [List.length_replicate, hkey]; exact hi)
      rw [← hkey, ← sum_row w h hsize hrow]
      exact hcell
    · next hnone =>
      have hnot := mt (mem_rowKeys_iff w h i).mp hnone
      rw [getElem?_foldl_set_of_notMem (hcells ▸ hnot), List.getElem?_replicate, if_pos hi]

/-- Interpolation is the sparse product exactly if the number of points is one of 64 bits, that of
the triplets one of 32 bits with a sign that exceeds each input index, and the first row is not the
one with the index that stands for none. -/
theorem isSparseProduct_iff [Semiring R] (NSide inputSize : ℕ) (triplets : List (Tri R))
    (w : FesomInterpolationWeights triplets) (h : ∀ t ∈ triplets, t.InRange NSide inputSize)
    (hsize : inputSize < indexScale) (hcount : triplets.length < 2 ^ 32) :
    IsSparseProduct NSide inputSize w ↔
      12 * NSide ^ 2 < 2 ^ 64 ∧ triplets.length < 2 ^ 31 ∧
        (∀ t ∈ triplets, t.j < triplets.length) ∧ FirstRowKept triplets := by
  constructor
  · intro hw
    obtain ⟨hkept, hlen⟩ := (triplets_back_iff w h hsize hcount).mp hw.triplets
    refine ⟨?_, hlen, (reads_iff w h hsize hkept hlen).mp hw.reads, hkept⟩
    obtain ⟨out, hout, -, -⟩ := hw.product (List.replicate inputSize 0) 0 List.length_replicate
    by_contra hside
    have hne : 12 * NSide ^ 2 ≠ (generateCacheFromTriplets NSide w).nOutRows := by
      have : nside2npix NSide < 2 ^ 64 := Nat.mod_lt _ (by decide)
      change _ ≠ nside2npix NSide
      omega
    rw [CompressedRows.interpolate, if_pos hne] at hout
    cases hout
  · rintro ⟨hside, hlen, hcolumns, hkept⟩
    constructor
    · exact fun field missing hfield => product_ok w h hsize hkept hlen hside hfield missing
    · exact (reads_iff w h hsize hkept hlen).mpr hcolumns
    · exact (triplets_back_iff w h hsize hcount).mpr ⟨hkept, hlen⟩

/-- Two rows of the twelve points of the coarsest grid. -/
theorem isSparseProduct_two :
    @IsSparseProduct ℤ _ 1 2 [⟨0, 0, 1⟩, ⟨5, 1, 2⟩]
      ⟨[⟨0, 0, 1⟩, ⟨5, 1, 2⟩], .refl _, by decide⟩ := by
  apply (isSparseProduct_iff 1 2 [⟨0, 0, 1⟩, ⟨5, 1, 2⟩] _ _ (by decide) (by decide)).mpr
  · refine ⟨by decide, by decide, by decide, .inl ⟨⟨0, 0, 1⟩, by decide, by decide⟩⟩
  · intro t ht
    obtain rfl | rfl : t = ⟨0, 0, 1⟩ ∨ t = ⟨5, 1, 2⟩ := by simpa using ht
    · constructor <;> decide
    · constructor <;> decide

/-- One weight for the last of six input points: the cache records a single column. -/
theorem interpolate_column_outside :
    (∀ t ∈ [(⟨0, 5, 1⟩ : Tri ℤ)], t.InRange 1 6) ∧
      ¬ @IsSparseProduct ℤ _ 1 6 [⟨0, 5, 1⟩]
        ⟨[⟨0, 5, 1⟩], .refl _, List.pairwise_singleton _ _⟩ := by
  constructor
  · intro t ht
    obtain rfl : t = ⟨0, 5, 1⟩ := by simpa using ht
    constructor <;> decide
  · intro hw
    have hread := hw.reads 0 (by decide) 0 [0] rfl 0 (by decide) 5 rfl
    exact absurd hread (by decide)

end

end Multio.Action.InterpolateFesom
