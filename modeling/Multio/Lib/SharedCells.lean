import Multio.Lib.OrderedMap

namespace Multio.Lib

structure SharedCells (ι τ α : Type) [LinearOrder ι] where
  cells : List α
  /-- The cell and the mark of each handle. -/
  handles : OrderedMap ι (ℕ × τ)
  valid : ∀ i h, handles.find? i = some h → h.1 < cells.length

namespace SharedCells

variable {ι τ α : Type} [LinearOrder ι] (s : SharedCells ι τ α)

def empty : SharedCells ι τ α where
  cells := []
  handles := ∅
  valid i h hi := by cases hi

def mark (i : ι) : Option τ := (s.handles.find? i).map Prod.snd

def get (i : ι) : Option α := (s.handles.find? i).bind fun h => s.cells[h.1]?

def useCount (c : ℕ) : ℕ := s.handles.entries.countP fun e => e.2.1 = c

def unique (i : ι) : Bool := (s.handles.find? i).any fun h => s.useCount h.1 = 1

def make (i : ι) (v : α) (t : τ) : SharedCells ι τ α where
  cells := s.cells ++ [v]
  handles := s.handles.insert i (s.cells.length, t)
  valid k h hk := by
    rw [OrderedMap.find?_insert] at hk
    rw [List.length_append, List.length_singleton]
    split_ifs at hk
    · obtain rfl := Option.some.inj hk
      exact Nat.lt_succ_self _
    · exact Nat.lt_succ_of_lt (s.valid k h hk)

/-- The handle `i` refers to the cell of `j`. -/
def share (i j : ι) (t : τ) : SharedCells ι τ α where
  cells := s.cells
  handles := ((s.handles.find? j).map fun h => s.handles.insert i (h.1, t)).getD s.handles
  valid k h hk := by
    cases hj : s.handles.find? j with
    | none =>
      rw [hj] at hk
      exact s.valid k h hk
    | some h' =>
      rw [hj, Option.map_some, Option.getD_some, OrderedMap.find?_insert] at hk
      split_ifs at hk
      · obtain rfl := Option.some.inj hk
        exact s.valid j h' hj
      · exact s.valid k h hk

def setMark (i : ι) (t : τ) : SharedCells ι τ α := s.share i i t

def drop (i : ι) : SharedCells ι τ α where
  cells := s.cells
  handles := s.handles.erase i
  valid k h hk := by
    rw [OrderedMap.find?_erase] at hk
    split_ifs at hk
    exact s.valid k h hk

def write (i : ι) (f : α → α) : SharedCells ι τ α where
  cells := ((s.handles.find? i).map fun h => s.cells.modify h.1 f).getD s.cells
  handles := s.handles
  valid k h hk := by
    cases s.handles.find? i with
    | none => exact s.valid k h hk
    | some h' =>
      rw [Option.map_some, Option.getD_some, List.length_modify]
      exact s.valid k h hk

variable {s} {i j k : ι}

theorem find?_share {h : ℕ × τ} (hj : s.handles.find? j = some h) (t : τ) :
    (s.share i j t).handles.find? k = if k = i then some (h.1, t) else s.handles.find? k := by
  change (((s.handles.find? j).map fun h => s.handles.insert i (h.1, t)).getD s.handles).find? k = _
  rw [hj, Option.map_some, Option.getD_some, OrderedMap.find?_insert]

theorem share_of_none (hj : s.handles.find? j = none) (t : τ) : s.share i j t = s := by
  unfold share
  simp [hj]

theorem find?_setMark (t : τ) : (s.setMark k t).handles.find? i =
    (s.handles.find? i).map fun h => (h.1, if i = k then t else h.2) := by
  cases hk : s.handles.find? k with
  | none =>
    rw [setMark, share_of_none hk]
    cases hi : s.handles.find? i with
    | none => rfl
    | some h =>
      have hne : i ≠ k := by
        rintro rfl
        rw [hk] at hi
        cases hi
      rw [Option.map_some, if_neg hne]
  | some hkh =>
    rw [setMark, find?_share hk]
    split_ifs with hik
    · rw [hik, hk]
      rfl
    · cases s.handles.find? i with
      | none => rfl
      | some h => rfl

theorem useCount_eq_one_iff {h : ℕ × τ} (hi : s.handles.find? i = some h) :
    s.useCount h.1 = 1 ↔ ∀ j h', s.handles.find? j = some h' → h'.1 = h.1 → j = i := by
  set es := s.handles.entries.filter fun e => e.2.1 = h.1 with hes
  have hmem : ∀ j h', (j, h') ∈ es ↔ s.handles.find? j = some h' ∧ h'.1 = h.1 := fun j h' => by
    rw [hes, List.mem_filter, ← OrderedMap.find?_eq_some_iff, decide_eq_true_eq]
  have hself : (i, h) ∈ es := (hmem i h).mpr ⟨hi, rfl⟩
  have hcount : s.useCount h.1 = es.length := List.countP_eq_length_filter
  rw [hcount]
  constructor
  · intro hone j h' hj hcell
    obtain ⟨e, he⟩ := List.length_eq_one_iff.mp hone
    have hj' := (hmem j h').mpr ⟨hj, hcell⟩
    rw [he, List.mem_singleton] at hself hj'
    exact congrArg Prod.fst (hj'.trans hself.symm)
  · intro hall
    have hkey : ∀ e ∈ es, e.1 = i := fun e he => by
      obtain ⟨hj, hcell⟩ := (hmem e.1 e.2).mp he
      exact hall e.1 e.2 hj hcell
    have hsorted : es.Pairwise fun a b => a.1 < b.1 := s.handles.sorted.filter _
    cases hcases : es with
    | nil =>
      rw [hcases] at hself
      cases hself
    | cons e es' =>
      rw [hcases] at hkey hsorted
      cases es' with
      | nil => rfl
      | cons e' es' =>
        have hlt := (List.pairwise_cons.mp hsorted).1 e' List.mem_cons_self
        rw [hkey e List.mem_cons_self, hkey e' (by simp)] at hlt
        exact absurd hlt (lt_irrefl i)

theorem unique_iff : s.unique i = true ↔ ∃ h, s.handles.find? i = some h ∧
    ∀ j h', s.handles.find? j = some h' → h'.1 = h.1 → j = i := by
  unfold unique
  cases hi : s.handles.find? i with
  | none => simp
  | some h =>
    rw [Option.any_some, decide_eq_true_eq, useCount_eq_one_iff hi]
    constructor
    · exact fun hall => ⟨h, rfl, hall⟩
    · rintro ⟨h', heq, hall⟩
      obtain rfl := Option.some.inj heq
      exact hall

theorem exists_other {h : ℕ × τ} (hi : s.handles.find? i = some h) (hnot : s.unique i = false) :
    ∃ j h', j ≠ i ∧ s.handles.find? j = some h' ∧ h'.1 = h.1 := by
  by_contra hnone
  refine Bool.eq_false_iff.mp hnot (unique_iff.mpr ⟨h, hi, fun j h' hj hcell => ?_⟩)
  by_contra hne
  exact hnone ⟨j, h', hne, hj, hcell⟩

theorem get_of_find? {h : ℕ × τ} (hi : s.handles.find? i = some h) : s.get i = s.cells[h.1]? := by
  rw [get, hi, Option.bind_some]

theorem isSome_get : (s.get i).isSome = (s.handles.find? i).isSome := by
  cases hi : s.handles.find? i with
  | none => rw [get, hi]; rfl
  | some h =>
    rw [get_of_find? hi, List.getElem?_eq_getElem (s.valid i h hi)]
    rfl

theorem isSome_mark : (s.mark i).isSome = (s.handles.find? i).isSome := Option.isSome_map

theorem isSome_get_eq_mark : (s.get i).isSome = (s.mark i).isSome :=
  isSome_get.trans isSome_mark.symm

@[simp] theorem get_make (v : α) (t : τ) :
    (s.make i v t).get k = if k = i then some v else s.get k := by
  unfold get make
  simp only [OrderedMap.find?_insert]
  split_ifs
  · simp
  · cases hk : s.handles.find? k with
    | none => rfl
    | some h => exact List.getElem?_append_left (s.valid k h hk)

@[simp] theorem mark_make (v : α) (t : τ) :
    (s.make i v t).mark k = if k = i then some t else s.mark k := by
  unfold mark make
  simp only [OrderedMap.find?_insert]
  split_ifs
  · rfl
  · rfl

theorem get_share (hj : (s.handles.find? j).isSome) (t : τ) :
    (s.share i j t).get k = if k = i then s.get j else s.get k := by
  obtain ⟨h, hj⟩ := Option.isSome_iff_exists.mp hj
  unfold get
  rw [find?_share hj, hj]
  split_ifs
  · rfl
  · rfl

theorem mark_share (hj : (s.handles.find? j).isSome) (t : τ) :
    (s.share i j t).mark k = if k = i then some t else s.mark k := by
  obtain ⟨h, hj⟩ := Option.isSome_iff_exists.mp hj
  unfold mark
  rw [find?_share hj]
  split_ifs
  · rfl
  · rfl

@[simp] theorem get_setMark (t : τ) : (s.setMark i t).get k = s.get k := by
  cases hi : s.handles.find? i with
  | none => rw [setMark, share_of_none hi]
  | some h =>
    rw [setMark, get_share (by rw [hi]; rfl)]
    split_ifs with hk
    · rw [hk]
    · rfl

theorem mark_setMark (hi : (s.handles.find? i).isSome) (t : τ) :
    (s.setMark i t).mark k = if k = i then some t else s.mark k := mark_share hi t

@[simp] theorem get_drop : (s.drop i).get k = if k = i then none else s.get k := by
  unfold get drop
  simp only [OrderedMap.find?_erase]
  split_ifs
  · rfl
  · rfl

@[simp] theorem mark_drop : (s.drop i).mark k = if k = i then none else s.mark k := by
  unfold mark drop
  simp only [OrderedMap.find?_erase]
  split_ifs
  · rfl
  · rfl

@[simp] theorem mark_write (f : α → α) : (s.write i f).mark k = s.mark k := rfl

theorem get_write_of_eq {h h' : ℕ × τ} (hi : s.handles.find? i = some h)
    (hk : s.handles.find? k = some h') (hcell : h'.1 = h.1) (f : α → α) :
    (s.write i f).get k = (s.get k).map f := by
  have hk' : (s.write i f).handles.find? k = some h' := hk
  rw [get_of_find? hk', get_of_find? hk]
  unfold write
  simp only [hi, Option.map_some, Option.getD_some]
  rw [hcell, List.getElem?_modify_eq]
  rfl

theorem get_write_of_ne {h : ℕ × τ} (hi : s.handles.find? i = some h)
    (hcell : ∀ h', s.handles.find? k = some h' → h'.1 ≠ h.1) (f : α → α) :
    (s.write i f).get k = s.get k := by
  cases hk : s.handles.find? k with
  | none =>
    unfold get
    change ((s.handles.find? k).bind fun h => (s.write i f).cells[h.1]?) = _
    rw [hk]
    rfl
  | some h' =>
    have hk' : (s.write i f).handles.find? k = some h' := hk
    rw [get_of_find? hk', get_of_find? hk]
    unfold write
    simp only [hi, Option.map_some, Option.getD_some]
    exact List.getElem?_modify_ne _ _ (Ne.symm (hcell h' hk))

theorem exists_get_write {v : α} (hi : s.get i = some v) (hnot : s.unique i = false)
    (f : α → α) : ∃ j, j ≠ i ∧ s.get j = some v ∧ (s.write i f).get j = some (f v) := by
  obtain ⟨h, hfind⟩ : ∃ h, s.handles.find? i = some h := by
    rw [← Option.isSome_iff_exists, ← isSome_get, hi]
    rfl
  obtain ⟨j, h', hne, hj, hcell⟩ := exists_other hfind hnot
  have hsame : s.get j = some v := by rw [← hi, get_of_find? hj, get_of_find? hfind, hcell]
  refine ⟨j, hne, hsame, ?_⟩
  rw [get_write_of_eq hfind hj hcell, hsame]
  rfl

/-- What is written through the only handle of a cell changes no other handle. -/
theorem get_write (hi : s.unique i = true) (f : α → α) :
    (s.write i f).get k = if k = i then (s.get i).map f else s.get k := by
  obtain ⟨h, hfind, hall⟩ := unique_iff.mp hi
  split_ifs with hk
  · subst hk
    exact get_write_of_eq hfind hfind rfl f
  · exact get_write_of_ne hfind (fun h' hk' hcell => hk (hall k h' hk' hcell)) f

theorem get_write_of_fixed {f : α → α} (hf : ∀ v, s.get i = some v → f v = v) :
    (s.write i f).get k = s.get k := by
  cases hi : s.handles.find? i with
  | none =>
    unfold get write
    simp only [hi, Option.map_none, Option.getD_none]
  | some h =>
    by_cases hcell : ∃ h', s.handles.find? k = some h' ∧ h'.1 = h.1
    · obtain ⟨h', hk, hcell⟩ := hcell
      rw [get_write_of_eq hi hk hcell]
      have hsame : s.get k = s.get i := by rw [get_of_find? hk, get_of_find? hi, hcell]
      cases hv : s.get i with
      | none => rw [hsame, hv]; rfl
      | some v => rw [hsame, hv, Option.map_some, hf v hv]
    · exact get_write_of_ne hi (fun h' hk hcell' => hcell ⟨h', hk, hcell'⟩) f

/-- A write that no other handle sees: the handle is the only one, or the value stays the same. -/
theorem get_write_of_alone {f : α → α}
    (halone : s.unique i = true ∨ ∀ v, s.get i = some v → f v = v) :
    (s.write i f).get k = if k = i then (s.get i).map f else s.get k := by
  obtain hunique | hfixed := halone
  · exact get_write hunique f
  · rw [get_write_of_fixed hfixed]
    split_ifs with hk
    · rw [hk]
      cases hv : s.get i with
      | none => rfl
      | some v => rw [Option.map_some, hfixed v hv]
    · rfl

theorem unique_make (v : α) (t : τ) : (s.make i v t).unique i = true := by
  refine unique_iff.mpr ⟨(s.cells.length, t), ?_, fun j h' hj hcell => ?_⟩
  · exact (OrderedMap.find?_insert _ _ _ _).trans (if_pos rfl)
  · by_contra hne
    have hj' : s.handles.find? j = some h' := by
      rw [← hj]
      exact ((OrderedMap.find?_insert _ _ _ _).trans (if_neg hne)).symm
    exact (s.valid j h' hj').ne hcell

/-- A handle stays the only one of its cell if none is made to share it. -/
theorem unique_make_of_ne (hi : s.unique i = true) (hne : i ≠ k) (v : α) (t : τ) :
    (s.make k v t).unique i = true := by
  obtain ⟨h, hfind, hall⟩ := unique_iff.mp hi
  refine unique_iff.mpr ⟨h, ?_, fun j h' hj hcell => ?_⟩
  · exact ((OrderedMap.find?_insert _ _ _ _).trans (if_neg hne)).trans hfind
  · have hj' : (s.handles.insert k (s.cells.length, t)).find? j = some h' := hj
    rw [OrderedMap.find?_insert] at hj'
    split_ifs at hj'
    · obtain rfl := Option.some.inj hj'
      exact absurd hcell (s.valid i h hfind).ne'
    · exact hall j h' hj' hcell

theorem unique_share_of_ne (hi : s.unique i = true) (hne : i ≠ k) (hij : i ≠ j) (t : τ) :
    (s.share k j t).unique i = true := by
  obtain ⟨h, hfind, hall⟩ := unique_iff.mp hi
  cases hj : s.handles.find? j with
  | none =>
    rw [share_of_none hj]
    exact hi
  | some hjh =>
    refine unique_iff.mpr ⟨h, ?_, fun l h' hl hcell => ?_⟩
    · rw [find?_share hj, if_neg hne]
      exact hfind
    · rw [find?_share hj] at hl
      split_ifs at hl
      · obtain rfl := Option.some.inj hl
        exact absurd (hall j hjh hj hcell).symm hij
      · exact hall l h' hl hcell

@[simp] theorem unique_setMark (t : τ) : (s.setMark k t).unique i = s.unique i := by
  rw [Bool.eq_iff_iff, unique_iff, unique_iff]
  simp only [find?_setMark, Option.map_eq_some_iff]
  constructor
  · rintro ⟨_, ⟨h, hi, rfl⟩, hall⟩
    exact ⟨h, hi, fun j h' hj hcell => hall j _ ⟨h', hj, rfl⟩ hcell⟩
  · rintro ⟨h, hi, hall⟩
    refine ⟨_, ⟨h, hi, rfl⟩, ?_⟩
    rintro j _ ⟨h', hj, rfl⟩ hcell
    exact hall j h' hj hcell

theorem unique_drop_of_ne (hi : s.unique i = true) (hne : i ≠ k) : (s.drop k).unique i = true := by
  obtain ⟨h, hfind, hall⟩ := unique_iff.mp hi
  refine unique_iff.mpr ⟨h, ?_, fun l h' hl hcell => ?_⟩
  · exact ((OrderedMap.find?_erase _ _ _).trans (if_neg hne)).trans hfind
  · have hl' : (s.handles.erase k).find? l = some h' := hl
    rw [OrderedMap.find?_erase] at hl'
    split_ifs at hl'
    exact hall l h' hl' hcell

end SharedCells
end Multio.Lib
