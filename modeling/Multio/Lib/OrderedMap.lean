import Mathlib.Order.Defs.LinearOrder
import Mathlib.Data.Finset.Card
import Mathlib.Algebra.BigOperators.Group.Finset.Basic

namespace Multio.Lib

variable {κ ν : Type} [LinearOrder κ]

structure OrderedMap (κ ν : Type) [LinearOrder κ] where
  entries : List (κ × ν)
  sorted : entries.Pairwise (fun a b => a.1 < b.1)

namespace OrderedMap

def lookup (k : κ) : List (κ × ν) → Option ν
  | [] => none
  | (k', v) :: es => if k = k' then some v else lookup k es

def insertEntry (k : κ) (v : ν) : List (κ × ν) → List (κ × ν)
  | [] => [(k, v)]
  | (k', v') :: es =>
    if k < k' then (k, v) :: (k', v') :: es
    else if k = k' then (k, v) :: es
    else (k', v') :: insertEntry k v es

theorem mem_insertEntry {k : κ} {v : ν} {es : List (κ × ν)} {e : κ × ν}
    (h : e ∈ insertEntry k v es) : e = (k, v) ∨ e ∈ es := by
  induction es with
  | nil => simpa [insertEntry] using h
  | cons e' es ih =>
    rw [insertEntry] at h
    split_ifs at h with hlt heq
    · simpa using h
    · rcases List.mem_cons.mp h with h | h
      · exact Or.inl h
      · exact Or.inr (List.mem_cons_of_mem _ h)
    · rcases List.mem_cons.mp h with h | h
      · exact Or.inr (h ▸ List.mem_cons_self)
      · exact (ih h).imp id (List.mem_cons_of_mem _)

theorem sorted_insertEntry (k : κ) (v : ν) {es : List (κ × ν)}
    (h : es.Pairwise (fun a b => a.1 < b.1)) :
    (insertEntry k v es).Pairwise (fun a b => a.1 < b.1) := by
  induction es with
  | nil => simp [insertEntry]
  | cons e es ih =>
    obtain ⟨hhead, htail⟩ := List.pairwise_cons.mp h
    rw [insertEntry]
    split_ifs with hlt heq
    · refine List.pairwise_cons.mpr ⟨?_, h⟩
      intro e' he'
      rcases List.mem_cons.mp he' with rfl | he'
      · exact hlt
      · exact hlt.trans (hhead e' he')
    · subst heq
      exact List.pairwise_cons.mpr ⟨hhead, htail⟩
    · refine List.pairwise_cons.mpr ⟨?_, ih htail⟩
      intro e' he'
      rcases mem_insertEntry he' with rfl | he'
      · exact lt_of_le_of_ne (not_lt.mp hlt) (Ne.symm heq)
      · exact hhead e' he'

theorem lookup_insertEntry (k k' : κ) (v : ν) (es : List (κ × ν)) :
    lookup k' (insertEntry k v es) = if k' = k then some v else lookup k' es := by
  induction es with
  | nil => rfl
  | cons e es ih =>
    rw [insertEntry]
    by_cases hlt : k < e.1
    · rw [if_pos hlt]
      rfl
    · rw [if_neg hlt]
      by_cases heq : k = e.1
      · rw [if_pos heq, lookup, lookup, heq]
        split_ifs <;> rfl
      · rw [if_neg heq, lookup, ih, lookup]
        by_cases hk : k' = e.1
        · rw [if_pos hk, if_pos hk, if_neg (fun h => heq (h.symm.trans hk))]
        · rw [if_neg hk, if_neg hk]

def empty : OrderedMap κ ν := ⟨[], List.Pairwise.nil⟩

instance : EmptyCollection (OrderedMap κ ν) := ⟨empty⟩
instance : Inhabited (OrderedMap κ ν) := ⟨empty⟩

def find? (m : OrderedMap κ ν) (k : κ) : Option ν := lookup k m.entries

def contains (m : OrderedMap κ ν) (k : κ) : Bool := (m.find? k).isSome

def size (m : OrderedMap κ ν) : ℕ := m.entries.length

def insert (m : OrderedMap κ ν) (k : κ) (v : ν) : OrderedMap κ ν :=
  ⟨insertEntry k v m.entries, sorted_insertEntry k v m.sorted⟩

def emplace (m : OrderedMap κ ν) (k : κ) (v : ν) : OrderedMap κ ν :=
  if m.contains k then m else m.insert k v

/-- Insert or assign the entries of a list, one after the other. -/
def insertAll (m : OrderedMap κ ν) (es : List (κ × ν)) : OrderedMap κ ν :=
  es.foldl (fun m e => m.insert e.1 e.2) m

def erase (m : OrderedMap κ ν) (k : κ) : OrderedMap κ ν :=
  ⟨m.entries.filter (fun e => e.1 ≠ k), m.sorted.filter _⟩

def keys (m : OrderedMap κ ν) : Finset κ := (m.entries.map Prod.fst).toFinset

@[simp] theorem find?_empty (k : κ) : (∅ : OrderedMap κ ν).find? k = none := rfl

@[simp] theorem find?_insert (m : OrderedMap κ ν) (k k' : κ) (v : ν) :
    (m.insert k v).find? k' = if k' = k then some v else m.find? k' :=
  lookup_insertEntry k k' v m.entries

theorem find?_insertAll_of_not_mem (m : OrderedMap κ ν) {k : κ} {es : List (κ × ν)}
    (h : k ∉ es.map Prod.fst) : (m.insertAll es).find? k = m.find? k := by
  induction es generalizing m with
  | nil => rfl
  | cons e es ih =>
    rw [List.map_cons, List.mem_cons, not_or] at h
    rw [insertAll, List.foldl_cons]
    apply (ih (m.insert e.1 e.2) h.2).trans
    rw [find?_insert, if_neg h.1]

/-- Where the keys of a list differ, every entry of it is found afterwards. -/
theorem find?_insertAll_of_mem (m : OrderedMap κ ν) {k : κ} {v : ν} {es : List (κ × ν)}
    (hnodup : (es.map Prod.fst).Nodup) (h : (k, v) ∈ es) :
    (m.insertAll es).find? k = some v := by
  induction es generalizing m with
  | nil => exact absurd h List.not_mem_nil
  | cons e es ih =>
    rw [List.map_cons, List.nodup_cons] at hnodup
    rw [insertAll, List.foldl_cons]
    cases List.mem_cons.mp h with
    | inl heq =>
      subst heq
      apply (find?_insertAll_of_not_mem (m.insert k v) hnodup.1).trans
      rw [find?_insert, if_pos rfl]
    | inr hmem => exact ih (m.insert e.1 e.2) hnodup.2 hmem

theorem insertAll_flatMap {α : Type} (f : α → List (κ × ν)) (as : List α) (m : OrderedMap κ ν) :
    as.foldl (fun m a => m.insertAll (f a)) m = m.insertAll (as.flatMap f) := by
  simp only [insertAll, List.foldl_flatMap]

theorem not_contains_iff {m : OrderedMap κ ν} {k : κ} :
    m.contains k = false ↔ m.find? k = none := by
  rw [contains, Option.isSome_eq_false_iff, Option.isNone_iff_eq_none]

theorem emplace_of_none {m : OrderedMap κ ν} {k : κ} (v : ν) (h : m.find? k = none) :
    m.emplace k v = m.insert k v := by
  rw [emplace, not_contains_iff.mpr h]
  rfl

theorem lookup_filter_ne (k k' : κ) (es : List (κ × ν)) :
    lookup k' (es.filter (fun e => e.1 ≠ k)) = if k' = k then none else lookup k' es := by
  induction es with
  | nil => simp [lookup]
  | cons e es ih =>
    by_cases he : e.1 = k
    · rw [List.filter_cons_of_neg (by simpa using he), ih, lookup, he]
      split_ifs <;> rfl
    · rw [List.filter_cons_of_pos (by simpa using he), lookup, ih, lookup]
      by_cases hk : k' = e.1
      · rw [if_pos hk, if_pos hk, if_neg (fun h => he (hk ▸ h))]
      · rw [if_neg hk, if_neg hk]

@[simp] theorem find?_erase (m : OrderedMap κ ν) (k k' : κ) :
    (m.erase k).find? k' = if k' = k then none else m.find? k' :=
  lookup_filter_ne k k' m.entries

theorem lookup_eq_some_iff {k : κ} {v : ν} {es : List (κ × ν)}
    (hs : es.Pairwise (fun a b => a.1 < b.1)) : lookup k es = some v ↔ (k, v) ∈ es := by
  induction es with
  | nil => simp [lookup]
  | cons e es ih =>
    obtain ⟨hhead, htail⟩ := List.pairwise_cons.mp hs
    rw [lookup, List.mem_cons]
    by_cases hk : k = e.1
    · rw [if_pos hk]
      constructor
      · intro h
        left
        rw [hk, ← Option.some.inj h]
      · rintro (rfl | h)
        · rfl
        · exact absurd (hhead (k, v) h) (not_lt.mpr hk.le)
    · rw [if_neg hk, ih htail]
      constructor
      · exact Or.inr
      · rintro (rfl | h)
        · exact absurd rfl hk
        · exact h

theorem find?_eq_some_iff {m : OrderedMap κ ν} {k : κ} {v : ν} :
    m.find? k = some v ↔ (k, v) ∈ m.entries := lookup_eq_some_iff m.sorted

theorem ext_find? {m m' : OrderedMap κ ν} (h : ∀ k, m.find? k = m'.find? k) : m = m' := by
  have hmem : ∀ e, e ∈ m.entries ↔ e ∈ m'.entries := fun e => by
    rw [← find?_eq_some_iff (k := e.1), ← find?_eq_some_iff (k := e.1), h]
  have hnodup : ∀ m : OrderedMap κ ν, m.entries.Nodup := fun m =>
    m.sorted.imp fun hlt heq => hlt.ne (congrArg Prod.fst heq)
  have hperm := (List.perm_ext_iff_of_nodup (hnodup m) (hnodup m')).mpr hmem
  have hentries : m.entries = m'.entries :=
    hperm.eq_of_pairwise (fun _ _ _ _ hlt hgt => absurd hgt hlt.not_gt) m.sorted m'.sorted
  cases m
  cases m'
  cases hentries
  rfl

theorem insertEntry_of_lookup {k : κ} {v : ν} {es : List (κ × ν)}
    (hs : es.Pairwise (fun a b => a.1 < b.1)) (h : lookup k es = some v) :
    insertEntry k v es = es := by
  induction es with
  | nil => cases h
  | cons e es ih =>
    obtain ⟨hhead, htail⟩ := List.pairwise_cons.mp hs
    rw [lookup] at h
    rw [insertEntry]
    by_cases heq : k = e.1
    · rw [if_pos heq, Option.some.injEq] at h
      rw [if_neg (by rw [heq]; exact lt_irrefl _), if_pos heq, heq, ← h]
    · rw [if_neg heq] at h
      have hlt := hhead _ ((lookup_eq_some_iff htail).mp h)
      rw [if_neg (not_lt_of_gt hlt), if_neg heq, ih htail h]

theorem insert_of_find? {m : OrderedMap κ ν} {k : κ} {v : ν} (h : m.find? k = some v) :
    m.insert k v = m := by
  rw [insert]
  congr 1
  exact insertEntry_of_lookup m.sorted h

theorem mem_keys {m : OrderedMap κ ν} {k : κ} : k ∈ m.keys ↔ ∃ v, m.find? k = some v := by
  simp only [keys, List.mem_toFinset, List.mem_map, find?_eq_some_iff]
  constructor
  · rintro ⟨e, he, rfl⟩
    exact ⟨e.2, he⟩
  · rintro ⟨v, h⟩
    exact ⟨(k, v), h, rfl⟩

theorem keys_nodup (m : OrderedMap κ ν) : (m.entries.map Prod.fst).Nodup := by
  rw [List.Nodup, List.pairwise_map]
  exact m.sorted.imp fun h => h.ne

theorem size_eq_card (m : OrderedMap κ ν) : m.size = m.keys.card := by
  rw [keys, List.toFinset_card_of_nodup m.keys_nodup, List.length_map, size]

@[simp] theorem keys_insert (m : OrderedMap κ ν) (k : κ) (v : ν) :
    (m.insert k v).keys = Insert.insert k m.keys := by
  ext k'
  rw [Finset.mem_insert, mem_keys, mem_keys]
  simp only [find?_insert]
  split_ifs with h <;> simp [h]

theorem sum_keys {β : Type} [AddCommMonoid β] (m : OrderedMap κ ν) (g : κ → β) :
    ∑ k ∈ m.keys, g k = (m.entries.map fun e => g e.1).sum := by
  rw [keys, List.sum_toFinset g m.keys_nodup, List.map_map]
  rfl

section

variable {ν' : Type} {R : ν → ν' → Prop}

def Related (R : ν → ν' → Prop) (m : OrderedMap κ ν) (m' : OrderedMap κ ν') : Prop :=
  List.Forall₂ (fun e e' => e.1 = e'.1 ∧ R e.2 e'.2) m.entries m'.entries

theorem related_empty : Related R (empty : OrderedMap κ ν) empty := List.Forall₂.nil

theorem related_insertEntry {es : List (κ × ν)} {es' : List (κ × ν')}
    (h : List.Forall₂ (fun e e' => e.1 = e'.1 ∧ R e.2 e'.2) es es') (k : κ) {v : ν} {v' : ν'}
    (hv : R v v') :
    List.Forall₂ (fun e e' => e.1 = e'.1 ∧ R e.2 e'.2) (insertEntry k v es)
      (insertEntry k v' es') := by
  induction h with
  | nil => exact .cons ⟨rfl, hv⟩ .nil
  | cons he hes ih =>
    rw [insertEntry, insertEntry, he.1]
    split_ifs with hlt heq
    · exact .cons ⟨rfl, hv⟩ (.cons ⟨rfl, he.2⟩ hes)
    · exact .cons ⟨rfl, hv⟩ hes
    · exact .cons ⟨rfl, he.2⟩ ih

theorem Related.insert {m : OrderedMap κ ν} {m' : OrderedMap κ ν'} (h : Related R m m') (k : κ)
    {v : ν} {v' : ν'} (hv : R v v') : Related R (m.insert k v) (m'.insert k v') :=
  related_insertEntry h k hv

theorem Related.find? {m : OrderedMap κ ν} {m' : OrderedMap κ ν'} (h : Related R m m') (k : κ) :
    Option.Rel R (m.find? k) (m'.find? k) := by
  have hlookup : ∀ {es : List (κ × ν)} {es' : List (κ × ν')},
      List.Forall₂ (fun e e' => e.1 = e'.1 ∧ R e.2 e'.2) es es' →
      Option.Rel R (lookup k es) (lookup k es') := by
    intro es es' hes
    induction hes with
    | nil => exact .none
    | cons he hes ih =>
      rw [lookup, lookup, he.1]
      split_ifs
      · exact .some he.2
      · exact ih
  exact hlookup h

end

end OrderedMap
end Multio.Lib
