import Mathlib.Data.List.Nodup
import Mathlib.Data.Nat.Basic
import Mathlib.Order.Lattice

namespace Multio.Lib

variable {ι α β : Type} [DecidableEq ι] (key : α → ι)

/-- An entry in front of the rows: it belongs to the first one if that has its key. -/
def addEntry (a : α) : List (ι × List α) → List (ι × List α)
  | [] => [(key a, [a])]
  | (k, g) :: rows => if key a = k then (k, a :: g) :: rows else (key a, [a]) :: (k, g) :: rows

def groupRows (as : List α) : List (ι × List α) := as.foldr (addEntry key) []

/-- The keys of rows that begin at the place `o`, with the places at which they start. -/
def rowMarks : ℕ → List (ι × List α) → List (ι × ℕ)
  | _, [] => []
  | o, (k, g) :: rows => (k, o) :: rowMarks (o + g.length) rows

/-- The marks of rows less the first one, if its key is `prev`. -/
def marksAfter (prev : ι) (o : ℕ) : List (ι × List α) → List (ι × ℕ)
  | [] => []
  | (k, g) :: rows =>
    if k = prev then rowMarks (o + g.length) rows else (k, o) :: rowMarks (o + g.length) rows

/-- One pass over the entries: each change of the key is marked, starting from the key `prev`. -/
def changes (prev : ι) (o : ℕ) : List α → List (ι × ℕ)
  | [] => []
  | a :: as =>
    if key a = prev then changes prev (o + 1) as
    else (key a, o) :: changes (key a) (o + 1) as

theorem groupRows_cons (a : α) (as : List α) :
    groupRows key (a :: as) = addEntry key a (groupRows key as) := rfl

theorem flatMap_addEntry (a : α) (rows : List (ι × List α)) :
    (addEntry key a rows).flatMap Prod.snd = a :: rows.flatMap Prod.snd := by
  unfold addEntry
  split
  · rfl
  · split
    · rfl
    · rfl

theorem flatMap_groupRows (as : List α) : (groupRows key as).flatMap Prod.snd = as := by
  induction as with
  | nil => rfl
  | cons a as ih => rw [groupRows_cons, flatMap_addEntry, ih]

theorem mem_groupRows {as : List α} {row : ι × List α} (h : row ∈ groupRows key as) :
    row.2 ≠ [] ∧ ∀ a ∈ row.2, key a = row.1 := by
  induction as generalizing row with
  | nil => cases h
  | cons a as ih =>
    rw [groupRows_cons] at h
    unfold addEntry at h
    split at h
    · obtain rfl := List.mem_singleton.mp h
      simp
    · next k g rows hrows =>
      have hfirst := @ih (k, g) (hrows ▸ List.mem_cons_self)
      split at h
      · next hkey =>
        obtain rfl | h := List.mem_cons.mp h
        · refine ⟨List.cons_ne_nil _ _, List.forall_mem_cons.mpr ⟨hkey, hfirst.2⟩⟩
        · exact ih (hrows ▸ List.mem_cons_of_mem _ h)
      · obtain rfl | h := List.mem_cons.mp h
        · simp
        · exact ih (hrows ▸ h)

theorem head_groupRows (a : α) (as : List α) :
    ∃ g rows, groupRows key (a :: as) = (key a, g) :: rows := by
  rw [groupRows_cons]
  unfold addEntry
  split
  · exact ⟨_, _, rfl⟩
  · split
    · next g rows _ hkey => exact ⟨a :: g, rows, by rw [hkey]⟩
    · exact ⟨_, _, rfl⟩

/-- The changes are the marks of the rows, less the first one if its key is the one started
from. -/
theorem changes_eq (prev : ι) (o : ℕ) (as : List α) :
    changes key prev o as = marksAfter prev o (groupRows key as) := by
  induction as generalizing prev o with
  | nil => rfl
  | cons a as ih =>
    rw [changes, groupRows_cons, ih, ih]
    cases groupRows key as with
    | nil => rfl
    | cons row rows =>
      obtain ⟨k, g⟩ := row
      have hlen : o + (a :: g).length = o + 1 + g.length := by
        rw [List.length_cons]
        omega
      rw [addEntry, marksAfter, marksAfter]
      by_cases hkey : key a = k
      · rw [if_pos hkey, if_pos hkey.symm, marksAfter, hlen, hkey]
        by_cases hprev : k = prev
        · rw [if_pos hprev, if_pos hprev, if_pos hprev]
        · rw [if_neg hprev, if_neg hprev]
      · rw [if_neg hkey, if_neg (Ne.symm hkey), marksAfter]
        by_cases hprev : key a = prev
        · rw [if_pos hprev, if_pos hprev, if_neg (fun h => hkey (hprev.trans h.symm))]
          rfl
        · rw [if_neg hprev, if_neg hprev]
          rfl

omit [DecidableEq ι] in
theorem length_rowMarks (o : ℕ) (rows : List (ι × List α)) :
    (rowMarks o rows).length = rows.length := by
  induction rows generalizing o with
  | nil => rfl
  | cons row rows ih => rw [rowMarks, List.length_cons, ih, List.length_cons]

omit [DecidableEq ι] in
theorem rowMarks_append (o : ℕ) (pre rows : List (ι × List α)) :
    rowMarks o (pre ++ rows) =
      rowMarks o pre ++ rowMarks (o + (pre.flatMap Prod.snd).length) rows := by
  induction pre generalizing o with
  | nil => rfl
  | cons row pre ih =>
    rw [List.cons_append, rowMarks, ih, rowMarks, List.flatMap_cons, List.length_append,
      ← Nat.add_assoc]
    rfl

omit [DecidableEq ι] in
/-- With the end of the last row, the first place is where the rows begin. -/
theorem head_rowMarks (o : ℕ) (rows : List (ι × List α)) :
    ∃ places, (rowMarks o rows).map Prod.snd ++ [o + (rows.flatMap Prod.snd).length] =
      o :: places := by
  cases rows with
  | nil => exact ⟨[], rfl⟩
  | cons row rows => exact ⟨_, rfl⟩

section

variable {ι α : Type} [LinearOrder ι] {key : α → ι}

theorem pairwise_groupRows {as : List α} (h : as.Pairwise fun a b => key a ≤ key b) :
    ((groupRows key as).map Prod.fst).Pairwise (· < ·) := by
  induction as with
  | nil => exact .nil
  | cons a as ih =>
    obtain ⟨hfirst, hrest⟩ := List.pairwise_cons.mp h
    have hle : ∀ row ∈ groupRows key as, key a ≤ row.1 := by
      intro row hrow
      obtain ⟨hne, hkeys⟩ := mem_groupRows key hrow
      obtain ⟨b, hb⟩ := List.exists_mem_of_ne_nil _ hne
      rw [← hkeys b hb]
      apply hfirst b
      rw [← flatMap_groupRows key as]
      exact List.mem_flatMap.mpr ⟨row, hrow, hb⟩
    have hrows := ih hrest
    rw [groupRows_cons]
    generalize groupRows key as = rows at hle hrows
    cases rows with
    | nil => exact List.pairwise_singleton _ _
    | cons row rows =>
      obtain ⟨k, g⟩ := row
      rw [addEntry]
      split
      · exact hrows
      · next hkey =>
        have hlt : key a < k := lt_of_le_of_ne (hle _ List.mem_cons_self) hkey
        refine List.pairwise_cons.mpr ⟨fun k' hk' => ?_, hrows⟩
        obtain rfl | hk' := List.mem_cons.mp hk'
        · exact hlt
        · exact lt_trans hlt ((List.pairwise_cons.mp hrows).1 k' hk')

theorem filter_eq_of_mem {rows : List (ι × List α)}
    (hkeys : ∀ row ∈ rows, ∀ a ∈ row.2, key a = row.1) (hnodup : (rows.map Prod.fst).Nodup)
    {row : ι × List α} (hrow : row ∈ rows) :
    (rows.flatMap Prod.snd).filter (key · = row.1) = row.2 := by
  induction rows with
  | nil => cases hrow
  | cons row' rows ih =>
    obtain ⟨hfirst, hrest⟩ := List.forall_mem_cons.mp hkeys
    obtain ⟨hnot, hnodup⟩ := List.nodup_cons.mp hnodup
    rw [List.flatMap_cons, List.filter_append]
    obtain rfl | hrow := List.mem_cons.mp hrow
    · have hall : row.2.filter (key · = row.1) = row.2 :=
        List.filter_eq_self.mpr fun a ha => decide_eq_true (hfirst a ha)
      have hnone : (rows.flatMap Prod.snd).filter (key · = row.1) = [] := by
        rw [List.filter_eq_nil_iff]
        intro a ha hkey
        obtain ⟨row', hrow', ha⟩ := List.mem_flatMap.mp ha
        have heq : row'.1 = row.1 := (hrest row' hrow' a ha).symm.trans (of_decide_eq_true hkey)
        exact hnot (heq ▸ List.mem_map_of_mem hrow')
      rw [hall, hnone, List.append_nil]
    · have hne : row'.1 ≠ row.1 := fun heq => hnot (heq ▸ List.mem_map_of_mem hrow)
      have hnone : row'.2.filter (key · = row.1) = [] := by
        rw [List.filter_eq_nil_iff]
        intro a ha hkey
        exact hne ((hfirst a ha).symm.trans (of_decide_eq_true hkey))
      rw [hnone, List.nil_append]
      exact ih hrest hnodup hrow

end

theorem length_foldl_set (cells : List (ℕ × β)) (out : List β) :
    (cells.foldl (fun out c => out.set c.1 c.2) out).length = out.length := by
  induction cells generalizing out with
  | nil => rfl
  | cons c cells ih => rw [List.foldl_cons, ih, List.length_set]

theorem getElem?_foldl_set_of_notMem {cells : List (ℕ × β)} {out : List β} {i : ℕ}
    (h : i ∉ cells.map Prod.fst) :
    (cells.foldl (fun out c => out.set c.1 c.2) out)[i]? = out[i]? := by
  induction cells generalizing out with
  | nil => rfl
  | cons c cells ih =>
    rw [List.map_cons, List.mem_cons, not_or] at h
    rw [List.foldl_cons, ih h.2, List.getElem?_set_ne (Ne.symm h.1)]

theorem getElem?_foldl_set_of_mem {cells : List (ℕ × β)} (out : List β) {c : ℕ × β}
    (hnodup : (cells.map Prod.fst).Nodup) (hc : c ∈ cells) (hlt : c.1 < out.length) :
    (cells.foldl (fun out c => out.set c.1 c.2) out)[c.1]? = some c.2 := by
  induction cells generalizing out with
  | nil => cases hc
  | cons c' cells ih =>
    obtain ⟨hnot, hnodup⟩ := List.nodup_cons.mp hnodup
    rw [List.foldl_cons]
    obtain rfl | hc := List.mem_cons.mp hc
    · rw [getElem?_foldl_set_of_notMem hnot, List.getElem?_set_self hlt]
    · exact ih _ hnodup hc (by rwa [List.length_set])

end Multio.Lib
