import Mathlib.Data.List.Basic
import Mathlib.Data.List.Perm.Basic

namespace Multio.Lib

/-- The nodes form one list, in which those of a bucket are neighbours: the order of enumeration. -/
structure HashTable (κ ν : Type) where
  bucketCount : ℕ
  nodes : List (κ × ν) := []
  deriving Repr

/-- The hash of keys and the bucket counts that tables grow to. -/
structure HashPolicy (κ : Type) where
  hash : κ → ℕ
  nextBucketCount : ℕ → ℕ

namespace HashTable

variable {κ ν : Type}

/-- The place of a new node: before the nodes of its bucket, or before all nodes. -/
def insertNode (p : HashPolicy κ) (m : HashTable κ ν) (e : κ × ν) : HashTable κ ν :=
  let other (x : κ × ν) : Bool := p.hash x.1 % m.bucketCount ≠ p.hash e.1 % m.bucketCount
  if m.nodes.all other then { m with nodes := e :: m.nodes }
  else { m with nodes := m.nodes.takeWhile other ++ e :: m.nodes.dropWhile other }

/-- All nodes inserted anew, in their order, into `n` buckets. -/
def rehash (p : HashPolicy κ) (m : HashTable κ ν) (n : ℕ) : HashTable κ ν :=
  m.nodes.foldl (insertNode p) { bucketCount := n }

/-- The table in which `expected` more nodes find their place. -/
def grow (p : HashPolicy κ) (m : HashTable κ ν) (expected : ℕ) : HashTable κ ν :=
  if m.nodes.length + expected > m.bucketCount then
    m.rehash p (p.nextBucketCount (max (m.nodes.length + expected + 1) (2 * m.bucketCount)))
  else m

variable [DecidableEq κ]

def find? (m : HashTable κ ν) (k : κ) : Option ν :=
  (m.nodes.find? (fun e => e.1 = k)).map Prod.snd

def contains (m : HashTable κ ν) (k : κ) : Bool := (m.find? k).isSome

def insertUnique (p : HashPolicy κ) (m : HashTable κ ν) (e : κ × ν) (expected : ℕ) :
    HashTable κ ν :=
  (m.grow p expected).insertNode p e

def insertOrAssign (p : HashPolicy κ) (m : HashTable κ ν) (k : κ) (v : ν) : HashTable κ ν :=
  if m.contains k then
    { m with nodes := m.nodes.map fun e => if e.1 = k then (k, v) else e }
  else m.insertUnique p (k, v) 1

def tryEmplace (p : HashPolicy κ) (m : HashTable κ ν) (k : κ) (v : ν) : HashTable κ ν :=
  if m.contains k then m else m.insertUnique p (k, v) 1

def erase (m : HashTable κ ν) (k : κ) : HashTable κ ν :=
  { m with nodes := m.nodes.filter fun e => e.1 ≠ k }

def clear (m : HashTable κ ν) : HashTable κ ν := { m with nodes := [] }

/-- The nodes whose keys are missing are inserted; so many are expected to be. -/
def insertMissing (p : HashPolicy κ) : HashTable κ ν → ℕ → List (κ × ν) → HashTable κ ν
  | m, _, [] => m
  | m, n, e :: es =>
    if m.contains e.1 then insertMissing p m (if n = 1 then 1 else n - 1) es
    else insertMissing p (m.insertUnique p e n) 1 es

def Keyed (m : HashTable κ ν) : Prop := (m.nodes.map Prod.fst).Nodup

omit [DecidableEq κ] in
theorem insertNode_perm (p : HashPolicy κ) (m : HashTable κ ν) (e : κ × ν) :
    (m.insertNode p e).nodes.Perm (e :: m.nodes) := by
  unfold insertNode
  dsimp only
  split_ifs
  · exact List.Perm.refl _
  · apply List.perm_middle.trans
    rw [List.takeWhile_append_dropWhile]

omit [DecidableEq κ] in
theorem foldl_insertNode_perm (p : HashPolicy κ) (m : HashTable κ ν) (es : List (κ × ν)) :
    (es.foldl (insertNode p) m).nodes.Perm (es ++ m.nodes) := by
  induction es generalizing m with
  | nil => exact List.Perm.refl _
  | cons e es ih =>
    rw [List.foldl_cons]
    apply (ih _).trans
    apply (List.Perm.append_left es (insertNode_perm p m e)).trans
    exact List.perm_middle

omit [DecidableEq κ] in
theorem grow_perm (p : HashPolicy κ) (m : HashTable κ ν) (expected : ℕ) :
    (m.grow p expected).nodes.Perm m.nodes := by
  unfold grow
  split_ifs
  · have h := foldl_insertNode_perm p
      { bucketCount := p.nextBucketCount (max (m.nodes.length + expected + 1) (2 * m.bucketCount)) }
      m.nodes
    rwa [List.append_nil] at h
  · exact List.Perm.refl _

omit [DecidableEq κ] in
theorem insertUnique_perm (p : HashPolicy κ) (m : HashTable κ ν) (e : κ × ν) (expected : ℕ) :
    (m.insertUnique p e expected).nodes.Perm (e :: m.nodes) :=
  (insertNode_perm p _ e).trans ((grow_perm p m expected).cons e)

theorem Keyed.find?_eq_some_iff {m : HashTable κ ν} (h : m.Keyed) {k : κ} {v : ν} :
    m.find? k = some v ↔ (k, v) ∈ m.nodes := by
  unfold Keyed at h
  unfold find?
  induction hn : m.nodes generalizing m with
  | nil => simp
  | cons e es ih =>
    rw [hn, List.map_cons, List.nodup_cons] at h
    have ih' := ih (m := { m with nodes := es }) h.2 rfl
    rw [List.find?_cons, List.mem_cons]
    by_cases he : e.1 = k
    · rw [decide_eq_true he, Option.map_some, Option.some.injEq]
      constructor
      · rintro rfl
        exact Or.inl (Prod.ext he.symm rfl)
      · rintro (rfl | hmem)
        · rfl
        · exact absurd (List.mem_map.mpr ⟨(k, v), hmem, he.symm⟩) h.1
    · rw [decide_eq_false he]
      constructor
      · intro hv
        exact Or.inr (ih'.mp hv)
      · rintro (rfl | hmem)
        · exact absurd rfl he
        · exact ih'.mpr hmem

theorem contains_iff {m : HashTable κ ν} {k : κ} :
    m.contains k = true ↔ k ∈ m.nodes.map Prod.fst := by
  simp [contains, find?, List.find?_isSome, List.mem_map]

theorem find?_eq_none_iff {m : HashTable κ ν} {k : κ} :
    m.find? k = none ↔ k ∉ m.nodes.map Prod.fst := by
  rw [← contains_iff, contains]
  simp

omit [DecidableEq κ] in
theorem Keyed.of_perm {m : HashTable κ ν} {es : List (κ × ν)} (h : m.nodes.Perm es)
    (hes : (es.map Prod.fst).Nodup) : m.Keyed :=
  (h.map Prod.fst).nodup_iff.mpr hes

theorem Keyed.find?_of_perm {m : HashTable κ ν} (hm : m.Keyed) {es : List (κ × ν)}
    (h : m.nodes.Perm es) (k : κ) :
    m.find? k = (es.find? fun e => e.1 = k).map Prod.snd := by
  have hes : (HashTable.mk 0 es).Keyed := (h.map Prod.fst).nodup_iff.mp hm
  change _ = (HashTable.mk 0 es).find? k
  ext v
  rw [hm.find?_eq_some_iff, hes.find?_eq_some_iff, h.mem_iff]

omit [DecidableEq κ] in
theorem Keyed.insertUnique {m : HashTable κ ν} (hm : m.Keyed) (p : HashPolicy κ) {e : κ × ν}
    (he : e.1 ∉ m.nodes.map Prod.fst) (expected : ℕ) : (m.insertUnique p e expected).Keyed :=
  Keyed.of_perm (insertUnique_perm p m e expected) (List.nodup_cons.mpr ⟨he, hm⟩)

theorem Keyed.find?_insertUnique {m : HashTable κ ν} (hm : m.Keyed) (p : HashPolicy κ) {e : κ × ν}
    (he : e.1 ∉ m.nodes.map Prod.fst) (expected : ℕ) (k : κ) :
    (m.insertUnique p e expected).find? k = if k = e.1 then some e.2 else m.find? k := by
  rw [(hm.insertUnique p he expected).find?_of_perm (insertUnique_perm p m e expected),
    List.find?_cons]
  by_cases hk : e.1 = k
  · rw [decide_eq_true hk, if_pos hk.symm]
    rfl
  · rw [decide_eq_false hk, if_neg (Ne.symm hk)]
    rfl

theorem Keyed.insertOrAssign {m : HashTable κ ν} (hm : m.Keyed) (p : HashPolicy κ) (k : κ) (v : ν) :
    (m.insertOrAssign p k v).Keyed := by
  unfold HashTable.insertOrAssign
  split_ifs with hk
  · unfold Keyed
    rw [List.map_map, List.map_congr_left (g := Prod.fst)]
    · exact hm
    · intro e _
      by_cases he : e.1 = k
      · simp [he]
      · simp [he]
  · exact hm.insertUnique p (fun h => hk (contains_iff.mpr h)) 1

theorem Keyed.find?_insertOrAssign {m : HashTable κ ν} (hm : m.Keyed) (p : HashPolicy κ) (k : κ)
    (v : ν) (k' : κ) :
    (m.insertOrAssign p k v).find? k' = if k' = k then some v else m.find? k' := by
  have hkeyed := hm.insertOrAssign p k v
  unfold HashTable.insertOrAssign at hkeyed ⊢
  split_ifs at hkeyed ⊢ with hk hk'
  · subst hk'
    obtain ⟨e, he, rfl⟩ := List.mem_map.mp (contains_iff.mp hk)
    rw [hkeyed.find?_eq_some_iff]
    exact List.mem_map.mpr ⟨e, he, by simp⟩
  · ext w
    rw [hkeyed.find?_eq_some_iff, hm.find?_eq_some_iff, List.mem_map]
    constructor
    · rintro ⟨e, he, h⟩
      by_cases hek : e.1 = k
      · rw [if_pos hek] at h
        exact absurd (congrArg Prod.fst h).symm hk'
      · rw [if_neg hek] at h
        exact h ▸ he
    · intro h
      exact ⟨(k', w), h, if_neg hk'⟩
  · rw [hm.find?_insertUnique p (fun h => hk (contains_iff.mpr h)), if_pos ‹_›]
  · rw [hm.find?_insertUnique p (fun h => hk (contains_iff.mpr h)), if_neg ‹_›]

theorem Keyed.tryEmplace {m : HashTable κ ν} (hm : m.Keyed) (p : HashPolicy κ) (k : κ) (v : ν) :
    (m.tryEmplace p k v).Keyed := by
  unfold HashTable.tryEmplace
  split_ifs with hk
  · exact hm
  · exact hm.insertUnique p (fun h => hk (contains_iff.mpr h)) 1

theorem Keyed.find?_tryEmplace {m : HashTable κ ν} (hm : m.Keyed) (p : HashPolicy κ) (k : κ) (v : ν)
    (k' : κ) :
    (m.tryEmplace p k v).find? k' = if k' = k then (m.find? k').or (some v) else m.find? k' := by
  unfold HashTable.tryEmplace
  by_cases hk : m.contains k = true
  · obtain ⟨w, hw⟩ := Option.isSome_iff_exists.mp hk
    rw [if_pos hk]
    by_cases hk' : k' = k
    · rw [if_pos hk', hk', hw, Option.some_or]
    · rw [if_neg hk']
  · have hnone : m.find? k = none := Option.not_isSome_iff_eq_none.mp hk
    rw [if_neg hk, hm.find?_insertUnique p (fun h => hk (contains_iff.mpr h))]
    by_cases hk' : k' = k
    · rw [if_pos hk', if_pos hk', hk', hnone, Option.none_or]
    · rw [if_neg hk', if_neg hk']

theorem Keyed.erase {m : HashTable κ ν} (hm : m.Keyed) (k : κ) : (m.erase k).Keyed :=
  hm.sublist (List.filter_sublist.map Prod.fst)

theorem find?_erase (m : HashTable κ ν) (k k' : κ) :
    (m.erase k).find? k' = if k' = k then none else m.find? k' := by
  rw [erase, find?, find?, List.find?_filter]
  by_cases hk : k' = k
  · subst hk
    rw [if_pos rfl, List.find?_eq_none.mpr fun e _ => by simp, Option.map_none]
  · rw [if_neg hk]
    congr 2
    funext e
    by_cases he : e.1 = k'
    · simp [he, hk]
    · simp [he]

end HashTable
end Multio.Lib
