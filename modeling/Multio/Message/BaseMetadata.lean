import Multio.Message.Message
import Mathlib.Data.List.Induction

namespace Multio
open Lib

namespace BaseMetadata

variable (policy : HashPolicy String)

def empty : BaseMetadata := { bucketCount := policy.nextBucketCount 512 }

def set (m : BaseMetadata) (k : String) (v : MetadataValue) : BaseMetadata :=
  m.insertOrAssign policy k v

def trySet (m : BaseMetadata) (k : String) (v : MetadataValue) : BaseMetadata :=
  m.tryEmplace policy k v

/-- `BaseMetadata(std::initializer_list)`. -/
def ofList (li : List (String × MetadataValue)) : BaseMetadata :=
  li.foldl (fun m e => trySet policy m e.1 e.2) (empty policy)

/-- `operator[]` without an assignment to what it returns. -/
def subscript (m : BaseMetadata) (k : String) : BaseMetadata := m.tryEmplace policy k .null

/-- `merge(other)`, also `updateNoOverwrite` of a temporary. -/
def merge (m other : BaseMetadata) : BaseMetadata :=
  m.insertMissing policy other.nodes.length other.nodes

def updateOverwrite (m other : BaseMetadata) : BaseMetadata :=
  other.nodes.foldl (fun m e => set policy m e.1 e.2) m

/-- `updateOverwrite` of a temporary: its map is taken over. -/
def updateOverwriteMove (m other : BaseMetadata) : BaseMetadata :=
  other.insertMissing policy m.nodes.length m.nodes

def updateNoOverwrite (m other : BaseMetadata) : BaseMetadata :=
  m.insertMissing policy other.nodes.length other.nodes

/-- `Metadata::find` on an object that is not constant copies what the parametrization has. -/
def fetch (m parametrization : BaseMetadata) (k : String) : BaseMetadata :=
  match parametrization.find? k with
  | some v => m.trySet policy k v
  | none => m

variable {policy} {md : BaseMetadata} (hmd : md.Keyed) (parametrization : BaseMetadata)

include hmd

theorem keyed_set (k : String) (v : MetadataValue) : (md.set policy k v).Keyed :=
  hmd.insertOrAssign policy k v

theorem find_set (k k' : String) (v : MetadataValue) :
    Metadata.find parametrization (md.set policy k v) k' =
      if k' = k then some v else Metadata.find parametrization md k' := by
  unfold Metadata.find BaseMetadata.set
  rw [hmd.find?_insertOrAssign]
  split_ifs <;> rfl

theorem keyed_fetch (k : String) : (md.fetch policy parametrization k).Keyed := by
  unfold BaseMetadata.fetch
  cases parametrization.find? k with
  | none => exact hmd
  | some v => exact hmd.tryEmplace policy k v

theorem find_fetch (k k' : String) :
    Metadata.find parametrization (md.fetch policy parametrization k) k' =
      Metadata.find parametrization md k' := by
  unfold BaseMetadata.fetch
  cases hk : parametrization.find? k with
  | none => rfl
  | some v =>
    unfold Metadata.find BaseMetadata.trySet
    dsimp only
    rw [hmd.find?_tryEmplace]
    split_ifs with h
    · rw [h, hk]
      cases md.find? k <;> rfl
    · rfl

theorem getOpt_set_self {α : Type} {getter : MetadataValue → Except Exception α} {v : MetadataValue}
    {x : α} (h : getter v = .ok x) (k : String) :
    Metadata.getOpt getter parametrization (md.set policy k v) k = .ok (some x) := by
  unfold Metadata.getOpt
  rw [find_set hmd, if_pos rfl]
  simp only []
  rw [h]

theorem getOpt_set_of_ne {α : Type} (getter : MetadataValue → Except Exception α) {k k' : String}
    (h : k' ≠ k) (v : MetadataValue) :
    Metadata.getOpt getter parametrization (md.set policy k v) k' =
      Metadata.getOpt getter parametrization md k' := by
  unfold Metadata.getOpt
  rw [find_set hmd, if_neg h]

end BaseMetadata

inductive MetadataEdit
  | set (k : String) (v : MetadataValue)
  | trySet (k : String) (v : MetadataValue)
  | subscript (k : String)
  | erase (k : String)
  | clear
  | merge (other : BaseMetadata)
  | updateOverwrite (other : BaseMetadata)
  | updateOverwriteMove (other : BaseMetadata)
  | updateNoOverwrite (other : BaseMetadata)

def MetadataEdit.apply (policy : HashPolicy String) (m : BaseMetadata) :
    MetadataEdit → BaseMetadata
  | .set k v => m.set policy k v
  | .trySet k v => m.trySet policy k v
  | .subscript k => m.subscript policy k
  | .erase k => m.erase k
  | .clear => m.clear
  | .merge other => m.merge policy other
  | .updateOverwrite other => m.updateOverwrite policy other
  | .updateOverwriteMove other => m.updateOverwriteMove policy other
  | .updateNoOverwrite other => m.updateNoOverwrite policy other

def BaseMetadata.build (policy : HashPolicy String) (edits : List MetadataEdit) : BaseMetadata :=
  edits.foldl (MetadataEdit.apply policy) (BaseMetadata.empty policy)

/-- What the printer writes: objects with their members in order, and other values. -/
inductive JsonTree
  | leaf (v : MetadataValue)
  | object (members : List (String × JsonTree))

theorem HashTable.sizeOf_mem {m : HashTable String MetadataValue} {e : String × MetadataValue}
    (h : e ∈ m.nodes) : sizeOf e.2 < sizeOf (MetadataValue.nested m) := by
  have hmem := List.sizeOf_lt_of_mem h
  obtain ⟨n, nodes⟩ := m
  obtain ⟨k, v⟩ := e
  simp only [MetadataValue.nested.sizeOf_spec, HashTable.mk.sizeOf_spec,
    Prod.mk.sizeOf_spec] at hmem ⊢
  omega

def MetadataValue.toTree : MetadataValue → JsonTree
  | .nested m => .object (m.nodes.attach.map fun e => (e.1.1, e.1.2.toTree))
  | v => .leaf v
termination_by v => sizeOf v
decreasing_by exact HashTable.sizeOf_mem e.2

theorem MetadataValue.toTree_nested (m : HashTable String MetadataValue) :
    (MetadataValue.nested m).toTree = .object (m.nodes.map fun e => (e.1, e.2.toTree)) := by
  rw [MetadataValue.toTree]
  congr 1
  exact List.attach_map_val (f := fun e : String × MetadataValue => (e.1, e.2.toTree))

def BaseMetadata.toTree (m : BaseMetadata) : JsonTree := (MetadataValue.nested m).toTree

/-- The context whose metadata are printed by `print`. -/
def jsonContext (print : JsonTree → String) (parametrization : BaseMetadata) : Context where
  parametrization
  toString m := print (BaseMetadata.toTree m)

def JsonTree.keyOrder : JsonTree → JsonTree
  | .leaf _ => .leaf .null
  | .object members => .object (members.attach.map fun e => (e.1.1, e.1.2.keyOrder))
termination_by t => sizeOf t
decreasing_by
  have hmem := List.sizeOf_lt_of_mem e.2
  obtain ⟨⟨k, t⟩, h⟩ := e
  simp only [JsonTree.object.sizeOf_spec, Prod.mk.sizeOf_spec] at hmem ⊢
  omega

theorem JsonTree.keyOrder_object (members : List (String × JsonTree)) :
    (JsonTree.object members).keyOrder = .object (members.map fun e => (e.1, e.2.keyOrder)) := by
  rw [JsonTree.keyOrder]
  congr 1
  exact List.attach_map_val (f := fun e : String × JsonTree => (e.1, e.2.keyOrder))

inductive MetadataValue.WellKeyed : MetadataValue → Prop
  | nested (m : HashTable String MetadataValue) (keyed : m.Keyed)
      (values : ∀ e ∈ m.nodes, WellKeyed e.2) : WellKeyed (.nested m)
  | leaf (v : MetadataValue) (h : ∀ m, v ≠ .nested m) : WellKeyed v

/-- Two values are equal, or objects that find the same values under all keys. -/
inductive MetadataValue.Same : MetadataValue → MetadataValue → Prop
  | refl (v : MetadataValue) : Same v v
  | nested (m m' : HashTable String MetadataValue)
      (keys : ∀ k, m.find? k = none ↔ m'.find? k = none)
      (values : ∀ k v v', m.find? k = some v → m'.find? k = some v' → Same v v') :
      Same (.nested m) (.nested m')

def BaseMetadata.WellKeyed (m : BaseMetadata) : Prop := (MetadataValue.nested m).WellKeyed

def BaseMetadata.Same (m m' : BaseMetadata) : Prop :=
  (MetadataValue.nested m).Same (.nested m')

def MetadataEdit.WellKeyed : MetadataEdit → Prop
  | .set _ v => v.WellKeyed
  | .trySet _ v => v.WellKeyed
  | .subscript _ => True
  | .erase _ => True
  | .clear => True
  | .merge other => BaseMetadata.WellKeyed other
  | .updateOverwrite other => BaseMetadata.WellKeyed other
  | .updateOverwriteMove other => BaseMetadata.WellKeyed other
  | .updateNoOverwrite other => BaseMetadata.WellKeyed other

theorem BaseMetadata.wellKeyed_iff {m : BaseMetadata} :
    BaseMetadata.WellKeyed m ↔ m.Keyed ∧ ∀ e ∈ m.nodes, e.2.WellKeyed := by
  constructor
  · intro h
    cases h with
    | nested _ hk hv => exact ⟨hk, hv⟩
    | leaf _ h => exact absurd rfl (h m)
  · rintro ⟨hk, hv⟩
    exact .nested m hk hv

/-- An operation that keeps unique keys and whose values come from the object and from outside. -/
theorem BaseMetadata.WellKeyed.of_mem {m m' : BaseMetadata} (hm : BaseMetadata.WellKeyed m)
    (hk : m'.Keyed) (h : ∀ e ∈ m'.nodes, e ∈ m.nodes ∨ e.2.WellKeyed) :
    BaseMetadata.WellKeyed m' := by
  rw [wellKeyed_iff] at hm ⊢
  refine ⟨hk, ?_⟩
  intro e he
  rcases h e he with h | h
  · exact hm.2 e h
  · exact h

theorem BaseMetadata.WellKeyed.insertUnique {m : BaseMetadata} (hm : BaseMetadata.WellKeyed m)
    (policy : HashPolicy String) {e : String × MetadataValue} (he : m.contains e.1 ≠ true)
    (hv : e.2.WellKeyed) (n : ℕ) : BaseMetadata.WellKeyed (m.insertUnique policy e n) := by
  have hkeyed := (wellKeyed_iff.mp hm).1
  apply hm.of_mem (hkeyed.insertUnique policy (fun h => he (HashTable.contains_iff.mpr h)) n)
  intro x hx
  rw [(HashTable.insertUnique_perm policy m e n).mem_iff, List.mem_cons] at hx
  rcases hx with rfl | hx
  · exact Or.inr hv
  · exact Or.inl hx

theorem BaseMetadata.WellKeyed.set {m : BaseMetadata} (hm : BaseMetadata.WellKeyed m)
    (policy : HashPolicy String) (k : String) {v : MetadataValue} (hv : v.WellKeyed) :
    BaseMetadata.WellKeyed (m.set policy k v) := by
  have hkeyed := (wellKeyed_iff.mp hm).1
  have hkeyed' := hkeyed.insertOrAssign policy k v
  unfold BaseMetadata.set
  unfold HashTable.insertOrAssign at hkeyed' ⊢
  split_ifs at hkeyed' ⊢ with hk
  · apply hm.of_mem hkeyed'
    intro x hx
    obtain ⟨e, he, rfl⟩ := List.mem_map.mp hx
    by_cases hek : e.1 = k
    · rw [if_pos hek]
      exact Or.inr hv
    · rw [if_neg hek]
      exact Or.inl he
  · exact hm.insertUnique policy hk hv 1

theorem BaseMetadata.WellKeyed.trySet {m : BaseMetadata} (hm : BaseMetadata.WellKeyed m)
    (policy : HashPolicy String) (k : String) {v : MetadataValue} (hv : v.WellKeyed) :
    BaseMetadata.WellKeyed (m.trySet policy k v) := by
  unfold BaseMetadata.trySet HashTable.tryEmplace
  split_ifs with hk
  · exact hm
  · exact hm.insertUnique policy hk hv 1

theorem BaseMetadata.WellKeyed.insertMissing {m : BaseMetadata} (hm : BaseMetadata.WellKeyed m)
    (policy : HashPolicy String) (n : ℕ) {es : List (String × MetadataValue)}
    (hes : ∀ e ∈ es, e.2.WellKeyed) : BaseMetadata.WellKeyed (m.insertMissing policy n es) := by
  induction es generalizing m n with
  | nil => exact hm
  | cons e es ih =>
    have hes' : ∀ x ∈ es, x.2.WellKeyed := fun x hx => hes x (List.mem_cons_of_mem _ hx)
    unfold HashTable.insertMissing
    split_ifs with hk hn
    · exact ih hm 1 hes'
    · exact ih hm (n - 1) hes'
    · exact ih (hm.insertUnique policy hk (hes e List.mem_cons_self) n) 1 hes'

theorem BaseMetadata.WellKeyed.updateOverwrite {m other : BaseMetadata}
    (hm : BaseMetadata.WellKeyed m) (policy : HashPolicy String)
    (hother : BaseMetadata.WellKeyed other) :
    BaseMetadata.WellKeyed (m.updateOverwrite policy other) := by
  have hvalues := (wellKeyed_iff.mp hother).2
  unfold BaseMetadata.updateOverwrite
  generalize other.nodes = es at hvalues
  induction es generalizing m with
  | nil => exact hm
  | cons e es ih =>
    exact ih (hm.set policy e.1 (hvalues e List.mem_cons_self))
      fun x hx => hvalues x (List.mem_cons_of_mem _ hx)

theorem MetadataEdit.WellKeyed.apply {edit : MetadataEdit} (h : edit.WellKeyed)
    (policy : HashPolicy String) {m : BaseMetadata} (hm : BaseMetadata.WellKeyed m) :
    BaseMetadata.WellKeyed (edit.apply policy m) := by
  have hother {other : BaseMetadata} (ho : BaseMetadata.WellKeyed other) :
      ∀ e ∈ other.nodes, e.2.WellKeyed := (BaseMetadata.wellKeyed_iff.mp ho).2
  cases edit with
  | set k v => exact hm.set policy k h
  | trySet k v => exact hm.trySet policy k h
  | subscript k => exact hm.trySet policy k (.leaf _ fun _ => by simp)
  | erase k =>
    apply hm.of_mem ((BaseMetadata.wellKeyed_iff.mp hm).1.erase k)
    intro e he
    exact Or.inl (List.mem_of_mem_filter he)
  | clear =>
    have hkeyed : HashTable.Keyed (HashTable.clear m) := List.nodup_nil
    apply hm.of_mem hkeyed
    intro e he
    cases he
  | merge other => exact hm.insertMissing policy _ (hother h)
  | updateOverwrite other => exact hm.updateOverwrite policy h
  | updateOverwriteMove other =>
    exact BaseMetadata.WellKeyed.insertMissing h policy _ (hother hm)
  | updateNoOverwrite other => exact hm.insertMissing policy _ (hother h)

theorem BaseMetadata.build_wellKeyed (policy : HashPolicy String) (edits : List MetadataEdit)
    (h : ∀ e ∈ edits, e.WellKeyed) : BaseMetadata.WellKeyed (BaseMetadata.build policy edits) := by
  induction edits using List.reverseRecOn with
  | nil =>
    apply wellKeyed_iff.mpr
    exact ⟨List.nodup_nil, fun e he => by cases he⟩
  | append_singleton edits e ih =>
    rw [build, List.foldl_append]
    apply (h e (by simp)).apply
    exact ih fun x hx => h x (List.mem_append_left _ hx)

end Multio
