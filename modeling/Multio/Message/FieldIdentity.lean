import Multio.Message.BaseMetadata
import Mathlib.Data.List.Forall2
import Mathlib.Data.Set.Insert

namespace Multio
open Lib

theorem forall₂_of_map_eq {α β γ : Type} {f : α → γ} {g : β → γ} {xs : List α} {ys : List β}
    (h : xs.map f = ys.map g) :
    List.Forall₂ (fun x y => (x ∈ xs ∧ y ∈ ys) ∧ f x = g y) xs ys := by
  induction xs generalizing ys with
  | nil =>
    rw [List.map_nil, eq_comm, List.map_eq_nil_iff] at h
    rw [h]
    exact .nil
  | cons x xs ih =>
    obtain ⟨y, ys, rfl, hxy, hrest⟩ := List.map_eq_cons_iff.mp h.symm
    refine .cons ⟨⟨List.mem_cons_self, List.mem_cons_self⟩, hxy.symm⟩ ?_
    apply (ih hrest.symm).imp
    rintro x y ⟨⟨hx, hy⟩, hxy⟩
    exact ⟨⟨List.mem_cons_of_mem _ hx, List.mem_cons_of_mem _ hy⟩, hxy⟩

/-- Values with the same contents and the same order of keys print as the same tree. -/
theorem MetadataValue.Same.toTree_eq {v v' : MetadataValue} (h : v.Same v') (hv : v.WellKeyed)
    (hv' : v'.WellKeyed) (horder : v.toTree.keyOrder = v'.toTree.keyOrder) :
    v.toTree = v'.toTree := by
  induction h with
  | refl v => rfl
  | nested m m' keys values ih =>
    obtain ⟨hm, hvalues⟩ := BaseMetadata.wellKeyed_iff.mp hv
    obtain ⟨hm', hvalues'⟩ := BaseMetadata.wellKeyed_iff.mp hv'
    rw [toTree_nested, toTree_nested, JsonTree.keyOrder_object, JsonTree.keyOrder_object,
      JsonTree.object.injEq, List.map_map, List.map_map] at horder
    rw [toTree_nested, toTree_nested, JsonTree.object.injEq]
    have hpairs := forall₂_of_map_eq horder
    rw [← List.forall₂_eq_eq_eq, List.forall₂_map_left_iff, List.forall₂_map_right_iff]
    apply hpairs.imp
    rintro ⟨k, w⟩ ⟨k', w'⟩ ⟨⟨hw, hw'⟩, hkey⟩
    obtain ⟨hk, hrest⟩ := Prod.mk.inj hkey
    simp only at hk
    subst hk
    rw [ih k w w' (hm.find?_eq_some_iff.mpr hw) (hm'.find?_eq_some_iff.mpr hw')
      (hvalues _ hw) (hvalues' _ hw') hrest]

/-- The identity of a field that carries none is the text of its metadata. -/
theorem Header.fieldId_json (print : JsonTree → String) (parametrization metadata : BaseMetadata)
    (source destination : Peer) :
    Header.fieldId (jsonContext print parametrization)
      { tag := .field, source, destination, metadata } = print metadata.toTree := rfl

/-- Field messages with the same metadata contents, built in whatever way, have the same identity
if and only if the maps are enumerated in the same order. -/
theorem fieldId_eq_iff (policy : HashPolicy String) (print : JsonTree → String)
    (parametrization : BaseMetadata) (trees : Set JsonTree)
    (hprint : ∀ t ∈ trees, ∀ t' ∈ trees, print t = print t' → t.keyOrder = t'.keyOrder)
    (edits edits' : List MetadataEdit) (hedits : ∀ e ∈ edits, e.WellKeyed)
    (hedits' : ∀ e ∈ edits', e.WellKeyed)
    (htree : (BaseMetadata.build policy edits).toTree ∈ trees)
    (htree' : (BaseMetadata.build policy edits').toTree ∈ trees)
    (hsame : (BaseMetadata.build policy edits).Same (BaseMetadata.build policy edits'))
    (source source' destination destination' : Peer) :
    Header.fieldId (jsonContext print parametrization)
        { tag := .field, source, destination, metadata := BaseMetadata.build policy edits } =
      Header.fieldId (jsonContext print parametrization)
        { tag := .field, source := source', destination := destination',
          metadata := BaseMetadata.build policy edits' } ↔
    (BaseMetadata.build policy edits).toTree.keyOrder =
      (BaseMetadata.build policy edits').toTree.keyOrder := by
  rw [Header.fieldId_json, Header.fieldId_json]
  constructor
  · exact hprint _ htree _ htree'
  · intro horder
    have htrees := MetadataValue.Same.toTree_eq hsame
      (BaseMetadata.build_wellKeyed policy edits hedits)
      (BaseMetadata.build_wellKeyed policy edits' hedits') horder
    exact congrArg print htrees

def printLeaf : JsonTree → String
  | .leaf (.int64 v) => toString v
  | _ => "null"

def printObject : JsonTree → String
  | .object members => "\x7b" ++ ",".intercalate
      (members.map fun e => "\"" ++ e.1 ++ "\":" ++ printLeaf e.2) ++ "\x7d"
  | t => printLeaf t

def lengthPolicy : HashPolicy String := { hash := String.length, nextBucketCount := fun _ => 541 }

def stepLevel : List MetadataEdit := [.set "step" (.int64 1), .set "level" (.int64 2)]
def levelStep : List MetadataEdit := [.set "level" (.int64 2), .set "step" (.int64 1)]

theorem stepLevel_tree : (BaseMetadata.build lengthPolicy stepLevel).toTree =
    .object [("level", .leaf (.int64 2)), ("step", .leaf (.int64 1))] := by
  rw [BaseMetadata.toTree, MetadataValue.toTree_nested]
  change JsonTree.object [("level", (MetadataValue.int64 2).toTree),
    ("step", (MetadataValue.int64 1).toTree)] = _
  rw [MetadataValue.toTree, MetadataValue.toTree]
  · simp
  · simp

theorem levelStep_tree : (BaseMetadata.build lengthPolicy levelStep).toTree =
    .object [("step", .leaf (.int64 1)), ("level", .leaf (.int64 2))] := by
  rw [BaseMetadata.toTree, MetadataValue.toTree_nested]
  change JsonTree.object [("step", (MetadataValue.int64 1).toTree),
    ("level", (MetadataValue.int64 2).toTree)] = _
  rw [MetadataValue.toTree, MetadataValue.toTree]
  · simp
  · simp

theorem stepLevel_same : (BaseMetadata.build lengthPolicy stepLevel).Same
    (BaseMetadata.build lengthPolicy levelStep) := by
  have hnodes : (BaseMetadata.build lengthPolicy stepLevel).nodes =
    [("level", .int64 2), ("step", .int64 1)] := rfl
  have hnodes' : (BaseMetadata.build lengthPolicy levelStep).nodes =
    [("step", .int64 1), ("level", .int64 2)] := rfl
  have hfind : ∀ k, (BaseMetadata.build lengthPolicy stepLevel).find? k =
      (BaseMetadata.build lengthPolicy levelStep).find? k := by
    intro k
    unfold HashTable.find?
    rw [hnodes, hnodes']
    by_cases hlevel : "level" = k
    · subst hlevel
      rfl
    · by_cases hstep : "step" = k
      · subst hstep
        rfl
      · simp [hlevel, hstep]
  apply MetadataValue.Same.nested
  · intro k
    rw [hfind]
  · intro k v v' hv hv'
    rw [hfind, hv', Option.some.injEq] at hv
    rw [hv]
    exact .refl v

/-- The same pairs, inserted in two orders, give two identities. -/
theorem fieldId_depends_on_history :
    (BaseMetadata.build lengthPolicy stepLevel).Same (BaseMetadata.build lengthPolicy levelStep) ∧
    Header.fieldId (jsonContext printObject { bucketCount := 541 })
        { tag := .field, source := {}, destination := {},
          metadata := BaseMetadata.build lengthPolicy stepLevel } =
      "\x7b\"level\":2,\"step\":1\x7d" ∧
    Header.fieldId (jsonContext printObject { bucketCount := 541 })
        { tag := .field, source := {}, destination := {},
          metadata := BaseMetadata.build lengthPolicy levelStep } =
      "\x7b\"step\":1,\"level\":2\x7d" := by
  refine ⟨stepLevel_same, ?_, ?_⟩
  · rw [Header.fieldId_json, stepLevel_tree]
    decide
  · rw [Header.fieldId_json, levelStep_tree]
    decide

theorem fieldId_eq_iff_stepLevel :
    Header.fieldId (jsonContext printObject { bucketCount := 541 })
        { tag := .field, source := {}, destination := {},
          metadata := BaseMetadata.build lengthPolicy stepLevel } ≠
      Header.fieldId (jsonContext printObject { bucketCount := 541 })
        { tag := .field, source := {}, destination := {},
          metadata := BaseMetadata.build lengthPolicy levelStep } := by
  have hkeyed : ∀ edits ∈ [stepLevel, levelStep], ∀ e ∈ edits, e.WellKeyed := by
    intro edits hedits e he
    simp only [List.mem_cons, List.not_mem_nil, or_false] at hedits
    rcases hedits with rfl | rfl <;>
      simp only [stepLevel, levelStep, List.mem_cons, List.not_mem_nil, or_false] at he <;>
      rcases he with rfl | rfl <;>
      exact .leaf _ fun _ => by simp
  have hiff := fieldId_eq_iff lengthPolicy printObject { bucketCount := 541 }
    {(BaseMetadata.build lengthPolicy stepLevel).toTree,
      (BaseMetadata.build lengthPolicy levelStep).toTree} (by
      intro t ht t' ht' htext
      rw [stepLevel_tree, levelStep_tree] at ht ht'
      rcases ht with rfl | rfl <;> rcases ht' with rfl | rfl
      · rfl
      · exact absurd htext (by decide)
      · exact absurd htext (by decide)
      · rfl) stepLevel levelStep (hkeyed _ (by simp)) (hkeyed _ (by simp))
    (Set.mem_insert _ _) (Set.mem_insert_of_mem _ rfl) stepLevel_same {} {} {} {}
  intro h
  have horder := hiff.mp h
  rw [stepLevel_tree, levelStep_tree, JsonTree.keyOrder_object, JsonTree.keyOrder_object] at horder
  simp at horder

end Multio
