import Multio.Message.BaseMetadata
import Multio.Message.MetadataMatcher

namespace Multio
open Lib

/-- `==` of what two values hold, except of metadata; other alternatives are never equal. -/
def MetadataValue.plainEq : MetadataValue → MetadataValue → Bool
  | .bytes a, .bytes b => a == b
  | .bools a, .bools b => a == b
  | .int64s a, .int64s b => a == b
  | .doubles a, .doubles b => a.isEqv b doubleEq
  | .floats a, .floats b => a.isEqv b floatEq
  | .strings a, .strings b => a == b
  | v, w => v.scalarEq w

theorem HashTable.sizeOf_value {m : HashTable String MetadataValue} {e : String × MetadataValue}
    (h : e ∈ m.nodes) : sizeOf e.2 < sizeOf m := by
  have hmem := List.sizeOf_lt_of_mem h
  obtain ⟨n, nodes⟩ := m
  obtain ⟨k, v⟩ := e
  simp only [HashTable.mk.sizeOf_spec, Prod.mk.sizeOf_spec] at hmem ⊢
  omega

/-- An object of `BaseMetadata` itself, or of `Metadata`. -/
inductive MetadataObject
  | base (values : BaseMetadata)
  | contexted (values parametrization : BaseMetadata)

namespace MetadataObject

def values : MetadataObject → BaseMetadata
  | base values => values
  | contexted values _ => values

/-- The virtual `find`, which `Metadata` overrides. -/
def find? : MetadataObject → String → Option MetadataValue
  | base values, k => values.find? k
  | contexted values parametrization, k => Metadata.find parametrization values k

theorem find?_of_values {m : MetadataObject} {k : String} {v : MetadataValue}
    (h : m.values.find? k = some v) : m.find? k = some v := by
  cases m with
  | base values => exact h
  | contexted values parametrization =>
    change values.find? k = some v at h
    rw [find?, Metadata.find, h]
    rfl

end MetadataObject

mutual

/-- `operator==(const MetadataValue&, const MetadataValue&)`. -/
def MetadataValue.equals : MetadataValue → MetadataValue → Bool
  | .nested lhs, .nested rhs => BaseMetadata.equals lhs (.base rhs)
  | v, w => v.plainEq w
termination_by v => sizeOf v

/-- `operator==(const BaseMetadata&, const BaseMetadata&)`; keys are looked up in the right object
only. -/
def BaseMetadata.equals (lhs : HashTable String MetadataValue) (rhs : MetadataObject) : Bool :=
  if lhs.nodes.length ≠ rhs.values.nodes.length then false
  else
    match _h : lhs.nodes with
    | [] => true
    -- both branches of the loop's body return
    | p :: _ =>
      match rhs.find? p.1 with
      | some v => p.2.equals v
      | none => false
termination_by sizeOf lhs
decreasing_by
  apply HashTable.sizeOf_value
  rw [_h]
  exact List.mem_cons_self

end

namespace MetadataValue

/-- Two values are equal, or metadata with the same keys and equal values under each of them. -/
inductive Equal : MetadataValue → MetadataValue → Prop
  | plain (v w : MetadataValue) (h : v.plainEq w = true) : Equal v w
  | nested (m m' : HashTable String MetadataValue)
      (keys : ∀ k, m.find? k = none ↔ m'.find? k = none)
      (values : ∀ k v v', m.find? k = some v → m'.find? k = some v' → Equal v v') :
      Equal (.nested m) (.nested m')

def bothNested : MetadataValue → MetadataValue → Bool
  | .nested _, .nested _ => true
  | _, _ => false

/-- The values differ, or are metadata that differ in the number of their keys or in the entry
that the left one enumerates first. -/
inductive LeadDiffers : MetadataValue → MetadataValue → Prop
  | plain (v w : MetadataValue) (hplain : v.bothNested w = false) (h : v.plainEq w = false) :
      LeadDiffers v w
  | size (m m' : HashTable String MetadataValue) (h : m.nodes.length ≠ m'.nodes.length) :
      LeadDiffers (.nested m) (.nested m')
  | key (m m' : HashTable String MetadataValue) (e : String × MetadataValue)
      (hlead : m.nodes.head? = some e) (h : m'.find? e.1 = none) :
      LeadDiffers (.nested m) (.nested m')
  | value (m m' : HashTable String MetadataValue) (e : String × MetadataValue) (v : MetadataValue)
      (hlead : m.nodes.head? = some e) (hv : m'.find? e.1 = some v) (h : LeadDiffers e.2 v) :
      LeadDiffers (.nested m) (.nested m')

end MetadataValue

namespace BaseMetadata

def SameContents (lhs rhs : BaseMetadata) : Prop :=
  (∀ k, lhs.find? k = none ↔ rhs.find? k = none) ∧
    ∀ k v v', lhs.find? k = some v → rhs.find? k = some v' → v.Equal v'

/-- `==` of two objects compares their contents, and does so within values too. -/
structure ComparesContents (lhs rhs : MetadataObject) : Prop where
  contents : BaseMetadata.equals lhs.values rhs = true ↔ SameContents lhs.values rhs.values
  value : (MetadataValue.nested lhs.values).equals (.nested rhs.values) =
    BaseMetadata.equals lhs.values rhs

/-- The number of keys differs, or the first entry is not found, or one that differs is found. -/
def LeadDiffers (lhs rhs : MetadataObject) : Prop :=
  lhs.values.nodes.length ≠ rhs.values.nodes.length ∨
    ∃ e, lhs.values.nodes.head? = some e ∧ ∀ v, rhs.find? e.1 = some v → e.2.LeadDiffers v

/-- Objects that differ at all do so in the number of their keys or in the first entry. -/
def LeadDecides (lhs rhs : MetadataObject) : Prop :=
  SameContents lhs.values rhs.values ∨ LeadDiffers lhs rhs

end BaseMetadata

namespace MetadataValue

theorem equals_nested (m m' : HashTable String MetadataValue) :
    (nested m).equals (nested m') = BaseMetadata.equals m (.base m') := by
  rw [MetadataValue.equals]

theorem equals_plain {v w : MetadataValue} (h : v.bothNested w = false) :
    v.equals w = v.plainEq w := by
  rw [MetadataValue.equals]
  rintro m m' rfl rfl
  cases h

end MetadataValue

section Turn
variable {lhs : HashTable String MetadataValue} {rhs : MetadataObject}

theorem BaseMetadata.equals_of_size (h : lhs.nodes.length ≠ rhs.values.nodes.length) :
    BaseMetadata.equals lhs rhs = false := by
  rw [BaseMetadata.equals, if_pos h]

theorem BaseMetadata.equals_empty (h : lhs.nodes.length = rhs.values.nodes.length)
    (hlead : lhs.nodes.head? = none) : BaseMetadata.equals lhs rhs = true := by
  rw [BaseMetadata.equals, if_neg (not_not.mpr h)]
  rw [List.head?_eq_none_iff] at hlead
  split
  · rfl
  · next p es hp =>
    rw [hlead] at hp
    cases hp

theorem BaseMetadata.equals_lead (h : lhs.nodes.length = rhs.values.nodes.length)
    {e : String × MetadataValue} (hlead : lhs.nodes.head? = some e) :
    BaseMetadata.equals lhs rhs =
      match rhs.find? e.1 with
      | some v => e.2.equals v
      | none => false := by
  rw [BaseMetadata.equals, if_neg (not_not.mpr h)]
  obtain ⟨es, hes⟩ := List.head?_eq_some_iff.mp hlead
  split
  · next hp =>
    rw [hes] at hp
    cases hp
  · next p es' hp =>
    rw [hes, List.cons.injEq] at hp
    rw [hp.1]

end Turn

namespace MetadataValue

theorem LeadDiffers.not_equals {v w : MetadataValue} (h : v.LeadDiffers w) :
    v.equals w = false := by
  induction h with
  | plain v w hplain h => rw [equals_plain hplain, h]
  | size m m' h => rw [equals_nested, BaseMetadata.equals_of_size h]
  | key m m' e hlead h =>
    rw [equals_nested]
    by_cases hsize : m.nodes.length = m'.nodes.length
    · rw [BaseMetadata.equals_lead hsize hlead, MetadataObject.find?, h]
    · exact BaseMetadata.equals_of_size hsize
  | value m m' e v hlead hv _ ih =>
    rw [equals_nested]
    by_cases hsize : m.nodes.length = m'.nodes.length
    · rw [BaseMetadata.equals_lead hsize hlead, MetadataObject.find?, hv]
      exact ih
    · exact BaseMetadata.equals_of_size hsize

theorem leadDiffers_of_not_equals (n : ℕ) {v w : MetadataValue} (hn : sizeOf v ≤ n)
    (h : v.equals w = false) : v.LeadDiffers w := by
  induction n generalizing v w with
  | zero => cases v <;> simp at hn
  | succ n ih =>
    cases hboth : v.bothNested w with
    | false =>
      rw [equals_plain hboth] at h
      exact .plain v w hboth h
    | true =>
      obtain ⟨m, m', rfl, rfl⟩ : ∃ m m', v = nested m ∧ w = nested m' := by
        unfold bothNested at hboth
        split at hboth
        · exact ⟨_, _, rfl, rfl⟩
        · cases hboth
      rw [equals_nested] at h
      by_cases hsize : m.nodes.length = m'.nodes.length
      · cases hlead : m.nodes.head? with
        | none =>
          rw [BaseMetadata.equals_empty hsize hlead] at h
          cases h
        | some e =>
          rw [BaseMetadata.equals_lead hsize hlead, MetadataObject.find?] at h
          cases hv : m'.find? e.1 with
          | none => exact .key m m' e hlead hv
          | some v =>
            rw [hv] at h
            have hmem := HashTable.sizeOf_mem (List.mem_of_mem_head? hlead)
            exact .value m m' e v hlead hv (ih (by omega) h)
      · exact .size m m' hsize

theorem equals_eq_false_iff {v w : MetadataValue} : v.equals w = false ↔ v.LeadDiffers w := by
  constructor
  · exact leadDiffers_of_not_equals _ (le_refl _)
  · exact LeadDiffers.not_equals

theorem bothNested_of_plainEq {v w : MetadataValue} (h : v.plainEq w = true) :
    v.bothNested w = false := by
  unfold bothNested
  split
  · cases h
  · rfl

theorem equal_nested_iff {m m' : HashTable String MetadataValue} :
    (nested m).Equal (nested m') ↔ BaseMetadata.SameContents m m' := by
  constructor
  · intro h
    cases h with
    | plain _ _ h => cases h
    | nested _ _ keys values => exact ⟨keys, values⟩
  · rintro ⟨keys, values⟩
    exact .nested m m' keys values

theorem length_eq_of_keys {m m' : HashTable String MetadataValue} (hm : m.Keyed) (hm' : m'.Keyed)
    (keys : ∀ k, m.find? k = none ↔ m'.find? k = none) : m.nodes.length = m'.nodes.length := by
  have hperm : (m.nodes.map Prod.fst).Perm (m'.nodes.map Prod.fst) := by
    rw [List.perm_ext_iff_of_nodup hm hm']
    intro k
    rw [← not_iff_not, ← HashTable.find?_eq_none_iff, ← HashTable.find?_eq_none_iff]
    exact keys k
  have hlength := hperm.length_eq
  rwa [List.length_map, List.length_map] at hlength

theorem Equal.equals {v w : MetadataValue} (h : v.Equal w) (hv : v.WellKeyed)
    (hw : w.WellKeyed) : v.equals w = true := by
  induction h with
  | plain v w h => rw [equals_plain (bothNested_of_plainEq h), h]
  | nested m m' keys values ih =>
    obtain ⟨hm, hvalues⟩ := BaseMetadata.wellKeyed_iff.mp hv
    obtain ⟨hm', hvalues'⟩ := BaseMetadata.wellKeyed_iff.mp hw
    have hsize := length_eq_of_keys hm hm' keys
    rw [equals_nested]
    cases hlead : m.nodes.head? with
    | none => exact BaseMetadata.equals_empty hsize hlead
    | some e =>
      rw [BaseMetadata.equals_lead hsize hlead, MetadataObject.find?]
      have hmem := List.mem_of_mem_head? hlead
      have hfind : m.find? e.1 = some e.2 := hm.find?_eq_some_iff.mpr hmem
      cases hv' : m'.find? e.1 with
      | none =>
        rw [(keys e.1).mpr hv'] at hfind
        cases hfind
      | some v' =>
        exact ih e.1 e.2 v' hfind hv' (hvalues e hmem)
          (hvalues' _ (hm'.find?_eq_some_iff.mp hv'))

end MetadataValue

namespace BaseMetadata

theorem equals_eq_false_iff {lhs rhs : MetadataObject} :
    BaseMetadata.equals lhs.values rhs = false ↔ LeadDiffers lhs rhs := by
  unfold LeadDiffers
  by_cases hsize : lhs.values.nodes.length = rhs.values.nodes.length
  · rw [or_iff_right (not_not.mpr hsize)]
    cases hlead : lhs.values.nodes.head? with
    | none => simp [equals_empty hsize hlead]
    | some e =>
      rw [equals_lead hsize hlead]
      cases hv : rhs.find? e.1 with
      | none => simp [hv]
      | some v => simp [hv, MetadataValue.equals_eq_false_iff]
  · exact iff_of_true (equals_of_size hsize) (Or.inl hsize)

theorem LeadDiffers.local {lhs rhs : MetadataObject} (h : LeadDiffers lhs rhs) :
    LeadDiffers lhs (.base rhs.values) := by
  obtain hsize | ⟨e, hlead, hfound⟩ := h
  · exact Or.inl hsize
  · exact Or.inr ⟨e, hlead, fun v hv => hfound v (MetadataObject.find?_of_values hv)⟩

theorem SameContents.equals {lhs rhs : MetadataObject} (h : SameContents lhs.values rhs.values)
    (hlhs : BaseMetadata.WellKeyed lhs.values) (hrhs : BaseMetadata.WellKeyed rhs.values) :
    BaseMetadata.equals lhs.values rhs = true := by
  by_contra hne
  have hlocal := equals_eq_false_iff.mpr
    (equals_eq_false_iff.mp (Bool.not_eq_true _ ▸ hne)).local
  have hequal := (MetadataValue.equal_nested_iff.mpr h).equals hlhs hrhs
  rw [MetadataValue.equals_nested] at hequal
  exact Bool.false_ne_true (hlocal.symm.trans hequal)

/-- The comparison is one of contents exactly for objects whose lead decides. -/
theorem equality_exact_iff {lhs rhs : MetadataObject}
    (hlhs : BaseMetadata.WellKeyed lhs.values) (hrhs : BaseMetadata.WellKeyed rhs.values) :
    ComparesContents lhs rhs ↔ LeadDecides lhs rhs := by
  constructor
  · intro h
    cases hequals : BaseMetadata.equals lhs.values rhs with
    | true => exact .inl (h.contents.mp hequals)
    | false => exact .inr (equals_eq_false_iff.mp hequals)
  · rintro (hsame | hdiffers)
    · have hequals := hsame.equals hlhs hrhs
      refine ⟨iff_of_true hequals hsame, ?_⟩
      rw [MetadataValue.equals_nested, hequals]
      exact @SameContents.equals _ (.base rhs.values) hsame hlhs hrhs
    · have hequals := equals_eq_false_iff.mpr hdiffers
      refine ⟨iff_of_false (Bool.not_eq_true _ ▸ hequals) fun hsame => ?_, ?_⟩
      · exact Bool.false_ne_true (hequals.symm.trans (hsame.equals hlhs hrhs))
      · rw [MetadataValue.equals_nested, hequals]
        exact equals_eq_false_iff.mpr hdiffers.local

end BaseMetadata

def twoKeys (k k' : String) (v v' : ℤ) : BaseMetadata :=
  { bucketCount := 541, nodes := [(k, .int64 v), (k', .int64 v')] }

theorem twoKeys_wellKeyed {k k' : String} (h : k ≠ k') (v v' : ℤ) :
    BaseMetadata.WellKeyed (twoKeys k k' v v') := by
  rw [BaseMetadata.wellKeyed_iff]
  constructor
  · simpa [HashTable.Keyed, twoKeys] using h
  · intro e he
    apply MetadataValue.WellKeyed.leaf
    intro m hm
    simp only [twoKeys, List.mem_cons, List.not_mem_nil, or_false] at he
    rcases he with rfl | rfl
    · cases hm
    · cases hm

/-- The right object has a parametrization with other values of the same keys. -/
theorem BaseMetadata.equality_exact_iff_two :
    let rhs := MetadataObject.contexted (twoKeys "level" "step" 2 1) (twoKeys "step" "level" 5 6)
    BaseMetadata.ComparesContents (.base (twoKeys "step" "level" 1 2)) rhs ↔
      BaseMetadata.LeadDecides (.base (twoKeys "step" "level" 1 2)) rhs :=
  BaseMetadata.equality_exact_iff (twoKeys_wellKeyed (by decide) 1 2)
    (twoKeys_wellKeyed (by decide) 2 1)

/-- Objects that differ under one key are equal as long as the other key comes first. -/
theorem second_key_not_compared :
    BaseMetadata.equals (twoKeys "step" "level" 1 2) (.base (twoKeys "step" "level" 1 3)) = true ∧
      BaseMetadata.equals (twoKeys "level" "step" 2 1) (.base (twoKeys "step" "level" 1 3)) =
        false ∧
      ¬BaseMetadata.ComparesContents (.base (twoKeys "step" "level" 1 2))
        (.base (twoKeys "step" "level" 1 3)) := by
  have hequal : BaseMetadata.equals (twoKeys "step" "level" 1 2)
      (.base (twoKeys "step" "level" 1 3)) = true := by
    refine (BaseMetadata.equals_lead (by rfl) (by rfl)).trans ?_
    change MetadataValue.equals (.int64 1) (.int64 1) = true
    rw [MetadataValue.equals_plain rfl]
    rfl
  refine ⟨hequal, ?_, ?_⟩
  · refine (BaseMetadata.equals_lead (by rfl) (by rfl)).trans ?_
    change MetadataValue.equals (.int64 2) (.int64 3) = false
    rw [MetadataValue.equals_plain rfl]
    rfl
  · intro h
    obtain ⟨-, hvalues⟩ := h.contents.mp hequal
    have hlevel : (MetadataValue.int64 2).Equal (.int64 3) := hvalues "level" _ _ rfl rfl
    cases hlevel with
    | plain _ _ hplain => exact absurd hplain (by decide)

end Multio
