import Multio.Message.Metadata

namespace Multio.Config
open Lib

structure ConfigurationReader (C : Type) where
  keys : C → List String
  has : C → String → Bool
  getBool : C → String → Except Exception Bool
  /-- `isBoolean(key)` with the value that `get` gives, and likewise below. -/
  boolean : C → String → Option Bool
  booleanList : C → String → Option (List ℤ)
  floatingPoint : C → String → Option UInt64
  floatingPointList : C → String → Option (List UInt64)
  integral : C → String → Option ℤ
  integralList : C → String → Option (List ℤ)
  string : C → String → Option String
  stringList : C → String → Option (List String)
  isNull : C → String → Bool
  isList : C → String → Bool
  isSubConfiguration : C → String → Bool
  isSubConfigurationList : C → String → Bool
  /-- `getFloatVector`: the numbers of the list in single precision. -/
  getFloatVector : C → String → List UInt32
  getSubConfiguration : C → String → Except Exception C
  getSubConfigurations : C → String → List C
  print : C → String
  /-- What is read from a configuration is smaller than it. -/
  finite : ∃ rank : C → ℕ,
    (∀ c k d, has c k = true ∨ isSubConfiguration c k = true → getSubConfiguration c k = .ok d →
      rank d < rank c) ∧
    ∀ c k d, isSubConfigurationList c k = true → d ∈ getSubConfigurations c k → rank d < rank c

namespace ConfigurationReader

variable {C : Type} (R : ConfigurationReader C)

noncomputable def rank : C → ℕ := R.finite.choose

theorem rank_subConfiguration (c : C) (k : String) (d : C)
    (h : R.has c k = true ∨ R.isSubConfiguration c k = true)
    (hd : R.getSubConfiguration c k = .ok d) : R.rank d < R.rank c :=
  R.finite.choose_spec.1 c k d h hd

theorem rank_subConfigurations (c : C) (k : String) (d : C)
    (h : R.isSubConfigurationList c k = true) (hd : d ∈ R.getSubConfigurations c k) :
    R.rank d < R.rank c := R.finite.choose_spec.2 c k d h hd

end ConfigurationReader

inductive ConfigTree
  | string (v : String)
  | list (vs : List ConfigTree)
  | map (es : List (String × ConfigTree))

namespace ConfigTree

def get? : ConfigTree → String → Option ConfigTree
  | .map es, k => (es.find? fun e => e.1 = k).map Prod.snd
  | _, _ => none

def isMap : ConfigTree → Bool
  | .map _ => true
  | _ => false

def string? : ConfigTree → Option String
  | .string v => some v
  | _ => none

def list? : ConfigTree → Option (List ConfigTree)
  | .list vs => some vs
  | _ => none

theorem sizeOf_get? {c d : ConfigTree} {k : String} (h : c.get? k = some d) :
    sizeOf d < sizeOf c := by
  cases c with
  | string v => cases h
  | list vs => cases h
  | map es =>
    obtain ⟨e, he, rfl⟩ := Option.map_eq_some_iff.mp h
    have hmem := List.sizeOf_lt_of_mem (List.mem_of_find?_eq_some he)
    cases e
    simp only [ConfigTree.map.sizeOf_spec, Prod.mk.sizeOf_spec] at hmem ⊢
    omega

def keys : ConfigTree → List String
  | .map es => es.map Prod.fst
  | _ => []

def has (c : ConfigTree) (k : String) : Bool := (c.get? k).isSome

def stringAt (c : ConfigTree) (k : String) : Option String := (c.get? k).bind string?

def listAt (c : ConfigTree) (k : String) : Option (List ConfigTree) := (c.get? k).bind list?

def stringListAt (c : ConfigTree) (k : String) : Option (List String) :=
  (c.listAt k).bind fun vs => vs.mapM string?

def isListAt (c : ConfigTree) (k : String) : Bool := (c.listAt k).isSome

def isMapAt (c : ConfigTree) (k : String) : Bool := ((c.get? k).filter isMap).isSome

def isMapListAt (c : ConfigTree) (k : String) : Bool :=
  ((c.listAt k).filter fun vs => vs.all isMap).isSome

def mapAt (c : ConfigTree) (k : String) : Except Exception ConfigTree :=
  match c.get? k with
  | some d => .ok d
  | none => .error (.userError k)

theorem sizeOf_listAt {c d : ConfigTree} {k : String} (h : d ∈ (c.listAt k).getD []) :
    sizeOf d < sizeOf c := by
  unfold listAt at h
  cases hget : c.get? k with
  | none => simp [hget] at h
  | some e =>
    refine Nat.lt_trans ?_ (sizeOf_get? hget)
    rw [hget] at h
    cases e with
    | string v => simp [list?] at h
    | map es => simp [list?] at h
    | list vs =>
      have hmem := List.sizeOf_lt_of_mem (show d ∈ vs from h)
      simp only [ConfigTree.list.sizeOf_spec]
      omega

def reader : ConfigurationReader ConfigTree where
  keys := keys
  has := has
  getBool _ k := .error (.userError k)
  boolean _ _ := none
  booleanList _ _ := none
  floatingPoint _ _ := none
  floatingPointList _ _ := none
  integral _ _ := none
  integralList _ _ := none
  string := stringAt
  stringList := stringListAt
  isNull _ _ := false
  isList := isListAt
  isSubConfiguration := isMapAt
  isSubConfigurationList := isMapListAt
  getFloatVector _ _ := []
  getSubConfiguration := mapAt
  getSubConfigurations c k := (c.listAt k).getD []
  print _ := ""
  finite := by
    refine ⟨sizeOf, ?_, ?_⟩
    · intro c k d _ h
      unfold mapAt at h
      split at h
      next e hget =>
        cases h
        exact sizeOf_get? hget
      · cases h
    · intro c k d _ h
      exact sizeOf_listAt h

end ConfigTree
end Multio.Config
