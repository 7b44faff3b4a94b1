import Multio.Message.MatcherSemantics

namespace Multio
open Lib Config Exception

inductive Scalar
  | boolean (v : Bool)
  | integral (v : ℤ)
  | floatingPoint (bits : UInt64)
  | string (v : String)

inductive ScalarList
  | booleans (vs : List Bool)
  | integrals (vs : List ℤ)
  | floatingPoints (vs : List UInt64)
  | strings (vs : List String)

namespace ScalarList

def scalars : ScalarList → List Scalar
  | booleans vs => vs.map .boolean
  | integrals vs => vs.map .integral
  | floatingPoints vs => vs.map .floatingPoint
  | strings vs => vs.map .string

/-- Integers and strings, and numbers of which none equals a number. -/
def SameAsScalars (toFloat : UInt64 → UInt32) : ScalarList → Prop
  | booleans _ => False
  | integrals _ => True
  | floatingPoints vs => ∀ v ∈ vs, doubleIsNaN v = true ∧ floatIsNaN (toFloat v) = true
  | strings _ => True

end ScalarList

def Scalar.toMetadataValue : Scalar → MetadataValue
  | boolean v => .bool v
  | integral v => .int64 v
  | floatingPoint bits => .double bits
  | string v => .string v

variable {C : Type} (R : ConfigurationReader C)

/-- What the reader says of a configuration that has the scalar `v` for the key `k` and no other
key. -/
structure IsScalarAt (cfg : C) (k : String) (v : Scalar) : Prop where
  keys : R.keys cfg = [k]
  boolean : R.boolean cfg k = match v with | .boolean b => some b | _ => none
  integral : R.integral cfg k = match v with | .integral n => some n | _ => none
  floatingPoint : R.floatingPoint cfg k = match v with | .floatingPoint x => some x | _ => none
  string : R.string cfg k = match v with | .string s => some s | _ => none
  booleanList : R.booleanList cfg k = none
  integralList : R.integralList cfg k = none
  floatingPointList : R.floatingPointList cfg k = none
  stringList : R.stringList cfg k = none
  isList : R.isList cfg k = false

/-- What the reader says of a configuration that has a list for the key `k` and no other key;
`toFloat` is the conversion to single precision. -/
structure IsListAt (toFloat : UInt64 → UInt32) (cfg : C) (k : String) (vs : ScalarList) : Prop where
  keys : R.keys cfg = [k]
  integralList : R.integralList cfg k = match vs with | .integrals ns => some ns | _ => none
  floatingPointList :
    R.floatingPointList cfg k = match vs with | .floatingPoints xs => some xs | _ => none
  stringList : R.stringList cfg k = match vs with | .strings ss => some ss | _ => none
  isList : R.isList cfg k = true
  getFloatVector : ∀ xs, vs = .floatingPoints xs → R.getFloatVector cfg k = xs.map toFloat

variable (policy : HashPolicy String) (ctx : MatchContext)

/-- The matcher of a list exists and matches what some of the matchers of its members match. -/
def AgreesWithScalars (enforceSameKeyTypes : Bool) (list : C) (scalars : List C) : Prop :=
  ∃ m ms, MatchKeys.construct R policy list .none enforceSameKeyTypes = .ok m ∧
    scalars.mapM (fun c => MatchKeys.construct R policy c .none enforceSameKeyTypes) = .ok ms ∧
    ∀ md, m.matches ctx md = .ok true ↔ ∃ m' ∈ ms, m'.matches ctx md = .ok true

variable {R policy ctx}

def oneKey (enforceSameKeyTypes : Bool) (k : String) (s : ValueSet) : MatchKeys where
  predicate := .none
  enforceSameKeyTypes
  matcher := [(k, s)]

theorem construct_oneKey {cfg : C} {k : String} (hkeys : R.keys cfg = [k]) (enforce : Bool) :
    MatchKeys.construct R policy cfg .none enforce =
      (MatchKeys.values R policy cfg k >>= fun s => .ok (oneKey enforce k s)) := by
  rw [MatchKeys.construct, hkeys]
  simp only [List.foldlM_cons, List.foldlM_nil]
  cases MatchKeys.values R policy cfg k <;> rfl

theorem hashable_of_scalarEq {x v : MetadataValue} (h : x.scalarEq v = true) :
    v.hashable = .ok () := by
  cases v with
  | null | bool | int64 | double | float | string => rfl
  | bytes | bools | int64s | doubles | floats | strings | nested => cases x <;> cases h

theorem matches_oneKey {enforce : Bool} {k : String} {s : ValueSet} {md : BaseMetadata} :
    (oneKey enforce k s).matches ctx md = .ok true ↔
      ∃ v, Metadata.find ctx.parametrization md k = some v ∧ s.contains v = true := by
  rw [MatchKeys.matches, oneKey]
  simp only [MatchKeys.matchesAll]
  cases hfind : Metadata.find ctx.parametrization md k with
  | none => simp [ok_bind, Predicate.apply]
  | some v =>
    simp only [Option.some.injEq, exists_eq_left']
    constructor
    · intro h
      obtain ⟨b, hb, h⟩ := bind_eq_ok_iff.mp h
      obtain ⟨found, hfound, hb⟩ := bind_eq_ok_iff.mp hb
      rw [← ValueSet.find_eq hfound]
      cases found with
      | true => rfl
      | false =>
        obtain ⟨-, -, hb⟩ := bind_eq_ok_iff.mp hb
        cases hb
        cases h
    · intro hcontains
      have hfound : ValueSet.find s v = .ok true := by
        obtain ⟨x, hx, hxv⟩ := List.any_eq_true.mp hcontains
        rw [ValueSet.find, if_neg, hashable_of_scalarEq hxv, ok_bind, hcontains]
        rw [List.isEmpty_iff]
        intro hempty
        rw [hempty] at hx
        cases hx
      rw [hfound]
      rfl

theorem emplace_hashable {s : ValueSet} {x : MetadataValue} (h : x.hashable = .ok ()) :
    ∃ s', ValueSet.emplace s x = .ok s' := by
  rw [ValueSet.emplace, h]
  exact ⟨_, rfl⟩

theorem foldlM_emplace_hashable {vs : List MetadataValue} (h : ∀ x ∈ vs, x.hashable = .ok ())
    (s : ValueSet) : ∃ s', vs.foldlM ValueSet.emplace s = .ok s' := by
  induction vs generalizing s with
  | nil => exact ⟨s, rfl⟩
  | cons x vs ih =>
    rw [List.forall_mem_cons] at h
    obtain ⟨s', hs'⟩ := emplace_hashable (s := s) h.1
    rw [List.foldlM_cons, hs', ok_bind]
    exact ih h.2 s'

theorem IsScalarAt.values {cfg : C} {k : String} {v : Scalar} (h : IsScalarAt R cfg k v) :
    MatchKeys.values R policy cfg k = .ok [v.toMetadataValue] := by
  have hvalue : tryToMetadataValue R policy cfg k = .ok (some v.toMetadataValue) := by
    rw [tryToMetadataValue]
    simp only [h.boolean, h.integral, h.floatingPoint, h.string, h.booleanList, h.integralList,
      h.floatingPointList, h.stringList]
    cases v <;> rfl
  rw [MatchKeys.values, listOfScalars, h.integralList, h.floatingPointList, h.stringList, h.isList]
  simp only [Bool.false_eq_true, if_false, hvalue, ok_bind]
  cases v <;> rfl

theorem IsScalarAt.construct {cfg : C} {k : String} {v : Scalar} (h : IsScalarAt R cfg k v)
    (enforce : Bool) :
    MatchKeys.construct R policy cfg .none enforce =
      .ok (oneKey enforce k [v.toMetadataValue]) := by
  rw [construct_oneKey h.keys, h.values, ok_bind]

theorem mapM_construct {k : String} {vs : List Scalar} {single : Scalar → C}
    (h : ∀ v ∈ vs, IsScalarAt R (single v) k v) (enforce : Bool) :
    (vs.map single).mapM (fun c => MatchKeys.construct R policy c .none enforce) =
      .ok (vs.map fun v => oneKey enforce k [v.toMetadataValue]) := by
  induction vs with
  | nil => rfl
  | cons v vs ih =>
    rw [List.forall_mem_cons] at h
    rw [List.map_cons, List.mapM_cons, h.1.construct, ok_bind, ih h.2, ok_bind]
    rfl

theorem exists_matches_scalar {k : String} {vs : List Scalar} {enforce : Bool}
    {md : BaseMetadata} :
    (∃ m ∈ vs.map fun v => oneKey enforce k [v.toMetadataValue], m.matches ctx md = .ok true) ↔
      ∃ x, Metadata.find ctx.parametrization md k = some x ∧
        ∃ v ∈ vs, v.toMetadataValue.scalarEq x = true := by
  simp only [List.mem_map, exists_exists_and_eq_and, matches_oneKey, ValueSet.contains,
    List.any_cons, List.any_nil, Bool.or_false]
  constructor
  · rintro ⟨v, hv, x, hx, heq⟩
    exact ⟨x, hx, v, hv, heq⟩
  · rintro ⟨x, hx, v, hv, heq⟩
    exact ⟨v, hv, x, hx, heq⟩

variable {toFloat : UInt64 → UInt32}

def ScalarList.values (toFloat : UInt64 → UInt32) : ScalarList → List MetadataValue
  | booleans _ => []
  | integrals vs => vs.map .int64
  | floatingPoints vs => (vs.map toFloat).map .float
  | strings vs => vs.map .string

theorem IsListAt.not_booleans {cfg : C} {k : String} {vs : List Bool}
    (h : IsListAt R toFloat cfg k (.booleans vs)) (enforce : Bool) (m : MatchKeys) :
    MatchKeys.construct R policy cfg .none enforce ≠ .ok m := by
  rw [construct_oneKey h.keys, MatchKeys.values, listOfScalars, h.integralList,
    h.floatingPointList, h.stringList, h.isList]
  intro hok
  cases hok

theorem IsListAt.listOfScalars {cfg : C} {k : String} {vs : ScalarList}
    (h : IsListAt R toFloat cfg k vs) (hvs : ∀ bs, vs ≠ .booleans bs) :
    listOfScalars R cfg k = some (vs.values toFloat) := by
  rw [Multio.listOfScalars, h.integralList, h.floatingPointList, h.stringList]
  cases vs with
  | booleans bs => exact absurd rfl (hvs bs)
  | integrals ns => rfl
  | floatingPoints xs => simp only [h.getFloatVector xs rfl, ScalarList.values]
  | strings ss => rfl

theorem values_hashable (vs : ScalarList) : ∀ x ∈ vs.values toFloat, x.hashable = .ok () := by
  intro x hx
  cases vs with
  | booleans bs => cases hx
  | integrals ns =>
    obtain ⟨n, -, rfl⟩ := List.mem_map.mp hx
    rfl
  | floatingPoints xs =>
    obtain ⟨n, -, rfl⟩ := List.mem_map.mp hx
    rfl
  | strings ss =>
    obtain ⟨n, -, rfl⟩ := List.mem_map.mp hx
    rfl

theorem IsListAt.construct {cfg : C} {k : String} {vs : ScalarList}
    (h : IsListAt R toFloat cfg k vs) (hvs : ∀ bs, vs ≠ .booleans bs) (enforce : Bool) :
    ∃ s, MatchKeys.construct R policy cfg .none enforce = .ok (oneKey enforce k s) ∧
      ∀ v, s.contains v = (vs.values toFloat).any fun x => x.scalarEq v := by
  obtain ⟨s, hs⟩ := foldlM_emplace_hashable (@values_hashable toFloat vs) []
  have hvalues : MatchKeys.values R policy cfg k = .ok s := by
    rw [MatchKeys.values, h.listOfScalars hvs]
    exact hs
  refine ⟨s, ?_, ?_⟩
  · rw [construct_oneKey h.keys, hvalues, ok_bind]
  · intro v
    rw [ValueSet.contains_foldlM_emplace hs]
    rfl

/-- A list agrees with its members when every value under the key equals one of the values taken
from the list exactly if it equals one of the members. -/
theorem agrees_iff {list : C} {single : Scalar → C} {k : String} {vs : ScalarList}
    (hlist : IsListAt R toFloat list k vs) (hvs : ∀ bs, vs ≠ .booleans bs)
    (hsingle : ∀ v ∈ vs.scalars, IsScalarAt R (single v) k v) (enforce : Bool) :
    AgreesWithScalars R policy ctx enforce list (vs.scalars.map single) ↔
      ∀ x, (vs.values toFloat).any (fun y => y.scalarEq x) = true ↔
        ∃ v ∈ vs.scalars, v.toMetadataValue.scalarEq x = true := by
  obtain ⟨s, hs, hcontains⟩ := @IsListAt.construct _ _ policy _ _ _ _ hlist hvs enforce
  have hmatches : ∀ md, (oneKey enforce k s).matches ctx md = .ok true ↔
      ∃ x, Metadata.find ctx.parametrization md k = some x ∧
        (vs.values toFloat).any (fun y => y.scalarEq x) = true := by
    intro md
    rw [matches_oneKey]
    simp only [hcontains]
  constructor
  · rintro ⟨m, ms, hm, hms, hagree⟩ x
    rw [hs, Except.ok.injEq] at hm
    rw [mapM_construct hsingle, Except.ok.injEq] at hms
    -- the metadata that have `x` under the key and nothing else
    have hfind : Metadata.find ctx.parametrization { bucketCount := 1, nodes := [(k, x)] } k =
        some x := by
      simp [Metadata.find, HashTable.find?]
    have hx := hagree { bucketCount := 1, nodes := [(k, x)] }
    rw [← hm, ← hms, hmatches, exists_matches_scalar, hfind] at hx
    simpa only [Option.some.injEq, exists_eq_left'] using hx
  · intro h
    refine ⟨_, _, hs, mapM_construct hsingle enforce, ?_⟩
    intro md
    rw [hmatches, exists_matches_scalar]
    simp only [h]

theorem doubleEq_self {x : UInt64} : doubleEq x x = true ↔ doubleIsNaN x = false := by
  rw [doubleEq]
  simp

theorem floatEq_self {x : UInt32} : floatEq x x = true ↔ floatIsNaN x = false := by
  rw [floatEq]
  simp

theorem doubleEq_of_isNaN {x y : UInt64} (h : doubleIsNaN x = true) : doubleEq x y = false := by
  rw [doubleEq, h]
  rfl

theorem floatEq_of_isNaN {x y : UInt32} (h : floatIsNaN x = true) : floatEq x y = false := by
  rw [floatEq, h]
  rfl

/-- A list of floating point numbers stands for its members only as long as nothing equals any of
them. -/
theorem floatingPoints_agree_iff (xs : List UInt64) :
    (∀ x, ((ScalarList.floatingPoints xs).values toFloat).any (fun y => y.scalarEq x) = true ↔
        ∃ v ∈ (ScalarList.floatingPoints xs).scalars, v.toMetadataValue.scalarEq x = true) ↔
      (ScalarList.floatingPoints xs).SameAsScalars toFloat := by
  simp only [ScalarList.values, ScalarList.scalars, List.any_map, List.any_eq_true,
    Function.comp_apply, List.mem_map, exists_exists_and_eq_and, Scalar.toMetadataValue,
    ScalarList.SameAsScalars]
  constructor
  · intro h v hv
    constructor
    · by_contra hnumber
      rw [Bool.not_eq_true, ← doubleEq_self] at hnumber
      obtain ⟨y, -, hy⟩ := (h (.double v)).mpr ⟨v, hv, hnumber⟩
      cases hy
    · by_contra hnumber
      rw [Bool.not_eq_true, ← floatEq_self] at hnumber
      obtain ⟨y, -, hy⟩ := (h (.float (toFloat v))).mp ⟨v, hv, hnumber⟩
      cases hy
  · intro h x
    constructor
    · rintro ⟨v, hv, heq⟩
      cases x with
      | float y =>
        rw [MetadataValue.scalarEq, floatEq_of_isNaN (h v hv).2] at heq
        cases heq
      | _ => cases heq
    · rintro ⟨v, hv, heq⟩
      cases x with
      | double y =>
        rw [MetadataValue.scalarEq, doubleEq_of_isNaN (h v hv).1] at heq
        cases heq
      | _ => cases heq

/-- The matcher of a list matches what the matchers of its members match if and only if the list
is one of integers or of strings, or has no number that equals anything. -/
theorem matcher_list_agrees_iff {C : Type} (R : ConfigurationReader C)
    (policy : HashPolicy String) (ctx : MatchContext) (toFloat : UInt64 → UInt32)
    {list : C} {single : Scalar → C} {k : String} {vs : ScalarList}
    (hlist : IsListAt R toFloat list k vs)
    (hsingle : ∀ v ∈ vs.scalars, IsScalarAt R (single v) k v) (enforceSameKeyTypes : Bool) :
    AgreesWithScalars R policy ctx enforceSameKeyTypes list (vs.scalars.map single) ↔
      vs.SameAsScalars toFloat := by
  cases vs with
  | booleans bs =>
    constructor
    · rintro ⟨m, -, hm, -⟩
      exact hlist.not_booleans enforceSameKeyTypes m hm
    · intro h
      cases h
  | integrals ns =>
    rw [agrees_iff hlist (fun _ h => by cases h) hsingle]
    simp [ScalarList.values, ScalarList.scalars, Scalar.toMetadataValue, ScalarList.SameAsScalars]
  | floatingPoints xs =>
    rw [agrees_iff hlist (fun _ h => by cases h) hsingle]
    exact floatingPoints_agree_iff xs
  | strings ss =>
    rw [agrees_iff hlist (fun _ h => by cases h) hsingle]
    simp [ScalarList.values, ScalarList.scalars, Scalar.toMetadataValue, ScalarList.SameAsScalars]

/-- A key with a scalar or a list. -/
abbrev SingleEntry := String × (Scalar ⊕ ScalarList)

namespace SingleEntry

def scalarAt (c : SingleEntry) (k : String) : Option Scalar := if c.1 = k then c.2.getLeft? else none

def listAt (c : SingleEntry) (k : String) : Option ScalarList :=
  if c.1 = k then c.2.getRight? else none

def reader (toFloat : UInt64 → UInt32) : ConfigurationReader SingleEntry where
  keys c := [c.1]
  has c k := c.1 = k
  getBool c k :=
    match c.scalarAt k with
    | some (.boolean b) => .ok b
    | _ => .error (.userError k)
  boolean c k := match c.scalarAt k with | some (.boolean b) => some b | _ => none
  booleanList c k :=
    match c.listAt k with
    | some (.booleans bs) => some (bs.map fun b => if b then 1 else 0)
    | _ => none
  floatingPoint c k := match c.scalarAt k with | some (.floatingPoint x) => some x | _ => none
  floatingPointList c k :=
    match c.listAt k with | some (.floatingPoints xs) => some xs | _ => none
  integral c k := match c.scalarAt k with | some (.integral n) => some n | _ => none
  integralList c k := match c.listAt k with | some (.integrals ns) => some ns | _ => none
  string c k := match c.scalarAt k with | some (.string s) => some s | _ => none
  stringList c k := match c.listAt k with | some (.strings ss) => some ss | _ => none
  isNull _ _ := false
  isList c k := (c.listAt k).isSome
  isSubConfiguration _ _ := false
  isSubConfigurationList _ _ := false
  getFloatVector c k :=
    match c.listAt k with | some (.floatingPoints xs) => xs.map toFloat | _ => []
  getSubConfiguration _ k := .error (.userError k)
  getSubConfigurations _ _ := []
  print c := c.1
  finite := ⟨fun _ => 0, fun _ _ _ _ h => (by cases h), fun _ _ _ h _ => (by cases h)⟩

variable {k : String} {v : Scalar} {vs : ScalarList}

theorem scalarAt_inl : scalarAt (k, .inl v) k = some v := if_pos rfl
theorem listAt_inl : listAt (k, .inl v) k = none := if_pos rfl
theorem listAt_inr : listAt (k, .inr vs) k = some vs := if_pos rfl

theorem isScalarAt (toFloat : UInt64 → UInt32) (k : String) (v : Scalar) :
    IsScalarAt (reader toFloat) (k, .inl v) k v := by
  constructor
  case keys => rfl
  all_goals simp only [reader, scalarAt_inl, listAt_inl, Option.isSome_none]
  all_goals cases v <;> rfl

theorem isListAt (toFloat : UInt64 → UInt32) (k : String) (vs : ScalarList) :
    IsListAt (reader toFloat) toFloat (k, .inr vs) k vs := by
  constructor
  case keys => rfl
  case getFloatVector =>
    rintro xs rfl
    simp only [reader, listAt_inr]
  all_goals simp only [reader, listAt_inr, Option.isSome_some]
  all_goals cases vs <;> rfl

end SingleEntry

/-- The conversion to single precision of the normal numbers that it does not round. -/
def exactToFloat (bits : UInt64) : UInt32 :=
  (bits >>> 63 <<< 31 ||| ((bits >>> 52 &&& 0x7FF) - 896) <<< 23 |||
    (bits &&& 0xFFFFFFFFFFFFF) >>> 29).toUInt32

example : exactToFloat 0x3FE0000000000000 = 0x3F000000 := by decide

theorem matcher_list_agrees_iff_two :
    AgreesWithScalars (SingleEntry.reader exactToFloat) namePolicy nameContext true
        ("step", .inr (.integrals [1, 2]))
        [("step", .inl (.integral 1)), ("step", .inl (.integral 2))] ↔
      (ScalarList.integrals [1, 2]).SameAsScalars exactToFloat :=
  @matcher_list_agrees_iff SingleEntry _ _ _ _ ("step", .inr (.integrals [1, 2]))
    (fun v => ("step", .inl v)) "step" (.integrals [1, 2]) (SingleEntry.isListAt _ _ _)
    (fun v _ => SingleEntry.isScalarAt _ _ v) true

/-- A half: the list holds it in single precision and the scalar in double precision. -/
theorem half_in_list_not_scalar :
    ¬AgreesWithScalars (SingleEntry.reader exactToFloat) namePolicy nameContext true
        ("level", .inr (.floatingPoints [0x3FE0000000000000]))
        [("level", .inl (.floatingPoint 0x3FE0000000000000))] := by
  intro h
  have hsame := (@agrees_iff SingleEntry _ _ _ _ ("level", .inr (.floatingPoints _))
    (fun v => ("level", .inl v)) "level" (.floatingPoints [0x3FE0000000000000])
    (SingleEntry.isListAt _ _ _) (fun _ h => by cases h)
    (fun v _ => SingleEntry.isScalarAt _ _ v) true).mp h
  obtain ⟨hnan, -⟩ := (floatingPoints_agree_iff _).mp hsame _ (List.mem_singleton.mpr rfl)
  exact absurd hnan (by decide)

end Multio
