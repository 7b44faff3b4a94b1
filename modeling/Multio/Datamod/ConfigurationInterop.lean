import Multio.Datamod.MetadataInterop
import Multio.Lib.OrderedMap
import Mathlib.Data.String.Basic

namespace Multio.Datamod

open Lib

inductive TypeTag
  | bool | int64 | double | string | int64s | doubles | strings
  deriving DecidableEq, Repr

@[reducible] def TypeTag.Val : TypeTag → Type
  | .bool => Bool
  | .int64 => ℤ
  | .double => UInt64
  | .string => String
  | .int64s => List ℤ
  | .doubles => List UInt64
  | .strings => List String

def TypeTag.toStd : (t : TypeTag) → t.Val → StdVal
  | .bool, v => .bool v
  | .int64, v => .int64 v
  | .double, v => .double v
  | .string, v => .string v
  | .int64s, v => .int64s v
  | .doubles, v => .doubles v
  | .strings, v => .strings v

def TypeTag.typeName : TypeTag → String
  | .bool => "bool"
  | .int64 => "std::int64_t"
  | .double => "double"
  | .string => "std::string"
  | .int64s => "std::vector<std::int64_t>"
  | .doubles => "std::vector<double>"
  | .strings => "std::vector<std::string>"

/-- The predicates `isBoolean`, `isBooleanList` and so on. -/
inductive ConfKind
  | boolean | booleanList | floatingPoint | floatingPointList | integral | integralList
  | string | stringList | subConfiguration
  deriving DecidableEq, Repr

/-- `eckit::LocalConfiguration`. -/
structure ConfigurationApi where
  Conf : Type
  /-- The default constructor. -/
  empty : Conf
  keys : Conf → List String
  has : Conf → String → Bool
  isNull : Conf → String → Bool
  is : ConfKind → Conf → String → Bool
  /-- `getValueByType`. -/
  get : (t : TypeTag) → Conf → String → t.Val
  set : Conf → String → StdVal → Conf
  remove : Conf → String → Conf
  print : Conf → String
  printKeys : List String → String

/-- What a configuration holds under a key: a value that it has been given, or another one. -/
inductive Content
  | value (v : StdVal)
  | other
  deriving DecidableEq

/-- The predicate that holds of a value, unless it is an empty list. -/
def StdVal.kind : StdVal → ConfKind
  | .bool _ => .boolean
  | .int64 _ => .integral
  | .double _ => .floatingPoint
  | .string _ => .string
  | .bools _ => .booleanList
  | .int64s _ => .integralList
  | .doubles _ => .floatingPointList
  | .strings _ => .stringList

def StdVal.isEmptyList : StdVal → Bool
  | .bools [] | .int64s [] | .doubles [] | .strings [] => true
  | _ => false

/-- A configuration keeps what is set, and its predicates tell the types of what it keeps.
`empties` are the predicates that hold of empty lists. -/
structure ConfigurationApi.Faithful (A : ConfigurationApi) (empties : ConfKind → Bool) where
  contents : A.Conf → String → Option Content
  contents_empty (key : String) : contents A.empty key = none
  contents_set (conf : A.Conf) (key : String) (v : StdVal) :
    contents (A.set conf key v) = Function.update (contents conf) key (some (.value v))
  contents_remove (conf : A.Conf) (key : String) :
    contents (A.remove conf key) = Function.update (contents conf) key none
  mem_keys (conf : A.Conf) (key : String) : key ∈ A.keys conf ↔ contents conf key ≠ none
  has_eq (conf : A.Conf) (key : String) : A.has conf key = (contents conf key).isSome
  isNull_eq (conf : A.Conf) (key : String) (v : StdVal) :
    contents conf key = some (.value v) → A.isNull conf key = false
  is_eq (conf : A.Conf) (key : String) (v : StdVal) (kind : ConfKind) :
    contents conf key = some (.value v) →
      A.is kind conf key = if v.isEmptyList then empties kind else decide (v.kind = kind)
  get_eq (conf : A.Conf) (key : String) (t : TypeTag) (v : t.Val) :
    contents conf key = some (.value (t.toStd v)) → A.get t conf key = v

namespace RecordType

variable {R : RecordType} (A : ConfigurationApi) (C : Conversions)

/-- What `visitNonNullValue` calls its function with. -/
inductive Visited
  | tag (t : TypeTag)
  | subConfiguration
  | nothing
  deriving DecidableEq

/-- `visitNonNullValue`, given the predicates that hold. -/
def visitNonNullValue (is : ConfKind → Bool) : Visited :=
  if is .boolean then .tag .bool
  else if is .booleanList then .tag .int64s
  else if is .floatingPoint then .tag .double
  else if is .floatingPointList then .tag .doubles
  else if is .integral then .tag .int64
  else if is .integralList then .tag .doubles
  else if is .string then .tag .string
  else if is .stringList then .tag .strings
  else if is .subConfiguration then .subConfiguration
  else .nothing

def checkConfiguration (R : RecordType) (conf : A.Conf) : Except Exception Unit :=
  let keys := (A.keys conf).filter fun key => !R.containsKey key
  if keys.length > 0 then
    .error (.dataModelling ("The passed configuration contains more keys than expected: " ++
      A.printKeys keys ++ " in configuration " ++ A.print conf))
  else .ok ()

def throwUnsupported (typeStr keyInfo : String) (conf : A.Conf) : Exception :=
  .dataModelling ("Unsupported type " ++ typeStr ++ " for key " ++ keyInfo ++
    " in eckit::Configuration: " ++ A.print conf)

/-- `getByRef`. -/
def getFromConfiguration (conf : A.Conf) (k : R.Entries) :
    Except Exception (Entry (R.type k).Val) :=
  if A.has conf (R.key k) = false then
    if R.tag k = .Required then
      .error (.dataModelling ("eckit::Configuration has no key " ++ R.keyInfo k ++ ": " ++
        A.print conf ++ "\n"))
    else .ok .unset
  else if A.isNull conf (R.key k) then
    if R.tag k = .Required then
      .error (.dataModelling ("Key \"" ++ R.keyInfo k ++
        "\" in eckit::Configuration should have a non-null value: " ++ A.print conf))
    else .ok .unset
  else
    match visitNonNullValue fun kind => A.is kind conf (R.key k) with
    | .nothing =>
      .error (.dataModelling ("Unsupported value for key " ++ R.keyInfo k ++
        " in eckit::Configuration: " ++ A.print conf))
    | .subConfiguration =>
      .error (throwUnsupported A "eckit::LocalConfiguration" (R.keyInfo k) conf)
    | .tag t =>
      match (R.type k).makeEntry C false (t.toStd (A.get t conf (R.key k))) with
      | some e => e
      | none => .error (throwUnsupported A t.typeName (R.keyInfo k) conf)

/-- `parseRecord` from a configuration; entries are never references. -/
def parseConfiguration (R : RecordType) (allowAdditionalKeys : Bool) (conf : A.Conf) :
    Except Exception R.Record :=
  parseRecord (checkConfiguration A R conf) allowAdditionalKeys (getFromConfiguration A C conf)

/-- `EntryDumper::set`. -/
def setInConfiguration (rec : R.Record) (conf : A.Conf) (k : R.Entries) : A.Conf :=
  match (rec k).visit with
  | none => if A.has conf (R.key k) then A.remove conf (R.key k) else conf
  | some v => A.set conf (R.key k) ((R.type k).dump v)

/-- `dumpRecord` to a configuration. -/
def dumpConfiguration (rec : R.Record) (conf : A.Conf) : A.Conf :=
  dumpEntries (setInConfiguration A rec) conf

/-- The value is read under the type that has been written. Lists of booleans and of integers
are not, and of empty lists only those of the type that is taken for empty lists. -/
def Kept (empties : ConfKind → Bool) : (t : ValueType) → t.Val → Prop
  | .bools, _ => False
  | .int64s, v => v = [] ∧ visitNonNullValue empties = .tag .int64s
  | .doubles, v => v = [] → visitNonNullValue empties = .tag .doubles
  | .strings, v => v = [] → visitNonNullValue empties = .tag .strings
  | _, _ => True

def visited (empties : ConfKind → Bool) (v : StdVal) : Visited :=
  visitNonNullValue fun kind => if v.isEmptyList then empties kind else decide (v.kind = kind)

theorem visited_of_isEmptyList (empties : ConfKind → Bool) {v : StdVal} (h : v.isEmptyList) :
    visited empties v = visitNonNullValue empties := by
  unfold visited
  congr 1
  funext kind
  rw [if_pos h]

theorem visited_dump_of_kept {empties : ConfKind → Bool} (t : ValueType) (v : t.Val)
    (h : Kept empties t v) :
    ∃ (tag : TypeTag) (x : tag.Val), visited empties (t.dump v) = .tag tag ∧
      tag.toStd x = t.dump v := by
  cases t with
  | int64 => exact ⟨.int64, v, rfl, rfl⟩
  | double => exact ⟨.double, v, rfl, rfl⟩
  | bool => exact ⟨.bool, v, rfl, rfl⟩
  | string => exact ⟨.string, v, rfl, rfl⟩
  | intOrString =>
    cases v with
    | inl n => exact ⟨.int64, n, rfl, rfl⟩
    | inr s => exact ⟨.string, s, rfl, rfl⟩
  | bools => exact absurd h id
  | int64s =>
    obtain ⟨rfl, hempty⟩ := h
    exact ⟨.int64s, [], (visited_of_isEmptyList empties rfl).trans hempty, rfl⟩
  | doubles =>
    cases v with
    | nil => exact ⟨.doubles, [], (visited_of_isEmptyList empties rfl).trans (h rfl), rfl⟩
    | cons x l => exact ⟨.doubles, x :: l, rfl, rfl⟩
  | strings =>
    cases v with
    | nil => exact ⟨.strings, [], (visited_of_isEmptyList empties rfl).trans (h rfl), rfl⟩
    | cons x l => exact ⟨.strings, x :: l, rfl, rfl⟩
  | timeDuration =>
    cases v with
    | hours count isInt64 => exact ⟨.int64, count, rfl, rfl⟩
    | seconds count isInt64 => exact ⟨.string, toString count ++ "s", rfl, rfl⟩
  | statType => exact ⟨.string, v.dump, rfl, rfl⟩
  | levType => exact ⟨.string, v.dump, rfl, rfl⟩
  | repres => exact ⟨.string, v.dump, rfl, rfl⟩
  | param => exact ⟨.int64, v.id, rfl, rfl⟩
  | typeOfProcessedData => exact ⟨.string, v.dump, rfl, rfl⟩

theorem makeEntry_of_not_kept (C : Conversions) {empties : ConfKind → Bool} (t : ValueType)
    (v : t.Val) (h : ¬ Kept empties t v) {tag : TypeTag}
    (htag : visited empties (t.dump v) = .tag tag) (x : tag.Val) :
    t.makeEntry C false (tag.toStd x) = none := by
  cases t with
  | bools => cases tag <;> rfl
  | int64s =>
    cases v with
    | nil =>
      have hne : tag ≠ .int64s := by
        rintro rfl
        exact h ⟨rfl, (visited_of_isEmptyList empties rfl).symm.trans htag⟩
      cases tag with
      | int64s => exact absurd rfl hne
      | _ => rfl
    | cons y l =>
      -- the type tag of integer lists is that of lists of doubles
      obtain rfl : TypeTag.doubles = tag := Visited.tag.inj htag
      rfl
  | doubles =>
    have hne : tag ≠ .doubles := by
      rintro rfl
      apply h
      rintro rfl
      exact (visited_of_isEmptyList empties rfl).symm.trans htag
    cases tag with
    | doubles => exact absurd rfl hne
    | _ => rfl
  | strings =>
    have hne : tag ≠ .strings := by
      rintro rfl
      apply h
      rintro rfl
      exact (visited_of_isEmptyList empties rfl).symm.trans htag
    cases tag with
    | strings => exact absurd rfl hne
    | _ => rfl
  | _ => exact absurd trivial h

section RoundTrip

variable {A} {empties : ConfKind → Bool} (F : A.Faithful empties)

def inConfiguration (rec : R.Record) (k : R.Entries) : Option Content :=
  (rec k).visit.map fun v => .value ((R.type k).dump v)

theorem contents_setInConfiguration (rec : R.Record) (conf : A.Conf) (k : R.Entries) :
    F.contents (setInConfiguration A rec conf k) =
      Function.update (F.contents conf) (R.key k) (inConfiguration rec k) := by
  rw [setInConfiguration, inConfiguration]
  cases (rec k).visit with
  | some v => exact F.contents_set conf (R.key k) _
  | none =>
    simp only [Option.map_none]
    split
    · exact F.contents_remove conf (R.key k)
    · rename_i hhas
      have hnone : F.contents conf (R.key k) = none := by
        rw [F.has_eq] at hhas
        simpa using hhas
      rw [← hnone, Function.update_eq_self]

theorem contents_dumpConfiguration (rec : R.Record) :
    (∀ k, F.contents (dumpConfiguration A rec A.empty) (R.key k) = inConfiguration rec k) ∧
      ∀ s, s ∉ R.entries.map R.key → F.contents (dumpConfiguration A rec A.empty) s = none := by
  obtain ⟨hkeys, hother⟩ := contents_dumpEntries (fun _ => True) (fun _ _ _ => trivial)
    (fun c k _ => contents_setInConfiguration F rec c k) (c := A.empty) trivial
  exact ⟨hkeys, fun s hs => (hother s hs).trans (F.contents_empty s)⟩

theorem getFromConfiguration_value {conf : A.Conf} {k : R.Entries} {v : (R.type k).Val}
    (hv : F.contents conf (R.key k) = some (.value ((R.type k).dump v))) :
    (Kept empties (R.type k) v →
        ∃ e, getFromConfiguration A C conf k = .ok e ∧ e.visit = some v) ∧
      (¬ Kept empties (R.type k) v → ∀ e, getFromConfiguration A C conf k ≠ .ok e) := by
  have hhas : A.has conf (R.key k) = true := by
    rw [F.has_eq, hv]
    rfl
  have his : (fun kind => A.is kind conf (R.key k)) = fun kind =>
      if ((R.type k).dump v).isEmptyList then empties kind
      else decide (((R.type k).dump v).kind = kind) :=
    funext fun kind => F.is_eq conf (R.key k) _ kind hv
  have hvisited : visitNonNullValue (fun kind => A.is kind conf (R.key k)) =
      visited empties ((R.type k).dump v) := by
    rw [his]
    rfl
  rw [getFromConfiguration, hhas, F.isNull_eq conf (R.key k) _ hv, hvisited]
  simp only [Bool.true_eq_false, Bool.false_eq_true, if_false]
  constructor
  · intro hkept
    obtain ⟨tag, x, htag, hx⟩ := visited_dump_of_kept (R.type k) v hkept
    have hget : A.get tag conf (R.key k) = x := F.get_eq conf (R.key k) tag x (hx ▸ hv)
    obtain ⟨e, he, hvisit⟩ := (R.type k).makeEntry_dump C false v
    refine ⟨e, ?_, hvisit⟩
    simp only [htag]
    rw [hget, hx, he]
  · intro hkept e he
    cases hcase : visited empties ((R.type k).dump v) with
    | nothing => simp [hcase] at he
    | subConfiguration => simp [hcase] at he
    | tag t =>
      simp only [hcase] at he
      rw [makeEntry_of_not_kept C (R.type k) v hkept hcase] at he
      cases he

theorem getFromConfiguration_unset {conf : A.Conf} {k : R.Entries} (htag : R.tag k = .Optional)
    (hnone : F.contents conf (R.key k) = none) : getFromConfiguration A C conf k = .ok .unset := by
  have hhas : A.has conf (R.key k) = false := by
    rw [F.has_eq, hnone]
    rfl
  rw [getFromConfiguration, if_pos hhas, if_neg]
  rw [htag]
  exact nofun

end RoundTrip

end RecordType
end Multio.Datamod
