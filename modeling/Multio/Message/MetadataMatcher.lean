import Multio.Config.Configuration
import Multio.Lib.OrderedMap
import Multio.Message.Message

namespace Multio
open Lib Config Exception

def floatIsNaN (bits : UInt32) : Bool := bits &&& 0x7FFFFFFF > 0x7F800000
def doubleIsNaN (bits : UInt64) : Bool := bits &&& 0x7FFFFFFFFFFFFFFF > 0x7FF0000000000000

/-- `==` of single precision: no NaN equals anything, and both zeros are equal. -/
def floatEq (a b : UInt32) : Bool :=
  !floatIsNaN a && !floatIsNaN b && (a == b || a &&& 0x7FFFFFFF == 0 && b &&& 0x7FFFFFFF == 0)

def doubleEq (a b : UInt64) : Bool :=
  !doubleIsNaN a && !doubleIsNaN b &&
    (a == b || a &&& 0x7FFFFFFFFFFFFFFF == 0 && b &&& 0x7FFFFFFFFFFFFFFF == 0)

namespace MetadataValue

/-- `index()`, the place of the alternative held in the variant. -/
def index : MetadataValue → ℕ
  | .null => 0
  | .bool _ => 1
  | .int64 _ => 2
  | .double _ => 3
  | .float _ => 4
  | .string _ => 5
  | .bytes _ => 6
  | .bools _ => 7
  | .int64s _ => 8
  | .doubles _ => 9
  | .floats _ => 10
  | .strings _ => 11
  | .nested _ => 12

/-- Whether the value has a hash: there is none for lists and metadata. -/
def hashable : MetadataValue → Except Exception Unit
  | .nested _ => .error (.metadata "Hashing of Metadata is not supported")
  | .null | .bool _ | .int64 _ | .double _ | .float _ | .string _ => .ok ()
  | _ => .error (.metadata "Hashing of vector is not supported")

/-- `==` of values that have a hash. -/
def scalarEq : MetadataValue → MetadataValue → Bool
  | .null, .null => true
  | .bool a, .bool b => a == b
  | .int64 a, .int64 b => a == b
  | .double a, .double b => doubleEq a b
  | .float a, .float b => floatEq a b
  | .string a, .string b => a == b
  | _, _ => false

end MetadataValue

/-- `std::unordered_set<MetadataValue>`, its members in the order in which they came. -/
abbrev ValueSet := List MetadataValue

namespace ValueSet

def contains (s : ValueSet) (v : MetadataValue) : Bool := s.any fun x => x.scalarEq v

def emplace (s : ValueSet) (v : MetadataValue) : Except Exception ValueSet := do
  v.hashable
  .ok (if contains s v then s else s ++ [v])

/-- Whether `find` finds the value; no value is hashed to look into an empty set. -/
def find (s : ValueSet) (v : MetadataValue) : Except Exception Bool :=
  if s.isEmpty then .ok false
  else do
    v.hashable
    .ok (contains s v)

end ValueSet

section

variable {C : Type} (R : ConfigurationReader C) (policy : HashPolicy String)

/-- `tryToMetadataValue(c, key)`. -/
def tryToMetadataValue (c : C) (key : String) : Except Exception (Option MetadataValue) :=
  match R.boolean c key, R.booleanList c key, R.floatingPoint c key, R.floatingPointList c key,
    R.integral c key, R.integralList c key, R.string c key, R.stringList c key with
  | some v, _, _, _, _, _, _, _ => .ok (some (.bool v))
  | _, some v, _, _, _, _, _, _ => .ok (some (.bools (v.map fun i => i != 0)))
  | _, _, some v, _, _, _, _, _ => .ok (some (.double v))
  | _, _, _, some v, _, _, _, _ => .ok (some (.doubles v))
  | _, _, _, _, some v, _, _, _ => .ok (some (.int64 v))
  | _, _, _, _, _, some v, _, _ => .ok (some (.int64s v))
  | _, _, _, _, _, _, some v, _ => .ok (some (.string v))
  | _, _, _, _, _, _, _, some v => .ok (some (.strings v))
  | _, _, _, _, _, _, _, _ =>
    -- values of no known type are left out of a nested map
    if _hsub : R.isSubConfiguration c key = true then
      match _hget : R.getSubConfiguration c key with
      | .error e => .error e
      | .ok d => do
        let m ← (R.keys d).foldlM (fun m k => do
          match ← tryToMetadataValue d k with
          | some v => .ok (m.insertOrAssign policy k v)
          | none => .ok m) { bucketCount := policy.nextBucketCount 512 }
        .ok (some (.nested m))
    else if R.isNull c key then .ok (some .null)
    else .ok none
termination_by R.rank c
decreasing_by exact R.rank_subConfiguration c key d (Or.inr _hsub) _hget

end

inductive Predicate
  | none
  | negate
  deriving DecidableEq

/-- `negatePredicate`, which is also `invert`. -/
def Predicate.invert : Predicate → Predicate
  | .none => .negate
  | .negate => .none

inductive Reduce
  | or
  | and
  deriving DecidableEq

def Predicate.apply (p : Predicate) (res : Bool) : Bool := if p = .negate then !res else res

structure MatchKeys where
  predicate : Predicate
  enforceSameKeyTypes : Bool
  matcher : List (String × ValueSet)

/-- `MatchReduce::Elem`; its second alternative has the members of a `MatchReduce`. -/
inductive Elem
  | matchKeys (m : MatchKeys)
  | matchReduce (matchers : List Elem) (reduce : Reduce) (predicate : Predicate)

structure MatchReduce where
  matchers : List Elem := []
  reduce : Reduce
  predicate : Predicate

def MatchReduce.toElem (m : MatchReduce) : Elem := .matchReduce m.matchers m.reduce m.predicate

/-- `extend`. -/
def MatchReduce.extend (m : MatchReduce) (e : Elem) : MatchReduce :=
  { m with matchers := m.matchers ++ [e] }

section

variable {C : Type} (R : ConfigurationReader C) (policy : HashPolicy String)

/-- The values of a list of integers, of floating point numbers or of strings. -/
def listOfScalars (cfg : C) (k : String) : Option (List MetadataValue) :=
  match R.integralList cfg k, R.floatingPointList cfg k, R.stringList cfg k with
  | some vs, _, _ => some (vs.map .int64)
  | _, some _, _ => some ((R.getFloatVector cfg k).map .float)
  | _, _, some vs => some (vs.map .string)
  | _, _, _ => none

def MatchKeys.values (cfg : C) (k : String) : Except Exception ValueSet :=
  match listOfScalars R cfg k with
  | some vs => vs.foldlM ValueSet.emplace []
  | none =>
    if R.isList cfg k then
      .error (.metadata ("Matcher for key \"" ++ k ++ "\" seems to be a list of mixed or non " ++
        "scalar types - can only handle list of int, float or string: " ++ R.print cfg))
    else do
      match ← tryToMetadataValue R policy cfg k with
      | some v => ValueSet.emplace [] v
      | none => .error (.metadata ("Matcher for key \"" ++ k ++
          "\" can not be represented by an internal metadata value: " ++ R.print cfg))

/-- The constructor of `MatchKeys`. -/
def MatchKeys.construct (cfg : C) (p : Predicate) (enforceSameKeyTypes : Bool) :
    Except Exception MatchKeys := do
  let matcher ← (R.keys cfg).foldlM (fun (m : OrderedMap String ValueSet) k => do
    let s ← MatchKeys.values R policy cfg k
    .ok (m.emplace k s)) ∅
  .ok { predicate := p, enforceSameKeyTypes, matcher := matcher.entries }

/-- `constructMatchIgnore`, the block `key` of the configuration. -/
def constructMatchIgnore (cfg : C) (key : String) (p : Predicate) (enforceSameKeyTypes : Bool) :
    Except Exception (MatchKeys ⊕ MatchReduce) :=
  if R.isSubConfiguration cfg key then do
    let sub ← R.getSubConfiguration cfg key
    let m ← MatchKeys.construct R policy sub p enforceSameKeyTypes
    .ok (.inl m)
  else if R.isSubConfigurationList cfg key then
    match R.getSubConfigurations cfg key with
    -- a list of one map is taken for the map
    | [v] => do
      let m ← MatchKeys.construct R policy v p enforceSameKeyTypes
      .ok (.inl m)
    | vs => do
      let ms ← vs.mapM fun v => MatchKeys.construct R policy v .none enforceSameKeyTypes
      .ok (.inr { matchers := ms.map .matchKeys, reduce := .or, predicate := p })
  else
    .error (.metadata ("MetadataMatcher: The block for \"" ++ key ++
      "\" is expected to be a map or list of maps. This one is something else: " ++ R.print cfg))

def elemOf : MatchKeys ⊕ MatchReduce → Elem
  | .inl m => .matchKeys m
  | .inr m => m.toElem

def reduceOf : MatchKeys ⊕ MatchReduce → MatchReduce
  | .inl m => { matchers := [.matchKeys m], reduce := .or, predicate := .none }
  | .inr m => m

/-- The branch of `construct` for a `match` or an `ignore` block, or both. -/
def constructMatch (cfg : C) (p : Predicate) (enforceSameKeyTypes : Bool) :
    Except Exception MatchReduce :=
  if R.has cfg "match" && R.has cfg "ignore" then do
    let m ← constructMatchIgnore R policy cfg "match" .none enforceSameKeyTypes
    let i ← constructMatchIgnore R policy cfg "ignore" .negate enforceSameKeyTypes
    -- the predicate goes to the conjunction, not to its members
    let res : MatchReduce := { reduce := .and, predicate := p }
    .ok ((res.extend (elemOf m)).extend (elemOf i))
  else do
    let b ← (if R.has cfg "match" then
        constructMatchIgnore R policy cfg "match" p enforceSameKeyTypes
      else constructMatchIgnore R policy cfg "ignore" p.invert enforceSameKeyTypes :
        Except Exception (MatchKeys ⊕ MatchReduce))
    .ok (reduceOf b)

def checkKeys (cfg : C) : Except Exception Unit :=
  let checkKeySum := (R.has cfg "any").toNat + (R.has cfg "all").toNat + (R.has cfg "not").toNat +
    (R.has cfg "match" || R.has cfg "ignore").toNat
  if checkKeySum > 1 then
    .error (.metadata ("MetadataMatcher: can only have either \"any\", \"all\", \"not\" or " ++
      "directly a \"match\"/\"ignore\" configuration but not their combination: " ++ R.print cfg))
  else if checkKeySum = 0 then
    .error (.metadata ("MetadataMatcher: Require  a \"any\", \"all\", \"not\", \"match\" or " ++
      "\"ignore\" configuration block: " ++ R.print cfg))
  else .ok ()

/-- The key types are enforced as the configuration says, or as in the one around it. -/
def enforcesKeyTypes (cfg : C) (enforceSameKeyTypesParent : Bool) : Except Exception Bool :=
  if R.has cfg "enforce-same-key-types" then R.getBool cfg "enforce-same-key-types"
  else .ok enforceSameKeyTypesParent

/-- The key of the list of an `all` or `any` configuration. -/
def listKey (cfg : C) : String := if R.has cfg "all" then "all" else "any"

def listReduce (cfg : C) : Reduce := if R.has cfg "all" then .and else .or

/-- `MatchReduce::construct`. -/
def MatchReduce.construct (cfg : C) (p : Predicate) (enforceSameKeyTypesParent : Bool) :
    Except Exception MatchReduce := do
  let enforceSameKeyTypes ← enforcesKeyTypes R cfg enforceSameKeyTypesParent
  checkKeys R cfg
  if _hnot : R.has cfg "not" = true then
    match _hget : R.getSubConfiguration cfg "not" with
    | .error e => .error e
    -- a negation is pushed inwards
    | .ok sub => construct sub p.invert enforceSameKeyTypes
  else if R.has cfg "match" || R.has cfg "ignore" then
    constructMatch R policy cfg p enforceSameKeyTypes
  else if _hlist : R.isSubConfigurationList cfg (listKey R cfg) = true then do
    let ms ← (R.getSubConfigurations cfg (listKey R cfg)).attach.mapM fun ⟨v, _⟩ =>
      construct v .none enforceSameKeyTypes
    .ok { matchers := ms.map toElem, reduce := listReduce R cfg, predicate := p }
  else
    .error (.metadata ("MetadataMatcher: The block for \"" ++ listKey R cfg ++
      "\" is expected to be a list of maps: " ++ R.print cfg))
termination_by R.rank cfg
decreasing_by
  · exact R.rank_subConfiguration cfg "not" sub (Or.inl _hnot) _hget
  · exact R.rank_subConfigurations cfg _ v _hlist ‹_›

/-- `construct` with the choice of the branch taken apart from the termination argument. -/
theorem MatchReduce.construct_eq (cfg : C) (p : Predicate) (parent : Bool) :
    MatchReduce.construct R policy cfg p parent = (do
      let enforceSameKeyTypes ← enforcesKeyTypes R cfg parent
      checkKeys R cfg
      if R.has cfg "not" = true then do
        let sub ← R.getSubConfiguration cfg "not"
        construct R policy sub p.invert enforceSameKeyTypes
      else if R.has cfg "match" || R.has cfg "ignore" then
        constructMatch R policy cfg p enforceSameKeyTypes
      else if R.isSubConfigurationList cfg (listKey R cfg) = true then do
        let ms ← (R.getSubConfigurations cfg (listKey R cfg)).mapM fun v =>
          construct R policy v .none enforceSameKeyTypes
        .ok { matchers := ms.map toElem, reduce := listReduce R cfg, predicate := p }
      else
        .error (.metadata ("MetadataMatcher: The block for \"" ++ listKey R cfg ++
          "\" is expected to be a list of maps: " ++ R.print cfg))) := by
  rw [MatchReduce.construct]
  congr 1
  funext enforce
  congr 1
  funext _
  split_ifs
  · cases R.getSubConfiguration cfg "not" with
    | error e => rfl
    | ok sub => rfl
  · rfl
  · simp
  · rfl

end

/-- The texts of metadata and of sets of values in the messages of exceptions. -/
structure MatchContext extends Context where
  printValues : ValueSet → String

variable (ctx : MatchContext)

/-- The comparison of the types of a value that is not in the set and of the values of the set. -/
def checkTypes (enforceSameKeyTypes : Bool) (md : BaseMetadata) (k : String) (s : ValueSet)
    (v : MetadataValue) : Except Exception Unit :=
  match s with
  | [] => .ok ()
  | x :: _ =>
    if enforceSameKeyTypes && x.index != v.index then
      .error (.metadata ("[enforce-same-key-type] Matcher for key \"" ++ k ++
        "\" contains values of a different type than the metadata.\nmetadata: " ++
        ctx.toString md ++ "\nmatch keys: \x7b" ++ ctx.printValues s))
    else .ok ()

/-- The loop of `MatchKeys::matches`. -/
def MatchKeys.matchesAll (enforceSameKeyTypes : Bool) (md : BaseMetadata) :
    List (String × ValueSet) → Except Exception Bool
  | [] => .ok true
  | (k, s) :: rest =>
    match Metadata.find ctx.parametrization md k with
    | none => .ok false
    | some v => do
      if ← ValueSet.find s v then matchesAll enforceSameKeyTypes md rest
      else do
        checkTypes ctx enforceSameKeyTypes md k s v
        .ok false

def MatchKeys.matches (m : MatchKeys) (md : BaseMetadata) : Except Exception Bool := do
  let res ← MatchKeys.matchesAll ctx m.enforceSameKeyTypes md m.matcher
  .ok (m.predicate.apply res)

mutual

/-- `matchesVariant`. -/
def Elem.matches (md : BaseMetadata) : Elem → Except Exception Bool
  | .matchKeys m => m.matches ctx md
  | .matchReduce ms r p => do
    let res ← Elem.matchesList md r ms
    .ok (p.apply res)

/-- The loops of `MatchReduce::matches`, which stop at the first element that decides. -/
def Elem.matchesList (md : BaseMetadata) (r : Reduce) : List Elem → Except Exception Bool
  | [] => .ok (r = .and)
  | e :: es => do
    let b ← Elem.matches md e
    match r, b with
    | .or, true => .ok true
    | .and, false => .ok false
    | _, _ => Elem.matchesList md r es

end

def MatchReduce.matches (m : MatchReduce) (md : BaseMetadata) : Except Exception Bool := do
  let res ← Elem.matchesList ctx md m.reduce m.matchers
  .ok (m.predicate.apply res)

end Multio
