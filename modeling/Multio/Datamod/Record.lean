import Multio.Datamod.Types
import Mathlib.Data.List.Nodup

namespace Multio.Datamod

inductive Entry (α : Type)
  | unset
  | value (v : α)
  | ref (v : α)
  deriving DecidableEq, Repr

namespace Entry

variable {α : Type}

/-- `visit`: a reference is passed on as the value it refers to. -/
def visit : Entry α → Option α
  | .unset => none
  | .value v | .ref v => some v

def isSet (e : Entry α) : Bool := e.visit.isSome

def holdsReference : Entry α → Bool
  | .ref _ => true
  | _ => false

def acquire : Entry α → Entry α
  | .ref v => .value v
  | e => e

/-- `ensureInit()` for a type whose default value is `init`. -/
def ensureInit (init : α) (e : Entry α) : Entry α := if e.isSet then e else .value init

/-- `modify()` and a change of the value that it returns; there has to be one. -/
def modify (f : α → α) : Entry α → Entry α
  | .unset => .unset
  | .value v | .ref v => .value (f v)

/-- `std::equal_to<Entry>`, with the comparison of values as a parameter. -/
def equalTo (equal : α → α → Option Bool) (lhs rhs : Entry α) : Option Bool :=
  match lhs.visit, rhs.visit with
  | none, none => some true
  | some l, some r => equal l r
  | _, _ => some false

@[simp] theorem visit_acquire (e : Entry α) : e.acquire.visit = e.visit := by cases e <;> rfl

@[simp] theorem visit_ensureInit (init : α) (e : Entry α) :
    (e.ensureInit init).visit = some (e.visit.getD init) := by cases e <;> rfl

@[simp] theorem visit_modify (f : α → α) (e : Entry α) : (e.modify f).visit = e.visit.map f := by
  cases e <;> rfl

theorem isSet_eq_of_visit {e e' : Entry α} (h : e.visit = e'.visit) : e.isSet = e'.isSet :=
  congrArg Option.isSome h

end Entry

inductive ValueType
  | int64 | double | bool | string | intOrString
  | int64s | doubles | bools | strings
  | timeDuration | statType | levType | repres | param | typeOfProcessedData
  deriving DecidableEq, Repr

@[reducible] def ValueType.Val : ValueType → Type
  | .int64 => ℤ
  | .double => UInt64
  | .bool => Bool
  | .string => String
  | .intOrString => ℤ ⊕ String
  | .int64s => List ℤ
  | .doubles => List UInt64
  | .bools => List Bool
  | .strings => List String
  | .timeDuration => TimeDuration
  | .statType => StatType
  | .levType => LevType
  | .repres => Repres
  | .param => Param
  | .typeOfProcessedData => TypeOfProcessedData

instance ValueType.decidableEqVal : (t : ValueType) → DecidableEq t.Val
  | .int64 => inferInstanceAs (DecidableEq ℤ)
  | .double => inferInstanceAs (DecidableEq UInt64)
  | .bool => inferInstanceAs (DecidableEq Bool)
  | .string => inferInstanceAs (DecidableEq String)
  | .intOrString => inferInstanceAs (DecidableEq (ℤ ⊕ String))
  | .int64s => inferInstanceAs (DecidableEq (List ℤ))
  | .doubles => inferInstanceAs (DecidableEq (List UInt64))
  | .bools => inferInstanceAs (DecidableEq (List Bool))
  | .strings => inferInstanceAs (DecidableEq (List String))
  | .timeDuration => inferInstanceAs (DecidableEq TimeDuration)
  | .statType => inferInstanceAs (DecidableEq StatType)
  | .levType => inferInstanceAs (DecidableEq LevType)
  | .repres => inferInstanceAs (DecidableEq Repres)
  | .param => inferInstanceAs (DecidableEq Param)
  | .typeOfProcessedData => inferInstanceAs (DecidableEq TypeOfProcessedData)

/-- A single level converts to a `StatType`. -/
def StatType.ofSingle (first : SingleStatType) : StatType where
  firstLevel := first
  secondLevel := none
  ordered _ h := nomatch h

/-- `operator==(const StatType&, const StatType&)`. Its levels are of a type that has no
`operator==` of its own: they are converted to `StatType` and compared by this function again. -/
def StatType.equal : ℕ → StatType → StatType → Option Bool
  | 0, _, _ => none
  | fuel + 1, lhs, rhs => do
    if ← StatType.equal fuel (.ofSingle lhs.firstLevel) (.ofSingle rhs.firstLevel) then
      match lhs.secondLevel, rhs.secondLevel with
      | none, none => some true
      | some l, some r => StatType.equal fuel (.ofSingle l) (.ofSingle r)
      | _, _ => some false
    else some false

theorem StatType.equal_none (fuel : ℕ) (lhs rhs : StatType) :
    StatType.equal fuel lhs rhs = none := by
  induction fuel generalizing lhs rhs with
  | zero => rfl
  | succ fuel ih =>
    rw [StatType.equal, ih]
    rfl

/-- `==` of doubles: nothing equals a NaN, and the two zeros are equal. -/
def doubleEqual (l r : UInt64) : Bool :=
  let isNaN (x : UInt64) : Bool := x &&& 0x7FFFFFFFFFFFFFFF > 0x7FF0000000000000
  !isNaN l && !isNaN r &&
    (l = r || ((l &&& 0x7FFFFFFFFFFFFFFF = 0) && (r &&& 0x7FFFFFFFFFFFFFFF = 0)))

def doublesEqual : List UInt64 → List UInt64 → Bool
  | [], [] => true
  | l :: ls, r :: rs => doubleEqual l r && doublesEqual ls rs
  | _, _ => false

/-- `==` of two values, if it comes back within `fuel` calls. -/
def ValueType.equal (fuel : ℕ) : (t : ValueType) → t.Val → t.Val → Option Bool
  | .double, l, r => some (doubleEqual l r)
  | .doubles, l, r => some (doublesEqual l r)
  | .statType, l, r => StatType.equal fuel l r
  | _, l, r => some (decide (l = r))

def ValueType.Plain (t : ValueType) : Prop := t ≠ .double ∧ t ≠ .doubles ∧ t ≠ .statType

theorem ValueType.equal_of_plain {t : ValueType} (h : t.Plain) (fuel : ℕ) (l r : t.Val) :
    ValueType.equal fuel t l r = some (decide (l = r)) := by
  obtain ⟨hdouble, hdoubles, hstat⟩ := h
  cases t with
  | double => exact absurd rfl hdouble
  | doubles => exact absurd rfl hdoubles
  | statType => exact absurd rfl hstat
  | _ => rfl

theorem ValueType.equal_of_statType {t : ValueType} (h : t = .statType) (fuel : ℕ) (l r : t.Val) :
    ValueType.equal fuel t l r = none := by
  subst h
  exact StatType.equal_none fuel l r

theorem Entry.equalTo_eq {α : Type} [DecidableEq α] {equal : α → α → Option Bool}
    (e e' : Entry α) (h : e.isSet → e'.isSet → ∀ l r, equal l r = some (decide (l = r))) :
    e.equalTo equal e' = some (decide (e.visit = e'.visit)) := by
  rw [Entry.equalTo]
  rw [Entry.isSet, Entry.isSet] at h
  cases hv : e.visit with
  | none => cases hv' : e'.visit <;> simp
  | some l =>
    cases hv' : e'.visit with
    | none => simp
    | some r =>
      rw [hv, hv'] at h
      simp [h rfl rfl]

/-- `std::hash` of the standard types. -/
structure StdHash where
  hash : (t : ValueType) → t.Val → UInt64
  sizeT : UInt64 → UInt64
  char : Char → UInt64
  enumeration : ℕ → UInt64
  /-- The hash of an empty `std::optional`. -/
  nullopt : UInt64

def roughHash : StdHash where
  hash _ _ := 0
  sizeT := id
  char c := c.val.toUInt64
  enumeration := Nat.toUInt64
  nullopt := 0

def hashAppend (lhs rhs : UInt64) : UInt64 :=
  lhs ^^^ (rhs + 0x9e3779b97f4a7c15 + (lhs <<< (12 : UInt64)) + (lhs >>> (4 : UInt64)))

/-- `hashCombineArgs`, the arguments already hashed. -/
def hashCombine (first : UInt64) (more : List UInt64) : UInt64 := more.foldl hashAppend first

namespace StdHash

variable (H : StdHash)

def singleStatType (v : SingleStatType) : UInt64 :=
  hashCombine (H.sizeT (H.enumeration v.duration.toNat))
    [H.sizeT (H.enumeration v.operation.toNat)]

def statType (v : StatType) : UInt64 :=
  hashCombine (H.sizeT (H.singleStatType v.firstLevel))
    [H.sizeT ((v.secondLevel.map H.singleStatType).getD H.nullopt)]

def timeDuration : TimeDuration → UInt64
  | .hours count _ => hashCombine (H.hash .int64 count) [H.char 'h']
  | .seconds count _ => hashCombine (H.hash .int64 count) [H.char 's']

/-- `util::hash` of a value. -/
def value : (t : ValueType) → t.Val → UInt64
  | .timeDuration, v => H.timeDuration v
  | .statType, v => H.statType v
  | .param, v => UInt64.ofInt v.id
  | t, v => H.hash t v

def entry {t : ValueType} (e : Entry t.Val) : UInt64 :=
  match e.visit with
  | none => 0
  | some v => H.value t v

end StdHash

inductive EntryTag
  | Required | Defaulted | Optional
  deriving DecidableEq, Repr

def EntryTag.toString : EntryTag → String
  | .Required => "required"
  | .Defaulted => "defaulted"
  | .Optional => "optional"

/-- `record_entries_`: the definitions of the entries of a record, in their order. -/
structure RecordType where
  Entries : Type
  [decidableEq : DecidableEq Entries]
  entries : List Entries
  mem_entries : ∀ k, k ∈ entries
  key : Entries → String
  nodup : (entries.map key).Nodup
  tag : Entries → EntryTag
  type : Entries → ValueType
  defaultValue : (k : Entries) → Option (type k).Val

namespace RecordType

instance (R : RecordType) : DecidableEq R.Entries := R.decidableEq

variable (R : RecordType)

abbrev Record : Type := (k : R.Entries) → Entry (R.type k).Val

theorem key_injective : Function.Injective R.key := by
  intro k k' h
  exact List.inj_on_of_nodup_map R.nodup (R.mem_entries k) (R.mem_entries k') h

def keyInfo (k : R.Entries) : String := R.key k ++ " (" ++ (R.tag k).toString ++ ")"

variable {R}

/-- `entryDef.applyDefaults` for every entry. -/
def applyDefaults (rec : R.Record) : R.Record := fun k =>
  match R.defaultValue k with
  | some d => (rec k).ensureInit d
  | none => rec k

def validateEntries (rec : R.Record) : List R.Entries → Except Exception Unit
  | [] => .ok ()
  | k :: ks =>
    if R.tag k ≠ .Optional ∧ (rec k).isSet = false then
      .error (.dataModelling ("Unset required key: " ++ R.keyInfo k))
    else validateEntries rec ks

def validateRecord (rec : R.Record) : Except Exception Unit := validateEntries rec R.entries

def acquireRecord (rec : R.Record) : R.Record := fun k => (rec k).acquire

def equalEntries (fuel : ℕ) (lhs rhs : R.Record) : List R.Entries → Option Bool
  | [] => some true
  | k :: ks => do
    if ← (lhs k).equalTo (ValueType.equal fuel (R.type k)) (rhs k) then
      equalEntries fuel lhs rhs ks
    else some false

/-- `EqualToRecord`, if it comes back within `fuel` calls. -/
def equalToRecord (fuel : ℕ) (lhs rhs : R.Record) : Option Bool :=
  equalEntries fuel lhs rhs R.entries

/-- `HashRecord`; there is at least one entry. -/
def hashRecord (H : StdHash) (rec : R.Record) : UInt64 :=
  match R.entries with
  | [] => 0
  | k :: ks => hashCombine (H.entry (rec k)) (ks.map fun k => H.entry (rec k))

def SameValues (rec rec' : R.Record) : Prop := ∀ k, (rec k).visit = (rec' k).visit

theorem validateEntries_eq_ok_iff (rec : R.Record) (ks : List R.Entries) :
    validateEntries rec ks = .ok () ↔ ∀ k ∈ ks, R.tag k = .Optional ∨ (rec k).isSet = true := by
  induction ks with
  | nil => simp [validateEntries]
  | cons k ks ih =>
    rw [validateEntries, List.forall_mem_cons]
    by_cases h : R.tag k ≠ .Optional ∧ (rec k).isSet = false
    · rw [if_pos h]
      simp [h.1, h.2]
    · rw [if_neg h, ih]
      refine (and_iff_right ?_).symm
      by_contra hcon
      push Not at hcon
      exact h ⟨hcon.1, Bool.eq_false_iff.mpr hcon.2⟩

/-- An entry is unset after validation only if its definition says that it may be. -/
theorem validateRecord_eq_ok_iff (rec : R.Record) :
    validateRecord rec = .ok () ↔ ∀ k, R.tag k = .Optional ∨ (rec k).isSet = true := by
  rw [validateRecord, validateEntries_eq_ok_iff]
  exact ⟨fun h k => h k (R.mem_entries k), fun h k _ => h k⟩

/-- The entries of a list are found to be equal up to two set `StatType`s. -/
def Stuck (lhs rhs : R.Record) : List R.Entries → Prop
  | [] => False
  | k :: ks =>
    R.type k = .statType ∧ (lhs k).isSet ∧ (rhs k).isSet ∨
      (lhs k).visit = (rhs k).visit ∧ Stuck lhs rhs ks

/-- The comparison of two entries comes to one of `StatType`s, or it tells whether their values
are the same. -/
theorem equalTo_cases (htype : ∀ k, R.type k = .statType ∨ (R.type k).Plain) (fuel : ℕ)
    (lhs rhs : R.Record) (k : R.Entries) :
    (R.type k = .statType ∧ (lhs k).isSet ∧ (rhs k).isSet) ∧
        (lhs k).equalTo (ValueType.equal fuel (R.type k)) (rhs k) = none ∨
      ¬ (R.type k = .statType ∧ (lhs k).isSet ∧ (rhs k).isSet) ∧
        (lhs k).equalTo (ValueType.equal fuel (R.type k)) (rhs k) =
          some (decide ((lhs k).visit = (rhs k).visit)) := by
  by_cases hstuck : R.type k = .statType ∧ (lhs k).isSet ∧ (rhs k).isSet
  · refine .inl ⟨hstuck, ?_⟩
    obtain ⟨htypek, hl, hr⟩ := hstuck
    obtain ⟨l, hl⟩ := Option.isSome_iff_exists.mp hl
    obtain ⟨r, hr⟩ := Option.isSome_iff_exists.mp hr
    rw [Entry.equalTo, hl, hr]
    exact ValueType.equal_of_statType htypek fuel l r
  · refine .inr ⟨hstuck, Entry.equalTo_eq _ _ ?_⟩
    intro hl hr
    rcases htype k with hstat | hplain
    · exact absurd ⟨hstat, hl, hr⟩ hstuck
    · exact ValueType.equal_of_plain hplain fuel

theorem equalEntries_of_stuck (htype : ∀ k, R.type k = .statType ∨ (R.type k).Plain) (fuel : ℕ)
    (lhs rhs : R.Record) (ks : List R.Entries) (h : Stuck lhs rhs ks) :
    equalEntries fuel lhs rhs ks = none := by
  induction ks with
  | nil => exact absurd h id
  | cons k ks ih =>
    rw [equalEntries]
    rcases equalTo_cases htype fuel lhs rhs k with ⟨-, hnone⟩ | ⟨hnot, hsome⟩
    · rw [hnone]
      rfl
    · obtain ⟨heq, hstuck⟩ := h.resolve_left hnot
      rw [hsome, decide_eq_true heq]
      exact ih hstuck

theorem equalEntries_of_not_stuck (htype : ∀ k, R.type k = .statType ∨ (R.type k).Plain)
    (fuel : ℕ) (lhs rhs : R.Record) (ks : List R.Entries) (h : ¬ Stuck lhs rhs ks) :
    equalEntries fuel lhs rhs ks = some (decide (∀ k ∈ ks, (lhs k).visit = (rhs k).visit)) := by
  induction ks with
  | nil => simp [equalEntries]
  | cons k ks ih =>
    rw [equalEntries]
    rcases equalTo_cases htype fuel lhs rhs k with ⟨hstuck, -⟩ | ⟨hnot, hsome⟩
    · exact absurd (.inl hstuck) h
    · rw [hsome]
      by_cases heq : (lhs k).visit = (rhs k).visit
      · have htail : ¬ Stuck lhs rhs ks := fun hstuck => h (.inr ⟨heq, hstuck⟩)
        simp [heq, ih htail]
      · simp [heq]

theorem entry_congr {H : StdHash} {t : ValueType} {e e' : Entry t.Val} (h : e.visit = e'.visit) :
    H.entry e = H.entry e' := by
  rw [StdHash.entry, StdHash.entry, h]

theorem hashRecord_congr {H : StdHash} {rec rec' : R.Record} (h : SameValues rec rec') :
    hashRecord H rec = hashRecord H rec' := by
  have hentry : (fun k => H.entry (rec k)) = fun k => H.entry (rec' k) :=
    funext fun k => entry_congr (h k)
  unfold hashRecord
  cases R.entries with
  | nil => rfl
  | cons k ks =>
    simp only
    rw [entry_congr (h k), hentry]

end RecordType
end Multio.Datamod
