import Multio.Datamod.Record

namespace Multio.Datamod

/-- The values that are read from containers and written to them. -/
inductive StdVal
  | bool (v : Bool)
  | int64 (v : ℤ)
  | double (bits : UInt64)
  | string (v : String)
  | bools (v : List Bool)
  | int64s (v : List ℤ)
  | doubles (v : List UInt64)
  | strings (v : List String)
  deriving DecidableEq

/-- `util::typeToString` of the type of a value. -/
def StdVal.typeName : StdVal → String
  | .bool _ => "bool"
  | .int64 _ => "std::int64_t"
  | .double _ => "double"
  | .string _ => "std::string"
  | .bools _ => "std::vector<bool>"
  | .int64s _ => "std::vector<std::int64_t>"
  | .doubles _ => "std::vector<double>"
  | .strings _ => "std::vector<std::string>"

/-- Conversions between arithmetic types, and the names that metkit knows of parameters. -/
structure Conversions where
  /-- Undefined for a value that is out of range. -/
  int64OfDouble : UInt64 → Except Exception ℤ
  doubleOfInt64 : ℤ → UInt64
  doubleOfFloat : UInt32 → UInt64
  paramId : String → Except Exception ℤ

/-- What converts implicitly to `std::int64_t`. -/
def StdVal.asInt64 (C : Conversions) : StdVal → Option (Except Exception ℤ)
  | .bool v => some (.ok (if v then 1 else 0))
  | .int64 v => some (.ok v)
  | .double bits => some (C.int64OfDouble bits)
  | _ => none

/-- `std::chrono::hours{count}`; the count is an `std::int64_t`. -/
def TimeDuration.ofHours (count : ℤ) : Except Exception TimeDuration :=
  if h : IsInt64 count then .ok (.hours count h) else .error (.undefinedBehaviour "signed overflow")

namespace ValueType

def same : (t : ValueType) → StdVal → Option t.Val
  | .bool, .bool v => some v
  | .int64, .int64 v => some v
  | .double, .double bits => some bits
  | .string, .string v => some v
  | .bools, .bools v => some v
  | .int64s, .int64s v => some v
  | .doubles, .doubles v => some v
  | .strings, .strings v => some v
  | _, _ => none

/-- `TypeParser<ValueType>::parse` for values of other types, with `ParseType` or by a conversion;
`none` for types that it does not take. -/
def parseOther (C : Conversions) : (t : ValueType) → StdVal → Option (Except Exception t.Val)
  | .bool, .int64 v => some (.ok (decide (v ≠ 0)))
  | .bool, .double bits => some (.ok (decide (bits &&& 0x7FFFFFFFFFFFFFFF ≠ 0)))
  | .int64, v => v.asInt64 C
  | .double, .bool v => some (.ok (C.doubleOfInt64 (if v then 1 else 0)))
  | .double, .int64 v => some (.ok (C.doubleOfInt64 v))
  | .intOrString, .bool v => some (.ok (.inl (if v then 1 else 0)))
  | .intOrString, .int64 v => some (.ok (.inl v))
  | .intOrString, .string v => some (.ok (.inr v))
  | .timeDuration, .string v => some (TimeDuration.parse v)
  | .timeDuration, v => (v.asInt64 C).map fun hours => hours.bind TimeDuration.ofHours
  | .statType, .string v => some (StatType.parse v)
  | .levType, .string v => some (LevType.parse v)
  | .repres, .string v => some (Repres.parse v)
  | .param, .string v => some ((C.paramId v).map Param.mk)
  | .param, v => (v.asInt64 C).map fun id => id.map Param.mk
  | .typeOfProcessedData, .string v => some (TypeOfProcessedData.parse v)
  | .typeOfProcessedData, v => (v.asInt64 C).map fun i => i.bind TypeOfProcessedData.parseInt64
  | _, _ => none

/-- `TypeDumper<ValueType>::dumpToAndVisit`: what a container is given to set. -/
def dump : (t : ValueType) → t.Val → StdVal
  | .int64, v => .int64 v
  | .double, v => .double v
  | .bool, v => .bool v
  | .string, v => .string v
  | .intOrString, .inl v => .int64 v
  | .intOrString, .inr v => .string v
  | .int64s, v => .int64s v
  | .doubles, v => .doubles v
  | .bools, v => .bools v
  | .strings, v => .strings v
  | .timeDuration, v =>
    match v.dump with
    | .inl hours => .int64 hours
    | .inr text => .string text
  | .statType, v => .string v.dump
  | .levType, v => .string v.dump
  | .repres, v => .string v.dump
  | .param, v => .int64 v.id
  | .typeOfProcessedData, v => .string v.dump

/-- `makeEntryRef`: a reference to a value of the type itself, unless it is moved, and a parsed
value otherwise. -/
def makeEntryRef (C : Conversions) (t : ValueType) (lvalue : Bool) (v : StdVal) :
    Option (Except Exception (Entry t.Val)) :=
  match t.same v with
  | some v => some (.ok (if lvalue then .ref v else .value v))
  | none => (t.parseOther C v).map fun v => v.map Entry.value

/-- `makeEntry`. -/
def makeEntry (C : Conversions) (t : ValueType) (lvalue : Bool) (v : StdVal) :
    Option (Except Exception (Entry t.Val)) :=
  (t.makeEntryRef C lvalue v).map fun e => e.map Entry.acquire

/-- A dumped value is of the type itself, or it is parsed to the value that has been dumped. -/
theorem same_or_parse_dump (C : Conversions) (t : ValueType) (v : t.Val) :
    t.same (t.dump v) = some v ∨
      t.same (t.dump v) = none ∧ t.parseOther C (t.dump v) = some (.ok v) := by
  cases t with
  | int64 | double | bool | string | int64s | doubles | bools | strings => exact .inl rfl
  | intOrString => cases v <;> exact .inr ⟨rfl, rfl⟩
  | timeDuration =>
    right
    cases v with
    | hours count isInt64 =>
      refine ⟨rfl, ?_⟩
      change (some ((Except.ok count).bind TimeDuration.ofHours) : Option _) = _
      rw [Except.bind, TimeDuration.ofHours, dif_pos isInt64]
    | seconds count isInt64 =>
      exact ⟨rfl, congrArg some (TimeDuration.parse_seconds isInt64)⟩
  | statType => exact .inr ⟨rfl, congrArg some (StatType.parse_dump v)⟩
  | levType => exact .inr ⟨rfl, congrArg some (LevType.parse_dump v)⟩
  | repres => exact .inr ⟨rfl, congrArg some (Repres.parse_dump v)⟩
  | param => exact .inr ⟨rfl, rfl⟩
  | typeOfProcessedData => exact .inr ⟨rfl, congrArg some (TypeOfProcessedData.parse_dump v)⟩

theorem makeEntryRef_dump (C : Conversions) (t : ValueType) (lvalue : Bool) (v : t.Val) :
    ∃ e, t.makeEntryRef C lvalue (t.dump v) = some (.ok e) ∧ e.visit = some v := by
  rw [makeEntryRef]
  rcases t.same_or_parse_dump C v with hsame | ⟨hsame, hparse⟩
  · rw [hsame]
    refine ⟨_, rfl, ?_⟩
    cases lvalue <;> rfl
  · rw [hsame, hparse]
    exact ⟨.value v, rfl, rfl⟩

theorem makeEntry_dump (C : Conversions) (t : ValueType) (lvalue : Bool) (v : t.Val) :
    ∃ e, t.makeEntry C lvalue (t.dump v) = some (.ok e) ∧ e.visit = some v := by
  obtain ⟨e, he, hvisit⟩ := t.makeEntryRef_dump C lvalue v
  refine ⟨e.acquire, ?_, ?_⟩
  · rw [makeEntry, he]
    rfl
  · rw [Entry.visit_acquire, hvisit]

end ValueType
end Multio.Datamod
