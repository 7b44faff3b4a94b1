import Multio.Message.BaseMetadata

namespace Multio
open Lib Exception

/-- What the JSON parser returns; the entries of a map are in the order of its keys. -/
inductive Value
  | nil
  | bool (v : Bool)
  | number (v : ℤ)
  | double (v : UInt64)
  | string (v : String)
  | list (vs : List Value)
  | map (es : List (String × Value))

/-- What is given: the printer and the parser of JSON, and conversions of values to C++ types. -/
structure JsonCodec where
  print : JsonTree → String
  parse : String → Except Exception Value
  printValue : Value → String
  /-- The double that is read from the text of a float. -/
  float : UInt32 → UInt64
  /-- The order of the keys of a map. -/
  arrange : List (String × Value) → List (String × Value)
  arrange_perm : ∀ es, (arrange es).Perm es
  toInt64 : Value → Except Exception ℤ
  toDouble : Value → Except Exception UInt64
  toBool : Value → Except Exception Bool
  toString : Value → Except Exception String
  toInt64_number : ∀ v, toInt64 (.number v) = .ok v
  toDouble_double : ∀ v, toDouble (.double v) = .ok v
  toBool_bool : ∀ v, toBool (.bool v) = .ok v
  toString_string : ∀ v, toString (.string v) = .ok v

theorem Value.sizeOf_mem {es : List (String × Value)} {e : String × Value} (h : e ∈ es) :
    sizeOf e.2 < sizeOf (Value.map es) := by
  have hmem := List.sizeOf_lt_of_mem h
  obtain ⟨k, v⟩ := e
  simp only [Value.map.sizeOf_spec, Prod.mk.sizeOf_spec] at hmem ⊢
  omega

section

variable (c : JsonCodec) (policy : HashPolicy String)

/-- `tryToMetadataValue` of a list: its first element decides what it is a list of. -/
def listToMetadataValue : List Value → Except Exception (Option MetadataValue)
  -- a list has the type of its first element
  | [] => .ok none
  | vs@(.number _ :: _) => do
    let xs ← vs.mapM c.toInt64
    .ok (some (.int64s xs))
  | vs@(.double _ :: _) => do
    let xs ← vs.mapM c.toDouble
    .ok (some (.doubles xs))
  | vs@(.bool _ :: _) => do
    let xs ← vs.mapM c.toBool
    .ok (some (.bools xs))
  | vs@(.string _ :: _) => do
    let xs ← vs.mapM c.toString
    .ok (some (.strings xs))
  | _ => .ok none

def setEntry (m : BaseMetadata) (k : String) : Option MetadataValue → BaseMetadata
  | some v => BaseMetadata.set policy m k v
  | none => m

/-- `tryToMetadataValue(v)`: there is no value for `nil` and for empty lists. -/
def valueToMetadataValue : Value → Except Exception (Option MetadataValue)
  | .list vs => listToMetadataValue c vs
  | .map es => do
    let m ← es.attach.foldlM (fun m e => do
      let v ← valueToMetadataValue e.1.2
      .ok (setEntry policy m e.1.1 v)) (BaseMetadata.empty policy)
    .ok (some (.nested m))
  | .number v => .ok (some (.int64 v))
  | .double v => .ok (some (.double v))
  | .bool v => .ok (some (.bool v))
  | .string v => .ok (some (.string v))
  | .nil => .ok none
termination_by v => sizeOf v
decreasing_by exact Value.sizeOf_mem e.2

/-- `toMetadata(v)`. -/
def toMetadata (v : Value) : Except Exception BaseMetadata :=
  match v with
  | .map es => es.foldlM (fun m e => do
      let v ← valueToMetadataValue c policy e.2
      .ok (setEntry policy m e.1 v)) (BaseMetadata.empty policy)
  | _ => .error (.metadata ("toMetadata():: eckit::Value is not a map: " ++ c.printValue v))

def metadataFromYAML (text : String) : Except Exception BaseMetadata := do
  let v ← c.parse text
  toMetadata c policy v

inductive StreamItem
  | unsigned (v : ℕ)
  | string (v : String)
  | size (v : ℕ)
  | blob (v : List UInt8)

def Tag.toUnsigned : Tag → ℕ
  | .empty => 0
  | .open => 1
  | .close => 2
  | .grib => 3
  | .domain => 4
  | .mask => 5
  | .field => 6
  | .flush => 7
  | .notification => 8
  | .parametrization => 9
  | .synchronization => 10

/-- `static_cast<Message::Tag>`. -/
def Tag.ofUnsigned : ℕ → Except Exception Tag
  | 0 => .ok .empty
  | 1 => .ok .open
  | 2 => .ok .close
  | 3 => .ok .grib
  | 4 => .ok .domain
  | 5 => .ok .mask
  | 6 => .ok .field
  | 7 => .ok .flush
  | 8 => .ok .notification
  | 9 => .ok .parametrization
  | 10 => .ok .synchronization
  | _ => .error (.undefinedBehaviour "no such enumerator")

def Header.encode (ctx : Context) (h : Header) : List StreamItem :=
  [.unsigned h.tag.toUnsigned, .string h.source.group, .size h.source.id,
    .string h.destination.group, .size h.destination.id, .string (h.fieldId ctx)]

def Message.encode (ctx : Context) (m : Message) : List StreamItem :=
  m.header.encode ctx ++ [.size m.size, .blob m.payload]

/-- `decodeMessage`, with what it leaves in the stream. -/
def decodeMessage : List StreamItem → Except Exception (Message × List StreamItem)
  | .unsigned t :: .string srcGrp :: .size srcId :: .string destGrp :: .size destId ::
      .string fieldId :: .size sz :: .blob payload :: rest => do
    assert (sz = payload.length) "the blob has another size than the buffer"
    let tag ← Tag.ofUnsigned t
    let metadata ← metadataFromYAML c policy fieldId
    .ok ({ header := { tag, source := { group := srcGrp, id := srcId },
                       destination := { group := destGrp, id := destId },
                       metadata, fieldId_ := some fieldId }
           payload }, rest)
  | _ => .error (.undefinedBehaviour "not the items of a message")

theorem Tag.ofUnsigned_toUnsigned (t : Tag) : Tag.ofUnsigned t.toUnsigned = .ok t := by
  cases t <;> rfl

/-- The value that is read from the text of a value other than metadata. -/
def leafValue : MetadataValue → Value
  | .null => .nil
  | .bool v => .bool v
  | .int64 v => .number v
  | .double v => .double v
  | .float v => .double (c.float v)
  | .string v => .string v
  | .bytes vs => .list (vs.map fun b => .number b.toNat)
  | .bools vs => .list (vs.map .bool)
  | .int64s vs => .list (vs.map .number)
  | .doubles vs => .list (vs.map .double)
  | .floats vs => .list (vs.map fun v => .double (c.float v))
  | .strings vs => .list (vs.map .string)
  | .nested _ => .nil

def JsonTree.toValue : JsonTree → Value
  | .leaf v => leafValue c v
  | .object members => .map (c.arrange (members.attach.map fun e => (e.1.1, e.1.2.toValue)))
termination_by t => sizeOf t
decreasing_by
  have hmem := List.sizeOf_lt_of_mem e.2
  obtain ⟨⟨k, t⟩, h⟩ := e
  simp only [JsonTree.object.sizeOf_spec, Prod.mk.sizeOf_spec] at hmem ⊢
  omega

theorem JsonTree.toValue_object (members : List (String × JsonTree)) :
    (JsonTree.object members).toValue c =
      .map (c.arrange (members.map fun e => (e.1, e.2.toValue c))) := by
  rw [JsonTree.toValue]
  congr 2
  exact List.attach_map_val (f := fun e : String × JsonTree => (e.1, e.2.toValue c))

/-- What arrives of a value: floats become doubles and bytes integers; null and empty lists are
lost. -/
def MetadataValue.wire : MetadataValue → Option MetadataValue
  | .null => none
  | .float v => some (.double (c.float v))
  | .bytes vs => if vs = [] then none else some (.int64s (vs.map fun b => (b.toNat : ℤ)))
  | .bools vs => if vs = [] then none else some (.bools vs)
  | .int64s vs => if vs = [] then none else some (.int64s vs)
  | .doubles vs => if vs = [] then none else some (.doubles vs)
  | .floats vs => if vs = [] then none else some (.doubles (vs.map c.float))
  | .strings vs => if vs = [] then none else some (.strings vs)
  | .nested m => some (.nested { m with
      nodes := m.nodes.attach.filterMap fun e => (e.1.2.wire).map fun v => (e.1.1, v) })
  | v => some v
termination_by v => sizeOf v
decreasing_by exact HashTable.sizeOf_mem e.2

def BaseMetadata.wire (m : BaseMetadata) : BaseMetadata :=
  { m with nodes := m.nodes.filterMap fun e => (e.2.wire c).map fun v => (e.1, v) }

theorem MetadataValue.wire_nested (m : HashTable String MetadataValue) :
    (MetadataValue.nested m).wire c = some (.nested (BaseMetadata.wire c m)) := by
  rw [MetadataValue.wire, BaseMetadata.wire]
  congr 3
  conv_rhs => rw [← List.attach_map_subtype_val m.nodes, List.filterMap_map]
  rfl

end

end Multio
