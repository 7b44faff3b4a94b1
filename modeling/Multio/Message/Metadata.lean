import Multio.Lib.HashTable
import Multio.Util.Exception
import Mathlib.Data.Int.Notation

namespace Multio
open Lib

/-- `MetadataTypes`, with `double` and `float` as their bit patterns. -/
inductive MetadataValue
  | null
  | bool (v : Bool)
  | int64 (v : ℤ)
  | double (bits : UInt64)
  | float (bits : UInt32)
  | string (v : String)
  | bytes (v : List UInt8)
  | bools (v : List Bool)
  | int64s (v : List ℤ)
  | doubles (v : List UInt64)
  | floats (v : List UInt32)
  | strings (v : List String)
  | nested (m : HashTable String MetadataValue)

abbrev BaseMetadata := HashTable String MetadataValue

/-- `util::typeToString` of the alternative held. -/
def MetadataValue.typeName : MetadataValue → String
  | .null => "Null"
  | .bool _ => "bool"
  | .int64 _ => "std::int64_t"
  | .double _ => "double"
  | .float _ => "float"
  | .string _ => "std::string"
  | .bytes _ => "std::vector<std::uint8_t>"
  | .bools _ => "std::vector<bool>"
  | .int64s _ => "std::vector<std::int64_t>"
  | .doubles _ => "std::vector<double>"
  | .floats _ => "std::vector<float>"
  | .strings _ => "std::vector<std::string>"
  | .nested _ => "BaseMetadata"

def MetadataValue.getString : MetadataValue → Except Exception String
  | .string v => .ok v
  | v => .error (.metadataWrongType "std::string" v.typeName)

def MetadataValue.getInt64 : MetadataValue → Except Exception ℤ
  | .int64 v => .ok v
  | v => .error (.metadataWrongType "std::int64_t" v.typeName)

def MetadataValue.getBool : MetadataValue → Except Exception Bool
  | .bool v => .ok v
  | v => .error (.metadataWrongType "bool" v.typeName)

def MetadataValue.getDouble : MetadataValue → Except Exception UInt64
  | .double bits => .ok bits
  | v => .error (.metadataWrongType "double" v.typeName)

namespace Metadata

/-- `Metadata::find` on a constant object: local values first, then the parametrization. -/
def find (parametrization m : BaseMetadata) (k : String) : Option MetadataValue :=
  (m.find? k).orElse fun _ => parametrization.find? k

/-- `get<T>(k)`. -/
def get {α : Type} (getter : MetadataValue → Except Exception α) (parametrization m : BaseMetadata)
    (k : String) : Except Exception α :=
  match find parametrization m k with
  | none => .error (.metadataMissingKey k)
  | some v => match getter v with
    | .ok x => .ok x
    | .error e => .error (.metadataKey k e)

/-- `getOpt<T>(k)`, which is `noexcept`: another type under the key ends the program. -/
def getOpt {α : Type} (getter : MetadataValue → Except Exception α)
    (parametrization m : BaseMetadata) (k : String) : Except Exception (Option α) :=
  match find parametrization m k with
  | none => .ok none
  | some v => match getter v with
    | .ok x => .ok (some x)
    | .error _ => .error .terminate

end Metadata
end Multio
