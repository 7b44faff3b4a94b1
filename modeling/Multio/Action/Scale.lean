import Multio.Datamod.MetadataInterop
import Multio.Lib.OrderedMap
import Mathlib.Algebra.Field.Basic

namespace Multio.Action.Scale
open Lib Datamod RecordType Exception

variable {K : Type}

inductive ScaleMetadataKey
  | param | missingValue
  deriving DecidableEq, Repr

namespace ScaleMetadataKey

def key : ScaleMetadataKey → String
  | .param => "param"
  | .missingValue => "missingValue"

def tag : ScaleMetadataKey → EntryTag
  | .param => .Required
  | .missingValue => .Optional

@[reducible] def valueType : ScaleMetadataKey → ValueType
  | .param => .param
  | .missingValue => .double

end ScaleMetadataKey

@[reducible] def scaleMetadataKeys : RecordType where
  Entries := ScaleMetadataKey
  entries := [.param, .missingValue]
  mem_entries k := by cases k <;> simp
  key := ScaleMetadataKey.key
  nodup := by decide
  tag := ScaleMetadataKey.tag
  type := ScaleMetadataKey.valueType
  defaultValue _ := none

abbrev ScaleMetadataKeys : Type := (k : ScaleMetadataKey) → Entry k.valueType.Val

inductive ScalePreset
  | localToWmo | wmoToLocal
  deriving DecidableEq, Repr

structure ScaleMapping (K : Type) where
  paramIn : ℤ
  paramOut : ℤ
  scaling : K

structure ScaleConfig (K : Type) where
  preset : Option ScalePreset := none
  customMappings : List (ScaleMapping K) := []

structure MappingResult (K : Type) where
  paramOut : ℤ
  scaling : K

abbrev Mappings (K : Type) : Type := OrderedMap ℤ (MappingResult K)

/-- The assignments that the `switch` over the preset makes for one mapping of the file. -/
def presetAssignments [One K] [Div K] (mapping : ScaleMapping K) :
    ScalePreset → List (ℤ × MappingResult K)
  | .localToWmo =>
    -- no `break` ends this case: the other one follows
    [(mapping.paramIn, ⟨mapping.paramOut, mapping.scaling⟩),
      (mapping.paramOut, ⟨mapping.paramIn, 1 / mapping.scaling⟩)]
  | .wmoToLocal => [(mapping.paramOut, ⟨mapping.paramIn, 1 / mapping.scaling⟩)]

/-- `getMappings` of a preset, with the mappings of the file. -/
def getPresetMappings [One K] [Div K] (file : List (ScaleMapping K)) (preset : ScalePreset) :
    Mappings K :=
  file.foldl (fun mappings mapping => mappings.insertAll (presetAssignments mapping preset)) ∅

/-- `getMappings` of a configuration. -/
def getMappings [One K] [Div K] (file : List (ScaleMapping K)) (config : ScaleConfig K) :
    Except Exception (Mappings K) :=
  let preset : Mappings K := (config.preset.map (getPresetMappings file)).getD ∅
  let mappings := preset.insertAll <| config.customMappings.map fun mapping =>
    (mapping.paramIn, ⟨mapping.paramOut, mapping.scaling⟩)
  if mappings.size = 0 then
    .error (.userError
      "No scale mapping was found, set 'preset' or 'mappings' in action configuration!")
  else .ok mappings

/-- Values are numbers of a field, in which a cast to the precision of a message changes nothing. -/
structure ScaleContext (K : Type) extends Context where
  conversions : Conversions
  policy : HashPolicy String
  /-- The number that the bits of a double stand for. -/
  number : UInt64 → K

structure ScaleMessage (K : Type) where
  header : Header
  values : List K

variable (ctx : ScaleContext K)

/-- `readRecord<ScaleMetadataKeys>`. -/
def readScaleMetadata (md : BaseMetadata) : Except Exception ScaleMetadataKeys :=
  readMetadata ctx.toContext ctx.conversions scaleMetadataKeys md

/-- `param.get().id()`. -/
def paramId (md : ScaleMetadataKeys) : Except Exception ℤ :=
  match (md .param).visit with
  | some p => .ok p.id
  | none => .error (.dataModelling ("Unchecked call to `BaseEntry::get()` (missing value). " ++
      "Seems like an unvalidated object has been accessed?"))

def scaleValue [DecidableEq K] [Mul K] (missing : Option K) (scaling value : K) : K :=
  match missing with
  | some missing => if value = missing then missing else value * scaling
  | none => value * scaling

def missingNumber (md : ScaleMetadataKeys) : Option K := (md .missingValue).visit.map ctx.number

def applyMapping [DecidableEq K] [Mul K] (md : ScaleMetadataKeys) (mapping : MappingResult K)
    (msg : ScaleMessage K) : Except Exception (ScaleMessage K) := do
  let md : ScaleMetadataKeys := Function.update md .param (.value ⟨mapping.paramOut⟩)
  -- modified metadata drop the field id
  let header : Header :=
    { msg.header with
      metadata := dumpMetadata (R := scaleMetadataKeys) ctx.policy md msg.header.metadata
      fieldId_ := none }
  let _ ← header.precision ctx.toContext
  .ok { header, values := msg.values.map (scaleValue (missingNumber ctx md) mapping.scaling) }

/-- `Scale::executeImpl`, with the message that is passed on. -/
def executeImpl [DecidableEq K] [Mul K] (mappings : Mappings K) (msg : ScaleMessage K) :
    Except Exception (ScaleMessage K) :=
  match msg.header.tag with
  | .field => do
    let md ← readScaleMetadata ctx msg.header.metadata
    let paramIn ← paramId md
    match mappings.find? paramIn with
    | none => .ok msg
    | some mapping => applyMapping ctx md mapping msg
  | _ => .ok msg

end Multio.Action.Scale
