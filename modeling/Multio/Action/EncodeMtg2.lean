import Multio.Action.ScalePresets
import Multio.Datamod.ScopedRecords
import Multio.Mars2Grib.EncoderCache
import Multio.Mars2Mars.Rules
import Multio.Message.Parametrization

namespace Multio.Action.EncodeMtg2
open Datamod Exception Lib Mars2Grib
open Mars2Mars (Mars2MarsException DynRule Vals applyMappings)
open Scale (ScaleContext ScaleMessage scaleValue missingNumber)

/-- The options; `cached` is not looked at. -/
structure EncodeMtg2Options where
  geoFromAtlas : Bool := false

inductive CodesValue (K : Type)
  | long (v : ℤ)
  | double (bits : UInt64)
  | doubles (values : List K)
  deriving DecidableEq

/-- A handle that the raw encoder has filled, with the keys set since, the last one first. -/
structure Sample (Handle K : Type) where
  handle : Handle
  settings : List (String × CodesValue K) := []

namespace Sample

variable {Handle K : Type}

def set (sample : Sample Handle K) (key : String) (value : CodesValue K) : Sample Handle K :=
  { sample with settings := (key, value) :: sample.settings }

def get? (sample : Sample Handle K) (key : String) : Option (CodesValue K) :=
  (sample.settings.find? fun setting => setting.1 = key).map Prod.snd

theorem get?_set (sample : Sample Handle K) (key key' : String) (value : CodesValue K) :
    (sample.set key value).get? key' = if key = key' then some value else sample.get? key' := by
  rw [get?, set, List.find?_cons]
  by_cases h : key = key'
  · simp [h]
  · simp [h, get?]

end Sample

structure RawEncoder (Dicts Prepared Handle : Type) where
  dicts : FullMarsRecord → MiscRecord → Geometry → Except String Dicts
  /-- The encoder for the sections of a configuration, and its sample. -/
  prepare : Request Dicts → SectionsConf → Except String Prepared
  runtime : Prepared → Dicts → Except String Handle

/-- What is read besides the message; `number` is what the bits of a double stand for. -/
structure EncodeContext (K Dicts Prepared Handle : Type) extends ScaleContext K where
  options : EncodeMtg2Options
  encoder : RawEncoder Dicts Prepared Handle
  atlasGG : String → Except Exception geoGGRecord.Record
  atlasLL : String → Except Exception geoLLRecord.Record
  /-- What a stream shows of a record and of a value. -/
  printMars : FullMarsRecord → String
  printValue : MetadataValue → String

structure Shared (H : StdHash) (Prepared : Type) where
  parametrization : BaseMetadata
  cache : Cache H Prepared

inductive Failure
  | exception (e : Exception)
  | mars2mars (e : Mars2MarsException)
  /-- Nested in an exception that prints the keys. -/
  | mars2grib (e : EncoderException)
  | encodeMtg2 (what : String)

/-- What is passed on: the message itself, or one with the bytes of a sample. -/
inductive Passed (K Handle : Type)
  | unchanged (msg : ScaleMessage K)
  | encoded (header : Header) (sample : Sample Handle K)

variable {K Dicts Prepared Handle : Type} {H : StdHash}
variable (ctx : EncodeContext K Dicts Prepared Handle)

def atlasMetadata (scope gridName : String) : Except Exception BaseMetadata := do
  let md := (BaseMetadata.empty ctx.policy).set ctx.policy scope (.bool true)
  let repres ← represFromGrid gridName
  match repres with
  | .GG => do
    let geo ← ctx.atlasGG gridName
    .ok (RecordType.dumpMetadata (R := geoGGRecord.scopeRecord scope) ctx.policy geo md)
  | .LL => do
    let geo ← ctx.atlasLL gridName
    .ok (RecordType.dumpMetadata (R := geoLLRecord.scopeRecord scope) ctx.policy geo md)
  | _ => .error (.metadata ("GeoFromAtlas: No grid function specified for grid " ++ gridName ++
      "\n"))

/-- `AtlasGeoSetter::handleGrid`. -/
def handleGrid (parametrization : BaseMetadata) (scope gridName : String) :
    Except Exception Unit × BaseMetadata :=
  match atlasMetadata ctx scope gridName with
  | .error e => (.error e, parametrization)
  | .ok md => Parametrization.updateMetadata { policy := ctx.policy, print := ctx.printValue }
      parametrization md

/-- The parametrization with the geometry of the grid, if it is to come from Atlas. -/
def fetchGeometry (parametrization : BaseMetadata) (mars : FullMarsRecord) (scope : String) :
    Except Exception Unit × BaseMetadata :=
  match (mars .grid).visit with
  | some grid =>
    if ctx.options.geoFromAtlas && (parametrization.find? scope).isNone then
      handleGrid ctx parametrization scope grid
    else (.ok (), parametrization)
  | none => (.ok (), parametrization)

structure Records where
  mars : FullMarsRecord
  misc : MiscRecord
  geo : Geometry

/-- The MARS keys, the miscellaneous keys and the geometry's representation and scope. -/
def readKeys (c : Context) (md : BaseMetadata) :
    Except Exception (FullMarsRecord × MiscRecord × Repres × String) := do
  let mars ← readMarsRecord c ctx.conversions ctx.printMars md
  let misc ← readMiscRecord c ctx.conversions md
  let geometry ← getGeometryRecord mars
  .ok (mars, misc, geometry)

/-- The records of a field, and the parametrization once they have been read. -/
def readRecords (parametrization : BaseMetadata) (md : BaseMetadata) :
    Except Exception Records × BaseMetadata :=
  match readKeys ctx { ctx.toContext with parametrization } md with
  | .error e => (.error e, parametrization)
  | .ok (mars, misc, repres, scope) =>
    match fetchGeometry ctx parametrization mars scope with
    | (.error e, parametrization) => (.error e, parametrization)
    | (.ok (), parametrization) =>
      match readGeometry { ctx.toContext with parametrization } ctx.conversions scope md repres with
      | .error e => (.error e, parametrization)
      | .ok geo => (.ok { mars, misc, geo }, parametrization)

def setKeys (marsKeys : FullMarsRecord) (miscKeys : MiscRecord) (ret : Sample Handle K) :
    Sample Handle K :=
  let ret := if (marsKeys .repres).visit = some .GG then ret.set "shapeOfTheEarth" (.long 6)
    else ret
  let ret := match (miscKeys .bitmapPresent).visit with
    | some bitmapPresent => ret.set "bitmapPresent" (.long (if bitmapPresent then 1 else 0))
    | none => ret
  match (miscKeys .missingValue).visit with
  | some missingValue => ret.set "missingValue" (.double missingValue)
  | none => ret

/-- `EncoderCache::getHandle`, if the lookup comes back within `fuel` calls. -/
def getHandle (encoder : RawEncoder Dicts Prepared Handle) (fuel : ℕ) (cache : Cache H Prepared)
    (marsKeys : FullMarsRecord) (miscKeys : MiscRecord) (geoKeys : Geometry) :
    Option (Except EncoderException (Sample Handle K) × Cache H Prepared) :=
  match encoder.dicts marsKeys miscKeys geoKeys with
  | .error what => some (.error (.encoder what), cache)
  | .ok dicts => do
    match ← makeOrGetEntry encoder.prepare fuel cache ⟨marsKeys, dicts⟩ with
    | (.error e, cache) => return (.error e, cache)
    | (.ok entry, cache) =>
      match encoder.runtime entry.prepared dicts with
      | .error what => return (.error (.encoder what), cache)
      | .ok handle => return (.ok (setKeys marsKeys miscKeys { handle }), cache)

/-- The values that are set: scaled, if the mapping has a factor. -/
def handedValues [Mul K] (mappingResult : Option Mars2Mars.MappingResult) (values : List K) :
    List K :=
  match mappingResult with
  | some { valuesScaleFactor := some scaleFactor } =>
    values.map fun value => value * ctx.number scaleFactor
  | _ => values

def encodeValues [Mul K] (c : Context) (marsRec : FullMarsRecord)
    (mappingResult : Option Mars2Mars.MappingResult) (msg : ScaleMessage K)
    (sample : Sample Handle K) : Except Failure (Passed K Handle) :=
  if msg.values = [] then .error (.encodeMtg2 "Message has empty payload - no values to encode")
  else
    match msg.header.precision c with
    | .error e => .error (.exception e)
    | .ok _ =>
      .ok (.encoded
        { tag := .field
          source := msg.header.source
          destination := msg.header.destination
          metadata := RecordType.dumpMetadata (R := marsRecord) ctx.policy marsRec
            (BaseMetadata.empty ctx.policy) }
        (sample.set "values" (.doubles (handedValues ctx mappingResult msg.values))))

/-- `EncodeMtg2::executeImpl` with the rules of `allRules`, the message that is passed on and what
the messages share afterwards, if the lookup comes back within `fuel` calls. -/
def executeImpl [Mul K] (rules : DynRule) (fuel : ℕ) (shared : Shared H Prepared)
    (msg : ScaleMessage K) : Option (Except Failure (Passed K Handle) × Shared H Prepared) :=
  if msg.header.tag ≠ .field then some (.ok (.unchanged msg), shared)
  else
    match readRecords ctx shared.parametrization msg.header.metadata with
    | (.error e, parametrization) =>
      some (.error (.exception e), { shared with parametrization })
    | (.ok records, parametrization) =>
      match applyMappings rules { marsVals := records.mars, miscVals := records.misc } with
      | (.error e, _) => some (.error (.mars2mars e), { shared with parametrization })
      | (.ok mappingResult, vals) => do
        match ← getHandle ctx.encoder fuel shared.cache vals.marsVals vals.miscVals records.geo with
        | (.error e, cache) => return (.error (.mars2grib e), { parametrization, cache })
        | (.ok sample, cache) =>
          return (encodeValues ctx { ctx.toContext with parametrization } vals.marsVals
            mappingResult msg sample, { parametrization, cache })

end Multio.Action.EncodeMtg2
