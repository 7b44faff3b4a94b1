import Multio.Datamod.MarsMiscGeo
import Multio.Datamod.MetadataInterop

namespace Multio.Datamod

namespace RecordType

theorem nodup_scoped (R : RecordType) (scope : String) :
    (R.entries.map fun k => scope ++ "-" ++ R.key k).Nodup := by
  have hinj : Function.Injective fun k => scope ++ "-" ++ k :=
    fun _ _ h => (String.append_right_inj (scope ++ "-")).mp h
  have hmap := R.nodup.map hinj
  rwa [List.map_map] at hmap

/-- `scopeRecord`: the same entries under keys with the scope in front. -/
@[reducible] def scopeRecord (R : RecordType) (scope : String) : RecordType :=
  { R with
    key := fun k => scope ++ "-" ++ R.key k
    nodup := nodup_scoped R scope }

end RecordType

namespace MiscKey

def all : List MiscKey :=
  [.tablesVersion, .generatingProcessIdentifier, .typeOfProcessedData, .initialStep,
    .timeIncrementInSeconds, .lengthOfTimeWindow, .lengthOfTimeWindowInSeconds, .bitmapPresent,
    .missingValue, .typeOfEnsembleForecast, .numberOfForecastsInEnsemble, .satelliteSeries,
    .scaleFactorOfCentralWaveNumber, .scaledValueOfCentralWaveNumber, .pv,
    .scaleFactorOfWaveDirections, .scaleFactorOfWaveFrequencies, .waveDirections,
    .waveFrequencies, .bitsPerValue, .laplacianOperator]

theorem mem_all (k : MiscKey) : k ∈ all := by cases k <;> decide

def key : MiscKey → String
  | .tablesVersion => "tablesVersion"
  | .generatingProcessIdentifier => "generatingProcessIdentifier"
  | .typeOfProcessedData => "typeOfProcessedData"
  | .initialStep => "initialStep"
  | .timeIncrementInSeconds => "timeIncrementInSeconds"
  | .lengthOfTimeWindow => "lengthOfTimeWindow"
  | .lengthOfTimeWindowInSeconds => "lengthOfTimeWindowInSeconds"
  | .bitmapPresent => "bitmapPresent"
  | .missingValue => "missingValue"
  | .typeOfEnsembleForecast => "typeOfEnsembleForecast"
  | .numberOfForecastsInEnsemble => "numberOfForecastsInEnsemble"
  | .satelliteSeries => "satelliteSeries"
  | .scaleFactorOfCentralWaveNumber => "scaleFactorOfCentralWaveNumber"
  | .scaledValueOfCentralWaveNumber => "scaledValueOfCentralWaveNumber"
  | .pv => "pv"
  | .scaleFactorOfWaveDirections => "scaleFactorOfWaveDirections"
  | .scaleFactorOfWaveFrequencies => "scaleFactorOfWaveFrequencies"
  | .waveDirections => "waveDirections"
  | .waveFrequencies => "waveFrequencies"
  | .bitsPerValue => "bitsPerValue"
  | .laplacianOperator => "laplacianOperator"

def tag : MiscKey → EntryTag
  | .initialStep | .timeIncrementInSeconds => .Defaulted
  | _ => .Optional

def defaultValue : (k : MiscKey) → Option k.valueType.Val
  | .initialStep => some 0
  | .timeIncrementInSeconds => some 3600
  | _ => none

end MiscKey

@[reducible] def miscRecord : RecordType where
  Entries := MiscKey
  entries := MiscKey.all
  mem_entries := MiscKey.mem_all
  key := MiscKey.key
  nodup := by decide
  tag := MiscKey.tag
  type := MiscKey.valueType
  defaultValue := MiscKey.defaultValue

inductive GeoLLKey
  | numberOfPointsAlongAParallel | numberOfPointsAlongAMeridian
  | latitudeOfFirstGridPointInDegrees | longitudeOfFirstGridPointInDegrees
  | latitudeOfLastGridPointInDegrees | longitudeOfLastGridPointInDegrees
  | iDirectionIncrementInDegrees | jDirectionIncrementInDegrees
  deriving DecidableEq, Repr

namespace GeoLLKey

def all : List GeoLLKey :=
  [.numberOfPointsAlongAParallel, .numberOfPointsAlongAMeridian,
    .latitudeOfFirstGridPointInDegrees, .longitudeOfFirstGridPointInDegrees,
    .latitudeOfLastGridPointInDegrees, .longitudeOfLastGridPointInDegrees,
    .iDirectionIncrementInDegrees, .jDirectionIncrementInDegrees]

theorem mem_all (k : GeoLLKey) : k ∈ all := by cases k <;> decide

def key : GeoLLKey → String
  | .numberOfPointsAlongAParallel => "numberOfPointsAlongAParallel"
  | .numberOfPointsAlongAMeridian => "numberOfPointsAlongAMeridian"
  | .latitudeOfFirstGridPointInDegrees => "latitudeOfFirstGridPointInDegrees"
  | .longitudeOfFirstGridPointInDegrees => "longitudeOfFirstGridPointInDegrees"
  | .latitudeOfLastGridPointInDegrees => "latitudeOfLastGridPointInDegrees"
  | .longitudeOfLastGridPointInDegrees => "longitudeOfLastGridPointInDegrees"
  | .iDirectionIncrementInDegrees => "iDirectionIncrementInDegrees"
  | .jDirectionIncrementInDegrees => "jDirectionIncrementInDegrees"

def tag : GeoLLKey → EntryTag
  | .numberOfPointsAlongAParallel | .numberOfPointsAlongAMeridian => .Optional
  | _ => .Required

@[reducible] def valueType : GeoLLKey → ValueType
  | .numberOfPointsAlongAParallel | .numberOfPointsAlongAMeridian => .int64
  | _ => .double

end GeoLLKey

@[reducible] def geoLLRecord : RecordType where
  Entries := GeoLLKey
  entries := GeoLLKey.all
  mem_entries := GeoLLKey.mem_all
  key := GeoLLKey.key
  nodup := by decide
  tag := GeoLLKey.tag
  type := GeoLLKey.valueType
  defaultValue _ := none

inductive GeoSHKey
  | pentagonalResolutionParameterJ | pentagonalResolutionParameterK
  | pentagonalResolutionParameterM
  deriving DecidableEq, Repr

def GeoSHKey.key : GeoSHKey → String
  | .pentagonalResolutionParameterJ => "pentagonalResolutionParameterJ"
  | .pentagonalResolutionParameterK => "pentagonalResolutionParameterK"
  | .pentagonalResolutionParameterM => "pentagonalResolutionParameterM"

@[reducible] def geoSHRecord : RecordType where
  Entries := GeoSHKey
  entries := [.pentagonalResolutionParameterJ, .pentagonalResolutionParameterK,
    .pentagonalResolutionParameterM]
  mem_entries k := by cases k <;> simp
  key := GeoSHKey.key
  nodup := by decide
  tag _ := .Required
  type _ := .int64
  defaultValue _ := none

inductive GeoHEALPixKey
  | nside | orderingConvention | longitudeOfFirstGridPointInDegrees
  deriving DecidableEq, Repr

namespace GeoHEALPixKey

def key : GeoHEALPixKey → String
  | .nside => "nside"
  | .orderingConvention => "orderingConvention"
  | .longitudeOfFirstGridPointInDegrees => "longitudeOfFirstGridPointInDegrees"

def tag : GeoHEALPixKey → EntryTag
  | .nside => .Required
  | .orderingConvention | .longitudeOfFirstGridPointInDegrees => .Optional

@[reducible] def valueType : GeoHEALPixKey → ValueType
  | .nside => .int64
  | .orderingConvention => .string
  | .longitudeOfFirstGridPointInDegrees => .double

end GeoHEALPixKey

@[reducible] def geoHEALPixRecord : RecordType where
  Entries := GeoHEALPixKey
  entries := [.nside, .orderingConvention, .longitudeOfFirstGridPointInDegrees]
  mem_entries k := by cases k <;> simp
  key := GeoHEALPixKey.key
  nodup := by decide
  tag := GeoHEALPixKey.tag
  type := GeoHEALPixKey.valueType
  defaultValue _ := none

/-- `get()` of an entry. -/
def Entry.get {α : Type} (e : Entry α) : Except Exception α :=
  match e.visit with
  | some v => .ok v
  | none => .error (.dataModelling ("Unchecked call to `BaseEntry::get()` (missing value). " ++
      "Seems like an unvalidated object has been accessed?"))

def represFromGrid (grid : String) : Except Exception Repres :=
  match grid.toList with
  | [] => .error (.dataModelling "represFromGrid: empty grid")
  | 'F' :: _ | 'O' :: _ => .ok .GG
  | 'H' :: _ => .ok .HEALPix
  | 'N' :: _ => if grid.toList.contains 'x' then .ok .LL else .ok .GG
  | 'L' :: _ => .ok .LL
  | _ => .error (.dataModelling ("represFromGrid: invalid grid: " ++ grid))

/-- The derived representation is set, unless another one was passed. -/
def setRepres (mars : FullMarsRecord) (detRepres : Repres) (origin : String) :
    Except Exception FullMarsRecord :=
  let derived : FullMarsRecord := Function.update mars .repres (.value detRepres)
  match (mars .repres).visit with
  | none => .ok derived
  | some repres =>
    if detRepres = repres then .ok derived
    else .error (.dataModelling ("Passed value for repres is " ++ repres.dump ++
      " but derived value  " ++ detRepres.dump ++ " from " ++ origin))

/-- `FullMarsRecord::applyDefaults`; `print` is what a stream shows of a record. -/
def applyMarsDefaults (print : FullMarsRecord → String) (mars : FullMarsRecord) :
    Except Exception FullMarsRecord :=
  match (mars .grid).visit, (mars .truncation).visit with
  | none, none => .error (.dataModelling ("Either mars key 'grid' (x)or 'truncation' need to be " ++
      "given to describe geometry - both are missing: " ++ print mars))
  | some _, some _ => .error (.dataModelling ("Either mars key 'grid' or 'truncation' needs to " ++
      "be given to describe geometry - both are given: " ++ print mars))
  | some grid, none => do
    let detRepres ← represFromGrid grid
    setRepres mars detRepres ("grid " ++ grid)
  | none, some trunc => setRepres mars .SH ("truncation " ++ toString trunc)

section

variable (ctx : Context) (C : Conversions)

/-- `readRecord<FullMarsRecord>`. -/
def readMarsRecord (print : FullMarsRecord → String) (md : BaseMetadata) :
    Except Exception FullMarsRecord := do
  let parsed ← RecordType.parseMetadata ctx C marsRecord true true true md
  let mars ← applyMarsDefaults print (RecordType.applyDefaults (R := marsRecord) parsed)
  RecordType.validateRecord (R := marsRecord) mars
  return mars

/-- `readRecord` of the scoped miscellaneous keys. -/
def readMiscRecord (md : BaseMetadata) : Except Exception MiscRecord :=
  RecordType.readMetadata ctx C (miscRecord.scopeRecord "misc") md

inductive Geometry
  | gg (rec : geoGGRecord.Record)
  | ll (rec : geoLLRecord.Record)
  | sh (rec : geoSHRecord.Record)
  | healpix (rec : geoHEALPixRecord.Record)

/-- `getGeometryRecord`: the representation, and the scope of its record. -/
def getGeometryRecord (mars : FullMarsRecord) : Except Exception (Repres × String) := do
  let repres ← (mars .repres).get
  match repres with
  | .SH => do
    let trunc ← (mars .truncation).get
    .ok (repres, "geo-TCO" ++ toString trunc)
  | .GG | .LL | .HEALPix => do
    let grid ← (mars .grid).get
    .ok (repres, "geo-" ++ grid)

/-- `readRecord` of a scoped geometry. -/
def readGeometry (scope : String) (md : BaseMetadata) : Repres → Except Exception Geometry
  | .GG => do
    let geo ← RecordType.readMetadata ctx C (geoGGRecord.scopeRecord scope) md
    .ok (.gg geo)
  | .LL => do
    let geo ← RecordType.readMetadata ctx C (geoLLRecord.scopeRecord scope) md
    .ok (.ll geo)
  | .SH => do
    let geo ← RecordType.readMetadata ctx C (geoSHRecord.scopeRecord scope) md
    .ok (.sh geo)
  | .HEALPix => do
    let geo ← RecordType.readMetadata ctx C (geoHEALPixRecord.scopeRecord scope) md
    .ok (.healpix geo)

end

end Multio.Datamod
