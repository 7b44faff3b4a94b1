import Multio.Datamod.Record

namespace Multio.Datamod

inductive MarsKey
  -- general
  | origin | klass | stream | type | expver | model
  -- seasonal
  | method | system
  -- destine
  | dataset | resolution | activity | experiment | generation | realization
  -- encoding details
  | grid | truncation | repres | packing
  -- field id
  | param | levtype | timespan | stattype
  -- field details
  | levelist | number | chem | wavelength | direction | frequency | iteration | diagnostic
  -- satellite
  | ident | instrument | channel
  -- time
  | date | time | step | anoffset | hdate | refdate | fcmonth | fcperiod
  deriving DecidableEq, Repr

namespace MarsKey

def all : List MarsKey :=
  [.origin, .klass, .stream, .type, .expver, .model, .method, .system, .dataset, .resolution,
    .activity, .experiment, .generation, .realization, .grid, .truncation, .repres, .packing,
    .param, .levtype, .timespan, .stattype, .levelist, .number, .chem, .wavelength, .direction,
    .frequency, .iteration, .diagnostic, .ident, .instrument, .channel, .date, .time, .step,
    .anoffset, .hdate, .refdate, .fcmonth, .fcperiod]

theorem mem_all (k : MarsKey) : k ∈ all := by cases k <;> decide

def key : MarsKey → String
  | .origin => "origin"
  | .klass => "class"
  | .stream => "stream"
  | .type => "type"
  | .expver => "expver"
  | .model => "model"
  | .method => "method"
  | .system => "system"
  | .dataset => "dataset"
  | .resolution => "resolution"
  | .activity => "activity"
  | .experiment => "experiment"
  | .generation => "generation"
  | .realization => "realization"
  | .grid => "grid"
  | .truncation => "truncation"
  | .repres => "repres"
  | .packing => "packing"
  | .param => "param"
  | .levtype => "levtype"
  | .timespan => "timespan"
  | .stattype => "stattype"
  | .levelist => "levelist"
  | .number => "number"
  | .chem => "chem"
  | .wavelength => "wavelength"
  | .direction => "direction"
  | .frequency => "frequency"
  | .iteration => "iteration"
  | .diagnostic => "diagnostic"
  | .ident => "ident"
  | .instrument => "instrument"
  | .channel => "channel"
  | .date => "date"
  | .time => "time"
  | .step => "step"
  | .anoffset => "anoffset"
  | .hdate => "hdate"
  | .refdate => "refdate"
  | .fcmonth => "fcmonth"
  | .fcperiod => "fcperiod"

/-- `tagDefaulted` makes the tag of `repres` an optional one. -/
def tag : MarsKey → EntryTag
  | .origin => .Defaulted
  | .klass | .stream | .type | .expver | .param | .date | .time => .Required
  | _ => .Optional

@[reducible] def valueType : MarsKey → ValueType
  | .origin | .expver => .intOrString
  | .klass | .stream | .type | .model | .dataset | .resolution | .activity | .experiment | .grid
  | .packing => .string
  | .repres => .repres
  | .param => .param
  | .levtype => .levType
  | .timespan | .step => .timeDuration
  | .stattype => .statType
  | _ => .int64

def defaultValue : (k : MarsKey) → Option k.valueType.Val
  | .origin => some (.inr "ecmf")
  | _ => none

end MarsKey

@[reducible] def marsRecord : RecordType where
  Entries := MarsKey
  entries := MarsKey.all
  mem_entries := MarsKey.mem_all
  key := MarsKey.key
  nodup := by decide
  tag := MarsKey.tag
  type := MarsKey.valueType
  defaultValue := MarsKey.defaultValue

abbrev FullMarsRecord : Type := (k : MarsKey) → Entry k.valueType.Val

inductive MiscKey
  | tablesVersion | generatingProcessIdentifier | typeOfProcessedData | initialStep
  | timeIncrementInSeconds | lengthOfTimeWindow | lengthOfTimeWindowInSeconds | bitmapPresent
  | missingValue | typeOfEnsembleForecast | numberOfForecastsInEnsemble | satelliteSeries
  | scaleFactorOfCentralWaveNumber | scaledValueOfCentralWaveNumber | pv
  | scaleFactorOfWaveDirections | scaleFactorOfWaveFrequencies | waveDirections | waveFrequencies
  | bitsPerValue | laplacianOperator
  deriving DecidableEq, Repr

@[reducible] def MiscKey.valueType : MiscKey → ValueType
  | .typeOfProcessedData => .typeOfProcessedData
  | .bitmapPresent => .bool
  | .missingValue | .laplacianOperator => .double
  | .pv | .waveDirections | .waveFrequencies => .doubles
  | _ => .int64

abbrev MiscRecord : Type := (k : MiscKey) → Entry k.valueType.Val

inductive GeoGGKey
  | truncateDegrees | numberOfPointsAlongAMeridian | numberOfParallelsBetweenAPoleAndTheEquator
  | latitudeOfFirstGridPointInDegrees | longitudeOfFirstGridPointInDegrees
  | latitudeOfLastGridPointInDegrees | longitudeOfLastGridPointInDegrees | pl
  deriving DecidableEq, Repr

namespace GeoGGKey

def all : List GeoGGKey :=
  [.truncateDegrees, .numberOfPointsAlongAMeridian, .numberOfParallelsBetweenAPoleAndTheEquator,
    .latitudeOfFirstGridPointInDegrees, .longitudeOfFirstGridPointInDegrees,
    .latitudeOfLastGridPointInDegrees, .longitudeOfLastGridPointInDegrees, .pl]

theorem mem_all (k : GeoGGKey) : k ∈ all := by cases k <;> decide

def key : GeoGGKey → String
  | .truncateDegrees => "truncateDegrees"
  | .numberOfPointsAlongAMeridian => "numberOfPointsAlongAMeridian"
  | .numberOfParallelsBetweenAPoleAndTheEquator => "numberOfParallelsBetweenAPoleAndTheEquator"
  | .latitudeOfFirstGridPointInDegrees => "latitudeOfFirstGridPointInDegrees"
  | .longitudeOfFirstGridPointInDegrees => "longitudeOfFirstGridPointInDegrees"
  | .latitudeOfLastGridPointInDegrees => "latitudeOfLastGridPointInDegrees"
  | .longitudeOfLastGridPointInDegrees => "longitudeOfLastGridPointInDegrees"
  | .pl => "pl"

def tag : GeoGGKey → EntryTag
  | .truncateDegrees | .numberOfPointsAlongAMeridian | .pl => .Optional
  | _ => .Required

@[reducible] def valueType : GeoGGKey → ValueType
  | .truncateDegrees | .numberOfPointsAlongAMeridian
  | .numberOfParallelsBetweenAPoleAndTheEquator => .int64
  | .pl => .int64s
  | _ => .double

end GeoGGKey

@[reducible] def geoGGRecord : RecordType where
  Entries := GeoGGKey
  entries := GeoGGKey.all
  mem_entries := GeoGGKey.mem_all
  key := GeoGGKey.key
  nodup := by decide
  tag := GeoGGKey.tag
  type := GeoGGKey.valueType
  defaultValue _ := none

end Multio.Datamod
