import Multio.Datamod.Record

namespace Multio.Mars2Grib

open Datamod

inductive TimeExtent
  | None | TimeRange | PointInTime
  deriving DecidableEq, Repr

inductive TimeFormat
  | None | LocalTime | WithReferencePeriod
  deriving DecidableEq, Repr

inductive SpatialExtent
  | None | RandomPatterns | GeneralisedTile | ClusterStatCircular | FocalStatistics
  | ClusterStatRectangular
  deriving DecidableEq, Repr

inductive ProcessType
  | None | Percentile | Quantile | Probability | Reforecast | Categorial | DerivedForecast
  deriving DecidableEq, Repr

inductive ProcessSubType
  | None | LargeEnsemble | Ensemble
  deriving DecidableEq, Repr

inductive ProductCategory
  | None | Aerosol | CcittIA5 | CrossSect | Radar | SpatialStatisticalProcessing | Wave
  | PostProcess | Chemical | Partitioned | Hovmoeller | Optical | SpatioTemporalTile | Satellite
  deriving DecidableEq, Repr

inductive ProductSubCategory
  | None | SpectraFormula | QualityValue | PeriodRange | SpectraList | SourceSink
  | StatisticalOverLatLong | RadioNuclide | OpticalSourceSink | Distribution | Optical
  deriving DecidableEq, Repr

inductive TypeOfLevel
  | Surface | Troposphere | EntireAtmosphere | EntireOcean | EntireLake | CloudBase | CloudTop
  | IsothermZero | AdiabaticCondensation | MaxWind | Tropopause | Stratosphere | NominalTop
  | SeaBottom | Atmosphere | CumulonimbusBase | CumulonimbusTop | FreeConvection
  | ConvectiveCondensation | NeutralBuoyancy | MostUnstableParcel | MixedLayerParcel
  | LowestLevelOfCloudCoverExceedance | Isothermal | IsobaricInPa | IsobaricInhPa | IsobaricLayer
  | LowCloudLayer | MediumCloudLayer | HighCloudLayer | MeanSea | HeightAboveSea
  | HeightAboveSeaLayer | HeightAboveGround | HeightAboveGroundLayer | Sigma | SigmaLayer | Hybrid
  | HybridLayer | DepthBelowLand | DepthBelowLandLayer | Theta | ThetaLayer | PressureFromGround
  | PressureFromGroundLayer | PotentialVorticity | Eta | Snow | SnowLayer | MixedLayerDepthGeneric
  | HybridHeight | HybridPressure | GeneralVertical | GeneralVerticalLayer | Soil | SoilLayer
  | SeaIce | SeaIceLayer | DepthBelowSea | OceanSurface | DepthBelowSeaLayer
  | OceanSurfaceToBottom | LakeBottom | MixingLayer | OceanModel | OceanModelLayer
  | MixedLayerDepthByDensity | MixedLayerDepthByTemperature | MixedLayerDepthByDiffusivity
  | SnowTopOverIceOnWater | SnowLayerOverIceOnWater | IceTopOnWater | IceLayerOnWater
  | IceTopUnderSnowOnWater | IceLayerUnderSnowOnWater | IceBottomOnWater | IndefiniteSoilDepth
  | MeltPondTop | MeltPondBottom | EntireMeltPond | IceLayerAboveWaterSurface
  | WaterSurfaceToIsothermalOceanLayer | TotalSoilLayer | RootZone | Roof | RoofLayer | Wall
  | WallLayer | Road | RoadLayer | UrbanCanyon | AbstractSingleLevel | AbstractMultipleLevels
  | HeightAboveGroundAt2m | HeightAboveGroundAt10m | HeightAboveSeaAt10m
  deriving DecidableEq, Repr

inductive TypeOfStatisticalProcessing
  | Average | Accumulation | Maximum | Minimum | Difference | RootMeanSquare
  | StandardDeviation | Covariance | InverseDifference | Ratio | StandardizedAnomaly | Summation
  | ReturnPeriod | Median | Severity | Mode | IndexProcessing
  deriving DecidableEq, Repr

inductive TimeRangeType
  | FixedTimeRange | SinceLastPostProcessingStep | SinceBeginningOfForecast
  deriving DecidableEq, Repr

section

variable {α : Type}

/-- The entry of a `nestedEntryDef`, whose record has the given defaults. -/
def nestedDefaults (defaults : α → α) (init : α) (e : Entry α) : Entry α :=
  (e.ensureInit (defaults init)).modify defaults

/-- `entryDef.validate` without the nested record. -/
def validateEntry (key : String) (tag : EntryTag) (e : Entry α) : Except Exception Unit :=
  if tag ≠ .Optional ∧ e.isSet = false then
    .error (.dataModelling ("Unset required key: " ++ key ++ " (" ++ tag.toString ++ ")"))
  else .ok ()

/-- `entryDef.validate` for a nested record. -/
def validateNested (key : String) (tag : EntryTag) (validate : α → Except Exception Unit)
    (e : Entry α) : Except Exception Unit := do
  validateEntry key tag e
  match e.visit with
  | none => .ok ()
  | some v => validate v

end

structure TemplateSection where
  templateNumber : Entry ℤ := .unset
  deriving DecidableEq

def TemplateSection.applyRecordDefaults (r : TemplateSection) : TemplateSection where
  templateNumber := r.templateNumber.ensureInit 0

def TemplateSection.validateRecord (r : TemplateSection) : Except Exception Unit :=
  validateEntry "template-number" .Defaulted r.templateNumber

abbrev IndicatorSection : Type := TemplateSection

abbrev LocalUseSection : Type := TemplateSection

abbrev GridSection : Type := TemplateSection

abbrev DataRepresSection : Type := TemplateSection

structure TypeConfigurator (default : String) where
  type : Entry String := .unset
  deriving DecidableEq

section

variable {default : String}

def TypeConfigurator.applyRecordDefaults (r : TypeConfigurator default) :
    TypeConfigurator default where
  type := r.type.ensureInit default

def TypeConfigurator.validateRecord (r : TypeConfigurator default) : Except Exception Unit :=
  validateEntry "type" .Defaulted r.type

end

abbrev DataTypeConfigurator : Type := TypeConfigurator "default"

abbrev ReferenceTimeConfigurator : Type := TypeConfigurator "default"

abbrev PointInTimeConfigurator : Type := TypeConfigurator "default"

abbrev ProcessConfigurator : Type := TypeConfigurator "default"

abbrev ModelConfigurator : Type := TypeConfigurator "default"

abbrev RandomPatternsConfigurator : Type := TypeConfigurator "default"

abbrev ChemConfigurator : Type := TypeConfigurator "chemical"

abbrev DirFreqConfigurator : Type := TypeConfigurator "default"

abbrev SatelliteConfigurator : Type := TypeConfigurator "default"

abbrev PeriodConfigurator : Type := TypeConfigurator "default"

structure OriginConfigurator where
  type : Entry String := .unset
  subCentre : Entry ℤ := .unset
  deriving DecidableEq

def OriginConfigurator.applyRecordDefaults (r : OriginConfigurator) : OriginConfigurator where
  type := r.type.ensureInit "default"
  subCentre := r.subCentre.ensureInit 0

def OriginConfigurator.validateRecord (r : OriginConfigurator) : Except Exception Unit := do
  validateEntry "type" .Defaulted r.type
  validateEntry "sub-centre" .Defaulted r.subCentre

structure TablesConfigurator where
  type : Entry String := .unset
  tablesVersion : Entry ℤ := .unset
  localTablesVersion : Entry ℤ := .unset
  deriving DecidableEq

def TablesConfigurator.applyRecordDefaults (r : TablesConfigurator) : TablesConfigurator where
  type := r.type.ensureInit "default"
  tablesVersion := r.tablesVersion
  localTablesVersion := r.localTablesVersion.ensureInit 0

def TablesConfigurator.validateRecord (r : TablesConfigurator) : Except Exception Unit := do
  validateEntry "type" .Defaulted r.type
  validateEntry "tables-version" .Optional r.tablesVersion
  validateEntry "local-tables-version" .Defaulted r.localTablesVersion

structure IdentificationSection where
  templateNumber : Entry ℤ := .unset
  tables : Entry TablesConfigurator := .unset
  origin : Entry OriginConfigurator := .unset
  dataType : Entry DataTypeConfigurator := .unset
  referenceTime : Entry ReferenceTimeConfigurator := .unset
  deriving DecidableEq

def IdentificationSection.applyRecordDefaults (r : IdentificationSection) :
    IdentificationSection where
  templateNumber := r.templateNumber.ensureInit 0
  tables := nestedDefaults TablesConfigurator.applyRecordDefaults {} r.tables
  origin := nestedDefaults OriginConfigurator.applyRecordDefaults {} r.origin
  dataType := nestedDefaults TypeConfigurator.applyRecordDefaults {} r.dataType
  referenceTime := nestedDefaults TypeConfigurator.applyRecordDefaults {} r.referenceTime

def IdentificationSection.validateRecord (r : IdentificationSection) : Except Exception Unit := do
  validateEntry "template-number" .Defaulted r.templateNumber
  validateNested "origin-configurator" .Defaulted OriginConfigurator.validateRecord r.origin
  validateNested "data-type-configurator" .Defaulted TypeConfigurator.validateRecord r.dataType
  validateNested "reference-time-configurator" .Defaulted TypeConfigurator.validateRecord
    r.referenceTime
  validateNested "tables-configurator" .Defaulted TablesConfigurator.validateRecord r.tables

structure PDTCat where
  timeExtent : Entry TimeExtent := .unset
  timeFormat : Entry TimeFormat := .unset
  spatialExtent : Entry SpatialExtent := .unset
  processType : Entry ProcessType := .unset
  processSubType : Entry ProcessSubType := .unset
  productCategory : Entry ProductCategory := .unset
  productSubCategory : Entry ProductSubCategory := .unset
  deriving DecidableEq

def PDTCat.applyRecordDefaults (r : PDTCat) : PDTCat where
  timeExtent := r.timeExtent.ensureInit .None
  timeFormat := r.timeFormat.ensureInit .None
  spatialExtent := r.spatialExtent.ensureInit .None
  processType := r.processType.ensureInit .None
  processSubType := r.processSubType.ensureInit .None
  productCategory := r.productCategory.ensureInit .None
  productSubCategory := r.productSubCategory.ensureInit .None

def PDTCat.validateRecord (r : PDTCat) : Except Exception Unit := do
  validateEntry "timeExtent" .Defaulted r.timeExtent
  validateEntry "timeFormat" .Defaulted r.timeFormat
  validateEntry "spatialExtent" .Defaulted r.spatialExtent
  validateEntry "processType" .Defaulted r.processType
  validateEntry "processSubType" .Defaulted r.processSubType
  validateEntry "productCategory" .Defaulted r.productCategory
  validateEntry "productSubCategory" .Defaulted r.productSubCategory

structure ParamConfigurator where
  type : Entry String := .unset
  datasetForLocal : Entry String := .unset
  deriving DecidableEq

def ParamConfigurator.applyRecordDefaults (r : ParamConfigurator) : ParamConfigurator where
  type := r.type.ensureInit "paramId"
  datasetForLocal := r.datasetForLocal

def ParamConfigurator.validateRecord (r : ParamConfigurator) : Except Exception Unit := do
  validateEntry "type" .Defaulted r.type
  validateEntry "dataset-for-local" .Optional r.datasetForLocal

structure TimeRangeConfigurator where
  type : Entry TimeRangeType := .unset
  typeOfStatisticalProcessing : Entry TypeOfStatisticalProcessing := .unset
  overallLengthOfTimeRange : Entry String := .unset
  deriving DecidableEq

def TimeRangeConfigurator.validateRecord (r : TimeRangeConfigurator) : Except Exception Unit := do
  validateEntry "type" .Required r.type
  validateEntry "type-of-statistical-processing" .Required r.typeOfStatisticalProcessing
  validateEntry "overall-length-of-timerange" .Optional r.overallLengthOfTimeRange

structure LevelConfigurator where
  type : Entry TypeOfLevel := .unset
  fixedLevel : Entry ℤ := .unset
  deriving DecidableEq

def LevelConfigurator.validateRecord (r : LevelConfigurator) : Except Exception Unit := do
  validateEntry "type" .Required r.type
  validateEntry "fixed-level" .Optional r.fixedLevel

structure ProductSection where
  templateNumber : Entry ℤ := .unset
  pdtCat : Entry PDTCat := .unset
  param : Entry ParamConfigurator := .unset
  model : Entry ModelConfigurator := .unset
  pointInTime : Entry PointInTimeConfigurator := .unset
  timeRange : Entry TimeRangeConfigurator := .unset
  level : Entry LevelConfigurator := .unset
  process : Entry ProcessConfigurator := .unset
  randomPatterns : Entry RandomPatternsConfigurator := .unset
  chemical : Entry ChemConfigurator := .unset
  dirFreq : Entry DirFreqConfigurator := .unset
  periodRange : Entry PeriodConfigurator := .unset
  satellite : Entry SatelliteConfigurator := .unset
  deriving DecidableEq

/-- The values of the seven categories. -/
abbrev Categories : Type :=
  TimeExtent × TimeFormat × SpatialExtent × ProcessType × ProcessSubType × ProductCategory ×
    ProductSubCategory

def PDTCat.categories (r : PDTCat) : Option Categories := do
  let timeExtent ← r.timeExtent.visit
  let timeFormat ← r.timeFormat.visit
  let spatialExtent ← r.spatialExtent.visit
  let processType ← r.processType.visit
  let processSubType ← r.processSubType.visit
  let productCategory ← r.productCategory.visit
  let productSubCategory ← r.productSubCategory.visit
  return (timeExtent, timeFormat, spatialExtent, processType, processSubType, productCategory,
    productSubCategory)

def decisionMap : List (Categories × ℤ) :=
    [((.None, .None, .None, .None, .None, .Satellite, .None), 31),
    ((.None, .None, .None, .None, .None, .Satellite, .QualityValue), 35),
    ((.None, .None, .None, .None, .None, .Radar, .None), 20),
    ((.None, .None, .None, .None, .None, .CcittIA5, .None), 254),
    ((.TimeRange, .None, .None, .None, .None, .None, .None), 8),
    ((.TimeRange, .None, .None, .None, .None, .Aerosol, .None), 46),
    ((.TimeRange, .None, .None, .None, .None, .Aerosol, .SourceSink), 82),
    ((.TimeRange, .None, .None, .None, .None, .CrossSect, .None), 1001),
    ((.TimeRange, .None, .None, .None, .None, .PostProcess, .None), 72),
    ((.TimeRange, .None, .None, .None, .None, .Chemical, .None), 42),
    ((.TimeRange, .None, .None, .None, .None, .Chemical, .Distribution), 67),
    ((.TimeRange, .None, .None, .None, .None, .Chemical, .SourceSink), 78),
    ((.TimeRange, .None, .None, .None, .None, .Chemical, .RadioNuclide), 126),
    ((.TimeRange, .None, .None, .None, .None, .Hovmoeller, .None), 1101),
    ((.TimeRange, .None, .None, .None, .None, .Optical, .None), 110),
    ((.TimeRange, .None, .None, .None, .None, .SpatioTemporalTile, .None), 62),
    ((.TimeRange, .None, .None, .None, .LargeEnsemble, .None, .None), 118),
    ((.TimeRange, .None, .None, .None, .Ensemble, .None, .None), 11),
    ((.TimeRange, .None, .None, .None, .Ensemble, .Aerosol, .None), 85),
    ((.TimeRange, .None, .None, .None, .Ensemble, .Aerosol, .SourceSink), 84),
    ((.TimeRange, .None, .None, .None, .Ensemble, .PostProcess, .None), 73),
    ((.TimeRange, .None, .None, .None, .Ensemble, .Chemical, .None), 43),
    ((.TimeRange, .None, .None, .None, .Ensemble, .Chemical, .Distribution), 68),
    ((.TimeRange, .None, .None, .None, .Ensemble, .Chemical, .SourceSink), 79),
    ((.TimeRange, .None, .None, .None, .Ensemble, .Chemical, .RadioNuclide), 127),
    ((.TimeRange, .None, .None, .None, .Ensemble, .Optical, .None), 111),
    ((.TimeRange, .None, .None, .None, .Ensemble, .SpatioTemporalTile, .None), 63),
    ((.TimeRange, .None, .None, .None, .Ensemble, .Satellite, .None), 34),
    ((.TimeRange, .None, .None, .Percentile, .None, .None, .None), 10),
    ((.TimeRange, .None, .None, .Quantile, .None, .None, .None), 87),
    ((.TimeRange, .None, .None, .Probability, .None, .None, .None), 9),
    ((.TimeRange, .None, .None, .Probability, .Ensemble, .None, .None), 120),
    ((.TimeRange, .None, .None, .Reforecast, .Ensemble, .None, .None), 61),
    ((.TimeRange, .None, .None, .Categorial, .None, .None, .None), 91),
    ((.TimeRange, .None, .None, .DerivedForecast, .Ensemble, .None, .None), 12),
    ((.TimeRange, .None, .ClusterStatCircular, .DerivedForecast, .Ensemble, .None, .None), 14),
    ((.TimeRange, .None, .GeneralisedTile, .None, .None, .None, .None), 114),
    ((.TimeRange, .None, .GeneralisedTile, .None, .Ensemble, .None, .None), 116),
    ((.TimeRange, .None, .FocalStatistics, .Probability, .Ensemble, .None, .None), 122),
    ((.TimeRange, .None, .ClusterStatRectangular, .DerivedForecast, .Ensemble, .None, .None), 13),
    ((.TimeRange, .LocalTime, .None, .None, .None, .None, .None), 95),
    ((.TimeRange, .LocalTime, .None, .None, .None, .PostProcess, .None), 97),
    ((.TimeRange, .LocalTime, .None, .None, .Ensemble, .None, .None), 96),
    ((.TimeRange, .LocalTime, .None, .None, .Ensemble, .PostProcess, .None), 98),
    ((.TimeRange, .WithReferencePeriod, .None, .None, .None, .None, .None), 105),
    ((.TimeRange, .WithReferencePeriod, .None, .None, .Ensemble, .None, .None), 106),
    ((.TimeRange, .WithReferencePeriod, .None, .Probability, .None, .None, .None), 112),
    ((.TimeRange, .WithReferencePeriod, .None, .DerivedForecast, .Ensemble, .None, .None), 107),
    ((.TimeRange, .WithReferencePeriod, .FocalStatistics, .Probability, .Ensemble, .None, .None),
      123),
    ((.PointInTime, .None, .None, .None, .None, .None, .None), 0),
    ((.PointInTime, .None, .None, .None, .None, .Aerosol, .Optical), 48),
    ((.PointInTime, .None, .None, .None, .None, .Aerosol, .OpticalSourceSink), 80),
    ((.PointInTime, .None, .None, .None, .None, .CrossSect, .None), 1000),
    ((.PointInTime, .None, .None, .None, .None, .CrossSect, .StatisticalOverLatLong), 1002),
    ((.PointInTime, .None, .None, .None, .None, .SpatialStatisticalProcessing, .None), 15),
    ((.PointInTime, .None, .None, .None, .None, .Wave, .SpectraFormula), 101),
    ((.PointInTime, .None, .None, .None, .None, .Wave, .SpectraList), 99),
    ((.PointInTime, .None, .None, .None, .None, .Wave, .PeriodRange), 103),
    ((.PointInTime, .None, .None, .None, .None, .PostProcess, .None), 70),
    ((.PointInTime, .None, .None, .None, .None, .Chemical, .None), 40),
    ((.PointInTime, .None, .None, .None, .None, .Chemical, .Distribution), 57),
    ((.PointInTime, .None, .None, .None, .None, .Chemical, .SourceSink), 76),
    ((.PointInTime, .None, .None, .None, .None, .Chemical, .RadioNuclide), 124),
    ((.PointInTime, .None, .None, .None, .None, .Partitioned, .None), 53),
    ((.PointInTime, .None, .None, .None, .None, .Hovmoeller, .None), 1100),
    ((.PointInTime, .None, .None, .None, .None, .Optical, .None), 108),
    ((.PointInTime, .None, .None, .None, .None, .SpatioTemporalTile, .None), 55),
    ((.PointInTime, .None, .None, .None, .None, .Satellite, .None), 32),
    ((.PointInTime, .None, .None, .None, .LargeEnsemble, .None, .None), 117),
    ((.PointInTime, .None, .None, .None, .Ensemble, .None, .None), 1),
    ((.PointInTime, .None, .None, .None, .Ensemble, .Aerosol, .None), 45),
    ((.PointInTime, .None, .None, .None, .Ensemble, .Aerosol, .Optical), 49),
    ((.PointInTime, .None, .None, .None, .Ensemble, .Aerosol, .OpticalSourceSink), 81),
    ((.PointInTime, .None, .None, .None, .Ensemble, .Wave, .SpectraFormula), 102),
    ((.PointInTime, .None, .None, .None, .Ensemble, .Wave, .SpectraList), 100),
    ((.PointInTime, .None, .None, .None, .Ensemble, .Wave, .PeriodRange), 104),
    ((.PointInTime, .None, .None, .None, .Ensemble, .PostProcess, .None), 71),
    ((.PointInTime, .None, .None, .None, .Ensemble, .Chemical, .None), 41),
    ((.PointInTime, .None, .None, .None, .Ensemble, .Chemical, .Distribution), 58),
    ((.PointInTime, .None, .None, .None, .Ensemble, .Chemical, .SourceSink), 77),
    ((.PointInTime, .None, .None, .None, .Ensemble, .Chemical, .RadioNuclide), 125),
    ((.PointInTime, .None, .None, .None, .Ensemble, .Partitioned, .None), 54),
    ((.PointInTime, .None, .None, .None, .Ensemble, .Optical, .None), 109),
    ((.PointInTime, .None, .None, .None, .Ensemble, .SpatioTemporalTile, .None), 59),
    ((.PointInTime, .None, .None, .None, .Ensemble, .Satellite, .None), 33),
    ((.PointInTime, .None, .None, .Percentile, .None, .None, .None), 6),
    ((.PointInTime, .None, .None, .Quantile, .None, .None, .None), 86),
    ((.PointInTime, .None, .None, .Probability, .None, .None, .None), 5),
    ((.PointInTime, .None, .None, .Probability, .Ensemble, .None, .None), 119),
    ((.PointInTime, .None, .None, .Reforecast, .Ensemble, .None, .None), 60),
    ((.PointInTime, .None, .None, .Categorial, .None, .None, .None), 51),
    ((.PointInTime, .None, .None, .DerivedForecast, .Ensemble, .None, .None), 2),
    ((.PointInTime, .None, .RandomPatterns, .None, .LargeEnsemble, .None, .None), 143),
    ((.PointInTime, .None, .ClusterStatCircular, .DerivedForecast, .Ensemble, .None, .None), 4),
    ((.PointInTime, .None, .GeneralisedTile, .None, .None, .None, .None), 113),
    ((.PointInTime, .None, .GeneralisedTile, .None, .Ensemble, .None, .None), 115),
    ((.PointInTime, .None, .FocalStatistics, .Probability, .Ensemble, .None, .None), 121),
    ((.PointInTime, .None, .ClusterStatRectangular, .DerivedForecast, .Ensemble, .None, .None), 3),
    ((.PointInTime, .LocalTime, .None, .None, .None, .None, .None), 88),
    ((.PointInTime, .LocalTime, .None, .None, .None, .PostProcess, .None), 93),
    ((.PointInTime, .LocalTime, .None, .None, .Ensemble, .None, .None), 92),
    ((.PointInTime, .LocalTime, .None, .None, .Ensemble, .PostProcess, .None), 94)]

inductive PdtException
  | notMapped (pdtCat : PDTCat)
  | templateNumberDiffers (pdtNum passed : ℤ)
  deriving DecidableEq

def inferProductDefinitionTemplateNumber (pdtCat : PDTCat) : Except PdtException ℤ :=
  match pdtCat.categories.bind fun categories => decisionMap.lookup categories with
  | some pdtNum => .ok pdtNum
  | none => .error (.notMapped pdtCat)

namespace ProductSection

/-- `applyDefaults` of every entry. -/
def applyEntryDefaults (r : ProductSection) : ProductSection where
  templateNumber := r.templateNumber
  pdtCat := r.pdtCat.modify PDTCat.applyRecordDefaults
  param := nestedDefaults ParamConfigurator.applyRecordDefaults {} r.param
  model := nestedDefaults TypeConfigurator.applyRecordDefaults {} r.model
  pointInTime := r.pointInTime.modify TypeConfigurator.applyRecordDefaults
  timeRange := r.timeRange.modify id
  level := r.level.modify id
  process := r.process.modify TypeConfigurator.applyRecordDefaults
  randomPatterns := r.randomPatterns.modify TypeConfigurator.applyRecordDefaults
  chemical := r.chemical.modify TypeConfigurator.applyRecordDefaults
  dirFreq := r.dirFreq.modify TypeConfigurator.applyRecordDefaults
  periodRange := r.periodRange.modify TypeConfigurator.applyRecordDefaults
  satellite := r.satellite.modify TypeConfigurator.applyRecordDefaults

def applyDefaults (product : ProductSection) : Except PdtException ProductSection :=
  match product.pdtCat.visit with
  | none => .ok product
  | some pdtCat => do
    let pdtNum ← inferProductDefinitionTemplateNumber pdtCat
    match product.templateNumber.visit with
    | some passed => if passed ≠ pdtNum then .error (.templateNumberDiffers pdtNum passed)
    | none => pure ()
    return { product with templateNumber := .value pdtNum }

def applyRecordDefaults (r : ProductSection) : Except PdtException ProductSection :=
  r.applyEntryDefaults.applyDefaults

/-- What `ensureInit()` sets. -/
def init : ProductSection := applyEntryDefaults {}

/-- `ProductSection::validate` is not among the checks: it takes a reference that is not const. -/
def validateRecord (r : ProductSection) : Except Exception Unit := do
  validateEntry "template-number" .Required r.templateNumber
  validateNested "product-categories" .Optional PDTCat.validateRecord r.pdtCat
  validateNested "param-configurator" .Defaulted ParamConfigurator.validateRecord r.param
  validateNested "model-configurator" .Defaulted TypeConfigurator.validateRecord r.model
  validateNested "point-in-time-configurator" .Optional TypeConfigurator.validateRecord
    r.pointInTime
  validateNested "time-statistics-configurator" .Optional TimeRangeConfigurator.validateRecord
    r.timeRange
  validateNested "level-configurator" .Optional LevelConfigurator.validateRecord r.level
  validateNested "ensemble-configurator" .Optional TypeConfigurator.validateRecord r.process
  validateNested "level-configurator" .Optional LevelConfigurator.validateRecord r.level
  validateNested "random-patterns-configurator" .Optional TypeConfigurator.validateRecord
    r.randomPatterns
  validateNested "chemistry-configurator" .Optional TypeConfigurator.validateRecord r.chemical
  validateNested "directions-frequencies-configurator" .Optional TypeConfigurator.validateRecord
    r.dirFreq
  validateNested "period-configurator" .Optional TypeConfigurator.validateRecord r.periodRange
  validateNested "satellite-configurator" .Optional TypeConfigurator.validateRecord
    r.satellite

end ProductSection

structure SectionsConf where
  type : Entry String := .unset
  indicator : Entry IndicatorSection := .unset
  identification : Entry IdentificationSection := .unset
  localUse : Entry LocalUseSection := .unset
  grid : Entry GridSection := .unset
  product : Entry ProductSection := .unset
  dataRepres : Entry DataRepresSection := .unset
  deriving DecidableEq

namespace SectionsConf

def applyRecordDefaults (r : SectionsConf) : Except PdtException SectionsConf := do
  let product ← (r.product.visit.getD ProductSection.init).applyRecordDefaults
  return {
    type := r.type.ensureInit "grib2"
    indicator := nestedDefaults TemplateSection.applyRecordDefaults {} r.indicator
    identification := nestedDefaults IdentificationSection.applyRecordDefaults {} r.identification
    localUse := nestedDefaults TemplateSection.applyRecordDefaults {} r.localUse
    grid := nestedDefaults TemplateSection.applyRecordDefaults {} r.grid
    product := .value product
    dataRepres := nestedDefaults TemplateSection.applyRecordDefaults {} r.dataRepres }

def validateRecord (r : SectionsConf) : Except Exception Unit := do
  validateEntry "type" .Defaulted r.type
  validateNested "indicator-section" .Defaulted TemplateSection.validateRecord r.indicator
  validateNested "identification-section" .Defaulted IdentificationSection.validateRecord
    r.identification
  validateNested "local-use-section" .Defaulted TemplateSection.validateRecord r.localUse
  validateNested "grid-definition-section" .Defaulted TemplateSection.validateRecord r.grid
  validateNested "product-definition-section" .Defaulted ProductSection.validateRecord r.product
  validateNested "data-representation-section" .Defaulted TemplateSection.validateRecord
    r.dataRepres

end SectionsConf
end Multio.Mars2Grib
