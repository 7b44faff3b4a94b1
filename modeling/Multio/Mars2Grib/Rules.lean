import Multio.Mars2Grib.EncoderConf
import Multio.Mars2Grib.RuleTree

namespace Multio.Mars2Grib.Rules

open Datamod Matcher

def matchChemical : Matcher := .all [has .chem, missing .wavelength, chem .lessThan 900]

def matchLevType (lt : LevType) : Matcher := oneOf .levtype [lt]

abbrev Setter : Type := SectionsConf → SectionsConf

/-- A change of `product.ensureInit().modify()`. -/
def onProduct (change : ProductSection → ProductSection) : Setter := fun c =>
  { c with product := (c.product.ensureInit .init).modify change }

/-- A change of `product.ensureInit().modify().pdtCat.ensureInit().modify()`. -/
def onPdtCat (change : PDTCat → PDTCat) : Setter :=
  onProduct fun p =>
    { p with pdtCat := (p.pdtCat.ensureInit (PDTCat.applyRecordDefaults {})).modify change }

/-- A configurator of the type that is set by `ensureInit()`. -/
def initConfigurator {default : String} (e : Entry (TypeConfigurator default)) :
    Entry (TypeConfigurator default) :=
  e.ensureInit (TypeConfigurator.applyRecordDefaults {})

/-- A change of `product.ensureInit().modify().timeRange.ensureInit().modify()`. -/
def onTimeRange (change : TimeRangeConfigurator → TimeRangeConfigurator) : Setter :=
  onProduct fun p => { p with timeRange := (p.timeRange.ensureInit {}).modify change }

/-- A change of `product.ensureInit().modify().level.ensureInit().modify()`. -/
def onLevel (change : LevelConfigurator → LevelConfigurator) : Setter :=
  onProduct fun p => { p with level := (p.level.ensureInit {}).modify change }

/-- A change of `identification.ensureInit().modify().tables.ensureInit().modify()`. -/
def onTables (change : TablesConfigurator → TablesConfigurator) : Setter := fun c =>
  { c with
    identification :=
      (c.identification.ensureInit (IdentificationSection.applyRecordDefaults {})).modify fun i =>
        { i with
          tables :=
            (i.tables.ensureInit (TablesConfigurator.applyRecordDefaults {})).modify change } }

def pointInTime : Setter := fun c =>
  onProduct (fun p => { p with pointInTime := initConfigurator p.pointInTime })
    (onPdtCat (fun cat => { cat with timeExtent := .value .PointInTime }) c)

def timeRange (type : TimeRangeType) (typeOfStatisticalProcessing : TypeOfStatisticalProcessing) :
    Setter := fun c =>
  onTimeRange
    (fun t => { t with typeOfStatisticalProcessing := .value typeOfStatisticalProcessing })
    (onTimeRange (fun t => { t with type := .value type })
      (onPdtCat (fun cat => { cat with timeExtent := .value .TimeRange }) c))

def overallLengthOfTimeRange (l : String) : Setter :=
  onTimeRange fun t => { t with overallLengthOfTimeRange := .value l }

/-- The setters of the process, which change a category of the product. -/
def onProcess (change : PDTCat → PDTCat) : Setter := fun c =>
  onProduct (fun p => { p with process := initConfigurator p.process }) (onPdtCat change c)

def ensemble : Setter := onProcess fun cat => { cat with processSubType := .value .Ensemble }

def largeEnsemble : Setter :=
  onProcess fun cat => { cat with processSubType := .value .LargeEnsemble }

def reforecast : Setter := onProcess fun cat => { cat with processType := .value .Reforecast }

def derivedForecast : Setter := fun c =>
  onProduct
    (fun p => { p with process := p.process.modify fun q => { q with type := .value "derived" } })
    (onProcess (fun cat => { cat with processType := .value .DerivedForecast }) c)

def chemical : Setter := fun c =>
  onPdtCat (fun cat => { cat with productCategory := .value .Chemical })
    (onProduct (fun p => { p with chemical := initConfigurator p.chemical }) c)

def periodRange : Setter := fun c =>
  onPdtCat (fun cat => { cat with productSubCategory := .value .PeriodRange })
    (onPdtCat (fun cat => { cat with productCategory := .value .Wave })
      (onProduct (fun p => { p with periodRange := initConfigurator p.periodRange }) c))

def dirFreq : Setter := fun c =>
  onPdtCat (fun cat => { cat with productSubCategory := .value .SpectraList })
    (onPdtCat (fun cat => { cat with productCategory := .value .Wave })
      (onProduct (fun p => { p with dirFreq := initConfigurator p.dirFreq }) c))

def satellite : Setter := fun c =>
  onPdtCat (fun cat => { cat with productCategory := .value .Satellite })
    (onProduct (fun p => { p with satellite := initConfigurator p.satellite }) c)

def randomPattern : Setter := fun c =>
  onPdtCat (fun cat => { cat with spatialExtent := .value .RandomPatterns })
    (onProduct (fun p => { p with randomPatterns := initConfigurator p.randomPatterns }) c)

def typeOfLevel (type : TypeOfLevel) : Setter := onLevel fun l => { l with type := .value type }

def fixedLevel (lvl : ℤ) : Setter := onLevel fun l => { l with fixedLevel := .value lvl }

def setTemplateNumber (num : ℤ) (e : Entry TemplateSection) : Entry TemplateSection :=
  (e.ensureInit (TemplateSection.applyRecordDefaults {})).modify fun s =>
    { s with templateNumber := .value num }

def localUse (num : ℤ) : Setter := fun c => { c with localUse := setTemplateNumber num c.localUse }

def dataRepres (num : ℤ) : Setter := fun c =>
  { c with dataRepres := setTemplateNumber num c.dataRepres }

def tablesConfig (type : String) : Setter := onTables fun t => { t with type := .value type }

def tablesVersion (version : ℤ) : Setter :=
  onTables fun t => { t with tablesVersion := .value version }

def localTablesVersion (version : ℤ) : Setter :=
  onTables fun t => { t with localTablesVersion := .value version }

/-- The rule makers: no setter, one, or several that are combined with `setAll`. -/
def rule (matcher : Matcher) (setters : List Setter) : RuleTree SectionsConf :=
  .rule matcher (setAll setters)

def makeGridRule (repres : Repres) (num : ℤ) : RuleTree SectionsConf :=
  rule (oneOf .repres [repres]) [fun c => { c with grid := setTemplateNumber num c.grid }]

def gridRules : RuleTree SectionsConf :=
  .exclusiveRuleList "gridRules" [makeGridRule .LL 0, makeGridRule .GG 40, makeGridRule .SH 50]

def localSectionRules : RuleTree SectionsConf :=
  .exclusiveRuleList "localSectionRules" [
    rule (.all [missing .anoffset, noneOf .klass ["d1"], missing .method, missing .channel])
      [localUse 1],
    rule (.all [missing .anoffset, noneOf .klass ["d1"], has .method]) [localUse 15],
    rule (.all [missing .anoffset, noneOf .klass ["d1"], missing .method, has .channel,
      oneOf .type ["em", "es"]]) [localUse 14],
    rule (.all [has .anoffset, noneOf .klass ["d1"]]) [localUse 36],
    rule (.all [missing .anoffset, oneOf .klass ["d1"]]) [localUse 1001],
    rule (.all [has .anoffset, oneOf .klass ["d1"]]) [localUse 1036]]

def processTypesRules : RuleTree SectionsConf :=
  .exclusiveRuleList "processTypesRules" [
    rule (.all [noneOf .levtype [.AL], missing .number, missing .hdate,
      noneOf .type ["em", "es"]]) [],
    rule (.all [noneOf .levtype [.AL], has .number, missing .hdate]) [ensemble],
    rule (.all [noneOf .levtype [.AL], has .number, has .hdate]) [reforecast, ensemble],
    rule (.all [noneOf .levtype [.AL], missing .number, missing .hdate, oneOf .type ["em", "es"]])
      [derivedForecast, ensemble],
    rule (.all [matchLevType .AL, has .number, missing .hdate]) [largeEnsemble],
    rule (.all [matchLevType .AL, has .number, has .hdate]) [reforecast, largeEnsemble]]

def packingRules : RuleTree SectionsConf :=
  .exclusiveRuleList "packingRules" [
    rule (oneOf .packing ["simple"]) [dataRepres 0],
    rule (oneOf .packing ["ccsds"]) [dataRepres 42],
    rule (oneOf .packing ["complex"]) [dataRepres 51]]

def singleSatelliteRule : RuleTree SectionsConf :=
  rule (matchParams [paramRange 260510 260512]) [pointInTime, satellite]

def derivedEnsembleForecastSatelliteRule : RuleTree SectionsConf :=
  rule (matchParams [194]) [pointInTime, typeOfLevel .Surface]

def satelliteRules : RuleTree SectionsConf :=
  .exclusiveRuleList "satelliteRules" [
    .chainedRuleList [rule (.all [has .channel, noneOf .type ["em", "es"]]) [],
      singleSatelliteRule],
    .chainedRuleList [rule (.all [has .channel, oneOf .type ["em", "es"]]) [],
      derivedEnsembleForecastSatelliteRule],
    .chainedRuleList [rule (missing .channel) []]]

def paramSFCRules : RuleTree SectionsConf :=
  .exclusiveRuleList "paramSFCRules" [
    rule (matchParams [228023]) [pointInTime, typeOfLevel .CloudBase],
    rule (matchParams [59, 78, 79, 136, 137, 164, 206, paramRange 162059 162063, 162071, 162072,
      162093, 228001, 228044, 228050, 228052, 228088, 228089, 228090, 228164, 260132])
      [pointInTime, typeOfLevel .EntireAtmosphere],
    rule (matchParams [228007, 228011]) [pointInTime, typeOfLevel .EntireLake],
    rule (matchParams [121])
      [timeRange .FixedTimeRange .Maximum, overallLengthOfTimeRange "6h",
        typeOfLevel .HeightAboveGroundAt2m, fixedLevel 2],
    rule (matchParams [122])
      [timeRange .FixedTimeRange .Minimum, overallLengthOfTimeRange "6h",
        typeOfLevel .HeightAboveGroundAt2m, fixedLevel 2],
    rule (matchParams [201, 237167, 237168])
      [timeRange .SinceLastPostProcessingStep .Maximum, typeOfLevel .HeightAboveGroundAt2m,
        fixedLevel 2],
    rule (matchParams [202, 238167, 238168])
      [timeRange .SinceLastPostProcessingStep .Minimum, typeOfLevel .HeightAboveGroundAt2m,
        fixedLevel 2],
    rule (matchParams [228004, 235168])
      [timeRange .SinceLastPostProcessingStep .Average, typeOfLevel .HeightAboveGroundAt2m,
        fixedLevel 2],
    rule (matchParams [239167, 239168])
      [timeRange .SinceLastPostProcessingStep .StandardDeviation,
        typeOfLevel .HeightAboveGroundAt2m, fixedLevel 2],
    rule (matchParams [123])
      [timeRange .FixedTimeRange .Maximum, overallLengthOfTimeRange "6h",
        typeOfLevel .HeightAboveGroundAt10m, fixedLevel 10],
    rule (matchParams [228028])
      [timeRange .FixedTimeRange .Maximum, overallLengthOfTimeRange "3h",
        typeOfLevel .HeightAboveGroundAt10m, fixedLevel 10],
    rule (matchParams [49, 237165, 237166, 237207, 237318])
      [timeRange .SinceLastPostProcessingStep .Maximum, typeOfLevel .HeightAboveGroundAt10m,
        fixedLevel 10],
    rule (matchParams [141233, 141245])
      [timeRange .SinceLastPostProcessingStep .Average, typeOfLevel .HeightAboveSeaAt10m,
        fixedLevel 10],
    rule (matchParams [143233, 143245])
      [timeRange .SinceLastPostProcessingStep .Maximum, typeOfLevel .HeightAboveSeaAt10m,
        fixedLevel 10],
    rule (matchParams [144233, 144245])
      [timeRange .SinceLastPostProcessingStep .Minimum, typeOfLevel .HeightAboveSeaAt10m,
        fixedLevel 10],
    rule (matchParams [145233, 145245])
      [timeRange .SinceLastPostProcessingStep .StandardDeviation,
        typeOfLevel .HeightAboveSeaAt10m, fixedLevel 10],
    rule (matchParams [235087, 235088, 235136, 235137, 235087, 235088, 235137, 235288, 235287,
      235290, 235326, 235383])
      [timeRange .SinceLastPostProcessingStep .Average, typeOfLevel .EntireAtmosphere],
    rule (matchParams [237087, 237088, 237326, 237288, 237290, 237137, 237287])
      [timeRange .SinceLastPostProcessingStep .Maximum, typeOfLevel .EntireAtmosphere],
    rule (matchParams [238087, 238088, 238326, 238288, 238290, 238137, 238287])
      [timeRange .SinceLastPostProcessingStep .Minimum, typeOfLevel .EntireAtmosphere],
    rule (matchParams [239087, 239088, 239326, 239288, 239290, 239137, 239287])
      [timeRange .SinceLastPostProcessingStep .StandardDeviation, typeOfLevel .EntireAtmosphere],
    rule (matchParams [228005, 235165, 235166])
      [timeRange .SinceLastPostProcessingStep .Average, typeOfLevel .HeightAboveGroundAt10m,
        fixedLevel 10],
    rule (matchParams [238165, 238166, 238207])
      [timeRange .SinceLastPostProcessingStep .Minimum, typeOfLevel .HeightAboveGroundAt10m,
        fixedLevel 10],
    rule (matchParams [239165, 239166, 239207])
      [timeRange .SinceLastPostProcessingStep .StandardDeviation,
        typeOfLevel .HeightAboveGroundAt10m, fixedLevel 10],
    rule (matchParams [235151])
      [timeRange .SinceLastPostProcessingStep .Average, typeOfLevel .MeanSea],
    rule (matchParams [237151])
      [timeRange .SinceLastPostProcessingStep .Maximum, typeOfLevel .MeanSea],
    rule (matchParams [238151])
      [timeRange .SinceLastPostProcessingStep .Minimum, typeOfLevel .MeanSea],
    rule (matchParams [239151])
      [timeRange .SinceLastPostProcessingStep .StandardDeviation, typeOfLevel .MeanSea],
    rule (matchParams [235039, 235040, 235049, 235050, 235053])
      [timeRange .SinceLastPostProcessingStep .Average, typeOfLevel .NominalTop],
    rule (matchParams [paramRange 141101 141105, 141208, 141209, 141215, 141216, 141220, 141229,
      141232, 235020, 235021, paramRange 235029 235031, paramRange 235033 235038,
      paramRange 235041 235043, 235048, 235051, 235052, 235055, 235058, paramRange 235078 235080,
      235083, 235084, 235093, 235134, 235159, 235189, 235263, 235283, 235339])
      [timeRange .SinceLastPostProcessingStep .Average, typeOfLevel .Surface],
    rule (matchParams [235108])
      [timeRange .SinceLastPostProcessingStep .Average, typeOfLevel .LowCloudLayer],
    rule (matchParams [237108])
      [timeRange .SinceLastPostProcessingStep .Maximum, typeOfLevel .LowCloudLayer],
    rule (matchParams [238108])
      [timeRange .SinceLastPostProcessingStep .Minimum, typeOfLevel .LowCloudLayer],
    rule (matchParams [239108])
      [timeRange .SinceLastPostProcessingStep .StandardDeviation, typeOfLevel .LowCloudLayer],
    rule (matchParams [235090, 235091])
      [timeRange .SinceLastPostProcessingStep .Average, typeOfLevel .MixingLayer],
    rule (matchParams [237090, 237091])
      [timeRange .SinceLastPostProcessingStep .Maximum, typeOfLevel .MixingLayer],
    rule (matchParams [238090, 238091])
      [timeRange .SinceLastPostProcessingStep .Minimum, typeOfLevel .MixingLayer],
    rule (matchParams [239090, 239091])
      [timeRange .SinceLastPostProcessingStep .StandardDeviation, typeOfLevel .MixingLayer],
    rule (matchParams [235322])
      [timeRange .SinceLastPostProcessingStep .Average, typeOfLevel .Tropopause],
    rule (matchParams [237322])
      [timeRange .SinceLastPostProcessingStep .Maximum, typeOfLevel .Tropopause],
    rule (matchParams [238322])
      [timeRange .SinceLastPostProcessingStep .Minimum, typeOfLevel .Tropopause],
    rule (matchParams [239322])
      [timeRange .SinceLastPostProcessingStep .StandardDeviation, typeOfLevel .Tropopause],
    rule (matchParams [235077, 235094])
      [timeRange .SinceLastPostProcessingStep .Average, typeOfLevel .SoilLayer],
    rule (matchParams [237077, 237094])
      [timeRange .SinceLastPostProcessingStep .Maximum, typeOfLevel .SoilLayer],
    rule (matchParams [238077, 238094])
      [timeRange .SinceLastPostProcessingStep .Minimum, typeOfLevel .SoilLayer],
    rule (matchParams [239077, 239094])
      [timeRange .SinceLastPostProcessingStep .StandardDeviation, typeOfLevel .SoilLayer],
    rule (matchParams [235309])
      [timeRange .SinceLastPostProcessingStep .Average, typeOfLevel .IceLayerOnWater],
    rule (matchParams [237309])
      [timeRange .SinceLastPostProcessingStep .Maximum, typeOfLevel .IceLayerOnWater],
    rule (matchParams [238309])
      [timeRange .SinceLastPostProcessingStep .Minimum, typeOfLevel .IceLayerOnWater],
    rule (matchParams [239309])
      [timeRange .SinceLastPostProcessingStep .StandardDeviation, typeOfLevel .IceLayerOnWater],
    rule (matchParams [263024])
      [timeRange .SinceLastPostProcessingStep .Average, typeOfLevel .SeaIceLayer],
    rule (matchParams [265024])
      [timeRange .SinceLastPostProcessingStep .Maximum, typeOfLevel .SeaIceLayer],
    rule (matchParams [266024])
      [timeRange .SinceLastPostProcessingStep .Minimum, typeOfLevel .SeaIceLayer],
    rule (matchParams [267024])
      [timeRange .SinceLastPostProcessingStep .StandardDeviation, typeOfLevel .SeaIceLayer],
    rule (matchParams [260683])
      [timeRange .SinceLastPostProcessingStep .Mode, typeOfLevel .Surface],
    rule (matchParams [260682])
      [timeRange .SinceLastPostProcessingStep .Severity, typeOfLevel .Surface],
    rule (matchParams [129172]) [pointInTime, typeOfLevel .HeightAboveGround],
    rule (matchParams [165, 166, 207, 228029, 228131, 228132, 260260])
      [pointInTime, typeOfLevel .HeightAboveGroundAt10m, fixedLevel 10],
    rule (matchParams [167, 168, 174096, 228037, 260242])
      [pointInTime, typeOfLevel .HeightAboveGroundAt2m, fixedLevel 2],
    rule (matchParams [140245, 140249, 140233])
      [pointInTime, typeOfLevel .HeightAboveSeaAt10m, fixedLevel 10],
    rule (matchParams [3075]) [pointInTime, typeOfLevel .HighCloudLayer],
    rule (matchParams [3074]) [pointInTime, typeOfLevel .MediumCloudLayer],
    rule (matchParams [3073]) [pointInTime, typeOfLevel .LowCloudLayer],
    rule (matchParams [228014]) [pointInTime, typeOfLevel .IceLayerOnWater],
    rule (matchParams [228013]) [pointInTime, typeOfLevel .IceTopOnWater],
    rule (matchParams [228010]) [pointInTime, typeOfLevel .LakeBottom],
    rule (matchParams [235305])
      [timeRange .SinceLastPostProcessingStep .Average, typeOfLevel .LakeBottom],
    rule (matchParams [237305])
      [timeRange .SinceLastPostProcessingStep .Maximum, typeOfLevel .LakeBottom],
    rule (matchParams [238305])
      [timeRange .SinceLastPostProcessingStep .Minimum, typeOfLevel .LakeBottom],
    rule (matchParams [239305])
      [timeRange .SinceLastPostProcessingStep .StandardDeviation, typeOfLevel .LakeBottom],
    rule (matchParams [151]) [pointInTime, typeOfLevel .MeanSea],
    rule (matchParams [262118]) [pointInTime, typeOfLevel .DepthBelowSeaLayer],
    rule (matchParams [228231, 228232, 228233, 228234])
      [pointInTime, typeOfLevel .MixedLayerParcel],
    rule (matchParams [228008, 228009]) [pointInTime, typeOfLevel .MixingLayer],
    rule (matchParams [228235, 228236, 228237]) [pointInTime, typeOfLevel .MostUnstableParcel],
    rule (matchParams [178, 179, 208, 209, 212])
      [timeRange .SinceLastPostProcessingStep .Accumulation, typeOfLevel .NominalTop],
    rule (matchParams [228045]) [pointInTime, typeOfLevel .Tropopause],
    rule (.all [matchParams [228080, 228081, 228082, paramRange 233032 233035, 235062, 235063,
      235064], matchChemical])
      [timeRange .SinceLastPostProcessingStep .Accumulation, chemical, typeOfLevel .Surface,
        tablesConfig "custom", localTablesVersion 0, tablesVersion 30],
    rule (matchParams [8, 9, 20, 44, 45, 47, 50, 57, 58, paramRange 142 147, 169, 175, 176, 177,
      180, 181, 182, 189, 195, 196, 197, 205, 210, 211, 213, 228, 239, 240, 3062, 3099,
      paramRange 162100 162113, paramRange 222001 222256, 228021, 228022, 228129, 228130, 228143,
      228144, 228216, 228228, 228251, 231001, 231002, 231003, 231005, 231010, 231012, 231057,
      231058, paramRange 233000 233031, 260259])
      [timeRange .SinceLastPostProcessingStep .Accumulation, typeOfLevel .Surface],
    rule (matchParams [228051, 228053])
      [timeRange .FixedTimeRange .Average, overallLengthOfTimeRange "1h", typeOfLevel .Surface],
    rule (matchParams [228057, 228059])
      [timeRange .FixedTimeRange .Average, overallLengthOfTimeRange "3h", typeOfLevel .Surface],
    rule (matchParams [228058, 228060])
      [timeRange .FixedTimeRange .Average, overallLengthOfTimeRange "6h", typeOfLevel .Surface],
    rule (matchParams [228026, 228222])
      [timeRange .FixedTimeRange .Maximum, overallLengthOfTimeRange "3h", typeOfLevel .Surface],
    rule (matchParams [228224, 228035, 228036])
      [timeRange .FixedTimeRange .Maximum, overallLengthOfTimeRange "6h", typeOfLevel .Surface],
    rule (matchParams [228027, 228223])
      [timeRange .FixedTimeRange .Minimum, overallLengthOfTimeRange "3h", typeOfLevel .Surface],
    rule (matchParams [228225])
      [timeRange .FixedTimeRange .Minimum, overallLengthOfTimeRange "6h", typeOfLevel .Surface],
    rule (matchParams [260320])
      [timeRange .FixedTimeRange .Mode, overallLengthOfTimeRange "1h", typeOfLevel .Surface],
    rule (matchParams [260321])
      [timeRange .FixedTimeRange .Mode, overallLengthOfTimeRange "3h", typeOfLevel .Surface],
    rule (matchParams [260339])
      [timeRange .FixedTimeRange .Mode, overallLengthOfTimeRange "6h", typeOfLevel .Surface],
    rule (matchParams [260318])
      [timeRange .FixedTimeRange .Severity, overallLengthOfTimeRange "1h", typeOfLevel .Surface],
    rule (matchParams [260319])
      [timeRange .FixedTimeRange .Severity, overallLengthOfTimeRange "3h", typeOfLevel .Surface],
    rule (matchParams [260338])
      [timeRange .FixedTimeRange .Severity, overallLengthOfTimeRange "6h", typeOfLevel .Surface],
    rule (matchParams [paramRange 15 18, paramRange 26 32, 33, paramRange 34 43, paramRange 66 67,
      74, 129, 134, 139, 141, 148, 159, paramRange 160 163, 170, paramRange 172 174,
      paramRange 186 188, 198, paramRange 229 232, paramRange 234 236, 238, paramRange 243 245,
      3020, 3067, 160198, 200199, 210200, 210201, 210202, 228003, 228012,
      paramRange 210186 210191, 210262, 210263, 210264, paramRange 228015 228020, 228024, 228032,
      paramRange 228046 228048, 228141, paramRange 228217 228221, 260004, 260005, 260015, 260038,
      260048, 260109, 260121, 260123, 260255, 260289, 260292, 260293, 260509, 260688, 261001,
      261002, 261014, 261015, 261016, 261018, 262000, 262100, 262139, 262140, 262144, 262124])
      [pointInTime, typeOfLevel .Surface],
    rule (.all [matchParams [paramRange 228083 228085], matchChemical])
      [pointInTime, chemical, typeOfLevel .Surface],
    rule (matchParams [paramRange 140098 140105, paramRange 140112 140113,
      paramRange 140121 140129, paramRange 140131 140134, paramRange 140207 140209,
      paramRange 140211 140212, paramRange 140214 140232, paramRange 140234 140239, 140244,
      paramRange 140246 140248, paramRange 140252 140254]) [pointInTime, typeOfLevel .Surface],
    rule (matchParams [paramRange 140114 140120])
      [pointInTime, periodRange, typeOfLevel .Surface],
    rule (matchParams [paramRange 143101 143105, 143208, 143209, 143215, 143216, 143220, 143229,
      143232, 228226, 237013, 237041, 237042, 237055, 237078, 237080, 237083, 237084, 237093,
      237117, 237134, 237159, 237263, 237321])
      [timeRange .SinceLastPostProcessingStep .Maximum, typeOfLevel .Surface],
    rule (matchParams [paramRange 144101 144105, 144208, 144209, 144215, 144216, 144220, 144229,
      144232, 228227, 238055, 238013, 238041, 238042, 238078, 238080, 238083, 238084, 238093,
      238134, 238159, 238263])
      [timeRange .SinceLastPostProcessingStep .Minimum, typeOfLevel .Surface],
    rule (matchParams [paramRange 145101 145105, 145208, 145209, 145215, 145216, 145220, 145229,
      145232, 239041, 239042, 239078, 239080, 239083, 239084, 239093, 239134, 239159, 239263])
      [timeRange .SinceLastPostProcessingStep .StandardDeviation, typeOfLevel .Surface],
    rule (matchParams [140251]) [pointInTime, dirFreq],
    rule (matchParams [262104]) [pointInTime, typeOfLevel .Isothermal],
    singleSatelliteRule]

def paramHLRules : RuleTree SectionsConf :=
  .exclusiveRuleList "paramHLRules" [
    rule (matchParams [10, 54, 130, 131, 132, 157, 246, 247, 3031])
      [pointInTime, typeOfLevel .HeightAboveGround],
    rule (matchParams [235097, 235131, 235132])
      [timeRange .SinceLastPostProcessingStep .Average, typeOfLevel .HeightAboveGround],
    rule (matchParams [237097, 237131, 237132])
      [timeRange .SinceLastPostProcessingStep .Maximum, typeOfLevel .HeightAboveGround],
    rule (matchParams [238097, 238131, 238132])
      [timeRange .SinceLastPostProcessingStep .Minimum, typeOfLevel .HeightAboveGround],
    rule (matchParams [239097, 239131, 239132])
      [timeRange .SinceLastPostProcessingStep .StandardDeviation, typeOfLevel .HeightAboveGround]]

def paramMLRules : RuleTree SectionsConf :=
  .exclusiveRuleList "paramMLRules" [
    rule (matchParams [21, 22, 23, 75, 76, 77, paramRange 129 133, 135, 138, 152, 155, 156, 157,
      203, 246, 247, 248, 260290, 260292, 260293]) [pointInTime, typeOfLevel .Hybrid],
    rule (matchParams [paramRange 162100 162113])
      [timeRange .SinceLastPostProcessingStep .Accumulation, typeOfLevel .Hybrid]]

def plLevelRules (mkTail : RuleTree SectionsConf) : RuleTree SectionsConf :=
  .exclusiveRuleList "plLevelRules" [
    .chainedRuleList [rule (levelist .greaterEqual 100) [typeOfLevel .IsobaricInhPa], mkTail],
    .chainedRuleList [rule (levelist .lessThan 100) [typeOfLevel .IsobaricInPa], mkTail]]

/-- What `paramPLRules` passes on as the tail. -/
def paramPLTail : RuleTree SectionsConf :=
  .exclusiveRuleList "paramPLRules" [
    rule (matchParams [1, 2, 10, 60, 75, 76, paramRange 129 135, 138, 152, 155, 157, 203, 246,
      247, 248, 157, 260290]) [pointInTime],
    rule (matchParams [235100, paramRange 235129 235133, 235135, 235138, 235152, 235155, 235157,
      235203, 235246, 263107]) [timeRange .SinceLastPostProcessingStep .Average]]

def paramPLRules : RuleTree SectionsConf := plLevelRules paramPLTail

def paramPTRules : RuleTree SectionsConf :=
  .exclusiveRuleList "paramPTRules" [
    rule (matchParams [53, 54, 60, 131, 132, 133, 138, 155, 203])
      [pointInTime, typeOfLevel .Theta],
    rule (matchParams [235100, 235203])
      [timeRange .SinceLastPostProcessingStep .Average, typeOfLevel .Theta],
    rule (matchParams [237203])
      [timeRange .SinceLastPostProcessingStep .Maximum, typeOfLevel .Theta],
    rule (matchParams [238203])
      [timeRange .SinceLastPostProcessingStep .Minimum, typeOfLevel .Theta],
    rule (matchParams [239203])
      [timeRange .SinceLastPostProcessingStep .StandardDeviation, typeOfLevel .Theta]]

def paramPVRules : RuleTree SectionsConf :=
  .exclusiveRuleList "paramPVRules" [
    rule (matchParams [3, 54, 129, 131, 132, 133, 203])
      [pointInTime, typeOfLevel .PotentialVorticity],
    rule (matchParams [235098, 235269])
      [timeRange .SinceLastPostProcessingStep .Average, typeOfLevel .PotentialVorticity]]

def paramSOLRules : RuleTree SectionsConf :=
  .exclusiveRuleList "paramSOLRules" [
    rule (matchParams [262000, 262024]) [pointInTime, typeOfLevel .SeaIceLayer],
    rule (matchParams [33, 74, 238, 228038, 228141]) [pointInTime, typeOfLevel .SnowLayer],
    rule (matchParams [260360, 260199, 183]) [pointInTime, typeOfLevel .SoilLayer],
    rule (matchParams [235077])
      [timeRange .SinceLastPostProcessingStep .Average, typeOfLevel .SoilLayer],
    rule (matchParams [235078, 235080])
      [timeRange .SinceLastPostProcessingStep .Average, typeOfLevel .SnowLayer],
    rule (matchParams [237080])
      [timeRange .SinceLastPostProcessingStep .Maximum, typeOfLevel .SnowLayer],
    rule (matchParams [238080])
      [timeRange .SinceLastPostProcessingStep .Minimum, typeOfLevel .SnowLayer],
    rule (matchParams [239080])
      [timeRange .SinceLastPostProcessingStep .StandardDeviation, typeOfLevel .SnowLayer]]

def paramAlRules : RuleTree SectionsConf :=
  .exclusiveRuleList "paramALRules" [
    rule (matchParams [paramRange 213101 213160])
      [pointInTime, randomPattern, typeOfLevel .AbstractSingleLevel]]

def horizontalRules : RuleTree SectionsConf :=
  .exclusiveRuleList "horizontalRules" [
    .chainedRuleList [rule (.all [matchLevType .SFC, missing .channel]) [], paramSFCRules],
    rule (.all [matchLevType .SFC, has .channel]) [],
    rule (.all [missing .levtype, has .channel]) [],
    .chainedRuleList [rule (matchLevType .HL) [], paramHLRules],
    .chainedRuleList [rule (matchLevType .ML) [], paramMLRules],
    .chainedRuleList [rule (matchLevType .PL) [], paramPLRules],
    .chainedRuleList [rule (matchLevType .PT) [], paramPTRules],
    .chainedRuleList [rule (matchLevType .PV) [], paramPVRules],
    .chainedRuleList [rule (matchLevType .SOL) [], paramSOLRules],
    .chainedRuleList [rule (matchLevType .AL) [], paramAlRules]]

def allRules : RuleTree SectionsConf :=
  .chainedRuleList [gridRules, localSectionRules, processTypesRules, horizontalRules,
    satelliteRules, packingRules]

end Multio.Mars2Grib.Rules
