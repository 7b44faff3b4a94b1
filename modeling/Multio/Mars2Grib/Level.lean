import Multio.Datamod.MarsMiscGeo
import Multio.Mars2Grib.EncoderConf
import Multio.Mars2Grib.SectionSetter

namespace Multio.Mars2Grib

open Datamod

/-- Horizontal keys: all of them are optional, without a default. -/
structure HorizontalGribKeys where
  pressureUnits : Entry String := .unset
  typeOfFirstFixedSurface : Entry ℤ := .unset
  typeOfSecondFixedSurface : Entry ℤ := .unset
  scaledValueOfFirstFixedSurface : Entry ℤ := .unset
  scaledValueOfSecondFixedSurface : Entry ℤ := .unset
  scaleFactorOfFirstFixedSurface : Entry ℤ := .unset
  scaleFactorOfSecondFixedSurface : Entry ℤ := .unset
  deriving DecidableEq

def HorizontalGribKeys.equalTo (lhs rhs : HorizontalGribKeys) : Bool :=
  lhs.pressureUnits.visit = rhs.pressureUnits.visit ∧
    lhs.typeOfFirstFixedSurface.visit = rhs.typeOfFirstFixedSurface.visit ∧
    lhs.typeOfSecondFixedSurface.visit = rhs.typeOfSecondFixedSurface.visit ∧
    lhs.scaledValueOfFirstFixedSurface.visit = rhs.scaledValueOfFirstFixedSurface.visit ∧
    lhs.scaledValueOfSecondFixedSurface.visit = rhs.scaledValueOfSecondFixedSurface.visit ∧
    lhs.scaleFactorOfFirstFixedSurface.visit = rhs.scaleFactorOfFirstFixedSurface.visit ∧
    lhs.scaleFactorOfSecondFixedSurface.visit = rhs.scaleFactorOfSecondFixedSurface.visit

structure VerticalGribKeys where
  pvPresent : Entry Bool := .unset
  pv : Entry (List UInt64) := .unset
  deriving DecidableEq

inductive LevelException
  | dataModelling (what : String)
  | assertionFailed (what : String)
  | levelistMissing (extracted : String) (type : Entry TypeOfLevel) (mars : FullMarsRecord)
  | pvMissing (type : Entry TypeOfLevel) (mars : FullMarsRecord)
  | keysDiffer (conf : LevelConfigurator) (inferred read : HorizontalGribKeys)
      (mars : FullMarsRecord)

abbrev LevelResult (α : Type) : Type := Except LevelException α

/-- `type.get()`. -/
def LevelConfigurator.getType (levelConf : LevelConfigurator) : LevelResult TypeOfLevel :=
  match levelConf.type.visit with
  | some type => .ok type
  | none => .error (.dataModelling ("Unchecked call to `BaseEntry::get()` (missing value). " ++
      "Seems like an unvalidated object has been accessed?"))

/-- `levelist.get()` after the check that it is set. -/
def getLevelist (extracted : String) (levelConf : LevelConfigurator) (mars : FullMarsRecord) :
    LevelResult ℤ :=
  match (mars .levelist).visit with
  | some level => .ok level
  | none => .error (.levelistMissing extracted levelConf.type mars)

def isSFC (mars : FullMarsRecord) : Bool := (mars .levtype).visit = some .SFC

def levelForTypeOfLevel (levelConf : LevelConfigurator) (mars : FullMarsRecord) :
    LevelResult (Option ℤ) := do
  let levelist := getLevelist "level" levelConf mars
  match ← levelConf.getType with
  | .HeightAboveSea | .HeightAboveSeaAt10m | .HeightAboveGroundAt2m | .HeightAboveGroundAt10m
  | .HeightAboveGround =>
    match levelConf.fixedLevel.visit with
    | some level => return some level
    | none => if isSFC mars then return some (← levelist) else return none
  | .Snow | .SnowLayer | .SoilLayer | .SeaIceLayer | .IsobaricInPa | .PotentialVorticity | .Theta
  | .Hybrid => return some (← levelist)
  | .IsobaricInhPa => return some ((← levelist).tdiv 100)
  | _ => return none

section

variable (levelConf : LevelConfigurator) (mars : FullMarsRecord)

def handleHeightAbove (typeOfFirstFixedSurface : ℤ) : LevelResult HorizontalGribKeys := do
  let ret : HorizontalGribKeys :=
    { typeOfFirstFixedSurface := .value typeOfFirstFixedSurface
      typeOfSecondFixedSurface := .value 255 }
  let ret := match levelConf.fixedLevel.visit with
    | some level => { ret with
        scaledValueOfFirstFixedSurface := .value level
        scaleFactorOfFirstFixedSurface := .value 0 }
    | none => ret
  -- whether the level is fixed or not, a surface field has its own
  if isSFC mars then
    let level ← getLevelist "horizontal keys" levelConf mars
    return { ret with
      scaledValueOfFirstFixedSurface := .value level
      scaleFactorOfFirstFixedSurface := .value 0 }
  else return ret

def handle2SurfacesWithoutLevel (typeOfFirstFixedSurface typeOfSecondFixedSurface : ℤ) :
    HorizontalGribKeys where
  typeOfFirstFixedSurface := .value typeOfFirstFixedSurface
  typeOfSecondFixedSurface := .value typeOfSecondFixedSurface

def handle1SurfaceWithoutLevel (typeOfFirstFixedSurface : ℤ) : HorizontalGribKeys :=
  handle2SurfacesWithoutLevel typeOfFirstFixedSurface 255

def handle1SurfaceWithLevel (typeOfFirstFixedSurface : ℤ) (pressureUnits : Option String) :
    LevelResult HorizontalGribKeys := do
  let level ← match levelConf.fixedLevel.visit with
    | some level => .ok level
    | none => getLevelist "horizontal keys" levelConf mars
  return {
    pressureUnits := match pressureUnits with
      | some units => .value units
      | none => .unset
    typeOfFirstFixedSurface := .value typeOfFirstFixedSurface
    typeOfSecondFixedSurface := .value 255
    scaledValueOfFirstFixedSurface := .value level
    scaleFactorOfFirstFixedSurface := .value 0 }

def handle2SurfaceLayerWithlevel (typeOfSurface : ℤ) : LevelResult HorizontalGribKeys := do
  let level ← getLevelist "horizontal keys" levelConf mars
  return {
    typeOfFirstFixedSurface := .value typeOfSurface
    typeOfSecondFixedSurface := .value typeOfSurface
    scaledValueOfFirstFixedSurface := .value (level - 1)
    scaleFactorOfFirstFixedSurface := .value 0
    scaledValueOfSecondFixedSurface := .value level
    scaleFactorOfSecondFixedSurface := .value 0 }

def horizontalForTypeOfLevel : LevelResult HorizontalGribKeys := do
  match ← levelConf.getType with
  | .HeightAboveSea | .HeightAboveSeaAt10m => handleHeightAbove levelConf mars 102
  | .HeightAboveGroundAt2m | .HeightAboveGroundAt10m | .HeightAboveGround =>
    handleHeightAbove levelConf mars 103
  | .EntireLake => return handle2SurfacesWithoutLevel 1 162
  | .EntireAtmosphere => return handle2SurfacesWithoutLevel 1 8
  | .DepthBelowSeaLayer => return handle2SurfacesWithoutLevel 160 160
  | .IceLayerOnWater => return handle2SurfacesWithoutLevel 174 176
  | .Surface => return handle1SurfaceWithoutLevel 1
  | .IceTopOnWater => return handle1SurfaceWithoutLevel 174
  | .CloudBase => return handle1SurfaceWithoutLevel 2
  | .AbstractMultipleLevels | .AbstractSingleLevel => return handle1SurfaceWithoutLevel 191
  | .Isothermal => return handle1SurfaceWithoutLevel 20
  | .LakeBottom => return handle1SurfaceWithoutLevel 162
  | .MeanSea => return handle1SurfaceWithoutLevel 101
  | .MixedLayerParcel => return handle1SurfaceWithoutLevel 18
  | .MostUnstableParcel => return handle1SurfaceWithoutLevel 17
  | .MixingLayer => return handle1SurfaceWithoutLevel 166
  | .NominalTop => return handle1SurfaceWithoutLevel 8
  | .Tropopause => return handle1SurfaceWithoutLevel 7
  | .Hybrid => handle1SurfaceWithLevel levelConf mars 105 (some "hPa")
  | .PotentialVorticity => handle1SurfaceWithLevel levelConf mars 109 none
  | .Theta => handle1SurfaceWithLevel levelConf mars 107 none
  | .Snow => handle1SurfaceWithLevel levelConf mars 114 none
  | .IsobaricInPa => handle1SurfaceWithLevel levelConf mars 100 (some "pa")
  | .IsobaricInhPa => handle1SurfaceWithLevel levelConf mars 100 (some "hPa")
  | .HighCloudLayer => return {
      typeOfFirstFixedSurface := .value 100
      typeOfSecondFixedSurface := .value 8
      scaledValueOfFirstFixedSurface := .value 45000
      scaleFactorOfFirstFixedSurface := .value 0 }
  | .MediumCloudLayer => return {
      typeOfFirstFixedSurface := .value 100
      typeOfSecondFixedSurface := .value 100
      scaledValueOfFirstFixedSurface := .value 80000
      scaleFactorOfFirstFixedSurface := .value 0
      scaledValueOfSecondFixedSurface := .value 45000
      scaleFactorOfSecondFixedSurface := .value 0 }
  | .LowCloudLayer => return {
      typeOfFirstFixedSurface := .value 1
      typeOfSecondFixedSurface := .value 100
      scaledValueOfSecondFixedSurface := .value 80000
      scaleFactorOfSecondFixedSurface := .value 0 }
  | .SeaIceLayer => handle2SurfaceLayerWithlevel levelConf mars 152
  | .SnowLayer => handle2SurfaceLayerWithlevel levelConf mars 114
  | .SoilLayer => handle2SurfaceLayerWithlevel levelConf mars 151
  | _ => return {}

def verticalForTypeOfLevel (misc : MiscRecord) : LevelResult (Option VerticalGribKeys) := do
  match ← levelConf.getType with
  | .Hybrid | .Snow =>
    if (mars .levtype).visit = some .ML then
      if ¬ (misc .pv).holdsReference then .error (.assertionFailed "misc.pv.holdsReference()")
      match (misc .pv).visit with
      | none => .error (.pvMissing levelConf.type mars)
      | some pv => return some { pvPresent := .value true, pv := .ref pv }
    else return none
  | _ => return none

end

structure CodesHandle (Handle : Type) where
  setVertical : VerticalGribKeys → Handle → Handle
  setTypeOfLevel : TypeOfLevel → Handle → Handle
  setLevel : ℤ → Handle → Handle
  horizontal : Handle → HorizontalGribKeys

namespace LevelSetter

variable {Handle : Type} (codes : CodesHandle Handle) (conf : LevelConfigurator)

def sectionInfo : SectionInfo where
  registerPrepare := false
  registerAllocate := true
  registerPreset := true
  registerRuntime := true
  registerCheck := true

def allocate (h : Handle) (keys : FullMarsRecord × MiscRecord) : LevelResult Handle := do
  match ← verticalForTypeOfLevel conf keys.1 keys.2 with
  | some vert => return codes.setVertical vert h
  | none => return h

def setLevels (h : Handle) (keys : FullMarsRecord × MiscRecord) : LevelResult Handle := do
  let optLevel ← levelForTypeOfLevel conf keys.1
  let h := match conf.type.visit with
    | some type => codes.setTypeOfLevel type h
    | none => h
  match optLevel with
  | some level => return codes.setLevel level h
  | none => return h

def check (h : Handle) (keys : FullMarsRecord × MiscRecord) : LevelResult Unit := do
  let inferedHoriz ← horizontalForTypeOfLevel conf keys.1
  let horiz := codes.horizontal h
  if inferedHoriz.equalTo horiz then return ()
  else .error (.keysDiffer conf inferedHoriz horiz keys.1)

end LevelSetter

def levelSetter {Handle : Type} (codes : CodesHandle Handle) (conf : LevelConfigurator) :
    DynSectionSetter Handle (FullMarsRecord × MiscRecord) LevelException where
  sectionInfo := LevelSetter.sectionInfo
  allocate := LevelSetter.allocate codes conf
  preset := LevelSetter.setLevels codes conf
  runtime := LevelSetter.setLevels codes conf
  check := LevelSetter.check codes conf

end Multio.Mars2Grib
