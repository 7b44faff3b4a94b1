import Multio.Mars2Grib.Level

namespace Multio.Mars2Grib

open Datamod

def heightTypes : List TypeOfLevel :=
  [.HeightAboveSea, .HeightAboveSeaAt10m, .HeightAboveGroundAt2m, .HeightAboveGroundAt10m,
    .HeightAboveGround]

def surfaceTypes : List TypeOfLevel :=
  [.Snow, .IsobaricInPa, .PotentialVorticity, .Theta, .Hybrid]

def layerTypes : List TypeOfLevel := [.SnowLayer, .SoilLayer, .SeaIceLayer]

/-- The types that take their level from the configuration or from the record. -/
def levelTypes : List TypeOfLevel := heightTypes ++ surfaceTypes ++ layerTypes ++ [.IsobaricInhPa]

def valueOfLevel (type : TypeOfLevel) (level : ℤ) : ℤ :=
  if type = .IsobaricInhPa then 100 * level else level

/-- The surface that a level stands for: the second one of a layer. -/
def HorizontalGribKeys.surfaceValue (type : TypeOfLevel) (horiz : HorizontalGribKeys) : Option ℤ :=
  if type ∈ layerTypes then horiz.scaledValueOfSecondFixedSurface.visit
  else horiz.scaledValueOfFirstFixedSurface.visit

/-- Both functions throw, or the level that is set is the one that is expected, if any is. -/
def LevelAgrees (type : TypeOfLevel) (conf : LevelConfigurator) (mars : FullMarsRecord) : Prop :=
  (levelForTypeOfLevel conf mars).toOption.map (Option.map (valueOfLevel type)) =
    (horizontalForTypeOfLevel conf mars).toOption.map (HorizontalGribKeys.surfaceValue type)

instance (type : TypeOfLevel) (conf : LevelConfigurator) (mars : FullMarsRecord) :
    Decidable (LevelAgrees type conf mars) :=
  inferInstanceAs (Decidable (_ = _))

/-- A fixed level is the one of the record where that is looked at too, and a pressure in hPa
is a whole number of them. -/
def LevelConsistent (type : TypeOfLevel) (conf : LevelConfigurator) (mars : FullMarsRecord) :
    Prop :=
  if type ∈ heightTypes then
    ∀ fixed ∈ conf.fixedLevel.visit, isSFC mars → (mars .levelist).visit = some fixed
  else if type ∈ surfaceTypes then
    ∀ fixed ∈ conf.fixedLevel.visit, (mars .levelist).visit = some fixed
  else if type = .IsobaricInhPa then
    (∀ fixed ∈ conf.fixedLevel.visit,
      (mars .levelist).visit.map (fun level => 100 * level.tdiv 100) = some fixed) ∧
    (conf.fixedLevel.visit = none → ∀ level ∈ (mars .levelist).visit, 100 ∣ level)
  else True

variable {type : TypeOfLevel} {conf : LevelConfigurator} {mars : FullMarsRecord}

theorem toOption_getLevelist (conf : LevelConfigurator) (mars : FullMarsRecord)
    (extracted : String) : (getLevelist extracted conf mars).toOption = (mars .levelist).visit := by
  unfold getLevelist
  cases (mars .levelist).visit <;> rfl

theorem level_height (htype : conf.type.visit = some type) (h : type ∈ heightTypes) :
    (levelForTypeOfLevel conf mars).toOption =
      conf.fixedLevel.visit.elim
        (if isSFC mars then (mars .levelist).visit.map some else some none)
        fun level => some (some level) := by
  rw [← toOption_getLevelist conf mars "level"]
  simp only [heightTypes, List.mem_cons, List.not_mem_nil, or_false] at h
  rcases h with rfl | rfl | rfl | rfl | rfl <;>
    simp only [levelForTypeOfLevel, LevelConfigurator.getType, htype, Exception.ok_bind] <;>
    cases conf.fixedLevel.visit <;> cases isSFC mars <;>
    cases getLevelist "level" conf mars <;> rfl

theorem level_levelist (htype : conf.type.visit = some type)
    (h : type ∈ surfaceTypes ++ layerTypes) :
    (levelForTypeOfLevel conf mars).toOption = (mars .levelist).visit.map some := by
  rw [← toOption_getLevelist conf mars "level"]
  simp only [surfaceTypes, layerTypes, List.mem_append, List.mem_cons, List.not_mem_nil,
    or_false] at h
  rcases h with (rfl | rfl | rfl | rfl | rfl) | rfl | rfl | rfl <;>
    simp only [levelForTypeOfLevel, LevelConfigurator.getType, htype, Exception.ok_bind] <;>
    cases getLevelist "level" conf mars <;> rfl

theorem level_isobaricInhPa (htype : conf.type.visit = some .IsobaricInhPa) :
    (levelForTypeOfLevel conf mars).toOption =
      (mars .levelist).visit.map fun level => some (level.tdiv 100) := by
  rw [← toOption_getLevelist conf mars "level"]
  simp only [levelForTypeOfLevel, LevelConfigurator.getType, htype, Exception.ok_bind]
  cases getLevelist "level" conf mars <;> rfl

theorem surface_handleHeightAbove (h : type ∉ layerTypes) (typeOfSurface : ℤ) :
    (handleHeightAbove conf mars typeOfSurface).toOption.map
        (HorizontalGribKeys.surfaceValue type) =
      if isSFC mars then (mars .levelist).visit.map some else some conf.fixedLevel.visit := by
  rw [← toOption_getLevelist conf mars "horizontal keys"]
  unfold handleHeightAbove HorizontalGribKeys.surfaceValue
  simp only [if_neg h]
  cases conf.fixedLevel.visit <;> cases isSFC mars <;>
    cases getLevelist "horizontal keys" conf mars <;> rfl

theorem surface_handle1SurfaceWithLevel (h : type ∉ layerTypes) (typeOfSurface : ℤ)
    (pressureUnits : Option String) :
    (handle1SurfaceWithLevel conf mars typeOfSurface pressureUnits).toOption.map
        (HorizontalGribKeys.surfaceValue type) =
      (conf.fixedLevel.visit.or (mars .levelist).visit).map some := by
  rw [← toOption_getLevelist conf mars "horizontal keys"]
  unfold handle1SurfaceWithLevel HorizontalGribKeys.surfaceValue
  simp only [if_neg h]
  cases conf.fixedLevel.visit <;> cases getLevelist "horizontal keys" conf mars <;> rfl

theorem surface_handle2SurfaceLayerWithlevel (h : type ∈ layerTypes) (typeOfSurface : ℤ) :
    (handle2SurfaceLayerWithlevel conf mars typeOfSurface).toOption.map
        (HorizontalGribKeys.surfaceValue type) = (mars .levelist).visit.map some := by
  rw [← toOption_getLevelist conf mars "horizontal keys"]
  unfold handle2SurfaceLayerWithlevel HorizontalGribKeys.surfaceValue
  simp only [if_pos h]
  cases getLevelist "horizontal keys" conf mars <;> rfl

theorem not_mem_layerTypes (h : type ∈ heightTypes ++ .IsobaricInhPa :: surfaceTypes) :
    type ∉ layerTypes := by
  revert h
  cases type <;> decide

theorem map_valueOfLevel (h : type ∈ heightTypes ++ surfaceTypes ++ layerTypes)
    (level : Option (Option ℤ)) : level.map (Option.map (valueOfLevel type)) = level := by
  have hne : type ≠ .IsobaricInhPa := by
    rintro rfl
    exact absurd h (by decide)
  have hid : valueOfLevel type = id := funext fun _ => if_neg hne
  rw [hid, Option.map_id_fun, Option.map_id_fun, id]

theorem levelAgrees_height (htype : conf.type.visit = some type) (h : type ∈ heightTypes) :
    LevelAgrees type conf mars ↔ LevelConsistent type conf mars := by
  have hsurface : (horizontalForTypeOfLevel conf mars).toOption.map
      (HorizontalGribKeys.surfaceValue type) =
        if isSFC mars then (mars .levelist).visit.map some else some conf.fixedLevel.visit := by
    have hlayer := not_mem_layerTypes (List.mem_append_left _ h)
    simp only [heightTypes, List.mem_cons, List.not_mem_nil, or_false] at h
    rcases h with rfl | rfl | rfl | rfl | rfl <;>
      rw [horizontalForTypeOfLevel, LevelConfigurator.getType, htype, Exception.ok_bind] <;>
      exact surface_handleHeightAbove hlayer _
  rw [LevelConsistent, if_pos h, LevelAgrees, level_height htype h, hsurface,
    map_valueOfLevel (by simp [h])]
  -- a surface field that has no level is not given one by the check
  cases conf.fixedLevel.visit <;> cases isSFC mars <;> cases (mars .levelist).visit <;>
    simp [eq_comm]

theorem surface_single (htype : conf.type.visit = some type)
    (h : type ∈ .IsobaricInhPa :: surfaceTypes) :
    (horizontalForTypeOfLevel conf mars).toOption.map (HorizontalGribKeys.surfaceValue type) =
      (conf.fixedLevel.visit.or (mars .levelist).visit).map some := by
  have hlayer := not_mem_layerTypes (List.mem_append_right _ h)
  simp only [surfaceTypes, List.mem_cons, List.not_mem_nil, or_false] at h
  rcases h with rfl | rfl | rfl | rfl | rfl | rfl <;>
    rw [horizontalForTypeOfLevel, LevelConfigurator.getType, htype, Exception.ok_bind] <;>
    exact surface_handle1SurfaceWithLevel hlayer _ _

theorem levelAgrees_surface (htype : conf.type.visit = some type) (h : type ∈ surfaceTypes) :
    LevelAgrees type conf mars ↔ LevelConsistent type conf mars := by
  have hheight : type ∉ heightTypes := by
    revert h
    cases type <;> decide
  rw [LevelConsistent, if_neg hheight, if_pos h, LevelAgrees,
    level_levelist htype (List.mem_append_left _ h), surface_single htype (.tail _ h),
    map_valueOfLevel (by simp [h])]
  -- the level of the record is set, the fixed one is expected
  cases conf.fixedLevel.visit <;> cases (mars .levelist).visit <;> simp [eq_comm]

theorem levelAgrees_layer (htype : conf.type.visit = some type) (h : type ∈ layerTypes) :
    LevelAgrees type conf mars := by
  have hsurface : (horizontalForTypeOfLevel conf mars).toOption.map
      (HorizontalGribKeys.surfaceValue type) = (mars .levelist).visit.map some := by
    have hlayer := h
    simp only [layerTypes, List.mem_cons, List.not_mem_nil, or_false] at h
    rcases h with rfl | rfl | rfl <;>
      rw [horizontalForTypeOfLevel, LevelConfigurator.getType, htype, Exception.ok_bind] <;>
      exact surface_handle2SurfaceLayerWithlevel hlayer _
  rw [LevelAgrees, level_levelist htype (List.mem_append_right _ h), hsurface,
    map_valueOfLevel (by simp [h])]

theorem levelAgrees_isobaricInhPa (htype : conf.type.visit = some .IsobaricInhPa) :
    LevelAgrees .IsobaricInhPa conf mars ↔ LevelConsistent .IsobaricInhPa conf mars := by
  have hwhole (level : ℤ) : 100 * level.tdiv 100 = level ↔ 100 ∣ level :=
    ⟨fun h => ⟨_, h.symm⟩, Int.mul_tdiv_cancel'⟩
  rw [LevelConsistent, if_neg (by decide), if_neg (by decide), if_pos rfl, LevelAgrees,
    level_isobaricInhPa htype, surface_single htype List.mem_cons_self]
  cases conf.fixedLevel.visit <;> cases (mars .levelist).visit <;>
    simp [valueOfLevel, hwhole]

theorem levelAgrees_iff (htype : conf.type.visit = some type) (h : type ∈ levelTypes) :
    LevelAgrees type conf mars ↔ LevelConsistent type conf mars := by
  simp only [levelTypes, List.mem_append, List.mem_singleton] at h
  rcases h with ((hheight | hsurface) | hlayer) | rfl
  · exact levelAgrees_height htype hheight
  · exact levelAgrees_surface htype hsurface
  · refine iff_of_true (levelAgrees_layer htype hlayer) ?_
    simp only [layerTypes, List.mem_cons, List.not_mem_nil, or_false] at hlayer
    rcases hlayer with rfl | rfl | rfl <;> simp [LevelConsistent, heightTypes, surfaceTypes]
  · exact levelAgrees_isobaricInhPa htype

/-- Where the level that is set and the surface that is checked for agree, and which setters
are checked. -/
theorem levelCheck_iff {Handle Keys ε : Type} (type : TypeOfLevel) (conf : LevelConfigurator)
    (mars : FullMarsRecord) (htype : conf.type.visit = some type) (hlevel : type ∈ levelTypes)
    (sections : List (DynSectionSetter Handle Keys ε)) (h : Handle) (keys : Keys)
    (hok : ((SectionCollector.ofSections sections).check keys h).2 = .ok ()) :
    (LevelAgrees type conf mars ↔ LevelConsistent type conf mars) ∧
      (((SectionCollector.ofSections sections).check keys h).1 =
          (SectionCollector.ofSections sections).check_ ↔
        ∀ s ∈ sections, s.sectionInfo.registerRuntime = s.sectionInfo.registerCheck) :=
  ⟨levelAgrees_iff htype hlevel, SectionCollector.check_calls_iff hok⟩

def checkOnly : DynSectionSetter Unit Unit Unit where
  sectionInfo := {
    registerPrepare := false
    registerAllocate := false
    registerPreset := true
    registerRuntime := false
    registerCheck := true }

def levelField (levtype : LevType) (levelist : Entry ℤ) : FullMarsRecord
  | .levtype => .value levtype
  | .levelist => levelist
  | _ => .unset

def checkedSetter : DynSectionSetter Unit Unit Unit where
  sectionInfo := {
    registerPrepare := false
    registerAllocate := false
    registerPreset := false
    registerRuntime := true
    registerCheck := true }

def presetOnly : DynSectionSetter Unit Unit Unit where
  sectionInfo := {
    registerPrepare := false
    registerAllocate := false
    registerPreset := true
    registerRuntime := false
    registerCheck := false }

theorem levelCheck_500hPa :
    LevelAgrees .IsobaricInhPa { type := .value .IsobaricInhPa } (levelField .PL (.value 50000)) ∧
      ((SectionCollector.ofSections [checkedSetter, presetOnly]).check () ()).1 =
          (SectionCollector.ofSections [checkedSetter, presetOnly]).check_ ∧
      (SectionCollector.ofSections [checkedSetter, presetOnly]).check_ = [checkedSetter] := by
  have hok : ((SectionCollector.ofSections [checkedSetter, presetOnly]).check () ()).2 = .ok () :=
    rfl
  obtain ⟨hlevel, hcheck⟩ := levelCheck_iff .IsobaricInhPa { type := .value .IsobaricInhPa }
    (levelField .PL (.value 50000)) rfl (by decide) [checkedSetter, presetOnly] () () hok
  refine ⟨hlevel.mpr ?_, hcheck.mpr ?_, rfl⟩
  · simp [LevelConsistent, heightTypes, surfaceTypes, levelField, Entry.visit]
  · simp [checkedSetter, presetOnly]

/-- Wind at 10 m without a level: 10 is set, and the check throws. And a setter that is
registered for its check alone is not checked. -/
theorem levelCheck_differs :
    let conf : LevelConfigurator :=
      { type := .value .HeightAboveGroundAt10m, fixedLevel := .value 10 }
    let mars := levelField .SFC .unset
    (levelForTypeOfLevel conf mars).toOption = some (some 10) ∧
      (horizontalForTypeOfLevel conf mars).toOption = none ∧
      ¬ LevelAgrees .HeightAboveGroundAt10m conf mars ∧
      ((SectionCollector.ofSections [checkOnly]).check () ()).1 = [] ∧
      (SectionCollector.ofSections [checkOnly]).check_ = [checkOnly] :=
  ⟨by decide, by decide, by decide, rfl, rfl⟩

end Multio.Mars2Grib
