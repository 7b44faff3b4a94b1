import Multio.Mars2Mars.RuleApart

namespace Multio.Mars2Mars

open Datamod Lib Mars2Grib Mars2Grib.Matcher

/-- Several setters are combined with `setAll`. -/
def rule (matcher : Matcher) (setters : List DynSetter) : Rule := { matcher, setters }

def setParam (id : ℤ) : DynSetter := .setMarsKey .param ⟨id⟩

def setLevtype (levtype : LevType) : DynSetter := .setMarsKey .levtype levtype

def setLevelist (levelist : ℤ) : DynSetter := .setMarsKey .levelist levelist

def hundred : UInt64 := 0x4059000000000000

def thousand : UInt64 := 0x408F400000000000

def fixParamToSol (id level target : ℤ) : Rule :=
  rule (.all [matchParams [.param id], oneOf .levtype [.SFC]])
    [setLevtype .SOL, setLevelist level, setParam target]

def fixParam35ToSol1 : Rule := fixParamToSol 35 1 262024

def fixParam36ToSol2 : Rule := fixParamToSol 36 2 262024

def fixParam37ToSol3 : Rule := fixParamToSol 37 3 262024

def fixParam38ToSol4 : Rule := fixParamToSol 38 4 262024

def fixParam39ToSol1 : Rule := fixParamToSol 39 1 260199

def fixParam40ToSol2 : Rule := fixParamToSol 40 2 260199

def fixParam41ToSol3 : Rule := fixParamToSol 41 3 260199

def fixParam42ToSol4 : Rule := fixParamToSol 42 4 260199

def fixParam139ToSol1 : Rule := fixParamToSol 139 1 260360

def fixParam170ToSol2 : Rule := fixParamToSol 170 2 260360

def fixParam183ToSol3 : Rule := fixParamToSol 183 3 260360

def fixParam236ToSol4 : Rule := fixParamToSol 236 4 260360

def fixTablesVersionChemAccum : Rule :=
  rule (.all [matchParams [228080, 228081, 228082, 233032, 233033, 233034, 233035, 235062, 235063,
      235064]])
    [.setMiscKey .tablesVersion (30 : ℤ)]

def fixTablesVersionChemInstant : Rule :=
  rule (.all [matchParams [228083, 228084, 228085]]) [.setMiscKey .tablesVersion (30 : ℤ)]

/-- The values of another parameter are those of this one scaled. -/
def fixScaled (id target : ℤ) (factor : UInt64) : Rule :=
  rule (.all [matchParams [.param id]]) [setParam target, .setScaleFactor factor]

def fixCloudParam164 : Rule := fixScaled 164 228164 hundred

def fixCloudParam186 : Rule := fixScaled 186 3073 hundred

def fixCloudParam187 : Rule := fixScaled 187 3074 hundred

def fixCloudParam188 : Rule := fixScaled 188 3075 hundred

def fixConvectivePrecip143 : Rule := fixScaled 143 228143 thousand

def fixTotalPrecip228 : Rule := fixScaled 228 228228 thousand

def fixRunOffWaterParam205 : Rule := fixScaled 205 231002 thousand

def fixSnowfallWaterEquivParam : Rule := fixScaled 144 228144 thousand

def fixSnowCover : Rule := fixScaled 260289 260038 hundred

def fixHeightAboveGround2m : Rule :=
  rule (.all [oneOf .levtype [.SFC], oneOf .levelist [(0 : ℤ)],
      matchParams [167, 168, 174096, 228037]])
    [setLevelist 2]

def fixHeightAboveGround10m : Rule :=
  rule (.all [oneOf .levtype [.SFC], oneOf .levelist [(0 : ℤ)],
      matchParams [228029, 228131, 228132, 165, 166, 207]])
    [setLevelist 10]

def fixHeightAboveSea : Rule :=
  rule (.all [matchParams [140233, 140245, 140249]]) [setLevelist 10]

def fixMapToSol : Rule :=
  rule (.all [oneOf .levtype [.SFC], has .levelist, noneOf .levelist [(0 : ℤ)],
      matchParams [33, 238, 228038, 228141, 235080, 237080, 238080, 239080, 260360, 262000, 262024,
        260199]])
    [setLevtype .SOL]

def fixTimespan (ids : List ParamArg) (target : ℤ) : Rule :=
  rule (.all [matchParams ids]) [setParam target]

def fixTimespanMax2T : Rule := fixTimespan [121, 228026, 201] 237167

def fixTimespanMaxCape : Rule := fixTimespan [228035] 237117

def fixTimespanMaxMuCapes : Rule := fixTimespan [228036] 237321

def fixTimespanMaxPrecipRate : Rule := fixTimespan [228222, 228224, 228226] 237055

def fixTimespanMaxWindGust : Rule := fixTimespan [123, 228028, 49] 237318

def fixTimespanMeanFlashDensity : Rule := fixTimespan [228051, 228057, 228058] 235326

def fixTimespanMin2T : Rule := fixTimespan [122, 228027, 202] 238167

def fixTimespanMinPrecipRate : Rule := fixTimespan [228223, 228225, 228227] 238055

def fixTimespanModePrecip : Rule := fixTimespan [260320, 260321, 260339] 260683

def fixTimespanSeverityPrecip : Rule := fixTimespan [260318, 260319, 260338] 260682

def fixWindspeedAt (id level target : ℤ) : Rule :=
  rule (.all [oneOf .levtype [.SFC], matchParams [.param id]])
    [setLevtype .HL, setLevelist level, setParam target]

def fixWindspeedU100m : Rule := fixWindspeedAt 228246 100 131

def fixWindspeedU200m : Rule := fixWindspeedAt 228239 200 131

def fixWindspeedV100m : Rule := fixWindspeedAt 228247 100 132

def fixWindspeedV200m : Rule := fixWindspeedAt 228240 200 132

-- the levels of these two are as the source has them
def fixWindspeed100m : Rule := fixWindspeedAt 228241 200 10

def fixWindspeed200m : Rule := fixWindspeedAt 228249 100 10

def ruleList (rules : List Rule) : DynRule := .ruleList (rules.map .rule)

def incrementalType4IRules : DynRule :=
  ruleList [rule (matchParams [200130]) [setParam 130], rule (matchParams [200133]) [setParam 133],
    rule (matchParams [200138]) [setParam 138], rule (matchParams [200152]) [setParam 152],
    rule (matchParams [200155]) [setParam 155], rule (matchParams [200203]) [setParam 203]]

def wmoUnitMapping : DynRule :=
  ruleList [fixCloudParam164, fixCloudParam186, fixCloudParam187, fixCloudParam188,
    fixConvectivePrecip143, fixTotalPrecip228, fixRunOffWaterParam205, fixSnowfallWaterEquivParam,
    fixSnowCover]

def fixIFSOutput : DynRule :=
  ruleList [fixTablesVersionChemAccum, fixTablesVersionChemInstant, fixHeightAboveGround2m,
    fixHeightAboveGround10m, fixHeightAboveSea, fixMapToSol, fixWindspeedU100m, fixWindspeedU200m,
    fixWindspeedV100m, fixWindspeedV200m, fixWindspeed100m, fixWindspeed200m]

def mapDeprecatedGrib1ToGrib2 : DynRule :=
  ruleList [fixParam35ToSol1, fixParam36ToSol2, fixParam37ToSol3, fixParam38ToSol4,
    fixParam39ToSol1, fixParam40ToSol2, fixParam41ToSol3, fixParam42ToSol4, fixParam139ToSol1,
    fixParam170ToSol2, fixParam183ToSol3, fixParam236ToSol4, fixTimespanMax2T, fixTimespanMaxCape,
    fixTimespanMaxMuCapes, fixTimespanMaxPrecipRate, fixTimespanMaxWindGust,
    fixTimespanMeanFlashDensity, fixTimespanMin2T, fixTimespanMinPrecipRate, fixTimespanModePrecip,
    fixTimespanSeverityPrecip]

def allRulesNoWMOMapping : DynRule :=
  .ruleList [incrementalType4IRules, fixIFSOutput, mapDeprecatedGrib1ToGrib2]

def allRules : DynRule :=
  .ruleList [wmoUnitMapping, incrementalType4IRules, fixIFSOutput, mapDeprecatedGrib1ToGrib2]

namespace DynRule

/-- The rules are found to be apart, and each to be done after one application. -/
def orderly (t : DynRule) : Bool := Rule.allApart t.leaves && t.leaves.all Rule.settles

variable {t t' : DynRule}

theorem scaleFactors_le_one_of_orderly (h : t.orderly) (hperm : t.Reordered t') :
    ∀ r ∈ t'.leaves, r.scaleFactors.length ≤ 1 := by
  rw [orderly, Bool.and_eq_true, List.all_eq_true] at h
  intro r hr
  have hsettles := h.2 r (hperm.mem_iff.mpr hr)
  rw [Rule.settles, Bool.and_eq_true] at hsettles
  exact of_decide_eq_true hsettles.1

theorem applyMappings_reordered (h : t.orderly) (hperm : t.Reordered t') (vals : Vals) :
    ∃ res vals', applyMappings t vals = (.ok res, vals') ∧
      applyMappings t' vals = (.ok res, vals') := by
  have hpairwise := h
  rw [orderly, Bool.and_eq_true] at hpairwise
  have hapart := Rule.pairwise_of_allApart hpairwise.1
  obtain ⟨⟨res, vals'⟩, hpass⟩ := Rewrite.exists_pass hapart vals
  have hpass' := Rewrite.pass_perm hapart (hperm.map Rule.rewrite) vals
  rw [hpass] at hpass'
  refine ⟨res, vals', ?_, ?_⟩
  · exact passes t (scaleFactors_le_one_of_orderly h (List.Perm.refl _)) vals res vals' hpass
  · exact passes t' (scaleFactors_le_one_of_orderly h hperm) vals res vals' hpass'

theorem applyMappings_again (h : t.orderly) {vals vals' : Vals} {res : Option MappingResult}
    (hres : applyMappings t vals = (.ok res, vals')) :
    ∃ again, applyMappings t vals' = (.ok again, vals') ∧
      ∀ r ∈ again, r.valuesScaleFactor = none := by
  have hpairwise := h
  rw [orderly, Bool.and_eq_true, List.all_eq_true] at hpairwise
  have hapart := Rule.pairwise_of_allApart hpairwise.1
  have hpasses := passes t (scaleFactors_le_one_of_orderly h (List.Perm.refl _))
  obtain ⟨⟨res₁, vals₁⟩, hpass⟩ := Rewrite.exists_pass hapart vals
  have heq := hpasses vals res₁ vals₁ hpass
  rw [applyMappings] at hres
  rw [hres, Prod.mk.injEq] at heq
  obtain ⟨-, rfl⟩ := heq
  obtain ⟨again, hagain, hneutral⟩ := Rewrite.pass_pass hapart
    (List.forall_mem_map.mpr fun r hr => Rule.rewrite_settles (hpairwise.2 r hr)) hpass
  exact ⟨again, hpasses vals' again vals' hagain, hneutral⟩

end DynRule

theorem allRules_orderly : allRules.orderly := by decide +kernel

/-- The mapping does not depend on the order of the rules, and it is done after one application:
a second one leaves the records and returns no scale factor. -/
theorem mapping_order_free_idempotent (vals : Vals) (rules : DynRule)
    (hperm : allRules.Reordered rules) :
    ∃ res vals', applyMappings allRules vals = (.ok res, vals') ∧
      applyMappings rules vals = (.ok res, vals') ∧
      ∃ again, applyMappings allRules vals' = (.ok again, vals') ∧
        ∀ r ∈ again, r.valuesScaleFactor = none := by
  obtain ⟨res, vals', hall, hrules⟩ :=
    DynRule.applyMappings_reordered allRules_orderly hperm vals
  exact ⟨res, vals', hall, hrules, DynRule.applyMappings_again allRules_orderly hall⟩

def totalPrecipitation : Vals where
  marsVals
    | .param => .value ⟨228⟩
    | _ => .unset
  miscVals _ := .unset

example : (applyMappings allRules totalPrecipitation).1.toOption =
    some (some { valuesScaleFactor := some thousand }) := by decide +kernel

def allRulesReversed : DynRule :=
  .ruleList [mapDeprecatedGrib1ToGrib2, fixIFSOutput, incrementalType4IRules, wmoUnitMapping]

theorem allRules_reordered_reversed : allRules.Reordered allRulesReversed :=
  (List.reverse_perm [mapDeprecatedGrib1ToGrib2, fixIFSOutput, incrementalType4IRules,
    wmoUnitMapping]).flatMap_right DynRule.leaves

theorem mapping_order_free_idempotent_two :
    allRules.Reordered allRulesReversed ∧
      ∃ res vals', applyMappings allRules totalPrecipitation = (.ok res, vals') ∧
        applyMappings allRulesReversed totalPrecipitation = (.ok res, vals') ∧
        ∃ again, applyMappings allRules vals' = (.ok again, vals') ∧
          ∀ r ∈ again, r.valuesScaleFactor = none :=
  ⟨allRules_reordered_reversed,
    mapping_order_free_idempotent totalPrecipitation allRulesReversed allRules_reordered_reversed⟩

end Multio.Mars2Mars
