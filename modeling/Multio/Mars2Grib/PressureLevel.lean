import Multio.Mars2Grib.EncoderCache
import Multio.Mars2Grib.LevelCheck
import Multio.Mars2Grib.RuleCoverage
import Multio.Mars2Grib.RuleSelection

namespace Multio.Mars2Grib.Rules

open Datamod Lib RuleTree

def levelOf (c : SectionsConf) : Option LevelConfigurator :=
  c.product.visit.bind fun p => p.level.visit

def KeepsLevel (setter : Setter) : Prop := ∀ c, levelOf (setter c) = levelOf c

theorem keepsLevel_onProduct {change : ProductSection → ProductSection}
    (h : ∀ p, (change p).level = p.level) : KeepsLevel (onProduct change) := by
  intro c
  unfold levelOf onProduct
  dsimp only
  rw [Entry.visit_modify, Entry.visit_ensureInit]
  cases c.product.visit with
  | none =>
    rw [Option.map_some, Option.bind_some, h]
    rfl
  | some p =>
    rw [Option.map_some, Option.bind_some, h]
    rfl

theorem keepsLevel_onPdtCat (change : PDTCat → PDTCat) : KeepsLevel (onPdtCat change) :=
  keepsLevel_onProduct fun _ => rfl

theorem keepsLevel_onTimeRange (change : TimeRangeConfigurator → TimeRangeConfigurator) :
    KeepsLevel (onTimeRange change) :=
  keepsLevel_onProduct fun _ => rfl

theorem KeepsLevel.comp {f g : Setter} (hf : KeepsLevel f) (hg : KeepsLevel g) :
    KeepsLevel fun c => f (g c) := fun c => (hf (g c)).trans (hg c)

@[simp] theorem keepsLevel_pointInTime : KeepsLevel pointInTime := by
  apply KeepsLevel.comp (keepsLevel_onProduct _) (keepsLevel_onPdtCat _)
  exact fun _ => rfl

@[simp] theorem keepsLevel_timeRange (type : TimeRangeType)
    (typeOfStatisticalProcessing : TypeOfStatisticalProcessing) :
    KeepsLevel (timeRange type typeOfStatisticalProcessing) :=
  (keepsLevel_onTimeRange _).comp ((keepsLevel_onTimeRange _).comp (keepsLevel_onPdtCat _))

theorem keepsLevel_onProcess (change : PDTCat → PDTCat) : KeepsLevel (onProcess change) := by
  apply KeepsLevel.comp (keepsLevel_onProduct _) (keepsLevel_onPdtCat _)
  exact fun _ => rfl

@[simp] theorem keepsLevel_ensemble : KeepsLevel ensemble := keepsLevel_onProcess _

@[simp] theorem keepsLevel_largeEnsemble : KeepsLevel largeEnsemble := keepsLevel_onProcess _

@[simp] theorem keepsLevel_reforecast : KeepsLevel reforecast := keepsLevel_onProcess _

@[simp] theorem keepsLevel_derivedForecast : KeepsLevel derivedForecast := by
  apply KeepsLevel.comp (keepsLevel_onProduct _) (keepsLevel_onProcess _)
  exact fun _ => rfl

@[simp] theorem keepsLevel_satellite : KeepsLevel satellite :=
  (keepsLevel_onPdtCat _).comp (keepsLevel_onProduct fun _ => rfl)

@[simp] theorem keepsLevel_localUse (num : ℤ) : KeepsLevel (localUse num) := fun _ => rfl

@[simp] theorem keepsLevel_dataRepres (num : ℤ) : KeepsLevel (dataRepres num) := fun _ => rfl

@[simp] theorem keepsLevel_grid (change : SectionsConf → Entry GridSection) :
    KeepsLevel fun c => { c with grid := change c } := fun _ => rfl

@[simp] theorem keepsLevel_setAll_nil : KeepsLevel (setAll []) := fun _ => rfl

@[simp] theorem keepsLevel_setAll_cons {s : Setter} {setters : List Setter} (hs : KeepsLevel s)
    (h : KeepsLevel (setAll setters)) : KeepsLevel (setAll (s :: setters)) :=
  fun c => (h (s c)).trans (hs c)

theorem keepsLevel_setAll {setters : List Setter} (h : ∀ s ∈ setters, KeepsLevel s) :
    KeepsLevel (setAll setters) := by
  induction setters with
  | nil => exact keepsLevel_setAll_nil
  | cons s setters ih =>
    rw [List.forall_mem_cons] at h
    exact keepsLevel_setAll_cons h.1 (ih h.2)

theorem levelOf_onLevel (change : LevelConfigurator → LevelConfigurator) (c : SectionsConf) :
    levelOf (onLevel change c) = some (change ((levelOf c).getD {})) := by
  unfold levelOf onLevel onProduct
  dsimp only
  rw [Entry.visit_modify, Entry.visit_ensureInit, Option.map_some, Option.bind_some]
  dsimp only
  rw [Entry.visit_modify, Entry.visit_ensureInit, Option.map_some]
  cases c.product.visit with
  | none => rfl
  | some p => rfl

theorem keepsLevel_selected {t : RuleTree SectionsConf} (h : ∀ s ∈ t.setters, KeepsLevel s)
    (record : FullMarsRecord) : KeepsLevel (setAll (t.toDynRule.selected record)) :=
  keepsLevel_setAll fun s hs => h s (selected_subset record t hs)

/-- The lists that are tried for all fields, and the rules for parameters on pressure levels. -/
theorem keepsLevel_setters :
    ∀ t ∈ [gridRules, localSectionRules, processTypesRules, packingRules, paramPLTail],
      ∀ s ∈ t.setters, KeepsLevel s := by
  simp [gridRules, makeGridRule, localSectionRules, processTypesRules, packingRules, paramPLTail,
    Rules.rule, setters, settersOf]

section

variable {mars : FullMarsRecord}

def unitOf (level : ℤ) : TypeOfLevel := if 100 ≤ level then .IsobaricInhPa else .IsobaricInPa

def pressureChain : RuleTree SectionsConf :=
  .chainedRuleList [Rules.rule (matchLevType .PL) [], paramPLRules]

theorem horizontalRules_split : horizontalRules =
    .exclusiveRuleList "horizontalRules"
      (horizontalRules.elements.take 5 ++ pressureChain :: horizontalRules.elements.drop 6) := rfl

theorem not_guard_of_levtype (hPL : (mars .levtype).visit = some .PL) :
    ∀ other ∈ horizontalRules.elements.take 5 ++ horizontalRules.elements.drop 6,
      ¬ other.guard.apply mars := by
  have hlevtype (lt : LevType) (hlt : .PL ≠ lt) (setters : List Setter) (t) :
      ¬ (RuleTree.chainedRuleList [Rules.rule (matchLevType lt) setters, t]).guard.apply mars := by
    intro h
    have h := guard_of_mem_chained List.mem_cons_self h
    rw [Rules.rule, RuleTree.guard, Matcher.apply, matchLevType_apply_iff hPL] at h
    exact hlt (of_decide_eq_true h)
  have hSFC (m : Matcher) (setters : List Setter) :
      ¬ (Rules.rule (.all [matchLevType .SFC, m]) setters).guard.apply mars := by
    rw [Rules.rule, RuleTree.guard, Matcher.apply, Formula.eval_all, List.all_cons,
      matchLevType_apply_iff hPL]
    simp
  have hmissing (m : Matcher) (setters : List Setter) :
      ¬ (Rules.rule (.all [Matcher.missing .levtype, m]) setters).guard.apply mars := by
    rw [Rules.rule, RuleTree.guard, Matcher.apply, Formula.eval_all, List.all_cons,
      Matcher.missing, Formula.eval_atom, KeyTest.matchesRecord, hPL]
    simp [KeyMatcher.matchesValue]
  have hchannel : ¬ (RuleTree.chainedRuleList
      [Rules.rule (.all [matchLevType .SFC, Matcher.missing .channel]) [],
        paramSFCRules]).guard.apply mars :=
    fun h => hSFC _ _ (guard_of_mem_chained List.mem_cons_self h)
  simp only [horizontalRules, RuleTree.elements, List.take_succ_cons, List.take_zero,
    List.drop_succ_cons, List.drop_zero, List.cons_append, List.nil_append, List.forall_mem_cons]
  refine ⟨hchannel, hSFC _ _, hmissing _ _, hlevtype _ ?_ _ _, hlevtype _ ?_ _ _,
    hlevtype _ ?_ _ _, hlevtype _ ?_ _ _, hlevtype _ ?_ _ _, hlevtype _ ?_ _ _, by simp⟩ <;>
    exact LevType.noConfusion

theorem not_guard_satellite (htail : paramPLTail.guard.apply mars) :
    ¬ derivedEnsembleForecastSatelliteRule.guard.apply mars := by
  have hexclusive : Matcher.ExclusiveAt mars
      [paramPLTail.guard, derivedEnsembleForecastSatelliteRule.guard] :=
    Matcher.exclusiveAt_of_exclusive (by decide) mars
  have hnot := (List.pairwise_cons.mp hexclusive).1 _ (List.mem_singleton_self _)
  exact fun hsatellite => hnot ⟨htail, hsatellite⟩

theorem keepsLevel_satelliteRules (htail : paramPLTail.guard.apply mars) :
    KeepsLevel (setAll (satelliteRules.toDynRule.selected mars)) := by
  apply keepsLevel_setAll
  intro s hs
  rw [satelliteRules, selected_exclusiveRuleList] at hs
  simp only [List.flatMap_cons, List.flatMap_nil, List.append_nil, List.mem_append] at hs
  rcases hs with hsingle | hderived | hmissing
  · have hmem := selected_subset _ _ hsingle
    simp only [setters, settersOf, Rules.rule, singleSatelliteRule, List.append_nil,
      List.cons_append, List.nil_append, List.mem_cons, List.not_mem_nil, or_false] at hmem
    rcases hmem with rfl | rfl <;> simp
  · rw [selected_of_not_guard] at hderived
    · exact absurd hderived List.not_mem_nil
    · exact fun h => not_guard_satellite htail (guard_of_mem_chained (by simp) h)
  · have hmem := selected_subset _ _ hmissing
    simp only [setters, settersOf, Rules.rule, List.append_nil, List.mem_singleton] at hmem
    rw [hmem]
    exact keepsLevel_setAll_nil

theorem levelist_apply_iff {level : ℤ} (hlevelist : (mars .levelist).visit = some level)
    (op : Op) (value : ℤ) :
    (Matcher.levelist op value).eval (KeyTest.matchesRecord mars) = op.holds level value := by
  rw [Matcher.levelist, Formula.eval_atom, KeyTest.matchesRecord, hlevelist]
  rfl

def unitChain (op : Op) (type : TypeOfLevel) : RuleTree SectionsConf :=
  .chainedRuleList [Rules.rule (Matcher.levelist op 100) [typeOfLevel type], paramPLTail]

theorem not_guard_unitChain {level : ℤ} (hlevelist : (mars .levelist).visit = some level)
    {op : Op} (type : TypeOfLevel) (hop : op.holds level 100 = false) :
    ¬ (unitChain op type).guard.apply mars := by
  intro h
  have h := guard_of_mem_chained List.mem_cons_self h
  rw [Rules.rule, RuleTree.guard, Matcher.apply, levelist_apply_iff hlevelist, hop] at h
  exact Bool.false_ne_true h

theorem exists_unitChain {level : ℤ} (hlevelist : (mars .levelist).visit = some level)
    (h : paramPLRules.guard.apply mars) :
    ∃ op, (unitChain op (unitOf level)).guard.apply mars ∧
      paramPLRules.toDynRule.selected mars =
        (unitChain op (unitOf level)).toDynRule.selected mars := by
  unfold unitOf
  -- the test of the other chain fails
  split
  · rename_i hle
    have hothers : ∀ other ∈ [] ++ [unitChain .lessThan .IsobaricInPa],
        ¬ other.guard.apply mars := by
      simp only [List.nil_append, List.forall_mem_singleton]
      exact not_guard_unitChain hlevelist _ (by simpa [Op.holds] using hle)
    exact ⟨.greaterEqual, guard_only _ [] _ _ hothers h, selected_only _ [] _ _ hothers⟩
  · rename_i hlt
    have hothers : ∀ other ∈ [unitChain .greaterEqual .IsobaricInhPa] ++ [],
        ¬ other.guard.apply mars := by
      simp only [List.append_nil, List.forall_mem_singleton]
      exact not_guard_unitChain hlevelist _ (by simpa [Op.holds] using hlt)
    exact ⟨.lessThan, guard_only _ [_] [] _ hothers h, selected_only _ [_] [] _ hothers⟩

theorem levelOf_unitChain {op : Op} {type : TypeOfLevel}
    (h : (unitChain op type).guard.apply mars) (c : SectionsConf) :
    levelOf (setAll ((unitChain op type).toDynRule.selected mars) c) =
      some { (levelOf c).getD {} with type := .value type } := by
  have hrule := guard_of_mem_chained List.mem_cons_self h
  rw [Rules.rule, RuleTree.guard] at hrule
  have hset : (Rules.rule (Matcher.levelist op 100) [typeOfLevel type]).toDynRule.selected mars =
      [setAll [typeOfLevel type]] := by
    rw [Rules.rule, toDynRule, DynRule.selected, if_pos hrule]
  have htail : KeepsLevel (setAll (paramPLTail.toDynRule.selected mars)) :=
    keepsLevel_selected (keepsLevel_setters _ (by simp)) mars
  rw [unitChain, selected_chainedRuleList h]
  simp only [List.flatMap_cons, List.flatMap_nil, List.append_nil]
  rw [hset, DynRule.setAll_append, htail]
  exact levelOf_onLevel _ c

theorem guard_pressureChain (hPL : (mars .levtype).visit = some .PL)
    (hguard : allRules.guard.apply mars) : pressureChain.guard.apply mars := by
  have hhorizontal := guard_of_mem_chained (r := horizontalRules) (by simp) hguard
  rw [horizontalRules_split] at hhorizontal
  exact guard_only _ _ _ _ (not_guard_of_levtype hPL) hhorizontal

theorem selected_horizontalRules (hPL : (mars .levtype).visit = some .PL)
    (hchain : pressureChain.guard.apply mars) :
    horizontalRules.toDynRule.selected mars =
      setAll [] :: paramPLRules.toDynRule.selected mars := by
  have hrule := guard_of_mem_chained List.mem_cons_self hchain
  rw [Rules.rule, RuleTree.guard] at hrule
  rw [horizontalRules_split, selected_only _ _ _ _ (not_guard_of_levtype hPL), pressureChain,
    selected_chainedRuleList hchain]
  simp only [List.flatMap_cons, List.flatMap_nil, List.append_nil]
  rw [Rules.rule, toDynRule, DynRule.selected, if_pos hrule, List.singleton_append]

/-- What the rules configure for the level of a field on a pressure level. -/
theorem levelOf_allRules {level : ℤ} {conf : SectionsConf}
    (hPL : (mars .levtype).visit = some .PL) (hlevelist : (mars .levelist).visit = some level)
    (happly : allRules.toDynRule.apply mars {} = (.ok true, conf)) :
    levelOf conf = some { type := .value (unitOf level) } := by
  obtain ⟨happlies, hconf⟩ := DynRule.of_apply_ok happly
  rw [applies_toDynRule] at happlies
  have hguard := happlies.symm
  have hchain := guard_pressureChain hPL hguard
  obtain ⟨op, hunit, hselected⟩ := exists_unitChain hlevelist
    (guard_of_mem_chained (r := paramPLRules) (by simp) hchain)
  have htail := guard_of_mem_chained (r := paramPLTail) (by simp) hunit
  have hkeeps : ∀ t ∈ [gridRules, localSectionRules, processTypesRules, packingRules],
      KeepsLevel (setAll (t.toDynRule.selected mars)) := by
    intro t ht
    refine keepsLevel_selected (keepsLevel_setters t ?_) mars
    simp only [List.mem_cons] at ht ⊢
    tauto
  simp only [List.forall_mem_cons] at hkeeps
  rw [hconf, allRules, selected_chainedRuleList hguard]
  simp only [List.flatMap_cons, List.flatMap_nil, List.append_nil]
  rw [selected_horizontalRules hPL hchain, hselected]
  -- what comes after the chain for the unit keeps the level, and what comes before sets none
  rw [DynRule.setAll_append, DynRule.setAll_append, DynRule.setAll_append, DynRule.setAll_append,
    DynRule.setAll_append, hkeeps.2.2.2.1, keepsLevel_satelliteRules htail]
  change levelOf (setAll ((unitChain op (unitOf level)).toDynRule.selected mars) _) = _
  rw [levelOf_unitChain hunit, keepsLevel_setAll_nil, hkeeps.2.2.1, hkeeps.2.1, hkeeps.1]
  rfl

end

end Multio.Mars2Grib.Rules

namespace Multio.Mars2Grib

open Datamod Rules

/-- A handle that keeps the type of level and the level it is given. -/
def levelHandle : CodesHandle (Option TypeOfLevel × Option ℤ) where
  setVertical _ h := h
  setTypeOfLevel type h := (some type, h.2)
  setLevel level h := (h.1, some level)
  horizontal _ := {}

/-- The type of level and the level that a message is given for the keys. -/
def encodedLevel (conf : SectionsConf) (keys : FullMarsRecord × MiscRecord) :
    LevelResult (Option TypeOfLevel × Option ℤ) :=
  match levelOf conf with
  | some levelConf => LevelSetter.setLevels levelHandle levelConf (none, none) keys
  | none => .ok (none, none)

def DenotesPa (encoded : LevelResult (Option TypeOfLevel × Option ℤ)) (pressure : ℤ) : Prop :=
  ∃ type ∈ [TypeOfLevel.IsobaricInPa, .IsobaricInhPa], ∃ level,
    encoded = .ok (some type, some level) ∧ valueOfLevel type level = pressure

/-- A record of a field on a pressure level that the rules accept, with what they configure. -/
structure AcceptedOnPressure (mars : FullMarsRecord) (level : ℤ) (conf : SectionsConf) : Prop where
  levtype : (mars .levtype).visit = some .PL
  levelist : (mars .levelist).visit = some level
  accepted : allRules.toDynRule.apply mars {} = (.ok true, conf)

def WholeUnits (level : ℤ) : Prop := level < 100 ∨ 100 ∣ level

instance (level : ℤ) : Decidable (WholeUnits level) := inferInstanceAs (Decidable (_ ∨ _))

def levelInUnit (level : ℤ) : ℤ := if 100 ≤ level then level.tdiv 100 else level

section

variable {mars mars' : FullMarsRecord} {misc misc' : MiscRecord} {conf conf' : SectionsConf}
  {level level' : ℤ}

theorem encodedLevel_eq (h : AcceptedOnPressure mars level conf) :
    encodedLevel conf (mars, misc) = .ok (some (unitOf level), some (levelInUnit level)) := by
  have hlevelist (levelConf : LevelConfigurator) :
      getLevelist "level" levelConf mars = .ok level := by rw [getLevelist, h.levelist]
  rw [encodedLevel, levelOf_allRules h.levtype h.levelist h.accepted]
  dsimp only
  unfold unitOf levelInUnit
  split <;>
    simp [LevelSetter.setLevels, levelForTypeOfLevel, LevelConfigurator.getType, hlevelist,
      Entry.visit, levelHandle, Exception.ok_bind, pure, Except.pure]

theorem valueOfLevel_levelInUnit (level : ℤ) :
    valueOfLevel (unitOf level) (levelInUnit level) = level ↔ WholeUnits level := by
  unfold valueOfLevel unitOf levelInUnit WholeUnits
  split
  · rename_i hle
    rw [if_pos rfl]
    constructor
    · intro heq
      exact .inr ⟨_, heq.symm⟩
    · rintro (hlt | hdvd)
      · omega
      · exact Int.mul_tdiv_cancel' hdvd
  · rename_i hlt
    rw [if_neg (by decide)]
    exact iff_of_true rfl (.inl (by omega))

theorem denotesPa_iff (h : AcceptedOnPressure mars level conf) :
    DenotesPa (encodedLevel conf (mars, misc)) level ↔ WholeUnits level := by
  rw [← valueOfLevel_levelInUnit, encodedLevel_eq h]
  constructor
  · rintro ⟨type, -, value, heq, hvalue⟩
    obtain ⟨rfl, rfl⟩ : unitOf level = type ∧ levelInUnit level = value := by simpa using heq
    exact hvalue
  · intro hvalue
    refine ⟨_, ?_, _, rfl, hvalue⟩
    unfold unitOf
    split <;> simp

/-- Two levels get the same encoding only from the threshold on, where what is left over of a
hundred is dropped. -/
theorem encodedLevel_eq_iff (h : AcceptedOnPressure mars level conf)
    (h' : AcceptedOnPressure mars' level' conf') :
    encodedLevel conf (mars, misc) = encodedLevel conf' (mars', misc') ↔
      level = level' ∨ 100 ≤ level ∧ 100 ≤ level' ∧ level.tdiv 100 = level'.tdiv 100 := by
  rw [encodedLevel_eq h, encodedLevel_eq h']
  unfold unitOf levelInUnit
  -- different units are never the same, and in Pa nothing is dropped
  by_cases hle : 100 ≤ level <;> by_cases hle' : 100 ≤ level' <;>
    simp only [hle, hle', if_true, if_false, Except.ok.injEq, Prod.mk.injEq, Option.some.injEq,
      true_and, false_and, and_false, reduceCtorEq, or_false]
  · constructor
    · exact .inr
    · rintro (rfl | heq)
      · rfl
      · exact heq
  · exact (false_iff _).mpr fun heq => hle' (heq ▸ hle)
  · exact (false_iff _).mpr fun heq => hle (heq ▸ hle')

theorem level_applyRecordDefaults {r product : ProductSection}
    (h : r.applyRecordDefaults = .ok product) : product.level.visit = r.level.visit := by
  have hentries : r.applyEntryDefaults.level.visit = r.level.visit := by
    rw [ProductSection.applyEntryDefaults, Entry.visit_modify, Option.map_id, id]
  rw [← hentries]
  rw [ProductSection.applyRecordDefaults, ProductSection.applyDefaults] at h
  split at h
  · obtain rfl := Except.ok.inj h
    rfl
  · obtain ⟨pdtNum, -, h⟩ := Exception.bind_eq_ok_iff.mp h
    -- the number that is passed is only compared
    dsimp only at h
    split at h
    · split at h
      · cases h
      · obtain rfl := Except.ok.inj h
        rfl
    · obtain rfl := Except.ok.inj h
      rfl

theorem levelOf_applyRecordDefaults {c sections : SectionsConf}
    (h : c.applyRecordDefaults = .ok sections) : levelOf sections = levelOf c := by
  obtain ⟨product, hproduct, hsections⟩ := Exception.bind_eq_ok_iff.mp h
  obtain rfl := Except.ok.inj hsections
  change product.level.visit = c.product.visit.bind fun p => p.level.visit
  rw [level_applyRecordDefaults hproduct]
  cases c.product.visit with
  | none => rfl
  | some p => rfl

theorem levelOf_built {sections : SectionsConf} (h : AcceptedOnPressure mars level conf)
    (hbuilt : buildEncoderConf mars = .ok sections) : levelOf sections = levelOf conf := by
  rw [buildEncoderConf, h.accepted] at hbuilt
  dsimp only at hbuilt
  split at hbuilt
  · cases hbuilt
  · rename_i sections' hdefaults
    split at hbuilt
    · cases hbuilt
    · obtain rfl := Except.ok.inj hbuilt
      exact levelOf_applyRecordDefaults hdefaults

/-- The level is encoded without loss exactly when it is in Pa or a whole number of hPa. -/
theorem pressureLevel_exact_iff (misc misc' : MiscRecord)
    (h : AcceptedOnPressure mars level conf) (h' : AcceptedOnPressure mars' level' conf') :
    (DenotesPa (encodedLevel conf (mars, misc)) level ↔ WholeUnits level) ∧
      (encodedLevel conf (mars, misc) = encodedLevel conf' (mars', misc') ↔
        level = level' ∨ 100 ≤ level ∧ 100 ≤ level' ∧ level.tdiv 100 = level'.tdiv 100) ∧
      (WholeUnits level → WholeUnits level' → level ≠ level' →
        encodedLevel conf (mars, misc) ≠ encodedLevel conf' (mars', misc')) ∧
      ∀ sections, buildEncoderConf mars = .ok sections →
        encodedLevel sections (mars, misc) = encodedLevel conf (mars, misc) := by
  refine ⟨denotesPa_iff h, encodedLevel_eq_iff h h', ?_, ?_⟩
  · intro hwhole hwhole' hne heq
    apply hne
    rcases (encodedLevel_eq_iff h h').mp heq with hlevel | ⟨hle, hle', hhundreds⟩
    · exact hlevel
    · have hdvd : 100 ∣ level := hwhole.resolve_left (not_lt_of_ge hle)
      have hdvd' : 100 ∣ level' := hwhole'.resolve_left (not_lt_of_ge hle')
      calc level = 100 * level.tdiv 100 := (Int.mul_tdiv_cancel' hdvd).symm
        _ = 100 * level'.tdiv 100 := by rw [hhundreds]
        _ = level' := Int.mul_tdiv_cancel' hdvd'
  · intro sections hbuilt
    rw [encodedLevel, encodedLevel, levelOf_built h hbuilt]

end

def temperature (level : ℤ) : FullMarsRecord
  | .klass => .value "od"
  | .stream => .value "oper"
  | .type => .value "fc"
  | .expver => .value (.inr "0001")
  | .grid => .value "N320"
  | .repres => .value .GG
  | .packing => .value "ccsds"
  | .param => .value ⟨130⟩
  | .levtype => .value .PL
  | .levelist => .value level
  | .date => .value 20250101
  | .time => .value 0
  | _ => .unset

def temperatureConf (level : ℤ) : SectionsConf :=
  (allRules.toDynRule.apply (temperature level) {}).2

theorem temperature_accepted {level : ℤ}
    (h : (allRules.toDynRule.apply (temperature level) {}).1.toOption = some true) :
    AcceptedOnPressure (temperature level) level (temperatureConf level) := by
  refine ⟨rfl, rfl, ?_⟩
  unfold temperatureConf
  cases happly : allRules.toDynRule.apply (temperature level) {} with
  | mk applied conf =>
    rw [happly] at h
    cases applied with
    | error e => cases h
    | ok b => rw [Option.some.inj h]

theorem temperature_built :
    ∀ level ∈ [15000, 15050],
      (allRules.toDynRule.apply (temperature level) {}).1.toOption = some true ∧
        (buildEncoderConf (temperature level)).isOk := by
  decide +kernel

/-- 150 hPa and 850 hPa. -/
theorem pressureLevel_exact_hundreds :
    DenotesPa (encodedLevel (temperatureConf 15000) (temperature 15000, fun _ => .unset)) 15000 ∧
      encodedLevel (temperatureConf 15000) (temperature 15000, fun _ => .unset) ≠
        encodedLevel (temperatureConf 85000) (temperature 85000, fun _ => .unset) := by
  have h : AcceptedOnPressure (temperature 15000) 15000 (temperatureConf 15000) :=
    temperature_accepted (by decide +kernel)
  have h' : AcceptedOnPressure (temperature 85000) 85000 (temperatureConf 85000) :=
    temperature_accepted (by decide +kernel)
  have hexact := pressureLevel_exact_iff (fun _ => .unset) (fun _ => .unset) h h'
  exact ⟨hexact.1.mpr (by decide), hexact.2.2.1 (by decide) (by decide) (by decide)⟩

/-- 150.5 hPa is encoded as 150 hPa, and so is 150 hPa. -/
theorem pressureLevel_lossy :
    encodedLevel (temperatureConf 15050) (temperature 15050, fun _ => .unset) =
        .ok (some .IsobaricInhPa, some 150) ∧
      encodedLevel (temperatureConf 15000) (temperature 15000, fun _ => .unset) =
        .ok (some .IsobaricInhPa, some 150) ∧
      ¬ DenotesPa (encodedLevel (temperatureConf 15050) (temperature 15050, fun _ => .unset))
        15050 ∧
      ∀ level ∈ [15000, 15050], (buildEncoderConf (temperature level)).isOk := by
  have hbuilt := temperature_built
  have haccepted (level) (hlevel : level ∈ [15000, 15050]) :=
    temperature_accepted (hbuilt level hlevel).1
  have h := haccepted 15000 (by simp)
  have h' := haccepted 15050 (by simp)
  refine ⟨encodedLevel_eq h', encodedLevel_eq h, ?_, fun level hlevel => (hbuilt level hlevel).2⟩
  rw [denotesPa_iff h']
  decide

end Multio.Mars2Grib
