import Multio.Mars2Grib.RuleCoverage
import Multio.Mars2Mars.Rules

namespace Multio.Mars2Mars

open Datamod Lib Mars2Grib Mars2Grib.Rules

theorem marsVals_of_setAll {setters : List DynSetter} {vals vals' : Vals}
    {mapRes res : MappingResult} (h : setAll setters vals mapRes = (.ok res, vals')) :
    vals'.marsVals = assign (setters.filterMap DynSetter.marsUpdate?) vals.marsVals := by
  induction setters generalizing vals mapRes with
  | nil =>
    rw [setAll, Prod.mk.injEq] at h
    rw [← h.2]
    rfl
  | cons setter setters ih =>
    rw [setAll] at h
    cases setter with
    | setScaleFactor value =>
      rw [DynSetter.set] at h
      split at h
      · rename_i e vals'' hset
        simp at h
      · rename_i mapRes' vals'' hset
        split at hset
        · cases hset
        · obtain ⟨-, rfl⟩ := Prod.mk.inj hset
          exact ih h
    | setMarsKey member value => exact ih h
    | setMiscKey member value =>
      have hmore := ih h
      exact hmore

namespace DynRule

/-- A call that has mapped the records has applied one of the rules to them. -/
structure MapsByOne (t : DynRule) : Prop where
  unmapped : ∀ vals vals', t.apply vals = (.ok none, vals') → vals' = vals
  mapped : ∀ vals vals' res, t.apply vals = (.ok (some res), vals') →
    ∃ r ∈ t.leaves, r.matcher.apply vals.marsVals ∧ vals'.marsVals = (r.write vals).marsVals

/-- After a rule has applied, the rest of a list leaves the records or throws. -/
theorem of_applyList_some {rules : List DynRule} (h : ∀ r ∈ rules, MapsByOne r)
    {first : DynRule × MappingResult} {vals vals' : Vals} {res : Option MappingResult}
    (happly : applyList rules (some first) vals = (.ok res, vals')) :
    vals' = vals ∧ res = some first.2 := by
  induction rules generalizing vals with
  | nil =>
    obtain ⟨hres, rfl⟩ := Prod.mk.inj happly
    exact ⟨rfl, (Except.ok.inj hres).symm⟩
  | cons r rules ih =>
    rw [List.forall_mem_cons] at h
    rw [applyList] at happly
    split at happly
    · cases happly
    · rename_i vals'' hr
      obtain rfl := h.1.unmapped vals vals'' hr
      exact ih h.2 happly
    · cases happly

theorem of_applyList_none {rules : List DynRule} (h : ∀ r ∈ rules, MapsByOne r)
    {vals vals' : Vals} {res : Option MappingResult}
    (happly : applyList rules none vals = (.ok res, vals')) :
    (res = none ∧ vals' = vals) ∨ (res ≠ none ∧ ∃ r ∈ leavesOf rules,
      r.matcher.apply vals.marsVals ∧ vals'.marsVals = (r.write vals).marsVals) := by
  induction rules generalizing vals with
  | nil =>
    obtain ⟨hres, rfl⟩ := Prod.mk.inj happly
    exact .inl ⟨(Except.ok.inj hres).symm, rfl⟩
  | cons r rules ih =>
    rw [List.forall_mem_cons] at h
    rw [applyList] at happly
    rw [leavesOf]
    split at happly
    · cases happly
    · rename_i vals'' hr
      obtain rfl := h.1.unmapped vals vals'' hr
      refine (ih h.2 happly).imp_right ?_
      rintro ⟨hres, r', hr', hmapped⟩
      exact ⟨hres, r', List.mem_append_right _ hr', hmapped⟩
    · rename_i first vals'' hr
      obtain ⟨r', hr', hmatch, hwrite⟩ := h.1.mapped vals vals'' first hr
      obtain ⟨rfl, rfl⟩ := of_applyList_some h.2 happly
      exact .inr ⟨Option.some_ne_none _, r', List.mem_append_left _ hr', hmatch, hwrite⟩

theorem mapsByOne (t : DynRule) : MapsByOne t := by
  induction t using DynRule.induction with
  | rule r =>
    constructor
    · intro vals vals' happly
      rw [apply, Rule.apply] at happly
      split at happly
      · split at happly
        · cases happly
        · cases happly
      · exact (Prod.mk.inj happly).2.symm
    · intro vals vals' res happly
      rw [apply, Rule.apply] at happly
      split at happly
      · rename_i hmatch
        split at happly
        · cases happly
        · rename_i res' vals'' hset
          obtain ⟨-, rfl⟩ := Prod.mk.inj happly
          exact ⟨r, by simp [leaves], hmatch, marsVals_of_setAll hset⟩
      · cases happly
  | ruleList rules ih =>
    constructor
    · intro vals vals' happly
      rw [apply] at happly
      rcases of_applyList_none ih happly with ⟨-, rfl⟩ | ⟨hres, -⟩
      · rfl
      · exact absurd rfl hres
    · intro vals vals' res happly
      rw [apply] at happly
      rcases of_applyList_none ih happly with ⟨hres, -⟩ | ⟨-, hmapped⟩
      · cases hres
      · rwa [leaves]

end DynRule

namespace Rule

/-- What is known of a record that the rule has left, from facts on the one that it was given. -/
def factsAfter (r : Rule) (facts : Facts) : Facts where
  param := ((assigned r.marsUpdates .param).map Entry.visit).getD facts.param
  others :=
    ((r.marsUpdates.map Sigma.fst).filterMap fun k =>
      (assigned r.marsUpdates k).bind fun e => e.visit.map fun v => KeyTest.mk k (.oneOf [v])) ++
    facts.others.filter fun test => (assigned r.marsUpdates test.member).isNone

theorem metBy_factsAfter (r : Rule) {facts : Facts} {vals : Vals}
    (hfacts : facts.MetBy vals.marsVals) :
    (r.factsAfter facts).MetBy (r.write vals).marsVals where
  param p hp := by
    rw [marsVals_write]
    unfold factsAfter at hp
    cases hassigned : assigned r.marsUpdates .param with
    | none =>
      rw [hassigned] at hp
      exact hfacts.param p hp
    | some e =>
      rw [hassigned] at hp
      exact hp
  others test htest := by
    rw [factsAfter, List.mem_append, List.mem_filterMap, List.mem_filter] at htest
    rw [KeyTest.matchesRecord, marsVals_write]
    rcases htest with ⟨k, -, hk⟩ | ⟨hmem, hnone⟩
    · -- a key that is assigned has its last value
      rw [Option.bind_eq_some_iff] at hk
      obtain ⟨e, he, hv⟩ := hk
      rw [Option.map_eq_some_iff] at hv
      obtain ⟨v, hv, rfl⟩ := hv
      rw [he, Option.getD_some, hv]
      simp [KeyMatcher.matchesValue]
    · rw [Option.isNone_iff_eq_none.mp hnone, Option.getD_none]
      exact hfacts.others test hmem

end Rule

def chemicalRules : List Rule := [fixTablesVersionChemAccum, fixTablesVersionChemInstant]

def IsChemical (record : FullMarsRecord) : Prop :=
  ∃ r ∈ chemicalRules, r.matcher.apply record

def withParam (context : List KeyTest) (param : Param) : Facts where
  param := some param
  others :=
    if chemicalRules.any fun r => r.matcher.sure (Facts.imply { param := some param }) then
      ⟨.wavelength, .missing⟩ :: ⟨.chem, .matchOp .lessThan 900⟩ :: context
    else context

theorem metBy_withParam {context : List KeyTest} {record : FullMarsRecord} {param : Param}
    (hcontext : ∀ test ∈ context, test.matchesRecord record)
    (hparam : (record .param).visit = some param)
    (hchemical : IsChemical record → matchChemical.apply record) :
    (withParam context param).MetBy record where
  param p hp := by
    obtain rfl : param = p := Option.some.inj hp
    exact hparam
  others := by
    rw [withParam]
    dsimp only
    split
    · rename_i hany
      obtain ⟨r, hr, hsure⟩ := List.any_eq_true.mp hany
      have hfacts : Facts.MetBy record { param := some param } :=
        ⟨fun p hp => by rwa [Option.mem_some.mp hp] at hparam, by simp⟩
      have hmatch := hchemical ⟨r, hr, Facts.apply_of_sure hfacts hsure⟩
      simp only [matchChemical, Matcher.apply, Matcher.has, Matcher.missing, Matcher.chem,
        Formula.eval_all, List.all_cons, List.all_nil, Formula.eval_atom, Bool.and_true,
        Bool.and_eq_true] at hmatch
      obtain ⟨-, hmissing, hless⟩ := hmatch
      rw [List.forall_mem_cons, List.forall_mem_cons]
      exact ⟨hmissing, hless, hcontext⟩
    · exact hcontext

def paramRules : LevType → Option (RuleTree SectionsConf)
  | .SFC => some paramSFCRules
  | .HL => some paramHLRules
  | .ML => some paramMLRules
  | .PL => some paramPLTail
  | .PT => some paramPTRules
  | .PV => some paramPVRules
  | .SOL => some paramSOLRules
  | .AL => some paramAlRules
  | _ => none

open RuleTree in
/-- The rules of the encoder accept the record: one list for its type of levels applies, and one
rule for its parameter. -/
structure Encodable (record : FullMarsRecord) : Prop where
  accepts : Accepts record horizontalRules
  one_list : AppliesExactlyOne record horizontalRules
  one_rule : ∃ levtype list, (record .levtype).visit = some levtype ∧
    paramRules levtype = some list ∧ AppliesExactlyOne record list

theorem mem_exclusiveLists_of_paramRules {levtype : LevType} {list : RuleTree SectionsConf}
    (h : paramRules levtype = some list) : list ∈ exclusiveLists := by
  cases levtype <;> simp only [paramRules, Option.some.injEq, reduceCtorEq] at h <;> subst h <;>
    simp [exclusiveLists]

open RuleTree in
theorem appliesExactlyOne_of_paramRules {record : FullMarsRecord} {levtype : LevType}
    {list : RuleTree SectionsConf} (h : paramRules levtype = some list)
    (hguard : list.guard.apply record) : AppliesExactlyOne record list := by
  have hnone : Facts.MetBy record {} := ⟨by simp, by simp⟩
  have hunambiguous := exclusiveLists_unambiguous list (mem_exclusiveLists_of_paramRules h)
  cases levtype <;> simp only [paramRules, Option.some.injEq, reduceCtorEq] at h <;> subst h <;>
    exact (appliesExactlyOne_iff_of_quiet hnone hunambiguous (by decide) ⟨{}⟩).mpr hguard

theorem paramRules_apply {record : FullMarsRecord} {levtype : LevType}
    (hlevtype : (record .levtype).visit = some levtype)
    (hchannel : levtype = .SFC → (record .channel).visit = none)
    (h : horizontalRules.guard.apply record) :
    ∃ list, paramRules levtype = some list ∧ list.guard.apply record := by
  have hmissing : (Matcher.missing .levtype).eval (KeyTest.matchesRecord record) = false := by
    rw [Matcher.missing, Formula.eval_atom, KeyTest.matchesRecord, hlevtype]
    rfl
  simp only [horizontalRules, paramPLRules, plLevelRules, Rules.rule, RuleTree.guard,
    RuleTree.guards, Matcher.apply, Formula.eval_any, Formula.eval_all, List.any_cons,
    List.any_nil, List.all_cons, List.all_nil, matchLevType_apply_iff hlevtype, hmissing,
    Matcher.has, Formula.eval_atom, KeyTest.matchesRecord] at h
  cases levtype with
  | SFC =>
    rw [hchannel rfl] at h
    refine ⟨paramSFCRules, rfl, ?_⟩
    rw [Matcher.apply]
    simp [KeyMatcher.matchesValue] at h
    exact h.2
  | PL =>
    refine ⟨paramPLTail, rfl, ?_⟩
    rw [Matcher.apply]
    simp at h
    -- the parameters are the same on either side of the threshold
    exact h.elim And.right And.right
  | HL | ML | PT | PV | SOL | AL =>
    refine ⟨_, rfl, ?_⟩
    simpa [Matcher.apply] using h
  | O2D | O3D | HHL | HPL | WV | DP | CAT | LAYER => simp at h

theorem encodable_of_covers {facts : Facts} {record : FullMarsRecord}
    (hfacts : facts.MetBy record) (hcovers : horizontalRules.covers facts) {levtype : LevType}
    (hlevtype : (record .levtype).visit = some levtype)
    (hchannel : levtype = .SFC → (record .channel).visit = none) : Encodable record := by
  have hunambiguous := exclusiveLists_unambiguous
  have hhorizontal : horizontalRules ∈ exclusiveLists := by simp [exclusiveLists]
  have happly := (RuleTree.of_covers hfacts _ (hunambiguous _ hhorizontal) hcovers).2
  obtain ⟨list, hlist, hguard⟩ := paramRules_apply hlevtype hchannel happly
  refine ⟨RuleTree.accepts_of_covers hfacts (hunambiguous _ hhorizontal) hcovers,
    RuleTree.appliesExactlyOne_of_covers hfacts (hunambiguous _ hhorizontal) hcovers,
    levtype, list, hlevtype, hlist, appliesExactlyOne_of_paramRules hlist hguard⟩

/-- The facts name the type of levels, and a surface field has no channel. -/
def onLevels (facts : Facts) : Bool :=
  [.SFC, .HL, .ML, .PL, .SOL].any fun levtype =>
    facts.imply ⟨.levtype, .oneOf [levtype]⟩ &&
      (levtype ≠ .SFC || facts.imply ⟨.channel, .missing⟩)

theorem exists_levtype_of_onLevels {facts : Facts} {record : FullMarsRecord}
    (hfacts : facts.MetBy record) (h : onLevels facts) : ∃ levtype,
      (record .levtype).visit = some levtype ∧
        (levtype = .SFC → (record .channel).visit = none) := by
  obtain ⟨levtype, -, hlevtype⟩ := List.any_eq_true.mp h
  rw [Bool.and_eq_true, Bool.or_eq_true, decide_eq_true_eq] at hlevtype
  obtain ⟨himply, hchannel⟩ := hlevtype
  have htest := Facts.matches_of_imply hfacts himply
  rw [KeyTest.matchesRecord] at htest
  refine ⟨levtype, ?_, ?_⟩
  · cases hvisit : (record .levtype).visit with
    | none => simp [hvisit, KeyMatcher.matchesValue] at htest
    | some lt => simpa [hvisit, KeyMatcher.matchesValue] using htest
  · intro hSFC
    have hmissing := Facts.matches_of_imply hfacts (hchannel.resolve_left (absurd hSFC))
    simpa [KeyTest.matchesRecord, KeyMatcher.matchesValue] using hmissing

def found (facts : Facts) : Bool := onLevels facts && horizontalRules.covers facts

theorem encodable_of_found {facts : Facts} {record : FullMarsRecord}
    (hfacts : facts.MetBy record) (h : found facts) : Encodable record := by
  rw [found, Bool.and_eq_true] at h
  obtain ⟨levtype, hlevtype, hchannel⟩ := exists_levtype_of_onLevels hfacts h.1
  exact encodable_of_covers hfacts h.2 hlevtype hchannel

namespace Rule

/-- The encoder has rules for what the rule leaves, for each parameter unless it sets one. -/
def encodes (context : List KeyTest) (r : Rule) : Bool :=
  if (assigned r.marsUpdates .param).isSome then found (r.factsAfter { others := context })
  else match r.matcher.alternatives KeyTest.params with
    | some intervals => intervals.all fun i =>
        i.1 = i.2 && found (r.factsAfter (withParam context ⟨i.1⟩))
    | none => false

theorem encodable_of_encodes {r : Rule} {context : List KeyTest} (h : r.encodes context)
    {vals : Vals} (hmatch : r.matcher.apply vals.marsVals)
    (hcontext : ∀ test ∈ context, test.matchesRecord vals.marsVals)
    (hchemical : (assigned r.marsUpdates .param).isNone → IsChemical vals.marsVals →
      matchChemical.apply vals.marsVals) :
    Encodable (r.write vals).marsVals := by
  unfold encodes at h
  split at h
  · have hfacts : Facts.MetBy vals.marsVals { others := context } := ⟨by simp, hcontext⟩
    exact encodable_of_found (r.metBy_factsAfter hfacts) h
  · rename_i hparam
    split at h
    · rename_i intervals hintervals
      obtain ⟨i, hi, p, hp, hfirst, hlast⟩ :=
        r.matcher.exists_of_alternatives Matcher.meets_params hintervals hmatch
      have hone := List.all_eq_true.mp h i hi
      rw [Bool.and_eq_true, decide_eq_true_eq] at hone
      have hpoint : p = ⟨i.1⟩ := by
        cases p
        congr 1
        simp only at hfirst hlast
        omega
      rw [hpoint] at hp
      have hfacts := metBy_withParam hcontext hp (hchemical (by simpa using hparam))
      exact encodable_of_found (r.metBy_factsAfter hfacts) hone.2
    · exact absurd h Bool.false_ne_true

end Rule

def surface : List KeyTest := [⟨.levtype, .oneOf [.SFC]⟩, ⟨.channel, .missing⟩]

theorem surface_encodes :
    (wmoUnitMapping.leaves ++ fixIFSOutput.leaves ++ mapDeprecatedGrib1ToGrib2.leaves).all
      (Rule.encodes surface) := by
  decide +kernel

/-- Fields on model levels, and on pressure levels on either side of the threshold. -/
def upperLevels : List (List KeyTest) :=
  [[⟨.levtype, .oneOf [.ML]⟩], [⟨.levtype, .oneOf [.PL]⟩, ⟨.levelist, .matchOp .greaterEqual 100⟩],
    [⟨.levtype, .oneOf [.PL]⟩, ⟨.levelist, .matchOp .lessThan 100⟩]]

theorem upperLevels_encodes :
    upperLevels.all fun context => incrementalType4IRules.leaves.all (Rule.encodes context) := by
  decide +kernel

theorem incrementalType4IRules_param :
    incrementalType4IRules.leaves.all fun r => (assigned r.marsUpdates .param).isSome := by
  decide

theorem exists_upperLevels {record : FullMarsRecord}
    (h : (record .levtype).visit = some .ML ∨
      (record .levtype).visit = some .PL ∧ (record .levelist).isSet) :
    ∃ context ∈ upperLevels, ∀ test ∈ context, test.matchesRecord record := by
  simp only [upperLevels, List.exists_mem_cons_iff, List.forall_mem_cons, KeyTest.matchesRecord]
  rcases h with hML | ⟨hPL, hset⟩
  · left
    simp [hML, KeyMatcher.matchesValue]
  · obtain ⟨level, hlevel⟩ := Option.isSome_iff_exists.mp hset
    rw [hPL, hlevel]
    simp [KeyMatcher.matchesValue, Op.holds, le_or_gt]

/-- What the mapping rules for surface fields, and those for increments of the upper air, leave of
a record is encoded: by one list of rules, and by one rule in it. -/
theorem mapped_encodable (t : DynRule) (vals vals' : Vals) (res : MappingResult)
    (happly : applyMappings t vals = (.ok (some res), vals')) :
    (t.leaves ⊆ wmoUnitMapping.leaves ++ fixIFSOutput.leaves ++ mapDeprecatedGrib1ToGrib2.leaves →
      (vals.marsVals .levtype).visit = some .SFC → (vals.marsVals .channel).visit = none →
      (IsChemical vals.marsVals → matchChemical.apply vals.marsVals) →
      Encodable vals'.marsVals) ∧
    (t.leaves ⊆ incrementalType4IRules.leaves →
      ((vals.marsVals .levtype).visit = some .ML ∨
        (vals.marsVals .levtype).visit = some .PL ∧ (vals.marsVals .levelist).isSet) →
      Encodable vals'.marsVals) := by
  obtain ⟨r, hr, hmatch, hwrite⟩ := (DynRule.mapsByOne t).mapped vals vals' res happly
  rw [hwrite]
  constructor
  · intro hleaves hlevtype hchannel hchemical
    have hsurface : ∀ test ∈ surface, test.matchesRecord vals.marsVals := by
      simp [surface, KeyTest.matchesRecord, hlevtype, hchannel, KeyMatcher.matchesValue]
    exact Rule.encodable_of_encodes (List.all_eq_true.mp surface_encodes r (hleaves hr)) hmatch
      hsurface fun _ => hchemical
  · intro hleaves hlevels
    obtain ⟨context, hmem, hcontext⟩ := exists_upperLevels hlevels
    have hencodes := List.all_eq_true.mp upperLevels_encodes context hmem
    apply Rule.encodable_of_encodes (List.all_eq_true.mp hencodes r (hleaves hr)) hmatch hcontext
    -- all of these rules set the parameter
    intro hnone
    have hsome := List.all_eq_true.mp incrementalType4IRules_param r (hleaves hr)
    rw [Option.isSome_iff_ne_none] at hsome
    exact absurd (Option.isNone_iff_eq_none.mp hnone) hsome

def field (param : Param) (levtype : LevType) : Vals where
  marsVals
    | .param => .value param
    | .levtype => .value levtype
    | _ => .unset
  miscVals _ := .unset

/-- Total precipitation, and an increment of the temperature on model levels. -/
theorem mapped_encodable_two :
    Encodable (applyMappings wmoUnitMapping (field ⟨228⟩ .SFC)).2.marsVals ∧
      Encodable (applyMappings incrementalType4IRules (field ⟨200130⟩ .ML)).2.marsVals := by
  constructor
  · have happly : applyMappings wmoUnitMapping (field ⟨228⟩ .SFC) =
        (.ok (some { valuesScaleFactor := some thousand }),
          (applyMappings wmoUnitMapping (field ⟨228⟩ .SFC)).2) := Prod.ext rfl rfl
    have hchemical : ¬ IsChemical (field ⟨228⟩ .SFC).marsVals := by
      simp only [IsChemical, chemicalRules, List.exists_mem_cons_iff]
      decide
    exact (mapped_encodable _ _ _ _ happly).1 (fun r hr => by simp [hr]) rfl rfl
      (fun hchem => absurd hchem hchemical)
  · have happly : applyMappings incrementalType4IRules (field ⟨200130⟩ .ML) =
        (.ok (some { valuesScaleFactor := none }),
          (applyMappings incrementalType4IRules (field ⟨200130⟩ .ML)).2) := Prod.ext rfl rfl
    exact (mapped_encodable _ _ _ _ happly).2 (fun r hr => hr) (.inl rfl)

end Multio.Mars2Mars
