import Multio.Mars2Grib.RuleCoverage
import Multio.Mars2Grib.RuleSelection

namespace Multio.Mars2Grib.Rules

open Datamod Lib RuleTree

/-- A satellite product that is no ensemble mean or standard deviation and that no other key
has a template of the local section for. -/
def MissesLocalSection (record : FullMarsRecord) : Prop :=
  (record .anoffset).visit = none ∧ (record .klass).visit ≠ some "d1" ∧
    (record .method).visit = none ∧ (record .channel).visit ≠ none ∧
    (record .type).visit ≠ some "em" ∧ (record .type).visit ≠ some "es"

instance (record : FullMarsRecord) : Decidable (MissesLocalSection record) :=
  inferInstanceAs (Decidable (_ ∧ _))

theorem guard_apply_of_mem {record : FullMarsRecord} {rules : List (RuleTree SectionsConf)}
    (h : Accepts record (.chainedRuleList rules)) {r : RuleTree SectionsConf} (hr : r ∈ rules) :
    r.guard.apply record := by
  obtain ⟨-, happly⟩ := (accepts_iff _ ⟨{}⟩).mp h
  exact guard_of_mem_chained hr happly

theorem localSectionRules_apply_iff (record : FullMarsRecord) :
    localSectionRules.guard.apply record ↔ ¬ MissesLocalSection record := by
  simp only [MissesLocalSection, localSectionRules, Rules.rule, RuleTree.guard, RuleTree.guards,
    Matcher.apply, Matcher.missing, Matcher.has, Matcher.oneOf, Matcher.noneOf, Formula.eval_any,
    Formula.eval_all, Formula.eval_atom, List.any_cons, List.any_nil, List.all_cons, List.all_nil,
    KeyTest.matchesRecord]
  -- every key is set or not, and three of them may have the values that are looked for
  generalize (record .anoffset).visit = anoffset
  generalize (record .klass).visit = klass
  generalize (record .method).visit = method
  generalize (record .channel).visit = channel
  generalize (record .type).visit = type
  cases anoffset <;> cases klass <;> cases method <;> cases channel <;> cases type <;>
    simp [KeyMatcher.matchesValue] <;> tauto

/-- A local section is found for all records but the satellite products that the rules leave
out, and those are not encoded. -/
theorem localSection_iff (record : FullMarsRecord) :
    (AppliesExactlyOne record localSectionRules ↔ ¬ MissesLocalSection record) ∧
      (MissesLocalSection record → ¬ Accepts record allRules) := by
  rw [← localSectionRules_apply_iff]
  constructor
  · have hunambiguous : localSectionRules.unambiguous :=
      exclusiveLists_unambiguous _ (by simp [exclusiveLists])
    have hnone : Facts.MetBy record {} := ⟨by simp, by simp⟩
    exact appliesExactlyOne_iff_of_quiet hnone hunambiguous (by decide) ⟨{}⟩
  · intro hmisses haccepts
    have happly := guard_apply_of_mem haccepts (r := localSectionRules) (by simp)
    exact (localSectionRules_apply_iff record).mp happly hmisses

/-- A cloudy brightness temperature of one channel, from a forecast. -/
def singleSatellite : FullMarsRecord
  | .param => .value ⟨260510⟩
  | .levtype => .value .SFC
  | .klass => .value "od"
  | .type => .value "fc"
  | .channel => .value (7 : ℤ)
  | .repres => .value .GG
  | .packing => .value "ccsds"
  | _ => .unset

/-- All other rules accept it, and none for its local section applies. -/
theorem localSection_missed :
    (∀ list ∈ [gridRules, processTypesRules, horizontalRules, satelliteRules, packingRules],
      Accepts singleSatellite list) ∧
      (∀ conf, DynRule.countApplied singleSatellite conf
        (localSectionRules.elements.map toDynRule) = 0) ∧
      ¬ Accepts singleSatellite allRules := by
  refine ⟨?_, ?_, ?_⟩
  · have hfacts : Facts.MetBy singleSatellite
        { param := some ⟨260510⟩
          others := [⟨.levtype, .oneOf [.SFC]⟩, ⟨.type, .oneOf ["fc"]⟩, ⟨.channel, .has⟩,
            ⟨.number, .missing⟩, ⟨.hdate, .missing⟩, ⟨.repres, .oneOf [.GG]⟩,
            ⟨.packing, .oneOf ["ccsds"]⟩] } :=
      ⟨by decide, by decide⟩
    have hlists := exclusiveLists_unambiguous
    simp only [exclusiveLists, List.forall_mem_cons] at hlists
    simp only [List.forall_mem_cons]
    exact ⟨accepts_of_covers hfacts hlists.1 (by decide),
      accepts_of_covers hfacts hlists.2.2.1 (by decide),
      accepts_of_covers hfacts hlists.2.2.2.1 (by decide),
      accepts_of_covers hfacts hlists.2.2.2.2.2.2.2.2.2.2.2.2.2.1 (by decide),
      accepts_of_covers hfacts hlists.2.2.2.2.2.2.2.2.2.2.2.2.2.2.1 (by decide), by simp⟩
  · intro conf
    rfl
  · intro haccepts
    have hlocal : localSectionRules.guard.apply singleSatellite = false := by decide
    exact Bool.false_ne_true (hlocal.symm.trans (guard_apply_of_mem haccepts (by simp)))

end Multio.Mars2Grib.Rules
