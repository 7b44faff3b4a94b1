import Multio.Mars2Grib.Rules

namespace Multio.Mars2Grib

open Datamod

namespace RuleTree

variable {Conf : Type}

def AppliesAtMostOne (record : FullMarsRecord) (list : RuleTree Conf) : Prop :=
  ∀ conf, DynRule.countApplied record conf (list.elements.map toDynRule) ≤ 1

theorem appliesAtMostOne {name : String} {rules : List (RuleTree Conf)}
    (h : (RuleTree.exclusiveRuleList name rules).unambiguous) (record : FullMarsRecord) :
    AppliesAtMostOne record (.exclusiveRuleList name rules) := by
  rw [unambiguous, Bool.and_eq_true] at h
  intro conf
  exact (DynRule.countApplied_le conf _).trans (countP_applies_le_one h.2 record)

end RuleTree

namespace Rules

open RuleTree

theorem allRules_unambiguous : allRules.unambiguous := by decide +kernel

def exclusiveLists : List (RuleTree SectionsConf) :=
  [gridRules, localSectionRules, processTypesRules, horizontalRules, paramSFCRules, paramHLRules,
    paramMLRules, paramPLRules, paramPLTail, paramPTRules, paramPVRules, paramSOLRules,
    paramAlRules, satelliteRules, packingRules]

theorem exclusiveLists_unambiguous : ∀ list ∈ exclusiveLists, list.unambiguous := by
  have hall := allRules_unambiguous
  simp only [allRules, unambiguous, allUnambiguous, Bool.and_eq_true, and_true] at hall
  obtain ⟨hgrid, hlocal, hprocess, hhorizontal, hsatellite, hpacking⟩ := hall
  have hparams := hhorizontal
  simp only [horizontalRules, rule, unambiguous, allUnambiguous, Bool.and_eq_true, true_and,
    and_true] at hparams
  obtain ⟨⟨hSFC, hHL, hML, hPL, hPT, hPV, hSOL, hAl⟩, -⟩ := hparams
  have htail := hPL
  simp only [paramPLRules, plLevelRules, rule, unambiguous, allUnambiguous, Bool.and_eq_true,
    true_and, and_true, and_self] at htail
  simp only [exclusiveLists, List.forall_mem_cons]
  exact ⟨hgrid, hlocal, hprocess, hhorizontal, hSFC, hHL, hML, hPL, htail.1, hPT, hPV, hSOL, hAl,
    hsatellite, hpacking, by simp⟩

theorem exclusiveLists_applyAtMostOne (record : FullMarsRecord) :
    ∀ list ∈ exclusiveLists, AppliesAtMostOne record list := by
  intro list hlist
  have h := exclusiveLists_unambiguous list hlist
  simp only [exclusiveLists, List.mem_cons, List.not_mem_nil, or_false] at hlist
  rcases hlist with rfl | rfl | rfl | rfl | rfl | rfl | rfl | rfl | rfl | rfl | rfl | rfl | rfl |
    rfl | rfl <;> exact appliesAtMostOne h record

/-- Whatever the record, the rules are never found to be ambiguous: no call of the tree throws
because several rules apply, and of each list at most one element applies. -/
theorem rules_never_ambiguous (record : FullMarsRecord) :
    DynRule.NeverMultiple record allRules.toDynRule ∧
      ∀ list ∈ exclusiveLists, AppliesAtMostOne record list := by
  constructor
  · exact DynRule.neverMultiple_of_exclusive _
      (exclusive_of_unambiguous allRules allRules_unambiguous record)
  · exact exclusiveLists_applyAtMostOne record

end Rules
end Multio.Mars2Grib
