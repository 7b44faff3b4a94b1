import Multio.Mars2Grib.RuleTree

namespace Multio.Mars2Grib.RuleTree

open Datamod Lib

variable {Conf : Type}

mutual

def setters : RuleTree Conf → List (Conf → Conf)
  | .rule _ setter => [setter]
  | .exclusiveRuleList _ rules | .chainedRuleList rules => settersOf rules

def settersOf : List (RuleTree Conf) → List (Conf → Conf)
  | [] => []
  | r :: rules => setters r ++ settersOf rules

end

theorem settersOf_eq (rules : List (RuleTree Conf)) : settersOf rules = rules.flatMap setters := by
  induction rules with
  | nil => rfl
  | cons r rules ih => rw [settersOf, ih, List.flatMap_cons]

theorem selected_subset (record : FullMarsRecord) (t : RuleTree Conf) :
    t.toDynRule.selected record ⊆ t.setters := by
  have hlist : ∀ rules : List (RuleTree Conf),
      (∀ r ∈ rules, r.toDynRule.selected record ⊆ r.setters) →
      DynRule.selectedOf record (toDynRules rules) ⊆ settersOf rules := by
    intro rules h
    rw [DynRule.selectedOf_eq, toDynRules_eq, settersOf_eq, List.flatMap_map]
    intro s hs
    obtain ⟨r, hr, hmem⟩ := List.mem_flatMap.mp hs
    exact List.mem_flatMap.mpr ⟨r, hr, h r hr hmem⟩
  induction t using RuleTree.induction with
  | rule m setter =>
    rw [toDynRule, DynRule.selected, setters]
    split <;> simp
  | exclusiveRuleList name rules ih =>
    rw [toDynRule, DynRule.selected, setters]
    exact hlist rules ih
  | chainedRuleList rules ih =>
    rw [toDynRule, DynRule.selected, setters]
    split
    · exact hlist rules ih
    · exact List.nil_subset _

variable {record : FullMarsRecord}

theorem selected_exclusiveRuleList (name : String) (rules : List (RuleTree Conf)) :
    (RuleTree.exclusiveRuleList name rules).toDynRule.selected record =
      rules.flatMap fun r => r.toDynRule.selected record := by
  rw [toDynRule, DynRule.selected, DynRule.selectedOf_eq, toDynRules_eq, List.flatMap_map]

theorem selected_chainedRuleList {rules : List (RuleTree Conf)}
    (h : (RuleTree.chainedRuleList rules).guard.apply record) :
    (RuleTree.chainedRuleList rules).toDynRule.selected record =
      rules.flatMap fun r => r.toDynRule.selected record := by
  rw [← applies_toDynRule, toDynRule, DynRule.applies] at h
  rw [toDynRule, DynRule.selected, if_pos h, DynRule.selectedOf_eq, toDynRules_eq,
    List.flatMap_map]

theorem selected_of_not_guard {t : RuleTree Conf} (h : ¬ t.guard.apply record) :
    t.toDynRule.selected record = [] := by
  rw [← applies_toDynRule] at h
  exact DynRule.selected_of_not_applies _ (by simpa using h)

theorem guard_of_mem_chained {rules : List (RuleTree Conf)} {r : RuleTree Conf}
    (hr : r ∈ rules) (h : (RuleTree.chainedRuleList rules).guard.apply record) :
    r.guard.apply record := by
  rw [RuleTree.guard, Matcher.apply, Formula.eval_all, List.all_eq_true, guards_eq] at h
  exact h r.guard (List.mem_map_of_mem hr)

theorem selected_only (name : String) (before after : List (RuleTree Conf))
    (r : RuleTree Conf) (hothers : ∀ other ∈ before ++ after, ¬ other.guard.apply record) :
    (RuleTree.exclusiveRuleList name (before ++ r :: after)).toDynRule.selected record =
      r.toDynRule.selected record := by
  have hnil : ∀ rules ⊆ before ++ after,
      (rules.flatMap fun other => other.toDynRule.selected record) = [] := by
    intro rules hsub
    apply List.flatMap_eq_nil_iff.mpr
    exact fun other hother => selected_of_not_guard (hothers other (hsub hother))
  rw [selected_exclusiveRuleList, List.flatMap_append, List.flatMap_cons,
    hnil before (List.subset_append_left _ _), hnil after (List.subset_append_right _ _),
    List.nil_append, List.append_nil]

theorem guard_only (name : String) (before after : List (RuleTree Conf))
    (r : RuleTree Conf) (hothers : ∀ other ∈ before ++ after, ¬ other.guard.apply record)
    (h : (RuleTree.exclusiveRuleList name (before ++ r :: after)).guard.apply record) :
    r.guard.apply record := by
  rw [RuleTree.guard, Matcher.apply, Formula.eval_any, List.any_eq_true, guards_eq] at h
  obtain ⟨m, hm, happly⟩ := h
  obtain ⟨r', hr', rfl⟩ := List.mem_map.mp hm
  have hmem : r' ∈ before ++ after ∨ r' = r := by
    simp only [List.mem_append, List.mem_cons] at hr' ⊢
    tauto
  rcases hmem with hother | rfl
  · exact absurd happly (hothers r' hother)
  · exact happly

end Multio.Mars2Grib.RuleTree
