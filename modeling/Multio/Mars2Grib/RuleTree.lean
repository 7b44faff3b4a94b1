import Multio.Mars2Grib.Matcher
import Multio.Mars2Grib.RuleSemantics

namespace Multio.Mars2Grib

open Datamod Lib

namespace DynRule

variable {Record Conf : Type} (record : Record)

mutual

def Exclusive : DynRule Record Conf → Prop
  | .rule _ _ => True
  | .exclusiveRuleList _ rules => ExclusiveOf rules ∧ rules.countP (applies record) ≤ 1
  | .chainedRuleList rules => ExclusiveOf rules

def ExclusiveOf : List (DynRule Record Conf) → Prop
  | [] => True
  | r :: rules => Exclusive r ∧ ExclusiveOf rules

end

def NeverMultiple (t : DynRule Record Conf) : Prop :=
  ∀ conf conf' first second keys,
    t.apply record conf ≠ (.error (.multipleRulesApply first second keys), conf')

variable {record}

theorem exclusiveOf_iff (rules : List (DynRule Record Conf)) :
    ExclusiveOf record rules ↔ ∀ r ∈ rules, Exclusive record r := by
  induction rules with
  | nil => simp [ExclusiveOf]
  | cons r rules ih => rw [ExclusiveOf, ih, List.forall_mem_cons]

theorem applies_of_apply {t : DynRule Record Conf} {conf conf' : Conf} {b : Bool}
    (h : t.apply record conf = (.ok b, conf')) : applies record t = b :=
  (of_apply_ok h).1.symm

theorem applyExclusive_neverMultiple (rules : List (DynRule Record Conf))
    (hrules : ∀ r ∈ rules, NeverMultiple record r) (appliedRule : Option (DynRule Record Conf))
    (hcount : rules.countP (applies record) + appliedRule.isSome.toNat ≤ 1)
    (conf conf' : Conf) (first second : DynRule Record Conf) (keys : Record) :
    applyExclusive record rules appliedRule conf ≠
      (.error (.multipleRulesApply first second keys), conf') := by
  induction rules generalizing appliedRule conf with
  | nil =>
    rw [applyExclusive]
    exact fun h => by cases h
  | cons r rules ih =>
    rw [List.forall_mem_cons] at hrules
    rw [List.countP_cons] at hcount
    rw [applyExclusive]
    split
    · rename_i e conf'' happly
      intro h
      apply hrules.1 conf conf' first second keys
      rw [happly]
      exact h
    · rename_i conf'' happly
      apply ih hrules.2
      omega
    · rename_i conf'' happly
      rw [applies_of_apply happly, if_pos rfl] at hcount
      cases appliedRule with
      | some applied =>
        rw [Option.isSome_some, Bool.toNat_true] at hcount
        omega
      | none =>
        apply ih hrules.2
        simpa using hcount

theorem applyChained_neverMultiple (all rules : List (DynRule Record Conf))
    (hrules : ∀ r ∈ rules, NeverMultiple record r) (i : ℕ) (conf conf' : Conf)
    (first second : DynRule Record Conf) (keys : Record) :
    applyChained record all rules i conf ≠
      (.error (.multipleRulesApply first second keys), conf') := by
  induction rules generalizing i conf with
  | nil =>
    rw [applyChained]
    exact fun h => by cases h
  | cons r rules ih =>
    rw [List.forall_mem_cons] at hrules
    rw [applyChained]
    split
    · rename_i e conf'' happly
      intro h
      apply hrules.1 conf conf' first second keys
      rw [happly]
      exact h
    · exact ih hrules.2 (i + 1) _
    · split
      · exact fun h => by cases h
      · exact fun h => by cases h

theorem neverMultiple_of_exclusive (t : DynRule Record Conf) (h : Exclusive record t) :
    NeverMultiple record t := by
  induction t using DynRule.induction with
  | rule matcher setter =>
    intro conf conf' first second keys
    rw [apply]
    split <;> exact fun h => by cases h
  | exclusiveRuleList name rules ih =>
    rw [Exclusive, exclusiveOf_iff] at h
    intro conf conf' first second keys
    rw [apply]
    exact applyExclusive_neverMultiple rules (fun r hr => ih r hr (h.1 r hr)) none
      (by simpa using h.2) conf conf' first second keys
  | chainedRuleList rules ih =>
    rw [Exclusive, exclusiveOf_iff] at h
    intro conf conf' first second keys
    rw [apply]
    exact applyChained_neverMultiple rules rules (fun r hr => ih r hr (h r hr)) 0 conf conf'
      first second keys

/-- How many of the rules return true when they are called with the configuration. -/
def countApplied (record : Record) (conf : Conf) (rules : List (DynRule Record Conf)) : ℕ :=
  rules.countP fun r => (r.apply record conf).1.toOption == some true

theorem countApplied_le (conf : Conf) (rules : List (DynRule Record Conf)) :
    countApplied record conf rules ≤ rules.countP (applies record) := by
  apply List.countP_mono_left
  intro r _ h
  cases happly : r.apply record conf with
  | mk result conf' =>
    rw [happly] at h
    cases result with
    | error e => exact absurd h (by simp [Except.toOption])
    | ok b =>
      rw [applies_of_apply happly]
      simpa [Except.toOption] using h

end DynRule

namespace Matcher

/-- The parameters of the rules are below `2 ^ 19`. -/
def paramPivots : Pivots ℤ := Pivots.halving 19 0

/-- Each matcher is on the parameter and no parameter meets two of them. -/
def separated (matchers : List Matcher) : Bool :=
  (matchers.all fun m => (m.alternatives KeyTest.params).isSome) &&
    Stretch.separated paramPivots
      (Stretch.number 0 (matchers.map fun m => (m.alternatives KeyTest.params).getD []))

def contradictory : List Matcher → Bool
  | [] => true
  | m :: matchers => (matchers.all fun m' => m.contradicts KeyTest.clash m') &&
      contradictory matchers

def exclusive (matchers : List Matcher) : Bool := separated matchers || contradictory matchers

def ExclusiveAt (record : FullMarsRecord) (matchers : List Matcher) : Prop :=
  matchers.Pairwise fun m m' => ¬ (m.apply record ∧ m'.apply record)

theorem meets_params {record : FullMarsRecord} (test : KeyTest) (intervals : List (ℤ × ℤ))
    (h : test.params = some intervals) (htest : test.matchesRecord record) :
    ∃ i ∈ intervals, ∃ p ∈ (record .param).visit, i.1 ≤ p.id ∧ p.id ≤ i.2 := by
  unfold KeyTest.params at h
  split at h
  · rename_i values
    obtain rfl := Option.some.inj h
    rw [KeyTest.matchesRecord] at htest
    cases hp : (record .param).visit with
    | none => simp [hp, KeyMatcher.matchesValue] at htest
    | some p =>
      have hmem : p ∈ values := by simpa [hp, KeyMatcher.matchesValue] using htest
      exact ⟨_, List.mem_map.mpr ⟨p, hmem, rfl⟩, p, rfl, le_rfl, le_rfl⟩
  · rename_i parts
    obtain rfl := Option.some.inj h
    rw [KeyTest.matchesRecord] at htest
    cases hp : (record .param).visit with
    | none => simp [hp, KeyMatcher.matchesValue] at htest
    | some p =>
      have hany : ∃ a b, (a, b) ∈ parts ∧ a.id ≤ p.id ∧ p.id ≤ b.id := by
        simpa [hp, KeyMatcher.matchesValue] using htest
      obtain ⟨a, b, hr, hfirst, hlast⟩ := hany
      exact ⟨_, List.mem_map.mpr ⟨(a, b), hr, rfl⟩, p, rfl, hfirst, hlast⟩
  · cases h

theorem exclusiveAt_of_separated {matchers : List Matcher} (h : separated matchers)
    (record : FullMarsRecord) : ExclusiveAt record matchers := by
  rw [separated, Bool.and_eq_true, List.all_eq_true] at h
  obtain ⟨hsome, hseparated⟩ := h
  have hpairwise := List.pairwise_map.mp (Stretch.pairwise_of_separated hseparated)
  refine List.Pairwise.imp_of_mem ?_ hpairwise
  rintro m m' hm hm' hdisjoint ⟨happly, happly'⟩
  obtain ⟨intervals, hintervals⟩ := Option.isSome_iff_exists.mp (hsome m hm)
  obtain ⟨intervals', hintervals'⟩ := Option.isSome_iff_exists.mp (hsome m' hm')
  obtain ⟨i, hi, p, hp, hle⟩ := m.exists_of_alternatives meets_params hintervals happly
  obtain ⟨i', hi', p', hp', hle'⟩ := m'.exists_of_alternatives meets_params hintervals' happly'
  obtain rfl : p = p' := Option.some.inj (hp.symm.trans hp')
  apply hdisjoint p.id
  rw [hintervals, hintervals']
  exact ⟨⟨i, hi, hle⟩, ⟨i', hi', hle'⟩⟩

theorem exclusiveAt_of_contradictory {matchers : List Matcher} (h : contradictory matchers)
    (record : FullMarsRecord) : ExclusiveAt record matchers := by
  induction matchers with
  | nil => exact List.Pairwise.nil
  | cons m matchers ih =>
    rw [contradictory, Bool.and_eq_true, List.all_eq_true] at h
    rw [ExclusiveAt, List.pairwise_cons]
    constructor
    · rintro m' hm' ⟨happly, happly'⟩
      exact Formula.not_eval_of_contradicts KeyTest.not_matches_of_clash happly m' (h.1 m' hm')
        happly'
    · exact ih h.2

theorem exclusiveAt_of_exclusive {matchers : List Matcher} (h : exclusive matchers)
    (record : FullMarsRecord) : ExclusiveAt record matchers := by
  rw [exclusive, Bool.or_eq_true] at h
  exact h.elim (fun h => exclusiveAt_of_separated h record)
    (fun h => exclusiveAt_of_contradictory h record)

theorem countP_le_one {α : Type} {p : α → Bool} {l : List α}
    (h : l.Pairwise fun a b => ¬ (p a ∧ p b)) : l.countP p ≤ 1 := by
  induction l with
  | nil => simp
  | cons a l ih =>
    rw [List.pairwise_cons] at h
    rw [List.countP_cons]
    cases hp : p a with
    | false => simpa using ih h.2
    | true =>
      have hzero : l.countP p = 0 := by
        rw [List.countP_eq_zero]
        exact fun b hb hpb => h.1 b hb ⟨hp, hpb⟩
      rw [hzero]
      simp

end Matcher

inductive RuleTree (Conf : Type)
  | rule (matcher : Matcher) (setter : Conf → Conf)
  | exclusiveRuleList (name : String) (rules : List (RuleTree Conf))
  | chainedRuleList (rules : List (RuleTree Conf))

namespace RuleTree

variable {Conf : Type}

@[elab_as_elim]
theorem induction {motive : RuleTree Conf → Prop}
    (rule : ∀ matcher setter, motive (.rule matcher setter))
    (exclusiveRuleList : ∀ name rules, (∀ r ∈ rules, motive r) →
      motive (.exclusiveRuleList name rules))
    (chainedRuleList : ∀ rules, (∀ r ∈ rules, motive r) → motive (.chainedRuleList rules))
    (t : RuleTree Conf) : motive t := by
  refine @RuleTree.rec _ motive (fun rules => ∀ r ∈ rules, motive r)
    rule exclusiveRuleList chainedRuleList ?_ ?_ t
  · simp
  · intro head tail hhead htail
    simpa using ⟨hhead, htail⟩

mutual

def toDynRule : RuleTree Conf → DynRule FullMarsRecord Conf
  | .rule matcher setter => .rule (fun record => matcher.apply record) setter
  | .exclusiveRuleList name rules => .exclusiveRuleList name (toDynRules rules)
  | .chainedRuleList rules => .chainedRuleList (toDynRules rules)

def toDynRules : List (RuleTree Conf) → List (DynRule FullMarsRecord Conf)
  | [] => []
  | r :: rules => toDynRule r :: toDynRules rules

end

mutual

def guard : RuleTree Conf → Matcher
  | .rule matcher _ => matcher
  | .exclusiveRuleList _ rules => .any (guards rules)
  | .chainedRuleList rules => .all (guards rules)

def guards : List (RuleTree Conf) → List Matcher
  | [] => []
  | r :: rules => guard r :: guards rules

end

def elements : RuleTree Conf → List (RuleTree Conf)
  | .rule _ _ => []
  | .exclusiveRuleList _ rules | .chainedRuleList rules => rules

theorem toDynRules_eq (rules : List (RuleTree Conf)) : toDynRules rules = rules.map toDynRule := by
  induction rules with
  | nil => rfl
  | cons r rules ih => rw [toDynRules, ih, List.map_cons]

theorem guards_eq (rules : List (RuleTree Conf)) : guards rules = rules.map guard := by
  induction rules with
  | nil => rfl
  | cons r rules ih => rw [guards, ih, List.map_cons]

theorem applies_toDynRule (record : FullMarsRecord) (t : RuleTree Conf) :
    t.toDynRule.applies record = t.guard.apply record := by
  induction t using RuleTree.induction with
  | rule matcher setter => rw [toDynRule, DynRule.applies, guard]
  | exclusiveRuleList name rules ih =>
    rw [toDynRule, DynRule.applies, DynRule.anyApplies_eq, toDynRules_eq, guard, Matcher.apply,
      Formula.eval_any, guards_eq, List.any_map, List.any_map, Bool.eq_iff_iff, List.any_eq_true,
      List.any_eq_true]
    refine exists_congr fun r => and_congr_right fun hr => ?_
    rw [Function.comp_apply, ih r hr]
    rfl
  | chainedRuleList rules ih =>
    rw [toDynRule, DynRule.applies, DynRule.allApply_eq, toDynRules_eq, guard, Matcher.apply,
      Formula.eval_all, guards_eq, List.all_map, List.all_map, Bool.eq_iff_iff, List.all_eq_true,
      List.all_eq_true]
    refine forall₂_congr fun r hr => ?_
    rw [Function.comp_apply, ih r hr]
    rfl

mutual

def unambiguous : RuleTree Conf → Bool
  | .rule _ _ => true
  | .exclusiveRuleList _ rules => allUnambiguous rules && Matcher.exclusive (guards rules)
  | .chainedRuleList rules => allUnambiguous rules

def allUnambiguous : List (RuleTree Conf) → Bool
  | [] => true
  | r :: rules => unambiguous r && allUnambiguous rules

end

theorem allUnambiguous_iff (rules : List (RuleTree Conf)) :
    allUnambiguous rules ↔ ∀ r ∈ rules, r.unambiguous := by
  induction rules with
  | nil => simp [allUnambiguous]
  | cons r rules ih => rw [allUnambiguous, Bool.and_eq_true, ih, List.forall_mem_cons]

theorem countP_applies_le_one {rules : List (RuleTree Conf)}
    (h : Matcher.exclusive (guards rules)) (record : FullMarsRecord) :
    (rules.map toDynRule).countP (DynRule.applies record) ≤ 1 := by
  have hpairwise := Matcher.exclusiveAt_of_exclusive h record
  rw [Matcher.ExclusiveAt, guards_eq, List.pairwise_map] at hpairwise
  apply Matcher.countP_le_one
  rw [List.pairwise_map]
  simpa only [applies_toDynRule] using hpairwise

theorem exclusive_of_unambiguous (t : RuleTree Conf) (h : t.unambiguous)
    (record : FullMarsRecord) : t.toDynRule.Exclusive record := by
  induction t using RuleTree.induction with
  | rule matcher setter =>
    rw [toDynRule, DynRule.Exclusive]
    trivial
  | exclusiveRuleList name rules ih =>
    rw [unambiguous, Bool.and_eq_true, allUnambiguous_iff] at h
    rw [toDynRule, DynRule.Exclusive, DynRule.exclusiveOf_iff, toDynRules_eq, List.forall_mem_map]
    exact ⟨fun r hr => ih r hr (h.1 r hr), countP_applies_le_one h.2 record⟩
  | chainedRuleList rules ih =>
    rw [unambiguous, allUnambiguous_iff] at h
    rw [toDynRule, DynRule.Exclusive, DynRule.exclusiveOf_iff, toDynRules_eq, List.forall_mem_map]
    exact fun r hr => ih r hr (h r hr)

end RuleTree

end Multio.Mars2Grib
