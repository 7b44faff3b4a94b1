import Multio.Mars2Grib.RuleExclusivity

namespace Multio.Mars2Grib

open Datamod Lib

/-- What is known of a record: its parameter, and tests on other keys that it meets. -/
structure Facts where
  param : Option Param := none
  others : List KeyTest := []

namespace Facts

structure MetBy (record : FullMarsRecord) (facts : Facts) : Prop where
  param : ∀ p ∈ facts.param, (record .param).visit = some p
  others : ∀ test ∈ facts.others, test.matchesRecord record

def implyTest : List KeyTest → KeyTest → Bool
  | [], _ => false
  | fact :: facts, test =>
    if h : test.member = fact.member then fact.matcher.implies (h ▸ test.matcher)
    else implyTest facts test

/-- The rules have many parameters: only their numbers are compared. -/
def imply (facts : Facts) : KeyTest → Bool
  | ⟨.param, .oneOf values⟩ => facts.param.any fun p => values.any fun v => v.id = p.id
  | ⟨.param, .ranges parts⟩ =>
    facts.param.any fun p => parts.any fun r => r.1.id ≤ p.id ∧ p.id ≤ r.2.id
  | test => implyTest facts.others test

def refute (facts : Facts) (m : Matcher) : Bool :=
  facts.others.any fun fact => m.refutedBy KeyTest.clash fact

variable {record : FullMarsRecord} {facts : Facts}

theorem matches_of_implyTest {tests : List KeyTest}
    (htests : ∀ test ∈ tests, test.matchesRecord record) {test : KeyTest}
    (h : implyTest tests test) : test.matchesRecord record := by
  induction tests with
  | nil => exact absurd h Bool.false_ne_true
  | cons fact tests ih =>
    rw [List.forall_mem_cons] at htests
    rw [implyTest] at h
    split at h
    · rename_i heq
      obtain ⟨member, matcher⟩ := fact
      obtain ⟨member', matcher'⟩ := test
      obtain rfl : member' = member := heq
      exact KeyMatcher.matches_of_implies matcher matcher' h _ htests.1
    · exact ih htests.2 h

theorem matches_of_imply (hfacts : facts.MetBy record) {test : KeyTest} (h : facts.imply test) :
    test.matchesRecord record := by
  unfold imply at h
  split at h
  · rename_i values
    obtain ⟨p, hp, hany⟩ := (Option.any_eq_true _ _).mp h
    obtain ⟨v, hv, hid⟩ := List.any_eq_true.mp hany
    obtain rfl : v = p := by
      cases v
      cases p
      simpa using hid
    rw [KeyTest.matchesRecord, hfacts.param v hp]
    simpa [KeyMatcher.matchesValue] using hv
  · rename_i parts
    obtain ⟨p, hp, hany⟩ := (Option.any_eq_true _ _).mp h
    rw [KeyTest.matchesRecord, hfacts.param p hp]
    simpa [KeyMatcher.matchesValue] using hany
  · exact matches_of_implyTest hfacts.others h

theorem apply_of_sure (hfacts : facts.MetBy record) {m : Matcher} (h : m.sure facts.imply) :
    m.apply record :=
  Formula.eval_of_sure (fun _ htest => matches_of_imply hfacts htest) m h

theorem not_apply_of_refute (hfacts : facts.MetBy record) {m : Matcher} (h : facts.refute m) :
    ¬ m.apply record := by
  obtain ⟨fact, hfact, hrefuted⟩ := List.any_eq_true.mp h
  exact Formula.not_eval_of_refutedBy KeyTest.not_matches_of_clash (hfacts.others fact hfact) m
    hrefuted

end Facts

namespace RuleTree

variable {Conf : Type}

def Accepts (record : FullMarsRecord) (t : RuleTree Conf) : Prop :=
  ∀ conf, ∃ conf', t.toDynRule.apply record conf = (.ok true, conf')

def AppliesExactlyOne (record : FullMarsRecord) (list : RuleTree Conf) : Prop :=
  ∀ conf, DynRule.countApplied record conf (list.elements.map toDynRule) = 1

def NeverFails (record : FullMarsRecord) (t : RuleTree Conf) : Prop :=
  DynRule.fails record t.toDynRule = false

variable {record : FullMarsRecord}

theorem accepts_iff (t : RuleTree Conf) (hconf : Nonempty Conf) :
    Accepts record t ↔ NeverFails record t ∧ t.guard.apply record = true := by
  rw [NeverFails, ← applies_toDynRule]
  constructor
  · intro h
    obtain ⟨conf⟩ := hconf
    obtain ⟨conf', happly⟩ := h conf
    refine ⟨?_, DynRule.applies_of_apply happly⟩
    by_contra hfails
    obtain ⟨e, conf'', herror⟩ := (DynRule.meets t.toDynRule conf).2 (by simpa using hfails)
    rw [happly] at herror
    cases herror
  · rintro ⟨hfails, happlies⟩ conf
    exact ⟨_, by rw [(DynRule.meets t.toDynRule conf).1 hfails, happlies]⟩

theorem neverFails_rule (m : Matcher) (setter : Conf → Conf) :
    NeverFails record (.rule m setter) := by
  rw [NeverFails, toDynRule, DynRule.fails]

theorem neverFails_exclusiveRuleList {name : String} {rules : List (RuleTree Conf)}
    (hexclusive : Matcher.exclusive (guards rules)) (h : ∀ r ∈ rules, NeverFails record r) :
    NeverFails record (.exclusiveRuleList name rules) := by
  have hcount := countP_applies_le_one hexclusive record
  rw [NeverFails, toDynRule, DynRule.fails, toDynRules_eq, Bool.or_eq_false_iff]
  constructor
  · rw [DynRule.anyFails_eq, List.any_map, List.any_eq_false]
    exact fun r hr => Bool.eq_false_iff.mp (h r hr)
  · exact decide_eq_false (by omega)

theorem neverFails_of_head {head : RuleTree Conf} (tail : List (RuleTree Conf))
    (hfails : NeverFails record head) (happly : ¬ head.guard.apply record) :
    NeverFails record (.chainedRuleList (head :: tail)) := by
  rw [← applies_toDynRule, Bool.not_eq_true] at happly
  rw [NeverFails] at hfails
  rw [NeverFails, toDynRule, toDynRules, DynRule.fails, DynRule.chainFails, hfails, happly]
  rfl

theorem neverFails_chainedRuleList {rules : List (RuleTree Conf)}
    (hfails : ∀ r ∈ rules, NeverFails record r) (happly : ∀ r ∈ rules, r.guard.apply record) :
    NeverFails record (.chainedRuleList rules) := by
  induction rules with
  | nil => rfl
  | cons r rules ih =>
    rw [List.forall_mem_cons] at hfails happly
    have hany : (rules.map toDynRule).any (DynRule.fails record) = false := by
      rw [List.any_map, List.any_eq_false]
      exact fun r hr => Bool.eq_false_iff.mp (hfails.2 r hr)
    have hall : (rules.map toDynRule).all (DynRule.applies record) = true := by
      rw [List.all_map, List.all_eq_true]
      exact fun r hr => (applies_toDynRule record r).trans (happly.2 r hr)
    have hhead := hfails.1
    rw [NeverFails] at hhead
    rw [NeverFails, toDynRule, toDynRules, DynRule.fails, DynRule.chainFails, hhead,
      toDynRules_eq, DynRule.anyFails_eq, DynRule.allApply_eq, hany, hall]
    simp

/-- Where no element throws, the elements that return true are those that apply. -/
theorem countApplied_eq {rules : List (RuleTree Conf)} (h : ∀ r ∈ rules, NeverFails record r)
    (conf : Conf) : DynRule.countApplied record conf (rules.map toDynRule) =
      (guards rules).countP fun m => m.apply record := by
  rw [DynRule.countApplied, guards_eq, List.countP_map, List.countP_map]
  apply List.countP_congr
  intro r hr
  rw [Function.comp_apply, Function.comp_apply, (DynRule.meets r.toDynRule conf).1 (h r hr),
    applies_toDynRule]
  simp [Except.toOption]

theorem appliesExactlyOne_iff {name : String} {rules : List (RuleTree Conf)}
    (hunambiguous : (RuleTree.exclusiveRuleList name rules).unambiguous)
    (h : ∀ r ∈ rules, NeverFails record r) (hconf : Nonempty Conf) :
    AppliesExactlyOne record (.exclusiveRuleList name rules) ↔
      (RuleTree.exclusiveRuleList name rules).guard.apply record := by
  have hmost := appliesAtMostOne hunambiguous record
  unfold AppliesAtMostOne at hmost
  unfold AppliesExactlyOne
  simp only [elements, countApplied_eq h] at hmost ⊢
  rw [guard, Matcher.apply, Formula.eval_any, List.any_eq_true]
  constructor
  · intro hone
    have hone := hone hconf.some
    have hpos : 0 < (guards rules).countP fun m => m.apply record := by omega
    rwa [List.countP_pos_iff] at hpos
  · intro hany conf
    have hpos := List.countP_pos_iff.mpr hany
    have hmost := hmost conf
    exact le_antisymm hmost hpos

mutual

def quiet (facts : Facts) : RuleTree Conf → Bool
  | .rule _ _ => true
  | .exclusiveRuleList _ rules => allQuiet facts rules
  | .chainedRuleList [] => true
  | .chainedRuleList (head :: _) => quiet facts head && facts.refute (guard head)

def allQuiet (facts : Facts) : List (RuleTree Conf) → Bool
  | [] => true
  | r :: rules => quiet facts r && allQuiet facts rules

end

mutual

def covers (facts : Facts) : RuleTree Conf → Bool
  | .rule matcher _ => matcher.sure facts.imply
  | .exclusiveRuleList _ rules => coversOne facts rules
  | .chainedRuleList rules => coversAll facts rules

def coversOne (facts : Facts) : List (RuleTree Conf) → Bool
  | [] => false
  | r :: rules =>
    if covers facts r then allQuiet facts rules else quiet facts r && coversOne facts rules

def coversAll (facts : Facts) : List (RuleTree Conf) → Bool
  | [] => true
  | r :: rules => covers facts r && coversAll facts rules

end

theorem allQuiet_iff (facts : Facts) (rules : List (RuleTree Conf)) :
    allQuiet facts rules ↔ ∀ r ∈ rules, r.quiet facts := by
  induction rules with
  | nil => simp [allQuiet]
  | cons r rules ih => rw [allQuiet, Bool.and_eq_true, ih, List.forall_mem_cons]

theorem coversAll_iff (facts : Facts) (rules : List (RuleTree Conf)) :
    coversAll facts rules ↔ ∀ r ∈ rules, r.covers facts := by
  induction rules with
  | nil => simp [coversAll]
  | cons r rules ih => rw [coversAll, Bool.and_eq_true, ih, List.forall_mem_cons]

theorem of_coversOne {facts : Facts} {rules : List (RuleTree Conf)} (h : coversOne facts rules) :
    (∃ r ∈ rules, r.covers facts) ∧ ∀ r ∈ rules, r.covers facts ∨ r.quiet facts := by
  induction rules with
  | nil => simp [coversOne] at h
  | cons r rules ih =>
    rw [coversOne] at h
    split at h
    · rename_i hcovers
      rw [allQuiet_iff] at h
      exact ⟨⟨r, List.mem_cons_self, hcovers⟩,
        List.forall_mem_cons.mpr ⟨.inl hcovers, fun r hr => .inr (h r hr)⟩⟩
    · rw [Bool.and_eq_true] at h
      obtain ⟨⟨r', hr', hcovers⟩, hothers⟩ := ih h.2
      exact ⟨⟨r', List.mem_cons_of_mem r hr', hcovers⟩,
        List.forall_mem_cons.mpr ⟨.inr h.1, hothers⟩⟩

theorem neverFails_of_quiet {facts : Facts} (hfacts : facts.MetBy record) (t : RuleTree Conf)
    (hunambiguous : t.unambiguous) (h : t.quiet facts) : NeverFails record t := by
  induction t using RuleTree.induction with
  | rule m setter => exact neverFails_rule m setter
  | exclusiveRuleList name rules ih =>
    rw [unambiguous, Bool.and_eq_true, allUnambiguous_iff] at hunambiguous
    rw [quiet, allQuiet_iff] at h
    exact neverFails_exclusiveRuleList hunambiguous.2
      fun r hr => ih r hr (hunambiguous.1 r hr) (h r hr)
  | chainedRuleList rules ih =>
    cases rules with
    | nil => rfl
    | cons head tail =>
      rw [unambiguous, allUnambiguous_iff, List.forall_mem_cons] at hunambiguous
      rw [quiet, Bool.and_eq_true] at h
      exact neverFails_of_head tail (ih head List.mem_cons_self hunambiguous.1 h.1)
        (Facts.not_apply_of_refute hfacts h.2)

theorem of_covers {facts : Facts} (hfacts : facts.MetBy record) (t : RuleTree Conf)
    (hunambiguous : t.unambiguous) (h : t.covers facts) :
    NeverFails record t ∧ t.guard.apply record := by
  induction t using RuleTree.induction with
  | rule m setter =>
    rw [covers] at h
    exact ⟨neverFails_rule m setter, Facts.apply_of_sure hfacts h⟩
  | exclusiveRuleList name rules ih =>
    rw [unambiguous, Bool.and_eq_true, allUnambiguous_iff] at hunambiguous
    rw [covers] at h
    obtain ⟨⟨r, hr, hcovers⟩, hothers⟩ := of_coversOne h
    -- that no second rule applies is known of the list, not of the facts
    constructor
    · apply neverFails_exclusiveRuleList hunambiguous.2
      intro r hr
      rcases hothers r hr with hcovers | hquiet
      · exact (ih r hr (hunambiguous.1 r hr) hcovers).1
      · exact neverFails_of_quiet hfacts r (hunambiguous.1 r hr) hquiet
    · rw [guard, Matcher.apply, Formula.eval_any, List.any_eq_true, guards_eq]
      exact ⟨r.guard, List.mem_map_of_mem hr, (ih r hr (hunambiguous.1 r hr) hcovers).2⟩
  | chainedRuleList rules ih =>
    rw [unambiguous, allUnambiguous_iff] at hunambiguous
    rw [covers, coversAll_iff] at h
    have hrules r hr := ih r hr (hunambiguous r hr) (h r hr)
    constructor
    · exact neverFails_chainedRuleList (fun r hr => (hrules r hr).1) fun r hr => (hrules r hr).2
    · rw [guard, Matcher.apply, Formula.eval_all, List.all_eq_true, guards_eq]
      exact List.forall_mem_map.mpr fun r hr => (hrules r hr).2

theorem appliesExactlyOne_iff_of_quiet {facts : Facts} (hfacts : facts.MetBy record)
    {name : String} {rules : List (RuleTree Conf)}
    (hunambiguous : (RuleTree.exclusiveRuleList name rules).unambiguous)
    (hquiet : allQuiet facts rules) (hconf : Nonempty Conf) :
    AppliesExactlyOne record (.exclusiveRuleList name rules) ↔
      (RuleTree.exclusiveRuleList name rules).guard.apply record := by
  have hrules := hunambiguous
  rw [unambiguous, Bool.and_eq_true, allUnambiguous_iff] at hrules
  rw [allQuiet_iff] at hquiet
  apply appliesExactlyOne_iff hunambiguous _ hconf
  exact fun r hr => neverFails_of_quiet hfacts r (hrules.1 r hr) (hquiet r hr)

theorem accepts_of_covers {facts : Facts} (hfacts : facts.MetBy record) {t : RuleTree Conf}
    (hunambiguous : t.unambiguous) (h : t.covers facts) : Accepts record t := by
  obtain ⟨hfails, happly⟩ := of_covers hfacts t hunambiguous h
  intro conf
  exact (accepts_iff t ⟨conf⟩).mpr ⟨hfails, happly⟩ conf

theorem appliesExactlyOne_of_covers {facts : Facts} (hfacts : facts.MetBy record) {name : String}
    {rules : List (RuleTree Conf)}
    (hunambiguous : (RuleTree.exclusiveRuleList name rules).unambiguous)
    (h : (RuleTree.exclusiveRuleList name rules).covers facts) :
    AppliesExactlyOne record (.exclusiveRuleList name rules) := by
  have happly := (of_covers hfacts _ hunambiguous h).2
  have hrules := hunambiguous
  rw [unambiguous, Bool.and_eq_true, allUnambiguous_iff] at hrules
  rw [covers] at h
  intro conf
  refine (appliesExactlyOne_iff hunambiguous ?_ ⟨conf⟩).mpr happly conf
  intro r hr
  rcases (of_coversOne h).2 r hr with hcovers | hquiet
  · exact (of_covers hfacts r (hrules.1 r hr) hcovers).1
  · exact neverFails_of_quiet hfacts r (hrules.1 r hr) hquiet

end RuleTree

theorem Rules.matchLevType_apply_iff {record : FullMarsRecord} {levtype lt : LevType}
    (h : (record .levtype).visit = some levtype) :
    (Rules.matchLevType lt).eval (KeyTest.matchesRecord record) = decide (levtype = lt) := by
  rw [Rules.matchLevType, Matcher.oneOf, Formula.eval_atom, KeyTest.matchesRecord, h]
  simp [KeyMatcher.matchesValue]

end Multio.Mars2Grib
