import Multio.Mars2Grib.RuleTree

namespace Multio.Mars2Grib

open Datamod Lib

namespace DynRule

variable {Record Conf : Type}

def effect (applied : Applied Record Conf) : Option Bool × Conf :=
  (applied.1.toOption, applied.2)

def Alike (record record' : Record) (t : DynRule Record Conf) : Prop :=
  ∀ conf, effect (t.apply record conf) = effect (t.apply record' conf)

variable {record record' : Record}

/-- A call that throws does so for both records, and one that returns does the same for both. -/
theorem alike_cases {t : DynRule Record Conf} (h : Alike record record' t) (conf : Conf) :
    (∃ b conf', t.apply record conf = (.ok b, conf') ∧ t.apply record' conf = (.ok b, conf')) ∨
      ∃ e e' conf', t.apply record conf = (.error e, conf') ∧
        t.apply record' conf = (.error e', conf') := by
  have hconf := h conf
  rw [effect, effect, Prod.mk.injEq] at hconf
  cases happly : t.apply record conf with
  | mk result conf' =>
    cases happly' : t.apply record' conf with
    | mk result' conf'' =>
      rw [happly, happly'] at hconf
      obtain ⟨hresult, rfl⟩ := hconf
      cases result with
      | ok b =>
        cases result' with
        | ok b' =>
          obtain rfl : b = b' := Option.some.inj hresult
          exact .inl ⟨b, conf', rfl, rfl⟩
        | error e' => cases hresult
      | error e =>
        cases result' with
        | ok b' => cases hresult
        | error e' => exact .inr ⟨e, e', conf', rfl, rfl⟩

theorem applyExclusive_alike (rules : List (DynRule Record Conf))
    (h : ∀ r ∈ rules, Alike record record' r) (appliedRule : Option (DynRule Record Conf))
    (conf : Conf) :
    effect (applyExclusive record rules appliedRule conf) =
      effect (applyExclusive record' rules appliedRule conf) := by
  induction rules generalizing appliedRule conf with
  | nil => rfl
  | cons r rules ih =>
    rw [List.forall_mem_cons] at h
    rw [applyExclusive, applyExclusive]
    rcases alike_cases h.1 conf with ⟨b, conf', happly, happly'⟩ | ⟨e, e', conf', happly, happly'⟩
    · rw [happly, happly']
      cases b with
      | false => exact ih h.2 appliedRule conf'
      | true =>
        cases appliedRule with
        | none => exact ih h.2 (some r) conf'
        | some first => rfl
    · rw [happly, happly']
      rfl

theorem applyChained_alike (all rules : List (DynRule Record Conf))
    (h : ∀ r ∈ rules, Alike record record' r) (i : ℕ) (conf : Conf) :
    effect (applyChained record all rules i conf) =
      effect (applyChained record' all rules i conf) := by
  induction rules generalizing i conf with
  | nil => rfl
  | cons r rules ih =>
    rw [List.forall_mem_cons] at h
    rw [applyChained, applyChained]
    rcases alike_cases h.1 conf with ⟨b, conf', happly, happly'⟩ | ⟨e, e', conf', happly, happly'⟩
    · rw [happly, happly']
      cases b with
      | true => exact ih h.2 (i + 1) conf'
      | false =>
        simp only
        split <;> rfl
    · rw [happly, happly']
      rfl

theorem alike_of_head {head : DynRule Record Conf} (tail : List (DynRule Record Conf))
    (h : Alike record record' head) (hnot : applies record head = false) :
    Alike record record' (.chainedRuleList (head :: tail)) := by
  intro conf
  rw [apply, apply, applyChained, applyChained]
  rcases alike_cases h conf with ⟨b, conf', happly, happly'⟩ | ⟨e, e', conf', happly, happly'⟩
  · obtain rfl : false = b := hnot.symm.trans (applies_of_apply happly)
    rw [happly, happly']
    rfl
  · rw [happly, happly']
    rfl

end DynRule

/-- The records have the same values of all keys but the hidden ones. -/
def SameExcept (hidden : List MarsKey) (record record' : FullMarsRecord) : Prop :=
  ∀ k ∉ hidden, (record k).visit = (record' k).visit

namespace Matcher

def keys (m : Matcher) : List MarsKey := m.atoms.map KeyTest.member

def blind (hidden : List MarsKey) (m : Matcher) : Bool := m.keys.all fun k => k ∉ hidden

theorem apply_congr {hidden : List MarsKey} {record record' : FullMarsRecord} {m : Matcher}
    (h : m.blind hidden) (hsame : SameExcept hidden record record') :
    m.apply record = m.apply record' := by
  rw [blind, List.all_eq_true] at h
  apply Formula.eval_congr
  intro test htest
  have hnot : test.member ∉ hidden := by
    simpa using h test.member (List.mem_map.mpr ⟨test, htest, rfl⟩)
  rw [KeyTest.matchesRecord, KeyTest.matchesRecord, hsame _ hnot]

end Matcher

namespace RuleTree

variable {Conf : Type}

mutual

/-- The tree does not look at the hidden keys of a record that meets the assumption. -/
def blind (assumption : Matcher) (hidden : List MarsKey) : RuleTree Conf → Bool
  | .rule matcher _ => matcher.blind hidden
  | .exclusiveRuleList _ rules => allBlind assumption hidden rules
  | .chainedRuleList [] => true
  | .chainedRuleList (head :: tail) =>
    blind assumption hidden head &&
      (assumption.contradicts KeyTest.clash (guard head) || allBlind assumption hidden tail)

def allBlind (assumption : Matcher) (hidden : List MarsKey) : List (RuleTree Conf) → Bool
  | [] => true
  | r :: rules => blind assumption hidden r && allBlind assumption hidden rules

end

theorem allBlind_iff (assumption : Matcher) (hidden : List MarsKey)
    (rules : List (RuleTree Conf)) :
    allBlind assumption hidden rules ↔ ∀ r ∈ rules, r.blind assumption hidden := by
  induction rules with
  | nil => simp [allBlind]
  | cons r rules ih => rw [allBlind, Bool.and_eq_true, ih, List.forall_mem_cons]

theorem alike_of_blind {assumption : Matcher} {hidden : List MarsKey}
    {record record' : FullMarsRecord} (hsame : SameExcept hidden record record')
    (hassumption : assumption.apply record) (t : RuleTree Conf)
    (h : t.blind assumption hidden) : DynRule.Alike record record' t.toDynRule := by
  induction t using RuleTree.induction with
  | rule matcher setter =>
    intro conf
    rw [blind] at h
    rw [toDynRule, DynRule.apply, DynRule.apply, Matcher.apply_congr h hsame]
  | exclusiveRuleList name rules ih =>
    intro conf
    rw [blind, allBlind_iff] at h
    rw [toDynRule, DynRule.apply, DynRule.apply, toDynRules_eq]
    apply DynRule.applyExclusive_alike
    rw [List.forall_mem_map]
    exact fun r hr => ih r hr (h r hr)
  | chainedRuleList rules ih =>
    cases rules with
    | nil => exact fun conf => rfl
    | cons head tail =>
      rw [blind, Bool.and_eq_true, Bool.or_eq_true, allBlind_iff] at h
      rw [List.forall_mem_cons] at ih
      have halike := ih.1 h.1
      rw [toDynRule, toDynRules]
      rcases h.2 with hcontradicts | htail
      · apply DynRule.alike_of_head _ halike
        rw [applies_toDynRule]
        exact Bool.eq_false_iff.mpr (Formula.not_eval_of_contradicts
          KeyTest.not_matches_of_clash hassumption (guard head) hcontradicts)
      · intro conf
        rw [DynRule.apply, DynRule.apply]
        apply DynRule.applyChained_alike
        rw [toDynRules_eq, List.forall_mem_cons, List.forall_mem_map]
        exact ⟨halike, fun r hr => ih.2 r hr (htail r hr)⟩

end RuleTree
end Multio.Mars2Grib
