import Multio.Mars2Grib.Rule

namespace Multio.Mars2Grib

variable {Record Conf : Type}

@[elab_as_elim]
theorem DynRule.induction {motive : DynRule Record Conf → Prop}
    (rule : ∀ matcher setter, motive (.rule matcher setter))
    (exclusiveRuleList : ∀ name rules, (∀ r ∈ rules, motive r) →
      motive (.exclusiveRuleList name rules))
    (chainedRuleList : ∀ rules, (∀ r ∈ rules, motive r) → motive (.chainedRuleList rules))
    (t : DynRule Record Conf) : motive t := by
  refine @DynRule.rec _ _ motive (fun rules => ∀ r ∈ rules, motive r)
    rule exclusiveRuleList chainedRuleList ?_ ?_ t
  · simp
  · intro head tail hhead htail
    simpa using ⟨hhead, htail⟩

namespace DynRule

variable (record : Record)

mutual

/-- Whether a node applies: one element of a list does, all elements of a chain do. -/
def applies : DynRule Record Conf → Bool
  | .rule matcher _ => matcher record
  | .exclusiveRuleList _ rules => anyApplies rules
  | .chainedRuleList rules => allApply rules

def anyApplies : List (DynRule Record Conf) → Bool
  | [] => false
  | r :: rules => applies r || anyApplies rules

def allApply : List (DynRule Record Conf) → Bool
  | [] => true
  | r :: rules => applies r && allApply rules

end

mutual

def selected : DynRule Record Conf → List (Conf → Conf)
  | .rule matcher setter => if matcher record then [setter] else []
  | .exclusiveRuleList _ rules => selectedOf rules
  | .chainedRuleList rules => if allApply record rules then selectedOf rules else []

def selectedOf : List (DynRule Record Conf) → List (Conf → Conf)
  | [] => []
  | r :: rules => selected r ++ selectedOf rules

end

def Returns (t : DynRule Record Conf) : Prop :=
  ∀ conf, ∃ applied conf', t.apply record conf = (.ok applied, conf')

/-- The nodes whose `apply` is called when that of the first one is: an element of
an exclusive list as long as the list has not thrown, an element of a chain when
all before it apply. -/
inductive Reaches : DynRule Record Conf → DynRule Record Conf → Prop
  | self (t) : Reaches t t
  | exclusiveRuleList {name before r after s}
      (hreturn : ∀ b ∈ before, Returns record b)
      (hcount : before.countP (applies record) ≤ 1) (hr : Reaches r s) :
      Reaches (.exclusiveRuleList name (before ++ r :: after)) s
  | chainedRuleList (before) {r} (after) {s}
      (hreturn : ∀ b ∈ before, Returns record b)
      (happly : ∀ b ∈ before, b.applies record) (hr : Reaches r s) :
      Reaches (.chainedRuleList (before ++ r :: after)) s

/-- A list with two applicable elements; a chain whose first element applies and
one of whose later elements does not. -/
def Faulty : DynRule Record Conf → Prop
  | .rule _ _ => False
  | .exclusiveRuleList _ rules => 2 ≤ rules.countP (applies record)
  | .chainedRuleList rules =>
    ∃ first rest, rules = first :: rest ∧ first.applies record ∧ ∃ r ∈ rest, ¬ r.applies record

mutual

def fails : DynRule Record Conf → Bool
  | .rule _ _ => false
  | .exclusiveRuleList _ rules => anyFails rules || decide (2 ≤ rules.countP (applies record))
  | .chainedRuleList rules => chainFails rules

def anyFails : List (DynRule Record Conf) → Bool
  | [] => false
  | r :: rules => fails r || anyFails rules

def chainFails : List (DynRule Record Conf) → Bool
  | [] => false
  | r :: rules => fails r || (applies record r && (anyFails rules || !allApply record rules))

end

variable {record}

@[simp] theorem anyApplies_eq (rules : List (DynRule Record Conf)) :
    anyApplies record rules = rules.any (applies record) := by
  induction rules with
  | nil => rfl
  | cons r rules ih => rw [anyApplies, ih, List.any_cons]

@[simp] theorem allApply_eq (rules : List (DynRule Record Conf)) :
    allApply record rules = rules.all (applies record) := by
  induction rules with
  | nil => rfl
  | cons r rules ih => rw [allApply, ih, List.all_cons]

@[simp] theorem selectedOf_eq (rules : List (DynRule Record Conf)) :
    selectedOf record rules = rules.flatMap (selected record) := by
  induction rules with
  | nil => rfl
  | cons r rules ih => rw [selectedOf, ih, List.flatMap_cons]

@[simp] theorem anyFails_eq (rules : List (DynRule Record Conf)) :
    anyFails record rules = rules.any (fails record) := by
  induction rules with
  | nil => rfl
  | cons r rules ih => rw [anyFails, ih, List.any_cons]

theorem selected_of_not_applies (t : DynRule Record Conf) (h : applies record t = false) :
    selected record t = [] := by
  induction t using DynRule.induction with
  | rule matcher setter =>
    rw [applies] at h
    rw [selected, if_neg (by simp [h])]
  | exclusiveRuleList name rules ih =>
    rw [applies, anyApplies_eq, List.any_eq_false] at h
    rw [selected, selectedOf_eq, List.flatMap_eq_nil_iff]
    intro r hr
    exact ih r hr (by simpa using h r hr)
  | chainedRuleList rules ih =>
    rw [applies] at h
    rw [selected, h, if_neg Bool.false_ne_true]

theorem setAll_append (setters setters' : List (Conf → Conf)) (conf : Conf) :
    setAll (setters ++ setters') conf = setAll setters' (setAll setters conf) :=
  List.foldl_append

/-- The call does what `applies`, `selected` and `fails` say. -/
def Meets (record : Record) (t : DynRule Record Conf) : Prop :=
  ∀ conf, (fails record t = false →
      t.apply record conf = (.ok (applies record t), setAll (selected record t) conf)) ∧
    (fails record t = true → ∃ e conf', t.apply record conf = (.error e, conf'))

theorem applyExclusive_of_fine (rules : List (DynRule Record Conf))
    (hmeet : ∀ r ∈ rules, Meets record r) (hfine : ∀ r ∈ rules, fails record r = false)
    (appliedRule : Option (DynRule Record Conf)) (conf : Conf)
    (hcount : rules.countP (applies record) + appliedRule.isSome.toNat ≤ 1) :
    applyExclusive record rules appliedRule conf =
      (.ok (appliedRule.isSome || rules.any (applies record)),
        setAll (rules.flatMap (selected record)) conf) := by
  induction rules generalizing appliedRule conf with
  | nil => simp [applyExclusive, setAll]
  | cons r rules ih =>
    have hr := (hmeet r List.mem_cons_self conf).1 (hfine r List.mem_cons_self)
    have hmeet' : ∀ x ∈ rules, Meets record x := fun x hx => hmeet x (List.mem_cons_of_mem r hx)
    have hfine' : ∀ x ∈ rules, fails record x = false :=
      fun x hx => hfine x (List.mem_cons_of_mem r hx)
    rw [applyExclusive, hr, List.flatMap_cons, setAll_append]
    rw [List.countP_cons] at hcount
    cases happ : applies record r with
    | false =>
      rw [happ] at hcount
      simp only
      rw [ih hmeet' hfine' appliedRule _ (by simpa using hcount), List.any_cons, happ,
        Bool.false_or]
    | true =>
      rw [happ, if_pos rfl] at hcount
      cases appliedRule with
      | some first => simp only [Option.isSome_some, Bool.toNat_true] at hcount; omega
      | none =>
        simp only
        rw [ih hmeet' hfine' (some r) _ (by simpa using hcount), List.any_cons, happ]
        simp

theorem applyExclusive_of_faulty (rules : List (DynRule Record Conf))
    (hmeet : ∀ r ∈ rules, Meets record r)
    (appliedRule : Option (DynRule Record Conf)) (conf : Conf)
    (hfaulty : (∃ r ∈ rules, fails record r = true) ∨
      2 ≤ rules.countP (applies record) + appliedRule.isSome.toNat) :
    ∃ e conf', applyExclusive record rules appliedRule conf = (.error e, conf') := by
  -- the rule applied so far is carried along: the second one that applies throws
  induction rules generalizing appliedRule conf with
  | nil =>
    cases appliedRule <;> simp at hfaulty
  | cons r rules ih =>
    have hmeet' : ∀ x ∈ rules, Meets record x := fun x hx => hmeet x (List.mem_cons_of_mem r hx)
    rw [applyExclusive]
    cases hf : fails record r with
    | true =>
      obtain ⟨e, conf', hr⟩ := (hmeet r List.mem_cons_self conf).2 hf
      rw [hr]
      exact ⟨e, conf', rfl⟩
    | false =>
      rw [(hmeet r List.mem_cons_self conf).1 hf]
      rw [List.countP_cons] at hfaulty
      have hrest : (∃ x ∈ r :: rules, fails record x = true) ↔
          ∃ x ∈ rules, fails record x = true := by simp [hf]
      rw [hrest] at hfaulty
      cases happ : applies record r with
      | false =>
        rw [happ] at hfaulty
        exact ih hmeet' appliedRule _ (by simpa using hfaulty)
      | true =>
        rw [happ, if_pos rfl] at hfaulty
        cases appliedRule with
        | some first => exact ⟨_, _, rfl⟩
        | none =>
          apply ih hmeet' (some r)
          apply hfaulty.imp_right
          intro h
          simpa using h

theorem applyChained_of_fine (all rules : List (DynRule Record Conf))
    (hmeet : ∀ r ∈ rules, Meets record r) (hfine : ∀ r ∈ rules, fails record r = false)
    (happ : ∀ r ∈ rules, applies record r = true) (i : ℕ) (conf : Conf) :
    applyChained record all rules i conf =
      (.ok true, setAll (rules.flatMap (selected record)) conf) := by
  induction rules generalizing i conf with
  | nil => simp [applyChained, setAll]
  | cons r rules ih =>
    simp only [List.forall_mem_cons] at hmeet hfine happ
    rw [applyChained, (hmeet.1 conf).1 hfine.1, happ.1, List.flatMap_cons, setAll_append]
    exact ih hmeet.2 hfine.2 happ.2 (i + 1) _

theorem applyChained_of_faulty (all rules : List (DynRule Record Conf))
    (hmeet : ∀ r ∈ rules, Meets record r)
    (hfaulty : ∃ r ∈ rules, fails record r = true ∨ applies record r = false) (i : ℕ)
    (hi : i ≠ 0) (conf : Conf) :
    ∃ e conf', applyChained record all rules i conf = (.error e, conf') := by
  induction rules generalizing i conf with
  | nil => simp at hfaulty
  | cons r rules ih =>
    simp only [List.forall_mem_cons] at hmeet
    rw [applyChained]
    cases hf : fails record r with
    | true =>
      obtain ⟨e, conf', hr⟩ := (hmeet.1 conf).2 hf
      rw [hr]
      exact ⟨e, conf', rfl⟩
    | false =>
      rw [(hmeet.1 conf).1 hf]
      cases happ : applies record r with
      | false =>
        simp only [if_neg hi]
        exact ⟨_, _, rfl⟩
      | true =>
        apply ih hmeet.2 _ (i + 1) (by omega)
        simpa [hf, happ] using hfaulty

theorem meets_chainedRuleList (rules : List (DynRule Record Conf))
    (hmeet : ∀ r ∈ rules, Meets record r) : Meets record (.chainedRuleList rules) := by
  intro conf
  -- the first element decides whether the others have to apply
  cases rules with
  | nil => simp [fails, chainFails, apply, applyChained, applies, selected, setAll]
  | cons r rules =>
    simp only [List.forall_mem_cons] at hmeet
    rw [fails, chainFails, apply, applyChained, applies, selected]
    cases hf : fails record r with
    | true =>
      obtain ⟨e, conf', hr⟩ := (hmeet.1 conf).2 hf
      rw [hr]
      simp
    | false =>
      rw [(hmeet.1 conf).1 hf]
      cases happ : applies record r with
      | false => simp [happ, selected_of_not_applies r happ, setAll]
      | true =>
        simp only [Bool.false_or, Bool.true_and, Bool.or_eq_false_iff, Bool.or_eq_true]
        constructor
        · rintro ⟨hany, hall⟩
          rw [anyFails_eq, List.any_eq_false] at hany
          rw [Bool.not_eq_false', allApply_eq, List.all_eq_true] at hall
          rw [applyChained_of_fine _ rules hmeet.2 (by simpa using hany) hall 1,
            allApply_eq, List.all_cons, happ, Bool.true_and, List.all_eq_true.2 hall,
            if_pos rfl, selectedOf_eq, List.flatMap_cons, setAll_append]
        · intro hbad
          apply applyChained_of_faulty _ rules hmeet.2 _ 1 (by omega)
          rcases hbad with hany | hall
          · rw [anyFails_eq, List.any_eq_true] at hany
            obtain ⟨x, hx, hfx⟩ := hany
            exact ⟨x, hx, .inl hfx⟩
          · rw [Bool.not_eq_true', allApply_eq, List.all_eq_false] at hall
            obtain ⟨x, hx, hax⟩ := hall
            exact ⟨x, hx, .inr (by simpa using hax)⟩

theorem meets (t : DynRule Record Conf) : Meets record t := by
  induction t using DynRule.induction with
  | rule matcher setter =>
    intro conf
    cases h : matcher record <;> simp [fails, apply, applies, selected, h, setAll]
  | exclusiveRuleList name rules ih =>
    intro conf
    rw [fails, apply, applies, selected, Bool.or_eq_false_iff, Bool.or_eq_true]
    constructor
    · rintro ⟨hany, hcount⟩
      rw [anyFails_eq, List.any_eq_false] at hany
      rw [applyExclusive_of_fine rules ih (by simpa using hany) none conf
        (by simp at hcount ⊢; omega)]
      simp
    · rintro (hany | hcount)
      · rw [anyFails_eq, List.any_eq_true] at hany
        exact applyExclusive_of_faulty rules ih none conf (.inl hany)
      · exact applyExclusive_of_faulty rules ih none conf (.inr (by simpa using hcount))
  | chainedRuleList rules ih => exact meets_chainedRuleList rules ih

theorem exists_first {α : Type} {p : α → Bool} {l : List α} (h : l.any p = true) :
    ∃ before a after, l = before ++ a :: after ∧ (∀ b ∈ before, p b = false) ∧ p a = true := by
  obtain ⟨x, hx, hpx⟩ := List.any_eq_true.1 h
  obtain ⟨a, ha⟩ := Option.isSome_iff_exists.1 (List.find?_isSome.2 ⟨x, hx, hpx⟩)
  obtain ⟨hpa, before, after, hl, hbefore⟩ := List.find?_eq_some_iff_append.1 ha
  exact ⟨before, a, after, hl, fun b hb => by simpa using hbefore b hb, hpa⟩

theorem returns_of_not_fails {t : DynRule Record Conf} (h : fails record t = false) :
    Returns record t :=
  fun conf => ⟨_, _, (meets t conf).1 h⟩

theorem fails_of_reaches {t s : DynRule Record Conf} (hreach : Reaches record t s)
    (hfaulty : Faulty record s) : fails record t = true := by
  induction hreach with
  | self t =>
    cases t with
    | rule matcher setter => exact absurd hfaulty id
    | exclusiveRuleList name rules =>
      rw [fails, Bool.or_eq_true]
      exact .inr (decide_eq_true hfaulty)
    | chainedRuleList rules =>
      obtain ⟨first, rest, rfl, hfirst, r, hr, hnot⟩ := hfaulty
      have hall : allApply record rest = false := by
        rw [allApply_eq, List.all_eq_false]
        exact ⟨r, hr, hnot⟩
      rw [fails, chainFails, hall, hfirst]
      simp
  | exclusiveRuleList _ _ _ ih =>
    rw [fails, anyFails_eq, List.any_append, List.any_cons, ih hfaulty]
    simp
  | chainedRuleList before after _ happly _ ih =>
    cases before with
    | nil => simp [fails, chainFails, ih hfaulty]
    | cons b before =>
      simp [fails, chainFails, happly b List.mem_cons_self, ih hfaulty]

theorem exists_reaches_of_fails (t : DynRule Record Conf) (h : fails record t = true) :
    ∃ s, Reaches record t s ∧ Faulty record s := by
  -- a node is faulty itself, or the fault is below an element that is reached
  induction t using DynRule.induction with
  | rule matcher setter => simp [fails] at h
  | exclusiveRuleList name rules ih =>
    rw [fails, Bool.or_eq_true, anyFails_eq, decide_eq_true_eq] at h
    by_cases hcount : 2 ≤ rules.countP (applies record)
    · exact ⟨_, .self _, hcount⟩
    · -- the first element that throws is reached
      obtain ⟨before, r, after, rfl, hbefore, hr⟩ := exists_first (h.resolve_right hcount)
      obtain ⟨s, hs, hfaulty⟩ := ih r (by simp) hr
      rw [List.countP_append] at hcount
      exact ⟨s, .exclusiveRuleList (fun b hb => returns_of_not_fails (hbefore b hb)) (by omega) hs,
        hfaulty⟩
  | chainedRuleList rules ih =>
    cases rules with
    | nil => simp [fails, chainFails] at h
    | cons first rest =>
      cases hfirst : fails record first with
      | true =>
        obtain ⟨s, hs, hfaulty⟩ := ih first List.mem_cons_self hfirst
        have hreach := Reaches.chainedRuleList [] rest (by simp) (by simp) hs
        exact ⟨s, hreach, hfaulty⟩
      | false =>
        rw [fails, chainFails, hfirst, Bool.false_or, Bool.and_eq_true] at h
        by_cases hall : ∀ r ∈ rest, applies record r = true
        · have hany : rest.any (fails record) = true := by
            simpa [List.all_eq_true.2 hall] using h.2
          obtain ⟨before, r, after, rfl, hbefore, hr⟩ := exists_first hany
          obtain ⟨s, hs, hfaulty⟩ := ih r (by simp) hr
          refine ⟨s, ?_, hfaulty⟩
          rw [← List.cons_append]
          apply Reaches.chainedRuleList _ _ _ _ hs
          · simp only [List.forall_mem_cons]
            exact ⟨returns_of_not_fails hfirst, fun b hb => returns_of_not_fails (hbefore b hb)⟩
          · simp only [List.forall_mem_cons]
            exact ⟨h.1, fun b hb => hall b (by simp [hb])⟩
        · simp only [not_forall, exists_prop] at hall
          exact ⟨_, .self _, first, rest, rfl, h.1, hall⟩

theorem fails_iff (t : DynRule Record Conf) :
    fails record t = true ↔ ∃ s, Reaches record t s ∧ Faulty record s :=
  ⟨exists_reaches_of_fails t, fun ⟨_, hreach, hfaulty⟩ => fails_of_reaches hreach hfaulty⟩

theorem of_apply_ok {t : DynRule Record Conf} {conf conf' : Conf} {applied : Bool}
    (h : t.apply record conf = (.ok applied, conf')) :
    applied = applies record t ∧ conf' = setAll (selected record t) conf := by
  cases hf : fails record t with
  | true =>
    obtain ⟨e, conf'', he⟩ := (meets t conf).2 hf
    rw [h] at he
    cases he
  | false =>
    rw [(meets t conf).1 hf] at h
    cases h
    exact ⟨rfl, rfl⟩

/-- What a caller sees of a call: nothing but that it threw, or the result. -/
def outcome (record : Record) (t : DynRule Record Conf) (conf : Conf) : Option (Bool × Conf) :=
  match t.apply record conf with
  | (.ok applied, conf') => some (applied, conf')
  | (.error _, _) => none

theorem outcome_eq (t : DynRule Record Conf) (conf : Conf) :
    outcome record t conf =
      if fails record t then none
      else some (applies record t, setAll (selected record t) conf) := by
  cases hf : fails record t with
  | false => rw [outcome, (meets t conf).1 hf, if_neg Bool.false_ne_true]
  | true =>
    obtain ⟨e, conf', h⟩ := (meets t conf).2 hf
    rw [outcome, h, if_pos rfl]

/-- The elements of one exclusive list anywhere in a tree are permuted. -/
inductive Reordered : DynRule Record Conf → DynRule Record Conf → Prop
  | permuted (name name' : String) {rules rules' : List (DynRule Record Conf)}
      (h : rules.Perm rules') :
      Reordered (.exclusiveRuleList name rules) (.exclusiveRuleList name' rules')
  | exclusiveRuleList (name : String) (before after : List (DynRule Record Conf))
      {r r' : DynRule Record Conf} (h : Reordered r r') :
      Reordered (.exclusiveRuleList name (before ++ r :: after))
        (.exclusiveRuleList name (before ++ r' :: after))
  | chainedRuleList (before after : List (DynRule Record Conf))
      {r r' : DynRule Record Conf} (h : Reordered r r') :
      Reordered (.chainedRuleList (before ++ r :: after))
        (.chainedRuleList (before ++ r' :: after))

theorem applies_of_reordered {t t' : DynRule Record Conf} (h : Reordered t t') :
    applies record t = applies record t' := by
  induction h with
  | permuted name name' h => rw [applies, applies, anyApplies_eq, anyApplies_eq, h.any_eq]
  | exclusiveRuleList name before after _ ih =>
    simp only [applies, anyApplies_eq, List.any_append, List.any_cons, ih]
  | chainedRuleList before after _ ih =>
    simp only [applies, allApply_eq, List.all_append, List.all_cons, ih]

theorem fails_of_reordered {t t' : DynRule Record Conf} (h : Reordered t t') :
    fails record t = fails record t' := by
  induction h with
  | permuted name name' h =>
    simp only [fails, anyFails_eq, h.any_eq, h.countP_eq]
  | exclusiveRuleList name before after h ih =>
    simp only [fails, anyFails_eq, List.any_append, List.any_cons, ih, List.countP_append,
      List.countP_cons, applies_of_reordered h]
  | @chainedRuleList before after r r' h ih =>
    have happ : applies record r = applies record r' := applies_of_reordered h
    cases before with
    | nil => simp only [fails, List.nil_append, chainFails, ih, happ]
    | cons b before =>
      simp only [fails, List.cons_append, chainFails, anyFails_eq, List.any_append, List.any_cons,
        ih, allApply_eq, List.all_append, List.all_cons, happ]

/-- With one applicable element at most the order of the elements does not matter. -/
theorem selectedOf_perm {rules rules' : List (DynRule Record Conf)} (h : rules.Perm rules')
    (hcount : rules.countP (applies record) ≤ 1) :
    rules.flatMap (selected record) = rules'.flatMap (selected record) := by
  have hfilter : ∀ rules : List (DynRule Record Conf), rules.flatMap (selected record) =
      (rules.filter (applies record)).flatMap (selected record) := by
    intro rules
    induction rules with
    | nil => rfl
    | cons r rules ih =>
      cases happ : applies record r with
      | false =>
        rw [List.filter_cons_of_neg (by simp [happ]), List.flatMap_cons,
          selected_of_not_applies r happ, List.nil_append, ih]
      | true => rw [List.filter_cons_of_pos happ, List.flatMap_cons, List.flatMap_cons, ih]
  rw [hfilter rules, hfilter rules']
  rw [List.countP_eq_length_filter] at hcount
  have hperm := h.filter (applies record)
  cases hl : rules.filter (applies record) with
  | nil =>
    rw [hl] at hperm
    rw [hperm.nil_eq]
  | cons r rest =>
    rw [hl] at hperm hcount
    cases rest with
    | nil => rw [List.singleton_perm.1 hperm]
    | cons r' rest => simp at hcount

theorem selected_of_reordered {t t' : DynRule Record Conf} (h : Reordered t t')
    (hfine : fails record t = false) : selected record t = selected record t' := by
  -- in a list that does not throw at most one element applies, wherever it stands
  induction h with
  | permuted name name' h =>
    rw [fails, Bool.or_eq_false_iff, decide_eq_false_iff_not] at hfine
    rw [selected, selected, selectedOf_eq, selectedOf_eq, selectedOf_perm h (by omega)]
  | @exclusiveRuleList name before after r r' h ih =>
    have hr : fails record r = false := by
      rw [fails, anyFails_eq, List.any_append, List.any_cons] at hfine
      simp only [Bool.or_eq_false_iff] at hfine
      exact hfine.1.2.1
    simp only [selected, selectedOf_eq, List.flatMap_append, List.flatMap_cons, ih hr]
  | @chainedRuleList before after r r' h ih =>
    have happ : applies record r = applies record r' := applies_of_reordered h
    simp only [selected, allApply_eq, List.all_append, List.all_cons, ← happ, selectedOf_eq,
      List.flatMap_append, List.flatMap_cons]
    by_cases hall : before.all (applies record) = true ∧ applies record r = true
    · have hr : fails record r = false := by
        cases before with
        | nil =>
          rw [fails, List.nil_append, chainFails, Bool.or_eq_false_iff] at hfine
          exact hfine.1
        | cons b before =>
          have hb : applies record b = true := by
            rw [List.all_cons, Bool.and_eq_true] at hall
            exact hall.1.1
          rw [fails, List.cons_append, chainFails, hb, anyFails_eq, List.any_append,
            List.any_cons] at hfine
          simp only [Bool.or_eq_false_iff, Bool.true_and] at hfine
          exact hfine.2.1.2.1
      rw [ih hr]
    · rw [if_neg, if_neg]
      all_goals
        simp only [Bool.and_eq_true]
        tauto

theorem outcome_of_reordered {t t' : DynRule Record Conf} (h : Reordered t t') (conf : Conf) :
    outcome record t conf = outcome record t' conf := by
  rw [outcome_eq, outcome_eq, ← fails_of_reordered h, ← applies_of_reordered h]
  cases hf : fails record t with
  | true => rfl
  | false => rw [selected_of_reordered h hf]

theorem mergeRuleList_rules (res : ExclusiveRuleList Record Conf)
    (more : List (ExclusiveRuleList Record Conf)) :
    (mergeRuleList res more).rules = (res :: more).flatMap ExclusiveRuleList.rules := by
  induction more generalizing res with
  | nil => simp [mergeRuleList]
  | cons next more ih => rw [mergeRuleList, ih]; simp

theorem mergeRuleList_reordered {list list' : ExclusiveRuleList Record Conf}
    {more more' : List (ExclusiveRuleList Record Conf)}
    (h : (list :: more).Perm (list' :: more')) :
    Reordered (mergeRuleList list more).toDynRule (mergeRuleList list' more').toDynRule := by
  apply Reordered.permuted
  rw [mergeRuleList_rules, mergeRuleList_rules]
  exact h.flatMap_right _

/-- A call that returns true leaves the setters of the selected leaves and one that
returns false leaves nothing behind; it throws iff it reaches a faulty node; the
order inside exclusive lists and of merged ones does not matter. -/
theorem apply_semantics (record : Record) :
    (∀ (t : DynRule Record Conf) conf conf', t.apply record conf = (.ok true, conf') →
      conf' = setAll (t.selected record) conf) ∧
    (∀ (t : DynRule Record Conf) conf conf', t.apply record conf = (.ok false, conf') →
      conf' = conf) ∧
    (∀ (t : DynRule Record Conf) conf, (∃ e conf', t.apply record conf = (.error e, conf')) ↔
      ∃ s, Reaches record t s ∧ Faulty record s) ∧
    (∀ t t' : DynRule Record Conf, Reordered t t' →
      ∀ conf, outcome record t conf = outcome record t' conf) ∧
    (∀ (list list' : ExclusiveRuleList Record Conf) more more',
      (list :: more).Perm (list' :: more') →
      Reordered (mergeRuleList list more).toDynRule (mergeRuleList list' more').toDynRule) := by
  refine ⟨?_, ?_, ?_, ?_, ?_⟩
  · intro t conf conf' h
    exact (of_apply_ok h).2
  · intro t conf conf' h
    obtain ⟨happ, hconf⟩ := of_apply_ok h
    rw [hconf, selected_of_not_applies t happ.symm]
    rfl
  · intro t conf
    rw [← fails_iff]
    constructor
    · rintro ⟨e, conf', h⟩
      cases hf : fails record t with
      | true => rfl
      | false =>
        rw [(meets t conf).1 hf] at h
        cases h
    · exact (meets t conf).2
  · intro t t' h conf
    exact outcome_of_reordered h conf
  · intro list list' more more' h
    exact mergeRuleList_reordered h

theorem apply_semantics_two :
    let add : DynRule Bool ℕ := .rule id (· + 1)
    let double : DynRule Bool ℕ := .rule (fun _ => true) (2 * ·)
    let no : DynRule Bool ℕ := .rule (fun _ => false) id
    setAll (selected true (.exclusiveRuleList "a" [.chainedRuleList [add, double], no])) 3 = 8 ∧
      setAll (selected false (.exclusiveRuleList "a" [.chainedRuleList [add, double], no])) 3 = 3 ∧
      outcome true (.exclusiveRuleList "a" [add, double]) 3 =
        outcome true (.exclusiveRuleList "a" [double, add]) 3 ∧
      Reordered (mergeRuleList ⟨"a", [add]⟩ [⟨"b", [no]⟩]).toDynRule
        (mergeRuleList ⟨"b", [no]⟩ [⟨"a", [add]⟩]).toDynRule := by
  intro add double no
  refine ⟨?_, ?_, ?_, ?_⟩
  · exact ((apply_semantics true).1 _ 3 8 rfl).symm
  · exact (apply_semantics false).2.1
      (.exclusiveRuleList "a" [.chainedRuleList [add, double], no]) 3 _ rfl
  · exact (apply_semantics true).2.2.2.1 _ _ (.permuted "a" "a" (.swap double add [])) 3
  · exact (apply_semantics true).2.2.2.2 ⟨"a", [add]⟩ ⟨"b", [no]⟩ _ _ (.swap _ _ [])

end DynRule

end Multio.Mars2Grib
