import Multio.Mars2Grib.RuleTree
import Multio.Mars2Mars.Rule

namespace Multio.Mars2Mars

open Datamod Lib Mars2Grib

namespace Rule

/-- The accepted parameters of the matchers are known and no parameter is in both. -/
def paramsApart (m m' : Matcher) : Bool :=
  match m.alternatives KeyTest.params, m'.alternatives KeyTest.params with
  | some intervals, some intervals' =>
    intervals.all fun i => intervals'.all fun i' => i.2 < i'.1 || i'.2 < i.1
  | _, _ => false

def excludes (m m' : Matcher) : Bool := paramsApart m m' || m.contradicts KeyTest.clash m'

def after (r : Rule) : Matcher :=
  .all [.all (MarsKey.all.filterMap fun k =>
      (assigned r.marsUpdates k).bind fun e => e.visit.map fun v => Matcher.oneOf k [v]),
    r.matcher.weaken fun test => (assigned r.marsUpdates test.member).isNone]

/-- Neither rule is found to match what the other one matches or leaves. -/
def apart (r r' : Rule) : Bool :=
  excludes r.matcher r'.matcher && excludes r.after r'.matcher && excludes r'.after r.matcher

def allApart : List Rule → Bool
  | [] => true
  | r :: rules => rules.all (apart r) && allApart rules

/-- The rule sets at most one scale factor, and none if it may match what it has left. -/
def settles (r : Rule) : Bool :=
  r.scaleFactors.length ≤ 1 && (excludes r.after r.matcher || r.scaleFactors.isEmpty)

theorem not_apply_of_paramsApart {m m' : Matcher} (h : paramsApart m m')
    {record : FullMarsRecord} (hm : m.apply record) : ¬ m'.apply record := by
  intro hm'
  unfold paramsApart at h
  split at h
  · rename_i intervals intervals' hintervals hintervals'
    obtain ⟨i, hi, p, hp, hfirst, hlast⟩ :=
      m.exists_of_alternatives Matcher.meets_params hintervals hm
    obtain ⟨i', hi', p', hp', hfirst', hlast'⟩ :=
      m'.exists_of_alternatives Matcher.meets_params hintervals' hm'
    obtain rfl : p = p' := Option.some.inj (hp.symm.trans hp')
    rw [List.all_eq_true] at h
    have hi := h i hi
    rw [List.all_eq_true] at hi
    have hdisjoint : i.2 < i'.1 ∨ i'.2 < i.1 := by simpa using hi i' hi'
    omega
  · exact absurd h Bool.false_ne_true

theorem not_apply_of_excludes {m m' : Matcher} (h : excludes m m') {record : FullMarsRecord}
    (hm : m.apply record) : ¬ m'.apply record := by
  rw [excludes, Bool.or_eq_true] at h
  rcases h with hparams | hclash
  · exact not_apply_of_paramsApart hparams hm
  · exact Formula.not_eval_of_contradicts KeyTest.not_matches_of_clash hm m' hclash

theorem marsVals_write (r : Rule) (vals : Vals) (k : MarsKey) :
    (r.write vals).marsVals k = (assigned r.marsUpdates k).getD (vals.marsVals k) :=
  assign_apply r.marsUpdates vals.marsVals k

theorem apply_after (r : Rule) {vals : Vals} (h : r.matcher.apply vals.marsVals) :
    r.after.apply (r.write vals).marsVals := by
  rw [after, Matcher.apply, Formula.eval_all]
  simp only [List.all_cons, List.all_nil, Bool.and_true, Bool.and_eq_true]
  constructor
  · -- a key that is assigned has its last value
    rw [Formula.eval_all, List.all_eq_true]
    intro m hm
    rw [List.mem_filterMap] at hm
    obtain ⟨k, -, hk⟩ := hm
    rw [Option.bind_eq_some_iff] at hk
    obtain ⟨e, he, hv⟩ := hk
    rw [Option.map_eq_some_iff] at hv
    obtain ⟨v, hv, rfl⟩ := hv
    rw [Matcher.oneOf, Formula.eval_atom, KeyTest.matchesRecord, marsVals_write, he,
      Option.getD_some, hv]
    simp [KeyMatcher.matchesValue]
  · -- the other keys are as they have been when the rule matched
    refine Formula.eval_weaken ?_ r.matcher h
    intro test hkeep htest
    rw [KeyTest.matchesRecord] at htest ⊢
    rw [marsVals_write, Option.isNone_iff_eq_none.mp hkeep, Option.getD_none]
    exact htest

theorem write_write (r : Rule) (vals : Vals) : r.write (r.write vals) = r.write vals := by
  simp only [write, assign_assign]

theorem rewrite_eq_none_iff (r : Rule) (vals : Vals) :
    r.rewrite vals = none ↔ ¬ r.matcher.apply vals.marsVals := by
  simp [rewrite]

theorem of_rewrite_eq_some {r : Rule} {vals vals' : Vals} {res : MappingResult}
    (h : r.rewrite vals = some (res, vals')) :
    r.matcher.apply vals.marsVals ∧ vals' = r.write vals := by
  rw [rewrite] at h
  split at h
  · rename_i hmatch
    rw [Option.some.injEq, Prod.mk.injEq] at h
    exact ⟨hmatch, h.2.symm⟩
  · cases h

theorem rewrite_apart {r r' : Rule} (h : apart r r') : Rewrite.Apart r.rewrite r'.rewrite := by
  rw [apart, Bool.and_eq_true, Bool.and_eq_true] at h
  obtain ⟨⟨hmatch, hleft⟩, hright⟩ := h
  constructor
  · intro vals
    by_cases hr : r.matcher.apply vals.marsVals
    · exact .inr ((r'.rewrite_eq_none_iff vals).mpr (not_apply_of_excludes hmatch hr))
    · exact .inl ((r.rewrite_eq_none_iff vals).mpr hr)
  · intro vals res vals' hr
    obtain ⟨happly, rfl⟩ := of_rewrite_eq_some hr
    rw [rewrite_eq_none_iff]
    exact not_apply_of_excludes hleft (r.apply_after happly)
  · intro vals res vals' hr
    obtain ⟨happly, rfl⟩ := of_rewrite_eq_some hr
    rw [rewrite_eq_none_iff]
    exact not_apply_of_excludes hright (r'.apply_after happly)

theorem pairwise_of_allApart {rules : List Rule} (h : allApart rules) :
    (rules.map rewrite).Pairwise Rewrite.Apart := by
  induction rules with
  | nil => exact List.Pairwise.nil
  | cons r rules ih =>
    rw [allApart, Bool.and_eq_true, List.all_eq_true] at h
    rw [List.map_cons, List.pairwise_cons, List.forall_mem_map]
    exact ⟨fun r' hr' => rewrite_apart (h.1 r' hr'), ih h.2⟩

theorem rewrite_settles {r : Rule} (h : r.settles) :
    Rewrite.Settles (fun res => res.valuesScaleFactor = none) r.rewrite := by
  rw [settles, Bool.and_eq_true, Bool.or_eq_true] at h
  intro vals res vals' hr
  obtain ⟨happly, rfl⟩ := of_rewrite_eq_some hr
  rcases h.2 with hexcludes | hempty
  · left
    rw [rewrite_eq_none_iff]
    exact not_apply_of_excludes hexcludes (r.apply_after happly)
  · by_cases hagain : r.matcher.apply (r.write vals).marsVals
    · right
      refine ⟨{ valuesScaleFactor := r.scaleFactors.head? }, ?_, ?_⟩
      · rw [rewrite, if_pos hagain, write_write]
      · rw [List.isEmpty_iff.mp hempty, List.head?_nil]
    · left
      rw [rewrite_eq_none_iff]
      exact hagain

end Rule
end Multio.Mars2Mars
