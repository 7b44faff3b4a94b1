import Multio.Lib.Rewriting
import Multio.Mars2Grib.Matcher

namespace Multio.Mars2Mars

open Datamod Lib Mars2Grib

structure Vals where
  marsVals : FullMarsRecord
  miscVals : MiscRecord

structure MappingResult where
  valuesScaleFactor : Option UInt64
  deriving DecidableEq, Repr

inductive DynSetter
  | setScaleFactor (value : UInt64)
  | setMarsKey (member : MarsKey) (value : member.valueType.Val)
  | setMiscKey (member : MiscKey) (value : member.valueType.Val)

structure Rule where
  matcher : Matcher
  setters : List DynSetter

/-- A node behind `DynRule::apply`. -/
inductive DynRule
  | rule (r : Rule)
  | ruleList (rules : List DynRule)

/-- What the exceptions print: the scale factor, or the rules concerned and the keys. -/
inductive Mars2MarsException
  | scaleFactorAlreadySet (value : UInt64)
  | multipleRulesApply (firstMatch secondMatch : DynRule) (keys : FullMarsRecord)

/-- The outcome of a call with the records it leaves behind. -/
abbrev Applied (α : Type) : Type := Except Mars2MarsException α × Vals

def DynSetter.set (vals : Vals) (mapRes : MappingResult) : DynSetter → Applied MappingResult
  | .setScaleFactor value =>
    if mapRes.valuesScaleFactor.isSome then (.error (.scaleFactorAlreadySet value), vals)
    else (.ok { valuesScaleFactor := some value }, vals)
  | .setMarsKey member value =>
    (.ok mapRes, { vals with marsVals := Function.update vals.marsVals member (.value value) })
  | .setMiscKey member value =>
    (.ok mapRes, { vals with miscVals := Function.update vals.miscVals member (.value value) })

/-- `SetAll`. -/
def setAll : List DynSetter → Vals → MappingResult → Applied MappingResult
  | [], vals, mapRes => (.ok mapRes, vals)
  | setter :: setters, vals, mapRes =>
    match setter.set vals mapRes with
    | (.error e, vals) => (.error e, vals)
    | (.ok mapRes, vals) => setAll setters vals mapRes

def Rule.apply (r : Rule) (vals : Vals) : Applied (Option MappingResult) :=
  if r.matcher.apply vals.marsVals then
    match setAll r.setters vals { valuesScaleFactor := none } with
    | (.error e, vals) => (.error e, vals)
    | (.ok res, vals) => (.ok (some res), vals)
  else (.ok none, vals)

namespace DynRule

mutual

def apply : DynRule → Vals → Applied (Option MappingResult)
  | .rule r, vals => r.apply vals
  | .ruleList rules, vals => applyList rules none vals

/-- The loop of a list, with the rule that has applied so far and its result. -/
def applyList : List DynRule → Option (DynRule × MappingResult) → Vals →
    Applied (Option MappingResult)
  | [], applied, vals => (.ok (applied.map Prod.snd), vals)
  | r :: rules, applied, vals =>
    match apply r vals with
    | (.error e, vals) => (.error e, vals)
    | (.ok none, vals) => applyList rules applied vals
    | (.ok (some res), vals) =>
      match applied with
      | some first => (.error (.multipleRulesApply first.1 r vals.marsVals), vals)
      | none => applyList rules (some (r, res)) vals

end

mutual

def leaves : DynRule → List Rule
  | .rule r => [r]
  | .ruleList rules => leavesOf rules

def leavesOf : List DynRule → List Rule
  | [] => []
  | r :: rules => leaves r ++ leavesOf rules

end

/-- The lists have the same rules in any order, however they are grouped to lists. -/
def Reordered (rules rules' : DynRule) : Prop := rules.leaves.Perm rules'.leaves

end DynRule

def applyMappings (rules : DynRule) (vals : Vals) : Applied (Option MappingResult) :=
  rules.apply vals

def DynSetter.marsUpdate? : DynSetter → Option ((k : MarsKey) × Entry k.valueType.Val)
  | .setMarsKey member value => some ⟨member, .value value⟩
  | _ => none

def DynSetter.miscUpdate? : DynSetter → Option ((k : MiscKey) × Entry k.valueType.Val)
  | .setMiscKey member value => some ⟨member, .value value⟩
  | _ => none

def DynSetter.scaleFactor? : DynSetter → Option UInt64
  | .setScaleFactor value => some value
  | _ => none

namespace Rule

variable (r : Rule)

def marsUpdates : List ((k : MarsKey) × Entry k.valueType.Val) :=
  r.setters.filterMap DynSetter.marsUpdate?

def miscUpdates : List ((k : MiscKey) × Entry k.valueType.Val) :=
  r.setters.filterMap DynSetter.miscUpdate?

def scaleFactors : List UInt64 := r.setters.filterMap DynSetter.scaleFactor?

def write (vals : Vals) : Vals where
  marsVals := assign r.marsUpdates vals.marsVals
  miscVals := assign r.miscUpdates vals.miscVals

def rewrite : Rewrite Vals MappingResult := fun vals =>
  if r.matcher.apply vals.marsVals then
    some ({ valuesScaleFactor := r.scaleFactors.head? }, r.write vals)
  else none

theorem setAll_eq (setters : List DynSetter) (vals : Vals) (mapRes : MappingResult)
    (h : (setters.filterMap DynSetter.scaleFactor?).length +
      mapRes.valuesScaleFactor.isSome.toNat ≤ 1) :
    setAll setters vals mapRes =
      (.ok { valuesScaleFactor :=
          mapRes.valuesScaleFactor.or (setters.filterMap DynSetter.scaleFactor?).head? },
        { marsVals := assign (setters.filterMap DynSetter.marsUpdate?) vals.marsVals
          miscVals := assign (setters.filterMap DynSetter.miscUpdate?) vals.miscVals }) := by
  induction setters generalizing vals mapRes with
  | nil => simp [setAll, assign]
  | cons setter setters ih =>
    rw [setAll]
    cases setter with
    | setScaleFactor value =>
      have hcons : (DynSetter.setScaleFactor value :: setters).filterMap DynSetter.scaleFactor? =
          value :: setters.filterMap DynSetter.scaleFactor? := rfl
      rw [hcons, List.length_cons] at h
      have hnone : mapRes.valuesScaleFactor = none := by
        by_contra hne
        rw [Option.isSome_iff_ne_none.mpr hne, Bool.toNat_true] at h
        omega
      have hmore : (setters.filterMap DynSetter.scaleFactor?).length = 0 := by omega
      rw [hcons, DynSetter.set, hnone, Option.isSome_none, if_neg Bool.false_ne_true]
      simp only
      rw [ih _ _ (by simp [hmore])]
      rfl
    | setMarsKey member value => exact ih _ _ h
    | setMiscKey member value => exact ih _ _ h

theorem apply_eq (h : r.scaleFactors.length ≤ 1) (vals : Vals) :
    r.apply vals = match r.rewrite vals with
      | none => (.ok none, vals)
      | some (res, vals') => (.ok (some res), vals') := by
  rw [apply, rewrite]
  split
  · rw [setAll_eq r.setters vals { valuesScaleFactor := none } h]
    rfl
  · rfl

end Rule

namespace DynRule

@[elab_as_elim]
theorem induction {motive : DynRule → Prop} (rule : ∀ r, motive (.rule r))
    (ruleList : ∀ rules, (∀ r ∈ rules, motive r) → motive (.ruleList rules)) (t : DynRule) :
    motive t := by
  refine @DynRule.rec motive (fun rules => ∀ r ∈ rules, motive r) rule ruleList ?_ ?_ t
  · simp
  · intro head tail hhead htail
    simpa using ⟨hhead, htail⟩

/-- The tree does what a pass over its rules does, if that goes through. -/
def Passes (t : DynRule) : Prop :=
  ∀ vals res vals', Rewrite.pass (t.leaves.map Rule.rewrite) none vals = some (res, vals') →
    t.apply vals = (.ok res, vals')

theorem leavesOf_eq (rules : List DynRule) : leavesOf rules = rules.flatMap leaves := by
  induction rules with
  | nil => rfl
  | cons r rules ih => rw [leavesOf, ih, List.flatMap_cons]

theorem applyList_of_pass (rules : List DynRule) (h : ∀ r ∈ rules, Passes r)
    (applied : Option (DynRule × MappingResult)) (vals vals' : Vals)
    (res : Option MappingResult)
    (hpass : Rewrite.pass ((leavesOf rules).map Rule.rewrite) (applied.map Prod.snd) vals =
      some (res, vals')) :
    applyList rules applied vals = (.ok res, vals') := by
  induction rules generalizing applied vals with
  | nil =>
    rw [leavesOf, List.map_nil, Rewrite.pass, Option.some.injEq, Prod.mk.injEq] at hpass
    rw [applyList, hpass.1, hpass.2]
  | cons r rules ih =>
    rw [List.forall_mem_cons] at h
    rw [leavesOf, List.map_append, Rewrite.pass_append, Option.bind_eq_some_iff] at hpass
    obtain ⟨⟨res₁, vals₁⟩, hfirst, hrest⟩ := hpass
    rw [applyList]
    cases applied with
    | none =>
      rw [h.1 vals res₁ vals₁ hfirst]
      cases res₁ with
      | none => exact ih h.2 none vals₁ hrest
      | some first => exact ih h.2 (some (r, first)) vals₁ hrest
    | some first =>
      -- a rule has applied before, hence none of this element does
      have hnone := Rewrite.forall_none_of_pass hfirst
      have hskip := Rewrite.pass_of_forall_none hnone
      rw [h.1 vals none vals (hskip none)]
      rw [Option.map_some, hskip, Option.some.injEq, Prod.mk.injEq] at hfirst
      obtain ⟨rfl, rfl⟩ := hfirst
      exact ih h.2 (some first) vals hrest

/-- A tree without a rule that sets two scale factors is a pass over its rules. -/
theorem passes (t : DynRule) (h : ∀ r ∈ t.leaves, r.scaleFactors.length ≤ 1) : Passes t := by
  induction t using DynRule.induction with
  | rule r =>
    intro vals res vals' hpass
    rw [leaves, List.forall_mem_singleton] at h
    rw [leaves, List.map_singleton, Rewrite.pass] at hpass
    rw [apply, r.apply_eq h]
    cases hr : r.rewrite vals with
    | none =>
      rw [hr] at hpass
      obtain ⟨rfl, rfl⟩ : none = res ∧ vals = vals' := by simpa [Rewrite.pass] using hpass
      rfl
    | some p =>
      rw [hr] at hpass
      obtain ⟨hres, hvals⟩ : some p.1 = res ∧ p.2 = vals' := by
        simpa [Rewrite.pass] using hpass
      simp only
      rw [hres, hvals]
  | ruleList rules ih =>
    intro vals res vals' hpass
    rw [leaves, leavesOf_eq] at h
    rw [apply]
    apply applyList_of_pass rules ?_ none vals vals' res hpass
    exact fun r hr => ih r hr fun r' hr' => h r' (List.mem_flatMap.mpr ⟨r, hr, hr'⟩)

end DynRule
end Multio.Mars2Mars
