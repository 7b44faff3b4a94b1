import Mathlib.Data.List.Perm.Basic
import Mathlib.Data.List.Count

namespace Multio.Mars2Grib

/-- A node behind `DynRule::apply`. -/
inductive DynRule (Record Conf : Type)
  | rule (matcher : Record → Bool) (setter : Conf → Conf)
  | exclusiveRuleList (name : String) (rules : List (DynRule Record Conf))
  | chainedRuleList (rules : List (DynRule Record Conf))

/-- What the exceptions print: the rules concerned and the keys. -/
inductive Mars2GribException (Record Conf : Type)
  | multipleRulesApply (firstMatch secondMatch : DynRule Record Conf) (keys : Record)
  | intermediateRuleFailed (rules : List (DynRule Record Conf)) (failed : ℕ) (keys : Record)

variable {Record Conf : Type}

/-- The outcome of a call with the configuration it leaves behind. -/
abbrev Applied (Record Conf : Type) : Type :=
  Except (Mars2GribException Record Conf) Bool × Conf

namespace DynRule

mutual

def apply (record : Record) : DynRule Record Conf → Conf → Applied Record Conf
  | .rule matcher setter, conf =>
    if matcher record then (.ok true, setter conf) else (.ok false, conf)
  | .exclusiveRuleList _ rules, conf => applyExclusive record rules none conf
  | .chainedRuleList rules, conf => applyChained record rules rules 0 conf

/-- The loop of an exclusive list, with the rule that has applied so far. -/
def applyExclusive (record : Record) :
    List (DynRule Record Conf) → Option (DynRule Record Conf) → Conf → Applied Record Conf
  | [], appliedRule, conf => (.ok appliedRule.isSome, conf)
  | r :: rules, appliedRule, conf =>
    match apply record r conf with
    | (.error e, conf) => (.error e, conf)
    | (.ok false, conf) => applyExclusive record rules appliedRule conf
    | (.ok true, conf) =>
      match appliedRule with
      | some first => (.error (.multipleRulesApply first r record), conf)
      | none => applyExclusive record rules (some r) conf

/-- The loop of a chain at its `i`-th rule; `all` is the whole chain. -/
def applyChained (record : Record) (all : List (DynRule Record Conf)) :
    List (DynRule Record Conf) → ℕ → Conf → Applied Record Conf
  | [], _, conf => (.ok true, conf)
  | r :: rules, i, conf =>
    match apply record r conf with
    | (.error e, conf) => (.error e, conf)
    | (.ok true, conf) => applyChained record all rules (i + 1) conf
    | (.ok false, conf) =>
      -- nothing has been applied yet when it is the first one
      if i = 0 then (.ok false, conf)
      else (.error (.intermediateRuleFailed all i record), conf)

end

end DynRule

/-- `SetAll`: the setters in their order. -/
def setAll (setters : List (Conf → Conf)) (conf : Conf) : Conf :=
  setters.foldl (fun conf setter => setter conf) conf

structure ExclusiveRuleList (Record Conf : Type) where
  name : String
  rules : List (DynRule Record Conf)

/-- The rule lists are moved one after the other to the end of the first. -/
def mergeRuleList (res : ExclusiveRuleList Record Conf) :
    List (ExclusiveRuleList Record Conf) → ExclusiveRuleList Record Conf
  | [] => res
  | next :: more => mergeRuleList { res with rules := res.rules ++ next.rules } more

def ExclusiveRuleList.toDynRule (list : ExclusiveRuleList Record Conf) : DynRule Record Conf :=
  .exclusiveRuleList list.name list.rules

end Multio.Mars2Grib
