import Multio.Datamod.MarsMiscGeo
import Multio.Lib.Bisection
import Multio.Lib.BooleanFormula

namespace Multio.Mars2Grib

open Datamod Lib

/-- The functors of `MatchOp`. -/
inductive Op
  | greaterThan | greaterEqual | lessThan | lessEqual
  deriving DecidableEq, Repr

def Op.holds : Op → ℤ → ℤ → Bool
  | .greaterThan, l, r => l > r
  | .greaterEqual, l, r => l ≥ r
  | .lessThan, l, r => l < r
  | .lessEqual, l, r => l ≤ r

inductive KeyMatcher : ValueType → Type
  | oneOf {t : ValueType} (values : List t.Val) : KeyMatcher t
  | noneOf {t : ValueType} (values : List t.Val) : KeyMatcher t
  | has {t : ValueType} : KeyMatcher t
  | missing {t : ValueType} : KeyMatcher t
  | ranges (parts : List (Param × Param)) : KeyMatcher .param
  | matchOp (op : Op) (value : ℤ) : KeyMatcher .int64

namespace KeyMatcher

def matchesValue {t : ValueType} : KeyMatcher t → Option t.Val → Bool
  | .oneOf values, some v => v ∈ values
  | .oneOf _, none => false
  | .noneOf values, some v => v ∉ values
  | .noneOf _, none => true
  | .has, v => v.isSome
  | .missing, v => v.isNone
  | .ranges parts, some v => parts.any fun r => v.id ≥ r.1.id && v.id ≤ r.2.id
  | .ranges _, none => false
  | .matchOp op value, some v => op.holds v value
  | .matchOp _ _, none => false

def clash {t : ValueType} : KeyMatcher t → KeyMatcher t → Bool
  | .oneOf values, .oneOf values' => values.all fun v => v ∉ values'
  | .oneOf values, .noneOf values' | .noneOf values', .oneOf values =>
    values.all fun v => v ∈ values'
  | .oneOf _, .missing | .missing, .oneOf _ | .has, .missing | .missing, .has => true
  | .matchOp .greaterEqual value, .matchOp .lessThan value' => value' ≤ value
  | .matchOp .lessThan value, .matchOp .greaterEqual value' => value ≤ value'
  | _, _ => false

theorem not_matches_of_clash {t : ValueType} (m m' : KeyMatcher t) (h : clash m m')
    (v : Option t.Val) : ¬ (m.matchesValue v ∧ m'.matchesValue v) := by
  rintro ⟨hm, hm'⟩
  cases m with
  | oneOf values =>
    cases v with
    | none => exact absurd hm Bool.false_ne_true
    | some v =>
      cases m' with
      | oneOf values' =>
        exact of_decide_eq_true (List.all_eq_true.mp h v (of_decide_eq_true hm))
          (of_decide_eq_true hm')
      | noneOf values' =>
        exact of_decide_eq_true hm'
          (of_decide_eq_true (List.all_eq_true.mp h v (of_decide_eq_true hm)))
      | missing => exact absurd hm' Bool.false_ne_true
      | has | ranges | matchOp => exact absurd h Bool.false_ne_true
  | noneOf values =>
    cases m' with
    | oneOf values' =>
      cases v with
      | none => exact absurd hm' Bool.false_ne_true
      | some v =>
        exact of_decide_eq_true hm
          (of_decide_eq_true (List.all_eq_true.mp h v (of_decide_eq_true hm')))
    | noneOf | has | missing | ranges | matchOp => exact absurd h Bool.false_ne_true
  | has =>
    cases m' with
    | missing =>
      cases v with
      | none => exact absurd hm Bool.false_ne_true
      | some v => exact absurd hm' Bool.false_ne_true
    | oneOf | noneOf | has | ranges | matchOp => exact absurd h Bool.false_ne_true
  | missing =>
    cases v with
    | some v => exact absurd hm Bool.false_ne_true
    | none =>
      cases m' with
      | oneOf | has => exact absurd hm' Bool.false_ne_true
      | noneOf | missing | ranges | matchOp => exact absurd h Bool.false_ne_true
  | ranges parts =>
    cases m' with
    | oneOf | noneOf | has | missing | ranges => exact absurd h Bool.false_ne_true
  | matchOp op value =>
    cases v with
    | none => exact absurd hm Bool.false_ne_true
    | some v =>
      cases m' with
      | matchOp op' value' =>
        -- only the two comparisons that complement each other
        cases op <;> cases op' <;> try exact absurd h Bool.false_ne_true
        · exact (lt_of_lt_of_le (of_decide_eq_true hm') (of_decide_eq_true h)).not_ge
            (of_decide_eq_true hm)
        · exact (lt_of_lt_of_le (of_decide_eq_true hm) (of_decide_eq_true h)).not_ge
            (of_decide_eq_true hm')
      | oneOf | noneOf | has | missing => cases op <;> exact absurd h Bool.false_ne_true

/-- Every value, or its absence, that meets the first matcher meets the second. -/
def implies {t : ValueType} : KeyMatcher t → KeyMatcher t → Bool
  | .oneOf values, m => values.all fun v => m.matchesValue (some v)
  | .missing, m => m.matchesValue none
  | .has, .has => true
  | .matchOp .greaterEqual value, .matchOp .greaterEqual value' => value' ≤ value
  | .matchOp .lessThan value, .matchOp .lessThan value' => value ≤ value'
  | .matchOp _ _, .has => true
  | _, _ => false

theorem matches_of_implies {t : ValueType} (m m' : KeyMatcher t) (h : implies m m')
    (v : Option t.Val) (hm : m.matchesValue v) : m'.matchesValue v := by
  cases m with
  | oneOf values =>
    -- a value that is one of several has been looked at
    cases v with
    | none => exact absurd hm Bool.false_ne_true
    | some v => exact List.all_eq_true.mp h v (of_decide_eq_true hm)
  | missing =>
    cases v with
    | some v => exact absurd hm Bool.false_ne_true
    | none => exact h
  | has =>
    cases m' with
    | has => exact hm
    | oneOf | noneOf | missing | ranges | matchOp => exact absurd h Bool.false_ne_true
  | noneOf values => exact absurd h Bool.false_ne_true
  | ranges parts => exact absurd h Bool.false_ne_true
  | matchOp op value =>
    cases v with
    | none => exact absurd hm Bool.false_ne_true
    | some v =>
      cases m' with
      | has => rfl
      | matchOp op' value' =>
        cases op <;> cases op' <;> try exact absurd h Bool.false_ne_true
        · exact decide_eq_true ((of_decide_eq_true h).trans (of_decide_eq_true hm))
        · exact decide_eq_true ((of_decide_eq_true hm).trans_le (of_decide_eq_true h))
      | oneOf | noneOf | missing => cases op <;> exact absurd h Bool.false_ne_true

end KeyMatcher

structure KeyTest where
  member : MarsKey
  matcher : KeyMatcher member.valueType

abbrev Matcher : Type := Formula KeyTest

namespace KeyTest

def matchesRecord (record : FullMarsRecord) (test : KeyTest) : Bool :=
  test.matcher.matchesValue (record test.member).visit

def clash (test test' : KeyTest) : Bool :=
  if h : test'.member = test.member then test.matcher.clash (h ▸ test'.matcher) else false

/-- The ranges of parameters that a test on the parameter accepts. -/
def params : KeyTest → Option (List (ℤ × ℤ))
  | ⟨.param, .oneOf values⟩ => some (values.map fun p => (p.id, p.id))
  | ⟨.param, .ranges parts⟩ => some (parts.map fun r => (r.1.id, r.2.id))
  | _ => none

theorem not_matches_of_clash {record : FullMarsRecord} (test test' : KeyTest)
    (h : clash test test') : ¬ (test.matchesRecord record ∧ test'.matchesRecord record) := by
  obtain ⟨member, matcher⟩ := test
  obtain ⟨member', matcher'⟩ := test'
  rw [clash] at h
  split at h
  · rename_i heq
    obtain rfl : member' = member := heq
    exact KeyMatcher.not_matches_of_clash matcher matcher' h _
  · exact absurd h Bool.false_ne_true

end KeyTest

namespace Matcher

def apply (record : FullMarsRecord) (m : Matcher) : Bool := m.eval (KeyTest.matchesRecord record)

def oneOf (member : MarsKey) (values : List member.valueType.Val) : Matcher :=
  .atom ⟨member, .oneOf values⟩

def noneOf (member : MarsKey) (values : List member.valueType.Val) : Matcher :=
  .atom ⟨member, .noneOf values⟩

def has (member : MarsKey) : Matcher := .atom ⟨member, .has⟩

def missing (member : MarsKey) : Matcher := .atom ⟨member, .missing⟩

def levelist (op : Op) (value : ℤ) : Matcher := .atom ⟨.levelist, .matchOp op value⟩

def chem (op : Op) (value : ℤ) : Matcher := .atom ⟨.chem, .matchOp op value⟩

/-- An argument of `matchParams`. -/
inductive ParamArg
  | param (id : ℤ)
  | range (start last : ℤ)

instance (n : ℕ) : OfNat ParamArg n := ⟨.param n⟩

def ParamArg.param? : ParamArg → Option Param
  | .param id => some ⟨id⟩
  | .range _ _ => none

def ParamArg.range? : ParamArg → Option (Param × Param)
  | .param _ => none
  | .range start last => some (⟨start⟩, ⟨last⟩)

def paramRange (start last : ℤ) : ParamArg := .range start last

/-- All single parameters go to one matcher and all ranges to another. -/
def matchParams (args : List ParamArg) : Matcher :=
  .any [.atom ⟨.param, .oneOf (args.filterMap ParamArg.param?)⟩,
    .atom ⟨.param, .ranges (args.filterMap ParamArg.range?)⟩]

end Matcher
end Multio.Mars2Grib
