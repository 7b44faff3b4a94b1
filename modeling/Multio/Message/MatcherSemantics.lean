import Multio.Lib.BooleanFormula
import Multio.Message.MetadataMatcher

namespace Multio
open Lib Config Exception

variable {C : Type} (R : ConfigurationReader C) (policy : HashPolicy String)

/-- A map of a `match` or `ignore` block: for each key the values that it lists. -/
abbrev MatchBlock := List (String × List MetadataValue)

def listedValues (cfg : C) (k : String) : List MetadataValue :=
  match listOfScalars R cfg k with
  | some vs => vs
  | none =>
    match tryToMetadataValue R policy cfg k with
    | .ok (some v) => [v]
    | _ => []

def matchBlock (cfg : C) : MatchBlock :=
  (R.keys cfg).map fun k => (k, listedValues R policy cfg k)

def matchBlocks (cfg : C) (key : String) : Formula MatchBlock :=
  if R.isSubConfiguration cfg key then
    match R.getSubConfiguration cfg key with
    | .ok sub => .atom (matchBlock R policy sub)
    | .error _ => .any []
  else .any ((R.getSubConfigurations cfg key).map fun v => .atom (matchBlock R policy v))

def Reduce.formula (r : Reduce) (φs : List (Formula MatchBlock)) : Formula MatchBlock :=
  if r = .and then .all φs else .any φs

def matchFormula (cfg : C) : Formula MatchBlock :=
  if _hnot : R.has cfg "not" = true then
    match _hget : R.getSubConfiguration cfg "not" with
    | .ok sub => .not (matchFormula sub)
    | .error _ => .any []
  else if R.has cfg "match" || R.has cfg "ignore" then
    .all ((if R.has cfg "match" then [matchBlocks R policy cfg "match"] else []) ++
      (if R.has cfg "ignore" then [.not (matchBlocks R policy cfg "ignore")] else []))
  else if _hlist : R.isSubConfigurationList cfg (listKey R cfg) = true then
    (listReduce R cfg).formula
      ((R.getSubConfigurations cfg (listKey R cfg)).attach.map fun ⟨v, _⟩ => matchFormula v)
  else .any []
termination_by R.rank cfg
decreasing_by
  · exact R.rank_subConfiguration cfg "not" sub (Or.inl _hnot) _hget
  · exact R.rank_subConfigurations cfg _ v _hlist ‹_›

/-- The metadata has a listed value under every key of the block. -/
def holds (ctx : Context) (md : BaseMetadata) (b : MatchBlock) : Bool :=
  b.all fun e =>
    match Metadata.find ctx.parametrization md e.1 with
    | some v => e.2.any fun x => x.scalarEq v
    | none => false

theorem floatEq_trans {a b c : UInt32} (h : floatEq a b = true) (h' : floatEq b c = true) :
    floatEq a c = true := by
  unfold floatEq at *
  simp only [Bool.and_eq_true, Bool.or_eq_true, beq_iff_eq, Bool.not_eq_true'] at *
  obtain ⟨⟨ha, hb⟩, h⟩ := h
  obtain ⟨⟨-, hc⟩, h'⟩ := h'
  refine ⟨⟨ha, hc⟩, ?_⟩
  rcases h with rfl | ⟨hza, hzb⟩
  · exact h'
  · rcases h' with rfl | ⟨-, hzc⟩
    · exact Or.inr ⟨hza, hzb⟩
    · exact Or.inr ⟨hza, hzc⟩

theorem doubleEq_trans {a b c : UInt64} (h : doubleEq a b = true) (h' : doubleEq b c = true) :
    doubleEq a c = true := by
  unfold doubleEq at *
  simp only [Bool.and_eq_true, Bool.or_eq_true, beq_iff_eq, Bool.not_eq_true'] at *
  obtain ⟨⟨ha, hb⟩, h⟩ := h
  obtain ⟨⟨-, hc⟩, h'⟩ := h'
  refine ⟨⟨ha, hc⟩, ?_⟩
  rcases h with rfl | ⟨hza, hzb⟩
  · exact h'
  · rcases h' with rfl | ⟨-, hzc⟩
    · exact Or.inr ⟨hza, hzb⟩
    · exact Or.inr ⟨hza, hzc⟩

theorem MetadataValue.scalarEq_trans {x y z : MetadataValue} (h : x.scalarEq y = true)
    (h' : y.scalarEq z = true) : x.scalarEq z = true := by
  cases x <;> cases y <;> simp only [scalarEq, Bool.false_eq_true] at h <;>
    cases z <;> simp only [scalarEq, Bool.false_eq_true, beq_iff_eq] at h h' ⊢
  case bool => exact h.trans h'
  case int64 => exact h.trans h'
  case double => exact doubleEq_trans h h'
  case float => exact floatEq_trans h h'
  case string => exact h.trans h'

namespace ValueSet

theorem contains_emplace {s s' : ValueSet} {x : MetadataValue} (h : emplace s x = .ok s')
    (v : MetadataValue) : contains s' v = (contains s v || x.scalarEq v) := by
  obtain ⟨-, -, h⟩ := bind_eq_ok_iff.mp h
  cases h
  by_cases hx : contains s x = true
  · rw [if_pos hx]
    obtain ⟨y, hy, hyx⟩ := List.any_eq_true.mp hx
    cases hxv : x.scalarEq v with
    | false => rw [Bool.or_false]
    | true =>
      rw [Bool.or_true]
      exact List.any_eq_true.mpr ⟨y, hy, MetadataValue.scalarEq_trans hyx hxv⟩
  · rw [if_neg hx]
    simp [contains]

theorem contains_foldlM_emplace {s s' : ValueSet} {vs : List MetadataValue}
    (h : vs.foldlM emplace s = .ok s') (v : MetadataValue) :
    contains s' v = (contains s v || vs.any fun x => x.scalarEq v) := by
  induction vs generalizing s with
  | nil =>
    cases h
    simp
  | cons x vs ih =>
    rw [List.foldlM_cons] at h
    obtain ⟨s₁, hs₁, h⟩ := bind_eq_ok_iff.mp h
    rw [ih h, contains_emplace hs₁, List.any_cons, Bool.or_assoc]

theorem find_eq {s : ValueSet} {v : MetadataValue} {b : Bool} (h : find s v = .ok b) :
    b = contains s v := by
  unfold find at h
  cases s with
  | nil =>
    cases h
    rfl
  | cons x s =>
    obtain ⟨-, -, h⟩ := bind_eq_ok_iff.mp h
    cases h
    rfl

end ValueSet

variable {R policy}

theorem MatchKeys.contains_values {cfg : C} {k : String} {s : ValueSet}
    (h : MatchKeys.values R policy cfg k = .ok s) (v : MetadataValue) :
    s.contains v = (listedValues R policy cfg k).any fun x => x.scalarEq v := by
  unfold MatchKeys.values at h
  unfold listedValues
  cases hlist : listOfScalars R cfg k with
  | some vs =>
    rw [hlist] at h
    exact ValueSet.contains_foldlM_emplace h v
  | none =>
    simp only [hlist] at h
    split_ifs at h
    obtain ⟨o, ho, h⟩ := bind_eq_ok_iff.mp h
    cases o with
    | none => cases h
    | some x =>
      rw [ValueSet.contains_emplace h, ho]
      simp [ValueSet.contains]

def addKey (R : ConfigurationReader C) (policy : HashPolicy String) (cfg : C)
    (m : OrderedMap String ValueSet) (k : String) :
    Except Exception (OrderedMap String ValueSet) := do
  let s ← MatchKeys.values R policy cfg k
  .ok (m.emplace k s)

theorem find?_foldlM_addKey {cfg : C} {ks : List String} {m m' : OrderedMap String ValueSet}
    (h : ks.foldlM (addKey R policy cfg) m = .ok m') (k : String) (s : ValueSet) :
    m'.find? k = some s ↔ m.find? k = some s ∨
      m.find? k = none ∧ k ∈ ks ∧ MatchKeys.values R policy cfg k = .ok s := by
  induction ks generalizing m with
  | nil =>
    cases h
    simp
  | cons x ks ih =>
    rw [List.foldlM_cons] at h
    obtain ⟨m₁, hm₁, h⟩ := bind_eq_ok_iff.mp h
    obtain ⟨s', hs', hm₁⟩ := bind_eq_ok_iff.mp hm₁
    cases hm₁
    rw [ih h, List.mem_cons]
    by_cases hx : x = k
    · subst hx
      cases hfind : m.find? x with
      | some s₀ => simp [OrderedMap.emplace, OrderedMap.contains, hfind]
      | none => simp [OrderedMap.emplace, OrderedMap.contains, hfind, hs']
    · have hsame : (m.emplace x s').find? k = m.find? k := by
        unfold OrderedMap.emplace
        split_ifs
        · rfl
        · rw [OrderedMap.find?_insert, if_neg (Ne.symm hx)]
      rw [hsame]
      simp [Ne.symm hx]

theorem values_of_foldlM_addKey {cfg : C} {ks : List String} {m m' : OrderedMap String ValueSet}
    (h : ks.foldlM (addKey R policy cfg) m = .ok m') :
    ∀ k ∈ ks, ∃ s, MatchKeys.values R policy cfg k = .ok s := by
  induction ks generalizing m with
  | nil =>
    intro k hk
    cases hk
  | cons x ks ih =>
    rw [List.foldlM_cons] at h
    obtain ⟨m₁, hm₁, h⟩ := bind_eq_ok_iff.mp h
    obtain ⟨s, hs, -⟩ := bind_eq_ok_iff.mp hm₁
    intro k hk
    rcases List.mem_cons.mp hk with rfl | hk
    · exact ⟨s, hs⟩
    · exact ih h k hk

/-- The matcher has the set of each key of the configuration, and nothing else. -/
theorem MatchKeys.construct_spec {cfg : C} {p : Predicate} {e : Bool} {m : MatchKeys}
    (h : MatchKeys.construct R policy cfg p e = .ok m) :
    m.predicate = p ∧
    (∀ k ∈ R.keys cfg, ∃ s, MatchKeys.values R policy cfg k = .ok s ∧ (k, s) ∈ m.matcher) ∧
    ∀ x ∈ m.matcher, x.1 ∈ R.keys cfg ∧ MatchKeys.values R policy cfg x.1 = .ok x.2 := by
  obtain ⟨matcher, hfold, h⟩ := bind_eq_ok_iff.mp h
  cases h
  have hmem : ∀ k s, (k, s) ∈ matcher.entries ↔
      k ∈ R.keys cfg ∧ MatchKeys.values R policy cfg k = .ok s := by
    intro k s
    rw [← OrderedMap.find?_eq_some_iff, find?_foldlM_addKey hfold]
    simp
  refine ⟨rfl, ?_, ?_⟩
  · intro k hk
    obtain ⟨s, hs⟩ := values_of_foldlM_addKey hfold k hk
    exact ⟨s, hs, (hmem k s).mpr ⟨hk, hs⟩⟩
  · intro x hx
    exact (hmem x.1 x.2).mp hx

variable {ctx : MatchContext} {md : BaseMetadata}

theorem MatchKeys.matchesAll_eq {enforce : Bool} {rest : List (String × ValueSet)} {b : Bool}
    (h : MatchKeys.matchesAll ctx enforce md rest = .ok b) :
    b = rest.all fun e =>
      match Metadata.find ctx.parametrization md e.1 with
      | some v => ValueSet.contains e.2 v
      | none => false := by
  induction rest with
  | nil =>
    cases h
    rfl
  | cons e rest ih =>
    obtain ⟨k, s⟩ := e
    rw [MatchKeys.matchesAll] at h
    cases hfind : Metadata.find ctx.parametrization md k with
    | none =>
      rw [hfind] at h
      cases h
      simp [hfind]
    | some v =>
      simp only [hfind] at h
      obtain ⟨found, hfound, h⟩ := bind_eq_ok_iff.mp h
      have hcontains := ValueSet.find_eq hfound
      cases found with
      | true =>
        rw [if_pos rfl] at h
        simp only [List.all_cons, hfind, ← hcontains, Bool.true_and]
        exact ih h
      | false =>
        rw [if_neg Bool.false_ne_true] at h
        obtain ⟨-, -, h⟩ := bind_eq_ok_iff.mp h
        cases h
        simp [hfind, ← hcontains]

theorem MatchKeys.matches_eq {cfg : C} {p : Predicate} {e : Bool} {m : MatchKeys}
    (hm : MatchKeys.construct R policy cfg p e = .ok m) {b : Bool}
    (h : m.matches ctx md = .ok b) :
    b = p.apply (holds ctx.toContext md (matchBlock R policy cfg)) := by
  obtain ⟨res, hres, h⟩ := bind_eq_ok_iff.mp h
  obtain ⟨hp, hkeys, hmatcher⟩ := MatchKeys.construct_spec hm
  cases h
  rw [hp, MatchKeys.matchesAll_eq hres]
  congr 1
  rw [Bool.eq_iff_iff, holds, matchBlock, List.all_eq_true, List.all_map, List.all_eq_true]
  constructor
  · intro hall k hk
    obtain ⟨s, hs, hks⟩ := hkeys k hk
    simp only [Function.comp_apply, ← MatchKeys.contains_values hs]
    exact hall (k, s) hks
  · intro hall x hx
    obtain ⟨hk, hs⟩ := hmatcher x hx
    simp only [MatchKeys.contains_values hs]
    exact hall x.1 hk

/-- Whenever the element gives a result, it is that of the formula. -/
def Elem.Means (ctx : MatchContext) (md : BaseMetadata) (e : Elem) (φ : Formula MatchBlock) :
    Prop :=
  ∀ b, e.matches ctx md = .ok b → b = φ.eval (holds ctx.toContext md)

theorem Elem.matchesList_eq {r : Reduce} {es : List Elem} {φs : List (Formula MatchBlock)}
    (hes : List.Forall₂ (Elem.Means ctx md) es φs) {b : Bool}
    (h : Elem.matchesList ctx md r es = .ok b) :
    b = (r.formula φs).eval (holds ctx.toContext md) := by
  induction hes with
  | nil =>
    rw [Elem.matchesList] at h
    cases h
    cases r <;> simp [Reduce.formula]
  | cons he _ ih =>
    rw [Elem.matchesList] at h
    obtain ⟨b', hb', h⟩ := bind_eq_ok_iff.mp h
    have hmeans := he b' hb'
    cases r with
    | or =>
      cases b' with
      | true =>
        cases h
        simp [Reduce.formula, ← hmeans]
      | false =>
        rw [ih h]
        simp [Reduce.formula, ← hmeans]
    | and =>
      cases b' with
      | true =>
        rw [ih h]
        simp [Reduce.formula, ← hmeans]
      | false =>
        cases h
        simp [Reduce.formula, ← hmeans]

def Predicate.formula (p : Predicate) (φ : Formula MatchBlock) : Formula MatchBlock :=
  if p = .negate then .not φ else φ

theorem Predicate.eval_formula (p : Predicate) (φ : Formula MatchBlock) (v : MatchBlock → Bool) :
    (p.formula φ).eval v = p.apply (φ.eval v) := by
  cases p with
  | none => rfl
  | negate => exact Formula.eval_not v φ

theorem Predicate.apply_invert (p : Predicate) (b : Bool) : p.invert.apply b = !p.apply b := by
  cases p with
  | none => rfl
  | negate => exact (Bool.not_not b).symm

theorem MatchReduce.matches_toElem (m : MatchReduce) :
    m.toElem.matches ctx md = m.matches ctx md := by
  rw [MatchReduce.toElem, Elem.matches]
  rfl

theorem MatchReduce.means {m : MatchReduce} {φs : List (Formula MatchBlock)}
    (hes : List.Forall₂ (Elem.Means ctx md) m.matchers φs) :
    m.toElem.Means ctx md
      (m.predicate.formula (m.reduce.formula φs)) := by
  intro b h
  rw [MatchReduce.matches_toElem] at h
  obtain ⟨res, hres, h⟩ := bind_eq_ok_iff.mp h
  cases h
  rw [Predicate.eval_formula, Elem.matchesList_eq hes hres]

theorem MatchKeys.means {cfg : C} {p : Predicate} {e : Bool} {m : MatchKeys}
    (h : MatchKeys.construct R policy cfg p e = .ok m) :
    (Elem.matchKeys m).Means ctx md (p.formula (.atom (matchBlock R policy cfg))) := by
  intro b hb
  rw [Predicate.eval_formula, Formula.eval_atom]
  rw [Elem.matches] at hb
  exact MatchKeys.matches_eq h hb

theorem constructMatchIgnore_means {cfg : C} {key : String} {p : Predicate} {e : Bool}
    {x : MatchKeys ⊕ MatchReduce} (h : constructMatchIgnore R policy cfg key p e = .ok x) :
    (elemOf x).Means ctx md (p.formula (matchBlocks R policy cfg key)) := by
  unfold constructMatchIgnore at h
  unfold matchBlocks
  split_ifs at h with hsub hlist
  · obtain ⟨sub, hsub', h⟩ := bind_eq_ok_iff.mp h
    obtain ⟨m, hm, h⟩ := bind_eq_ok_iff.mp h
    cases h
    rw [if_pos hsub, hsub']
    exact MatchKeys.means hm
  · rw [if_neg hsub]
    split at h
    next v hv =>
      obtain ⟨m, hm, h⟩ := bind_eq_ok_iff.mp h
      cases h
      intro b hb
      rw [MatchKeys.means hm b hb, hv]
      simp [Predicate.eval_formula]
    next hv =>
      obtain ⟨ms, hms, h⟩ := bind_eq_ok_iff.mp h
      cases h
      have hforall : List.Forall₂ (Elem.Means ctx md) (ms.map .matchKeys)
          ((R.getSubConfigurations cfg key).map fun v => .atom (matchBlock R policy v)) := by
        rw [List.forall₂_map_left_iff, List.forall₂_map_right_iff]
        apply (mapM_eq_ok_iff.mp hms).flip.imp
        intro m v hm
        exact MatchKeys.means hm
      exact MatchReduce.means hforall

theorem reduceOf_means {x : MatchKeys ⊕ MatchReduce} {φ : Formula MatchBlock}
    (h : (elemOf x).Means ctx md φ) : (reduceOf x).toElem.Means ctx md φ := by
  cases x with
  | inl m =>
    intro b hb
    rw [MatchReduce.means (m := reduceOf (.inl m)) (.cons h .nil) b hb]
    simp [Predicate.eval_formula, reduceOf, Predicate.apply, Reduce.formula]
  | inr m => exact h

theorem Elem.Means.congr {e : Elem} {φ ψ : Formula MatchBlock} (h : e.Means ctx md φ)
    (heval : φ.eval (holds ctx.toContext md) = ψ.eval (holds ctx.toContext md)) :
    e.Means ctx md ψ := by
  intro b hb
  rw [← heval]
  exact h b hb

theorem constructMatch_means {cfg : C} {p : Predicate} {e : Bool} {m : MatchReduce}
    (hblock : (R.has cfg "match" || R.has cfg "ignore") = true)
    (h : constructMatch R policy cfg p e = .ok m) :
    m.toElem.Means ctx md (p.formula (.all
      ((if R.has cfg "match" then [matchBlocks R policy cfg "match"] else []) ++
        (if R.has cfg "ignore" then [.not (matchBlocks R policy cfg "ignore")] else [])))) := by
  unfold constructMatch at h
  cases hmatch : R.has cfg "match" with
  | true =>
    cases hignore : R.has cfg "ignore" with
    | true =>
      simp only [hmatch, hignore, Bool.and_self, if_true] at h ⊢
      obtain ⟨x, hx, h⟩ := bind_eq_ok_iff.mp h
      obtain ⟨y, hy, h⟩ := bind_eq_ok_iff.mp h
      cases h
      exact MatchReduce.means (.cons (constructMatchIgnore_means hx)
        (.cons (constructMatchIgnore_means hy) .nil))
    | false =>
      simp only [hmatch, hignore, Bool.and_false, Bool.false_eq_true, if_false, if_true] at h ⊢
      obtain ⟨x, hx, h⟩ := bind_eq_ok_iff.mp h
      cases h
      apply (reduceOf_means (constructMatchIgnore_means hx)).congr
      simp [Predicate.eval_formula]
  | false =>
    rw [hmatch, Bool.false_or] at hblock
    simp only [hmatch, hblock, Bool.false_and, Bool.false_eq_true, if_false, if_true] at h ⊢
    obtain ⟨x, hx, h⟩ := bind_eq_ok_iff.mp h
    cases h
    apply (reduceOf_means (constructMatchIgnore_means hx)).congr
    simp [Predicate.eval_formula, Predicate.apply_invert]
    cases p <;> simp [Predicate.apply]

/-- The matcher built from a configuration means its formula, under the predicate. -/
theorem MatchReduce.construct_means {cfg : C} {p : Predicate} {e : Bool} {m : MatchReduce}
    (h : MatchReduce.construct R policy cfg p e = .ok m) :
    m.toElem.Means ctx md (p.formula (matchFormula R policy cfg)) := by
  -- by the rank of configurations, which the nested ones are below
  induction hrank : R.rank cfg using Nat.strong_induction_on generalizing cfg p e m with
  | _ n ih =>
    subst hrank
    rw [MatchReduce.construct_eq] at h
    obtain ⟨enforce, -, h⟩ := bind_eq_ok_iff.mp h
    obtain ⟨_, -, h⟩ := bind_eq_ok_iff.mp h
    rw [matchFormula]
    split_ifs at h with hnot hblock hlist
    · obtain ⟨sub, hget, h⟩ := bind_eq_ok_iff.mp h
      have hsub := ih _ (R.rank_subConfiguration cfg "not" sub (Or.inl hnot) hget) h rfl
      rw [dif_pos hnot, hget]
      apply hsub.congr
      simp only [Predicate.eval_formula, Predicate.apply_invert, Formula.eval_not]
      cases p <;> simp [Predicate.apply]
    · rw [dif_neg hnot, if_pos hblock]
      exact constructMatch_means hblock h
    · rw [dif_neg hnot, if_neg hblock, dif_pos hlist]
      obtain ⟨ms, hms, h⟩ := bind_eq_ok_iff.mp h
      cases h
      have hforall : List.Forall₂ (Elem.Means ctx md) (ms.map MatchReduce.toElem)
          ((R.getSubConfigurations cfg (listKey R cfg)).attach.map
            fun ⟨v, _⟩ => matchFormula R policy v) := by
        have hmem : List.Forall₂ (fun v m => v ∈ R.getSubConfigurations cfg (listKey R cfg) ∧
            MatchReduce.construct R policy v .none enforce = .ok m)
            (R.getSubConfigurations cfg (listKey R cfg)) ms :=
          (List.forall₂_and_left _ _).mpr ⟨fun v hv => hv, mapM_eq_ok_iff.mp hms⟩
        have hattach : ((R.getSubConfigurations cfg (listKey R cfg)).attach.map
            fun ⟨v, _⟩ => matchFormula R policy v) =
            (R.getSubConfigurations cfg (listKey R cfg)).map (matchFormula R policy) :=
          List.attach_map_val
        rw [hattach, List.forall₂_map_left_iff, List.forall₂_map_right_iff]
        apply hmem.flip.imp
        intro m v hv
        exact ih _ (R.rank_subConfigurations cfg _ v hlist hv.1) hv.2 rfl
      exact MatchReduce.means hforall

theorem map_not_apply (p : Predicate) (x : Except Exception Bool) :
    (do let res ← x; .ok (p.invert.apply res)) =
      (do let res ← x; (.ok (p.apply res) : Except Exception Bool)).map (!·) := by
  cases x with
  | error e => rfl
  | ok res =>
    rw [ok_bind, ok_bind, Predicate.apply_invert]
    rfl

theorem reduceOf_matches (m : MatchKeys) (md : BaseMetadata) :
    (reduceOf (.inl m)).matches ctx md = m.matches ctx md := by
  unfold MatchReduce.matches reduceOf
  simp only [Elem.matchesList, Elem.matches]
  cases m.matches ctx md with
  | error e => rfl
  | ok b => cases b <;> rfl

theorem MatchKeys.construct_invert (ctx : MatchContext) {cfg : C} {p : Predicate} {e : Bool}
    {m : MatchKeys} (h : MatchKeys.construct R policy cfg p e = .ok m) :
    ∃ m', MatchKeys.construct R policy cfg p.invert e = .ok m' ∧
      ∀ md, m'.matches ctx md = (m.matches ctx md).map (!·) := by
  obtain ⟨matcher, hfold, h⟩ := bind_eq_ok_iff.mp h
  cases h
  refine ⟨{ predicate := p.invert, enforceSameKeyTypes := e, matcher := matcher.entries },
    bind_eq_ok_iff.mpr ⟨matcher, hfold, rfl⟩, ?_⟩
  intro md
  exact map_not_apply p _

theorem constructMatchIgnore_invert (ctx : MatchContext) {cfg : C} {key : String} {p : Predicate}
    {e : Bool} {x : MatchKeys ⊕ MatchReduce}
    (h : constructMatchIgnore R policy cfg key p e = .ok x) :
    ∃ x', constructMatchIgnore R policy cfg key p.invert e = .ok x' ∧
      ∀ md, (reduceOf x').matches ctx md = ((reduceOf x).matches ctx md).map (!·) := by
  have hkeys {sub : C} {m : MatchKeys} (hm : MatchKeys.construct R policy sub p e = .ok m) :
      ∃ m', MatchKeys.construct R policy sub p.invert e = .ok m' ∧
        ∀ md, (reduceOf (.inl m')).matches ctx md =
          ((reduceOf (.inl m)).matches ctx md).map (!·) := by
    obtain ⟨m', hm', hnot⟩ := MatchKeys.construct_invert ctx hm
    refine ⟨m', hm', ?_⟩
    intro md
    rw [reduceOf_matches, reduceOf_matches, hnot]
  unfold constructMatchIgnore at h ⊢
  split_ifs at h ⊢
  · obtain ⟨sub, hsub, h⟩ := bind_eq_ok_iff.mp h
    obtain ⟨m, hm, h⟩ := bind_eq_ok_iff.mp h
    cases h
    obtain ⟨m', hm', hnot⟩ := hkeys hm
    exact ⟨.inl m', bind_eq_ok_iff.mpr ⟨sub, hsub, bind_eq_ok_iff.mpr ⟨m', hm', rfl⟩⟩, hnot⟩
  · split at h
    next v hv =>
      obtain ⟨m, hm, h⟩ := bind_eq_ok_iff.mp h
      cases h
      obtain ⟨m', hm', hnot⟩ := hkeys hm
      exact ⟨.inl m', bind_eq_ok_iff.mpr ⟨m', hm', rfl⟩, hnot⟩
    next hv =>
      obtain ⟨ms, hms, h⟩ := bind_eq_ok_iff.mp h
      cases h
      refine ⟨.inr { matchers := ms.map .matchKeys, reduce := .or, predicate := p.invert }, ?_, ?_⟩
      · exact bind_eq_ok_iff.mpr ⟨ms, hms, rfl⟩
      · intro md
        exact map_not_apply p _

theorem constructMatch_invert {cfg : C} {p : Predicate} {e : Bool} {m : MatchReduce}
    (h : constructMatch R policy cfg p e = .ok m) :
    ∃ m', constructMatch R policy cfg p.invert e = .ok m' ∧
      ∀ md, m'.matches ctx md = (m.matches ctx md).map (!·) := by
  unfold constructMatch at h ⊢
  split_ifs at h ⊢
  · obtain ⟨x, hx, h⟩ := bind_eq_ok_iff.mp h
    obtain ⟨y, hy, h⟩ := bind_eq_ok_iff.mp h
    cases h
    refine ⟨_, bind_eq_ok_iff.mpr ⟨x, hx, bind_eq_ok_iff.mpr ⟨y, hy, rfl⟩⟩, ?_⟩
    intro md
    exact map_not_apply p _
  · obtain ⟨x, hx, h⟩ := bind_eq_ok_iff.mp h
    cases h
    obtain ⟨x', hx', hnot⟩ := constructMatchIgnore_invert ctx hx
    exact ⟨reduceOf x', bind_eq_ok_iff.mpr ⟨x', hx', rfl⟩, hnot⟩
  · obtain ⟨x, hx, h⟩ := bind_eq_ok_iff.mp h
    cases h
    obtain ⟨x', hx', hnot⟩ := constructMatchIgnore_invert ctx hx
    exact ⟨reduceOf x', bind_eq_ok_iff.mpr ⟨x', hx', rfl⟩, hnot⟩

theorem MatchReduce.construct_invert {cfg : C} {p : Predicate} {e : Bool} {m : MatchReduce}
    (h : MatchReduce.construct R policy cfg p e = .ok m) :
    ∃ m', MatchReduce.construct R policy cfg p.invert e = .ok m' ∧
      ∀ md, m'.matches ctx md = (m.matches ctx md).map (!·) := by
  induction hrank : R.rank cfg using Nat.strong_induction_on generalizing cfg p e m with
  | _ n ih =>
    subst hrank
    rw [MatchReduce.construct_eq] at h ⊢
    obtain ⟨enforce, henforce, h⟩ := bind_eq_ok_iff.mp h
    obtain ⟨_, hcheck, h⟩ := bind_eq_ok_iff.mp h
    rw [henforce, ok_bind, hcheck, ok_bind]
    split_ifs at h ⊢ with hnot
    · obtain ⟨sub, hget, h⟩ := bind_eq_ok_iff.mp h
      rw [hget, ok_bind]
      exact ih _ (R.rank_subConfiguration cfg "not" sub (Or.inl hnot) hget) h rfl
    · exact constructMatch_invert h
    · obtain ⟨ms, hms, h⟩ := bind_eq_ok_iff.mp h
      cases h
      rw [hms, ok_bind]
      refine ⟨_, rfl, ?_⟩
      intro md
      exact map_not_apply p _

/-- A configuration that wraps another one in `not` and says nothing else. -/
structure IsNot (R : ConfigurationReader C) (w cfg : C) : Prop where
  has_not : R.has w "not" = true
  has_no_other : R.has w "any" = false ∧ R.has w "all" = false ∧ R.has w "match" = false ∧
    R.has w "ignore" = false ∧ R.has w "enforce-same-key-types" = false
  getSubConfiguration : R.getSubConfiguration w "not" = .ok cfg

theorem MatchReduce.construct_isNot {w cfg : C} (hw : IsNot R w cfg) (p : Predicate) (e : Bool) :
    MatchReduce.construct R policy w p e = MatchReduce.construct R policy cfg p.invert e := by
  obtain ⟨hany, hall, hmatch, hignore, henforce⟩ := hw.has_no_other
  have hcheck : checkKeys R w = .ok () := by
    simp [checkKeys, hany, hall, hmatch, hignore, hw.has_not]
  have henforces : enforcesKeyTypes R w e = .ok e := by
    simp [enforcesKeyTypes, henforce]
  rw [MatchReduce.construct_eq, henforces, ok_bind, hcheck, ok_bind, if_pos hw.has_not,
    hw.getSubConfiguration, ok_bind]

/-- The matcher built from a configuration decides its formula, and negating the configuration,
by the predicate or by `not`, negates each of its results. -/
theorem matcher_semantics {C : Type} (R : ConfigurationReader C) (policy : HashPolicy String)
    (ctx : MatchContext) (cfg : C) (p : Predicate) (enforceSameKeyTypes : Bool) (m : MatchReduce)
    (hm : MatchReduce.construct R policy cfg p enforceSameKeyTypes = .ok m) :
    (∀ md b, m.matches ctx md = .ok b →
      b = p.apply ((matchFormula R policy cfg).eval (holds ctx.toContext md))) ∧
    (∃ m', MatchReduce.construct R policy cfg p.invert enforceSameKeyTypes = .ok m' ∧
      ∀ md, m'.matches ctx md = (m.matches ctx md).map (!·)) ∧
    ∀ w, IsNot R w cfg → ∃ m',
      MatchReduce.construct R policy w p enforceSameKeyTypes = .ok m' ∧
      ∀ md, m'.matches ctx md = (m.matches ctx md).map (!·) := by
  refine ⟨?_, MatchReduce.construct_invert hm, ?_⟩
  · intro md b hb
    rw [← Predicate.eval_formula]
    apply MatchReduce.construct_means hm b
    rw [MatchReduce.matches_toElem]
    exact hb
  · intro w hw
    rw [MatchReduce.construct_isNot hw]
    exact MatchReduce.construct_invert hm

def notMatch : ConfigTree :=
  .map [("not", .map [("match", .map [("name", .list [.string "a", .string "b"])])])]

def nameContext : MatchContext where
  parametrization := { bucketCount := 541 }
  toString _ := ""
  printValues _ := ""

def namePolicy : HashPolicy String := { hash := String.length, nextBucketCount := fun _ => 541 }

def notMatchReduce : MatchReduce where
  matchers := [.matchKeys { predicate := .negate, enforceSameKeyTypes := true,
                            matcher := [("name", [.string "a", .string "b"])] }]
  reduce := .or
  predicate := .none

def nameC : BaseMetadata := { bucketCount := 541, nodes := [("name", .string "c")] }

theorem matcher_semantics_notMatch :
    (matchFormula ConfigTree.reader namePolicy notMatch).eval (holds nameContext.toContext nameC) =
        true ∧
      ∃ m', MatchReduce.construct ConfigTree.reader namePolicy notMatch .negate true = .ok m' ∧
        m'.matches nameContext nameC = .ok false := by
  obtain ⟨hformula, ⟨m', hm', hnot⟩, -⟩ := matcher_semantics ConfigTree.reader namePolicy
    nameContext notMatch .none true notMatchReduce (by
      rw [MatchReduce.construct_eq]
      change MatchReduce.construct ConfigTree.reader namePolicy
        (ConfigTree.map [("match", .map [("name", .list [.string "a", .string "b"])])]) .negate
          true = _
      rw [MatchReduce.construct_eq]
      rfl)
  refine ⟨(hformula nameC true rfl).symm, m', hm', ?_⟩
  rw [hnot]
  rfl

end Multio
