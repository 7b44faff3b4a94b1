import Mathlib.Data.Bool.Basic
import Mathlib.Data.List.Basic

namespace Multio.Lib

inductive Formula (α : Type)
  | atom (a : α)
  | not (φ : Formula α)
  | all (φs : List (Formula α))
  | any (φs : List (Formula α))

namespace Formula

variable {α : Type}

mutual

def eval (v : α → Bool) : Formula α → Bool
  | .atom a => v a
  | .not φ => !eval v φ
  | .all φs => evalAll v φs
  | .any φs => evalAny v φs

def evalAll (v : α → Bool) : List (Formula α) → Bool
  | [] => true
  | φ :: φs => eval v φ && evalAll v φs

def evalAny (v : α → Bool) : List (Formula α) → Bool
  | [] => false
  | φ :: φs => eval v φ || evalAny v φs

end

@[simp] theorem eval_atom (v : α → Bool) (a : α) : eval v (.atom a) = v a := by rw [eval]

@[simp] theorem eval_not (v : α → Bool) (φ : Formula α) : eval v (.not φ) = !eval v φ := by
  rw [eval]

@[simp] theorem eval_all (v : α → Bool) (φs : List (Formula α)) :
    eval v (.all φs) = φs.all (eval v) := by
  rw [eval]
  induction φs with
  | nil => rfl
  | cons φ φs ih => rw [evalAll, ih, List.all_cons]

@[simp] theorem eval_any (v : α → Bool) (φs : List (Formula α)) :
    eval v (.any φs) = φs.any (eval v) := by
  rw [eval]
  induction φs with
  | nil => rfl
  | cons φ φs ih => rw [evalAny, ih, List.any_cons]

mutual

def atoms : Formula α → List α
  | .atom a => [a]
  | .not φ => atoms φ
  | .all φs | .any φs => atomsOf φs

def atomsOf : List (Formula α) → List α
  | [] => []
  | φ :: φs => atoms φ ++ atomsOf φs

end

@[elab_as_elim]
theorem induction {motive : Formula α → Prop} (atom : ∀ a, motive (.atom a))
    (not : ∀ φ, motive φ → motive (.not φ))
    (all : ∀ φs, (∀ φ ∈ φs, motive φ) → motive (.all φs))
    (any : ∀ φs, (∀ φ ∈ φs, motive φ) → motive (.any φs)) (φ : Formula α) : motive φ := by
  refine @Formula.rec α motive (fun φs => ∀ φ ∈ φs, motive φ) atom not all any ?_ ?_ φ
  · simp
  · intro head tail hhead htail
    simpa using ⟨hhead, htail⟩

theorem atomsOf_eq (φs : List (Formula α)) : atomsOf φs = φs.flatMap atoms := by
  induction φs with
  | nil => rfl
  | cons φ φs ih => rw [atomsOf, ih, List.flatMap_cons]

theorem eval_congr {v v' : α → Bool} (φ : Formula α) (h : ∀ a ∈ φ.atoms, v a = v' a) :
    eval v φ = eval v' φ := by
  have hlist : ∀ φs : List (Formula α), (∀ φ ∈ φs, (∀ a ∈ φ.atoms, v a = v' a) →
      eval v φ = eval v' φ) → (∀ a ∈ atomsOf φs, v a = v' a) →
      ∀ φ ∈ φs, eval v φ = eval v' φ := by
    intro φs ih hatoms φ hφ
    apply ih φ hφ
    intro a ha
    exact hatoms a (by rw [atomsOf_eq]; exact List.mem_flatMap.mpr ⟨φ, hφ, ha⟩)
  induction φ using Formula.induction with
  | atom a =>
    rw [eval_atom, eval_atom]
    exact h a (by simp [atoms])
  | not φ ih => rw [eval_not, eval_not, ih (by rwa [atoms] at h)]
  | all φs ih =>
    have heq := hlist φs ih (by rwa [atoms] at h)
    rw [eval_all, eval_all, Bool.eq_iff_iff, List.all_eq_true, List.all_eq_true]
    exact forall₂_congr fun φ hφ => by rw [heq φ hφ]
  | any φs ih =>
    have heq := hlist φs ih (by rwa [atoms] at h)
    rw [eval_any, eval_any, Bool.eq_iff_iff, List.any_eq_true, List.any_eq_true]
    exact exists_congr fun φ => and_congr_right fun hφ => by rw [heq φ hφ]

mutual

/-- The formula without its negations and without the atoms that are not kept. -/
def weaken (keep : α → Bool) : Formula α → Formula α
  | .atom a => if keep a then .atom a else .all []
  | .not _ => .all []
  | .all φs => .all (weakenList keep φs)
  | .any φs => .any (weakenList keep φs)

def weakenList (keep : α → Bool) : List (Formula α) → List (Formula α)
  | [] => []
  | φ :: φs => weaken keep φ :: weakenList keep φs

end

theorem weakenList_eq (keep : α → Bool) (φs : List (Formula α)) :
    weakenList keep φs = φs.map (weaken keep) := by
  induction φs with
  | nil => rfl
  | cons φ φs ih => rw [weakenList, ih, List.map_cons]

theorem eval_weaken {keep v v' : α → Bool} (h : ∀ a, keep a → v a → v' a) (φ : Formula α)
    (hφ : eval v φ) : eval v' (weaken keep φ) := by
  induction φ using Formula.induction with
  | atom a =>
    rw [weaken]
    split
    · rename_i hkeep
      rw [eval_atom] at hφ ⊢
      exact h a hkeep hφ
    · simp
  | not φ => simp [weaken]
  | all φs ih =>
    rw [eval_all, List.all_eq_true] at hφ
    rw [weaken, weakenList_eq, eval_all, List.all_map, List.all_eq_true]
    exact fun φ hmem => ih φ hmem (hφ φ hmem)
  | any φs ih =>
    rw [eval_any, List.any_eq_true] at hφ
    obtain ⟨φ, hmem, htrue⟩ := hφ
    rw [weaken, weakenList_eq, eval_any, List.any_map, List.any_eq_true]
    exact ⟨φ, hmem, ih φ hmem htrue⟩

mutual

/-- The formula is true as far as the atoms tell that are known to be; a negation never is. -/
def sure (known : α → Bool) : Formula α → Bool
  | .atom a => known a
  | .not _ => false
  | .all φs => allSure known φs
  | .any φs => anySure known φs

def allSure (known : α → Bool) : List (Formula α) → Bool
  | [] => true
  | φ :: φs => sure known φ && allSure known φs

def anySure (known : α → Bool) : List (Formula α) → Bool
  | [] => false
  | φ :: φs => sure known φ || anySure known φs

end

theorem allSure_eq (known : α → Bool) (φs : List (Formula α)) :
    allSure known φs = φs.all (sure known) := by
  induction φs with
  | nil => rfl
  | cons φ φs ih => rw [allSure, ih, List.all_cons]

theorem anySure_eq (known : α → Bool) (φs : List (Formula α)) :
    anySure known φs = φs.any (sure known) := by
  induction φs with
  | nil => rfl
  | cons φ φs ih => rw [anySure, ih, List.any_cons]

theorem eval_of_sure {known v : α → Bool} (h : ∀ a, known a → v a) (φ : Formula α)
    (hφ : sure known φ) : eval v φ := by
  induction φ using Formula.induction with
  | atom a =>
    rw [sure] at hφ
    rw [eval_atom]
    exact h a hφ
  | not φ => simp [sure] at hφ
  | all φs ih =>
    rw [sure, allSure_eq, List.all_eq_true] at hφ
    rw [eval_all, List.all_eq_true]
    exact fun φ hmem => ih φ hmem (hφ φ hmem)
  | any φs ih =>
    rw [sure, anySure_eq, List.any_eq_true] at hφ
    obtain ⟨φ, hmem, htrue⟩ := hφ
    rw [eval_any, List.any_eq_true]
    exact ⟨φ, hmem, ih φ hmem htrue⟩

mutual

/-- The atom excludes the formula, given which atoms exclude one another. -/
def refutedBy (clash : α → α → Bool) (a : α) : Formula α → Bool
  | .atom b => clash a b
  | .not _ => false
  | .all φs => anyRefutedBy clash a φs
  | .any φs => allRefutedBy clash a φs

def anyRefutedBy (clash : α → α → Bool) (a : α) : List (Formula α) → Bool
  | [] => false
  | φ :: φs => refutedBy clash a φ || anyRefutedBy clash a φs

def allRefutedBy (clash : α → α → Bool) (a : α) : List (Formula α) → Bool
  | [] => true
  | φ :: φs => refutedBy clash a φ && allRefutedBy clash a φs

end

mutual

def contradicts (clash : α → α → Bool) (ψ : Formula α) : Formula α → Bool
  | .atom a => refutedBy clash a ψ
  | .not _ => false
  | .all φs => anyContradicts clash ψ φs
  | .any φs => allContradict clash ψ φs

def anyContradicts (clash : α → α → Bool) (ψ : Formula α) : List (Formula α) → Bool
  | [] => false
  | φ :: φs => contradicts clash ψ φ || anyContradicts clash ψ φs

def allContradict (clash : α → α → Bool) (ψ : Formula α) : List (Formula α) → Bool
  | [] => true
  | φ :: φs => contradicts clash ψ φ && allContradict clash ψ φs

end

section Exclusion

variable {clash : α → α → Bool}

theorem anyRefutedBy_eq (a : α) (φs : List (Formula α)) :
    anyRefutedBy clash a φs = φs.any (refutedBy clash a) := by
  induction φs with
  | nil => rfl
  | cons φ φs ih => rw [anyRefutedBy, ih, List.any_cons]

theorem allRefutedBy_eq (a : α) (φs : List (Formula α)) :
    allRefutedBy clash a φs = φs.all (refutedBy clash a) := by
  induction φs with
  | nil => rfl
  | cons φ φs ih => rw [allRefutedBy, ih, List.all_cons]

theorem anyContradicts_eq (ψ : Formula α) (φs : List (Formula α)) :
    anyContradicts clash ψ φs = φs.any (contradicts clash ψ) := by
  induction φs with
  | nil => rfl
  | cons φ φs ih => rw [anyContradicts, ih, List.any_cons]

theorem allContradict_eq (ψ : Formula α) (φs : List (Formula α)) :
    allContradict clash ψ φs = φs.all (contradicts clash ψ) := by
  induction φs with
  | nil => rfl
  | cons φ φs ih => rw [allContradict, ih, List.all_cons]

variable {v : α → Bool} (hclash : ∀ a b, clash a b → ¬ (v a ∧ v b))

include hclash

theorem not_eval_of_refutedBy {a : α} (ha : v a) (φ : Formula α) (h : refutedBy clash a φ) :
    ¬ eval v φ := by
  induction φ using Formula.induction with
  | atom b =>
    rw [refutedBy] at h
    rw [eval_atom]
    exact fun hb => hclash a b h ⟨ha, hb⟩
  | not φ => simp [refutedBy] at h
  | all φs ih =>
    rw [refutedBy, anyRefutedBy_eq, List.any_eq_true] at h
    obtain ⟨φ, hφ, hrefuted⟩ := h
    rw [eval_all, List.all_eq_true]
    exact fun hall => ih φ hφ hrefuted (hall φ hφ)
  | any φs ih =>
    rw [refutedBy, allRefutedBy_eq, List.all_eq_true] at h
    rw [eval_any, List.any_eq_true]
    rintro ⟨φ, hφ, htrue⟩
    exact ih φ hφ (h φ hφ) htrue

theorem not_eval_of_contradicts {ψ : Formula α} (hψ : eval v ψ) (φ : Formula α)
    (h : contradicts clash ψ φ) : ¬ eval v φ := by
  induction φ using Formula.induction with
  | atom a =>
    rw [contradicts] at h
    rw [eval_atom]
    exact fun ha => not_eval_of_refutedBy hclash ha ψ h hψ
  | not φ => simp [contradicts] at h
  | all φs ih =>
    rw [contradicts, anyContradicts_eq, List.any_eq_true] at h
    obtain ⟨φ, hφ, hcontradicts⟩ := h
    rw [eval_all, List.all_eq_true]
    exact fun hall => ih φ hφ hcontradicts (hall φ hφ)
  | any φs ih =>
    rw [contradicts, allContradict_eq, List.all_eq_true] at h
    rw [eval_any, List.any_eq_true]
    rintro ⟨φ, hφ, htrue⟩
    exact ih φ hφ (h φ hφ) htrue

end Exclusion

mutual

/-- What a formula implies, if it does imply one of several things: `f` says which alternatives
an atom implies. -/
def alternatives {β : Type} (f : α → Option (List β)) : Formula α → Option (List β)
  | .atom a => f a
  | .not _ => none
  | .all φs => firstAlternatives f φs
  | .any φs => joinedAlternatives f φs

def firstAlternatives {β : Type} (f : α → Option (List β)) : List (Formula α) → Option (List β)
  | [] => none
  | φ :: φs =>
    match alternatives f φ with
    | some alts => some alts
    | none => firstAlternatives f φs

def joinedAlternatives {β : Type} (f : α → Option (List β)) : List (Formula α) → Option (List β)
  | [] => some []
  | φ :: φs =>
    match alternatives f φ, joinedAlternatives f φs with
    | some alts, some more => some (alts ++ more)
    | _, _ => none

end

section Alternatives

variable {β : Type} {f : α → Option (List β)}

theorem exists_of_firstAlternatives {φs : List (Formula α)} {alts : List β}
    (h : firstAlternatives f φs = some alts) : ∃ φ ∈ φs, alternatives f φ = some alts := by
  induction φs with
  | nil => simp [firstAlternatives] at h
  | cons φ φs ih =>
    rw [firstAlternatives] at h
    cases hφ : alternatives f φ with
    | some alts' =>
      rw [hφ] at h
      exact ⟨φ, List.mem_cons_self, hφ.trans h⟩
    | none =>
      rw [hφ] at h
      obtain ⟨ψ, hψ, hsome⟩ := ih h
      exact ⟨ψ, List.mem_cons_of_mem φ hψ, hsome⟩

theorem forall_of_joinedAlternatives {φs : List (Formula α)} {alts : List β}
    (h : joinedAlternatives f φs = some alts) :
    ∀ φ ∈ φs, ∃ part, alternatives f φ = some part ∧ part ⊆ alts := by
  induction φs generalizing alts with
  | nil => simp
  | cons φ φs ih =>
    rw [joinedAlternatives] at h
    cases hφ : alternatives f φ with
    | none => simp [hφ] at h
    | some part =>
      cases hφs : joinedAlternatives f φs with
      | none => simp [hφs] at h
      | some more =>
        rw [hφ, hφs] at h
        obtain rfl : part ++ more = alts := by simpa using h
        rw [List.forall_mem_cons]
        constructor
        · exact ⟨part, hφ, List.subset_append_left part more⟩
        · intro ψ hψ
          obtain ⟨part', hpart', hsub⟩ := ih hφs ψ hψ
          exact ⟨part', hpart', List.Subset.trans hsub (List.subset_append_right part more)⟩

theorem exists_of_alternatives {v : α → Bool} {P : β → Prop}
    (hatom : ∀ a alts, f a = some alts → v a → ∃ b ∈ alts, P b) (φ : Formula α)
    {alts : List β} (h : alternatives f φ = some alts) (hφ : eval v φ) : ∃ b ∈ alts, P b := by
  induction φ using Formula.induction generalizing alts with
  | atom a =>
    rw [alternatives] at h
    exact hatom a alts h (by rwa [eval_atom] at hφ)
  | not φ => simp [alternatives] at h
  | all φs ih =>
    rw [alternatives] at h
    obtain ⟨φ, hmem, hsome⟩ := exists_of_firstAlternatives h
    rw [eval_all, List.all_eq_true] at hφ
    exact ih φ hmem hsome (hφ φ hmem)
  | any φs ih =>
    rw [alternatives] at h
    rw [eval_any, List.any_eq_true] at hφ
    obtain ⟨φ, hmem, htrue⟩ := hφ
    obtain ⟨part, hpart, hsub⟩ := forall_of_joinedAlternatives h φ hmem
    obtain ⟨b, hb, hP⟩ := ih φ hmem hpart htrue
    exact ⟨b, hsub hb, hP⟩

end Alternatives

end Formula
end Multio.Lib
