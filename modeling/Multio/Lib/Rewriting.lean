import Mathlib.Data.List.Perm.Basic
import Mathlib.Data.List.Pairwise
import Mathlib.Logic.Function.Basic

namespace Multio.Lib

section Assign

variable {ι : Type} [DecidableEq ι] {β : ι → Type}

/-- The assignments to members of a family, one after the other. -/
def assign (updates : List ((i : ι) × β i)) (f : (i : ι) → β i) : (i : ι) → β i :=
  updates.foldl (fun f u => Function.update f u.1 u.2) f

def assigned : List ((i : ι) × β i) → (i : ι) → Option (β i)
  | [], _ => none
  | ⟨j, v⟩ :: updates, i =>
    (assigned updates i).orElse fun _ => if h : j = i then some (h ▸ v) else none

theorem assign_apply (updates : List ((i : ι) × β i)) (f : (i : ι) → β i) (i : ι) :
    assign updates f i = (assigned updates i).getD (f i) := by
  induction updates generalizing f with
  | nil => rfl
  | cons u updates ih =>
    obtain ⟨j, v⟩ := u
    have hcons : assign (⟨j, v⟩ :: updates) f = assign updates (Function.update f j v) := rfl
    rw [hcons, ih, assigned]
    cases assigned updates i with
    | some w => rfl
    | none =>
      by_cases h : j = i
      · subst h
        simp
      · simp [h, Function.update_of_ne (Ne.symm h)]

theorem assign_assign (updates : List ((i : ι) × β i)) (f : (i : ι) → β i) :
    assign updates (assign updates f) = assign updates f := by
  funext i
  rw [assign_apply, assign_apply]
  cases assigned updates i <;> rfl

end Assign

/-- A rule takes some states: it leaves another state and a result. -/
abbrev Rewrite (σ ρ : Type) : Type := σ → Option (ρ × σ)

namespace Rewrite

variable {σ ρ : Type}

/-- A pass, with the result of the rule that has applied so far; `none` when another one does. -/
def pass : List (Rewrite σ ρ) → Option ρ → σ → Option (Option ρ × σ)
  | [], applied, s => some (applied, s)
  | r :: rules, applied, s =>
    match r s with
    | none => pass rules applied s
    | some (result, s') =>
      match applied with
      | none => pass rules (some result) s'
      | some _ => none

/-- Neither of the rules takes what the other one takes or leaves. -/
structure Apart (r r' : Rewrite σ ρ) : Prop where
  exclusive : ∀ s, r s = none ∨ r' s = none
  left : ∀ s result s', r s = some (result, s') → r' s' = none
  right : ∀ s result s', r' s = some (result, s') → r s' = none

/-- A rule that takes what it has left changes nothing and has a neutral result. -/
def Settles (Neutral : ρ → Prop) (r : Rewrite σ ρ) : Prop :=
  ∀ s result s', r s = some (result, s') →
    r s' = none ∨ ∃ again, r s' = some (again, s') ∧ Neutral again

theorem Apart.symm {r r' : Rewrite σ ρ} (h : Apart r r') : Apart r' r where
  exclusive s := (h.exclusive s).symm
  left := h.right
  right := h.left

instance : Std.Symm (Apart (σ := σ) (ρ := ρ)) where
  symm _ _ h := h.symm

theorem pass_append (rules rules' : List (Rewrite σ ρ)) (applied : Option ρ) (s : σ) :
    pass (rules ++ rules') applied s =
      (pass rules applied s).bind fun p => pass rules' p.1 p.2 := by
  induction rules generalizing applied s with
  | nil => rfl
  | cons r rules ih =>
    rw [List.cons_append, pass, pass]
    cases hr : r s with
    | none => exact ih applied s
    | some p =>
      cases applied with
      | none => exact ih (some p.1) p.2
      | some result => rfl

theorem pass_of_forall_none {rules : List (Rewrite σ ρ)} {s : σ} (h : ∀ r ∈ rules, r s = none)
    (applied : Option ρ) : pass rules applied s = some (applied, s) := by
  induction rules with
  | nil => rfl
  | cons r rules ih =>
    rw [List.forall_mem_cons] at h
    rw [pass, h.1]
    exact ih h.2

/-- After a rule has applied, a pass goes through only if no other one takes the state. -/
theorem forall_none_of_pass {rules : List (Rewrite σ ρ)} {first : ρ} {s : σ}
    {p : Option ρ × σ} (h : pass rules (some first) s = some p) : ∀ r ∈ rules, r s = none := by
  induction rules with
  | nil => simp
  | cons r rules ih =>
    rw [pass] at h
    cases hr : r s with
    | some q =>
      rw [hr] at h
      cases h
    | none =>
      rw [hr] at h
      exact List.forall_mem_cons.mpr ⟨hr, ih h⟩

theorem pass_of_mem {rules : List (Rewrite σ ρ)} (h : rules.Pairwise Apart) {r : Rewrite σ ρ}
    (hr : r ∈ rules) {s s' : σ} {result : ρ} (hs : r s = some (result, s')) :
    pass rules none s = some (some result, s') := by
  induction rules with
  | nil => exact absurd hr List.not_mem_nil
  | cons r' rules ih =>
    rw [List.pairwise_cons] at h
    rcases List.mem_cons.mp hr with rfl | hmem
    · -- the rule applies and no later one takes what it leaves
      rw [pass, hs]
      exact pass_of_forall_none (fun r' hr' => (h.1 r' hr').left s result s' hs) (some result)
    · have hnone : r' s = none := by
        apply ((h.1 r hmem).exclusive s).resolve_right
        rw [hs]
        exact Option.some_ne_none _
      rw [pass, hnone]
      exact ih h.2 hmem

theorem exists_pass {rules : List (Rewrite σ ρ)} (h : rules.Pairwise Apart) (s : σ) :
    ∃ p, pass rules none s = some p := by
  by_cases hnone : ∀ r ∈ rules, r s = none
  · exact ⟨_, pass_of_forall_none hnone none⟩
  · push Not at hnone
    obtain ⟨r, hr, hne⟩ := hnone
    obtain ⟨⟨result, s'⟩, hs⟩ := Option.ne_none_iff_exists'.mp hne
    exact ⟨_, pass_of_mem h hr hs⟩

theorem pass_perm {rules rules' : List (Rewrite σ ρ)} (h : rules.Pairwise Apart)
    (hperm : rules.Perm rules') (s : σ) : pass rules' none s = pass rules none s := by
  by_cases hnone : ∀ r ∈ rules, r s = none
  · rw [pass_of_forall_none hnone, pass_of_forall_none]
    exact fun r hr => hnone r (hperm.mem_iff.mpr hr)
  · push Not at hnone
    obtain ⟨r, hr, hne⟩ := hnone
    obtain ⟨⟨result, s'⟩, hs⟩ := Option.ne_none_iff_exists'.mp hne
    have hpairwise : rules'.Pairwise Apart := hperm.pairwise h fun hab => hab.symm
    rw [pass_of_mem h hr hs, pass_of_mem hpairwise (hperm.mem_iff.mp hr) hs]

theorem pass_pass {rules : List (Rewrite σ ρ)} (h : rules.Pairwise Apart) {Neutral : ρ → Prop}
    (hsettles : ∀ r ∈ rules, Settles Neutral r) {s s' : σ} {result : Option ρ}
    (hs : pass rules none s = some (result, s')) :
    ∃ again, pass rules none s' = some (again, s') ∧ ∀ x ∈ again, Neutral x := by
  by_cases hnone : ∀ r ∈ rules, r s = none
  · rw [pass_of_forall_none hnone, Option.some.injEq, Prod.mk.injEq] at hs
    obtain ⟨-, rfl⟩ := hs
    exact ⟨none, pass_of_forall_none hnone none, by simp⟩
  · push Not at hnone
    obtain ⟨r, hr, hne⟩ := hnone
    obtain ⟨⟨first, s₁⟩, hfirst⟩ := Option.ne_none_iff_exists'.mp hne
    rw [pass_of_mem h hr hfirst, Option.some.injEq, Prod.mk.injEq] at hs
    obtain ⟨-, rfl⟩ := hs
    -- only the rule that has applied may take the state again
    rcases hsettles r hr s first s₁ hfirst with hstop | ⟨again, hagain, hneutral⟩
    · refine ⟨none, pass_of_forall_none ?_ none, by simp⟩
      intro r' hr'
      by_cases heq : r' = r
      · rw [heq]
        exact hstop
      · have hapart : Apart r r' := h.forall hr hr' (Ne.symm heq)
        exact hapart.left s first s₁ hfirst
    · refine ⟨some again, pass_of_mem h hr hagain, ?_⟩
      intro x hx
      obtain rfl := Option.mem_some_iff.mp hx
      exact hneutral

end Rewrite
end Multio.Lib
