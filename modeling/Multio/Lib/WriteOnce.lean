import Mathlib.Logic.Function.Basic
import Mathlib.Data.List.Basic

namespace Multio.Lib.WriteOnce

variable {κ ν : Type} [DecidableEq κ]

abbrev Bindings (κ ν : Type) := κ → Option ν

def extend (f : Bindings κ ν) (e : κ × ν) : Bindings κ ν := Function.update f e.1 (some e.2)

/-- Whether all values have been given, and the table that is left. -/
def giveAll (accepts : ν → ν → Bool) (f : Bindings κ ν) : List (κ × ν) → Bool × Bindings κ ν
  | [] => (true, f)
  | e :: es =>
    match f e.1 with
    | none => giveAll accepts (extend f e) es
    | some w => if accepts w e.2 then giveAll accepts f es else (false, f)

/-- Each value given to a key that is bound by then, beside the value the key has. -/
def compared (f : Bindings κ ν) : List (κ × ν) → List (ν × ν)
  | [] => []
  | e :: es =>
    match f e.1 with
    | none => compared (extend f e) es
    | some w => (w, e.2) :: compared f es

def boundPrefix (f : Bindings κ ν) (es : List (κ × ν)) : List (κ × ν) :=
  es.takeWhile fun e => (f e.1).isSome

variable {accepts : ν → ν → Bool} {f : Bindings κ ν}

theorem extend_of_bound {k : κ} {w : ν} (hk : f k = some w) {e : κ × ν} (he : f e.1 = none) :
    extend f e k = some w := by
  rw [extend, Function.update_of_ne, hk]
  intro h
  rw [h, he] at hk
  cases hk

variable (accepts) in
theorem giveAll_kept {k : κ} {w : ν} (hk : f k = some w) (es : List (κ × ν)) :
    (giveAll accepts f es).2 k = some w := by
  induction es generalizing f with
  | nil => exact hk
  | cons e es ih =>
    rw [giveAll]
    cases he : f e.1 with
    | none => exact ih (extend_of_bound hk he)
    | some v =>
      simp only
      split_ifs
      · exact ih hk
      · exact hk

theorem giveAll_eq_true_iff {es : List (κ × ν)} :
    (giveAll accepts f es).1 = true ↔ ∀ p ∈ compared f es, accepts p.1 p.2 = true := by
  induction es generalizing f with
  | nil => simp [giveAll, compared]
  | cons e es ih =>
    rw [giveAll, compared]
    cases he : f e.1 with
    | none => exact ih
    | some w =>
      simp only
      rw [List.forall_mem_cons]
      by_cases haccepts : accepts w e.2 = true
      · rw [if_pos haccepts, ih, and_iff_right haccepts]
      · rw [if_neg haccepts]
        constructor
        · intro h
          cases h
        · intro h
          exact absurd h.1 haccepts

theorem forall_compared {P : ν → Prop} {es : List (κ × ν)} (hf : ∀ k w, f k = some w → P w)
    (hes : ∀ e ∈ es, P e.2) : ∀ p ∈ compared f es, P p.1 ∧ P p.2 := by
  induction es generalizing f with
  | nil => simp [compared]
  | cons e es ih =>
    rw [List.forall_mem_cons] at hes
    rw [compared]
    cases he : f e.1 with
    | none =>
      apply ih _ hes.2
      intro k w hk
      rw [extend, Function.update_apply] at hk
      split_ifs at hk
      · rw [← Option.some.inj hk]
        exact hes.1
      · exact hf k w hk
    | some w =>
      rw [List.forall_mem_cons]
      exact ⟨⟨hf _ w he, hes.1⟩, ih hf hes.2⟩

theorem mem_compared_boundPrefix {es : List (κ × ν)} {p : ν × ν}
    (h : p ∈ compared f (boundPrefix f es)) : p ∈ compared f es := by
  induction es with
  | nil => exact h
  | cons e es ih =>
    rw [boundPrefix, List.takeWhile_cons] at h
    rw [compared]
    cases he : f e.1 with
    | none =>
      rw [he] at h
      simp [compared] at h
    | some w =>
      rw [he, Option.isSome_some, if_pos rfl, compared, he, List.mem_cons] at h
      rw [List.mem_cons]
      exact h.imp_right ih

/-- A call that fails leaves the table alone exactly when it fails before the first new key. -/
theorem giveAll_unchanged_iff {es : List (κ × ν)} (hfail : (giveAll accepts f es).1 = false) :
    (giveAll accepts f es).2 = f ↔
      ∃ p ∈ compared f (boundPrefix f es), accepts p.1 p.2 = false := by
  induction es with
  | nil => cases hfail
  | cons e es ih =>
    rw [giveAll] at hfail ⊢
    rw [boundPrefix, List.takeWhile_cons]
    cases he : f e.1 with
    | none =>
      simp only [Option.isSome_none, Bool.false_eq_true, if_false, compared, List.not_mem_nil,
        false_and, exists_false, iff_false]
      intro hsame
      -- the new key is bound in what is left
      have hbound : extend f e e.1 = some e.2 := Function.update_self ..
      have hleft := giveAll_kept accepts hbound es
      rw [hsame, he] at hleft
      cases hleft
    | some w =>
      rw [he] at hfail
      simp only [Option.isSome_some, if_true] at hfail ⊢
      rw [compared, he]
      simp only [List.exists_mem_cons_iff]
      by_cases haccepts : accepts w e.2 = true
      · rw [if_pos haccepts] at hfail ⊢
        rw [ih hfail, haccepts, boundPrefix]
        simp
      · rw [if_neg haccepts]
        simp only [Bool.not_eq_true] at haccepts
        simp [haccepts]

/-- Different values are refused and equal ones accepted, and a refusal changes nothing. -/
structure Lawful (accepts : ν → ν → Bool) (same : ν → ν → Prop) (f : Bindings κ ν)
    (es : List (κ × ν)) : Prop where
  refuses : (∃ p ∈ compared f es, ¬same p.1 p.2) → (giveAll accepts f es).1 = false
  takes : (∀ p ∈ compared f es, same p.1 p.2) → (giveAll accepts f es).1 = true
  atomic : (giveAll accepts f es).1 = false → (giveAll accepts f es).2 = f

/-- With a test that equal values pass, a call is lawful exactly when it gives no bound key a
different value, or fails before the first new key. -/
theorem lawful_iff {same : ν → ν → Prop} {es : List (κ × ν)}
    (hsame : ∀ p ∈ compared f es, same p.1 p.2 → accepts p.1 p.2 = true) :
    Lawful accepts same f es ↔
      (∀ p ∈ compared f es, same p.1 p.2) ∨
        ∃ p ∈ compared f (boundPrefix f es), accepts p.1 p.2 = false := by
  constructor
  · intro h
    -- a value that is refused must come before the first key that is bound anew
    by_cases hall : ∀ p ∈ compared f es, same p.1 p.2
    · exact .inl hall
    · right
      simp only [not_forall, exists_prop] at hall
      have hfail := h.refuses hall
      exact (giveAll_unchanged_iff hfail).mp (h.atomic hfail)
  · rintro (hall | ⟨p, hp, haccepts⟩)
    · have hok : (giveAll accepts f es).1 = true := by
        rw [giveAll_eq_true_iff]
        intro p hp
        exact hsame p hp (hall p hp)
      refine ⟨?_, fun _ => hok, ?_⟩
      · rintro ⟨p, hp, hne⟩
        exact absurd (hall p hp) hne
      · intro hfail
        rw [hok] at hfail
        cases hfail
    · have hmem := mem_compared_boundPrefix hp
      have hfail : (giveAll accepts f es).1 = false := by
        rw [← Bool.not_eq_true, giveAll_eq_true_iff]
        intro hall
        rw [hall p hmem] at haccepts
        cases haccepts
      refine ⟨fun _ => hfail, ?_, ?_⟩
      · intro hall
        rw [hsame p hmem (hall p hmem)] at haccepts
        cases haccepts
      · intro _
        exact (giveAll_unchanged_iff hfail).mpr ⟨p, hp, haccepts⟩

end Multio.Lib.WriteOnce
