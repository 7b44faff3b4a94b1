import Multio.Util.Exception

namespace Multio.Exception

structure Outcome (σ : Type) where
  state : σ
  exception : Option Exception := none

namespace Outcome

variable {σ τ ρ α : Type}

def andThen (x : Outcome σ) (f : σ → Outcome σ) : Outcome σ :=
  match x.exception with
  | none => f x.state
  | some _ => x

/-- A value that what follows needs; the state stays when there is none. -/
def needing (s : σ) (x : Except Exception α) (f : α → Outcome σ) : Outcome σ :=
  match x with
  | .ok a => f a
  | .error e => { state := s, exception := some e }

def map (f : σ → τ) (x : Outcome σ) : Outcome τ := { state := f x.state, exception := x.exception }

@[simp]
theorem map_state (f : σ → τ) (x : Outcome σ) : (x.map f).state = f x.state := rfl

@[simp]
theorem map_exception (f : σ → τ) (x : Outcome σ) : (x.map f).exception = x.exception := rfl

theorem andThen_of_none {x : Outcome σ} (h : x.exception = none) (f : σ → Outcome σ) :
    x.andThen f = f x.state := by
  unfold andThen
  rw [h]

theorem andThen_of_ne_none {x : Outcome σ} (h : x.exception ≠ none) (f : σ → Outcome σ) :
    x.andThen f = x := by
  unfold andThen
  split
  · exact absurd ‹_› h
  · rfl

theorem andThen_exception_eq_none_iff {x : Outcome σ} {f : σ → Outcome σ} :
    (x.andThen f).exception = none ↔ x.exception = none ∧ (f x.state).exception = none := by
  by_cases h : x.exception = none
  · rw [andThen_of_none h]
    exact (and_iff_right h).symm
  · rw [andThen_of_ne_none h]
    exact iff_of_false h fun hboth => h hboth.1

/-- What holds of the state after the first step and is kept by the others. -/
theorem andThen_state {P : σ → Prop} {x : Outcome σ} {f : σ → Outcome σ} (hx : P x.state)
    (hf : ∀ s, P s → P (f s).state) : P (x.andThen f).state := by
  by_cases h : x.exception = none
  · rw [andThen_of_none h]
    exact hf _ hx
  · rw [andThen_of_ne_none h]
    exact hx

/-- What holds of the state before, and after what follows with any value. -/
theorem needing_state {P : σ → Prop} {s : σ} {x : Except Exception α} {f : α → Outcome σ} (hs : P s)
    (hf : ∀ a, x = .ok a → P (f a).state) : P (needing s x f).state := by
  cases x with
  | ok a => exact hf a rfl
  | error e => exact hs

def Returns (x : Outcome σ) (s : σ) : Prop := x = { state := s }

theorem returns_iff {x : Outcome σ} {s : σ} : x.Returns s ↔ x.exception = none ∧ x.state = s := by
  obtain ⟨state, exception⟩ := x
  unfold Returns
  rw [mk.injEq, and_comm]

theorem returns_mk {s s' : σ} : ({ state := s } : Outcome σ).Returns s' ↔ s = s' := by
  rw [returns_iff]
  exact ⟨And.right, fun h => ⟨rfl, h⟩⟩

theorem not_returns_mk_some {s s' : σ} {e : Exception} :
    ¬ ({ state := s, exception := some e } : Outcome σ).Returns s' := by
  intro h
  cases (returns_iff.mp h).1

theorem Returns.andThen {x : Outcome σ} {s : σ} (h : x.Returns s) (f : σ → Outcome σ) :
    x.andThen f = f s := by
  rw [show x = { state := s } from h]
  rfl

theorem andThen_returns_iff {x : Outcome σ} {f : σ → Outcome σ} {s : σ} :
    (x.andThen f).Returns s ↔ ∃ s', x.Returns s' ∧ (f s').Returns s := by
  obtain ⟨state, exception⟩ := x
  cases exception with
  | none =>
    constructor
    · intro h
      exact ⟨state, rfl, h⟩
    · rintro ⟨s', hs', h⟩
      obtain rfl := returns_mk.mp hs'
      exact h
  | some e =>
    constructor
    · intro h
      exact absurd h not_returns_mk_some
    · rintro ⟨s', hs', -⟩
      exact absurd hs' not_returns_mk_some

theorem needing_returns_iff {s s' : σ} {x : Except Exception α} {f : α → Outcome σ} :
    (needing s x f).Returns s' ↔ ∃ a, x = .ok a ∧ (f a).Returns s' := by
  cases x with
  | ok a =>
    constructor
    · intro h
      exact ⟨a, rfl, h⟩
    · rintro ⟨a', ha, h⟩
      obtain rfl := Except.ok.inj ha
      exact h
  | error e =>
    constructor
    · intro h
      exact absurd h not_returns_mk_some
    · rintro ⟨a, ha, -⟩
      cases ha

theorem map_returns_iff {f : σ → τ} {x : Outcome σ} {t : τ} :
    (x.map f).Returns t ↔ ∃ s, x.Returns s ∧ f s = t := by
  obtain ⟨state, exception⟩ := x
  rw [returns_iff]
  constructor
  · rintro ⟨hexception, hstate⟩
    exact ⟨state, returns_iff.mpr ⟨hexception, rfl⟩, hstate⟩
  · rintro ⟨s, hs, rfl⟩
    obtain ⟨hexception, rfl⟩ := returns_iff.mp hs
    exact ⟨hexception, rfl⟩

end Outcome
end Multio.Exception
