import Mathlib.Data.List.Forall2
import Mathlib.Algebra.Group.Int.Defs

namespace Multio

/-- `terminate` is an exception that meets a `noexcept` function, `undefinedBehaviour` an operation
that the language leaves undefined. -/
inductive Exception
  | assertionFailed (what : String)
  | seriousBug (what : String)
  | userError (what : String)
  | notImplemented (what : String)
  | outOfRange (what : String)
  | badAlloc
  | dataModelling (what : String)
  | metadata (reason : String)
  | metadataKey (key : String) (more : Exception)
  | metadataMissingKey (key : String)
  | metadataWrongType (requested contained : String)
  | metadataWrongTypeKey (key : String)
  | transport (reason : String)
  | maskCompression (what : String)
  | lengthError (what : String)
  | badValue (what : String)
  | invalidArgument (what : String)
  | terminate
  | undefinedBehaviour (what : String)
  deriving DecidableEq, Repr

namespace Exception

/-- `ASSERT(cond)`. -/
def assert (cond : Bool) (what : String) : Except Exception Unit :=
  if cond then .ok () else .error (.assertionFailed what)

/-- The result of a signed 32-bit operation, whose overflow is undefined. -/
def int32 (x : Int) : Except Exception Int :=
  if -2 ^ 31 ≤ x ∧ x < 2 ^ 31 then .ok x else .error (.undefinedBehaviour "signed overflow")

def int64 (x : Int) : Except Exception Int :=
  if -2 ^ 63 ≤ x ∧ x < 2 ^ 63 then .ok x else .error (.undefinedBehaviour "signed overflow")

theorem int64_of_mem {x : Int} (hlower : -2 ^ 63 ≤ x) (hupper : x < 2 ^ 63) : int64 x = .ok x :=
  if_pos ⟨hlower, hupper⟩

theorem ok_bind {ε α β : Type} (a : α) (f : α → Except ε β) : (Except.ok a >>= f) = f a := rfl

theorem error_bind {ε α β : Type} (e : ε) (f : α → Except ε β) :
    ((Except.error e : Except ε α) >>= f) = .error e := rfl

theorem bind_eq_ok_iff {ε α β : Type} {x : Except ε α} {f : α → Except ε β} {b : β} :
    (x >>= f) = .ok b ↔ ∃ a, x = .ok a ∧ f a = .ok b := by
  cases x with
  | error e =>
    rw [error_bind]
    simp
  | ok a =>
    rw [ok_bind]
    simp

theorem mapM_eq_ok_iff {ε α β : Type} {f : α → Except ε β} {xs : List α} {ys : List β} :
    xs.mapM f = .ok ys ↔ List.Forall₂ (fun x y => f x = .ok y) xs ys := by
  induction xs generalizing ys with
  | nil =>
    rw [List.mapM_nil, List.forall₂_nil_left_iff]
    exact ⟨fun h => (Except.ok.inj h).symm, fun h => h ▸ rfl⟩
  | cons x xs ih =>
    rw [List.mapM_cons, bind_eq_ok_iff, List.forall₂_cons_left_iff]
    constructor
    · rintro ⟨y, hy, h⟩
      obtain ⟨ys', hys', h⟩ := bind_eq_ok_iff.mp h
      exact ⟨y, ys', hy, ih.mp hys', (Except.ok.inj h).symm⟩
    · rintro ⟨y, ys', hy, hys', rfl⟩
      refine ⟨y, hy, bind_eq_ok_iff.mpr ⟨ys', ih.mpr hys', rfl⟩⟩

theorem exists_mapM_iff {ε α β : Type} {f : α → Except ε β} {xs : List α} :
    (∃ ys, xs.mapM f = .ok ys) ↔ ∀ x ∈ xs, ∃ y, f x = .ok y := by
  simp only [mapM_eq_ok_iff]
  induction xs with
  | nil => exact iff_of_true ⟨[], .nil⟩ fun _ h => absurd h List.not_mem_nil
  | cons x xs ih =>
    rw [List.forall_mem_cons, ← ih]
    constructor
    · intro h
      obtain ⟨_, h⟩ := h
      obtain ⟨y, ys, hy, hys, -⟩ := List.forall₂_cons_left_iff.mp h
      exact ⟨⟨y, hy⟩, ys, hys⟩
    · intro h
      obtain ⟨⟨y, hy⟩, ys, hys⟩ := h
      exact ⟨y :: ys, .cons hy hys⟩

theorem int32_ok {x : Int} (h : -2 ^ 31 ≤ x ∧ x < 2 ^ 31) : int32 x = .ok x := if_pos h

theorem assert_ok {cond : Bool} (h : cond = true) (what : String) : assert cond what = .ok () :=
  if_pos h

end Exception
end Multio
