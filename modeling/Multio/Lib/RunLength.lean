import Mathlib.Data.List.Basic
import Mathlib.Algebra.Order.Group.Nat
import Mathlib.Algebra.GroupWithZero.Nat
import Mathlib.Algebra.Order.BigOperators.Group.List

namespace Multio.RunLength

/-- The run lengths of `replicate n v ++ xs`, the run of `v` being `n` long so far. -/
def runLengths (v : Bool) (n : ℕ) : List Bool → List ℕ
  | [] => [n]
  | x :: xs => if x = v then runLengths v (n + 1) xs else n :: runLengths x 1 xs

/-- Alternating runs, the first one of value `v`. -/
def expandRuns (v : Bool) : List ℕ → List Bool
  | [] => []
  | n :: ns => List.replicate n v ++ expandRuns (!v) ns

@[simp] theorem expandRuns_nil (v : Bool) : expandRuns v [] = [] := rfl

@[simp] theorem expandRuns_cons (v : Bool) (n : ℕ) (ns : List ℕ) :
    expandRuns v (n :: ns) = List.replicate n v ++ expandRuns (!v) ns := rfl

theorem expandRuns_length (v : Bool) (ns : List ℕ) : (expandRuns v ns).length = ns.sum := by
  induction ns generalizing v with
  | nil => rfl
  | cons n ns ih => simp [ih]

theorem expandRuns_runLengths (v : Bool) (n : ℕ) (xs : List Bool) :
    expandRuns v (runLengths v n xs) = List.replicate n v ++ xs := by
  induction xs generalizing v n with
  | nil => simp [runLengths]
  | cons x xs ih =>
    rw [runLengths]
    split_ifs with h
    · rw [ih, h, List.replicate_succ']
      simp
    · have hx : (!v) = x := by cases v <;> cases x <;> simp_all
      rw [expandRuns_cons, hx, ih]
      rfl

theorem runLengths_ne_nil (v : Bool) (n : ℕ) (xs : List Bool) : runLengths v n xs ≠ [] := by
  induction xs generalizing v n with
  | nil => simp [runLengths]
  | cons x xs ih =>
    rw [runLengths]
    split_ifs
    · exact ih _ _
    · simp

theorem runLengths_pos {v : Bool} {n : ℕ} (hn : 0 < n) (xs : List Bool) :
    ∀ r ∈ runLengths v n xs, 0 < r := by
  induction xs generalizing v n with
  | nil => simpa [runLengths] using hn
  | cons x xs ih =>
    rw [runLengths]
    split_ifs
    · exact ih (Nat.succ_pos n)
    · intro r hr
      rcases List.mem_cons.mp hr with rfl | hr
      · exact hn
      · exact ih Nat.one_pos r hr

theorem runLengths_sum (v : Bool) (n : ℕ) (xs : List Bool) :
    (runLengths v n xs).sum = n + xs.length := by
  rw [← expandRuns_length v, expandRuns_runLengths]
  simp

end Multio.RunLength
