import Mathlib.Data.List.Basic
import Mathlib.Data.Set.Basic
import Mathlib.Control.Monad.Basic

namespace Multio.Lib

/-- The writes to keys, the last one first. -/
abbrev WriteLog (κ ν : Type) := List (κ × ν)

abbrev Writing (κ ν ε : Type) := ExceptT ε (StateM (WriteLog κ ν))

namespace Writing

variable {κ ν ε α β : Type}

def write (k : κ) (v : ν) : Writing κ ν ε Unit := ExceptT.mk fun log => (.ok (), (k, v) :: log)

def attempt (x : Except ε α) : Writing κ ν ε α := ExceptT.mk fun log => (x, log)

def exec (x : Writing κ ν ε α) (log : WriteLog κ ν) : Except ε α × WriteLog κ ν := x.run log

def log (x : Writing κ ν ε α) : WriteLog κ ν := (x.exec []).2

theorem attempt_ok_bind (a : α) (f : α → Writing κ ν ε β) : (attempt (.ok a) >>= f) = f a := rfl

theorem attempt_error_bind (e : ε) (f : α → Writing κ ν ε β) :
    (attempt (.error e) >>= f) = attempt (.error e) := rfl

theorem exec_bind_ok {x : Writing κ ν ε α} {log log' : WriteLog κ ν} {a : α}
    (h : x.exec log = (.ok a, log')) (f : α → Writing κ ν ε β) :
    (x >>= f).exec log = (f a).exec log' := by
  change (ExceptT.bindCont f (x.exec log).1 : StateM (WriteLog κ ν) _) (x.exec log).2 = _
  rw [h]
  rfl

theorem exec_bind_error {x : Writing κ ν ε α} {log log' : WriteLog κ ν} {e : ε}
    (h : x.exec log = (.error e, log')) (f : α → Writing κ ν ε β) :
    (x >>= f).exec log = (.error e, log') := by
  change (ExceptT.bindCont f (x.exec log).1 : StateM (WriteLog κ ν) _) (x.exec log).2 = _
  rw [h]
  rfl

section

variable [DecidableEq κ] {K : Set κ}

def Keeps (K : Set κ) (x : Writing κ ν ε α) : Prop :=
  ∀ log, ∀ k ∈ K, (x.exec log).2.lookup k = log.lookup k

theorem keeps_pure (a : α) : Keeps K (pure a : Writing κ ν ε α) := fun _ _ _ => rfl

theorem keeps_attempt (x : Except ε α) : Keeps K (attempt x : Writing κ ν ε α) :=
  fun _ _ _ => rfl

theorem keeps_write {k : κ} (hk : k ∉ K) (v : ν) : Keeps K (write k v : Writing κ ν ε Unit) := by
  intro log k' hk'
  have hne : k' ≠ k := fun h => hk (h ▸ hk')
  change ((k, v) :: log).lookup k' = _
  rw [List.lookup_cons, beq_eq_false_iff_ne.mpr hne]

theorem lookup_exec_bind {f : α → Writing κ ν ε β} (hf : ∀ a, Keeps K (f a))
    (x : Writing κ ν ε α) (log : WriteLog κ ν) {k : κ} (hk : k ∈ K) :
    ((x >>= f).exec log).2.lookup k = (x.exec log).2.lookup k := by
  rcases h : x.exec log with ⟨e | a, log'⟩
  · rw [exec_bind_error h]
  · rw [exec_bind_ok h]
    exact hf a log' k hk

theorem Keeps.bind {x : Writing κ ν ε α} {f : α → Writing κ ν ε β} (hx : Keeps K x)
    (hf : ∀ a, Keeps K (f a)) : Keeps K (x >>= f) :=
  fun log k hk => (lookup_exec_bind hf x log hk).trans (hx log k hk)

theorem Keeps.ite {p : Prop} [Decidable p] {x y : Writing κ ν ε α} (hx : Keeps K x)
    (hy : Keeps K y) : Keeps K (if p then x else y) := by
  split_ifs
  · exact hx
  · exact hy

end

end Writing
end Multio.Lib
