import Mathlib.Data.List.Basic

namespace Multio.Iteration

variable {σ ε β : Type}

/-- A forward iterator of state `σ`: its value, its increment and the comparison with the end. -/
structure ForwardIter (σ ε β : Type) where
  deref : σ → β
  next : σ → Except ε σ
  atEnd : σ → Bool

/-- `for (; it != end; ++it) yield *it`, in at most `fuel` iterations. -/
def ForwardIter.drain (it : ForwardIter σ ε β) : ℕ → σ → Except ε (Option (List β))
  | 0, s => .ok (if it.atEnd s then some [] else none)
  | fuel + 1, s =>
    if it.atEnd s then .ok (some [])
    else do
      let s' ← it.next s
      let ys ← it.drain fuel s'
      return ys.map (it.deref s :: ·)

variable (it : ForwardIter σ ε β)

theorem drain_atEnd {s : σ} (h : it.atEnd s = true) (fuel : ℕ) :
    it.drain fuel s = .ok (some []) := by
  cases fuel <;> simp [ForwardIter.drain, h]

theorem drain_step {s s' : σ} {ys : List β} {fuel : ℕ} (h : it.atEnd s = false)
    (hnext : it.next s = .ok s') (hrest : it.drain fuel s' = .ok (some ys)) :
    it.drain (fuel + 1) s = .ok (some (it.deref s :: ys)) := by
  simp only [ForwardIter.drain, h, Bool.false_eq_true, if_false, hnext]
  change (do
    let ys ← it.drain fuel s'
    return ys.map (it.deref s :: ·)) = _
  rw [hrest]
  rfl

inductive ForwardIter.Yields : σ → List β → Prop
  | done {s : σ} (h : it.atEnd s = true) : Yields s []
  | step {s s' : σ} {ys : List β} (h : it.atEnd s = false) (hnext : it.next s = .ok s')
      (hrest : Yields s' ys) : Yields s (it.deref s :: ys)

theorem yields_of_drain {s : σ} {ys : List β} {fuel : ℕ}
    (h : it.drain fuel s = .ok (some ys)) : it.Yields s ys := by
  induction fuel generalizing s ys with
  | zero =>
    rw [ForwardIter.drain] at h
    cases hend : it.atEnd s with
    | true =>
      rw [hend] at h
      cases h
      exact .done hend
    | false =>
      rw [hend] at h
      cases h
  | succ fuel ih =>
    rw [ForwardIter.drain] at h
    cases hend : it.atEnd s with
    | true =>
      rw [hend] at h
      cases h
      exact .done hend
    | false =>
      rw [hend, if_neg Bool.false_ne_true] at h
      cases hnext : it.next s with
      | error e =>
        rw [hnext] at h
        cases h
      | ok s' =>
        cases hrest : it.drain fuel s' with
        | error e =>
          simp only [hnext, bind, Except.bind, hrest] at h
          cases h
        | ok ys' =>
          simp only [hnext, bind, Except.bind, hrest] at h
          cases ys' with
          | none => cases h
          | some ys' =>
            cases h
            exact .step hend hnext (ih hrest)

end Multio.Iteration

namespace Multio.Lib

inductive LoopStep (σ ρ : Type)
  | again (s : σ)
  | leave (r : ρ)

variable {σ ρ : Type}

/-- The loop, in at most `fuel` iterations. -/
def doWhile (body : σ → LoopStep σ ρ) : ℕ → σ → Option (List σ × ρ)
  | 0, _ => none
  | fuel + 1, s =>
    match body s with
    | .leave r => some ([s], r)
    | .again s' => (doWhile body fuel s').map fun run => (s :: run.1, run.2)

/-- The loop leaves with `r` after iterations that begin in the states of a list. -/
inductive Loops (body : σ → LoopStep σ ρ) : σ → List σ → ρ → Prop
  | leave {s : σ} {r : ρ} (h : body s = .leave r) : Loops body s [s] r
  | again {s s' : σ} {ss : List σ} {r : ρ} (h : body s = .again s') (rest : Loops body s' ss r) :
      Loops body s (s :: ss) r

variable {body : σ → LoopStep σ ρ} {s s' : σ} {ss : List σ} {r : ρ}

theorem loops_of_doWhile {fuel : ℕ} (h : doWhile body fuel s = some (ss, r)) :
    Loops body s ss r := by
  induction fuel generalizing s ss with
  | zero => exact absurd h (by simp [doWhile])
  | succ fuel ih =>
    rw [doWhile] at h
    cases hbody : body s with
    | leave r' =>
      rw [hbody] at h
      cases h
      exact .leave hbody
    | again s' =>
      rw [hbody] at h
      obtain ⟨run, hrun, heq⟩ := Option.map_eq_some_iff.mp h
      cases heq
      exact .again hbody (ih hrun)

theorem doWhile_of_loops (h : Loops body s ss r) : doWhile body ss.length s = some (ss, r) := by
  induction h with
  | leave h => rw [List.length_singleton, doWhile, h]
  | again h _ ih =>
    rw [List.length_cons, doWhile, h]
    simp only [ih, Option.map_some]

theorem Loops.mem_start (h : Loops body s ss r) : s ∈ ss := by
  cases h with
  | leave _ => exact List.mem_cons_self
  | again _ _ => exact List.mem_cons_self

theorem Loops.eq_of_leave (h : Loops body s ss r) {r' : ρ} (hbody : body s = .leave r') :
    ss = [s] ∧ r = r' := by
  cases h with
  | leave h =>
    cases h.symm.trans hbody
    exact ⟨rfl, rfl⟩
  | again h _ => cases h.symm.trans hbody

theorem Loops.mem_of_again (h : Loops body s ss r) (hbody : body s = .again s') : s' ∈ ss := by
  cases h with
  | leave h => cases h.symm.trans hbody
  | again h rest =>
    cases h.symm.trans hbody
    exact List.mem_cons_of_mem s rest.mem_start

theorem doWhile_eq_none {p : σ → Prop} (hstep : ∀ s, p s → ∃ s', body s = .again s' ∧ p s')
    (hs : p s) (fuel : ℕ) : doWhile body fuel s = none := by
  induction fuel generalizing s with
  | zero => rfl
  | succ fuel ih =>
    obtain ⟨s', hbody, hs'⟩ := hstep s hs
    rw [doWhile, hbody]
    simp only [ih hs', Option.map_none]

end Multio.Lib
