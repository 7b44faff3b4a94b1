import Mathlib.Data.Finset.Basic
import Mathlib.Data.Finset.Lattice.Lemmas
import Mathlib.Logic.Function.Basic
import Mathlib.Data.List.Basic

namespace Multio.Lib

structure Gather (κ π α μ : Type) where
  key : μ → κ
  peer : μ → π
  start : μ → α
  add : μ → α → α
  goal : μ → Option (Finset π)

namespace Gather

variable {κ π α μ : Type} [DecidableEq κ] [DecidableEq π] (g : Gather κ π α μ)

/-- What is pending under each key: the value collected and the peers heard of. -/
abbrev Pending (κ π α : Type) := κ → Option (α × Finset π)

/-- The entry of the message's key once the message has been added to it. -/
def collect (s : Pending κ π α) (m : μ) : α × Finset π :=
  let e := (s (g.key m)).getD (g.start m, ∅)
  (g.add m e.1, insert (g.peer m) e.2)

def step (s : Pending κ π α) (m : μ) : Pending κ π α × Option α :=
  let e := g.collect s m
  if g.goal m = some e.2 then (Function.update s (g.key m) none, some e.1)
  else (Function.update s (g.key m) (some e), none)

def run (s : Pending κ π α) : List μ → Pending κ π α × List (Option α)
  | [] => (s, [])
  | m :: ms => ((run (g.step s m).1 ms).1, (g.step s m).2 :: (run (g.step s m).1 ms).2)

def under (k : κ) (ms : List μ) : List μ := ms.filter fun m => g.key m = k

def peers (k : κ) (ms : List μ) : Finset π := ((g.under k ms).map g.peer).toFinset

@[simp] theorem mem_peers {k : κ} {ms : List μ} {p : π} :
    p ∈ g.peers k ms ↔ ∃ m ∈ ms, g.key m = k ∧ g.peer m = p := by
  simp [peers, under, and_assoc]

/-- The contributions of a nonempty list of messages, added in order. -/
def total : List μ → Option α
  | [] => none
  | m :: ms => some ((m :: ms).foldl (fun a x => g.add x a) (g.start m))

theorem run_append (s : Pending κ π α) (ms ms' : List μ) :
    g.run s (ms ++ ms') =
      ((g.run (g.run s ms).1 ms').1, (g.run s ms).2 ++ (g.run (g.run s ms).1 ms').2) := by
  induction ms generalizing s with
  | nil => rfl
  | cons m ms ih =>
    rw [List.cons_append, run, ih, run]
    rfl

theorem run_length (s : Pending κ π α) (ms : List μ) : (g.run s ms).2.length = ms.length := by
  induction ms generalizing s with
  | nil => rfl
  | cons m ms ih => rw [run, List.length_cons, ih, List.length_cons]

theorem step_of_ne (s : Pending κ π α) (m : μ) {k : κ} (h : k ≠ g.key m) :
    (g.step s m).1 k = s k := by
  unfold step
  dsimp only
  split_ifs
  · exact Function.update_of_ne h _ _
  · exact Function.update_of_ne h _ _

theorem run_of_ne (s : Pending κ π α) (ms : List μ) {k : κ} (h : ∀ m ∈ ms, g.key m ≠ k) :
    (g.run s ms).1 k = s k := by
  induction ms generalizing s with
  | nil => rfl
  | cons m ms ih =>
    have hm := h m List.mem_cons_self
    rw [run, ih _ fun x hx => h x (List.mem_cons_of_mem _ hx), g.step_of_ne s m (Ne.symm hm)]

omit [DecidableEq π] in
theorem under_append (k : κ) (ms ms' : List μ) :
    g.under k (ms ++ ms') = g.under k ms ++ g.under k ms' := List.filter_append _ _

omit [DecidableEq π] in
theorem under_singleton {k : κ} {m : μ} (h : g.key m = k) : g.under k [m] = [m] := by
  simp [under, h]

omit [DecidableEq π] in
theorem under_singleton_of_ne {k : κ} {m : μ} (h : g.key m ≠ k) : g.under k [m] = [] := by
  simp [under, h]

theorem peers_append_of_ne {k : κ} {m : μ} (ms : List μ) (h : g.key m ≠ k) :
    g.peers k (ms ++ [m]) = g.peers k ms := by
  rw [peers, under_append, g.under_singleton_of_ne h, List.append_nil, peers]

theorem peers_append_of_eq {k : κ} {m : μ} (ms : List μ) (h : g.key m = k) :
    g.peers k (ms ++ [m]) = insert (g.peer m) (g.peers k ms) := by
  rw [peers, under_append, g.under_singleton h, List.map_append, List.toFinset_append, peers,
    Finset.union_comm]
  simp

omit [DecidableEq κ] [DecidableEq π] in
theorem total_append_singleton (ms : List μ) (m : μ) :
    g.total (ms ++ [m]) = some (g.add m ((g.total ms).getD (g.start m))) := by
  cases ms with
  | nil => rfl
  | cons x xs =>
    rw [List.cons_append, total, total, ← List.cons_append, List.foldl_append]
    rfl

omit [DecidableEq κ] [DecidableEq π] in
theorem total_of_ne_nil {ms : List μ} (h : ms ≠ []) :
    ∃ m ∈ ms, g.total ms = some (ms.foldl (fun a x => g.add x a) (g.start m)) := by
  cases ms with
  | nil => exact absurd rfl h
  | cons m ms => exact ⟨m, List.mem_cons_self, rfl⟩

def Unfinished (k : κ) (ms : List μ) : Prop :=
  ∀ pre m post, ms = pre ++ m :: post → g.key m = k → g.goal m ≠ some (g.peers k (pre ++ [m]))

theorem Unfinished.init {k : κ} {ms : List μ} {m : μ} (h : g.Unfinished k (ms ++ [m])) :
    g.Unfinished k ms := by
  intro pre x post heq
  exact h pre x (post ++ [m]) (by rw [heq, List.append_assoc, List.cons_append])

/-- The entry of a key when the messages `ms` have been collected under it. -/
def entryAfter (k : κ) (ms : List μ) : Option (α × Finset π) :=
  (g.total (g.under k ms)).map fun a => (a, g.peers k ms)

theorem collect_entryAfter {k : κ} {ms : List μ} {m : μ} (hm : g.key m = k) {s : Pending κ π α}
    (hs : s k = g.entryAfter k ms) :
    some (g.collect s m) = g.entryAfter k (ms ++ [m]) := by
  rw [entryAfter, under_append, g.under_singleton hm, total_append_singleton, Option.map_some,
    g.peers_append_of_eq ms hm, collect, hm, hs, entryAfter]
  cases hms : g.under k ms with
  | nil => simp [total, peers, hms]
  | cons x xs => simp [total]

def Silent (k : κ) (s : Pending κ π α) (ms : List μ) : Prop :=
  ∀ p ∈ ms.zip (g.run s ms).2, g.key p.1 = k → p.2 = none

theorem zip_run_append (s : Pending κ π α) (ms : List μ) (m : μ) :
    (ms ++ [m]).zip (g.run s (ms ++ [m])).2 =
      ms.zip (g.run s ms).2 ++ [(m, (g.step (g.run s ms).1 m).2)] := by
  rw [run_append, List.zip_append (g.run_length s ms).symm]
  rfl

theorem silent_append {k : κ} {s : Pending κ π α} {ms : List μ} {m : μ} :
    g.Silent k s (ms ++ [m]) ↔
      g.Silent k s ms ∧ (g.key m = k → (g.step (g.run s ms).1 m).2 = none) := by
  unfold Silent
  rw [zip_run_append, List.forall_mem_append, List.forall_mem_singleton]

theorem step_collecting {s : Pending κ π α} {m : μ} (h : g.goal m ≠ some (g.collect s m).2) :
    g.step s m = (Function.update s (g.key m) (some (g.collect s m)), none) :=
  if_neg h

/-- As long as a key gives nothing out, everything received under it is pending. -/
theorem run_silent {k : κ} {s : Pending κ π α} (hs : s k = none) (ms : List μ)
    (hms : g.Silent k s ms) : (g.run s ms).1 k = g.entryAfter k ms := by
  induction ms using List.reverseRecOn with
  | nil => exact hs
  | append_singleton ms m ih =>
    obtain ⟨hpre, hm⟩ := g.silent_append.mp hms
    have hstate := ih hpre
    rw [run_append]
    change (g.step (g.run s ms).1 m).1 k = _
    by_cases hk : g.key m = k
    · have hgoal : g.goal m ≠ some (g.collect (g.run s ms).1 m).2 := by
        intro hgoal
        have hout := hm hk
        rw [step, if_pos hgoal] at hout
        cases hout
      rw [g.step_collecting hgoal, ← g.collect_entryAfter hk hstate, ← hk]
      exact Function.update_self _ _ _
    · rw [g.step_of_ne _ _ (Ne.symm hk), hstate, entryAfter, entryAfter, under_append,
        g.under_singleton_of_ne hk, List.append_nil, g.peers_append_of_ne ms hk]

theorem collect_peers {k : κ} {ms : List μ} {m : μ} (hm : g.key m = k) {s : Pending κ π α}
    (hs : s k = g.entryAfter k ms) : (g.collect s m).2 = g.peers k (ms ++ [m]) := by
  have hcollect := g.collect_entryAfter hm hs
  rw [entryAfter] at hcollect
  obtain ⟨a, -, ha⟩ := Option.map_eq_some_iff.mp hcollect.symm
  rw [← ha]

theorem Unfinished.silent {k : κ} {s : Pending κ π α} (hs : s k = none) (ms : List μ)
    (hms : g.Unfinished k ms) : g.Silent k s ms := by
  induction ms using List.reverseRecOn with
  | nil => exact fun p hp => absurd hp List.not_mem_nil
  | append_singleton ms m ih =>
    have hpre := ih (Unfinished.init g hms)
    refine g.silent_append.mpr ⟨hpre, ?_⟩
    intro hm
    rw [g.step_collecting]
    rw [g.collect_peers hm (g.run_silent hs ms hpre)]
    exact hms ms m [] rfl hm

/-- The message that reaches the goal gives out everything received under its key. -/
theorem step_finishing {k : κ} {s : Pending κ π α} {ms : List μ} {m : μ} (hm : g.key m = k)
    (hs : s k = g.entryAfter k ms) (hgoal : g.goal m = some (g.peers k (ms ++ [m]))) :
    (g.step s m).1 k = none ∧ (g.step s m).2 = g.total (g.under k (ms ++ [m])) := by
  have hcollect := g.collect_entryAfter hm hs
  rw [entryAfter] at hcollect
  obtain ⟨a, hvalue, ha⟩ := Option.map_eq_some_iff.mp hcollect.symm
  have hstep : g.step s m = (Function.update s (g.key m) none, some (g.collect s m).1) :=
    if_pos (by rw [hgoal, ← ha])
  rw [hstep, hvalue, ← ha, ← hm]
  exact ⟨Function.update_self _ _ _, rfl⟩

/-- The message that completes a silent run gives out all that was collected. -/
theorem run_finishing {k : κ} {s : Pending κ π α} (hs : s k = none) {ms : List μ} {m : μ}
    (hms : g.Silent k s ms) (hm : g.key m = k) (hgoal : g.goal m = some (g.peers k (ms ++ [m]))) :
    (g.step (g.run s ms).1 m).1 k = none ∧
      ∃ a, g.total (g.under k (ms ++ [m])) = some a ∧ (g.step (g.run s ms).1 m).2 = some a := by
  obtain ⟨hgone, hout⟩ := g.step_finishing hm (g.run_silent hs ms hms) hgoal
  rw [under_append, under_singleton g hm, total_append_singleton] at hout ⊢
  exact ⟨hgone, _, rfl, hout⟩

end Gather
end Multio.Lib
