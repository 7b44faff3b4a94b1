import Mathlib.Data.List.Basic

namespace Multio.Lib

variable {μ β : Type}

/-- The closed blocks and the open one hold the messages, each of them whole, in order. -/
def Blocks (encode : μ → List β) (closed : List (List β)) (current : List β) (ms : List μ) :
    Prop :=
  ∃ (groups : List (List μ)) (last : List μ), groups.flatten ++ last = ms ∧
    closed = groups.map (·.flatMap encode) ∧ current = last.flatMap encode

namespace Blocks

variable {encode : μ → List β} {closed : List (List β)} {current : List β} {ms : List μ}

theorem empty : Blocks encode [] [] [] := ⟨[], [], rfl, rfl, rfl⟩

theorem append (h : Blocks encode closed current ms) (m : μ) :
    Blocks encode closed (current ++ encode m) (ms ++ [m]) := by
  obtain ⟨groups, last, hms, hclosed, hcurrent⟩ := h
  refine ⟨groups, last ++ [m], ?_, hclosed, ?_⟩
  · rw [← List.append_assoc, hms]
  · rw [List.flatMap_append, hcurrent, List.flatMap_singleton]

theorem cut (h : Blocks encode closed current ms) : Blocks encode (closed ++ [current]) [] ms := by
  obtain ⟨groups, last, hms, hclosed, hcurrent⟩ := h
  refine ⟨groups ++ [last], [], ?_, ?_, rfl⟩
  · rw [List.flatten_append, List.flatten_singleton, List.append_nil, hms]
  · rw [List.map_append, hclosed, hcurrent, List.map_singleton]

theorem flatten_append (h : Blocks encode closed current ms) :
    closed.flatten ++ current = ms.flatMap encode := by
  obtain ⟨groups, last, rfl, rfl, rfl⟩ := h
  rw [List.flatMap_append]
  congr 1
  induction groups with
  | nil => rfl
  | cons g groups ih =>
    rw [List.map_cons, List.flatten_cons, List.flatten_cons, List.flatMap_append, ih]

theorem filterMap_set {α γ : Type} {f : α → Option γ} {l : List α} {k : ℕ} {a b : α}
    (ha : l[k]? = some a) (hf : f b = f a) : (l.set k b).filterMap f = l.filterMap f := by
  induction l generalizing k with
  | nil => cases ha
  | cons c l ih =>
    cases k with
    | zero =>
      cases ha
      rw [List.set_cons_zero, List.filterMap_cons, List.filterMap_cons, hf]
    | succ k =>
      rw [List.set_cons_succ, List.filterMap_cons, List.filterMap_cons, ih ha]

section Read

variable {ι : Type} (read : List β → Option (ι × List β)) {item : μ → ι}

/-- Messages that are read one after the other are those that were written, as far as they can be
told from what is read of them. -/
theorem map_eq_of_flatMap_eq {good : μ → Prop}
    (hread : ∀ m, good m → ∀ rest, read (encode m ++ rest) = some (item m, rest))
    (hend : read [] = none) {ms ms' : List μ} (hms : ∀ m ∈ ms, good m)
    (hms' : ∀ m ∈ ms', good m) (h : ms.flatMap encode = ms'.flatMap encode) :
    ms.map item = ms'.map item := by
  induction ms generalizing ms' with
  | nil =>
    cases ms' with
    | nil => rfl
    | cons m' ms' =>
      rw [List.flatMap_nil, List.flatMap_cons] at h
      rw [h, hread m' (hms' m' List.mem_cons_self)] at hend
      cases hend
  | cons m ms ih =>
    obtain ⟨hm, hms⟩ := List.forall_mem_cons.mp hms
    cases ms' with
    | nil =>
      rw [List.flatMap_nil, List.flatMap_cons] at h
      rw [← h, hread m hm] at hend
      cases hend
    | cons m' ms' =>
      obtain ⟨hm', hms'⟩ := List.forall_mem_cons.mp hms'
      rw [List.flatMap_cons, List.flatMap_cons] at h
      have hboth := hread m hm (ms.flatMap encode)
      rw [h, hread m' hm', Option.some.injEq, Prod.mk.injEq] at hboth
      rw [List.map_cons, List.map_cons, hboth.1, ih hms hms' hboth.2.symm]

end Read

theorem prefix_concat_of_head {α : Type} {l l' : List α} {x : α} (h : l <+: l')
    (hx : (l'.drop l.length).head? = some x) : l ++ [x] <+: l' := by
  obtain ⟨r, rfl⟩ := h
  rw [List.drop_left] at hx
  obtain ⟨r, rfl⟩ := List.head?_eq_some_iff.mp hx
  exact ⟨r, by simp⟩

/-- Blocks that come from several sources, of each of them in order, are blocks of the messages of
these sources. -/
theorem exists_keyed {κ γ α : Type} [DecidableEq κ] (f : γ → α) (as : List (κ × α))
    (blocks : κ → List γ)
    (h : ∀ k, (as.filter fun a => a.1 = k).map Prod.snd <+: (blocks k).map f) :
    ∃ bs : List (κ × γ), bs.map (fun b => (b.1, f b.2)) = as ∧
      ∀ k, (bs.filter fun b => b.1 = k).map Prod.snd <+: blocks k := by
  -- the blocks of a key are used up in their order
  induction as generalizing blocks with
  | nil => exact ⟨[], rfl, fun k => List.nil_prefix⟩
  | cons a as ih =>
    obtain ⟨k, x⟩ := a
    have hk := h k
    rw [List.filter_cons_of_pos (by simp), List.map_cons] at hk
    cases hblocks : blocks k with
    | nil =>
      rw [hblocks] at hk
      exact absurd (List.prefix_nil.mp hk) (List.cons_ne_nil _ _)
    | cons y ys =>
      rw [hblocks, List.map_cons, List.cons_prefix_cons] at hk
      obtain ⟨rfl, hk⟩ := hk
      obtain ⟨bs, rfl, hbs⟩ := ih (Function.update blocks k ys) fun k' => by
        by_cases hkk : k' = k
        · rw [hkk, Function.update_self]
          exact hk
        · have hk' := h k'
          rw [List.filter_cons_of_neg (by simpa using fun heq => hkk heq.symm)] at hk'
          rw [Function.update_of_ne hkk]
          exact hk'
      refine ⟨(k, y) :: bs, rfl, fun k' => ?_⟩
      have hk' := hbs k'
      by_cases hkk : k' = k
      · rw [hkk, Function.update_self] at hk'
        rw [hkk, List.filter_cons_of_pos (by simp), List.map_cons, hblocks,
          List.cons_prefix_cons]
        exact ⟨rfl, hk'⟩
      · rw [Function.update_of_ne hkk] at hk'
        rw [List.filter_cons_of_neg (by simpa using fun heq => hkk heq.symm)]
        exact hk'

end Blocks
end Multio.Lib
