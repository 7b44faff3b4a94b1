import Mathlib.Algebra.BigOperators.Group.Finset.Basic
import Mathlib.Algebra.Order.Group.Multiset
import Mathlib.Logic.Relation
import Mathlib.Tactic.Abel

namespace Multio.Lib

@[ext]
structure BlockPool (β α : Type) where
  fresh : Multiset β
  /-- The block that is filled, with the first slot that has not been reserved. -/
  current : Option (β × ℕ)
  full : Multiset β
  /-- A block that has been archived but not cleared. -/
  clearing : Option β
  reserved : Multiset ((β × ℕ) × α)
  slots : β × ℕ → Option α
  archive : Multiset α
  stored : Multiset α

namespace BlockPool

variable {β α : Type}

def contents (size : ℕ) (slots : β × ℕ → Option α) (b : β) : Multiset α :=
  ∑ i ∈ Finset.range size, (slots (b, i)).elim 0 fun a => {a}

theorem contents_congr {size : ℕ} {slots slots' : β × ℕ → Option α} {b : β}
    (h : ∀ i, slots (b, i) = slots' (b, i)) : contents size slots b = contents size slots' b :=
  Finset.sum_congr rfl fun i _ => by rw [h i]

theorem contents_eq_zero {size : ℕ} {slots : β × ℕ → Option α} {b : β}
    (h : ∀ i, slots (b, i) = none) : contents size slots b = 0 :=
  Finset.sum_eq_zero fun i _ => by rw [h i, Option.elim_none]

def owned (p : BlockPool β α) : Multiset β :=
  p.fresh + p.current.elim 0 (fun c => {c.1}) + p.full + p.clearing.elim 0 fun b => {b}

variable [DecidableEq β]

inductive Step (size : ℕ) : BlockPool β α → BlockPool β α → Prop
  | reserve {p : BlockPool β α} {b : β} {i k : ℕ} {a : α} (hcurrent : p.current = some (b, i))
      (hi : i < size) (hk : i < k) :
      Step size p { p with current := some (b, k), reserved := ((b, i), a) ::ₘ p.reserved }
  | next {p : BlockPool β α} {b b' : β} {i : ℕ} {fresh : Multiset β}
      (hcurrent : p.current = some (b, i)) (hfresh : p.fresh = b' ::ₘ fresh) :
      Step size p { p with fresh, current := some (b', 0), full := b ::ₘ p.full }
  | store {p : BlockPool β α} {s : β × ℕ} {a : α} {reserved : Multiset ((β × ℕ) × α)}
      (hreserved : p.reserved = (s, a) ::ₘ reserved) :
      Step size p { p with
        reserved, slots := Function.update p.slots s (some a), stored := a ::ₘ p.stored }
  | archive {p : BlockPool β α} {b : β} {full : Multiset β} (hfull : p.full = b ::ₘ full)
      (hclearing : p.clearing = none) (hfilled : ∀ r ∈ p.reserved, r.1.1 ≠ b) :
      Step size p { p with
        full, clearing := some b, archive := p.archive + contents size p.slots b }
  | clear {p : BlockPool β α} {b : β} (hclearing : p.clearing = some b) :
      Step size p { p with
        fresh := b ::ₘ p.fresh, clearing := none,
        slots := fun s => if s.1 = b then none else p.slots s }
  | close {p : BlockPool β α} {b : β} {i : ℕ} (hcurrent : p.current = some (b, i)) :
      Step size p { p with current := none, full := b ::ₘ p.full }

def Vacant (p : BlockPool β α) (s : β × ℕ) : Prop :=
  p.slots s = none ∧ ∀ r ∈ p.reserved, r.1 ≠ s

structure Sound (blocks : Finset β) (size : ℕ) (p : BlockPool β α) : Prop where
  owned : p.owned = blocks.val
  fresh : ∀ b ∈ p.fresh, ∀ i, p.Vacant (b, i)
  current : ∀ b k, p.current = some (b, k) → ∀ i, k ≤ i → p.Vacant (b, i)
  clearing : ∀ b, p.clearing = some b → ∀ r ∈ p.reserved, r.1.1 ≠ b
  nodup : (p.reserved.map Prod.fst).Nodup
  reserved : ∀ r ∈ p.reserved, r.1.1 ∈ blocks ∧ r.1.2 < size ∧ p.slots r.1 = none
  balance : p.archive + ∑ b ∈ blocks with p.clearing ≠ some b, contents size p.slots b = p.stored

theorem contents_update {size : ℕ} {slots : β × ℕ → Option α} {s : β × ℕ} (a : α)
    (hs : s.2 < size) (hnone : slots s = none) :
    contents size (Function.update slots s (some a)) s.1 = a ::ₘ contents size slots s.1 := by
  obtain ⟨b, i⟩ := s
  have hi : i ∈ Finset.range size := Finset.mem_range.mpr hs
  have hrest : ∀ j ∈ (Finset.range size).erase i,
      ((Function.update slots (b, i) (some a) (b, j)).elim 0 fun a => {a}) =
        ((slots (b, j)).elim 0 fun a => {a} : Multiset α) := by
    intro j hj
    have hne : (b, j) ≠ (b, i) := fun h => Finset.ne_of_mem_erase hj (Prod.ext_iff.mp h).2
    rw [Function.update_of_ne hne]
  rw [contents, contents, ← Finset.add_sum_erase _ _ hi, ← Finset.add_sum_erase _ _ hi,
    Finset.sum_congr rfl hrest, Function.update_self, hnone, Option.elim_some, Option.elim_none,
    zero_add, Multiset.singleton_add]

theorem contents_update_of_ne {size : ℕ} (slots : β × ℕ → Option α) {s : β × ℕ} (x : Option α)
    {b : β} (hb : b ≠ s.1) : contents size (Function.update slots s x) b = contents size slots b :=
  contents_congr fun _ => Function.update_of_ne (fun h => hb (congrArg Prod.fst h)) x slots

section Places

variable {blocks : Finset β} {size : ℕ} {p : BlockPool β α} {b b' : β} {i k : ℕ}

theorem Sound.nodup_owned (h : p.Sound blocks size) : p.owned.Nodup := by
  rw [h.owned]
  exact blocks.nodup

theorem Sound.mem_blocks (h : p.Sound blocks size) (hb : b ∈ p.owned) : b ∈ blocks := by
  rw [h.owned] at hb
  exact hb

theorem Sound.current_mem (h : p.Sound blocks size) (hcurrent : p.current = some (b, i)) :
    b ∈ blocks := by
  apply h.mem_blocks
  rw [BlockPool.owned, hcurrent]
  simp

theorem Sound.current_not_fresh (h : p.Sound blocks size) (hcurrent : p.current = some (b, i))
    (hb : b' ∈ p.fresh) : b' ≠ b := by
  rintro rfl
  have hnodup := h.nodup_owned
  rw [BlockPool.owned, hcurrent] at hnodup
  have hboth := (Multiset.nodup_add.mp (Multiset.nodup_add.mp
    (Multiset.nodup_add.mp hnodup).1).1).2.2
  exact Multiset.disjoint_left.mp hboth hb (Multiset.mem_singleton_self b')

theorem Sound.current_not_clearing (h : p.Sound blocks size) (hcurrent : p.current = some (b, i)) :
    p.clearing ≠ some b := by
  intro hclearing
  have hnodup := h.nodup_owned
  rw [BlockPool.owned, hcurrent, hclearing] at hnodup
  have hboth := (Multiset.nodup_add.mp hnodup).2.2
  refine Multiset.disjoint_left.mp hboth ?_ (Multiset.mem_singleton_self b)
  simp

end Places

section Steps

variable {blocks : Finset β} {size : ℕ} {p p' : BlockPool β α}

theorem Sound.reserve (h : p.Sound blocks size) {b : β} {i k : ℕ}
    (hcurrent : p.current = some (b, i)) (hi : i < size) (hk : i < k) (a : α) :
    Sound blocks size { p with
      current := some (b, k), reserved := ((b, i), a) ::ₘ p.reserved } where
  owned := by
    rw [← h.owned, BlockPool.owned, BlockPool.owned, hcurrent]
    rfl
  fresh b' hb' j := by
    obtain ⟨hnone, hfree⟩ := h.fresh b' hb' j
    refine ⟨hnone, Multiset.forall_mem_cons.mpr ⟨?_, hfree⟩⟩
    intro heq
    exact h.current_not_fresh hcurrent hb' (congrArg Prod.fst heq).symm
  current b' k' hcurrent' j hj := by
    cases hcurrent'
    obtain ⟨hnone, hfree⟩ := h.current b i hcurrent j (hk.le.trans hj)
    refine ⟨hnone, Multiset.forall_mem_cons.mpr ⟨?_, hfree⟩⟩
    intro heq
    exact absurd (congrArg Prod.snd heq) (hk.trans_le hj).ne
  clearing b' hclearing := by
    refine Multiset.forall_mem_cons.mpr ⟨?_, h.clearing b' hclearing⟩
    rintro rfl
    exact h.current_not_clearing hcurrent hclearing
  nodup := by
    rw [Multiset.map_cons, Multiset.nodup_cons]
    refine ⟨?_, h.nodup⟩
    intro hmem
    obtain ⟨r, hr, heq⟩ := Multiset.mem_map.mp hmem
    exact (h.current b i hcurrent i (Nat.le_refl i)).2 r hr heq
  reserved := Multiset.forall_mem_cons.mpr
    ⟨⟨h.current_mem hcurrent, hi, (h.current b i hcurrent i (Nat.le_refl i)).1⟩, h.reserved⟩
  balance := h.balance

theorem Sound.next (h : p.Sound blocks size) {b b' : β} {i : ℕ} {fresh : Multiset β}
    (hcurrent : p.current = some (b, i)) (hfresh : p.fresh = b' ::ₘ fresh) :
    Sound blocks size { p with fresh, current := some (b', 0), full := b ::ₘ p.full } where
  owned := by
    rw [← h.owned, BlockPool.owned, BlockPool.owned, hcurrent, hfresh]
    simp only [Option.elim_some, ← Multiset.singleton_add]
    abel
  fresh b'' hb'' := h.fresh b'' (hfresh ▸ Multiset.mem_cons_of_mem hb'')
  current b'' k hcurrent' j _ := by
    cases hcurrent'
    exact h.fresh b' (hfresh ▸ Multiset.mem_cons_self b' fresh) j
  clearing := h.clearing
  nodup := h.nodup
  reserved := h.reserved
  balance := h.balance

theorem Sound.store (h : p.Sound blocks size) {s : β × ℕ} {a : α}
    {reserved : Multiset ((β × ℕ) × α)} (hreserved : p.reserved = (s, a) ::ₘ reserved) :
    Sound blocks size { p with
      reserved, slots := Function.update p.slots s (some a), stored := a ::ₘ p.stored } := by
  have hmem : (s, a) ∈ p.reserved := hreserved ▸ Multiset.mem_cons_self _ reserved
  have hsub : ∀ r ∈ reserved, r ∈ p.reserved :=
    fun r hr => hreserved ▸ Multiset.mem_cons_of_mem hr
  obtain ⟨hblock, hsize, hnone⟩ := h.reserved _ hmem
  -- the slot was reserved, so it belongs to no block that is vacant
  have hvacant : ∀ t, p.Vacant t →
      Function.update p.slots s (some a) t = none ∧ ∀ r ∈ reserved, r.1 ≠ t := by
    intro t ht
    refine ⟨?_, fun r hr => ht.2 r (hsub r hr)⟩
    rw [Function.update_of_ne (Ne.symm (ht.2 _ hmem)), ht.1]
  have hnodup := h.nodup
  rw [hreserved, Multiset.map_cons, Multiset.nodup_cons] at hnodup
  refine
    { owned := h.owned
      fresh := fun b hb i => hvacant _ (h.fresh b hb i)
      current := fun b k hcurrent i hi => hvacant _ (h.current b k hcurrent i hi)
      clearing := fun b hclearing r hr => h.clearing b hclearing r (hsub r hr)
      nodup := hnodup.2
      reserved := ?_
      balance := ?_ }
  · intro r hr
    obtain ⟨hb, hi, hr'⟩ := h.reserved r (hsub r hr)
    refine ⟨hb, hi, ?_⟩
    have hne : r.1 ≠ s := by
      intro heq
      apply hnodup.1
      exact Multiset.mem_map.mpr ⟨r, hr, heq⟩
    rw [← hr']
    exact Function.update_of_ne hne _ p.slots
  · have hfilter : s.1 ∈ blocks.filter fun b => p.clearing ≠ some b :=
      Finset.mem_filter.mpr ⟨hblock, fun hclearing => h.clearing _ hclearing _ hmem rfl⟩
    simp only
    rw [← h.balance, ← Finset.add_sum_erase _ _ hfilter, contents_update a hsize hnone,
      ← Finset.add_sum_erase _ (contents size p.slots) hfilter,
      Finset.sum_congr rfl fun b hb =>
        contents_update_of_ne p.slots (some a) (Finset.ne_of_mem_erase hb)]
    simp only [← Multiset.singleton_add]
    abel

theorem Sound.archive (h : p.Sound blocks size) {b : β} {full : Multiset β}
    (hfull : p.full = b ::ₘ full) (hclearing : p.clearing = none)
    (hfilled : ∀ r ∈ p.reserved, r.1.1 ≠ b) :
    Sound blocks size { p with
      full, clearing := some b, archive := p.archive + contents size p.slots b } where
  owned := by
    rw [← h.owned, BlockPool.owned, BlockPool.owned, hclearing, hfull]
    simp only [Option.elim_some, Option.elim_none, ← Multiset.singleton_add]
    abel
  fresh := h.fresh
  current := h.current
  clearing b' hb' := by
    cases hb'
    exact hfilled
  nodup := h.nodup
  reserved := h.reserved
  balance := by
    have hmem : b ∈ blocks := by
      apply h.mem_blocks
      rw [BlockPool.owned, hfull]
      simp
    have hall : ∑ b' ∈ blocks with p.clearing ≠ some b', contents size p.slots b' =
        ∑ b' ∈ blocks, contents size p.slots b' := by
      rw [hclearing, Finset.filter_true_of_mem fun b' _ => by simp]
    have hrest : (blocks.filter fun b' => some b ≠ some b') = blocks.erase b := by
      ext b'
      rw [Finset.mem_filter, Finset.mem_erase, and_comm, ne_comm, Ne, Option.some.injEq]
    rw [← h.balance, hall, ← Finset.add_sum_erase _ _ hmem]
    simp only [hrest]
    abel

theorem Sound.clear (h : p.Sound blocks size) {b : β} (hclearing : p.clearing = some b) :
    Sound blocks size { p with
      fresh := b ::ₘ p.fresh, clearing := none,
      slots := fun s => if s.1 = b then none else p.slots s } := by
  -- the slots of the other blocks are not touched
  have hvacant : ∀ t, p.Vacant t →
      (if t.1 = b then none else p.slots t) = none ∧ ∀ r ∈ p.reserved, r.1 ≠ t := by
    intro t ht
    rw [ht.1, ite_self]
    exact ⟨rfl, ht.2⟩
  refine
    { owned := ?_
      fresh := ?_
      current := fun b' k hcurrent i hi => hvacant _ (h.current b' k hcurrent i hi)
      clearing := fun b' hb' => by cases hb'
      nodup := h.nodup
      reserved := ?_
      balance := ?_ }
  · rw [← h.owned, BlockPool.owned, BlockPool.owned, hclearing]
    simp only [Option.elim_some, Option.elim_none, ← Multiset.singleton_add]
    abel
  · intro b' hb' i
    cases Multiset.mem_cons.mp hb' with
    | inl heq =>
      subst heq
      exact ⟨if_pos rfl, fun r hr heq => h.clearing b' hclearing r hr (congrArg Prod.fst heq)⟩
    | inr hmem => exact hvacant _ (h.fresh b' hmem i)
  · intro r hr
    obtain ⟨hb, hi, hnone⟩ := h.reserved r hr
    exact ⟨hb, hi, (if_neg (h.clearing b hclearing r hr)).trans hnone⟩
  · have hmem : b ∈ blocks := by
      apply h.mem_blocks
      rw [BlockPool.owned, hclearing]
      simp
    have hrest : (blocks.filter fun b' => p.clearing ≠ some b') = blocks.erase b := by
      ext b'
      rw [Finset.mem_filter, Finset.mem_erase, and_comm, ne_comm, hclearing, Ne, Option.some.injEq]
    have hall : (blocks.filter fun b' => (none : Option β) ≠ some b') = blocks :=
      Finset.filter_true_of_mem fun b' _ => by simp
    simp only [hall]
    rw [← h.balance, hrest, ← Finset.add_sum_erase _ _ hmem, contents_eq_zero fun i => if_pos rfl,
      zero_add]
    congr 1
    exact Finset.sum_congr rfl fun b' hb' =>
      contents_congr fun i => if_neg (Finset.ne_of_mem_erase hb')

theorem Sound.close (h : p.Sound blocks size) {b : β} {i : ℕ}
    (hcurrent : p.current = some (b, i)) :
    Sound blocks size { p with current := none, full := b ::ₘ p.full } where
  owned := by
    rw [← h.owned, BlockPool.owned, BlockPool.owned, hcurrent]
    simp only [Option.elim_some, Option.elim_none, ← Multiset.singleton_add]
    abel
  fresh := h.fresh
  current b' k hb' := by cases hb'
  clearing := h.clearing
  nodup := h.nodup
  reserved := h.reserved
  balance := h.balance

theorem Sound.step (h : p.Sound blocks size) (hstep : Step size p p') : p'.Sound blocks size := by
  cases hstep with
  | reserve hcurrent hi hk => exact h.reserve hcurrent hi hk _
  | next hcurrent hfresh => exact h.next hcurrent hfresh
  | store hreserved => exact h.store hreserved
  | archive hfull hclearing hfilled => exact h.archive hfull hclearing hfilled
  | clear hclearing => exact h.clear hclearing
  | close hcurrent => exact h.close hcurrent

theorem Sound.steps (h : p.Sound blocks size) (hsteps : Relation.ReflTransGen (Step size) p p') :
    p'.Sound blocks size := by
  induction hsteps with
  | refl => exact h
  | tail _ hstep ih => exact ih.step hstep

/-- Once every block is fresh again, all that has been stored is archived. -/
theorem Sound.archive_eq (h : p.Sound blocks size) (hfresh : p.fresh = blocks.val) :
    p.archive = p.stored := by
  rw [← h.balance, Finset.sum_eq_zero, add_zero]
  intro b hb
  have hmem : b ∈ p.fresh := by
    rw [hfresh]
    exact (Finset.mem_filter.mp hb).1
  exact contents_eq_zero fun i => (h.fresh b hmem i).1

end Steps

end BlockPool
end Multio.Lib
