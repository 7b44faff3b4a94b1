import Mathlib.Data.Finset.Card
import Mathlib.Data.List.Nodup
import Mathlib.Data.List.Range
import Mathlib.Order.Nat
import Mathlib.Data.Nat.Find

namespace Multio.Lib

variable {κ τ : Type} [DecidableEq κ] [DecidableEq τ]

/-- Arrivals of parties in the rounds `0, …, n - 1`, each party in the order of the rounds. -/
structure Interleaving (parties : Finset κ) (n : ℕ) (order : List (κ × ℕ)) : Prop where
  party : ∀ e ∈ order, e.1 ∈ parties
  rounds : ∀ p ∈ parties, (order.filter fun e => e.1 = p).map Prod.snd = List.range n

def Complete (parties : Finset κ) (i : ℕ) (arrived : List (κ × ℕ)) : Prop :=
  ∀ q ∈ parties, (q, i) ∈ arrived

instance (parties : Finset κ) (i : ℕ) (arrived : List (κ × ℕ)) :
    Decidable (Complete parties i arrived) :=
  inferInstanceAs (Decidable (∀ q ∈ parties, (q, i) ∈ arrived))

/-- No party comes to a round while an earlier one of the same tag is open. -/
def NoEarlyRepeat (parties : Finset κ) (tag : ℕ → τ) (order : List (κ × ℕ)) : Prop :=
  ∀ pre p j post, order = pre ++ (p, j) :: post →
    ∀ i < j, tag i = tag j → Complete parties i pre

def waiting (parties : Finset κ) (tag : ℕ → τ) (arrived : List (κ × ℕ)) (t : τ) : Finset κ :=
  parties.filter fun p =>
    ∃ e ∈ arrived, e.1 = p ∧ tag e.2 = t ∧ ¬Complete parties e.2 arrived

variable {parties : Finset κ} {tag : ℕ → τ} {n : ℕ}

omit [DecidableEq κ] [DecidableEq τ] in
theorem NoEarlyRepeat.of_append {pre post : List (κ × ℕ)}
    (h : NoEarlyRepeat parties tag (pre ++ post)) : NoEarlyRepeat parties tag pre := by
  rintro pre' p j post' rfl
  apply h pre' p j (post' ++ post)
  rw [List.append_assoc, List.cons_append]

omit [DecidableEq κ] [DecidableEq τ] in
theorem NoEarlyRepeat.concat {pre : List (κ × ℕ)} {p : κ} {j : ℕ}
    (h : NoEarlyRepeat parties tag pre)
    (hj : ∀ i < j, tag i = tag j → Complete parties i pre) :
    NoEarlyRepeat parties tag (pre ++ [(p, j)]) := by
  intro pre' q i post' heq
  rcases List.eq_nil_or_concat post' with rfl | ⟨post, e, rfl⟩
  · obtain ⟨rfl, hlast⟩ := List.append_inj' heq rfl
    cases hlast
    exact hj
  · rw [List.concat_eq_append, ← List.cons_append, ← List.append_assoc] at heq
    obtain ⟨rfl, -⟩ := List.append_inj' heq rfl
    exact h pre' q i post rfl

namespace Interleaving

variable {order : List (κ × ℕ)} (h : Interleaving parties n order)

include h

theorem mem_iff {p : κ} (hp : p ∈ parties) (i : ℕ) : (p, i) ∈ order ↔ i < n := by
  rw [← List.mem_range, ← h.rounds p hp, List.mem_map]
  constructor
  · intro hmem
    exact ⟨(p, i), List.mem_filter.mpr ⟨hmem, decide_eq_true rfl⟩, rfl⟩
  · rintro ⟨⟨q, j⟩, hmem, rfl⟩
    obtain ⟨hmem, hq⟩ := List.mem_filter.mp hmem
    rw [← of_decide_eq_true hq]
    exact hmem

theorem nodup : order.Nodup := by
  rw [List.nodup_iff_count_le_one]
  intro e
  by_cases he : e ∈ order
  · have hnodup : (order.filter fun x => x.1 = e.1).Nodup := by
      apply List.Nodup.of_map Prod.snd
      rw [h.rounds e.1 (h.party e he)]
      exact List.nodup_range
    rw [← List.count_filter (p := fun x => x.1 = e.1) (decide_eq_true rfl)]
    exact List.nodup_iff_count_le_one.mp hnodup e
  · rw [List.count_eq_zero_of_not_mem he]
    exact Nat.zero_le 1

theorem not_mem_before {pre post : List (κ × ℕ)} {e : κ × ℕ} (horder : order = pre ++ e :: post) :
    e ∉ pre := by
  have hnodup := h.nodup
  rw [horder, List.nodup_middle, List.nodup_cons, List.mem_append, not_or] at hnodup
  exact hnodup.1.1

theorem mem_of_lt {pre post : List (κ × ℕ)} {p : κ} {i j : ℕ}
    (horder : order = pre ++ (p, j) :: post) (hij : i < j) : (p, i) ∈ pre := by
  have hp : p ∈ parties := h.party (p, j) (by rw [horder]; simp)
  have hrounds := h.rounds p hp
  rw [horder, List.filter_append, List.filter_cons_of_pos (by simp), List.map_append,
    List.map_cons] at hrounds
  have hsorted : (List.range n).Pairwise (· < ·) := List.pairwise_lt_range
  have hj : j < n := (h.mem_iff hp j).mp (by rw [horder]; simp)
  have hi : i ∈ List.range n := List.mem_range.mpr (hij.trans hj)
  rw [← hrounds, List.pairwise_append, List.pairwise_cons] at hsorted
  rw [← hrounds, List.mem_append, List.mem_cons] at hi
  rcases hi with hi | rfl | hi
  · obtain ⟨⟨q, i⟩, hmem, rfl⟩ := List.mem_map.mp hi
    obtain ⟨hmem, hq⟩ := List.mem_filter.mp hmem
    rw [← of_decide_eq_true hq]
    exact hmem
  · exact absurd hij (Nat.lt_irrefl _)
  · exact absurd (hsorted.2.1.1 i hi) (Nat.lt_asymm hij)

end Interleaving

section Arrival

variable {arrived : List (κ × ℕ)} {t : τ} {q : κ}

theorem mem_waiting : q ∈ waiting parties tag arrived t ↔
    q ∈ parties ∧ ∃ i, (q, i) ∈ arrived ∧ tag i = t ∧ ¬Complete parties i arrived := by
  rw [waiting, Finset.mem_filter]
  constructor
  · rintro ⟨hq, ⟨_, i⟩, hmem, rfl, htag, hopen⟩
    exact ⟨hq, i, hmem, htag, hopen⟩
  · rintro ⟨hq, i, hmem, htag, hopen⟩
    exact ⟨hq, (q, i), hmem, rfl, htag, hopen⟩

variable {pre : List (κ × ℕ)} {p : κ} {i j : ℕ}

omit [DecidableEq κ] in
theorem mem_append_of_ne (hij : i ≠ j) : (q, i) ∈ pre ++ [(p, j)] ↔ (q, i) ∈ pre := by
  rw [List.mem_append, List.mem_singleton, Prod.mk.injEq, or_iff_left]
  exact fun heq => hij heq.2

omit [DecidableEq κ] in
theorem complete_append_of_ne (hij : i ≠ j) :
    Complete parties i (pre ++ [(p, j)]) ↔ Complete parties i pre := by
  unfold Complete
  simp only [mem_append_of_ne hij]

theorem waiting_append_of_ne (ht : t ≠ tag j) :
    waiting parties tag (pre ++ [(p, j)]) t = waiting parties tag pre t := by
  ext q
  rw [mem_waiting, mem_waiting]
  apply and_congr_right
  intro _
  apply exists_congr
  intro i
  by_cases hi : tag i = t
  · have hij : i ≠ j := by
      rintro rfl
      exact ht hi.symm
    rw [mem_append_of_ne hij, complete_append_of_ne hij]
  · simp only [hi, false_and, and_false]

variable {order post : List (κ × ℕ)} (h : Interleaving parties n order)
  (horder : order = pre ++ (p, j) :: post)

include h horder

theorem party_mem : p ∈ parties := h.party (p, j) (by rw [horder]; simp)

theorem not_complete_before : ¬Complete parties j pre := by
  intro hcomplete
  exact h.not_mem_before horder (hcomplete p (party_mem h horder))

theorem mem_waiting_of_early (hij : i < j) (htag : tag i = tag j)
    (hopen : ¬Complete parties i pre) : p ∈ waiting parties tag pre (tag j) :=
  mem_waiting.mpr ⟨party_mem h horder, i, h.mem_of_lt horder hij, htag, hopen⟩

variable (hrepeat : NoEarlyRepeat parties tag (pre ++ [(p, j)]))

include hrepeat

omit [DecidableEq τ] in
theorem eq_of_open (hmem : (q, i) ∈ pre) (htag : tag i = tag j) (hopen : ¬Complete parties i pre) :
    i = j := by
  rcases Nat.lt_trichotomy i j with hij | rfl | hij
  · exact absurd (hrepeat pre p j [] rfl i hij htag) hopen
  · rfl
  · -- the later round would have been started before this arrival completes its own
    obtain ⟨pre', post', rfl⟩ := List.append_of_mem hmem
    have hcomplete : Complete parties j pre' := by
      apply hrepeat pre' q i (post' ++ [(p, j)]) _ j hij htag.symm
      rw [List.append_assoc, List.cons_append]
    exact absurd (List.mem_append_left _ (hcomplete p (party_mem h horder)))
      (h.not_mem_before horder)

theorem mem_waiting_tag : q ∈ waiting parties tag pre (tag j) ↔ (q, j) ∈ pre := by
  rw [mem_waiting]
  constructor
  · rintro ⟨-, i, hmem, htag, hopen⟩
    rw [← eq_of_open h horder hrepeat hmem htag hopen]
    exact hmem
  · intro hmem
    refine ⟨h.party (q, j) ?_, j, hmem, rfl, not_complete_before h horder⟩
    rw [horder]
    exact List.mem_append_left _ hmem

theorem not_mem_waiting : p ∉ waiting parties tag pre (tag j) := by
  rw [mem_waiting_tag h horder hrepeat]
  exact h.not_mem_before horder

theorem mem_insert_waiting :
    q ∈ insert p (waiting parties tag pre (tag j)) ↔ (q, j) ∈ pre ++ [(p, j)] := by
  rw [Finset.mem_insert, mem_waiting_tag h horder hrepeat, List.mem_append, List.mem_singleton,
    Prod.mk.injEq, and_iff_left rfl, or_comm]

theorem card_insert_waiting_eq_iff :
    (insert p (waiting parties tag pre (tag j))).card = parties.card ↔
      Complete parties j (pre ++ [(p, j)]) := by
  have hfilter : insert p (waiting parties tag pre (tag j)) =
      parties.filter fun q => (q, j) ∈ pre ++ [(p, j)] := by
    ext q
    rw [mem_insert_waiting h horder hrepeat, Finset.mem_filter, iff_and_self]
    intro hmem
    apply h.party (q, j)
    rw [horder, List.append_cons]
    exact List.mem_append_left _ hmem
  rw [hfilter, Finset.card_filter_eq_iff]
  rfl

theorem waiting_of_complete (hcomplete : Complete parties j (pre ++ [(p, j)])) :
    waiting parties tag (pre ++ [(p, j)]) (tag j) = ∅ := by
  apply Finset.eq_empty_of_forall_notMem
  intro q hq
  obtain ⟨-, i, hmem, htag, hopen⟩ := mem_waiting.mp hq
  by_cases hij : i = j
  · rw [hij] at hopen
    exact hopen hcomplete
  · rw [mem_append_of_ne hij] at hmem
    rw [complete_append_of_ne hij] at hopen
    exact hij (eq_of_open h horder hrepeat hmem htag hopen)

theorem waiting_of_open (hopen : ¬Complete parties j (pre ++ [(p, j)])) :
    waiting parties tag (pre ++ [(p, j)]) (tag j) =
      insert p (waiting parties tag pre (tag j)) := by
  ext q
  rw [mem_insert_waiting h horder hrepeat, mem_waiting]
  constructor
  · rintro ⟨-, i, hmem, htag, hopen'⟩
    by_cases hij : i = j
    · rw [hij] at hmem
      exact hmem
    · have hpre := (mem_append_of_ne hij).mp hmem
      rw [complete_append_of_ne hij] at hopen'
      exact absurd (eq_of_open h horder hrepeat hpre htag hopen') hij
  · intro hmem
    refine ⟨h.party (q, j) ?_, j, hmem, rfl, hopen⟩
    rw [horder, List.append_cons]
    exact List.mem_append_left _ hmem

end Arrival

theorem Interleaving.existsUnique_completing {order : List (κ × ℕ)}
    (h : Interleaving parties n order) (hparties : parties.Nonempty) {j : ℕ} (hj : j < n) :
    ∃! k, ∃ p, order[k]? = some (p, j) ∧ Complete parties j (order.take (k + 1)) := by
  have hexists : ∃ k, Complete parties j (order.take k) := by
    refine ⟨order.length, ?_⟩
    rw [List.take_length]
    intro q hq
    exact (h.mem_iff hq j).mpr hj
  have hcomplete := Nat.find_spec hexists
  have hmin : ∀ k, Complete parties j (order.take k) → Nat.find hexists ≤ k := fun k =>
    Nat.find_min' hexists
  generalize Nat.find hexists = m at hcomplete hmin
  cases m with
  | zero =>
    obtain ⟨q, hq⟩ := hparties
    exact absurd (hcomplete q hq) List.not_mem_nil
  | succ k =>
    have hopen : ¬Complete parties j (order.take k) := fun hk => by
      have := hmin k hk
      omega
    rw [Complete] at hopen
    push Not at hopen
    obtain ⟨q, hq, hmissing⟩ := hopen
    -- the arrival that completes the round is one of it
    have hget : order[k]? = some (q, j) := by
      have hmem := hcomplete q hq
      rw [List.take_add_one, List.mem_append, or_iff_right hmissing, Option.mem_toList] at hmem
      exact hmem
    refine ⟨k, ⟨q, hget, hcomplete⟩, ?_⟩
    rintro k' ⟨q', hget', hcomplete'⟩
    have hle := hmin _ hcomplete'
    by_contra hne
    obtain ⟨hlt, hgetElem⟩ := List.getElem?_eq_some_iff.mp hget'
    have hsplit : order = order.take k' ++ (q', j) :: order.drop (k' + 1) := by
      rw [← hgetElem, List.getElem_cons_drop, List.take_append_drop]
    apply h.not_mem_before hsplit
    apply List.take_subset_take_left order (show k + 1 ≤ k' by omega)
    apply hcomplete q'
    exact h.party (q', j) (List.mem_of_getElem? hget')

end Multio.Lib
