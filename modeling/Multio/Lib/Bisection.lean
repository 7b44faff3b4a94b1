import Mathlib.Order.Interval.Set.Basic
import Mathlib.Data.List.Basic
import Mathlib.Data.Int.Order.Basic

namespace Multio.Lib

inductive Pivots (α : Type)
  | leaf
  | node (below : Pivots α) (pivot : α) (above : Pivots α)

/-- The pivots that halve the `2 ^ n` integers from `first` on. -/
def Pivots.halving : ℕ → ℤ → Pivots ℤ
  | 0, _ => .leaf
  | n + 1, first => .node (halving n first) (first + 2 ^ n) (halving n (first + 2 ^ n))

/-- The closed interval from `first` to `last` of a group. -/
structure Stretch (α : Type) where
  group : ℕ
  first : α
  last : α

namespace Stretch

variable {α : Type}

def ofOneGroup : List (Stretch α) → Bool
  | [] => true
  | s :: stretches => stretches.all fun s' => s'.group == s.group

theorem group_eq_of_ofOneGroup {stretches : List (Stretch α)} (h : ofOneGroup stretches)
    {s s' : Stretch α} (hs : s ∈ stretches) (hs' : s' ∈ stretches) : s.group = s'.group := by
  cases stretches with
  | nil => exact absurd hs List.not_mem_nil
  | cons t stretches =>
    have hall : ∀ u ∈ t :: stretches, u.group = t.group := by
      rw [ofOneGroup, List.all_eq_true] at h
      intro u hu
      rcases List.mem_cons.mp hu with rfl | hu
      · rfl
      · exact eq_of_beq (h u hu)
    exact (hall s hs).trans (hall s' hs').symm

/-- The intervals of the groups, numbered from `group` on. -/
def number : ℕ → List (List (α × α)) → List (Stretch α)
  | _, [] => []
  | group, intervals :: groups =>
    intervals.map (fun i => { group, first := i.1, last := i.2 }) ++ number (group + 1) groups

theorem le_group_of_mem_number {group : ℕ} {groups : List (List (α × α))} {s : Stretch α}
    (h : s ∈ number group groups) : group ≤ s.group := by
  induction groups generalizing group with
  | nil => exact absurd h List.not_mem_nil
  | cons intervals groups ih =>
    rw [number, List.mem_append, List.mem_map] at h
    rcases h with ⟨i, -, rfl⟩ | h
    · exact le_rfl
    · exact (Nat.le_succ group).trans (ih h)

theorem mem_number {group : ℕ} {groups : List (List (α × α))} {intervals : List (α × α)}
    (h : intervals ∈ groups) {i : α × α} (hi : i ∈ intervals) :
    ∃ s ∈ number group groups, s.first = i.1 ∧ s.last = i.2 := by
  induction groups generalizing group with
  | nil => exact absurd h List.not_mem_nil
  | cons intervals' groups ih =>
    rw [number]
    rcases List.mem_cons.mp h with rfl | h
    · exact ⟨_, List.mem_append_left _ (List.mem_map.mpr ⟨i, hi, rfl⟩), rfl, rfl⟩
    · obtain ⟨s, hs, hfirst, hlast⟩ := ih h
      exact ⟨s, List.mem_append_right _ hs, hfirst, hlast⟩

variable [LinearOrder α]

def Covers (s : Stretch α) (x : α) : Prop := s.first ≤ x ∧ x ≤ s.last

def separated : Pivots α → List (Stretch α) → Bool
  | .leaf, stretches => ofOneGroup stretches
  | .node below pivot above, stretches =>
    ofOneGroup stretches ||
      (separated below (stretches.filter fun s => s.first < pivot) &&
        separated above (stretches.filter fun s => pivot ≤ s.last))

theorem group_eq_of_separated {pivots : Pivots α} {stretches : List (Stretch α)}
    (h : separated pivots stretches) {s s' : Stretch α} (hs : s ∈ stretches)
    (hs' : s' ∈ stretches) {x : α} (hx : s.Covers x) (hx' : s'.Covers x) :
    s.group = s'.group := by
  induction pivots generalizing stretches with
  | leaf => exact group_eq_of_ofOneGroup h hs hs'
  | node below pivot above ihbelow ihabove =>
    rw [separated, Bool.or_eq_true, Bool.and_eq_true] at h
    rcases h with hone | ⟨hbelow, habove⟩
    · exact group_eq_of_ofOneGroup hone hs hs'
    · -- both stretches go to the side on which the common value is
      rcases lt_or_ge x pivot with hlt | hge
      · apply ihbelow hbelow
        · exact List.mem_filter.mpr ⟨hs, decide_eq_true (hx.1.trans_lt hlt)⟩
        · exact List.mem_filter.mpr ⟨hs', decide_eq_true (hx'.1.trans_lt hlt)⟩
      · apply ihabove habove
        · exact List.mem_filter.mpr ⟨hs, decide_eq_true (hge.trans hx.2)⟩
        · exact List.mem_filter.mpr ⟨hs', decide_eq_true (hge.trans hx'.2)⟩

def Meets (x : α) (intervals : List (α × α)) : Prop := ∃ i ∈ intervals, i.1 ≤ x ∧ x ≤ i.2

theorem pairwise_of_group_eq {group : ℕ} {groups : List (List (α × α))}
    (h : ∀ s ∈ number group groups, ∀ s' ∈ number group groups, ∀ x,
      s.Covers x → s'.Covers x → s.group = s'.group) :
    groups.Pairwise fun a b => ∀ x, ¬ (Meets x a ∧ Meets x b) := by
  induction groups generalizing group with
  | nil => exact List.Pairwise.nil
  | cons intervals groups ih =>
    rw [number] at h
    rw [List.pairwise_cons]
    constructor
    · rintro later hlater x ⟨⟨i, hi, hx⟩, ⟨j, hj, hx'⟩⟩
      obtain ⟨s, (hs : s ∈ number (group + 1) groups), hfirst, hlast⟩ := mem_number hlater hj
      have hle := le_group_of_mem_number hs
      have heq := h { group, first := i.1, last := i.2 }
        (List.mem_append_left _ (List.mem_map.mpr ⟨i, hi, rfl⟩)) s
        (List.mem_append_right _ hs) x hx (by rwa [Covers, hfirst, hlast])
      simp only at heq
      omega
    · apply ih
      intro s hs s' hs'
      exact h s (List.mem_append_right _ hs) s' (List.mem_append_right _ hs')

theorem pairwise_of_separated {pivots : Pivots α} {groups : List (List (α × α))}
    (h : separated pivots (number 0 groups)) :
    groups.Pairwise fun a b => ∀ x, ¬ (Meets x a ∧ Meets x b) :=
  pairwise_of_group_eq fun _ hs _ hs' _ hx hx' => group_eq_of_separated h hs hs' hx hx'

end Stretch
end Multio.Lib
