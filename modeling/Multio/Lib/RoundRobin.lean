import Mathlib.Data.List.Basic
import Mathlib.Data.Nat.Notation
import Mathlib.Data.Int.CardIntervalMod

namespace Multio.Lib

/-- The loop of `std::min_element` at index `i`, with the smallest so far and where it is. -/
def minElementLoop (smallest smallestAt i : ℕ) : List ℕ → ℕ
  | [] => smallestAt
  | x :: xs =>
    if x < smallest then minElementLoop x i (i + 1) xs
    else minElementLoop smallest smallestAt (i + 1) xs

/-- `std::distance(begin, std::min_element(begin, end))`. -/
def minElement : List ℕ → ℕ
  | [] => 0
  | x :: xs => minElementLoop x 0 1 xs

theorem minElementLoop_of_le (smallest smallestAt i : ℕ) (xs : List ℕ)
    (h : ∀ x ∈ xs, smallest ≤ x) : minElementLoop smallest smallestAt i xs = smallestAt := by
  induction xs generalizing i with
  | nil => rfl
  | cons x xs ih =>
    rw [List.forall_mem_cons] at h
    rw [minElementLoop, if_neg (Nat.not_lt.mpr h.1)]
    exact ih (i + 1) h.2

theorem minElementLoop_replicate_append (smallest smallestAt i n : ℕ) (xs : List ℕ) :
    minElementLoop smallest smallestAt i (List.replicate n smallest ++ xs) =
      minElementLoop smallest smallestAt (i + n) xs := by
  induction n generalizing i with
  | zero => rfl
  | succ n ih =>
    rw [List.replicate_succ, List.cons_append, minElementLoop, if_neg (Nat.lt_irrefl _), ih]
    congr 1
    omega

/-- The counters of `size` places after `n` increments. -/
def counters (size n : ℕ) : List ℕ :=
  List.replicate (n % size) (n / size + 1) ++ List.replicate (size - n % size) (n / size)

theorem counters_zero (size : ℕ) : counters size 0 = List.replicate size 0 := by
  simp [counters]

variable {size : ℕ}

theorem minElement_counters (hsize : 0 < size) (n : ℕ) :
    minElement (counters size n) = n % size := by
  have hlt := Nat.mod_lt n hsize
  obtain ⟨k, hk⟩ : ∃ k, size - n % size = k + 1 := ⟨size - n % size - 1, by omega⟩
  rw [counters, hk]
  cases hr : n % size with
  | zero =>
    rw [List.replicate_zero, List.nil_append, List.replicate_succ, minElement,
      minElementLoop_of_le]
    intro x hx
    exact Nat.le_of_eq (List.eq_of_mem_replicate hx).symm
  | succ r =>
    rw [List.replicate_succ, List.cons_append, minElement, minElementLoop_replicate_append,
      List.replicate_succ, minElementLoop, if_pos (Nat.lt_succ_self _), minElementLoop_of_le]
    · omega
    · intro x hx
      exact Nat.le_of_eq (List.eq_of_mem_replicate hx).symm

theorem modify_append_cons (xs : List ℕ) (y : ℕ) (ys : List ℕ) (f : ℕ → ℕ) :
    (xs ++ y :: ys).modify xs.length f = xs ++ f y :: ys := by
  induction xs with
  | nil => rfl
  | cons x xs ih =>
    rw [List.cons_append, List.length_cons, List.modify_succ_cons, ih]
    rfl

theorem counters_succ (hsize : 0 < size) (n : ℕ) :
    (counters size n).modify (n % size) (· + 1) = counters size (n + 1) := by
  have hlt := Nat.mod_lt n hsize
  have hn := Nat.mod_add_div n size
  obtain ⟨k, hk⟩ : ∃ k, size = n % size + (k + 1) := ⟨size - n % size - 1, by omega⟩
  have hmodify : (counters size n).modify (n % size) (· + 1) =
      List.replicate (n % size) (n / size + 1) ++
        (n / size + 1) :: List.replicate k (n / size) := by
    have happend := modify_append_cons (List.replicate (n % size) (n / size + 1)) (n / size)
      (List.replicate k (n / size)) (· + 1)
    rw [List.length_replicate] at happend
    rw [counters, show size - n % size = k + 1 by omega, List.replicate_succ, happend]
  rw [hmodify, counters]
  cases k with
  | zero =>
    obtain ⟨hdiv, hmod⟩ := (Nat.div_mod_unique hsize).mpr
      (⟨by rw [Nat.mul_add, Nat.mul_one]; omega, hsize⟩ :
        0 + size * (n / size + 1) = n + 1 ∧ 0 < size)
    rw [hdiv, hmod, Nat.sub_zero, List.replicate_zero, List.replicate_zero, List.nil_append,
      ← List.replicate_succ', ← hk]
  | succ k =>
    obtain ⟨hdiv, hmod⟩ := (Nat.div_mod_unique hsize).mpr
      (⟨by omega, by omega⟩ :
        (n % size + 1) + size * (n / size) = n + 1 ∧ n % size + 1 < size)
    have hsplit : List.replicate (n % size + 1) (n / size + 1) =
        List.replicate (n % size) (n / size + 1) ++ [n / size + 1] := List.replicate_succ'
    rw [hdiv, hmod, hsplit, List.append_assoc, List.singleton_append,
      show size - (n % size + 1) = k + 1 by omega]

theorem counters_getElem? {i : ℕ} (hi : i < size) (n : ℕ) :
    (counters size n)[i]? = some (n / size + if i < n % size then 1 else 0) := by
  have hlt := Nat.mod_lt n (Nat.zero_lt_of_lt hi)
  rw [counters]
  by_cases hfirst : i < n % size
  · rw [List.getElem?_append_left (by rwa [List.length_replicate]),
      List.getElem?_replicate_of_lt hfirst, if_pos hfirst]
  · rw [List.getElem?_append_right (by rw [List.length_replicate]; omega), List.length_replicate,
      List.getElem?_replicate_of_lt (by omega), if_neg hfirst, Nat.add_zero]

/-- A counter has been incremented once for each of the turns of its place. -/
theorem counters_eq_card {i : ℕ} (hi : i < size) (n : ℕ) :
    (counters size n)[i]? = some ((Finset.range n).filter fun r => r % size = i).card := by
  have hturns : (fun r => r % size = i) = fun r => r ≡ i [MOD size] := by
    funext r
    rw [Nat.ModEq, Nat.mod_eq_of_lt hi]
  rw [counters_getElem? hi]
  simp only [hturns]
  rw [← Nat.count_eq_card_filter_range, Nat.count_modEq_card n (Nat.zero_lt_of_lt hi),
    Nat.mod_eq_of_lt hi]

theorem counters_balanced {size n x y : ℕ} (hx : x ∈ counters size n) (hy : y ∈ counters size n) :
    x ≤ y + 1 := by
  have hvalue : ∀ z ∈ counters size n, z = n / size + 1 ∨ z = n / size := by
    intro z hz
    rw [counters, List.mem_append] at hz
    exact hz.imp List.eq_of_mem_replicate List.eq_of_mem_replicate
  have hx' := hvalue x hx
  have hy' := hvalue y hy
  omega

section FirstSeen

variable {κ : Type} [DecidableEq κ]

/-- The keys in the order in which they first occur, after those seen before. -/
def firstSeen (seen : List κ) : List κ → List κ
  | [] => seen
  | k :: ks => firstSeen (if k ∈ seen then seen else seen ++ [k]) ks

theorem prefix_firstSeen (seen ks : List κ) : seen <+: firstSeen seen ks := by
  induction ks generalizing seen with
  | nil => exact List.prefix_rfl
  | cons k ks ih =>
    rw [firstSeen]
    split_ifs with hk
    · exact ih seen
    · exact (List.prefix_append seen [k]).trans (ih (seen ++ [k]))

theorem idxOf_firstSeen {seen : List κ} {k : κ} (hk : k ∈ seen) (ks : List κ) :
    (firstSeen seen ks).idxOf k = seen.idxOf k := by
  obtain ⟨rest, hrest⟩ := prefix_firstSeen seen ks
  rw [← hrest, List.idxOf_append_of_mem hk]

theorem idxOf_concat {seen : List κ} {k : κ} (hk : k ∉ seen) :
    (seen ++ [k]).idxOf k = seen.length := by
  rw [List.idxOf_append_of_notMem hk, List.idxOf_cons_self, Nat.add_zero]

theorem firstSeen_nodup {seen : List κ} (h : seen.Nodup) (ks : List κ) :
    (firstSeen seen ks).Nodup := by
  induction ks generalizing seen with
  | nil => exact h
  | cons k ks ih =>
    rw [firstSeen]
    apply ih
    split_ifs with hk
    · exact h
    · rw [← List.concat_eq_append, List.nodup_concat]
      exact ⟨hk, h⟩

theorem mem_firstSeen {seen ks : List κ} {k : κ} :
    k ∈ firstSeen seen ks ↔ k ∈ seen ∨ k ∈ ks := by
  induction ks generalizing seen with
  | nil => simp [firstSeen]
  | cons k' ks ih =>
    rw [firstSeen, ih]
    split_ifs with hk
    · rw [List.mem_cons]
      constructor
      · exact Or.imp_right Or.inr
      · rintro (h | rfl | h)
        · exact .inl h
        · exact .inl hk
        · exact .inr h
    · rw [List.mem_append, List.mem_singleton, List.mem_cons, or_assoc]

theorem firstSeen_append (seen ks ks' : List κ) :
    firstSeen seen (ks ++ ks') = firstSeen (firstSeen seen ks) ks' := by
  induction ks generalizing seen with
  | nil => rfl
  | cons k ks ih => exact ih _

theorem card_filter_idxOf {seen : List κ} (h : seen.Nodup) (P : ℕ → Prop) [DecidablePred P] :
    (seen.toFinset.filter fun k => P (seen.idxOf k)).card =
      ((Finset.range seen.length).filter P).card := by
  apply Finset.card_bij (fun k _ => seen.idxOf k)
  · intro k hk
    rw [Finset.mem_filter, List.mem_toFinset] at hk
    rw [Finset.mem_filter, Finset.mem_range]
    exact ⟨List.idxOf_lt_length_of_mem hk.1, hk.2⟩
  · intro k hk k' _ heq
    rw [Finset.mem_filter, List.mem_toFinset] at hk
    exact (List.idxOf_inj hk.1).mp heq
  · intro r hr
    rw [Finset.mem_filter, Finset.mem_range] at hr
    refine ⟨seen[r], ?_, h.idxOf_getElem r hr.1⟩
    rw [Finset.mem_filter, List.mem_toFinset, h.idxOf_getElem r hr.1]
    exact ⟨List.getElem_mem hr.1, hr.2⟩

end FirstSeen

end Multio.Lib
