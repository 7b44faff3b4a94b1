import Multio.Action.StatisticsMtg2.PointValues

namespace Multio.StatisticsMtg2

section

variable (A : FloatArithmetic) {p : PrecisionTag} {σ : Type}

def combineAll (f : ℤ → σ → A.Real p → σ) (v : σ) (xs : List (A.Real p)) : σ :=
  (PointState.after A .withoutMissing (fun count _ => f count) v xs).value

def valid (m : A.Real .double) (xs : List (A.Real p)) : List (A.Real p) :=
  xs.filter fun x => !isMissing A m x

variable {A}

namespace PointState

variable (mode : UpdateMode A) (combine : ℤ → ℤ → σ → A.Real p → σ) (v : σ)
  (xs : List (A.Real p)) (x : A.Real p)

theorem value_concat : (after A mode combine v (xs ++ [x])).value =
    combine (xs.length + 1) (presentAfter A mode (after A mode combine v xs).present x)
      (after A mode combine v xs).value x := by
  rw [after_concat, ← count_after A mode combine v xs]
  rfl

theorem present_concat : (after A mode combine v (xs ++ [x])).present =
    presentAfter A mode (after A mode combine v xs).present x := by
  rw [after_concat]
  rfl

end PointState

theorem combineAll_concat (f : ℤ → σ → A.Real p → σ) (v : σ) (xs : List (A.Real p)) (x : A.Real p) :
    combineAll A f v (xs ++ [x]) = f (xs.length + 1) (combineAll A f v xs) x :=
  PointState.value_concat .withoutMissing (fun count _ => f count) v xs x

theorem combineAll_eq_foldl (g : σ → A.Real p → σ) (v : σ) (xs : List (A.Real p)) :
    combineAll A (fun _ => g) v xs = xs.foldl g v := by
  induction xs using List.reverseRecOn with
  | nil => rfl
  | append_singleton xs x ih => rw [combineAll_concat, ih, List.foldl_concat]

theorem valid_concat (m : A.Real .double) (xs : List (A.Real p)) (x : A.Real p) :
    valid A m (xs ++ [x]) = if isMissing A m x then valid A m xs else valid A m xs ++ [x] := by
  unfold valid
  rw [List.filter_append, List.filter_singleton]
  cases isMissing A m x with
  | true => exact List.append_nil _
  | false => rfl

end

namespace PointState

variable {A : FloatArithmetic} {p : PrecisionTag} {m : A.Real .double} {xs : List (A.Real p)}

section

variable {f : ℤ → A.Real p → A.Real p → A.Real p} {v : A.Real p}

theorem value_of_missing (hm : isMissing A m (A.ofDouble m : A.Real p) = true)
    (h : isMissing A m v = true ∧ xs ≠ [] ∨ ∃ x ∈ xs, isMissing A m x = true) :
    (after A (.withMissing m) (combined A (.withMissing m) f) v xs).value = A.ofDouble m := by
  induction xs using List.reverseRecOn with
  | nil =>
    obtain ⟨-, hne⟩ | ⟨x, hx, -⟩ := h
    · exact absurd rfl hne
    · exact absurd hx List.not_mem_nil
  | append_singleton xs x ih =>
    rw [after_concat]
    refine if_pos (Bool.or_eq_true _ _ |>.mpr ?_)
    by_cases hx : isMissing A m x = true
    · exact Or.inr hx
    · left
      by_cases hxs : xs = []
      · obtain ⟨hv, -⟩ | ⟨y, hy, hmissing⟩ := h
        · rw [hxs]
          exact hv
        · rw [hxs, List.nil_append, List.mem_singleton] at hy
          exact absurd (hy ▸ hmissing) hx
      · rw [ih (h.imp (fun hv => ⟨hv.1, hxs⟩) fun hy => ?_)]
        · exact hm
        · obtain ⟨y, hy, hmissing⟩ := hy
          obtain hmem | hlast := List.mem_append.mp hy
          · exact ⟨y, hmem, hmissing⟩
          · exact absurd (List.mem_singleton.mp hlast ▸ hmissing) hx

theorem value_of_present (hxs : ∀ x ∈ xs, isMissing A m x = false)
    (hway : ∀ pre x, pre ++ [x] <+: xs → isMissing A m (combineAll A f v pre) = false) :
    (after A (.withMissing m) (combined A (.withMissing m) f) v xs).value = combineAll A f v xs := by
  induction xs using List.reverseRecOn with
  | nil => rfl
  | append_singleton xs x ih =>
    have hbefore := ih (fun y hy => hxs y (List.mem_append_left [x] hy))
      fun pre y hpre => hway pre y (hpre.trans (List.prefix_append xs [x]))
    have hlast := hxs x (List.mem_append_right xs List.mem_cons_self)
    have hv := hway xs x List.prefix_rfl
    rw [← hbefore] at hv
    rw [value_concat, combineAll_concat, ← hbefore]
    refine if_neg ?_
    rw [hv, hlast]
    exact Bool.false_ne_true

end

section

variable {σ : Type} {f : ℤ → σ → A.Real p → σ} {v : σ}

/-- If missing values are passed over, those before the first one are numbered without a gap. -/
theorem value_before_missing
    (hxs : xs.Pairwise fun x y => isMissing A m x = true → isMissing A m y = true) :
    (after A (.withMissing m) (fun count _ v x => if isMissing A m x then v else f count v x)
      v xs).value = combineAll A f v (valid A m xs) := by
  induction xs using List.reverseRecOn with
  | nil => rfl
  | append_singleton xs x ih =>
    obtain ⟨hbefore, -, hlast⟩ := List.pairwise_append.mp hxs
    rw [value_concat, valid_concat, ih hbefore]
    by_cases hx : isMissing A m x = true
    · rw [if_pos hx, if_pos hx]
    · have hvalid : valid A m xs = xs := by
        refine List.filter_eq_self.mpr fun y hy => ?_
        rw [Bool.not_eq_true', Bool.eq_false_iff]
        exact fun hy' => hx (hlast y hy x (List.mem_singleton_self x) hy')
      rw [if_neg hx, if_neg hx, hvalid, combineAll_concat]

variable (A) in
/-- Missing values are passed over, and the others are numbered by their counter. -/
def skipping (m : A.Real .double) (f : ℤ → σ → A.Real p → σ) (_ present : ℤ) (v : σ)
    (x : A.Real p) : σ :=
  if isMissing A m x then v else f present v x

theorem present_eq :
    (after A (.withMissingAndCounters m) (skipping A m f) v xs).present = (valid A m xs).length := by
  induction xs using List.reverseRecOn with
  | nil => rfl
  | append_singleton xs x ih =>
    rw [present_concat, valid_concat, ih]
    by_cases hx : isMissing A m x = true
    · rw [if_pos hx]
      exact if_pos hx
    · rw [if_neg hx, List.length_append, Nat.cast_add]
      exact if_neg hx

theorem value_eq :
    (after A (.withMissingAndCounters m) (skipping A m f) v xs).value =
      combineAll A f v (valid A m xs) := by
  induction xs using List.reverseRecOn with
  | nil => rfl
  | append_singleton xs x ih =>
    rw [value_concat, valid_concat, ih, present_eq]
    by_cases hx : isMissing A m x = true
    · rw [if_pos hx]
      exact if_pos hx
    · have hcount : presentAfter A (.withMissingAndCounters m) ((valid A m xs).length : ℤ) x =
          (valid A m xs).length + 1 := if_neg hx
      rw [if_neg hx, hcount, combineAll_concat]
      exact if_neg hx

end

end PointState
end Multio.StatisticsMtg2
