import Mathlib.Data.List.Chain
import Mathlib.Data.List.Induction

namespace Multio.Lib

section

variable {σ α : Type} (f : σ → α → σ)

theorem tail_scanl_cons (s : σ) (a : α) (as : List α) :
    ((a :: as).scanl f s).tail = f s a :: (as.scanl f (f s a)).tail := by
  rw [List.scanl_cons, List.tail_cons]
  cases as with
  | nil => rw [List.scanl_nil, List.tail_cons]
  | cons b bs => rw [List.scanl_cons, List.tail_cons]

/-- From a state of its own, as long as the first element does not tell it from `c`. -/
theorem tail_scanl_eq_map_iff_of (c s : σ) (as : List α) :
    (as.scanl f s).tail = as.map (f c) ↔
      (∀ a ∈ as.head?, f s a = f c a) ∧ as.IsChain fun a b => f (f c a) b = f c b := by
  induction as generalizing s with
  | nil => simp
  | cons a as ih =>
    rw [tail_scanl_cons, List.map_cons, List.cons.injEq, List.isChain_cons]
    constructor
    · rintro ⟨ha, htail⟩
      rw [ha] at htail
      refine ⟨?_, (ih (f c a)).mp htail⟩
      intro b hb
      cases hb
      exact ha
    · rintro ⟨ha, hchain⟩
      have ha := ha a rfl
      rw [ha]
      exact ⟨rfl, (ih (f c a)).mpr hchain⟩

/-- Every element has its own state exactly if that holds of each with the one before it. -/
theorem tail_scanl_eq_map_iff (c : σ) (as : List α) :
    (as.scanl f c).tail = as.map (f c) ↔ as.IsChain fun a b => f (f c a) b = f c b := by
  rw [tail_scanl_eq_map_iff_of]
  exact and_iff_right fun _ _ => rfl

end

section

variable {σ μ : Type} {step : σ → μ → Option σ} {s : σ}

/-- The state after the messages, unless one of them is refused. -/
def runOn (step : σ → μ → Option σ) (s : σ) (ms : List μ) : Option σ := ms.foldlM step s

theorem runOn_concat (ms : List μ) (m : μ) :
    runOn step s (ms ++ [m]) = (runOn step s ms).bind fun s' => step s' m := by
  unfold runOn
  rw [List.foldlM_append]
  simp only [List.foldlM_cons, List.foldlM_nil, bind_pure]
  rfl

theorem runOn_concat_eq_some_iff {ms : List μ} {m : μ} {s₂ : σ} :
    runOn step s (ms ++ [m]) = some s₂ ↔ ∃ s₁, runOn step s ms = some s₁ ∧ step s₁ m = some s₂ := by
  rw [runOn_concat, Option.bind_eq_some_iff]

theorem runOn_invariant {I : List μ → σ → Prop} (start : I [] s)
    (keep : ∀ ms m s₁ s₂, I ms s₁ → step s₁ m = some s₂ → I (ms ++ [m]) s₂) {ms : List μ} {s' : σ}
    (hrun : runOn step s ms = some s') : I ms s' := by
  induction ms using List.reverseRecOn generalizing s' with
  | nil =>
    obtain rfl := Option.some.inj hrun
    exact start
  | append_singleton ms m ih =>
    obtain ⟨s₁, hs₁, hm⟩ := runOn_concat_eq_some_iff.mp hrun
    exact keep ms m s₁ s' (ih hs₁) hm

def visible (hidden : μ → Bool) (ms : List μ) : List μ := ms.filter fun m => !hidden m

variable {hidden : μ → Bool}

theorem visible_concat_hidden {m : μ} (h : hidden m = true) (ms : List μ) :
    visible hidden (ms ++ [m]) = visible hidden ms := by
  unfold visible
  rw [List.filter_append, List.filter_cons_of_neg (by simp [h]), List.filter_nil, List.append_nil]

theorem visible_concat {m : μ} (h : hidden m = false) (ms : List μ) :
    visible hidden (ms ++ [m]) = visible hidden ms ++ [m] := by
  unfold visible
  rw [List.filter_append, List.filter_cons_of_pos (by simp [h]), List.filter_nil]

theorem unwind {R : List μ → σ → σ → Prop} (start : R [] s s)
    (hide : ∀ ms m a b a', hidden m = true → R ms a b → step a m = some a' → R (ms ++ [m]) a' b)
    (both : ∀ ms m a b a' b', hidden m = false → R ms a b → step a m = some a' →
      step b m = some b' → R (ms ++ [m]) a' b')
    {ms : List μ} {a b : σ} (ha : runOn step s ms = some a)
    (hb : runOn step s (visible hidden ms) = some b) : R ms a b := by
  induction ms using List.reverseRecOn generalizing a b with
  | nil =>
    obtain rfl := Option.some.inj ha
    obtain rfl := Option.some.inj hb
    exact start
  | append_singleton ms m ih =>
    obtain ⟨a₁, ha₁, hm⟩ := runOn_concat_eq_some_iff.mp ha
    cases hhidden : hidden m with
    | true =>
      rw [visible_concat_hidden hhidden] at hb
      exact hide ms m a₁ b a hhidden (ih ha₁ hb) hm
    | false =>
      rw [visible_concat hhidden] at hb
      obtain ⟨b₁, hb₁, hm'⟩ := runOn_concat_eq_some_iff.mp hb
      exact both ms m a₁ b₁ a b hhidden (ih ha₁ hb₁) hm hm'

end

end Multio.Lib
