import Mathlib.Algebra.BigOperators.Group.List.Basic
import Mathlib.Algebra.Group.Basic
import Mathlib.Data.List.Forall2
import Mathlib.Data.List.Induction
import Mathlib.Tactic.Abel

namespace Multio.Lib

variable {α β γ : Type}

/-- Each element with the one before it; the first one comes after `v`. -/
def successive (f : α → α → β) : α → List α → List β
  | _, [] => []
  | v, x :: xs => f x v :: successive f x xs

theorem successive_cons (f : α → α → β) (v x : α) (xs : List α) :
    successive f v (x :: xs) = f x v :: successive f x xs := rfl

theorem successive_concat (f : α → α → β) (v : α) (xs : List α) (x : α) :
    successive f v (xs ++ [x]) = successive f v xs ++ [f x (xs.getLastD v)] := by
  induction xs generalizing v with
  | nil => rfl
  | cons y xs ih =>
    rw [List.cons_append, successive_cons, ih, successive_cons, List.cons_append]
    cases xs <;> rfl

theorem successive_congr {f g : α → α → β} {good : α → Prop}
    (hfg : ∀ x v, good x → good v → f x v = g x v) {v : α} {xs : List α} (hv : good v)
    (hxs : ∀ x ∈ xs, good x) :
    successive f v xs = successive g v xs := by
  induction xs generalizing v with
  | nil => rfl
  | cons x xs ih =>
    rw [List.forall_mem_cons] at hxs
    rw [successive_cons, successive_cons, hfg x v hxs.1 hv, ih hxs.1 hxs.2]

theorem map_successive (f : α → α → β) (g : β → γ) (v : α) (xs : List α) :
    (successive f v xs).map g = successive (fun x v => g (f x v)) v xs := by
  induction xs generalizing v with
  | nil => rfl
  | cons x xs ih => rw [successive_cons, List.map_cons, ih, successive_cons]

theorem length_of_mem_successive {f : α → α → β} {n : ℕ} {vs : List α} (hvs : vs.length = n)
    {xss : List (List α)} (hxss : ∀ xs ∈ xss, xs.length = n) :
    ∀ ds ∈ successive (List.zipWith f) vs xss, ds.length = n := by
  induction xss generalizing vs with
  | nil => exact fun _ h => absurd h List.not_mem_nil
  | cons xs xss ih =>
    rw [List.forall_mem_cons] at hxss
    rw [successive_cons, List.forall_mem_cons]
    refine ⟨?_, ih hxss.1 hxss.2⟩
    rw [List.length_zipWith, hxss.1, hvs, min_self]

theorem exists_map_getElem? {i : ℕ} {xss : List (List α)} (h : ∀ xs ∈ xss, i < xs.length) :
    ∃ xs : List α, xss.map (·[i]?) = xs.map some := by
  induction xss with
  | nil => exact ⟨[], rfl⟩
  | cons ys xss ih =>
    rw [List.forall_mem_cons] at h
    obtain ⟨xs, hxs⟩ := ih h.2
    refine ⟨ys.get ⟨i, h.1⟩ :: xs, ?_⟩
    rw [List.map_cons, List.map_cons, hxs, List.getElem?_eq_getElem h.1]
    rfl

theorem successive_getElem? {f : α → α → β} {i : ℕ} {vs : List α} {v : α} (hv : vs[i]? = some v)
    {xss : List (List α)} {xs : List α} (hxs : xss.map (·[i]?) = xs.map some) :
    (successive (List.zipWith f) vs xss).map (·[i]?) = (successive f v xs).map some := by
  induction xss generalizing vs v xs with
  | nil =>
    obtain rfl := List.map_eq_nil_iff.mp hxs.symm
    rfl
  | cons ys xss ih =>
    cases xs with
    | nil => cases hxs
    | cons x xs =>
      obtain ⟨hfirst, hrest⟩ := List.cons.inj hxs
      have hx : ys[i]? = some x := hfirst
      rw [successive_cons, List.map_cons, ih hx hrest, successive_cons, List.map_cons]
      refine congrArg (· :: _) ?_
      rw [List.getElem?_zipWith, hx, hv]

theorem getElem?_successive {f : α → α → β} {k : ℕ} {v x y : α} {xs : List α}
    (hy : (v :: xs)[k]? = some y) (hx : xs[k]? = some x) :
    (successive f v xs)[k]? = some (f x y) := by
  induction xs generalizing v k with
  | nil => cases hx
  | cons z xs ih =>
    cases k with
    | zero =>
      obtain rfl := Option.some.inj hx
      obtain rfl := Option.some.inj hy
      rfl
    | succ k => exact ih (v := z) hy hx

theorem sum_successive_sub {K : Type} [AddCommGroup K] (value : α → K) (v : α) (xs : List α) :
    (successive (fun x v => value x - value v) v xs).sum = value (xs.getLastD v) - value v := by
  induction xs using List.reverseRecOn with
  | nil => exact (sub_self _).symm
  | append_singleton xs x ih =>
    rw [successive_concat, List.sum_append, ih, List.sum_singleton, List.getLastD_concat]
    abel

end Multio.Lib

namespace Multio.Lib

section

variable {τ K : Type} [AddCommGroup K] (restarts : τ → Bool) (value : τ → K)

def reference (s : τ) : K := if restarts s then 0 else value s

/-- The samples after `s` come about by adding the increments. -/
inductive RunningSum : τ → List τ → List K → Prop
  | nil (s : τ) : RunningSum s [] []
  | cons {s t : τ} {ts : List τ} {d : K} {ds : List K}
      (hvalue : value t = reference restarts value s + d) (hrest : RunningSum t ts ds) :
      RunningSum s (t :: ts) (d :: ds)

variable {restarts value}

theorem RunningSum.append {s : τ} {ts us : List τ} {ds es : List K}
    (h : RunningSum restarts value s (ts ++ us) (ds ++ es)) (hlength : ts.length = ds.length) :
    RunningSum restarts value s ts ds ∧ RunningSum restarts value (ts.getLastD s) us es := by
  induction ts generalizing s ds with
  | nil =>
    rw [List.eq_nil_of_length_eq_zero hlength.symm] at h ⊢
    exact ⟨.nil s, h⟩
  | cons t ts ih =>
    cases ds with
    | nil => cases hlength
    | cons d ds =>
      cases h with
      | cons hvalue hrest =>
        obtain ⟨hwindow, hafter⟩ := ih hrest (Nat.succ.inj hlength)
        rw [List.getLastD_cons]
        exact ⟨.cons hvalue hwindow, hafter⟩

instance RunningSum.decidable [DecidableEq K] :
    ∀ (s : τ) (ts : List τ) (ds : List K), Decidable (RunningSum restarts value s ts ds)
  | s, [], [] => isTrue (.nil s)
  | _, [], _ :: _ => isFalse fun h => by cases h
  | _, _ :: _, [] => isFalse fun h => by cases h
  | s, t :: ts, d :: ds =>
    have := RunningSum.decidable t ts ds
    decidable_of_iff (value t = reference restarts value s + d ∧ RunningSum restarts value t ts ds)
      ⟨fun h => .cons h.1 h.2,
        fun h => by cases h with | cons hvalue hrest => exact ⟨hvalue, hrest⟩⟩

/-- Nothing is lost of the increments of a window in which the sum does not start anew. -/
theorem RunningSum.sum_eq {s : τ} {ts : List τ} {ds : List K}
    (h : RunningSum restarts value s ts ds) (hne : ts ≠ [])
    (hinside : ∀ t ∈ ts.dropLast, restarts t = false) :
    ds.sum = value (ts.getLastD s) - reference restarts value s := by
  induction h with
  | nil => exact absurd rfl hne
  | @cons s t ts d ds hvalue hrest ih =>
    rw [List.sum_cons, List.getLastD_cons]
    cases hrest with
    | nil =>
      rw [List.getLastD_nil, hvalue, List.sum_nil]
      abel
    | @cons _ u us _ _ _ _ =>
      rw [List.dropLast_cons_cons, List.forall_mem_cons] at hinside
      have hstays : reference restarts value t = value t := by
        rw [reference, hinside.1]
        rfl
      rw [ih (List.cons_ne_nil _ _) hinside.2, hstays, hvalue]
      abel

end

variable {τ ω K : Type} (samples : ω → List τ)

def openingAfter (s : τ) (windows : List ω) : τ :=
  windows.foldl (fun s w => (samples w).getLastD s) s

def opened : τ → List ω → List (τ × ω)
  | _, [] => []
  | s, w :: ws => (s, w) :: opened ((samples w).getLastD s) ws

theorem opened_concat (s : τ) (ws : List ω) (w : ω) :
    opened samples s (ws ++ [w]) = opened samples s ws ++ [(openingAfter samples s ws, w)] := by
  induction ws generalizing s with
  | nil => rfl
  | cons v ws ih =>
    rw [List.cons_append, opened, ih, opened, List.cons_append]
    rfl

variable {samples} in
theorem mem_of_mem_opened {s : τ} {ws : List ω} {w : τ × ω} (h : w ∈ opened samples s ws) :
    w.2 ∈ ws := by
  induction ws generalizing s with
  | nil => cases h
  | cons v ws ih =>
    obtain rfl | hrest := List.mem_cons.mp h
    · exact List.mem_cons_self
    · exact List.mem_cons_of_mem v (ih hrest)

theorem openingAfter_concat (s : τ) (ws : List ω) (w : ω) :
    openingAfter samples s (ws ++ [w]) = (samples w).getLastD (openingAfter samples s ws) := by
  rw [openingAfter, List.foldl_append]
  rfl

variable {samples} [AddCommGroup K] {restarts : τ → Bool} {value : τ → K}

theorem RunningSum.opened {s : τ} {ws : List ω} {dss : List (List K)} {us : List τ} {es : List K}
    (h : RunningSum restarts value s (ws.flatMap samples ++ us) (dss.flatten ++ es))
    (hlength : List.Forall₂ (fun w ds => (samples w).length = ds.length) ws dss) :
    List.Forall₂ (fun w ds => RunningSum restarts value w.1 (samples w.2) ds)
      (Lib.opened samples s ws) dss := by
  induction hlength generalizing s with
  | nil => exact .nil
  | @cons w ds ws dss hw _ ih =>
    rw [List.flatMap_cons, List.flatten_cons, List.append_assoc, List.append_assoc] at h
    obtain ⟨hwindow, hafter⟩ := h.append hw
    exact .cons hwindow (ih hafter)

end Multio.Lib
