import Multio.Domain.DomainScatter
import Multio.Domain.Mappings

namespace Multio
open Exception Lib

theorem countP_range_interval (t k m : ℕ) :
    (List.range m).countP (fun b => t ≤ b ∧ b < t + k) = min m (t + k) - min m t := by
  induction m with
  | zero => simp
  | succ m ih =>
    rw [List.range_succ, List.countP_append, ih, List.countP_singleton]
    split_ifs with h
    · obtain ⟨ht, hk⟩ := of_decide_eq_true h
      rw [min_eq_left hk.le, min_eq_right ht, min_eq_left (Nat.succ_le_of_lt hk),
        min_eq_right (ht.trans m.le_succ), Nat.succ_sub ht]
    · rw [decide_eq_true_eq, not_and, not_lt] at h
      rw [Nat.add_zero]
      obtain ht | ht := lt_or_ge m t
      · have hk : m < t + k := ht.trans_le (Nat.le_add_right t k)
        rw [min_eq_left hk.le, min_eq_left ht.le, min_eq_left (Nat.succ_le_of_lt hk),
          min_eq_left (Nat.succ_le_of_lt ht), Nat.sub_self, Nat.sub_self]
      · rw [min_eq_right (h ht), min_eq_right ht, min_eq_right ((h ht).trans m.le_succ),
          min_eq_right (ht.trans m.le_succ)]

/-- The places of a data range that lie in a box of `k` points, when the range covers the box. -/
theorem countP_inRange {low k size : ℤ} (hlow : low ≤ 0) (hk : 0 ≤ k) (hcover : k ≤ low + size) :
    (List.range size.toNat).countP (fun (b : ℕ) => inRange (low + b) 0 k) = k.toNat := by
  have hcongr : (fun (b : ℕ) => inRange (low + b) 0 k) =
      fun (b : ℕ) => decide ((-low).toNat ≤ b ∧ b < (-low).toNat + k.toNat) := by
    funext b
    unfold inRange
    rw [← Bool.decide_and]
    congr 1
    apply propext
    omega
  have hle : (-low).toNat + k.toNat ≤ size.toNat := by
    rw [← Int.toNat_add (by omega) hk]
    exact Int.toNat_le_toNat (by omega)
  rw [hcongr, countP_range_interval, min_eq_right hle,
    min_eq_right ((Nat.le_add_right _ _).trans hle), Nat.add_sub_cancel_left]

def Domain.DataCovers : Domain → Prop
  | .unstructured _ _ => True
  | .structured s => s.dataIbegin ≤ 0 ∧ s.ni ≤ s.dataIbegin + s.dataNi ∧
      s.dataJbegin ≤ 0 ∧ s.nj ≤ s.dataJbegin + s.dataNj

theorem rowMap_length {s : Structured} {n : ℕ} (hb : s.InBounds n)
    (hc : (Domain.structured s).DataCovers) (a : ℕ) :
    (s.rowMap a).length = if inRange (s.dataJbegin + a) 0 s.nj then s.ni.toNat else 0 := by
  obtain ⟨hi, hni, -, -⟩ := hc
  rw [rowMap_eq, List.length_filterMap_eq_countP]
  by_cases hj : inRange (s.dataJbegin + a) 0 s.nj = true
  · rw [if_pos hj, ← countP_inRange hi hb.ni.1 hni]
    congr 1
    funext b
    unfold Structured.pointMap
    rw [hj, Bool.and_true]
    split_ifs with h <;> simp [h]
  · rw [if_neg hj, List.countP_eq_zero]
    intro b _
    unfold Structured.pointMap
    simp [hj]

theorem sum_map_ite {α : Type} (xs : List α) (p : α → Bool) (k : ℕ) :
    (xs.map fun x => if p x then k else 0).sum = xs.countP p * k := by
  induction xs with
  | nil => simp
  | cons x xs ih =>
    rw [List.map_cons, List.sum_cons, ih, List.countP_cons]
    split_ifs <;> ring

theorem structured_indexMap_length {s : Structured} {n : ℕ} (hb : s.InBounds n)
    (hc : (Domain.structured s).DataCovers) :
    ((Domain.structured s).indexMap.length : ℤ) = s.ni * s.nj := by
  have hrows : (Domain.structured s).indexMap.length = s.nj.toNat * s.ni.toNat := by
    rw [Domain.indexMap, List.length_flatMap]
    simp only [rowMap_length hb hc]
    rw [sum_map_ite _ (fun (a : ℕ) => inRange (s.dataJbegin + a) 0 s.nj),
      countP_inRange hc.2.2.1 hb.nj.1 hc.2.2.2]
  rw [hrows, Nat.cast_mul, Int.toNat_of_nonneg hb.ni.1, Int.toNat_of_nonneg hb.nj.1, mul_comm]

theorem Domain.localSize_eq {d : Domain} {n : ℕ} (hb : d.InBounds n) (hc : d.DataCovers)
    (hlt : d.indexMap.length < 2 ^ 31) : d.localSize = .ok (d.indexMap.length : ℤ) := by
  cases d with
  | unstructured definition globalSize => simp [Domain.localSize, Domain.indexMap]
  | structured s =>
    have hlen := structured_indexMap_length hb hc
    rw [Domain.localSize, ← hlen]
    exact int32_ok ⟨by omega, by omega⟩

theorem foldlM_addSize {es : List (Peer × Domain)} (size : Peer × Domain → ℕ) {t : ℕ}
    (hsize : ∀ e ∈ es, e.2.localSize = .ok (size e : ℤ))
    (hlt : t + (es.map size).sum < 2 ^ 31) :
    es.foldlM DomainMap.addSize (t : ℤ) = .ok ((t + (es.map size).sum : ℕ) : ℤ) := by
  induction es generalizing t with
  | nil => simp [pure, Except.pure]
  | cons e es ih =>
    rw [List.map_cons, List.sum_cons] at hlt ⊢
    have hstep : DomainMap.addSize (t : ℤ) e = .ok ((t + size e : ℕ) : ℤ) := by
      unfold DomainMap.addSize
      rw [hsize e List.mem_cons_self, ok_bind, Int.bmod_eq_of_le (by omega) (by omega)]
      push_cast
      rfl
    rw [List.foldlM_cons, hstep, ok_bind,
      ih (fun x hx => hsize x (List.mem_cons_of_mem _ hx)) (by omega), Nat.add_assoc]

/-- Registered parts of one field are complete when their sizes add up to its size. -/
theorem DomainMap.isComplete_eq {d : DomainMap} (hconsistent : d.consistent = false)
    (hne : d.domainMap.entries ≠ []) {dom : Peer → Domain} {n : ℕ}
    (hdom : ∀ p x, d.domainMap.find? p = some x → x = dom p)
    (hsize : ∀ p ∈ d.domainMap.keys, (dom p).localSize = .ok ((dom p).indexMap.length : ℤ))
    (hwhole : ∀ p ∈ d.domainMap.keys, (dom p).partialSize = n)
    (hlt : ∑ p ∈ d.domainMap.keys, (dom p).indexMap.length < 2 ^ 31) :
    d.isComplete = .ok (decide (∑ p ∈ d.domainMap.keys, (dom p).indexMap.length = n)) := by
  have hmem : ∀ e ∈ d.domainMap.entries, e.1 ∈ d.domainMap.keys ∧ e.2 = dom e.1 := by
    intro e he
    have hfind := OrderedMap.find?_eq_some_iff.mpr he
    exact ⟨OrderedMap.mem_keys.mpr ⟨e.2, hfind⟩, hdom e.1 e.2 hfind⟩
  have hsum : (d.domainMap.entries.map fun e => (dom e.1).indexMap.length).sum =
      ∑ p ∈ d.domainMap.keys, (dom p).indexMap.length :=
    (d.domainMap.sum_keys fun p => (dom p).indexMap.length).symm
  have hlocal : ∀ e ∈ d.domainMap.entries, e.2.localSize = .ok ((dom e.1).indexMap.length : ℤ) := by
    intro e he
    rw [(hmem e he).2]
    exact hsize e.1 (hmem e he).1
  have hfold := foldlM_addSize (t := 0) (fun e => (dom e.1).indexMap.length) hlocal
    (by rw [hsum]; omega)
  rw [hsum, Nat.zero_add] at hfold
  obtain ⟨first, rest, hentries⟩ := List.exists_cons_of_ne_nil hne
  have hfirst : first.2.partialSize = n := by
    have hf := hmem first (by rw [hentries]; exact List.mem_cons_self)
    rw [hf.2]
    exact hwhole first.1 hf.1
  unfold DomainMap.isComplete
  rw [hconsistent, if_neg Bool.false_ne_true]
  change (d.domainMap.entries.foldlM DomainMap.addSize ((0 : ℕ) : ℤ) >>= _) = _
  rw [hfold, ok_bind]
  simp only [hentries, hfirst, Nat.cast_inj]

end Multio
