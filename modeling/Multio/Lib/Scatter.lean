import Mathlib.Data.List.Basic
import Mathlib.Data.Nat.Basic
import Mathlib.Tactic.Ring

namespace Multio.Scatter

variable {α : Type}

/-- Word `i` of an array of words of `w` cells. -/
def word (w : ℕ) (b : List α) (i : ℕ) : List α := (b.drop (i * w)).take w

/-- The array with word `i` replaced by `x`. -/
def putWord (w : ℕ) (b : List α) (i : ℕ) (x : List α) : List α :=
  b.take (i * w) ++ x ++ b.drop ((i + 1) * w)

/-- Copy word `p.2` of `src` to word `p.1` of `dst` for each `p` of the index map. -/
def scatter (w : ℕ) (src : List α) (dst : List α) (ps : List (ℕ × ℕ)) : List α :=
  ps.foldl (fun b p => putWord w b p.1 (word w src p.2)) dst

variable {w : ℕ}

theorem scatter_append (src dst : List α) (ps qs : List (ℕ × ℕ)) :
    scatter w src dst (ps ++ qs) = scatter w src (scatter w src dst ps) qs := List.foldl_append

theorem succ_mul_le {n i : ℕ} (h : i < n) : (i + 1) * w ≤ n * w := Nat.mul_le_mul_right w h

theorem word_length {b : List α} {n i : ℕ} (hb : b.length = n * w) (hi : i < n) :
    (word w b i).length = w := by
  have := succ_mul_le (w := w) hi
  rw [Nat.add_mul] at this
  rw [word, List.length_take, List.length_drop, hb]
  omega

theorem putWord_length {b x : List α} {n i : ℕ} (hb : b.length = n * w) (hi : i < n)
    (hx : x.length = w) : (putWord w b i x).length = n * w := by
  have h := succ_mul_le (w := w) hi
  rw [Nat.add_mul] at h
  simp only [putWord, List.length_append, List.length_take, List.length_drop, hb, hx,
    Nat.add_mul]
  omega

theorem word_putWord_self {b x : List α} {n i : ℕ} (hb : b.length = n * w) (hi : i < n)
    (hx : x.length = w) : word w (putWord w b i x) i = x := by
  have h := succ_mul_le (w := w) hi
  rw [Nat.add_mul] at h
  have htake : (b.take (i * w)).length = i * w := by rw [List.length_take, hb]; omega
  rw [word, putWord, List.append_assoc, List.drop_append_of_le_length htake.ge,
    List.drop_eq_nil_of_le htake.le, List.nil_append, List.take_append_of_le_length hx.ge,
    List.take_of_length_le hx.le]

theorem getElem?_word (b : List α) (i j : ℕ) :
    (word w b i)[j]? = if j < w then b[i * w + j]? else none := by
  rw [word, List.getElem?_take, List.getElem?_drop]

theorem getElem?_putWord {b x : List α} {n i : ℕ} (hb : b.length = n * w) (hi : i < n)
    (hx : x.length = w) {q : ℕ} (hq : q < i * w ∨ (i + 1) * w ≤ q) :
    (putWord w b i x)[q]? = b[q]? := by
  have h := succ_mul_le (w := w) hi
  rw [Nat.add_mul] at h hq
  have htake : (b.take (i * w)).length = i * w := by rw [List.length_take, hb]; omega
  rw [putWord, List.append_assoc]
  rcases hq with hq | hq
  · rw [List.getElem?_append_left (by omega), List.getElem?_take, if_pos hq]
  · rw [List.getElem?_append_right (by omega), htake, List.getElem?_append_right (by omega), hx,
      List.getElem?_drop, Nat.add_mul]
    congr 1
    omega

theorem word_putWord_ne {b x : List α} {n i j : ℕ} (hb : b.length = n * w) (hi : i < n)
    (hx : x.length = w) (hij : j ≠ i) : word w (putWord w b i x) j = word w b j := by
  apply List.ext_getElem?
  intro k
  rw [getElem?_word, getElem?_word]
  split_ifs with hk
  · apply getElem?_putWord hb hi hx
    rcases Nat.lt_or_gt_of_ne hij with h | h
    · left
      have := succ_mul_le (w := w) h
      rw [Nat.add_mul] at this
      omega
    · right
      have h' : (i + 1) * w ≤ j * w := Nat.mul_le_mul_right w h
      omega
  · rfl

theorem ext_word {b c : List α} {n : ℕ} (hb : b.length = n * w) (hc : c.length = n * w)
    (h : ∀ i, i < n → word w b i = word w c i) : b = c := by
  apply List.ext_getElem?
  intro q
  by_cases hq : q < n * w
  · have hw : 0 < w := Nat.pos_of_ne_zero (by rintro rfl; omega)
    have hi : q / w < n := by rwa [Nat.div_lt_iff_lt_mul hw]
    have hcell := congrArg (fun x => x[q % w]?) (h (q / w) hi)
    simp only [getElem?_word, Nat.mod_lt q hw, if_true] at hcell
    rwa [Nat.mul_comm, Nat.div_add_mod] at hcell
  · rw [List.getElem?_eq_none (by omega), List.getElem?_eq_none (by omega)]

/-- An index map that stays within `n` words of the target and `m` words of the source. -/
def InRange (ps : List (ℕ × ℕ)) (n m : ℕ) : Prop := ∀ p ∈ ps, p.1 < n ∧ p.2 < m

theorem InRange.tail {p : ℕ × ℕ} {ps : List (ℕ × ℕ)} {n m : ℕ} (h : InRange (p :: ps) n m) :
    InRange ps n m := fun q hq => h q (List.mem_cons_of_mem _ hq)

variable {src dst : List α} {n m : ℕ}

theorem scatter_length (ps : List (ℕ × ℕ)) (hr : InRange ps n m) (hsrc : src.length = m * w)
    (hdst : dst.length = n * w) : (scatter w src dst ps).length = n * w := by
  induction ps generalizing dst with
  | nil => exact hdst
  | cons p ps ih =>
    obtain ⟨h₁, h₂⟩ := hr p List.mem_cons_self
    exact ih hr.tail (putWord_length hdst h₁ (word_length hsrc h₂))

theorem word_scatter_of_not_mem (ps : List (ℕ × ℕ)) (hr : InRange ps n m)
    (hsrc : src.length = m * w) (hdst : dst.length = n * w) {g : ℕ}
    (hg : ∀ p ∈ ps, p.1 ≠ g) : word w (scatter w src dst ps) g = word w dst g := by
  induction ps generalizing dst with
  | nil => rfl
  | cons p ps ih =>
    obtain ⟨h₁, h₂⟩ := hr p List.mem_cons_self
    have hlen := word_length hsrc h₂
    have hrest := ih hr.tail (putWord_length hdst h₁ hlen)
      (fun q hq => hg q (List.mem_cons_of_mem _ hq))
    exact hrest.trans (word_putWord_ne hdst h₁ hlen (hg p List.mem_cons_self).symm)

/-- With distinct places, every place holds the word that the index map gives it. -/
theorem word_scatter_of_mem (ps : List (ℕ × ℕ)) (hr : InRange ps n m)
    (hsrc : src.length = m * w) (hdst : dst.length = n * w) (hnd : (ps.map Prod.fst).Nodup)
    {g l : ℕ} (hg : (g, l) ∈ ps) : word w (scatter w src dst ps) g = word w src l := by
  induction ps generalizing dst with
  | nil => simp at hg
  | cons p ps ih =>
    obtain ⟨h₁, h₂⟩ := hr p List.mem_cons_self
    have hlen := word_length hsrc h₂
    rw [List.map_cons, List.nodup_cons] at hnd
    rcases List.mem_cons.mp hg with rfl | hg
    · have hne : ∀ q ∈ ps, q.1 ≠ g := by
        intro q hq heq
        exact hnd.1 (List.mem_map.mpr ⟨q, hq, heq⟩)
      exact (word_scatter_of_not_mem ps hr.tail hsrc (putWord_length hdst h₁ hlen) hne).trans
        (word_putWord_self hdst h₁ hlen)
    · exact ih hr.tail (putWord_length hdst h₁ hlen) hnd.2 hg

theorem exists_word_scatter (ps : List (ℕ × ℕ)) (hr : InRange ps n m)
    (hsrc : src.length = m * w) (hdst : dst.length = n * w) {g : ℕ} (hg : ∃ l, (g, l) ∈ ps) :
    ∃ l, (g, l) ∈ ps ∧ word w (scatter w src dst ps) g = word w src l := by
  induction ps generalizing dst with
  | nil => simp at hg
  | cons p ps ih =>
    obtain ⟨h₁, h₂⟩ := hr p List.mem_cons_self
    have hlen := word_length hsrc h₂
    have hdst' := putWord_length hdst h₁ hlen
    by_cases hrest : ∃ l, (g, l) ∈ ps
    · obtain ⟨l, hl, hword⟩ := ih hr.tail hdst' hrest
      exact ⟨l, List.mem_cons_of_mem _ hl, hword⟩
    · obtain ⟨l, hl⟩ := hg
      rcases List.mem_cons.mp hl with rfl | hl
      · have hne : ∀ q ∈ ps, q.1 ≠ g := by
          rintro ⟨g', l'⟩ hq rfl
          exact hrest ⟨l', hq⟩
        refine ⟨l, List.mem_cons_self, ?_⟩
        exact (word_scatter_of_not_mem ps hr.tail hsrc hdst' hne).trans
          (word_putWord_self hdst h₁ hlen)
      · exact absurd ⟨l, hl⟩ hrest

/-- The first `n` words of an array. -/
def words (w : ℕ) (b : List α) (n : ℕ) : List (List α) := (List.range n).map (word w b)

theorem inRange_zipIdx {places : List ℕ} (hperm : places.Perm (List.range n)) :
    InRange places.zipIdx n n := by
  intro p hp
  have hlength : places.length = n := hperm.length_eq.trans List.length_range
  have hindex := List.mem_zipIdx hp
  exact ⟨List.mem_range.mp (hperm.mem_iff.mp (List.fst_mem_of_mem_zipIdx hp)), by omega⟩

/-- Words that are copied to the places of a permutation are those of the source in another
order. -/
theorem words_scatter_perm {places : List ℕ} (hperm : places.Perm (List.range n))
    (hsrc : src.length = n * w) (hdst : dst.length = n * w) :
    (words w (scatter w src dst places.zipIdx) n).Perm (words w src n) := by
  have hlength : places.length = n := hperm.length_eq.trans List.length_range
  have hplaces : (places.zipIdx.map Prod.fst).Nodup := by
    rw [List.zipIdx_map_fst]
    exact hperm.nodup_iff.mpr List.nodup_range
  have hsnd : places.zipIdx.map Prod.snd = List.range n := by
    rw [List.zipIdx_map_snd, hlength, List.range_eq_range']
  have hcopied : places.map (word w (scatter w src dst places.zipIdx)) = words w src n := by
    calc places.map (word w (scatter w src dst places.zipIdx))
        = (places.zipIdx.map Prod.fst).map (word w (scatter w src dst places.zipIdx)) := by
          rw [List.zipIdx_map_fst]
      _ = (places.zipIdx.map Prod.snd).map (word w src) := by
          rw [List.map_map, List.map_map]
          apply List.map_congr_left
          intro p hp
          exact word_scatter_of_mem _ (inRange_zipIdx hperm) hsrc hdst hplaces hp
      _ = words w src n := by rw [hsnd, words]
  exact (hperm.map _).symm.trans (.of_eq hcopied)

theorem word_take {n i : ℕ} (b : List α) (hi : i < n) : word w (b.take (n * w)) i = word w b i := by
  have hle := succ_mul_le (w := w) hi
  rw [Nat.add_mul] at hle
  apply List.ext_getElem?
  intro j
  rw [getElem?_word, getElem?_word]
  split_ifs with hj
  · rw [List.getElem?_take, if_pos (by omega)]
  · rfl

theorem word_one {b : List α} {i : ℕ} {x : α} (h : b[i]? = some x) : word 1 b i = [x] := by
  obtain ⟨hi, rfl⟩ := List.getElem?_eq_some_iff.mp h
  rw [word, Nat.mul_one, List.drop_eq_getElem_cons hi]
  rfl

theorem getElem?_eq_of_word {b b' : List α} {i j : ℕ} (h : word 1 b i = word 1 b' j) :
    b[i]? = b'[j]? := by
  have hcell := congrArg (fun x => x[0]?) h
  simpa [getElem?_word] using hcell

theorem putWord_one (b : List α) {i : ℕ} (hi : i < b.length) (x : α) :
    putWord 1 b i [x] = b.set i x := by
  rw [putWord, Nat.mul_one, Nat.mul_one, List.set_eq_take_append_cons_drop, if_pos hi,
    List.append_assoc, List.singleton_append]

end Multio.Scatter
