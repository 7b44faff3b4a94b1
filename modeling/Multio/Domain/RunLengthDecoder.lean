import Multio.Domain.RunLengthEncoder
import Multio.Domain.RunLengthReader

namespace Multio.Domain
open BitField Iteration RunLength

/-- The payload holds the `T` bits of `f` behind the header. -/
structure HoldsBits (f : ℕ → Bool) (T : ℕ) (payload : Buffer) : Prop where
  length_eq : payload.length = MASK_PAYLOAD_HEADER_SIZE + (T + 7) / 8
  bit : ∀ q, q < T → msbAt payload (8 * MASK_PAYLOAD_HEADER_SIZE + q) = f q

theorem HoldsBits.testBit_readRun {f : ℕ → Bool} {T p n : ℕ} {payload : Buffer}
    (h : HoldsBits f T payload) (hn : n ≤ 31) (hT : p + n ≤ T) (j : ℕ) :
    (readRun (field payload (8 * MASK_PAYLOAD_HEADER_SIZE + p) n)).testBit j =
      (decide (j < n) && f (p + (n - 1 - j))) := by
  rw [readRun_of_lt ((field_lt _ _ n).trans_le (Nat.pow_le_pow_right (by omega) hn)),
    testBit_field]
  by_cases hj : j < n
  · rw [decide_eq_true hj, Bool.true_and, Bool.true_and, Nat.add_assoc]
    exact h.bit _ (by omega)
  · rw [decide_eq_false hj, Bool.false_and, Bool.false_and]

variable {payload : Buffer}

/-- A payload under the header `h` that holds the runs `rs`. -/
structure RunPayload (h : MaskPayloadHeader) (rs : List ℕ) (payload : Buffer) : Prop where
  format : h.format = .runLength
  numBits_eq : h.numBits = rs.sum
  numBits_lt : h.numBits < 2 ^ 31
  width_pos : 0 < h.runLengthNumBitsPerInt
  width_le : h.runLengthNumBitsPerInt ≤ 31
  pos : ∀ r ∈ rs, 0 < r
  fits : ∀ r ∈ rs, r - 1 < 2 ^ h.runLengthNumBitsPerInt
  holds : HoldsBits (fieldBit h.runLengthNumBitsPerInt rs) (h.runLengthNumBitsPerInt * rs.length)
    payload

/-- The iterator stands at a run of `r` values `v` behind the runs `done`. -/
structure AtRun (h : MaskPayloadHeader) (payload : Buffer) (done : List ℕ) (v : Bool) (r : ℕ)
    (s : RunLengthIterator) : Prop where
  index_eq : s.index = done.sum
  val_eq : s.val = (v, r)
  reader : ReaderAt payload (h.runLengthNumBitsPerInt * (done.length + 1)) s

theorem updateValue_atRun {h : MaskPayloadHeader} {done rest : List ℕ} {r : ℕ} {v : Bool}
    (hp : RunPayload h (done ++ r :: rest) payload) {s : RunLengthIterator} (hsign : s.val.1 = !v)
    (hidx : s.index + s.val.2 = done.sum)
    (hs : ReaderAt payload (h.runLengthNumBitsPerInt * done.length) s) :
    ∃ s', s.updateValue payload h = .ok s' ∧ AtRun h payload done v r s' := by
  have hr : 0 < r := hp.pos r (by simp)
  have hfit := hp.fits r (by simp)
  have hsum : done.sum + (r + rest.sum) = h.numBits := by rw [hp.numBits_eq]; simp
  have hlt := hp.numBits_lt
  have hN := hp.width_pos
  have hwidth := hp.width_le
  have hT : h.runLengthNumBitsPerInt * done.length + h.runLengthNumBitsPerInt ≤
      h.runLengthNumBitsPerInt * (done ++ r :: rest).length := by
    rw [← Nat.mul_add_one]
    apply Nat.mul_le_mul_left
    simp
  have hlen := hp.holds.length_eq
  have hleft : (s.index + s.val.2) % 2 ^ 64 < h.numBits := by
    rw [hidx, Nat.mod_eq_of_lt (by omega)]
    omega
  obtain ⟨s', hstep, hat, hidx', hval⟩ := updateValue_field (h := h) hs hN (by omega) hleft
    (updateDefined_of_le hs (by omega) hleft (by omega))
  -- the field holds the run length less one
  have hv : readRun (field payload (8 * MASK_PAYLOAD_HEADER_SIZE +
      h.runLengthNumBitsPerInt * done.length) h.runLengthNumBitsPerInt) = r - 1 := by
    apply Nat.eq_of_testBit_eq
    intro j
    rw [hp.holds.testBit_readRun hwidth hT]
    by_cases hj : j < h.runLengthNumBitsPerInt
    · rw [fieldBit_field done r rest (by omega), decide_eq_true hj, Bool.true_and]
      congr 1
      omega
    · have hbig : r - 1 < 2 ^ j :=
        lt_of_lt_of_le hfit (Nat.pow_le_pow_right (by omega) (by omega))
      rw [Nat.testBit_eq_false_of_lt hbig, decide_eq_false hj, Bool.false_and]
  refine ⟨s', hstep, by rw [hidx', hidx, Nat.mod_eq_of_lt (by omega)], ?_, ?_⟩
  · rw [hval, hv, hsign, Bool.not_not, Nat.sub_add_cancel hr, Nat.mod_eq_of_lt (by omega)]
  · rw [Nat.mul_add_one]
    exact hat

theorem updateValue_last {h : MaskPayloadHeader} {done : List ℕ} {r : ℕ} {v : Bool}
    (hp : RunPayload h (done ++ [r]) payload) {s : RunLengthIterator}
    (hs : AtRun h payload done v r s) :
    s.updateValue payload h = .ok { s with index := h.numBits } := by
  have hsum : s.index + s.val.2 = h.numBits := by
    rw [hs.index_eq, hs.val_eq, hp.numBits_eq]
    simp
  have hlt := hp.numBits_lt
  have hmod : (s.index + s.val.2) % 2 ^ 64 = h.numBits := by rw [hsum, Nat.mod_eq_of_lt (by omega)]
  rw [updateValue_atEnd hmod.ge, hmod]

theorem AtRun.next {h : MaskPayloadHeader} {done rest : List ℕ} {r r' : ℕ} {v : Bool}
    (hp : RunPayload h (done ++ r :: r' :: rest) payload) {s : RunLengthIterator}
    (hs : AtRun h payload done v r s) :
    ∃ s', s.updateValue payload h = .ok s' ∧
      AtRun h payload (done ++ [r]) (!v) r' s' := by
  have happ : done ++ r :: r' :: rest = (done ++ [r]) ++ r' :: rest := by simp
  rw [happ] at hp
  apply updateValue_atRun hp
  · simp [hs.val_eq]
  · rw [hs.index_eq, hs.val_eq]
    simp
  · simpa using hs.reader

theorem begin_atRun {h : MaskPayloadHeader} {r : ℕ} {rest : List ℕ}
    (hp : RunPayload h (r :: rest) payload) :
    ∃ s, RunLengthIterator.begin payload h = .ok s ∧
      AtRun h payload [] h.runLengthStartValue r s := by
  have hlen := hp.holds.length_eq
  rw [RunLengthIterator.begin, if_neg (not_not.mpr hp.format)]
  exact updateValue_atRun (show RunPayload h ([] ++ r :: rest) payload from hp) rfl rfl
    ⟨by simp [hlen], fun _ => by simp⟩

/-- Alternating runs with their values, the first of value `v`. -/
def signedRuns (v : Bool) : List ℕ → List (Bool × ℕ)
  | [] => []
  | r :: rs => (v, r) :: signedRuns (!v) rs

theorem signedRuns_expand (v : Bool) (rs : List ℕ) :
    (signedRuns v rs).flatMap (fun r => List.replicate r.2 r.1) = expandRuns v rs := by
  induction rs generalizing v with
  | nil => rfl
  | cons r rs ih => rw [signedRuns, List.flatMap_cons, ih, expandRuns_cons]

theorem drain_runs {h : MaskPayloadHeader} (rest : List ℕ) {done : List ℕ} {r : ℕ} {v : Bool}
    (hp : RunPayload h (done ++ r :: rest) payload) {s : RunLengthIterator}
    (hs : AtRun h payload done v r s) {fuel : ℕ}
    (hfuel : rest.length < fuel) :
    (RunLengthIterator.iter payload h).drain fuel s = .ok (some (signedRuns v (r :: rest))) := by
  induction rest generalizing done r v s fuel with
  | nil =>
    obtain ⟨k, rfl⟩ : ∃ k, fuel = k + 1 := ⟨fuel - 1, by omega⟩
    rw [signedRuns, signedRuns, ← hs.val_eq]
    apply drain_step
    · have := hp.pos r (by simp)
      apply decide_eq_false
      rw [hs.index_eq, hp.numBits_eq]
      simp only [List.sum_append, List.sum_cons, List.sum_nil]
      omega
    · exact updateValue_last hp hs
    · exact drain_atEnd _ (decide_eq_true rfl) k
  | cons r' rest ih =>
    obtain ⟨k, rfl⟩ : ∃ k, fuel = k + 1 := ⟨fuel - 1, by omega⟩
    obtain ⟨s', hnext, hs'⟩ := hs.next hp
    rw [signedRuns, ← hs.val_eq]
    apply drain_step
    · have := hp.pos r (by simp)
      apply decide_eq_false
      rw [hs.index_eq, hp.numBits_eq]
      simp only [List.sum_append, List.sum_cons]
      omega
    · exact hnext
    · have happ : done ++ r :: r' :: rest = (done ++ [r]) ++ r' :: rest := by simp
      rw [happ] at hp
      exact ih hp hs' (by simp only [List.length_cons] at hfuel; omega)

/-- The value iterator stands at value `c` of a run of `r` values `v` behind the runs `done`. -/
structure AtValue (h : MaskPayloadHeader) (payload : Buffer) (done : List ℕ) (v : Bool) (r c : ℕ)
    (s : MaskPayloadIterator) : Prop where
  lt : c < r
  index_eq : s.index = done.sum + c
  val_eq : s.val = v
  run : ∃ it, s.rl = some (it, c) ∧ AtRun h payload done v r it

theorem RunPayload.sum_eq {h : MaskPayloadHeader} {done rest : List ℕ} {r : ℕ}
    (hp : RunPayload h (done ++ r :: rest) payload) :
    done.sum + (r + rest.sum) = h.numBits := by
  rw [hp.numBits_eq]
  simp

namespace AtValue

variable {h : MaskPayloadHeader} {done rest : List ℕ} {r r' c : ℕ} {v : Bool}
  {s : MaskPayloadIterator}

theorem inRun (hp : RunPayload h (done ++ r :: rest) payload) (hs : AtValue h payload done v r c s)
    (hrun : c + 1 < r) :
    ∃ s', s.increment payload h = .ok s' ∧ s'.index = s.index + 1 ∧
      AtValue h payload done v r (c + 1) s' := by
  obtain ⟨it, hrl, hit⟩ := hs.run
  have hidx := hs.index_eq
  have hsum := hp.sum_eq
  refine ⟨{ s with index := s.index + 1, rl := some (it, c + 1) }, ?_, rfl, ?_⟩
  · rw [MaskPayloadIterator.increment, if_pos (by omega), hp.format, hrl]
    simp only [hit.val_eq, if_neg (not_le.mpr hrun)]
  · refine ⟨hrun, ?_, hs.val_eq, it, rfl, hit⟩
    rw [hidx, Nat.add_assoc]

theorem nextRun (hp : RunPayload h (done ++ r :: r' :: rest) payload)
    (hs : AtValue h payload done v r c s) (hrun : r ≤ c + 1) :
    ∃ s', s.increment payload h = .ok s' ∧ s'.index = s.index + 1 ∧
      AtValue h payload (done ++ [r]) (!v) r' 0 s' := by
  obtain ⟨it, hrl, hit⟩ := hs.run
  obtain ⟨it', hnext, hit'⟩ := hit.next hp
  have hc := hs.lt
  have hidx := hs.index_eq
  have hsum := hp.sum_eq
  have hr' := hp.pos r' (by simp)
  rw [List.sum_cons] at hsum
  refine ⟨{ s with index := s.index + 1, val := it'.val.1, rl := some (it', 0) }, ?_, rfl, ?_⟩
  · rw [MaskPayloadIterator.increment, if_pos (by omega), hp.format, hrl]
    simp only [hit.val_eq, if_pos hrun, MaskPayloadIterator.updateValue, hp.format,
      show ¬ s.index + 1 = 0 by omega, if_false, hnext]
    rfl
  · refine ⟨hr', ?_, ?_, it', rfl, hit'⟩
    · simp only [List.sum_append, List.sum_cons, List.sum_nil]
      omega
    · simp [hit'.val_eq]

theorem last (hp : RunPayload h (done ++ [r]) payload) (hs : AtValue h payload done v r c s)
    (hrun : r ≤ c + 1) : s.increment payload h = .ok { s with index := h.numBits } := by
  have hidx := hs.index_eq
  have hsum := hp.sum_eq
  rw [List.sum_nil] at hsum
  rw [MaskPayloadIterator.increment, if_neg (by omega)]

end AtValue

/-- The value iterator yields what is left of its run and the runs after it. -/
theorem drain_values {h : MaskPayloadHeader} (k : ℕ) {done rest : List ℕ} {r c : ℕ} {v : Bool}
    (hp : RunPayload h (done ++ r :: rest) payload) {s : MaskPayloadIterator}
    (hs : AtValue h payload done v r c s)
    (hk : s.index + k = h.numBits) {fuel : ℕ} (hfuel : k ≤ fuel) :
    (MaskPayloadIterator.iter payload h).drain fuel s =
      .ok (some (List.replicate (r - c) v ++ expandRuns (!v) rest)) := by
  -- on the points that are left
  induction k generalizing done rest r c v s fuel with
  | zero =>
    have hc := hs.lt
    have hsum := hp.sum_eq
    rw [hs.index_eq] at hk
    omega
  | succ k ih =>
    obtain ⟨fuel, rfl⟩ : ∃ m, fuel = m + 1 := ⟨fuel - 1, by omega⟩
    have hc := hs.lt
    have hhead : List.replicate (r - c) v ++ expandRuns (!v) rest =
        s.val :: (List.replicate (r - (c + 1)) v ++ expandRuns (!v) rest) := by
      rw [show r - c = r - (c + 1) + 1 by omega, List.replicate_succ, List.cons_append, hs.val_eq]
    have hatEnd : (MaskPayloadIterator.iter payload h).atEnd s = false :=
      decide_eq_false (by omega)
    rw [hhead]
    -- inside of a run the value stays; behind it the next field is read
    rcases Nat.lt_or_ge (c + 1) r with hrun | hrun
    · obtain ⟨s', hinc, hindex, hat⟩ := hs.inRun hp hrun
      exact drain_step _ hatEnd hinc (ih hp hat (by omega) (by omega))
    · have hused : r - (c + 1) = 0 := Nat.sub_eq_zero_of_le hrun
      cases rest with
      | nil =>
        refine drain_step _ hatEnd (hs.last hp hrun) ?_
        rw [drain_atEnd _ (decide_eq_true rfl) fuel, hused]
        simp
      | cons r' rest =>
        obtain ⟨s', hinc, hindex, hat⟩ := hs.nextRun hp hrun
        rw [List.append_cons] at hp
        refine drain_step _ hatEnd hinc ?_
        rw [ih hp hat (by omega) (by omega), hused]
        simp

/-- A run-length payload is iterated over as its runs and as their values. -/
theorem values_runLength {h : MaskPayloadHeader} {rs : List ℕ} {n : ℕ}
    (hdec : decodeMaskPayloadHeader payload = .ok h) (hp : RunPayload h rs payload) (hne : rs ≠ [])
    (hn : h.numBits = n) {fuel : ℕ} (hfuel : n ≤ fuel) :
    EncodedRunLengthPayload.values fuel payload =
        .ok (some (signedRuns h.runLengthStartValue rs)) ∧
      EncodedBitMaskPayload.values fuel payload =
        .ok (some (expandRuns h.runLengthStartValue rs)) := by
  obtain ⟨r, rest, rfl⟩ := List.exists_cons_of_ne_nil hne
  obtain ⟨it, hbegin, hit⟩ := begin_atRun hp
  have hr := hp.pos r (by simp)
  have hsum := hp.numBits_eq
  have hcount : rest.length ≤ rest.sum :=
    List.length_le_sum_of_one_le rest fun i hi => hp.pos i (by simp [hi])
  rw [List.sum_cons] at hsum
  constructor
  · rw [EncodedRunLengthPayload.values, hdec]
    change (RunLengthIterator.begin payload h >>= _) = _
    rw [hbegin]
    exact drain_runs rest (show RunPayload h ([] ++ r :: rest) payload from hp) hit (by omega)
  · have hbegin' : MaskPayloadIterator.begin payload h =
        .ok { index := 0, val := it.val.1, rl := some (it, 0) } := by
      rw [MaskPayloadIterator.begin]
      simp only [hp.format, reduceCtorEq, false_and, if_false, MaskPayloadIterator.updateValue,
        if_true, hbegin]
      rfl
    have hat : AtValue h payload [] h.runLengthStartValue r
        0 { index := 0, val := it.val.1, rl := some (it, 0) } :=
      ⟨hr, rfl, by simp [hit.val_eq], it, rfl, hit⟩
    rw [EncodedBitMaskPayload.values, hdec]
    change (MaskPayloadIterator.begin payload h >>= _) = _
    rw [hbegin']
    exact drain_values n (show RunPayload h ([] ++ r :: rest) payload from hp) hat (by simp [hn])
      hfuel

end Multio.Domain
