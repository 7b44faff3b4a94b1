import Multio.Domain.MaskCompression
import Mathlib.Tactic.SplitIfs
import Mathlib.Tactic.IntervalCases

namespace Multio.Domain
open BitField Iteration

theorem load_ok {b : Buffer} {o : ℕ} (ho : o < b.length) : load b o = .ok (b.getD o 0) :=
  if_pos ho

theorem store_ok {b : Buffer} {o : ℕ} (x : UInt8) (ho : o < b.length) :
    store b o x = .ok (b.set o x) := if_pos ho

theorem storeOr_ok {b : Buffer} {o : ℕ} (x : ℕ) (ho : o < b.length) :
    storeOr b o x = .ok (b.set o (orByte (b.getD o 0) x)) := by
  rw [storeOr, load_ok ho]
  exact store_ok _ ho

@[simp] theorem allocate_length (mem : ℕ → UInt8) (size : ℕ) :
    (allocate mem size).length = size := by
  simp [allocate]

theorem copyFront_allocate (mem : ℕ → UInt8) {src : Buffer} {size : ℕ} (h : src.length ≤ size) :
    ∃ b, copyFront (allocate mem size) src = .ok b ∧ b.length = size ∧ b.take src.length = src := by
  refine ⟨src ++ (allocate mem size).drop src.length, ?_, ?_, ?_⟩
  · rw [copyFront, if_pos (by simpa using h)]
  · simp only [List.length_append, List.length_drop, allocate_length]
    omega
  · simp

theorem take_set_of_le {b : Buffer} {o k : ℕ} (x : UInt8) (h : k ≤ o) :
    (b.set o x).take k = b.take k := by
  rw [List.take_set, List.set_eq_of_length_le]
  simp only [List.length_take]
  omega

structure MaskPayloadHeader.Canonical (h : MaskPayloadHeader) : Prop where
  numBits_lt : h.numBits < 2 ^ 32
  runLength : h.format = .runLength → 1 ≤ h.runLengthNumBitsPerInt ∧ h.runLengthNumBitsPerInt ≤ 64
  bitMask : h.format = .bitMask → h.runLengthNumBitsPerInt = 0 ∧ h.runLengthStartValue = false

theorem numBits_decode {n : ℕ} (hn : n < 2 ^ 32) :
    ((UInt8.ofNat (n >>> 24)).toNat <<< 24) ||| ((UInt8.ofNat (n >>> 16)).toNat <<< 16) |||
      ((UInt8.ofNat (n >>> 8)).toNat <<< 8) ||| (UInt8.ofNat n).toNat = n := by
  apply Nat.eq_of_testBit_eq
  intro j
  simp only [Nat.testBit_or, Nat.testBit_shiftLeft, testBit_ofNat, Nat.testBit_shiftRight]
  by_cases h32 : 32 ≤ j
  · have hbig : n.testBit j = false :=
      Nat.testBit_eq_false_of_lt (hn.trans_le (Nat.pow_le_pow_right (by omega) h32))
    simp [hbig, show ¬ j - 24 < 8 by omega, show ¬ j - 16 < 8 by omega, show ¬ j - 8 < 8 by omega,
      show ¬ j < 8 by omega]
  · by_cases h24 : 24 ≤ j
    · simp [h24, show 16 ≤ j by omega, show 8 ≤ j by omega, show j - 24 < 8 by omega,
        show ¬ j - 16 < 8 by omega, show ¬ j - 8 < 8 by omega, show ¬ j < 8 by omega]
    · by_cases h16 : 16 ≤ j
      · simp [h24, h16, show 8 ≤ j by omega, show j - 16 < 8 by omega, show ¬ j - 8 < 8 by omega,
          show ¬ j < 8 by omega]
      · by_cases h8 : 8 ≤ j
        · simp [h24, h16, h8, show j - 8 < 8 by omega, show ¬ j < 8 by omega]
        · simp [h24, h16, h8, show j < 8 by omega]

/-- The first byte of a run-length header, for a width stored one lower. -/
def runLengthByte (startValue : Bool) (width : ℕ) : UInt8 :=
  orByte (orByte (UInt8.ofNat (1 <<< 7)) ((if startValue then 1 else 0) <<< 6)) width

theorem runLengthByte_decode (startValue : Bool) {w : ℕ} (hw : w < 64) :
    (runLengthByte startValue w).toNat >>> 7 = 1 ∧
      (runLengthByte startValue w).toNat &&& (1 <<< 6 - 1) = w ∧
      decide ((runLengthByte startValue w).toNat >>> 6 &&& 1 = 1) = startValue := by
  revert startValue
  have hall : ∀ w : Fin 64, ∀ startValue, (runLengthByte startValue w).toNat >>> 7 = 1 ∧
      (runLengthByte startValue w).toNat &&& (1 <<< 6 - 1) = w ∧
      decide ((runLengthByte startValue w).toNat >>> 6 &&& 1 = 1) = startValue := by decide
  exact hall ⟨w, hw⟩

/-- A canonical header is written in five bytes and read back from them, whatever follows. -/
theorem encodeMaskPayloadHeader_decode {h : MaskPayloadHeader} (hc : h.Canonical) :
    ∃ hdr, encodeMaskPayloadHeader h = .ok hdr ∧ hdr.length = MASK_PAYLOAD_HEADER_SIZE ∧
      ∀ rest, decodeMaskPayloadHeader (hdr ++ rest) = .ok h := by
  obtain ⟨format, n, width, startValue⟩ := h
  have hn : ¬ n > 2 ^ 32 - 1 := by have := hc.numBits_lt; simp only at this; omega
  cases format with
  | bitMask =>
    obtain ⟨hw, hs⟩ := hc.bitMask rfl
    simp only at hw hs
    subst hw hs
    refine ⟨_, by simp only [encodeMaskPayloadHeader, hn, if_false]; rfl, rfl, ?_⟩
    intro rest
    simp only [List.cons_append, decodeMaskPayloadHeader, formatBit]
    rw [if_neg (by decide), numBits_decode hc.numBits_lt]
  | runLength =>
    obtain ⟨hw1, hw64⟩ := hc.runLength rfl
    simp only at hw1 hw64
    have hwidth : (width + (2 ^ 64 - 1)) % 2 ^ 64 &&& 0xFF = width - 1 := by
      rw [show width + (2 ^ 64 - 1) = width - 1 + 2 ^ 64 by omega, Nat.add_mod_right,
        show (0xFF : ℕ) = 2 ^ 8 - 1 by rfl, Nat.and_two_pow_sub_one_eq_mod]
      omega
    obtain ⟨hf, hr, hs⟩ := runLengthByte_decode startValue (show width - 1 < 64 by omega)
    refine ⟨runLengthByte startValue (width - 1) :: UInt8.ofNat (n >>> 24) ::
      UInt8.ofNat (n >>> 16) :: UInt8.ofNat (n >>> 8) :: [UInt8.ofNat n], ?_, rfl, ?_⟩
    · simp only [encodeMaskPayloadHeader, formatBit, hwidth, MASK_PAYLOAD_SPARSE_MAX_NUM_BITS,
        show ¬ width > 64 by omega, if_false, hn]
      rfl
    · intro rest
      simp only [List.cons_append, decodeMaskPayloadHeader, hf, hr, hs, if_true,
        numBits_decode hc.numBits_lt, Nat.sub_add_cancel hw1]

theorem decodeMaskPayloadHeader_of_take {hdr b : Buffer} {h : MaskPayloadHeader}
    (hdec : ∀ rest, decodeMaskPayloadHeader (hdr ++ rest) = .ok h)
    (htake : b.take MASK_PAYLOAD_HEADER_SIZE = hdr) : decodeMaskPayloadHeader b = .ok h := by
  rw [← List.take_append_drop MASK_PAYLOAD_HEADER_SIZE b, htake]
  exact hdec _

theorem lsbAt_header (b : Buffer) (q : ℕ) :
    lsbAt b (8 * MASK_PAYLOAD_HEADER_SIZE + q) =
      (b.getD (MASK_PAYLOAD_HEADER_SIZE + q / 8) 0).toNat.testBit (q % 8) := by
  rw [lsbAt, Nat.mul_add_div (by decide), Nat.mul_add_mod]

/-- After the first `i` values: every started byte holds them and zeros above. -/
def BitsWritten (f : ℕ → Bool) (i : ℕ) (b : Buffer) : Prop :=
  ∀ q, 8 * (q / 8) < i → lsbAt b (8 * MASK_PAYLOAD_HEADER_SIZE + q) = (decide (q < i) && f q)

theorem bitMaskStep_ok {b : Buffer} {i : ℕ} (v : Bool)
    (ho : MASK_PAYLOAD_HEADER_SIZE + i / 8 < b.length) :
    ∃ x : UInt8, bitMaskStep b (v, i) = .ok (b.set (MASK_PAYLOAD_HEADER_SIZE + i / 8) x) ∧
      ∀ j, j < 8 → x.toNat.testBit j =
        ((decide (i % 8 ≠ 0) && (b.getD (MASK_PAYLOAD_HEADER_SIZE + i / 8) 0).toNat.testBit j) ||
          (v && decide (j = i % 8))) := by
  have hoff : i >>> 3 = i / 8 := by rw [Nat.shiftRight_eq_div_pow]
  have hr8 : i &&& (1 <<< 3 - 1) = i % 8 := by
    rw [Nat.one_shiftLeft, Nat.and_two_pow_sub_one_eq_mod]
  have hbit : ∀ (c : UInt8) (j : ℕ), j < 8 → (orByte c (1 <<< (i % 8))).toNat.testBit j =
      (c.toNat.testBit j || decide (j = i % 8)) := by
    intro c j hj
    rw [testBit_orByte, Nat.one_shiftLeft, Nat.testBit_two_pow, decide_eq_true hj, Bool.true_and]
    simp only [eq_comm]
  simp only [bitMaskStep, hoff, hr8]
  set o := MASK_PAYLOAD_HEADER_SIZE + i / 8
  -- the first bit of a byte clears it, the others are added to what is there
  by_cases h0 : i % 8 = 0
  · have hset : o < (b.set o 0).length := by simpa using ho
    cases v with
    | false =>
      refine ⟨0, by rw [if_pos h0, store_ok _ ho]; rfl, ?_⟩
      intro j hj
      simp [h0]
    | true =>
      refine ⟨orByte 0 (1 <<< (i % 8)), ?_, ?_⟩
      · rw [if_pos h0, store_ok _ ho]
        change storeOr (b.set o 0) o _ = _
        rw [storeOr_ok _ hset, getD_set _ _ _ _ ho, if_pos rfl, List.set_set]
      · intro j hj
        rw [hbit 0 j hj]
        simp [h0]
  · cases v with
    | false =>
      refine ⟨b.getD o 0, ?_, ?_⟩
      · rw [if_neg h0, List.getD_eq_getElem _ _ ho, List.set_getElem_self]
        rfl
      · intro j _
        simp [h0]
    | true =>
      refine ⟨orByte (b.getD o 0) (1 <<< (i % 8)), ?_, ?_⟩
      · rw [if_neg h0]
        exact storeOr_ok _ ho
      · intro j hj
        rw [hbit _ j hj]
        simp [h0]

theorem bitMaskStep_written {f : ℕ → Bool} {i : ℕ} {b : Buffer} (hw : BitsWritten f i b)
    (ho : MASK_PAYLOAD_HEADER_SIZE + i / 8 < b.length) :
    ∃ b', bitMaskStep b (f i, i) = .ok b' ∧ BitsWritten f (i + 1) b' ∧ b'.length = b.length ∧
      b'.take MASK_PAYLOAD_HEADER_SIZE = b.take MASK_PAYLOAD_HEADER_SIZE := by
  obtain ⟨x, hstep, hx⟩ := bitMaskStep_ok (f i) ho
  refine ⟨_, hstep, ?_, List.length_set, take_set_of_le x (Nat.le_add_right _ _)⟩
  intro q hq
  rw [lsbAt_header, getD_set _ _ _ _ ho]
  by_cases hbyte : q / 8 = i / 8
  · rw [if_pos (by omega), hx _ (Nat.mod_lt _ (by decide))]
    by_cases h0 : i % 8 = 0
    · by_cases hqi : q = i
      · subst hqi
        simp [h0]
      · simp [h0, show ¬ q % 8 = 0 by omega, show ¬ q < i + 1 by omega]
    · have hold := hw q (by omega)
      rw [lsbAt_header, hbyte] at hold
      rw [hold]
      by_cases hqi : q = i
      · subst hqi
        simp [h0]
      · simp [h0, show ¬ q % 8 = i % 8 by omega, show q < i + 1 ↔ q < i by omega]
  · rw [if_neg (by omega), ← lsbAt_header, hw q (by omega)]
    simp [show q < i by omega, show q < i + 1 by omega]

theorem foldlM_bitMaskStep {f : ℕ → Bool} (xs : List Bool) {i : ℕ} {b : Buffer}
    (hf : ∀ j, j < xs.length → f (i + j) = xs.getD j false) (hw : BitsWritten f i b)
    (hlen : MASK_PAYLOAD_HEADER_SIZE + (i + xs.length + 7) / 8 ≤ b.length) :
    ∃ b', (xs.zipIdx i).foldlM bitMaskStep b = .ok b' ∧ BitsWritten f (i + xs.length) b' ∧
      b'.length = b.length ∧
      b'.take MASK_PAYLOAD_HEADER_SIZE = b.take MASK_PAYLOAD_HEADER_SIZE := by
  induction xs generalizing i b with
  | nil => exact ⟨b, rfl, hw, rfl, rfl⟩
  | cons x xs ih =>
    simp only [List.length_cons] at hlen hf
    have hx : f i = x := by simpa using hf 0 (by omega)
    obtain ⟨b₁, hstep, hw₁, hlen₁, htake₁⟩ := bitMaskStep_written hw (by omega)
    rw [hx] at hstep
    have hf₁ : ∀ j, j < xs.length → f (i + 1 + j) = xs.getD j false := by
      intro j hj
      simpa [show i + 1 + j = i + (j + 1) by omega] using hf (j + 1) (by omega)
    obtain ⟨b₂, hfold, hw₂, hlen₂, htake₂⟩ := ih hf₁ hw₁ (by omega)
    refine ⟨b₂, ?_, ?_, by omega, htake₂.trans htake₁⟩
    · rw [List.zipIdx_cons, List.foldlM_cons, hstep]
      exact hfold
    · rwa [List.length_cons, show i + (xs.length + 1) = i + 1 + xs.length by omega]

theorem computeBufferSizeMaskBitMask_eq (n : ℕ) :
    computeBufferSizeMaskBitMask n = MASK_PAYLOAD_HEADER_SIZE + (n + 7) / 8 := by
  have hand : n &&& (1 <<< 3 - 1) = n % 8 := by
    rw [Nat.one_shiftLeft, Nat.and_two_pow_sub_one_eq_mod]
  rw [computeBufferSizeMaskBitMask, hand, Nat.shiftRight_eq_div_pow]
  split_ifs <;> omega

/-- The header written by `encodeMaskBitMask`. -/
def bitMaskHeader (n : ℕ) : MaskPayloadHeader := { format := .bitMask, numBits := n }

@[simp] theorem bitMaskHeader_format (n : ℕ) : (bitMaskHeader n).format = .bitMask := rfl

@[simp] theorem bitMaskHeader_numBits (n : ℕ) : (bitMaskHeader n).numBits = n := rfl

theorem bitMaskHeader_canonical {n : ℕ} (hn : n < 2 ^ 32) : (bitMaskHeader n).Canonical :=
  ⟨hn, (fun h => nomatch h), fun _ => ⟨rfl, rfl⟩⟩

theorem encodeMaskBitMask_written (mem : ℕ → UInt8) {mask : List Bool}
    (hn : mask.length < 2 ^ 32) :
    ∃ b, encodeMaskBitMask mem mask = .ok b ∧
      b.length = computeBufferSizeMaskBitMask mask.length ∧
      encodeMaskPayloadHeader (bitMaskHeader mask.length) =
        .ok (b.take MASK_PAYLOAD_HEADER_SIZE) ∧
      decodeMaskPayloadHeader b = .ok (bitMaskHeader mask.length) ∧
      BitsWritten (mask.getD · false) mask.length b := by
  obtain ⟨hdr, henc, hdrlen, hdec⟩ := encodeMaskPayloadHeader_decode (bitMaskHeader_canonical hn)
  have hsize := computeBufferSizeMaskBitMask_eq mask.length
  obtain ⟨b₀, hcopy, hlen₀, htake₀⟩ := copyFront_allocate mem
    (show hdr.length ≤ computeBufferSizeMaskBitMask mask.length by omega)
  obtain ⟨b, hfold, hw, hlen, htake⟩ := foldlM_bitMaskStep (f := (mask.getD · false)) mask (i := 0)
    (b := b₀) (by simp) (fun q hq => absurd hq (Nat.not_lt_zero _)) (by omega)
  have hdr_eq : b.take MASK_PAYLOAD_HEADER_SIZE = hdr := by rw [htake, ← hdrlen, htake₀]
  refine ⟨b, ?_, by omega, henc.trans (congrArg _ hdr_eq.symm),
    decodeMaskPayloadHeader_of_take hdec hdr_eq, by simpa using hw⟩
  rw [encodeMaskBitMask]
  change (encodeMaskPayloadHeader (bitMaskHeader mask.length) >>= _) = _
  rw [henc]
  change (copyFront (allocate mem _) hdr >>= _) = _
  rw [hcopy]
  exact hfold

theorem decide_shiftRight_and_one (x k : ℕ) : decide (x >>> k &&& 1 = 1) = x.testBit k := by
  rw [Nat.testBit, Nat.and_comm, Nat.one_and_eq_mod_two]
  rcases Nat.mod_two_eq_zero_or_one (x >>> k) with h | h <;> simp [h]

theorem updateValue_bitMask {f : ℕ → Bool} {n : ℕ} {b : Buffer}
    (hlen : b.length = computeBufferSizeMaskBitMask n) (hw : BitsWritten f n b)
    {s : MaskPayloadIterator} (hi : s.index < n) :
    s.updateValue b (bitMaskHeader n) = .ok { s with val := f s.index } := by
  rw [computeBufferSizeMaskBitMask_eq] at hlen
  have hoff : s.index >>> 3 = s.index / 8 := by rw [Nat.shiftRight_eq_div_pow]
  have hand : s.index &&& (1 <<< 3 - 1) = s.index % 8 := by
    rw [Nat.one_shiftLeft, Nat.and_two_pow_sub_one_eq_mod]
  have hbit := hw s.index (by omega)
  rw [lsbAt_header, decide_eq_true hi, Bool.true_and] at hbit
  simp only [MaskPayloadIterator.updateValue, bitMaskHeader, hoff, hand]
  rw [load_ok (by omega), Nat.add_comm (s.index / 8)]
  change Except.ok { s with val := decide _ } = _
  rw [decide_shiftRight_and_one, hbit]

/-- From index `i` on, the iterator over a bit mask yields the values `f i, …, f (n - 1)`. -/
theorem drain_bitMask {f : ℕ → Bool} {n : ℕ} {b : Buffer}
    (hlen : b.length = computeBufferSizeMaskBitMask n) (hw : BitsWritten f n b) (k : ℕ)
    {fuel : ℕ} {s : MaskPayloadIterator} (hk : s.index + k = n) (hval : 0 < k → s.val = f s.index)
    (hfuel : k ≤ fuel) :
    (MaskPayloadIterator.iter b (bitMaskHeader n)).drain fuel s =
      .ok (some ((List.range' s.index k).map f)) := by
  induction k generalizing fuel s with
  | zero =>
    exact drain_atEnd _ (decide_eq_true (by simpa using hk : s.index = n)) fuel
  | succ k ih =>
    obtain ⟨fuel, rfl⟩ : ∃ m, fuel = m + 1 := ⟨fuel - 1, by omega⟩
    have hstep : ∃ s', s.increment b (bitMaskHeader n) = .ok s' ∧ s'.index = s.index + 1 ∧
        (0 < k → s'.val = f (s.index + 1)) := by
      rw [MaskPayloadIterator.increment]
      by_cases hlast : s.index + 1 < n
      · refine ⟨{ s with index := s.index + 1, val := f (s.index + 1) }, ?_, rfl, fun _ => rfl⟩
        rw [bitMaskHeader_numBits, if_pos hlast]
        exact updateValue_bitMask hlen hw (s := { s with index := s.index + 1 }) hlast
      · refine ⟨{ s with index := n }, ?_, ?_, fun hpos => by omega⟩
        · rw [bitMaskHeader_numBits, if_neg hlast]
        · simp only
          omega
    obtain ⟨s', hs', hi', hv'⟩ := hstep
    have hrest := ih (s := s') (by omega) (by rw [hi']; exact hv') (show k ≤ fuel by omega)
    rw [hi'] at hrest
    rw [List.range'_succ, List.map_cons, ← hval (by omega)]
    exact drain_step _ (decide_eq_false (by change ¬ s.index = n; omega)) hs' hrest

theorem map_getD_range' (xs : List Bool) :
    (List.range' 0 xs.length).map (xs.getD · false) = xs := by
  apply List.ext_getElem
  · simp
  · intro i h₁ h₂
    simp [List.getElem?_eq_getElem h₂]

/-- A buffer written by `encodeMaskBitMask` is iterated over as the mask it was made from. -/
theorem values_bitMask {mask : List Bool} {b : Buffer} (hpos : 0 < mask.length)
    (hlen : b.length = computeBufferSizeMaskBitMask mask.length)
    (hdec : decodeMaskPayloadHeader b = .ok (bitMaskHeader mask.length))
    (hw : BitsWritten (mask.getD · false) mask.length b) {fuel : ℕ} (hfuel : mask.length ≤ fuel) :
    EncodedBitMaskPayload.values fuel b = .ok (some mask) := by
  have hbegin : MaskPayloadIterator.begin b (bitMaskHeader mask.length) =
      .ok { index := 0, val := mask.getD 0 false, rl := none } := by
    rw [MaskPayloadIterator.begin]
    rw [if_neg (by simp [hlen])]
    exact updateValue_bitMask hlen hw hpos
  rw [EncodedBitMaskPayload.values, hdec]
  change (MaskPayloadIterator.begin b (bitMaskHeader mask.length) >>= _) = _
  rw [hbegin]
  change ForwardIter.drain _ fuel _ = _
  rw [drain_bitMask hlen hw mask.length (Nat.zero_add _) (fun _ => rfl) hfuel, map_getD_range']

end Multio.Domain
