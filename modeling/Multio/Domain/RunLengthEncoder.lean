import Multio.Domain.BitMaskCodec
import Multio.Lib.RunLength

namespace Multio.Domain
open BitField RunLength

theorem foldl_runCounts (xs : List Bool) (s : RunCounts) :
    (xs.foldl RunCounts.step s).numValues + 1 =
        s.numValues + (runLengths s.currentSign s.counter xs).length ∧
      (s.maxNum ≤ max (xs.foldl RunCounts.step s).maxNum (xs.foldl RunCounts.step s).counter) ∧
      (∀ r ∈ runLengths s.currentSign s.counter xs,
        r ≤ max (xs.foldl RunCounts.step s).maxNum (xs.foldl RunCounts.step s).counter) ∧
      max (xs.foldl RunCounts.step s).maxNum (xs.foldl RunCounts.step s).counter ≤
        max s.maxNum (s.counter + xs.length) := by
  induction xs generalizing s with
  | nil => simp [runLengths]
  | cons x xs ih =>
    obtain ⟨hnum, hold, hmax, hle⟩ := ih (RunCounts.step s x)
    rw [List.foldl_cons, runLengths]
    generalize xs.foldl RunCounts.step (RunCounts.step s x) = t at *
    rw [RunCounts.step] at hnum hold hmax hle
    simp only [List.length_cons]
    by_cases hx : x = s.currentSign
    · rw [if_pos hx] at hnum hold hmax hle ⊢
      exact ⟨hnum, hold, hmax, by simp only at hle; omega⟩
    · rw [if_neg hx] at hnum hold hmax hle ⊢
      simp only [List.length_cons] at *
      refine ⟨by omega, by omega, ?_, by omega⟩
      intro r hr
      rcases List.mem_cons.mp hr with rfl | hr
      · omega
      · exact hmax r hr

/-- The properties computed for `v :: xs`: every run length, one lower, fits the width. -/
theorem computeMaskRunLengthProperties_spec (v : Bool) (xs : List Bool) {k : ℕ} (hk : k ≤ 63)
    (hn : (v :: xs).length < 2 ^ k) :
    let p := computeMaskRunLengthProperties (v :: xs)
    p.startValue = v ∧ p.numValues = (runLengths v 1 xs).length ∧
      1 ≤ p.numBitsPerInt ∧ p.numBitsPerInt ≤ k ∧
      (∀ r ∈ runLengths v 1 xs, r - 1 < 2 ^ p.numBitsPerInt) ∧
      p.bufSize = MASK_PAYLOAD_HEADER_SIZE + (p.numBitsPerInt * p.numValues + 7) / 8 := by
  intro p
  obtain ⟨hnum, -, hmax, hle⟩ := foldl_runCounts xs
    { numValues := 0, maxNum := 0, counter := 1, currentSign := v }
  have hp : p = computeMaskRunLengthProperties (v :: xs) := rfl
  simp only [computeMaskRunLengthProperties] at hp
  simp only [Nat.zero_add, List.length_cons] at hnum hle hn
  set s := xs.foldl RunCounts.step { numValues := 0, maxNum := 0, counter := 1, currentSign := v }
  set maxNum := max s.maxNum s.counter
  -- runs are stored less one, and a run of one still takes a bit
  set m := if maxNum > 1 then maxNum - 1 else 1 with hm
  have hmk : m < 2 ^ k := by split_ifs at hm <;> omega
  have hwidth : Util.bitWidth 64 m = m.size :=
    Util.bitWidth_eq_size (k := 6) (hmk.trans_le (Nat.pow_le_pow_right (by omega) hk))
  have hnumBits : p.numBitsPerInt = m.size := by rw [hp, ← hwidth]
  have hmod : ∀ x : ℕ, x &&& (1 <<< 3 - 1) = x % 8 := by
    intro x
    rw [Nat.one_shiftLeft, Nat.and_two_pow_sub_one_eq_mod]
  have hmpos : 0 < m := by split_ifs at hm <;> omega
  refine ⟨by rw [hp], by rw [hp, ← hnum], ?_, ?_, ?_, ?_⟩
  · rw [hnumBits]
    exact Nat.size_pos.mpr hmpos
  · rw [hnumBits]
    exact Nat.size_le.mpr hmk
  · intro r hr
    have hrm : r - 1 ≤ m := by have := hmax r hr; split_ifs at hm <;> omega
    rw [hnumBits]
    exact hrm.trans_lt (Nat.lt_size_self m)
  · rw [hp]
    simp only [hmod, Nat.shiftRight_eq_div_pow]
    split_ifs <;> omega

/-- Bit `q` of the payload of the runs `rs`, each in `N` bits. -/
def fieldBit (N : ℕ) (rs : List ℕ) (q : ℕ) : Bool :=
  (rs.getD (q / N) 1 - 1).testBit (N - 1 - q % N)

theorem fieldBit_field {N : ℕ} (done : List ℕ) (r : ℕ) (rest : List ℕ) {j : ℕ} (hj : j < N) :
    fieldBit N (done ++ r :: rest) (N * done.length + j) = (r - 1).testBit (N - 1 - j) := by
  have hN : 0 < N := by omega
  rw [fieldBit, Nat.mul_add_div hN, Nat.mul_add_mod, Nat.mod_eq_of_lt hj, Nat.div_eq_of_lt hj]
  simp

theorem msbAt_header (b : Buffer) (q : ℕ) :
    msbAt b (8 * MASK_PAYLOAD_HEADER_SIZE + q) =
      (b.getD (MASK_PAYLOAD_HEADER_SIZE + q / 8) 0).toNat.testBit (7 - q % 8) := by
  rw [msbAt, Nat.mul_add_div (by decide), Nat.mul_add_mod]

/-- The writer of a payload `f` of `T` bits behind the header `hdr`, after `p` bits. -/
structure WriterAt (f : ℕ → Bool) (hdr : Buffer) (T p : ℕ) (s : BitWriter) : Prop where
  length_eq : s.b.length = MASK_PAYLOAD_HEADER_SIZE + (T + 7) / 8
  header : s.b.take MASK_PAYLOAD_HEADER_SIZE = hdr
  bufOffset_eq : s.bufOffset = MASK_PAYLOAD_HEADER_SIZE + p / 8
  remainingBits_eq : s.remainingBits = 8 - p % 8
  written : ∀ q, q / 8 ≤ p / 8 → q / 8 < (T + 7) / 8 →
    msbAt s.b (8 * MASK_PAYLOAD_HEADER_SIZE + q) = (decide (q < p) && f q)

theorem advance_writerAt {f : ℕ → Bool} {hdr b : Buffer} {T p k o : ℕ}
    (hlen : b.length = MASK_PAYLOAD_HEADER_SIZE + (T + 7) / 8)
    (hhdr : b.take MASK_PAYLOAD_HEADER_SIZE = hdr) (hp : 0 < p) (hT : p + k ≤ T)
    (ho : o = MASK_PAYLOAD_HEADER_SIZE + (p - 1) / 8)
    (hw : ∀ q, q / 8 ≤ (p - 1) / 8 → q / 8 < (T + 7) / 8 →
      msbAt b (8 * MASK_PAYLOAD_HEADER_SIZE + q) = (decide (q < p) && f q)) :
    ∃ s, BitWriter.advance (MASK_PAYLOAD_HEADER_SIZE + (T + 7) / 8) k
        { b, bufOffset := o, remainingBits := (8 - p % 8) % 8 } = .ok s ∧ WriterAt f hdr T p s := by
  subst ho
  by_cases hmod : p % 8 = 0
  · simp only [BitWriter.advance, hmod, Nat.sub_zero, Nat.mod_self, if_true]
    by_cases hin :
        MASK_PAYLOAD_HEADER_SIZE + (p - 1) / 8 + 1 < MASK_PAYLOAD_HEADER_SIZE + (T + 7) / 8
    · rw [if_pos hin, store_ok _ (by omega)]
      refine ⟨_, rfl, by simpa using hlen, ?_, by simp only; omega, by simp only; omega, ?_⟩
      · simp only
        rw [take_set_of_le _ (by omega), hhdr]
      · intro q hq hqT
        simp only
        rw [msbAt_header, getD_set _ _ _ _ (by omega)]
        by_cases hbyte : q / 8 = p / 8
        · rw [if_pos (by omega)]
          simp [show ¬ q < p by omega]
        · rw [if_neg (by omega), ← msbAt_header]
          exact hw q (by omega) hqT
    · rw [if_neg hin, if_pos (by omega)]
      refine ⟨_, rfl, hlen, hhdr, by simp only; omega, by simp only; omega, ?_⟩
      intro q hq hqT
      exact hw q (by omega) hqT
  · rw [BitWriter.advance, if_neg (by simp only; omega)]
    refine ⟨_, rfl, hlen, hhdr, by simp only; omega, by simp only; omega, ?_⟩
    intro q hq hqT
    exact hw q (by omega) hqT

/-- One turn of the loop: the top `c` of the `n` bits left go to the byte at hand. -/
theorem WriterAt.put {f : ℕ → Bool} {hdr : Buffer} {T p n c val : ℕ} {s : BitWriter}
    (hs : WriterAt f hdr T p s) (hc : 0 < c) (hcn : c ≤ n) (hcr : c ≤ s.remainingBits)
    (hT : p + n ≤ T) (hval : ∀ j, j < n → f (p + j) = val.testBit (n - 1 - j)) :
    ∃ b s', storeOr s.b s.bufOffset
        (((val >>> (n - c)) &&& (1 <<< c - 1)) <<< (s.remainingBits - c)) = .ok b ∧
      BitWriter.advance (MASK_PAYLOAD_HEADER_SIZE + (T + 7) / 8) (n - c)
        { s with b, remainingBits := s.remainingBits - c } = .ok s' ∧
      WriterAt f hdr T (p + c) s' := by
  have hrem := hs.remainingBits_eq
  have hoff : s.bufOffset < s.b.length := by rw [hs.length_eq, hs.bufOffset_eq]; omega
  obtain ⟨s', hadv, hat⟩ := advance_writerAt (f := f) (T := T) (p := p + c) (k := n - c)
    (o := s.bufOffset)
    (b := s.b.set s.bufOffset (orByte (s.b.getD s.bufOffset 0)
      (((val >>> (n - c)) &&& (1 <<< c - 1)) <<< (s.remainingBits - c))))
    (by rw [List.length_set, hs.length_eq])
    (by rw [take_set_of_le _ (by rw [hs.bufOffset_eq]; omega), hs.header])
    (by omega) (by omega) (by rw [hs.bufOffset_eq]; omega) (by
      intro q hq hqT
      rw [msbAt_header, getD_set _ _ _ _ hoff, hs.bufOffset_eq]
      by_cases hbyte : q / 8 = p / 8
      · have hold := hs.written q (by omega) hqT
        rw [msbAt_header] at hold
        rw [if_pos (by omega), testBit_orByte, testBit_chunk, ← hbyte, hold,
          decide_eq_true (show 7 - q % 8 < 8 by omega), Bool.true_and]
        by_cases hqp : q < p
        · simp [hqp, show q < p + c by omega, show ¬ 7 - q % 8 - (s.remainingBits - c) < c by omega]
        · by_cases hqc : q < p + c
          · have hv := hval (q - p) (by omega)
            rw [show p + (q - p) = q by omega] at hv
            simp only [hqp, hqc, decide_true, decide_false, Bool.true_and, Bool.false_and,
              Bool.false_or, show s.remainingBits - c ≤ 7 - q % 8 by omega,
              show 7 - q % 8 - (s.remainingBits - c) < c by omega]
            rw [hv]
            congr 1
            omega
          · simp [hqp, hqc, show ¬ s.remainingBits - c ≤ 7 - q % 8 by omega]
      · rw [if_neg (by omega), ← msbAt_header, hs.written q (by omega) hqT]
        simp [show q < p by omega, show q < p + c by omega])
  -- after a full byte the writer stands at the next one
  have hleft : s.remainingBits - c = (8 - (p + c) % 8) % 8 := by omega
  refine ⟨_, s', storeOr_ok _ hoff, ?_, hat⟩
  rw [hleft] at hadv ⊢
  exact hadv

theorem writeLoop_writerAt {f : ℕ → Bool} {hdr : Buffer} {T val : ℕ} (fuel : ℕ) {p n : ℕ}
    {s : BitWriter} (hs : WriterAt f hdr T p s) (hn : 0 < n) (hfuel : n ≤ fuel) (hT : p + n ≤ T)
    (hval : ∀ j, j < n → f (p + j) = val.testBit (n - 1 - j)) :
    ∃ s', BitWriter.writeLoop (MASK_PAYLOAD_HEADER_SIZE + (T + 7) / 8) val fuel n s = .ok s' ∧
      WriterAt f hdr T (p + n) s' := by
  induction fuel generalizing p n s with
  | zero => omega
  | succ fuel ih =>
    have hrem := hs.remainingBits_eq
    rw [BitWriter.writeLoop]
    -- the rest of the value fits into this byte, or the byte is filled up first
    by_cases hfit : s.remainingBits ≥ n
    · obtain ⟨b, s', hstore, hadv, hat⟩ := hs.put hn (le_refl n) hfit hT hval
      rw [Nat.sub_self, Nat.shiftRight_zero] at hstore
      rw [Nat.sub_self] at hadv
      refine ⟨s', ?_, hat⟩
      rw [if_pos hfit]
      simp only [hstore]
      exact hadv
    · obtain ⟨b, s', hstore, hadv, hat⟩ :=
        hs.put (c := s.remainingBits) (n := n) (by omega) (by omega) (le_refl _) hT hval
      rw [Nat.sub_self, Nat.shiftLeft_zero] at hstore
      rw [Nat.sub_self] at hadv
      have hval' : ∀ j, j < n - s.remainingBits →
          f (p + s.remainingBits + j) = val.testBit (n - s.remainingBits - 1 - j) := by
        intro j hj
        rw [Nat.add_assoc, hval _ (by omega)]
        congr 1
        omega
      obtain ⟨s'', hloop, hat'⟩ := ih hat (by omega) (by omega) (by omega) hval'
      refine ⟨s'', ?_, ?_⟩
      · rw [if_neg hfit]
        simp only [hstore]
        change (BitWriter.advance _ _ _ >>= _) = _
        rw [hadv]
        exact hloop
      · rwa [show p + n = p + s.remainingBits + (n - s.remainingBits) by omega]

/-- The properties of the payload of the runs `rs`, each of which fits `N` bits. -/
structure FieldsOf (props : MaskRunLengthProperties) (N : ℕ) (rs : List ℕ) : Prop where
  width : props.numBitsPerInt = N
  width_pos : 0 < N
  bufSize : props.bufSize = MASK_PAYLOAD_HEADER_SIZE + (N * rs.length + 7) / 8

variable {props : MaskRunLengthProperties} {N : ℕ} {hdr : Buffer}

theorem writeCounter_writerAt {r : ℕ} {done rest : List ℕ}
    (hp : FieldsOf props N (done ++ r :: rest)) {s : BitWriter}
    (hs : WriterAt (fieldBit N (done ++ r :: rest)) hdr (N * (done ++ r :: rest).length)
      (N * done.length) s) :
    ∃ s', s.writeCounter props r = .ok s' ∧
      WriterAt (fieldBit N (done ++ r :: rest)) hdr (N * (done ++ r :: rest).length)
        (N * (done.length + 1)) s' := by
  have hT : N * done.length + N ≤ N * (done ++ r :: rest).length := by
    rw [← Nat.mul_add_one]
    apply Nat.mul_le_mul_left
    simp
  rw [BitWriter.writeCounter, hp.bufSize, hp.width, Nat.mul_add_one]
  exact writeLoop_writerAt (N + 1) hs hp.width_pos (Nat.le_succ N) hT
    fun j hj => fieldBit_field done r rest hj

/-- The loop over the values and the last `writeCounter` write the runs that are left. -/
theorem foldlM_runEncoder (xs : List Bool) {done : List ℕ} {s : RunEncoder}
    (hp : FieldsOf props N (done ++ runLengths s.currentSign s.counter xs))
    (hs : WriterAt (fieldBit N (done ++ runLengths s.currentSign s.counter xs)) hdr
      (N * (done ++ runLengths s.currentSign s.counter xs).length) (N * done.length) s.w) :
    ∃ w, (xs.foldlM (RunEncoder.step props) s >>= fun t => t.w.writeCounter props t.counter) =
        .ok w ∧
      WriterAt (fieldBit N (done ++ runLengths s.currentSign s.counter xs)) hdr
        (N * (done ++ runLengths s.currentSign s.counter xs).length)
        (N * (done ++ runLengths s.currentSign s.counter xs).length) w := by
  induction xs generalizing done s with
  | nil =>
    obtain ⟨w, hw, hat⟩ := writeCounter_writerAt hp hs
    refine ⟨w, hw, ?_⟩
    simpa [runLengths] using hat
  | cons x xs ih =>
    by_cases hx : x = s.currentSign
    · have hstep : RunEncoder.step props s x = .ok { s with counter := s.counter + 1 } := if_pos hx
      rw [runLengths, if_pos hx] at *
      rw [List.foldlM_cons, hstep]
      exact ih hp hs
    · rw [runLengths, if_neg hx] at *
      obtain ⟨w, hw, hat⟩ := writeCounter_writerAt hp hs
      have hstep : RunEncoder.step props s x = .ok { counter := 1, currentSign := x, w } := by
        rw [RunEncoder.step, if_neg hx, hw]
        rfl
      have happ : done ++ s.counter :: runLengths x 1 xs =
          (done ++ [s.counter]) ++ runLengths x 1 xs := by simp
      rw [happ] at hp hat ⊢
      rw [List.foldlM_cons, hstep]
      exact ih (s := { counter := 1, currentSign := x, w }) hp
        (by simpa using hat)

theorem encodeMaskRunLength_of_lt (mem : ℕ → UInt8) {mask : List Bool}
    (hn : mask.length < 2 ^ 32) : encodeMaskRunLength mem mask =
      encodeMaskRunLengthWith mem mask (computeMaskRunLengthProperties mask) := by
  rw [encodeMaskRunLength, measureRuns, if_pos hn]
  rfl

theorem encodeMask_of_lt (mem : ℕ → UInt8) {mask : List Bool} (hn : mask.length < 2 ^ 32) :
    encodeMask mem mask =
      if computeBufferSizeMaskBitMask mask.length < (computeMaskRunLengthProperties mask).bufSize
      then encodeMaskBitMask mem mask else encodeMaskRunLength mem mask := by
  rw [encodeMask, measureRuns, if_pos hn, encodeMaskRunLength_of_lt mem hn]
  rfl

/-- The header written by `encodeMaskRunLength`. -/
def runLengthHeader (n : ℕ) (props : MaskRunLengthProperties) : MaskPayloadHeader where
  format := .runLength
  numBits := n
  runLengthNumBitsPerInt := props.numBitsPerInt
  runLengthStartValue := props.startValue

theorem encodeMaskRunLength_written (mem : ℕ → UInt8) (v : Bool) (xs : List Bool)
    (hn : (v :: xs).length < 2 ^ 32) :
    ∃ b, encodeMaskRunLength mem (v :: xs) = .ok b ∧
      b.length = (computeMaskRunLengthProperties (v :: xs)).bufSize ∧
      encodeMaskPayloadHeader
          (runLengthHeader (v :: xs).length (computeMaskRunLengthProperties (v :: xs))) =
        .ok (b.take MASK_PAYLOAD_HEADER_SIZE) ∧
      decodeMaskPayloadHeader b =
        .ok (runLengthHeader (v :: xs).length (computeMaskRunLengthProperties (v :: xs))) ∧
      let T := (computeMaskRunLengthProperties (v :: xs)).numBitsPerInt * (runLengths v 1 xs).length
      ∀ q, q / 8 < (T + 7) / 8 → msbAt b (8 * MASK_PAYLOAD_HEADER_SIZE + q) = (decide (q < T) &&
        fieldBit (computeMaskRunLengthProperties (v :: xs)).numBitsPerInt (runLengths v 1 xs) q) :=
    by
  obtain ⟨hstart, hnum, hN1, hN32, -, hsize⟩ :=
    computeMaskRunLengthProperties_spec v xs (k := 32) (by decide) hn
  rw [encodeMaskRunLength_of_lt mem hn]
  generalize computeMaskRunLengthProperties (v :: xs) = props at *
  have hfields : FieldsOf props props.numBitsPerInt ([] ++ runLengths v 1 xs) :=
    ⟨rfl, hN1, by rw [hsize, hnum, List.nil_append]⟩
  have hcanon : (runLengthHeader (v :: xs).length props).Canonical :=
    ⟨by simp only [runLengthHeader]; omega, fun _ => ⟨hN1, by simp only [runLengthHeader]; omega⟩,
      (fun h => nomatch h)⟩
  obtain ⟨header, henc, hdrlen, hdec⟩ := encodeMaskPayloadHeader_decode hcanon
  obtain ⟨b₀, hcopy, hlen₀, htake₀⟩ := copyFront_allocate mem
    (show header.length ≤ props.bufSize by omega)
  have hpos : 0 < props.numBitsPerInt * (runLengths v 1 xs).length :=
    Nat.mul_pos hN1 (List.length_pos_iff.mpr (runLengths_ne_nil v 1 xs))
  rw [hnum] at hsize
  have hfirst : MASK_PAYLOAD_HEADER_SIZE < b₀.length := by omega
  have hw₀ : WriterAt (fieldBit props.numBitsPerInt ([] ++ runLengths v 1 xs)) header
      (props.numBitsPerInt * ([] ++ runLengths v 1 xs).length)
      (props.numBitsPerInt * ([] : List ℕ).length)
      { b := b₀.set MASK_PAYLOAD_HEADER_SIZE 0, bufOffset := MASK_PAYLOAD_HEADER_SIZE,
        remainingBits := 8 } := by
    refine ⟨by simp [hlen₀, hsize], ?_, by simp, by simp, ?_⟩
    · simp only
      rw [take_set_of_le _ (le_refl _), ← hdrlen, htake₀]
    · intro q hq hqT
      have hq8 : q / 8 = 0 := by simpa using hq
      rw [msbAt_header, hq8, Nat.add_zero, getD_set _ _ _ _ hfirst, if_pos rfl]
      simp
  obtain ⟨w, hrun, hat⟩ := foldlM_runEncoder xs
    (s := { counter := 1, currentSign := v, w := _ }) hfields hw₀
  simp only [List.nil_append] at hat
  refine ⟨w.b, ?_, by rw [hat.length_eq, hsize], henc.trans (congrArg _ hat.header.symm),
    decodeMaskPayloadHeader_of_take hdec hat.header, ?_⟩
  · rw [encodeMaskRunLengthWith]
    change (encodeMaskPayloadHeader (runLengthHeader (v :: xs).length props) >>= _) = _
    rw [henc]
    change (copyFront (allocate mem _) header >>= _) = _
    rw [hcopy]
    change (store b₀ MASK_PAYLOAD_HEADER_SIZE 0 >>= _) = _
    rw [store_ok _ hfirst, hstart]
    change (xs.foldlM (RunEncoder.step props) _ >>= fun s =>
      s.w.writeCounter props s.counter >>= fun w => Except.ok w.b) = _
    rw [← bind_assoc, hrun]
    rfl
  · intro T q hq
    exact hat.written q (by omega) hq

end Multio.Domain
