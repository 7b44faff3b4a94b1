import Multio.Domain.BitMaskCodec
import Multio.Util.Exception

namespace Multio.Domain
open BitField Exception

/-- A field after it has been a 32-bit `int` and been converted to `std::size_t`. -/
def readRun (x : ℕ) : ℕ := ((BitVec.ofNat 32 x).signExtend 64).toNat

theorem intShiftLeft_eq_readRun {x n : ℕ} (hdef : shiftDefined x n = true) :
    intShiftLeft x n = .ok (readRun (x <<< n)) := by
  have hshift : BitVec.ofNat 32 x <<< n = BitVec.ofNat 32 (x <<< n) := by
    apply BitVec.eq_of_toNat_eq
    rw [BitVec.toNat_shiftLeft, BitVec.toNat_ofNat, BitVec.toNat_ofNat, Nat.shiftLeft_eq,
      Nat.shiftLeft_eq, Nat.mod_mul_mod]
  rw [intShiftLeft, if_pos hdef, readRun, hshift]

theorem intShiftLeft_undefined {x n : ℕ} (hdef : shiftDefined x n = false) :
    intShiftLeft x n = .error .undefinedShift :=
  if_neg (by rw [hdef]; exact Bool.false_ne_true)

/-- The left shifts of `readLoop` by the bits still to come, all defined; the shifts that cut a
byte stay within it. -/
def RunLengthIterator.shiftsDefined (payload : Buffer) : ℕ → ℕ → UInt8 → ℕ → ℕ → Bool
  | 0, _, _, _, _ => true
  | fuel + 1, numBitsToRead, b, runLengthOffset, runLengthRemainingBits =>
    if runLengthRemainingBits ≥ numBitsToRead then true
    else
      let nextNumBitsToRead := numBitsToRead - runLengthRemainingBits
      shiftDefined (b.toNat &&& (1 <<< runLengthRemainingBits - 1)) nextNumBitsToRead &&
        if runLengthOffset + 1 ≥ payload.length then true
        else RunLengthIterator.shiftsDefined payload fuel nextNumBitsToRead
          (payload.getD (runLengthOffset + 1) 0) (runLengthOffset + 1) 8

/-- The call of `updateValue` executes no undefined shift. -/
def RunLengthIterator.updateDefined (payload : Buffer) (h : MaskPayloadHeader)
    (s : RunLengthIterator) : Bool :=
  if (s.index + s.val.2) % 2 ^ 64 ≥ h.numBits then true
  else RunLengthIterator.shiftsDefined payload (h.runLengthNumBitsPerInt + 1)
    h.runLengthNumBitsPerInt (payload.getD s.runLengthOffset 0) s.runLengthOffset
    s.runLengthRemainingBits

theorem readRun_or (x y : ℕ) : readRun (x ||| y) = readRun x ||| readRun y := by
  rw [readRun, BitVec.ofNat_or, BitVec.signExtend_or, BitVec.toNat_or]
  rfl

theorem readRun_of_lt {x : ℕ} (h : x < 2 ^ 31) : readRun x = x := by
  have hval : (BitVec.ofNat 32 x).toNat = x := by
    rw [BitVec.toNat_ofNat, Nat.mod_eq_of_lt (by omega)]
  have hmsb : (BitVec.ofNat 32 x).msb = false := by
    rw [BitVec.msb_eq_decide, hval]
    simp only [decide_eq_false_iff_not]
    omega
  rw [readRun, BitVec.signExtend_eq_setWidth_of_msb_false hmsb, BitVec.toNat_setWidth, hval,
    Nat.mod_eq_of_lt (by omega)]

theorem readRun_lt (x : ℕ) : readRun x < 2 ^ 64 := BitVec.isLt _

/-- The reader after `p` bits of the body; behind the last byte only its place is known. -/
structure ReaderAt (payload : Buffer) (p : ℕ) (s : RunLengthIterator) : Prop where
  offset_eq : s.runLengthOffset = min (MASK_PAYLOAD_HEADER_SIZE + p / 8) payload.length
  remaining_eq : MASK_PAYLOAD_HEADER_SIZE + p / 8 < payload.length →
    s.runLengthRemainingBits = 8 - p % 8

/-- The `c` bits of a byte that stand above its low `s` bits, and nothing else. -/
theorem testBit_extract (x c s j : ℕ) :
    ((x &&& ((1 <<< c - 1) <<< s)) >>> s).testBit j = (decide (j < c) && x.testBit (s + j)) := by
  rw [Nat.testBit_shiftRight, Nat.testBit_and, Nat.testBit_shiftLeft, Nat.one_shiftLeft,
    Nat.testBit_two_pow_sub_one, Nat.add_sub_cancel_left, decide_eq_true (Nat.le_add_right s j),
    Bool.true_and, Bool.and_comm]

variable {payload : Buffer}

theorem field_byte {p n : ℕ} (hn : n ≤ 8 - p % 8) :
    ((payload.getD (MASK_PAYLOAD_HEADER_SIZE + p / 8) 0).toNat &&&
        ((1 <<< n - 1) <<< (8 - p % 8 - n))) >>> (8 - p % 8 - n) =
      field payload (8 * MASK_PAYLOAD_HEADER_SIZE + p) n := by
  apply Nat.eq_of_testBit_eq
  intro j
  rw [testBit_extract, testBit_field, msbAt]
  by_cases hj : j < n
  · rw [decide_eq_true hj, Bool.true_and, Bool.true_and]
    rw [show (8 * MASK_PAYLOAD_HEADER_SIZE + p + (n - 1 - j)) / 8 =
      MASK_PAYLOAD_HEADER_SIZE + p / 8 by omega]
    congr 1
    omega
  · rw [decide_eq_false hj, Bool.false_and, Bool.false_and]

theorem field_byte_rest (p : ℕ) :
    (payload.getD (MASK_PAYLOAD_HEADER_SIZE + p / 8) 0).toNat &&& (1 <<< (8 - p % 8) - 1) =
      field payload (8 * MASK_PAYLOAD_HEADER_SIZE + p) (8 - p % 8) := by
  rw [← field_byte (le_refl _), Nat.sub_self, Nat.shiftLeft_zero, Nat.shiftRight_zero]

theorem shiftDefined_field (payload : Buffer) (q : ℕ) {c k : ℕ} (hk : c + k < 33) (hc : 0 < c) :
    shiftDefined (field payload q c) k = true := by
  have hlt : field payload q c <<< k < 2 ^ 32 := by
    rw [Nat.shiftLeft_eq]
    calc field payload q c * 2 ^ k < 2 ^ c * 2 ^ k := by
          apply Nat.mul_lt_mul_of_pos_right (field_lt _ _ _) (Nat.two_pow_pos _)
      _ = 2 ^ (c + k) := (Nat.pow_add ..).symm
      _ ≤ 2 ^ 32 := Nat.pow_le_pow_right (by omega) (by omega)
  rw [shiftDefined, decide_eq_true hlt, decide_eq_true (by omega), Bool.and_self]

/-- A field of at most 32 bits is shifted within `int` from wherever it starts. -/
theorem shiftsDefined_of_le (fuel : ℕ) {p n : ℕ} (hn : n ≤ 32) :
    RunLengthIterator.shiftsDefined payload fuel n
      (payload.getD (MASK_PAYLOAD_HEADER_SIZE + p / 8) 0) (MASK_PAYLOAD_HEADER_SIZE + p / 8)
      (8 - p % 8) = true := by
  induction fuel generalizing p n with
  | zero => rfl
  | succ fuel ih =>
    rw [RunLengthIterator.shiftsDefined]
    by_cases hfit : 8 - p % 8 ≥ n
    · rw [if_pos hfit]
    · rw [if_neg hfit, field_byte_rest]
      have hdef : shiftDefined (field payload (8 * MASK_PAYLOAD_HEADER_SIZE + p) (8 - p % 8))
          (n - (8 - p % 8)) = true := shiftDefined_field _ _ (by omega) (by omega)
      simp only [hdef, Bool.true_and]
      split_ifs with hend
      · rfl
      · have hnext := @ih (p + (8 - p % 8)) (n - (8 - p % 8)) (by omega)
        rw [show (p + (8 - p % 8)) / 8 = p / 8 + 1 by omega,
          show (p + (8 - p % 8)) % 8 = 0 by omega] at hnext
        exact hnext

/-- `updateValue`'s loop reads the next `n` bits of the body, unless it comes to a shift without
meaning. -/
theorem readLoop_field (fuel : ℕ) {p n : ℕ} {s : RunLengthIterator} (hs : ReaderAt payload p s)
    (hin : MASK_PAYLOAD_HEADER_SIZE + p / 8 < payload.length) (hn : 0 < n) (hfuel : n ≤ fuel)
    (hdef : RunLengthIterator.shiftsDefined payload fuel n
      (payload.getD (MASK_PAYLOAD_HEADER_SIZE + p / 8) 0) (MASK_PAYLOAD_HEADER_SIZE + p / 8)
      (8 - p % 8) = true) :
    ∃ s', RunLengthIterator.readLoop payload fuel n (payload.getD s.runLengthOffset 0) s = .ok s' ∧
      ReaderAt payload (p + n) s' ∧ s'.index = s.index ∧
      s'.val = (s.val.1, s.val.2 |||
        readRun (field payload (8 * MASK_PAYLOAD_HEADER_SIZE + p) n)) := by
  -- each turn reads what is left of one byte
  induction fuel generalizing p n s with
  | zero => omega
  | succ fuel ih =>
    have hoff := hs.offset_eq
    have hrem := hs.remaining_eq hin
    rw [min_eq_left hin.le] at hoff
    rw [RunLengthIterator.shiftsDefined] at hdef
    rw [RunLengthIterator.readLoop, hoff]
    by_cases hfit : s.runLengthRemainingBits ≥ n
    · -- the field ends in this byte
      have hsmall : field payload (8 * MASK_PAYLOAD_HEADER_SIZE + p) n < 2 ^ 31 :=
        (field_lt _ _ n).trans (Nat.pow_lt_pow_right (by omega) (by omega))
      simp only [if_pos hfit, ok_bind, gt_iff_lt, Nat.lt_irrefl, if_false]
      rw [hrem] at hfit ⊢
      rw [field_byte hfit, readRun_of_lt hsmall]
      by_cases hzero : 8 - p % 8 - n = 0
      · rw [if_pos hzero]
        by_cases hend : MASK_PAYLOAD_HEADER_SIZE + p / 8 + 1 ≥ payload.length
        · rw [if_pos hend]
          exact ⟨_, rfl, ⟨by simp only; omega, fun hlt => by omega⟩, rfl, rfl⟩
        · rw [if_neg hend, load_ok (by omega)]
          exact ⟨_, rfl, ⟨by simp only; omega, fun _ => by simp only; omega⟩, rfl, rfl⟩
      · rw [if_neg hzero]
        exact ⟨_, rfl, ⟨by simp only; omega, fun _ => by simp only; omega⟩, rfl, rfl⟩
    · -- all that remains of this byte, then on to the next one
      have hfit' : ¬ 8 - p % 8 ≥ n := hrem ▸ hfit
      rw [if_neg hfit'] at hdef
      simp only [Bool.and_eq_true] at hdef
      simp only [if_neg hfit]
      rw [hrem, intShiftLeft_eq_readRun hdef.1, field_byte_rest,
        field_split payload _ (show 8 - p % 8 ≤ n by omega), readRun_or]
      simp only [ok_bind, if_true]
      by_cases hend : MASK_PAYLOAD_HEADER_SIZE + p / 8 + 1 ≥ payload.length
      · rw [if_pos hend]
        refine ⟨_, rfl, ⟨by simp only; omega, fun hlt => by omega⟩, rfl, ?_⟩
        have hbehind : 8 * payload.length ≤ 8 * MASK_PAYLOAD_HEADER_SIZE + p + (8 - p % 8) := by
          omega
        have hzero : readRun 0 = 0 := rfl
        rw [field_eq_zero hbehind, hzero, Nat.or_zero]
      · have hnext := hdef.2
        rw [if_neg hend] at hnext
        rw [if_neg hend, load_ok (by omega)]
        obtain ⟨s', hloop, hat, hidx, hval⟩ := ih (p := p + (8 - p % 8)) (n := n - (8 - p % 8))
          (s := { s with
            val := (s.val.1, s.val.2 ||| readRun
              (field payload (8 * MASK_PAYLOAD_HEADER_SIZE + p) (8 - p % 8) <<< (n - (8 - p % 8))))
            runLengthOffset := MASK_PAYLOAD_HEADER_SIZE + p / 8 + 1, runLengthRemainingBits := 8 })
          ⟨by simp only; omega, fun _ => by simp only; omega⟩ (by omega) (by omega) (by omega)
          (by rwa [show (p + (8 - p % 8)) / 8 = p / 8 + 1 by omega,
            show (p + (8 - p % 8)) % 8 = 0 by omega])
        refine ⟨s', ?_, by rwa [show p + n = p + (8 - p % 8) + (n - (8 - p % 8)) by omega], hidx,
          ?_⟩
        · change (if 0 < n - (8 - p % 8) then _ else _) = _
          rw [if_pos (by omega)]
          exact hloop
        · rw [hval]
          simp only [Nat.or_assoc, Nat.add_assoc]

theorem readLoop_undefined (fuel : ℕ) {p n : ℕ} {s : RunLengthIterator} (hs : ReaderAt payload p s)
    (hin : MASK_PAYLOAD_HEADER_SIZE + p / 8 < payload.length) (hn : 0 < n)
    (hdef : RunLengthIterator.shiftsDefined payload fuel n
      (payload.getD (MASK_PAYLOAD_HEADER_SIZE + p / 8) 0) (MASK_PAYLOAD_HEADER_SIZE + p / 8)
      (8 - p % 8) = false) :
    RunLengthIterator.readLoop payload fuel n (payload.getD s.runLengthOffset 0) s =
      .error .undefinedShift := by
  induction fuel generalizing p n s with
  | zero => cases hdef
  | succ fuel ih =>
    have hoff := hs.offset_eq
    have hrem := hs.remaining_eq hin
    rw [min_eq_left hin.le] at hoff
    rw [RunLengthIterator.shiftsDefined] at hdef
    -- the first shift that is not defined is met after those that are
    split_ifs at hdef with hfit hend
    · rw [Bool.and_true] at hdef
      rw [RunLengthIterator.readLoop, hoff, hrem, if_neg hfit]
      simp only [intShiftLeft_undefined hdef]
      rfl
    · rw [RunLengthIterator.readLoop, hoff, hrem, if_neg hfit]
      cases hfirst : shiftDefined ((payload.getD (MASK_PAYLOAD_HEADER_SIZE + p / 8) 0).toNat &&&
          (1 <<< (8 - p % 8) - 1)) (n - (8 - p % 8)) with
      | false =>
        simp only [intShiftLeft_undefined hfirst]
        rfl
      | true =>
        simp only [hfirst, Bool.true_and] at hdef
        simp only [intShiftLeft_eq_readRun hfirst, ok_bind, if_true]
        rw [if_neg hend, load_ok (by omega), ok_bind, if_pos (by omega)]
        set bits := readRun (((payload.getD (MASK_PAYLOAD_HEADER_SIZE + p / 8) 0).toNat &&&
          (1 <<< (8 - p % 8) - 1)) <<< (n - (8 - p % 8)))
        refine ih (p := p + (8 - p % 8)) (n := n - (8 - p % 8))
          (s := { s with
            val := (s.val.1, s.val.2 ||| bits)
            runLengthOffset := MASK_PAYLOAD_HEADER_SIZE + p / 8 + 1, runLengthRemainingBits := 8 })
          ⟨by simp only; omega, fun _ => by simp only; omega⟩ (by omega) (by omega) ?_
        rwa [show (p + (8 - p % 8)) / 8 = p / 8 + 1 by omega,
          show (p + (8 - p % 8)) % 8 = 0 by omega]

variable {h : MaskPayloadHeader} {p : ℕ} {s : RunLengthIterator}

theorem updateValue_atEnd (hend : h.numBits ≤ (s.index + s.val.2) % 2 ^ 64) :
    s.updateValue payload h = .ok { s with index := (s.index + s.val.2) % 2 ^ 64 } := by
  simp only [RunLengthIterator.updateValue]
  rw [if_pos hend]

theorem updateDefined_eq (hs : ReaderAt payload p s)
    (hin : MASK_PAYLOAD_HEADER_SIZE + p / 8 < payload.length)
    (hlt : (s.index + s.val.2) % 2 ^ 64 < h.numBits) :
    s.updateDefined payload h = RunLengthIterator.shiftsDefined payload
      (h.runLengthNumBitsPerInt + 1) h.runLengthNumBitsPerInt
      (payload.getD (MASK_PAYLOAD_HEADER_SIZE + p / 8) 0) (MASK_PAYLOAD_HEADER_SIZE + p / 8)
      (8 - p % 8) := by
  have hoff := hs.offset_eq
  rw [min_eq_left hin.le] at hoff
  rw [RunLengthIterator.updateDefined, if_neg (Nat.not_le.mpr hlt), hoff, hs.remaining_eq hin]

/-- The next run has the other value, and one point more than its field says. -/
theorem updateValue_field (hs : ReaderAt payload p s) (hwidth : 0 < h.runLengthNumBitsPerInt)
    (hin : MASK_PAYLOAD_HEADER_SIZE + p / 8 < payload.length)
    (hlt : (s.index + s.val.2) % 2 ^ 64 < h.numBits) (hdef : s.updateDefined payload h = true) :
    ∃ s', s.updateValue payload h = .ok s' ∧
      ReaderAt payload (p + h.runLengthNumBitsPerInt) s' ∧
      s'.index = (s.index + s.val.2) % 2 ^ 64 ∧
      s'.val = (!s.val.1, (readRun (field payload (8 * MASK_PAYLOAD_HEADER_SIZE + p)
        h.runLengthNumBitsPerInt) + 1) % 2 ^ 64) := by
  have hoff := hs.offset_eq
  rw [min_eq_left hin.le] at hoff
  rw [updateDefined_eq hs hin hlt] at hdef
  obtain ⟨s', hloop, hat, hidx, hval⟩ := readLoop_field (h.runLengthNumBitsPerInt + 1)
    (n := h.runLengthNumBitsPerInt)
    (s := { s with index := (s.index + s.val.2) % 2 ^ 64, val := (s.val.1, 0) })
    ⟨hs.offset_eq, hs.remaining_eq⟩ hin hwidth (Nat.le_succ _) hdef
  simp only [Nat.zero_or] at hval
  refine ⟨{ s' with val := (!s'.val.1, (s'.val.2 + 1) % 2 ^ 64) }, ?_,
    ⟨hat.offset_eq, hat.remaining_eq⟩, hidx, by simp only [hval]⟩
  simp only [RunLengthIterator.updateValue]
  rw [if_neg (Nat.not_le.mpr hlt), load_ok (by omega)]
  change (RunLengthIterator.readLoop payload _ _ _ _ >>= _) = _
  rw [hloop]
  rfl

theorem updateValue_undefined (hs : ReaderAt payload p s) (hwidth : 0 < h.runLengthNumBitsPerInt)
    (hin : MASK_PAYLOAD_HEADER_SIZE + p / 8 < payload.length)
    (hlt : (s.index + s.val.2) % 2 ^ 64 < h.numBits) (hdef : s.updateDefined payload h = false) :
    s.updateValue payload h = .error .undefinedShift := by
  have hoff := hs.offset_eq
  rw [min_eq_left hin.le] at hoff
  rw [updateDefined_eq hs hin hlt] at hdef
  have hloop := readLoop_undefined (h.runLengthNumBitsPerInt + 1)
    (n := h.runLengthNumBitsPerInt)
    (s := { s with index := (s.index + s.val.2) % 2 ^ 64, val := (s.val.1, 0) })
    ⟨hs.offset_eq, hs.remaining_eq⟩ hin hwidth hdef
  simp only [RunLengthIterator.updateValue]
  rw [if_neg (Nat.not_le.mpr hlt), load_ok (by omega)]
  change (RunLengthIterator.readLoop payload _ _ _ _ >>= _) = _
  rw [hloop]
  rfl

theorem updateDefined_of_le (hs : ReaderAt payload p s)
    (hin : MASK_PAYLOAD_HEADER_SIZE + p / 8 < payload.length)
    (hlt : (s.index + s.val.2) % 2 ^ 64 < h.numBits) (hwidth : h.runLengthNumBitsPerInt ≤ 32) :
    s.updateDefined payload h = true := by
  rw [updateDefined_eq hs hin hlt]
  exact shiftsDefined_of_le _ hwidth

theorem updateValue_outside (hs : ReaderAt payload p s)
    (hout : payload.length ≤ MASK_PAYLOAD_HEADER_SIZE + p / 8)
    (hlt : (s.index + s.val.2) % 2 ^ 64 < h.numBits) :
    s.updateValue payload h = .error (.outOfBounds payload.length payload.length) := by
  have hoff := hs.offset_eq
  rw [min_eq_right hout] at hoff
  simp only [RunLengthIterator.updateValue]
  rw [if_neg (Nat.not_le.mpr hlt), load, hoff, if_neg (Nat.lt_irrefl _)]
  rfl

end Multio.Domain
