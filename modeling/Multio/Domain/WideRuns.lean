import Multio.Domain.DecoderRobustness

namespace Multio.Domain
open BitField

/-- `updateValue` steps to the next run, whose length is its field plus one. -/
def ReadsField (payload : Buffer) (h : MaskPayloadHeader) (p : ℕ) (s : RunLengthIterator) : Prop :=
  s.updateDefined payload h = true ∧
    ∃ s', s.updateValue payload h = .ok s' ∧
      s'.val = (!s.val.1,
        field payload (8 * MASK_PAYLOAD_HEADER_SIZE + p) h.runLengthNumBitsPerInt + 1)

/-- What is read is the field only below the sign bit of `int`, up to the fields that end in a
word of ones. -/
theorem readRun_eq_iff {x : ℕ} (hx : x < 2 ^ 63) : readRun x = x ↔ x < 2 ^ 31 := by
  constructor
  · intro hread
    by_contra hge
    have hval : (BitVec.ofNat 32 x).toNat = x % 2 ^ 32 := BitVec.toNat_ofNat ..
    by_cases hmsb : (BitVec.ofNat 32 x).msb = true
    · -- the sign fills the upper word
      have hsign : readRun x = x % 2 ^ 32 + (2 ^ 64 - 2 ^ 32) := by
        rw [readRun, BitVec.toNat_signExtend, if_pos hmsb, BitVec.toNat_setWidth, hval]
        omega
      omega
    · have hclear : (BitVec.ofNat 32 x).msb = false := by simpa using hmsb
      have hlow : readRun x = x % 2 ^ 32 := by
        rw [readRun, BitVec.signExtend_eq_setWidth_of_msb_false hclear, BitVec.toNat_setWidth,
          hval]
        omega
      rw [BitVec.msb_eq_decide, hval] at hclear
      simp only [decide_eq_false_iff_not] at hclear
      omega
  · exact readRun_of_lt

variable {payload : Buffer} {p n : ℕ}

/-- The first byte is shifted farthest; behind it all shifts stay within `int`. -/
theorem shiftsDefined_iff (fuel : ℕ) (hn : 8 - p % 8 < n) :
    RunLengthIterator.shiftsDefined payload (fuel + 1) n
        (payload.getD (MASK_PAYLOAD_HEADER_SIZE + p / 8) 0) (MASK_PAYLOAD_HEADER_SIZE + p / 8)
        (8 - p % 8) = true ↔
      n < 32 + (8 - p % 8) ∧
        field payload (8 * MASK_PAYLOAD_HEADER_SIZE + p) (8 - p % 8) <<< (n - (8 - p % 8)) <
          2 ^ 32 := by
  rw [RunLengthIterator.shiftsDefined, if_neg (Nat.not_le.mpr hn), field_byte_rest]
  simp only [shiftDefined, Bool.and_eq_true, decide_eq_true_eq]
  constructor
  · intro hdef
    exact ⟨by omega, hdef.1.2⟩
  · intro hdef
    refine ⟨⟨by omega, hdef.2⟩, ?_⟩
    split_ifs with hend
    · rfl
    · have hnext := @shiftsDefined_of_le payload fuel (p + (8 - p % 8)) (n - (8 - p % 8))
        (by omega)
      rw [show (p + (8 - p % 8)) / 8 = p / 8 + 1 by omega,
        show (p + (8 - p % 8)) % 8 = 0 by omega] at hnext
      exact hnext

/-- The shifts of a field below the sign bit, which has to fit behind its first byte. -/
theorem shiftsDefined_of_field_lt (fuel : ℕ) (hwidth : n < 32 + (8 - p % 8))
    (hfield : field payload (8 * MASK_PAYLOAD_HEADER_SIZE + p) n < 2 ^ 31) :
    RunLengthIterator.shiftsDefined payload (fuel + 1) n
      (payload.getD (MASK_PAYLOAD_HEADER_SIZE + p / 8) 0) (MASK_PAYLOAD_HEADER_SIZE + p / 8)
      (8 - p % 8) = true := by
  by_cases hfit : n ≤ 8 - p % 8
  · exact shiftsDefined_of_le _ (by omega)
  · rw [shiftsDefined_iff fuel (by omega)]
    refine ⟨hwidth, ?_⟩
    rw [field_split payload _ (show 8 - p % 8 ≤ n by omega)] at hfield
    exact (Nat.left_le_or.trans_lt hfield).trans (by norm_num)

variable {h : MaskPayloadHeader} {s : RunLengthIterator}

/-- The iterator reads the field at its place exactly when the field is below the sign bit of
`int` and no wider than an `int` behind its first byte. -/
theorem updateValue_exact_iff (hs : ReaderAt payload p s) (hwidth : 0 < h.runLengthNumBitsPerInt)
    (hin : MASK_PAYLOAD_HEADER_SIZE + p / 8 < payload.length)
    (hlt : (s.index + s.val.2) % 2 ^ 64 < h.numBits) :
    ReadsField payload h p s ↔
      field payload (8 * MASK_PAYLOAD_HEADER_SIZE + p) h.runLengthNumBitsPerInt < 2 ^ 31 ∧
        h.runLengthNumBitsPerInt < 32 + (8 - p % 8) := by
  have hread := readRun_lt
    (field payload (8 * MASK_PAYLOAD_HEADER_SIZE + p) h.runLengthNumBitsPerInt)
  constructor
  · rintro ⟨hdef, t, ht, hlen⟩
    obtain ⟨s', hok, hat, hidx, hval⟩ := updateValue_field hs hwidth hin hlt hdef
    rw [hok, Except.ok.injEq] at ht
    subst ht
    rw [updateDefined_eq hs hin hlt] at hdef
    have hbehind : h.runLengthNumBitsPerInt < 32 + (8 - p % 8) := by
      by_cases hfit : h.runLengthNumBitsPerInt ≤ 8 - p % 8
      · omega
      · exact ((shiftsDefined_iff _ (by omega)).mp hdef).1
    have hsmall : field payload (8 * MASK_PAYLOAD_HEADER_SIZE + p) h.runLengthNumBitsPerInt <
        2 ^ 40 := (field_lt _ _ _).trans_le (Nat.pow_le_pow_right (by omega) (by omega))
    refine ⟨(readRun_eq_iff (by omega)).mp ?_, hbehind⟩
    rw [hval, Prod.mk.injEq] at hlen
    omega
  · rintro ⟨hfield, hbehind⟩
    have hdef : s.updateDefined payload h = true :=
      (updateDefined_eq hs hin hlt).trans (shiftsDefined_of_field_lt _ hbehind hfield)
    obtain ⟨s', hok, hat, hidx, hval⟩ := updateValue_field hs hwidth hin hlt hdef
    refine ⟨hdef, s', hok, ?_⟩
    rw [hval, readRun_of_lt hfield, Nat.mod_eq_of_lt (by omega)]

def halfRangeHeader : MaskPayloadHeader :=
  { format := .runLength, numBits := 2 ^ 32 - 1, runLengthNumBitsPerInt := 32 }

def halfRangeRun : Buffer := [0x9f, 0xff, 0xff, 0xff, 0xff, 0x80, 0, 0, 0]

/-- The iterator before its first `updateValue`. -/
def halfRangeStart : RunLengthIterator :=
  { index := 0, runLengthOffset := MASK_PAYLOAD_HEADER_SIZE, runLengthRemainingBits := 8,
    val := (true, 0) }

def shortRun : Buffer := [0x9f, 0xff, 0xff, 0xff, 0xff, 0, 0, 0, 2]

theorem updateValue_exact_iff_two :
    ReadsField shortRun halfRangeHeader 0 halfRangeStart ↔
      field shortRun (8 * MASK_PAYLOAD_HEADER_SIZE + 0) 32 < 2 ^ 31 ∧ 32 < 32 + (8 - 0 % 8) :=
  updateValue_exact_iff ⟨rfl, fun _ => rfl⟩ (by decide) (by decide) (by decide)

/-- The sign bit of a run of more than 2147483648 points reaches into the upper word. -/
theorem half_range_run_misread :
    decodeMaskPayloadHeader halfRangeRun = .ok halfRangeHeader ∧
      ReaderAt halfRangeRun 0 halfRangeStart ∧
      field halfRangeRun (8 * MASK_PAYLOAD_HEADER_SIZE) 32 + 1 = 2147483649 ∧
      halfRangeStart.updateValue halfRangeRun halfRangeHeader =
        .ok { index := 0, runLengthOffset := 9, runLengthRemainingBits := 0,
              val := (false, 18446744071562067969) } ∧
      ¬ReadsField halfRangeRun halfRangeHeader 0 halfRangeStart := by
  have hrun : halfRangeStart.updateValue halfRangeRun halfRangeHeader =
      .ok { index := 0, runLengthOffset := 9, runLengthRemainingBits := 0,
            val := (false, 18446744071562067969) } := by decide
  refine ⟨by decide, ⟨rfl, fun _ => rfl⟩, by decide, hrun, ?_⟩
  rintro ⟨-, s', hs', hval⟩
  rw [hrun, Except.ok.injEq] at hs'
  subst hs'
  exact absurd hval (by decide)

end Multio.Domain
