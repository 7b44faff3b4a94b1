import Multio.Domain.RunLengthEncoder

namespace Multio.Domain
open BitField RunLength

/-- An encoder that writes inside of its buffer only, whose assertions hold, and that leaves no
byte as it was allocated: what it returns does not depend on the memory it was given. -/
structure Disciplined (encode : (ℕ → UInt8) → Except MaskError Buffer) : Prop where
  inBounds : ∀ mem offset size, encode mem ≠ .error (.outOfBounds offset size)
  asserted : ∀ mem what, encode mem ≠ .error (.assertion what)
  terminates : ∀ mem, encode mem ≠ .error .nonTermination
  initialised : ∀ mem mem', encode mem = encode mem'

variable {encode : (ℕ → UInt8) → Except MaskError Buffer} {mask : List Bool}

theorem disciplined_of_ok (hok : ∀ mem, ∃ b, encode mem = .ok b)
    (huniq : ∀ mem mem' b b', encode mem = .ok b → encode mem' = .ok b' → b = b') :
    Disciplined encode where
  inBounds mem offset size h := by
    obtain ⟨b, hb⟩ := hok mem
    cases hb.symm.trans h
  asserted mem what h := by
    obtain ⟨b, hb⟩ := hok mem
    cases hb.symm.trans h
  terminates mem h := by
    obtain ⟨b, hb⟩ := hok mem
    cases hb.symm.trans h
  initialised mem mem' := by
    obtain ⟨b, hb⟩ := hok mem
    obtain ⟨b', hb'⟩ := hok mem'
    rw [hb, hb', huniq mem mem' b b' hb hb']

/-- Masks that the header has no room for are refused before anything is written. -/
theorem disciplined_of_compression {what : String}
    (h : ∀ mem, encode mem = .error (.compression what)) : Disciplined encode where
  inBounds mem offset size heq := by cases (h mem).symm.trans heq
  asserted mem what heq := by cases (h mem).symm.trans heq
  terminates mem heq := by cases (h mem).symm.trans heq
  initialised mem mem' := by rw [h mem, h mem']

theorem encodeMaskPayloadHeader_tooLong {h : MaskPayloadHeader} (hn : 2 ^ 32 ≤ h.numBits) :
    ∃ what, encodeMaskPayloadHeader h = .error (.compression what) := by
  have hbig : h.numBits > 2 ^ 32 - 1 := by omega
  rw [encodeMaskPayloadHeader]
  cases h.format with
  | bitMask => exact ⟨_, if_pos hbig⟩
  | runLength =>
    by_cases hwidth : h.runLengthNumBitsPerInt > MASK_PAYLOAD_SPARSE_MAX_NUM_BITS
    · simp only [if_pos hwidth]
      exact ⟨_, rfl⟩
    · simp only [if_neg hwidth]
      exact ⟨_, if_pos hbig⟩

theorem eq_of_bits {b b' : Buffer} {n : ℕ} (hlen : b.length = MASK_PAYLOAD_HEADER_SIZE + n)
    (hlen' : b'.length = MASK_PAYLOAD_HEADER_SIZE + n)
    (hhdr : b.take MASK_PAYLOAD_HEADER_SIZE = b'.take MASK_PAYLOAD_HEADER_SIZE)
    (hbits : ∀ i < n, ∀ j < 8,
      (b.getD (MASK_PAYLOAD_HEADER_SIZE + i) 0).toNat.testBit j =
        (b'.getD (MASK_PAYLOAD_HEADER_SIZE + i) 0).toNat.testBit j) : b = b' := by
  rw [← List.take_append_drop MASK_PAYLOAD_HEADER_SIZE b, hhdr]
  conv_rhs => rw [← List.take_append_drop MASK_PAYLOAD_HEADER_SIZE b']
  congr 1
  apply List.ext_getElem
  · rw [List.length_drop, List.length_drop, hlen, hlen']
  · intro i hi hi'
    rw [List.length_drop] at hi
    rw [List.getElem_drop, List.getElem_drop, ← UInt8.toNat_inj]
    apply Nat.eq_of_testBit_eq
    intro j
    by_cases hj : j < 8
    · simpa [List.getD_eq_getElem?_getD, show MASK_PAYLOAD_HEADER_SIZE + i < b.length by omega,
        show MASK_PAYLOAD_HEADER_SIZE + i < b'.length by omega] using hbits i (by omega) j hj
    · rw [testBit_byte_of_le _ (Nat.le_of_not_lt hj), testBit_byte_of_le _ (Nat.le_of_not_lt hj)]

theorem encodeMaskBitMask_disciplined (mask : List Bool) :
    Disciplined fun mem => encodeMaskBitMask mem mask := by
  by_cases hn : mask.length < 2 ^ 32
  · have hsize := computeBufferSizeMaskBitMask_eq mask.length
    apply disciplined_of_ok
    · intro mem
      obtain ⟨b, henc, -⟩ := encodeMaskBitMask_written mem hn
      exact ⟨b, henc⟩
    · intro mem mem' b b' hb hb'
      obtain ⟨c, henc, hlen, hhdr, -, hbits⟩ := encodeMaskBitMask_written mem hn
      obtain ⟨c', henc', hlen', hhdr', -, hbits'⟩ := encodeMaskBitMask_written mem' hn
      obtain rfl := Except.ok.inj (henc.symm.trans hb)
      obtain rfl := Except.ok.inj (henc'.symm.trans hb')
      apply eq_of_bits (hlen.trans hsize) (hlen'.trans hsize)
        (Except.ok.inj (hhdr.symm.trans hhdr'))
      intro i hi j hj
      -- bit `j` of byte `i` is the one of point `8 * i + j`, or padding
      have hbit := hbits (8 * i + j) (by omega)
      rw [← hbits' (8 * i + j) (by omega), lsbAt_header, lsbAt_header,
        show (8 * i + j) / 8 = i by omega, show (8 * i + j) % 8 = j by omega] at hbit
      exact hbit
  · obtain ⟨what, hwhat⟩ := encodeMaskPayloadHeader_tooLong
      (h := { format := .bitMask, numBits := mask.length }) (Nat.le_of_not_lt hn)
    apply @disciplined_of_compression _ what
    intro mem
    rw [encodeMaskBitMask, hwhat]
    rfl

theorem encodeMaskRunLength_disciplined {v : Bool} {xs : List Bool}
    (hn : (v :: xs).length < 2 ^ 32) :
    Disciplined fun mem => encodeMaskRunLength mem (v :: xs) := by
  obtain ⟨-, hnum, -, -, -, hsize⟩ :=
    computeMaskRunLengthProperties_spec v xs (k := 32) (by decide) hn
  rw [hnum] at hsize
  apply disciplined_of_ok
  · intro mem
    obtain ⟨b, henc, -⟩ := encodeMaskRunLength_written mem v xs hn
    exact ⟨b, henc⟩
  · intro mem mem' b b' hb hb'
    obtain ⟨c, henc, hlen, hhdr, -, hbits⟩ := encodeMaskRunLength_written mem v xs hn
    obtain ⟨c', henc', hlen', hhdr', -, hbits'⟩ := encodeMaskRunLength_written mem' v xs hn
    obtain rfl := Except.ok.inj (henc.symm.trans hb)
    obtain rfl := Except.ok.inj (henc'.symm.trans hb')
    apply eq_of_bits (hlen.trans hsize) (hlen'.trans hsize)
      (Except.ok.inj (hhdr.symm.trans hhdr'))
    intro i hi j hj
    have hbit := hbits (8 * i + (7 - j)) (by omega)
    rw [← hbits' (8 * i + (7 - j)) (by omega), msbAt_header, msbAt_header,
      show (8 * i + (7 - j)) / 8 = i by omega,
      show 7 - (8 * i + (7 - j)) % 8 = j by omega] at hbit
    exact hbit

theorem encodeMask_disciplined {v : Bool} {xs : List Bool} (hn : (v :: xs).length < 2 ^ 32) :
    Disciplined fun mem => encodeMask mem (v :: xs) := by
  simp only [encodeMask_of_lt _ hn]
  split_ifs
  · exact encodeMaskBitMask_disciplined (v :: xs)
  · exact encodeMaskRunLength_disciplined hn

/-- The loop that measures the runs of a mask that is too long does not end. -/
theorem encodeMaskRunLength_tooLong (mem : ℕ → UInt8) {mask : List Bool}
    (hn : ¬ mask.length < 2 ^ 32) : encodeMaskRunLength mem mask = .error .nonTermination := by
  rw [encodeMaskRunLength, measureRuns, if_neg hn]
  rfl

theorem encodeMaskRunLength_nil (mem : ℕ → UInt8) :
    encodeMaskRunLength mem [] = .error (.outOfBounds 5 0) := rfl

/-- The encoders keep to their buffers and end for every mask but the empty one and those with more
points than an `unsigned int` counts. -/
theorem encoders_disciplined_iff (mask : List Bool) :
    (Disciplined (fun mem => encodeMaskBitMask mem mask) ∧
      Disciplined (fun mem => encodeMaskRunLength mem mask) ∧
      Disciplined fun mem => encodeMask mem mask) ↔ mask ≠ [] ∧ mask.length < 2 ^ 32 := by
  constructor
  · rintro ⟨-, hrun, -⟩
    constructor
    · rintro rfl
      exact hrun.inBounds (fun _ => 0) 5 0 (encodeMaskRunLength_nil _)
    · by_contra hn
      exact hrun.terminates (fun _ => 0) (encodeMaskRunLength_tooLong _ hn)
  · rintro ⟨hne, hn⟩
    obtain ⟨v, xs, rfl⟩ := List.exists_cons_of_ne_nil hne
    exact ⟨encodeMaskBitMask_disciplined _, encodeMaskRunLength_disciplined hn,
      encodeMask_disciplined hn⟩

/-- `encodeMask` takes the run-length format for the empty mask, and writes the header outside. -/
theorem empty_mask_outside_buffer :
    encodeMask (fun _ => 0xFF) [] = .error (.outOfBounds 5 0) ∧
      encodeMaskRunLength (fun _ => 0xFF) [] = .error (.outOfBounds 5 0) ∧
      ¬ (Disciplined (fun mem => encodeMaskBitMask mem []) ∧
        Disciplined (fun mem => encodeMaskRunLength mem []) ∧
        Disciplined fun mem => encodeMask mem []) := by
  refine ⟨rfl, rfl, ?_⟩
  rintro ⟨-, hrun, -⟩
  exact hrun.inBounds (fun _ => 0xFF) 5 0 rfl

end Multio.Domain
