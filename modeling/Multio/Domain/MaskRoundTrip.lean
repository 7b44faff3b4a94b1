import Multio.Domain.RunLengthDecoder

namespace Multio.Domain
open RunLength

/-- A buffer that is read back as the header `h` and, through either container, as `mask`. -/
structure DecodesTo (mask : List Bool) (h : MaskPayloadHeader) (b : Buffer) : Prop where
  header : decodeMaskPayloadHeader b = .ok h
  values : ∀ fuel, mask.length ≤ fuel → EncodedBitMaskPayload.values fuel b = .ok (some mask)
  runs : h.format = .runLength → ∃ rs, rs.flatMap (fun r => List.replicate r.2 r.1) = mask ∧
    ∀ fuel, mask.length ≤ fuel → EncodedRunLengthPayload.values fuel b = .ok (some rs)

theorem encodeMaskBitMask_decodes (mem : ℕ → UInt8) {mask : List Bool} (hpos : 0 < mask.length)
    (hlen : mask.length < 2 ^ 32) :
    ∃ b, encodeMaskBitMask mem mask = .ok b ∧
      b.length = computeBufferSizeMaskBitMask mask.length ∧
      DecodesTo mask (bitMaskHeader mask.length) b := by
  obtain ⟨b, henc, hblen, -, hdec, hw⟩ := encodeMaskBitMask_written mem hlen
  refine ⟨b, henc, hblen, hdec, ?_, fun h => nomatch h⟩
  intro fuel hfuel
  exact values_bitMask hpos hblen hdec hw hfuel

theorem encodeMaskRunLength_decodes (mem : ℕ → UInt8) {mask : List Bool} (hpos : 0 < mask.length)
    (hlen : mask.length < 2 ^ 31) :
    ∃ b, encodeMaskRunLength mem mask = .ok b ∧
      b.length = (computeMaskRunLengthProperties mask).bufSize ∧
      DecodesTo mask (runLengthHeader mask.length (computeMaskRunLengthProperties mask)) b := by
  obtain ⟨v, xs, rfl⟩ := List.exists_cons_of_length_pos hpos
  obtain ⟨b, henc, hblen, -, hdec, hbits⟩ := encodeMaskRunLength_written mem v xs (by omega)
  obtain ⟨hstart, hnum, hN1, hN31, hfits, hsize⟩ :=
    computeMaskRunLengthProperties_spec v xs (k := 31) (by decide) hlen
  have hsum : (v :: xs).length = (runLengths v 1 xs).sum := by
    rw [runLengths_sum, List.length_cons, Nat.add_comm]
  have hp : RunPayload (runLengthHeader (v :: xs).length
      (computeMaskRunLengthProperties (v :: xs))) (runLengths v 1 xs) b :=
    { format := rfl
      numBits_eq := hsum
      numBits_lt := hlen
      width_pos := hN1
      width_le := hN31
      pos := runLengths_pos Nat.one_pos xs
      fits := hfits
      holds := ⟨by rw [hblen, hsize, hnum]; rfl, fun q hq => by
        rw [hbits q (by simp only [runLengthHeader] at hq; omega)]
        simp only [runLengthHeader] at hq ⊢
        rw [decide_eq_true hq, Bool.true_and]⟩ }
  have hexpand : expandRuns v (runLengths v 1 xs) = v :: xs := expandRuns_runLengths v 1 xs
  have hvalues := fun fuel (hfuel : (v :: xs).length ≤ fuel) =>
    values_runLength hdec hp (runLengths_ne_nil v 1 xs) rfl hfuel
  simp only [runLengthHeader, hstart] at hvalues
  refine ⟨b, henc, hblen, hdec, ?_, ?_⟩
  · intro fuel hfuel
    rw [(hvalues fuel hfuel).2, hexpand]
  · intro _
    refine ⟨signedRuns v (runLengths v 1 xs), ?_, fun fuel hfuel => (hvalues fuel hfuel).1⟩
    rw [signedRuns_expand, hexpand]

/-- The mask codec: both formats and the choice between them. -/
theorem mask_codec_round_trip (mem : ℕ → UInt8) (mask : List Bool) (hpos : 1 ≤ mask.length)
    (hlen : mask.length ≤ 2 ^ 31 - 1) :
    ∃ bitMask runLength,
      encodeMaskBitMask mem mask = .ok bitMask ∧
      encodeMaskRunLength mem mask = .ok runLength ∧
      DecodesTo mask { format := .bitMask, numBits := mask.length } bitMask ∧
      DecodesTo mask
        { format := .runLength, numBits := mask.length,
          runLengthNumBitsPerInt := (computeMaskRunLengthProperties mask).numBitsPerInt,
          runLengthStartValue := (computeMaskRunLengthProperties mask).startValue } runLength ∧
      (encodeMask mem mask = .ok bitMask ∧ bitMask.length ≤ runLength.length ∨
        encodeMask mem mask = .ok runLength ∧ runLength.length ≤ bitMask.length) := by
  obtain ⟨bm, henc, hbm, hdec⟩ :=
    encodeMaskBitMask_decodes mem hpos (show mask.length < 2 ^ 32 by omega)
  obtain ⟨rl, henc', hrl, hdec'⟩ :=
    encodeMaskRunLength_decodes mem hpos (show mask.length < 2 ^ 31 by omega)
  refine ⟨bm, rl, henc, henc', hdec, hdec', ?_⟩
  rw [encodeMask_of_lt mem (by omega)]
  by_cases hshort : computeBufferSizeMaskBitMask mask.length <
      (computeMaskRunLengthProperties mask).bufSize
  · rw [if_pos hshort]
    exact Or.inl ⟨henc, by omega⟩
  · rw [if_neg hshort]
    exact Or.inr ⟨henc', by omega⟩

theorem mask_codec_round_trip_three :
    ∃ bitMask runLength,
      encodeMaskBitMask (fun _ => 0xFF) [true, true, false] = .ok bitMask ∧
      encodeMaskRunLength (fun _ => 0xFF) [true, true, false] = .ok runLength ∧
      EncodedBitMaskPayload.values 3 bitMask = .ok (some [true, true, false]) ∧
      EncodedBitMaskPayload.values 3 runLength = .ok (some [true, true, false]) := by
  obtain ⟨bm, rl, h₁, h₂, h₃, h₄, -⟩ :=
    mask_codec_round_trip (fun _ => 0xFF) [true, true, false] (by decide) (by decide)
  exact ⟨bm, rl, h₁, h₂, h₃.values 3 (le_refl _), h₄.values 3 (le_refl _)⟩

end Multio.Domain
