import Multio.Domain.RunLengthReader
import Mathlib.Algebra.BigOperators.Group.Finset.Basic
import Mathlib.Algebra.Order.BigOperators.Group.Finset

namespace Multio.Domain
open BitField Iteration Finset

/-- Iterating over the points throws, or yields all of them and no more; an access outside of the
payload and a shift without meaning are neither. -/
def RobustPoints (payload : Buffer) (h : MaskPayloadHeader) : Prop :=
  (∃ what, ∀ fuel, EncodedBitMaskPayload.values fuel payload = .error (.compression what)) ∨
    ∃ fuel ys, EncodedBitMaskPayload.values fuel payload = .ok (some ys) ∧ ys.length = h.numBits

def RobustRuns (payload : Buffer) (h : MaskPayloadHeader) : Prop :=
  (∃ what, ∀ fuel, EncodedRunLengthPayload.values fuel payload = .error (.compression what)) ∨
    ∃ fuel ys, EncodedRunLengthPayload.values fuel payload = .ok (some ys) ∧
      (ys.map Prod.snd).sum = h.numBits

/-- The length of run `k` that the body states. -/
def statedRun (payload : Buffer) (h : MaskPayloadHeader) (k : ℕ) : ℕ :=
  (readRun (field payload (8 * MASK_PAYLOAD_HEADER_SIZE + k * h.runLengthNumBitsPerInt)
    h.runLengthNumBitsPerInt) + 1) % 2 ^ 64

/-- The field of run `k` begins inside of the payload. -/
def InBody (payload : Buffer) (h : MaskPayloadHeader) (k : ℕ) : Prop :=
  MASK_PAYLOAD_HEADER_SIZE + k * h.runLengthNumBitsPerInt / 8 < payload.length

/-- The shifts by which the field of run `k` is read have a meaning. -/
def InInt (payload : Buffer) (h : MaskPayloadHeader) (k : ℕ) : Prop :=
  let p := k * h.runLengthNumBitsPerInt
  RunLengthIterator.shiftsDefined payload (h.runLengthNumBitsPerInt + 1) h.runLengthNumBitsPerInt
    (payload.getD (MASK_PAYLOAD_HEADER_SIZE + p / 8) 0) (MASK_PAYLOAD_HEADER_SIZE + p / 8)
    (8 - p % 8) = true

def Readable (payload : Buffer) (h : MaskPayloadHeader) (k : ℕ) : Prop :=
  InBody payload h k ∧ InInt payload h k

instance (payload : Buffer) (h : MaskPayloadHeader) (k : ℕ) : Decidable (Readable payload h k) :=
  inferInstanceAs (Decidable (_ < _ ∧ _ = true))

/-- The points of the first `k` runs. -/
def statedPoints (payload : Buffer) (h : MaskPayloadHeader) (k : ℕ) : ℕ :=
  ∑ i ∈ range k, statedRun payload h i

/-- The first runs of the body can be read, and have all points between them. -/
def RunsFill (payload : Buffer) (h : MaskPayloadHeader) : Prop :=
  ∃ k, (∀ i < k, Readable payload h i) ∧ statedPoints payload h k = h.numBits

def Stray (e : MaskError) : Prop :=
  (∃ offset size, e = .outOfBounds offset size) ∨ e = .undefinedShift

def Iterable (payload : Buffer) (h : MaskPayloadHeader) : Prop :=
  match h.format with
  | .bitMask => ¬ (h.numBits = 0 ∧ payload.length = MASK_PAYLOAD_HEADER_SIZE)
  | .runLength => RunsFill payload h

theorem decodeMaskPayloadHeader_spec {payload : Buffer} {h : MaskPayloadHeader}
    (hdec : decodeMaskPayloadHeader payload = .ok h) :
    MASK_PAYLOAD_HEADER_SIZE ≤ payload.length ∧ h.numBits < 2 ^ 32 ∧
      (h.format = .runLength → 0 < h.runLengthNumBitsPerInt) := by
  match payload, hdec with
  | b0 :: b1 :: b2 :: b3 :: b4 :: rest, hdec =>
    have hor : (b1.toNat <<< 24) ||| (b2.toNat <<< 16) ||| (b3.toNat <<< 8) ||| b4.toNat <
        2 ^ 32 := by
      have h1 := b1.toNat_lt
      have h2 := b2.toNat_lt
      have h3 := b3.toNat_lt
      have h4 := b4.toNat_lt
      simp only [Nat.shiftLeft_eq]
      refine Nat.or_lt_two_pow (Nat.or_lt_two_pow (Nat.or_lt_two_pow ?_ ?_) ?_) ?_ <;> omega
    refine ⟨by simp [MASK_PAYLOAD_HEADER_SIZE], ?_⟩
    simp only [decodeMaskPayloadHeader] at hdec
    split_ifs at hdec with hformat
    · obtain rfl := Except.ok.inj hdec
      exact ⟨hor, fun _ => Nat.succ_pos _⟩
    · obtain rfl := Except.ok.inj hdec
      exact ⟨hor, fun hrun => by cases hrun⟩

variable {payload : Buffer} {h : MaskPayloadHeader}

theorem values_points (hdec : decodeMaskPayloadHeader payload = .ok h) (fuel : ℕ) :
    EncodedBitMaskPayload.values fuel payload = (MaskPayloadIterator.begin payload h >>=
      fun s => (MaskPayloadIterator.iter payload h).drain fuel s) := by
  rw [EncodedBitMaskPayload.values, hdec]
  rfl

theorem values_runs (hdec : decodeMaskPayloadHeader payload = .ok h) (fuel : ℕ) :
    EncodedRunLengthPayload.values fuel payload = (RunLengthIterator.begin payload h >>=
      fun s => (RunLengthIterator.iter payload h).drain fuel s) := by
  rw [EncodedRunLengthPayload.values, hdec]
  rfl

/-- An iterator whose increments go on to the next point yields as many as are left. -/
theorem drain_length {I : MaskPayloadIterator → Prop}
    (hstep : ∀ s, I s → s.index + 1 < h.numBits →
      ∃ s', s.increment payload h = .ok s' ∧ I s' ∧ s'.index = s.index + 1)
    (n : ℕ) {s : MaskPayloadIterator} (hs : I s) (hn : s.index + n + 1 = h.numBits) :
    ∃ ys, (MaskPayloadIterator.iter payload h).drain (n + 1) s = .ok (some ys) ∧
      ys.length = n + 1 := by
  have hatEnd : (MaskPayloadIterator.iter payload h).atEnd s = false := decide_eq_false (by omega)
  induction n generalizing s with
  | zero =>
    have hinc : s.increment payload h = .ok { s with index := h.numBits } := by
      rw [MaskPayloadIterator.increment, if_neg (by omega)]
    exact ⟨[s.val], drain_step _ hatEnd hinc (drain_atEnd _ (decide_eq_true rfl) 0), rfl⟩
  | succ n ih =>
    obtain ⟨s', hinc, hs', hidx⟩ := hstep s hs (by omega)
    obtain ⟨ys, hdrain, hlen⟩ := ih hs' (by omega) (decide_eq_false (by omega))
    exact ⟨s.val :: ys, drain_step _ hatEnd hinc hdrain, by rw [List.length_cons, hlen]⟩

theorem updateValue_inBody (hformat : h.format = .bitMask)
    (hlen : payload.length = computeBufferSizeMaskBitMask h.numBits) {s : MaskPayloadIterator}
    (hs : s.index < h.numBits) :
    ∃ v, s.updateValue payload h = .ok { s with val := v } := by
  rw [computeBufferSizeMaskBitMask_eq] at hlen
  simp only [MaskPayloadIterator.updateValue, hformat]
  rw [load_ok (by rw [Nat.shiftRight_eq_div_pow]; omega)]
  exact ⟨_, rfl⟩

theorem robustPoints_bitMask (hdec : decodeMaskPayloadHeader payload = .ok h)
    (hformat : h.format = .bitMask) :
    RobustPoints payload h ↔ ¬ (h.numBits = 0 ∧ payload.length = MASK_PAYLOAD_HEADER_SIZE) := by
  have hsize := computeBufferSizeMaskBitMask_eq h.numBits
  by_cases hlen : computeBufferSizeMaskBitMask h.numBits ≠ payload.length
  · -- the size is checked before anything is read
    obtain ⟨what, hwhat⟩ : ∃ what,
        MaskPayloadIterator.begin payload h = .error (.compression what) := by
      simp only [MaskPayloadIterator.begin, hformat, true_and, if_pos hlen]
      exact ⟨_, rfl⟩
    refine iff_of_true (Or.inl ⟨what, fun fuel => ?_⟩) (by rintro ⟨hzero, hfive⟩; omega)
    rw [values_points hdec, hwhat]
    rfl
  · have hlen' := (not_not.mp hlen).symm
    have hbegin : MaskPayloadIterator.begin payload h = MaskPayloadIterator.updateValue payload h
        { index := 0, val := h.runLengthStartValue, rl := none } := by
      rw [MaskPayloadIterator.begin]
      simp only [hformat, true_and, if_neg hlen]
    -- without points the body is empty, and its first byte is read all the same
    by_cases hzero : h.numBits = 0
    · refine iff_of_false ?_ (not_not.mpr ⟨hzero, by omega⟩)
      have hout : ∀ fuel,
          EncodedBitMaskPayload.values fuel payload = .error (.outOfBounds 5 5) := by
        intro fuel
        have hfive : payload.length = 5 := by rw [hlen', hsize, hzero]; rfl
        rw [values_points hdec, hbegin]
        simp only [MaskPayloadIterator.updateValue, hformat]
        rw [load, if_neg (by rw [hfive]; decide), hfive]
        rfl
      rintro (⟨what, hwhat⟩ | ⟨fuel, ys, hys, -⟩)
      · cases (hout 0).symm.trans (hwhat 0)
      · cases (hout fuel).symm.trans hys
    · refine iff_of_true (Or.inr ?_) (fun hcon => hzero hcon.1)
      obtain ⟨v, hv⟩ := updateValue_inBody hformat hlen'
        (s := { index := 0, val := h.runLengthStartValue, rl := none }) (Nat.pos_of_ne_zero hzero)
      have hstep : ∀ s : MaskPayloadIterator, True → s.index + 1 < h.numBits →
          ∃ s', s.increment payload h = .ok s' ∧ True ∧ s'.index = s.index + 1 := by
        intro s _ hs
        obtain ⟨v, hv⟩ := updateValue_inBody hformat hlen' (s := { s with index := s.index + 1 }) hs
        refine ⟨{ s with index := s.index + 1, val := v }, ?_, trivial, rfl⟩
        rw [MaskPayloadIterator.increment, if_pos hs, hformat]
        exact hv
      obtain ⟨ys, hdrain, hys⟩ := drain_length hstep (h.numBits - 1)
        (s := { index := 0, val := v, rl := none }) trivial (by simp only; omega)
      refine ⟨h.numBits - 1 + 1, ys, ?_, hys.trans (by omega)⟩
      rw [values_points hdec, hbegin, hv]
      exact hdrain

theorem statedPoints_succ (k : ℕ) :
    statedPoints payload h (k + 1) = statedPoints payload h k + statedRun payload h k :=
  sum_range_succ _ k

theorem statedPoints_mono : Monotone (statedPoints payload h) :=
  monotone_nat_of_le_succ fun k => by rw [statedPoints_succ]; exact Nat.le_add_right _ _

/-- The run iterator stands at run `k`. -/
structure AtStated (payload : Buffer) (h : MaskPayloadHeader) (k : ℕ) (s : RunLengthIterator) :
    Prop where
  index_eq : s.index = statedPoints payload h k
  val_eq : s.val.2 = statedRun payload h k
  reader : ReaderAt payload ((k + 1) * h.runLengthNumBitsPerInt) s

variable {k : ℕ} {s : RunLengthIterator}

theorem updateValue_atStated (hwidth : 0 < h.runLengthNumBitsPerInt)
    (hs : ReaderAt payload (k * h.runLengthNumBitsPerInt) s)
    (hidx : (s.index + s.val.2) % 2 ^ 64 = statedPoints payload h k)
    (hlt : statedPoints payload h k < h.numBits) (hin : Readable payload h k) :
    ∃ s', s.updateValue payload h = .ok s' ∧ AtStated payload h k s' := by
  obtain ⟨s', hstep, hat, hidx', hval⟩ := updateValue_field hs hwidth hin.1 (hidx ▸ hlt)
    ((updateDefined_eq hs hin.1 (hidx ▸ hlt)).trans hin.2)
  refine ⟨s', hstep, hidx'.trans hidx, by rw [hval]; rfl, ?_⟩
  rw [Nat.succ_mul]
  exact hat

theorem updateValue_stray (hwidth : 0 < h.runLengthNumBitsPerInt)
    (hs : ReaderAt payload (k * h.runLengthNumBitsPerInt) s)
    (hlt : (s.index + s.val.2) % 2 ^ 64 < h.numBits) (hout : ¬ Readable payload h k) :
    ∃ e, s.updateValue payload h = .error e ∧ Stray e := by
  by_cases hin : InBody payload h k
  · have hdef : s.updateDefined payload h = false :=
      (updateDefined_eq hs hin hlt).trans (Bool.not_eq_true _ ▸ fun hok => hout ⟨hin, hok⟩)
    exact ⟨_, updateValue_undefined hs hwidth hin hlt hdef, Or.inr rfl⟩
  · exact ⟨_, updateValue_outside hs (Nat.le_of_not_lt hin) hlt, Or.inl ⟨_, _, rfl⟩⟩

theorem readerAt_begin (hlen : MASK_PAYLOAD_HEADER_SIZE ≤ payload.length) (v : Bool) :
    ReaderAt payload (0 * h.runLengthNumBitsPerInt)
      { index := 0, runLengthOffset := MASK_PAYLOAD_HEADER_SIZE, runLengthRemainingBits := 8,
        val := (v, 0) } where
  offset_eq := by rw [Nat.zero_mul, Nat.zero_div, Nat.add_zero, min_eq_left hlen]
  remaining_eq _ := by rw [Nat.zero_mul]

theorem begin_empty (hrun : h.format = .runLength) (hzero : h.numBits = 0) :
    ∃ s, RunLengthIterator.begin payload h = .ok s ∧ s.index = h.numBits := by
  rw [RunLengthIterator.begin, if_neg (not_not.mpr hrun), updateValue_atEnd (by simp [hzero])]
  exact ⟨_, rfl, hzero.symm⟩

theorem begin_stated (hrun : h.format = .runLength) (hwidth : 0 < h.runLengthNumBitsPerInt)
    (hlen : MASK_PAYLOAD_HEADER_SIZE ≤ payload.length) (hpos : 0 < h.numBits)
    (hin : Readable payload h 0) :
    ∃ s, RunLengthIterator.begin payload h = .ok s ∧ AtStated payload h 0 s := by
  rw [RunLengthIterator.begin, if_neg (not_not.mpr hrun)]
  exact updateValue_atStated hwidth (readerAt_begin hlen _) rfl hpos hin

theorem begin_stray (hrun : h.format = .runLength) (hwidth : 0 < h.runLengthNumBitsPerInt)
    (hlen : MASK_PAYLOAD_HEADER_SIZE ≤ payload.length) (hpos : 0 < h.numBits)
    (hout : ¬ Readable payload h 0) :
    ∃ e, RunLengthIterator.begin payload h = .error e ∧ Stray e := by
  rw [RunLengthIterator.begin, if_neg (not_not.mpr hrun)]
  exact updateValue_stray hwidth (readerAt_begin hlen _) hpos hout

/-- Where the next run begins, as long as the points have not gone round. -/
theorem AtStated.index_next (hs : AtStated payload h k s)
    (hle : statedPoints payload h (k + 1) ≤ h.numBits) (hnum : h.numBits < 2 ^ 32) :
    (s.index + s.val.2) % 2 ^ 64 = statedPoints payload h (k + 1) := by
  rw [hs.index_eq, hs.val_eq, ← statedPoints_succ, Nat.mod_eq_of_lt (by omega)]

theorem AtStated.next (hs : AtStated payload h k s) (hwidth : 0 < h.runLengthNumBitsPerInt)
    (hnum : h.numBits < 2 ^ 32) (hlt : statedPoints payload h (k + 1) < h.numBits)
    (hin : Readable payload h (k + 1)) :
    ∃ s', s.updateValue payload h = .ok s' ∧ AtStated payload h (k + 1) s' :=
  updateValue_atStated hwidth hs.reader (hs.index_next hlt.le hnum) hlt hin

theorem AtStated.next_stray (hs : AtStated payload h k s) (hwidth : 0 < h.runLengthNumBitsPerInt)
    (hnum : h.numBits < 2 ^ 32) (hlt : statedPoints payload h (k + 1) < h.numBits)
    (hout : ¬ Readable payload h (k + 1)) :
    ∃ e, s.updateValue payload h = .error e ∧ Stray e :=
  updateValue_stray hwidth hs.reader ((hs.index_next hlt.le hnum).trans_lt hlt) hout

theorem AtStated.last (hs : AtStated payload h k s) (hnum : h.numBits < 2 ^ 32)
    (heq : statedPoints payload h (k + 1) = h.numBits) :
    s.updateValue payload h = .ok { s with index := h.numBits } := by
  have hidx := hs.index_next heq.le hnum
  rw [updateValue_atEnd (by rw [hidx, heq]), hidx, heq]

theorem RunsFill.least (hfill : RunsFill payload h) :
    ∃ k, (∀ i < k, Readable payload h i) ∧ statedPoints payload h k = h.numBits ∧
      ∀ i < k, statedPoints payload h i < h.numBits := by
  classical
  obtain ⟨k, hin, hsum⟩ := hfill
  have hex : ∃ k, statedPoints payload h k = h.numBits := ⟨k, hsum⟩
  have hle : Nat.find hex ≤ k := Nat.find_min' hex hsum
  refine ⟨Nat.find hex, fun i hi => hin i (by omega), Nat.find_spec hex, fun i hi => ?_⟩
  apply lt_of_le_of_ne _ (Nat.find_min hex hi)
  exact (statedPoints_mono hi.le).trans_eq (Nat.find_spec hex)

theorem drain_stated (hwidth : 0 < h.runLengthNumBitsPerInt) (hnum : h.numBits < 2 ^ 32)
    (n : ℕ) {k : ℕ} {s : RunLengthIterator} (hin : ∀ i < k + n + 1, Readable payload h i)
    (hfull : statedPoints payload h (k + n + 1) = h.numBits)
    (hlt : ∀ i < k + n + 1, statedPoints payload h i < h.numBits)
    (hs : AtStated payload h k s) :
    ∃ ys, (RunLengthIterator.iter payload h).drain (n + 1) s = .ok (some ys) ∧
      statedPoints payload h k + (ys.map Prod.snd).sum = h.numBits := by
  have hatEnd : (RunLengthIterator.iter payload h).atEnd s = false := by
    apply decide_eq_false
    rw [hs.index_eq]
    exact (hlt k (by omega)).ne
  induction n generalizing k s with
  | zero =>
    refine ⟨[s.val], drain_step _ hatEnd (hs.last hnum hfull)
      (drain_atEnd _ (decide_eq_true rfl) 0), ?_⟩
    rw [← hfull, statedPoints_succ]
    simp [hs.val_eq]
  | succ n ih =>
    obtain ⟨s', hnext, hs'⟩ := hs.next hwidth hnum (hlt (k + 1) (by omega)) (hin (k + 1) (by omega))
    have hidx : k + 1 + n + 1 = k + (n + 1) + 1 := by omega
    obtain ⟨ys, hdrain, hsum⟩ := ih (k := k + 1) (by rwa [hidx]) (by rwa [hidx]) (by rwa [hidx]) hs'
      (decide_eq_false (by rw [hs'.index_eq]; exact (hlt (k + 1) (by omega)).ne))
    refine ⟨s.val :: ys, drain_step _ hatEnd hnext hdrain, ?_⟩
    rw [statedPoints_succ] at hsum
    rw [List.map_cons, List.sum_cons, hs.val_eq, ← hsum, Nat.add_assoc]

/-- What the iterator yields from run `k` on, if it comes to its end with as many points as there
are, are the runs that the body states. -/
theorem runsFill_of_yields (hwidth : 0 < h.runLengthNumBitsPerInt) (hnum : h.numBits < 2 ^ 32)
    {s : RunLengthIterator} {ys : List (Bool × ℕ)}
    (hys : (RunLengthIterator.iter payload h).Yields s ys) {k : ℕ}
    (hin : ∀ i ≤ k, Readable payload h i) (hs : AtStated payload h k s)
    (hsum : statedPoints payload h k + (ys.map Prod.snd).sum = h.numBits) :
    RunsFill payload h := by
  induction hys generalizing k with
  | done hend => exact ⟨k, fun i hi => hin i hi.le, hsum⟩
  | @step s s' ys hend hnext hrest ih =>
    have hval : statedPoints payload h (k + 1) + (ys.map Prod.snd).sum = h.numBits := by
      rw [← hsum, statedPoints_succ, List.map_cons, List.sum_cons, Nat.add_assoc]
      exact congrArg (_ + ·) (congrArg (· + _) hs.val_eq.symm)
    by_cases heq : statedPoints payload h (k + 1) = h.numBits
    · exact ⟨k + 1, fun i hi => hin i (Nat.le_of_lt_succ hi), heq⟩
    · have hlt : statedPoints payload h (k + 1) < h.numBits := by omega
      by_cases hbody : Readable payload h (k + 1)
      · obtain ⟨s'', hnext', hs''⟩ := hs.next hwidth hnum hlt hbody
        obtain rfl := Except.ok.inj (hnext'.symm.trans hnext)
        apply ih _ hs'' hval
        intro i hi
        rcases Nat.lt_or_eq_of_le hi with hi | rfl
        · exact hin i (Nat.le_of_lt_succ hi)
        · exact hbody
      · obtain ⟨e, he, -⟩ := hs.next_stray hwidth hnum hlt hbody
        cases he.symm.trans hnext

theorem robustRuns_iff (hdec : decodeMaskPayloadHeader payload = .ok h)
    (hrun : h.format = .runLength) : RobustRuns payload h ↔ RunsFill payload h := by
  obtain ⟨hlen, hnum, hwidth⟩ := decodeMaskPayloadHeader_spec hdec
  replace hwidth := hwidth hrun
  -- without points the iterator is at its end from the beginning
  by_cases hzero : h.numBits = 0
  · refine iff_of_true (Or.inr ⟨0, [], ?_, hzero.symm⟩)
      ⟨0, fun i hi => absurd hi (Nat.not_lt_zero i), hzero.symm⟩
    obtain ⟨s, hbegin, hidx⟩ := begin_empty hrun hzero
    rw [values_runs hdec, hbegin]
    exact drain_atEnd _ (decide_eq_true hidx) 0
  · have hpos := Nat.pos_of_ne_zero hzero
    constructor
    · intro hrobust
      by_cases hin : Readable payload h 0
      · obtain ⟨s, hbegin, hs⟩ := begin_stated hrun hwidth hlen hpos hin
        rcases hrobust with ⟨what, hwhat⟩ | ⟨fuel, ys, hys, hsum⟩
        · have hzero := hwhat 0
          rw [values_runs hdec, hbegin] at hzero
          cases hzero
        · rw [values_runs hdec, hbegin] at hys
          apply runsFill_of_yields hwidth hnum (yields_of_drain _ hys) _ hs
          · rw [← hsum]
            exact Nat.zero_add _
          · intro i hi
            rwa [Nat.le_zero.mp hi]
      · obtain ⟨e, hout, hstray⟩ := begin_stray hrun hwidth hlen hpos hin
        rcases hrobust with ⟨what, hwhat⟩ | ⟨fuel, ys, hys, -⟩
        · have hzero := hwhat 0
          rw [values_runs hdec, hout] at hzero
          obtain rfl := Except.error.inj hzero
          obtain ⟨_, _, hne⟩ | hne := hstray <;> cases hne
        · rw [values_runs hdec, hout] at hys
          cases hys
    · intro hfill
      obtain ⟨k, hin, hfull, hlt⟩ := hfill.least
      obtain ⟨n, rfl⟩ : ∃ n, k = n + 1 :=
        Nat.exists_eq_succ_of_ne_zero fun hk => hzero (by rw [← hfull, hk]; rfl)
      obtain ⟨s, hbegin, hs⟩ := begin_stated hrun hwidth hlen hpos (hin 0 (Nat.succ_pos n))
      obtain ⟨ys, hdrain, hsum⟩ := drain_stated hwidth hnum n (k := 0) (by rwa [Nat.zero_add])
        (by rwa [Nat.zero_add]) (by rwa [Nat.zero_add]) hs
      refine Or.inr ⟨n + 1, ys, ?_, (Nat.zero_add _).symm.trans hsum⟩
      rw [values_runs hdec, hbegin]
      exact hdrain

/-- The point iterator has its run decoder at a run that it has not left yet. -/
def InRun (payload : Buffer) (h : MaskPayloadHeader) (s : MaskPayloadIterator) : Prop :=
  ∃ k it counter, s.rl = some (it, counter) ∧ AtStated payload h k it ∧
    statedPoints payload h k + counter ≤ s.index

theorem increment_inRun (hrun : h.format = .runLength) (hwidth : 0 < h.runLengthNumBitsPerInt)
    (hnum : h.numBits < 2 ^ 32) {n : ℕ} (hin : ∀ i < n, Readable payload h i)
    (hfull : statedPoints payload h n = h.numBits) {s : MaskPayloadIterator}
    (hs : InRun payload h s) (hlt : s.index + 1 < h.numBits) :
    ∃ s', s.increment payload h = .ok s' ∧ InRun payload h s' ∧ s'.index = s.index + 1 := by
  obtain ⟨k, it, counter, hrl, hit, hle⟩ := hs
  simp only [MaskPayloadIterator.increment, if_pos hlt, hrun, hrl]
  by_cases hnext : counter + 1 ≥ it.val.2
  · rw [hit.val_eq] at hnext
    -- the runs behind this one begin at a point that is still inside
    have hpoints : statedPoints payload h (k + 1) < h.numBits := by
      rw [statedPoints_succ]
      omega
    have hk : k + 1 < n := statedPoints_mono.reflect_lt (hpoints.trans_eq hfull.symm)
    obtain ⟨it', hupdate, hit'⟩ := hit.next hwidth hnum hpoints (hin (k + 1) hk)
    rw [hit.val_eq, if_pos hnext]
    simp only [MaskPayloadIterator.updateValue, hrun, Nat.succ_ne_zero, if_false, hupdate]
    refine ⟨_, rfl, ⟨k + 1, it', 0, rfl, hit', ?_⟩, rfl⟩
    rw [statedPoints_succ]
    simp only
    omega
  · rw [if_neg hnext]
    exact ⟨_, rfl, ⟨k, it, counter + 1, rfl, hit, by simp only; omega⟩, rfl⟩

theorem begin_points (hrun : h.format = .runLength) {it : RunLengthIterator}
    (hit : RunLengthIterator.begin payload h = .ok it) :
    MaskPayloadIterator.begin payload h =
      .ok { index := 0, val := it.val.1, rl := some (it, 0) } := by
  simp only [MaskPayloadIterator.begin, MaskPayloadIterator.updateValue, hrun, hit, if_true]
  rfl

theorem robustPoints_of_runsFill (hdec : decodeMaskPayloadHeader payload = .ok h)
    (hrun : h.format = .runLength) (hfill : RunsFill payload h) : RobustPoints payload h := by
  obtain ⟨hlen, hnum, hwidth⟩ := decodeMaskPayloadHeader_spec hdec
  replace hwidth := hwidth hrun
  apply Or.inr
  by_cases hzero : h.numBits = 0
  · obtain ⟨it, hit, -⟩ := begin_empty hrun hzero
    refine ⟨0, [], ?_, hzero.symm⟩
    rw [values_points hdec, begin_points hrun hit]
    exact drain_atEnd _ (decide_eq_true hzero.symm) 0
  · obtain ⟨n, hin, hfull⟩ := hfill
    have hn : 0 < n := Nat.pos_of_ne_zero fun hn => hzero (by rw [← hfull, hn]; rfl)
    obtain ⟨it, hit, hat⟩ := begin_stated hrun hwidth hlen (Nat.pos_of_ne_zero hzero) (hin 0 hn)
    obtain ⟨ys, hdrain, hys⟩ := drain_length (I := InRun payload h)
      (fun s hs hlt => increment_inRun hrun hwidth hnum hin hfull hs hlt) (h.numBits - 1)
      (s := { index := 0, val := it.val.1, rl := some (it, 0) })
      ⟨0, it, 0, rfl, hat, le_refl 0⟩ (by simp only; omega)
    refine ⟨h.numBits - 1 + 1, ys, ?_, hys.trans (by omega)⟩
    rw [values_points hdec, begin_points hrun hit]
    exact hdrain

theorem robustRuns_bitMask (hdec : decodeMaskPayloadHeader payload = .ok h)
    (hformat : h.format = .bitMask) : RobustRuns payload h := by
  refine Or.inl ⟨"RunLengthIterator needs a MaskPayloadHeader with run-length format",
    fun fuel => ?_⟩
  rw [values_runs hdec, RunLengthIterator.begin, if_pos (by rw [hformat]; decide)]
  rfl

/-- Both iterators cope with a payload whose header was accepted if its body states runs that can
be read and have all points between them, or, as bits, if it is not a bare header. -/
theorem iteration_robust_iff (payload : Buffer) (h : MaskPayloadHeader)
    (hdec : decodeMaskPayloadHeader payload = .ok h) :
    (RobustPoints payload h ∧ RobustRuns payload h) ↔ Iterable payload h := by
  cases hformat : h.format with
  | bitMask =>
    rw [Iterable, hformat]
    exact (and_iff_left (robustRuns_bitMask hdec hformat)).trans (robustPoints_bitMask hdec hformat)
  | runLength =>
    rw [Iterable, hformat]
    refine Iff.trans ?_ (robustRuns_iff hdec hformat)
    exact and_iff_right_of_imp fun hruns =>
      robustPoints_of_runsFill hdec hformat ((robustRuns_iff hdec hformat).mp hruns)

/-- Two runs of four points behind a header with eight points, four bits a run. -/
theorem iteration_robust_two :
    RobustPoints [0xC3, 0, 0, 0, 8, 0x33] ⟨.runLength, 8, 4, true⟩ ∧
      RobustRuns [0xC3, 0, 0, 0, 8, 0x33] ⟨.runLength, 8, 4, true⟩ :=
  (iteration_robust_iff _ _ rfl).mpr ⟨2, by decide, by decide⟩

/-- Eight points, and not a byte behind the header: both iterators read the byte behind the
payload. -/
theorem truncated_body_read_outside :
    decodeMaskPayloadHeader [0xC3, 0, 0, 0, 8] = .ok ⟨.runLength, 8, 4, true⟩ ∧
      EncodedRunLengthPayload.values 8 [0xC3, 0, 0, 0, 8] = .error (.outOfBounds 5 5) ∧
      EncodedBitMaskPayload.values 8 [0xC3, 0, 0, 0, 8] = .error (.outOfBounds 5 5) ∧
      ¬ (RobustPoints [0xC3, 0, 0, 0, 8] ⟨.runLength, 8, 4, true⟩ ∧
        RobustRuns [0xC3, 0, 0, 0, 8] ⟨.runLength, 8, 4, true⟩) := by
  have hout : ∀ fuel, EncodedRunLengthPayload.values fuel [0xC3, 0, 0, 0, 8] =
      .error (.outOfBounds 5 5) := fun _ => rfl
  refine ⟨rfl, hout 8, rfl, ?_⟩
  rintro ⟨-, ⟨what, hwhat⟩ | ⟨fuel, ys, hys, -⟩⟩
  · cases (hout 0).symm.trans (hwhat 0)
  · cases (hout fuel).symm.trans hys

end Multio.Domain
