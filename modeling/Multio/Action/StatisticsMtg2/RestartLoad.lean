import Multio.Action.StatisticsMtg2.RestartBuffer
import Multio.Action.StatisticsMtg2.WindowRestart
import Multio.Lib.WordMixing

namespace Multio.StatisticsMtg2
open Lib Exception
open Action.StatisticsMtg2
  (Files StatisticsIO FstreamIO.readSize FstreamIO.read freadWords wordBytes)
open Statistics (RestartLibrary FourDigits)

namespace IOBuffer

def mix (sum w : UInt64) : UInt64 := ((sum <<< 1) * 31) ^^^ w

theorem agreeTo_mix {k : ℕ} (hk : k ≤ 64) (a b w : UInt64) :
    Word.AgreeTo k (mix a w) (mix b w) ↔ Word.AgreeTo (k - 1) a b := by
  unfold mix
  rw [Word.agreeTo_xor_right, Word.agreeTo_mul_right hk rfl, Word.agreeTo_shiftLeft hk]

theorem checkChecksum_concat {ws : IOBuffer} (hlength : ws.length < 2 ^ 31) (sum : UInt64) :
    checkChecksum (ws ++ [sum]) =
      if sum ≠ ws.foldl mix 1979339339 then .error (.seriousBug "ERROR : wrong Checksum")
      else .ok () := by
  have hlast : (ws ++ [sum]).length = ws.length + 1 := List.length_append
  have hsum : checksum (ws ++ [sum]) = .ok (ws.foldl mix 1979339339) := by
    unfold checksum
    rw [if_neg (by omega), if_neg (by omega), List.dropLast_concat]
    rfl
  unfold checkChecksum
  rw [hsum, ok_bind, hlast, Nat.add_sub_cancel, get_append, ok_bind]

theorem checkChecksum_long {ws : IOBuffer} (hlength : 2 ^ 31 ≤ ws.length) (sum : UInt64) :
    checkChecksum (ws ++ [sum]) = .error (.undefinedBehaviour "overflow of an int") := by
  have hlast : (ws ++ [sum]).length = ws.length + 1 := List.length_append
  unfold checkChecksum checksum
  rw [if_neg (by omega), if_pos (by omega)]
  rfl

/-- Another word is noticed exactly if it differs in a bit that the words after it do not move out of
the checksum. -/
theorem detects_iff {front back : IOBuffer} {w sum : UInt64} (w' : UInt64)
    (h : checkChecksum (front ++ w :: back ++ [sum]) = .ok ()) :
    checkChecksum (front ++ w' :: back ++ [sum]) = .error (.seriousBug "ERROR : wrong Checksum") ↔
      ¬ Word.AgreeTo (64 - back.length) w w' := by
  have hlength : (front ++ w :: back).length < 2 ^ 31 := by
    by_contra hlong
    rw [checkChecksum_long (not_lt.mp hlong)] at h
    cases h
  have hlength' : (front ++ w' :: back).length < 2 ^ 31 := by
    rw [List.length_append, List.length_cons] at hlength ⊢
    exact hlength
  rw [checkChecksum_concat hlength] at h
  have hsum : sum = (front ++ w :: back).foldl mix 1979339339 := by
    by_contra hne
    rw [if_pos hne] at h
    cases h
  have hsame : sum = (front ++ w' :: back).foldl mix 1979339339 ↔
      Word.AgreeTo (64 - back.length) w w' := by
    rw [hsum, List.foldl_append, List.foldl_append, List.foldl_cons, List.foldl_cons,
      ← Word.agreeTo_64, Word.agreeTo_foldl (fun k hk a b w => agreeTo_mix hk a b w) le_rfl]
    exact Word.agreeTo_xor_left
  rw [checkChecksum_concat hlength', ← hsame]
  split_ifs with hne
  · exact iff_of_true rfl hne
  · exact iff_of_false (by simp) hne

end IOBuffer

def Defined {α : Type} (x : Except Exception α) : Prop :=
  ∀ what, x ≠ .error (.undefinedBehaviour what)

section

variable {α β : Type}

theorem Defined.ok (a : α) : Defined (.ok a) := fun _ h => (by cases h)

theorem Defined.bind {x : Except Exception α} {f : α → Except Exception β} (hx : Defined x)
    (hf : ∀ a, x = .ok a → Defined (f a)) : Defined (x >>= f) := by
  cases x with
  | ok a => exact hf a rfl
  | error e => exact fun what h => hx what (congrArg _ (Except.error.inj h))

end

namespace IOBuffer

variable {buf : IOBuffer} {idx n : ℕ}

theorem get_eq_ok_iff {w : UInt64} : buf.get idx = .ok w ↔ buf[idx]? = some w := by
  unfold get
  cases buf[idx]? with
  | none => exact iff_of_false (by simp) (by simp)
  | some v =>
    exact ⟨fun h => congrArg some (Except.ok.inj h), fun h => congrArg _ (Option.some.inj h)⟩

theorem get_defined : Defined (buf.get idx) := by
  unfold get
  cases buf[idx]? with
  | none => exact fun what h => (by cases h)
  | some v => exact .ok v

theorem get_ok (h : idx < buf.length) : ∃ w, buf.get idx = .ok w :=
  ⟨buf[idx], get_eq_ok_iff.mpr (List.getElem?_eq_getElem h)⟩

theorem read_ok (h : idx + n ≤ buf.length) : ∃ ws, buf.read idx n = .ok ws := by
  induction n generalizing idx with
  | zero => exact ⟨[], rfl⟩
  | succ n ih =>
    obtain ⟨w, hw⟩ := get_ok (show idx < buf.length by omega)
    obtain ⟨ws, hws⟩ := ih (show idx + 1 + n ≤ buf.length by omega)
    refine ⟨w :: ws, ?_⟩
    unfold read
    rw [hw, ok_bind, hws, ok_bind]

theorem length_of_read {ws : List UInt64} (h : buf.read idx n = .ok ws) (hidx : idx ≤ buf.length) :
    ws.length = n ∧ idx + n ≤ buf.length := by
  induction n generalizing idx ws with
  | zero =>
    obtain rfl := Except.ok.inj h
    exact ⟨rfl, hidx⟩
  | succ n ih =>
    unfold read at h
    obtain ⟨w, hw, h⟩ := bind_eq_ok_iff.mp h
    obtain ⟨rest, hrest, h⟩ := bind_eq_ok_iff.mp h
    obtain rfl := Except.ok.inj h
    have hlt := (List.getElem?_eq_some_iff.mp (get_eq_ok_iff.mp hw)).1
    obtain ⟨hlength, hle⟩ := ih hrest hlt
    exact ⟨congrArg (· + 1) hlength, by omega⟩

theorem read_defined : Defined (buf.read idx n) := by
  induction n generalizing idx with
  | zero => exact .ok []
  | succ n ih => exact get_defined.bind fun w _ => ih.bind fun ws _ => .ok _

end IOBuffer

section

variable {ctx : Statistics.StatisticsContext} {lib : RestartLibrary}
  (hlib : lib.Lawful ctx.calendar)

include hlib

theorem yyyymmdd_hhmmss2DateTime_defined (date time : UInt64) :
    Defined (yyyymmdd_hhmmss2DateTime lib date time) := by
  have hdate : date.toNat % 10 ^ 8 < 10 ^ 8 := Nat.mod_lt _ (by decide)
  have htime : time.toNat % 10 ^ 6 < 10 ^ 6 := Nat.mod_lt _ (by decide)
  unfold yyyymmdd_hhmmss2DateTime Statistics.yyyymmdd_hhmmss2DateTime
  rw [yyyymmdd2ymd_mod, hhmmss2hms_mod]
  refine Defined.bind ?_ fun ymd hymd => Defined.bind ?_ fun hms hhms => ?_
  · unfold Statistics.yyyymmdd2ymd
    simp only []
    split_ifs
    · exact fun what h => (by cases h)
    · exact fun what h => (by cases h)
    · exact .ok _
  · unfold Statistics.hhmmss2hms
    simp only []
    split_ifs
    · exact fun what h => (by cases h)
    · exact fun what h => (by cases h)
    · exact fun what h => (by cases h)
    · exact .ok _
  · obtain ⟨y, m, d⟩ := ymd
    obtain ⟨h, min, s⟩ := hms
    obtain ⟨⟨hy, hm, hd, hd'⟩, rfl, rfl, rfl⟩ := (yyyymmdd2ymd_eq_ok_iff hdate).mp hymd
    obtain ⟨⟨hh, hmin, hs⟩, rfl, rfl, rfl⟩ := (hhmmss2hms_eq_ok_iff htime).mp hhms
    simp only []
    rw [hlib.makeDate_ok (by omega) (by omega) ⟨by omega, hd'⟩, ok_bind,
      hlib.makeTime_ok (by omega) (by omega) (by omega), ok_bind]
    exact .ok _

theorem fourDigits_of_read (hcal : ctx.calendar.IsGregorian) {date time : UInt64} {t : DateTime}
    (ht : yyyymmdd_hhmmss2DateTime lib date time = .ok t) : FourDigits ctx t := by
  have hdate : date.toNat % 10 ^ 8 < 10 ^ 8 := Nat.mod_lt _ (by decide)
  have htime : time.toNat % 10 ^ 6 < 10 ^ 6 := Nat.mod_lt _ (by decide)
  unfold yyyymmdd_hhmmss2DateTime Statistics.yyyymmdd_hhmmss2DateTime at ht
  rw [yyyymmdd2ymd_mod, hhmmss2hms_mod] at ht
  obtain ⟨⟨y, m, d⟩, hymd, ht⟩ := bind_eq_ok_iff.mp ht
  obtain ⟨⟨h, min, s⟩, hhms, ht⟩ := bind_eq_ok_iff.mp ht
  obtain ⟨⟨hy, hm, hd, hd'⟩, rfl, rfl, rfl⟩ := (yyyymmdd2ymd_eq_ok_iff hdate).mp hymd
  obtain ⟨⟨hh, hmin, hs⟩, rfl, rfl, rfl⟩ := (hhmmss2hms_eq_ok_iff htime).mp hhms
  simp only [] at ht
  rw [hlib.makeDate_ok (by omega) (by omega) ⟨by omega, hd'⟩, ok_bind,
    hlib.makeTime_ok (by omega) (by omega) (by omega), ok_bind] at ht
  obtain rfl := Except.ok.inj ht
  exact fourDigits_dateTime hcal (by omega) (by omega) ⟨by omega, hd'⟩ (by omega)

end

namespace WindowMembers

structure Accepted (ws : IOBuffer) : Prop where
  checksum : ws.checkChecksum = .ok ()
  valid : ∀ i ∈ [0, 2, 4, 6, 8, 10, 12], ∃ date time, ws[i]? = some date ∧ ws[i + 1]? = some time ∧
    ValidDate (date.toNat % 10 ^ 8) ∧ ValidTime (time.toNat % 10 ^ 6)
  counts : ∃ size, ws[17]? = some size ∧ 18 + size.toNat ≤ ws.length

/-- The window that is read from words is one that could have been written to a file. -/
def CanBeWritten (ctx : Statistics.StatisticsContext) (lib : RestartLibrary) (m : WindowMembers) :
    Prop := (∃ w, m.window? = some w) ∧ m.Restored ctx lib

section

variable {ctx : Statistics.StatisticsContext} {lib : RestartLibrary} {ws : IOBuffer}
  (hlib : lib.Lawful ctx.calendar)

include hlib

theorem dateTimeAt_isOk (i : ℕ) : (∃ t, dateTimeAt lib ws i = .ok t) ↔
    ∃ date time, ws[i]? = some date ∧ ws[i + 1]? = some time ∧
      ValidDate (date.toNat % 10 ^ 8) ∧ ValidTime (time.toNat % 10 ^ 6) := by
  unfold dateTimeAt
  constructor
  · rintro ⟨t, ht⟩
    obtain ⟨date, hdate, ht⟩ := bind_eq_ok_iff.mp ht
    obtain ⟨time, htime, ht⟩ := bind_eq_ok_iff.mp ht
    exact ⟨date, time, IOBuffer.get_eq_ok_iff.mp hdate, IOBuffer.get_eq_ok_iff.mp htime,
      (accepts_iff hlib date time).mp ⟨t, ht⟩⟩
  · rintro ⟨date, time, hdate, htime, hvalid⟩
    rw [IOBuffer.get_eq_ok_iff.mpr hdate, ok_bind, IOBuffer.get_eq_ok_iff.mpr htime, ok_bind]
    exact (accepts_iff hlib date time).mpr hvalid

theorem dateTimeAt_defined (i : ℕ) : Defined (dateTimeAt lib ws i) :=
  IOBuffer.get_defined.bind fun date _ => IOBuffer.get_defined.bind fun time _ =>
    yyyymmdd_hhmmss2DateTime_defined hlib date time

theorem dateTimeAt_fourDigits (hcal : ctx.calendar.IsGregorian) {i : ℕ} {t : DateTime}
    (ht : dateTimeAt lib ws i = .ok t) : FourDigits ctx t := by
  unfold dateTimeAt at ht
  obtain ⟨date, -, ht⟩ := bind_eq_ok_iff.mp ht
  obtain ⟨time, -, ht⟩ := bind_eq_ok_iff.mp ht
  exact fourDigits_of_read hlib hcal ht

theorem deserialize_ok {m : WindowMembers} (hm : deserialize lib ws = .ok m) :
    Accepted ws ∧ (∃ w, ws[16]? = some w ∧ m.windowType = w.toInt64) ∧
      (∃ size, ws[17]? = some size ∧ m.counts.length = size.toNat) ∧
      (ctx.calendar.IsGregorian → m.Dated ctx) := by
  unfold deserialize at hm
  simp only [bind_eq_ok_iff] at hm
  obtain ⟨⟨⟩, hchecksum, epoch, h0, start, h2, finish, h4, creation, h6, prev, h8, curr, h10,
    flush, h12, timeStep, h14, count, h15, windowType, h16, size, h17, counts, hcounts, hm⟩ := hm
  obtain rfl := Except.ok.inj hm
  have h17' := IOBuffer.get_eq_ok_iff.mp h17
  have hlt : 17 < ws.length := (List.getElem?_eq_some_iff.mp h17').1
  obtain ⟨hlength, hle⟩ := IOBuffer.length_of_read hcounts hlt
  refine ⟨⟨hchecksum, ?_, size, h17', hle⟩, ⟨windowType, IOBuffer.get_eq_ok_iff.mp h16, rfl⟩,
    ⟨size, h17', (List.length_map _).trans hlength⟩, ?_⟩
  · simp only [List.forall_mem_cons, ← dateTimeAt_isOk hlib]
    exact ⟨⟨_, h0⟩, ⟨_, h2⟩, ⟨_, h4⟩, ⟨_, h6⟩, ⟨_, h8⟩, ⟨_, h10⟩, ⟨_, h12⟩, by simp⟩
  · intro hcal
    have hfour {i : ℕ} {t : DateTime} (ht : dateTimeAt lib ws i = .ok t) : FourDigits ctx t :=
      dateTimeAt_fourDigits hlib hcal ht
    exact ⟨hfour h0, hfour h2, hfour h4, hfour h6, hfour h8, hfour h10, hfour h12⟩

theorem deserialize_isOk (h : Accepted ws) : ∃ m, deserialize lib ws = .ok m := by
  obtain ⟨size, hsize, hle⟩ := h.counts
  have hpoint := h.valid
  simp only [List.forall_mem_cons, ← dateTimeAt_isOk hlib] at hpoint
  obtain ⟨⟨epoch, h0⟩, ⟨start, h2⟩, ⟨finish, h4⟩, ⟨creation, h6⟩, ⟨prev, h8⟩, ⟨curr, h10⟩,
    ⟨flush, h12⟩, -⟩ := hpoint
  obtain ⟨timeStep, h14⟩ := IOBuffer.get_ok (show 14 < ws.length by omega)
  obtain ⟨count, h15⟩ := IOBuffer.get_ok (show 15 < ws.length by omega)
  obtain ⟨windowType, h16⟩ := IOBuffer.get_ok (show 16 < ws.length by omega)
  obtain ⟨counts, hcounts⟩ := IOBuffer.read_ok hle
  unfold deserialize
  rw [h.checksum, ok_bind, h0, ok_bind, h2, ok_bind, h4, ok_bind, h6, ok_bind, h8, ok_bind, h10,
    ok_bind, h12, ok_bind, h14, ok_bind, h15, ok_bind, h16, ok_bind,
    IOBuffer.get_eq_ok_iff.mpr hsize, ok_bind, hcounts, ok_bind]
  exact ⟨_, rfl⟩

theorem deserialize_defined (h : Defined ws.checkChecksum) : Defined (deserialize lib ws) := by
  have hpoint (i : ℕ) : Defined (dateTimeAt lib ws i) := dateTimeAt_defined hlib i
  unfold deserialize
  exact h.bind fun _ _ => (hpoint 0).bind fun _ _ => (hpoint 2).bind fun _ _ =>
    (hpoint 4).bind fun _ _ => (hpoint 6).bind fun _ _ => (hpoint 8).bind fun _ _ =>
    (hpoint 10).bind fun _ _ => (hpoint 12).bind fun _ _ =>
    IOBuffer.get_defined.bind fun _ _ => IOBuffer.get_defined.bind fun _ _ =>
    IOBuffer.get_defined.bind fun _ _ => IOBuffer.get_defined.bind fun _ _ =>
    IOBuffer.read_defined.bind fun _ _ => .ok _

omit hlib in
theorem window?_isSome {m : WindowMembers} :
    (∃ w, m.window? = some w) ↔ m.windowType = 0 ∨ m.windowType = 1 := by
  unfold window?
  split_ifs with h0 h1
  · exact iff_of_true ⟨_, rfl⟩ (Or.inl h0)
  · exact iff_of_true ⟨_, rfl⟩ (Or.inr h1)
  · exact iff_of_false (fun ⟨w, hw⟩ => (by cases hw)) (not_or.mpr ⟨h0, h1⟩)

/-- Words are read as a window that could have been written exactly if they are refused or their
window type is one, and if there is a word to spare for the checksum. -/
theorem reads_writable_iff (hcal : ctx.calendar.IsGregorian) :
    (∀ m, deserialize lib ws = .ok m → m.CanBeWritten ctx lib) ↔
      (Accepted ws → (ws[16]? = some 0 ∨ ws[16]? = some 1) ∧
        ∀ size, ws[17]? = some size → 18 + size.toNat < 2 ^ 31) := by
  have hpart {m : WindowMembers} (hm : deserialize lib ws = .ok m) : m.CanBeWritten ctx lib ↔
      (ws[16]? = some 0 ∨ ws[16]? = some 1) ∧
        ∀ size, ws[17]? = some size → 18 + size.toNat < 2 ^ 31 := by
    obtain ⟨-, ⟨w, hw, htype⟩, ⟨size, hsize, hcounts⟩, hdated⟩ := deserialize_ok hlib hm
    unfold CanBeWritten
    rw [window?_isSome, restored_iff hlib hcal (hdated hcal), htype, hw, hsize]
    unfold restartSize
    rw [hcounts]
    have htype' (v : UInt64) : w.toInt64 = v.toInt64 ↔ some w = some v :=
      ⟨fun h => congrArg (some ∘ Int64.toUInt64) h, fun h => congrArg _ (Option.some.inj h)⟩
    rw [← htype' 0, ← htype' 1]
    change (w.toInt64 = 0 ∨ w.toInt64 = 1) ∧ _ ↔ (w.toInt64 = 0 ∨ w.toInt64 = 1) ∧ _
    constructor
    · rintro ⟨hone, hle⟩
      refine ⟨hone, ?_⟩
      intro size' hsize'
      obtain rfl := Option.some.inj hsize'
      omega
    · rintro ⟨hone, hlt⟩
      have := hlt size rfl
      exact ⟨hone, by omega⟩
  constructor
  · intro h haccepted
    obtain ⟨m, hm⟩ := deserialize_isOk hlib haccepted
    exact (hpart hm).mp (h m hm)
  · intro h m hm
    exact (hpart hm).mpr (h (deserialize_ok hlib hm).1)

end

end WindowMembers

/-- `OperationWindow::load`, from where the buffer is there. -/
def OperationWindow.loadState (lib : RestartLibrary) (files : Files) (readSize : UInt64)
    (io : StatisticsIO) : Except Exception ( StatisticsIO × WindowMembers) := do
  let io ← FstreamIO.read io files "operationWindow" readSize.toNat
  let m ← WindowMembers.deserialize lib (io.buffer.take readSize.toNat)
  .ok ({ io with buffer := List.replicate readSize.toNat 0 ++ io.buffer.drop readSize.toNat }, m)

/-- `OperationWindow::load`, or nothing if its loop has not ended after so many rounds. -/
def OperationWindow.load (rounds : ℕ) (lib : RestartLibrary) (files : Files) (memory : UInt64)
    (io : StatisticsIO) : Option (Except Exception ( StatisticsIO × WindowMembers)) :=
  match FstreamIO.readSize io files memory "operationWindow" with
  | .error e => some (.error e)
  | .ok readSize =>
    (io.getBuffer rounds readSize).map fun io => do loadState lib files readSize (← io)

/-- Loading ends, whatever was in the memory, and throws or restores a window that could have been
written. -/
def LoadsSafely (ctx : Statistics.StatisticsContext) (lib : RestartLibrary) (files : Files)
    (io : StatisticsIO) : Prop :=
  ∀ memory, ∃ rounds r, OperationWindow.load rounds lib files memory io = some r ∧ Defined r ∧
    ∀ io' m, r = .ok (io', m) → m.CanBeWritten ctx lib

def sizeWord (bytes : List UInt8) : UInt64 := (freadWords bytes 1).1.headD 0

/-- A file is as long as it says, and no longer than a vector of words. -/
def IsRead (bytes : List UInt8) : Prop :=
  bytes.length = (sizeWord bytes).toNat * 8 ∧ (sizeWord bytes).toNat ≤ 2 ^ 59

/-- The words that a window is read from: those of the file after the first one, and one that was in
the buffer. -/
def restartWords (io : StatisticsIO) (bytes : List UInt8) : IOBuffer :=
  (freadWords (bytes.drop 8) (sizeWord bytes).toNat).1 ++
    [io.buffer.getD ((sizeWord bytes).toNat - 1) 0]

/-- A file with a first word whose size the buffer can grow to; if it is read, an `int` can count its
words, and a window in them has a window type and a word to spare for the checksum. -/
structure Harmless (io : StatisticsIO) (bytes : List UInt8) : Prop where
  hasSize : 8 ≤ bytes.length
  grows : (sizeWord bytes).toNat ≤ 2 ^ 63
  countable : IsRead bytes → (sizeWord bytes).toNat ≤ 2 ^ 31
  window : IsRead bytes → WindowMembers.Accepted (restartWords io bytes) →
    ((restartWords io bytes)[16]? = some 0 ∨ (restartWords io bytes)[16]? = some 1) ∧
      ∀ size, (restartWords io bytes)[17]? = some size → 18 + size.toNat < 2 ^ 31

section

variable {io : StatisticsIO} {files : Files} {fname : String} {bytes : List UInt8}

theorem length_freadWords (bytes : List UInt8) (n : ℕ) :
    (freadWords bytes n).1.length = min n (bytes.length / 8) := by
  induction n generalizing bytes with
  | zero => exact (Nat.zero_min _).symm
  | succ n ih =>
    unfold freadWords
    split_ifs with hshort
    · rw [Nat.div_eq_of_lt hshort]
      exact (Nat.min_zero _).symm
    · rw [List.length_cons, ih, List.length_drop]
      omega

theorem freadWords_one (h : 8 ≤ bytes.length) (memory : UInt64) :
    (freadWords bytes 1).1.headD memory = sizeWord bytes ∧
      (freadWords bytes 1).2 = bytes.drop 8 := by
  unfold sizeWord freadWords
  rw [if_neg (not_lt.mpr h)]
  exact ⟨rfl, rfl⟩

theorem getElem?_takeD {α : Type} (l : List α) (a : α) {i n : ℕ} (h : i < n) :
    (l.takeD n a)[i]? = some (l.getD i a) := by
  induction n generalizing l i with
  | zero => cases h
  | succ n ih =>
    cases i with
    | zero => cases l <;> rfl
    | succ i => cases l <;> exact ih _ (Nat.lt_of_succ_lt_succ h)

theorem readSize_eq (hfname : io.generateCurrFileName "operationWindow" = .ok fname)
    (hfile : files fname = some bytes) (memory : UInt64) :
    FstreamIO.readSize io files memory "operationWindow" =
      .ok ((freadWords bytes 1).1.headD memory) := by
  unfold FstreamIO.readSize Action.StatisticsMtg2.FstreamIO.checkFileExist
  rw [hfname, ok_bind, hfile]
  rfl

/-- The words that are in the buffer after a file was read; the file has one word less than what is
asked for. -/
theorem read_eq_ok {n : ℕ} {buffer : List UInt64}
    (hfname : io.generateCurrFileName "operationWindow" = .ok fname)
    (hfile : files fname = some bytes) (hlength : bytes.length = n * 8) (hn : 0 < n)
    (hfits : n ≤ 2 ^ 59) (hbuffer : n ≤ buffer.length) :
    ∃ io', FstreamIO.read { io with buffer } files "operationWindow" n = .ok io' ∧
      io'.buffer.take n = (freadWords (bytes.drop 8) n).1 ++ (buffer.drop (n - 1)).take 1 := by
  have hname : StatisticsIO.generateCurrFileName { io with buffer } "operationWindow" = .ok fname :=
    hfname
  have hbytes : bytes.length = n * 8 % 2 ^ 64 := by omega
  have hwords : (freadWords (bytes.drop 8) n).1.length = n - 1 := by
    rw [length_freadWords, List.length_drop]
    omega
  have hrest : (freadWords bytes 1).2 = bytes.drop 8 := (freadWords_one (by omega) 0).2
  unfold FstreamIO.read Action.StatisticsMtg2.FstreamIO.checkFileExist
    Action.StatisticsMtg2.FstreamIO.checkFileSize
  rw [hname, ok_bind, hfile]
  simp only [Option.isSome_some, if_true, ok_bind, Option.getD_some, hrest]
  rw [if_neg (not_not.mpr hbytes), ok_bind, if_pos (by omega)]
  refine ⟨_, rfl, ?_⟩
  have hone : n - (freadWords (bytes.drop 8) n).1.length = 1 := by omega
  rw [List.take_append, List.take_of_length_le (by omega), hone, hwords]

theorem load_eq (hfname : io.generateCurrFileName "operationWindow" = .ok fname)
    (hfile : files fname = some bytes) (rounds : ℕ) (lib : RestartLibrary) (memory : UInt64) :
    OperationWindow.load rounds lib files memory io =
      (io.getBuffer rounds ((freadWords bytes 1).1.headD memory)).map fun io =>
        io >>= OperationWindow.loadState lib files ((freadWords bytes 1).1.headD memory) := by
  unfold OperationWindow.load
  rw [readSize_eq hfname hfile]

theorem load_endless (hio : io.Reached)
    (hfname : io.generateCurrFileName "operationWindow" = .ok fname)
    (hfile : files fname = some bytes) {memory : UInt64}
    (hlarge : 2 ^ 63 < ((freadWords bytes 1).1.headD memory).toNat) (rounds : ℕ)
    (lib : RestartLibrary) : OperationWindow.load rounds lib files memory io = none := by
  rw [load_eq hfname hfile, Option.map_eq_none_iff]
  by_contra hsome
  obtain ⟨r, hr⟩ := Option.ne_none_iff_exists'.mp hsome
  exact absurd (hio.powerOfTwo.getBuffer_isSome.mp ⟨rounds, r, hr⟩) (not_le.mpr hlarge)

end

section

variable {ctx : Statistics.StatisticsContext} {lib : RestartLibrary} {io : StatisticsIO}
  {files : Files} {fname : String} {bytes : List UInt8}

theorem loadState_of_isRead (hfname : io.generateCurrFileName "operationWindow" = .ok fname)
    (hfile : files fname = some bytes) (hread : IsRead bytes) (hsize : 8 ≤ bytes.length) {i : ℕ}
    (hi : (sizeWord bytes).toNat ≤ 2 ^ i) :
    ∃ io', OperationWindow.loadState lib files (sizeWord bytes)
        { io with buffer := io.buffer.takeD (2 ^ i) 0 } =
      WindowMembers.deserialize lib (restartWords io bytes) >>= fun m => .ok (io', m) := by
  obtain ⟨hlength, hfits⟩ := hread
  have hpos : 0 < (sizeWord bytes).toNat := by omega
  have hbuffer : (sizeWord bytes).toNat ≤ (io.buffer.takeD (2 ^ i) 0).length := by
    rw [List.takeD_length]
    exact hi
  obtain ⟨io', hio', htake⟩ := read_eq_ok hfname hfile hlength hpos hfits hbuffer
  have hold : ((io.buffer.takeD (2 ^ i) 0).drop ((sizeWord bytes).toNat - 1)).take 1 =
      [io.buffer.getD ((sizeWord bytes).toNat - 1) 0] := by
    have hlt : (sizeWord bytes).toNat - 1 < (io.buffer.takeD (2 ^ i) 0).length := by omega
    have hget := getElem?_takeD io.buffer 0 (show (sizeWord bytes).toNat - 1 < 2 ^ i by omega)
    rw [List.getElem?_eq_getElem hlt] at hget
    rw [List.drop_eq_getElem_cons hlt, List.take_succ_cons, List.take_zero, Option.some.inj hget]
  rw [hold] at htake
  unfold OperationWindow.loadState
  rw [hio', ok_bind, htake]
  let buffer := List.replicate (sizeWord bytes).toNat 0 ++ io'.buffer.drop (sizeWord bytes).toNat
  exact ⟨{ io' with buffer }, rfl⟩

/-- A file that is too short for its size is loaded with whatever the memory holds. -/
theorem not_loadsSafely_of_short (hio : io.Reached)
    (hfname : io.generateCurrFileName "operationWindow" = .ok fname)
    (hfile : files fname = some bytes) (hshort : bytes.length < 8) :
    ¬ LoadsSafely ctx lib files io := by
  intro h
  let memory : UInt64 := 9223372036854775809
  obtain ⟨rounds, r, hr, -⟩ := h memory
  have hmemory : (freadWords bytes 1).1.headD memory = memory := by
    unfold freadWords
    rw [if_pos hshort]
    rfl
  have hlarge : 2 ^ 63 < ((freadWords bytes 1).1.headD memory).toNat := by
    rw [hmemory]
    decide
  rw [load_endless hio hfname hfile hlarge] at hr
  cases hr

theorem not_loadsSafely_of_large (hio : io.Reached)
    (hfname : io.generateCurrFileName "operationWindow" = .ok fname)
    (hfile : files fname = some bytes) (hsize : 8 ≤ bytes.length)
    (hlarge : 2 ^ 63 < (sizeWord bytes).toNat) : ¬ LoadsSafely ctx lib files io := by
  intro h
  obtain ⟨rounds, r, hr, -⟩ := h 0
  rw [← (freadWords_one hsize 0).1] at hlarge
  rw [load_endless hio hfname hfile hlarge] at hr
  cases hr

/-- The buffer refuses the size, or the file is not as long as it says; nothing is undefined. -/
theorem loadState_of_not_isRead (hpower : io.PowerOfTwo)
    (hfname : io.generateCurrFileName "operationWindow" = .ok fname)
    (hfile : files fname = some bytes) (hread : ¬ IsRead bytes) {rounds : ℕ}
    {buffer : Except Exception StatisticsIO}
    (hbuffer : io.getBuffer rounds (sizeWord bytes) = some buffer) :
    ∃ e, buffer >>= OperationWindow.loadState lib files (sizeWord bytes) = .error e ∧
      ∀ what, e ≠ .undefinedBehaviour what := by
  obtain hlong | hfits := Nat.lt_or_ge (2 ^ 59) (sizeWord bytes).toNat
  · rw [hpower.getBuffer_large hlong hbuffer]
    exact ⟨.lengthError "vector::_M_default_append", rfl, fun what h => (by cases h)⟩
  · obtain ⟨i, hi, hle, rfl⟩ := hpower.getBuffer_small hfits hbuffer
    have hlength : bytes.length ≠ (sizeWord bytes).toNat * 8 % 2 ^ 64 := by
      intro hlength
      exact hread ⟨by omega, hfits⟩
    have hfile' := (Action.StatisticsMtg2.FstreamIO.read_eq (io.buffer.takeD (2 ^ i) 0) hfname
      hfile (hle.trans_eq (List.takeD_length ..).symm)).2 hlength
    refine ⟨.seriousBug ("ERROR : wrong file size for restart : (" ++ fname ++ ")"), ?_,
      fun what h => (by cases h)⟩
    rw [ok_bind]
    unfold OperationWindow.loadState
    rw [hfile', error_bind]

theorem checkChecksum_defined_iff {ws : IOBuffer} {sum : UInt64} :
    Defined (IOBuffer.checkChecksum (ws ++ [sum])) ↔ ws.length < 2 ^ 31 := by
  constructor
  · intro h
    by_contra hlong
    exact h _ (IOBuffer.checkChecksum_long (not_lt.mp hlong) sum)
  · intro hlength
    rw [IOBuffer.checkChecksum_concat hlength]
    split_ifs
    · exact fun what h => (by cases h)
    · exact .ok ()

theorem restartWords_length (hread : IsRead bytes) (hsize : 8 ≤ bytes.length) :
    (freadWords (bytes.drop 8) (sizeWord bytes).toNat).1.length + 1 = (sizeWord bytes).toNat := by
  have hlength := hread.1
  rw [length_freadWords, List.length_drop]
  omega

variable (hlib : lib.Lawful ctx.calendar) (hcal : ctx.calendar.IsGregorian)

include hlib hcal

theorem isRead_safe_iff {io' : StatisticsIO} (hread : IsRead bytes) (hsize : 8 ≤ bytes.length)
    {r : Except Exception ( StatisticsIO × WindowMembers)}
    (hr : r = WindowMembers.deserialize lib (restartWords io bytes) >>= fun m => .ok (io', m)) :
    (Defined r ∧ ∀ io' m, r = .ok (io', m) → m.CanBeWritten ctx lib) ↔
      (sizeWord bytes).toNat ≤ 2 ^ 31 ∧
        (WindowMembers.Accepted (restartWords io bytes) →
          ((restartWords io bytes)[16]? = some 0 ∨ (restartWords io bytes)[16]? = some 1) ∧
          ∀ size, (restartWords io bytes)[17]? = some size → 18 + size.toNat < 2 ^ 31) := by
  have hwords := restartWords_length hread hsize
  have hchecksum : Defined (IOBuffer.checkChecksum (restartWords io bytes)) ↔
      (sizeWord bytes).toNat ≤ 2 ^ 31 := by
    unfold restartWords
    rw [checkChecksum_defined_iff]
    omega
  -- undefined behaviour can only come from the counter of the checksum
  have hdefined : Defined r ↔ (sizeWord bytes).toNat ≤ 2 ^ 31 := by
    rw [← hchecksum, hr]
    constructor
    · intro h what hundefined
      apply h what
      unfold WindowMembers.deserialize
      rw [hundefined]
      rfl
    · intro h
      exact (WindowMembers.deserialize_defined hlib h).bind fun m _ => .ok _
  have hwindow : (∀ io' m, r = .ok (io', m) → m.CanBeWritten ctx lib) ↔
      ∀ m, WindowMembers.deserialize lib (restartWords io bytes) = .ok m →
        m.CanBeWritten ctx lib := by
    constructor
    · intro h m hm
      exact h io' m (hr.trans (by rw [hm, ok_bind]))
    · intro h io'' m hm
      rw [hr] at hm
      obtain ⟨m', hm', heq⟩ := bind_eq_ok_iff.mp hm
      obtain ⟨-, rfl⟩ := Prod.mk.inj (Except.ok.inj heq)
      exact h m' hm'
  rw [hdefined, hwindow, WindowMembers.reads_writable_iff hlib hcal]

theorem loadsSafely_iff (hio : io.Reached)
    (hfname : io.generateCurrFileName "operationWindow" = .ok fname)
    (hfile : files fname = some bytes) :
    LoadsSafely ctx lib files io ↔ Harmless io bytes := by
  have hpower := hio.powerOfTwo
  obtain hshort | hsize := Nat.lt_or_ge bytes.length 8
  · exact iff_of_false (not_loadsSafely_of_short hio hfname hfile hshort)
      fun h => absurd h.hasSize (not_le.mpr hshort)
  obtain hlarge | hgrows := Nat.lt_or_ge (2 ^ 63) (sizeWord bytes).toNat
  · exact iff_of_false (not_loadsSafely_of_large hio hfname hfile hsize hlarge)
      fun h => absurd h.grows (not_le.mpr hlarge)
  -- the file has its first word, and the buffer grows to it
  have hload (rounds : ℕ) (memory : UInt64) :
      OperationWindow.load rounds lib files memory io =
        (io.getBuffer rounds (sizeWord bytes)).map fun io =>
          io >>= OperationWindow.loadState lib files (sizeWord bytes) := by
    rw [load_eq hfname hfile, (freadWords_one hsize memory).1]
  obtain ⟨rounds, buffer, hbuffer⟩ := hpower.getBuffer_isSome.mpr hgrows
  by_cases hread : IsRead bytes
  · have hsafe {rounds : ℕ} {buffer : Except Exception StatisticsIO}
        (hbuffer : io.getBuffer rounds (sizeWord bytes) = some buffer) :
        ∃ io', buffer >>= OperationWindow.loadState lib files (sizeWord bytes) =
          WindowMembers.deserialize lib (restartWords io bytes) >>= fun m => .ok (io', m) := by
      obtain ⟨i, -, hi, rfl⟩ := hpower.getBuffer_small hread.2 hbuffer
      exact loadState_of_isRead hfname hfile hread hsize hi
    constructor
    · intro h
      obtain ⟨rounds, r, hr, hdefined, hwindow⟩ := h 0
      rw [hload] at hr
      obtain ⟨buffer, hbuffer, rfl⟩ := Option.map_eq_some_iff.mp hr
      obtain ⟨io', hio'⟩ := hsafe hbuffer
      obtain ⟨hcountable, hwords⟩ :=
        (isRead_safe_iff hlib hcal hread hsize hio').mp ⟨hdefined, hwindow⟩
      exact ⟨hsize, hgrows, fun _ => hcountable, fun _ => hwords⟩
    · intro h memory
      obtain ⟨io', hio'⟩ := hsafe hbuffer
      refine ⟨rounds, _, (hload rounds memory).trans (congrArg (Option.map _) hbuffer), ?_⟩
      exact (isRead_safe_iff hlib hcal hread hsize hio').mpr ⟨h.countable hread, h.window hread⟩
  · -- loading throws, whatever is in the memory
    refine iff_of_true ?_ ⟨hsize, hgrows, fun h => absurd h hread, fun h => absurd h hread⟩
    intro memory
    obtain ⟨e, he, hdefined⟩ := loadState_of_not_isRead hpower hfname hfile hread hbuffer
    refine ⟨rounds, _, (hload rounds memory).trans (congrArg (Option.map _) hbuffer), ?_, ?_⟩
    · exact fun what h => hdefined what (Except.error.inj (he.symm.trans h))
    · intro io' m hm
      cases he.symm.trans hm

/-- The sizes that the buffer grows to, the files that are loaded safely, and the changes of a word
that are noticed. -/
theorem restart_loading_iff :
    (∀ io : StatisticsIO, io.Reached → ∀ size : UInt64,
      (∃ rounds r, io.getBuffer rounds size = some r) ↔ size.toNat ≤ 2 ^ 63) ∧
    (∀ (io : StatisticsIO) (files : Files) (fname : String) (bytes : List UInt8), io.Reached →
      io.generateCurrFileName "operationWindow" = .ok fname → files fname = some bytes →
      (LoadsSafely ctx lib files io ↔ Harmless io bytes)) ∧
    ∀ (front back : IOBuffer) (w w' sum : UInt64),
      IOBuffer.checkChecksum (front ++ w :: back ++ [sum]) = .ok () →
      (IOBuffer.checkChecksum (front ++ w' :: back ++ [sum]) =
          .error (.seriousBug "ERROR : wrong Checksum") ↔
        ¬ Word.AgreeTo (64 - back.length) w w') := by
  refine ⟨?_, ?_, ?_⟩
  · exact fun io hio size => hio.powerOfTwo.getBuffer_isSome
  · exact fun io files fname bytes hio hfname hfile => loadsSafely_iff hlib hcal hio hfname hfile
  · exact fun front back w w' sum h => IOBuffer.detects_iff w' h

end

/-- A change of the highest bit is lost in the next word. -/
example : IOBuffer.checksum [0x8000000000000000, 5, 0] = IOBuffer.checksum [0, 5, 0] := by decide

def restartIO : StatisticsIO where
  basePath := "restart"
  uniqueID := "plan"
  path := ["operationWindow"]
  dateTime := "20200101-000000"
  hasValidDateTime := true

theorem restartIO_reached : restartIO.Reached :=
  StatisticsIO.Reached.make "restart" "plan" |>.moved ["operationWindow"] "20200101-000000" true

theorem restart_loading_iff_words :
    (∃ rounds r, restartIO.getBuffer rounds 100 = some r) ∧
    LoadsSafely Statistics.wordContext Statistics.orderedRestart (fun _ => some (wordBytes 100))
      restartIO ∧
    IOBuffer.checkChecksum [7, 5, IOBuffer.mix (IOBuffer.mix 1979339339 0) 5] =
      .error (.seriousBug "ERROR : wrong Checksum") := by
  obtain ⟨hgrow, hload, hdetect⟩ := @restart_loading_iff Statistics.wordContext
    Statistics.orderedRestart Statistics.orderedRestart_lawful Calendar.gregorian_isGregorian
  have hnot : ¬ IsRead (wordBytes 100) := by
    intro h
    cases h.1
  refine ⟨(hgrow restartIO restartIO_reached 100).mpr (by decide), ?_, ?_⟩
  · refine (hload restartIO (fun _ => some (wordBytes 100)) _ _ restartIO_reached rfl rfl).mpr ?_
    exact ⟨by decide, by decide, fun h => absurd h hnot, fun h => absurd h hnot⟩
  · exact (hdetect [] [5] 0 7 _ (by decide)).mpr (by decide)

/-- A file that says that it has `2 ^ 63 + 1` words is read for ever. -/
theorem large_size_not_loaded :
    ¬ ((∀ io : StatisticsIO, io.Reached → ∀ size : UInt64,
        ∃ rounds r, io.getBuffer rounds size = some r) ∧
      (∀ (io : StatisticsIO) (files : Files) (fname : String) (bytes : List UInt8), io.Reached →
        io.generateCurrFileName "operationWindow" = .ok fname → files fname = some bytes →
        LoadsSafely Statistics.wordContext Statistics.orderedRestart files io) ∧
      ∀ (front back : IOBuffer) (w w' sum : UInt64),
        IOBuffer.checkChecksum (front ++ w :: back ++ [sum]) = .ok () → w' ≠ w →
        IOBuffer.checkChecksum (front ++ w' :: back ++ [sum]) =
          .error (.seriousBug "ERROR : wrong Checksum")) := by
  rintro ⟨-, hload, -⟩
  have hsafe := hload restartIO (fun _ => some (wordBytes 9223372036854775809)) _ _
    restartIO_reached rfl rfl
  obtain ⟨rounds, r, hr, -⟩ := hsafe 0
  have hlarge : 2 ^ 63 < ((freadWords (wordBytes 9223372036854775809) 1).1.headD 0).toNat := by
    decide
  rw [load_endless restartIO_reached rfl rfl hlarge] at hr
  cases hr

end Multio.StatisticsMtg2
