import Multio.Util.Exception
import Multio.Util.ByteOrder
import Mathlib.Logic.Function.Basic

namespace Multio.Action.StatisticsMtg2
open Exception Util

/-- The contents of the files by name, which are kept as they are written. -/
abbrev Files := String → Option (List UInt8)

structure StatisticsIO where
  basePath : String
  uniqueID : String
  ext : String := "fstreamIO"
  path : List String := []
  dateTime : String := ""
  hasValidDateTime : Bool := false
  buffer : List UInt64 := [8192, 0]

namespace StatisticsIO

def getCurrentDir (io : StatisticsIO) : Except Exception String :=
  if !io.hasValidDateTime then .error (.seriousBug "ERROR : no valid datetime found")
  else .ok (io.path.foldl (fun os dir => os ++ "/" ++ dir)
    (io.basePath ++ "/" ++ io.uniqueID ++ "/" ++ io.dateTime))

def generateCurrFileName (io : StatisticsIO) (name : String) : Except Exception String := do
  let dir ← io.getCurrentDir
  .ok (dir ++ "/" ++ name ++ "." ++ io.ext)

end StatisticsIO

/-- What `fwrite` makes of one `std::uint64_t`. -/
def wordBytes (x : UInt64) : List UInt8 := littleEndian 8 x.toNat

/-- `fread` of up to `n` words: the whole ones that are there, and what comes after them. -/
def freadWords (bytes : List UInt8) : ℕ → List UInt64 × List UInt8
  | 0 => ([], bytes)
  | n + 1 =>
    if bytes.length < 8 then ([], [])
    else
      let (words, rest) := freadWords (bytes.drop 8) n
      (UInt64.ofNat (ofLittleEndian (bytes.take 8)) :: words, rest)

namespace FstreamIO

variable (io : StatisticsIO) (files : Files)

def write (name : String) (fieldSize : UInt64) (writeSize : ℕ) : Except Exception Files := do
  let fname ← io.generateCurrFileName name
  if writeSize ≤ io.buffer.length then
    .ok (Function.update files fname
      (some (wordBytes fieldSize ++ (io.buffer.take writeSize).flatMap wordBytes)))
  else .error (.undefinedBehaviour "read outside of the buffer")

def checkFileExist (fname : String) : Except Exception Unit :=
  if (files fname).isSome then .ok ()
  else .error (.seriousBug ("ERROR : wrong file not exist : (" ++ fname ++ ")"))

def checkFileSize (fname : String) (expectedSize : ℕ) : Except Exception Unit :=
  if ((files fname).getD []).length ≠ expectedSize then
    .error (.seriousBug ("ERROR : wrong file size for restart : (" ++ fname ++ ")"))
  else .ok ()

/-- `memory` is what `sz` holds when the file has no word. -/
def readSize (memory : UInt64) (name : String) : Except Exception UInt64 := do
  let fname ← io.generateCurrFileName name
  checkFileExist files fname
  .ok ((freadWords ((files fname).getD []) 1).1.headD memory)

/-- `read`, with the buffer it leaves; words that are not there stay as they were. -/
def read (name : String) (readSize : ℕ) : Except Exception StatisticsIO := do
  let fname ← io.generateCurrFileName name
  checkFileExist files fname
  checkFileSize files fname (readSize * 8 % 2 ^ 64)
  let rest := (freadWords ((files fname).getD []) 1).2
  let words := (freadWords rest readSize).1
  if words.length ≤ io.buffer.length then
    .ok { io with buffer := words ++ io.buffer.drop words.length }
  else .error (.undefinedBehaviour "write outside of the buffer")

/-- Writing and then reading under one name, into any buffer, gives the words back. -/
def ReadsBack (buffer : List UInt64) (memory : UInt64) (name : String) (fieldSize : UInt64)
    (writeSize : ℕ) : Prop :=
  ∃ files' io', write io files name fieldSize writeSize = .ok files' ∧
    readSize { io with buffer } files' memory name = .ok fieldSize ∧
    read { io with buffer } files' name writeSize = .ok io' ∧
    io'.buffer.take writeSize = io.buffer.take writeSize

/-- Reading a file of which only the beginning was written throws. -/
def ReportsIncomplete (buffer : List UInt64) (name : String) (fieldSize : UInt64)
    (writeSize : ℕ) : Prop :=
  ∀ files' fname bytes part, write io files name fieldSize writeSize = .ok files' →
    io.generateCurrFileName name = .ok fname → files' fname = some bytes → part <+: bytes →
    part ≠ bytes →
    ∃ e, read { io with buffer } (Function.update files' fname (some part)) name writeSize =
      .error e

theorem wordBytes_length (x : UInt64) : (wordBytes x).length = 8 := littleEndian_length 8 _

theorem flatMap_wordBytes_length (xs : List UInt64) :
    (xs.flatMap wordBytes).length = xs.length * 8 := by
  induction xs with
  | nil => rfl
  | cons x xs ih =>
    rw [List.flatMap_cons, List.length_append, wordBytes_length, ih, List.length_cons]
    omega

theorem freadWords_wordBytes (x : UInt64) (rest : List UInt8) (n : ℕ) :
    freadWords (wordBytes x ++ rest) (n + 1) =
      (x :: (freadWords rest n).1, (freadWords rest n).2) := by
  have hlen := wordBytes_length x
  have hword : UInt64.ofNat (ofLittleEndian (wordBytes x)) = x := by
    rw [wordBytes, ofLittleEndian_littleEndian (by exact x.toNat_lt), UInt64.ofNat_toNat]
  rw [freadWords, if_neg (by rw [List.length_append]; omega), List.drop_left' hlen,
    List.take_left' hlen, hword]

theorem freadWords_length_le (bytes : List UInt8) (n : ℕ) :
    (freadWords bytes n).1.length ≤ n := by
  induction n generalizing bytes with
  | zero => exact le_rfl
  | succ n ih =>
    rw [freadWords]
    split_ifs
    · exact Nat.zero_le _
    · exact Nat.succ_le_succ (ih _)

variable {io files} {name fname : String} {fieldSize : UInt64} {writeSize : ℕ}

theorem generateCurrFileName_ok (hdir : io.hasValidDateTime = true) (name : String) :
    ∃ fname, io.generateCurrFileName name = .ok fname := by
  rw [ StatisticsIO.generateCurrFileName, StatisticsIO.getCurrentDir, hdir]
  exact ⟨_, rfl⟩

theorem write_ok (hfname : io.generateCurrFileName name = .ok fname)
    (hio : writeSize ≤ io.buffer.length) :
    write io files name fieldSize writeSize = .ok (Function.update files fname
      (some (wordBytes fieldSize ++ (io.buffer.take writeSize).flatMap wordBytes))) := by
  rw [write, hfname, ok_bind, if_pos hio]

/-- A file is read when it is as long as the words asked for, without the word of the size. -/
theorem read_eq (buffer : List UInt64) (hfname : io.generateCurrFileName name = .ok fname)
    {bytes : List UInt8} (hfile : files fname = some bytes) {n : ℕ} (hbuffer : n ≤ buffer.length) :
    (bytes.length = n * 8 % 2 ^ 64 → ∃ io', read { io with buffer } files name n = .ok io') ∧
      (bytes.length ≠ n * 8 % 2 ^ 64 → read { io with buffer } files name n =
        .error (.seriousBug ("ERROR : wrong file size for restart : (" ++ fname ++ ")"))) := by
  have hname : StatisticsIO.generateCurrFileName { io with buffer } name = .ok fname := hfname
  have hexists : checkFileExist files fname = .ok () := by
    rw [checkFileExist, hfile]
    rfl
  rw [read, hname, ok_bind, hexists, ok_bind, checkFileSize, hfile, Option.getD_some]
  constructor
  · intro hlen
    rw [if_neg (not_not.mpr hlen), ok_bind]
    dsimp only
    rw [if_pos ((freadWords_length_le _ n).trans hbuffer)]
    exact ⟨_, rfl⟩
  · intro hlen
    rw [if_pos hlen, error_bind]

theorem readSize_write (buffer : List UInt64) (memory : UInt64)
    (hfname : io.generateCurrFileName name = .ok fname) {words : List UInt8}
    (hfile : files fname = some (wordBytes fieldSize ++ words)) :
    readSize { io with buffer } files memory name = .ok fieldSize := by
  have hname : StatisticsIO.generateCurrFileName { io with buffer } name = .ok fname := hfname
  rw [readSize, hname, ok_bind, checkFileExist, hfile]
  simp only [Option.isSome_some, if_true, ok_bind, Option.getD_some, freadWords_wordBytes,
    List.headD_cons]

/-- The word of the size makes what is written one word longer than what `read` accepts. -/
theorem not_readsBack (buffer : List UInt64) (memory : UInt64)
    (hfname : io.generateCurrFileName name = .ok fname) (hio : writeSize ≤ io.buffer.length)
    (hbuffer : writeSize ≤ buffer.length) :
    ¬ ReadsBack io files buffer memory name fieldSize writeSize := by
  rintro ⟨files', io', hwrite, -, hread, -⟩
  rw [write_ok hfname hio] at hwrite
  cases hwrite
  have hfile := Function.update_self fname
    (some (wordBytes fieldSize ++ (io.buffer.take writeSize).flatMap wordBytes)) files
  have herror := (read_eq buffer hfname hfile hbuffer).2 (by
    rw [List.length_append, wordBytes_length, flatMap_wordBytes_length, List.length_take,
      Nat.min_eq_left hio]
    omega)
  rw [herror] at hread
  cases hread

/-- The beginning of a file that is as long as the words asked for is accepted. -/
theorem not_reportsIncomplete (buffer : List UInt64)
    (hfname : io.generateCurrFileName name = .ok fname) (hio : writeSize ≤ io.buffer.length)
    (hbuffer : writeSize ≤ buffer.length) :
    ¬ ReportsIncomplete io files buffer name fieldSize writeSize := by
  intro h
  set bytes := wordBytes fieldSize ++ (io.buffer.take writeSize).flatMap wordBytes with hbytes
  have hlen : bytes.length = 8 + writeSize * 8 := by
    rw [hbytes, List.length_append, wordBytes_length, flatMap_wordBytes_length, List.length_take,
      Nat.min_eq_left hio]
  have htake : (bytes.take (writeSize * 8 % 2 ^ 64)).length = writeSize * 8 % 2 ^ 64 := by
    rw [List.length_take, hlen]
    omega
  obtain ⟨e, herror⟩ := h _ fname bytes (bytes.take (writeSize * 8 % 2 ^ 64))
    (write_ok hfname hio) hfname (Function.update_self ..) (List.take_prefix _ _) (by
      intro heq
      rw [heq, hlen] at htake
      omega)
  obtain ⟨io', hok⟩ := (read_eq buffer hfname (Function.update_self ..) hbuffer).1 htake
  rw [hok] at herror
  cases herror

/-- The size comes back, but no file that was written is read, and one that lacks its last word is
read without a complaint. -/
theorem restart_file_not_read_back (io : StatisticsIO) (files : Files) (buffer : List UInt64)
    (memory : UInt64) (name : String) (fieldSize : UInt64) (writeSize : ℕ)
    (hdir : io.hasValidDateTime = true) (hio : writeSize ≤ io.buffer.length)
    (hbuffer : writeSize ≤ buffer.length) :
    (∃ files', write io files name fieldSize writeSize = .ok files' ∧
      readSize { io with buffer } files' memory name = .ok fieldSize) ∧
    ¬ ReadsBack io files buffer memory name fieldSize writeSize ∧
    ¬ ReportsIncomplete io files buffer name fieldSize writeSize := by
  obtain ⟨fname, hfname⟩ := generateCurrFileName_ok hdir name
  refine ⟨⟨_, write_ok hfname hio, ?_⟩, not_readsBack buffer memory hfname hio hbuffer,
    not_reportsIncomplete buffer hfname hio hbuffer⟩
  exact readSize_write buffer memory hfname (Function.update_self ..)

def windowIO : StatisticsIO where
  basePath := "restart"
  uniqueID := "plan"
  dateTime := "20200101-000000"
  hasValidDateTime := true
  buffer := [7, 8]

theorem restart_file_not_read_back_two :
    ¬ ReadsBack windowIO (fun _ => none) [0, 0] 0 "operationWindow" 2 2 :=
  (restart_file_not_read_back windowIO (fun _ => none) [0, 0] 0 "operationWindow" 2 2 rfl
    (by decide) (by decide)).2.1

theorem window_not_read_back :
    ¬ ∀ (buffer : List UInt64) (name : String), 2 ≤ buffer.length →
      ReadsBack windowIO (fun _ => none) buffer 0 name 2 2 ∧
        ReportsIncomplete windowIO (fun _ => none) buffer name 2 2 := by
  intro h
  obtain ⟨fname, hfname⟩ := generateCurrFileName_ok
    (show windowIO.hasValidDateTime = true from rfl) "operationWindow"
  exact not_readsBack [0, 0] 0 hfname (by decide) (by decide)
    (h [0, 0] "operationWindow" (by decide)).1

end FstreamIO
end Multio.Action.StatisticsMtg2
