import Multio.Action.Statistics.OperationSizes
import Multio.Action.Statistics.Restart
import Mathlib.Data.List.Nodup
import Mathlib.Tactic.IntervalCases

namespace Multio.Statistics
open Lib StatisticsMtg2 Exception

/-- What is relied on of the restart library: it lists the files that there are, and it makes the
days and times that there are. -/
structure RestartLibrary.Lawful (lib : RestartLibrary) (calendar : Calendar) : Prop where
  listing_perm : ∀ names : List String, (lib.listing names).Perm names
  makeDate_ok : ∀ {y m d : ℤ}, 0 ≤ y ∧ y ≤ 9999 → 1 ≤ m ∧ m ≤ 12 →
    1 ≤ d ∧ d ≤ Calendar.monthLength y m → lib.makeDate y m d = .ok (calendar.date y m d)
  makeTime_ok : ∀ {h m s : ℤ}, 0 ≤ h ∧ h ≤ 23 → 0 ≤ m ∧ m ≤ 59 → 0 ≤ s ∧ s ≤ 59 →
    lib.makeTime h m s = .ok (3600 * h + 60 * m + s)

theorem lastDayOfTheMonth_eq {y m : ℤ} (hy : 0 ≤ y) (hm : 1 ≤ m ∧ m ≤ 12) :
    lastDayOfTheMonth y m = Calendar.monthLength y m := by
  obtain ⟨hm, hm'⟩ := hm
  have hleap : (if y % 4 = 0 then if y % 100 = 0 then if y % 400 = 0 then 1 else 2 else 1 else 2) =
      if Calendar.leapYear y then (1 : ℤ) else 2 := by
    unfold Calendar.leapYear
    split_ifs <;> simp_all
  unfold lastDayOfTheMonth Calendar.monthLength
  simp only []
  rw [Int.tmod_eq_emod_of_nonneg hy, Int.tmod_eq_emod_of_nonneg hy, Int.tmod_eq_emod_of_nonneg hy,
    hleap]
  cases Calendar.leapYear y <;> interval_cases m <;> rfl

theorem yyyymmdd2ymd_ok {y m d : ℤ} (hy : 0 ≤ y ∧ y ≤ 9999) (hm : 1 ≤ m ∧ m ≤ 12)
    (hd : 1 ≤ d ∧ d ≤ Calendar.monthLength y m) :
    yyyymmdd2ymd (10000 * y + 100 * m + d) = .ok (y, m, d) := by
  have hlength := Calendar.monthLength_le y m
  have hday : (10000 * y + 100 * m + d).tmod 100 = d := by
    rw [Int.tmod_eq_emod_of_nonneg (by omega)]
    omega
  have hmonth : ((10000 * y + 100 * m + d).tmod 10000).tdiv 100 = m := by
    rw [Int.tmod_eq_emod_of_nonneg (by omega), Int.tdiv_eq_ediv_of_nonneg (by omega)]
    omega
  have hyear : ((10000 * y + 100 * m + d).tmod 100000000).tdiv 10000 = y := by
    rw [Int.tmod_eq_emod_of_nonneg (by omega), Int.tdiv_eq_ediv_of_nonneg (by omega)]
    omega
  unfold yyyymmdd2ymd
  simp only []
  rw [hday, hmonth, hyear, lastDayOfTheMonth_eq hy.1 hm, if_neg (by omega), if_neg (by omega)]

theorem hhmmss2hms_ok {h m s : ℤ} (hh : 0 ≤ h ∧ h ≤ 23) (hm : 0 ≤ m ∧ m ≤ 59)
    (hs : 0 ≤ s ∧ s ≤ 59) : hhmmss2hms (10000 * h + 100 * m + s) = .ok (h, m, s) := by
  have hsecond : (10000 * h + 100 * m + s).tmod 100 = s := by
    rw [Int.tmod_eq_emod_of_nonneg (by omega)]
    omega
  have hminute : ((10000 * h + 100 * m + s).tmod 10000).tdiv 100 = m := by
    rw [Int.tmod_eq_emod_of_nonneg (by omega), Int.tdiv_eq_ediv_of_nonneg (by omega)]
    omega
  have hhour : ((10000 * h + 100 * m + s).tmod 1000000).tdiv 10000 = h := by
    rw [Int.tmod_eq_emod_of_nonneg (by omega), Int.tdiv_eq_ediv_of_nonneg (by omega)]
    omega
  unfold hhmmss2hms
  simp only []
  rw [hsecond, hminute, hhour, if_neg (by omega), if_neg (by omega), if_neg (by omega)]

/-- The year of a point in time is written with at most four digits. -/
def FourDigits (ctx : StatisticsContext) (t : DateTime) : Prop :=
  0 ≤ ctx.calendar.year t.date ∧ ctx.calendar.year t.date ≤ 9999

theorem seconds_split (t : ℤ) : 86400 * (t / 86400) +
    (3600 * (t % 86400 / 3600) + 60 * (t % 86400 % 3600 / 60) + t % 86400 % 60) = t := by
  omega

theorem dateTime_read {ctx : StatisticsContext} {lib : RestartLibrary}
    (hlib : lib.Lawful ctx.calendar) (hcal : ctx.calendar.IsGregorian) {t : DateTime}
    (ht : FourDigits ctx t) :
    yyyymmdd_hhmmss2DateTime lib (yyyymmdd ctx t) (hhmmss t) = .ok t := by
  have hm := hcal.month_mem (DateTime.date t)
  have hd := hcal.day_mem (DateTime.date t)
  have hdate : yyyymmdd2ymd (yyyymmdd ctx t) = .ok (ctx.calendar.year (DateTime.date t),
      ctx.calendar.month (DateTime.date t), ctx.calendar.day (DateTime.date t)) :=
    yyyymmdd2ymd_ok ht hm hd
  have hpos : 0 ≤ DateTime.time t ∧ DateTime.time t < 86400 := by
    unfold DateTime.time
    omega
  have hh : 0 ≤ DateTime.time t / 3600 ∧ DateTime.time t / 3600 ≤ 23 := by omega
  have hmin : 0 ≤ DateTime.time t % 3600 / 60 ∧ DateTime.time t % 3600 / 60 ≤ 59 := by omega
  have hs : 0 ≤ DateTime.time t % 60 ∧ DateTime.time t % 60 ≤ 59 := by omega
  have htime : hhmmss2hms (hhmmss t) = .ok (DateTime.time t / 3600, DateTime.time t % 3600 / 60,
      DateTime.time t % 60) := hhmmss2hms_ok hh hmin hs
  unfold yyyymmdd_hhmmss2DateTime
  rw [hdate, ok_bind]
  simp only []
  rw [htime, ok_bind]
  simp only []
  rw [hlib.makeDate_ok ht hm hd, ok_bind, hlib.makeTime_ok hh hmin hs, ok_bind, hcal.date_ymd]
  exact congrArg Except.ok (seconds_split t)

theorem RestartFiles.file_write (name : String) (file : RestartFile) :
    RestartFiles.file (RestartFiles.write [] name file) name = .ok file := by
  simp [RestartFiles.file, RestartFiles.write]

theorem RestartFiles.read_ok {files : RestartFiles} {name : String} {file : RestartFile}
    (h : files.file name = .ok file) {n : ℕ} (hn : file.words.length = n) :
    files.read name n = .ok file.words := by
  unfold RestartFiles.read
  rw [h, ok_bind, if_pos hn]

namespace PeriodRestart

theorem timeUnit_name (u : TimeUnit) : timeUnit u.name = .ok u := by
  cases u <;> rfl

theorem load_dump {lib : RestartLibrary} {calendar : Calendar} (hlib : lib.Lawful calendar)
    (u : PeriodUpdater) : ∃ files, dump u = .ok files ∧ load lib files = .ok u := by
  let file : RestartFile := { fieldSize := 1, words := [u.span] ++ [sumWord [u.span]] }
  refine ⟨RestartFiles.write [] u.timeUnit.name file, rfl, ?_⟩
  have hlisting : lib.listing ((RestartFiles.write [] u.timeUnit.name file).map Prod.fst) =
      [u.timeUnit.name] := List.perm_singleton.mp (hlib.listing_perm _)
  have hfile := RestartFiles.file_write u.timeUnit.name file
  unfold load
  rw [hlisting]
  simp only []
  rw [timeUnit_name, ok_bind, RestartFiles.read_ok (n := 2) hfile rfl, ok_bind,
    checkChecksum_sumWord (List.length_singleton.trans_lt (by decide))]
  rfl

end PeriodRestart

namespace WindowRestart

/-- The years of all points of a window have at most four digits. -/
structure Dated (ctx : StatisticsContext) (w : OperationWindow) : Prop where
  epochPoint : FourDigits ctx w.epochPoint
  startPoint : FourDigits ctx w.startPoint
  endPoint : FourDigits ctx w.endPoint
  creationPoint : FourDigits ctx w.creationPoint
  prevPoint : FourDigits ctx w.prevPoint
  currPoint : FourDigits ctx w.currPoint
  lastFlush : FourDigits ctx w.lastFlush

theorem ofTypeWord_typeWord (t : WindowType) : ofTypeWord (typeWord t) = .ok t := by
  cases t <;> rfl

variable {ctx : StatisticsContext} {lib : RestartLibrary} (hlib : lib.Lawful ctx.calendar)
  (hcal : ctx.calendar.IsGregorian) {w : OperationWindow} (hw : Dated ctx w)

include hlib hcal hw

theorem deserialize_serialize : deserialize lib (serialize ctx w) = .ok w := by
  unfold serialize
  simp only [List.cons_append, List.nil_append]
  unfold deserialize
  simp only []
  rw [dateTime_read hlib hcal hw.epochPoint, ok_bind, dateTime_read hlib hcal hw.startPoint,
    ok_bind, dateTime_read hlib hcal hw.endPoint, ok_bind,
    dateTime_read hlib hcal hw.creationPoint, ok_bind, dateTime_read hlib hcal hw.prevPoint,
    ok_bind, dateTime_read hlib hcal hw.currPoint, ok_bind,
    dateTime_read hlib hcal hw.lastFlush, ok_bind, ofTypeWord_typeWord, ok_bind,
    if_neg (lt_irrefl _), Int.toNat_natCast, List.take_length]

theorem load_dump :
    ((serialize ctx w).length < 2 ^ 31 ↔ ∃ files, dump ctx w = .ok files) ∧
      ∀ files, dump ctx w = .ok files → load lib files = .ok w := by
  have hdump {files : RestartFiles} (h : dump ctx w = .ok files) :
      (serialize ctx w).length < 2 ^ 31 ∧ load lib files = .ok w := by
    obtain ⟨words, hwords, heq⟩ := bind_eq_ok_iff.mp h
    obtain rfl := Except.ok.inj heq
    obtain ⟨hlength, rfl⟩ := computeChecksum_eq_ok_iff.mp hwords
    have hfile := RestartFiles.file_write "operationWindow"
      { fieldSize := (serialize ctx w ++ [sumWord (serialize ctx w)]).length,
        words := serialize ctx w ++ [sumWord (serialize ctx w)] }
    refine ⟨hlength, ?_⟩
    unfold load
    rw [hfile, ok_bind, RestartFiles.read_ok hfile rfl, ok_bind, checkChecksum_sumWord hlength,
      ok_bind]
    exact deserialize_serialize hlib hcal hw
  refine ⟨⟨fun hlength => ?_, fun ⟨_, h⟩ => (hdump h).1⟩, fun _ h => (hdump h).2⟩
  unfold dump
  rw [computeChecksum_eq_ok_iff.mpr ⟨hlength, rfl⟩]
  exact ⟨_, rfl⟩

end WindowRestart

namespace RestartFiles

variable {files : RestartFiles} {name : String}

theorem write_of_notMem (h : name ∉ files.map Prod.fst) (file : RestartFile) :
    files.write name file = files ++ [(name, file)] := by
  unfold write
  rw [if_neg]
  rw [List.any_eq_true]
  rintro ⟨f, hf, hname⟩
  exact h (List.mem_map.mpr ⟨f, hf, of_decide_eq_true hname⟩)

theorem names_write (files : RestartFiles) (name : String) (file : RestartFile) :
    (files.write name file).map Prod.fst =
      if name ∈ files.map Prod.fst then files.map Prod.fst else files.map Prod.fst ++ [name] := by
  by_cases h : name ∈ files.map Prod.fst
  · have hany : (files.any fun f => f.1 = name) = true := by
      obtain ⟨f, hf, hname⟩ := List.mem_map.mp h
      exact List.any_eq_true.mpr ⟨f, hf, decide_eq_true hname⟩
    unfold write
    rw [if_pos hany, if_pos h, List.map_map]
    apply List.map_congr_left
    intro f _
    rw [Function.comp_apply]
    split_ifs with hf
    · exact hf.symm
    · rfl
  · rw [write_of_notMem h, if_neg h, List.map_append]
    rfl

end RestartFiles

namespace OperationRestart

variable {A : FloatArithmetic} {files : RestartFiles}

def fileName (op : Operation A) : String := restartFileName op.kind op.precision

def fileOf (op : Operation A) : RestartFile where
  fieldSize := op.values.length
  words := serialize op ++ [sumWord (serialize op)]

def addFile (files : RestartFiles) (op : Operation A) : RestartFiles :=
  files.write (fileName op) (fileOf op)

theorem dump_eq_ok_iff {op : Operation A} {files' : RestartFiles} :
    dump files op = .ok files' ↔ (serialize op).length < 2 ^ 31 ∧ files' = addFile files op := by
  unfold dump
  rw [bind_eq_ok_iff]
  constructor
  · rintro ⟨words, hwords, heq⟩
    obtain ⟨hlength, rfl⟩ := computeChecksum_eq_ok_iff.mp hwords
    exact ⟨hlength, (Except.ok.inj heq).symm⟩
  · rintro ⟨hlength, rfl⟩
    exact ⟨_, computeChecksum_eq_ok_iff.mpr ⟨hlength, rfl⟩, rfl⟩

/-- The files of the operations are written if the words of each can be counted. -/
theorem foldlM_dump_eq_ok_iff {ops : List (Operation A)} {files' : RestartFiles} :
    ops.foldlM dump files = .ok files' ↔
      (∀ op ∈ ops, (serialize op).length < 2 ^ 31) ∧ files' = ops.foldl addFile files := by
  induction ops generalizing files with
  | nil => exact ⟨fun h => ⟨by simp, (Except.ok.inj h).symm⟩, fun h => congrArg _ h.2.symm⟩
  | cons op ops ih =>
    rw [List.foldlM_cons, bind_eq_ok_iff, List.forall_mem_cons, List.foldl_cons]
    constructor
    · rintro ⟨files₁, hop, hops⟩
      obtain ⟨hlength, rfl⟩ := dump_eq_ok_iff.mp hop
      obtain ⟨hall, heq⟩ := ih.mp hops
      exact ⟨⟨hlength, hall⟩, heq⟩
    · rintro ⟨⟨hlength, hall⟩, heq⟩
      exact ⟨_, dump_eq_ok_iff.mpr ⟨hlength, rfl⟩, ih.mpr ⟨hall, heq⟩⟩

theorem mem_names_foldl (ops : List (Operation A)) (files : RestartFiles) {name : String} :
    name ∈ (ops.foldl addFile files).map Prod.fst ↔
      name ∈ files.map Prod.fst ∨ name ∈ ops.map fileName := by
  induction ops generalizing files with
  | nil => simp
  | cons op ops ih =>
    rw [List.foldl_cons, ih, addFile, RestartFiles.names_write, List.map_cons, List.mem_cons]
    split_ifs with h
    · constructor
      · exact fun hname => hname.imp_right Or.inr
      · rintro (hname | rfl | hname)
        · exact Or.inl hname
        · exact Or.inl h
        · exact Or.inr hname
    · rw [List.mem_append, List.mem_singleton, or_assoc]

theorem nodup_names_foldl (ops : List (Operation A)) {files : RestartFiles}
    (h : (files.map Prod.fst).Nodup) : ((ops.foldl addFile files).map Prod.fst).Nodup := by
  induction ops generalizing files with
  | nil => exact h
  | cons op ops ih =>
    apply ih
    rw [addFile, RestartFiles.names_write]
    split_ifs with hmem
    · exact h
    · rw [← List.concat_eq_append]
      exact List.Nodup.concat hmem h

theorem foldl_addFile (ops : List (Operation A)) {files : RestartFiles}
    (h : (files.map Prod.fst ++ ops.map fileName).Nodup) :
    ops.foldl addFile files = files ++ ops.map fun op => (fileName op, fileOf op) := by
  induction ops generalizing files with
  | nil => exact (List.append_nil files).symm
  | cons op ops ih =>
    have hnot : fileName op ∉ files.map Prod.fst := by
      intro hmem
      exact List.disjoint_of_nodup_append h hmem List.mem_cons_self
    have hadd : addFile files op = files ++ [(fileName op, fileOf op)] :=
      RestartFiles.write_of_notMem hnot _
    have hnodup : ((files ++ [(fileName op, fileOf op)]).map Prod.fst ++ ops.map fileName).Nodup := by
      rw [List.map_append, List.append_assoc]
      exact h
    rw [List.foldl_cons, hadd, ih hnodup, List.append_assoc]
    rfl

theorem addFile_nil {ops : List (Operation A)} (h : (ops.map fileName).Nodup) :
    ops.foldl addFile [] = ops.map fun op => (fileName op, fileOf op) := foldl_addFile ops h

theorem decodePrecisionTag_name (p : PrecisionTag) :
    decodePrecisionTag (precisionName p) = .ok p := by
  cases p <;> rfl

/-- The regular expression accepts the name of a file unless that of the operation has a hyphen. -/
theorem parseFileName_restartFileName (k : OperationKind) (p : PrecisionTag) :
    parseFileName (restartFileName k p) =
      if '-' ∈ k.name.toList then
        .error (.seriousBug ("Wrong grammar in operation definition : " ++ restartFileName k p))
      else .ok (k.name, precisionName p) := by
  cases k <;> cases p <;> rfl

/-- Only operations that deaccumulate have initial values, as many as values. -/
def Sized (op : Operation A) : Prop :=
  op.initValues.length = if op.kind.deaccumulated then op.values.length else 0

theorem ofWords_words (hA : Lawful A) {p : PrecisionTag} (values : List (A.Real p)) :
    ofWords (words values) = values := by
  unfold ofWords words
  rw [List.map_map]
  conv_rhs => rw [← List.map_id values]
  apply List.map_congr_left
  intro v _
  simp only [Function.comp_apply, Int.toNat_natCast, UInt64.ofNat_toNat, hA.ofBits_bits,
    hA.ofDouble_toDouble, id]

theorem load_file (hA : Lawful A) {op : Operation A} (hfile : files.file (fileName op) = .ok (fileOf op))
    (hsized : Sized op) (hcounted : (serialize op).length < 2 ^ 31)
    (hplain : '-' ∉ op.kind.name.toList) : load A files (fileName op) = .ok op := by
  have hlength {p : PrecisionTag} (values : List (A.Real p)) : (words values).length = values.length :=
    List.length_map _
  unfold load
  rw [fileName, parseFileName_restartFileName, if_neg hplain, ok_bind]
  simp only []
  rw [decodePrecisionTag_name, ok_bind, OperationKind.ofName_name, ok_bind]
  rw [← fileName, hfile, ok_bind]
  have hwords : files.read (fileName op)
      (if op.kind.deaccumulated = true then 2 * (fileOf op).fieldSize + 1
        else (fileOf op).fieldSize + 1) =
          .ok (serialize op ++ [sumWord (serialize op)]) := by
    apply RestartFiles.read_ok hfile
    unfold fileOf
    simp only [List.length_append, List.length_singleton]
    unfold serialize Sized at *
    split_ifs at hsized ⊢
    · rw [List.length_append, hlength, hlength]
      omega
    · rw [hlength]
  rw [hwords, ok_bind, checkChecksum_sumWord hcounted, ok_bind]
  unfold serialize Sized at *
  obtain ⟨kind, precision, values, initValues⟩ := op
  simp only [fileOf] at hsized ⊢
  split_ifs at hsized ⊢
  · have hsize : values.length = (words initValues).length := by rw [hlength, hsized]
    rw [hsize, List.take_left, List.drop_left, ofWords_words hA, ofWords_words hA]
  · rw [ofWords_words hA, List.length_eq_zero_iff.mp hsized]

/-- What is read from a file is of the kind and the precision that are in its name. -/
theorem of_load {k : OperationKind} {p : PrecisionTag} {op : Operation A}
    (h : load A files (restartFileName k p) = .ok op) :
    '-' ∉ op.kind.name.toList ∧ fileName op = restartFileName k p := by
  unfold load at h
  by_cases hhyphen : '-' ∈ k.name.toList
  · rw [parseFileName_restartFileName, if_pos hhyphen, error_bind] at h
    cases h
  · rw [parseFileName_restartFileName, if_neg hhyphen, ok_bind] at h
    simp only [] at h
    rw [decodePrecisionTag_name, ok_bind, OperationKind.ofName_name, ok_bind] at h
    simp only [bind_eq_ok_iff] at h
    obtain ⟨file, -, ws, -, ws', -, hop⟩ := h
    split_ifs at hop
    · obtain rfl := Except.ok.inj hop
      exact ⟨hhyphen, rfl⟩
    · obtain rfl := Except.ok.inj hop
      exact ⟨hhyphen, rfl⟩

theorem file_map {ops : List (Operation A)} (h : (ops.map fileName).Nodup) {op : Operation A}
    (hop : op ∈ ops) :
    RestartFiles.file (ops.map fun op => (fileName op, fileOf op)) (fileName op) = .ok (fileOf op) := by
  unfold RestartFiles.file
  cases hfind : (ops.map fun op => (fileName op, fileOf op)).find? fun f => f.1 = fileName op with
  | none =>
    have hnone := List.find?_eq_none.mp hfind (fileName op, fileOf op)
      (List.mem_map.mpr ⟨op, hop, rfl⟩)
    exact absurd rfl (decide_eq_false_iff_not.mp (Bool.not_eq_true _ ▸ hnone))
  | some f =>
    obtain ⟨op', hop', rfl⟩ := List.mem_map.mp (List.mem_of_find?_eq_some hfind)
    have hfound := List.find?_some hfind
    have hname : fileName op' = fileName op := of_decide_eq_true hfound
    rw [List.inj_on_of_nodup_map h hop' hop hname]

/-- The operations come back exactly if each has a file of its own, of a name that is understood,
and the files are listed in the order of the operations. -/
theorem load_dump_iff (hA : Lawful A) {lib : RestartLibrary} {calendar : Calendar}
    (hlib : lib.Lawful calendar) {ops : List (Operation A)} (hsized : ∀ op ∈ ops, Sized op)
    (hcounted : ∀ op ∈ ops, (serialize op).length < 2 ^ 31) :
    (lib.listing ((ops.foldl addFile []).map Prod.fst)).mapM (load A (ops.foldl addFile [])) = .ok ops ↔
      (∀ op ∈ ops, '-' ∉ op.kind.name.toList) ∧ (ops.map fileName).Nodup ∧
        lib.listing (ops.map fileName) = ops.map fileName := by
  constructor
  · intro h
    rw [mapM_eq_ok_iff] at h
    have hnames (file : String) (hfile : file ∈ lib.listing ((ops.foldl addFile []).map Prod.fst)) :
        file ∈ ops.map fileName := by
      rw [(hlib.listing_perm _).mem_iff, mem_names_foldl] at hfile
      exact hfile.resolve_left List.not_mem_nil
    -- each operation was read from the file that is named after it
    have hread : List.Forall₂ (fun file op => '-' ∉ op.kind.name.toList ∧ file = fileName op)
        (lib.listing ((ops.foldl addFile []).map Prod.fst)) ops := by
      apply List.Forall₂.imp _ ((List.forall₂_and_left _ _).mpr ⟨hnames, h⟩)
      rintro file op ⟨hfile, hload⟩
      obtain ⟨op', -, rfl⟩ := List.mem_map.mp hfile
      exact (of_load hload).imp_right Eq.symm
    obtain ⟨hplain, hfiles⟩ := (List.forall₂_and_left _ _).mp hread.flip
    have hlisting : lib.listing ((ops.foldl addFile []).map Prod.fst) = ops.map fileName := by
      rw [← List.forall₂_eq_eq_eq, List.forall₂_map_right_iff]
      exact hfiles.flip
    have hnodup : (ops.map fileName).Nodup := by
      rw [← hlisting, (hlib.listing_perm _).nodup_iff]
      exact nodup_names_foldl ops List.nodup_nil
    refine ⟨hplain, hnodup, ?_⟩
    rwa [addFile_nil hnodup, List.map_map] at hlisting
  · rintro ⟨hplain, hnodup, hlisting⟩
    rw [addFile_nil hnodup, List.map_map]
    show (lib.listing (ops.map fileName)).mapM _ = Except.ok ops
    rw [hlisting, mapM_eq_ok_iff, List.forall₂_map_left_iff, List.forall₂_same]
    intro op hop
    exact load_file hA (file_map hnodup hop) (hsized op hop) (hcounted op hop) (hplain op hop)

end OperationRestart
end Multio.Statistics
