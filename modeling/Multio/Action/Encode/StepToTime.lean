import Multio.Datamod.Types
import Multio.Message.BaseMetadata
import Multio.Util.DateTimeInts

namespace Multio.GribEncoder
open Lib Util Exception Datamod

structure EncoderContext where
  parametrization : BaseMetadata
  policy : HashPolicy String
  calendar : Calendar
  numbers : DateTimeNumbers
  /-- The seconds of `eckit::Time(hours, minutes, seconds)`. -/
  time : ℤ → ℤ → ℤ → Except Exception ℤ
  /-- `eckit::translate<std::int64_t>`. -/
  translate : String → Except Exception ℤ
  /-- `hasKey` of the handle that is written to. -/
  hasKey : String → Bool

/-- "`eckit::Time` is not supposed to hold values larger than 23:59:59." -/
structure EncoderContext.IsDocumented (ctx : EncoderContext) : Prop where
  gregorian : ctx.calendar.IsGregorian
  numbers : ctx.numbers.IsDocumented
  time_eq : ∀ t : TimeInts, 0 ≤ t.hour ∧ t.hour ≤ 23 → 0 ≤ t.minute ∧ t.minute ≤ 59 →
    0 ≤ t.second ∧ t.second ≤ 59 → ctx.time t.hour t.minute t.second = .ok t.seconds
  time_midnight : ∀ n, ctx.time 24 0 0 ≠ .ok n

variable (ctx : EncoderContext)

/-- What is found in the metadata. -/
abbrev reader (md : BaseMetadata) : String → Option MetadataValue :=
  Metadata.find ctx.parametrization md

/-- What the `find` of an object that is not constant leaves. -/
def fetchAll (md : BaseMetadata) (ks : List String) : BaseMetadata :=
  ks.foldl (fun md k => md.fetch ctx.policy ctx.parametrization k) md

def hasPair (md : BaseMetadata) (date time : String) : Bool :=
  (reader ctx md date).isSome && (reader ctx md time).isSome

/-- `search->second.get<T>()`, where nothing has been found undefined. -/
def deref {α : Type} (getter : MetadataValue → Except Exception α) (md : BaseMetadata)
    (k : String) : Except Exception α :=
  match reader ctx md k with
  | some v => getter v
  | none => .error (.undefinedBehaviour "end iterator dereferenced")

def int64 (n : ℤ) : Except Exception ℤ :=
  if IsInt64 n then .ok n else .error (.undefinedBehaviour "signed overflow")

def setPair (md : BaseMetadata) (date time : String) (p : ℤ × ℤ) : BaseMetadata :=
  (md.set ctx.policy date (.int64 p.1)).set ctx.policy time (.int64 p.2)

def stamp (n : ℤ) : ℤ × ℤ :=
  (ctx.numbers.yyyymmdd (DateTimeInts.ofSeconds ctx.calendar n).date,
    ctx.numbers.hhmmss (DateTimeInts.ofSeconds ctx.calendar n).time)

/-- The date-time of a date `yyyymmdd` and a time `hhmmss`. -/
def dateTimeInts (p : ℤ × ℤ) : DateTimeInts := { date := toDateInts p.1, time := toTimeInts p.2 }

/-- `eckit::DateTime` of a date and a time. -/
def dateTime (t : DateTimeInts) : Except Exception ℤ := do
  let seconds ← ctx.time t.time.hour t.time.minute t.time.second
  .ok (86400 * ctx.calendar.date t.date.year t.date.month t.date.day + seconds)

def storeStart (md : BaseMetadata) : Except Exception (DateTimeInts × BaseMetadata) :=
  if hasPair ctx md "startDate" "startTime" then do
    let startDate ← deref ctx (·.getInt64) md "startDate"
    let startTime ← deref ctx (·.getInt64) md "startTime"
    .ok (dateTimeInts (startDate, startTime), md)
  else if hasPair ctx md "dataDate" "dataTime" then do
    let dataDate ← deref ctx (·.getInt64) md "dataDate"
    let dataTime ← deref ctx (·.getInt64) md "dataTime"
    let startTime ← int64 (dataTime * 100)
    -- what is stored are `date` and `time`, found or not
    let date ← deref ctx (·.getInt64) md "date"
    let time ← deref ctx (·.getInt64) md "time"
    let stored ← int64 (time * 100)
    .ok (dateTimeInts (dataDate, startTime), setPair ctx md "startDate" "startTime" (date, stored))
  else do
    let date ← deref ctx (·.getInt64) md "date"
    let time ← deref ctx (·.getInt64) md "time"
    let startTime ← int64 (time * 100)
    .ok (dateTimeInts (date, startTime), setPair ctx md "startDate" "startTime" (date, startTime))

def addHours (startDateTime step : ℤ) : Except Exception ℤ := do
  let seconds ← int64 (step * 3600)
  .ok (startDateTime + seconds)

def mapStep (md : BaseMetadata) (startDateTime : ℤ) : Except Exception BaseMetadata :=
  let md := fetchAll ctx md ["step", "currentDate", "currentTime"]
  if (reader ctx md "step").isSome && !hasPair ctx md "currentDate" "currentTime" then do
    let step ← deref ctx (·.getInt64) md "step"
    let currentDateTime ← addHours startDateTime step
    .ok (setPair ctx md "currentDate" "currentTime" (stamp ctx currentDateTime))
  else .ok md

def splitStepRange (stepRange : String) : Option (String × String) :=
  match stepRange.toList.span (· ≠ '-') with
  | (_, []) => none
  | (stepStart, _ :: stepEnd) => some (String.ofList stepStart, String.ofList stepEnd)

def translateStepRange (stepRange : String) : Except Exception (ℤ × ℤ) :=
  match splitStepRange stepRange with
  | none => .error (.seriousBug
      ("tryMapStepToTime: field \"stepRange\" is expected to contain a \"-\": " ++ stepRange))
  | some p => do
    let stepStart ← ctx.translate p.1
    let stepEnd ← ctx.translate p.2
    .ok (stepStart, stepEnd)

def stepStartAndEnd (md : BaseMetadata) : Except Exception (ℤ × ℤ) :=
  if (reader ctx md "stepRange").isSome then do
    let stepRange ← deref ctx (·.getString) md "stepRange"
    translateStepRange ctx stepRange
  else do
    let stepStart ← deref ctx (·.getInt64) md "startStep"
    let stepEnd ← deref ctx (·.getInt64) md "endStep"
    .ok (stepStart, stepEnd)

def mapStepRange (md : BaseMetadata) (startDateTime : ℤ) : Except Exception BaseMetadata :=
  let md := fetchAll ctx md ["stepRange", "startStep", "endStep", "currentDate", "currentTime",
    "previousDate", "previousTime"]
  if ((reader ctx md "stepRange").isSome || hasPair ctx md "startStep" "endStep") &&
      !(hasPair ctx md "currentDate" "currentTime" && hasPair ctx md "previousDate" "previousTime")
  then do
    -- the ends of the interval, so many hours after the start
    let steps ← stepStartAndEnd ctx md
    let previousDateTime ← addHours startDateTime steps.1
    let currentDateTime ← addHours startDateTime steps.2
    .ok (setPair ctx
      (setPair ctx md "previousDate" "previousTime" (stamp ctx previousDateTime))
      "currentDate" "currentTime" (stamp ctx currentDateTime))
  else .ok md

/-- The start and the ends of the interval are stored if a start is given. -/
def mapStepToTime (md : BaseMetadata) : Except Exception BaseMetadata :=
  if hasPair ctx md "startDate" "startTime" || hasPair ctx md "date" "time" ||
      hasPair ctx md "dataDate" "dataTime" then do
    let start ← storeStart ctx md
    let startDateTime ← dateTime ctx start.1
    let md ← mapStep ctx start.2 startDateTime
    mapStepRange ctx md startDateTime
  else .ok md

def tryMapStepToTimeAndCheckTime (md : BaseMetadata) : Except Exception BaseMetadata := do
  let md ← mapStepToTime ctx
    (fetchAll ctx md ["startDate", "startTime", "dataDate", "dataTime", "date", "time"])
  let md := fetchAll ctx md ["currentDate", "currentTime"]
  if hasPair ctx md "currentDate" "currentTime" then .ok md
  else .error (.userError
    ("tryMapStepToTime: Grib encoding requires at least date time fields \x7b\"currentTime\" and " ++
      "\"currentDate\"\x7d, or \x7b\"startTime\" and \"startDate\" and \x7b\"step\" or " ++
      "\x7b\"stepRange\", or \"startStep\" and \"endStep\"\x7d\x7d\x7d"))

variable {ctx}

def number (f : String → Option MetadataValue) (k : String) : Option ℤ :=
  (f k).bind fun v => v.getInt64.toOption

/-- The numbers of a date and a time, with the time multiplied to `hhmmss`. -/
def pair (f : String → Option MetadataValue) (date time : String) (scale : ℤ) : Option (ℤ × ℤ) :=
  (number f date).bind fun d => (number f time).map fun t => (d, t * scale)

def storePair (f : String → Option MetadataValue) (date time : String) (p : ℤ × ℤ) :
    String → Option MetadataValue :=
  Function.update (Function.update f date (some (.int64 p.1))) time (some (.int64 p.2))

def timeKeys : List String :=
  ["startDate", "startTime", "dataDate", "dataTime", "date", "time", "previousDate",
    "previousTime", "currentDate", "currentTime", "step", "startStep", "endStep"]

def Integers (f : String → Option MetadataValue) : Prop :=
  ∀ k ∈ timeKeys, ∀ v, f k = some v → ∃ n, v = .int64 n

structure Reads (ctx : EncoderContext) (md : BaseMetadata) (f : String → Option MetadataValue) :
    Prop where
  keyed : md.Keyed
  reader_eq : reader ctx md = f

section

variable {md : BaseMetadata} {f : String → Option MetadataValue}

theorem Reads.fetch (h : Reads ctx md f) (k : String) :
    Reads ctx (md.fetch ctx.policy ctx.parametrization k) f := by
  refine ⟨BaseMetadata.keyed_fetch h.keyed _ k, ?_⟩
  rw [← h.reader_eq]
  funext k'
  exact BaseMetadata.find_fetch h.keyed _ k k'

theorem Reads.fetchAll (h : Reads ctx md f) (ks : List String) :
    Reads ctx (fetchAll ctx md ks) f := by
  induction ks generalizing md with
  | nil => exact h
  | cons k ks ih => exact ih (h.fetch k)

theorem Reads.setPair (h : Reads ctx md f) (date time : String) (p : ℤ × ℤ) :
    Reads ctx (setPair ctx md date time p) (storePair f date time p) := by
  have hdate : (md.set ctx.policy date (.int64 p.1)).Keyed := BaseMetadata.keyed_set h.keyed _ _
  refine ⟨BaseMetadata.keyed_set hdate time _, ?_⟩
  rw [← h.reader_eq]
  funext k
  rw [storePair, Function.update_apply, Function.update_apply, GribEncoder.setPair, reader,
    BaseMetadata.find_set hdate, BaseMetadata.find_set h.keyed]

theorem number_eq_some_iff {k : String} {n : ℤ} : number f k = some n ↔ f k = some (.int64 n) := by
  unfold number
  cases f k with
  | none => simp
  | some v => cases v <;> simp [MetadataValue.getInt64, Except.toOption]

theorem number_storePair (date time : String) (p : ℤ × ℤ) (k : String) :
    number (storePair f date time p) k =
      if k = time then some p.2 else if k = date then some p.1 else number f k := by
  unfold number storePair
  rw [Function.update_apply, Function.update_apply]
  split_ifs <;> rfl

theorem storePair_of_ne {date time k : String} (p : ℤ × ℤ) (hdate : k ≠ date) (htime : k ≠ time) :
    storePair f date time p k = f k := by
  rw [storePair, Function.update_of_ne htime, Function.update_of_ne hdate]

theorem pair_eq_some_iff {date time : String} {scale : ℤ} {p : ℤ × ℤ} :
    pair f date time scale = some p ↔
      ∃ d t, f date = some (.int64 d) ∧ f time = some (.int64 t) ∧ (d, t * scale) = p := by
  unfold pair
  simp only [Option.bind_eq_some_iff, Option.map_eq_some_iff, number_eq_some_iff]
  constructor
  · rintro ⟨d, hd, t, ht, hp⟩
    exact ⟨d, t, hd, ht, hp⟩
  · rintro ⟨d, t, hd, ht, hp⟩
    exact ⟨d, hd, t, ht, hp⟩

theorem storePair_eq_self {date time : String} {p : ℤ × ℤ} (h : pair f date time 1 = some p) :
    storePair f date time p = f := by
  obtain ⟨d, t, hd, ht, rfl⟩ := pair_eq_some_iff.mp h
  unfold storePair
  dsimp only
  rw [mul_one, ← hd, Function.update_eq_self, ← ht, Function.update_eq_self]

theorem Integers.storePair (h : Integers f) (date time : String) (p : ℤ × ℤ) :
    Integers (storePair f date time p) := by
  intro k hk v hv
  unfold GribEncoder.storePair at hv
  rw [Function.update_apply, Function.update_apply] at hv
  split_ifs at hv
  · exact ⟨_, (Option.some.inj hv).symm⟩
  · exact ⟨_, (Option.some.inj hv).symm⟩
  · exact h k hk v hv

theorem Integers.isSome_number (h : Integers f) {k : String} (hk : k ∈ timeKeys) :
    (number f k).isSome = (f k).isSome := by
  unfold number
  cases hv : f k with
  | none => rfl
  | some v =>
    obtain ⟨n, rfl⟩ := h k hk v hv
    rfl

theorem Reads.hasPair_eq (hmd : Reads ctx md f) (h : Integers f) (date time : String) (scale : ℤ)
    (hdate : date ∈ timeKeys) (htime : time ∈ timeKeys) :
    hasPair ctx md date time = (pair f date time scale).isSome := by
  unfold hasPair
  rw [hmd.reader_eq, ← h.isSome_number hdate, ← h.isSome_number htime, pair]
  cases number f date with
  | none => rfl
  | some d => cases number f time <;> rfl

theorem Reads.deref_eq (hmd : Reads ctx md f) {k : String} {n : ℤ} (h : f k = some (.int64 n)) :
    deref ctx (·.getInt64) md k = .ok n := by
  unfold deref
  rw [hmd.reader_eq, h]
  rfl

theorem Reads.deref_ne_ok (hmd : Reads ctx md f) (h : Integers f) {k : String} (hk : k ∈ timeKeys)
    (hn : number f k = none) (n : ℤ) : deref ctx (·.getInt64) md k ≠ .ok n := by
  have hnone : f k = none := by
    rw [← Option.not_isSome_iff_eq_none, ← h.isSome_number hk, hn]
    decide
  unfold deref
  rw [hmd.reader_eq, hnone]
  exact fun hok => by cases hok

theorem int64_ok {n : ℤ} (h : IsInt64 n) : int64 n = .ok n := if_pos h

theorem int64_eq_ok_iff {n m : ℤ} : int64 n = .ok m ↔ IsInt64 n ∧ n = m := by
  unfold int64
  split_ifs with h
  · simp [h]
  · simp [h]

end

end Multio.GribEncoder
