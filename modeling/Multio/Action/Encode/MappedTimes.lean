import Multio.Action.Encode.StepToTime

namespace Multio.GribEncoder
open Lib Util Exception Datamod

variable {ctx : EncoderContext}

/-- The start that is given, with its time as `hhmmss`. -/
def givenStart (f : String → Option MetadataValue) : Option (ℤ × ℤ) :=
  (pair f "startDate" "startTime" 1).or
    ((pair f "dataDate" "dataTime" 100).or (pair f "date" "time" 100))

def storedStart (f : String → Option MetadataValue) : Option (ℤ × ℤ) :=
  (pair f "startDate" "startTime" 1).or (pair f "date" "time" 100)

def givenPairs (f : String → Option MetadataValue) : List (Option (ℤ × ℤ)) :=
  [pair f "startDate" "startTime" 1, pair f "dataDate" "dataTime" 100, pair f "date" "time" 100,
    pair f "previousDate" "previousTime" 1, pair f "currentDate" "currentTime" 1]

def givenSteps (ctx : EncoderContext) (f : String → Option MetadataValue) : Option (ℤ × ℤ) :=
  match f "stepRange" with
  | some v => (v.getString >>= translateStepRange ctx).toOption
  | none => pair f "startStep" "endStep" 1

/-- Times and steps have their types, date-times are on a day from the year 0 on, and up to its
24:00:00. -/
structure WellTimed (ctx : EncoderContext) (f : String → Option MetadataValue) : Prop where
  integers : Integers f
  stepRange : (f "stepRange").isSome → (givenSteps ctx f).isSome
  dateTimes : ∀ p, some p ∈ givenPairs f → (dateTimeInts p).UpToMidnight

section

variable {md : BaseMetadata} {f : String → Option MetadataValue}

theorem isInt64_of_upToMidnight {date time : ℤ} (h : (dateTimeInts (date, time)).UpToMidnight) :
    IsInt64 time := by
  have htime := fromTimeInts_toTimeInts time
  have hhour := h.hour
  have hminute := h.minute
  have hsecond := h.second
  change _ * 10000 + _ * 100 + _ = time at htime
  unfold dateTimeInts at hhour hminute hsecond
  dsimp only at hhour hminute hsecond
  unfold IsInt64
  omega

theorem WellTimed.upToMidnight (hf : WellTimed ctx f) {date time : String} {scale : ℤ} {p : ℤ × ℤ}
    (h : pair f date time scale = some p) (hmem : pair f date time scale ∈ givenPairs f) :
    (dateTimeInts p).UpToMidnight := hf.dateTimes p (h ▸ hmem)

theorem WellTimed.isInt64 (hf : WellTimed ctx f) {date time : String} {scale d t : ℤ}
    (h : f date = some (.int64 d)) (h' : f time = some (.int64 t))
    (hmem : pair f date time scale ∈ givenPairs f) : IsInt64 (t * scale) :=
  isInt64_of_upToMidnight (hf.upToMidnight (pair_eq_some_iff.mpr ⟨d, t, h, h', rfl⟩) hmem)

theorem storeStart_ok (hmd : Reads ctx md f) (hf : WellTimed ctx f) {given stored : ℤ × ℤ}
    (hgiven : givenStart f = some given) (hstored : storedStart f = some stored) :
    ∃ md', storeStart ctx md = .ok (dateTimeInts given, md') ∧
      Reads ctx md' (storePair f "startDate" "startTime" stored) := by
  unfold storeStart
  rw [hmd.hasPair_eq hf.integers "startDate" "startTime" 1 (by decide) (by decide),
    hmd.hasPair_eq hf.integers "dataDate" "dataTime" 100 (by decide) (by decide)]
  unfold givenStart at hgiven
  unfold storedStart at hstored
  -- the keys of the start come first, then those of the data, then date and time
  cases hstart : pair f "startDate" "startTime" 1 with
  | some p =>
    rw [hstart, Option.some_or] at hgiven hstored
    obtain rfl := Option.some.inj hgiven
    obtain rfl := Option.some.inj hstored
    rw [storePair_eq_self hstart]
    obtain ⟨d, t, hd, ht, rfl⟩ := pair_eq_some_iff.mp hstart
    refine ⟨md, ?_, hmd⟩
    rw [Option.isSome_some, if_pos rfl, hmd.deref_eq hd, ok_bind, hmd.deref_eq ht, ok_bind, mul_one]
  | none =>
    rw [hstart, Option.none_or] at hgiven hstored
    obtain ⟨date, time, hdate, htime, rfl⟩ := pair_eq_some_iff.mp hstored
    have hfits : IsInt64 (time * 100) := hf.isInt64 hdate htime (by simp [givenPairs])
    have hreads := hmd.setPair "startDate" "startTime" (date, time * 100)
    rw [if_neg (by decide), hmd.deref_eq hdate, ok_bind, hmd.deref_eq htime, ok_bind,
      int64_ok hfits, ok_bind]
    cases hdata : pair f "dataDate" "dataTime" 100 with
    | some p =>
      rw [hdata, Option.some_or] at hgiven
      obtain rfl := Option.some.inj hgiven
      obtain ⟨d, t, hd, ht, rfl⟩ := pair_eq_some_iff.mp hdata
      have hfits' : IsInt64 (t * 100) := hf.isInt64 hd ht (by simp [givenPairs])
      refine ⟨_, ?_, hreads⟩
      rw [Option.isSome_some, if_pos rfl, hmd.deref_eq hd, ok_bind, hmd.deref_eq ht, ok_bind,
        int64_ok hfits', ok_bind, ok_bind, ok_bind, int64_ok hfits, ok_bind]
    | none =>
      rw [hdata, Option.none_or, hstored] at hgiven
      obtain rfl := Option.some.inj hgiven
      exact ⟨_, rfl, hreads⟩

/-- The iterators of `date` and `time` are dereferenced even if these are not found. -/
theorem storeStart_eq_ok (hmd : Reads ctx md f) (hf : WellTimed ctx f)
    {r : DateTimeInts × BaseMetadata} (h : storeStart ctx md = .ok r) :
    ∃ stored, storedStart f = some stored := by
  unfold storedStart
  cases hstart : pair f "startDate" "startTime" 1 with
  | some p => exact ⟨p, rfl⟩
  | none =>
    have hread {k : String} (hk : k ∈ timeKeys) {n : ℤ}
        (hn : deref ctx (·.getInt64) md k = .ok n) : ∃ n, number f k = some n := by
      apply Option.ne_none_iff_exists'.mp
      exact fun hnone => hmd.deref_ne_ok hf.integers hk hnone n hn
    -- both branches that are left read `date` and `time`
    obtain ⟨d, t, hd, ht⟩ : ∃ d t, deref ctx (·.getInt64) md "date" = .ok d ∧
        deref ctx (·.getInt64) md "time" = .ok t := by
      unfold storeStart at h
      rw [hmd.hasPair_eq hf.integers "startDate" "startTime" 1 (by decide) (by decide), hstart,
        if_neg (by decide)] at h
      split_ifs at h
      · obtain ⟨_, -, h⟩ := bind_eq_ok_iff.mp h
        obtain ⟨_, -, h⟩ := bind_eq_ok_iff.mp h
        obtain ⟨_, -, h⟩ := bind_eq_ok_iff.mp h
        obtain ⟨d, hd, h⟩ := bind_eq_ok_iff.mp h
        obtain ⟨t, ht, h⟩ := bind_eq_ok_iff.mp h
        exact ⟨d, t, hd, ht⟩
      · obtain ⟨d, hd, h⟩ := bind_eq_ok_iff.mp h
        obtain ⟨t, ht, h⟩ := bind_eq_ok_iff.mp h
        exact ⟨d, t, hd, ht⟩
    obtain ⟨d, hd⟩ := hread (by decide) hd
    obtain ⟨t, ht⟩ := hread (by decide) ht
    rw [Option.none_or, pair, hd, ht]
    exact ⟨_, rfl⟩

end

def mappedStep (ctx : EncoderContext) (f : String → Option MetadataValue) (startDateTime : ℤ) :
    String → Option MetadataValue :=
  if (pair f "currentDate" "currentTime" 1).isSome then f
  else match number f "step" with
    | some step =>
      storePair f "currentDate" "currentTime" (stamp ctx (startDateTime + step * 3600))
    | none => f

def hasEnds (f : String → Option MetadataValue) : Bool :=
  (pair f "currentDate" "currentTime" 1).isSome && (pair f "previousDate" "previousTime" 1).isSome

def mappedStepRange (ctx : EncoderContext) (f : String → Option MetadataValue)
    (startDateTime : ℤ) : String → Option MetadataValue :=
  if hasEnds f then f
  else match givenSteps ctx f with
    | some steps =>
      storePair
        (storePair f "previousDate" "previousTime" (stamp ctx (startDateTime + steps.1 * 3600)))
        "currentDate" "currentTime" (stamp ctx (startDateTime + steps.2 * 3600))
    | none => f

/-- An end of the interval is not there once the step has been mapped. -/
def MissesEnd (f : String → Option MetadataValue) : Prop :=
  pair f "previousDate" "previousTime" 1 = none ∨
    (pair f "currentDate" "currentTime" 1 = none ∧ number f "step" = none)

/-- The seconds of the steps that are mapped are integers of 64 bits. -/
structure StepsFit (ctx : EncoderContext) (f : String → Option MetadataValue) : Prop where
  step : pair f "currentDate" "currentTime" 1 = none → ∀ step, number f "step" = some step →
    IsInt64 (step * 3600)
  steps : MissesEnd f → ∀ steps, givenSteps ctx f = some steps →
    IsInt64 (steps.1 * 3600) ∧ IsInt64 (steps.2 * 3600)

section

variable {md : BaseMetadata} {f : String → Option MetadataValue} {startDateTime : ℤ}

theorem addHours_ok {step : ℤ} (h : IsInt64 (step * 3600)) :
    addHours startDateTime step = .ok (startDateTime + step * 3600) := by
  rw [addHours, int64_ok h, ok_bind]

theorem addHours_eq_ok {step n : ℤ} (h : addHours startDateTime step = .ok n) :
    IsInt64 (step * 3600) := by
  obtain ⟨_, h, -⟩ := bind_eq_ok_iff.mp h
  exact (int64_eq_ok_iff.mp h).1

theorem mapStep_eq (hmd : Reads ctx md f) (hf : Integers f) (startDateTime : ℤ) :
    ∃ md₁, Reads ctx md₁ f ∧ mapStep ctx md startDateTime =
      if (number f "step").isSome && !(pair f "currentDate" "currentTime" 1).isSome then do
        let step ← deref ctx (·.getInt64) md₁ "step"
        let currentDateTime ← addHours startDateTime step
        .ok (setPair ctx md₁ "currentDate" "currentTime" (stamp ctx currentDateTime))
      else .ok md₁ := by
  have hmd₁ := hmd.fetchAll ["step", "currentDate", "currentTime"]
  refine ⟨_, hmd₁, ?_⟩
  unfold mapStep
  dsimp only
  rw [hmd₁.hasPair_eq hf "currentDate" "currentTime" 1 (by decide) (by decide), hmd₁.reader_eq,
    hf.isSome_number (by decide)]

theorem mapStep_ok (hmd : Reads ctx md f) (hf : Integers f)
    (hfits : pair f "currentDate" "currentTime" 1 = none → ∀ step, number f "step" = some step →
      IsInt64 (step * 3600)) (startDateTime : ℤ) :
    ∃ md', mapStep ctx md startDateTime = .ok md' ∧
      Reads ctx md' (mappedStep ctx f startDateTime) := by
  obtain ⟨md₁, hmd₁, heq⟩ := mapStep_eq hmd hf startDateTime
  rw [heq]
  unfold mappedStep
  cases hcurrent : pair f "currentDate" "currentTime" 1 with
  | some p =>
    refine ⟨md₁, ?_, hmd₁⟩
    rw [Option.isSome_some, Bool.not_true, Bool.and_false, if_neg (by decide)]
  | none =>
    cases hstep : number f "step" with
    | none => exact ⟨md₁, rfl, hmd₁⟩
    | some step =>
      refine ⟨_, ?_, hmd₁.setPair _ _ _⟩
      rw [Option.isSome_some, Option.isSome_none, Bool.not_false, Bool.and_true, if_pos rfl,
        hmd₁.deref_eq (number_eq_some_iff.mp hstep), ok_bind,
        addHours_ok (hfits hcurrent step hstep), ok_bind]

theorem mapStep_eq_ok (hmd : Reads ctx md f) (hf : Integers f) {md' : BaseMetadata}
    (h : mapStep ctx md startDateTime = .ok md')
    (hcurrent : pair f "currentDate" "currentTime" 1 = none) {step : ℤ}
    (hstep : number f "step" = some step) : IsInt64 (step * 3600) := by
  obtain ⟨md₁, hmd₁, heq⟩ := mapStep_eq hmd hf startDateTime
  rw [heq, hcurrent, hstep, Option.isSome_some, Option.isSome_none, Bool.not_false, Bool.and_true,
    if_pos rfl, hmd₁.deref_eq (number_eq_some_iff.mp hstep), ok_bind] at h
  obtain ⟨_, hhours, -⟩ := bind_eq_ok_iff.mp h
  exact addHours_eq_ok hhours

theorem stepStartAndEnd_eq (hmd : Reads ctx md f) (steps : ℤ × ℤ) :
    givenSteps ctx f = some steps → stepStartAndEnd ctx md = .ok steps := by
  intro h
  unfold stepStartAndEnd
  rw [hmd.reader_eq]
  unfold givenSteps at h
  cases hrange : f "stepRange" with
  | none =>
    rw [hrange] at h
    obtain ⟨a, b, ha, hb, rfl⟩ := pair_eq_some_iff.mp h
    rw [Option.isSome_none, if_neg (by decide), hmd.deref_eq ha, ok_bind, hmd.deref_eq hb, ok_bind,
      mul_one]
  | some v =>
    rw [hrange] at h
    have hderef : deref ctx (·.getString) md "stepRange" = v.getString := by
      unfold deref
      rw [hmd.reader_eq, hrange]
    rw [Option.isSome_some, if_pos rfl, hderef]
    simp only at h
    cases hv : v.getString >>= translateStepRange ctx with
    | error e =>
      rw [hv] at h
      cases h
    | ok r =>
      rw [hv] at h
      cases h
      rfl

theorem isSome_givenSteps (hrange : (f "stepRange").isSome → (givenSteps ctx f).isSome) :
    ((f "stepRange").isSome || (pair f "startStep" "endStep" 1).isSome) =
      (givenSteps ctx f).isSome := by
  cases h : f "stepRange" with
  | none =>
    unfold givenSteps
    rw [h]
    rfl
  | some v =>
    rw [hrange (Option.isSome_of_mem h)]
    rfl

theorem mapStepRange_eq (hmd : Reads ctx md f) (hf : Integers f)
    (hrange : (f "stepRange").isSome → (givenSteps ctx f).isSome) (startDateTime : ℤ) :
    ∃ md₁, Reads ctx md₁ f ∧ mapStepRange ctx md startDateTime =
      if (givenSteps ctx f).isSome && !hasEnds f then do
        let steps ← stepStartAndEnd ctx md₁
        let previousDateTime ← addHours startDateTime steps.1
        let currentDateTime ← addHours startDateTime steps.2
        .ok (setPair ctx
          (setPair ctx md₁ "previousDate" "previousTime" (stamp ctx previousDateTime))
          "currentDate" "currentTime" (stamp ctx currentDateTime))
      else .ok md₁ := by
  have hmd₁ := hmd.fetchAll ["stepRange", "startStep", "endStep", "currentDate", "currentTime",
    "previousDate", "previousTime"]
  refine ⟨_, hmd₁, ?_⟩
  unfold mapStepRange
  dsimp only
  rw [hmd₁.hasPair_eq hf "startStep" "endStep" 1 (by decide) (by decide),
    hmd₁.hasPair_eq hf "currentDate" "currentTime" 1 (by decide) (by decide),
    hmd₁.hasPair_eq hf "previousDate" "previousTime" 1 (by decide) (by decide), hmd₁.reader_eq,
    isSome_givenSteps hrange]
  rfl

theorem mapStepRange_ok (hmd : Reads ctx md f) (hf : Integers f)
    (hrange : (f "stepRange").isSome → (givenSteps ctx f).isSome)
    (hfits : hasEnds f = false → ∀ steps, givenSteps ctx f = some steps →
      IsInt64 (steps.1 * 3600) ∧ IsInt64 (steps.2 * 3600)) (startDateTime : ℤ) :
    ∃ md', mapStepRange ctx md startDateTime = .ok md' ∧
      Reads ctx md' (mappedStepRange ctx f startDateTime) := by
  obtain ⟨md₁, hmd₁, heq⟩ := mapStepRange_eq hmd hf hrange startDateTime
  rw [heq]
  unfold mappedStepRange
  cases hends : hasEnds f with
  | true =>
    refine ⟨md₁, ?_, hmd₁⟩
    rw [Bool.not_true, Bool.and_false, if_neg (by decide)]
  | false =>
    cases hsteps : givenSteps ctx f with
    | none => exact ⟨md₁, rfl, hmd₁⟩
    | some steps =>
      obtain ⟨hstart, hend⟩ := hfits hends steps hsteps
      refine ⟨_, ?_, (hmd₁.setPair _ _ _).setPair _ _ _⟩
      rw [Option.isSome_some, Bool.not_false, Bool.and_true, if_pos rfl,
        stepStartAndEnd_eq hmd₁ steps hsteps, ok_bind, addHours_ok hstart, ok_bind,
        addHours_ok hend, ok_bind]

theorem mapStepRange_eq_ok (hmd : Reads ctx md f) (hf : Integers f)
    (hrange : (f "stepRange").isSome → (givenSteps ctx f).isSome) {md' : BaseMetadata}
    (h : mapStepRange ctx md startDateTime = .ok md') (hends : hasEnds f = false) {steps : ℤ × ℤ}
    (hsteps : givenSteps ctx f = some steps) :
    IsInt64 (steps.1 * 3600) ∧ IsInt64 (steps.2 * 3600) := by
  obtain ⟨md₁, hmd₁, heq⟩ := mapStepRange_eq hmd hf hrange startDateTime
  rw [heq, hends, hsteps, Option.isSome_some, Bool.not_false, Bool.and_true, if_pos rfl,
    stepStartAndEnd_eq hmd₁ steps hsteps, ok_bind] at h
  obtain ⟨_, hstart, h⟩ := bind_eq_ok_iff.mp h
  obtain ⟨_, hend, -⟩ := bind_eq_ok_iff.mp h
  exact ⟨addHours_eq_ok hstart, addHours_eq_ok hend⟩

theorem pair_congr {g : String → Option MetadataValue} {date time : String} {scale : ℤ}
    (hdate : f date = g date) (htime : f time = g time) :
    pair f date time scale = pair g date time scale := by
  unfold pair number
  rw [hdate, htime]

theorem pair_storePair_self {date time : String} (h : date ≠ time) (p : ℤ × ℤ) :
    pair (storePair f date time p) date time 1 = some p := by
  rw [pair, number_storePair, number_storePair, if_neg h, if_pos rfl, if_pos rfl, Option.bind_some,
    Option.map_some, mul_one]

theorem mappedStep_of_ne {k : String} (hdate : k ≠ "currentDate") (htime : k ≠ "currentTime") :
    mappedStep ctx f startDateTime k = f k := by
  unfold mappedStep
  split_ifs with hcurrent
  · rfl
  · cases number f "step" with
    | none => rfl
    | some step => exact storePair_of_ne _ hdate htime

theorem Integers.mappedStep (h : Integers f) : Integers (mappedStep ctx f startDateTime) := by
  unfold GribEncoder.mappedStep
  split_ifs
  · exact h
  · cases number f "step" with
    | none => exact h
    | some step => exact h.storePair _ _ _

theorem current_mappedStep : pair (mappedStep ctx f startDateTime) "currentDate" "currentTime" 1 =
    (pair f "currentDate" "currentTime" 1).or
      ((number f "step").map fun step => stamp ctx (startDateTime + step * 3600)) := by
  unfold mappedStep
  cases hcurrent : pair f "currentDate" "currentTime" 1 with
  | some p =>
    rw [Option.isSome_some, if_pos rfl, hcurrent]
    rfl
  | none =>
    rw [Option.isSome_none, if_neg (by decide), Option.none_or]
    cases number f "step" with
    | none => exact hcurrent
    | some step => exact pair_storePair_self (by decide) _

theorem mappedStepRange_of_ne {k : String}
    (hk : k ∉ ["previousDate", "previousTime", "currentDate", "currentTime"]) :
    mappedStepRange ctx f startDateTime k = f k := by
  simp only [List.mem_cons, List.not_mem_nil, or_false, not_or] at hk
  obtain ⟨hpdate, hptime, hcdate, hctime⟩ := hk
  unfold mappedStepRange
  split_ifs
  · rfl
  · cases givenSteps ctx f with
    | none => rfl
    | some steps => exact (storePair_of_ne _ hcdate hctime).trans (storePair_of_ne _ hpdate hptime)

theorem ends_mappedStepRange (hends : hasEnds f = false) {steps : ℤ × ℤ}
    (hsteps : givenSteps ctx f = some steps) :
    pair (mappedStepRange ctx f startDateTime) "previousDate" "previousTime" 1 =
        some (stamp ctx (startDateTime + steps.1 * 3600)) ∧
      pair (mappedStepRange ctx f startDateTime) "currentDate" "currentTime" 1 =
        some (stamp ctx (startDateTime + steps.2 * 3600)) := by
  unfold mappedStepRange
  rw [hends, if_neg (by decide), hsteps]
  constructor
  · calc
      _ = pair (storePair f "previousDate" "previousTime"
            (stamp ctx (startDateTime + steps.1 * 3600))) "previousDate" "previousTime" 1 :=
        pair_congr (storePair_of_ne _ (by decide) (by decide))
          (storePair_of_ne _ (by decide) (by decide))
      _ = _ := pair_storePair_self (by decide) _
  · exact pair_storePair_self (by decide) _

theorem Integers.mappedStepRange (h : Integers f) :
    Integers (mappedStepRange ctx f startDateTime) := by
  unfold GribEncoder.mappedStepRange
  split_ifs
  · exact h
  · cases givenSteps ctx f with
    | none => exact h
    | some steps => exact (h.storePair _ _ _).storePair _ _ _

theorem mappedStepRange_of_hasEnds (hends : hasEnds f = true) :
    mappedStepRange ctx f startDateTime = f := by
  rw [mappedStepRange, hends, if_pos rfl]

theorem mappedStepRange_of_none (hsteps : givenSteps ctx f = none) :
    mappedStepRange ctx f startDateTime = f := by
  rw [mappedStepRange, hsteps, ite_self]

end

def mapped (ctx : EncoderContext) (f : String → Option MetadataValue) (given stored : ℤ × ℤ) :
    String → Option MetadataValue :=
  let startDateTime := (dateTimeInts given).toSeconds ctx.calendar
  mappedStepRange ctx
    (mappedStep ctx (storePair f "startDate" "startTime" stored) startDateTime) startDateTime

structure Mappable (ctx : EncoderContext) (f : String → Option MetadataValue) (given : ℤ × ℤ) :
    Prop where
  start : (storedStart f).isSome
  hour : (dateTimeInts given).time.hour ≠ 24
  fit : StepsFit ctx f

section

variable {md : BaseMetadata} {f : String → Option MetadataValue} {given stored : ℤ × ℤ}

theorem dateTime_ok (hctx : ctx.IsDocumented) {t : DateTimeInts} (ht : t.UpToMidnight)
    (hhour : t.time.hour ≠ 24) : dateTime ctx t = .ok (t.toSeconds ctx.calendar) := by
  have hvalid := ht.valid hhour
  rw [dateTime, hctx.time_eq t.time hvalid.hour hvalid.minute hvalid.second, ok_bind]
  rfl

theorem dateTime_eq_ok (hctx : ctx.IsDocumented) {t : DateTimeInts} (ht : t.UpToMidnight) {n : ℤ}
    (h : dateTime ctx t = .ok n) : t.time.hour ≠ 24 ∧ n = t.toSeconds ctx.calendar := by
  have hhour : t.time.hour ≠ 24 := by
    intro hhour
    obtain ⟨hminute, hsecond⟩ := ht.midnight hhour
    obtain ⟨_, htime, -⟩ := bind_eq_ok_iff.mp h
    rw [hhour, hminute, hsecond] at htime
    exact hctx.time_midnight _ htime
  refine ⟨hhour, ?_⟩
  rw [dateTime_ok hctx ht hhour] at h
  exact (Except.ok.inj h).symm

theorem pair_storeStart (p : ℤ × ℤ) {date time : String} (scale : ℤ)
    (hdate : date ∉ ["startDate", "startTime"]) (htime : time ∉ ["startDate", "startTime"]) :
    pair (storePair f "startDate" "startTime" p) date time scale = pair f date time scale := by
  simp only [List.mem_cons, List.not_mem_nil, or_false, not_or] at hdate htime
  exact pair_congr (storePair_of_ne _ hdate.1 hdate.2) (storePair_of_ne _ htime.1 htime.2)

theorem givenSteps_congr {g : String → Option MetadataValue}
    (h : ∀ k ∈ ["stepRange", "startStep", "endStep"], f k = g k) :
    givenSteps ctx f = givenSteps ctx g := by
  unfold givenSteps
  rw [h "stepRange" (by decide), pair_congr (h "startStep" (by decide)) (h "endStep" (by decide))]

/-- What the steps are after the start has been stored, and after the step has been mapped. -/
theorem givenSteps_storeStart (p : ℤ × ℤ) :
    givenSteps ctx (storePair f "startDate" "startTime" p) = givenSteps ctx f := by
  apply givenSteps_congr
  intro k hk
  simp only [List.mem_cons, List.not_mem_nil, or_false] at hk
  rcases hk with rfl | rfl | rfl <;> exact storePair_of_ne _ (by decide) (by decide)

theorem givenSteps_mappedStep (n : ℤ) :
    givenSteps ctx (mappedStep ctx f n) = givenSteps ctx f := by
  apply givenSteps_congr
  intro k hk
  simp only [List.mem_cons, List.not_mem_nil, or_false] at hk
  rcases hk with rfl | rfl | rfl <;> exact mappedStep_of_ne (by decide) (by decide)

theorem number_storeStart_step (p : ℤ × ℤ) :
    number (storePair f "startDate" "startTime" p) "step" = number f "step" := by
  rw [number_storePair, if_neg (by decide), if_neg (by decide)]

theorem hasEnds_mappedStep (p : ℤ × ℤ) (n : ℤ) :
    hasEnds (mappedStep ctx (storePair f "startDate" "startTime" p) n) =
      (((pair f "currentDate" "currentTime" 1).isSome || (number f "step").isSome) &&
        (pair f "previousDate" "previousTime" 1).isSome) := by
  rw [hasEnds, current_mappedStep, pair_storeStart _ _ (by decide) (by decide),
    number_storeStart_step, pair_congr (mappedStep_of_ne (by decide) (by decide))
      (mappedStep_of_ne (by decide) (by decide)), pair_storeStart _ _ (by decide) (by decide),
    Option.isSome_or, Option.isSome_map]

theorem hasEnds_mappedStep_eq_false_iff (p : ℤ × ℤ) (n : ℤ) :
    hasEnds (mappedStep ctx (storePair f "startDate" "startTime" p) n) = false ↔ MissesEnd f := by
  rw [hasEnds_mappedStep, MissesEnd]
  cases pair f "previousDate" "previousTime" 1 <;> cases pair f "currentDate" "currentTime" 1 <;>
    cases number f "step" <;> simp

theorem hasStart_eq (hmd : Reads ctx md f) (hf : Integers f) :
    (hasPair ctx md "startDate" "startTime" || hasPair ctx md "date" "time" ||
      hasPair ctx md "dataDate" "dataTime") = (givenStart f).isSome := by
  rw [hmd.hasPair_eq hf "startDate" "startTime" 1 (by decide) (by decide),
    hmd.hasPair_eq hf "date" "time" 100 (by decide) (by decide),
    hmd.hasPair_eq hf "dataDate" "dataTime" 100 (by decide) (by decide), givenStart,
    Option.isSome_or, Option.isSome_or, Bool.or_assoc,
    Bool.or_comm (pair f "date" "time" 100).isSome]

theorem WellTimed.givenStart (hf : WellTimed ctx f) (hgiven : givenStart f = some given) :
    (dateTimeInts given).UpToMidnight := by
  rcases Option.or_eq_some_iff.mp hgiven with hstart | ⟨-, hother⟩
  · exact hf.upToMidnight hstart (by simp [givenPairs])
  · rcases Option.or_eq_some_iff.mp hother with hdata | ⟨-, hdate⟩
    · exact hf.upToMidnight hdata (by simp [givenPairs])
    · exact hf.upToMidnight hdate (by simp [givenPairs])

theorem WellTimed.storedStart (hf : WellTimed ctx f) (hstored : storedStart f = some stored) :
    (dateTimeInts stored).UpToMidnight := by
  rcases Option.or_eq_some_iff.mp hstored with hstart | ⟨-, hdate⟩
  · exact hf.upToMidnight hstart (by simp [givenPairs])
  · exact hf.upToMidnight hdate (by simp [givenPairs])

theorem WellTimed.stepRange_mappedStep (hf : WellTimed ctx f) (p : ℤ × ℤ) (n : ℤ)
    (h : (mappedStep ctx (storePair f "startDate" "startTime" p) n "stepRange").isSome) :
    (givenSteps ctx (mappedStep ctx (storePair f "startDate" "startTime" p) n)).isSome := by
  rw [mappedStep_of_ne (by decide) (by decide), storePair_of_ne _ (by decide) (by decide)] at h
  rw [givenSteps_mappedStep, givenSteps_storeStart]
  exact hf.stepRange h

variable (hctx : ctx.IsDocumented) (hmd : Reads ctx md f) (hf : WellTimed ctx f)
  (hgiven : givenStart f = some given)

include hctx hmd hf hgiven

theorem mapStepToTime_ok (hmappable : Mappable ctx f given)
    (hstored : storedStart f = some stored) :
    ∃ md', mapStepToTime ctx md = .ok md' ∧ Reads ctx md' (mapped ctx f given stored) := by
  have hint := hf.integers.storePair "startDate" "startTime" stored
  obtain ⟨md₁, hstart, hmd₁⟩ := storeStart_ok hmd hf hgiven hstored
  have hdateTime := dateTime_ok hctx (hf.givenStart hgiven) hmappable.hour
  obtain ⟨md₂, hstep, hmd₂⟩ := mapStep_ok hmd₁ hint (by
    rw [pair_storeStart _ _ (by decide) (by decide), number_storeStart_step]
    exact hmappable.fit.step) ((dateTimeInts given).toSeconds ctx.calendar)
  obtain ⟨md₃, hrange, hmd₃⟩ := mapStepRange_ok hmd₂ hint.mappedStep
    (hf.stepRange_mappedStep _ _) (by
    rw [hasEnds_mappedStep_eq_false_iff, givenSteps_mappedStep, givenSteps_storeStart]
    exact hmappable.fit.steps) ((dateTimeInts given).toSeconds ctx.calendar)
  refine ⟨md₃, ?_, hmd₃⟩
  unfold mapStepToTime
  rw [hasStart_eq hmd hf.integers, hgiven, Option.isSome_some, if_pos rfl, hstart, ok_bind,
    hdateTime, ok_bind, hstep, ok_bind, hrange]

theorem mapStepToTime_eq_ok {md' : BaseMetadata} (h : mapStepToTime ctx md = .ok md') :
    Mappable ctx f given := by
  unfold mapStepToTime at h
  rw [hasStart_eq hmd hf.integers, hgiven, Option.isSome_some, if_pos rfl] at h
  obtain ⟨start, hstart, h⟩ := bind_eq_ok_iff.mp h
  obtain ⟨stored, hstored⟩ := storeStart_eq_ok hmd hf hstart
  obtain ⟨md₁, hstart₁, hmd₁⟩ := storeStart_ok hmd hf hgiven hstored
  obtain rfl := Except.ok.inj (hstart₁.symm.trans hstart)
  obtain ⟨n, hdateTime, h⟩ := bind_eq_ok_iff.mp h
  obtain ⟨hhour, rfl⟩ := dateTime_eq_ok hctx (hf.givenStart hgiven) hdateTime
  obtain ⟨md₂, hstep, h⟩ := bind_eq_ok_iff.mp h
  have hint := hf.integers.storePair "startDate" "startTime" stored
  have hfits : pair f "currentDate" "currentTime" 1 = none → ∀ step,
      number f "step" = some step → IsInt64 (step * 3600) := by
    intro hcurrent step hgivenStep
    apply mapStep_eq_ok hmd₁ hint hstep
    · rw [pair_storeStart _ _ (by decide) (by decide), hcurrent]
    · rw [number_storeStart_step, hgivenStep]
  obtain ⟨md₂', hstep', hmd₂⟩ := mapStep_ok hmd₁ hint (by
    rw [pair_storeStart _ _ (by decide) (by decide), number_storeStart_step]
    exact hfits) ((dateTimeInts given).toSeconds ctx.calendar)
  obtain rfl := Except.ok.inj (hstep'.symm.trans hstep)
  refine ⟨by rw [hstored]; rfl, hhour, hfits, ?_⟩
  intro hends steps hsteps
  apply mapStepRange_eq_ok hmd₂ hint.mappedStep (hf.stepRange_mappedStep _ _) h
  · exact (hasEnds_mappedStep_eq_false_iff _ _).mpr hends
  · rw [givenSteps_mappedStep, givenSteps_storeStart, hsteps]

end

section

variable {md : BaseMetadata} {f : String → Option MetadataValue} {given stored : ℤ × ℤ}

theorem mapped_of_ne {k : String} (hk : k ∉ ["startDate", "startTime", "previousDate",
    "previousTime", "currentDate", "currentTime"]) : mapped ctx f given stored k = f k := by
  simp only [List.mem_cons, List.not_mem_nil, or_false, not_or] at hk
  unfold mapped
  rw [mappedStepRange_of_ne (by simp [hk]), mappedStep_of_ne hk.2.2.2.2.1 hk.2.2.2.2.2,
    storePair_of_ne _ hk.1 hk.2.1]

theorem mapped_start : pair (mapped ctx f given stored) "startDate" "startTime" 1 = some stored :=
  calc
    _ = pair (storePair f "startDate" "startTime" stored) "startDate" "startTime" 1 :=
      pair_congr
        ((mappedStepRange_of_ne (by decide)).trans (mappedStep_of_ne (by decide) (by decide)))
        ((mappedStepRange_of_ne (by decide)).trans (mappedStep_of_ne (by decide) (by decide)))
    _ = some stored := pair_storePair_self (by decide) stored

theorem mapped_ends_of_steps (hends : MissesEnd f) {steps : ℤ × ℤ}
    (hsteps : givenSteps ctx f = some steps) :
    pair (mapped ctx f given stored) "previousDate" "previousTime" 1 =
        some (stamp ctx ((dateTimeInts given).toSeconds ctx.calendar + steps.1 * 3600)) ∧
      pair (mapped ctx f given stored) "currentDate" "currentTime" 1 =
        some (stamp ctx ((dateTimeInts given).toSeconds ctx.calendar + steps.2 * 3600)) := by
  apply ends_mappedStepRange ((hasEnds_mappedStep_eq_false_iff _ _).mpr hends)
  rw [givenSteps_mappedStep, givenSteps_storeStart, hsteps]

/-- Without steps to map, the ends are those that are given, and the one of the step. -/
theorem mapped_ends_of_kept (h : MissesEnd f → givenSteps ctx f = none) :
    pair (mapped ctx f given stored) "previousDate" "previousTime" 1 =
        pair f "previousDate" "previousTime" 1 ∧
      pair (mapped ctx f given stored) "currentDate" "currentTime" 1 =
        (pair f "currentDate" "currentTime" 1).or ((number f "step").map fun step =>
          stamp ctx ((dateTimeInts given).toSeconds ctx.calendar + step * 3600)) := by
  have hkept : mapped ctx f given stored = mappedStep ctx
      (storePair f "startDate" "startTime" stored)
      ((dateTimeInts given).toSeconds ctx.calendar) := by
    by_cases hends : MissesEnd f
    · exact mappedStepRange_of_none (by rw [givenSteps_mappedStep, givenSteps_storeStart, h hends])
    · exact mappedStepRange_of_hasEnds (Bool.eq_true_of_not_eq_false fun hfalse =>
        hends ((hasEnds_mappedStep_eq_false_iff _ _).mp hfalse))
  rw [hkept]
  constructor
  · rw [pair_congr (mappedStep_of_ne (by decide) (by decide))
      (mappedStep_of_ne (by decide) (by decide)), pair_storeStart _ _ (by decide) (by decide)]
  · rw [current_mappedStep, pair_storeStart _ _ (by decide) (by decide), number_storeStart_step]

theorem integers_mapped (hf : Integers f) : Integers (mapped ctx f given stored) :=
  ((hf.storePair _ _ _).mappedStep).mappedStepRange

variable (hctx : ctx.IsDocumented) (hmd : Reads ctx md f) (hf : WellTimed ctx f)
  (hgiven : givenStart f = some given)

include hctx hmd hf hgiven

theorem tryMapStepToTimeAndCheckTime_ok (hmappable : Mappable ctx f given)
    (hstored : storedStart f = some stored)
    (hcurrent : (pair (mapped ctx f given stored) "currentDate" "currentTime" 1).isSome) :
    ∃ md', tryMapStepToTimeAndCheckTime ctx md = .ok md' ∧
      Reads ctx md' (mapped ctx f given stored) := by
  have hmd := hmd.fetchAll ["startDate", "startTime", "dataDate", "dataTime", "date", "time"]
  obtain ⟨md', hmap, hmd'⟩ := mapStepToTime_ok hctx hmd hf hgiven hmappable hstored
  have hmd'' := hmd'.fetchAll ["currentDate", "currentTime"]
  refine ⟨_, ?_, hmd''⟩
  unfold tryMapStepToTimeAndCheckTime
  rw [hmap, ok_bind]
  dsimp only
  rw [hmd''.hasPair_eq (integers_mapped hf.integers) "currentDate" "currentTime" 1 (by decide)
    (by decide), if_pos hcurrent]

theorem tryMapStepToTimeAndCheckTime_eq_ok {md' : BaseMetadata}
    (h : tryMapStepToTimeAndCheckTime ctx md = .ok md') : Mappable ctx f given := by
  have hmd := hmd.fetchAll ["startDate", "startTime", "dataDate", "dataTime", "date", "time"]
  obtain ⟨_, hmap, -⟩ := bind_eq_ok_iff.mp h
  exact mapStepToTime_eq_ok hctx hmd hf hgiven hmap

end

end Multio.GribEncoder
