import Multio.Action.Encode.DateAndStatisticalFields
import Multio.Lib.GregorianCalendar

namespace Multio.GribEncoder
open Lib Util Exception Writing Datamod

variable {ctx : EncoderContext}

def timeFields : List String :=
  ["year", "month", "day", "hour", "minute", "second", "yearOfEndOfOverallTimeInterval",
    "monthOfEndOfOverallTimeInterval", "dayOfEndOfOverallTimeInterval",
    "hourOfEndOfOverallTimeInterval", "minuteOfEndOfOverallTimeInterval",
    "secondOfEndOfOverallTimeInterval", "indicatorOfUnitForTimeRange", "lengthOfTimeRange",
    "stepUnits", "startStep", "endStep"]

abbrev KeepsTimes (x : Encoding Unit) : Prop := Keeps { k | k ∈ timeFields } x

section

variable {md : BaseMetadata}

theorem keepsTimes_write {k : String} (hk : k ∉ timeFields) (v : CodesValue) :
    KeepsTimes (write k v) :=
  keeps_write (show k ∉ { k | k ∈ timeFields } from hk) v

theorem keepsTimes_setOptional {k : String} (hk : k ∉ timeFields) (v : Option ℤ) :
    KeepsTimes (setOptional k v) := by
  cases v with
  | none => exact keeps_pure ()
  | some v => exact keepsTimes_write hk _

theorem keepsTimes_setLookedUp {k : String} (hk : k ∉ timeFields) :
    KeepsTimes (setLookedUp ctx md k) :=
  Keeps.ite ((keeps_attempt _).bind fun v => keepsTimes_setOptional hk v) (keeps_pure ())

theorem keepsTimes_setTypeOfStatisticalProcessing (operation : Option String) :
    KeepsTimes (setTypeOfStatisticalProcessing operation) := by
  cases operation with
  | none => exact keeps_pure ()
  | some operation =>
    apply Keeps.ite (keeps_pure ())
    cases type_of_statistical_processing operation with
    | none => exact keeps_attempt _
    | some code => exact keepsTimes_write (by decide) _

theorem keepsTimes_setTimeIncrement (timeRef : String) :
    KeepsTimes (setTimeIncrement ctx md timeRef) := by
  apply (keepsTimes_write (by decide) _).bind
  intro _
  apply (keeps_attempt _).bind
  intro timeIncrement
  cases timeIncrement with
  | some n =>
    apply Keeps.ite
    · exact (keepsTimes_setLookedUp (by decide)).bind fun _ => keepsTimes_write (by decide) _
    · exact (keepsTimes_write (by decide) _).bind fun _ => keepsTimes_write (by decide) _
  | none =>
    apply (keeps_attempt _).bind
    intro sampleInterval
    cases sampleInterval with
    | some n => exact (keepsTimes_write (by decide) _).bind fun _ => keepsTimes_write (by decide) _
    | none =>
      apply (keepsTimes_write (by decide) _).bind
      intro _
      apply (keeps_attempt _).bind
      exact fun timeStep => Keeps.ite (keepsTimes_setOptional (by decide) _) (keeps_pure ())

theorem keepsTimes_setAnalysis : KeepsTimes (setAnalysis ctx md) := by
  apply (keeps_attempt _).bind
  intro dateOfAnalysis
  apply (keeps_attempt _).bind
  intro timeOfAnalysis
  cases dateOfAnalysis with
  | none => exact keeps_pure ()
  | some date =>
    unfold setAnalysisDateTime
    repeat first | exact keepsTimes_write (by decide) _ |
      refine (keepsTimes_write (by decide) _).bind fun _ => ?_

end

structure RangeTimes where
  reference : DateTimeInts
  endOfInterval : DateTimeInts
  startStep : ℚ
  endStep : ℚ
  lengthOfTimeRange : ℚ

namespace RangeTimes

/-- The fields of the times, with the steps and the length in hours. -/
def fields (t : RangeTimes) : List (String × CodesValue) :=
  [("year", .long t.reference.date.year), ("month", .long t.reference.date.month),
    ("day", .long t.reference.date.day), ("hour", .long t.reference.time.hour),
    ("minute", .long t.reference.time.minute), ("second", .long t.reference.time.second),
    ("yearOfEndOfOverallTimeInterval", .long t.endOfInterval.date.year),
    ("monthOfEndOfOverallTimeInterval", .long t.endOfInterval.date.month),
    ("dayOfEndOfOverallTimeInterval", .long t.endOfInterval.date.day),
    ("hourOfEndOfOverallTimeInterval", .long t.endOfInterval.time.hour),
    ("minuteOfEndOfOverallTimeInterval", .long t.endOfInterval.time.minute),
    ("secondOfEndOfOverallTimeInterval", .long t.endOfInterval.time.second),
    ("indicatorOfUnitForTimeRange", .long (timeUnitCodes .hour)),
    ("lengthOfTimeRange", .double t.lengthOfTimeRange),
    ("stepUnits", .long (timeUnitCodes .hour)), ("startStep", .double t.startStep),
    ("endStep", .double t.endStep)]

def WrittenTo (t : RangeTimes) (log : WriteLog String CodesValue) : Prop :=
  ∀ e ∈ t.fields, log.lookup e.1 = some e.2

/-- The end step leads from the reference time to the end of the interval, and the start step to
its start, which is the length of the range before. -/
structure Consistent (calendar : Calendar) (t : RangeTimes) : Prop where
  reference : t.reference.Valid
  endOfInterval : t.endOfInterval.Valid
  endStep : (t.endOfInterval.toSeconds calendar : ℚ) =
    t.reference.toSeconds calendar + 3600 * t.endStep
  startStep : t.endStep - t.startStep = t.lengthOfTimeRange

def between (calendar : Calendar) (reference previous current : DateTimeInts) : RangeTimes where
  reference
  endOfInterval := current
  startStep := exactDiffInSeconds calendar previous reference / 3600
  endStep := exactDiffInSeconds calendar current reference / 3600
  lengthOfTimeRange := exactDiffInSeconds calendar current previous / 3600

theorem between_consistent {calendar : Calendar} {reference previous current : DateTimeInts}
    (href : reference.Valid) (hcurrent : current.Valid) :
    (between calendar reference previous current).Consistent calendar where
  reference := href
  endOfInterval := hcurrent
  endStep := by
    unfold between
    dsimp only
    rw [exactDiffInSeconds_eq, Int.cast_sub]
    ring
  startStep := by
    unfold between
    dsimp only
    rw [exactDiffInSeconds_eq, exactDiffInSeconds_eq, exactDiffInSeconds_eq, Int.cast_sub,
      Int.cast_sub, Int.cast_sub]
    ring

end RangeTimes

section

variable {md : BaseMetadata}

theorem getPair_ok {date time : String} {p : ℤ × ℤ}
    (h : pair (reader ctx md) date time 1 = some p) : getPair ctx md date time = .ok p := by
  obtain ⟨d, t, hd, ht, rfl⟩ := pair_eq_some_iff.mp h
  unfold getPair Metadata.get
  rw [show Metadata.find ctx.parametrization md date = _ from hd,
    show Metadata.find ctx.parametrization md time = _ from ht, mul_one]
  rfl

theorem exec_setReference (t : DateTimeInts) (log : WriteLog String CodesValue) :
    (setReference t).exec log = (.ok (),
      ("second", .long t.time.second) :: ("minute", .long t.time.minute) ::
      ("hour", .long t.time.hour) :: ("day", .long t.date.day) ::
      ("month", .long t.date.month) :: ("year", .long t.date.year) :: log) := rfl

theorem exec_setEndOfOverallTimeInterval (t : DateTimeInts) (log : WriteLog String CodesValue) :
    (setEndOfOverallTimeInterval t).exec log = (.ok (),
      ("secondOfEndOfOverallTimeInterval", .long t.time.second) ::
      ("minuteOfEndOfOverallTimeInterval", .long t.time.minute) ::
      ("hourOfEndOfOverallTimeInterval", .long t.time.hour) ::
      ("dayOfEndOfOverallTimeInterval", .long t.date.day) ::
      ("monthOfEndOfOverallTimeInterval", .long t.date.month) ::
      ("yearOfEndOfOverallTimeInterval", .long t.date.year) :: log) := rfl

theorem exec_setLengthOfTimeRange (previous current : DateTimeInts)
    (log : WriteLog String CodesValue) :
    (setLengthOfTimeRange ctx previous current).exec log = (.ok (),
      ("lengthOfTimeRange", hours ctx current previous) ::
      ("indicatorOfUnitForTimeRange", .long (timeUnitCodes .hour)) :: log) := rfl

theorem exec_setStepRange_start (reference previous current : DateTimeInts)
    (log : WriteLog String CodesValue) :
    (setStepRange ctx "start" reference previous current).exec log = (.ok (),
      ("endStep", hours ctx current reference) :: ("stepUnits", .long (timeUnitCodes .hour)) ::
      ("startStep", hours ctx previous reference) ::
      ("stepUnits", .long (timeUnitCodes .hour)) :: log) := rfl

theorem RangeTimes.mem_timeFields (t : RangeTimes) {e : String × CodesValue} (he : e ∈ t.fields) :
    e.1 ∈ { k | k ∈ timeFields } :=
  List.mem_map_of_mem (f := Prod.fst) he

theorem writtenTo_setMappedTimes {type operation : Option String} {significance : Option ℤ}
    {start previous current : ℤ × ℤ}
    (href : getTimeReference ctx md type "2" true significance = .ok "start")
    (hstart : pair (reader ctx md) "startDate" "startTime" 1 = some start)
    (hprevious : pair (reader ctx md) "previousDate" "previousTime" 1 = some previous)
    (hcurrent : pair (reader ctx md) "currentDate" "currentTime" 1 = some current)
    (log : WriteLog String CodesValue) :
    (RangeTimes.between ctx.calendar (wrapDateTime ctx.calendar ctx.numbers (dateTimeInts start))
      (wrapDateTime ctx.calendar ctx.numbers (dateTimeInts previous))
      (wrapDateTime ctx.calendar ctx.numbers (dateTimeInts current))).WrittenTo
        ((setMappedTimes ctx md type "2" true operation significance).exec log).2 := by
  intro e he
  have hmem := RangeTimes.mem_timeFields _ he
  unfold setMappedTimes
  rw [href, attempt_ok_bind, show getReferenceDateTime ctx "start" md = _ from getPair_ok hstart,
    attempt_ok_bind]
  dsimp only
  rw [exec_bind_ok (exec_setReference _ _), getPair_ok hcurrent, attempt_ok_bind]
  rw [lookup_exec_bind (fun _ => keepsTimes_setAnalysis) _ _ hmem]
  unfold setSteps setTimeRange
  rw [if_neg (by decide), if_pos rfl, getPair_ok hprevious, attempt_ok_bind]
  dsimp only
  -- the operation and the increment are set under keys of their own
  rw [exec_bind_ok (exec_setEndOfOverallTimeInterval _ _),
    exec_bind_ok (exec_setLengthOfTimeRange _ _ _), lookup_exec_bind
      (fun _ => (keepsTimes_setTypeOfStatisticalProcessing _).bind fun _ =>
        keepsTimes_setTimeIncrement _) _ _ hmem, exec_setStepRange_start]
  simp only [RangeTimes.fields, List.mem_cons, List.not_mem_nil, or_false] at he
  rcases he with rfl | rfl | rfl | rfl | rfl | rfl | rfl | rfl | rfl | rfl | rfl | rfl | rfl |
    rfl | rfl | rfl | rfl <;> rfl

end

/-- The seconds of a number of hours after the start. -/
abbrev hoursAfter (ctx : EncoderContext) (given : ℤ × ℤ) (step : ℤ) : ℤ :=
  (dateTimeInts given).toSeconds ctx.calendar + step * 3600

structure GivesSteps (ctx : EncoderContext) (f : String → Option MetadataValue) : Prop where
  current : pair f "currentDate" "currentTime" 1 = none
  previous : pair f "previousDate" "previousTime" 1 = none
  steps : (number f "step").isSome ∨ (givenSteps ctx f).isSome

structure StoresTimes (ctx : EncoderContext) (f f' : String → Option MetadataValue)
    (given : ℤ × ℤ) : Prop where
  start : pair f' "startDate" "startTime" 1 = some given
  steps : ∀ steps, givenSteps ctx f = some steps →
    pair f' "previousDate" "previousTime" 1 = some (stamp ctx (hoursAfter ctx given steps.1)) ∧
      pair f' "currentDate" "currentTime" 1 = some (stamp ctx (hoursAfter ctx given steps.2))
  step : givenSteps ctx f = none → ∀ step, number f "step" = some step →
    pair f' "currentDate" "currentTime" 1 = some (stamp ctx (hoursAfter ctx given step))

def givenHours (ctx : EncoderContext) (f : String → Option MetadataValue) : List ℤ :=
  (number f "step").toList ++ ((givenSteps ctx f).map fun steps => [steps.1, steps.2]).getD []

/-- A field of the second edition with a range of times after the start: both ends are given by
date-times or by steps, which do not lead back before the year 0. -/
structure RangeFromStart (ctx : EncoderContext) (md : BaseMetadata) (type : Option String)
    (given : ℤ × ℤ) : Prop where
  edition : gribEdition ctx md = .ok "2"
  timeRange : isTimeRange ctx md type = .ok true
  reference : ∃ significance, significanceOfReferenceTime ctx md = .ok significance ∧
    getTimeReference ctx md type "2" true significance = .ok "start"
  ends : (givenSteps ctx (reader ctx md)).isSome ∨
    (pair (reader ctx md) "previousDate" "previousTime" 1).isSome ∧
      ((pair (reader ctx md) "currentDate" "currentTime" 1).isSome ∨
        (number (reader ctx md) "step").isSome)
  years : ∀ step ∈ givenHours ctx (reader ctx md),
    0 ≤ (DateTimeInts.ofSeconds ctx.calendar (hoursAfter ctx given step)).date.year

section

variable {md : BaseMetadata} {f : String → Option MetadataValue} {given stored : ℤ × ℤ}

theorem GivesSteps.isSome_current (h : GivesSteps ctx f) :
    (pair (mapped ctx f given stored) "currentDate" "currentTime" 1).isSome := by
  cases hsteps : givenSteps ctx f with
  | some steps =>
    rw [(mapped_ends_of_steps (Or.inl h.previous) hsteps).2]
    rfl
  | none =>
    have hstep : (number f "step").isSome := by
      have hsteps' := h.steps
      rw [hsteps] at hsteps'
      exact hsteps'.resolve_right (by decide)
    rw [(mapped_ends_of_kept fun _ => hsteps).2, Option.isSome_or, Option.isSome_map, hstep,
      Bool.or_true]

/-- The times are stored from the start that is stored, which need not be the one given. -/
theorem GivesSteps.storesTimes (h : GivesSteps ctx f) :
    StoresTimes ctx f (mapped ctx f given stored) given ↔ stored = given := by
  constructor
  · intro hstores
    exact Option.some.inj (mapped_start.symm.trans hstores.start)
  · rintro rfl
    refine ⟨mapped_start, fun steps => mapped_ends_of_steps (Or.inl h.previous), ?_⟩
    intro hsteps step hstep
    rw [(mapped_ends_of_kept fun _ => hsteps).2, h.current, hstep]
    rfl

theorem stamp_upToMidnight (hctx : ctx.IsDocumented) {n : ℤ}
    (h : 0 ≤ (DateTimeInts.ofSeconds ctx.calendar n).date.year) :
    (dateTimeInts (stamp ctx n)).UpToMidnight := by
  have hn := DateTimeInts.valid_ofSeconds hctx.gregorian n
  obtain ⟨hdate, htime⟩ := hn.ofNumbers hctx.numbers h
  have heq : dateTimeInts (stamp ctx n) = DateTimeInts.ofSeconds ctx.calendar n := by
    unfold dateTimeInts stamp
    rw [hdate, htime]
  rw [heq]
  exact hn.upToMidnight h

theorem RangeFromStart.ends_mapped (hctx : ctx.IsDocumented) {type : Option String}
    (hf : WellTimed ctx (reader ctx md)) (h : RangeFromStart ctx md type given) (stored : ℤ × ℤ) :
    ∃ previous current,
      pair (mapped ctx (reader ctx md) given stored) "previousDate" "previousTime" 1 =
        some previous ∧
      pair (mapped ctx (reader ctx md) given stored) "currentDate" "currentTime" 1 =
        some current ∧
      (dateTimeInts previous).UpToMidnight ∧ (dateTimeInts current).UpToMidnight := by
  have hyear {step : ℤ} (hstep : step ∈ givenHours ctx (reader ctx md)) :=
    stamp_upToMidnight hctx (h.years step hstep)
  by_cases hmapped : MissesEnd (reader ctx md) ∧ (givenSteps ctx (reader ctx md)).isSome
  · obtain ⟨hends, hsteps⟩ := hmapped
    obtain ⟨steps, hsteps⟩ := Option.isSome_iff_exists.mp hsteps
    refine ⟨_, _, (mapped_ends_of_steps hends hsteps).1, (mapped_ends_of_steps hends hsteps).2,
      hyear ?_, hyear ?_⟩
    · simp [givenHours, hsteps]
    · simp [givenHours, hsteps]
  · -- the ends that are given are there, the later one perhaps by a step
    have hkept : MissesEnd (reader ctx md) → givenSteps ctx (reader ctx md) = none :=
      fun hends => Option.not_isSome_iff_eq_none.mp fun hsteps => hmapped ⟨hends, hsteps⟩
    have hgivenEnds : (pair (reader ctx md) "previousDate" "previousTime" 1).isSome ∧
        ((pair (reader ctx md) "currentDate" "currentTime" 1).isSome ∨
          (number (reader ctx md) "step").isSome) := by
      rcases h.ends with hsteps | hgivenEnds
      · have hends : ¬ MissesEnd (reader ctx md) := fun hends => hmapped ⟨hends, hsteps⟩
        simp only [MissesEnd, not_or, not_and_or, ← ne_eq, Option.ne_none_iff_isSome] at hends
        exact hends
      · exact hgivenEnds
    obtain ⟨previous, hprevious⟩ := Option.isSome_iff_exists.mp hgivenEnds.1
    have hpreviousTime := hf.upToMidnight hprevious (by simp [givenPairs])
    rw [(mapped_ends_of_kept hkept).1, (mapped_ends_of_kept hkept).2, hprevious]
    cases hcurrent : pair (reader ctx md) "currentDate" "currentTime" 1 with
    | some current =>
      exact ⟨previous, current, rfl, rfl, hpreviousTime,
        hf.upToMidnight hcurrent (by simp [givenPairs])⟩
    | none =>
      have hstep := hgivenEnds.2.resolve_left (by rw [hcurrent]; decide)
      obtain ⟨step, hstep⟩ := Option.isSome_iff_exists.mp hstep
      rw [hstep]
      exact ⟨previous, _, rfl, rfl, hpreviousTime, hyear (by simp [givenHours, hstep])⟩

theorem getTimeReference_mapped {md' : BaseMetadata} {type : Option String} {edition : String}
    {timeRange : Bool} {significance : Option ℤ}
    (hmd' : Reads ctx md' (mapped ctx (reader ctx md) given stored)) :
    getTimeReference ctx md' type edition timeRange significance =
      getTimeReference ctx md type edition timeRange significance := by
  have hread : Metadata.find ctx.parametrization md' "timeReference" =
      Metadata.find ctx.parametrization md "timeReference" := by
    change reader ctx md' "timeReference" = _
    rw [hmd'.reader_eq, mapped_of_ne (by decide)]
  unfold getTimeReference lookUp Metadata.getOpt
  rw [hread]

theorem exec_setSignificanceOfReferenceTime (edition : String) (significance : Option ℤ)
    (log : WriteLog String CodesValue) :
    ∃ log', (setSignificanceOfReferenceTime edition significance).exec log = (.ok (), log') ∧
      log'.lookup "year" = log.lookup "year" := by
  cases significance with
  | none => exact ⟨log, rfl, rfl⟩
  | some n =>
    unfold setSignificanceOfReferenceTime
    split_ifs
    · exact ⟨_, rfl, rfl⟩
    · exact ⟨log, rfl, rfl⟩

/-- Up to the mapping of the metadata nothing is set but the significance. -/
theorem RangeFromStart.exec_eq {type : Option String} (h : RangeFromStart ctx md type given) :
    ∃ operation significance log,
      getTimeReference ctx md type "2" true significance = .ok "start" ∧
      log.lookup "year" = none ∧
      (setDateAndStatisticalFields ctx md type).exec [] =
        (attempt (tryMapStepToTimeAndCheckTime ctx md) >>= fun md =>
          setMappedTimes ctx md type "2" true operation significance).exec log := by
  obtain ⟨significance, hsignificance, href⟩ := h.reference
  obtain ⟨operation, hoperation, -⟩ := bind_eq_ok_iff.mp h.timeRange
  obtain ⟨log, hlog, hyear⟩ := exec_setSignificanceOfReferenceTime "2" significance []
  refine ⟨operation, significance, log, href, hyear, ?_⟩
  unfold setDateAndStatisticalFields
  rw [h.edition, attempt_ok_bind, hoperation, attempt_ok_bind, h.timeRange, attempt_ok_bind,
    hsignificance, attempt_ok_bind, exec_bind_ok hlog]

theorem RangeFromStart.consistent_iff (hctx : ctx.IsDocumented) (hmd : md.Keyed)
    (hf : WellTimed ctx (reader ctx md)) (hgiven : givenStart (reader ctx md) = some given)
    {type : Option String} (h : RangeFromStart ctx md type given) :
    (∃ t : RangeTimes, t.WrittenTo (setDateAndStatisticalFields ctx md type).log ∧
      t.Consistent ctx.calendar) ↔ Mappable ctx (reader ctx md) given := by
  have hreads : Reads ctx md (reader ctx md) := ⟨hmd, rfl⟩
  obtain ⟨operation, significance, log, href, hyear, hexec⟩ := h.exec_eq
  unfold Writing.log
  rw [hexec]
  constructor
  · rintro ⟨t, hwritten, -⟩
    cases hmap : tryMapStepToTimeAndCheckTime ctx md with
    | ok md' => exact tryMapStepToTimeAndCheckTime_eq_ok hctx hreads hf hgiven hmap
    | error e =>
      -- then no year is set
      have hset := hwritten ("year", .long t.reference.date.year) (by simp [RangeTimes.fields])
      rw [hmap, attempt_error_bind] at hset
      rw [show log.lookup "year" = _ from hset] at hyear
      cases hyear
  · intro hmappable
    obtain ⟨stored, hstored⟩ := Option.isSome_iff_exists.mp hmappable.start
    obtain ⟨previous, current, hprevious, hcurrent, hpreviousTime, hcurrentTime⟩ :=
      h.ends_mapped hctx hf stored
    obtain ⟨md', hmap, hmd'⟩ := tryMapStepToTimeAndCheckTime_ok hctx hreads hf hgiven hmappable
      hstored (by rw [hcurrent]; rfl)
    rw [hmap, attempt_ok_bind]
    have hreference := DateTimeInts.wrapDateTime_spec hctx.gregorian hctx.numbers
      (hf.storedStart hstored)
    have hend := DateTimeInts.wrapDateTime_spec hctx.gregorian hctx.numbers hcurrentTime
    rw [← hmd'.reader_eq] at hprevious hcurrent
    refine ⟨_, writtenTo_setMappedTimes ((getTimeReference_mapped hmd').trans href)
      (hmd'.reader_eq ▸ mapped_start) hprevious hcurrent log, ?_⟩
    exact RangeTimes.between_consistent hreference.1 hend.1

theorem GivesSteps.stores_iff (hctx : ctx.IsDocumented) (hmd : md.Keyed)
    (hf : WellTimed ctx (reader ctx md)) (hgiven : givenStart (reader ctx md) = some given)
    (h : GivesSteps ctx (reader ctx md)) :
    (∃ md', tryMapStepToTimeAndCheckTime ctx md = .ok md' ∧
      StoresTimes ctx (reader ctx md) (reader ctx md') given) ↔
    Mappable ctx (reader ctx md) given ∧ storedStart (reader ctx md) = some given := by
  have hreads : Reads ctx md (reader ctx md) := ⟨hmd, rfl⟩
  constructor
  · rintro ⟨md', hmap, hstores⟩
    have hmappable := tryMapStepToTimeAndCheckTime_eq_ok hctx hreads hf hgiven hmap
    obtain ⟨stored, hstored⟩ := Option.isSome_iff_exists.mp hmappable.start
    obtain ⟨md'', hmap', hmd''⟩ := tryMapStepToTimeAndCheckTime_ok hctx hreads hf hgiven hmappable
      hstored h.isSome_current
    obtain rfl := Except.ok.inj (hmap.symm.trans hmap')
    rw [hmd''.reader_eq, h.storesTimes] at hstores
    exact ⟨hmappable, hstores ▸ hstored⟩
  · rintro ⟨hmappable, hstored⟩
    obtain ⟨md', hmap, hmd'⟩ := tryMapStepToTimeAndCheckTime_ok hctx hreads hf hgiven hmappable
      hstored h.isSome_current
    refine ⟨md', hmap, ?_⟩
    rw [hmd'.reader_eq, h.storesTimes]

/-- The times of a start and steps are stored, and those of a range set consistently, exactly if
there is a start to store, it is not 24:00:00 and the seconds of the steps fit; for what is stored
to be the start, it must be the one that is read. -/
theorem encodedTimes_iff (hctx : ctx.IsDocumented) (hmd : md.Keyed)
    (hf : WellTimed ctx (reader ctx md)) (hgiven : givenStart (reader ctx md) = some given) :
    (GivesSteps ctx (reader ctx md) →
      ((∃ md', tryMapStepToTimeAndCheckTime ctx md = .ok md' ∧
        StoresTimes ctx (reader ctx md) (reader ctx md') given) ↔
      Mappable ctx (reader ctx md) given ∧ storedStart (reader ctx md) = some given)) ∧
    ∀ type, RangeFromStart ctx md type given →
      ((∃ t : RangeTimes, t.WrittenTo (setDateAndStatisticalFields ctx md type).log ∧
        t.Consistent ctx.calendar) ↔ Mappable ctx (reader ctx md) given) :=
  ⟨GivesSteps.stores_iff hctx hmd hf hgiven,
    fun _ => RangeFromStart.consistent_iff hctx hmd hf hgiven⟩

end

theorem integers_of_all {f : String → Option MetadataValue}
    (h : ∀ k ∈ timeKeys, (f k).all fun v => v.getInt64.toOption.isSome) : Integers f := by
  intro k hk v hv
  have hv' := h k hk
  rw [hv, Option.all_some] at hv'
  cases v with
  | int64 n => exact ⟨n, rfl⟩
  | _ => cases hv'

def dayContext : EncoderContext where
  parametrization := { bucketCount := 1 }
  policy := { hash := String.length, nextBucketCount := fun _ => 541 }
  calendar := Calendar.gregorian
  numbers := { yyyymmdd := fromDateInts, hhmmss := fromTimeInts }
  time h m s :=
    if 0 ≤ h ∧ h < 24 ∧ 0 ≤ m ∧ m < 60 ∧ 0 ≤ s ∧ s < 60 then .ok ((h * 60 + m) * 60 + s)
    else .error (.badValue "Wrong input for time")
  translate s := s.toInt?.elim (.error (.badValue s)) .ok
  hasKey _ := true

theorem dayContext_isDocumented : dayContext.IsDocumented where
  gregorian := Calendar.gregorian_isGregorian
  numbers := ⟨fun _ _ _ _ => rfl, fun _ _ _ _ => rfl⟩
  time_eq t hh hm hs := if_pos (by omega)
  time_midnight n h := by cases h

/-- An average over the second six hours of a forecast from the end of a month. -/
def averageMetadata : BaseMetadata where
  bucketCount := 541
  nodes := [("date", .int64 20200131), ("time", .int64 1800), ("startStep", .int64 6),
    ("endStep", .int64 12), ("operation", .string "average")]

theorem averageMetadata_wellTimed : WellTimed dayContext (reader dayContext averageMetadata) where
  integers := integers_of_all (by decide)
  stepRange := by decide
  dateTimes p hp := by
    have hpairs : givenPairs (reader dayContext averageMetadata) =
        [none, none, some (20200131, 180000), none, none] := rfl
    rw [hpairs] at hp
    obtain rfl : p = (20200131, 180000) := by simpa using hp
    constructor <;> decide

theorem averageMetadata_rangeFromStart :
    RangeFromStart dayContext averageMetadata (some "fc") (20200131, 180000) where
  edition := rfl
  timeRange := rfl
  reference := ⟨none, rfl, rfl⟩
  ends := Or.inl (by decide)
  years := by decide +kernel

theorem averageMetadata_mappable :
    Mappable dayContext (reader dayContext averageMetadata) (20200131, 180000) where
  start := by decide
  hour := by decide
  fit :=
    { step := fun _ step hstep => by cases hstep
      steps := by
        intro _ steps hsteps
        obtain rfl := Option.some.inj hsteps
        decide }

theorem encodedTimes_iff_average :
    (∃ md', tryMapStepToTimeAndCheckTime dayContext averageMetadata = .ok md' ∧
      StoresTimes dayContext (reader dayContext averageMetadata) (reader dayContext md')
        (20200131, 180000)) ∧
    ∃ t : RangeTimes, t.WrittenTo
      (setDateAndStatisticalFields dayContext averageMetadata (some "fc")).log ∧
        t.Consistent dayContext.calendar := by
  have hkeyed : averageMetadata.Keyed := by
    unfold HashTable.Keyed
    decide
  obtain ⟨hstores, hrange⟩ := encodedTimes_iff dayContext_isDocumented hkeyed
    averageMetadata_wellTimed rfl
  exact ⟨(hstores ⟨rfl, rfl, Or.inr (by decide)⟩).mpr ⟨averageMetadata_mappable, rfl⟩,
    (hrange _ averageMetadata_rangeFromStart).mpr averageMetadata_mappable⟩

/-- `dataDate` is a day after `date`. -/
def dataDateMetadata : BaseMetadata where
  bucketCount := 541
  nodes := [("dataDate", .int64 20200102), ("dataTime", .int64 0), ("date", .int64 20200101),
    ("time", .int64 0), ("step", .int64 6)]

def midnightMetadata : BaseMetadata where
  bucketCount := 541
  nodes := [("startDate", .int64 20200101), ("startTime", .int64 240000), ("startStep", .int64 0),
    ("endStep", .int64 6), ("operation", .string "average")]

theorem dataDateMetadata_wellTimed :
    WellTimed dayContext (reader dayContext dataDateMetadata) where
  integers := integers_of_all (by decide)
  stepRange := by decide
  dateTimes p hp := by
    have hpairs : givenPairs (reader dayContext dataDateMetadata) =
        [none, some (20200102, 0), some (20200101, 0), none, none] := rfl
    rw [hpairs] at hp
    obtain rfl | rfl : p = (20200102, 0) ∨ p = (20200101, 0) := by simpa using hp
    · constructor <;> decide
    · constructor <;> decide

theorem midnightMetadata_wellTimed :
    WellTimed dayContext (reader dayContext midnightMetadata) where
  integers := integers_of_all (by decide)
  stepRange := by decide
  dateTimes p hp := by
    have hpairs : givenPairs (reader dayContext midnightMetadata) =
        [some (20200101, 240000), none, none, none, none] := rfl
    rw [hpairs] at hp
    obtain rfl : p = (20200101, 240000) := by simpa using hp
    constructor <;> decide

/-- The start of `dataDate` is not stored, and a range from 24:00:00 on is not encoded. -/
theorem dataDate_not_stored :
    ¬ (∀ (ctx : EncoderContext) (md : BaseMetadata) (given : ℤ × ℤ), ctx.IsDocumented → md.Keyed →
      WellTimed ctx (reader ctx md) → givenStart (reader ctx md) = some given →
      GivesSteps ctx (reader ctx md) →
      ∃ md', tryMapStepToTimeAndCheckTime ctx md = .ok md' ∧
        StoresTimes ctx (reader ctx md) (reader ctx md') given) ∧
    ¬ ∀ (ctx : EncoderContext) (md : BaseMetadata) (given : ℤ × ℤ) (type : Option String),
      ctx.IsDocumented → md.Keyed → WellTimed ctx (reader ctx md) →
      givenStart (reader ctx md) = some given → RangeFromStart ctx md type given →
      ∃ t : RangeTimes, t.WrittenTo (setDateAndStatisticalFields ctx md type).log ∧
        t.Consistent ctx.calendar := by
  constructor
  · intro h
    have hkeyed : dataDateMetadata.Keyed := by
      unfold HashTable.Keyed
      decide
    have hsteps : GivesSteps dayContext (reader dayContext dataDateMetadata) :=
      ⟨rfl, rfl, Or.inl (by decide)⟩
    have hstores := h dayContext dataDateMetadata (20200102, 0) dayContext_isDocumented hkeyed
      dataDateMetadata_wellTimed rfl hsteps
    obtain ⟨-, hstored⟩ := (GivesSteps.stores_iff dayContext_isDocumented hkeyed
      dataDateMetadata_wellTimed rfl hsteps).mp hstores
    exact absurd hstored (by decide)
  · intro h
    have hkeyed : midnightMetadata.Keyed := by
      unfold HashTable.Keyed
      decide
    have hrange : RangeFromStart dayContext midnightMetadata (some "fc") (20200101, 240000) :=
      ⟨rfl, rfl, ⟨none, rfl, rfl⟩, Or.inl (by decide), by decide +kernel⟩
    have hconsistent := h dayContext midnightMetadata (20200101, 240000) (some "fc")
      dayContext_isDocumented hkeyed midnightMetadata_wellTimed rfl hrange
    have hmappable := (RangeFromStart.consistent_iff dayContext_isDocumented hkeyed
      midnightMetadata_wellTimed rfl hrange).mp hconsistent
    exact absurd hmappable.hour (by decide)

end Multio.GribEncoder
