import Multio.Action.Statistics.EagerWindows
import Multio.Action.Statistics.WordContext
import Multio.Action.StatisticsMtg2.PeriodPartition

namespace Multio.Statistics
open Lib StatisticsMtg2 Exception TemporalStatistics

variable {ctx : StatisticsContext}

/-- The time of the `i`-th message at the steps `s`, `s + f`, …. -/
def stepTime (epoch : DateTime) (timeStep s f : ℤ) (i : ℕ) : DateTime :=
  epoch + (s + i * f) * timeStep

theorem stepTime_strictMono (epoch : DateTime) {timeStep f : ℤ} (s : ℤ) (h : 0 < f * timeStep) :
    StrictMono (stepTime epoch timeStep s f) := by
  apply strictMono_nat_of_lt_succ
  intro i
  have hstep : stepTime epoch timeStep s f (i + 1) = stepTime epoch timeStep s f i + f * timeStep := by
    unfold stepTime
    push_cast
    ring
  rw [hstep]
  exact lt_add_of_pos_right _ h

def offset (opt : StatisticsOptions) : ℕ := if opt.solverSendInitStep then 0 else 1

theorem stepTime_offset (epoch : DateTime) (timeStep s f : ℤ) (m i : ℕ) :
    stepTime epoch timeStep (s - m * f) f (i + m) = stepTime epoch timeStep s f i := by
  unfold stepTime
  push_cast
  ring

/-- The first `n` messages of one field, at the steps `s`, `s + f`, …. -/
structure RegularRun (ctx : StatisticsContext) (conf : Config) (msg : ℕ → Message)
    (cfg : ℕ → StatisticsConfiguration ctx.arithmetic) (key : String) (epoch : DateTime)
    (timeStep s f : ℤ) (p : PrecisionTag) (sz n : ℕ) : Prop where
  interval : 0 < f * timeStep
  firstStep : conf.opt.solverSendInitStep = false → f ≤ s
  tag : ∀ i < n, (msg i).tag = .field
  readable : ∀ i < n,
    StatisticsConfiguration.make ctx conf.opt (msg i).metadata (msg i).source = .ok (cfg i)
  sameKey : ∀ i < n, (cfg i).key = key
  sameEpoch : ∀ i < n, (cfg i).epoch = epoch
  step : ∀ i < n, (cfg i).step = s + i * f
  stepFreq : ∀ i < n, (cfg i).stepFreq = f
  sameTimeStep : ∀ i < n, (cfg i).timeStep = timeStep
  precision : ∀ i < n, (msg i).precision ctx.toContext = .ok p
  size : ∀ i < n, (msg i).payload.length = sz
  mappable : ∀ i < n, Mappable conf ctx (msg i).metadata

namespace RegularRun

variable {conf : Config} {msg : ℕ → Message} {cfg : ℕ → StatisticsConfiguration ctx.arithmetic}
  {key : String} {epoch : DateTime} {timeStep s f : ℤ} {p : PrecisionTag} {sz n i : ℕ}

def times (opt : StatisticsOptions) (epoch : DateTime) (timeStep s f : ℤ) : ℕ → DateTime :=
  stepTime epoch timeStep (s - offset opt * f) f

section

variable (h : RegularRun ctx conf msg cfg key epoch timeStep s f p sz n)
  (hnonneg : ∀ i < n, 0 ≤ s + i * f) (hi : i < n)

include h hi

theorem currentDateTime_eq : (cfg i).currentDateTime = stepTime epoch timeStep s f i := by
  rw [StatisticsConfiguration.currentDateTime, h.sameEpoch i hi, h.step i hi, h.sameTimeStep i hi, stepTime]

include hnonneg in
theorem timed : Timed timeStep (times conf.opt epoch timeStep s f) (i + offset conf.opt) (cfg i) where
  curr := by
    rw [(cfg i).curr_eq_currentDateTime (h.step i hi ▸ hnonneg i hi), h.currentDateTime_eq hi,
      times, stepTime_offset]
  current := by rw [h.currentDateTime_eq hi, times, stepTime_offset]
  next := by
    rw [StatisticsConfiguration.nextDateTime, h.sameEpoch i hi, h.step i hi, h.stepFreq i hi,
      h.sameTimeStep i hi, times, stepTime]
    push_cast
    ring
  timeStep := h.sameTimeStep i hi
  interval := by
    rw [h.stepFreq i hi, h.sameTimeStep i hi]
    exact h.interval

end

/-- The first window begins at the time before the first message that is accumulated. -/
theorem winStart_eq (h : RegularRun ctx conf msg cfg key epoch timeStep s f p sz n)
    (hnonneg : ∀ i < n, 0 ≤ s + i * f) (hn : 0 < n) :
    (cfg 0).winStart conf.opt = times conf.opt epoch timeStep s f 0 := by
  have hstep := h.step 0 hn
  have hstart := hnonneg 0 hn
  rw [Nat.cast_zero, zero_mul, add_zero] at hstep hstart
  unfold StatisticsConfiguration.winStart times stepTime offset StatisticsConfiguration.curr
    StatisticsConfiguration.prev
  rw [h.sameEpoch 0 hn, hstep, h.stepFreq 0 hn, h.sameTimeStep 0 hn]
  split_ifs with hinit
  · rw [max_eq_left hstart]
    simp
  · rw [Bool.not_eq_true] at hinit
    rw [max_eq_left (sub_nonneg.mpr (h.firstStep hinit))]
    simp

/-- The points between the windows of the run. -/
abbrev boundary (ctx : StatisticsContext) (opt : StatisticsOptions) (u : PeriodUpdater)
    (epoch : DateTime) (timeStep s f : ℤ) : ℕ → DateTime :=
  windowPoint ctx.calendar u (times opt epoch timeStep s f 0)

/-- The field has taken in the `j`-th time and is not at the end of its window. -/
def Ready (u : PeriodUpdater) (p : PrecisionTag) (sz : ℕ) (timeStep : ℤ)
    (start : DateTime) (time : ℕ → DateTime) (j : ℕ) (ts : TemporalStatistics ctx) : Prop :=
  ∃ k, ts.Within p sz u timeStep start time k j ∧
    time j < windowPoint ctx.calendar u start (k + 1)

/-- What the `i`-th message does after those before it: an initial condition only makes the
statistics of the field, any other message is accumulated in a window. -/
def Accumulates (lib : RestartLibrary) (conf : Config) (a₀ : StatisticsAction ctx)
    (msg : ℕ → Message) (cfg : ℕ → StatisticsConfiguration ctx.arithmetic) (time W : ℕ → DateTime)
    (i : ℕ) : Prop :=
  ∃ a outs a' out ts ts',
    StatisticsAction.run lib conf a₀ ((List.range i).map msg) = .ok (a, outs) ∧
    a.executeImpl lib conf (msg i) = .ok (a', out) ∧
    a.findOrMake lib conf (cfg i) (msg i) = .ok ts ∧
    a'.fieldStats.find? (cfg i).key = some ts' ∧
    (conf.opt.solverSendInitStep = true ∧ i = 0 → out = [] ∧ ts' = ts) ∧
    (¬(conf.opt.solverSendInitStep = true ∧ i = 0) →
      ∃ k, EagerStep conf (cfg i) (msg i) ts ts' out (W k) (W (k + 1))
        {i' | W k < time i' ∧ time i' ≤ time i}.ncard)

variable {lib : RestartLibrary} {a₀ a : StatisticsAction ctx} {u : PeriodUpdater}
  {start : DateTime}

/-- Counted from the beginning of the first window or from the first message, a window has the
same messages. -/
theorem countAfter_times (conf : Config) (s : ℤ) (i : ℕ) (hinterval : 0 < f * timeStep) {w : DateTime}
    (hw : times conf.opt epoch timeStep s f 0 ≤ w) :
    countAfter (times conf.opt epoch timeStep s f) w (i + offset conf.opt) =
      {i' | w < stepTime epoch timeStep s f i' ∧
        stepTime epoch timeStep s f i' ≤ stepTime epoch timeStep s f i}.ncard := by
  have hmono : StrictMono (times conf.opt epoch timeStep s f) := stepTime_strictMono epoch _ hinterval
  rw [countAfter_eq_ncard hmono]
  have himage : {j | w < times conf.opt epoch timeStep s f j ∧
      times conf.opt epoch timeStep s f j ≤ times conf.opt epoch timeStep s f (i + offset conf.opt)} =
      (fun i' => i' + offset conf.opt) '' {i' | w < stepTime epoch timeStep s f i' ∧
        stepTime epoch timeStep s f i' ≤ stepTime epoch timeStep s f i} := by
    ext j
    constructor
    · rintro ⟨hlower, hupper⟩
      have hpos : 0 < j := hmono.lt_iff_lt.mp (hw.trans_lt hlower)
      have hoff : offset conf.opt ≤ j := by
        unfold offset
        split_ifs <;> omega
      refine ⟨j - offset conf.opt, ?_, Nat.sub_add_cancel hoff⟩
      rw [Set.mem_ofPred_eq, ← stepTime_offset epoch timeStep s f (offset conf.opt) (j - _),
        ← stepTime_offset epoch timeStep s f (offset conf.opt) i, Nat.sub_add_cancel hoff]
      exact ⟨hlower, hupper⟩
    · rintro ⟨i', ⟨hlower, hupper⟩, rfl⟩
      unfold times
      simp only [Set.mem_ofPred_eq, stepTime_offset]
      exact ⟨hlower, hupper⟩
  rw [himage]
  exact Set.ncard_image_of_injective _ (add_left_injective _)

/-- What the action holds of the field before the `i`-th message. -/
def Held (conf : Config) (u : PeriodUpdater) (p : PrecisionTag) (sz : ℕ) (timeStep : ℤ)
    (start : DateTime) (time : ℕ → DateTime) (key : String) : ℕ → StatisticsAction ctx → Prop
  | 0, a => a.fieldStats.find? key = none
  | i + 1, a => ∃ ts, a.fieldStats.find? key = some ts ∧
      Ready u p sz timeStep start time (i + offset conf.opt) ts

section

variable (hA : Lawful ctx.arithmetic) (hcal : ctx.calendar.IsGregorian)
  (hu : makePeriodUpdater conf.outputFrequency = .ok u)
  (h : RegularRun ctx conf msg cfg key epoch timeStep s f p sz n)
  (hnonneg : ∀ i < n, 0 ≤ s + i * f) (hi : i < n)

include hA hcal hu h hnonneg hi

variable (lib) in
theorem findOrMake_ready (hforward : conf.opt.windowType = .forwardOffset)
    (hread : conf.opt.readRestart = false) (hops : Accepted conf)
    (hheld : Held conf u p sz timeStep (times conf.opt epoch timeStep s f 0)
      (times conf.opt epoch timeStep s f) key i a) :
    ∃ ts, a.findOrMake lib conf (cfg i) (msg i) = .ok ts ∧
      Ready u p sz timeStep (times conf.opt epoch timeStep s f 0)
        (times conf.opt epoch timeStep s f) (i + offset conf.opt - 1) ts := by
  cases i with
  | zero =>
    have hfirst : 0 + offset conf.opt - 1 = 0 := by
      unfold offset
      split_ifs <;> rfl
    rw [hfirst, StatisticsAction.findOrMake_none hread ((h.sameKey 0 hi).symm ▸ hheld)]
    obtain ⟨ts, hts, hwithin⟩ := make_within hA hcal hforward hu hops (h.size 0 hi)
      (h.precision 0 hi) (h.sameTimeStep 0 hi) (h.winStart_eq hnonneg hi) rfl
    exact ⟨ts, hts, 0, hwithin,
      windowPoint_strictMono hcal (makePeriodUpdater_pos hu) _ Nat.zero_lt_one⟩
  | succ i =>
    obtain ⟨ts, hts, hready⟩ := hheld
    refine ⟨ts, StatisticsAction.findOrMake_some ((h.sameKey _ hi).symm ▸ hts), ?_⟩
    rwa [add_right_comm, Nat.add_sub_cancel]

theorem process_ready {ts : TemporalStatistics ctx}
    (hend : ∀ k, boundary ctx conf.opt u epoch timeStep s f k < stepTime epoch timeStep s f (n - 1) →
      boundary ctx conf.opt u epoch timeStep s f (k + 1) ∈ Set.range (stepTime epoch timeStep s f))
    (hready : Ready u p sz timeStep (times conf.opt epoch timeStep s f 0)
      (times conf.opt epoch timeStep s f) (i + offset conf.opt - 1) ts) :
    ∃ ts' out, ts.process conf (cfg i) (msg i) = .ok (ts', out) ∧
      Ready u p sz timeStep (times conf.opt epoch timeStep s f 0)
        (times conf.opt epoch timeStep s f) (i + offset conf.opt) ts' ∧
      (conf.opt.solverSendInitStep = true ∧ i = 0 → out = [] ∧ ts' = ts) ∧
      (¬(conf.opt.solverSendInitStep = true ∧ i = 0) →
        ∃ k, EagerStep conf (cfg i) (msg i) ts ts' out
          (boundary ctx conf.opt u epoch timeStep s f k)
          (boundary ctx conf.opt u epoch timeStep s f (k + 1))
          {i' | boundary ctx conf.opt u epoch timeStep s f k <
              stepTime epoch timeStep s f i' ∧
            stepTime epoch timeStep s f i' ≤ stepTime epoch timeStep s f i}.ncard) := by
  obtain ⟨k, hwithin, hahead⟩ := hready
  have htimed := h.timed hnonneg hi
  by_cases hfirst : conf.opt.solverSendInitStep = true ∧ i = 0
  · -- the initial condition has the time that the window was made for
    obtain ⟨hinit, rfl⟩ := hfirst
    have hoffset : offset conf.opt = 0 := if_pos hinit
    rw [hoffset] at hwithin hahead htimed ⊢
    have hcurr : (cfg 0).curr = ts.window.currPoint := htimed.curr.trans hwithin.currPoint.symm
    refine ⟨ts, [], if_pos ⟨hcurr, hinit⟩, ⟨k, hwithin, hahead⟩, fun _ => ⟨rfl, rfl⟩, ?_⟩
    exact fun hnot => absurd ⟨hinit, rfl⟩ hnot
  · have hmono : StrictMono (times conf.opt epoch timeStep s f) :=
      stepTime_strictMono epoch _ h.interval
    have hW := windowPoint_strictMono hcal (makePeriodUpdater_pos hu)
      (times conf.opt epoch timeStep s f 0)
    obtain ⟨j, hj⟩ : ∃ j, i + offset conf.opt = j + 1 := by
      apply Nat.exists_eq_succ_of_ne_zero
      intro hzero
      obtain ⟨rfl, hoffset⟩ := Nat.add_eq_zero_iff.mp hzero
      unfold offset at hoffset
      split_ifs at hoffset with hinit
      exact hfirst ⟨hinit, rfl⟩
    -- the window of the message has begun, and so it ends with a message
    have hlast : boundary ctx conf.opt u epoch timeStep s f k <
        stepTime epoch timeStep s f (n - 1) := by
      rw [hj, Nat.add_sub_cancel] at hwithin
      apply (hwithin.begun.trans_lt (hmono (Nat.lt_succ_self j))).trans_le
      rw [Nat.succ_eq_add_one, ← hj, times, stepTime_offset]
      exact (stepTime_strictMono epoch s h.interval).monotone (by omega)
    have hrange : boundary ctx conf.opt u epoch timeStep s f (k + 1) ∈
        Set.range (times conf.opt epoch timeStep s f) := by
      obtain ⟨i', hi'⟩ := hend k hlast
      exact ⟨i' + offset conf.opt, (stepTime_offset epoch timeStep s f _ i').trans hi'⟩
    have hcount := countAfter_times conf s i h.interval
      (hW.monotone (Nat.zero_le k))
    rw [hj, Nat.add_sub_cancel] at hwithin hahead
    rw [hj] at htimed hcount ⊢
    obtain ⟨ts', out, k', hprocess, hstep, hwithin', hahead'⟩ :=
      hwithin.process hA hmono hW hahead hrange htimed (h.size i hi) (h.mappable i hi)
    refine ⟨ts', out, hprocess, ⟨k', hwithin', hahead'⟩, fun hyes => absurd hyes hfirst, ?_⟩
    exact fun _ => ⟨k, hcount ▸ hstep⟩

theorem message_ok (hforward : conf.opt.windowType = .forwardOffset)
    (hread : conf.opt.readRestart = false) (hops : Accepted conf)
    (hend : ∀ k, boundary ctx conf.opt u epoch timeStep s f k < stepTime epoch timeStep s f (n - 1) →
      boundary ctx conf.opt u epoch timeStep s f (k + 1) ∈ Set.range (stepTime epoch timeStep s f))
    {outs : List (List Message)}
    (hrun : StatisticsAction.run lib conf a₀ ((List.range i).map msg) = .ok (a, outs))
    (hheld : Held conf u p sz timeStep (times conf.opt epoch timeStep s f 0)
      (times conf.opt epoch timeStep s f) key i a) :
    Accumulates lib conf a₀ msg cfg (stepTime epoch timeStep s f)
        (boundary ctx conf.opt u epoch timeStep s f) i ∧
      ∃ a' outs', StatisticsAction.run lib conf a₀ ((List.range (i + 1)).map msg) = .ok (a', outs') ∧
        Held conf u p sz timeStep (times conf.opt epoch timeStep s f 0)
          (times conf.opt epoch timeStep s f) key (i + 1) a' := by
  obtain ⟨ts, hts, hready⟩ :=
    h.findOrMake_ready lib hA hcal hu hnonneg hi hforward hread hops hheld
  obtain ⟨ts', out, hprocess, hready', hinit, hstep⟩ := h.process_ready hA hcal hu hnonneg hi hend hready
  have hmsg := StatisticsAction.executeImpl_field (h.tag i hi) (h.readable i hi) hread hts hprocess
  refine ⟨⟨a, outs, _, out, ts, ts', hrun, hmsg, hts, ?_, hinit, hstep⟩, ?_⟩
  · rw [OrderedMap.find?_insert, if_pos rfl]
  · rw [List.range_succ, List.map_append]
    refine ⟨_, _, StatisticsAction.run_concat lib conf hrun hmsg, ts', ?_, hready'⟩
    rw [OrderedMap.find?_insert, if_pos (h.sameKey i hi).symm]

end

end RegularRun

def twoHourly : Config where
  opt := { solverSendInitStep := true }
  operations := ["instant"]
  outputFrequency := "2h"

def fieldEpoch : DateTime := dateTime (Calendar.gregorian.date 2020 1 1) 0

def fieldConfiguration (step : ℤ) : StatisticsConfiguration wordContext.arithmetic where
  date := 20200101
  time := 0
  step
  timeStep := 3600
  stepFreq := 1
  level := 0
  param := "130"
  levType := "sfc"
  gridType := "regular_ll"
  precision := "double"
  missingValue := none
  key := generateKey "130" 0 "sfc" "regular_ll" "double" (toString 0)
  epoch := fieldEpoch

def hourlyMessages (s : ℤ) (i : ℕ) : Message := fieldMessage (s + i)

def hourlyConfigurations (s : ℤ) (i : ℕ) : StatisticsConfiguration wordContext.arithmetic :=
  fieldConfiguration (s + i)

theorem hourlyMessages_regular (s : ℤ) (n : ℕ) :
    RegularRun wordContext twoHourly (hourlyMessages s) (hourlyConfigurations s)
      (fieldConfiguration s).key fieldEpoch 3600 s 1 .double 8 n where
  interval := by decide
  firstStep hinit := by cases hinit
  tag _ _ := rfl
  readable _ _ := rfl
  sameKey _ _ := rfl
  sameEpoch _ _ := rfl
  step i _ := by
    rw [mul_one]
    rfl
  stepFreq _ _ := rfl
  sameTimeStep _ _ := rfl
  precision _ _ := rfl
  size _ _ := rfl
  mappable _ _ hmapping := by cases hmapping

theorem windowPoint_twoHourly (calendar : Calendar) (n : ℤ) (k : ℕ) :
    windowPoint calendar { timeUnit := .hour, span := 2 } (3600 * n) k = 3600 * (n + 2 * k) := by
  have hnext (m : ℤ) : PeriodUpdater.updateWinEndTime calendar { timeUnit := .hour, span := 2 }
      (3600 * m) = 3600 * (m + 2) := by
    unfold PeriodUpdater.updateWinEndTime dateTime
    show 86400 * ((3600 * m + 3600 * 2 : ℤ) / 86400) +
      (3600 * m + 3600 * 2) % 86400 / 3600 * 3600 = 3600 * (m + 2)
    omega
  induction k with
  | zero => simp [windowPoint]
  | succ k ih =>
    cases k with
    | zero =>
      have hstart : PeriodUpdater.computeWinStartTime calendar { timeUnit := .hour, span := 2 }
          (3600 * n) = 3600 * n := by
        unfold PeriodUpdater.computeWinStartTime dateTime
        show 86400 * ((3600 * n : ℤ) / 86400) + (3600 * n) % 86400 / 3600 * 3600 = 3600 * n
        omega
      rw [windowPoint, PeriodUpdater.computeWinEndTime, hstart, hnext]
      rfl
    | succ k =>
      rw [windowPoint, ih, hnext]
      push_cast
      ring

theorem boundary_twoHourly (s : ℤ) (k : ℕ) :
    RegularRun.boundary wordContext twoHourly.opt { timeUnit := .hour, span := 2 } fieldEpoch 3600
      s 1 k = stepTime fieldEpoch 3600 s 1 (2 * k) := by
  have hepoch : fieldEpoch = 3600 * (24 * Calendar.gregorian.date 2020 1 1) := by
    unfold fieldEpoch dateTime
    ring
  have hstart : RegularRun.times twoHourly.opt fieldEpoch 3600 s 1 0 =
      3600 * (24 * Calendar.gregorian.date 2020 1 1 + s) := by
    unfold RegularRun.times stepTime
    rw [hepoch]
    simp only [offset, twoHourly]
    push_cast
    ring
  rw [RegularRun.boundary, hstart, windowPoint_twoHourly, stepTime, hepoch]
  push_cast
  ring

theorem twoHourly_accepted : Accepted twoHourly := by
  intro opname hop
  obtain rfl := List.mem_singleton.mp hop
  exact ⟨.instant, rfl, fun _ => rfl⟩

end Multio.Statistics
