import Multio.Action.StatisticsMtg2.ExactContext
import Multio.Action.StatisticsMtg2.FieldSteps

namespace Multio.StatisticsMtg2
open Lib Exception

variable {ctx : StatisticsContext}

/-- `epochDateTime(msg, cfg)`, which computes the epoch anew. -/
def epochDateTime (ctx : StatisticsContext) (cfg : StatisticsConfiguration ctx.arithmetic) :
    Except Exception DateTime :=
  computeEpoch ctx cfg.date cfg.time

theorem epochDateTime_eq {opt : StatisticsOptions} {md : BaseMetadata} {src : Peer}
    {cfg : StatisticsConfiguration ctx.arithmetic}
    (h : StatisticsConfiguration.make ctx opt md src = .ok cfg) :
    epochDateTime ctx cfg = .ok cfg.epoch ∧ cfg.curr = computeCurr cfg.epoch cfg.step cfg.timeStep := by
  simp only [StatisticsConfiguration.make, bind_eq_ok_iff] at h
  obtain ⟨date, -, time, -, level, -, timeStep, -, step, -, timespan, -, param, -, levType, -,
    gridType, -, precision, -, missingValue, -, epoch, hepoch, hcfg⟩ := h
  obtain rfl := Except.ok.inj hcfg
  exact ⟨hepoch, rfl⟩

/-- The epoch is the same both times. The time that windows are created at and the time that they
are tested with are equal exactly if the step is not before the epoch or takes no time. -/
theorem message_time_consistent_iff {opt : StatisticsOptions} {md : BaseMetadata} {src : Peer}
    {cfg : StatisticsConfiguration ctx.arithmetic}
    (h : StatisticsConfiguration.make ctx opt md src = .ok cfg) :
    epochDateTime ctx cfg = .ok cfg.epoch ∧
      (cfg.curr = currentDateTime cfg ↔ 0 ≤ cfg.step ∨ cfg.timeStep = 0) := by
  obtain ⟨hepoch, hcurr⟩ := epochDateTime_eq h
  refine ⟨hepoch, ?_⟩
  rw [hcurr]
  unfold computeCurr currentDateTime
  rw [add_right_inj, mul_eq_mul_right_iff, max_eq_left_iff]

/-- A step before the epoch: the one time is the epoch, the other one an hour before it. -/
theorem negative_step_times : ∃ cfg,
    StatisticsConfiguration.make exactContext.toStatisticsContext {}
      (hourlyField (-1) [] [1]).metadata {} = .ok cfg ∧ cfg.curr ≠ currentDateTime cfg :=
  ⟨_, rfl, by decide +kernel⟩

theorem message_time_consistent_iff_noon : ∃ cfg,
    StatisticsConfiguration.make exactContext.toStatisticsContext {}
      (hourlyField 12 [] [1]).metadata {} = .ok cfg ∧ cfg.curr = currentDateTime cfg := by
  have h : StatisticsConfiguration.make exactContext.toStatisticsContext {}
    (hourlyField 12 [] [1]).metadata {} = .ok _ := rfl
  exact ⟨_, h, (message_time_consistent_iff h).2.mpr (by decide +kernel)⟩

namespace OperationWindow

variable (ctx) (u : PeriodUpdater) (w : OperationWindow) (t : DateTime)

/-- The window that a message is for: this one, or the one that follows. -/
def windowFor : OperationWindow :=
  if w.isWithin t then w
  else w.updateWindow w.endPoint (u.updateWinEndTime ctx.calendar w.endPoint)

def advance : Except Exception OperationWindow := (w.windowFor ctx u t).updateData ctx t

/-- Messages in the window or in the one that follows, each of them after those before it. -/
def Follows (u : PeriodUpdater) : OperationWindow → List DateTime → Prop
  | _, [] => True
  | w, t :: ts => (w.windowFor ctx u t).isWithin t = true ∧
      ∀ w', w.advance ctx u t = .ok w' → Follows u w' ts

def OffBoundary (u : PeriodUpdater) : OperationWindow → List DateTime → Prop
  | _, [] => True
  | w, t :: ts => t ≠ (w.windowFor ctx u t).creationPoint ∧
      ∀ w', w.advance ctx u t = .ok w' → OffBoundary u w' ts

variable {ctx u w t}

theorem isWithin_forward (h : w.windowType = .forwardOffset) :
    w.isWithin t = true ↔ w.creationPoint < t ∧ t ≤ w.endPoint := by
  unfold isWithin gtLowerBound leUpperBound
  rw [h, Bool.and_eq_true, decide_eq_true_eq, decide_eq_true_eq]

theorem isWithin_backward (h : w.windowType = .backwardOffset) :
    w.isWithin t = true ↔ w.creationPoint ≤ t ∧ t < w.endPoint := by
  unfold isWithin geLowerBound ltUpperBound
  rw [h, Bool.and_eq_true, decide_eq_true_eq, decide_eq_true_eq]

theorem exists_updateData_iff :
    (∃ w', w.updateData ctx t = .ok w') ↔ w.creationPoint < t ∧ t ≤ w.endPoint := by
  constructor
  · rintro ⟨w', h⟩
    obtain ⟨hlower, hupper, -⟩ := updateData_eq_ok_iff.mp h
    exact ⟨hlower, hupper⟩
  · rintro ⟨hlower, hupper⟩
    exact ⟨_, updateData_ok ctx hlower hupper⟩

theorem ends_agree_iff {c e t : ℤ} : (c ≤ t ∧ t < e ↔ c < t ∧ t ≤ e) ↔ e ≤ c ∨ t ≠ c ∧ t ≠ e := by
  omega

/-- The two tests agree but for the two ends of a window with backward offset. -/
theorem isWithin_iff_updateData_iff :
    (w.isWithin t = true ↔ ∃ w', w.updateData ctx t = .ok w') ↔
      w.windowType = .forwardOffset ∨ w.endPoint ≤ w.creationPoint ∨
        t ≠ w.creationPoint ∧ t ≠ w.endPoint := by
  rw [exists_updateData_iff]
  cases h : w.windowType with
  | forwardOffset =>
    rw [isWithin_forward h]
    exact iff_of_true Iff.rfl (Or.inl rfl)
  | backwardOffset =>
    rw [isWithin_backward h, ends_agree_iff]
    exact (or_iff_right WindowType.noConfusion).symm

theorem windowType_windowFor : (w.windowFor ctx u t).windowType = w.windowType := by
  unfold windowFor
  split_ifs <;> rfl

theorem windowType_advance {w' : OperationWindow} (h : w.advance ctx u t = .ok w') :
    w'.windowType = w.windowType := by
  obtain ⟨-, -, rfl⟩ := updateData_eq_ok_iff.mp h
  exact windowType_windowFor

/-- A message that lies in the window it is for is refused exactly where that begins. -/
theorem exists_advance_iff (hwithin : (w.windowFor ctx u t).isWithin t = true) :
    (∃ w', w.advance ctx u t = .ok w') ↔
      w.windowType = .forwardOffset ∨ t ≠ (w.windowFor ctx u t).creationPoint := by
  unfold advance
  rw [exists_updateData_iff]
  rw [← show (w.windowFor ctx u t).windowType = w.windowType from windowType_windowFor]
  generalize w.windowFor ctx u t = v at *
  cases h : v.windowType with
  | forwardOffset =>
    rw [isWithin_forward h] at hwithin
    exact iff_of_true hwithin (Or.inl rfl)
  | backwardOffset =>
    rw [isWithin_backward h] at hwithin
    rw [or_iff_right WindowType.noConfusion, and_iff_left hwithin.2.le, hwithin.1.lt_iff_ne, ne_comm]

theorem exists_advances_iff (ts : List DateTime) (hfollows : Follows ctx u w ts) :
    (∃ w', ts.foldlM (fun w t => w.advance ctx u t) w = .ok w') ↔
      w.windowType = .forwardOffset ∨ OffBoundary ctx u w ts := by
  induction ts generalizing w with
  | nil => exact iff_of_true ⟨w, rfl⟩ (Or.inr trivial)
  | cons t ts ih =>
    obtain ⟨hwithin, hrest⟩ := hfollows
    simp only [List.foldlM_cons, bind_eq_ok_iff]
    constructor
    · rintro ⟨w', w₁, hadvance, hrun⟩
      have hlater := (ih (hrest w₁ hadvance)).mp ⟨w', hrun⟩
      have hfirst := (exists_advance_iff hwithin).mp ⟨w₁, hadvance⟩
      rw [windowType_advance hadvance] at hlater
      by_cases hforward : w.windowType = .forwardOffset
      · exact Or.inl hforward
      · refine Or.inr ⟨hfirst.resolve_left hforward, fun w₂ hadvance₂ => ?_⟩
        obtain rfl := Except.ok.inj (hadvance.symm.trans hadvance₂)
        exact hlater.resolve_left hforward
    · intro h
      obtain ⟨w₁, hadvance⟩ := (exists_advance_iff hwithin).mpr (h.imp_right And.left)
      rw [← windowType_advance hadvance] at h
      obtain ⟨w', hrun⟩ := (ih (hrest w₁ hadvance)).mpr (h.imp_right fun h => h.2 w₁ hadvance)
      exact ⟨w', w₁, hadvance, hrun⟩

end OperationWindow

namespace TemporalStatistics

variable {conf : Config} {cfg : StatisticsConfiguration ctx.arithmetic}
  {ts ts₁ : TemporalStatistics ctx} {msg : Message} {out : List Message}

theorem Processed.advance (h : Processed conf cfg msg ts ts₁ out)
    (hlater : ts.window.currPoint < cfg.curr) :
    ∃ counts, ts.window.advance ctx ts.periodUpdater (currentDateTime cfg) =
      .ok { ts₁.window with counts } := by
  cases h with
  | ignored _ hcurr => exact absurd hcurr hlater.ne'
  | inside _ hwithin hdata =>
    have hwindow : ts.window.windowFor ctx ts.periodUpdater (currentDateTime cfg) = ts.window :=
      if_pos (isOutsideWindow_eq_false_iff.mp hwithin)
    refine ⟨ts.window.counts, ?_⟩
    rw [OperationWindow.advance, hwindow]
    exact (updateData_window hdata).2
  | outside _ houtside hemit hwindow hdata =>
    obtain ⟨hsame, hupdater⟩ := emitStatistics_window hemit
    obtain ⟨ops, -, rfl⟩ := updateWindow_returns hwindow
    have hnext : ts.window.windowFor ctx ts.periodUpdater (currentDateTime cfg) = ts.nextWindow :=
      if_neg (isOutsideWindow_eq_true_iff.mp houtside)
    refine ⟨[], ?_⟩
    rw [OperationWindow.advance, hnext, nextWindow, ← hsame, ← hupdater]
    exact (updateData_window hdata).2

/-- The window of a field goes on as windows do, whatever the operations do with their counters. -/
theorem process_advances (h : (ts.process conf cfg msg).Returns (ts₁, out)) :
    ts₁ = ts ∨ ∃ counts, ts.window.advance ctx ts.periodUpdater (currentDateTime cfg) =
      .ok { ts₁.window with counts } := by
  by_cases hlater : ts.window.currPoint < cfg.curr
  · exact Or.inr ((process_returns h).advance hlater)
  · cases process_returns h with
    | ignored => exact Or.inl rfl
    | inside hinside => exact absurd hinside hlater
    | outside houtside => exact absurd houtside hlater

end TemporalStatistics

/-- The test of a window and its update agree but for the two ends of windows with backward offset.
A run of messages in the window or the next one is accepted exactly if these have forward offset or
no message lies where its window begins. -/
theorem window_tests_agree_iff (ctx : StatisticsContext) :
    (∀ (w : OperationWindow) (t : DateTime),
      (w.isWithin t = true ↔ ∃ w', w.updateData ctx t = .ok w') ↔
        w.windowType = .forwardOffset ∨ w.endPoint ≤ w.creationPoint ∨
          t ≠ w.creationPoint ∧ t ≠ w.endPoint) ∧
    ∀ (u : PeriodUpdater) (w : OperationWindow) (ts : List DateTime), w.Follows ctx u ts →
      ((∃ w', ts.foldlM (fun w t => w.advance ctx u t) w = .ok w') ↔
        w.windowType = .forwardOffset ∨ w.OffBoundary ctx u ts) :=
  ⟨fun _ _ => OperationWindow.isWithin_iff_updateData_iff,
    fun _ _ ts hfollows => OperationWindow.exists_advances_iff ts hfollows⟩

/-- Days with backward offset, and what they make of a message at midnight. -/
def backwardDaily : Config where
  opt := { initialConditionPresent := true, windowType := .backwardOffset,
           disableStrictMapping := true }
  operations := ["average"]
  outputFrequency := "1d"

/-- A window with backward offset contains the time at which it begins, and a message of this time
is refused; so is the first message of a day in a run. -/
theorem boundary_message_refused :
    ¬ (∀ (w : OperationWindow) (t : DateTime),
      w.isWithin t = true ↔ ∃ w', w.updateData exactContext.toStatisticsContext t = .ok w') ∧
    (StatisticsAction.run backwardDaily ({} : StatisticsAction _ noFiles)
      [hourlyField 0 [] [1], hourlyField 1 [] [1], hourlyField 24 [] [3]]).exception.isSome = true := by
  refine ⟨fun h => ?_, by decide +kernel⟩
  have hbegin := (h (OperationWindow.make 0 0 0 86400 3600 .backwardOffset) 0).mp (by decide)
  rw [OperationWindow.exists_updateData_iff] at hbegin
  exact absurd hbegin.1 (by decide)

/-- Three messages of two days, none of them at midnight. -/
theorem window_tests_agree_iff_three :
    ∃ w', [3600, 7200, 90000].foldlM (fun w t => w.advance exactContext.toStatisticsContext
      { timeUnit := .day, span := 1 } t) (OperationWindow.make 0 0 0 86400 3600 .backwardOffset) =
        .ok w' := by
  refine ((window_tests_agree_iff _).2 _ _ _ ?_).mpr (Or.inr ?_)
  · refine ⟨by decide, fun w h => ?_⟩
    obtain rfl := Except.ok.inj h
    refine ⟨by decide, fun w h => ?_⟩
    obtain rfl := Except.ok.inj h
    exact ⟨by decide, fun _ _ => trivial⟩
  · refine ⟨by decide, fun w h => ?_⟩
    obtain rfl := Except.ok.inj h
    refine ⟨by decide, fun w h => ?_⟩
    obtain rfl := Except.ok.inj h
    exact ⟨by decide, fun _ _ => trivial⟩

end Multio.StatisticsMtg2
