import Multio.Action.StatisticsMtg2.SharedWindow

namespace Multio.StatisticsMtg2
open Lib Exception

variable {ctx : StatisticsContext} {conf : Config} {cfg : StatisticsConfiguration ctx.arithmetic}
  {ts ts₁ : TemporalStatistics ctx} {msg : Message} {out : List Message}

namespace TemporalStatistics

def nextWindow (ts : TemporalStatistics ctx) : OperationWindow :=
  ts.window.updateWindow ts.window.endPoint
    (ts.periodUpdater.updateWinEndTime ctx.calendar ts.window.endPoint)

theorem updateData_returns (h : (ts.updateData conf cfg msg).Returns ts₁) :
    ∃ w w₁ ops, ts.window.updateData ctx (currentDateTime cfg) = .ok w ∧
      (forOperations (updateOperation conf.opt cfg msg) w ts.statistics).Returns (w₁, ops) ∧
      ts₁ = { ts with window := w₁, statistics := ops } := by
  obtain ⟨w, hw, h⟩ := Outcome.needing_returns_iff.mp h
  obtain ⟨⟨w₁, ops⟩, hloop, rfl⟩ := Outcome.map_returns_iff.mp h
  exact ⟨w, w₁, ops, hw, hloop, rfl⟩

theorem updateWindow_returns (h : (ts.updateWindow cfg msg).Returns ts₁) :
    ∃ ops, (forOperations (resetOperation cfg msg.size) ts.nextWindow ts.statistics).Returns
        (ts.nextWindow, ops) ∧ ts₁ = { ts with window := ts.nextWindow, statistics := ops } := by
  unfold updateWindow at h
  obtain ⟨⟨w₁, ops⟩, hloop, rfl⟩ := Outcome.map_returns_iff.mp h
  obtain ⟨rfl, -⟩ := forOperations_frame (R := Eq) (fun _ => rfl) (fun _ _ _ => Eq.trans)
    (fun _ _ _ _ _ => resetOperation_frame) hloop
  exact ⟨ops, hloop, rfl⟩

theorem emitStatistics_returns {src dst : Peer}
    (h : (ts.emitStatistics conf src dst).Returns (ts₁, out)) :
    ts.window.count = 0 ∧ ts₁ = ts ∧ out = [] ∨
    ts.window.count ≠ 0 ∧ ∃ ops, (ts.emitOperations conf src dst ts.statistics).Returns (ops, out) ∧
      ts₁ = { ts with statistics := ops } := by
  unfold emitStatistics at h
  split_ifs at h with hcount
  · obtain ⟨rfl, rfl⟩ := Prod.mk.inj (Outcome.returns_mk.mp h)
    exact Or.inl ⟨hcount, rfl, rfl⟩
  · obtain ⟨⟨ops, out₁⟩, hloop, heq⟩ := Outcome.map_returns_iff.mp h
    obtain ⟨rfl, rfl⟩ := Prod.mk.inj heq
    exact Or.inr ⟨hcount, ops, hloop, rfl⟩

inductive Processed (conf : Config) (cfg : StatisticsConfiguration ctx.arithmetic) (msg : Message)
    (ts : TemporalStatistics ctx) : TemporalStatistics ctx → List Message → Prop
  | ignored (hinitial : conf.opt.initialConditionPresent = true)
      (hcurr : cfg.curr = ts.window.currPoint) : Processed conf cfg msg ts ts []
  | inside {ts₁ : TemporalStatistics ctx} (hlater : ts.window.currPoint < cfg.curr)
      (hwithin : ts.isOutsideWindow cfg = false)
      (hdata : (ts.updateData conf cfg msg).Returns ts₁) : Processed conf cfg msg ts ts₁ []
  | outside {ts₁ ts₂ ts₃ : TemporalStatistics ctx} {out : List Message}
      (hlater : ts.window.currPoint < cfg.curr) (houtside : ts.isOutsideWindow cfg = true)
      (hemit : (ts.emitStatistics conf msg.source msg.destination).Returns (ts₁, out))
      (hwindow : (ts₁.updateWindow cfg msg).Returns ts₂)
      (hdata : (ts₂.updateData conf cfg msg).Returns ts₃) : Processed conf cfg msg ts ts₃ out

theorem process_returns (h : (ts.process conf cfg msg).Returns (ts₁, out)) :
    Processed conf cfg msg ts ts₁ out := by
  unfold process at h
  split_ifs at h with hinitial hlate houtside
  · obtain ⟨rfl, rfl⟩ := Prod.mk.inj (Outcome.returns_mk.mp h)
    exact .ignored hinitial.2 hinitial.1
  · exact absurd h Outcome.not_returns_mk_some
  · obtain ⟨⟨ts₂, out₂⟩, hclose, h⟩ := Outcome.andThen_returns_iff.mp h
    obtain ⟨ts₃, hdata, heq⟩ := Outcome.map_returns_iff.mp h
    obtain ⟨rfl, rfl⟩ := Prod.mk.inj heq
    obtain ⟨⟨ts₄, out₄⟩, hemit, hclose⟩ := Outcome.andThen_returns_iff.mp hclose
    obtain ⟨ts₅, hwindow, heq⟩ := Outcome.map_returns_iff.mp hclose
    obtain ⟨rfl, rfl⟩ := Prod.mk.inj heq
    exact .outside (not_le.mp hlate) houtside hemit hwindow hdata
  · obtain ⟨⟨ts₂, out₂⟩, hnone, h⟩ := Outcome.andThen_returns_iff.mp h
    obtain ⟨ts₃, hdata, heq⟩ := Outcome.map_returns_iff.mp h
    obtain ⟨rfl, rfl⟩ := Prod.mk.inj heq
    obtain ⟨rfl, rfl⟩ := Prod.mk.inj (Outcome.returns_mk.mp hnone)
    exact .inside (not_le.mp hlate) (Bool.eq_false_of_not_eq_true houtside) hdata

theorem isOutsideWindow_eq_false_iff :
    ts.isOutsideWindow cfg = false ↔ ts.window.isWithin (currentDateTime cfg) = true := by
  unfold isOutsideWindow
  rw [Bool.not_eq_false']

theorem isOutsideWindow_eq_true_iff :
    ts.isOutsideWindow cfg = true ↔ ¬ ts.window.isWithin (currentDateTime cfg) = true := by
  rw [← isOutsideWindow_eq_false_iff, Bool.not_eq_false]

theorem emitStatistics_window {src dst : Peer}
    (h : (ts.emitStatistics conf src dst).Returns (ts₁, out)) :
    ts₁.window = ts.window ∧ ts₁.periodUpdater = ts.periodUpdater := by
  obtain ⟨-, rfl, -⟩ | ⟨-, ops, -, rfl⟩ := emitStatistics_returns h
  · exact ⟨rfl, rfl⟩
  · exact ⟨rfl, rfl⟩

/-- The window after the update is that of the message but for the counters. -/
theorem updateData_window (h : (ts.updateData conf cfg msg).Returns ts₁) :
    ts₁.periodUpdater = ts.periodUpdater ∧
      ts.window.updateData ctx (currentDateTime cfg) =
        .ok { ts₁.window with counts := ts.window.counts } := by
  obtain ⟨w, w₁, ops, hw, hloop, rfl⟩ := updateData_returns h
  obtain ⟨⟨hwindow, -⟩, -⟩ := forOperations_frame (CountersOnly.refl True)
    (fun _ _ _ => CountersOnly.trans) (fun _ _ _ _ _ => updateOperation_frame fun _ _ => trivial)
    hloop
  obtain ⟨-, -, heq⟩ := OperationWindow.updateData_eq_ok_iff.mp hw
  refine ⟨rfl, ?_⟩
  rw [hw, hwindow, heq]

end TemporalStatistics

namespace StatisticsAction

variable {io : RestartIO ctx} {a : StatisticsAction ctx io}

inductive Executed (conf : Config) (a : StatisticsAction ctx io) (msg : Message) :
    Outcome (StatisticsAction ctx io × List Message) → Prop
  | unread (e : Exception)
      (hcfg : StatisticsConfiguration.make ctx conf.opt msg.metadata msg.source = .error e) :
      Executed conf a msg { state := (a, []), exception := some e }
  | noFolder (cfg : StatisticsConfiguration ctx.arithmetic) (e : Exception)
      (hcfg : StatisticsConfiguration.make ctx conf.opt msg.metadata msg.source = .ok cfg)
      (hfolder : conf.opt.readRestart = true ∧ (a.disk.folder conf.restartTime).isNone = true) :
      Executed conf a msg { state := (a.updateLatestDateTime cfg, []), exception := some e }
  | notMade (cfg : StatisticsConfiguration ctx.arithmetic) (e : Exception)
      (hcfg : StatisticsConfiguration.make ctx conf.opt msg.metadata msg.source = .ok cfg)
      (hmake : a.findOrMake conf cfg msg = .error e) :
      Executed conf a msg { state := (a.updateLatestDateTime cfg, []), exception := some e }
  | processed (cfg : StatisticsConfiguration ctx.arithmetic) (ts : TemporalStatistics ctx)
      (hcfg : StatisticsConfiguration.make ctx conf.opt msg.metadata msg.source = .ok cfg)
      (hfolder : ¬ (conf.opt.readRestart = true ∧ (a.disk.folder conf.restartTime).isNone = true))
      (hfound : a.findOrMake conf cfg msg = .ok ts) :
      Executed conf a msg ((ts.process conf cfg msg).map fun (ts, out) =>
        ({ a.updateLatestDateTime cfg with fieldStats := a.fieldStats.insert cfg.key ts }, out))

theorem executeField_executed (conf : Config) (a : StatisticsAction ctx io) (msg : Message) :
    Executed conf a msg (a.executeField conf msg) := by
  unfold executeField
  cases hcfg : StatisticsConfiguration.make ctx conf.opt msg.metadata msg.source with
  | error e => exact .unread e hcfg
  | ok cfg =>
    change Executed conf a msg
      (if conf.opt.readRestart = true ∧ (a.disk.folder conf.restartTime).isNone = true then _
        else .needing _ (a.findOrMake conf cfg msg) _)
    by_cases hfolder : conf.opt.readRestart = true ∧ (a.disk.folder conf.restartTime).isNone = true
    · rw [if_pos hfolder]
      exact .noFolder cfg _ hcfg hfolder
    · rw [if_neg hfolder]
      cases hfound : a.findOrMake conf cfg msg with
      | error e => exact .notMade cfg e hcfg hfound
      | ok ts => exact .processed cfg ts hcfg hfolder hfound

theorem executeImpl_of_field (htag : msg.tag = .field) :
    a.executeImpl conf msg = a.executeField conf msg := by
  unfold executeImpl
  rw [htag]

end StatisticsAction
end Multio.StatisticsMtg2
