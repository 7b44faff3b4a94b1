import Multio.Action.StatisticsMtg2.FieldSteps

namespace Multio.StatisticsMtg2
open Lib Exception

variable {ctx : StatisticsContext}

/-- Whether the solver has reset the field where a window begins. -/
def solverResets (ctx : StatisticsContext) (cfg : StatisticsConfiguration ctx.arithmetic)
    (w : OperationWindow) : Bool :=
  (Operation.solverResetAccumulatedField ctx cfg w).toOption = some true

structure History where
  /-- The message that the statistics were made for. -/
  initial : Message
  /-- The windows that were emitted, by their messages, and what was emitted for each. -/
  emitted : List (List Message × List Message) := []
  /-- The messages of the window. -/
  inputs : List Message := []
  /-- Whether a window has begun with values that the solver had reset. -/
  reset : Bool

namespace History

variable (h : History)

def emission (out : List Message) : History := { h with emitted := h.emitted ++ [(h.inputs, out)] }

/-- A message is ignored, or goes into the next window, before which this one was emitted, or goes
into this one. -/
def message (ctx : StatisticsContext) (ts : TemporalStatistics ctx)
    (cfg : StatisticsConfiguration ctx.arithmetic) (msg : Message) (out : List Message) : History :=
  if cfg.curr = ts.window.currPoint then h
  else if ts.isOutsideWindow cfg then
    { h with emitted := h.emitted ++ [(h.inputs, out)], inputs := [msg],
             reset := h.reset || solverResets ctx cfg ts.nextWindow }
  else { h with inputs := h.inputs ++ [msg] }

end History

def Read (conf : Config) (msg : Message) (cfg : StatisticsConfiguration ctx.arithmetic) : Prop :=
  StatisticsConfiguration.make ctx conf.opt msg.metadata msg.source = .ok cfg

structure ReadAs (conf : Config) (missing : Option (ctx.arithmetic.Real .double)) (msg : Message)
    (cfg : StatisticsConfiguration ctx.arithmetic) : Prop where
  make : Read conf msg cfg
  missing : cfg.missingValue = missing

/-- The statistics of a field with their history: made for a first message, advanced by the others,
and emitted by last steps. -/
inductive RecordedBy (conf : Config)
    (reads : Message → StatisticsConfiguration ctx.arithmetic → Prop) :
    TemporalStatistics ctx → History → Prop
  | made {ts : TemporalStatistics ctx} {msg : Message}
      {cfg : StatisticsConfiguration ctx.arithmetic}
      (hcfg : reads msg cfg) (hmake : TemporalStatistics.make conf cfg msg = .ok ts) :
      RecordedBy conf reads ts
        { initial := msg,
          reset := conf.opt.initialConditionPresent && solverResets ctx cfg ts.window }
  | message {ts ts₁ : TemporalStatistics ctx} {h : History} {msg : Message}
      {cfg : StatisticsConfiguration ctx.arithmetic} {out : List Message}
      (hts : RecordedBy conf reads ts h) (hcfg : reads msg cfg)
      (hprocess : (ts.process conf cfg msg).Returns (ts₁, out)) :
      RecordedBy conf reads ts₁ (h.message ctx ts cfg msg out)
  | lastStep {ts ts₁ : TemporalStatistics ctx} {h : History} {src dst : Peer} {out : List Message}
      (hts : RecordedBy conf reads ts h)
      (hemit : (ts.emitStatistics conf src dst).Returns (ts₁, out)) :
      RecordedBy conf reads ts₁ (h.emission out)

/-- All messages of the field have this missing value. -/
abbrev Recorded (conf : Config) (missing : Option (ctx.arithmetic.Real .double)) :
    TemporalStatistics ctx → History → Prop :=
  RecordedBy conf (ReadAs conf missing)

structure Kept (conf : Config) (reads : Message → StatisticsConfiguration ctx.arithmetic → Prop)
    (I : TemporalStatistics ctx → History → Prop) : Prop where
  made : ∀ {msg cfg ts}, reads msg cfg → TemporalStatistics.make conf cfg msg = .ok ts →
    I ts { initial := msg,
           reset := conf.opt.initialConditionPresent && solverResets ctx cfg ts.window }
  update : ∀ {ts ts₁ h msg cfg}, I ts h → reads msg cfg →
    (ts.updateData conf cfg msg).Returns ts₁ → I ts₁ { h with inputs := h.inputs ++ [msg] }
  emit : ∀ {ts ts₁ h src dst out}, I ts h → (ts.emitStatistics conf src dst).Returns (ts₁, out) →
    I ts₁ (h.emission out)
  next : ∀ {ts ts₁ h msg cfg}, I ts h → reads msg cfg →
    (ts.updateWindow cfg msg).Returns ts₁ →
    I ts₁ { h with inputs := [], reset := h.reset || solverResets ctx cfg ts.nextWindow }

variable {conf : Config} {missing : Option (ctx.arithmetic.Real .double)}
  {reads : Message → StatisticsConfiguration ctx.arithmetic → Prop}
  {ts ts₁ : TemporalStatistics ctx} {h : History}

theorem RecordedBy.invariant {I : TemporalStatistics ctx → History → Prop}
    (hts : RecordedBy conf reads ts h) (hkept : Kept conf reads I) : I ts h := by
  induction hts with
  | made hcfg hmake => exact hkept.made hcfg hmake
  | lastStep _ hemit ih => exact hkept.emit ih hemit
  | @message ts ts₁ h msg cfg out _ hcfg hprocess ih =>
    unfold History.message
    cases TemporalStatistics.process_returns hprocess with
    | ignored _ hcurr =>
      rw [if_pos hcurr]
      exact ih
    | inside hlater hwithin hdata =>
      rw [if_neg hlater.ne', if_neg (Bool.eq_false_iff.mp hwithin)]
      exact hkept.update ih hcfg hdata
    | @outside ts₁ ts₂ _ _ hlater houtside hemit hwindow hdata =>
      rw [if_neg hlater.ne', if_pos houtside]
      obtain ⟨hsame, hupdater⟩ := TemporalStatistics.emitStatistics_window hemit
      have hnext : ts₁.nextWindow = ts.nextWindow := by
        unfold TemporalStatistics.nextWindow
        rw [hsame, hupdater]
      rw [← hnext]
      exact hkept.update (hkept.next (hkept.emit ih hemit) hcfg hwindow) hcfg hdata

theorem Recorded.read (hts : Recorded conf missing ts h) : RecordedBy conf (Read conf) ts h := by
  induction hts with
  | made hcfg hmake => exact .made hcfg.make hmake
  | message _ hcfg hprocess ih => exact ih.message hcfg.make hprocess
  | lastStep _ hemit ih => exact ih.lastStep hemit

theorem StatisticsConfiguration.readMissingValue_make {opt : StatisticsOptions} {md : BaseMetadata}
    {src : Peer} {cfg : StatisticsConfiguration ctx.arithmetic}
    (h : StatisticsConfiguration.make ctx opt md src = .ok cfg) :
    readMissingValue ctx md = .ok cfg.missingValue := by
  simp only [StatisticsConfiguration.make, bind_eq_ok_iff] at h
  obtain ⟨date, -, time, -, level, -, timeStep, -, step, -, timespan, -, param, -, levType, -,
    gridType, -, precision, -, missingValue, hmissing, epoch, -, hcfg⟩ := h
  obtain rfl := Except.ok.inj hcfg
  exact hmissing

def Outcome.result {σ : Type} (x : Outcome σ) : Option σ :=
  if x.exception.isNone then some x.state else none

theorem Outcome.returns_of_result {σ : Type} {x : Outcome σ} {s : σ}
    (h : Outcome.result x = some s) :
    x.Returns s := by
  unfold Outcome.result at h
  split_ifs at h with hnone
  exact Outcome.returns_iff.mpr ⟨Option.isNone_iff_eq_none.mp hnone, Option.some.inj h⟩

theorem eq_ok_of_toOption {α : Type} {x : Except Exception α} {a : α} (h : x.toOption = some a) :
    x = .ok a := by
  cases x with
  | ok b => exact congrArg _ (Option.some.inj h)
  | error e => cases h

def recordMessages (ctx : StatisticsContext) (conf : Config) :
    TemporalStatistics ctx × History → List Message → Option (TemporalStatistics ctx × History)
  | s, [] => some s
  | s, msg :: msgs => do
    let cfg ← (StatisticsConfiguration.make ctx conf.opt msg.metadata msg.source).toOption
    let (ts, out) ← Outcome.result (s.1.process conf cfg msg)
    recordMessages ctx conf (ts, s.2.message ctx s.1 cfg msg out) msgs

/-- The history of a field with the first message, the others and a last step. -/
def record (ctx : StatisticsContext) (conf : Config) (first : Message) (msgs : List Message) :
    Option (TemporalStatistics ctx × History) := do
  let cfg ← (StatisticsConfiguration.make ctx conf.opt first.metadata first.source).toOption
  let ts ← (TemporalStatistics.make conf cfg first).toOption
  let reset := conf.opt.initialConditionPresent && solverResets ctx cfg ts.window
  let (ts, h) ← recordMessages ctx conf (ts, { initial := first, reset }) msgs
  let (ts, out) ← Outcome.result (ts.emitStatistics conf {} {})
  some (ts, h.emission out)

theorem readAs_of_make {msg : Message} {cfg : StatisticsConfiguration ctx.arithmetic}
    (hmissing : readMissingValue ctx msg.metadata = .ok missing)
    (hcfg :
      (StatisticsConfiguration.make ctx conf.opt msg.metadata msg.source).toOption = some cfg) :
    ReadAs conf missing msg cfg := by
  have hmake := eq_ok_of_toOption hcfg
  have hread := StatisticsConfiguration.readMissingValue_make hmake
  exact ⟨hmake, Except.ok.inj (hread.symm.trans hmissing)⟩

theorem Recorded.recordMessages {msgs : List Message} (hts : Recorded conf missing ts h)
    (hmissing : ∀ msg ∈ msgs, readMissingValue ctx msg.metadata = .ok missing)
    {s : TemporalStatistics ctx × History}
    (hrun : StatisticsMtg2.recordMessages ctx conf (ts, h) msgs = some s) :
    Recorded conf missing s.1 s.2 := by
  induction msgs generalizing ts h with
  | nil =>
    obtain rfl := Option.some.inj hrun
    exact hts
  | cons msg msgs ih =>
    rw [List.forall_mem_cons] at hmissing
    simp only [StatisticsMtg2.recordMessages, Option.bind_eq_bind, Option.bind_eq_some_iff] at hrun
    obtain ⟨cfg, hcfg, ⟨ts₁, out⟩, hprocess, hrest⟩ := hrun
    exact ih (hts.message (readAs_of_make hmissing.1 hcfg) (Outcome.returns_of_result hprocess))
      hmissing.2 hrest

theorem History.initial_message (ts : TemporalStatistics ctx) (h : History)
    (cfg : StatisticsConfiguration ctx.arithmetic) (msg : Message) (out : List Message) :
    (h.message ctx ts cfg msg out).initial = h.initial := by
  unfold History.message
  split_ifs <;> rfl

theorem initial_of_recordMessages {msgs : List Message} {s s₁ : TemporalStatistics ctx × History}
    (hrun : recordMessages ctx conf s msgs = some s₁) : s₁.2.initial = s.2.initial := by
  induction msgs generalizing s with
  | nil =>
    obtain rfl := Option.some.inj hrun
    rfl
  | cons msg msgs ih =>
    simp only [recordMessages, Option.bind_eq_bind, Option.bind_eq_some_iff] at hrun
    obtain ⟨cfg, -, ⟨ts₁, out⟩, -, hrest⟩ := hrun
    exact (ih hrest).trans (History.initial_message _ _ _ _ _)

theorem recorded_of_record {first : Message} {msgs : List Message}
    (hmissing : ∀ msg ∈ first :: msgs, readMissingValue ctx msg.metadata = .ok missing)
    (hrun : record ctx conf first msgs = some (ts, h)) :
    Recorded conf missing ts h ∧ h.initial = first := by
  rw [List.forall_mem_cons] at hmissing
  simp only [record, Option.bind_eq_bind, Option.bind_eq_some_iff] at hrun
  obtain ⟨cfg, hcfg, ts₀, hmake, ⟨ts₁, h₁⟩, hmsgs, ⟨ts₂, out⟩, hemit, heq⟩ := hrun
  obtain ⟨rfl, rfl⟩ := Prod.mk.inj (Option.some.inj heq)
  have hmade : Recorded conf missing ts₀ _ :=
    .made (readAs_of_make hmissing.1 hcfg) (eq_ok_of_toOption hmake)
  exact ⟨(hmade.recordMessages hmissing.2 hmsgs).lastStep (Outcome.returns_of_result hemit),
    initial_of_recordMessages hmsgs⟩

end Multio.StatisticsMtg2
