import Multio.Action.StatisticsMtg2.ExactContext
import Multio.Action.StatisticsMtg2.FieldSizes

namespace Multio.StatisticsMtg2
open Lib Exception

variable {ctx : StatisticsContext}

namespace TemporalStatistics

variable {conf : Config} {cfg : StatisticsConfiguration ctx.arithmetic} {msg : Message}
  {ts : TemporalStatistics ctx}

/-- What all operations keep of the window is kept by the loop, also where it throws. -/
theorem forOperations_window {f : OperationWindow → Operation ctx.arithmetic →
    Except Exception (OperationWindow × Operation ctx.arithmetic)} {I : OperationWindow → Prop}
    (hstep : ∀ {w w₁ op op₁}, I w → f w op = .ok (w₁, op₁) → I w₁) {w : OperationWindow}
    (hw : I w) (ops : List (Operation ctx.arithmetic)) : I (forOperations f w ops).state.1 :=
  (forOperations_state (J := fun _ => True) (fun hw _ h => ⟨hstep hw h, trivial⟩) hw
    fun _ _ => trivial).1

theorem updateData_state {w : OperationWindow}
    (hw : ts.window.updateData ctx (currentDateTime cfg) = .ok w) :
    (ts.updateData conf cfg msg).state.window = { w with
      counts := (ts.updateData conf cfg msg).state.window.counts } := by
  unfold updateData
  rw [hw]
  exact forOperations_window (I := fun w₁ => w₁ = { w with counts := w₁.counts })
    (fun hw h => by
      have hframe : CountersOnly True _ _ ∧ _ := updateOperation_frame (fun _ _ => trivial) h
      rw [hframe.1.1, hw]) rfl ts.statistics

theorem updateData_endPoint : (ts.updateData conf cfg msg).state.window.endPoint =
    ts.window.endPoint := by
  cases hw : ts.window.updateData ctx (currentDateTime cfg) with
  | error e =>
    unfold updateData
    rw [hw]
    rfl
  | ok w =>
    rw [updateData_state hw]
    obtain ⟨-, -, rfl⟩ := OperationWindow.updateData_eq_ok_iff.mp hw
    rfl

theorem updateWindow_state : (ts.updateWindow cfg msg).state.window = ts.nextWindow :=
  forOperations_window (I := (· = ts.nextWindow)) (fun hw h => (resetOperation_frame h).1 ▸ hw) rfl
    ts.statistics

theorem emitStatistics_state {src dst : Peer} :
    (ts.emitStatistics conf src dst).state.1.window = ts.window ∧
      (ts.emitStatistics conf src dst).state.1.periodUpdater = ts.periodUpdater := by
  unfold emitStatistics
  split_ifs
  · exact ⟨rfl, rfl⟩
  · exact ⟨rfl, rfl⟩

theorem closeWindow_state
    (hemit : (ts.emitStatistics conf msg.source msg.destination).exception = none) :
    (ts.closeWindow conf cfg msg).state.1.window = ts.nextWindow := by
  unfold closeWindow
  rw [Outcome.andThen_of_none hemit]
  obtain ⟨hwindow, hupdater⟩ :
      (ts.emitStatistics conf msg.source msg.destination).state.1.window = ts.window ∧ _ :=
    emitStatistics_state
  refine updateWindow_state.trans ?_
  unfold nextWindow
  rw [hwindow, hupdater]

/-- Nothing of the field changes until the window has been emitted or the message is counted. -/
def RefusedEarly (conf : Config) (cfg : StatisticsConfiguration ctx.arithmetic) (msg : Message)
    (ts : TemporalStatistics ctx) : Prop :=
  cfg.curr ≤ ts.window.currPoint ∨
  (ts.isOutsideWindow cfg = true ∧ ts.window.count ≠ 0 ∧ ∃ op, ts.statistics.head? = some op ∧
    ∃ e, ts.emitOperation conf msg.source msg.destination op = .error e) ∨
  (ts.isOutsideWindow cfg = false ∧ ∃ e, ts.window.updateData ctx (currentDateTime cfg) = .error e)

theorem emitStatistics_intact_iff {src dst : Peer}
    (hthrows : (ts.emitStatistics conf src dst).exception ≠ none) :
    (ts.emitStatistics conf src dst).state = (ts, []) ↔ ts.window.count ≠ 0 ∧
      ∃ op, ts.statistics.head? = some op ∧ ∃ e, ts.emitOperation conf src dst op = .error e := by
  unfold emitStatistics at hthrows ⊢
  split_ifs at hthrows ⊢ with hcount
  · exact absurd rfl hthrows
  · rw [and_iff_right hcount]
    cases hops : ts.statistics with
    | nil =>
      rw [hops] at hthrows
      exact absurd rfl hthrows
    | cons op ops =>
      rw [emitOperations]
      cases hop : ts.emitOperation conf src dst op with
      | error e =>
        refine iff_of_true ?_ ⟨op, rfl, e, hop⟩
        change (({ ts with statistics := op :: ops } : TemporalStatistics ctx), []) = _
        rw [← hops]
      | ok r =>
        refine iff_of_false (fun h => ?_) fun h => ?_
        · exact absurd (congrArg Prod.snd h) (List.cons_ne_nil _ _)
        · obtain ⟨op', hop', e, herror⟩ := h
          obtain rfl := Option.some.inj hop'
          rw [hop] at herror
          cases herror

theorem emitStatistics_throws {src dst : Peer} (hcount : ts.window.count ≠ 0)
    {op : Operation ctx.arithmetic} (hop : ts.statistics.head? = some op) {e : Exception}
    (herror : ts.emitOperation conf src dst op = .error e) :
    (ts.emitStatistics conf src dst).exception ≠ none := by
  obtain ⟨ops, hops⟩ := List.head?_eq_some_iff.mp hop
  unfold emitStatistics
  rw [if_neg hcount, hops, emitOperations, herror]
  exact Option.some_ne_none e

/-- A message that is refused leaves the field as it was exactly if it is refused early. -/
theorem process_intact_iff (hnext : ts.nextWindow.endPoint ≠ ts.window.endPoint)
    (hthrows : (ts.process conf cfg msg).exception ≠ none) :
    (ts.process conf cfg msg).state = (ts, []) ↔ ts.RefusedEarly conf cfg msg := by
  unfold RefusedEarly
  unfold process at hthrows ⊢
  by_cases hignored : cfg.curr = ts.window.currPoint ∧ conf.opt.initialConditionPresent = true
  · rw [if_pos hignored] at hthrows
    exact absurd rfl hthrows
  rw [if_neg hignored] at hthrows ⊢
  by_cases hlate : cfg.curr ≤ ts.window.currPoint
  · rw [if_pos hlate]
    exact iff_of_true rfl (Or.inl hlate)
  rw [if_neg hlate] at hthrows ⊢
  rw [or_iff_right hlate]
  by_cases houtside : ts.isOutsideWindow cfg = true
  · rw [if_pos houtside] at hthrows ⊢
    rw [or_iff_left fun h => absurd (houtside.symm.trans h.1) Bool.noConfusion, and_iff_right houtside]
    -- once the window has been emitted the next one begins, so the state is another one
    by_cases hemit : (ts.emitStatistics conf msg.source msg.destination).exception = none
    · refine iff_of_false (fun h => hnext ?_) fun h => ?_
      · have hend : ((ts.closeWindow conf cfg msg).andThen fun s =>
            (s.1.updateData conf cfg msg).map fun ts => (ts, s.2)).state.1.window.endPoint =
              ts.nextWindow.endPoint :=
          Outcome.andThen_state (P := fun s : TemporalStatistics ctx × List Message =>
              s.1.window.endPoint = ts.nextWindow.endPoint)
            (congrArg OperationWindow.endPoint (closeWindow_state hemit))
            fun s hs => updateData_endPoint.trans hs
        rw [← hend, h]
      · obtain ⟨hcount, op, hop, e, herror⟩ := h
        exact emitStatistics_throws hcount hop herror hemit
    · have hclose : ts.closeWindow conf cfg msg =
          ts.emitStatistics conf msg.source msg.destination := Outcome.andThen_of_ne_none hemit _
      rw [Outcome.andThen_of_ne_none (hclose ▸ hemit), hclose]
      exact emitStatistics_intact_iff hemit
  · rw [if_neg houtside] at hthrows ⊢
    rw [or_iff_right fun h => houtside h.1, and_iff_right (Bool.eq_false_of_not_eq_true houtside)]
    rw [Outcome.andThen_of_none rfl]
    cases hw : ts.window.updateData ctx (currentDateTime cfg) with
    | error e =>
      refine iff_of_true ?_ ⟨e, rfl⟩
      change ((ts.updateData conf cfg msg).state, []) = _
      unfold updateData
      rw [hw]
      rfl
    | ok w =>
      refine iff_of_false (fun h => ?_) fun h => ?_
      · have hcount : (ts.updateData conf cfg msg).state.window.count = ts.window.count :=
          congrArg (fun s : TemporalStatistics ctx × List Message => s.1.window.count) h
        rw [updateData_state hw] at hcount
        obtain ⟨-, -, rfl⟩ := OperationWindow.updateData_eq_ok_iff.mp hw
        exact absurd hcount (lt_add_one _).ne'
      · obtain ⟨e, h⟩ := h
        cases h

theorem process_periodUpdater : (ts.process conf cfg msg).state.1.periodUpdater = ts.periodUpdater := by
  let Kept (s : TemporalStatistics ctx × List Message) : Prop := s.1.periodUpdater = ts.periodUpdater
  have hdata (s : TemporalStatistics ctx × List Message) (hs : Kept s) :
      Kept ((s.1.updateData conf cfg msg).map fun ts => (ts, s.2)).state :=
    Outcome.needing_state (P := fun ts' : TemporalStatistics ctx =>
      ts'.periodUpdater = ts.periodUpdater) hs fun _ _ => hs
  unfold process
  split_ifs
  · rfl
  · rfl
  · refine Outcome.andThen_state (P := Kept) ?_ hdata
    exact Outcome.andThen_state (P := Kept) emitStatistics_state.2 fun s hs => hs
  · exact Outcome.andThen_state (P := Kept) rfl hdata

theorem endPoint_nextWindow (hcal : ctx.calendar.IsGregorian) (hspan : 1 ≤ ts.periodUpdater.span) :
    ts.nextWindow.endPoint ≠ ts.window.endPoint :=
  (ts.periodUpdater.lt_updateWinEndTime hcal hspan ts.window.endPoint).ne'

end TemporalStatistics

namespace StatisticsAction

variable {io : RestartIO ctx} {conf : Config} {a : StatisticsAction ctx io} {msg : Message}

def AllFields (P : TemporalStatistics ctx → Prop) (a : StatisticsAction ctx io) : Prop :=
  ∀ key ts, a.fieldStats.find? key = some ts → P ts

section

variable {P : TemporalStatistics ctx → Prop}

theorem AllFields.insert (h : a.AllFields P) (key : String) {ts : TemporalStatistics ctx}
    (hts : P ts) : ({ a with fieldStats := a.fieldStats.insert key ts } :
      StatisticsAction ctx io).AllFields P := by
  intro key' ts' hfind
  change (a.fieldStats.insert key ts).find? key' = some ts' at hfind
  rw [OrderedMap.find?_insert] at hfind
  split_ifs at hfind
  · exact Option.some.inj hfind ▸ hts
  · exact h key' ts' hfind

variable (hmake : ∀ cfg msg ts, TemporalStatistics.make conf cfg msg = .ok ts → P ts)
  (hload : ∀ files ts, io.load files = .ok ts → P ts)
  (hprocess : ∀ ts cfg msg, P ts → P (ts.process conf cfg msg).state.1)
  (hemit : ∀ ts src dst, P ts → P (ts.emitStatistics conf src dst).state.1)

include hmake hload in
theorem AllFields.findOrMake (h : a.AllFields P) {cfg : StatisticsConfiguration ctx.arithmetic}
    {ts : TemporalStatistics ctx} (hts : a.findOrMake conf cfg msg = .ok ts) : P ts := by
  unfold StatisticsAction.findOrMake at hts
  split at hts
  · obtain rfl := Except.ok.inj hts
    exact h _ _ ‹_›
  · split at hts
    · exact hload _ _ hts
    · exact hmake _ _ _ hts

include hemit in
theorem AllFields.emitFields (h : a.AllFields P) {src dst : Peer}
    {es : List (String × TemporalStatistics ctx)} (hes : ∀ e ∈ es, P e.2) :
    (emitFields conf src dst a es).state.1.AllFields P := by
  induction es generalizing a with
  | nil => exact h
  | cons e es ih =>
    rw [List.forall_mem_cons] at hes
    rw [StatisticsAction.emitFields]
    refine Outcome.andThen_state (P := fun s : StatisticsAction ctx io × List Message => s.1.AllFields P) ?_
      fun s hs => ih hs hes.2
    exact h.insert e.1 (hemit e.2 src dst hes.1)

theorem AllFields.tryDumpRestart (h : a.AllFields P) (md : BaseMetadata) :
    (a.tryDumpRestart conf md).state.AllFields P := by
  have hsame : (a.tryDumpRestart conf md).state.fieldStats = a.fieldStats := by
    unfold StatisticsAction.tryDumpRestart
    refine Outcome.needing_state
      (P := fun a' : StatisticsAction ctx io => a'.fieldStats = a.fieldStats) rfl
      fun flushKind _ => ?_
    split_ifs
    · refine Outcome.needing_state
        (P := fun a' : StatisticsAction ctx io => a'.fieldStats = a.fieldStats) rfl
        fun serverRank _ => ?_
      exact Outcome.needing_state
        (P := fun a' : StatisticsAction ctx io => a'.fieldStats = a.fieldStats) rfl fun _ _ => rfl
    · rfl
  intro key ts hfind
  exact h key ts (hsame ▸ hfind)

include hmake hload hprocess hemit in
/-- What holds of all fields is kept by every message, also if it is refused. -/
theorem AllFields.executeImpl (h : a.AllFields P) (msg : Message) :
    (a.executeImpl conf msg).state.1.AllFields P := by
  unfold StatisticsAction.executeImpl
  split
  · unfold StatisticsAction.executeFlush
    refine Outcome.andThen_state (P := fun s : StatisticsAction ctx io × List Message => s.1.AllFields P)
      (h.tryDumpRestart msg.metadata) fun s hs => ?_
    refine Outcome.needing_state (P := fun s : StatisticsAction ctx io × List Message => s.1.AllFields P) hs
      fun flushKind _ => ?_
    refine Outcome.andThen_state (P := fun s : StatisticsAction ctx io × List Message => s.1.AllFields P) ?_
      fun s hs => hs
    split_ifs
    · refine AllFields.emitFields hemit hs fun e he => ?_
      exact hs e.1 e.2 (OrderedMap.find?_eq_some_iff.mpr he)
    · exact hs
  · have hexecuted := executeField_executed conf a msg
    generalize a.executeField conf msg = x at hexecuted
    cases hexecuted with
    | unread => exact h
    | noFolder => exact h
    | notMade => exact h
    | processed cfg ts _ _ hfound =>
      have h' : (a.updateLatestDateTime cfg).AllFields P := h
      exact h'.insert cfg.key (hprocess ts cfg msg (h.findOrMake hmake hload hfound))
  · exact h

end

/-- The states that messages lead to from the beginning, also those that refused messages leave. -/
inductive Reachable (conf : Config) : StatisticsAction ctx io → Prop
  | start (disk : LinkedFolders io.Field) : Reachable conf { disk }
  | execute {a : StatisticsAction ctx io} (msg : Message) (h : Reachable conf a) :
    Reachable conf (a.executeImpl conf msg).state.1

theorem Reachable.span (hload : ∀ files ts, io.load files = .ok ts → 1 ≤ ts.periodUpdater.span)
    (h : a.Reachable conf) : a.AllFields fun ts => 1 ≤ ts.periodUpdater.span := by
  induction h with
  | start disk =>
    intro key ts hfind
    cases (show none = some ts from hfind)
  | execute msg h ih =>
    refine ih.executeImpl (fun cfg msg ts hts => ?_) hload (fun ts cfg msg hts => ?_)
      (fun ts src dst hts => ?_) msg
    · obtain ⟨u, hu, ops, -, rfl⟩ := TemporalStatistics.make_eq_ok_iff.mp hts
      exact makePeriodUpdater_pos hu
    · rw [TemporalStatistics.process_periodUpdater]
      exact hts
    · rw [TemporalStatistics.emitStatistics_state.2]
      exact hts

/-- The statistics of all fields are as before, and nothing has been passed on. -/
def Intact (conf : Config) (a : StatisticsAction ctx io) (msg : Message) : Prop :=
  (a.executeImpl conf msg).state.1.fieldStats = a.fieldStats ∧ (a.executeImpl conf msg).state.2 = []

/-- The message is refused without a field, by a field that is not known and cannot be made or
loaded, or early by one that is known. -/
def RefusedEarly (conf : Config) (a : StatisticsAction ctx io) (msg : Message) : Prop :=
  ∀ cfg, StatisticsConfiguration.make ctx conf.opt msg.metadata msg.source = .ok cfg →
    (conf.opt.readRestart = true ∧ (a.disk.folder conf.restartTime).isNone = true) ∨
    (∃ e, a.findOrMake conf cfg msg = .error e) ∨
    ∃ ts, a.fieldStats.find? cfg.key = some ts ∧ ts.RefusedEarly conf cfg msg

theorem insert_intact_iff {m : OrderedMap String (TemporalStatistics ctx)} {key : String}
    {ts ts₁ : TemporalStatistics ctx} (hfind : m.find? key = some ts) :
    m.insert key ts₁ = m ↔ ts₁ = ts := by
  constructor
  · intro h
    have hlookup := m.find?_insert key key ts₁
    rw [h, hfind, if_pos rfl] at hlookup
    exact (Option.some.inj hlookup).symm
  · intro h
    subst h
    exact OrderedMap.insert_of_find? hfind

theorem refusedEarly_iff {cfg : StatisticsConfiguration ctx.arithmetic}
    {ts : TemporalStatistics ctx}
    (hcfg : StatisticsConfiguration.make ctx conf.opt msg.metadata msg.source = .ok cfg)
    (hfolder : ¬ (conf.opt.readRestart = true ∧ (a.disk.folder conf.restartTime).isNone = true))
    (hfound : a.findOrMake conf cfg msg = .ok ts) :
    a.RefusedEarly conf msg ↔
      ∃ ts, a.fieldStats.find? cfg.key = some ts ∧ ts.RefusedEarly conf cfg msg := by
  constructor
  · intro h
    obtain hno | ⟨e, he⟩ | hknown := h cfg hcfg
    · exact absurd hno hfolder
    · cases hfound.symm.trans he
    · exact hknown
  · intro h cfg' hcfg'
    obtain rfl := Except.ok.inj (hcfg.symm.trans hcfg')
    exact Or.inr (Or.inr h)

/-- A refused message leaves everything as it was exactly if it is refused early. -/
theorem refused_message_intact_iff (hcal : ctx.calendar.IsGregorian)
    (hload : ∀ files ts, io.load files = .ok ts → 1 ≤ ts.periodUpdater.span)
    (ha : a.Reachable conf) (htag : msg.tag = .field)
    (hthrows : (a.executeImpl conf msg).exception ≠ none) :
    a.Intact conf msg ↔ a.RefusedEarly conf msg := by
  unfold Intact
  rw [executeImpl_of_field htag] at hthrows ⊢
  have hexecuted := executeField_executed conf a msg
  generalize a.executeField conf msg = x at hthrows hexecuted
  -- a message that is refused before its field is found leaves all as it was
  cases hexecuted with
  | unread e hcfg =>
    refine iff_of_true ⟨rfl, rfl⟩ fun cfg h => ?_
    cases hcfg.symm.trans h
  | noFolder cfg e hcfg hfolder => exact iff_of_true ⟨rfl, rfl⟩ fun _ _ => Or.inl hfolder
  | notMade cfg e hcfg hmake =>
    refine iff_of_true ⟨rfl, rfl⟩ fun cfg' h => ?_
    obtain rfl := Except.ok.inj (hcfg.symm.trans h)
    exact Or.inr (Or.inl ⟨e, hmake⟩)
  | processed cfg ts hcfg hfolder hfound =>
    rw [refusedEarly_iff hcfg hfolder hfound]
    change a.fieldStats.insert cfg.key (ts.process conf cfg msg).state.1 = a.fieldStats ∧
      (ts.process conf cfg msg).state.2 = [] ↔ _
    cases hfind : a.fieldStats.find? cfg.key with
    | none =>
      refine iff_of_false (fun h => ?_) fun h => ?_
      · -- the field has been added
        have hlookup := a.fieldStats.find?_insert cfg.key cfg.key (ts.process conf cfg msg).state.1
        rw [h.1, hfind, if_pos rfl] at hlookup
        cases hlookup
      · obtain ⟨ts', hknown, -⟩ := h
        cases hknown
    | some ts' =>
      have hsame : ts' = ts := by
        unfold findOrMake at hfound
        rw [hfind] at hfound
        exact Except.ok.inj hfound
      subst hsame
      have hnext := TemporalStatistics.endPoint_nextWindow hcal (ha.span hload _ _ hfind)
      rw [insert_intact_iff hfind, ← Prod.mk_inj, Prod.mk.eta,
        TemporalStatistics.process_intact_iff hnext hthrows]
      constructor
      · exact fun h => ⟨ts', rfl, h⟩
      · intro h
        obtain ⟨ts, hts, h⟩ := h
        exact Option.some.inj hts ▸ h

end StatisticsAction

def startedField : StatisticsAction exactContext.toStatisticsContext noFiles :=
  ((({} : StatisticsAction _ noFiles).executeImpl (daily ["average"])
    (hourlyField 0 [] [1])).state.1.executeImpl (daily ["average"]) (hourlyField 1 [] [2])).state.1

theorem startedField_reachable : startedField.Reachable (daily ["average"]) :=
  .execute _ (.execute _ (.start {}))

/-- A message that skips a day is refused after the average of the day before has been passed on. -/
theorem skipped_day_refused_late :
    startedField.Reachable (daily ["average"]) ∧
    (startedField.executeImpl (daily ["average"]) (hourlyField 49 [] [3])).exception ≠ none ∧
    ¬ startedField.Intact (daily ["average"]) (hourlyField 49 [] [3]) := by
  have hrun : (startedField.executeImpl (daily ["average"])
      (hourlyField 49 [] [3])).exception.isSome = true ∧
      (startedField.executeImpl (daily ["average"]) (hourlyField 49 [] [3])).state.2.length = 1 := by
    decide +kernel
  refine ⟨startedField_reachable, fun h => ?_, fun h => ?_⟩
  · rw [h] at hrun
    exact absurd hrun.1 Bool.false_ne_true
  · rw [h.2] at hrun
    exact absurd hrun.2 (by decide)

/-- A message of the past leaves everything as it was. -/
theorem refused_message_intact_iff_late :
    startedField.Intact (daily ["average"]) (hourlyField 0 [] [3]) := by
  have hlate : (startedField.executeImpl (daily ["average"])
      (hourlyField 0 [] [3])).exception.isSome = true ∧
      ((StatisticsConfiguration.make exactContext.toStatisticsContext
        (daily ["average"]).opt (hourlyField 0 [] [3]).metadata {}).toOption.bind fun cfg =>
          (startedField.fieldStats.find? cfg.key).map fun ts =>
            decide (cfg.curr ≤ ts.window.currPoint)) = some true := by decide +kernel
  refine (StatisticsAction.refused_message_intact_iff Calendar.gregorian_isGregorian
    (fun _ _ h => ?_) startedField_reachable rfl fun h => ?_).mpr fun cfg h => Or.inr (Or.inr ?_)
  · cases h
  · rw [h] at hlate
    exact absurd hlate.1 Bool.false_ne_true
  · rw [show StatisticsConfiguration.make exactContext.toStatisticsContext
      (daily ["average"]).opt (hourlyField 0 [] [3]).metadata {} = .ok cfg from h] at hlate
    obtain ⟨ts, hts, hle⟩ := Option.map_eq_some_iff.mp hlate.2
    exact ⟨ts, hts, Or.inl (of_decide_eq_true hle)⟩

end Multio.StatisticsMtg2
