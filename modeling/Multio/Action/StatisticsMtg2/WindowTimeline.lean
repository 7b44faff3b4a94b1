import Multio.Action.StatisticsMtg2.ExactContext
import Multio.Action.StatisticsMtg2.FieldHistory
import Multio.Action.StatisticsMtg2.FieldSeparation
import Multio.Action.StatisticsMtg2.FirstMessage
import Multio.Action.StatisticsMtg2.PeriodPartition

namespace Multio.StatisticsMtg2
open Lib Exception Multio.Action

variable {ctx : StatisticsContext} {conf : Config}

/-- The windows of a field by their messages, as a run records them. -/
structure Timeline where
  /-- The windows that have ended, and what was emitted for each at its end. -/
  closed : List (List Message × List Message) := []
  /-- The messages of the window. -/
  inputs : List Message := []
  /-- The messages that came at the current point of their window. -/
  ignored : List Message := []
  /-- All that the action has emitted with messages of the field. -/
  emitted : List Message := []
  /-- What last steps have emitted for the field, and the messages of the window by then. -/
  parts : List (List Message × List Message) := []

namespace Timeline

variable (l : Timeline)

def messages : List Message := l.closed.flatMap Prod.fst ++ l.inputs

/-- A message at the current point is ignored, one outside of the window ends it. -/
def message (ts : TemporalStatistics ctx) (cfg : StatisticsConfiguration ctx.arithmetic)
    (msg : Message) (out : List Message) : Timeline :=
  let l := { l with emitted := l.emitted ++ out }
  if cfg.curr = ts.window.currPoint then { l with ignored := l.ignored ++ [msg] }
  else if ts.isOutsideWindow cfg then
    { l with closed := l.closed ++ [(l.inputs, out)], inputs := [msg] }
  else { l with inputs := l.inputs ++ [msg] }

def lastStep (out : List Message) : Timeline := { l with parts := l.parts ++ [(l.inputs, out)] }

theorem messages_message (ts : TemporalStatistics ctx)
    (cfg : StatisticsConfiguration ctx.arithmetic) (msg : Message) (out : List Message) :
    (l.message ts cfg msg out).messages =
      if cfg.curr = ts.window.currPoint then l.messages else l.messages ++ [msg] := by
  unfold message messages
  split_ifs
  · rfl
  · simp
  · simp

theorem ignored_message (ts : TemporalStatistics ctx)
    (cfg : StatisticsConfiguration ctx.arithmetic) (msg : Message) (out : List Message) :
    (l.message ts cfg msg out).ignored =
      if cfg.curr = ts.window.currPoint then l.ignored ++ [msg] else l.ignored := by
  unfold message
  split_ifs <;> rfl

/-- The accumulated messages and the ignored ones are the messages of the field. -/
structure Accounts (msgs : List Message) : Prop where
  sublist : l.messages.Sublist msgs
  perm : (l.messages ++ l.ignored).Perm msgs

variable {l}

theorem Accounts.message {msgs : List Message} (h : l.Accounts msgs) (ts : TemporalStatistics ctx)
    (cfg : StatisticsConfiguration ctx.arithmetic) (msg : Message) (out : List Message) :
    (l.message ts cfg msg out).Accounts (msgs ++ [msg]) := by
  constructor
  · rw [messages_message]
    split_ifs
    · exact h.sublist.trans (List.sublist_append_left msgs [msg])
    · exact h.sublist.append (List.Sublist.refl [msg])
  · rw [messages_message, ignored_message]
    split_ifs
    · rw [← List.append_assoc]
      exact h.perm.append_right [msg]
    · have hlast : (l.messages ++ [msg] ++ l.ignored).Perm (l.messages ++ l.ignored ++ [msg]) := by
        rw [List.append_assoc, List.append_assoc]
        exact List.perm_append_comm.append_left l.messages
      exact hlast.trans (h.perm.append_right [msg])

end Timeline

/-- The message is about a time in the `k`-th window from the time `t` on. -/
def InWindow (ctx : StatisticsContext) (conf : Config) (u : PeriodUpdater) (t : DateTime) (k : ℕ)
    (msg : Message) : Prop :=
  ∃ cfg : StatisticsConfiguration ctx.arithmetic, Read conf msg cfg ∧
    max t (u.windowStart ctx.calendar t k) < currentDateTime cfg ∧
    currentDateTime cfg ≤ u.windowStart ctx.calendar t (k + 1)

theorem InWindow.unique (hcal : ctx.calendar.IsGregorian) {u : PeriodUpdater} (hspan : 1 ≤ u.span)
    {t : DateTime} {j k : ℕ} {msg : Message} (hj : InWindow ctx conf u t j msg)
    (hk : InWindow ctx conf u t k msg) : j = k := by
  obtain ⟨cfg, hcfg, hj, hj'⟩ := hj
  obtain ⟨cfg', hcfg', hk, hk'⟩ := hk
  obtain rfl := Except.ok.inj (hcfg.symm.trans hcfg')
  have hmono := u.windowStart_strictMono hcal hspan t
  have hlt := hmono.lt_iff_lt.mp (((le_max_right _ _).trans_lt hj).trans_le hk')
  have hgt := hmono.lt_iff_lt.mp (((le_max_right _ _).trans_lt hk).trans_le hj')
  omega

/-- The time at which a window begins, or of a message that has been accumulated. -/
def Passed (ctx : StatisticsContext) (conf : Config) (u : PeriodUpdater) (t : DateTime)
    (l : Timeline) (point : DateTime) : Prop :=
  (∃ k ≤ l.closed.length, point = max t (u.windowStart ctx.calendar t k)) ∨
    ∃ msg ∈ l.messages, ∃ cfg : StatisticsConfiguration ctx.arithmetic,
      Read conf msg cfg ∧ point = currentDateTime cfg

theorem Passed.mono {u : PeriodUpdater} {t point : DateTime} {l l₁ : Timeline}
    (h : Passed ctx conf u t l point) (hclosed : l.closed.length ≤ l₁.closed.length)
    (hmessages : l.messages ⊆ l₁.messages) : Passed ctx conf u t l₁ point := by
  obtain ⟨k, hk, hpoint⟩ | ⟨msg, hmsg, hread⟩ := h
  · exact Or.inl ⟨k, hk.trans hclosed, hpoint⟩
  · exact Or.inr ⟨msg, hmessages hmsg, hread⟩

/-- The windows from the time `t` on, one after the other. -/
structure InWindows (conf : Config) (t : DateTime) (ts : TemporalStatistics ctx) (l : Timeline) :
    Prop where
  creationPoint : ts.window.creationPoint =
    max t (ts.periodUpdater.windowStart ctx.calendar t l.closed.length)
  endPoint : ts.window.endPoint =
    ts.periodUpdater.windowStart ctx.calendar t (l.closed.length + 1)
  currPoint : Passed ctx conf ts.periodUpdater t l ts.window.currPoint
  closed : ∀ k window, l.closed[k]? = some window →
    (∀ msg ∈ window.1, InWindow ctx conf ts.periodUpdater t k msg) ∧
      window.2.length = if window.1 = [] then 0 else conf.operations.length
  inputs : ∀ msg ∈ l.inputs, InWindow ctx conf ts.periodUpdater t l.closed.length msg
  ignored : ∀ msg ∈ l.ignored, ∃ cfg : StatisticsConfiguration ctx.arithmetic,
    Read conf msg cfg ∧ Passed ctx conf ts.periodUpdater t l cfg.curr
  emitted : l.emitted = l.closed.flatMap Prod.snd
  parts : ∀ part ∈ l.parts,
    part.2.length = if part.1 = [] then 0 else conf.operations.length
  count : ts.window.count = l.inputs.length
  operations : ts.statistics.length = conf.operations.length

namespace TemporalStatistics

variable {ts ts₁ : TemporalStatistics ctx} {cfg : StatisticsConfiguration ctx.arithmetic}
  {msg : Message} {out : List Message}

theorem emitOperations_length {src dst : Peer} {ops ops' : List (Operation ctx.arithmetic)}
    (h : (ts.emitOperations conf src dst ops).Returns (ops', out)) :
    ops'.length = ops.length ∧ out.length = ops.length := by
  induction ops generalizing ops' out with
  | nil =>
    obtain ⟨rfl, rfl⟩ := Prod.mk.inj (Outcome.returns_mk.mp h)
    exact ⟨rfl, rfl⟩
  | cons op ops ih =>
    obtain ⟨op₁, msg, ops₁, out₁, -, hrest, rfl, rfl⟩ := emitOperations_cons_iff.mp h
    obtain ⟨hops, hout⟩ := ih hrest
    exact ⟨congrArg Nat.succ hops, congrArg Nat.succ hout⟩

theorem emitStatistics_length {src dst : Peer}
    (h : (ts.emitStatistics conf src dst).Returns (ts₁, out)) :
    ts₁.statistics.length = ts.statistics.length ∧
      out.length = if ts.window.count = 0 then 0 else ts.statistics.length := by
  obtain ⟨hcount, rfl, rfl⟩ | ⟨hcount, ops, hloop, rfl⟩ := emitStatistics_returns h
  · rw [if_pos hcount]
    exact ⟨rfl, rfl⟩
  · rw [if_neg hcount]
    exact emitOperations_length hloop

theorem updateData_length (h : (ts.updateData conf cfg msg).Returns ts₁) :
    ts₁.statistics.length = ts.statistics.length := by
  obtain ⟨w, w₁, ops, -, hloop, rfl⟩ := updateData_returns h
  obtain ⟨-, hkinds⟩ := forOperations_frame (CountersOnly.refl True)
    (fun _ _ _ => CountersOnly.trans) (fun _ _ _ _ _ => updateOperation_frame fun _ _ => trivial)
    hloop
  simpa using congrArg List.length hkinds

theorem updateWindow_length (h : (ts.updateWindow cfg msg).Returns ts₁) :
    ts₁.statistics.length = ts.statistics.length ∧ ts₁.window = ts.nextWindow ∧
      ts₁.periodUpdater = ts.periodUpdater := by
  obtain ⟨ops, hloop, rfl⟩ := updateWindow_returns h
  obtain ⟨-, hkinds⟩ := forOperations_frame (R := Eq) (fun _ => rfl) (fun _ _ _ => Eq.trans)
    (fun _ _ _ _ _ => resetOperation_frame) hloop
  exact ⟨by simpa using congrArg List.length hkinds, rfl, rfl⟩

end TemporalStatistics

namespace InWindows

variable {t : DateTime} {ts ts₁ : TemporalStatistics ctx} {l : Timeline} {msg : Message}
  {cfg : StatisticsConfiguration ctx.arithmetic} {out : List Message}

theorem made (hcal : ctx.calendar.IsGregorian) {first : StatisticsConfiguration ctx.arithmetic}
    (hmake : TemporalStatistics.make conf first msg = .ok ts) :
    InWindows conf (first.curr - 3600 * first.timespan.getD 0) ts {} := by
  have hops := (TemporalStatistics.kinds_make hmake).length_eq
  obtain ⟨u, hu, ops, -, rfl⟩ := TemporalStatistics.make_eq_ok_iff.mp hmake
  have hbegin := (max_eq_left (u.mem_firstWindow hcal (makePeriodUpdater_pos hu)
    (first.curr - 3600 * first.timespan.getD 0)).1).symm
  refine ⟨hbegin, rfl, Or.inl ⟨0, le_rfl, hbegin⟩, fun k window h => ?_,
    fun msg h => absurd h List.not_mem_nil, fun msg h => absurd h List.not_mem_nil, rfl,
    fun part h => absurd h List.not_mem_nil, rfl, hops.symm⟩
  cases h

variable (h : InWindows conf t ts l)

include h

theorem update (hread : Read conf msg cfg) (hdata : (ts.updateData conf cfg msg).Returns ts₁) :
    InWindows conf t ts₁ { l with inputs := l.inputs ++ [msg] } := by
  obtain ⟨hupdater, hwindow⟩ := TemporalStatistics.updateData_window hdata
  obtain ⟨hlower, hupper, heq⟩ := OperationWindow.updateData_eq_ok_iff.mp hwindow
  obtain ⟨hcreation, hend, hcurr, hcount⟩ :
      ts₁.window.creationPoint = ts.window.creationPoint ∧
      ts₁.window.endPoint = ts.window.endPoint ∧ ts₁.window.currPoint = currentDateTime cfg ∧
      ts₁.window.count = ts.window.count + 1 := by
    have hcreation := congrArg OperationWindow.creationPoint heq
    have hend := congrArg OperationWindow.endPoint heq
    have hcurr := congrArg OperationWindow.currPoint heq
    have hcount := congrArg OperationWindow.count heq
    exact ⟨hcreation, hend, hcurr, hcount⟩
  have hmessages : ({ l with inputs := l.inputs ++ [msg] } : Timeline).messages =
      l.messages ++ [msg] := (List.append_assoc _ _ _).symm
  -- what has been passed before the message is still passed after it
  have hmono {point : DateTime} (hpoint : Passed ctx conf ts.periodUpdater t l point) :
      Passed ctx conf ts.periodUpdater t { l with inputs := l.inputs ++ [msg] } point :=
    hpoint.mono le_rfl (hmessages ▸ List.subset_append_left l.messages [msg])
  constructor
  · rw [hcreation, hupdater]
    exact h.creationPoint
  · rw [hend, hupdater]
    exact h.endPoint
  · rw [hcurr]
    exact Or.inr ⟨msg, hmessages ▸ List.mem_append_right _ List.mem_cons_self, cfg, hread, rfl⟩
  · rw [hupdater]
    exact h.closed
  · rw [hupdater]
    intro m hm
    obtain hm | hm := List.mem_append.mp hm
    · exact h.inputs m hm
    · obtain rfl := List.mem_singleton.mp hm
      exact ⟨cfg, hread, h.creationPoint ▸ hlower, h.endPoint ▸ hupper⟩
  · rw [hupdater]
    intro m hm
    obtain ⟨cfg', hread', hpassed⟩ := h.ignored m hm
    exact ⟨cfg', hread', hmono hpassed⟩
  · exact h.emitted
  · exact h.parts
  · rw [hcount, h.count, List.length_append, List.length_singleton]
    push_cast
    rfl
  · exact (TemporalStatistics.updateData_length hdata).trans h.operations

theorem ignore (hread : Read conf msg cfg) (hcurr : cfg.curr = ts.window.currPoint) :
    InWindows conf t ts { l with ignored := l.ignored ++ [msg] } := by
  refine { h with ignored := fun m hm => ?_ }
  obtain hm | hm := List.mem_append.mp hm
  · exact h.ignored m hm
  · obtain rfl := List.mem_singleton.mp hm
    exact ⟨cfg, hread, hcurr ▸ h.currPoint⟩

theorem emit {src dst : Peer} (hemit : (ts.emitStatistics conf src dst).Returns (ts₁, out)) :
    InWindows conf t ts₁ l := by
  obtain ⟨hwindow, hupdater⟩ := TemporalStatistics.emitStatistics_window hemit
  obtain ⟨hops, -⟩ := TemporalStatistics.emitStatistics_length hemit
  refine ⟨?_, ?_, ?_, ?_, ?_, ?_, h.emitted, h.parts, ?_, hops.trans h.operations⟩
  · rw [hwindow, hupdater]
    exact h.creationPoint
  · rw [hwindow, hupdater]
    exact h.endPoint
  · rw [hwindow, hupdater]
    exact h.currPoint
  · rw [hupdater]
    exact h.closed
  · rw [hupdater]
    exact h.inputs
  · rw [hupdater]
    exact h.ignored
  · rw [hwindow]
    exact h.count

theorem emitted_length {src dst : Peer}
    (hemit : (ts.emitStatistics conf src dst).Returns (ts₁, out)) :
    out.length = if l.inputs = [] then 0 else conf.operations.length := by
  rw [(TemporalStatistics.emitStatistics_length hemit).2, h.count, h.operations]
  simp only [Nat.cast_eq_zero, List.length_eq_zero_iff]

theorem lastStep {src dst : Peer} (hemit : (ts.emitStatistics conf src dst).Returns (ts₁, out)) :
    InWindows conf t ts₁ (l.lastStep out) := by
  refine { h.emit hemit with parts := fun part hpart => ?_ }
  obtain hpart | hpart := List.mem_append.mp hpart
  · exact h.parts part hpart
  · obtain rfl := List.mem_singleton.mp hpart
    exact h.emitted_length hemit

/-- The window ends with what is emitted for it, and the next one begins. -/
theorem next (hcal : ctx.calendar.IsGregorian) (hspan : 1 ≤ ts.periodUpdater.span)
    (hout : out.length = if l.inputs = [] then 0 else conf.operations.length)
    (hwindow : (ts.updateWindow cfg msg).Returns ts₁) :
    InWindows conf t ts₁ { l with emitted := l.emitted ++ out
                                  closed := l.closed ++ [(l.inputs, out)]
                                  inputs := [] } := by
  obtain ⟨hops, hnext, hupdater⟩ := TemporalStatistics.updateWindow_length hwindow
  have hmono := ts.periodUpdater.windowStart_strictMono hcal hspan t
  have hafter : t < ts.periodUpdater.windowStart ctx.calendar t (l.closed.length + 1) :=
    (ts.periodUpdater.mem_firstWindow hcal hspan t).2.trans_le
      (hmono.monotone (Nat.le_add_left 1 l.closed.length))
  have hstart : ts₁.window.creationPoint = max t (ts.periodUpdater.windowStart ctx.calendar t
      (l.closed ++ [(l.inputs, out)]).length) := by
    rw [hnext, List.length_append, List.length_singleton, max_eq_right hafter.le]
    exact h.endPoint
  have hmessages : ({ l with closed := l.closed ++ [(l.inputs, out)], inputs := [] } :
      Timeline).messages = l.messages := by
    unfold Timeline.messages
    simp
  constructor
  · rw [hupdater]
    exact hstart
  · rw [hnext, hupdater, List.length_append, List.length_singleton]
    unfold PeriodUpdater.windowStart
    rw [Function.iterate_succ_apply']
    exact congrArg (ts.periodUpdater.updateWinEndTime ctx.calendar) h.endPoint
  · rw [hupdater]
    refine Or.inl ⟨_, le_rfl, Eq.trans ?_ hstart⟩
    rw [hnext]
    rfl
  · rw [hupdater]
    intro k window hk
    -- the windows closed before, and the one that is closed now
    obtain hlt | hlast := lt_or_ge k l.closed.length
    · rw [List.getElem?_append_left hlt] at hk
      exact h.closed k window hk
    · rw [List.getElem?_append_right hlast] at hk
      rw [List.getElem?_singleton] at hk
      split_ifs at hk with hzero
      obtain rfl := Option.some.inj hk
      obtain rfl : k = l.closed.length := by omega
      exact ⟨h.inputs, hout⟩
  · exact fun m hm => absurd hm List.not_mem_nil
  · rw [hupdater]
    intro m hm
    obtain ⟨cfg', hread', hpassed⟩ := h.ignored m hm
    refine ⟨cfg', hread', hpassed.mono ?_ (hmessages ▸ List.Subset.refl l.messages)⟩
    rw [List.length_append]
    exact Nat.le_add_right _ _
  · rw [h.emitted, List.flatMap_append, List.flatMap_singleton]
  · exact h.parts
  · rw [hnext]
    rfl
  · exact hops.trans h.operations

theorem message (hcal : ctx.calendar.IsGregorian) (hspan : 1 ≤ ts.periodUpdater.span)
    (hread : Read conf msg cfg) (hprocess : (ts.process conf cfg msg).Returns (ts₁, out)) :
    1 ≤ ts₁.periodUpdater.span ∧ InWindows conf t ts₁ (l.message ts cfg msg out) := by
  unfold Timeline.message
  cases TemporalStatistics.process_returns hprocess with
  | ignored _ hcurr =>
    simp only [if_pos hcurr, List.append_nil]
    exact ⟨hspan, h.ignore hread hcurr⟩
  | inside hlater hwithin hdata =>
    simp only [if_neg hlater.ne', if_neg (Bool.eq_false_iff.mp hwithin), List.append_nil]
    exact ⟨(TemporalStatistics.updateData_window hdata).1 ▸ hspan, h.update hread hdata⟩
  | @outside ts₁ ts₂ _ _ hlater houtside hemit hwindow hdata =>
    simp only [if_neg hlater.ne', if_pos houtside]
    have hspan₁ : 1 ≤ ts₁.periodUpdater.span :=
      (TemporalStatistics.emitStatistics_window hemit).2 ▸ hspan
    have hspan₂ := (TemporalStatistics.updateWindow_length hwindow).2.2 ▸ hspan₁
    exact ⟨(TemporalStatistics.updateData_window hdata).1 ▸ hspan₂,
      ((h.emit hemit).next hcal hspan₁ (h.emitted_length hemit) hwindow).update hread hdata⟩

end InWindows

def messagesOf (A : KeyedAction) (k : String) (msgs : List Message) : List Message :=
  msgs.filter fun msg => A.key msg = some k

/-- The statistics of a field with the windows that messages of this field have led to. -/
def Known (conf : Config) (ts : TemporalStatistics ctx) (l : Timeline) (msgs : List Message) :
    Prop :=
  ∃ (msg : Message) (rest : List Message) (first : StatisticsConfiguration ctx.arithmetic),
    msgs = msg :: rest ∧ Read conf msg first ∧ 1 ≤ ts.periodUpdater.span ∧
      InWindows conf (first.curr - 3600 * first.timespan.getD 0) ts l ∧ l.Accounts msgs

namespace Known

variable {ts ts₁ : TemporalStatistics ctx} {l : Timeline} {msgs : List Message} {msg : Message}
  {cfg : StatisticsConfiguration ctx.arithmetic} {out : List Message}

theorem first (hcal : ctx.calendar.IsGregorian) (hread : Read conf msg cfg)
    (hmake : TemporalStatistics.make conf cfg msg = .ok ts)
    (hprocess : (ts.process conf cfg msg).Returns (ts₁, out)) :
    Known conf ts₁ (({} : Timeline).message ts cfg msg out) [msg] := by
  have hspan : 1 ≤ ts.periodUpdater.span := by
    obtain ⟨u, hu, ops, -, rfl⟩ := TemporalStatistics.make_eq_ok_iff.mp hmake
    exact makePeriodUpdater_pos hu
  obtain ⟨hspan₁, hwindows⟩ := (InWindows.made hcal hmake).message hcal hspan hread hprocess
  have hnone : ({} : Timeline).Accounts [] := ⟨List.Sublist.refl [], List.Perm.refl []⟩
  exact ⟨msg, [], cfg, rfl, hread, hspan₁, hwindows, hnone.message ts cfg msg out⟩

variable (h : Known conf ts l msgs)

include h

theorem message (hcal : ctx.calendar.IsGregorian) (hread : Read conf msg cfg)
    (hprocess : (ts.process conf cfg msg).Returns (ts₁, out)) :
    Known conf ts₁ (l.message ts cfg msg out) (msgs ++ [msg]) := by
  obtain ⟨m, rest, first, rfl, hfirst, hspan, hwindows, haccounts⟩ := h
  obtain ⟨hspan₁, hwindows₁⟩ := hwindows.message hcal hspan hread hprocess
  exact ⟨m, rest ++ [msg], first, rfl, hfirst, hspan₁, hwindows₁,
    haccounts.message ts cfg msg out⟩

theorem lastStep {src dst : Peer} (hemit : (ts.emitStatistics conf src dst).Returns (ts₁, out)) :
    Known conf ts₁ (l.lastStep out) msgs := by
  obtain ⟨m, rest, first, rfl, hfirst, hspan, hwindows, haccounts⟩ := h
  exact ⟨m, rest, first, rfl, hfirst,
    (TemporalStatistics.emitStatistics_window hemit).2 ▸ hspan, hwindows.lastStep hemit,
    haccounts.sublist, haccounts.perm⟩

end Known

namespace StatisticsAction

variable {io : RestartIO ctx} {a a₁ : StatisticsAction ctx io} {msg : Message} {k : String}
  {msgs : List Message} {l l₁ : Timeline}

/-- The windows of the field `k` after a message to the action, with what the action emits. -/
def timelineStep (conf : Config) (k : String) (a : StatisticsAction ctx io) (l : Timeline)
    (msg : Message) : Timeline :=
  if (keyed io conf).key msg = some k then
    match StatisticsConfiguration.make ctx conf.opt msg.metadata msg.source with
    | .error _ => l
    | .ok cfg =>
      match a.found conf cfg msg with
      | .error _ => l
      | .ok ts => l.message ts cfg msg (a.executeImpl conf msg).state.2
  else if isLastStep ctx msg ∧ (a.fieldStats.find? k).isSome then
    l.lastStep ((keyed io conf).answer a msg k).messages
  else l

/-- A message that is not refused, with the windows of the field `k` written down. -/
def recordStep (conf : Config) (k : String) :
    StatisticsAction ctx io × Timeline → Message → Option (StatisticsAction ctx io × Timeline)
  | (a, l), msg => ((keyed io conf).accept a msg).map fun a₁ => (a₁, timelineStep conf k a l msg)

theorem recordStep_eq_some_iff :
    recordStep conf k (a, l) msg = some (a₁, l₁) ↔
      (keyed io conf).accept a msg = some a₁ ∧ timelineStep conf k a l msg = l₁ := by
  refine Iff.trans Option.map_eq_some_iff ?_
  constructor
  · rintro ⟨a₂, haccept, heq⟩
    obtain ⟨rfl, hl⟩ := Prod.mk.inj heq
    exact ⟨haccept, hl⟩
  · rintro ⟨haccept, rfl⟩
    exact ⟨a₁, haccept, rfl⟩

theorem exists_record (hrun : runOn (keyed io conf).accept a msgs = some a₁) :
    ∃ l₁, runOn (recordStep conf k) (a, l) msgs = some (a₁, l₁) := by
  induction msgs using List.reverseRecOn generalizing a₁ with
  | nil =>
    obtain rfl := Option.some.inj hrun
    exact ⟨l, rfl⟩
  | append_singleton msgs msg ih =>
    obtain ⟨a₂, hrun₂, haccept⟩ := runOn_concat_eq_some_iff.mp hrun
    obtain ⟨l₂, hl₂⟩ := ih hrun₂
    exact ⟨_, runOn_concat_eq_some_iff.mpr
      ⟨(a₂, l₂), hl₂, recordStep_eq_some_iff.mpr ⟨haccept, rfl⟩⟩⟩

/-- The field is known by its messages and its windows, and has statistics if there are any. -/
structure Traced (conf : Config) (k : String) (s : StatisticsAction ctx io × Timeline)
    (msgs : List Message) : Prop where
  absent : s.1.fieldStats.find? k = none →
    s.2 = {} ∧ messagesOf (keyed io conf) k msgs = []
  known : ∀ ts, s.1.fieldStats.find? k = some ts →
    Known conf ts s.2 (messagesOf (keyed io conf) k msgs)

theorem messagesOf_concat_self {A : KeyedAction} (msgs : List Message) (hkey : A.key msg = some k) :
    messagesOf A k (msgs ++ [msg]) = messagesOf A k msgs ++ [msg] := by
  simp [messagesOf, List.filter_append, hkey]

theorem messagesOf_concat_ne {A : KeyedAction} (msgs : List Message) (hkey : A.key msg ≠ some k) :
    messagesOf A k (msgs ++ [msg]) = messagesOf A k msgs := by
  simp [messagesOf, List.filter_append, hkey]

theorem Traced.own (hcal : ctx.calendar.IsGregorian) (hread : conf.opt.readRestart = false)
    (h : Traced conf k (a, l) msgs) (hkey : (keyed io conf).key msg = some k)
    (ha : (keyed io conf).accept a msg = some a₁) :
    Traced conf k (a₁, timelineStep conf k a l msg) (msgs ++ [msg]) := by
  obtain ⟨out, hret⟩ := keyed_accept_iff.mp ha
  obtain ⟨htag, cfg, hcfg, rfl⟩ := fieldKey_eq_some_iff.mp hkey
  obtain ⟨ts₀, ts₁, hfound, hprocess, -, hstats⟩ := executeImpl_field_returns htag hcfg hret
  have htimeline : timelineStep conf cfg.key a l msg = l.message ts₀ cfg msg out := by
    unfold timelineStep
    rw [if_pos hkey, hcfg]
    simp only []
    rw [hfound, (Outcome.returns_iff.mp hret).2]
  have hfind : a₁.fieldStats.find? cfg.key = some ts₁ := by
    rw [hstats, OrderedMap.find?_insert, if_pos rfl]
  rw [htimeline]
  refine ⟨fun hnone => absurd (hfind.symm.trans hnone) (Option.some_ne_none ts₁), fun ts hts => ?_⟩
  obtain rfl := Option.some.inj (hfind.symm.trans hts)
  rw [messagesOf_concat_self msgs hkey]
  unfold found findOrMake at hfound
  simp only [hread, Bool.false_eq_true, false_and, if_false] at hfound
  cases hbefore : a.fieldStats.find? cfg.key with
  | some ts =>
    rw [hbefore] at hfound
    obtain rfl := Except.ok.inj hfound
    exact (h.known _ hbefore).message hcal hcfg hprocess
  | none =>
    rw [hbefore] at hfound
    obtain ⟨rfl, hmsgs⟩ := h.absent hbefore
    rw [hmsgs]
    exact .first hcal hcfg hfound hprocess

/-- A message that is not of the field: one of another field, a flush, or any other one. -/
theorem Traced.other (h : Traced conf k (a, l) msgs) (hkey : (keyed io conf).key msg ≠ some k)
    (ha : (keyed io conf).accept a msg = some a₁) :
    Traced conf k (a₁, timelineStep conf k a l msg) (msgs ++ [msg]) := by
  have hlawful : (keyed io conf).Lawful := keyed_lawful
  have hmsgs := messagesOf_concat_ne msgs hkey
  unfold timelineStep
  rw [if_neg hkey]
  -- a last step emits for this field too; any other message leaves it alone
  by_cases hlast : isLastStep ctx msg = true
  · have htag : msg.tag = .flush := (of_decide_eq_true hlast).1
    obtain ⟨out, hret⟩ := keyed_accept_iff.mp ha
    obtain ⟨hstats, -, -, -, hreturn⟩ := executeImpl_flush_returns htag hret
    refine ⟨fun hnone => ?_, fun ts hts => ?_⟩
    · have hbefore := Option.map_eq_none_iff.mp ((hstats k).symm.trans hnone)
      rw [hbefore, if_neg fun hsome => Bool.false_ne_true hsome.2, hmsgs]
      exact h.absent hbefore
    · obtain ⟨ts₀, hbefore, rfl⟩ := Option.map_eq_some_iff.mp ((hstats k).symm.trans hts)
      have hanswer : ((keyed io conf).answer a msg k).messages =
          (ts₀.emitStatistics conf msg.source msg.destination).state.2 := by
        rw [keyed_answer_messages (htag ▸ by decide), hbefore]
        exact if_pos hlast
      have hafter : (keyed io conf).after msg ts₀ =
          (ts₀.emitStatistics conf msg.source msg.destination).state.1 := if_pos hlast
      rw [hbefore, if_pos ⟨hlast, rfl⟩, hmsgs, hanswer, hafter]
      exact (h.known ts₀ hbefore).lastStep (Outcome.returns_iff.mpr
        ⟨hreturn hlast _ (OrderedMap.find?_eq_some_iff.mp hbefore), rfl⟩)
  · have hsame : a₁.fieldStats.find? k = a.fieldStats.find? k := by
      by_cases htag : msg.tag = .field
      · exact hlawful.frame htag hkey ha
      · refine ((hlawful.rest htag ha).1 k).trans ?_
        change (a.fieldStats.find? k).map ((keyed io conf).after msg) = _
        rw [show (keyed io conf).after msg = id from funext fun ts => if_neg hlast, Option.map_id]
        rfl
    rw [if_neg fun hsome => hlast hsome.1]
    exact ⟨fun hnone => hmsgs ▸ h.absent (hsame ▸ hnone), fun ts hts => hmsgs ▸ h.known ts
      (hsame ▸ hts)⟩

/-- In every run without restarts to read, the windows of each field, as they are written down along
the run, follow each other from the time of its first message on, and its messages lie in the
windows that they are accumulated in. -/
theorem windows_partition (hcal : ctx.calendar.IsGregorian) (hread : conf.opt.readRestart = false)
    {disk : LinkedFolders io.Field} (hrun : runOn (keyed io conf).accept { disk } msgs = some a)
    {ts : TemporalStatistics ctx} (hts : a.fieldStats.find? k = some ts) :
    ∃ (l : Timeline) (msg : Message) (rest : List Message)
      (first : StatisticsConfiguration ctx.arithmetic),
      runOn (recordStep conf k) ({ disk }, {}) msgs = some (a, l) ∧
      messagesOf (keyed io conf) k msgs = msg :: rest ∧ Read conf msg first ∧
      InWindows conf (first.curr - 3600 * first.timespan.getD 0) ts l ∧
      (∀ i j m, InWindow ctx conf ts.periodUpdater (first.curr - 3600 * first.timespan.getD 0) i m →
        InWindow ctx conf ts.periodUpdater (first.curr - 3600 * first.timespan.getD 0) j m →
          i = j) ∧
      l.Accounts (messagesOf (keyed io conf) k msgs) ∧
      (ts.periodUpdater.Counted → ∀ t j, ts.periodUpdater.updateWinEndTime64 ctx.calendar
        (ts.periodUpdater.windowStart ctx.calendar t j) =
          .ok (ts.periodUpdater.windowStart ctx.calendar t (j + 1))) := by
  obtain ⟨l, hl⟩ := exists_record (k := k) (l := {}) hrun
  have htraced : Traced conf k (a, l) msgs := by
    refine runOn_invariant
      (I := fun msgs (s : StatisticsAction ctx io × Timeline) => Traced conf k s msgs)
      ⟨fun _ => ⟨rfl, rfl⟩, fun ts hnone => ?_⟩ (fun msgs msg s s₁ h hstep => ?_) hl
    · exact nomatch (show none = some ts from hnone)
    · obtain ⟨a, l⟩ := s
      obtain ⟨a₁, l₁⟩ := s₁
      obtain ⟨ha, rfl⟩ := recordStep_eq_some_iff.mp hstep
      by_cases hkey : (keyed io conf).key msg = some k
      · exact Traced.own hcal hread h hkey ha
      · exact Traced.other h hkey ha
  obtain ⟨msg, rest, first, hmsgs, hfirst, hspan, hwindows, haccounts⟩ := htraced.known ts hts
  refine ⟨l, msg, rest, first, hl, hmsgs, hfirst, hwindows,
    fun i j m hi hj => hi.unique hcal hspan hj, haccounts, fun hcounted t j => ?_⟩
  exact ts.periodUpdater.updateWinEndTime64_windowStart hcal hspan hcounted t j

/-- A first value, one of the first day that comes twice, a last step, and one of the next day. -/
def dailyMessages : List Message :=
  [hourlyField 0 [] [1], hourlyField 1 [] [2], hourlyField 1 [] [2],
    { header :=
        { tag := .flush
          source := {}
          destination := {}
          metadata := { bucketCount := 541, nodes := [("flushKind", .string "last-step")] } } },
    hourlyField 25 [] [3]]

theorem windows_partition_daily : ∃ (a : StatisticsAction _ noFiles) (l : Timeline)
    (ts : TemporalStatistics _) (msg : Message) (rest : List Message)
    (first : StatisticsConfiguration exactArithmetic),
    runOn (keyed noFiles (daily ["average"])).accept {} dailyMessages = some a ∧
      a.fieldStats.find? "130-0-sfc-O320-double-null_18446744073709551615" = some ts ∧
      runOn (recordStep (daily ["average"]) "130-0-sfc-O320-double-null_18446744073709551615")
        ({}, {}) dailyMessages = some (a, l) ∧
      messagesOf (keyed noFiles (daily ["average"]))
        "130-0-sfc-O320-double-null_18446744073709551615" dailyMessages = msg :: rest ∧
      InWindows (daily ["average"]) (first.curr - 3600 * first.timespan.getD 0) ts l ∧
      (l.closed.map fun window => window.1.length) = [1] ∧ l.inputs.length = 1 ∧
      l.ignored.length = 2 ∧ (l.parts.map fun part => part.1.length) = [1] := by
  let start : StatisticsAction _ noFiles := {}
  let conf := daily ["average"]
  let key := "130-0-sfc-O320-double-null_18446744073709551615"
  have hruns : (runOn (keyed noFiles conf).accept start dailyMessages).isSome = true ∧
      ((runOn (keyed noFiles conf).accept start dailyMessages).bind fun a =>
        (keyed noFiles conf).stats a key).isSome = true := by
    decide +kernel
  have hrecord : (runOn (recordStep conf key) (start, {}) dailyMessages).map
      (fun s => (s.2.closed.map fun window => window.1.length, s.2.inputs.length,
        s.2.ignored.length, s.2.parts.map fun part => part.1.length)) =
      some ([1], 1, 2, [1]) := by
    decide +kernel
  obtain ⟨ha, hts⟩ := hruns
  obtain ⟨a, ha⟩ := Option.isSome_iff_exists.mp ha
  rw [ha] at hts
  obtain ⟨ts, hts⟩ : ∃ ts, a.fieldStats.find? key = some ts := Option.isSome_iff_exists.mp hts
  obtain ⟨l, msg, rest, first, hl, hmsgs, -, hwindows, -⟩ :=
    windows_partition Calendar.gregorian_isGregorian rfl ha hts
  rw [hl] at hrecord
  simp only [Option.map_some, Option.some.injEq, Prod.mk.injEq] at hrecord
  exact ⟨a, l, ts, msg, rest, first, ha, hts, hl, hmsgs, hwindows, hrecord⟩

end StatisticsAction
end Multio.StatisticsMtg2
