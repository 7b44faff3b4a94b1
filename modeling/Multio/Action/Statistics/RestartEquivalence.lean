import Multio.Action.Statistics.RestartRoundTrip
import Multio.Action.Statistics.WordContext

namespace Multio.Statistics
open Lib StatisticsMtg2 Exception
open OperationRestart (Sized fileName restartFileName precisionName)

structure Kept {A : FloatArithmetic} (op op' : Operation A) : Prop where
  kind : op'.kind = op.kind
  precision : op'.precision = op.precision
  sized : Sized op → Sized op'

namespace Kept

variable {A : FloatArithmetic} {op op' op'' : Operation A}

theorem refl (op : Operation A) : Kept op op := ⟨rfl, rfl, id⟩

theorem trans (h : Kept op op') (h' : Kept op' op'') : Kept op op'' :=
  ⟨h'.kind.trans h.kind, h'.precision.trans h.precision, fun hs => h'.sized (h.sized hs)⟩

theorem values (h : op.kind.deaccumulated = false) (values : List (A.Real op.precision)) :
    Kept op { op with values } := by
  refine ⟨rfl, rfl, fun hs => ?_⟩
  unfold Sized at hs ⊢
  rwa [h] at hs ⊢

theorem sameLength {values : List (A.Real op.precision)} (h : values.length = op.values.length) :
    Kept op { op with values } := by
  refine ⟨rfl, rfl, fun hs => ?_⟩
  unfold Sized at hs ⊢
  simp only [h]
  exact hs

theorem deaccumulated {initValues values : List (A.Real op.precision)}
    (hkind : op.kind.deaccumulated = true) (h : initValues.length = values.length) :
    Kept op { op with initValues, values } := by
  refine ⟨rfl, rfl, fun _ => ?_⟩
  unfold Sized
  rw [if_pos hkind]
  exact h

end Kept

namespace Operation

variable {ctx : StatisticsContext} {opt : StatisticsOptions}
  {cfg : StatisticsConfiguration ctx.arithmetic} {payload : List UInt8}
  {op op' : Operation ctx.arithmetic}

theorem kept_updateValues {mode : UpdateMode ctx.arithmetic} {count : ℤ} {counts : List ℤ}
    {val : List (ctx.arithmetic.Real op.precision)} (hval : val.length = op.values.length) :
    Kept op (op.updateValues mode count counts val) := by
  by_cases hkind : op.kind.deaccumulated = true
  · have hlast : op.updateValues mode count counts val = { op with values := val } := by
      unfold updateValues
      split <;> first | rfl | (rename_i h; rw [h] at hkind; cases hkind)
    rw [hlast]
    exact Kept.sameLength hval
  · rw [Bool.not_eq_true] at hkind
    unfold updateValues
    split <;> exact Kept.values hkind _

theorem kept_updateData (hA : Lawful ctx.arithmetic) {win win' : OperationWindow}
    (h : op.updateData ctx opt cfg payload win = .ok (win', op')) : Kept op op' := by
  unfold updateData at h
  simp only [bind_eq_ok_iff] at h
  obtain ⟨_, hsize, win'', -, hop⟩ := h
  obtain ⟨-, rfl⟩ := Prod.mk.inj (Except.ok.inj hop)
  apply kept_updateValues
  rw [hA.elements_length]
  unfold checkSize at hsize
  split_ifs at hsize with hlength
  exact hlength.symm

theorem kept_restartFrom (hA : Lawful ctx.arithmetic) (hkind : op.kind.deaccumulated = true)
    (h : op.restartFrom ctx opt cfg payload = .ok op') : Kept op op' := by
  unfold restartFrom at h
  rw [bind_eq_ok_iff] at h
  obtain ⟨_, hsize, hop⟩ := h
  unfold checkSize at hsize
  split_ifs at hsize with hlength
  split_ifs at hop with hreset
  · obtain rfl := Except.ok.inj hop
    refine ⟨rfl, rfl, fun hs => ?_⟩
    unfold Sized at hs ⊢
    rw [if_pos hkind] at hs ⊢
    rw [length_zeros, length_zeros, hs]
  · obtain rfl := Except.ok.inj hop
    apply Kept.deaccumulated hkind
    rw [hA.elements_length, length_zeros, hlength]

theorem kept_updateWindow (hA : Lawful ctx.arithmetic)
    (h : op.updateWindow ctx opt cfg payload = .ok op') : Kept op op' := by
  unfold updateWindow at h
  split_ifs at h with hkind
  · exact kept_restartFrom hA hkind h
  · obtain rfl := Except.ok.inj h
    exact Kept.values ((Bool.not_eq_true _).mp hkind) _

theorem kept_initData (hA : Lawful ctx.arithmetic) (h : op.initData ctx opt cfg payload = .ok op') :
    Kept op op' := by
  unfold initData at h
  split_ifs at h with hkind
  · exact kept_restartFrom hA hkind h
  · obtain rfl := Except.ok.inj h
    exact Kept.refl op

theorem kept_init (op : Operation ctx.arithmetic) : Kept op (op.init ctx) := by
  unfold init
  split_ifs with hkind
  · refine ⟨rfl, rfl, fun hs => ?_⟩
    unfold Sized at hs ⊢
    rw [if_pos hkind] at hs ⊢
    rw [length_zeros, length_zeros, hs]
  · exact Kept.refl op

theorem sized_make (A : FloatArithmetic) (kind : OperationKind) (p : PrecisionTag) (sz : ℕ) :
    Sized (make A kind p sz) := by
  unfold Sized make
  simp only [List.length_replicate]
  split_ifs
  · exact List.length_replicate
  · rfl

end Operation
namespace TemporalStatistics

variable {ctx : StatisticsContext} {conf : Config} {cfg : StatisticsConfiguration ctx.arithmetic}
  {ts ts' : TemporalStatistics ctx} {out : List Message} {outs : List (List Message)}

def execute (conf : Config) (ts : TemporalStatistics ctx) (msg : Message) :
    Except Exception (TemporalStatistics ctx × List Message) := do
  let cfg ← StatisticsConfiguration.make ctx conf.opt msg.metadata msg.source
  ts.process conf cfg msg

def runField (conf : Config) : TemporalStatistics ctx → List Message →
    Except Exception (TemporalStatistics ctx × List (List Message))
  | ts, [] => .ok (ts, [])
  | ts, msg :: msgs => do
    let (ts, out) ← ts.execute conf msg
    let (ts, outs) ← runField conf ts msgs
    .ok (ts, out :: outs)

def start (conf : Config) (msg : Message) (msgs : List Message) :
    Except Exception (TemporalStatistics ctx × List (List Message)) := do
  let cfg ← StatisticsConfiguration.make ctx conf.opt msg.metadata msg.source
  let ts ← make conf cfg msg
  ts.runField conf (msg :: msgs)

theorem kept_updateOperations (hA : Lawful ctx.arithmetic) {payload : List UInt8}
    {win win' : OperationWindow} {ops ops' : List (Operation ctx.arithmetic)}
    (h : updateOperations conf.opt cfg payload win ops = .ok (win', ops')) :
    List.Forall₂ Kept ops ops' := by
  induction ops generalizing win ops' with
  | nil =>
    obtain ⟨-, rfl⟩ := Prod.mk.inj (Except.ok.inj h)
    exact List.Forall₂.nil
  | cons op ops ih =>
    unfold updateOperations at h
    rw [bind_eq_ok_iff] at h
    obtain ⟨⟨win'', op'⟩, hop, h⟩ := h
    rw [bind_eq_ok_iff] at h
    obtain ⟨⟨winLast, ops''⟩, hops, h⟩ := h
    obtain ⟨rfl, rfl⟩ := Prod.mk.inj (Except.ok.inj h)
    exact List.Forall₂.cons (Operation.kept_updateData hA hop) (ih hops)

theorem kept_updateData (hA : Lawful ctx.arithmetic) {payload : List UInt8}
    (h : ts.updateData conf cfg payload = .ok ts') :
    List.Forall₂ Kept ts.statistics ts'.statistics := by
  unfold updateData at h
  rw [bind_eq_ok_iff] at h
  obtain ⟨win, -, h⟩ := h
  rw [bind_eq_ok_iff] at h
  obtain ⟨⟨win', ops⟩, hops, h⟩ := h
  obtain rfl := Except.ok.inj h
  exact kept_updateOperations hA hops

theorem kept_updateWindow (hA : Lawful ctx.arithmetic) {payload : List UInt8}
    (h : ts.updateWindow conf cfg payload = .ok ts') :
    List.Forall₂ Kept ts.statistics ts'.statistics := by
  unfold updateWindow at h
  simp only [] at h
  rw [bind_eq_ok_iff] at h
  obtain ⟨ops, hops, h⟩ := h
  obtain rfl := Except.ok.inj h
  rw [mapM_eq_ok_iff] at hops
  exact hops.imp fun op op' hop => Operation.kept_updateWindow hA hop

theorem kept_refl (ops : List (Operation ctx.arithmetic)) : List.Forall₂ Kept ops ops :=
  List.forall₂_same.mpr fun op _ => Kept.refl op

theorem kept_trans {ops ops' ops'' : List (Operation ctx.arithmetic)}
    (h : List.Forall₂ Kept ops ops') (h' : List.Forall₂ Kept ops' ops'') :
    List.Forall₂ Kept ops ops'' := by
  induction h generalizing ops'' with
  | nil => exact h'
  | cons hop hops ih =>
    cases h' with
    | cons hop' hops' => exact List.Forall₂.cons (hop.trans hop') (ih hops')

theorem forall_of_kept {ops ops' : List (Operation ctx.arithmetic)}
    (h : List.Forall₂ Kept ops ops') {P : Operation ctx.arithmetic → Prop}
    (hkept : ∀ op op', Kept op op' → P op → P op') (hops : ∀ op ∈ ops, P op) :
    ∀ op ∈ ops', P op := by
  induction h with
  | nil => exact hops
  | cons hop hrest ih =>
    rw [List.forall_mem_cons] at hops ⊢
    exact ⟨hkept _ _ hop hops.1, ih hops.2⟩

theorem kept_process (hA : Lawful ctx.arithmetic) {msg : Message}
    (h : ts.process conf cfg msg = .ok (ts', out)) :
    List.Forall₂ Kept ts.statistics ts'.statistics := by
  unfold process at h
  split_ifs at h with hinit hlate
  · obtain ⟨rfl, -⟩ := Prod.mk.inj (Except.ok.inj h)
    exact kept_refl _
  · rw [bind_eq_ok_iff] at h
    obtain ⟨upd, hupd, h⟩ := h
    apply kept_trans (kept_updateData hA hupd)
    unfold closeWindow at h
    split_ifs at h with hend
    · rw [bind_eq_ok_iff] at h
      obtain ⟨out', -, h⟩ := h
      rw [bind_eq_ok_iff] at h
      obtain ⟨ts'', hts, h⟩ := h
      obtain ⟨rfl, -⟩ := Prod.mk.inj (Except.ok.inj h)
      exact kept_updateWindow hA hts
    · obtain ⟨rfl, -⟩ := Prod.mk.inj (Except.ok.inj h)
      exact kept_refl _

theorem kept_runField (hA : Lawful ctx.arithmetic) {msgs : List Message}
    (h : ts.runField conf msgs = .ok (ts', outs)) :
    List.Forall₂ Kept ts.statistics ts'.statistics := by
  induction msgs generalizing ts outs with
  | nil =>
    obtain ⟨rfl, -⟩ := Prod.mk.inj (Except.ok.inj h)
    exact kept_refl _
  | cons msg msgs ih =>
    unfold runField at h
    rw [bind_eq_ok_iff] at h
    obtain ⟨⟨ts'', out⟩, hmsg, h⟩ := h
    rw [bind_eq_ok_iff] at h
    obtain ⟨⟨tsLast, outs'⟩, hmsgs, h⟩ := h
    obtain ⟨rfl, -⟩ := Prod.mk.inj (Except.ok.inj h)
    unfold execute at hmsg
    rw [bind_eq_ok_iff] at hmsg
    obtain ⟨cfg, -, hprocess⟩ := hmsg
    exact kept_trans (kept_process hA hprocess) (ih hmsgs)

/-- The statistics have the operations that are configured, in their order. -/
structure Configured (p : PrecisionTag) (operations : List String) (ts : TemporalStatistics ctx) :
    Prop where
  names : ts.statistics.map (fun op => op.kind.name) = operations
  precision : ∀ op ∈ ts.statistics, op.precision = p
  sized : ∀ op ∈ ts.statistics, Sized op

theorem Configured.of_kept {p : PrecisionTag} {operations : List String}
    (h : ts.Configured p operations) (hkept : List.Forall₂ Kept ts.statistics ts'.statistics) :
    ts'.Configured p operations := by
  obtain ⟨hnames, hprecision, hsized⟩ := h
  constructor
  · rw [← hnames, eq_comm, ← List.forall₂_eq_eq_eq, List.forall₂_map_left_iff,
      List.forall₂_map_right_iff]
    exact hkept.imp fun op op' hop => by rw [hop.kind]
  · exact forall_of_kept hkept (fun _ _ hop hp => hop.precision.trans hp) hprecision
  · exact forall_of_kept hkept (fun _ _ hop => hop.sized) hsized

theorem Configured.make (hA : Lawful ctx.arithmetic) {msg : Message} {p : PrecisionTag}
    (hp : msg.precision ctx.toContext = .ok p) (h : make conf cfg msg = .ok ts) :
    ts.Configured p conf.operations := by
  unfold TemporalStatistics.make makeOperations at h
  rw [bind_eq_ok_iff] at h
  obtain ⟨u, -, h⟩ := h
  rw [hp, ok_bind, bind_eq_ok_iff] at h
  obtain ⟨ops, hops, h⟩ := h
  obtain rfl := Except.ok.inj h
  rw [mapM_eq_ok_iff] at hops
  have hmade (opname : String) (op : Operation ctx.arithmetic)
      (hop : makeOperation conf.opt cfg p msg.payload opname = .ok op) :
      opname = op.kind.name ∧ op.precision = p ∧ Sized op := by
    unfold makeOperation at hop
    rw [bind_eq_ok_iff] at hop
    obtain ⟨kind, hkind, hop⟩ := hop
    have hname := OperationKind.name_of_ofName hkind
    have hsized := Operation.sized_make ctx.arithmetic kind p msg.payload.length
    have hkept : Kept (Operation.make ctx.arithmetic kind p msg.payload.length) op := by
      simp only [] at hop
      split_ifs at hop
      · exact Operation.kept_initData hA hop
      · obtain rfl := Except.ok.inj hop
        exact Operation.kept_init _
    exact ⟨hname.symm.trans (congrArg OperationKind.name hkept.kind).symm, hkept.precision,
      hkept.sized hsized⟩
  obtain ⟨hall, hnames⟩ : (∀ op ∈ ops, op.precision = p ∧ Sized op) ∧
      List.Forall₂ (fun op opname => op.kind.name = opname) ops conf.operations :=
    (List.forall₂_and_left _ _).mp ((hops.imp hmade).flip.imp fun _ _ h => ⟨h.2, h.1.symm⟩)
  refine ⟨?_, fun op hop => (hall op hop).1, fun op hop => (hall op hop).2⟩
  rwa [← List.forall₂_eq_eq_eq, List.forall₂_map_left_iff]

theorem Configured.start (hA : Lawful ctx.arithmetic) {msg : Message} {msgs : List Message}
    {p : PrecisionTag} (hp : msg.precision ctx.toContext = .ok p)
    (h : start conf msg msgs = .ok (ts, outs)) : ts.Configured p conf.operations := by
  unfold TemporalStatistics.start at h
  rw [bind_eq_ok_iff] at h
  obtain ⟨cfg, -, h⟩ := h
  rw [bind_eq_ok_iff] at h
  obtain ⟨ts₀, hts₀, h⟩ := h
  exact (Configured.make hA hp hts₀).of_kept (kept_runField hA h)

/-- The names of the operations are accepted by the regular expression, no two are the same, and
their files are listed in the order of the operations. -/
structure Restartable (lib : RestartLibrary) (p : PrecisionTag) (operations : List String) : Prop where
  hyphenless : ∀ opname ∈ operations, '-' ∉ opname.toList
  nodup : operations.Nodup
  listed : lib.listing (operations.map fun opname => opname ++ "_" ++ precisionName p) =
    operations.map fun opname => opname ++ "_" ++ precisionName p

theorem fileName_injective (p : PrecisionTag) :
    Function.Injective fun opname : String => opname ++ "_" ++ precisionName p := by
  intro s s' h
  have htoList := congrArg String.toList h
  simp only [String.toList_append, List.append_assoc, List.append_cancel_right_eq] at htoList
  exact String.toList_inj.mp htoList

theorem Configured.fileNames {p : PrecisionTag} {operations : List String}
    (h : ts.Configured p operations) :
    ts.statistics.map fileName = operations.map fun opname => opname ++ "_" ++ precisionName p := by
  rw [← h.names, List.map_map]
  apply List.map_congr_left
  intro op hop
  rw [fileName, restartFileName, h.precision op hop]
  rfl

variable {lib : RestartLibrary}

/-- An `int` counts the words of each file of a field. -/
structure Countable (ts : TemporalStatistics ctx) : Prop where
  window : (WindowRestart.serialize ctx ts.window).length < 2 ^ 31
  operations : ∀ op ∈ ts.statistics, (OperationRestart.serialize op).length < 2 ^ 31

section

variable (hA : Lawful ctx.arithmetic) (hcal : ctx.calendar.IsGregorian)
  (hlib : lib.Lawful ctx.calendar) (hdated : WindowRestart.Dated ctx ts.window)

include hcal hlib hdated

theorem exists_dump_iff : (∃ dir, ts.dump = .ok dir) ↔ ts.Countable := by
  obtain ⟨files, hperiod, -⟩ := PeriodRestart.load_dump hlib ts.periodUpdater
  have hwindow := (WindowRestart.load_dump hlib hcal hdated).1
  unfold dump
  rw [hperiod, ok_bind]
  constructor
  · rintro ⟨dir, hdir⟩
    obtain ⟨operationWindow, hdumped, hdir⟩ := bind_eq_ok_iff.mp hdir
    obtain ⟨operations, hoperations, -⟩ := bind_eq_ok_iff.mp hdir
    exact ⟨hwindow.mpr ⟨_, hdumped⟩, (OperationRestart.foldlM_dump_eq_ok_iff.mp hoperations).1⟩
  · rintro ⟨hwords, hoperations⟩
    obtain ⟨operationWindow, hdumped⟩ := hwindow.mp hwords
    rw [hdumped, ok_bind, OperationRestart.foldlM_dump_eq_ok_iff.mpr ⟨hoperations, rfl⟩]
    exact ⟨_, rfl⟩

include hA in
/-- Of what has been dumped, the same statistics are loaded if the operations are restartable. -/
theorem Configured.load_eq_ok_iff {p : PrecisionTag} {operations : List String}
    (h : ts.Configured p operations) {dir : FieldRestart} (hdir : ts.dump = .ok dir) :
    load lib dir = .ok ts ↔ Restartable lib p operations := by
  have hcountable := (exists_dump_iff hcal hlib hdated).mp ⟨dir, hdir⟩
  obtain ⟨files, hperiod, hloaded⟩ := PeriodRestart.load_dump hlib ts.periodUpdater
  unfold dump at hdir
  rw [hperiod, ok_bind] at hdir
  obtain ⟨operationWindow, hwindow, hdir⟩ := bind_eq_ok_iff.mp hdir
  obtain ⟨files', hoperations, hdir⟩ := bind_eq_ok_iff.mp hdir
  obtain rfl := Except.ok.inj hdir
  obtain ⟨-, rfl⟩ := OperationRestart.foldlM_dump_eq_ok_iff.mp hoperations
  -- the period and the window always come back, so it is a matter of the operations
  have hload : load lib (.mk files operationWindow
      (ts.statistics.foldl OperationRestart.addFile [])) = .ok ts ↔
      (lib.listing ((ts.statistics.foldl OperationRestart.addFile []).map Prod.fst)).mapM
        (OperationRestart.load ctx.arithmetic (ts.statistics.foldl OperationRestart.addFile [])) =
          .ok ts.statistics := by
    unfold load
    rw [hloaded, ok_bind, (WindowRestart.load_dump hlib hcal hdated).2 _ hwindow, ok_bind,
      bind_eq_ok_iff]
    constructor
    · rintro ⟨ops, hops, hts⟩
      rw [hops, ← congrArg statistics (Except.ok.inj hts)]
    · intro hops
      exact ⟨ts.statistics, hops, rfl⟩
  rw [hload, OperationRestart.load_dump_iff hA hlib h.sized hcountable.operations, h.fileNames,
    List.nodup_map_iff (fileName_injective p)]
  constructor
  · rintro ⟨hplain, hnodup, hlisted⟩
    refine ⟨?_, hnodup, hlisted⟩
    intro opname hopname
    rw [← h.names] at hopname
    obtain ⟨op, hop, rfl⟩ := List.mem_map.mp hopname
    exact hplain op hop
  · rintro ⟨hplain, hnodup, hlisted⟩
    refine ⟨?_, hnodup, hlisted⟩
    intro op hop
    apply hplain
    rw [← h.names]
    exact List.mem_map.mpr ⟨op, hop, rfl⟩

include hA in
theorem Configured.load_dump_iff {p : PrecisionTag} {operations : List String}
    (h : ts.Configured p operations) :
    (ts.dump >>= load lib) = .ok ts ↔ ts.Countable ∧ Restartable lib p operations := by
  rw [bind_eq_ok_iff, ← exists_dump_iff hcal hlib hdated]
  constructor
  · rintro ⟨dir, hdir, hload⟩
    exact ⟨⟨dir, hdir⟩, (h.load_eq_ok_iff hA hcal hlib hdated hdir).mp hload⟩
  · rintro ⟨⟨dir, hdir⟩, hrestartable⟩
    exact ⟨dir, hdir, (h.load_eq_ok_iff hA hcal hlib hdated hdir).mpr hrestartable⟩

end

def sends (conf : Config) (ts : TemporalStatistics ctx) (suffix : List Message) :
    Except Exception (List (List Message)) := do
  let (_, outs) ← ts.runField conf suffix
  .ok outs

def sendsRestarted (lib : RestartLibrary) (conf : Config) (ts : TemporalStatistics ctx)
    (suffix : List Message) : Except Exception (List (List Message)) := do
  let loaded : TemporalStatistics ctx ← ts.dump >>= load lib
  sends conf loaded suffix

/-- A field is restarted as it was exactly if the words of its files can be counted and its
operations are restartable, and then what is sent for any further messages is what would have been
sent without the restart. -/
theorem restart_equivalence (hA : Lawful ctx.arithmetic) (hcal : ctx.calendar.IsGregorian)
    (hlib : lib.Lawful ctx.calendar) {msg : Message} {msgs : List Message} {p : PrecisionTag}
    (hp : msg.precision ctx.toContext = .ok p) (h : start conf msg msgs = .ok (ts, outs))
    (hdated : WindowRestart.Dated ctx ts.window) :
    ((ts.dump >>= load lib) = .ok ts ↔ ts.Countable ∧ Restartable lib p conf.operations) ∧
      (ts.Countable ∧ Restartable lib p conf.operations →
        ∀ suffix, sendsRestarted lib conf ts suffix = sends conf ts suffix) := by
  have hload := (Configured.start hA hp h).load_dump_iff hA hcal hlib hdated
  refine ⟨hload, fun hrestartable suffix => ?_⟩
  rw [sendsRestarted, hload.mpr hrestartable, ok_bind]

end TemporalStatistics

instance (ctx : StatisticsContext) (t : DateTime) : Decidable (FourDigits ctx t) :=
  inferInstanceAs (Decidable (_ ∧ _))

theorem orderedRestart_lawful : orderedRestart.Lawful wordContext.calendar where
  listing_perm _ := List.Perm.refl _
  makeDate_ok _ _ _ := rfl
  makeTime_ok _ _ _ := rfl

def twoHourlyOf (operations : List String) : Config where
  opt := { solverSendInitStep := true }
  operations
  outputFrequency := "2h"

open TemporalStatistics in
theorem restart_equivalence_three : ∃ ts outs,
    start (twoHourlyOf ["average", "minimum", "instant"]) (fieldMessage 0) [fieldMessage 1] = .ok (ts, outs) ∧
    ((ts.dump >>= load orderedRestart) = .ok ts ↔
      ts.Countable ∧ Restartable orderedRestart .double ["average", "minimum", "instant"]) ∧
    (ts.Countable ∧ Restartable orderedRestart .double ["average", "minimum", "instant"] →
      ∀ suffix,
      sendsRestarted orderedRestart (twoHourlyOf ["average", "minimum", "instant"])
        (ts : TemporalStatistics wordContext) suffix =
          sends (twoHourlyOf ["average", "minimum", "instant"]) ts suffix) := by
  obtain ⟨ts, outs, hstart, hdated⟩ : ∃ (ts : TemporalStatistics wordContext) (outs : _),
      start (twoHourlyOf ["average", "minimum", "instant"]) (fieldMessage 0) [fieldMessage 1] = .ok (ts, outs) ∧
        WindowRestart.Dated wordContext ts.window := by
    refine ⟨_, _, rfl, ?_⟩
    exact ⟨by decide, by decide, by decide, by decide, by decide, by decide, by decide⟩
  exact ⟨ts, outs, hstart, restart_equivalence wordArithmetic_lawful
    Calendar.gregorian_isGregorian orderedRestart_lawful rfl hstart hdated⟩

set_option maxRecDepth 4000 in
open TemporalStatistics in
/-- The file of an operation with a hyphen in its name is written but its name is not accepted. -/
theorem de_accumulate_not_restarted :
    ¬ ∀ (operations : List String) (msg : Message) (msgs suffix : List Message)
      (ts : TemporalStatistics wordContext) (outs : List (List Message)),
      start (twoHourlyOf operations) msg msgs = .ok (ts, outs) →
      WindowRestart.Dated wordContext ts.window →
      sendsRestarted orderedRestart (twoHourlyOf operations) ts suffix =
        sends (twoHourlyOf operations) ts suffix := by
  intro h
  obtain ⟨ts, outs, hstart, hdated⟩ : ∃ (ts : TemporalStatistics wordContext) (outs : _),
      start (twoHourlyOf ["de-accumulate"]) (fieldMessage 0) [fieldMessage 1] = .ok (ts, outs) ∧
        WindowRestart.Dated wordContext ts.window := by
    refine ⟨_, _, rfl, ?_⟩
    exact ⟨by decide, by decide, by decide, by decide, by decide, by decide, by decide⟩
  obtain ⟨e, hthrows⟩ : ∃ e, (do
      let (ts, _) ← start (twoHourlyOf ["de-accumulate"]) (fieldMessage 0) [fieldMessage 1]
      sendsRestarted orderedRestart (twoHourlyOf ["de-accumulate"])
        (ts : TemporalStatistics wordContext) [fieldMessage 2]) = .error e := ⟨_, rfl⟩
  obtain ⟨out, hsends⟩ : ∃ out, (do
      let (ts, _) ← start (twoHourlyOf ["de-accumulate"]) (fieldMessage 0) [fieldMessage 1]
      sends (twoHourlyOf ["de-accumulate"]) (ts : TemporalStatistics wordContext)
        [fieldMessage 2]) = .ok out := ⟨_, rfl⟩
  rw [hstart, ok_bind] at hthrows hsends
  simp only [] at hthrows hsends
  have hsame := h ["de-accumulate"] (fieldMessage 0) [fieldMessage 1] [fieldMessage 2] ts outs hstart
    hdated
  rw [hthrows, hsends] at hsame
  cases hsame

end Multio.Statistics
