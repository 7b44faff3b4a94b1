import Multio.Action.StatisticsMtg2.FieldSizes
import Multio.Action.StatisticsMtg2.OperationIndependence

namespace Multio.StatisticsMtg2
open Lib Exception

variable {ctx : StatisticsContext}

def PointsCounted {α : Type} (missing : Option α) (threshold : Option ℤ) : Prop :=
  missing.isSome = true ∧ threshold.isSome = true

section

variable {O K : Type} {ofName : String → Except Exception K} {kind : O → K} {usesCounters : K → Bool}
  {needed : Prop} {i : ℕ}

def NamedAlone (ofName : String → Except Exception K) (usesCounters : K → Bool)
    (operations : List String) (i : ℕ) : Prop :=
  ∀ j opname k, operations[j]? = some opname → j ≠ i → ofName opname = .ok k →
    usesCounters k = false

theorem namedAlone_singleton (opname : String) : NamedAlone ofName usesCounters [opname] 0 := by
  intro j name k hj hne
  cases j with
  | zero => exact absurd rfl hne
  | succ j => cases hj

/-- The operation at a place of a list, which is alone with its counters where they are needed. -/
structure PlaceAmong (kind : O → K) (usesCounters : K → Bool) (needed : Prop) (i : ℕ)
    (ops : List O) (op : O) : Prop where
  operation : ops[i]? = some op
  alone : needed → ∀ j k, (ops.map kind)[j]? = some k → j ≠ i → usesCounters k = false

namespace PlaceAmong

variable {ops ops₁ : List O} {op op₁ : O}

/-- The operation stays at its place where all operations stay what they are. -/
theorem of_kinds (h : PlaceAmong kind usesCounters needed i ops op) (hop : ops₁[i]? = some op₁)
    (hkinds : ops₁.map kind = ops.map kind) :
    PlaceAmong kind usesCounters needed i ops₁ op₁ := by
  refine ⟨hop, ?_⟩
  rw [hkinds]
  exact h.alone

theorem made {operations : List String}
    (hmade : List.Forall₂ (fun opname op => ofName opname = .ok (kind op)) operations ops)
    (halone : needed → NamedAlone ofName usesCounters operations i) (hop : ops[i]? = some op) :
    PlaceAmong kind usesCounters needed i ops op := by
  refine ⟨hop, fun hneeded j k hj hne => ?_⟩
  rw [List.getElem?_map] at hj
  obtain ⟨o, ho, rfl⟩ := Option.map_eq_some_iff.mp hj
  obtain ⟨name, hname, ho⟩ := getElem?_of_forall₂ hmade.flip ho
  exact halone hneeded j name (kind o) hname hne ho

end PlaceAmong

end

abbrev CountsAlone (operations : List String) (i : ℕ) : Prop :=
  NamedAlone OperationKind.ofName OperationKind.usesCounters operations i

abbrev Place (needed : Prop) (i : ℕ) (ts : TemporalStatistics ctx)
    (op : Operation ctx.arithmetic) : Prop :=
  PlaceAmong Operation.kind OperationKind.usesCounters needed i ts.statistics op

/-- Neither an initial condition nor its absence is of interest to an operation that does not
deaccumulate. -/
theorem makeOperation_eq_make {opt : StatisticsOptions} {cfg : StatisticsConfiguration ctx.arithmetic}
    {p : PrecisionTag} {payload : List UInt8} {w : OperationWindow} {opname : String}
    {k : OperationKind} {op : Operation ctx.arithmetic} (hk : OperationKind.ofName opname = .ok k)
    (hno : ¬ k.deaccumulated = true) (h : makeOperation opt cfg p payload w opname = .ok op) :
    op = Operation.make ctx.arithmetic k p payload.length := by
  obtain ⟨k', hk', h⟩ := bind_eq_ok_iff.mp h
  obtain rfl := Except.ok.inj (hk.symm.trans hk')
  dsimp only at h
  split_ifs at h
  · exact (Except.ok.inj ((if_neg hno).symm.trans h)).symm
  · exact (Except.ok.inj h).symm.trans (if_neg hno)

theorem exists_append_of_getElem? {α : Type} {xs : List α} {i : ℕ} {x : α} (h : xs[i]? = some x) :
    ∃ pre post, xs = pre ++ x :: post ∧ pre.length = i := by
  obtain ⟨hlt, rfl⟩ := List.getElem?_eq_some_iff.mp h
  refine ⟨xs.take i, xs.drop (i + 1), ?_, ?_⟩
  · rw [← List.drop_eq_getElem_cons hlt, List.take_append_drop]
  · rw [List.length_take]
    omega

theorem getElem?_length_append {α : Type} (pre : List α) (x : α) (post : List α) :
    (pre ++ x :: post)[pre.length]? = some x := by
  rw [List.getElem?_append_right le_rfl, Nat.sub_self]
  rfl

namespace Place

open TemporalStatistics

variable {needed : Prop} {i : ℕ} {ts ts₁ : TemporalStatistics ctx} {op : Operation ctx.arithmetic}
  {conf : Config} {cfg : StatisticsConfiguration ctx.arithmetic} {msg : Message}

theorem others (h : Place needed i ts op) {pre post : List (Operation ctx.arithmetic)}
    (hops : ts.statistics = pre ++ op :: post) (hlen : pre.length = i) (hneeded : needed) :
    ∀ o, o ∈ pre ∨ o ∈ post → o.kind.usesCounters = false := by
  intro o ho
  have halone := h.alone hneeded
  rw [hops, List.map_append, List.map_cons] at halone
  obtain ho | ho := ho
  · obtain ⟨j, hj⟩ := List.mem_iff_getElem?.mp ho
    have hlt := (List.getElem?_eq_some_iff.mp hj).1
    refine halone j o.kind ?_ (by omega)
    rw [List.getElem?_append_left (by rw [List.length_map]; exact hlt), List.getElem?_map, hj]
    rfl
  · obtain ⟨j, hj⟩ := List.mem_iff_getElem?.mp ho
    refine halone (i + 1 + j) o.kind ?_ (by omega)
    have hrest : i + 1 + j - (pre.map Operation.kind).length = j + 1 := by
      rw [List.length_map]
      omega
    rw [List.getElem?_append_right (by rw [List.length_map]; omega), hrest, List.getElem?_cons_succ,
      List.getElem?_map, hj]
    rfl

variable (h : Place needed i ts op)

include h

theorem updateData (hdata : (ts.updateData conf cfg msg).Returns ts₁) :
    ∃ w₁ w₂ op₁, op.updateData ctx conf.opt cfg msg.payload w₁ = .ok (w₂, op₁) ∧
      Place needed i ts₁ op₁ ∧ ts₁.metadata = ts.metadata ∧ w₁.count = ts.window.count + 1 ∧
      ts₁.window.count = w₂.count ∧ ((CountsPoints conf.opt cfg → needed) →
        w₁.counts = ts.window.counts ∧ ts₁.window.counts = w₂.counts) := by
  obtain ⟨w, w₃, ops, hw, hloop, rfl⟩ := updateData_returns hdata
  obtain ⟨-, -, rfl⟩ := OperationWindow.updateData_eq_ok_iff.mp hw
  obtain ⟨pre, post, hops, hlen⟩ := exists_append_of_getElem? h.operation
  rw [hops] at hloop
  obtain ⟨w₁, pre₁, rest, hpre, hrest, rfl⟩ := forOperations_append_iff.mp hloop
  obtain ⟨w₂, op₁, post₁, hturn, hpost, rfl⟩ := forOperations_cons_iff.mp hrest
  -- the operations around it may advance the counters only if it does not need them
  have hothers : ∀ {o : Operation ctx.arithmetic}, o ∈ pre ∨ o ∈ post →
      o.kind.usesCounters = true → CountsPoints conf.opt cfg →
        ¬ (CountsPoints conf.opt cfg → needed) := by
    intro o ho huses hpoints hneeded
    rw [h.others hops hlen (hneeded hpoints) o ho] at huses
    cases huses
  obtain ⟨⟨hw₁, hcounts₁⟩, hkinds₁⟩ := forOperations_frame (CountersOnly.refl _)
    (fun _ _ _ => CountersOnly.trans)
    (fun o ho _ _ _ => updateOperation_frame (hothers (Or.inl ho))) hpre
  obtain ⟨⟨hw₃, hcounts₃⟩, hkinds₃⟩ := forOperations_frame (CountersOnly.refl _)
    (fun _ _ _ => CountersOnly.trans)
    (fun o ho _ _ _ => updateOperation_frame (hothers (Or.inr ho))) hpost
  simp only [updateOperation, bind_eq_ok_iff] at hturn
  obtain ⟨truncation, -, hturn⟩ := hturn
  split_ifs at hturn
  have hlen₁ : pre₁.length = i := by
    have hlength := congrArg List.length hkinds₁
    rw [List.length_map, List.length_map] at hlength
    exact hlength.trans hlen
  refine ⟨w₁, w₂, op₁, hturn, h.of_kinds ?_ ?_, rfl, ?_, ?_, fun hneeded => ⟨?_, ?_⟩⟩
  · exact hlen₁ ▸ getElem?_length_append pre₁ op₁ post₁
  · rw [hops, List.map_append, List.map_append, List.map_cons, List.map_cons, hkinds₁, hkinds₃,
      Operation.updateData_kind hturn]
  · rw [hw₁]
  · rw [hw₃]
  · exact hcounts₁ (not_not.mpr hneeded)
  · exact hcounts₃ (not_not.mpr hneeded)

theorem updateWindow (hwindow : (ts.updateWindow cfg msg).Returns ts₁) :
    ∃ op₁, op.updateWindow ctx cfg msg.size ts.nextWindow = .ok op₁ ∧ Place needed i ts₁ op₁ ∧
      ts₁.window = ts.nextWindow ∧ ts₁.metadata = ts.metadata := by
  obtain ⟨ops, hloop, rfl⟩ := updateWindow_returns hwindow
  obtain ⟨pre, post, hops, hlen⟩ := exists_append_of_getElem? h.operation
  rw [hops] at hloop
  obtain ⟨w₁, pre₁, rest, hpre, hrest, rfl⟩ := forOperations_append_iff.mp hloop
  obtain ⟨w₂, op₁, post₁, hturn, hpost, rfl⟩ := forOperations_cons_iff.mp hrest
  obtain ⟨rfl, hkinds₁⟩ := forOperations_frame (R := Eq) (fun _ => rfl) (fun _ _ _ => Eq.trans)
    (fun _ _ _ _ _ => resetOperation_frame) hpre
  obtain ⟨-, hkinds₃⟩ := forOperations_frame (R := Eq) (fun _ => rfl) (fun _ _ _ => Eq.trans)
    (fun _ _ _ _ _ => resetOperation_frame) hpost
  have hkind := (resetOperation_frame hturn).2
  simp only [resetOperation, bind_eq_ok_iff] at hturn
  obtain ⟨op', hop', heq⟩ := hturn
  obtain ⟨-, rfl⟩ := Prod.mk.inj (Except.ok.inj heq)
  have hlen₁ : pre₁.length = i := by
    have hlength := congrArg List.length hkinds₁
    rw [List.length_map, List.length_map] at hlength
    exact hlength.trans hlen
  refine ⟨op', hop', h.of_kinds ?_ ?_, rfl, rfl⟩
  · exact hlen₁ ▸ getElem?_length_append pre₁ op' post₁
  · rw [hops, List.map_append, List.map_append, List.map_cons, List.map_cons, hkinds₁, hkinds₃, hkind]

/-- Nothing is emitted for an empty window, and one message by each operation for any other. -/
theorem emitStatistics {src dst : Peer} {out : List Message}
    (hemit : (ts.emitStatistics conf src dst).Returns (ts₁, out)) :
    ts.window.count = 0 ∧ ts₁ = ts ∧ out = [] ∨
    ts.window.count ≠ 0 ∧ ∃ cfg op₁ msg,
      StatisticsConfiguration.make ctx conf.opt ts.metadata src = .ok cfg ∧
      op.compute ctx conf.opt cfg ts.window = .ok (op₁, msg.payload) ∧ out[i]? = some msg ∧
      Place needed i ts₁ op₁ ∧ ts₁.window = ts.window ∧ ts₁.metadata = ts.metadata := by
  refine (emitStatistics_returns hemit).imp_right fun hreturns => ?_
  obtain ⟨hcount, ops, hloop, rfl⟩ := hreturns
  obtain ⟨pre, post, hops, rfl⟩ := exists_append_of_getElem? h.operation
  rw [hops] at hloop
  obtain ⟨-, hkinds, pre₁, op₁, post₁, msg, rfl, hlen₁, hturn, hat⟩ := emitOperations_at hloop
  simp only [emitOperation, bind_eq_ok_iff] at hturn
  obtain ⟨cfg, hcfg, md, -, ⟨op', payload⟩, hcompute, heq⟩ := hturn
  obtain ⟨rfl, rfl⟩ := Prod.mk.inj (Except.ok.inj heq)
  refine ⟨hcount, cfg, op', _, hcfg, hcompute, hat, h.of_kinds ?_ (hops ▸ hkinds), rfl, rfl⟩
  exact hlen₁ ▸ getElem?_length_append pre₁ op' post₁

omit h in
theorem made {opname : String} (hi : conf.operations[i]? = some opname)
    (halone : needed → CountsAlone conf.operations i)
    (hmake : TemporalStatistics.make conf cfg msg = .ok ts) :
    ∃ p w op, msg.precision ctx.toContext = .ok p ∧
      makeOperation conf.opt cfg p msg.payload w opname = .ok op ∧ Place needed i ts op ∧
      ts.metadata = msg.metadata ∧ ts.window.count = 0 ∧ ts.window.counts = [] ∧ w = ts.window := by
  obtain ⟨u, -, ops, hmakes, rfl⟩ := TemporalStatistics.make_eq_ok_iff.mp hmake
  simp only [makeOperations, bind_eq_ok_iff] at hmakes
  obtain ⟨p, hp, hmakes⟩ := hmakes
  have hall := mapM_eq_ok_iff.mp hmakes
  obtain ⟨op, hop, hturn⟩ := getElem?_of_forall₂ hall hi
  exact ⟨p, _, op, hp, hturn, .made (hall.imp fun _ _ => makeOperation_kind) halone hop, rfl, rfl,
    rfl, rfl⟩

end Place
end Multio.StatisticsMtg2
