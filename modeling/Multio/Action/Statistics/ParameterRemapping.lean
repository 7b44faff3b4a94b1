import Multio.Action.Statistics.WordContext
import Multio.Action.Statistics.TemporalStatistics
import Multio.Lib.Threading

namespace Multio.Statistics
open StatisticsMtg2 Exception Lib

/-- What is read under `param` and `paramId`. -/
abbrev Parameter : Type := Option MetadataValue × Option MetadataValue

variable {ctx : StatisticsContext}

def parameterOf (ctx : StatisticsContext) (md : BaseMetadata) : Parameter :=
  (Metadata.find ctx.parametrization md "param", Metadata.find ctx.parametrization md "paramId")

namespace RemapParamID

def newParam (r : RemapParamID) (outputFrequency : String) (p : Parameter) (opname : String) :
    Option String :=
  if r.hasMapping then do
    let id ← p.2.bind fun v => v.getInt64.toOption
    r.paramIDMap (key (toString id) opname outputFrequency)
  else none

def remapped (r : RemapParamID) (outputFrequency : String) (p : Parameter) (opname : String) :
    Parameter :=
  (r.newParam outputFrequency p opname).elim p fun newParam =>
    (some (.string newParam), some (.int64 (atol newParam)))

end RemapParamID

structure HasParameter (ctx : StatisticsContext) (md : BaseMetadata) (p : Parameter) : Prop where
  keyed : md.Keyed
  parameter : parameterOf ctx md = p

section

variable {md md' : BaseMetadata} {p : Parameter}

theorem HasParameter.set (h : HasParameter ctx md p) {k : String} (hparam : "param" ≠ k)
    (hparamId : "paramId" ≠ k) (v : MetadataValue) :
    HasParameter ctx (md.set ctx.policy k v) p where
  keyed := BaseMetadata.keyed_set h.keyed k v
  parameter := by
    rw [parameterOf, BaseMetadata.find_set h.keyed, BaseMetadata.find_set h.keyed, if_neg hparam,
      if_neg hparamId]
    exact h.parameter

theorem getInt64_paramId {id : ℤ}
    (h : getInt64 ctx.toStatisticsContext md "paramId" = .ok (some id)) :
    ((parameterOf ctx md).2.bind fun v => v.getInt64.toOption) = some id := by
  rw [getInt64, Metadata.getOpt] at h
  rw [parameterOf]
  cases hfind : Metadata.find ctx.parametrization md "paramId" with
  | none =>
    rw [hfind] at h
    cases h
  | some v =>
    rw [hfind] at h
    cases hv : v.getInt64 with
    | error e =>
      simp only [hv] at h
      cases h
    | ok id' =>
      simp only [hv] at h
      cases h
      rw [Option.bind_some, hv]
      rfl

/-- The parameter that is mapped is the one that is found in the metadata. -/
theorem HasParameter.applyRemap (hmd : HasParameter ctx md p) {r : RemapParamID}
    {opname outputFrequency : String} (h : r.applyRemap ctx md opname outputFrequency = .ok md') :
    HasParameter ctx md' (r.remapped outputFrequency p opname) := by
  obtain ⟨hkeyed, rfl⟩ := hmd
  rw [RemapParamID.applyRemap] at h
  by_cases hmapping : r.hasMapping
  · rw [if_pos hmapping] at h
    obtain ⟨-, -, h⟩ := bind_eq_ok_iff.mp h
    obtain ⟨paramId, hparamId, h⟩ := bind_eq_ok_iff.mp h
    cases paramId with
    | none => cases h
    | some id =>
      have hnew : r.newParam outputFrequency (parameterOf ctx md) opname =
          r.paramIDMap (RemapParamID.key (toString id) opname outputFrequency) := by
        rw [RemapParamID.newParam, if_pos hmapping, getInt64_paramId hparamId]
        rfl
      rw [RemapParamID.remapped, hnew]
      simp only at h
      -- an entry sets both keys of the parameter, and without one the metadata stay as they are
      cases hmap : r.paramIDMap (RemapParamID.key (toString id) opname outputFrequency) with
      | none =>
        rw [hmap] at h
        cases h
        exact ⟨hkeyed, rfl⟩
      | some newParam =>
        rw [hmap] at h
        cases h
        have hid : (md.set ctx.policy "paramId" (.int64 (atol newParam))).Keyed :=
          BaseMetadata.keyed_set hkeyed _ _
        refine ⟨BaseMetadata.keyed_set hid "param" _, ?_⟩
        rw [parameterOf, BaseMetadata.find_set hid, if_pos rfl, BaseMetadata.find_set hid,
          if_neg (by decide), BaseMetadata.find_set hkeyed, if_pos rfl]
        rfl
  · rw [if_neg hmapping] at h
    cases h
    refine ⟨hkeyed, ?_⟩
    rw [RemapParamID.remapped, RemapParamID.newParam, if_neg hmapping]
    rfl

end

namespace TemporalStatistics

variable {conf : Config} {cfg : StatisticsConfiguration ctx.arithmetic}

/-- The parameters of the messages of a window, in the order of the operations. -/
def emittedParameters (ctx : StatisticsContext) (out : List Message) : List Parameter :=
  out.map fun msg => parameterOf ctx msg.metadata

def operationNames (ops : List (Operation ctx.arithmetic)) : List String :=
  ops.map fun op => op.kind.operation

/-- Each message has the parameter of the one before it, mapped once more. -/
theorem emittedParameters_emitOperations {win : OperationWindow} {source destination : Peer}
    {ops : List (Operation ctx.arithmetic)} {md : BaseMetadata} {p : Parameter}
    (hmd : HasParameter ctx md p) {out : List Message}
    (h : emitOperations conf cfg win source destination md ops = .ok out) :
    emittedParameters ctx out =
      ((operationNames ops).scanl (conf.remapParamID.remapped conf.outputFrequency) p).tail := by
  induction ops generalizing md p out with
  | nil =>
    cases h
    rfl
  | cons op ops ih =>
    rw [emitOperations] at h
    obtain ⟨md', hremap, h⟩ := bind_eq_ok_iff.mp h
    obtain ⟨payload, -, h⟩ := bind_eq_ok_iff.mp h
    obtain ⟨rest, hrest, h⟩ := bind_eq_ok_iff.mp h
    cases h
    have hmd' : HasParameter ctx md' (conf.remapParamID.remapped conf.outputFrequency p
        op.kind.operation) := by
      apply HasParameter.applyRemap _ hremap
      exact (hmd.set (by decide) (by decide) _).set (by decide) (by decide) _
    have hrest := ih hmd' hrest
    rw [operationNames] at hrest
    rw [operationNames, List.map_cons, tail_scanl_cons, ← hrest, ← hmd'.parameter]
    rfl

theorem hasParameter_outputMetadata {ts : TemporalStatistics ctx} {md md' : BaseMetadata}
    {p : Parameter} (hmd : HasParameter ctx md p) (h : ts.outputMetadata md = .ok md') :
    HasParameter ctx md' p := by
  obtain ⟨timeSpanInSteps, -, h⟩ := bind_eq_ok_iff.mp h
  rw [← Except.ok.inj h]
  repeat apply HasParameter.set _ (by decide) (by decide)
  exact hmd

/-- The second of two operations does not tell whether the first one has mapped the parameter. -/
def Unnoticed (conf : Config) (p : Parameter) (opname next : String) : Prop :=
  conf.remapParamID.remapped conf.outputFrequency
      (conf.remapParamID.remapped conf.outputFrequency p opname) next =
    conf.remapParamID.remapped conf.outputFrequency p next

/-- Every message has the parameter of its own operation exactly if no operation notices what the
one before it has mapped. -/
theorem emittedParameters_iff (ts : TemporalStatistics ctx) {msg : Message}
    (hmsg : msg.metadata.Keyed) {out : List Message} (h : ts.emit conf cfg msg = .ok out) :
    emittedParameters ctx out = (operationNames ts.statistics).map
        (conf.remapParamID.remapped conf.outputFrequency (parameterOf ctx msg.metadata)) ↔
      (operationNames ts.statistics).IsChain
        (Unnoticed conf (parameterOf ctx msg.metadata)) := by
  obtain ⟨md, hmd, h⟩ := bind_eq_ok_iff.mp h
  have hmd := hasParameter_outputMetadata ⟨hmsg, rfl⟩ hmd
  rw [emittedParameters_emitOperations hmd h]
  exact tail_scanl_eq_map_iff _ _ _

/-- The extremes of two hours have parameters of their own, that are not mapped any further. -/
def extremes : Config where
  opt := { solverSendInitStep := true }
  operations := ["maximum", "minimum"]
  outputFrequency := "2h"
  remapParamID := RemapParamID.make
    [⟨"167", "maximum", "2h", "201"⟩, ⟨"167", "minimum", "2h", "202"⟩]

def temperatureConfiguration : StatisticsConfiguration wordContext.arithmetic where
  date := 20200101
  time := 0
  step := 2
  timeStep := 3600
  stepFreq := 1
  level := 0
  param := "167"
  levType := "sfc"
  gridType := "regular_ll"
  precision := "double"
  missingValue := none
  key := generateKey "167" 0 "sfc" "regular_ll" "double" (toString 0)
  epoch := 0

def temperatureMessage : Message where
  header :=
    { tag := .field
      source := {}
      destination := {}
      metadata :=
        { bucketCount := 541
          nodes := [("param", .string "167"), ("paramId", .int64 167)] } }
  payload := []

def temperatureStatistics (kinds : List OperationKind) : TemporalStatistics wordContext where
  periodUpdater := { timeUnit := .hour, span := 2 }
  window := { OperationWindow.make 0 0 0 7200 3600 .forwardOffset with
    currPoint := 7200, prevPoint := 3600, count := 2 }
  statistics := kinds.map fun kind => { kind, precision := .double, values := [] }

theorem temperatureMessage_keyed : temperatureMessage.metadata.Keyed := by
  rw [HashTable.Keyed]
  decide

/-- The average has no mapping, so that the maximum behind it finds the parameter of the input. -/
theorem emittedParameters_iff_two : ∃ out,
    (temperatureStatistics [.average, .maximum]).emit extremes temperatureConfiguration
      temperatureMessage = .ok out ∧
    emittedParameters wordContext out =
      [(some (.string "167"), some (.int64 167)), (some (.string "201"), some (.int64 201))] ∧
    (emittedParameters wordContext out = (operationNames (temperatureStatistics
        [.average, .maximum]).statistics).map (extremes.remapParamID.remapped
          extremes.outputFrequency (parameterOf wordContext temperatureMessage.metadata)) ↔
      (operationNames (temperatureStatistics [.average, .maximum]).statistics).IsChain
        (Unnoticed extremes (parameterOf wordContext temperatureMessage.metadata))) := by
  obtain ⟨out, hout, hemitted⟩ : ∃ out, (temperatureStatistics [.average, .maximum]).emit extremes
      temperatureConfiguration temperatureMessage = .ok out ∧ emittedParameters wordContext out =
        [(some (.string "167"), some (.int64 167)), (some (.string "201"), some (.int64 201))] :=
    ⟨_, rfl, rfl⟩
  exact ⟨out, hout, hemitted, emittedParameters_iff _ temperatureMessage_keyed hout⟩

/-- The minimum that follows the maximum is emitted with its parameter. -/
theorem minimum_emitted_as_maximum :
    ¬ ∀ (ctx : StatisticsContext) (conf : Config) (cfg : StatisticsConfiguration ctx.arithmetic)
      (ts : TemporalStatistics ctx) (msg : Message) (out : List Message),
      msg.metadata.Keyed → ts.emit conf cfg msg = .ok out →
      emittedParameters ctx out = (operationNames ts.statistics).map
        (conf.remapParamID.remapped conf.outputFrequency (parameterOf ctx msg.metadata)) := by
  intro h
  let maximum : Parameter := (some (.string "201"), some (.int64 201))
  let minimum : Parameter := (some (.string "202"), some (.int64 202))
  obtain ⟨out, hout, hemitted⟩ : ∃ out, (temperatureStatistics [.maximum, .minimum]).emit
      extremes temperatureConfiguration temperatureMessage = .ok out ∧
        emittedParameters wordContext out = [maximum, maximum] := ⟨_, rfl, rfl⟩
  have hclaimed := h wordContext extremes temperatureConfiguration _ temperatureMessage out
    temperatureMessage_keyed hout
  rw [hemitted] at hclaimed
  have hlast : maximum = minimum := Option.some.inj (congrArg List.getLast? hclaimed)
  have hname : some (MetadataValue.string "201") = some (.string "202") := congrArg Prod.fst hlast
  simp at hname

end TemporalStatistics
end Multio.Statistics
