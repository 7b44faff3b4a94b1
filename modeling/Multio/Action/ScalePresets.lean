import Multio.Action.Scale
import Multio.Action.StatisticsMtg2.ExactContext
import Multio.Datamod.RecordRoundTrip
import Mathlib.Algebra.GroupWithZero.Basic
import Mathlib.Tactic.FieldSimp

namespace Multio.Action.Scale
open Lib Datamod RecordType Exception

variable {K : Type}

/-- The mappings are one-to-one, no parameter is on both sides, and no scaling is zero. -/
structure OneToOne [Zero K] (file : List (ScaleMapping K)) : Prop where
  paramIn : (file.map ScaleMapping.paramIn).Nodup
  paramOut : (file.map ScaleMapping.paramOut).Nodup
  disjoint : ∀ m ∈ file, ∀ m' ∈ file, m.paramIn ≠ m'.paramOut
  scaling : ∀ m ∈ file, m.scaling ≠ 0

section Maps

variable [Field K] {file : List (ScaleMapping K)}

def presetEntries (file : List (ScaleMapping K)) (preset : ScalePreset) :
    List (ℤ × MappingResult K) :=
  file.flatMap fun mapping => presetAssignments mapping preset

theorem getPresetMappings_eq (file : List (ScaleMapping K)) (preset : ScalePreset) :
    getPresetMappings file preset = OrderedMap.insertAll ∅ (presetEntries file preset) :=
  OrderedMap.insertAll_flatMap (fun mapping => presetAssignments mapping preset) file ∅

theorem wmoToLocal_entries (file : List (ScaleMapping K)) :
    (presetEntries file .wmoToLocal).map Prod.fst = file.map ScaleMapping.paramOut := by
  induction file with
  | nil => rfl
  | cons mapping file ih =>
    rw [presetEntries, List.flatMap_cons, List.map_append, List.map_cons]
    exact congrArg _ ih

theorem mem_localToWmo_entries {p : ℤ} :
    p ∈ (presetEntries file .localToWmo).map Prod.fst ↔
      p ∈ file.map ScaleMapping.paramIn ∨ p ∈ file.map ScaleMapping.paramOut := by
  induction file with
  | nil => simp [presetEntries]
  | cons mapping file ih =>
    rw [presetEntries, List.flatMap_cons, List.map_append, List.mem_append]
    rw [presetEntries] at ih
    rw [ih, List.map_cons, List.map_cons, List.mem_cons, List.mem_cons]
    simp only [presetAssignments, List.map_cons, List.map_nil, List.mem_cons, List.not_mem_nil]
    tauto

/-- The keys that one mapping of `local-to-wmo` assigns are those of no other mapping. -/
theorem nodup_localToWmo_entries (hfile : OneToOne file) :
    ((presetEntries file .localToWmo).map Prod.fst).Nodup := by
  induction file with
  | nil => exact List.nodup_nil
  | cons mapping file ih =>
    have htail : OneToOne file :=
      { paramIn := (List.nodup_cons.mp hfile.paramIn).2
        paramOut := (List.nodup_cons.mp hfile.paramOut).2
        disjoint := fun m hm m' hm' =>
          hfile.disjoint m (List.mem_cons_of_mem _ hm) m' (List.mem_cons_of_mem _ hm')
        scaling := fun m hm => hfile.scaling m (List.mem_cons_of_mem _ hm) }
    rw [presetEntries, List.flatMap_cons, List.map_append]
    apply List.Nodup.append
    · have hne := hfile.disjoint mapping List.mem_cons_self mapping List.mem_cons_self
      simpa [presetAssignments] using hne
    · exact ih htail
    · intro p hp hlater
      have hlater := mem_localToWmo_entries.mp hlater
      have hin := (List.nodup_cons.mp hfile.paramIn).1
      have hout := (List.nodup_cons.mp hfile.paramOut).1
      have hp : p = mapping.paramIn ∨ p = mapping.paramOut := by
        simpa [presetAssignments] using hp
      rcases hp with hp | hp <;> subst hp <;> rcases hlater with hlater | hlater
      · exact hin hlater
      · obtain ⟨m, hm, heq⟩ := List.mem_map.mp hlater
        exact hfile.disjoint mapping List.mem_cons_self m (List.mem_cons_of_mem _ hm) heq.symm
      · obtain ⟨m, hm, heq⟩ := List.mem_map.mp hlater
        exact hfile.disjoint m (List.mem_cons_of_mem _ hm) mapping List.mem_cons_self heq
      · exact hout hlater

theorem find?_wmoToLocal (hfile : OneToOne file) {mapping : ScaleMapping K} (h : mapping ∈ file) :
    (getPresetMappings file .wmoToLocal).find? mapping.paramOut =
      some ⟨mapping.paramIn, 1 / mapping.scaling⟩ := by
  rw [getPresetMappings_eq]
  apply OrderedMap.find?_insertAll_of_mem
  · rw [wmoToLocal_entries]
    exact hfile.paramOut
  · exact List.mem_flatMap.mpr ⟨mapping, h, List.mem_singleton.mpr rfl⟩

theorem find?_wmoToLocal_of_not_mem {p : ℤ} (hp : p ∉ file.map ScaleMapping.paramOut) :
    (getPresetMappings file .wmoToLocal).find? p = none := by
  rw [← wmoToLocal_entries] at hp
  rw [getPresetMappings_eq, OrderedMap.find?_insertAll_of_not_mem ∅ hp]
  rfl

theorem find?_localToWmo_paramIn (hfile : OneToOne file) {mapping : ScaleMapping K}
    (h : mapping ∈ file) :
    (getPresetMappings file .localToWmo).find? mapping.paramIn =
      some ⟨mapping.paramOut, mapping.scaling⟩ := by
  rw [getPresetMappings_eq]
  apply OrderedMap.find?_insertAll_of_mem ∅ (nodup_localToWmo_entries hfile)
  exact List.mem_flatMap.mpr ⟨mapping, h, List.mem_cons_self⟩

theorem find?_localToWmo_paramOut (hfile : OneToOne file) {mapping : ScaleMapping K}
    (h : mapping ∈ file) :
    (getPresetMappings file .localToWmo).find? mapping.paramOut =
      some ⟨mapping.paramIn, 1 / mapping.scaling⟩ := by
  rw [getPresetMappings_eq]
  apply OrderedMap.find?_insertAll_of_mem ∅ (nodup_localToWmo_entries hfile)
  exact List.mem_flatMap.mpr ⟨mapping, h, List.mem_cons_of_mem _ List.mem_cons_self⟩

theorem find?_localToWmo_of_not_mem {p : ℤ} (hin : p ∉ file.map ScaleMapping.paramIn)
    (hout : p ∉ file.map ScaleMapping.paramOut) :
    (getPresetMappings file .localToWmo).find? p = none := by
  have hp : p ∉ (presetEntries file .localToWmo).map Prod.fst := by
    rw [mem_localToWmo_entries]
    tauto
  rw [getPresetMappings_eq, OrderedMap.find?_insertAll_of_not_mem ∅ hp]
  rfl

/-- A preset alone is the configuration of an action if the file has mappings. -/
theorem eq_of_getMappings {preset : ScalePreset} {mappings : Mappings K}
    (h : getMappings file { preset := some preset } = .ok mappings) :
    mappings = getPresetMappings file preset := by
  rw [getMappings] at h
  simp only [List.map_nil] at h
  split_ifs at h
  exact (Except.ok.inj h).symm

end Maps

section Messages

variable (ctx : ScaleContext K)

def param (msg : ScaleMessage K) : Except Exception ℤ := do
  paramId (← readScaleMetadata ctx msg.header.metadata)

variable {ctx}

theorem param_eq_ok_iff {msg : ScaleMessage K} {p : ℤ} :
    param ctx msg = .ok p ↔
      ∃ md, readScaleMetadata ctx msg.header.metadata = .ok md ∧ paramId md = .ok p :=
  bind_eq_ok_iff

theorem paramId_eq_ok_iff {md : ScaleMetadataKeys} {p : ℤ} :
    paramId md = .ok p ↔ (md .param).visit = some ⟨p⟩ := by
  rw [paramId]
  cases h : (md .param).visit with
  | none => simp
  | some q =>
    obtain ⟨id⟩ := q
    simp

def mappedMetadata (ctx : ScaleContext K) (md : ScaleMetadataKeys) (q : ℤ) (old : BaseMetadata) :
    BaseMetadata :=
  dumpMetadata (R := scaleMetadataKeys) ctx.policy (Function.update md .param (.value ⟨q⟩)) old

theorem paramId_mapped {md : ScaleMetadataKeys} {q : ℤ} {old : BaseMetadata} (hkeyed : old.Keyed)
    {md' : ScaleMetadataKeys}
    (h : readScaleMetadata ctx (mappedMetadata ctx md q old) = .ok md') : paramId md' = .ok q := by
  have hfind := (find?_dumpMetadata (R := scaleMetadataKeys) ctx.policy
    (Function.update md .param (.value ⟨q⟩)) hkeyed).1 .param
  have hget := getFromMetadata_of_readMetadata ctx.toContext ctx.conversions h
    (k := ScaleMetadataKey.param) rfl
  obtain ⟨e, he, hvisit⟩ := visitMetadata_dump (R := scaleMetadataKeys) ctx.toContext
    ctx.conversions true true (mappedMetadata ctx md q old) .param ⟨q⟩
  have hin : inMetadata (R := scaleMetadataKeys) (Function.update md .param (.value ⟨q⟩)) .param =
      some ((ValueType.param.dump ⟨q⟩).toMetadata) := by
    rw [inMetadata, Function.update_self]
    rfl
  rw [getFromMetadata, mappedMetadata, hfind, hin] at hget
  have heq := Except.ok.inj (he.symm.trans hget)
  rw [paramId_eq_ok_iff, ← heq]
  exact hvisit

variable [DecidableEq K] [Field K] {mappings : Mappings K} {msg msg' : ScaleMessage K} {p : ℤ}
  {md : ScaleMetadataKeys}

theorem executeImpl_unmapped (htag : msg.header.tag = .field) (hp : param ctx msg = .ok p)
    (hnone : mappings.find? p = none) : executeImpl ctx mappings msg = .ok msg := by
  obtain ⟨md, hmd, hp⟩ := param_eq_ok_iff.mp hp
  rw [executeImpl, htag]
  simp only [hmd, hp, hnone, ok_bind]

theorem executeImpl_mapped (htag : msg.header.tag = .field)
    (hmd : readScaleMetadata ctx msg.header.metadata = .ok md) (hp : paramId md = .ok p)
    {mapping : MappingResult K} (hsome : mappings.find? p = some mapping) :
    executeImpl ctx mappings msg = applyMapping ctx md mapping msg := by
  rw [executeImpl, htag]
  simp only [hmd, hp, hsome, ok_bind]

/-- A mapped message keeps its tag; its values are those of the mapping. -/
theorem applyMapping_eq_ok_iff {mapping : MappingResult K} :
    applyMapping ctx md mapping msg = .ok msg' ↔
      ∃ header : Header, header = { msg.header with
          metadata := mappedMetadata ctx md mapping.paramOut msg.header.metadata
          fieldId_ := none } ∧
        (∃ precision, header.precision ctx.toContext = .ok precision) ∧
        msg' = { header, values :=
          msg.values.map (scaleValue (missingNumber ctx md) mapping.scaling) } := by
  rw [applyMapping, bind_eq_ok_iff]
  constructor
  · rintro ⟨precision, hprecision, h⟩
    exact ⟨_, rfl, ⟨precision, hprecision⟩, (Except.ok.inj h).symm⟩
  · rintro ⟨header, rfl, ⟨precision, hprecision⟩, rfl⟩
    exact ⟨precision, hprecision, rfl⟩

theorem tag_applyMapping {mapping : MappingResult K}
    (h : applyMapping ctx md mapping msg = .ok msg') : msg'.header.tag = msg.header.tag := by
  obtain ⟨header, rfl, -, rfl⟩ := applyMapping_eq_ok_iff.mp h
  rfl

theorem keyed_applyMapping (hkeyed : msg.header.metadata.Keyed) {mapping : MappingResult K}
    (h : applyMapping ctx md mapping msg = .ok msg') : msg'.header.metadata.Keyed := by
  obtain ⟨header, rfl, -, rfl⟩ := applyMapping_eq_ok_iff.mp h
  exact keyed_dumpMetadata ctx.policy _ hkeyed

theorem param_of_applyMapping (hkeyed : msg.header.metadata.Keyed) {mapping : MappingResult K}
    (h : applyMapping ctx md mapping msg = .ok msg') (hp : param ctx msg' = .ok p) :
    p = mapping.paramOut := by
  obtain ⟨header, rfl, -, rfl⟩ := applyMapping_eq_ok_iff.mp h
  obtain ⟨md', hmd', hp⟩ := param_eq_ok_iff.mp hp
  have hq := paramId_mapped hkeyed hmd'
  exact Except.ok.inj (hp.symm.trans hq)

theorem exists_param_of_executeImpl (htag : msg.header.tag = .field)
    (h : executeImpl ctx mappings msg = .ok msg') : ∃ p, param ctx msg = .ok p := by
  rw [executeImpl, htag] at h
  obtain ⟨md, hmd, h⟩ := bind_eq_ok_iff.mp h
  obtain ⟨p, hp, -⟩ := bind_eq_ok_iff.mp h
  exact ⟨p, param_eq_ok_iff.mpr ⟨md, hmd, hp⟩⟩

/-- A message that is passed on as it is has a parameter that is mapped to itself, if at all. -/
theorem paramOut_of_unchanged (htag : msg.header.tag = .field) (hkeyed : msg.header.metadata.Keyed)
    (hp : param ctx msg = .ok p) (h : executeImpl ctx mappings msg = .ok msg)
    {mapping : MappingResult K} (hsome : mappings.find? p = some mapping) :
    p = mapping.paramOut := by
  obtain ⟨md, hmd, hid⟩ := param_eq_ok_iff.mp hp
  rw [executeImpl_mapped htag hmd hid hsome] at h
  exact param_of_applyMapping hkeyed h hp

theorem scaleValue_missing (scaling m : K) : scaleValue (some m) scaling m = m := by
  rw [scaleValue, if_pos rfl]

theorem scaleValue_of_ne {v m : K} (h : v ≠ m) (scaling : K) :
    scaleValue (some m) scaling v = v * scaling := by
  rw [scaleValue, if_neg h]

/-- A value comes back from a scaling and its inverse, unless it is scaled to the missing one. -/
theorem scaleValue_inverse_iff {scaling : K} (hscaling : scaling ≠ 0) (missing : Option K)
    (v : K) : scaleValue missing (1 / scaling) (scaleValue missing scaling v) = v ↔
      (missing = some (v * scaling) → missing = some v) := by
  have hcancel : v * scaling * (1 / scaling) = v := by field_simp
  cases missing with
  | none => exact iff_of_true hcancel fun h => absurd h (by simp)
  | some m =>
    rw [Option.some.injEq, Option.some.injEq]
    by_cases hv : v = m
    · subst hv
      rw [scaleValue_missing, scaleValue_missing]
      exact iff_of_true rfl fun _ => rfl
    rw [scaleValue_of_ne hv]
    by_cases hm : v * scaling = m
    · rw [hm, scaleValue_missing]
      exact ⟨fun h _ => h, fun h => h rfl⟩
    · rw [scaleValue_of_ne hm, hcancel]
      exact iff_of_true rfl fun h => absurd h.symm hm

def KeepsMissing (ctx : ScaleContext K) (mappings : Mappings K) (msg : ScaleMessage K) : Prop :=
  ∀ md msg', readScaleMetadata ctx msg.header.metadata = .ok md →
    executeImpl ctx mappings msg = .ok msg' → ∀ (i : ℕ) (v : K), missingNumber ctx md = some v →
      msg.values[i]? = some v → msg'.values[i]? = some v

theorem keepsMissing (ctx : ScaleContext K) (mappings : Mappings K) {msg : ScaleMessage K}
    (htag : msg.header.tag = .field) : KeepsMissing ctx mappings msg := by
  intro md msg' hmd hexec i v hmissing hv
  rw [executeImpl, htag] at hexec
  simp only [hmd, ok_bind] at hexec
  obtain ⟨p, -, hexec⟩ := bind_eq_ok_iff.mp hexec
  cases hfind : mappings.find? p with
  | none =>
    rw [hfind] at hexec
    rw [← Except.ok.inj hexec, hv]
  | some mapping =>
    rw [hfind] at hexec
    obtain ⟨header, -, -, rfl⟩ := applyMapping_eq_ok_iff.mp hexec
    rw [List.getElem?_map, hv, hmissing, Option.map_some, scaleValue_missing]

end Messages

section

variable {ctx : ScaleContext K} {msg msg' : ScaleMessage K} {p : ℤ} {md : ScaleMetadataKeys}

variable (md) in
theorem precision_mapped (q : ℤ) (hkeyed : msg.header.metadata.Keyed) (fid : Option String) :
    Header.precision ctx.toContext { msg.header with
      metadata := mappedMetadata ctx md q msg.header.metadata, fieldId_ := fid } =
    msg.header.precision ctx.toContext := by
  have hfind : (mappedMetadata ctx md q msg.header.metadata).find? "misc-precision" =
      msg.header.metadata.find? "misc-precision" :=
    (find?_dumpMetadata (R := scaleMetadataKeys) ctx.policy _ hkeyed).2 _ (by decide)
  simp only [Header.precision, Header.required, Metadata.getOpt, Metadata.find, hfind]

/-- What is read of a mapped message: the new parameter, and the missing value as before. -/
theorem exists_mapped (hkeyed : msg.header.metadata.Keyed)
    (hglobal : ctx.parametrization.find? "missingValue" = none) (q : ℤ) :
    ∃ md', readScaleMetadata ctx (mappedMetadata ctx md q msg.header.metadata) = .ok md' ∧
      paramId md' = .ok q ∧ missingNumber ctx md' = missingNumber ctx md := by
  have hvalid : validateRecord (R := scaleMetadataKeys)
      (Function.update md .param (.value ⟨q⟩)) = .ok () := by
    rw [validateRecord_eq_ok_iff]
    intro k
    cases k with
    | param => exact .inr (by rw [Function.update_self]; rfl)
    | missingValue => exact .inl rfl
  obtain ⟨md', hmd', hsame⟩ := readMetadata_dumpMetadata (R := scaleMetadataKeys) ctx.toContext
    ctx.conversions ctx.policy (fun _ => rfl) hvalid hkeyed (by
      intro k hk
      cases k with
      | param =>
        rw [Function.update_self] at hk
        exact absurd hk (by simp [Entry.visit])
      | missingValue => exact hglobal)
  refine ⟨md', hmd', ?_, ?_⟩
  · rw [paramId_eq_ok_iff, hsame .param, Function.update_self]
    rfl
  · rw [missingNumber, missingNumber, hsame .missingValue, Function.update_of_ne (by decide)]

variable [DecidableEq K] [Field K] {file : List (ScaleMapping K)}

theorem exists_executeImpl_mapped (htag : msg.header.tag = .field)
    (hkeyed : msg.header.metadata.Keyed)
    (hmd : readScaleMetadata ctx msg.header.metadata = .ok md) (hp : paramId md = .ok p)
    {precision : PrecisionTag} (hprecision : msg.header.precision ctx.toContext = .ok precision)
    (hglobal : ctx.parametrization.find? "missingValue" = none) {mappings : Mappings K}
    {mapping : MappingResult K} (hsome : mappings.find? p = some mapping) :
    ∃ msg' md', executeImpl ctx mappings msg = .ok msg' ∧ msg'.header.tag = .field ∧
      msg'.header.metadata.Keyed ∧ readScaleMetadata ctx msg'.header.metadata = .ok md' ∧
      paramId md' = .ok mapping.paramOut ∧ missingNumber ctx md' = missingNumber ctx md ∧
      msg'.header.precision ctx.toContext = .ok precision ∧
      msg'.values = msg.values.map (scaleValue (missingNumber ctx md) mapping.scaling) := by
  obtain ⟨md', hmd', hid', hmissing⟩ := exists_mapped hkeyed hglobal mapping.paramOut
  have hprecision' := (precision_mapped md mapping.paramOut hkeyed none).trans hprecision
  have happly : applyMapping ctx md mapping msg = .ok _ :=
    applyMapping_eq_ok_iff.mpr ⟨_, rfl, ⟨precision, hprecision'⟩, rfl⟩
  refine ⟨_, md', (executeImpl_mapped htag hmd hp hsome).trans happly, htag, ?_, hmd', hid',
    hmissing, hprecision', rfl⟩
  exact keyed_applyMapping hkeyed happly

/-- The parameter is restored. So are the values, unless one that is not missing is scaled to the
missing value. -/
theorem wmoToLocal_localToWmo (hfile : OneToOne file) (htag : msg.header.tag = .field)
    (hkeyed : msg.header.metadata.Keyed)
    (hmd : readScaleMetadata ctx msg.header.metadata = .ok md)
    {mapping : ScaleMapping K} (hmem : mapping ∈ file) (hp : paramId md = .ok mapping.paramIn)
    {precision : PrecisionTag} (hprecision : msg.header.precision ctx.toContext = .ok precision)
    (hglobal : ctx.parametrization.find? "missingValue" = none) :
    ∃ msg', (executeImpl ctx (getPresetMappings file .localToWmo) msg >>=
        executeImpl ctx (getPresetMappings file .wmoToLocal)) = .ok msg' ∧
      param ctx msg' = .ok mapping.paramIn ∧
      (msg'.values = msg.values ↔ ∀ v ∈ msg.values,
        missingNumber ctx md = some (v * mapping.scaling) → missingNumber ctx md = some v) := by
  obtain ⟨msg₁, md₁, hexec₁, htag₁, hkeyed₁, hmd₁, hp₁, hmissing₁, hprecision₁, hvalues₁⟩ :=
    exists_executeImpl_mapped htag hkeyed hmd hp hprecision hglobal
      (find?_localToWmo_paramIn hfile hmem)
  obtain ⟨msg₂, md₂, hexec₂, -, -, hmd₂, hp₂, -, -, hvalues₂⟩ :=
    exists_executeImpl_mapped htag₁ hkeyed₁ hmd₁ hp₁ hprecision₁ hglobal
      (find?_wmoToLocal hfile hmem)
  refine ⟨msg₂, ?_, param_eq_ok_iff.mpr ⟨md₂, hmd₂, hp₂⟩, ?_⟩
  · rw [hexec₁, ok_bind, hexec₂]
  · have hself := List.map_inj_left (l := msg.values) (g := id)
      (f := scaleValue (missingNumber ctx md) (1 / mapping.scaling) ∘
        scaleValue (missingNumber ctx md) mapping.scaling)
    rw [List.map_id] at hself
    rw [hvalues₂, hvalues₁, hmissing₁, List.map_map, hself]
    exact forall₂_congr fun v _ =>
      scaleValue_inverse_iff (hfile.scaling mapping hmem) (missingNumber ctx md) v

end

/-- What the presets are for, for a field of the parameter `p`. -/
structure PresetsInverse [DecidableEq K] [Field K] (ctx : ScaleContext K)
    (file : List (ScaleMapping K)) (localToWmo wmoToLocal : Mappings K) (msg : ScaleMessage K)
    (p : ℤ) : Prop where
  localToWmo_only : p ∉ file.map ScaleMapping.paramIn → executeImpl ctx localToWmo msg = .ok msg
  localToWmo_twice : (executeImpl ctx localToWmo msg >>= executeImpl ctx localToWmo) =
    executeImpl ctx localToWmo msg
  wmoToLocal_only : p ∉ file.map ScaleMapping.paramOut → executeImpl ctx wmoToLocal msg = .ok msg
  restored : p ∈ file.map ScaleMapping.paramIn →
    ∃ msg', (executeImpl ctx localToWmo msg >>= executeImpl ctx wmoToLocal) = .ok msg' ∧
      param ctx msg' = .ok p ∧ msg'.values = msg.values
  localToWmo_missing : KeepsMissing ctx localToWmo msg
  wmoToLocal_missing : KeepsMissing ctx wmoToLocal msg

section

variable [DecidableEq K] [Field K] {ctx : ScaleContext K} {file : List (ScaleMapping K)}
  {msg msg' : ScaleMessage K} {p : ℤ}

theorem PresetsInverse.notMem_paramIn (hfile : OneToOne file) (htag : msg.header.tag = .field)
    (hkeyed : msg.header.metadata.Keyed) (hp : param ctx msg = .ok p)
    (h : PresetsInverse ctx file (getPresetMappings file .localToWmo)
      (getPresetMappings file .wmoToLocal) msg p) : p ∉ file.map ScaleMapping.paramIn := by
  intro hin
  obtain ⟨md, hmd, hid⟩ := param_eq_ok_iff.mp hp
  obtain ⟨mapping, hmem, rfl⟩ := List.mem_map.mp hin
  obtain ⟨msg₂, hmsg₂, -⟩ := h.restored hin
  obtain ⟨msg₁, hmsg₁, -⟩ := bind_eq_ok_iff.mp hmsg₂
  have htwice := h.localToWmo_twice
  rw [hmsg₁, ok_bind] at htwice
  rw [executeImpl_mapped htag hmd hid (find?_localToWmo_paramIn hfile hmem)] at hmsg₁
  have htag₁ : msg₁.header.tag = .field := (tag_applyMapping hmsg₁).trans htag
  obtain ⟨q, hq⟩ := exists_param_of_executeImpl htag₁ htwice
  have hqout := param_of_applyMapping hkeyed hmsg₁ hq
  subst hqout
  have heq := paramOut_of_unchanged htag₁ (keyed_applyMapping hkeyed hmsg₁) hq htwice
    (find?_localToWmo_paramOut hfile hmem)
  exact hfile.disjoint mapping hmem mapping hmem heq.symm

theorem PresetsInverse.notMem_paramOut (hfile : OneToOne file) (htag : msg.header.tag = .field)
    (hkeyed : msg.header.metadata.Keyed) (hp : param ctx msg = .ok p)
    (h : PresetsInverse ctx file (getPresetMappings file .localToWmo)
      (getPresetMappings file .wmoToLocal) msg p) : p ∉ file.map ScaleMapping.paramOut := by
  intro hout
  obtain ⟨mapping, hmem, rfl⟩ := List.mem_map.mp hout
  have hin : mapping.paramOut ∉ file.map ScaleMapping.paramIn := by
    intro hin
    obtain ⟨m, hm, heq⟩ := List.mem_map.mp hin
    exact hfile.disjoint m hm mapping hmem heq
  have heq := paramOut_of_unchanged htag hkeyed hp (h.localToWmo_only hin)
    (find?_localToWmo_paramOut hfile hmem)
  exact hfile.disjoint mapping hmem mapping hmem heq.symm

theorem presetsInverse_of_notMem (htag : msg.header.tag = .field) (hp : param ctx msg = .ok p)
    (hin : p ∉ file.map ScaleMapping.paramIn) (hout : p ∉ file.map ScaleMapping.paramOut) :
    PresetsInverse ctx file (getPresetMappings file .localToWmo)
      (getPresetMappings file .wmoToLocal) msg p := by
  have hl := executeImpl_unmapped htag hp (find?_localToWmo_of_not_mem hin hout)
  have hw := executeImpl_unmapped htag hp (find?_wmoToLocal_of_not_mem hout)
  exact
    { localToWmo_only := fun _ => hl
      localToWmo_twice := by rw [hl, ok_bind, hl]
      wmoToLocal_only := fun _ => hw
      restored := fun h => absurd h hin
      localToWmo_missing := keepsMissing ctx _ htag
      wmoToLocal_missing := keepsMissing ctx _ htag }

/-- The presets do what they are for exactly on the fields that neither of them changes. A field of
an input parameter comes back all the same, unless a value is scaled to the missing one. -/
theorem presetsInverse_iff (hfile : OneToOne file) (htag : msg.header.tag = .field)
    (hkeyed : msg.header.metadata.Keyed) (hp : param ctx msg = .ok p)
    {localToWmo wmoToLocal : Mappings K}
    (hlocalToWmo : getMappings file { preset := some .localToWmo } = .ok localToWmo)
    (hwmoToLocal : getMappings file { preset := some .wmoToLocal } = .ok wmoToLocal) :
    (PresetsInverse ctx file localToWmo wmoToLocal msg p ↔
      p ∉ file.map ScaleMapping.paramIn ∧ p ∉ file.map ScaleMapping.paramOut) ∧
    ∀ mapping ∈ file, mapping.paramIn = p → ∀ md precision,
      readScaleMetadata ctx msg.header.metadata = .ok md →
      msg.header.precision ctx.toContext = .ok precision →
      ctx.parametrization.find? "missingValue" = none →
      ∃ msg', (executeImpl ctx localToWmo msg >>= executeImpl ctx wmoToLocal) = .ok msg' ∧
        param ctx msg' = .ok p ∧
        (msg'.values = msg.values ↔ ∀ v ∈ msg.values,
          missingNumber ctx md = some (v * mapping.scaling) → missingNumber ctx md = some v) := by
  have hl := eq_of_getMappings hlocalToWmo
  have hw := eq_of_getMappings hwmoToLocal
  subst hl hw
  refine ⟨⟨?_, ?_⟩, ?_⟩
  · intro h
    exact ⟨h.notMem_paramIn hfile htag hkeyed hp, h.notMem_paramOut hfile htag hkeyed hp⟩
  · rintro ⟨hin, hout⟩
    exact presetsInverse_of_notMem htag hp hin hout
  · intro mapping hmem hparam md precision hmd hprecision hglobal
    obtain ⟨md', hmd', hid⟩ := param_eq_ok_iff.mp hp
    rw [hmd] at hmd'
    obtain rfl := Except.ok.inj hmd'
    subst hparam
    exact wmoToLocal_localToWmo hfile htag hkeyed hmd hmem hid hprecision hglobal

def precipitationContext : ScaleContext ℚ where
  parametrization := { bucketCount := 1 }
  toString _ := ""
  conversions := noConversions
  policy := oneBucket
  number bits := (StatisticsMtg2.BinaryFormat.of .double).decode bits.toNat

def precipitationFile : List (ScaleMapping ℚ) := [⟨228, 228228, 1000⟩]

theorem precipitationFile_oneToOne : OneToOne precipitationFile where
  paramIn := by decide
  paramOut := by decide
  disjoint := by simp [precipitationFile]
  scaling := by simp [precipitationFile]

def precipitationField (param : ℤ) : ScaleMessage ℚ where
  header :=
    { tag := .field
      source := {}
      destination := {}
      metadata :=
        { bucketCount := 1
          nodes := [("param", .int64 param), ("misc-precision", .string "double")] } }
  values := [0, 1]

theorem precipitationField_keyed (param : ℤ) :
    (precipitationField param).header.metadata.Keyed := by
  change [("param" : String), "misc-precision"].Nodup
  decide

/-- A field in millimetres is changed by `local-to-wmo`. -/
theorem presetsInverse_millimetres :
    OneToOne precipitationFile ∧
      getMappings precipitationFile { preset := some .localToWmo } =
        .ok (getPresetMappings precipitationFile .localToWmo) ∧
      getMappings precipitationFile { preset := some .wmoToLocal } =
        .ok (getPresetMappings precipitationFile .wmoToLocal) ∧
      param precipitationContext (precipitationField 228228) = .ok 228228 ∧
      ¬ PresetsInverse precipitationContext precipitationFile
        (getPresetMappings precipitationFile .localToWmo)
        (getPresetMappings precipitationFile .wmoToLocal) (precipitationField 228228) 228228 := by
  refine ⟨precipitationFile_oneToOne, rfl, rfl, rfl, ?_⟩
  intro h
  have hunchanged := h.localToWmo_only (by decide)
  have hvalues := congrArg (Except.map ScaleMessage.values) hunchanged
  have hscaled : (executeImpl precipitationContext
      (getPresetMappings precipitationFile .localToWmo) (precipitationField 228228)).map
        ScaleMessage.values = .ok [0, 1 / 1000] := by decide +kernel
  rw [hscaled] at hvalues
  exact absurd (Except.ok.inj hvalues) (by decide +kernel)

theorem presetsInverse_iff_temperature :
    OneToOne precipitationFile ∧
      (PresetsInverse precipitationContext precipitationFile
          (getPresetMappings precipitationFile .localToWmo)
          (getPresetMappings precipitationFile .wmoToLocal) (precipitationField 130) 130 ↔
        (130 : ℤ) ∉ precipitationFile.map ScaleMapping.paramIn ∧
          (130 : ℤ) ∉ precipitationFile.map ScaleMapping.paramOut) ∧
      ∃ msg', (executeImpl precipitationContext (getPresetMappings precipitationFile .localToWmo)
          (precipitationField 228) >>=
            executeImpl precipitationContext (getPresetMappings precipitationFile .wmoToLocal)) =
              .ok msg' ∧
        param precipitationContext msg' = .ok 228 ∧
        (msg'.values = [0, 1] ↔ ∀ v ∈ [(0 : ℚ), 1],
          (none : Option ℚ) = some (v * 1000) → (none : Option ℚ) = some v) := by
  have hp : param precipitationContext (precipitationField 228) = .ok 228 := rfl
  obtain ⟨md, hmd, hmissing⟩ : ∃ md, readScaleMetadata precipitationContext
      (precipitationField 228).header.metadata = .ok md ∧
        missingNumber precipitationContext md = none := ⟨_, rfl, rfl⟩
  have hrestored := (presetsInverse_iff precipitationFile_oneToOne rfl
    (precipitationField_keyed 228) hp rfl rfl).2 _ List.mem_cons_self rfl md .double hmd rfl rfl
  rw [hmissing] at hrestored
  exact ⟨precipitationFile_oneToOne, (presetsInverse_iff precipitationFile_oneToOne rfl
    (precipitationField_keyed 130) rfl rfl rfl).1, hrestored⟩

end

end Multio.Action.Scale
