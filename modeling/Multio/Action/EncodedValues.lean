import Multio.Action.EncodeMtg2

namespace Multio.Action.EncodeMtg2
open Datamod Lib Mars2Grib Mars2Mars
open Scale (ScaleMessage scaleValue missingNumber)

variable {K Dicts Prepared Handle : Type} {H : StdHash}

theorem get?_setKeys_missingValue (marsKeys : FullMarsRecord) {miscKeys : MiscRecord}
    (ret : Sample Handle K) {missing : UInt64} (h : (miscKeys .missingValue).visit = some missing) :
    (setKeys marsKeys miscKeys ret).get? "missingValue" = some (.double missing) := by
  rw [setKeys, h]
  dsimp only
  rw [Sample.get?_set, if_pos rfl]

theorem exists_handle_of_getHandle {encoder : RawEncoder Dicts Prepared Handle} {fuel : ℕ}
    {cache cache' : Cache H Prepared} {marsKeys : FullMarsRecord} {miscKeys : MiscRecord}
    {geoKeys : Geometry} {sample : Sample Handle K}
    (h : getHandle encoder fuel cache marsKeys miscKeys geoKeys = some (.ok sample, cache')) :
    ∃ handle, sample = setKeys marsKeys miscKeys { handle } := by
  unfold getHandle at h
  cases hdicts : encoder.dicts marsKeys miscKeys geoKeys with
  | error what => simp [hdicts] at h
  | ok dicts =>
    rw [hdicts] at h
    obtain ⟨made, -, h⟩ := Option.bind_eq_some_iff.mp h
    obtain ⟨entry, made⟩ := made
    cases entry with
    | error e => simp at h
    | ok entry =>
      cases hrun : encoder.runtime entry.prepared dicts with
      | error what => simp [hrun] at h
      | ok handle =>
        simp only [hrun] at h
        cases h
        exact ⟨handle, rfl⟩

section

variable [Mul K] {ctx : EncodeContext K Dicts Prepared Handle}

theorem sample_of_encodeValues {c : Context} {marsRec : FullMarsRecord}
    {mappingResult : Option MappingResult} {msg : ScaleMessage K} {ret sample : Sample Handle K}
    {header : Header}
    (h : encodeValues ctx c marsRec mappingResult msg ret = .ok (.encoded header sample)) :
    sample = ret.set "values" (.doubles (handedValues ctx mappingResult msg.values)) := by
  unfold encodeValues at h
  split_ifs at h
  cases hprecision : msg.header.precision c with
  | error e => simp [hprecision] at h
  | ok precision =>
    rw [hprecision] at h
    cases h
    rfl

variable {rules : DynRule} {fuel : ℕ} {shared shared' : Shared H Prepared} {msg : ScaleMessage K}
variable {records : Records} {parametrization : BaseMetadata} {vals : Vals}
variable {mappingResult : Option MappingResult} {header : Header} {sample : Sample Handle K}

/-- The sample of a field has the keys of its mapped records, and its values. -/
theorem sample_of_executeImpl
    (hrecords : readRecords ctx shared.parametrization msg.header.metadata =
      (.ok records, parametrization))
    (hmapped : applyMappings rules { marsVals := records.mars, miscVals := records.misc } =
      (.ok mappingResult, vals))
    (h : executeImpl ctx rules fuel shared msg = some (.ok (.encoded header sample), shared')) :
    ∃ handle, sample = (setKeys vals.marsVals vals.miscVals { handle }).set "values"
      (.doubles (handedValues ctx mappingResult msg.values)) := by
  unfold executeImpl at h
  split_ifs at h with htag
  · simp at h
  · simp only [hrecords, hmapped] at h
    obtain ⟨made, hmade, h⟩ := Option.bind_eq_some_iff.mp h
    obtain ⟨entry, cache⟩ := made
    cases entry with
    | error e => simp at h
    | ok ret =>
      obtain ⟨handle, rfl⟩ := exists_handle_of_getHandle hmade
      have hencode := congrArg Prod.fst (Option.some.inj h)
      exact ⟨handle, sample_of_encodeValues hencode⟩

end

/-- The sample has the value of the field at every point, scaled unless it is the missing one, which
are the values of the scale action for the factor. -/
structure KeepsMissing [DecidableEq K] [Mul K] (ctx : EncodeContext K Dicts Prepared Handle)
    (msg : ScaleMessage K) (sample : Sample Handle K) (missing factor : K) : Prop where
  points : sample.get? "values" =
    some (.doubles (msg.values.map fun v => if v = missing then missing else factor * v))
  asScaled : ∀ md mapping scaled, missingNumber ctx.toScaleContext md = some missing →
    mapping.scaling = factor →
      Scale.applyMapping ctx.toScaleContext md mapping msg = .ok scaled →
        sample.get? "values" = some (.doubles scaled.values)

section

variable [DecidableEq K] [Field K]

/-- Values that are all scaled are scaled but for the missing one if that one is not moved. -/
theorem map_scale_eq_iff (values : List K) (missing factor : K) :
    values.map (· * factor) = values.map (scaleValue (some missing) factor) ↔
      (missing ∈ values → missing = 0 ∨ factor = 1) := by
  rw [List.map_inj_left]
  constructor
  · intro h hmem
    have hmissing := h missing hmem
    rw [Scale.scaleValue_missing] at hmissing
    exact (mul_right_eq_self₀.mp hmissing).symm
  · intro h v hv
    by_cases hmissing : v = missing
    · subst hmissing
      rw [Scale.scaleValue_missing]
      rcases h hv with rfl | rfl
      · exact zero_mul _
      · exact mul_one _
    · rw [Scale.scaleValue_of_ne hmissing]

variable {ctx : EncodeContext K Dicts Prepared Handle} {msg : ScaleMessage K}
variable {sample : Sample Handle K}

/-- What a sample is handed when a factor is set keeps the missing points if the factor does not
move the missing value, or if there are none. -/
theorem keepsMissing_iff {scaleFactor : UInt64} {missing : K}
    (hvalues : sample.get? "values" = some (.doubles
      (handedValues ctx (some { valuesScaleFactor := some scaleFactor }) msg.values))) :
    KeepsMissing ctx msg sample missing (ctx.number scaleFactor) ↔
      (missing ∈ msg.values → missing = 0 ∨ ctx.number scaleFactor = 1) := by
  rw [← map_scale_eq_iff msg.values]
  have hpoints : (msg.values.map fun v => if v = missing then missing
      else ctx.number scaleFactor * v) =
        msg.values.map (scaleValue (some missing) (ctx.number scaleFactor)) := by
    apply List.map_congr_left
    intro v _
    rw [scaleValue, mul_comm]
  constructor
  · intro h
    have hsame := hvalues.symm.trans h.points
    rw [hpoints] at hsame
    exact CodesValue.doubles.inj (Option.some.inj hsame)
  · intro h
    have hscaled : sample.get? "values" =
        some (.doubles (msg.values.map (scaleValue (some missing) (ctx.number scaleFactor)))) := by
      rw [← h]
      exact hvalues
    refine ⟨by rw [hpoints, hscaled], ?_⟩
    intro md mapping scaled hmissing hfactor happly
    obtain ⟨header, -, -, rfl⟩ := Scale.applyMapping_eq_ok_iff.mp happly
    rw [hscaled, hmissing, hfactor]

/-- A field that is encoded has the missing value of its metadata on the sample, and its values are
scaled as the scale action does exactly if no point is missing, or the missing value is zero, or
the factor is one. -/
theorem missingPoints_iff (ctx : EncodeContext K Dicts Prepared Handle) (rules : DynRule)
    (fuel : ℕ) (shared shared' : Shared H Prepared) (msg : ScaleMessage K) (records : Records)
    (parametrization : BaseMetadata) (vals : Vals) (scaleFactor missingValue : UInt64)
    (header : Header) (sample : Sample Handle K)
    (hrecords : readRecords ctx shared.parametrization msg.header.metadata =
      (.ok records, parametrization))
    (hmapped : applyMappings rules { marsVals := records.mars, miscVals := records.misc } =
      (.ok (some { valuesScaleFactor := some scaleFactor }), vals))
    (hmissing : (vals.miscVals .missingValue).visit = some missingValue)
    (hencoded : executeImpl ctx rules fuel shared msg =
      some (.ok (.encoded header sample), shared')) :
    sample.get? "missingValue" = some (.double missingValue) ∧
      (KeepsMissing ctx msg sample (ctx.number missingValue) (ctx.number scaleFactor) ↔
        (ctx.number missingValue ∈ msg.values →
          ctx.number missingValue = 0 ∨ ctx.number scaleFactor = 1)) := by
  obtain ⟨handle, rfl⟩ := sample_of_executeImpl hrecords hmapped hencoded
  constructor
  · rw [Sample.get?_set, if_neg (by decide)]
    exact get?_setKeys_missingValue vals.marsVals _ hmissing
  · apply keepsMissing_iff
    rw [Sample.get?_set, if_pos rfl]

end

def plainEncoder : EncodeContext ℚ Unit Unit Unit where
  toScaleContext := Scale.precipitationContext
  options := {}
  encoder :=
    { dicts := fun _ _ _ => .ok ()
      prepare := fun _ _ => .ok ()
      runtime := fun _ _ => .ok () }
  atlasGG gridName := .error (.notImplemented gridName)
  atlasLL gridName := .error (.notImplemented gridName)
  printMars _ := ""
  printValue _ := ""

def nines : UInt64 := 0x40C3878000000000

def precipitationMetadata (missingValue : UInt64) : BaseMetadata where
  bucketCount := 1
  nodes :=
    [("class", .string "od"), ("stream", .string "oper"), ("type", .string "fc"),
      ("expver", .string "0001"), ("param", .int64 228), ("levtype", .string "sfc"),
      ("date", .int64 20250101), ("time", .int64 0), ("packing", .string "ccsds"),
      ("grid", .string "N4"),
      ("geo-N4-numberOfParallelsBetweenAPoleAndTheEquator", .int64 4),
      ("geo-N4-latitudeOfFirstGridPointInDegrees", .double 0),
      ("geo-N4-longitudeOfFirstGridPointInDegrees", .double 0),
      ("geo-N4-latitudeOfLastGridPointInDegrees", .double 0),
      ("geo-N4-longitudeOfLastGridPointInDegrees", .double 0),
      ("misc-precision", .string "double"), ("misc-bitmapPresent", .bool true),
      ("misc-missingValue", .double missingValue)]

def precipitation (missingValue : UInt64) (values : List ℚ) : ScaleMessage ℚ where
  header :=
    { tag := .field
      source := {}
      destination := {}
      metadata := precipitationMetadata missingValue }
  values

def noneShared : Shared roughHash Unit where
  parametrization := { bucketCount := 1 }
  cache := []

def encodedSample {Handle : Type} :
    Option (Except Failure (Passed K Handle) × Shared H Prepared) → Option (Sample Handle K)
  | some (.ok (.encoded _ sample), _) => some sample
  | _ => none

theorem exists_of_encodedSample
    {result : Option (Except Failure (Passed K Handle) × Shared H Prepared)}
    {sample : Sample Handle K} (h : encodedSample result = some sample) :
    ∃ header shared', result = some (.ok (.encoded header sample), shared') := by
  unfold encodedSample at h
  split at h
  · cases h
    exact ⟨_, _, rfl⟩
  · cases h

/-- The values and the missing value of the sample of precipitation. -/
def handed (missingValue : UInt64) (values : List ℚ) :
    Option (Option (CodesValue ℚ) × Option (CodesValue ℚ)) :=
  (encodedSample (executeImpl plainEncoder allRules 0 noneShared
      (precipitation missingValue values))).map
    fun sample => (sample.get? "values", sample.get? "missingValue")

theorem exists_of_handed {missingValue : UInt64} {values : List ℚ} {v m : CodesValue ℚ}
    (h : handed missingValue values = some (some v, some m)) :
    ∃ header sample shared',
      executeImpl plainEncoder allRules 0 noneShared (precipitation missingValue values) =
        some (.ok (.encoded header sample), shared') ∧
      sample.get? "values" = some v ∧ sample.get? "missingValue" = some m := by
  obtain ⟨sample, hsample, hkeys⟩ := Option.map_eq_some_iff.mp h
  obtain ⟨header, shared', hencoded⟩ := exists_of_encodedSample hsample
  exact ⟨header, sample, shared', hencoded, congrArg Prod.fst hkeys, congrArg Prod.snd hkeys⟩

/-- The rules turn metres to millimetres and keep the missing value. -/
def toMillimetres (missingValue : UInt64) (records : Records) : Bool :=
  match applyMappings allRules { marsVals := records.mars, miscVals := records.misc } with
  | (.ok mappingResult, vals) =>
    decide (mappingResult = some { valuesScaleFactor := some thousand }) &&
      decide ((vals.miscVals .missingValue).visit = some missingValue)
  | _ => false

theorem applyMappings_of_toMillimetres {missingValue : UInt64} {records : Records}
    (h : toMillimetres missingValue records = true) :
    ∃ vals, applyMappings allRules { marsVals := records.mars, miscVals := records.misc } =
      (.ok (some { valuesScaleFactor := some thousand }), vals) ∧
        (vals.miscVals .missingValue).visit = some missingValue := by
  unfold toMillimetres at h
  split at h
  · next mappingResult vals happly =>
    rw [Bool.and_eq_true, decide_eq_true_eq, decide_eq_true_eq] at h
    rw [happly, h.1]
    exact ⟨vals, rfl, h.2⟩
  · cases h

theorem number_nines : plainEncoder.number nines = 9999 := by decide +kernel

theorem number_thousand : plainEncoder.number thousand = 1000 := by decide +kernel

/-- A missing point whose value is zero is zero in millimetres as well. -/
theorem missingPoints_iff_zero :
    ∃ header sample shared',
      executeImpl plainEncoder allRules 0 noneShared (precipitation 0 [1, 0]) =
        some (.ok (.encoded header sample), shared') ∧
      sample.get? "missingValue" = some (.double 0) ∧
        KeepsMissing plainEncoder (precipitation 0 [1, 0]) sample (plainEncoder.number 0) 1000 := by
  have hhanded : handed 0 [1, 0] = some (some (.doubles [1000, 0]), some (.double 0)) := by
    decide +kernel
  have hread : ((readRecords plainEncoder noneShared.parametrization
      (precipitationMetadata 0)).1.toOption.any (toMillimetres 0)) = true := by decide +kernel
  have hzero : plainEncoder.number 0 = 0 := by decide +kernel
  obtain ⟨header, sample, shared', hencoded, -, -⟩ := exists_of_handed hhanded
  cases hrecords : readRecords plainEncoder noneShared.parametrization (precipitationMetadata 0) with
  | mk entry parametrization =>
    rw [hrecords] at hread
    cases entry with
    | error e => cases hread
    | ok records =>
      obtain ⟨vals, hmapped, hmissing⟩ := applyMappings_of_toMillimetres hread
      have h := missingPoints_iff plainEncoder allRules 0 noneShared shared' (precipitation 0 [1, 0])
        records parametrization vals thousand 0 header sample hrecords hmapped hmissing hencoded
      rw [number_thousand] at h
      exact ⟨header, sample, shared', hencoded, h.1, h.2.mpr fun _ => Or.inl hzero⟩

/-- The missing point is encoded as 9999 metres in millimetres, which is no missing point. -/
theorem missing_point_scaled :
    ∃ header sample shared', executeImpl plainEncoder allRules 0 noneShared
        (precipitation nines [1, 9999]) = some (.ok (.encoded header sample), shared') ∧
      plainEncoder.number nines = 9999 ∧ sample.get? "missingValue" = some (.double nines) ∧
      sample.get? "values" = some (.doubles [1000, 9999000]) ∧
      ¬ KeepsMissing plainEncoder (precipitation nines [1, 9999]) sample 9999 1000 := by
  have hhanded : handed nines [1, 9999] =
      some (some (.doubles [1000, 9999000]), some (.double nines)) := by decide +kernel
  obtain ⟨header, sample, shared', hencoded, hvalues, hmissing⟩ := exists_of_handed hhanded
  refine ⟨header, sample, shared', hencoded, number_nines, hmissing, hvalues, ?_⟩
  intro h
  have hpoints := CodesValue.doubles.inj (Option.some.inj (hvalues.symm.trans h.points))
  exact absurd hpoints (by decide +kernel)

end Multio.Action.EncodeMtg2
