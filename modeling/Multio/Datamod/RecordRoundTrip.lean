import Multio.Datamod.ConfigurationInterop
import Multio.Datamod.MarsMiscGeo

namespace Multio.Datamod

open Lib

namespace RecordType

variable {R : RecordType}

def ReadBack (parsed : Except Exception R.Record) (rec : R.Record) : Prop :=
  ∃ rec', parsed = .ok rec' ∧ SameValues rec' rec

section RoundTrip

variable {A : ConfigurationApi} (C : Conversions) {empties : ConfKind → Bool}
  (F : A.Faithful empties)

include F

theorem checkConfiguration_dump (rec : R.Record) :
    checkConfiguration A R (dumpConfiguration A rec A.empty) = .ok () := by
  have hnil : (A.keys (dumpConfiguration A rec A.empty)).filter
      (fun key => !R.containsKey key) = [] := by
    rw [List.filter_eq_nil_iff]
    intro key hkey hextra
    apply (F.mem_keys _ key).mp hkey
    apply (contents_dumpConfiguration F rec).2
    simpa [containsKey] using hextra
  rw [checkConfiguration, hnil]
  rfl

theorem readBack_configuration_iff (allow : Bool) {rec : R.Record}
    (hvalid : validateRecord rec = .ok ()) :
    ReadBack (parseConfiguration A C R allow (dumpConfiguration A rec A.empty)) rec ↔
      ∀ k v, (rec k).visit = some v → Kept empties (R.type k) v := by
  have hcontents := (contents_dumpConfiguration F rec).1
  have hcheck : allow = false → checkConfiguration A R (dumpConfiguration A rec A.empty) = .ok () :=
    fun _ => checkConfiguration_dump F rec
  have hvalue : ∀ k v, (rec k).visit = some v →
      F.contents (dumpConfiguration A rec A.empty) (R.key k) =
        some (.value ((R.type k).dump v)) := by
    intro k v hv
    rw [hcontents k, inConfiguration, hv]
    rfl
  constructor
  · rintro ⟨rec', hparse, -⟩ k v hv
    by_contra hkept
    have hget := (parseRecord_eq_ok_iff hcheck rec').mp hparse k
    exact (getFromConfiguration_value C F (hvalue k v hv)).2 hkept (rec' k) hget
  · intro hkept
    have hget : ∀ k, ∃ e, getFromConfiguration A C (dumpConfiguration A rec A.empty) k = .ok e ∧
        e.visit = (rec k).visit := by
      intro k
      cases hv : (rec k).visit with
      | some v => exact (getFromConfiguration_value C F (hvalue k v hv)).1 (hkept k v hv)
      | none =>
        have htag : R.tag k = .Optional := by
          apply ((validateRecord_eq_ok_iff rec).mp hvalid k).resolve_right
          rw [Entry.isSet, hv]
          exact Bool.false_ne_true
        refine ⟨.unset, getFromConfiguration_unset C F htag ?_, rfl⟩
        rw [hcontents k, inConfiguration, hv]
        rfl
    choose rec' hrec' hvisit using hget
    exact ⟨rec', (parseRecord_eq_ok_iff hcheck rec').mpr hrec', hvisit⟩

/-- A valid record is read back through both kinds of containers exactly when the lists that it
has are kept by a configuration. -/
theorem record_round_trip_iff (ctx : Context) (hempty : ctx.parametrization.nodes = [])
    (policy : HashPolicy String) (byRef lvalue allow : Bool) (rec : R.Record)
    (hvalid : validateRecord rec = .ok ()) :
    (ReadBack (parseMetadata ctx C R byRef lvalue allow
          (dumpMetadata policy rec (BaseMetadata.empty policy))) rec ∧
        ReadBack (parseConfiguration A C R allow (dumpConfiguration A rec A.empty)) rec) ↔
      ∀ k v, (rec k).visit = some v → Kept empties (R.type k) v := by
  rw [readBack_configuration_iff C F allow hvalid]
  exact and_iff_right (parseMetadata_dumpMetadata ctx C hempty policy byRef lvalue allow hvalid)

end RoundTrip

end RecordType

def TypeTag.ofStd : (t : TypeTag) → StdVal → Option t.Val
  | .bool, .bool v => some v
  | .int64, .int64 v => some v
  | .double, .double v => some v
  | .string, .string v => some v
  | .int64s, .int64s v => some v
  | .doubles, .doubles v => some v
  | .strings, .strings v => some v
  | _, _ => none

def TypeTag.default : (t : TypeTag) → t.Val
  | .bool => false
  | .int64 => (0 : ℤ)
  | .double => (0 : UInt64)
  | .string => ""
  | .int64s => ([] : List ℤ)
  | .doubles => ([] : List UInt64)
  | .strings => ([] : List String)

theorem TypeTag.ofStd_toStd (t : TypeTag) (v : t.Val) : t.ofStd (t.toStd v) = some v := by
  cases t <;> rfl

def listKinds (kind : ConfKind) : Bool :=
  kind ∈ [.booleanList, .floatingPointList, .integralList, .stringList]

def listAnswer (kind : ConfKind) (v : StdVal) : Bool :=
  if v.isEmptyList then listKinds kind else decide (v.kind = kind)

def mapConfiguration : ConfigurationApi where
  Conf := OrderedMap String StdVal
  empty := ∅
  keys conf := conf.entries.map Prod.fst
  has conf key := (conf.find? key).isSome
  isNull _ _ := false
  is kind conf key := (conf.find? key).any (listAnswer kind)
  get t conf key := ((conf.find? key).bind t.ofStd).getD t.default
  set conf key v := conf.insert key v
  remove conf key := conf.erase key
  print conf := String.join (conf.entries.map fun e => e.1 ++ " ")
  printKeys keys := String.join (keys.map fun key => key ++ " ")

namespace mapConfiguration

def contents (conf : OrderedMap String StdVal) (key : String) : Option Content :=
  (conf.find? key).map .value

theorem contents_insert (conf : OrderedMap String StdVal) (key : String) (v : StdVal) :
    contents (conf.insert key v) = Function.update (contents conf) key (some (.value v)) := by
  funext key'
  rw [Function.update_apply, contents, OrderedMap.find?_insert]
  split <;> rfl

theorem contents_erase (conf : OrderedMap String StdVal) (key : String) :
    contents (conf.erase key) = Function.update (contents conf) key none := by
  funext key'
  rw [Function.update_apply, contents, OrderedMap.find?_erase]
  split <;> rfl

theorem contents_eq_value_iff {conf : OrderedMap String StdVal} {key : String} {v : StdVal} :
    contents conf key = some (.value v) ↔ conf.find? key = some v := by
  rw [contents, Option.map_eq_some_iff]
  constructor
  · rintro ⟨v', hfind, hv⟩
    rw [hfind, Content.value.inj hv]
  · exact fun hfind => ⟨v, hfind, rfl⟩

theorem mem_keys_iff (conf : OrderedMap String StdVal) (key : String) :
    key ∈ conf.entries.map Prod.fst ↔ contents conf key ≠ none := by
  have hsome := OrderedMap.mem_keys (m := conf) (k := key)
  rw [OrderedMap.keys, List.mem_toFinset] at hsome
  rw [hsome, contents, ne_eq, Option.map_eq_none_iff, ← ne_eq, Option.ne_none_iff_exists']

def faithful : mapConfiguration.Faithful listKinds where
  contents := contents
  contents_empty _ := rfl
  contents_set := contents_insert
  contents_remove := contents_erase
  mem_keys := mem_keys_iff
  has_eq _ _ := Option.isSome_map.symm
  isNull_eq _ _ _ _ := rfl
  is_eq _ _ _ kind h := congrArg (Option.any (listAnswer kind)) (contents_eq_value_iff.mp h)
  get_eq _ _ t v h := by
    have hget := congrArg (fun found => (Option.bind found t.ofStd).getD t.default)
      (contents_eq_value_iff.mp h)
    rw [Option.bind_some, t.ofStd_toStd] at hget
    exact hget

end mapConfiguration

/-- A grid with three latitudes on either side of the equator, with the list of the numbers of
its points. -/
def reducedGrid (pl : Entry (List ℤ)) : geoGGRecord.Record
  | .truncateDegrees | .numberOfPointsAlongAMeridian => .unset
  | .numberOfParallelsBetweenAPoleAndTheEquator => .value (3 : ℤ)
  | .latitudeOfFirstGridPointInDegrees => .value 0x404E000000000000
  | .longitudeOfFirstGridPointInDegrees => .value 0
  | .latitudeOfLastGridPointInDegrees => .value 0xC04E000000000000
  | .longitudeOfLastGridPointInDegrees => .value 0x4072C00000000000
  | .pl => pl

theorem validateRecord_reducedGrid (pl : Entry (List ℤ)) :
    RecordType.validateRecord (reducedGrid pl) = .ok () := rfl

def noConversions : Conversions where
  int64OfDouble _ := .error (.undefinedBehaviour "conversion")
  doubleOfInt64 _ := 0
  doubleOfFloat _ := 0
  paramId name := .error (.userError name)

/-- The numbers of points are not read back from a configuration. -/
theorem pl_not_read_back :
    RecordType.validateRecord (reducedGrid (.value [4, 8, 12, 12, 8, 4])) = .ok () ∧
      ¬ RecordType.ReadBack
        (RecordType.parseConfiguration mapConfiguration noConversions geoGGRecord true
          (RecordType.dumpConfiguration mapConfiguration
            (reducedGrid (.value [4, 8, 12, 12, 8, 4])) mapConfiguration.empty))
        (reducedGrid (.value [4, 8, 12, 12, 8, 4])) := by
  have hvalid := validateRecord_reducedGrid (.value [4, 8, 12, 12, 8, 4])
  refine ⟨hvalid, ?_⟩
  rw [RecordType.readBack_configuration_iff noConversions mapConfiguration.faithful true hvalid]
  intro hkept
  exact absurd (hkept .pl _ rfl).1 (List.cons_ne_nil 4 _)

def plainContext : Context where
  parametrization := { bucketCount := 1 }
  toString _ := ""

def oneBucket : HashPolicy String where
  hash := String.length
  nextBucketCount n := n

theorem record_round_trip_iff_grid :
    plainContext.parametrization.nodes = [] ∧
      RecordType.validateRecord (reducedGrid .unset) = .ok () ∧
      ((RecordType.ReadBack
            (RecordType.parseMetadata plainContext noConversions geoGGRecord true true true
              (RecordType.dumpMetadata oneBucket (reducedGrid .unset)
                (BaseMetadata.empty oneBucket)))
            (reducedGrid .unset) ∧
          RecordType.ReadBack
            (RecordType.parseConfiguration mapConfiguration noConversions geoGGRecord true
              (RecordType.dumpConfiguration mapConfiguration (reducedGrid .unset)
                mapConfiguration.empty))
            (reducedGrid .unset)) ↔
        ∀ k v, (reducedGrid .unset k).visit = some v →
          RecordType.Kept listKinds (geoGGRecord.type k) v) :=
  ⟨rfl, validateRecord_reducedGrid .unset,
    RecordType.record_round_trip_iff noConversions mapConfiguration.faithful plainContext rfl
      oneBucket true true true (reducedGrid .unset) (validateRecord_reducedGrid .unset)⟩

end Multio.Datamod
