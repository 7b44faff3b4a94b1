import Multio.Mars2Grib.Rules

namespace Multio.Mars2Grib

open Datamod RecordType

inductive EncoderException
  | rules (e : Mars2GribException FullMarsRecord SectionsConf)
  | noneOfTheOutermostRulesApply
  | pdt (e : PdtException)
  | dataModelling (e : Exception)
  | encoder (what : String)

def buildEncoderConf (mars : FullMarsRecord) : Except EncoderException SectionsConf :=
  match Rules.allRules.toDynRule.apply mars {} with
  | (.error e, _) => .error (.rules e)
  | (.ok false, _) => .error .noneOfTheOutermostRulesApply
  | (.ok true, sections) =>
    match sections.applyRecordDefaults with
    | .error e => .error (.pdt e)
    | .ok sections =>
      match sections.validateRecord with
      | .error e => .error (.dataModelling e)
      | .ok () => .ok sections

/-- `MarsCacheRecord::applyDefaults`. -/
def MarsCacheRecord.applyDefaults (cacheKeys : FullMarsRecord) : FullMarsRecord := fun k =>
  match k with
  | .levelist =>
    if (cacheKeys .levtype).visit = some .ML then .unset else (cacheKeys .levelist).acquire
  | .step | .direction | .frequency => .unset
  | k => (cacheKeys k).acquire

def cacheKeys (marsKeys : FullMarsRecord) : FullMarsRecord :=
  MarsCacheRecord.applyDefaults (applyDefaults (R := marsRecord) marsKeys)

/-- `readRecord<MarsCacheRecord>(marsKeys)`. -/
def readCacheRecord (marsKeys : FullMarsRecord) : Except Exception FullMarsRecord := do
  validateRecord (R := marsRecord) (cacheKeys marsKeys)
  return cacheKeys marsKeys

structure PrehashedMarsKeys (H : StdHash) where
  value : marsRecord.Record
  hash : UInt64
  hash_eq : hash = hashRecord H value

def PrehashedMarsKeys.make (H : StdHash) (value : marsRecord.Record) : PrehashedMarsKeys H where
  value := value
  hash := hashRecord H value
  hash_eq := rfl

/-- The keys have the same values, held or referred to. -/
abbrev SameKeys (key key' : FullMarsRecord) : Prop := SameValues (R := marsRecord) key key'

section

variable {H : StdHash} {Dicts Prepared : Type}

/-- `prepared` stands for the raw encoder and the prepared sample. -/
structure CacheEntry (Prepared : Type) where
  sections : SectionsConf
  prepared : Prepared

abbrev Cache (H : StdHash) (Prepared : Type) : Type :=
  List (PrehashedMarsKeys H × CacheEntry Prepared)

/-- `cache_.find(cacheKeySet)`, if it comes back within `fuel` calls. Keys are compared when
their hashes are equal. -/
def find (fuel : ℕ) (cacheKeySet : PrehashedMarsKeys H) :
    Cache H Prepared → Option (Option (CacheEntry Prepared))
  | [] => some none
  | (key, entry) :: nodes =>
    if key.hash = cacheKeySet.hash then do
      if ← equalToRecord fuel key.value cacheKeySet.value then some (some entry)
      else find fuel cacheKeySet nodes
    else find fuel cacheKeySet nodes

/-- The arguments of a lookup: the record, and the dictionaries made of it. -/
structure Request (Dicts : Type) where
  marsKeys : FullMarsRecord
  dicts : Dicts

variable (prepare : Request Dicts → SectionsConf → Except String Prepared)

/-- What is done when there is no entry: nothing is kept if one of the calls throws. -/
def makeEntry (cacheKeySet : PrehashedMarsKeys H) (cache : Cache H Prepared)
    (request : Request Dicts) :
    Except EncoderException (CacheEntry Prepared) × Cache H Prepared :=
  match buildEncoderConf request.marsKeys with
  | .error e => (.error e, cache)
  | .ok sections =>
    match prepare request sections with
    | .error what => (.error (.encoder what), cache)
    | .ok prepared => (.ok ⟨sections, prepared⟩, (cacheKeySet, ⟨sections, prepared⟩) :: cache)

/-- The entry of a record and the cache after the lookup, if it comes back within `fuel` calls. -/
def makeOrGetEntry (fuel : ℕ) (cache : Cache H Prepared) (request : Request Dicts) :
    Option (Except EncoderException (CacheEntry Prepared) × Cache H Prepared) :=
  match readCacheRecord request.marsKeys with
  | .error e => some (.error (.dataModelling e), cache)
  | .ok key => do
    match ← find fuel (.make H key) cache with
    | some entry => return (.ok entry, cache)
    | none => return makeEntry prepare (.make H key) cache request

def lookups (fuel : ℕ) : Cache H Prepared → List (Request Dicts) → Option (Cache H Prepared)
  | cache, [] => some cache
  | cache, request :: requests => do
    let (_, cache) ← makeOrGetEntry prepare fuel cache request
    lookups fuel cache requests

/-- The lookup comes back, and with the configuration that would be built anew if with any. -/
def Fresh (cache : Cache H Prepared) (request : Request Dicts) : Prop :=
  ∃ fuel result cache', makeOrGetEntry prepare fuel cache request = some (result, cache') ∧
    ∀ entry, result = .ok entry → buildEncoderConf request.marsKeys = .ok entry.sections

end

/-- The keys are the same up to `stattype`, which both have. -/
def ClashingKeys (key key' : FullMarsRecord) : Prop :=
  (∀ k ∈ MarsKey.all.takeWhile (· ≠ .stattype), (key k).visit = (key' k).visit) ∧
    (key .stattype).isSet ∧ (key' .stattype).isSet

/-- The cache has an entry of the same hash whose key clashes with that of the record. -/
def Clash {H : StdHash} {Prepared : Type} (cache : Cache H Prepared) (marsKeys : FullMarsRecord) :
    Prop :=
  ∃ key, readCacheRecord marsKeys = .ok key ∧
    ∃ node ∈ cache, node.1.hash = hashRecord (R := marsRecord) H key ∧
      ClashingKeys node.1.value key

end Multio.Mars2Grib
