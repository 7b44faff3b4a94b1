import Multio.Mars2Grib.EncoderCache
import Multio.Mars2Grib.RuleReads

namespace Multio.Mars2Grib

open Datamod RecordType

def uncached : List MarsKey := [.step, .direction, .frequency, .origin]

theorem allRules_blind : Rules.allRules.blind (.all []) uncached := by decide +kernel

theorem allRules_blind_ML :
    Rules.allRules.blind (Rules.matchLevType .ML) (.levelist :: uncached) := by decide +kernel

theorem visit_cacheKeys {k : MarsKey} (mars : FullMarsRecord)
    (hk : k ∉ .levelist :: uncached) : (cacheKeys mars k).visit = (mars k).visit := by
  simp only [uncached, List.mem_cons, List.not_mem_nil, or_false, not_or] at hk
  cases k <;> simp_all [cacheKeys, MarsCacheRecord.applyDefaults, applyDefaults,
    MarsKey.defaultValue]

theorem visit_levelist_cacheKeys (mars : FullMarsRecord) :
    (cacheKeys mars .levelist).visit =
      if (mars .levtype).visit = some .ML then none else (mars .levelist).visit := by
  change (if (mars .levtype).visit = some .ML then Entry.unset
    else (mars .levelist).acquire).visit = _
  by_cases hML : (mars .levtype).visit = some .ML
  · rw [if_pos hML, if_pos hML]
    rfl
  · rw [if_neg hML, if_neg hML, Entry.visit_acquire]

theorem sameExcept_of_sameKeys {mars mars' : FullMarsRecord}
    (hsame : SameKeys (cacheKeys mars) (cacheKeys mars')) :
    SameExcept uncached mars mars' ∨
      SameExcept (.levelist :: uncached) mars mars' ∧ (mars .levtype).visit = some .ML := by
  have hkeys : SameExcept (.levelist :: uncached) mars mars' := by
    intro k hk
    rw [← visit_cacheKeys mars hk, ← visit_cacheKeys mars' hk]
    exact hsame k
  by_cases hML : (mars .levtype).visit = some .ML
  · exact .inr ⟨hkeys, hML⟩
  · refine .inl fun k hk => ?_
    by_cases hlevelist : k = .levelist
    · subst hlevelist
      have hML' : (mars' .levtype).visit ≠ some .ML := by
        rwa [← hkeys .levtype (by decide)]
      have hlevel : (cacheKeys mars .levelist).visit = (cacheKeys mars' .levelist).visit :=
        hsame .levelist
      rw [visit_levelist_cacheKeys, visit_levelist_cacheKeys, if_neg hML, if_neg hML'] at hlevel
      exact hlevel
    · exact hkeys k (List.not_mem_cons_of_ne_of_not_mem hlevelist hk)

theorem alike_of_sameKeys {mars mars' : FullMarsRecord}
    (hsame : SameKeys (cacheKeys mars) (cacheKeys mars')) :
    DynRule.Alike mars mars' Rules.allRules.toDynRule := by
  rcases sameExcept_of_sameKeys hsame with hexcept | ⟨hexcept, hML⟩
  · exact RuleTree.alike_of_blind hexcept (by simp [Matcher.apply]) _ allRules_blind
  · apply RuleTree.alike_of_blind hexcept _ _ allRules_blind_ML
    simp [Matcher.apply, Rules.matchLevType, Matcher.oneOf, KeyTest.matchesRecord,
      KeyMatcher.matchesValue, hML]

/-- Records with the same cache keys get the same configuration, or both fail. -/
theorem buildEncoderConf_congr {mars mars' : FullMarsRecord}
    (hsame : SameKeys (cacheKeys mars) (cacheKeys mars')) :
    (buildEncoderConf mars).toOption = (buildEncoderConf mars').toOption := by
  rw [buildEncoderConf, buildEncoderConf]
  rcases DynRule.alike_cases (alike_of_sameKeys hsame) {} with
    ⟨b, conf, happly, happly'⟩ | ⟨e, e', conf, happly, happly'⟩
  · rw [happly, happly']
  · rw [happly, happly']
    rfl

theorem readCacheRecord_eq {mars key : FullMarsRecord} (h : readCacheRecord mars = .ok key) :
    cacheKeys mars = key := by
  obtain ⟨_, -, heq⟩ := Exception.bind_eq_ok_iff.mp h
  exact Except.ok.inj heq

theorem marsRecord_types (k : MarsKey) :
    marsRecord.type k = .statType ∨ (marsRecord.type k).Plain := by
  cases k <;> simp [ValueType.Plain]

theorem type_eq_statType_iff (k : MarsKey) : marsRecord.type k = .statType ↔ k = .stattype := by
  cases k <;> simp

theorem not_stuck_of_not_mem {key key' : FullMarsRecord} (ks : List MarsKey)
    (h : .stattype ∉ ks) : ¬ Stuck (R := marsRecord) key key' ks := by
  induction ks with
  | nil => exact id
  | cons k ks ih =>
    rw [List.mem_cons, not_or] at h
    rintro (⟨htype, -⟩ | ⟨-, hstuck⟩)
    · exact h.1 ((type_eq_statType_iff k).mp htype).symm
    · exact ih h.2 hstuck

theorem stuck_iff {key key' : FullMarsRecord} (ks : List MarsKey) (hks : ks.Nodup)
    (hmem : .stattype ∈ ks) :
    Stuck (R := marsRecord) key key' ks ↔
      (∀ k ∈ ks.takeWhile (· ≠ .stattype), (key k).visit = (key' k).visit) ∧
        (key .stattype).isSet ∧ (key' .stattype).isSet := by
  induction ks with
  | nil => exact absurd hmem List.not_mem_nil
  | cons k ks ih =>
    rw [List.nodup_cons] at hks
    by_cases hk : k = .stattype
    · subst hk
      rw [List.takeWhile_cons_of_neg (by simp)]
      constructor
      · rintro (⟨-, hset⟩ | ⟨-, hstuck⟩)
        · exact ⟨by simp, hset⟩
        · exact absurd hstuck (not_stuck_of_not_mem ks hks.1)
      · rintro ⟨-, hset⟩
        exact .inl ⟨rfl, hset⟩
    · rw [List.takeWhile_cons_of_pos (by simpa using hk), List.forall_mem_cons, and_assoc,
        ← ih hks.2 ((List.mem_cons.mp hmem).resolve_left (Ne.symm hk))]
      constructor
      · rintro (⟨htype, -⟩ | hrest)
        · exact absurd ((type_eq_statType_iff k).mp htype) hk
        · exact hrest
      · exact .inr

/-- Two keys that clash are compared forever, other keys are found to be the same or not. -/
theorem equalToRecord_eq (fuel : ℕ) (key key' : FullMarsRecord) :
    ClashingKeys key key' ∧ equalToRecord (R := marsRecord) fuel key key' = none ∨
      ¬ ClashingKeys key key' ∧ ∃ b, equalToRecord (R := marsRecord) fuel key key' = some b ∧
        (b = true → SameKeys key key') := by
  have hiff : Stuck (R := marsRecord) key key' MarsKey.all ↔ ClashingKeys key key' :=
    stuck_iff MarsKey.all (by decide) (by decide)
  by_cases hclash : ClashingKeys key key'
  · exact .inl ⟨hclash, equalEntries_of_stuck (R := marsRecord) marsRecord_types fuel key key'
      MarsKey.all (hiff.mpr hclash)⟩
  · have hequal := equalEntries_of_not_stuck (R := marsRecord) marsRecord_types fuel key key'
      MarsKey.all (mt hiff.mp hclash)
    refine .inr ⟨hclash, _, hequal, ?_⟩
    intro h k
    exact of_decide_eq_true h k (MarsKey.mem_all k)

theorem ClashingKeys.of_sameValues {key key' : FullMarsRecord}
    (hsame : SameKeys key key') (hset : (key' .stattype).isSet) :
    ClashingKeys key key' := by
  refine ⟨fun k _ => hsame k, ?_, hset⟩
  rw [Entry.isSet_eq_of_visit (hsame .stattype)]
  exact hset

section

variable {H : StdHash} {Dicts Prepared : Type}

def Valid (cache : Cache H Prepared) : Prop :=
  ∀ node ∈ cache, ∃ mars, readCacheRecord mars = .ok node.1.value ∧
    buildEncoderConf mars = .ok node.2.sections

/-- A key that clashes with one of the cache is never told from it: neither is it found to be
the same as any other key. -/
theorem find_eq_none (fuel : ℕ) (key : PrehashedMarsKeys H) (cache : Cache H Prepared)
    (h : ∃ node ∈ cache, node.1.hash = key.hash ∧ ClashingKeys node.1.value key.value) :
    find fuel key cache = none := by
  induction cache with
  | nil => simp at h
  | cons node nodes ih =>
    obtain ⟨key', entry⟩ := node
    rw [find]
    rw [List.exists_mem_cons_iff] at h
    by_cases hhash : key'.hash = key.hash
    · rw [if_pos hhash]
      have hset : (key.value .stattype).isSet := by
        rcases h with ⟨-, hclash⟩ | ⟨_, -, -, hclash⟩ <;> exact hclash.2.2
      rcases equalToRecord_eq fuel key'.value key.value with ⟨-, hnone⟩ | ⟨hnot, b, hb, hsame⟩
      · rw [hnone]
        rfl
      · cases b with
        | true => exact absurd (ClashingKeys.of_sameValues (hsame rfl) hset) hnot
        | false =>
          rw [hb]
          exact ih (h.resolve_left fun hclash => hnot hclash.2)
    · rw [if_neg hhash]
      exact ih (h.resolve_left fun hclash => hhash hclash.1)

/-- Otherwise the search comes back, with an entry of the same keys if with any. -/
theorem find_of_not_clash (fuel : ℕ) (key : PrehashedMarsKeys H) (cache : Cache H Prepared)
    (h : ∀ node ∈ cache, node.1.hash = key.hash → ¬ ClashingKeys node.1.value key.value) :
    ∃ found, find fuel key cache = some found ∧ ∀ entry ∈ found, ∃ node ∈ cache,
      node.2 = entry ∧ SameKeys node.1.value key.value := by
  induction cache with
  | nil => exact ⟨none, rfl, by simp⟩
  | cons node nodes ih =>
    obtain ⟨key', entry⟩ := node
    rw [List.forall_mem_cons] at h
    obtain ⟨found, hfound, hentries⟩ := ih h.2
    have hrest : ∀ e ∈ found, ∃ node ∈ (key', entry) :: nodes,
        node.2 = e ∧ SameKeys node.1.value key.value := by
      intro e he
      obtain ⟨node, hnode, hsame⟩ := hentries e he
      exact ⟨node, List.mem_cons_of_mem _ hnode, hsame⟩
    rw [find]
    by_cases hhash : key'.hash = key.hash
    · rw [if_pos hhash]
      rcases equalToRecord_eq fuel key'.value key.value with ⟨hclash, -⟩ | ⟨-, b, hb, hsame⟩
      · exact absurd hclash (h.1 hhash)
      · rw [hb]
        cases b with
        | true =>
          refine ⟨some entry, rfl, ?_⟩
          rintro e ⟨⟩
          exact ⟨_, List.mem_cons_self, rfl, hsame rfl⟩
        | false => exact ⟨found, hfound, hrest⟩
    · rw [if_neg hhash]
      exact ⟨found, hfound, hrest⟩

variable {prepare : Request Dicts → SectionsConf → Except String Prepared}

/-- Either a call throws and the cache stays, or there is an entry of the configuration built. -/
theorem makeEntry_cases (prepare : Request Dicts → SectionsConf → Except String Prepared)
    (key : PrehashedMarsKeys H) (cache : Cache H Prepared) (request : Request Dicts) :
    (∃ e, makeEntry prepare key cache request = (.error e, cache)) ∨
      ∃ entry, buildEncoderConf request.marsKeys = .ok entry.sections ∧
        makeEntry prepare key cache request = (.ok entry, (key, entry) :: cache) := by
  rw [makeEntry]
  split
  · exact .inl ⟨_, rfl⟩
  · rename_i sections hsections
    split
    · exact .inl ⟨_, rfl⟩
    · exact .inr ⟨_, hsections, rfl⟩

theorem valid_makeEntry {cache : Cache H Prepared} (hvalid : Valid cache)
    {request : Request Dicts} {key : FullMarsRecord}
    (hkey : readCacheRecord request.marsKeys = .ok key) :
    Valid (makeEntry prepare (.make H key) cache request).2 := by
  rcases makeEntry_cases prepare (.make H key) cache request with
    ⟨e, hmade⟩ | ⟨entry, hsections, hmade⟩
  · rw [hmade]
    exact hvalid
  · rw [hmade]
    intro node hnode
    rcases List.mem_cons.mp hnode with rfl | hnode
    · exact ⟨request.marsKeys, hkey, hsections⟩
    · exact hvalid node hnode

theorem sections_of_makeEntry {cache : Cache H Prepared} {request : Request Dicts}
    {key : PrehashedMarsKeys H} {entry : CacheEntry Prepared}
    (h : (makeEntry prepare key cache request).1 = .ok entry) :
    buildEncoderConf request.marsKeys = .ok entry.sections := by
  rcases makeEntry_cases prepare key cache request with ⟨e, hmade⟩ | ⟨entry', hsections, hmade⟩
  · rw [hmade] at h
    cases h
  · rw [hmade] at h
    obtain rfl := Except.ok.inj h
    exact hsections

theorem makeOrGetEntry_of_unread {fuel : ℕ} {cache : Cache H Prepared}
    {request : Request Dicts} {e : Exception}
    (hkey : readCacheRecord request.marsKeys = .error e) :
    makeOrGetEntry prepare fuel cache request = some (.error (.dataModelling e), cache) := by
  rw [makeOrGetEntry, hkey]

/-- A lookup is a search, after which an entry is made if there is none. -/
theorem makeOrGetEntry_of_read {fuel : ℕ} {cache : Cache H Prepared}
    {request : Request Dicts} {key : FullMarsRecord}
    (hkey : readCacheRecord request.marsKeys = .ok key) :
    makeOrGetEntry prepare fuel cache request =
      (find fuel (.make H key) cache).map fun found =>
        found.elim (makeEntry prepare (.make H key) cache request) fun entry =>
          (.ok entry, cache) := by
  rw [makeOrGetEntry, hkey]
  simp only
  cases find fuel (.make H key) cache with
  | none => rfl
  | some found => cases found <;> rfl

theorem valid_makeOrGetEntry {fuel : ℕ} {cache cache' : Cache H Prepared}
    {request : Request Dicts} {result : Except EncoderException (CacheEntry Prepared)}
    (hvalid : Valid cache)
    (h : makeOrGetEntry prepare fuel cache request = some (result, cache')) : Valid cache' := by
  cases hkey : readCacheRecord request.marsKeys with
  | error e =>
    rw [makeOrGetEntry_of_unread hkey] at h
    obtain ⟨-, rfl⟩ := Prod.mk.inj (Option.some.inj h)
    exact hvalid
  | ok key =>
    rw [makeOrGetEntry_of_read hkey] at h
    obtain ⟨found, -, hfound⟩ := Option.map_eq_some_iff.mp h
    cases found with
    | some entry =>
      obtain ⟨-, rfl⟩ := Prod.mk.inj hfound
      exact hvalid
    | none =>
      rw [← show _ = cache' from congrArg Prod.snd hfound]
      exact valid_makeEntry hvalid hkey

theorem valid_lookups {fuel : ℕ} {cache cache' : Cache H Prepared}
    (requests : List (Request Dicts)) (hvalid : Valid cache)
    (h : lookups prepare fuel cache requests = some cache') : Valid cache' := by
  induction requests generalizing cache with
  | nil =>
    obtain rfl := Option.some.inj h
    exact hvalid
  | cons request requests ih =>
    rw [lookups] at h
    obtain ⟨⟨result, cache''⟩, hlookup, hrest⟩ := Option.bind_eq_some_iff.mp h
    exact ih (valid_makeOrGetEntry hvalid hlookup) hrest

theorem not_fresh_of_clash {cache : Cache H Prepared} {request : Request Dicts}
    (h : Clash cache request.marsKeys) : ¬ Fresh prepare cache request := by
  obtain ⟨key, hkey, hnode⟩ := h
  rintro ⟨fuel, result, cache', hlookup, -⟩
  rw [makeOrGetEntry_of_read hkey, find_eq_none fuel (.make H key) cache hnode] at hlookup
  cases hlookup

theorem fresh_of_not_clash {cache : Cache H Prepared} (hvalid : Valid cache)
    {request : Request Dicts} (h : ¬ Clash cache request.marsKeys) :
    Fresh prepare cache request := by
  cases hkey : readCacheRecord request.marsKeys with
  | error e =>
    exact ⟨0, .error (.dataModelling e), cache, makeOrGetEntry_of_unread hkey, by simp⟩
  | ok key =>
    have hnot : ∀ node ∈ cache, node.1.hash = (PrehashedMarsKeys.make H key).hash →
        ¬ ClashingKeys node.1.value key :=
      fun node hnode hhash hclash => h ⟨key, hkey, node, hnode, hhash, hclash⟩
    obtain ⟨found, hfind, hentries⟩ := find_of_not_clash 0 (.make H key) cache hnot
    have hlookup : makeOrGetEntry prepare 0 cache request = _ := makeOrGetEntry_of_read hkey
    rw [hfind, Option.map_some] at hlookup
    cases found with
    | none => exact ⟨0, _, _, hlookup, fun entry => sections_of_makeEntry⟩
    | some entry =>
      refine ⟨0, .ok entry, cache, hlookup, ?_⟩
      rintro _ ⟨⟩
      obtain ⟨node, hnode, rfl, hsame⟩ := hentries entry rfl
      obtain ⟨mars, hmars, hsections⟩ := hvalid node hnode
      rw [← readCacheRecord_eq hmars, PrehashedMarsKeys.make, ← readCacheRecord_eq hkey] at hsame
      have hcongr := buildEncoderConf_congr hsame
      rw [hsections] at hcongr
      cases hbuild : buildEncoderConf request.marsKeys with
      | error e =>
        rw [hbuild] at hcongr
        cases hcongr
      | ok sections =>
        rw [hbuild] at hcongr
        exact congrArg Except.ok (Option.some.inj hcongr).symm

/-- The cache is sound but for `stattype`. The rules give the same configuration to records with
the same keys, whose hashes are the same however the values are held; and after every sequence of
lookups, the next one comes back with what would be built anew for its record iff no entry of the
cache clashes with that record. -/
theorem encoder_cache_sound_iff (H : StdHash) {Dicts Prepared : Type}
    (prepare : Request Dicts → SectionsConf → Except String Prepared) :
    (∀ mars mars', SameKeys (cacheKeys mars) (cacheKeys mars') →
      (buildEncoderConf mars).toOption = (buildEncoderConf mars').toOption) ∧
    (∀ key key', SameKeys key key' →
      hashRecord (R := marsRecord) H key = hashRecord (R := marsRecord) H key') ∧
    ∀ fuel requests, ∀ cache : Cache H Prepared,
      lookups prepare fuel [] requests = some cache →
      ∀ request, Fresh prepare cache request ↔ ¬ Clash cache request.marsKeys := by
  refine ⟨fun _ _ => buildEncoderConf_congr, fun _ _ => hashRecord_congr, ?_⟩
  intro fuel requests cache hcache request
  have hvalid : Valid cache := valid_lookups requests (fun _ hnode => absurd hnode List.not_mem_nil) hcache
  exact ⟨fun hfresh hclash => not_fresh_of_clash hclash hfresh, fresh_of_not_clash hvalid⟩

end

def pressureField (stattype : Entry StatType) (step : Entry TimeDuration) : FullMarsRecord
  | .klass => .value "od"
  | .stream => .value "oper"
  | .type => .value "fc"
  | .expver => .value (.inr "0001")
  | .grid => .value "N320"
  | .repres => .value .GG
  | .packing => .value "ccsds"
  | .param => .value ⟨151⟩
  | .levtype => .value .SFC
  | .date => .value 20250101
  | .time => .value 0
  | .step => step
  | .stattype => stattype
  | _ => .unset

def monthlyAverage : StatType := .ofSingle ⟨.Month, .Average⟩

theorem pressureField_keys : readCacheRecord (pressureField (.value monthlyAverage) .unset) =
    .ok (cacheKeys (pressureField (.value monthlyAverage) .unset)) := rfl

theorem pressureField_built :
    ∃ sections, buildEncoderConf (pressureField (.value monthlyAverage) .unset) = .ok sections := by
  have hok : (buildEncoderConf (pressureField (.value monthlyAverage) .unset)).isOk := by
    decide +kernel
  cases hbuild : buildEncoderConf (pressureField (.value monthlyAverage) .unset) with
  | error e =>
    rw [hbuild] at hok
    cases hok
  | ok sections => exact ⟨sections, rfl⟩

theorem pressureField_lookup : ∃ sections : SectionsConf,
    lookups (fun _ _ => .ok ()) 0 ([] : Cache roughHash Unit)
        [⟨pressureField (.value monthlyAverage) .unset, ()⟩] =
      some [(.make roughHash (cacheKeys (pressureField (.value monthlyAverage) .unset)),
        ⟨sections, ()⟩)] := by
  obtain ⟨sections, hsections⟩ := pressureField_built
  refine ⟨sections, ?_⟩
  rw [lookups, makeOrGetEntry_of_read pressureField_keys]
  simp only [find, Option.map_some, Option.elim_none]
  rw [makeEntry, hsections]
  rfl

/-- The second lookup of a field with a `stattype` does not come back. -/
theorem second_lookup_never_returns : ¬ ∀ (H : StdHash)
    (prepare : Request Unit → SectionsConf → Except String Unit) (fuel : ℕ)
    (requests : List (Request Unit)) (cache : Cache H Unit),
    lookups prepare fuel [] requests = some cache → ∀ request, Fresh prepare cache request := by
  intro h
  obtain ⟨sections, hlookup⟩ := pressureField_lookup
  apply not_fresh_of_clash _ (h roughHash _ 0 _ _ hlookup
    ⟨pressureField (.value monthlyAverage) .unset, ()⟩)
  exact ⟨_, pressureField_keys, _, List.mem_singleton_self _, rfl, fun _ _ => rfl, rfl, rfl⟩

/-- Without one, a later step gets the configuration of the first one, and a lookup comes back
after that of the field with one. -/
theorem encoder_cache_sound_iff_two :
    (buildEncoderConf (pressureField .unset (.value (.hours 6 (by decide))))).toOption =
        (buildEncoderConf (pressureField .unset (.value (.hours 12 (by decide))))).toOption ∧
      ∃ cache : Cache roughHash Unit, lookups (fun _ _ => .ok ()) 0 []
          [⟨pressureField (.value monthlyAverage) .unset, ()⟩] = some cache ∧ cache.length = 1 ∧
        Fresh (fun _ _ => .ok ()) cache ⟨pressureField .unset .unset, ()⟩ := by
  have h := encoder_cache_sound_iff roughHash (fun (_ : Request Unit) _ => .ok ())
  constructor
  · apply h.1
    intro k
    cases k <;> rfl
  · obtain ⟨sections, hlookup⟩ := pressureField_lookup
    refine ⟨_, hlookup, rfl, (h.2.2 0 _ _ hlookup _).mpr ?_⟩
    rintro ⟨key, hkey, node, -, -, -, -, hset⟩
    obtain rfl := Except.ok.inj hkey
    exact absurd hset (by decide)

end Multio.Mars2Grib
