import Multio.Datamod.EntryParser
import Multio.Message.BaseMetadata

namespace Multio.Datamod

open Lib

def StdVal.toMetadata : StdVal → MetadataValue
  | .bool v => .bool v
  | .int64 v => .int64 v
  | .double bits => .double bits
  | .string v => .string v
  | .bools v => .bools v
  | .int64s v => .int64s v
  | .doubles v => .doubles v
  | .strings v => .strings v

/-- The value as one that keys may be parsed from; a `float` is converted. -/
def StdVal.ofMetadata : MetadataValue → Option StdVal
  | .bool v => some (.bool v)
  | .int64 v => some (.int64 v)
  | .double bits => some (.double bits)
  | .string v => some (.string v)
  | .bools v => some (.bools v)
  | .int64s v => some (.int64s v)
  | .doubles v => some (.doubles v)
  | .strings v => some (.strings v)
  | .null | .float _ | .bytes _ | .floats _ | .nested _ => none

theorem StdVal.toMetadata_ne_null (v : StdVal) : v.toMetadata ≠ .null := by
  cases v <;> simp [StdVal.toMetadata]

namespace RecordType

variable {R : RecordType} (ctx : Context) (C : Conversions)

def checkForNoAdditionalKeys (R : RecordType) (md : BaseMetadata) : Except Exception Unit :=
  match md.nodes.find? fun p => !R.containsKey p.1 with
  | some p => .error (.dataModelling ("The passed metadata contains an unexpected key " ++ p.1 ++
      " in metadata " ++ ctx.toString md))
  | none => .ok ()

def throwRequiredKeyIsNull (keyInfo : String) (md : BaseMetadata) : Exception :=
  .dataModelling ("Required key " ++ keyInfo ++ " is null in metadata " ++ ctx.toString md)

def throwMissingRequiredKey (keyInfo : String) (md : BaseMetadata) : Exception :=
  .dataModelling ("Missing required key " ++ keyInfo ++ " in metadata " ++ ctx.toString md)

def throwUnsupportedType (typeStr keyInfo : String) (md : BaseMetadata) : Exception :=
  .dataModelling ("Unsupported type " ++ typeStr ++ " for key " ++ keyInfo ++ " in metadata: " ++
    ctx.toString md)

/-- The entry that a value which is not null makes; `none` for a type that it cannot have. -/
def makeFromMetadata (t : ValueType) (byRef lvalue : Bool) (v : MetadataValue) :
    Option (Except Exception (Entry t.Val)) :=
  let make := if byRef then t.makeEntryRef C else t.makeEntry C
  match v with
  | .float bits => make false (.double (C.doubleOfFloat bits))
  | v => (StdVal.ofMetadata v).bind (make lvalue)

/-- `makeVisitor`. -/
def visitMetadata (byRef lvalue : Bool) (md : BaseMetadata) (k : R.Entries) (v : MetadataValue) :
    Except Exception (Entry (R.type k).Val) :=
  match v with
  | .null =>
    if R.tag k = .Required then .error (throwRequiredKeyIsNull ctx (R.keyInfo k) md)
    else .ok .unset
  | v =>
    match makeFromMetadata C (R.type k) byRef lvalue v with
    | some e => e
    | none => .error (throwUnsupportedType ctx v.typeName (R.keyInfo k) md)

def defaultOrThrow (md : BaseMetadata) (k : R.Entries) :
    Except Exception (Entry (R.type k).Val) :=
  if R.tag k = .Required then .error (throwMissingRequiredKey ctx (R.keyInfo k) md)
  else .ok .unset

/-- `getByRef` and `getByValue`; values of the parametrization are always referred to. -/
def getFromMetadata (byRef lvalue : Bool) (md : BaseMetadata) (k : R.Entries) :
    Except Exception (Entry (R.type k).Val) :=
  match md.find? (R.key k) with
  | some v => visitMetadata ctx C byRef lvalue md k v
  | none =>
    match ctx.parametrization.find? (R.key k) with
    | some v => visitMetadata ctx C true true md k v
    | none => defaultOrThrow ctx md k

/-- `parseRecord` and `parseRecordByValue` from metadata. -/
def parseMetadata (R : RecordType) (byRef lvalue allowAdditionalKeys : Bool) (md : BaseMetadata) :
    Except Exception R.Record :=
  parseRecord (checkForNoAdditionalKeys ctx R md) allowAdditionalKeys
    (getFromMetadata ctx C byRef lvalue md)

/-- `readRecord` from metadata, with the default options. -/
def readMetadata (R : RecordType) (md : BaseMetadata) : Except Exception R.Record := do
  let rec ← parseMetadata ctx C R true true true md
  validateRecord (applyDefaults rec)
  return applyDefaults rec

theorem getFromMetadata_of_readMetadata {md : BaseMetadata} {rec : R.Record}
    (h : readMetadata ctx C R md = .ok rec) {k : R.Entries} (hdefault : R.defaultValue k = none) :
    getFromMetadata ctx C true true md k = .ok (rec k) := by
  rw [readMetadata, Exception.bind_eq_ok_iff] at h
  obtain ⟨parsed, hparsed, h⟩ := h
  rw [Exception.bind_eq_ok_iff] at h
  obtain ⟨-, -, h⟩ := h
  rw [parseMetadata, parseRecord_eq_ok_iff (by simp)] at hparsed
  rw [hparsed k, ← Except.ok.inj h, applyDefaults, hdefault]

/-- A record without defaults is read if its entries are, and if it is valid. -/
theorem readMetadata_of_getFromMetadata {md : BaseMetadata} {rec : R.Record}
    (hdefault : ∀ k, R.defaultValue k = none)
    (hget : ∀ k, getFromMetadata ctx C true true md k = .ok (rec k))
    (hvalid : validateRecord rec = .ok ()) : readMetadata ctx C R md = .ok rec := by
  have hsame : applyDefaults rec = rec := by
    funext k
    rw [applyDefaults, hdefault k]
  have hparsed : parseMetadata ctx C R true true true md = .ok rec :=
    (parseRecord_eq_ok_iff (by simp) rec).mpr hget
  rw [readMetadata, hparsed, Exception.ok_bind, hsame, hvalid]
  rfl

/-- `EntryDumper::set`. -/
def setInMetadata (policy : HashPolicy String) (rec : R.Record) (md : BaseMetadata)
    (k : R.Entries) : BaseMetadata :=
  match (rec k).visit with
  | none => md.erase (R.key k)
  | some v => md.set policy (R.key k) ((R.type k).dump v).toMetadata

/-- `dumpRecord` to metadata. -/
def dumpMetadata (policy : HashPolicy String) (rec : R.Record) (md : BaseMetadata) :
    BaseMetadata :=
  dumpEntries (setInMetadata policy rec) md

def inMetadata (rec : R.Record) (k : R.Entries) : Option MetadataValue :=
  (rec k).visit.map fun v => ((R.type k).dump v).toMetadata

theorem keyed_setInMetadata (policy : HashPolicy String) (rec : R.Record) (md : BaseMetadata)
    (k : R.Entries) (hmd : md.Keyed) : (setInMetadata policy rec md k).Keyed := by
  rw [setInMetadata]
  split
  · exact hmd.erase (R.key k)
  · exact hmd.insertOrAssign policy (R.key k) _

theorem find?_setInMetadata (policy : HashPolicy String) (rec : R.Record) (md : BaseMetadata)
    (k : R.Entries) (hmd : md.Keyed) :
    (setInMetadata policy rec md k).find? =
      Function.update md.find? (R.key k) (inMetadata rec k) := by
  funext s
  rw [setInMetadata, inMetadata, Function.update_apply]
  cases (rec k).visit with
  | none => exact HashTable.find?_erase md (R.key k) s
  | some v => exact hmd.find?_insertOrAssign policy (R.key k) _ s

theorem keyed_dumpMetadata (policy : HashPolicy String) (rec : R.Record) {md : BaseMetadata}
    (hmd : md.Keyed) : (dumpMetadata policy rec md).Keyed :=
  (contents_foldl HashTable.Keyed (keyed_setInMetadata policy rec) (find?_setInMetadata policy rec)
    R.entries md hmd).1

theorem find?_dumpMetadata (policy : HashPolicy String) (rec : R.Record) {md : BaseMetadata}
    (hmd : md.Keyed) :
    (∀ k, (dumpMetadata policy rec md).find? (R.key k) = inMetadata rec k) ∧
      ∀ s, s ∉ R.entries.map R.key → (dumpMetadata policy rec md).find? s = md.find? s :=
  contents_dumpEntries HashTable.Keyed (keyed_setInMetadata policy rec)
    (find?_setInMetadata policy rec) hmd

theorem visitMetadata_dump (byRef lvalue : Bool) (md : BaseMetadata) (k : R.Entries)
    (v : (R.type k).Val) :
    ∃ e, visitMetadata ctx C byRef lvalue md k ((R.type k).dump v).toMetadata = .ok e ∧
      e.visit = some v := by
  have hmake : ∃ e, makeFromMetadata C (R.type k) byRef lvalue ((R.type k).dump v).toMetadata =
      some (.ok e) ∧ e.visit = some v := by
    have hbind : makeFromMetadata C (R.type k) byRef lvalue ((R.type k).dump v).toMetadata =
        (if byRef then (R.type k).makeEntryRef C else (R.type k).makeEntry C) lvalue
          ((R.type k).dump v) := by
      generalize (R.type k).dump v = dumped
      cases dumped <;> rfl
    rw [hbind]
    cases byRef with
    | true => exact (R.type k).makeEntryRef_dump C lvalue v
    | false => exact (R.type k).makeEntry_dump C lvalue v
  obtain ⟨e, he, hvisit⟩ := hmake
  refine ⟨e, ?_, hvisit⟩
  have hne := ((R.type k).dump v).toMetadata_ne_null
  rw [visitMetadata]
  · rw [he]
  · exact hne

/-- An entry of a valid record is read back from metadata that hold it, unless it is unset and the
parametrization has a value for it. -/
theorem getFromMetadata_dump (byRef lvalue : Bool) {rec : R.Record}
    (hvalid : validateRecord rec = .ok ()) {md : BaseMetadata} {k : R.Entries}
    (hmd : md.find? (R.key k) = inMetadata rec k)
    (hglobal : (rec k).visit = none → ctx.parametrization.find? (R.key k) = none) :
    ∃ e, getFromMetadata ctx C byRef lvalue md k = .ok e ∧ e.visit = (rec k).visit := by
  rw [getFromMetadata, hmd, inMetadata]
  cases hv : (rec k).visit with
  | some v => exact visitMetadata_dump ctx C byRef lvalue md k v
  | none =>
    have htag : R.tag k = .Optional := by
      apply ((validateRecord_eq_ok_iff rec).mp hvalid k).resolve_right
      rw [Entry.isSet, hv]
      exact Bool.false_ne_true
    refine ⟨.unset, ?_, rfl⟩
    simp [hglobal hv, defaultOrThrow, htag]

/-- A valid record without defaults is read back from metadata that it is dumped to. -/
theorem readMetadata_dumpMetadata (policy : HashPolicy String)
    (hdefault : ∀ k, R.defaultValue k = none) {rec : R.Record}
    (hvalid : validateRecord rec = .ok ()) {md : BaseMetadata} (hmd : md.Keyed)
    (hglobal : ∀ k, (rec k).visit = none → ctx.parametrization.find? (R.key k) = none) :
    ∃ rec', readMetadata ctx C R (dumpMetadata policy rec md) = .ok rec' ∧ SameValues rec' rec := by
  choose rec' hget hvisit using fun k =>
    getFromMetadata_dump ctx C true true hvalid ((find?_dumpMetadata policy rec hmd).1 k)
      (hglobal k)
  refine ⟨rec', readMetadata_of_getFromMetadata ctx C hdefault hget ?_, hvisit⟩
  rw [validateRecord_eq_ok_iff] at hvalid ⊢
  intro k
  rw [Entry.isSet_eq_of_visit (hvisit k)]
  exact hvalid k

/-- Without a parametrization, a valid record is read back from the metadata it is dumped to. -/
theorem parseMetadata_dumpMetadata (hempty : ctx.parametrization.nodes = [])
    (policy : HashPolicy String) (byRef lvalue allow : Bool) {rec : R.Record}
    (hvalid : validateRecord rec = .ok ()) :
    ∃ rec', parseMetadata ctx C R byRef lvalue allow
        (dumpMetadata policy rec (BaseMetadata.empty policy)) = .ok rec' ∧
      SameValues rec' rec := by
  have hkeyed : (BaseMetadata.empty policy).Keyed := List.nodup_nil
  obtain ⟨hfind, hother⟩ := find?_dumpMetadata policy rec hkeyed
  have hglobal : ∀ s, ctx.parametrization.find? s = none := by
    intro s
    rw [HashTable.find?, hempty]
    rfl
  choose rec' hget hvisit using fun k =>
    getFromMetadata_dump ctx C byRef lvalue hvalid (hfind k) fun _ => hglobal (R.key k)
  refine ⟨rec', ?_, hvisit⟩
  rw [parseMetadata, parseRecord_eq_ok_iff]
  · exact hget
  · -- only keys of the record have been dumped
    intro _
    rw [checkForNoAdditionalKeys]
    have hnone : (dumpMetadata policy rec (BaseMetadata.empty policy)).nodes.find?
        (fun p => !R.containsKey p.1) = none := by
      rw [List.find?_eq_none]
      intro p hp hextra
      have hkey : p.1 ∉ R.entries.map R.key := by
        simpa [containsKey] using hextra
      have hnot := HashTable.find?_eq_none_iff.mp ((hother p.1 hkey).trans rfl)
      exact hnot (List.mem_map.mpr ⟨p, hp, rfl⟩)
    rw [hnone]

end RecordType
end Multio.Datamod
