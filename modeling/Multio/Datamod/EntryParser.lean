import Multio.Datamod.TypeParserDumper
import Mathlib.Logic.Function.Basic

namespace Multio.Datamod.RecordType

variable {R : RecordType} {Container Value : Type}

/-- `dumpRecord`, given how a container is changed by the entry of a definition. -/
def dumpEntries (dumpEntry : Container → R.Entries → Container) (cont : Container) : Container :=
  R.entries.foldl dumpEntry cont

/-- What a container holds after the entries of a list have been dumped. -/
theorem contents_foldl {contents : Container → String → Option Value}
    {dumpEntry : Container → R.Entries → Container} {dumped : R.Entries → Option Value}
    (inv : Container → Prop) (hinv : ∀ c k, inv c → inv (dumpEntry c k))
    (hstep : ∀ c k, inv c →
      contents (dumpEntry c k) = Function.update (contents c) (R.key k) (dumped k))
    (ks : List R.Entries) (c : Container) (hc : inv c) :
    inv (ks.foldl dumpEntry c) ∧ ∀ s, contents (ks.foldl dumpEntry c) s =
      match ks.find? (fun k => R.key k = s) with
      | some k => dumped k
      | none => contents c s := by
  induction ks generalizing c with
  | nil => exact ⟨hc, fun s => rfl⟩
  | cons k ks ih =>
    obtain ⟨hinv', hcontents⟩ := ih (dumpEntry c k) (hinv c k hc)
    refine ⟨hinv', fun s => ?_⟩
    rw [List.foldl_cons, hcontents s, List.find?_cons, hstep c k hc]
    by_cases hs : R.key k = s
    · rw [decide_eq_true hs]
      cases hfind : ks.find? (fun k => R.key k = s) with
      | none =>
        subst hs
        exact Function.update_self (R.key k) (dumped k) (contents c)
      | some k' =>
        have hk' : R.key k' = s := by simpa using List.find?_some hfind
        simp only
        rw [R.key_injective (hk'.trans hs.symm)]
    · rw [decide_eq_false hs]
      cases ks.find? (fun k => R.key k = s) with
      | none => exact Function.update_of_ne (Ne.symm hs) (dumped k) (contents c)
      | some k' => rfl

theorem find?_key (k : R.Entries) : R.entries.find? (fun k' => R.key k' = R.key k) = some k := by
  cases hfind : R.entries.find? (fun k' => R.key k' = R.key k) with
  | none =>
    rw [List.find?_eq_none] at hfind
    exact absurd (decide_eq_true rfl) (hfind k (R.mem_entries k))
  | some k' =>
    have hk' : R.key k' = R.key k := by simpa using List.find?_some hfind
    rw [R.key_injective hk']

/-- A container holds what the entries have been dumped to, and under other keys what it has held
before. -/
theorem contents_dumpEntries {contents : Container → String → Option Value}
    {dumpEntry : Container → R.Entries → Container} {dumped : R.Entries → Option Value}
    (inv : Container → Prop) (hinv : ∀ c k, inv c → inv (dumpEntry c k))
    (hstep : ∀ c k, inv c →
      contents (dumpEntry c k) = Function.update (contents c) (R.key k) (dumped k))
    {c : Container} (hc : inv c) :
    (∀ k, contents (dumpEntries dumpEntry c) (R.key k) = dumped k) ∧
      ∀ s, s ∉ R.entries.map R.key → contents (dumpEntries dumpEntry c) s = contents c s := by
  have h := (contents_foldl inv hinv hstep R.entries c hc).2
  constructor
  · intro k
    rw [dumpEntries, h (R.key k), find?_key]
  · intro s hs
    have hnone : R.entries.find? (fun k => R.key k = s) = none := by
      rw [List.find?_eq_none]
      intro k hk hks
      exact hs (List.mem_map.mpr ⟨k, hk, of_decide_eq_true hks⟩)
    rw [dumpEntries, h s, hnone]

/-- The entries of a list are assigned what is parsed for them, one after the other. -/
def parseEntries (parseEntry : (k : R.Entries) → Except Exception (Entry (R.type k).Val)) :
    List R.Entries → R.Record → Except Exception R.Record
  | [], rec => .ok rec
  | k :: ks, rec => do
    let e ← parseEntry k
    parseEntries parseEntry ks (Function.update rec k e)

/-- `parseRecord`, after a check that may be required of the keys. -/
def parseRecord (checkForNoAdditionalKeys : Except Exception Unit) (allowAdditionalKeys : Bool)
    (parseEntry : (k : R.Entries) → Except Exception (Entry (R.type k).Val)) :
    Except Exception R.Record := do
  if !allowAdditionalKeys then checkForNoAdditionalKeys
  parseEntries parseEntry R.entries fun _ => .unset

/-- `containsKey(key, rec)`. -/
def containsKey (R : RecordType) (key : String) : Bool := R.entries.any fun k => R.key k = key

variable {parseEntry : (k : R.Entries) → Except Exception (Entry (R.type k).Val)}

theorem parseEntries_eq_ok {ks : List R.Entries} {parsed : R.Record}
    (h : ∀ k ∈ ks, parseEntry k = .ok (parsed k)) (rec : R.Record) :
    parseEntries parseEntry ks rec = .ok fun k => if k ∈ ks then parsed k else rec k := by
  induction ks generalizing rec with
  | nil =>
    rw [parseEntries]
    congr 1
  | cons k ks ih =>
    rw [List.forall_mem_cons] at h
    rw [parseEntries, h.1, Exception.ok_bind, ih h.2]
    congr 1
    funext k'
    by_cases hmem : k' ∈ ks
    · rw [if_pos hmem, if_pos (List.mem_cons_of_mem k hmem)]
    · rw [if_neg hmem]
      by_cases heq : k' = k
      · subst heq
        rw [if_pos List.mem_cons_self, Function.update_self]
      · rw [if_neg (List.not_mem_cons_of_ne_of_not_mem heq hmem), Function.update_of_ne heq]

theorem parseEntry_eq_ok_of_parseEntries {ks : List R.Entries} {rec rec' : R.Record}
    (h : parseEntries parseEntry ks rec = .ok rec') : ∀ k ∈ ks, ∃ e, parseEntry k = .ok e := by
  induction ks generalizing rec with
  | nil => simp
  | cons k ks ih =>
    rw [parseEntries, Exception.bind_eq_ok_iff] at h
    obtain ⟨e, he, h⟩ := h
    exact List.forall_mem_cons.mpr ⟨⟨e, he⟩, ih h⟩

theorem parseRecord_eq_ok_iff {check : Except Exception Unit} {allow : Bool}
    (hcheck : allow = false → check = .ok ()) (rec : R.Record) :
    parseRecord check allow parseEntry = .ok rec ↔ ∀ k, parseEntry k = .ok (rec k) := by
  have hall : parseRecord check allow parseEntry =
      parseEntries parseEntry R.entries fun _ => .unset := by
    rw [parseRecord]
    cases allow with
    | true => rfl
    | false =>
      rw [hcheck rfl]
      rfl
  have hparsed : ∀ parsed : R.Record, (∀ k, parseEntry k = .ok (parsed k)) →
      parseRecord check allow parseEntry = .ok parsed := by
    intro parsed h
    rw [hall, parseEntries_eq_ok fun k _ => h k]
    congr 1
    funext k
    rw [if_pos (R.mem_entries k)]
  constructor
  · intro h
    have hexists := parseEntry_eq_ok_of_parseEntries (hall.symm.trans h)
    choose parsed hparse using fun k => hexists k (R.mem_entries k)
    have heq := Except.ok.inj ((hparsed parsed hparse).symm.trans h)
    rw [← heq]
    exact hparse
  · exact hparsed rec

end Multio.Datamod.RecordType
