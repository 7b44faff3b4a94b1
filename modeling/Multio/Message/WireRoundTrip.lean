import Multio.Message.Wire
import Mathlib.Data.Option.Basic

namespace Multio
open Lib Exception

variable {c : JsonCodec} {policy : HashPolicy String}

theorem mapM_map_ok {α β γ : Type} {f : α → β} {g : β → Except Exception γ} {h : α → γ}
    (hg : ∀ x, g (f x) = .ok (h x)) (xs : List α) : (xs.map f).mapM g = .ok (xs.map h) := by
  rw [mapM_eq_ok_iff, List.forall₂_map_left_iff, List.forall₂_map_right_iff]
  exact List.forall₂_same.mpr fun x _ => hg x

/-- A list of scalars comes back as the list that the first element asks for. -/
theorem listToMetadataValue_map {α β : Type} (wrap : List β → MetadataValue) {f : α → Value}
    {g : Value → Except Exception β} {h : α → β} (hg : ∀ x, g (f x) = .ok (h x))
    (hlist : ∀ x xs, listToMetadataValue c (f x :: xs) = do
      let ys ← (f x :: xs).mapM g
      .ok (some (wrap ys))) (xs : List α) :
    listToMetadataValue c (xs.map f) =
      .ok (if xs = [] then none else some (wrap (xs.map h))) := by
  cases xs with
  | nil => rfl
  | cons x xs =>
    rw [List.map_cons, hlist, ← List.map_cons, mapM_map_ok hg, ok_bind,
      if_neg (List.cons_ne_nil _ _)]

theorem leaf_arrives {v : MetadataValue} (hv : ∀ m, v ≠ .nested m) :
    valueToMetadataValue c policy (leafValue c v) = .ok (v.wire c) := by
  cases v with
  | nested m => exact absurd rfl (hv m)
  | null => simp [leafValue, valueToMetadataValue, MetadataValue.wire]
  | bool v => simp [leafValue, valueToMetadataValue, MetadataValue.wire]
  | int64 v => simp [leafValue, valueToMetadataValue, MetadataValue.wire]
  | double v => simp [leafValue, valueToMetadataValue, MetadataValue.wire]
  | float v => simp [leafValue, valueToMetadataValue, MetadataValue.wire]
  | string v => simp [leafValue, valueToMetadataValue, MetadataValue.wire]
  | bytes vs =>
    rw [leafValue, valueToMetadataValue, MetadataValue.wire]
    exact listToMetadataValue_map .int64s (fun b => c.toInt64_number b.toNat) (fun _ _ => rfl) vs
  | bools vs =>
    rw [leafValue, valueToMetadataValue, MetadataValue.wire,
      listToMetadataValue_map .bools c.toBool_bool (fun _ _ => rfl), List.map_id']
  | int64s vs =>
    rw [leafValue, valueToMetadataValue, MetadataValue.wire,
      listToMetadataValue_map .int64s c.toInt64_number (fun _ _ => rfl), List.map_id']
  | doubles vs =>
    rw [leafValue, valueToMetadataValue, MetadataValue.wire,
      listToMetadataValue_map .doubles c.toDouble_double (fun _ _ => rfl), List.map_id']
  | floats vs =>
    rw [leafValue, valueToMetadataValue, MetadataValue.wire]
    exact listToMetadataValue_map .doubles (fun v => c.toDouble_double (c.float v))
      (fun _ _ => rfl) vs
  | strings vs =>
    rw [leafValue, valueToMetadataValue, MetadataValue.wire,
      listToMetadataValue_map .strings c.toString_string (fun _ _ => rfl), List.map_id']

theorem valueToMetadataValue_map (es : List (String × Value)) :
    valueToMetadataValue c policy (.map es) =
      (toMetadata c policy (.map es) >>= fun m => .ok (some (.nested m))) := by
  rw [valueToMetadataValue, toMetadata]
  congr 1
  conv_rhs => rw [← List.attach_map_subtype_val es, List.foldlM_map]

theorem setEntry_keyed (policy : HashPolicy String) {m : BaseMetadata} (hm : m.Keyed) (k : String)
    (o : Option MetadataValue) :
    (setEntry policy m k o).Keyed := by
  cases o with
  | none => exact hm
  | some v => exact hm.insertOrAssign policy k v

theorem find?_setEntry {m : BaseMetadata} (hm : m.Keyed) (k k' : String)
    (o : Option MetadataValue) :
    (setEntry policy m k o).find? k' = if k' = k then o.or (m.find? k) else m.find? k' := by
  cases o with
  | none =>
    change m.find? k' = _
    split_ifs with h
    · rw [h, Option.none_or]
    · rfl
  | some v => exact hm.find?_insertOrAssign policy k v k'

theorem find?_cons_pair (e : String × Value) (es : List (String × Value)) (k : String) :
    (HashTable.mk 0 (e :: es)).find? k =
      if k = e.1 then some e.2 else (HashTable.mk 0 es).find? k := by
  unfold HashTable.find?
  rw [List.find?_cons]
  by_cases h : e.1 = k
  · rw [decide_eq_true h, if_pos h.symm]
    rfl
  · rw [decide_eq_false h, if_neg (Ne.symm h)]

/-- What the entries of a map leave in the metadata, if all of them can be read. -/
theorem foldlM_setEntry {o : Value → Option MetadataValue} {es : List (String × Value)}
    (hes : (es.map Prod.fst).Nodup) (ho : ∀ e ∈ es, valueToMetadataValue c policy e.2 = .ok (o e.2))
    {m : BaseMetadata} (hm : m.Keyed) :
    ∃ m', (es.foldlM (fun m e => do
        let v ← valueToMetadataValue c policy e.2
        .ok (setEntry policy m e.1 v)) m : Except Exception BaseMetadata) = .ok m' ∧ m'.Keyed ∧
      ∀ k, m'.find? k = (((HashTable.mk 0 es).find? k).bind o).or (m.find? k) := by
  induction es generalizing m with
  | nil => exact ⟨m, rfl, hm, fun k => rfl⟩
  | cons e es ih =>
    rw [List.map_cons, List.nodup_cons] at hes
    obtain ⟨m', hrun, hkeyed, hfind⟩ := ih hes.2 (fun x hx => ho x (List.mem_cons_of_mem _ hx))
      (setEntry_keyed policy hm e.1 (o e.2))
    refine ⟨m', ?_, hkeyed, ?_⟩
    · rw [List.foldlM_cons, ho e List.mem_cons_self, ok_bind, ok_bind]
      exact hrun
    · intro k
      rw [hfind, find?_setEntry hm, find?_cons_pair]
      split_ifs with hk
      · have hmissing : (HashTable.mk 0 es).find? k = none :=
          HashTable.find?_eq_none_iff.mpr (hk ▸ hes.1)
        rw [hmissing, hk]
        rfl
      · rfl

theorem toMetadata_find? {o : Value → Option MetadataValue} (es : List (String × Value))
    (hes : (es.map Prod.fst).Nodup)
    (ho : ∀ e ∈ es, valueToMetadataValue c policy e.2 = .ok (o e.2)) :
    ∃ m, toMetadata c policy (.map es) = .ok m ∧ m.Keyed ∧
      ∀ k, m.find? k = ((HashTable.mk 0 es).find? k).bind o := by
  obtain ⟨m, hrun, hkeyed, hfind⟩ :=
    foldlM_setEntry (m := BaseMetadata.empty policy) hes ho List.nodup_nil
  refine ⟨m, hrun, hkeyed, ?_⟩
  intro k
  rw [hfind]
  exact Option.or_none

theorem wire_keyed {m : BaseMetadata} (hm : m.Keyed) : (BaseMetadata.wire c m).Keyed := by
  apply List.Nodup.sublist _ hm
  unfold BaseMetadata.wire
  induction m.nodes with
  | nil => exact List.Sublist.refl _
  | cons e es ih =>
    rw [List.filterMap_cons]
    cases e.2.wire c with
    | none => exact ih.cons _
    | some v => exact ih.cons_cons _

theorem find?_wire {m : BaseMetadata} (hm : m.Keyed) (k : String) :
    (BaseMetadata.wire c m).find? k = (m.find? k).bind (MetadataValue.wire c) := by
  ext v
  rw [(wire_keyed hm).find?_eq_some_iff, Option.bind_eq_some_iff]
  simp only [hm.find?_eq_some_iff]
  unfold BaseMetadata.wire
  rw [List.mem_filterMap]
  constructor
  · rintro ⟨e, he, h⟩
    obtain ⟨w, hw, hpair⟩ := Option.map_eq_some_iff.mp h
    obtain ⟨hk, rfl⟩ := Prod.mk.inj hpair
    exact ⟨e.2, hk ▸ he, hw⟩
  · rintro ⟨w, hmem, hw⟩
    exact ⟨(k, w), hmem, by rw [hw]; rfl⟩

def readValue (c : JsonCodec) (policy : HashPolicy String) (x : Value) : Option MetadataValue :=
  match valueToMetadataValue c policy x with
  | .ok o => o
  | .error _ => none

theorem readValue_eq {x : Value} {o : Option MetadataValue}
    (h : valueToMetadataValue c policy x = .ok o) : readValue c policy x = o := by
  rw [readValue, h]

theorem MetadataValue.Same.of_find? {m m' : HashTable String MetadataValue}
    (h : ∀ k, Option.Rel Same (m.find? k) (m'.find? k)) :
    (MetadataValue.nested m).Same (.nested m') := by
  apply MetadataValue.Same.nested
  · intro k
    have hk := h k
    generalize m.find? k = o, m'.find? k = o' at hk
    cases hk with
    | none => simp
    | some _ => simp
  · intro k v v' hv hv'
    have hk := h k
    rw [hv, hv'] at hk
    cases hk with
    | some hsame => exact hsame

/-- The members of an object are found in the value of its text, in whatever order they are. -/
theorem find?_arrange {m : HashTable String MetadataValue} (hm : m.Keyed) (k : String) :
    (HashTable.mk 0 (c.arrange (m.nodes.map fun e => (e.1, e.2.toTree.toValue c)))).find? k =
      (m.find? k).map fun v => v.toTree.toValue c := by
  have hperm := c.arrange_perm (m.nodes.map fun e => (e.1, e.2.toTree.toValue c))
  have hkeys : ((m.nodes.map fun e => (e.1, e.2.toTree.toValue c)).map Prod.fst).Nodup := by
    rw [List.map_map]
    exact hm
  have hkeyed : (HashTable.mk 0
      (c.arrange (m.nodes.map fun e => (e.1, e.2.toTree.toValue c)))).Keyed :=
    HashTable.Keyed.of_perm hperm hkeys
  rw [hkeyed.find?_of_perm hperm, List.find?_map, HashTable.find?, Option.map_map, Option.map_map]
  rfl

/-- The text of a value reads as the value, up to what is lost on the wire. -/
theorem value_round_trip (c : JsonCodec) (policy : HashPolicy String) {v : MetadataValue}
    (hv : v.WellKeyed) : ∃ o, valueToMetadataValue c policy (v.toTree.toValue c) = .ok o ∧
      Option.Rel MetadataValue.Same o (v.wire c) := by
  -- nested metadata are rebuilt from their entries, in the order of the parser
  induction hv with
  | leaf v hv =>
    have htree : v.toTree = .leaf v := by
      rw [MetadataValue.toTree]
      exact hv
    refine ⟨v.wire c, ?_, ?_⟩
    · rw [htree, JsonTree.toValue]
      exact leaf_arrives hv
    · cases v.wire c with
      | none => exact .none
      | some w => exact .some (.refl w)
  | nested m hm values ih =>
    have hread : ∀ e ∈ m.nodes,
        valueToMetadataValue c policy (e.2.toTree.toValue c) =
          .ok (readValue c policy (e.2.toTree.toValue c)) ∧
        Option.Rel MetadataValue.Same (readValue c policy (e.2.toTree.toValue c))
          (e.2.wire c) := by
      intro e he
      obtain ⟨o, ho, hrel⟩ := ih e he
      rw [readValue_eq ho]
      exact ⟨ho, hrel⟩
    have hperm := c.arrange_perm (m.nodes.map fun e => (e.1, e.2.toTree.toValue c))
    obtain ⟨m', hrun, hkeyed, hfind⟩ := toMetadata_find? (o := readValue c policy)
      (c.arrange (m.nodes.map fun e => (e.1, e.2.toTree.toValue c)))
      (by
        rw [(hperm.map Prod.fst).nodup_iff, List.map_map]
        exact hm)
      (by
        intro x hx
        obtain ⟨e, he, rfl⟩ := List.mem_map.mp (hperm.mem_iff.mp hx)
        exact (hread e he).1)
    refine ⟨some (.nested m'), ?_, ?_⟩
    · rw [MetadataValue.toTree_nested, JsonTree.toValue_object, List.map_map,
        valueToMetadataValue_map]
      exact bind_eq_ok_iff.mpr ⟨m', hrun, rfl⟩
    · rw [MetadataValue.wire_nested]
      refine .some (.of_find? ?_)
      intro k
      rw [hfind, find?_arrange hm, find?_wire hm]
      cases hk : m.find? k with
      | none => exact .none
      | some v => exact (hread (k, v) (hm.find?_eq_some_iff.mp hk)).2

theorem metadata_round_trip (c : JsonCodec) (policy : HashPolicy String) {m : BaseMetadata}
    (hm : BaseMetadata.WellKeyed m) :
    ∃ m', toMetadata c policy ((BaseMetadata.toTree m).toValue c) = .ok m' ∧
      m'.Same (BaseMetadata.wire c m) := by
  obtain ⟨o, ho, hrel⟩ := value_round_trip c policy hm
  rw [MetadataValue.toTree_nested, JsonTree.toValue_object, valueToMetadataValue_map] at ho
  obtain ⟨m', hrun, hm'⟩ := bind_eq_ok_iff.mp ho
  rw [MetadataValue.wire_nested, ← Except.ok.inj hm'] at hrel
  refine ⟨m', ?_, ?_⟩
  · rw [BaseMetadata.toTree, MetadataValue.toTree_nested, JsonTree.toValue_object]
    exact hrun
  · cases hrel with
    | some hsame => exact hsame

theorem mapM_ne_nil {γ : Type} {g : Value → Except Exception γ} {x : Value} {xs : List Value}
    {ys : List γ}
    (h : (x :: xs).mapM g = .ok ys) : ys ≠ [] := by
  rintro rfl
  cases mapM_eq_ok_iff.mp h

theorem list_read_wire {vs : List Value} {v : MetadataValue}
    (h : listToMetadataValue c vs = .ok (some v)) : v.wire c = some v := by
  unfold listToMetadataValue at h
  split at h
  · simp at h
  all_goals first
    | obtain ⟨ys, hys, h⟩ := bind_eq_ok_iff.mp h
      obtain rfl := Option.some.inj (Except.ok.inj h)
      rw [MetadataValue.wire, if_neg (mapM_ne_nil hys)]
    | simp at h

theorem setEntry_stable {m : BaseMetadata} (hm : ∀ e ∈ m.nodes, e.2.wire c = some e.2) (k : String)
    {o : Option MetadataValue} (ho : ∀ v, o = some v → v.wire c = some v) :
    ∀ e ∈ (setEntry policy m k o).nodes, e.2.wire c = some e.2 := by
  cases o with
  | none => exact hm
  | some v =>
    intro e he
    change e ∈ (HashTable.insertOrAssign policy m k v).nodes at he
    unfold HashTable.insertOrAssign at he
    split_ifs at he
    · obtain ⟨x, hx, rfl⟩ := List.mem_map.mp he
      by_cases hxk : x.1 = k
      · rw [if_pos hxk]
        exact ho v rfl
      · rw [if_neg hxk]
        exact hm x hx
    · rw [(HashTable.insertUnique_perm policy m (k, v) 1).mem_iff, List.mem_cons] at he
      rcases he with rfl | he
      · exact ho v rfl
      · exact hm e he

/-- If all values that are read arrive as they are, then so do the metadata made of them. -/
theorem foldlM_stable {es : List (String × Value)}
    (hes : ∀ e ∈ es, ∀ v, valueToMetadataValue c policy e.2 = .ok (some v) → v.wire c = some v)
    {m m' : BaseMetadata} (hm : ∀ e ∈ m.nodes, e.2.wire c = some e.2)
    (h : (es.foldlM (fun m e => do
        let v ← valueToMetadataValue c policy e.2
        .ok (setEntry policy m e.1 v)) m : Except Exception BaseMetadata) = .ok m') :
    ∀ e ∈ m'.nodes, e.2.wire c = some e.2 := by
  induction es generalizing m with
  | nil => exact Except.ok.inj h ▸ hm
  | cons e es ih =>
    rw [List.foldlM_cons] at h
    obtain ⟨m₁, hstep, hrest⟩ := bind_eq_ok_iff.mp h
    obtain ⟨o, ho, hm₁⟩ := bind_eq_ok_iff.mp hstep
    obtain rfl := Except.ok.inj hm₁
    refine ih (fun x hx => hes x (List.mem_cons_of_mem _ hx)) (setEntry_stable hm e.1 ?_) hrest
    intro v hv
    exact hes e List.mem_cons_self v (hv ▸ ho)

theorem wire_eq_of_stable {m : BaseMetadata} (hm : ∀ e ∈ m.nodes, e.2.wire c = some e.2) :
    BaseMetadata.wire c m = m := by
  have hnodes : (m.nodes.filterMap fun e => (e.2.wire c).map fun v => (e.1, v)) = m.nodes := by
    rw [List.filterMap_congr (g := some), List.filterMap_some]
    intro e he
    rw [hm e he]
    rfl
  unfold BaseMetadata.wire
  rw [hnodes]

theorem read_wire (x : Value) {v : MetadataValue}
    (h : valueToMetadataValue c policy x = .ok (some v)) : v.wire c = some v := by
  match x with
  | .nil => simp [valueToMetadataValue] at h
  | .bool _ | .number _ | .double _ | .string _ =>
    rw [valueToMetadataValue] at h
    obtain rfl := Option.some.inj (Except.ok.inj h)
    rw [MetadataValue.wire] <;> simp
  | .list vs =>
    rw [valueToMetadataValue] at h
    exact list_read_wire h
  | .map es =>
    rw [valueToMetadataValue_map] at h
    obtain ⟨m, hrun, hm⟩ := bind_eq_ok_iff.mp h
    obtain rfl := Option.some.inj (Except.ok.inj hm)
    have hstable : ∀ e ∈ m.nodes, e.2.wire c = some e.2 :=
      foldlM_stable (fun e he w hw => read_wire e.2 hw) (by intro e he; cases he) hrun
    rw [MetadataValue.wire_nested, wire_eq_of_stable hstable]
termination_by sizeOf x
decreasing_by exact Value.sizeOf_mem he

theorem toMetadata_wire {x : Value} {m : BaseMetadata} (h : toMetadata c policy x = .ok m) :
    BaseMetadata.wire c m = m := by
  unfold toMetadata at h
  split at h
  · exact wire_eq_of_stable (foldlM_stable (fun e _ w hw => read_wire e.2 hw)
      (by intro e he; cases he) h)
  · simp at h

/-- The identity of a header, where it has one, is the text of its metadata: the text printed from
them, or the text they were read from. -/
def Header.Consistent (c : JsonCodec) (policy : HashPolicy String) (ctx : Context) (h : Header) :
    Prop :=
  ∀ text, h.fieldId_ = some text →
    text = ctx.toString h.metadata ∨ metadataFromYAML c policy text = .ok h.metadata

theorem consistent_of_none {ctx : Context} {h : Header} (hnone : h.fieldId_ = none) :
    h.Consistent c policy ctx := by
  intro text htext
  rw [hnone] at htext
  cases htext

theorem decodeMessage_consistent {ctx : Context} {items rest : List StreamItem} {m : Message}
    (h : decodeMessage c policy items = .ok (m, rest)) : m.header.Consistent c policy ctx := by
  unfold decodeMessage at h
  split at h
  · obtain ⟨_, _, h⟩ := bind_eq_ok_iff.mp h
    obtain ⟨tag, _, h⟩ := bind_eq_ok_iff.mp h
    obtain ⟨metadata, hread, h⟩ := bind_eq_ok_iff.mp h
    obtain ⟨rfl, _⟩ := Prod.mk.inj (Except.ok.inj h)
    intro text htext
    obtain rfl := Option.some.inj htext
    exact Or.inr hread
  · cases h

theorem fieldId_read {ctx : Context} {h : Header} (hh : h.Consistent c policy ctx)
    (hctx : ctx.toString = fun m => c.print (BaseMetadata.toTree m))
    (hkeyed : h.metadata.WellKeyed)
    (hparse : c.parse (c.print (BaseMetadata.toTree h.metadata)) =
      .ok ((BaseMetadata.toTree h.metadata).toValue c)) :
    ∃ m, metadataFromYAML c policy (h.fieldId ctx) = .ok m ∧
      m.Same (BaseMetadata.wire c h.metadata) := by
  have hprinted : ∃ m, metadataFromYAML c policy (ctx.toString h.metadata) = .ok m ∧
      m.Same (BaseMetadata.wire c h.metadata) := by
    obtain ⟨m, hm, hsame⟩ := metadata_round_trip c policy hkeyed
    refine ⟨m, ?_, hsame⟩
    rw [hctx]
    exact bind_eq_ok_iff.mpr ⟨_, hparse, hm⟩
  unfold Header.fieldId
  cases htext : h.fieldId_ with
  | none => exact hprinted
  | some text =>
    rw [Option.getD_some]
    rcases hh text htext with rfl | hread
    · exact hprinted
    · obtain ⟨x, _, hm⟩ := bind_eq_ok_iff.mp hread
      rw [toMetadata_wire hm]
      exact ⟨h.metadata, hread, .refl _⟩

/-- A message that is decoded from the stream it was written to is the message up to what is lost
of its metadata. -/
theorem decodeMessage_encode (c : JsonCodec) (policy : HashPolicy String)
    (parametrization : BaseMetadata) (m : Message)
    (hheader : m.header.Consistent c policy (jsonContext c.print parametrization))
    (hkeyed : m.metadata.WellKeyed)
    (hparse : c.parse (c.print (BaseMetadata.toTree m.metadata)) =
      .ok ((BaseMetadata.toTree m.metadata).toValue c)) (rest : List StreamItem) :
    ∃ m', decodeMessage c policy (m.encode (jsonContext c.print parametrization) ++ rest) =
        .ok (m', rest) ∧
      m'.tag = m.tag ∧ m'.source = m.source ∧ m'.destination = m.destination ∧
      m'.fieldId (jsonContext c.print parametrization) =
        m.fieldId (jsonContext c.print parametrization) ∧
      m'.payload = m.payload ∧ m'.metadata.Same (BaseMetadata.wire c m.metadata) := by
  obtain ⟨metadata, hread, hsame⟩ := fieldId_read hheader rfl hkeyed hparse
  refine ⟨{ header := { tag := m.tag, source := m.source, destination := m.destination, metadata,
                        fieldId_ := some (m.fieldId (jsonContext c.print parametrization)) }
            payload := m.payload }, ?_, rfl, rfl, rfl, rfl, rfl, hsame⟩
  simp only [Message.encode, Header.encode, List.cons_append, List.nil_append, decodeMessage]
  rw [assert_ok (by simp [Message.size]), ok_bind, Tag.ofUnsigned_toUnsigned, ok_bind, hread]
  rfl

/-- The text of the metadata of the message, and what is read from it. -/
def scaleCodec : JsonCodec where
  print _ := "\x7b\"step\":1,\"scale\":1.5\x7d"
  parse _ := .ok (.map [("scale", .double 0x3FF8000000000000), ("step", .number 1)])
  printValue _ := ""
  float _ := 0x3FF8000000000000
  arrange := List.reverse
  arrange_perm := List.reverse_perm
  toInt64 | .number v => .ok v | _ => .error (.userError "no integer")
  toDouble | .double v => .ok v | _ => .error (.userError "no double")
  toBool | .bool v => .ok v | _ => .error (.userError "no bool")
  toString | .string v => .ok v | _ => .error (.userError "no string")
  toInt64_number _ := rfl
  toDouble_double _ := rfl
  toBool_bool _ := rfl
  toString_string _ := rfl

def scalePolicy : HashPolicy String := { hash := String.length, nextBucketCount := fun _ => 541 }

def scaleMessage : Message where
  header := { tag := .field, source := { group := "client", id := 0 },
              destination := { group := "server", id := 1 },
              metadata := { bucketCount := 541,
                            nodes := [("step", .int64 1), ("scale", .float 0x3FC00000)] } }
  payload := [1, 2, 3, 4]

theorem scaleMessage_keyed : scaleMessage.metadata.WellKeyed := by
  apply BaseMetadata.wellKeyed_iff.mpr
  constructor
  · change ["step", "scale"].Nodup
    decide
  · intro e he
    change e ∈ [("step", MetadataValue.int64 1), ("scale", .float 0x3FC00000)] at he
    simp only [List.mem_cons, List.not_mem_nil, or_false] at he
    rcases he with rfl | rfl <;> exact .leaf _ fun _ => by simp

theorem scaleMessage_tree : BaseMetadata.toTree scaleMessage.metadata =
    .object [("step", .leaf (.int64 1)), ("scale", .leaf (.float 0x3FC00000))] := by
  rw [BaseMetadata.toTree, MetadataValue.toTree_nested]
  change JsonTree.object [("step", (MetadataValue.int64 1).toTree),
    ("scale", (MetadataValue.float 0x3FC00000).toTree)] = _
  rw [MetadataValue.toTree, MetadataValue.toTree]
  · simp
  · simp

theorem scaleMessage_parse : scaleCodec.parse
      (scaleCodec.print (BaseMetadata.toTree scaleMessage.metadata)) =
    .ok ((BaseMetadata.toTree scaleMessage.metadata).toValue scaleCodec) := by
  rw [scaleMessage_tree, JsonTree.toValue_object, List.map_cons, List.map_cons, JsonTree.toValue,
    JsonTree.toValue]
  rfl

/-- What arrives of the message, and what it finds under the key of the float. -/
theorem decodeMessage_encode_scale :
    ∃ m', decodeMessage scaleCodec scalePolicy
        (scaleMessage.encode (jsonContext scaleCodec.print { bucketCount := 541 }) ++ []) =
        .ok (m', []) ∧
      m'.tag = scaleMessage.tag ∧ m'.source = scaleMessage.source ∧
      m'.destination = scaleMessage.destination ∧
      m'.fieldId (jsonContext scaleCodec.print { bucketCount := 541 }) =
        scaleMessage.fieldId (jsonContext scaleCodec.print { bucketCount := 541 }) ∧
      m'.payload = scaleMessage.payload ∧
      m'.metadata.Same (BaseMetadata.wire scaleCodec scaleMessage.metadata) :=
  decodeMessage_encode scaleCodec scalePolicy { bucketCount := 541 } scaleMessage
    (consistent_of_none rfl) scaleMessage_keyed scaleMessage_parse []

theorem scaleMessage_read (text : String) : metadataFromYAML scaleCodec scalePolicy text =
    .ok { bucketCount := 541,
          nodes := [("step", .int64 1), ("scale", .double 0x3FF8000000000000)] } := by
  change toMetadata scaleCodec scalePolicy
    (.map [("scale", .double 0x3FF8000000000000), ("step", .number 1)]) = _
  rw [toMetadata, List.foldlM_cons, valueToMetadataValue, ok_bind, ok_bind, List.foldlM_cons,
    valueToMetadataValue, ok_bind, ok_bind]
  rfl

theorem float_arrives_as_double :
    ∃ m', decodeMessage scaleCodec scalePolicy
        (scaleMessage.encode (jsonContext scaleCodec.print { bucketCount := 541 })) =
        .ok (m', []) ∧
      scaleMessage.metadata.find? "scale" = some (.float 0x3FC00000) ∧
      m'.metadata.find? "scale" = some (.double 0x3FF8000000000000) ∧
      ¬ m'.metadata.Same scaleMessage.metadata := by
  refine ⟨{ header := { tag := .field, source := { group := "client", id := 0 },
                        destination := { group := "server", id := 1 },
                        metadata := { bucketCount := 541,
                                      nodes := [("step", .int64 1),
                                                ("scale", .double 0x3FF8000000000000)] },
                        fieldId_ := some (scaleCodec.print (.leaf .null)) }
            payload := [1, 2, 3, 4] }, ?_, rfl, rfl, ?_⟩
  · simp only [Message.encode, Header.encode, List.cons_append, List.nil_append, decodeMessage]
    rw [scaleMessage_read]
    rfl
  · intro hsame
    cases hsame with
    | nested _ _ keys values => cases values "scale" _ _ rfl rfl

def secondStepText : String := "\x7b\"step\":2,\"scale\":1.5\x7d"

def stepsCodec : JsonCodec :=
  { scaleCodec with
    print := fun
      | .object [("step", .leaf (.int64 2)), _] => secondStepText
      | tree => scaleCodec.print tree
    parse := fun text =>
      if text = secondStepText then
        .ok (.map [("scale", .double 0x3FF8000000000000), ("step", .number 2)])
      else scaleCodec.parse text }

/-- A message that shares its metadata with another one, through which the step was changed after
`fieldId` had been asked of this one. -/
def staleMessage : Message where
  header := { tag := .field, source := { group := "client", id := 0 },
              destination := { group := "server", id := 1 },
              metadata := { bucketCount := 541,
                            nodes := [("step", .int64 2), ("scale", .double 0x3FF8000000000000)] },
              fieldId_ := some (scaleCodec.print (.leaf .null)) }
  payload := [1, 2, 3, 4]

theorem staleMessage_tree : BaseMetadata.toTree staleMessage.metadata =
    .object [("step", .leaf (.int64 2)), ("scale", .leaf (.double 0x3FF8000000000000))] := by
  rw [BaseMetadata.toTree, MetadataValue.toTree_nested]
  change JsonTree.object [("step", (MetadataValue.int64 2).toTree),
    ("scale", (MetadataValue.double 0x3FF8000000000000).toTree)] = _
  rw [MetadataValue.toTree, MetadataValue.toTree]
  · simp
  · simp

theorem stepsCodec_read : metadataFromYAML stepsCodec scalePolicy (scaleCodec.print (.leaf .null)) =
    .ok { bucketCount := 541,
          nodes := [("step", .int64 1), ("scale", .double 0x3FF8000000000000)] } := by
  change toMetadata stepsCodec scalePolicy
    (.map [("scale", .double 0x3FF8000000000000), ("step", .number 1)]) = _
  rw [toMetadata, List.foldlM_cons, valueToMetadataValue, ok_bind, ok_bind, List.foldlM_cons,
    valueToMetadataValue, ok_bind, ok_bind]
  rfl

theorem stale_text_arrives :
    stepsCodec.parse (stepsCodec.print (BaseMetadata.toTree staleMessage.metadata)) =
        .ok ((BaseMetadata.toTree staleMessage.metadata).toValue stepsCodec) ∧
      ∃ m', decodeMessage stepsCodec scalePolicy
          (staleMessage.encode (jsonContext stepsCodec.print { bucketCount := 541 })) =
          .ok (m', []) ∧
        staleMessage.metadata.find? "step" = some (.int64 2) ∧
        m'.metadata.find? "step" = some (.int64 1) := by
  refine ⟨?_, { header := { staleMessage.header with
                            metadata := { bucketCount := 541,
                                          nodes := [("step", .int64 1),
                                                    ("scale", .double 0x3FF8000000000000)] } }
                payload := [1, 2, 3, 4] }, ?_, rfl, rfl⟩
  · rw [staleMessage_tree, JsonTree.toValue_object, List.map_cons, List.map_cons,
      JsonTree.toValue, JsonTree.toValue]
    rfl
  · simp only [Message.encode, Header.encode, List.cons_append, List.nil_append, decodeMessage]
    have htext : Header.fieldId (jsonContext stepsCodec.print { bucketCount := 541 })
      staleMessage.header = scaleCodec.print (.leaf .null) := rfl
    rw [htext, stepsCodec_read]
    rfl

/-- The metadata do not arrive as they were sent. -/
theorem metadata_not_preserved :
    (∃ m', decodeMessage scaleCodec scalePolicy
        (scaleMessage.encode (jsonContext scaleCodec.print { bucketCount := 541 })) =
        .ok (m', []) ∧
      scaleMessage.metadata.find? "scale" = some (.float 0x3FC00000) ∧
      m'.metadata.find? "scale" = some (.double 0x3FF8000000000000) ∧
      ¬ m'.metadata.Same scaleMessage.metadata) ∧
    stepsCodec.parse (stepsCodec.print (BaseMetadata.toTree staleMessage.metadata)) =
        .ok ((BaseMetadata.toTree staleMessage.metadata).toValue stepsCodec) ∧
      ∃ m', decodeMessage stepsCodec scalePolicy
          (staleMessage.encode (jsonContext stepsCodec.print { bucketCount := 541 })) =
          .ok (m', []) ∧
        staleMessage.metadata.find? "step" = some (.int64 2) ∧
        m'.metadata.find? "step" = some (.int64 1) :=
  ⟨float_arrives_as_double, stale_text_arrives⟩

end Multio
