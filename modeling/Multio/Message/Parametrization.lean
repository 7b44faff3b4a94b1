import Multio.Lib.Scatter
import Multio.Lib.WriteOnce
import Multio.Message.MetadataEquality
import Multio.Util.ByteOrder

namespace Multio
open Exception Lib Scatter Util WriteOnce

def PARAMETRIZATION_PAYLOAD_KEY : String := "payloadKey"
def PARAMETRIZATION_PAYLOAD_ELEMENT_TYPE : String := "payloadElementType"

inductive ElementType
  | byte
  | int32
  | int64
  | real32
  | real64
  deriving DecidableEq, Repr

def decodeElementType (typeKey : String) : Except Exception ElementType :=
  match typeKey with
  | "byte" => .ok .byte
  | "int64" => .ok .int64
  | "int32" => .ok .int32
  | "real64" => .ok .real64
  | "real32" => .ok .real32
  | _ => .error (.metadata ("Parametrization error: unknown element type \"" ++ typeKey ++ "\""))

/-- The whole elements of `w` bytes of an array. -/
def elements (w : ℕ) (data : List UInt8) : List ℕ :=
  (List.range (data.length / w)).map fun i => ofLittleEndian (word w data i)

/-- The vector that an array is copied to; metadata have no lists of 32-bit integers. -/
def ElementType.toValue (data : List UInt8) : ElementType → MetadataValue
  | .byte => .bytes data
  | .int32 => .int64s ((elements 4 data).map fun x => (BitVec.ofNat 32 x).toInt)
  | .int64 => .int64s ((elements 8 data).map fun x => (BitVec.ofNat 64 x).toInt)
  | .real32 => .floats ((elements 4 data).map UInt32.ofNat)
  | .real64 => .doubles ((elements 8 data).map UInt64.ofNat)

structure ParametrizationContext where
  policy : HashPolicy String
  print : MetadataValue → String

namespace Parametrization

variable (ctx : ParametrizationContext)

/-- `update(key, val)` on the pairs bound so far. -/
def updateKey (data_ : BaseMetadata) (key : String) (val : MetadataValue) :
    Except Exception BaseMetadata :=
  match data_.find? key with
  | none => .ok (data_.set ctx.policy key val)
  | some found =>
    if found.equals val then .ok data_
    else .error (.metadata ("Parametrization error. Key " ++ key ++
      " already contains a different value: " ++ ctx.print found ++ " != " ++ ctx.print val))

/-- The loop of `update`, with the pairs that are left also when it throws. -/
def updateKeys (data_ : BaseMetadata) :
    List (String × MetadataValue) → Except Exception Unit × BaseMetadata
  | [] => (.ok (), data_)
  | kv :: kvs =>
    match updateKey ctx data_ kv.1 kv.2 with
    | .ok data_ => updateKeys data_ kvs
    | .error e => (.error e, data_)

def ignoreKeys : List String := [PARAMETRIZATION_PAYLOAD_KEY, PARAMETRIZATION_PAYLOAD_ELEMENT_TYPE]

/-- The entries that the loop of `update` does not skip. -/
def keptEntries (other : BaseMetadata) : List (String × MetadataValue) :=
  other.nodes.filter fun kv => kv.1 ∉ ignoreKeys

/-- `update(const BaseMetadata&)`. -/
def updateMetadata (data_ other : BaseMetadata) : Except Exception Unit × BaseMetadata :=
  updateKeys ctx data_ (keptEntries other)

/-- `update(key, et, data, size)`. -/
def updateElements (data_ : BaseMetadata) (key : String) (et : ElementType) (data : List UInt8) :
    Except Exception Unit × BaseMetadata :=
  match updateKey ctx data_ key (et.toValue data) with
  | .ok data_ => (.ok (), data_)
  | .error e => (.error e, data_)

/-- `update(key, kt, data, size)`. -/
def updateArray (data_ : BaseMetadata) (key kt : String) (data : List UInt8) :
    Except Exception Unit × BaseMetadata :=
  match decodeElementType kt with
  | .ok et => updateElements ctx data_ key et data
  | .error e => (.error e, data_)

def emptyPayload (key : MetadataValue) : Exception :=
  .metadata ("Parametrization error. Key " ++ PARAMETRIZATION_PAYLOAD_KEY ++
    " given with value \"" ++ ctx.print key ++ "\" is specified but payload is empty.")

def missingType (key : MetadataValue) : Exception :=
  .metadata ("Parametrization error. Key " ++ PARAMETRIZATION_PAYLOAD_KEY ++
    " given with value \"" ++ ctx.print key ++ "\" but no key type \"" ++
    PARAMETRIZATION_PAYLOAD_ELEMENT_TYPE ++ "\" is given.")

/-- `update(const Message&)`; the metadata of the message also find what is bound already. -/
def updateMessage (data_ : BaseMetadata) (msg : Message) : Except Exception Unit × BaseMetadata :=
  match Metadata.find data_ msg.metadata PARAMETRIZATION_PAYLOAD_KEY with
  | none => updateMetadata ctx data_ msg.metadata
  | some key =>
    -- the value of the key is in the payload
    if msg.size = 0 then (.error (emptyPayload ctx key), data_)
    else
      match Metadata.find data_ msg.metadata PARAMETRIZATION_PAYLOAD_ELEMENT_TYPE with
      | none => (.error (missingType ctx key), data_)
      | some kt =>
        match key.getString, kt.getString with
        | .ok key, .ok kt =>
          match updateArray ctx data_ key kt msg.payload with
          | (.ok (), data_) => updateMetadata ctx data_ msg.metadata
          | (.error e, data_) => (.error e, data_)
        | .error e, _ => (.error e, data_)
        | _, .error e => (.error e, data_)

inductive Update
  | metadata (other : BaseMetadata)
  | elements (key : String) (et : ElementType) (data : List UInt8)
  | array (key kt : String) (data : List UInt8)
  | message (msg : Message)

def update (data_ : BaseMetadata) : Update → Except Exception Unit × BaseMetadata
  | .metadata other => updateMetadata ctx data_ other
  | .elements key et data => updateElements ctx data_ key et data
  | .array key kt data => updateArray ctx data_ key kt data
  | .message msg => updateMessage ctx data_ msg

inductive Call
  | update (u : Update)
  | clear

def step (data_ : BaseMetadata) : Call → BaseMetadata
  | .update u => (update ctx data_ u).2
  | .clear => BaseMetadata.empty ctx.policy

def run (calls : List Call) : BaseMetadata :=
  calls.foldl (step ctx) (BaseMetadata.empty ctx.policy)

/-- The pairs that an update gives to the parametrization, in order, unless the update cannot be
read at all. -/
def carried (data_ : BaseMetadata) : Update → Except Exception (List (String × MetadataValue))
  | .metadata other => .ok (keptEntries other)
  | .elements key et data => .ok [(key, et.toValue data)]
  | .array key kt data => do
    let et ← decodeElementType kt
    .ok [(key, et.toValue data)]
  | .message msg =>
    match Metadata.find data_ msg.metadata PARAMETRIZATION_PAYLOAD_KEY with
    | none => .ok (keptEntries msg.metadata)
    | some key =>
      if msg.size = 0 then .error (emptyPayload ctx key)
      else
        match Metadata.find data_ msg.metadata PARAMETRIZATION_PAYLOAD_ELEMENT_TYPE with
        | none => .error (missingType ctx key)
        | some kt => do
          let key ← key.getString
          let kt ← kt.getString
          let et ← decodeElementType kt
          .ok ((key, et.toValue msg.payload) :: keptEntries msg.metadata)

def Update.WellKeyed : Update → Prop
  | .metadata other => BaseMetadata.WellKeyed other
  | .elements _ _ _ => True
  | .array _ _ _ => True
  | .message msg => BaseMetadata.WellKeyed msg.metadata

def Call.WellKeyed : Call → Prop
  | .update u => u.WellKeyed
  | .clear => True

/-- Bound keys keep their values under all later updates; an update that carries a different value
throws, one whose values are equal to those bound does not, and one that throws changes nothing. -/
structure UpdateLaw (data_ : BaseMetadata) (u : Update) : Prop where
  kept : ∀ later : List Update, (∀ u' ∈ later, u'.WellKeyed) → ∀ k v, data_.find? k = some v →
    (later.foldl (fun data_ u => (update ctx data_ u).2) (update ctx data_ u).2).find? k = some v
  refuses : ∀ es, carried ctx data_ u = .ok es →
    (∃ p ∈ compared data_.find? es, ¬p.1.Equal p.2) → ∃ e, (update ctx data_ u).1 = .error e
  takes : ∀ es, carried ctx data_ u = .ok es →
    (∀ p ∈ compared data_.find? es, p.1.Equal p.2) → (update ctx data_ u).1 = .ok ()
  atomic : ∀ e, (update ctx data_ u).1 = .error e → (update ctx data_ u).2 = data_

/-- No value that the update carries differs from the one its key is bound to by then, or one that
does, and visibly so to `==`, comes before the first key that is not bound. -/
def Settled (data_ : BaseMetadata) (u : Update) : Prop :=
  ∀ es, carried ctx data_ u = .ok es →
    (∀ p ∈ compared data_.find? es, p.1.Equal p.2) ∨
      ∃ p ∈ compared data_.find? (boundPrefix data_.find? es), p.1.LeadDiffers p.2

variable {ctx} {data_ : BaseMetadata}

theorem update_eq (u : Update) :
    update ctx data_ u =
      match carried ctx data_ u with
      | .ok es => updateKeys ctx data_ es
      | .error e => (.error e, data_) := by
  have hone : ∀ key et data kvs, updateKeys ctx data_ ((key, ElementType.toValue data et) :: kvs) =
      match updateElements ctx data_ key et data with
      | (.ok (), data_) => updateKeys ctx data_ kvs
      | (.error e, data_) => (.error e, data_) := by
    intro key et data kvs
    rw [updateKeys, updateElements]
    cases updateKey ctx data_ key (et.toValue data) <;> rfl
  have hlast : ∀ key et data, updateKeys ctx data_ [(key, ElementType.toValue data et)] =
      updateElements ctx data_ key et data := by
    intro key et data
    rw [updateKeys, updateElements]
    cases updateKey ctx data_ key (et.toValue data) <;> rfl
  -- each kind of message carries entries that are then given one by one
  cases u with
  | metadata other => rfl
  | elements key et data => exact (hlast key et data).symm
  | array key kt data =>
    rw [update, updateArray, carried]
    cases decodeElementType kt with
    | error e => rfl
    | ok et => exact (hlast key et data).symm
  | message msg =>
    rw [update, updateMessage, carried]
    cases Metadata.find data_ msg.metadata PARAMETRIZATION_PAYLOAD_KEY with
    | none => rfl
    | some key =>
      simp only
      by_cases hsize : msg.size = 0
      · rw [if_pos hsize, if_pos hsize]
      · rw [if_neg hsize, if_neg hsize]
        cases Metadata.find data_ msg.metadata PARAMETRIZATION_PAYLOAD_ELEMENT_TYPE with
        | none => rfl
        | some kt =>
          simp only
          cases key.getString with
          | error e => rfl
          | ok key =>
            cases kt.getString with
            | error e => rfl
            | ok kt =>
              simp only [ok_bind, updateArray]
              cases decodeElementType kt with
              | error e => rfl
              | ok et => exact (hone key et msg.payload _).symm

theorem keptEntries_wellKeyed {other : BaseMetadata} (h : BaseMetadata.WellKeyed other) :
    ∀ e ∈ keptEntries other, e.2.WellKeyed := by
  intro e he
  exact (BaseMetadata.wellKeyed_iff.mp h).2 e (List.mem_of_mem_filter he)

theorem toValue_wellKeyed (et : ElementType) (data : List UInt8) : (et.toValue data).WellKeyed := by
  apply MetadataValue.WellKeyed.leaf
  intro m
  cases et <;> simp [ElementType.toValue]

theorem carried_wellKeyed {u : Update} (hu : u.WellKeyed) {es : List (String × MetadataValue)}
    (h : carried ctx data_ u = .ok es) : ∀ e ∈ es, e.2.WellKeyed := by
  have harray : ∀ (key : String) et data, ∀ e ∈ [(key, ElementType.toValue data et)], e.2.WellKeyed := by
    intro key et data e he
    rw [List.mem_singleton.mp he]
    exact toValue_wellKeyed et data
  cases u with
  | metadata other =>
    cases h
    exact keptEntries_wellKeyed hu
  | elements key et data =>
    cases h
    exact harray key et data
  | array key kt data =>
    obtain ⟨et, -, h⟩ := bind_eq_ok_iff.mp h
    cases h
    exact harray key et data
  | message msg =>
    have hkept := @keptEntries_wellKeyed msg.metadata hu
    rw [carried] at h
    split at h
    · cases h
      exact hkept
    · split_ifs at h
      split at h
      · cases h
      · obtain ⟨key, -, h⟩ := bind_eq_ok_iff.mp h
        obtain ⟨kt, -, h⟩ := bind_eq_ok_iff.mp h
        obtain ⟨et, -, h⟩ := bind_eq_ok_iff.mp h
        cases h
        rw [List.forall_mem_cons]
        exact ⟨toValue_wellKeyed et msg.payload, hkept⟩

theorem updateKeys_giveAll (hdata : BaseMetadata.WellKeyed data_)
    (es : List (String × MetadataValue)) (hes : ∀ e ∈ es, e.2.WellKeyed) :
    ((updateKeys ctx data_ es).1 = .ok () ↔
        (giveAll MetadataValue.equals data_.find? es).1 = true) ∧
      (updateKeys ctx data_ es).2.find? = (giveAll MetadataValue.equals data_.find? es).2 ∧
      BaseMetadata.WellKeyed (updateKeys ctx data_ es).2 := by
  induction es generalizing data_ with
  | nil => exact ⟨by simp [updateKeys, giveAll], rfl, hdata⟩
  | cons e es ih =>
    rw [List.forall_mem_cons] at hes
    rw [updateKeys, updateKey, giveAll]
    cases hfind : data_.find? e.1 with
    | none =>
      have hset := hdata.set ctx.policy e.1 hes.1
      have hbind : HashTable.find? (data_.set ctx.policy e.1 e.2) = extend data_.find? e := by
        funext k
        rw [BaseMetadata.set, (BaseMetadata.wellKeyed_iff.mp hdata).1.find?_insertOrAssign, extend,
          Function.update_apply]
      have hrest := ih hset hes.2
      rw [hbind] at hrest
      exact hrest
    | some found =>
      simp only
      split_ifs
      · exact ih hdata hes.2
      · exact ⟨by simp, rfl, hdata⟩

theorem updateKeys_unchanged (hdata : BaseMetadata.WellKeyed data_)
    (es : List (String × MetadataValue)) (hes : ∀ e ∈ es, e.2.WellKeyed)
    (h : (updateKeys ctx data_ es).2.find? = data_.find?) :
    (updateKeys ctx data_ es).2 = data_ := by
  induction es generalizing data_ with
  | nil => rfl
  | cons e es ih =>
    rw [List.forall_mem_cons] at hes
    rw [updateKeys, updateKey] at h ⊢
    cases hfind : data_.find? e.1 with
    | none =>
      rw [hfind] at h
      simp only at h
      have hset := hdata.set ctx.policy e.1 hes.1
      have hbound : HashTable.find? (data_.set ctx.policy e.1 e.2) e.1 = some e.2 := by
        rw [BaseMetadata.set, (BaseMetadata.wellKeyed_iff.mp hdata).1.find?_insertOrAssign,
          if_pos rfl]
      have hkept := giveAll_kept MetadataValue.equals hbound es
      rw [← (updateKeys_giveAll hset es hes.2).2.1, h, hfind] at hkept
      cases hkept
    | some found =>
      rw [hfind] at h
      simp only at h ⊢
      split_ifs at h ⊢
      · exact ih hdata hes.2 h
      · rfl

theorem update_wellKeyed (hdata : BaseMetadata.WellKeyed data_) {u : Update} (hu : u.WellKeyed) :
    BaseMetadata.WellKeyed (update ctx data_ u).2 := by
  rw [update_eq]
  cases hes : carried ctx data_ u with
  | error e => exact hdata
  | ok es => exact (updateKeys_giveAll hdata es (carried_wellKeyed hu hes)).2.2

theorem empty_wellKeyed (policy : HashPolicy String) :
    BaseMetadata.WellKeyed (BaseMetadata.empty policy) :=
  BaseMetadata.wellKeyed_iff.mpr ⟨List.nodup_nil, fun e he => by cases he⟩

theorem step_wellKeyed (hdata : BaseMetadata.WellKeyed data_) {c : Call} (hc : c.WellKeyed) :
    BaseMetadata.WellKeyed (step ctx data_ c) := by
  cases c with
  | update u => exact update_wellKeyed hdata hc
  | clear => exact empty_wellKeyed ctx.policy

theorem run_wellKeyed {calls : List Call} (hcalls : ∀ c ∈ calls, c.WellKeyed) :
    BaseMetadata.WellKeyed (run ctx calls) := by
  have hempty := empty_wellKeyed ctx.policy
  rw [run]
  generalize BaseMetadata.empty ctx.policy = data_ at hempty
  induction calls generalizing data_ with
  | nil => exact hempty
  | cons c calls ih =>
    rw [List.forall_mem_cons] at hcalls
    exact ih hcalls.2 _ (step_wellKeyed hempty hcalls.1)

theorem update_kept (hdata : BaseMetadata.WellKeyed data_) {u : Update} (hu : u.WellKeyed)
    {k : String} {v : MetadataValue} (hk : data_.find? k = some v) :
    (update ctx data_ u).2.find? k = some v := by
  rw [update_eq]
  cases hes : carried ctx data_ u with
  | error e => exact hk
  | ok es =>
    simp only
    rw [(updateKeys_giveAll hdata es (carried_wellKeyed hu hes)).2.1]
    exact giveAll_kept MetadataValue.equals hk es

theorem foldl_update_kept (hdata : BaseMetadata.WellKeyed data_) {later : List Update}
    (hlater : ∀ u ∈ later, u.WellKeyed) {k : String} {v : MetadataValue}
    (hk : data_.find? k = some v) :
    (later.foldl (fun data_ u => (update ctx data_ u).2) data_).find? k = some v := by
  induction later generalizing data_ with
  | nil => exact hk
  | cons u later ih =>
    rw [List.forall_mem_cons] at hlater
    exact ih (update_wellKeyed hdata hlater.1) hlater.2 (update_kept hdata hlater.1 hk)

/-- An update whose pairs can be read obeys the law of a table in which keys are bound once. -/
theorem lawful_of_carried (hdata : BaseMetadata.WellKeyed data_) {u : Update}
    {es : List (String × MetadataValue)} (hes : ∀ e ∈ es, e.2.WellKeyed)
    (hcarried : carried ctx data_ u = .ok es) :
    Lawful MetadataValue.equals MetadataValue.Equal data_.find? es ↔
      ((∃ p ∈ compared data_.find? es, ¬p.1.Equal p.2) →
          ∃ e, (update ctx data_ u).1 = .error e) ∧
        ((∀ p ∈ compared data_.find? es, p.1.Equal p.2) → (update ctx data_ u).1 = .ok ()) ∧
        ∀ e, (update ctx data_ u).1 = .error e → (update ctx data_ u).2 = data_ := by
  obtain ⟨hok, hfind, -⟩ := @updateKeys_giveAll ctx _ hdata es hes
  have hupdate : update ctx data_ u = updateKeys ctx data_ es := by
    rw [update_eq, hcarried]
  have hfail : (giveAll MetadataValue.equals data_.find? es).1 = false ↔
      ∃ e, (updateKeys ctx data_ es).1 = .error e := by
    rw [← Bool.not_eq_true, ← hok]
    cases (updateKeys ctx data_ es).1 <;> simp
  rw [hupdate]
  constructor
  · intro h
    refine ⟨fun hne => hfail.mp (h.refuses hne), fun hall => hok.mpr (h.takes hall), ?_⟩
    intro e he
    apply updateKeys_unchanged hdata es hes
    rw [hfind]
    exact h.atomic (hfail.mpr ⟨e, he⟩)
  · rintro ⟨hrefuses, htakes, hatomic⟩
    refine ⟨fun hne => hfail.mpr (hrefuses hne), fun hall => hok.mp (htakes hall), ?_⟩
    intro hfalse
    obtain ⟨e, he⟩ := hfail.mp hfalse
    rw [← hfind, hatomic e he]

/-- In every state that updates and clearings lead to, an update obeys the law exactly when it is
settled. -/
theorem update_law_iff (ctx : ParametrizationContext) {calls : List Call}
    (hcalls : ∀ c ∈ calls, c.WellKeyed) {u : Update} (hu : u.WellKeyed) :
    UpdateLaw ctx (run ctx calls) u ↔ Settled ctx (run ctx calls) u := by
  have hdata := @run_wellKeyed ctx _ hcalls
  generalize run ctx calls = data_ at hdata
  have hkept : ∀ later : List Update, (∀ u' ∈ later, u'.WellKeyed) → ∀ k v,
      data_.find? k = some v →
      (later.foldl (fun data_ u => (update ctx data_ u).2) (update ctx data_ u).2).find? k =
        some v := by
    intro later hlater k v hk
    exact foldl_update_kept (update_wellKeyed hdata hu) hlater (update_kept hdata hu hk)
  -- an update whose entries cannot be read throws before it binds anything
  cases hcarried : carried ctx data_ u with
  | error e =>
    constructor
    · intro _ es hes
      rw [hcarried] at hes
      cases hes
    · intro _
      refine ⟨hkept, fun es hes => ?_, fun es hes => ?_, fun e _ => ?_⟩
      · rw [hcarried] at hes
        cases hes
      · rw [hcarried] at hes
        cases hes
      · rw [update_eq, hcarried]
  | ok es =>
    have hes := carried_wellKeyed hu hcarried
    have hwell : ∀ p ∈ compared data_.find? es, p.1.WellKeyed ∧ p.2.WellKeyed := by
      apply forall_compared _ hes
      intro k w hk
      obtain ⟨hkeyed, hvalues⟩ := BaseMetadata.wellKeyed_iff.mp hdata
      exact hvalues _ (hkeyed.find?_eq_some_iff.mp hk)
    have hlaw : Lawful MetadataValue.equals MetadataValue.Equal data_.find? es ↔ _ :=
      lawful_iff fun p hp hequal => hequal.equals (hwell p hp).1 (hwell p hp).2
    rw [lawful_of_carried hdata hes hcarried] at hlaw
    simp only [MetadataValue.equals_eq_false_iff] at hlaw
    constructor
    · intro h es' hes'
      rw [hcarried, Except.ok.injEq] at hes'
      rw [← hes']
      exact hlaw.mp ⟨h.refuses es hcarried, h.takes es hcarried, h.atomic⟩
    · intro h
      obtain ⟨hrefuses, htakes, hatomic⟩ := hlaw.mpr (h es hcarried)
      refine ⟨hkept, fun es' hes' => ?_, fun es' hes' => ?_, hatomic⟩
      · rw [hcarried, Except.ok.injEq] at hes'
        rwa [← hes']
      · rw [hcarried, Except.ok.injEq] at hes'
        rwa [← hes']

def smallContext : ParametrizationContext where
  policy := { hash := String.length, nextBucketCount := id }
  print _ := ""

def stepGiven : List Call :=
  [.update (.metadata { bucketCount := 541, nodes := [("step", .int64 1)] })]

def levelThenStep : Update := .metadata (twoKeys "level" "step" 2 5)

def levelThenSameStep : Update := .metadata (twoKeys "level" "step" 2 1)

theorem oneKey_wellKeyed (k : String) (v : ℤ) :
    BaseMetadata.WellKeyed { bucketCount := 541, nodes := [(k, .int64 v)] } := by
  rw [BaseMetadata.wellKeyed_iff]
  refine ⟨List.nodup_singleton _, ?_⟩
  intro e he
  rw [List.mem_singleton.mp he]
  exact .leaf _ fun m hm => by cases hm

theorem stepGiven_wellKeyed : ∀ c ∈ stepGiven, c.WellKeyed := by
  intro c hc
  rw [List.mem_singleton.mp hc]
  exact oneKey_wellKeyed "step" 1

/-- One key of the update is bound, and the other one is compared. -/
theorem update_law_iff_two :
    UpdateLaw smallContext (run smallContext stepGiven) levelThenSameStep := by
  have hkeyed : levelThenSameStep.WellKeyed :=
    twoKeys_wellKeyed (show "level" ≠ "step" by decide) 2 1
  refine (update_law_iff smallContext stepGiven_wellKeyed hkeyed).mpr fun es hes =>
    Or.inl fun p hp => ?_
  obtain rfl := Except.ok.inj hes
  have hcompared : compared (run smallContext stepGiven).find?
      (keptEntries (twoKeys "level" "step" 2 1)) = [(.int64 1, .int64 1)] := rfl
  rw [hcompared] at hp
  obtain rfl := List.mem_singleton.mp hp
  exact .plain _ _ rfl

/-- The update throws, and its first key stays bound. -/
theorem refused_update_binds :
    (∃ e, (update smallContext (run smallContext stepGiven) levelThenStep).1 = .error e) ∧
      ((run smallContext stepGiven).find? "level").isNone ∧
      ((update smallContext (run smallContext stepGiven) levelThenStep).2.find?
        "level").isSome ∧
      ¬UpdateLaw smallContext (run smallContext stepGiven) levelThenStep := by
  have hconflict : updateKey smallContext
      ((run smallContext stepGiven).set smallContext.policy "level" (.int64 2)) "step"
        (.int64 5) =
      .error (.metadata
        "Parametrization error. Key step already contains a different value:  != ") := by
    change (if MetadataValue.equals (.int64 1) (.int64 5) then _ else _) = _
    rw [MetadataValue.equals_plain rfl]
    rfl
  have hupdate : update smallContext (run smallContext stepGiven) levelThenStep =
      match updateKey smallContext
        ((run smallContext stepGiven).set smallContext.policy "level" (.int64 2)) "step"
          (.int64 5) with
      | .ok data_ => (.ok (), data_)
      | .error e =>
        (.error e, (run smallContext stepGiven).set smallContext.policy "level" (.int64 2)) := rfl
  rw [hconflict] at hupdate
  have hbefore : ((run smallContext stepGiven).find? "level").isNone := rfl
  have hafter : ((update smallContext (run smallContext stepGiven) levelThenStep).2.find?
      "level").isSome := by
    rw [hupdate]
    rfl
  have hthrows : ∃ e, (update smallContext (run smallContext stepGiven) levelThenStep).1 =
      .error e := by
    rw [hupdate]
    exact ⟨_, rfl⟩
  refine ⟨hthrows, hbefore, hafter, ?_⟩
  -- `level` is bound, although the update throws at `step`
  intro hlaw
  obtain ⟨e, he⟩ := hthrows
  rw [hlaw.atomic e he, Option.isSome_iff_ne_none] at hafter
  exact hafter (Option.isNone_iff_eq_none.mp hbefore)

end Parametrization
end Multio
