import Multio.Lib.SharedCells
import Multio.Message.Message

namespace Multio
open Lib Exception

/-- What a message holds besides its metadata and payload, with `moveOrCopy_` of its
`SharedMetadata`. -/
structure HeaderMembers where
  tag : Tag
  source : Peer
  destination : Peer
  fieldId_ : Option String
  moveOrCopy_ : Bool

/-- The metadata of the messages, by their addresses. -/
abbrev SharedMetadata := SharedCells ℕ HeaderMembers BaseMetadata

/-- The payloads; the mark tells a `PayloadReference` from a shared buffer. -/
abbrev SharedPayload := SharedCells ℕ Bool (List UInt8)

namespace SharedMetadata

variable (s : SharedMetadata) (i : ℕ)

def modify (f : BaseMetadata → BaseMetadata) : SharedMetadata :=
  match s.mark i, s.get i with
  | some h, some md =>
    if h.moveOrCopy_ ∧ ¬ s.unique i then
      (s.make i md { h with moveOrCopy_ := false }).write i f
    else s.write i f
  | _, _ => s

end SharedMetadata

namespace SharedPayload

variable (s : SharedPayload) (i : ℕ)

/-- `(*this) = this->moveOrCopy()`. -/
def acquire : SharedPayload :=
  match s.mark i, s.get i with
  | some reference, some bytes =>
    if reference = false ∧ s.unique i then s else s.make i bytes false
  | _, _ => s

end SharedPayload

structure Memory where
  metadata : SharedMetadata := .empty
  payloads : SharedPayload := .empty

structure StoredMessage where
  message : Message
  /-- The payload is a `PayloadReference`. -/
  reference : Bool

def storedMessage (h : HeaderMembers) (reference : Bool) (metadata : BaseMetadata)
    (payload : List UInt8) : StoredMessage where
  message :=
    { header := { tag := h.tag, source := h.source, destination := h.destination, metadata,
                  fieldId_ := h.fieldId_ }
      payload }
  reference

/-- What programs do with messages; an address that is written to is constructed or assigned. -/
inductive Call
  | create (i : ℕ) (header : Header) (payload : List UInt8) (reference : Bool)
  | copy (i j : ℕ)
  /-- A message with the `SharedMetadata` of another one, or with what its `moveOrCopy` returns. -/
  | withMetadata (i : ℕ) (tag : Tag) (source destination : Peer) (j : ℕ) (moveOrCopy : Bool)
      (payload : List UInt8) (reference : Bool)
  | destroy (i : ℕ)
  | acquireMetadata (i : ℕ)
  | acquirePayload (i : ℕ)
  | modifyMetadata (i : ℕ) (f : BaseMetadata → BaseMetadata)
  | modifyPayload (i : ℕ) (f : List UInt8 → List UInt8)
  | fieldId (i : ℕ)

def Call.involves (i : ℕ) : Call → Bool
  | .create k _ _ _ => k = i
  | .copy k j => k = i ∨ j = i
  | .withMetadata k _ _ _ j _ _ _ => k = i ∨ j = i
  | .destroy k => k = i
  | _ => false

/-- The message that a call modifies, and the call that acquires it. -/
def Call.modifies : Call → Option (ℕ × Call)
  | .modifyMetadata i _ => some (i, .acquireMetadata i)
  | .modifyPayload i _ => some (i, .acquirePayload i)
  | _ => none

/-- Messages are modified only when they have been acquired, and have not been copied since. -/
def Acquired (calls : List Call) : Prop := ∀ pre call, pre ++ [call] <+: calls →
  ∀ i acquire, call.modifies = some (i, acquire) → ∃ before between,
    pre = before ++ acquire :: between ∧ ∀ c ∈ between, c.involves i = false

def notAcquired : Exception := .seriousBug "The payload has not been acquired yet!"

def noMessage : Exception := .undefinedBehaviour "access to an object outside of its lifetime"

namespace Memory

variable (ctx : Context) (m : Memory)

/-- The members of the message at an address, and whether its payload is a reference. -/
def object (i : ℕ) : Except Exception (HeaderMembers × Bool) :=
  match m.metadata.mark i, m.payloads.mark i with
  | some h, some reference => .ok (h, reference)
  | _, _ => .error noMessage

def step : Call → Except Exception Memory
  | .create i header payload reference =>
    .ok { metadata := m.metadata.make i header.metadata
            { tag := header.tag, source := header.source, destination := header.destination,
              fieldId_ := header.fieldId_, moveOrCopy_ := false }
          payloads := m.payloads.make i payload reference }
  | .copy i j => do
    let (h, reference) ← m.object j
    .ok { metadata := m.metadata.share i j h, payloads := m.payloads.share i j reference }
  | .withMetadata i tag source destination j moveOrCopy payload reference => do
    let (h, _) ← m.object j
    .ok { metadata := m.metadata.share i j
            { tag, source, destination, fieldId_ := none,
              moveOrCopy_ := h.moveOrCopy_ || moveOrCopy }
          payloads := m.payloads.make i payload reference }
  | .destroy i => do
    let _ ← m.object i
    .ok { metadata := m.metadata.drop i, payloads := m.payloads.drop i }
  | .acquireMetadata i => do
    let (h, _) ← m.object i
    .ok { m with metadata := m.metadata.setMark i { h with moveOrCopy_ := true } }
  | .acquirePayload i => do
    let _ ← m.object i
    .ok { m with payloads := SharedPayload.acquire m.payloads i }
  | .modifyMetadata i f => do
    let (h, _) ← m.object i
    .ok { m with metadata :=
      SharedMetadata.modify (m.metadata.setMark i { h with fieldId_ := none }) i f }
  | .modifyPayload i f => do
    let (_, reference) ← m.object i
    if reference then .error notAcquired
    else .ok { m with payloads := m.payloads.write i f }
  | .fieldId i => do
    let (h, _) ← m.object i
    let fieldId := h.fieldId_.getD ((m.metadata.get i).elim "" ctx.toString)
    .ok { m with metadata := m.metadata.setMark i { h with fieldId_ := some fieldId } }

def run (calls : List Call) : Except Exception Memory := calls.foldlM (step ctx) m

def view (i : ℕ) : Option StoredMessage := do
  let h ← m.metadata.mark i
  let metadata ← m.metadata.get i
  let reference ← m.payloads.mark i
  let payload ← m.payloads.get i
  some (storedMessage h reference metadata payload)

end Memory

/-- Messages that share nothing. -/
abbrev Store := ℕ → Option StoredMessage

namespace Store

variable (ctx : Context) (s : Store)

def object (i : ℕ) : Except Exception StoredMessage :=
  match s i with
  | some v => .ok v
  | none => .error noMessage

def set (i : ℕ) (v : StoredMessage) : Store := Function.update s i (some v)

def step : Call → Except Exception Store
  | .create i header payload reference =>
    .ok (s.set i { message := { header, payload }, reference })
  | .copy i j => do
    .ok (s.set i (← s.object j))
  | .withMetadata i tag source destination j _ payload reference => do
    let v ← s.object j
    let header := { tag, source, destination, metadata := v.message.metadata }
    .ok (s.set i { message := { header, payload }, reference })
  | .destroy i => do
    let _ ← s.object i
    .ok (Function.update s i none)
  | .acquireMetadata i => do
    let _ ← s.object i
    .ok s
  | .acquirePayload i => do
    .ok (s.set i { (← s.object i) with reference := false })
  | .modifyMetadata i f => do
    let v ← s.object i
    .ok (s.set i { v with message := { v.message with header :=
      { v.message.header with metadata := f v.message.metadata, fieldId_ := none } } })
  | .modifyPayload i f => do
    let v ← s.object i
    if v.reference then .error notAcquired
    else .ok (s.set i { v with message := { v.message with payload := f v.message.payload } })
  | .fieldId i => do
    let v ← s.object i
    .ok (s.set i { v with message := { v.message with header :=
      { v.message.header with fieldId_ := some (v.message.fieldId ctx) } } })

def run (calls : List Call) : Except Exception Store := calls.foldlM (step ctx) s

end Store

namespace Store

theorem run_concat {ctx : Context} {s : Store} (calls : List Call) (call : Call) :
    s.run ctx (calls ++ [call]) = (s.run ctx calls).bind fun s' => s'.step ctx call := by
  unfold run
  rw [List.foldlM_append]
  simp only [List.foldlM_cons, List.foldlM_nil, bind_pure]
  rfl

end Store

section Shared

variable {i : ℕ} {h : HeaderMembers} {md : BaseMetadata} {f : BaseMetadata → BaseMetadata}

/-- The metadata of one message changes if it has been acquired, is not shared, or stays as it
is. -/
theorem SharedMetadata.modify_spec {s : SharedMetadata} (hmark : s.mark i = some h)
    (hget : s.get i = some md)
    (howned : h.moveOrCopy_ = true ∨ s.unique i = true ∨ f md = md) : ∃ moveOrCopy_,
      (∀ k, (modify s i f).mark k = if k = i then some { h with moveOrCopy_ } else s.mark k) ∧
      ∀ k, (modify s i f).get k = if k = i then some (f md) else s.get k := by
  unfold modify
  rw [hmark, hget]
  simp only []
  by_cases hcopy : h.moveOrCopy_ = true ∧ ¬ s.unique i = true
  · rw [if_pos hcopy]
    refine ⟨false, fun k => ?_, fun k => ?_⟩
    · rw [SharedCells.mark_write, SharedCells.mark_make]
    · rw [SharedCells.get_write (SharedCells.unique_make md _), SharedCells.get_make, if_pos rfl,
        SharedCells.get_make]
      split_ifs
      · rfl
      · rfl
  · rw [if_neg hcopy]
    refine ⟨h.moveOrCopy_, fun k => ?_, fun k => ?_⟩
    · rw [SharedCells.mark_write]
      split_ifs with hk
      · rw [hk, hmark]
      · rfl
    · rw [SharedCells.get_write_of_alone, hget]
      · rfl
      · obtain hmove | hunique | hfixed := howned
        · exact Or.inl (not_not.mp fun hnot => hcopy ⟨hmove, hnot⟩)
        · exact Or.inl hunique
        · refine Or.inr fun v hv => ?_
          rw [hget] at hv
          rw [← Option.some.inj hv]
          exact hfixed

theorem SharedMetadata.isSome_mark_modify (s : SharedMetadata) (i k : ℕ)
    (f : BaseMetadata → BaseMetadata) : ((modify s i f).mark k).isSome = (s.mark k).isSome := by
  unfold modify
  cases hmark : s.mark i with
  | none => rfl
  | some h =>
    cases s.get i with
    | none => rfl
    | some md =>
      simp only []
      split_ifs
      · rw [SharedCells.mark_write, SharedCells.mark_make]
        split_ifs with hk
        · rw [hk, hmark]
          rfl
        · rfl
      · rfl

theorem SharedPayload.acquire_spec {s : SharedPayload} {reference : Bool} {bytes : List UInt8}
    (hmark : s.mark i = some reference) (hget : s.get i = some bytes) :
    (∀ k, (acquire s i).mark k = if k = i then some false else s.mark k) ∧
      (∀ k, (acquire s i).get k = s.get k) ∧ (acquire s i).unique i = true := by
  unfold acquire
  rw [hmark, hget]
  simp only []
  split_ifs with hsole
  · refine ⟨fun k => ?_, fun k => rfl, hsole.2⟩
    split_ifs with hk
    · rw [hk, hmark, hsole.1]
    · rfl
  · refine ⟨fun k => SharedCells.mark_make bytes false, fun k => ?_,
      SharedCells.unique_make bytes false⟩
    rw [SharedCells.get_make]
    split_ifs with hk
    · rw [hk, hget]
    · rfl

/-- The next modification through the message is not seen by others. -/
def SharedMetadata.Owned (s : SharedMetadata) (i : ℕ) : Prop :=
  (s.mark i).any HeaderMembers.moveOrCopy_ = true ∨ s.unique i = true

namespace SharedMetadata.Owned

variable {s : SharedMetadata} {j k : ℕ}

theorem make_of_ne (hs : Owned s i) (hne : i ≠ k) (md : BaseMetadata) (h : HeaderMembers) :
    Owned (s.make k md h) i := by
  obtain hmove | hunique := hs
  · left
    rw [SharedCells.mark_make, if_neg hne]
    exact hmove
  · exact Or.inr (SharedCells.unique_make_of_ne hunique hne md h)

theorem share_of_ne (hs : Owned s i) (hne : i ≠ k) (hij : i ≠ j) (h : HeaderMembers) :
    Owned (s.share k j h) i := by
  obtain hmove | hunique := hs
  · left
    cases hj : s.handles.find? j with
    | none =>
      rw [SharedCells.share_of_none hj]
      exact hmove
    | some hjh =>
      rw [SharedCells.mark_share (by rw [hj]; rfl), if_neg hne]
      exact hmove
  · exact Or.inr (SharedCells.unique_share_of_ne hunique hne hij h)

theorem drop_of_ne (hs : Owned s i) (hne : i ≠ k) : Owned (s.drop k) i := by
  obtain hmove | hunique := hs
  · left
    rw [SharedCells.mark_drop, if_neg hne]
    exact hmove
  · exact Or.inr (SharedCells.unique_drop_of_ne hunique hne)

/-- Members other than `moveOrCopy_` do not matter, and setting it is no loss. -/
theorem setMark (hs : Owned s i) {h' : HeaderMembers} (hk : s.mark k = some h)
    (hmove : h.moveOrCopy_ = true → h'.moveOrCopy_ = true) : Owned (s.setMark k h') i := by
  obtain hi | hunique := hs
  · left
    rw [SharedCells.mark_setMark (by rw [← SharedCells.isSome_mark, hk]; rfl)]
    split_ifs with hik
    · rw [hik, hk] at hi
      exact hmove hi
    · exact hi
  · exact Or.inr ((SharedCells.unique_setMark h').trans hunique)

theorem modify (hs : Owned s i) (k : ℕ) (f : BaseMetadata → BaseMetadata) :
    Owned (SharedMetadata.modify s k f) i := by
  unfold SharedMetadata.modify
  cases s.mark k with
  | none => exact hs
  | some h =>
    cases s.get k with
    | none => exact hs
    | some md =>
      simp only []
      split_ifs
      · by_cases hik : i = k
        · rw [hik]
          exact Or.inr (SharedCells.unique_make md _)
        · exact hs.make_of_ne hik md _
      · exact hs

end SharedMetadata.Owned

theorem SharedPayload.unique_acquire {s : SharedPayload} (hs : s.unique i = true) (k : ℕ) :
    (acquire s k).unique i = true := by
  unfold acquire
  cases s.mark k with
  | none => exact hs
  | some reference =>
    cases s.get k with
    | none => exact hs
    | some bytes =>
      simp only []
      split_ifs
      · exact hs
      · by_cases hik : i = k
        · rw [hik]
          exact SharedCells.unique_make bytes false
        · exact SharedCells.unique_make_of_ne hs hik bytes false

end Shared

namespace Memory

variable {ctx : Context} {m m' : Memory} {i j k : ℕ}

def Paired (m : Memory) : Prop := ∀ i, (m.metadata.mark i).isSome = (m.payloads.mark i).isSome

structure Parts (m : Memory) (i : ℕ) (h : HeaderMembers) (reference : Bool) (md : BaseMetadata)
    (bytes : List UInt8) : Prop where
  members : m.metadata.mark i = some h
  metadata : m.metadata.get i = some md
  reference : m.payloads.mark i = some reference
  payload : m.payloads.get i = some bytes

theorem Parts.view {h : HeaderMembers} {reference : Bool} {md : BaseMetadata} {bytes : List UInt8}
    (hp : m.Parts i h reference md bytes) :
    m.view i = some (storedMessage h reference md bytes) := by
  unfold Memory.view
  rw [hp.members, hp.metadata, hp.reference, hp.payload]
  rfl

theorem Parts.object {h : HeaderMembers} {reference : Bool} {md : BaseMetadata}
    {bytes : List UInt8} (hp : m.Parts i h reference md bytes) :
    m.object i = .ok (h, reference) := by
  unfold Memory.object
  rw [hp.members, hp.reference]

theorem Paired.parts (hm : m.Paired) (hi : (m.metadata.mark i).isSome) :
    ∃ h reference md bytes, m.Parts i h reference md bytes := by
  obtain ⟨h, hmark⟩ := Option.isSome_iff_exists.mp hi
  obtain ⟨reference, hreference⟩ := Option.isSome_iff_exists.mp ((hm i).symm.trans hi)
  obtain ⟨md, hmd⟩ := Option.isSome_iff_exists.mp (SharedCells.isSome_get_eq_mark.trans hi)
  obtain ⟨bytes, hbytes⟩ := Option.isSome_iff_exists.mp
    (SharedCells.isSome_get_eq_mark.trans ((hm i).symm.trans hi))
  exact ⟨h, reference, md, bytes, hmark, hmd, hreference, hbytes⟩

theorem Paired.cases (hm : m.Paired) (i : ℕ) :
    (∃ h reference md bytes, m.Parts i h reference md bytes) ∨
      m.object i = .error noMessage ∧ m.view i = none := by
  cases hmark : m.metadata.mark i with
  | none =>
    right
    unfold object view
    rw [hmark]
    exact ⟨rfl, rfl⟩
  | some h => exact Or.inl (hm.parts (by rw [hmark]; rfl))

theorem Paired.parts_of_metadata (hm : m.Paired) {md : BaseMetadata}
    (hi : m.metadata.get i = some md) : ∃ h reference bytes, m.Parts i h reference md bytes := by
  obtain ⟨h, reference, md', bytes, hp⟩ := hm.parts (i := i)
    (SharedCells.isSome_get_eq_mark.symm.trans (by rw [hi]; rfl))
  obtain rfl := Option.some.inj (hi.symm.trans hp.metadata)
  exact ⟨h, reference, bytes, hp⟩

theorem Paired.parts_of_payload (hm : m.Paired) {bytes : List UInt8}
    (hi : m.payloads.get i = some bytes) : ∃ h reference md, m.Parts i h reference md bytes := by
  obtain ⟨h, reference, md, bytes', hp⟩ := hm.parts (i := i)
    ((hm i).trans (SharedCells.isSome_get_eq_mark.symm.trans (by rw [hi]; rfl)))
  obtain rfl := Option.some.inj (hi.symm.trans hp.payload)
  exact ⟨h, reference, md, hp⟩

theorem view_eq_set {v : StoredMessage} (hi : m'.view i = some v)
    (hrest : ∀ k ≠ i, m'.view k = m.view k) : m'.view = Store.set m.view i v := by
  funext k
  unfold Store.set
  by_cases hk : k = i
  · rw [hk, hi, Function.update_self]
  · rw [Function.update_of_ne hk, hrest k hk]

/-- The call modifies only what one message refers to, or does not change it. -/
def Harmless (m : Memory) : Call → Prop
  | .modifyMetadata i f => (m.metadata.mark i).any HeaderMembers.moveOrCopy_ = true ∨
      m.metadata.unique i = true ∨ ∀ md, m.metadata.get i = some md → f md = md
  | .modifyPayload i f => m.payloads.mark i = some true ∨ m.payloads.unique i = true ∨
      ∀ bytes, m.payloads.get i = some bytes → f bytes = bytes
  | _ => True

theorem Parts.handles {h : HeaderMembers} {reference : Bool} {md : BaseMetadata}
    {bytes : List UInt8} (hp : m.Parts i h reference md bytes) :
    (m.metadata.handles.find? i).isSome ∧ (m.payloads.handles.find? i).isSome :=
  ⟨SharedCells.isSome_mark.symm.trans (by rw [hp.members]; rfl),
    SharedCells.isSome_mark.symm.trans (by rw [hp.reference]; rfl)⟩

theorem Parts.owned {h : HeaderMembers} {reference : Bool} {md : BaseMetadata} {bytes : List UInt8}
    (hp : m.Parts i h reference md bytes) {f : BaseMetadata → BaseMetadata}
    (hcall : m.Harmless (.modifyMetadata i f)) :
    h.moveOrCopy_ = true ∨
      SharedCells.unique (m.metadata.setMark i { h with fieldId_ := none }) i = true ∨
        f md = md := by
  obtain hmove | hunique | hfixed := hcall
  · rw [hp.members] at hmove
    exact Or.inl hmove
  · exact Or.inr (Or.inl ((SharedCells.unique_setMark _).trans hunique))
  · exact Or.inr (Or.inr (hfixed md hp.metadata))

/-- A call on a message does the same to both, if it does so wherever the message can be read. -/
theorem Paired.bind_object (hm : m.Paired) (i : ℕ)
    {f : HeaderMembers × Bool → Except Exception Memory}
    {g : StoredMessage → Except Exception Store}
    (hread : ∀ h reference md bytes, m.Parts i h reference md bytes →
      (f (h, reference)).map view = g (storedMessage h reference md bytes)) :
    (m.object i >>= f).map view = Store.object m.view i >>= g := by
  unfold Store.object
  obtain ⟨h, reference, md, bytes, hp⟩ | ⟨hobject, hview⟩ := hm.cases i
  · rw [hp.object, hp.view]
    exact hread h reference md bytes hp
  · rw [hobject, hview]
    rfl

theorem step_view (hm : m.Paired) {call : Call} (hcall : m.Harmless call) :
    (m.step ctx call).map view = Store.step ctx m.view call := by
  -- one case for each call: the parts it reads are there, and those it changes are seen by no other
  cases call with
  | create i header payload reference =>
    refine congrArg Except.ok (view_eq_set ?_ fun k hk => ?_)
    · simp [view, storedMessage]
    · simp [view, hk]
  | copy i j =>
    rw [step, Store.step]
    refine hm.bind_object j fun h reference md bytes hp => ?_
    obtain ⟨hmj, hpj⟩ := hp.handles
    refine congrArg Except.ok (view_eq_set ?_ fun k hk => ?_)
    · simp [view, SharedCells.mark_share hmj, SharedCells.get_share hmj,
        SharedCells.mark_share hpj, SharedCells.get_share hpj, hp.metadata, hp.payload]
    · simp [view, SharedCells.mark_share hmj, SharedCells.get_share hmj,
        SharedCells.mark_share hpj, SharedCells.get_share hpj, hk]
  | withMetadata i tag source destination j moveOrCopy payload reference =>
    rw [step, Store.step]
    refine hm.bind_object j fun h reference' md bytes hp => ?_
    obtain ⟨hmj, -⟩ := hp.handles
    refine congrArg Except.ok (view_eq_set ?_ fun k hk => ?_)
    · simp [view, SharedCells.mark_share hmj, SharedCells.get_share hmj, hp.metadata,
        storedMessage, Message.metadata]
    · simp [view, SharedCells.mark_share hmj, SharedCells.get_share hmj, hk]
  | destroy i =>
    rw [step, Store.step]
    refine hm.bind_object i fun h reference md bytes hp => ?_
    refine congrArg Except.ok (funext fun k => ?_)
    by_cases hk : k = i
    · simp [view, hk]
    · simp [view, hk]
  | acquireMetadata i =>
    rw [step, Store.step]
    refine hm.bind_object i fun h reference md bytes hp => ?_
    obtain ⟨hmi, -⟩ := hp.handles
    refine congrArg Except.ok (funext fun k => ?_)
    by_cases hk : k = i
    · simp [view, SharedCells.mark_setMark hmi, hk, hp.members, storedMessage]
    · simp [view, SharedCells.mark_setMark hmi, hk]
  | acquirePayload i =>
    rw [step, Store.step]
    refine hm.bind_object i fun h reference md bytes hp => ?_
    obtain ⟨hmark, hget, -⟩ := SharedPayload.acquire_spec hp.reference hp.payload
    refine congrArg Except.ok (view_eq_set ?_ fun k hk => ?_)
    · simp [view, hmark, hget, hp.members, hp.metadata, hp.payload, storedMessage]
    · simp [view, hmark, hget, hk]
  | modifyMetadata i f =>
    rw [step, Store.step]
    refine hm.bind_object i fun h reference md bytes hp => ?_
    obtain ⟨hmi, -⟩ := hp.handles
    obtain ⟨moveOrCopy_, hmark, hget⟩ := SharedMetadata.modify_spec (f := f)
      (s := m.metadata.setMark i { h with fieldId_ := none })
      ((SharedCells.mark_setMark hmi _).trans (if_pos rfl))
      ((SharedCells.get_setMark _).trans hp.metadata) (hp.owned hcall)
    refine congrArg Except.ok (view_eq_set ?_ fun k hk => ?_)
    · simp [view, hmark, hget, hp.reference, hp.payload, storedMessage, Message.metadata]
    · simp [view, hmark, hget, SharedCells.mark_setMark hmi, hk]
  | modifyPayload i f =>
    rw [step, Store.step]
    refine hm.bind_object i fun h reference md bytes hp => ?_
    cases reference with
    | true => rfl
    | false =>
      have halone : m.payloads.unique i = true ∨
          ∀ bytes, m.payloads.get i = some bytes → f bytes = bytes := by
        obtain hreference | halone := hcall
        · rw [hp.reference] at hreference
          cases hreference
        · exact halone
      refine congrArg Except.ok (view_eq_set ?_ fun k hk => ?_)
      · simp [view, SharedCells.get_write_of_alone halone, hp.members, hp.metadata, hp.reference,
          hp.payload, storedMessage]
      · simp [view, SharedCells.get_write_of_alone halone, hk]
  | fieldId i =>
    rw [step, Store.step]
    refine hm.bind_object i fun h reference md bytes hp => ?_
    obtain ⟨hmi, -⟩ := hp.handles
    refine congrArg Except.ok (view_eq_set ?_ fun k hk => ?_)
    · simp [view, SharedCells.mark_setMark hmi, hp.metadata, hp.reference, hp.payload,
        storedMessage, Message.fieldId, Header.fieldId]
    · simp [view, SharedCells.mark_setMark hmi, hk]

theorem Parts.modify_of_shared {h : HeaderMembers} {reference : Bool} {md : BaseMetadata}
    {bytes : List UInt8} (hp : m.Parts i h reference md bytes) (hmove : h.moveOrCopy_ = false)
    (f : BaseMetadata → BaseMetadata) :
    SharedMetadata.modify (m.metadata.setMark i { h with fieldId_ := none }) i f =
      (m.metadata.setMark i { h with fieldId_ := none }).write i f := by
  unfold SharedMetadata.modify
  rw [SharedCells.mark_setMark hp.handles.1, if_pos rfl, SharedCells.get_setMark, hp.metadata]
  exact if_neg fun hcopy => Bool.false_ne_true (hmove.symm.trans hcopy.1)

/-- A call that is not harmless changes what is read of another message. -/
theorem step_view_ne (hm : m.Paired) {call : Call} (hcall : ¬ m.Harmless call) :
    (m.step ctx call).map view ≠ Store.step ctx m.view call := by
  -- only a modification can do harm, and then another message sees it
  cases call with
  | modifyMetadata i f =>
    obtain ⟨hmove, hrest⟩ := not_or.mp hcall
    obtain ⟨hunique, hfixed⟩ := not_or.mp hrest
    obtain ⟨md, hfixed⟩ := not_forall.mp hfixed
    obtain ⟨hmd, hne⟩ := Classical.not_imp.mp hfixed
    obtain ⟨h, reference, bytes, hp⟩ := hm.parts_of_metadata hmd
    rw [hp.members] at hmove
    have hshared : SharedCells.unique (m.metadata.setMark i { h with fieldId_ := none }) i =
        false := (SharedCells.unique_setMark _).trans (Bool.eq_false_iff.mpr hunique)
    obtain ⟨j, hji, hget, hwrite⟩ := SharedCells.exists_get_write
      ((SharedCells.get_setMark _).trans hmd) hshared f
    rw [SharedCells.get_setMark] at hget
    obtain ⟨h', reference', bytes', hp'⟩ := hm.parts_of_metadata hget
    have hmodified := hp.modify_of_shared (Bool.eq_false_iff.mpr hmove) f
    have hp'' : Parts
        { m with
          metadata := SharedMetadata.modify (m.metadata.setMark i { h with fieldId_ := none }) i f }
        j h' reference' (f md) bytes' := by
      refine ⟨?_, ?_, hp'.reference, hp'.payload⟩
      · simp [hmodified, SharedCells.mark_setMark hp.handles.1, hji, hp'.members]
      · simp only [hmodified]
        exact hwrite
    rw [step, Store.step, Store.object, hp.object, hp.view]
    intro heq
    have hj := congrFun (Except.ok.inj heq) j
    unfold Store.set at hj
    rw [Function.update_of_ne hji, hp'.view, hp''.view] at hj
    exact hne (congrArg (fun v => v.message.metadata) (Option.some.inj hj))
  | modifyPayload i f =>
    obtain ⟨hreference, hrest⟩ := not_or.mp hcall
    obtain ⟨hunique, hfixed⟩ := not_or.mp hrest
    obtain ⟨bytes, hfixed⟩ := not_forall.mp hfixed
    obtain ⟨hbytes, hne⟩ := Classical.not_imp.mp hfixed
    obtain ⟨h, reference, md, hp⟩ := hm.parts_of_payload hbytes
    rw [hp.reference] at hreference
    obtain rfl : reference = false := Bool.eq_false_iff.mpr fun htrue => hreference (htrue ▸ rfl)
    obtain ⟨j, hji, hget, hwrite⟩ := SharedCells.exists_get_write hbytes
      (Bool.eq_false_iff.mpr hunique) f
    obtain ⟨h', reference', md', hp'⟩ := hm.parts_of_payload hget
    have hp'' : Parts { m with payloads := m.payloads.write i f } j h' reference' md' (f bytes) :=
      ⟨hp'.members, hp'.metadata, hp'.reference, hwrite⟩
    rw [step, Store.step, Store.object, hp.object, hp.view]
    intro heq
    have hj := congrFun (Except.ok.inj heq) j
    unfold Store.set at hj
    rw [Function.update_of_ne hji, hp'.view, hp''.view] at hj
    exact hne (congrArg (fun v => v.message.payload) (Option.some.inj hj))
  | create i header payload reference => exact absurd trivial hcall
  | copy i j => exact absurd trivial hcall
  | withMetadata i tag source destination j moveOrCopy payload reference =>
    exact absurd trivial hcall
  | destroy i => exact absurd trivial hcall
  | acquireMetadata i => exact absurd trivial hcall
  | acquirePayload i => exact absurd trivial hcall
  | fieldId i => exact absurd trivial hcall

theorem Parts.isSome_mark_setMark {h : HeaderMembers} {reference : Bool} {md : BaseMetadata}
    {bytes : List UInt8} (hp : m.Parts i h reference md bytes) (h' : HeaderMembers) (k : ℕ) :
    (SharedCells.mark (m.metadata.setMark i h') k).isSome = (m.metadata.mark k).isSome := by
  rw [SharedCells.mark_setMark hp.handles.1]
  split_ifs with hk
  · rw [hk, hp.members]
    rfl
  · rfl

theorem object_eq_ok_iff {h : HeaderMembers} {reference : Bool} :
    m.object i = .ok (h, reference) ↔
      m.metadata.mark i = some h ∧ m.payloads.mark i = some reference := by
  unfold object
  cases m.metadata.mark i with
  | none => simp
  | some h' =>
    cases m.payloads.mark i with
    | none => simp
    | some reference' => simp

theorem Paired.parts_of_object (hm : m.Paired) {h : HeaderMembers} {reference : Bool}
    (hi : m.object i = .ok (h, reference)) : ∃ md bytes, m.Parts i h reference md bytes := by
  obtain ⟨hmark, hreference⟩ := object_eq_ok_iff.mp hi
  obtain ⟨h', reference', md, bytes, hp⟩ := hm.parts (i := i) (by rw [hmark]; rfl)
  obtain rfl := Option.some.inj (hmark.symm.trans hp.members)
  obtain rfl := Option.some.inj (hreference.symm.trans hp.reference)
  exact ⟨md, bytes, hp⟩

theorem Paired.step (hm : m.Paired) {call : Call} (h : m.step ctx call = .ok m') : m'.Paired := by
  intro k
  -- every call makes or ends both handles of a message at once
  cases call with
  | create i header payload reference =>
    obtain rfl := Except.ok.inj h
    simp only [SharedCells.mark_make]
    split_ifs
    · rfl
    · exact hm k
  | copy i j =>
    obtain ⟨⟨hmem, reference⟩, hj, hm'⟩ := bind_eq_ok_iff.mp h
    obtain rfl := Except.ok.inj hm'
    obtain ⟨md, bytes, hp⟩ := hm.parts_of_object hj
    simp only [SharedCells.mark_share hp.handles.1, SharedCells.mark_share hp.handles.2]
    split_ifs
    · rfl
    · exact hm k
  | withMetadata i tag source destination j moveOrCopy payload reference =>
    obtain ⟨⟨hmem, reference'⟩, hj, hm'⟩ := bind_eq_ok_iff.mp h
    obtain rfl := Except.ok.inj hm'
    obtain ⟨md, bytes, hp⟩ := hm.parts_of_object hj
    simp only [SharedCells.mark_share hp.handles.1, SharedCells.mark_make]
    split_ifs
    · rfl
    · exact hm k
  | destroy i =>
    obtain ⟨⟨hmem, reference⟩, -, hm'⟩ := bind_eq_ok_iff.mp h
    obtain rfl := Except.ok.inj hm'
    simp only [SharedCells.mark_drop]
    split_ifs
    · rfl
    · exact hm k
  | acquireMetadata i =>
    obtain ⟨⟨hmem, reference⟩, hi, hm'⟩ := bind_eq_ok_iff.mp h
    obtain rfl := Except.ok.inj hm'
    obtain ⟨md, bytes, hp⟩ := hm.parts_of_object hi
    exact (hp.isSome_mark_setMark _ k).trans (hm k)
  | acquirePayload i =>
    obtain ⟨⟨hmem, reference⟩, hi, hm'⟩ := bind_eq_ok_iff.mp h
    obtain rfl := Except.ok.inj hm'
    obtain ⟨md, bytes, hp⟩ := hm.parts_of_object hi
    simp only [(SharedPayload.acquire_spec hp.reference hp.payload).1]
    rw [hm k]
    split_ifs with hk
    · rw [hk, hp.reference]
      rfl
    · rfl
  | modifyMetadata i f =>
    obtain ⟨⟨hmem, reference⟩, hi, hm'⟩ := bind_eq_ok_iff.mp h
    obtain rfl := Except.ok.inj hm'
    obtain ⟨md, bytes, hp⟩ := hm.parts_of_object hi
    exact ((SharedMetadata.isSome_mark_modify _ i k f).trans (hp.isSome_mark_setMark _ k)).trans
      (hm k)
  | modifyPayload i f =>
    obtain ⟨⟨hmem, reference⟩, hi, hm'⟩ := bind_eq_ok_iff.mp h
    cases reference with
    | true => cases hm'
    | false =>
      obtain rfl := Except.ok.inj hm'
      exact hm k
  | fieldId i =>
    obtain ⟨⟨hmem, reference⟩, hi, hm'⟩ := bind_eq_ok_iff.mp h
    obtain rfl := Except.ok.inj hm'
    obtain ⟨md, bytes, hp⟩ := hm.parts_of_object hi
    exact (hp.isSome_mark_setMark _ k).trans (hm k)

theorem run_concat (calls : List Call) (call : Call) :
    m.run ctx (calls ++ [call]) = (m.run ctx calls).bind fun m' => m'.step ctx call := by
  unfold run
  rw [List.foldlM_append]
  simp only [List.foldlM_cons, List.foldlM_nil, bind_pure]
  rfl

theorem run_keeps {P : Memory → Prop} {q : Call → Prop}
    (hstep : ∀ (m m' : Memory) call, q call → m.step ctx call = .ok m' → P m → P m')
    {calls : List Call} (hcalls : ∀ call ∈ calls, q call) (hm : P m)
    (h : m.run ctx calls = .ok m') : P m' := by
  induction calls generalizing m with
  | nil =>
    obtain rfl := Except.ok.inj h
    exact hm
  | cons call calls ih =>
    unfold run at h
    rw [List.foldlM_cons] at h
    cases hfirst : m.step ctx call with
    | error e =>
      rw [hfirst] at h
      cases h
    | ok m₁ =>
      rw [hfirst] at h
      exact ih (fun c hc => hcalls c (List.mem_cons_of_mem _ hc))
        (hstep m m₁ call (hcalls call List.mem_cons_self) hfirst hm) h

theorem Paired.run {calls : List Call} (h : Memory.run ctx {} calls = .ok m) : m.Paired :=
  run_keeps (q := fun _ => True) (fun _ _ _ _ hstep hm => hm.step hstep) (fun _ _ => trivial)
    (fun _ => rfl) h

theorem run_view {calls : List Call} (hcalls : ∀ pre call, pre ++ [call] <+: calls →
    ∀ m, run ctx {} pre = .ok m → m.Harmless call) :
    (run ctx {} calls).map view = Store.run ctx (fun _ => none) calls := by
  induction calls using List.reverseRecOn with
  | nil => rfl
  | append_singleton calls call ih =>
    have ih := ih fun pre c hpre => hcalls pre c (hpre.trans (List.prefix_append _ _))
    rw [run_concat, Store.run_concat, ← ih]
    cases hrun : run ctx {} calls with
    | error e => rfl
    | ok m => exact step_view (Paired.run hrun) (hcalls calls call (List.prefix_refl _) m hrun)

/-- All messages are values throughout the calls exactly if no call modifies what another message
refers to and the one that is modified has not acquired. -/
theorem values_iff (ctx : Context) (calls : List Call) :
    (∀ pre, pre <+: calls → (run ctx {} pre).map view = Store.run ctx (fun _ => none) pre) ↔
      ∀ pre call, pre ++ [call] <+: calls → ∀ m, run ctx {} pre = .ok m → m.Harmless call := by
  constructor
  · intro hvalues pre call hpre m hrun
    by_contra hharm
    have hboth := hvalues (pre ++ [call]) hpre
    rw [run_concat, Store.run_concat, ← hvalues pre ((List.prefix_append _ _).trans hpre),
      hrun] at hboth
    exact step_view_ne (Paired.run hrun) hharm hboth
  · exact fun hcalls pre hpre =>
      run_view fun pre' call hpre' => hcalls pre' call (hpre'.trans hpre)

theorem owned_step {call : Call} (hcall : call.involves i = false)
    (hstep : m.step ctx call = .ok m') (hm : SharedMetadata.Owned m.metadata i) :
    SharedMetadata.Owned m'.metadata i := by
  -- calls that do not involve the message may share other cells, but not its own
  cases call with
  | create k header payload reference =>
    obtain rfl := Except.ok.inj hstep
    exact hm.make_of_ne (fun hik => of_decide_eq_false hcall hik.symm) _ _
  | copy k j =>
    obtain ⟨⟨h, reference⟩, -, hm'⟩ := bind_eq_ok_iff.mp hstep
    obtain rfl := Except.ok.inj hm'
    obtain ⟨hk, hj⟩ := not_or.mp (of_decide_eq_false hcall)
    exact hm.share_of_ne (Ne.symm hk) (Ne.symm hj) h
  | withMetadata k tag source destination j moveOrCopy payload reference =>
    obtain ⟨⟨h, reference⟩, -, hm'⟩ := bind_eq_ok_iff.mp hstep
    obtain rfl := Except.ok.inj hm'
    obtain ⟨hk, hj⟩ := not_or.mp (of_decide_eq_false hcall)
    exact hm.share_of_ne (Ne.symm hk) (Ne.symm hj) _
  | destroy k =>
    obtain ⟨⟨h, reference⟩, -, hm'⟩ := bind_eq_ok_iff.mp hstep
    obtain rfl := Except.ok.inj hm'
    exact hm.drop_of_ne fun hik => of_decide_eq_false hcall hik.symm
  | acquireMetadata k =>
    obtain ⟨⟨h, reference⟩, hk, hm'⟩ := bind_eq_ok_iff.mp hstep
    obtain rfl := Except.ok.inj hm'
    exact hm.setMark (object_eq_ok_iff.mp hk).1 fun _ => rfl
  | acquirePayload k =>
    obtain ⟨⟨h, reference⟩, -, hm'⟩ := bind_eq_ok_iff.mp hstep
    obtain rfl := Except.ok.inj hm'
    exact hm
  | modifyMetadata k f =>
    obtain ⟨⟨h, reference⟩, hk, hm'⟩ := bind_eq_ok_iff.mp hstep
    obtain rfl := Except.ok.inj hm'
    have hcleared : SharedMetadata.Owned (m.metadata.setMark k { h with fieldId_ := none }) i :=
      hm.setMark (object_eq_ok_iff.mp hk).1 id
    exact hcleared.modify k f
  | modifyPayload k f =>
    obtain ⟨⟨h, reference⟩, -, hm'⟩ := bind_eq_ok_iff.mp hstep
    cases reference with
    | true => cases hm'
    | false =>
      obtain rfl := Except.ok.inj hm'
      exact hm
  | fieldId k =>
    obtain ⟨⟨h, reference⟩, hk, hm'⟩ := bind_eq_ok_iff.mp hstep
    obtain rfl := Except.ok.inj hm'
    exact hm.setMark (object_eq_ok_iff.mp hk).1 id

theorem unique_step {call : Call} (hcall : call.involves i = false)
    (hstep : m.step ctx call = .ok m') (hm : m.payloads.unique i = true) :
    m'.payloads.unique i = true := by
  -- the payload gets a further handle only by a copy of the message
  cases call with
  | create k header payload reference =>
    obtain rfl := Except.ok.inj hstep
    exact SharedCells.unique_make_of_ne hm (fun hik => of_decide_eq_false hcall hik.symm) _ _
  | copy k j =>
    obtain ⟨⟨h, reference⟩, -, hm'⟩ := bind_eq_ok_iff.mp hstep
    obtain rfl := Except.ok.inj hm'
    obtain ⟨hk, hj⟩ := not_or.mp (of_decide_eq_false hcall)
    exact SharedCells.unique_share_of_ne hm (Ne.symm hk) (Ne.symm hj) reference
  | withMetadata k tag source destination j moveOrCopy payload reference =>
    obtain ⟨⟨h, reference'⟩, -, hm'⟩ := bind_eq_ok_iff.mp hstep
    obtain rfl := Except.ok.inj hm'
    obtain ⟨hk, -⟩ := not_or.mp (of_decide_eq_false hcall)
    exact SharedCells.unique_make_of_ne hm (Ne.symm hk) payload reference
  | destroy k =>
    obtain ⟨⟨h, reference⟩, -, hm'⟩ := bind_eq_ok_iff.mp hstep
    obtain rfl := Except.ok.inj hm'
    exact SharedCells.unique_drop_of_ne hm fun hik => of_decide_eq_false hcall hik.symm
  | acquireMetadata k =>
    obtain ⟨⟨h, reference⟩, hk, hm'⟩ := bind_eq_ok_iff.mp hstep
    obtain rfl := Except.ok.inj hm'
    exact hm
  | acquirePayload k =>
    obtain ⟨⟨h, reference⟩, -, hm'⟩ := bind_eq_ok_iff.mp hstep
    obtain rfl := Except.ok.inj hm'
    exact SharedPayload.unique_acquire hm k
  | modifyMetadata k f =>
    obtain ⟨⟨h, reference⟩, hk, hm'⟩ := bind_eq_ok_iff.mp hstep
    obtain rfl := Except.ok.inj hm'
    exact hm
  | modifyPayload k f =>
    obtain ⟨⟨h, reference⟩, -, hm'⟩ := bind_eq_ok_iff.mp hstep
    cases reference with
    | true => cases hm'
    | false =>
      obtain rfl := Except.ok.inj hm'
      exact hm
  | fieldId k =>
    obtain ⟨⟨h, reference⟩, hk, hm'⟩ := bind_eq_ok_iff.mp hstep
    obtain rfl := Except.ok.inj hm'
    exact hm

theorem owned_acquireMetadata (h : m.step ctx (.acquireMetadata i) = .ok m') :
    SharedMetadata.Owned m'.metadata i := by
  obtain ⟨⟨hmem, reference⟩, hk, hm'⟩ := bind_eq_ok_iff.mp h
  obtain rfl := Except.ok.inj hm'
  left
  have hmark := (object_eq_ok_iff.mp hk).1
  rw [SharedCells.mark_setMark (by rw [← SharedCells.isSome_mark, hmark]; rfl), if_pos rfl]
  rfl

theorem unique_acquirePayload (hm : m.Paired) (h : m.step ctx (.acquirePayload i) = .ok m') :
    m'.payloads.unique i = true := by
  obtain ⟨⟨hmem, reference⟩, hk, hm'⟩ := bind_eq_ok_iff.mp h
  obtain rfl := Except.ok.inj hm'
  obtain ⟨md, bytes, hp⟩ := hm.parts_of_object hk
  exact (SharedPayload.acquire_spec hp.reference hp.payload).2.2

theorem run_append (before calls : List Call) :
    m.run ctx (before ++ calls) = (m.run ctx before).bind fun m' => m'.run ctx calls := by
  unfold run
  rw [List.foldlM_append]
  rfl

/-- What a call acquires stays acquired while the message is not involved in other calls. -/
theorem kept_of_acquired {P : Memory → Prop} {acquire : Call} {calls : List Call}
    (hacquire : ∀ m m' : Memory, m.Paired → m.step ctx acquire = .ok m' → P m')
    (hstep : ∀ (m m' : Memory) call, call.involves i = false → m.step ctx call = .ok m' →
      P m → P m')
    (hcalls : ∃ before between, calls = before ++ acquire :: between ∧
      ∀ call ∈ between, call.involves i = false)
    (h : Memory.run ctx {} calls = .ok m) : P m := by
  obtain ⟨before, between, rfl, hbetween⟩ := hcalls
  rw [run_append] at h
  obtain ⟨m₁, hbefore, hrest⟩ := bind_eq_ok_iff.mp h
  unfold run at hrest
  rw [List.foldlM_cons] at hrest
  obtain ⟨m₂, hfirst, hrest⟩ := bind_eq_ok_iff.mp hrest
  exact run_keeps hstep hbetween (hacquire m₁ m₂ (Paired.run hbefore) hfirst) hrest

/-- Messages that are acquired before they are modified are values: nothing that is done to one
is seen in another. -/
theorem acquired_values (ctx : Context) (calls : List Call) (hcalls : Acquired calls) :
    (run ctx {} calls).map view = Store.run ctx (fun _ => none) calls := by
  refine run_view fun pre call hpre m hrun => ?_
  cases call with
  | modifyMetadata i f =>
    have howned : SharedMetadata.Owned m.metadata i :=
      kept_of_acquired (P := fun m => SharedMetadata.Owned m.metadata i)
        (fun _ _ _ => owned_acquireMetadata) (fun _ _ _ => owned_step)
        (hcalls pre _ hpre i _ rfl) hrun
    exact or_assoc.mp (Or.inl howned)
  | modifyPayload i f =>
    have hunique : m.payloads.unique i = true :=
      kept_of_acquired (P := fun m => m.payloads.unique i = true)
        (fun _ _ hm => unique_acquirePayload hm) (fun _ _ _ => unique_step)
        (hcalls pre _ hpre i _ rfl) hrun
    exact Or.inr (Or.inl hunique)
  | create i header payload reference => exact trivial
  | copy i j => exact trivial
  | withMetadata i tag source destination j moveOrCopy payload reference => exact trivial
  | destroy i => exact trivial
  | acquireMetadata i => exact trivial
  | acquirePayload i => exact trivial
  | fieldId i => exact trivial

theorem acquired_nil : Acquired [] := fun _ _ hpre =>
  absurd (List.prefix_nil.mp hpre) (List.append_ne_nil_of_right_ne_nil _ (List.cons_ne_nil _ _))

theorem acquired_concat {calls : List Call} {call : Call} (hcalls : Acquired calls)
    (hcall : ∀ i acquire, call.modifies = some (i, acquire) → ∃ before between,
      calls = before ++ acquire :: between ∧ ∀ c ∈ between, c.involves i = false) :
    Acquired (calls ++ [call]) := by
  intro pre c hpre
  obtain heq | hpre := List.prefix_concat_iff.mp hpre
  · obtain ⟨rfl, hc⟩ := List.append_inj' heq rfl
    obtain rfl := List.singleton_inj.mp hc
    exact hcall
  · exact hcalls pre c hpre

theorem acquired_concat_of_none {calls : List Call} {call : Call} (hcalls : Acquired calls)
    (hcall : call.modifies = none) : Acquired (calls ++ [call]) :=
  acquired_concat hcalls fun i acquire h => by
    rw [hcall] at h
    cases h

def scaleCopy : List Call :=
  [.create 0 { tag := .field, source := {}, destination := {}, metadata := { bucketCount := 541 } }
      [1] false,
    .copy 1 0, .acquireMetadata 1, .acquirePayload 1,
    .modifyMetadata 1 fun md => { md with nodes := [] },
    .modifyPayload 1 fun bytes => bytes ++ bytes]

theorem acquired_scaleCopy : Acquired scaleCopy := by
  have hacquired : Acquired (scaleCopy.take 4) :=
    acquired_concat_of_none (acquired_concat_of_none (acquired_concat_of_none
      (acquired_concat_of_none acquired_nil rfl) rfl) rfl) rfl
  refine acquired_concat (acquired_concat hacquired fun i acquire h => ?_) fun i acquire h => ?_
  · obtain ⟨rfl, rfl⟩ := Prod.mk.inj (Option.some.inj h)
    exact ⟨scaleCopy.take 2, [.acquirePayload 1], rfl, by simp [Call.involves]⟩
  · obtain ⟨rfl, rfl⟩ := Prod.mk.inj (Option.some.inj h)
    exact ⟨scaleCopy.take 3, [.modifyMetadata 1 _], rfl, by simp [Call.involves]⟩

theorem acquired_values_scaleCopy :
    (run { parametrization := { bucketCount := 541 }, toString := fun _ => "" } {} scaleCopy).map
        view =
      Store.run { parametrization := { bucketCount := 541 }, toString := fun _ => "" }
        (fun _ => none) scaleCopy :=
  acquired_values _ scaleCopy acquired_scaleCopy

end Memory
end Multio
