import Multio.Lib.RecycledBlocks
import Multio.Util.Tracer
import Mathlib.Data.List.Perm.Basic
import Mathlib.Data.Nat.Bitwise

namespace Multio.Util.Tracer
open Lib

theorem indexOf_eq (w : ℕ) : indexOf w = w % 2 ^ 24 := Nat.and_two_pow_sub_one_eq_mod w 24

theorem chunkOf_eq (w : ℕ) : chunkOf w = w / 2 ^ 24 % 2 ^ 8 := by
  rw [chunkOf, CHUNK_SHIFT, Nat.shiftRight_and_distrib, Nat.shiftRight_eq_div_pow]
  exact Nat.and_two_pow_sub_one_eq_mod (w / 2 ^ 24) 8

theorem chunkOf_lt (w : ℕ) : chunkOf w < 256 := by
  rw [chunkOf_eq]
  exact Nat.mod_lt _ (by decide)

theorem pack_eq {chunk index : ℕ} (hchunk : chunk < 256) (hindex : index ≤ INDEX_MASK) :
    pack chunk index = chunk * 2 ^ 24 + index := by
  rw [INDEX_MASK] at hindex
  rw [pack, CHUNK_SHIFT, Nat.mod_eq_of_lt, ← Nat.shiftLeft_add_eq_or_of_lt (by omega),
    Nat.shiftLeft_eq]
  rw [Nat.shiftLeft_eq]
  omega

theorem chunkOf_pack {chunk index : ℕ} (hchunk : chunk < 256) (hindex : index ≤ INDEX_MASK) :
    chunkOf (pack chunk index) = chunk := by
  rw [chunkOf_eq, pack_eq hchunk hindex]
  rw [INDEX_MASK] at hindex
  omega

theorem indexOf_pack {chunk index : ℕ} (hchunk : chunk < 256) (hindex : index ≤ INDEX_MASK) :
    indexOf (pack chunk index) = index := by
  rw [indexOf_eq, pack_eq hchunk hindex]
  rw [INDEX_MASK] at hindex
  omega

theorem shifted_eq {chunk : ℕ} (hchunk : chunk < 256) :
    chunk <<< CHUNK_SHIFT &&& CHUNK_MASK = pack chunk 0 := by
  rw [pack_eq hchunk (Nat.zero_le _)]
  have hmask : CHUNK_MASK = (2 ^ 8 - 1) <<< 24 := rfl
  rw [hmask, CHUNK_SHIFT, ← Nat.shiftLeft_and_distrib, Nat.and_two_pow_sub_one_eq_mod,
    Nat.mod_eq_of_lt hchunk, Nat.shiftLeft_eq, Nat.add_zero]

def HandOver.fresh : HandOver → Multiset ℕ
  | popped _ chunkNext => {chunkNext}
  | pushBack chunk _ => {chunk}
  | _ => 0

def HandOver.full : HandOver → Multiset ℕ
  | pushWrite chunk _ => {chunk}
  | _ => 0

namespace Call

def fresh : Call → Multiset ℕ
  | recordEvent _ pc => pc.fresh
  | flushCurrentChunk pc => pc.fresh
  | storeEvent _ _ _ => 0

def full : Call → Multiset ℕ
  | recordEvent _ pc => pc.full
  | flushCurrentChunk pc => pc.full
  | storeEvent _ _ _ => 0

/-- The place in a chunk that a call has reserved, with its event. -/
def reserved : Call → Multiset ((ℕ × ℕ) × TraceEvent)
  | recordEvent e (.pushWrite _ chunkNext) => {((chunkNext, 0), e)}
  | storeEvent e chunk index => {((chunk, index), e)}
  | _ => 0

def held (call : Call) : Multiset ℕ := call.fresh + call.full

end Call

namespace Writer

def fresh : Writer → Multiset ℕ
  | pushAvailable id => {id}
  | _ => 0

def full : Writer → Multiset ℕ
  | write id => {id}
  | _ => 0

def clearing : Writer → Option ℕ
  | clear id => some id
  | _ => none

def writing : Writer → Multiset ℕ
  | write id | clear id | pushAvailable id => {id}
  | _ => 0

theorem writing_eq (w : Writer) :
    w.writing = w.fresh + w.full + w.clearing.elim 0 fun b => {b} := by
  cases w <;> rfl

end Writer

def Lifetime.held : Lifetime → Multiset ℕ
  | closing chunk => {chunk}
  | _ => 0

namespace System

/-- Until the destructor takes it, the chunk of the word is the current one. -/
def currentChunk (s : System) : Option (ℕ × ℕ) :=
  match s.lifetime with
  | .alive =>
    some (chunkOf s.shared.currentChunkAndIndex_, indexOf s.shared.currentChunkAndIndex_)
  | _ => none

def owners (s : System) : Multiset ℕ :=
  s.currentChunk.elim 0 (fun current => {current.1}) + s.shared.availableQueue_.items +
    s.shared.writeQueue_.items + ((s.calls.map Call.held).sum + s.lifetime.held) + s.writer.writing

def view (s : System) : BlockPool ℕ TraceEvent where
  fresh := s.shared.availableQueue_.items + (s.calls.map Call.fresh).sum + s.writer.fresh
  current := s.currentChunk
  full := s.shared.writeQueue_.items + (s.calls.map Call.full).sum + s.lifetime.held + s.writer.full
  clearing := s.writer.clearing
  reserved := (s.calls.map Call.reserved).sum
  slots := s.shared.traceChunks_
  archive := s.shared.outputFile
  stored := s.recorded

theorem owners_eq (s : System) : s.owners = s.view.owned := by
  have hheld : (s.calls.map Call.held).sum =
      (s.calls.map Call.fresh).sum + (s.calls.map Call.full).sum := List.sum_map_add
  simp only [owners, view, BlockPool.owned, hheld, Writer.writing_eq]
  abel

end System

/-- A push that does not wait finds the entry free that it writes to. -/
def FreePush (queue : RingBuffer ℕ) (item : ℕ) : Prop := (queue.push item).isSome → queue.Free

instance (queue : RingBuffer ℕ) (item : ℕ) : Decidable (FreePush queue item) :=
  inferInstanceAs (Decidable (_ → _))

def HarmlessCall (c : TracerConfig) (s : Shared) : Call → Prop
  | .recordEvent _ (.loaded chunkAndIndex) =>
    -- the next index fits the bits of an index
    indexOf chunkAndIndex + 2 ≤ c.chunkSize_ → s.currentChunkAndIndex_ = chunkAndIndex →
      indexOf chunkAndIndex + 2 ≤ INDEX_MASK
  | .flushCurrentChunk (.popped chunkAndIndex chunkNext) =>
    -- the word has not been changed, or the id that is put back is that of the first chunk
    s.currentChunkAndIndex_ = chunkAndIndex ∨ chunkNext = 0
  | .recordEvent _ (.pushWrite chunk _) | .flushCurrentChunk (.pushWrite chunk _) =>
    FreePush s.writeQueue_ chunk
  | .recordEvent _ (.pushBack chunk _) | .flushCurrentChunk (.pushBack chunk _) =>
    FreePush s.availableQueue_ chunk
  | _ => True

def HarmlessWriter (s : System) : Prop :=
  match s.writer with
  -- every event that has a place in the chunk has been stored
  | .write id => ∀ call ∈ s.calls, ∀ r ∈ call.reserved, r.1.1 ≠ id
  -- nothing is left to be written
  | .checkRunning => s.shared.running_ = false → s.shared.writeQueue_.items = []
  | .pushAvailable id => FreePush s.shared.availableQueue_ id
  | _ => True

def HarmlessDestructor (s : System) : Prop :=
  match s.lifetime with
  | .closing chunk => FreePush s.shared.writeQueue_ chunk
  | _ => True

def Harmless (c : TracerConfig) (s : System) : Actor → Prop
  | .call i => ∀ call, s.calls[i]? = some call → HarmlessCall c s.shared call
  | .writer => HarmlessWriter s
  | .destructor => HarmlessDestructor s
  | _ => True

structure Queues (c : TracerConfig) (s : Shared) : Prop where
  available : s.availableQueue_.Ordered (UInt32.ofNat c.numChunks)
  write : s.writeQueue_.Ordered (UInt32.ofNat c.numChunks)

section Calls

variable {c : TracerConfig} {s : System} {shared shared' : Shared} {rest : List Call}

/-- The system with one of its calls, which may have returned, before the others. -/
def System.withCall (s : System) (shared : Shared) (call : Option Call) (rest : List Call) :
    System :=
  { s with shared, calls := call.toList ++ rest }

/-- A chunk that only moves between a queue and a call has the same part in the pool. -/
theorem view_withCall {call call' : Option Call}
    (hslots : shared'.traceChunks_ = shared.traceChunks_)
    (hword : shared'.currentChunkAndIndex_ = shared.currentChunkAndIndex_)
    (hfile : shared'.outputFile = shared.outputFile)
    (hfresh : (shared'.availableQueue_.items : Multiset ℕ) + call'.elim 0 Call.fresh =
      shared.availableQueue_.items + call.elim 0 Call.fresh)
    (hfull : (shared'.writeQueue_.items : Multiset ℕ) + call'.elim 0 Call.full =
      shared.writeQueue_.items + call.elim 0 Call.full)
    (hreserved : call'.elim 0 Call.reserved = call.elim 0 Call.reserved) :
    (s.withCall shared' call' rest).view = (s.withCall shared call rest).view := by
  have hsum : ∀ {M : Type} [AddCommMonoid M] (f : Call → M) (next : Option Call),
      ((next.toList ++ rest).map f).sum = next.elim 0 f + (rest.map f).sum := by
    intro M _ f next
    cases next <;> simp
  apply BlockPool.ext
  · simp only [System.view, System.withCall, hsum, ← add_assoc, hfresh]
  · simp only [System.view, System.withCall, System.currentChunk, hword]
  · simp only [System.view, System.withCall, hsum, ← add_assoc, hfull]
  · rfl
  · simp only [System.view, System.withCall, hsum, hreserved]
  · exact hslots
  · exact congrArg (fun events : List TraceEvent => (events : Multiset TraceEvent)) hfile
  · rfl

theorem ofNat_toNat_ne {n : ℕ} (hn : n ≤ 256) : (UInt32.ofNat n).toNat ≠ 2 ^ 32 - 1 := by
  rw [UInt32.toNat_ofNat']
  omega

variable {queue queue' : RingBuffer ℕ} {item : ℕ}

theorem push_spec (hn : c.numChunks ≤ 256) (hqueue : queue.Ordered (UInt32.ofNat c.numChunks))
    (hfree : FreePush queue item) (h : queue.push item = some queue') :
    queue'.Ordered (UInt32.ofNat c.numChunks) ∧
      (queue'.items : Multiset ℕ) = queue.items + {item} := by
  obtain ⟨hordered, hitems⟩ := hqueue.push (ofNat_toNat_ne hn) (hfree (h ▸ rfl)) h
  refine ⟨hordered, ?_⟩
  rw [hitems, ← Multiset.coe_add, Multiset.coe_singleton]

theorem pop_spec (hqueue : queue.Ordered (UInt32.ofNat c.numChunks))
    (h : queue.pop = some (queue', some item)) :
    queue'.Ordered (UInt32.ofNat c.numChunks) ∧
      (queue.items : Multiset ℕ) = queue'.items + {item} := by
  obtain ⟨-, hnone⟩ | ⟨x, rb, hpop, hordered, hitems⟩ := hqueue.pop
  · cases h.symm.trans hnone
  · obtain ⟨rfl, hx⟩ := Prod.mk.inj (Option.some.inj (h.symm.trans hpop))
    obtain rfl := Option.some.inj hx
    refine ⟨hordered, ?_⟩
    rw [hitems, ← Multiset.cons_coe, ← Multiset.singleton_add, add_comm]

theorem view_recordEvent (hn : c.numChunks ≤ 256) (hqueues : Queues c shared) {e : TraceEvent}
    {pc : HandOver} (hharmless : HarmlessCall c shared (.recordEvent e pc))
    (hloaded : ∀ w, pc = .loaded w → shared.currentChunkAndIndex_ = w →
      c.chunkSize_ < indexOf w + 2)
    (hpopped : ∀ w chunkNext, pc = .popped w chunkNext → shared.currentChunkAndIndex_ ≠ w) :
    (s.withCall (recordEvent c e shared pc).1 (some (recordEvent c e shared pc).2) rest).view =
      (s.withCall shared (some (.recordEvent e pc)) rest).view := by
  -- a chunk moves between the queues and the call, which the view does not tell apart
  cases pc with
  | load => exact view_withCall rfl rfl rfl rfl rfl rfl
  | loaded w =>
    simp only [recordEvent]
    split_ifs with hswitch hsame
    · split
      · have hpop := (pop_spec hqueues.available ‹_›).2
        exact view_withCall rfl rfl rfl (hpop.symm.trans (add_zero _).symm) rfl rfl
      · exact view_withCall rfl rfl rfl rfl rfl rfl
    · exact absurd (hloaded w rfl hsame) hswitch
    · exact view_withCall rfl rfl rfl rfl rfl rfl
  | popped w chunkNext =>
    simp only [recordEvent, if_neg (hpopped w chunkNext rfl)]
    exact view_withCall rfl rfl rfl rfl rfl rfl
  | pushWrite chunk chunkNext =>
    simp only [recordEvent]
    cases hpush : shared.writeQueue_.push chunk with
    | none => exact view_withCall rfl rfl rfl rfl rfl rfl
    | some queue =>
      refine view_withCall rfl rfl rfl rfl ?_ rfl
      exact (add_zero _).trans (push_spec hn hqueues.write hharmless hpush).2
  | pushBack chunk w =>
    simp only [recordEvent]
    cases hpush : shared.availableQueue_.push chunk with
    | none => exact view_withCall rfl rfl rfl rfl rfl rfl
    | some queue =>
      refine view_withCall rfl rfl rfl ?_ rfl rfl
      exact (add_zero _).trans (push_spec hn hqueues.available hharmless hpush).2

/-- What is put back after the word has been changed is the chunk that was taken only if that is
the first one. -/
theorem view_flushCurrentChunk (hn : c.numChunks ≤ 256) (hqueues : Queues c shared) {pc : HandOver}
    (hharmless : HarmlessCall c shared (.flushCurrentChunk pc))
    (hpopped : ∀ w chunkNext, pc = .popped w chunkNext →
      shared.currentChunkAndIndex_ ≠ w ∧ chunkNext = 0) :
    (s.withCall (flushCurrentChunk shared pc).1 (flushCurrentChunk shared pc).2 rest).view =
      (s.withCall shared (some (.flushCurrentChunk pc)) rest).view := by
  cases pc with
  | load => exact view_withCall rfl rfl rfl rfl rfl rfl
  | loaded w =>
    simp only [flushCurrentChunk]
    split
    · have hpop := (pop_spec hqueues.available ‹_›).2
      exact view_withCall rfl rfl rfl (hpop.symm.trans (add_zero _).symm) rfl rfl
    · exact view_withCall rfl rfl rfl rfl rfl rfl
  | popped w chunkNext =>
    obtain ⟨hne, hzero⟩ := hpopped w chunkNext rfl
    simp only [flushCurrentChunk, if_neg hne, hzero]
    exact view_withCall rfl rfl rfl rfl rfl rfl
  | pushWrite chunk chunkNext =>
    simp only [flushCurrentChunk]
    cases hpush : shared.writeQueue_.push chunk with
    | none => exact view_withCall rfl rfl rfl rfl rfl rfl
    | some queue =>
      refine view_withCall rfl rfl rfl rfl ?_ rfl
      exact (add_zero _).trans (push_spec hn hqueues.write hharmless hpush).2
  | pushBack chunk w =>
    simp only [flushCurrentChunk]
    cases hpush : shared.availableQueue_.push chunk with
    | none => exact view_withCall rfl rfl rfl rfl rfl rfl
    | some queue =>
      refine view_withCall rfl rfl rfl ?_ rfl rfl
      exact (add_zero _).trans (push_spec hn hqueues.available hharmless hpush).2

/-- The steps of the pool that one step of the tracer is. -/
abbrev PoolSteps (c : TracerConfig) : BlockPool ℕ TraceEvent → BlockPool ℕ TraceEvent → Prop :=
  Relation.ReflTransGen (BlockPool.Step (c.chunkSize_ - 1))

theorem currentChunk_withCall (halive : s.lifetime = .alive) (call : Option Call) :
    (s.withCall shared call rest).view.current =
      some (chunkOf shared.currentChunkAndIndex_, indexOf shared.currentChunkAndIndex_) := by
  simp only [System.view, System.withCall, System.currentChunk, halive]

theorem fresh_withCall (call : Call) : (s.withCall shared (some call) rest).view.fresh =
    call.fresh + (shared.availableQueue_.items + (rest.map Call.fresh).sum + s.writer.fresh) := by
  simp only [System.view, System.withCall, Option.toList_some, List.singleton_append, List.map_cons,
    List.sum_cons]
  abel

theorem full_withCall (call : Call) : (s.withCall shared (some call) rest).view.full =
    call.full + (shared.writeQueue_.items + (rest.map Call.full).sum + s.lifetime.held +
      s.writer.full) := by
  simp only [System.view, System.withCall, Option.toList_some, List.singleton_append, List.map_cons,
    List.sum_cons]
  abel

theorem reserved_withCall (call : Call) : (s.withCall shared (some call) rest).view.reserved =
    call.reserved + (rest.map Call.reserved).sum := by
  simp only [System.view, System.withCall, Option.toList_some, List.singleton_append, List.map_cons,
    List.sum_cons]

theorem steps_reserve (halive : s.lifetime = .alive) {e : TraceEvent} {w : ℕ}
    (hword : shared.currentChunkAndIndex_ = w) (hsize : indexOf w + 2 ≤ c.chunkSize_)
    (hmask : indexOf w + 2 ≤ INDEX_MASK) :
    PoolSteps c (s.withCall shared (some (.recordEvent e (.loaded w))) rest).view
      (s.withCall { shared with currentChunkAndIndex_ := pack (chunkOf w) (indexOf w + 2) }
        (some (.storeEvent e (chunkOf w) (indexOf w))) rest).view := by
  have hcurrent : (s.withCall shared (some (.recordEvent e (.loaded w))) rest).view.current = _ :=
    currentChunk_withCall halive _
  rw [hword] at hcurrent
  have hstep : BlockPool.Step (c.chunkSize_ - 1) _ _ := .reserve (a := e) hcurrent (by omega)
    (Nat.lt_add_of_pos_right (by decide : 0 < 2))
  convert Relation.ReflTransGen.single hstep using 1
  apply BlockPool.ext
  · simp only [fresh_withCall]
    rfl
  · simp only [currentChunk_withCall halive, chunkOf_pack (chunkOf_lt w) hmask,
      indexOf_pack (chunkOf_lt w) hmask]
  · simp only [full_withCall]
    rfl
  · rfl
  · simp only [reserved_withCall, Call.reserved, ← Multiset.singleton_add, zero_add]
  · rfl
  · rfl
  · rfl

theorem step_next (halive : s.lifetime = .alive) {call call' : Call} {w chunkNext : ℕ}
    (hword : shared.currentChunkAndIndex_ = w) (hnext : chunkNext < 256)
    (hfresh : call.fresh = {chunkNext}) (hfresh' : call'.fresh = 0) (hfull : call.full = 0)
    (hfull' : call'.full = {chunkOf w}) (hreserved : call.reserved = 0)
    (hreserved' : call'.reserved = 0) :
    BlockPool.Step (c.chunkSize_ - 1) (s.withCall shared (some call) rest).view
      (s.withCall { shared with currentChunkAndIndex_ := pack chunkNext 0 } (some call')
        rest).view := by
  have hcurrent : (s.withCall shared (some call) rest).view.current = _ :=
    currentChunk_withCall halive _
  rw [hword] at hcurrent
  have htaken : (s.withCall shared (some call) rest).view.fresh = _ := fresh_withCall call
  rw [hfresh, Multiset.singleton_add] at htaken
  have hstep : BlockPool.Step (c.chunkSize_ - 1) _ _ := .next hcurrent htaken
  convert hstep using 1
  apply BlockPool.ext
  · simp only [fresh_withCall, hfresh', zero_add]
  · simp only [currentChunk_withCall halive, chunkOf_pack hnext (Nat.zero_le _),
      indexOf_pack hnext (Nat.zero_le _)]
  · simp only [full_withCall, hfull, hfull', zero_add, Multiset.singleton_add]
  · rfl
  · simp only [reserved_withCall, hreserved, hreserved']
  · rfl
  · rfl
  · rfl

/-- The current chunk is replaced by one of which the first place is reserved. -/
theorem steps_switch (halive : s.lifetime = .alive) {e : TraceEvent} {w chunkNext : ℕ}
    (hword : shared.currentChunkAndIndex_ = w) (hnext : chunkNext < 256)
    (hsize : 1 < c.chunkSize_) :
    PoolSteps c (s.withCall shared (some (.recordEvent e (.popped w chunkNext))) rest).view
      (s.withCall { shared with currentChunkAndIndex_ := pack chunkNext 2 }
        (some (.recordEvent e (.pushWrite (chunkOf w) chunkNext))) rest).view := by
  -- between the two steps, a flush would hold the chunk that is to be written
  let between := (s.withCall { shared with currentChunkAndIndex_ := pack chunkNext 0 }
    (some (.flushCurrentChunk (.pushWrite (chunkOf w) chunkNext))) rest)
  have hstep : BlockPool.Step (c.chunkSize_ - 1)
      (s.withCall shared (some (.recordEvent e (.popped w chunkNext))) rest).view between.view :=
    step_next halive hword hnext rfl rfl rfl rfl rfl rfl
  have hcurrent : between.view.current = some (chunkNext, 0) := by
    simp only [between, currentChunk_withCall halive, chunkOf_pack hnext (Nat.zero_le _),
      indexOf_pack hnext (Nat.zero_le _)]
  apply (Relation.ReflTransGen.single hstep).tail
  have hreserve : BlockPool.Step (c.chunkSize_ - 1) _ _ := .reserve (a := e) hcurrent (by omega)
    (by decide : 0 < 2)
  convert hreserve using 1
  apply BlockPool.ext
  · simp only [between, fresh_withCall]
    rfl
  · simp only [currentChunk_withCall halive, chunkOf_pack hnext (by decide : 2 ≤ INDEX_MASK),
      indexOf_pack hnext (by decide : 2 ≤ INDEX_MASK)]
  · simp only [between, full_withCall]
    rfl
  · rfl
  · simp only [between, reserved_withCall, Call.reserved, ← Multiset.singleton_add, zero_add]
  · rfl
  · rfl
  · rfl

theorem step_store {e : TraceEvent} {chunk index : ℕ} :
    BlockPool.Step (c.chunkSize_ - 1)
      (s.withCall shared (some (.storeEvent e chunk index)) rest).view
      { s with
        shared := { shared with
          traceChunks_ := fun slot =>
            if slot = (chunk, index) then some e else shared.traceChunks_ slot }
        calls := rest
        recorded := s.recorded ++ [e] }.view := by
  have hreserved : (s.withCall shared (some (.storeEvent e chunk index)) rest).view.reserved = _ :=
    reserved_withCall _
  rw [Call.reserved, Multiset.singleton_add] at hreserved
  have hstep : BlockPool.Step (c.chunkSize_ - 1) _ _ := .store hreserved
  convert hstep using 1
  apply BlockPool.ext
  · simp only [fresh_withCall, Call.fresh, zero_add]
    rfl
  · rfl
  · simp only [full_withCall, Call.full, zero_add]
    rfl
  · rfl
  · rfl
  · funext slot
    simp only [System.view, System.withCall, Function.update_apply]
  · rfl
  · simp only [System.view, System.withCall, ← Multiset.coe_add, Multiset.coe_singleton,
      ← Multiset.singleton_add]
    exact add_comm _ _

def System.afterCall (s : System) (shared : Shared) (call : Call) (next : Option Call)
    (rest : List Call) : System :=
  { s.withCall shared next rest with
    recorded := next.elim (s.recorded ++ call.returned) fun _ => s.recorded }

theorem steps_recordEvent (hn : c.numChunks ≤ 256) (hqueues : Queues c shared)
    (halive : s.lifetime = .alive) {e : TraceEvent} {pc : HandOver}
    (hharmless : HarmlessCall c shared (.recordEvent e pc)) (hsize : 1 < c.chunkSize_)
    (hfresh : ∀ chunk ∈ pc.fresh, chunk < 256) :
    PoolSteps c (s.withCall shared (some (.recordEvent e pc)) rest).view
      (s.withCall (recordEvent c e shared pc).1 (some (recordEvent c e shared pc).2)
        rest).view := by
  by_cases hreserve : ∃ w, pc = .loaded w ∧ shared.currentChunkAndIndex_ = w ∧
      indexOf w + 2 ≤ c.chunkSize_
  · obtain ⟨w, rfl, hword, hroom⟩ := hreserve
    simp only [recordEvent, if_neg (Nat.not_lt.mpr hroom), if_pos hword]
    exact steps_reserve halive hword hroom (hharmless hroom hword)
  by_cases hswitch : ∃ w chunkNext, pc = .popped w chunkNext ∧ shared.currentChunkAndIndex_ = w
  · obtain ⟨w, chunkNext, rfl, hword⟩ := hswitch
    simp only [recordEvent, if_pos hword]
    exact steps_switch halive hword (hfresh chunkNext (Multiset.mem_singleton_self _)) hsize
  rw [view_recordEvent hn hqueues hharmless]
  · intro w hpc hword
    by_contra hroom
    exact hreserve ⟨w, hpc, hword, Nat.not_lt.mp hroom⟩
  · exact fun w chunkNext hpc hword => hswitch ⟨w, chunkNext, hpc, hword⟩

variable (rest) in
theorem steps_flushCurrentChunk (hn : c.numChunks ≤ 256) (hqueues : Queues c shared)
    (halive : s.lifetime = .alive) {pc : HandOver}
    (hharmless : HarmlessCall c shared (.flushCurrentChunk pc))
    (hfresh : ∀ chunk ∈ pc.fresh, chunk < 256) :
    PoolSteps c (s.withCall shared (some (.flushCurrentChunk pc)) rest).view
      (s.withCall (flushCurrentChunk shared pc).1 (flushCurrentChunk shared pc).2
        rest).view := by
  by_cases hswitch : ∃ w chunkNext, pc = .popped w chunkNext ∧ shared.currentChunkAndIndex_ = w
  · obtain ⟨w, chunkNext, rfl, hword⟩ := hswitch
    have hnext := hfresh chunkNext (Multiset.mem_singleton_self _)
    simp only [flushCurrentChunk, if_pos hword, shifted_eq hnext]
    exact .single (step_next halive hword hnext rfl rfl rfl rfl rfl rfl)
  rw [view_flushCurrentChunk hn hqueues hharmless]
  intro w chunkNext hpc
  have hne : shared.currentChunkAndIndex_ ≠ w := fun hword => hswitch ⟨w, chunkNext, hpc, hword⟩
  subst hpc
  exact ⟨hne, hharmless.resolve_left hne⟩

variable (rest) in
theorem steps_call (hn : c.numChunks ≤ 256) (hqueues : Queues c shared)
    (halive : s.lifetime = .alive) {call : Call} {next : Option Call}
    (hharmless : HarmlessCall c shared call) (hsize : 1 < c.chunkSize_)
    (hfresh : ∀ chunk ∈ call.fresh, chunk < 256)
    (h : call.step c shared = some (shared', next)) :
    PoolSteps c (s.withCall shared (some call) rest).view
      (s.afterCall shared' call next rest).view := by
  cases call with
  | recordEvent e pc =>
    cases h
    exact steps_recordEvent hn hqueues halive hharmless hsize hfresh
  | flushCurrentChunk pc =>
    have hsame : (s.afterCall shared' (.flushCurrentChunk pc) next rest) =
        s.withCall shared' next rest := by
      cases next <;> simp [System.afterCall, System.withCall, Call.returned]
    have hstep : Tracer.flushCurrentChunk shared pc = (shared', next) := Option.some.inj h
    have hsteps := steps_flushCurrentChunk rest hn hqueues halive hharmless hfresh
    rw [hstep] at hsteps
    rw [hsame]
    exact hsteps
  | storeEvent e chunk index =>
    rw [Call.step] at h
    split_ifs at h
    cases h
    exact .single step_store

theorem view_perm {calls calls' : List Call} (h : calls.Perm calls') :
    { s with calls }.view = { s with calls := calls' }.view := by
  have hsum : ∀ {M : Type} [AddCommMonoid M] (f : Call → M),
      (calls.map f).sum = (calls'.map f).sum := fun f => (h.map f).sum_eq
  simp only [System.view, hsum]
  rfl

end Calls

end Multio.Util.Tracer
