import Multio.Util.TracerOwnership

namespace Multio.Util.Tracer
open Lib

variable {c : TracerConfig} {s s' : System}

/-- What the writer has before it may stop, and what the destructor waits for. -/
structure Orderly (s : System) : Prop where
  calls : s.lifetime ≠ .alive → s.calls = []
  running : s.shared.running_ = false → s.lifetime = .stopping ∨ s.lifetime = .destroyed
  stopped : s.writer = .stopped → s.shared.running_ = false ∧ s.shared.writeQueue_.items = []
  destroyed : s.lifetime = .destroyed → s.writer = .stopped

theorem mem_sum_map {α β : Type} {f : α → Multiset β} {as : List α} {b : β} :
    b ∈ (as.map f).sum ↔ ∃ a ∈ as, b ∈ f a := by
  induction as with
  | nil => simp
  | cons a as ih => simp [ih]

theorem contents_eq_chunkEvents (shared : Shared) (id : ℕ) :
    BlockPool.contents (c.chunkSize_ - 1) shared.traceChunks_ id = chunkEvents c shared id := by
  rw [BlockPool.contents, chunkEvents]
  induction c.chunkSize_ - 1 with
  | zero => rfl
  | succ size ih =>
    rw [Finset.sum_range_succ, List.range_succ, List.filterMap_append, ← Multiset.coe_add, ih]
    congr 1
    cases h : shared.traceChunks_ (id, size) with
    | none => simp [h]
    | some e => simp [h]

/-- A chunk that only moves between a queue and the writer has the same part in the pool. -/
theorem view_writer {shared : Shared} {writer : Writer}
    (hslots : shared.traceChunks_ = s.shared.traceChunks_)
    (hword : shared.currentChunkAndIndex_ = s.shared.currentChunkAndIndex_)
    (hfile : shared.outputFile = s.shared.outputFile)
    (hfresh : (shared.availableQueue_.items : Multiset ℕ) + writer.fresh =
      s.shared.availableQueue_.items + s.writer.fresh)
    (hfull : (shared.writeQueue_.items : Multiset ℕ) + writer.full =
      s.shared.writeQueue_.items + s.writer.full)
    (hclearing : writer.clearing = s.writer.clearing) :
    { s with shared, writer }.view = s.view := by
  apply BlockPool.ext
  · simp only [System.view]
    rw [add_right_comm, hfresh, add_right_comm]
  · simp only [System.view, System.currentChunk, hword]
  · simp only [System.view]
    rw [add_right_comm, add_right_comm _ _ writer.full, hfull, add_right_comm _ s.writer.full,
      add_right_comm]
  · exact hclearing
  · rfl
  · exact hslots
  · exact congrArg (fun events : List TraceEvent => (events : Multiset TraceEvent)) hfile
  · rfl

theorem step_write {id : ℕ} (hwriter : s.writer = .write id)
    (hfilled : ∀ call ∈ s.calls, ∀ r ∈ call.reserved, r.1.1 ≠ id) :
    BlockPool.Step (c.chunkSize_ - 1) s.view
      { s with
        shared := { s.shared with outputFile := s.shared.outputFile ++ chunkEvents c s.shared id }
        writer := .clear id }.view := by
  have hfull : s.view.full = id ::ₘ (s.shared.writeQueue_.items + (s.calls.map Call.full).sum +
      s.lifetime.held) := by
    rw [System.view, hwriter, ← Multiset.singleton_add]
    exact add_comm _ _
  have hreserved : ∀ r ∈ s.view.reserved, r.1.1 ≠ id := by
    intro r hr
    obtain ⟨call, hcall, hr⟩ := mem_sum_map.mp hr
    exact hfilled call hcall r hr
  have hclearing : s.view.clearing = none := by
    rw [System.view, hwriter]
    rfl
  have hstep : BlockPool.Step (c.chunkSize_ - 1) _ _ := .archive hfull hclearing hreserved
  convert hstep using 1
  apply BlockPool.ext
  · simp only [System.view, hwriter, Writer.fresh]
  · rfl
  · simp only [System.view, Writer.full, add_zero]
  · rfl
  · rfl
  · rfl
  · simp only [System.view, contents_eq_chunkEvents, ← Multiset.coe_add]
  · rfl

theorem step_clear {id : ℕ} (hwriter : s.writer = .clear id) :
    BlockPool.Step (c.chunkSize_ - 1) s.view
      { s with
        shared := { s.shared with
          traceChunks_ := fun slot => if slot.1 = id then none else s.shared.traceChunks_ slot }
        writer := .pushAvailable id }.view := by
  have hclearing : s.view.clearing = some id := by
    rw [System.view, hwriter]
    rfl
  have hstep : BlockPool.Step (c.chunkSize_ - 1) _ _ := .clear hclearing
  convert hstep using 1
  apply BlockPool.ext
  · simp only [System.view, hwriter, Writer.fresh, add_zero, ← Multiset.singleton_add]
    exact add_comm _ _
  · rfl
  · simp only [System.view, hwriter, Writer.full]
  · rfl
  · rfl
  · rfl
  · rfl
  · rfl

theorem steps_writer (hn : c.numChunks ≤ 256) (hqueues : Queues c s.shared)
    (hharmless : HarmlessWriter s) (h : writerStep c s = some s') : PoolSteps c s.view s'.view := by
  obtain ⟨⟨shared, writer⟩, hstep, h⟩ := Option.bind_eq_some_iff.mp h
  cases h
  -- most steps of the writer leave the view as it is
  have hmoved : { s with shared, writer }.view = s.view →
      PoolSteps c s.view { s with shared, writer }.view := by
    intro heq
    rw [heq]
  cases hwriter : s.writer with
  | checkRunning =>
    rw [hwriter] at hstep
    cases hstep
    apply hmoved
    refine view_writer rfl rfl rfl ?_ ?_ ?_ <;> split <;> rw [hwriter] <;> rfl
  | pop =>
    rw [hwriter, Writer.step] at hstep
    split at hstep
    · have hpop := (pop_spec hqueues.write ‹_›).2
      cases hstep
      apply hmoved
      refine view_writer rfl rfl rfl ?_ ?_ ?_
      · rw [hwriter]
        rfl
      · rw [hwriter]
        exact hpop.symm.trans (add_zero _).symm
      · rw [hwriter]
        rfl
    · cases hstep
      apply hmoved
      refine view_writer rfl rfl rfl ?_ ?_ ?_ <;> rw [hwriter] <;> rfl
  | write id =>
    rw [HarmlessWriter, hwriter] at hharmless
    rw [hwriter, Writer.step] at hstep
    split_ifs at hstep
    cases hstep
    exact .single (step_write hwriter hharmless)
  | clear id =>
    rw [hwriter] at hstep
    cases hstep
    exact .single (step_clear hwriter)
  | pushAvailable id =>
    rw [HarmlessWriter, hwriter] at hharmless
    rw [hwriter, Writer.step] at hstep
    cases hpush : s.shared.availableQueue_.push id with
    | none =>
      rw [hpush] at hstep
      cases hstep
      apply hmoved
      refine view_writer rfl rfl rfl ?_ ?_ ?_ <;> rw [hwriter]
    | some queue =>
      rw [hpush] at hstep
      cases hstep
      apply hmoved
      refine view_writer rfl rfl rfl ?_ ?_ ?_
      · rw [hwriter]
        exact (add_zero _).trans (push_spec hn hqueues.available hharmless hpush).2
      · rw [hwriter]
        rfl
      · rw [hwriter]
        rfl
  | stopped =>
    rw [hwriter] at hstep
    cases hstep

theorem step_close (halive : s.lifetime = .alive) :
    BlockPool.Step (c.chunkSize_ - 1) s.view
      { s with lifetime := .closing (chunkOf s.shared.currentChunkAndIndex_) }.view := by
  have hcurrent : s.view.current = some (chunkOf s.shared.currentChunkAndIndex_,
      indexOf s.shared.currentChunkAndIndex_) := by
    simp only [System.view, System.currentChunk, halive]
  have hstep : BlockPool.Step (c.chunkSize_ - 1) _ _ := .close hcurrent
  convert hstep using 1
  refine BlockPool.ext rfl rfl ?_ rfl rfl rfl rfl rfl
  simp only [System.view, halive, Lifetime.held, add_zero, ← Multiset.singleton_add]
  abel

theorem view_destructor {shared : Shared} {lifetime : Lifetime} (hdead : s.lifetime ≠ .alive)
    (hdead' : lifetime ≠ .alive) (hslots : shared.traceChunks_ = s.shared.traceChunks_)
    (hfile : shared.outputFile = s.shared.outputFile)
    (havailable : shared.availableQueue_ = s.shared.availableQueue_)
    (hfull : (shared.writeQueue_.items : Multiset ℕ) + lifetime.held =
      s.shared.writeQueue_.items + s.lifetime.held) :
    { s with shared, lifetime }.view = s.view := by
  have hnone : ∀ s : System, s.lifetime ≠ .alive → s.currentChunk = none := by
    intro s hs
    rw [System.currentChunk]
    split
    · exact absurd ‹_› hs
    · rfl
  apply BlockPool.ext
  · simp only [System.view, havailable]
  · exact (hnone _ hdead').trans (hnone s hdead).symm
  · simp only [System.view]
    rw [add_right_comm _ _ lifetime.held, hfull, add_right_comm _ s.lifetime.held]
  · rfl
  · rfl
  · exact hslots
  · exact congrArg (fun events : List TraceEvent => (events : Multiset TraceEvent)) hfile
  · rfl

theorem steps_destructor (hn : c.numChunks ≤ 256) (hqueues : Queues c s.shared)
    (hharmless : HarmlessDestructor s) (h : destructorStep s = some s') :
    PoolSteps c s.view s'.view := by
  -- the view changes with the last chunk only
  have hmoved : s'.view = s.view → PoolSteps c s.view s'.view := by
    intro heq
    rw [heq]
  cases hlife : s.lifetime with
  | alive =>
    simp only [destructorStep, hlife] at h
    split_ifs at h
    cases h
    exact .single (step_close hlife)
  | closing chunk =>
    simp only [destructorStep, hlife] at h
    rw [HarmlessDestructor, hlife] at hharmless
    apply hmoved
    cases hpush : s.shared.writeQueue_.push chunk with
    | none =>
      rw [hpush] at h
      cases h
      rfl
    | some queue =>
      rw [hpush] at h
      cases h
      refine view_destructor (by simp [hlife]) (by simp) rfl rfl rfl ?_
      rw [hlife]
      exact (add_zero _).trans (push_spec hn hqueues.write hharmless hpush).2
  | closed =>
    simp only [destructorStep, hlife] at h
    cases h
    exact hmoved (view_destructor (by simp [hlife]) (by simp) rfl rfl rfl (by rw [hlife]; rfl))
  | stopping =>
    simp only [destructorStep, hlife] at h
    split_ifs at h
    cases h
    exact hmoved (view_destructor (by simp [hlife]) (by simp) rfl rfl rfl (by rw [hlife]; rfl))
  | destroyed =>
    simp only [destructorStep, hlife] at h
    cases h

theorem lifetime_of_call {i : ℕ} {call : Call} (horderly : Orderly s)
    (hcall : s.calls[i]? = some call) : s.lifetime = .alive := by
  by_contra hdead
  rw [horderly.calls hdead] at hcall
  cases hcall

theorem view_call {i : ℕ} {call : Call} (hcall : s.calls[i]? = some call) :
    (s.withCall s.shared (some call) (s.calls.eraseIdx i)).view = s.view := by
  obtain ⟨hi, hget⟩ := List.getElem?_eq_some_iff.mp hcall
  apply view_perm (s := s)
  rw [← hget]
  exact List.getElem_cons_eraseIdx_perm hi

theorem steps_callStep (horderly : Orderly s) (hqueues : Queues c s.shared)
    (hn : c.numChunks ≤ 256) (hsize : 1 < c.chunkSize_)
    (hsound : s.view.Sound (Finset.range c.numChunks) (c.chunkSize_ - 1)) {i : ℕ}
    (hharmless : Harmless c s (.call i)) (h : callStep c s i = some s') :
    PoolSteps c s.view s'.view := by
  obtain ⟨call, hcall, h⟩ := Option.bind_eq_some_iff.mp h
  obtain ⟨⟨shared, next⟩, hstep, h⟩ := Option.bind_eq_some_iff.mp h
  have hfresh : ∀ chunk ∈ call.fresh, chunk < 256 := by
    intro chunk hchunk
    have hmem : chunk ∈ s.view.owned := by
      rw [← view_call hcall, BlockPool.owned, fresh_withCall]
      simp [hchunk]
    exact (Finset.mem_range.mp (hsound.mem_blocks hmem)).trans_le hn
  have hsteps := steps_call (s.calls.eraseIdx i) hn hqueues (lifetime_of_call horderly hcall)
    (hharmless call hcall) hsize hfresh hstep
  rw [view_call hcall] at hsteps
  have hafter : (s.afterCall shared call next (s.calls.eraseIdx i)).view = s'.view := by
    cases next with
    | none =>
      cases h
      rfl
    | some call' =>
      cases h
      have hi := (List.getElem?_eq_some_iff.mp hcall).1
      exact view_perm (s := { s with shared }) (List.set_perm_cons_eraseIdx hi call').symm
  rw [← hafter]
  exact hsteps

theorem view_startCall {call : Call} (hfresh : call.fresh = 0) (hfull : call.full = 0)
    (hreserved : call.reserved = 0) (h : startCall s call = some s') : s'.view = s.view := by
  rw [startCall] at h
  split at h
  · cases h
    simp only [System.view, System.currentChunk, List.map_cons, List.sum_cons, hfresh, hfull,
      hreserved, zero_add]
  · cases h

theorem running_recordEvent (e : TraceEvent) (shared : Shared) (pc : HandOver) :
    (recordEvent c e shared pc).1.running_ = shared.running_ := by
  cases pc with
  | load => rfl
  | loaded w =>
    simp only [recordEvent]
    split_ifs
    · split <;> rfl
    · rfl
    · rfl
  | popped w chunkNext =>
    simp only [recordEvent]
    split_ifs <;> rfl
  | pushWrite chunk chunkNext =>
    simp only [recordEvent]
    cases shared.writeQueue_.push chunk <;> rfl
  | pushBack chunk w =>
    simp only [recordEvent]
    cases shared.availableQueue_.push chunk <;> rfl

theorem running_flushCurrentChunk (shared : Shared) (pc : HandOver) :
    (flushCurrentChunk shared pc).1.running_ = shared.running_ := by
  cases pc with
  | load => rfl
  | loaded w =>
    simp only [flushCurrentChunk]
    split <;> rfl
  | popped w chunkNext =>
    simp only [flushCurrentChunk]
    split_ifs <;> rfl
  | pushWrite chunk chunkNext =>
    simp only [flushCurrentChunk]
    cases shared.writeQueue_.push chunk <;> rfl
  | pushBack chunk w =>
    simp only [flushCurrentChunk]
    cases shared.availableQueue_.push chunk <;> rfl

theorem running_call {call : Call} {shared shared' : Shared} {next : Option Call}
    (h : call.step c shared = some (shared', next)) : shared'.running_ = shared.running_ := by
  cases call with
  | recordEvent e pc =>
    cases h
    exact running_recordEvent e shared pc
  | flushCurrentChunk pc =>
    have hstep : Tracer.flushCurrentChunk shared pc = (shared', next) := Option.some.inj h
    rw [← running_flushCurrentChunk shared pc, hstep]
  | storeEvent e chunk index =>
    rw [Call.step] at h
    split_ifs at h
    cases h
    rfl

theorem Orderly.running_of_alive (horderly : Orderly s) (halive : s.lifetime = .alive) :
    s.shared.running_ = true := by
  by_contra hstopped
  rw [Bool.not_eq_true] at hstopped
  have hlife := horderly.running hstopped
  rw [halive] at hlife
  simp at hlife

theorem orderly_of_alive (halive : s.lifetime = .alive) (hrunning : s.shared.running_ = true)
    (hwriter : s.writer ≠ .stopped) : Orderly s where
  calls h := absurd halive h
  running h := absurd h (by rw [hrunning]; simp)
  stopped h := absurd h hwriter
  destroyed h := absurd (halive.symm.trans h) (by simp)

theorem Orderly.not_stopped_of_alive (horderly : Orderly s) (halive : s.lifetime = .alive) :
    s.writer ≠ .stopped := by
  intro hstopped
  have hrunning := (horderly.stopped hstopped).1
  rw [horderly.running_of_alive halive] at hrunning
  exact Bool.noConfusion hrunning

theorem Orderly.startCall (horderly : Orderly s) {call : Call} (h : startCall s call = some s') :
    Orderly s' := by
  rw [Tracer.startCall] at h
  split at h
  · have halive : s.lifetime = .alive := ‹_›
    cases h
    exact orderly_of_alive halive (horderly.running_of_alive halive)
      (horderly.not_stopped_of_alive halive)
  · cases h

theorem Orderly.callStep (horderly : Orderly s) {i : ℕ} (h : callStep c s i = some s') :
    Orderly s' := by
  obtain ⟨call, hcall, h⟩ := Option.bind_eq_some_iff.mp h
  obtain ⟨⟨shared, next⟩, hstep, h⟩ := Option.bind_eq_some_iff.mp h
  have halive := lifetime_of_call horderly hcall
  have hrunning := (running_call hstep).trans (horderly.running_of_alive halive)
  have hwriter := horderly.not_stopped_of_alive halive
  cases next with
  | none =>
    cases h
    exact orderly_of_alive halive hrunning hwriter
  | some call' =>
    cases h
    exact orderly_of_alive halive hrunning hwriter

/-- A step of the writer leaves the flag; it stops if that has been cleared. -/
theorem running_writer {shared : Shared} {writer : Writer}
    (h : s.writer.step c s.shared = some (shared, writer)) :
    shared.running_ = s.shared.running_ ∧
      (writer = .stopped → s.writer = .checkRunning ∧ shared = s.shared ∧
        s.shared.running_ = false) := by
  cases hwriter : s.writer with
  | checkRunning =>
    rw [hwriter] at h
    cases h
    refine ⟨rfl, fun hstopped => ⟨rfl, rfl, ?_⟩⟩
    by_contra hrunning
    rw [Bool.not_eq_false] at hrunning
    rw [hrunning] at hstopped
    cases hstopped
  | pop =>
    rw [hwriter, Writer.step] at h
    split at h <;> cases h <;> exact ⟨rfl, fun hstopped => by cases hstopped⟩
  | write id =>
    rw [hwriter, Writer.step] at h
    split_ifs at h
    cases h
    exact ⟨rfl, fun hstopped => by cases hstopped⟩
  | clear id =>
    rw [hwriter] at h
    cases h
    exact ⟨rfl, fun hstopped => by cases hstopped⟩
  | pushAvailable id =>
    rw [hwriter, Writer.step] at h
    split at h <;> cases h <;> exact ⟨rfl, fun hstopped => by cases hstopped⟩
  | stopped =>
    rw [hwriter] at h
    cases h

theorem Orderly.writerStep (horderly : Orderly s) (hharmless : HarmlessWriter s)
    (h : writerStep c s = some s') : Orderly s' := by
  obtain ⟨⟨shared, writer⟩, hstep, h⟩ := Option.bind_eq_some_iff.mp h
  obtain ⟨hrunning, hstop⟩ := running_writer hstep
  cases h
  refine
    { calls := horderly.calls
      running := fun h => horderly.running (hrunning.symm.trans h)
      stopped := ?_
      destroyed := ?_ }
  · intro hstopped
    obtain ⟨hcheck, hshared, hflag⟩ := hstop hstopped
    rw [HarmlessWriter, hcheck] at hharmless
    simp only
    rw [hshared]
    exact ⟨hflag, hharmless hflag⟩
  · intro hdestroyed
    rw [horderly.destroyed hdestroyed] at hstep
    cases hstep

theorem Orderly.destructorStep (horderly : Orderly s) (h : destructorStep s = some s') :
    Orderly s' := by
  -- the members are set in this order, and each state keeps what the ones before have set
  cases hlife : s.lifetime with
  | alive =>
    simp only [Tracer.destructorStep, hlife] at h
    split_ifs at h with hcalls
    cases h
    have hwriter := horderly.not_stopped_of_alive hlife
    exact
      { calls := fun _ => hcalls
        running := fun h => absurd h (by simp [horderly.running_of_alive hlife])
        stopped := fun h => absurd h hwriter
        destroyed := fun h => by cases h }
  | closing chunk =>
    have hcalls := horderly.calls (by simp [hlife])
    have hrunning : s.shared.running_ = true := by
      by_contra hstopped
      simpa [hlife] using horderly.running (by simpa using hstopped)
    have hwriter : s.writer ≠ .stopped := fun hstopped => by
      simpa [hrunning] using (horderly.stopped hstopped).1
    simp only [Tracer.destructorStep, hlife] at h
    split at h
    · cases h
      exact
        { calls := fun _ => hcalls
          running := fun h => absurd h (by simp [hrunning])
          stopped := fun h => absurd h hwriter
          destroyed := fun h => by cases h }
    · cases h
      exact horderly
  | closed =>
    have hcalls := horderly.calls (by simp [hlife])
    have hwriter : s.writer ≠ .stopped := fun hstopped => by
      simpa [hlife] using horderly.running (horderly.stopped hstopped).1
    simp only [Tracer.destructorStep, hlife] at h
    cases h
    exact
      { calls := fun _ => hcalls
        running := fun _ => .inl rfl
        stopped := fun h => absurd h hwriter
        destroyed := fun h => by cases h }
  | stopping =>
    have hcalls := horderly.calls (by simp [hlife])
    simp only [Tracer.destructorStep, hlife] at h
    split_ifs at h with hstopped
    cases h
    exact
      { calls := fun _ => hcalls
        running := fun _ => .inr rfl
        stopped := horderly.stopped
        destroyed := fun _ => hstopped }
  | destroyed =>
    simp only [Tracer.destructorStep, hlife] at h
    cases h

namespace Queues

variable {shared shared' : Shared} (h : Queues c shared) (hn : c.numChunks ≤ 256)

include h hn

theorem pushAvailable {chunk : ℕ} {availableQueue_ : RingBuffer ℕ}
    (hfree : FreePush shared.availableQueue_ chunk)
    (hpush : shared.availableQueue_.push chunk = some availableQueue_) :
    Queues c { shared with availableQueue_ } :=
  ⟨(push_spec hn h.available hfree hpush).1, h.write⟩

theorem pushWrite {chunk : ℕ} {writeQueue_ : RingBuffer ℕ}
    (hfree : FreePush shared.writeQueue_ chunk)
    (hpush : shared.writeQueue_.push chunk = some writeQueue_) :
    Queues c { shared with writeQueue_ } :=
  ⟨h.available, (push_spec hn h.write hfree hpush).1⟩

omit hn in
theorem popAvailable {chunk : ℕ} {availableQueue_ : RingBuffer ℕ}
    (hpop : shared.availableQueue_.pop = some (availableQueue_, some chunk)) :
    Queues c { shared with availableQueue_ } :=
  ⟨(pop_spec h.available hpop).1, h.write⟩

omit hn in
theorem popWrite {chunk : ℕ} {writeQueue_ : RingBuffer ℕ}
    (hpop : shared.writeQueue_.pop = some (writeQueue_, some chunk)) :
    Queues c { shared with writeQueue_ } :=
  ⟨h.available, (pop_spec h.write hpop).1⟩

theorem recordEvent {e : TraceEvent} {pc : HandOver}
    (hharmless : HarmlessCall c shared (.recordEvent e pc)) :
    Queues c (Tracer.recordEvent c e shared pc).1 := by
  cases pc with
  | load => exact h
  | loaded w =>
    simp only [Tracer.recordEvent]
    split_ifs
    · split
      · exact h.popAvailable ‹_›
      · exact h
    · exact ⟨h.available, h.write⟩
    · exact h
  | popped w chunkNext =>
    simp only [Tracer.recordEvent]
    split_ifs
    · exact ⟨h.available, h.write⟩
    · exact h
  | pushWrite chunk chunkNext =>
    simp only [Tracer.recordEvent]
    cases hpush : shared.writeQueue_.push chunk with
    | none => exact h
    | some queue => exact h.pushWrite hn hharmless hpush
  | pushBack chunk w =>
    simp only [Tracer.recordEvent]
    cases hpush : shared.availableQueue_.push chunk with
    | none => exact h
    | some queue => exact h.pushAvailable hn hharmless hpush

theorem flushCurrentChunk {pc : HandOver}
    (hharmless : HarmlessCall c shared (.flushCurrentChunk pc)) :
    Queues c (Tracer.flushCurrentChunk shared pc).1 := by
  cases pc with
  | load => exact h
  | loaded w =>
    simp only [Tracer.flushCurrentChunk]
    split
    · exact h.popAvailable ‹_›
    · exact h
  | popped w chunkNext =>
    simp only [Tracer.flushCurrentChunk]
    split_ifs
    · exact ⟨h.available, h.write⟩
    · exact h
  | pushWrite chunk chunkNext =>
    simp only [Tracer.flushCurrentChunk]
    cases hpush : shared.writeQueue_.push chunk with
    | none => exact h
    | some queue => exact h.pushWrite hn hharmless hpush
  | pushBack chunk w =>
    simp only [Tracer.flushCurrentChunk]
    cases hpush : shared.availableQueue_.push chunk with
    | none => exact h
    | some queue => exact h.pushAvailable hn hharmless hpush

theorem call {call : Call} {next : Option Call} (hharmless : HarmlessCall c shared call)
    (hstep : call.step c shared = some (shared', next)) : Queues c shared' := by
  cases call with
  | recordEvent e pc =>
    cases hstep
    exact h.recordEvent hn hharmless
  | flushCurrentChunk pc =>
    have heq : Tracer.flushCurrentChunk shared pc = (shared', next) := Option.some.inj hstep
    have hqueues := h.flushCurrentChunk hn hharmless
    rw [heq] at hqueues
    exact hqueues
  | storeEvent e chunk index =>
    rw [Call.step] at hstep
    split_ifs at hstep
    cases hstep
    exact ⟨h.available, h.write⟩

omit h

theorem writerStep (h : Queues c s.shared) (hharmless : HarmlessWriter s)
    (hwrite : writerStep c s = some s') : Queues c s'.shared := by
  obtain ⟨⟨shared, writer⟩, hstep, heq⟩ := Option.bind_eq_some_iff.mp hwrite
  cases heq
  -- the queues change where the writer pops a chunk or gives it back
  cases hwriter : s.writer with
  | checkRunning =>
    rw [hwriter] at hstep
    cases hstep
    exact h
  | pop =>
    rw [hwriter, Writer.step] at hstep
    split at hstep
    · cases hstep
      exact h.popWrite ‹_›
    · cases hstep
      exact h
  | write id =>
    rw [hwriter, Writer.step] at hstep
    split_ifs at hstep
    cases hstep
    exact ⟨h.available, h.write⟩
  | clear id =>
    rw [hwriter] at hstep
    cases hstep
    exact ⟨h.available, h.write⟩
  | pushAvailable id =>
    rw [HarmlessWriter, hwriter] at hharmless
    rw [hwriter, Writer.step] at hstep
    cases hpush : s.shared.availableQueue_.push id with
    | none =>
      rw [hpush] at hstep
      cases hstep
      exact h
    | some queue =>
      rw [hpush] at hstep
      cases hstep
      exact h.pushAvailable hn hharmless hpush
  | stopped =>
    rw [hwriter] at hstep
    cases hstep

theorem destructorStep (h : Queues c s.shared) (hharmless : HarmlessDestructor s)
    (hstep : destructorStep s = some s') : Queues c s'.shared := by
  cases hlife : s.lifetime with
  | alive =>
    simp only [Tracer.destructorStep, hlife] at hstep
    split_ifs at hstep
    cases hstep
    exact h
  | closing chunk =>
    rw [HarmlessDestructor, hlife] at hharmless
    simp only [Tracer.destructorStep, hlife] at hstep
    cases hpush : s.shared.writeQueue_.push chunk with
    | none =>
      rw [hpush] at hstep
      cases hstep
      exact h
    | some queue =>
      rw [hpush] at hstep
      cases hstep
      exact h.pushWrite hn hharmless hpush
  | closed =>
    simp only [Tracer.destructorStep, hlife] at hstep
    cases hstep
    exact ⟨h.available, h.write⟩
  | stopping =>
    simp only [Tracer.destructorStep, hlife] at hstep
    split_ifs at hstep
    cases hstep
    exact h
  | destroyed =>
    simp only [Tracer.destructorStep, hlife] at hstep
    cases hstep

end Queues

theorem pushAll_spec {queue : RingBuffer ℕ} {N : UInt32} {p : ℕ} {xs ids : List ℕ}
    (hcounted : queue.Counted N p xs.length) (hholds : queue.Holds N p xs)
    (hroom : xs.length + ids.length ≤ N.toNat) (hp : p + ids.length ≤ 2 ^ 32) :
    (pushAll queue ids).Ordered N ∧ (pushAll queue ids).items = xs ++ ids := by
  induction ids generalizing queue p xs with
  | nil => exact ⟨⟨p, xs, hcounted, hholds⟩, (hcounted.items_eq hholds).trans (by simp)⟩
  | cons id ids ih =>
    rw [List.length_cons] at hroom hp
    obtain ⟨queue₁, hpush, hcounted₁, hdata⟩ := hcounted.push (by omega) id
    have hholds₁ := hholds.push hcounted (by omega)
      (fun hwrap => absurd hwrap (by omega)) hdata
    have hlen : (xs ++ [id]).length = xs.length + 1 := List.length_append
    rw [← hlen] at hcounted₁
    have hrest := ih hcounted₁ hholds₁ (by rw [hlen]; omega) (by omega)
    unfold pushAll
    rw [List.foldl_cons, hpush, Option.getD_some, List.append_cons]
    exact hrest

theorem make_spec (hn : c.numChunks ≤ 256) :
    Queues c (make c).shared ∧
      (make c).shared.availableQueue_.items = (List.range c.numChunks).tail ∧
      (make c).shared.writeQueue_.items = [] := by
  have hN : (UInt32.ofNat c.numChunks).toNat = c.numChunks := by
    rw [UInt32.toNat_ofNat']
    omega
  have hlen : (List.range c.numChunks).tail.length = c.numChunks - 1 := by
    rw [List.length_tail, List.length_range]
  obtain ⟨hordered, hitems⟩ := @pushAll_spec _ _ _ [] (List.range c.numChunks).tail
    (RingBuffer.Counted.make 0 (UInt32.ofNat c.numChunks)) (Stored.nil _ _ _)
    (by rw [hN, hlen, List.length_nil]; omega) (by rw [hlen]; omega)
  obtain ⟨hempty, hnone⟩ := RingBuffer.Ordered.make 0 (UInt32.ofNat c.numChunks)
  exact ⟨⟨hordered, hempty⟩, hitems, hnone⟩

theorem Queues.freePush {shared : Shared} (h : Queues c shared) (hn : c.numChunks ≤ 256)
    (hdvd : c.numChunks ∣ 2 ^ 32) (chunk : ℕ) :
    FreePush shared.availableQueue_ chunk ∧ FreePush shared.writeQueue_ chunk := by
  have hN : (UInt32.ofNat c.numChunks).toNat ∣ 2 ^ 32 := by
    rw [UInt32.toNat_ofNat', Nat.mod_eq_of_lt (by omega)]
    exact hdvd
  constructor
  · intro hpush
    obtain ⟨queue, hpush⟩ := Option.isSome_iff_exists.mp hpush
    exact h.available.free_of_dvd hN hpush
  · intro hpush
    obtain ⟨queue, hpush⟩ := Option.isSome_iff_exists.mp hpush
    exact h.write.free_of_dvd hN hpush

def HarmlessRun (c : TracerConfig) (s : System) : List Actor → Prop
  | [] => True
  | a :: as => Harmless c s a ∧ ∀ s', s.step c a = some s' → HarmlessRun c s' as

/-- Chunks are owned once, and recorded events are written once. -/
structure TraceSafe (c : TracerConfig) (s : System) : Prop where
  owned : s.owners = Multiset.range c.numChunks
  below : ∀ chunk ∈ s.owners, chunk < c.numChunks
  inChunk : ∀ call ∈ s.calls, ∀ r ∈ call.reserved, r.1.1 < c.numChunks ∧ r.1.2 + 1 < c.chunkSize_
  written : s.lifetime = .destroyed → (s.shared.outputFile : Multiset TraceEvent) = s.recorded

structure Invariant (c : TracerConfig) (s : System) : Prop where
  queues : Queues c s.shared
  sound : s.view.Sound (Finset.range c.numChunks) (c.chunkSize_ - 1)
  orderly : Orderly s

theorem Invariant.make (hn : 1 ≤ c.numChunks) (hn' : c.numChunks ≤ 256) :
    Invariant c (make c) where
  queues := (make_spec hn').1
  sound :=
    { owned := by
        obtain ⟨n, hn⟩ := Nat.exists_eq_add_of_le' hn
        have hrange : List.range c.numChunks = 0 :: (List.range c.numChunks).tail := by
          rw [hn, List.range_succ_eq_map, List.tail_cons]
        have hval : (Finset.range c.numChunks).val = (List.range c.numChunks : Multiset ℕ) := rfl
        obtain ⟨-, havailable, hwrite⟩ := make_spec hn'
        have hcurrent : (Tracer.make c).currentChunk = some (0, 0) := by
          simp [System.currentChunk, Tracer.make, chunkOf, indexOf]
        rw [hval, hrange, ← Multiset.cons_coe, ← Multiset.singleton_add, add_comm]
        simp only [System.view, BlockPool.owned, havailable, hwrite, hcurrent]
        simp [Tracer.make, Lifetime.held, Writer.fresh, Writer.full, Writer.clearing]
      fresh := fun _ _ _ => ⟨rfl, fun r hr => absurd hr (Multiset.notMem_zero r)⟩
      current := fun _ _ _ _ _ => ⟨rfl, fun r hr => absurd hr (Multiset.notMem_zero r)⟩
      clearing := fun _ h => by cases h
      nodup := Multiset.nodup_zero
      reserved := fun r hr => absurd hr (Multiset.notMem_zero r)
      balance := (zero_add _).trans
        (Finset.sum_eq_zero fun _ _ => BlockPool.contents_eq_zero fun _ => rfl) }
  orderly := orderly_of_alive rfl rfl (by simp [Tracer.make])

theorem Invariant.step (hn : c.numChunks ≤ 256) (hsize : 1 < c.chunkSize_) (h : Invariant c s)
    {a : Actor} (hharmless : Harmless c s a) (hstep : s.step c a = some s') : Invariant c s' := by
  have hstart {call : Call} (hfresh : call.fresh = 0) (hfull : call.full = 0)
      (hreserved : call.reserved = 0) (hstart : startCall s call = some s') : Invariant c s' := by
    have hview := view_startCall hfresh hfull hreserved hstart
    refine ⟨?_, hview ▸ h.sound, h.orderly.startCall hstart⟩
    rw [startCall] at hstart
    split at hstart
    · cases hstart
      exact h.queues
    · cases hstart
  -- a call moves one program counter, the other steps are those of the writer and the destructor
  cases a with
  | startRecord e => exact hstart rfl rfl rfl hstep
  | startFlush => exact hstart rfl rfl rfl hstep
  | call i =>
    refine ⟨?_, h.sound.steps (steps_callStep h.orderly h.queues hn hsize h.sound hharmless hstep),
      h.orderly.callStep hstep⟩
    obtain ⟨call, hcall, hstep⟩ := Option.bind_eq_some_iff.mp hstep
    obtain ⟨⟨shared, next⟩, hstep, heq⟩ := Option.bind_eq_some_iff.mp hstep
    have hqueues := h.queues.call hn (hharmless call hcall) hstep
    cases next with
    | none =>
      cases heq
      exact hqueues
    | some call' =>
      cases heq
      exact hqueues
  | writer =>
    exact ⟨Queues.writerStep hn h.queues hharmless hstep,
      h.sound.steps (steps_writer hn h.queues hharmless hstep),
      h.orderly.writerStep hharmless hstep⟩
  | destructor =>
    exact ⟨Queues.destructorStep hn h.queues hharmless hstep,
      h.sound.steps (steps_destructor hn h.queues hharmless hstep),
      h.orderly.destructorStep hstep⟩

theorem Invariant.run (hn : c.numChunks ≤ 256) (hsize : 1 < c.chunkSize_) {actors : List Actor}
    (h : Invariant c s) (hharmless : HarmlessRun c s actors) (hrun : s.run c actors = some s') :
    Invariant c s' := by
  induction actors generalizing s with
  | nil =>
    cases hrun
    exact h
  | cons a actors ih =>
    obtain ⟨s₁, hstep, hrun⟩ := Option.bind_eq_some_iff.mp hrun
    exact ih (h.step hn hsize hharmless.1 hstep) (hharmless.2 s₁ hstep) hrun

/-- When the destructor has joined the writer, every chunk is available. -/
theorem Invariant.written (h : Invariant c s) (hdestroyed : s.lifetime = .destroyed) :
    (s.shared.outputFile : Multiset TraceEvent) = s.recorded := by
  apply h.sound.archive_eq
  have hwriter := h.orderly.destroyed hdestroyed
  have hcalls := h.orderly.calls (by simp [hdestroyed])
  have hempty := (h.orderly.stopped hwriter).2
  rw [← h.sound.owned]
  simp [System.view, BlockPool.owned, System.currentChunk, hdestroyed, hwriter, hcalls, hempty,
    Lifetime.held, Writer.fresh, Writer.full, Writer.clearing]

theorem Invariant.traceSafe (h : Invariant c s) : TraceSafe c s := by
  have howned : s.owners = Multiset.range c.numChunks := s.owners_eq.trans h.sound.owned
  refine ⟨howned, ?_, ?_, h.written⟩
  · intro chunk hchunk
    rw [howned] at hchunk
    exact Multiset.mem_range.mp hchunk
  · intro call hcall r hr
    obtain ⟨hchunk, hindex, -⟩ := h.sound.reserved r (mem_sum_map.mpr ⟨call, hcall, hr⟩)
    exact ⟨Finset.mem_range.mp hchunk, by omega⟩

/-- In runs of harmless steps, every state is safe. -/
theorem traceSafe_of_run (hn : 1 ≤ c.numChunks) (hn' : c.numChunks ≤ 256) (hsize : 1 ≤ c.chunkSize)
    (hsize' : c.chunkSize < 2 ^ 24) {actors : List Actor}
    (hrun : (make c).run c actors = some s) (hharmless : HarmlessRun c (make c) actors) :
    TraceSafe c s := by
  have hbytes : 1 < c.chunkSize_ := by
    rw [TracerConfig.chunkSize_]
    omega
  exact ((Invariant.make hn hn').run hn' hbytes hharmless hrun).traceSafe

instance decidableHarmlessCall (c : TracerConfig) (s : Shared) :
    (call : Call) → Decidable (HarmlessCall c s call)
  | .recordEvent _ .load | .flushCurrentChunk .load => .isTrue trivial
  | .recordEvent _ (.loaded _) => inferInstanceAs (Decidable (_ → _ → _))
  | .flushCurrentChunk (.loaded _) => .isTrue trivial
  | .recordEvent _ (.popped _ _) => .isTrue trivial
  | .flushCurrentChunk (.popped _ _) => inferInstanceAs (Decidable (_ ∨ _))
  | .recordEvent _ (.pushWrite _ _) | .flushCurrentChunk (.pushWrite _ _) =>
    inferInstanceAs (Decidable (FreePush _ _))
  | .recordEvent _ (.pushBack _ _) | .flushCurrentChunk (.pushBack _ _) =>
    inferInstanceAs (Decidable (FreePush _ _))
  | .storeEvent _ _ _ => .isTrue trivial

def decidableHarmlessWriter (s : System) :
    (w : Writer) → s.writer = w → Decidable (HarmlessWriter s)
  | .write id, h => decidable_of_iff (∀ call ∈ s.calls, ∀ r ∈ call.reserved, r.1.1 ≠ id)
      (by rw [HarmlessWriter, h])
  | .checkRunning, h =>
    decidable_of_iff (s.shared.running_ = false → s.shared.writeQueue_.items = [])
      (by rw [HarmlessWriter, h])
  | .pushAvailable id, h => decidable_of_iff (FreePush s.shared.availableQueue_ id)
      (by rw [HarmlessWriter, h])
  | .pop, h | .clear _, h | .stopped, h => .isTrue (by rw [HarmlessWriter, h]; trivial)

def decidableHarmlessDestructor (s : System) :
    (l : Lifetime) → s.lifetime = l → Decidable (HarmlessDestructor s)
  | .closing chunk, h => decidable_of_iff (FreePush s.shared.writeQueue_ chunk)
      (by rw [HarmlessDestructor, h])
  | .alive, h | .closed, h | .stopping, h | .destroyed, h =>
    .isTrue (by rw [HarmlessDestructor, h]; trivial)

instance decidableHarmless (c : TracerConfig) (s : System) :
    (a : Actor) → Decidable (Harmless c s a)
  | .startRecord _ | .startFlush => .isTrue trivial
  | .call i => inferInstanceAs (Decidable (∀ call ∈ s.calls[i]?, HarmlessCall c s.shared call))
  | .writer => decidableHarmlessWriter s s.writer rfl
  | .destructor => decidableHarmlessDestructor s s.lifetime rfl

instance decidableHarmlessRun (c : TracerConfig) :
    (actors : List Actor) → (s : System) → Decidable (HarmlessRun c s actors)
  | [], _ => .isTrue trivial
  | a :: actors, s =>
    letI : DecidablePred fun s' => HarmlessRun c s' actors := decidableHarmlessRun c actors
    inferInstanceAs (Decidable (Harmless c s a ∧ ∀ s' ∈ s.step c a, HarmlessRun c s' actors))

def smallTracer : TracerConfig where
  numChunks := 3
  chunkSize := 2

/-- Two callers fill a chunk, one of them with an exchange that fails; a third one takes the next
chunk, which is flushed before its event is stored; and the tracer is shut down. -/
def threeEvents : List Actor :=
  [.startRecord ⟨7, 1⟩, .startRecord ⟨8, 2⟩, .call 1, .call 0, .call 1, .call 0, .call 0, .call 0,
    .call 0, .startRecord ⟨9, 3⟩, .call 0, .call 0, .call 0, .startFlush, .call 0, .call 0, .call 0,
    .call 0, .call 0, .writer, .call 0, .writer, .writer, .writer, .writer, .writer, .writer,
    .writer, .writer, .writer, .destructor, .destructor, .writer, .writer, .writer, .writer,
    .writer, .destructor, .writer, .destructor]

theorem traceSafe_of_run_threeEvents :
    ∃ s, (make smallTracer).run smallTracer threeEvents = some s ∧ s.lifetime = .destroyed ∧
      s.shared.outputFile = [⟨9, 3⟩, ⟨7, 1⟩, ⟨8, 2⟩] ∧ TraceSafe smallTracer s := by
  have hrun : ((make smallTracer).run smallTracer threeEvents).map
      (fun s => (s.lifetime, s.shared.outputFile)) =
      some (.destroyed, [⟨9, 3⟩, ⟨7, 1⟩, ⟨8, 2⟩]) := by decide +kernel
  obtain ⟨s, hs, heq⟩ := Option.map_eq_some_iff.mp hrun
  obtain ⟨hlifetime, houtput⟩ := Prod.mk.inj heq
  exact ⟨s, hs, hlifetime, houtput, traceSafe_of_run (by decide) (by decide) (by decide)
    (by decide) hs (by decide +kernel)⟩

/-- An event is recorded between the load and the exchange of a flush, which then puts back the
word that it has made of the id 1. -/
def flushMeetsEvent : List Actor :=
  [.startFlush, .call 0, .call 0, .startRecord ⟨7, 1⟩, .call 0, .call 0, .call 1, .call 1]

theorem not_traceSafe_flushMeetsEvent :
    ∃ s, (make smallTracer).run smallTracer flushMeetsEvent = some s ∧
      s.shared.availableQueue_.items = [2, 16777216] ∧ ¬ TraceSafe smallTracer s := by
  have hrun : ((make smallTracer).run smallTracer flushMeetsEvent).map
      (fun s => s.shared.availableQueue_.items) = some [2, 16777216] := by decide +kernel
  obtain ⟨s, hs, hitems⟩ := Option.map_eq_some_iff.mp hrun
  refine ⟨s, hs, hitems, fun h => ?_⟩
  have hmem : 16777216 ∈ s.owners := by
    unfold System.owners
    rw [hitems]
    simp
  exact absurd (h.below 16777216 hmem) (by decide)

end Multio.Util.Tracer
