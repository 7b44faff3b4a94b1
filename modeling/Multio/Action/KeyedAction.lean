import Multio.Lib.Threading
import Multio.Message.Message
import Multio.Util.Outcome

namespace Multio.Action
open Lib Exception

structure KeyedAction where
  State : Type
  /-- What is kept of a field. -/
  Stats : Type
  Disk : Type
  execute : State → Message → Outcome (State × List Message)
  /-- The key of the field that a message belongs to. -/
  key : Message → Option String
  stats : State → String → Option Stats
  /-- The keys of the known fields, in their order. -/
  keys : State → List String
  /-- What a message that is no field emits of the statistics of each field, and leaves of them. -/
  emitted : Message → Stats → List Message
  after : Message → Stats → Stats
  /-- What the statistics of a field may be loaded from. -/
  disk : State → Disk
  /-- The folder that they would be loaded from is there. -/
  mounted : State → Prop
  /-- Whether a message may change what is on disk. -/
  writes : Message → Bool

def fieldKey {α : Type} (key : α → String) (m : Message) (cfg : Except Exception α) :
    Option String :=
  if m.tag = .field then cfg.toOption.map key else none

theorem fieldKey_eq_some_iff {α : Type} {key : α → String} {m : Message} {cfg : Except Exception α}
    {k : String} :
    fieldKey key m cfg = some k ↔ m.tag = .field ∧ ∃ c, cfg = .ok c ∧ key c = k := by
  unfold fieldKey
  split_ifs with htag
  · rw [and_iff_right htag]
    cases cfg with
    | ok c =>
      constructor
      · intro h
        exact ⟨c, rfl, Option.some.inj h⟩
      · rintro ⟨c', hc, rfl⟩
        obtain rfl := Except.ok.inj hc
        rfl
    | error e =>
      constructor
      · intro h
        cases h
      · rintro ⟨c', hc, -⟩
        cases hc
  · exact iff_of_false (by simp) fun h => htag h.1

namespace KeyedAction

variable (A : KeyedAction)

def accept (a : A.State) (m : Message) : Option A.State :=
  if (A.execute a m).exception = none then some (A.execute a m).state.1 else none

structure Answer where
  exception : Option Exception := none
  messages : List Message
  stats : Option A.Stats

def answer (a : A.State) (m : Message) (k : String) : A.Answer :=
  if A.key m = some k then
    { exception := (A.execute a m).exception
      messages := (A.execute a m).state.2
      stats := A.stats (A.execute a m).state.1 k }
  else
    { messages := ((A.stats a k).map (A.emitted m)).getD []
      stats := A.stats a k }

/-- A message that is no field emits what it means for each of the fields, and is passed on. -/
def Emits : Prop :=
  ∀ (a a' : A.State) (m : Message), m.tag ≠ .field → A.accept a m = some a' →
    (A.execute a m).state.2 = ((A.keys a).flatMap fun k => (A.answer a m k).messages) ++ [m]

/-- The states agree in what a message of the field would find on disk. -/
def Agree (a b : A.State) (k : String) : Prop :=
  A.disk a = A.disk b ∨ (A.stats a k).isSome ∧ A.mounted a ∧ A.mounted b

/-- What the separation of the fields rests on: a message of a field depends on what is known of
that field and changes nothing else, and every other message does the same to each of them. -/
structure Lawful : Prop where
  tag : ∀ {m k}, A.key m = some k → m.tag = .field
  own : ∀ {a b m k}, A.key m = some k → A.stats a k = A.stats b k → A.Agree a b k →
    A.answer a m k = A.answer b m k
  field : ∀ {a a' m}, m.tag = .field → A.accept a m = some a' →
    ∃ k ts, A.key m = some k ∧ (∀ k', A.stats a' k' = if k' = k then some ts else A.stats a k') ∧
      A.mounted a ∧ A.mounted a' ∧ A.disk a' = A.disk a
  rest : ∀ {a a' m}, m.tag ≠ .field → A.accept a m = some a' →
    (∀ k, A.stats a' k = (A.stats a k).map (A.after m)) ∧ (A.mounted a → A.mounted a') ∧
      (A.writes m = false → A.disk a' = A.disk a)

variable (second : Message → Bool) (k : String)

/-- No message of the second field is kept under the key, and none of them comes before a restart is
written as long as no message under the key has arrived. -/
structure Apart (ms : List Message) : Prop where
  fields : ∀ m ∈ ms, second m = true → m.tag = .field ∧ A.key m ≠ some k
  restarts : ∀ pre m, pre ++ [m] <+: ms → A.key m = some k → (∀ m' ∈ pre, A.key m' ≠ some k) →
    pre.Pairwise fun m m' => second m = true → A.writes m' = false

variable {A second k}

theorem Apart.left {ms ms' : List Message} (h : A.Apart second k (ms ++ ms')) :
    A.Apart second k ms where
  fields m hm := h.fields m (List.mem_append_left _ hm)
  restarts pre m hpre := h.restarts pre m (hpre.trans (List.prefix_append ms ms'))

theorem accept_eq_some_iff {a a' : A.State} {m : Message} :
    A.accept a m = some a' ↔ ∃ out, (A.execute a m).Returns (a', out) := by
  unfold accept
  split_ifs with h
  · rw [Option.some.injEq]
    constructor
    · rintro rfl
      exact ⟨_, Outcome.returns_iff.mpr ⟨h, rfl⟩⟩
    · rintro ⟨out, hret⟩
      rw [(Outcome.returns_iff.mp hret).2]
  · exact iff_of_false (by simp) fun ⟨out, hret⟩ => h (Outcome.returns_iff.mp hret).1

theorem state_of_accept {a a' : A.State} {m : Message} (h : A.accept a m = some a') :
    (A.execute a m).state.1 = a' := by
  obtain ⟨out, hret⟩ := accept_eq_some_iff.mp h
  rw [(Outcome.returns_iff.mp hret).2]

namespace Lawful

variable {ms : List Message} {a a' b b' : A.State} {m : Message} (hA : A.Lawful)

include hA

theorem frame (htag : m.tag = .field) (hkey : A.key m ≠ some k) (ha : A.accept a m = some a') :
    A.stats a' k = A.stats a k := by
  obtain ⟨k', ts, hkey', hstats, -⟩ := hA.field htag ha
  have hne : k ≠ k' := fun heq => hkey (heq.symm ▸ hkey')
  rw [hstats, if_neg hne]

theorem other (hkey : A.key m ≠ some k) (ha : A.accept a m = some a')
    (hb : A.accept b m = some b') (h : A.stats a k = A.stats b k) :
    A.stats a' k = A.stats b' k := by
  by_cases htag : m.tag = .field
  · rw [hA.frame htag hkey ha, hA.frame htag hkey hb, h]
  · rw [(hA.rest htag ha).1, (hA.rest htag hb).1, h]

theorem stays (ha : A.accept a m = some a') (h : (A.stats a k).isSome) :
    (A.stats a' k).isSome := by
  by_cases htag : m.tag = .field
  · obtain ⟨k', ts, -, hstats, -⟩ := hA.field htag ha
    rw [hstats]
    split_ifs
    · rfl
    · exact h
  · rw [(hA.rest htag ha).1, Option.isSome_map]
    exact h

theorem mounted (ha : A.accept a m = some a') (h : A.mounted a) : A.mounted a' := by
  by_cases htag : m.tag = .field
  · obtain ⟨k', ts, -, -, -, hmounted, -⟩ := hA.field htag ha
    exact hmounted
  · exact (hA.rest htag ha).2.1 h

/-- After a message of the field, its statistics are known and nothing has to be loaded. -/
theorem known (hkey : A.key m = some k) (ha : A.accept a m = some a') :
    (A.stats a' k).isSome ∧ A.mounted a' := by
  obtain ⟨k', ts, hkey', hstats, -, hmounted, -⟩ := hA.field (hA.tag hkey) ha
  obtain rfl := Option.some.inj (hkey.symm.trans hkey')
  rw [hstats, if_pos rfl]
  exact ⟨rfl, hmounted⟩

theorem disk (hwrites : A.writes m = false) (ha : A.accept a m = some a') :
    A.disk a' = A.disk a := by
  by_cases htag : m.tag = .field
  · obtain ⟨k', ts, -, -, -, -, hdisk⟩ := hA.field htag ha
    exact hdisk
  · exact (hA.rest htag ha).2.2 hwrites

end Lawful

/-- The states with and without the messages of the second field. -/
structure Alike (second : Message → Bool) (k : String) (ms : List Message) (a b : A.State) :
    Prop where
  same : (∀ m ∈ ms, second m = false) → a = b
  stats : A.stats a k = A.stats b k
  known : (∃ m ∈ ms, A.key m = some k) → (A.stats a k).isSome ∧ A.mounted a ∧ A.mounted b
  disk : (ms.Pairwise fun m m' => second m = true → A.writes m' = false) → A.disk a = A.disk b

variable {ms : List Message} {a a' b b' : A.State} {m : Message}

theorem Alike.agree (h : Alike second k ms a b) (hapart : A.Apart second k (ms ++ [m]))
    (hkey : A.key m = some k) : A.Agree a b k := by
  by_cases hknown : ∃ m' ∈ ms, A.key m' = some k
  · exact Or.inr (h.known hknown)
  · refine Or.inl (h.disk (hapart.restarts ms m List.prefix_rfl hkey ?_))
    intro m' hm' hkey'
    exact hknown ⟨m', hm', hkey'⟩

theorem Alike.hide (hA : A.Lawful) (h : Alike second k ms a b) (htag : m.tag = .field)
    (hkey : A.key m ≠ some k) (hsecond : second m = true) (ha : A.accept a m = some a') :
    Alike second k (ms ++ [m]) a' b where
  same hnone := by
    have hno := hnone m (by simp)
    rw [hsecond] at hno
    cases hno
  stats := (hA.frame htag hkey ha).trans h.stats
  known := by
    rintro ⟨m', hm', hkey'⟩
    have hmem : m' ∈ ms := by
      obtain hmem | heq := List.mem_append.mp hm'
      · exact hmem
      · exact absurd (List.mem_singleton.mp heq ▸ hkey') hkey
    obtain ⟨hsome, hmounted, hmounted'⟩ := h.known ⟨m', hmem, hkey'⟩
    exact ⟨hA.stays ha hsome, hA.mounted ha hmounted, hmounted'⟩
  disk hpair := by
    obtain ⟨k', ts, -, -, -, -, hdisk⟩ := hA.field htag ha
    rw [hdisk]
    exact h.disk (List.pairwise_append.mp hpair).1

theorem Alike.both (hA : A.Lawful) (h : Alike second k ms a b)
    (hapart : A.Apart second k (ms ++ [m])) (hsecond : second m = false)
    (ha : A.accept a m = some a') (hb : A.accept b m = some b') :
    Alike second k (ms ++ [m]) a' b' := by
  have hsame : (∀ m' ∈ ms, second m' = false) → a' = b' := fun hnone => by
    rw [h.same hnone] at ha
    exact Option.some.inj (ha.symm.trans hb)
  have hstats : A.stats a' k = A.stats b' k := by
    by_cases hkey : A.key m = some k
    · have hanswer := hA.own hkey h.stats (h.agree hapart hkey)
      unfold answer at hanswer
      rw [if_pos hkey, if_pos hkey, Answer.mk.injEq] at hanswer
      rw [← state_of_accept ha, ← state_of_accept hb]
      exact hanswer.2.2
    · exact hA.other hkey ha hb h.stats
  refine ⟨fun hnone => hsame fun m' hm' => hnone m' (List.mem_append_left _ hm'), hstats, ?_, ?_⟩
  · rintro ⟨m', hm', hkey'⟩
    obtain hmem | heq := List.mem_append.mp hm'
    · obtain ⟨hsome, hmounted, hmounted'⟩ := h.known ⟨m', hmem, hkey'⟩
      exact ⟨hA.stays ha hsome, hA.mounted ha hmounted, hA.mounted hb hmounted'⟩
    · obtain rfl := List.mem_singleton.mp heq
      obtain ⟨hsome, hmounted⟩ := hA.known hkey' ha
      exact ⟨hsome, hmounted, (hA.known hkey' hb).2⟩
  · intro hpair
    obtain ⟨hpair, -, hlast⟩ := List.pairwise_append.mp hpair
    cases hwrites : A.writes m with
    | false =>
      rw [hA.disk hwrites ha, hA.disk hwrites hb]
      exact h.disk hpair
    | true =>
      -- no message of the second field may have come before a restart is written
      rw [hsame fun m' hm' => Bool.eq_false_iff.mpr fun hsecond' => ?_]
      have hno := hlast m' hm' m List.mem_cons_self hsecond'
      rw [hwrites] at hno
      cases hno

/-- In every run, a message means the same for a field with and without the messages of another
one. -/
def Separates (A : KeyedAction) : Prop :=
  ∀ (second : Message → Bool) (k : String) (s : A.State) (ms : List Message) (m : Message)
    (a b : A.State), A.Apart second k (ms ++ [m]) → runOn A.accept s ms = some a →
      runOn A.accept s (visible second ms) = some b → A.answer a m k = A.answer b m k

theorem Lawful.separates (hA : A.Lawful) : A.Separates := by
  intro second k s ms m a b hapart ha hb
  have halike : Alike second k ms a b := by
    refine unwind (R := fun ms a b => A.Apart second k ms → Alike second k ms a b) ?_ ?_ ?_ ha hb
      hapart.left
    · exact fun _ => ⟨fun _ => rfl, rfl, fun ⟨_, hm, _⟩ => absurd hm List.not_mem_nil, fun _ => rfl⟩
    · intro ms m a b a' hsecond h ha hapart
      obtain ⟨htag, hkey⟩ := hapart.fields m (by simp) hsecond
      exact (h hapart.left).hide hA htag hkey hsecond ha
    · intro ms m a b a' b' hsecond h ha hb hapart
      exact (h hapart.left).both hA hapart hsecond ha hb
  by_cases hkey : A.key m = some k
  · exact hA.own hkey halike.stats (halike.agree hapart hkey)
  · unfold answer
    rw [if_neg hkey, if_neg hkey, halike.stats]

end KeyedAction
end Multio.Action
