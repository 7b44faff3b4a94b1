import Multio.Util.Outcome
import Mathlib.Data.List.Chain
import Mathlib.Data.List.Nodup

namespace Multio.Sink
open Exception

structure MetadataChange where
  info : List (String × String)
  metadata : List (String × String)
  deriving DecidableEq

/-- The iterators are positions in the configured values, the end being their number. -/
structure MetadataChangeTrigger where
  key : String
  values : List String
  info : List (String × String)
  lastSeen : ℕ
  issued : ℕ
  /-- The events sent so far. -/
  sent : List MetadataChange := []

namespace MetadataChangeTrigger

def make (key : String) (values : List String) (info : List (String × String)) :
    MetadataChangeTrigger where
  key
  values
  info
  lastSeen := values.length
  issued := values.length

def event (key : String) (info : List (String × String)) (value : String) : MetadataChange where
  info
  metadata := [(key, value)]

section

variable (t : MetadataChangeTrigger)

def inValues (it : ℕ) : Bool := it ≠ t.values.length

def issueEvent (it : ℕ) : Outcome MetadataChangeTrigger :=
  match t.values[it]? with
  | none => { state := t, exception := some (.assertionFailed "it != values_.end()") }
  | some value => { state := { t with sent := t.sent ++ [event t.key t.info value] } }

theorem issueEvent_of_lt {it : ℕ} (h : it < t.values.length) :
    t.issueEvent it =
      { state := { t with sent := t.sent ++ [event t.key t.info t.values[it]] } } := by
  rw [issueEvent, List.getElem?_eq_getElem h]

theorem issueEvent_of_ge {it : ℕ} (h : t.values.length ≤ it) :
    t.issueEvent it =
      { state := t, exception := some (.assertionFailed "it != values_.end()") } := by
  rw [issueEvent, List.getElem?_eq_none h]

theorem lt_of_issueEvent {it : ℕ} (h : (t.issueEvent it).exception = none) :
    it < t.values.length := by
  by_contra hge
  rw [issueEvent_of_ge t (not_lt.mp hge)] at h
  cases h

theorem issueEvent_state (it : ℕ) :
    ∃ sent, (t.issueEvent it).state = { t with sent := sent } := by
  unfold issueEvent
  split
  · exact ⟨_, rfl⟩
  · exact ⟨_, rfl⟩

/-- `++issued_` and the event for it. -/
def issueNext : Outcome MetadataChangeTrigger :=
  { t with issued := t.issued + 1 }.issueEvent (t.issued + 1)

/-- The loop of `updateEventsIssued`. -/
def catchUp (t : MetadataChangeTrigger) : Outcome MetadataChangeTrigger :=
  if t.issued = t.lastSeen then { state := t }
  else
    if _ : t.issueNext.exception = none then catchUp t.issueNext.state
    else t.issueNext
termination_by t.values.length - t.issued
decreasing_by
  rename_i h
  have hlt := lt_of_issueEvent _ h
  obtain ⟨sent, hstate⟩ := issueEvent_state { t with issued := t.issued + 1 } (t.issued + 1)
  rw [issueNext, hstate]
  change t.values.length - (t.issued + 1) < _
  change t.issued + 1 < t.values.length at hlt
  omega

def updateEventsIssued : Outcome MetadataChangeTrigger :=
  let x : Outcome MetadataChangeTrigger :=
    -- nothing is issued yet
    if t.issued = t.values.length ∧ t.lastSeen ≠ t.values.length then
      { t with issued := 0 }.issueEvent 0
    else { state := t }
  x.andThen catchUp

/-- What a message carries under each key. -/
abbrev Message : Type := String → String

/-- `std::find`: the end, if there is no such value. -/
def now (msg : Message) : ℕ := t.values.idxOf (msg t.key)

def trigger (msg : Message) : Outcome MetadataChangeTrigger :=
  let now := t.now msg
  let t := if t.lastSeen = t.values.length ∧ t.inValues now then { t with lastSeen := now } else t
  if t.lastSeen = now then { state := t }
  else
    t.updateEventsIssued.andThen fun t =>
      { state := if t.inValues now then { t with lastSeen := now } else t }

end

def run (t : MetadataChangeTrigger) : List Message → Outcome MetadataChangeTrigger
  | [] => { state := t }
  | msg :: msgs => (t.trigger msg).andThen (·.run msgs)

def lifetime (t : MetadataChangeTrigger) (msgs : List Message) : Outcome MetadataChangeTrigger :=
  (t.run msgs).andThen updateEventsIssued

/-- The iterator behind the first `n` values, which is the end before there is any. -/
def behind (values : List String) (n : ℕ) : ℕ := if n = 0 then values.length else n - 1

theorem behind_zero (values : List String) : behind values 0 = values.length := rfl

theorem behind_succ (values : List String) (n : ℕ) : behind values (n + 1) = n := rfl

theorem behind_inj {values : List String} {m n : ℕ} (hm : m ≤ values.length)
    (hn : n ≤ values.length) : behind values m = behind values n ↔ m = n := by
  unfold behind
  split_ifs <;> omega

/-- The events for the first `n` values. -/
def eventsUpTo (key : String) (info : List (String × String)) (values : List String) (n : ℕ) :
    List MetadataChange :=
  (values.take n).map (event key info)

/-- The trigger has seen the first `seen` values and issued the events of `done` of them. -/
structure Reached (key : String) (info : List (String × String)) (values : List String)
    (seen done : ℕ) (t : MetadataChangeTrigger) : Prop where
  key_eq : t.key = key
  values_eq : t.values = values
  info_eq : t.info = info
  lastSeen_eq : t.lastSeen = behind values seen
  issued_eq : t.issued = behind values done
  sent_eq : t.sent = eventsUpTo key info values done
  seen_le : seen ≤ values.length
  done_le : done ≤ seen

section

variable {key : String} {info : List (String × String)} {values : List String} {seen done : ℕ}
  {t : MetadataChangeTrigger}

theorem eventsUpTo_succ {n : ℕ} (h : n < values.length) :
    eventsUpTo key info values (n + 1) =
      eventsUpTo key info values n ++ [event key info values[n]] := by
  rw [eventsUpTo, List.take_succ_eq_append_getElem h, List.map_append]
  rfl

theorem Reached.issueEvent (h : Reached key info values seen done t) (hlt : done < seen) :
    ∃ t', ({ t with issued := done }.issueEvent done).Returns t' ∧
      Reached key info values seen (done + 1) t' := by
  obtain ⟨rfl, rfl, rfl, hlast, -, hsent, hseen, -⟩ := h
  have hdone : done < t.values.length := lt_of_lt_of_le hlt hseen
  refine ⟨_, issueEvent_of_lt { t with issued := done } hdone, rfl, rfl, rfl, hlast, rfl, ?_, hseen,
    hlt⟩
  rw [eventsUpTo_succ hdone, ← hsent]

theorem Reached.catchUp (h : Reached key info values seen (done + 1) t) :
    ∃ t', t.catchUp.Returns t' ∧ Reached key info values seen seen t' := by
  -- on the number of events that are missing
  induction hn : seen - (done + 1) generalizing t done with
  | zero =>
    have hdone := h.done_le
    obtain rfl : seen = done + 1 := by omega
    refine ⟨t, ?_, h⟩
    rw [MetadataChangeTrigger.catchUp, if_pos (h.issued_eq.trans h.lastSeen_eq.symm)]
    rfl
  | succ n ih =>
    have hissued : t.issued = done := h.issued_eq
    have hlast : t.lastSeen = seen - 1 := h.lastSeen_eq.trans (if_neg (by omega))
    obtain ⟨t', hnext, h'⟩ := h.issueEvent (by omega)
    have hnext : t.issueNext = { state := t' } := by
      rw [issueNext, hissued]
      exact hnext
    obtain ⟨t'', hrest, h''⟩ := ih h' (by omega)
    refine ⟨t'', ?_, h''⟩
    rw [MetadataChangeTrigger.catchUp, if_neg (by omega), hnext, dif_pos rfl]
    exact hrest

theorem Reached.updateEventsIssued (h : Reached key info values seen done t) :
    ∃ t', t.updateEventsIssued.Returns t' ∧ Reached key info values seen seen t' := by
  cases done with
  | zero =>
    have hissued : t.issued = t.values.length := by rw [h.issued_eq, h.values_eq]; rfl
    obtain rfl | hseen := Nat.eq_zero_or_pos seen
    · -- nothing to issue
      have hlast : t.lastSeen = t.values.length := by rw [h.lastSeen_eq, h.values_eq]; rfl
      refine ⟨t, ?_, h⟩
      rw [MetadataChangeTrigger.updateEventsIssued, if_neg (fun hand => hand.2 hlast),
        Outcome.andThen_of_none rfl, MetadataChangeTrigger.catchUp,
        if_pos (hissued.trans hlast.symm)]
      rfl
    · have hlast : t.lastSeen ≠ t.values.length := by
        have hle := h.seen_le
        rw [h.lastSeen_eq, h.values_eq, behind, if_neg (by omega)]
        omega
      obtain ⟨t', hfirst, h'⟩ := h.issueEvent hseen
      obtain ⟨t'', hrest, h''⟩ := h'.catchUp
      refine ⟨t'', ?_, h''⟩
      rw [MetadataChangeTrigger.updateEventsIssued, if_pos ⟨hissued, hlast⟩,
        Outcome.andThen_returns_iff]
      exact ⟨t', hfirst, hrest⟩
  | succ done =>
    have hissued : t.issued ≠ t.values.length := by
      have hle := h.seen_le
      have hdone := h.done_le
      rw [h.issued_eq, h.values_eq, behind_succ]
      omega
    rw [MetadataChangeTrigger.updateEventsIssued, if_neg (fun hand => hissued hand.1),
      Outcome.andThen_of_none rfl]
    exact h.catchUp

end

/-- The number of values up to that of a message; none, if it has no configured value. -/
def reach (key : String) (values : List String) (msg : Message) : ℕ :=
  if values.idxOf (msg key) = values.length then 0 else values.idxOf (msg key) + 1

/-- The number of values up to the furthest one that the messages had. -/
def furthest (key : String) (values : List String) : List Message → ℕ
  | [] => 0
  | msg :: msgs => max (reach key values msg) (furthest key values msgs)

section

variable {key : String} {info : List (String × String)} {values : List String} {seen done : ℕ}
  {t : MetadataChangeTrigger}

theorem reach_le (key : String) (values : List String) (msg : Message) :
    reach key values msg ≤ values.length := by
  have := List.idxOf_le_length (a := msg key) (l := values)
  unfold reach
  split
  · exact Nat.zero_le _
  · omega

theorem Reached.now_eq (h : Reached key info values seen done t) (msg : Message) :
    t.now msg = behind values (reach key values msg) := by
  rw [now, h.key_eq, h.values_eq]
  unfold reach behind
  split
  · next heq => simpa using heq
  · simp

theorem Reached.inValues_eq (h : Reached key info values seen done t) {n : ℕ}
    (hn : n ≤ values.length) : t.inValues (behind values n) = decide (n ≠ 0) := by
  rw [inValues, h.values_eq, ← behind_zero values]
  exact decide_eq_decide.mpr (not_congr (behind_inj hn (Nat.zero_le _)))

theorem Reached.see (h : Reached key info values seen done t) {n : ℕ} (hseen : seen ≤ n)
    (hn : n ≤ values.length) :
    Reached key info values n done { t with lastSeen := behind values n } :=
  { h with lastSeen_eq := rfl, seen_le := hn, done_le := h.done_le.trans hseen }

theorem Reached.initial (h : Reached key info values seen done t) {n : ℕ} (hn : n ≤ values.length) :
    (if t.lastSeen = t.values.length ∧ t.inValues (behind values n) then
        { t with lastSeen := behind values n } else t) =
      if seen = 0 ∧ n ≠ 0 then { t with lastSeen := behind values n } else t := by
  have hlast : t.lastSeen = t.values.length ↔ seen = 0 := by
    rw [h.lastSeen_eq, h.values_eq, ← behind_zero values]
    exact behind_inj h.seen_le (Nat.zero_le _)
  rw [h.inValues_eq hn]
  simp only [hlast, decide_eq_true_eq]

/-- A message with no configured value, or with one that is not before the furthest. -/
theorem Reached.trigger (h : Reached key info values seen done t) {msg : Message}
    (hmsg : reach key values msg = 0 ∨ seen ≤ reach key values msg) :
    ∃ t' done', (t.trigger msg).Returns t' ∧
      Reached key info values (max seen (reach key values msg)) done' t' := by
  have hn := reach_le key values msg
  generalize hr : reach key values msg = n at hmsg hn
  rw [MetadataChangeTrigger.trigger, h.now_eq, hr, h.initial hn]
  by_cases hfirst : seen = 0 ∧ n ≠ 0
  · -- the first configured value
    rw [if_pos hfirst, if_pos rfl]
    exact ⟨_, done, rfl, hfirst.1 ▸ Nat.zero_max n ▸ h.see (by omega) hn⟩
  · have hlast : t.lastSeen = behind values n ↔ seen = n := by
      rw [h.lastSeen_eq]
      exact behind_inj h.seen_le hn
    rw [if_neg hfirst]
    by_cases hsame : seen = n
    · rw [if_pos (hlast.mpr hsame)]
      exact ⟨t, done, rfl, hsame ▸ (max_self seen).symm ▸ h⟩
    · obtain ⟨t', hupdate, h'⟩ := h.updateEventsIssued
      rw [if_neg (fun heq => hsame (hlast.mp heq)), hupdate.andThen, h'.inValues_eq hn]
      by_cases hzero : n = 0
      · subst hzero
        exact ⟨t', seen, rfl, (Nat.max_zero seen).symm ▸ h'⟩
      · have hlt : seen ≤ n := by omega
        refine ⟨{ t' with lastSeen := behind values n }, seen, ?_, ?_⟩
        · rw [decide_eq_true hzero]
          rfl
        · rw [max_eq_right hlt]
          exact h'.see hlt hn

def Overtaken (t : MetadataChangeTrigger) : Prop :=
  t.lastSeen < t.issued ∧ t.issued < t.values.length

theorem Overtaken.catchUp (h : Overtaken t) : t.catchUp.exception ≠ none := by
  fun_induction MetadataChangeTrigger.catchUp t with
  | case1 t heq => exact absurd heq h.1.ne'
  | case2 t hne hnext ih =>
    have hlt := lt_of_issueEvent _ hnext
    obtain ⟨sent, hstate⟩ := issueEvent_state { t with issued := t.issued + 1 } (t.issued + 1)
    rw [issueNext, hstate] at ih ⊢
    exact ih ⟨h.1.trans (Nat.lt_succ_self _), hlt⟩
  | case3 t hne hnext => exact hnext

theorem Overtaken.updateEventsIssued (h : Overtaken t) :
    t.updateEventsIssued.exception ≠ none := by
  rw [MetadataChangeTrigger.updateEventsIssued, if_neg (fun hand => h.2.ne hand.1)]
  exact h.catchUp

theorem Overtaken.trigger (h : Overtaken t) (msg : Message) :
    t.trigger msg = { state := t } ∨ (t.trigger msg).exception ≠ none := by
  have hinitial : (if t.lastSeen = t.values.length ∧ t.inValues (t.now msg) then
      { t with lastSeen := t.now msg } else t) = t :=
    if_neg fun hand => (h.1.trans h.2).ne hand.1
  rw [MetadataChangeTrigger.trigger, hinitial]
  by_cases hsame : t.lastSeen = t.now msg
  · exact .inl (if_pos hsame)
  · rw [if_neg hsame, Outcome.andThen_of_ne_none h.updateEventsIssued]
    exact .inr h.updateEventsIssued

theorem Overtaken.lifetime (h : Overtaken t) (msgs : List Message) :
    (t.lifetime msgs).exception ≠ none := by
  induction msgs with
  | nil => exact h.updateEventsIssued
  | cons msg msgs ih =>
    rw [MetadataChangeTrigger.lifetime, run]
    obtain hsame | hthrows := h.trigger msg
    · rw [hsame]
      exact ih
    · rw [Outcome.andThen_of_ne_none hthrows, Outcome.andThen_of_ne_none hthrows]
      exact hthrows

theorem Reached.overtaken (h : Reached key info values seen done t) {msg : Message}
    (hpos : 0 < reach key values msg) (hlt : reach key values msg < seen) :
    ∃ t', (t.trigger msg).Returns t' ∧ Overtaken t' := by
  have hn := reach_le key values msg
  obtain ⟨t', hupdate, h'⟩ := h.updateEventsIssued
  have hinitial : ¬ (seen = 0 ∧ reach key values msg ≠ 0) := by omega
  rw [MetadataChangeTrigger.trigger, h.now_eq, h.initial hn, if_neg hinitial]
  have hlast : ¬ t.lastSeen = behind values (reach key values msg) := by
    rw [h.lastSeen_eq, behind_inj h.seen_le hn]
    omega
  rw [if_neg hlast, hupdate.andThen, h'.inValues_eq hn, decide_eq_true hpos.ne', if_pos rfl]
  refine ⟨_, rfl, ?_, ?_⟩
  · change behind values _ < t'.issued
    rw [h'.issued_eq]
    unfold behind
    split_ifs <;> omega
  · change t'.issued < t'.values.length
    have := h'.seen_le
    rw [h'.issued_eq, h'.values_eq]
    unfold behind
    split_ifs <;> omega

end

/-- The positions of the configured values among those of the messages. -/
def configuredPositions (key : String) (values : List String) (msgs : List Message) : List ℕ :=
  (msgs.map fun msg => values.idxOf (msg key)).filter (· < values.length)

/-- No event is issued twice, out of order or before its value, all of them are issued in the end,
and the assertion holds. -/
structure IssuesInOrder (key : String) (info : List (String × String)) (values : List String)
    (msgs : List Message) : Prop where
  run : ∀ pre post, msgs = pre ++ post →
    ∃ t, ((make key values info).run pre).Returns t ∧ t.sent.Nodup ∧
      t.sent <+: eventsUpTo key info values (furthest key values pre)
  lifetime : ∃ t, ((make key values info).lifetime msgs).Returns t ∧
    t.sent = eventsUpTo key info values (furthest key values msgs)

section

variable {key : String} {info : List (String × String)} {values : List String} {seen done : ℕ}
  {t : MetadataChangeTrigger}

theorem Reached.make (key : String) (info : List (String × String)) (values : List String) :
    Reached key info values 0 0 (make key values info) :=
  ⟨rfl, rfl, rfl, rfl, rfl, rfl, Nat.zero_le _, le_rfl⟩

/-- Messages whose configured values do not go back, from the furthest value on. -/
def Ahead (key : String) (values : List String) : ℕ → List Message → Prop
  | _, [] => True
  | seen, msg :: msgs =>
    (reach key values msg = 0 ∨ seen ≤ reach key values msg) ∧
      Ahead key values (max seen (reach key values msg)) msgs

theorem Reached.run (h : Reached key info values seen done t) {msgs : List Message}
    (hmsgs : Ahead key values seen msgs) :
    ∃ t' done', (t.run msgs).Returns t' ∧
      Reached key info values (max seen (furthest key values msgs)) done' t' := by
  induction msgs generalizing t seen done with
  | nil => exact ⟨t, done, rfl, (Nat.max_zero seen).symm ▸ h⟩
  | cons msg msgs ih =>
    obtain ⟨t', done', htrigger, h'⟩ := h.trigger hmsgs.1
    obtain ⟨t'', done'', hrun, h''⟩ := ih h' hmsgs.2
    refine ⟨t'', done'', Outcome.andThen_returns_iff.mpr ⟨t', htrigger, hrun⟩, ?_⟩
    rwa [furthest, ← Nat.max_assoc]

/-- A life without an exception sees no value before one that it has seen. -/
theorem Reached.ahead (h : Reached key info values seen done t) {msgs : List Message}
    (hlife : (t.lifetime msgs).exception = none) : Ahead key values seen msgs := by
  induction msgs generalizing t seen done with
  | nil => trivial
  | cons msg msgs ih =>
    rw [MetadataChangeTrigger.lifetime, MetadataChangeTrigger.run] at hlife
    by_cases hmsg : reach key values msg = 0 ∨ seen ≤ reach key values msg
    · obtain ⟨t', done', htrigger, h'⟩ := h.trigger hmsg
      rw [htrigger.andThen] at hlife
      exact ⟨hmsg, ih h' hlife⟩
    · have hpos : 0 < reach key values msg := by omega
      obtain ⟨t', htrigger, h'⟩ := h.overtaken hpos (by omega)
      rw [htrigger.andThen] at hlife
      exact absurd hlife (h'.lifetime msgs)

theorem configuredPositions_cons (msg : Message) (msgs : List Message) :
    configuredPositions key values (msg :: msgs) =
      if values.idxOf (msg key) < values.length then
        values.idxOf (msg key) :: configuredPositions key values msgs
      else configuredPositions key values msgs := by
  rw [configuredPositions, List.map_cons, List.filter_cons]
  simp only [decide_eq_true_eq]
  rfl

theorem ahead_iff (msgs : List Message) (seen : ℕ) :
    Ahead key values seen msgs ↔
      (∀ p ∈ configuredPositions key values msgs, seen ≤ p + 1) ∧
        (configuredPositions key values msgs).Pairwise (· ≤ ·) := by
  induction msgs generalizing seen with
  | nil => simp [Ahead, configuredPositions]
  | cons msg msgs ih =>
    have hle := List.idxOf_le_length (a := msg key) (l := values)
    rw [Ahead, ih, configuredPositions_cons]
    by_cases hlt : values.idxOf (msg key) < values.length
    · rw [if_pos hlt, reach, if_neg hlt.ne, List.forall_mem_cons, List.pairwise_cons]
      constructor
      · rintro ⟨hmsg, hrest, hpairs⟩
        refine ⟨⟨by omega, fun p hp => ?_⟩, fun p hp => ?_, hpairs⟩
        · have := hrest p hp
          omega
        · have := hrest p hp
          omega
      · rintro ⟨⟨hmsg, hrest⟩, hfirst, hpairs⟩
        refine ⟨.inr hmsg, fun p hp => ?_, hpairs⟩
        have := hrest p hp
        have := hfirst p hp
        omega
    · have heq : values.idxOf (msg key) = values.length := by omega
      rw [if_neg hlt, reach, if_pos heq, Nat.max_zero]
      exact and_iff_right (.inl rfl)

theorem configuredPositions_append (pre post : List Message) :
    configuredPositions key values (pre ++ post) =
      configuredPositions key values pre ++ configuredPositions key values post := by
  rw [configuredPositions, List.map_append, List.filter_append]
  rfl

theorem nodup_eventsUpTo (hvalues : values.Nodup) (n : ℕ) :
    (eventsUpTo key info values n).Nodup := by
  apply List.Nodup.map
  · intro v w h
    simpa [event] using h
  · exact hvalues.sublist (List.take_sublist n values)

theorem eventsUpTo_prefix {m n : ℕ} (h : m ≤ n) :
    eventsUpTo key info values m <+: eventsUpTo key info values n :=
  (List.take_prefix_take_left h).map _

/-- The events are issued in order exactly if no configured value follows a later one. -/
theorem metadataChange_iff (key : String) (info : List (String × String)) (values : List String)
    (msgs : List Message) (hdistinct : values.Nodup) :
    IssuesInOrder key info values msgs ↔
      (configuredPositions key values msgs).Pairwise (· ≤ ·) := by
  have hmake := Reached.make key info values
  constructor
  · intro h
    obtain ⟨t, hlife, -⟩ := h.lifetime
    exact ((ahead_iff msgs 0).mp (hmake.ahead (Outcome.returns_iff.mp hlife).1)).2
  · intro hpairs
    have hrun (pre post : List Message) (hmsgs : msgs = pre ++ post) :
        ∃ t done, ((make key values info).run pre).Returns t ∧
          Reached key info values (furthest key values pre) done t := by
      rw [hmsgs, configuredPositions_append, List.pairwise_append] at hpairs
      have := hmake.run ((ahead_iff pre 0).mpr ⟨fun _ _ => Nat.zero_le _, hpairs.1⟩)
      rwa [Nat.zero_max] at this
    constructor
    · intro pre post hmsgs
      obtain ⟨t, done, hpre, ht⟩ := hrun pre post hmsgs
      refine ⟨t, hpre, ?_, ?_⟩
      · rw [ht.sent_eq]
        exact nodup_eventsUpTo hdistinct done
      · rw [ht.sent_eq]
        exact eventsUpTo_prefix ht.done_le
    · obtain ⟨t, done, hmsgs, ht⟩ := hrun msgs [] (List.append_nil msgs).symm
      obtain ⟨t', hupdate, ht'⟩ := ht.updateEventsIssued
      exact ⟨t', Outcome.andThen_returns_iff.mpr ⟨t, hmsgs, hupdate⟩, ht'.sent_eq⟩

/-- Two values in the configured order. -/
theorem metadataChange_two :
    ["1", "2"].Nodup ∧ IssuesInOrder "step" [] ["1", "2"] [fun _ => "1", fun _ => "2"] :=
  ⟨by decide, (metadataChange_iff "step" [] ["1", "2"] [fun _ => "1", fun _ => "2"]
    (by decide)).mpr (by decide)⟩

/-- A value that comes after a later one makes the assertion fail, here in the destructor. -/
theorem metadataChange_back :
    ["1", "2"].Nodup ∧ ¬ IssuesInOrder "step" [] ["1", "2"] [fun _ => "2", fun _ => "1"] ∧
      ((make "step" ["1", "2"] []).lifetime [fun _ => "2", fun _ => "1"]).exception ≠ none := by
  have hback : ((make "step" ["1", "2"] []).lifetime [fun _ => "2", fun _ => "1"]).exception ≠
      none := by
    intro hlife
    have hpairs := ((ahead_iff _ 0).mp ((Reached.make "step" [] ["1", "2"]).ahead hlife)).2
    exact absurd hpairs (by decide)
  refine ⟨by decide, fun h => ?_, hback⟩
  obtain ⟨t, hlife, -⟩ := h.lifetime
  exact hback (Outcome.returns_iff.mp hlife).1

end

end MetadataChangeTrigger
end Multio.Sink
