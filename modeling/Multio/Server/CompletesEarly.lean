import Multio.Server.DomainsInFlight

namespace Multio.Server
open Multio.Action Lib Exception

variable (ctx : DispatchContext) (D : Deployment)

/-- After `pre`, each field all clients have sent their part of has gone out once and left nothing
behind, and no other field has gone out. -/
def AggregatedOnce (pre : List Message) : Prop :=
  ∃ s outs, dispatch ctx {} pre = .ok (s, outs) ∧ ∀ fid ∈ D.fields,
    (outputs ctx.toContext fid pre outs).length =
      (if senders ctx.toContext fid pre = D.clients then 1 else 0) ∧
    (senders ctx.toContext fid pre = D.clients →
      s.aggregate.aggCatalogue.messageMap.find? fid = none ∧
        s.aggregate.aggCatalogue.processedParts.find? fid = none)

variable {ctx D}

theorem eventsOf_eq_append {ms : List Message} {es es' : List (Message × Option (Finset Peer))}
    {e : Message × Option (Finset Peer)} (h : eventsOf D ms = es ++ e :: es') :
    ∃ pre m post, ms = pre ++ m :: post ∧ m.tag = .field ∧ e = (m, goal D pre) ∧
      eventsOf D pre = es := by
  induction ms using List.reverseRecOn generalizing es' with
  | nil => simp [eventsOf, events] at h
  | append_singleton ms m ih =>
    have extend {es' : List (Message × Option (Finset Peer))}
        (h : eventsOf D ms = es ++ e :: es') : ∃ pre m' post, ms ++ [m] = pre ++ m' :: post ∧
          m'.tag = .field ∧ e = (m', goal D pre) ∧ eventsOf D pre = es := by
      obtain ⟨pre, m', post, rfl, hrest⟩ := ih h
      exact ⟨pre, m', post ++ [m], by simp, hrest⟩
    by_cases htag : m.tag = .field
    · rw [eventsOf_append_field htag] at h
      rcases List.eq_nil_or_concat es' with rfl | ⟨es'', e', rfl⟩
      · obtain ⟨hes, he⟩ := List.append_inj' h rfl
        exact ⟨ms, m, [], rfl, htag, (List.singleton_inj.mp he).symm, hes⟩
      · have h' : eventsOf D ms ++ [(m, goal D ms)] = (es ++ e :: es'') ++ [e'] := by
          simpa using h
        exact extend (List.append_inj' h' rfl).1
    · rw [eventsOf_append_of_ne htag] at h
      exact extend h

theorem gathered_eq_nil_iff {fid : String} {es : List (Message × Option (Finset Peer))} :
    gathered ctx D fid es = [] ↔ (parts ctx D).Silent fid (fun _ => none) es := by
  rw [gathered, List.flatMap_eq_nil_iff, Gather.Silent]
  constructor
  · intro h p hp hk
    exact Option.toList_eq_nil_iff.mp (h p (List.mem_filter.mpr ⟨hp, decide_eq_true hk⟩))
  · intro h p hp
    obtain ⟨hmem, hk⟩ := List.mem_filter.mp hp
    rw [h p hmem (of_decide_eq_true hk)]
    rfl

theorem senders_append_of_ne {fid : String} {ms : List Message} {m : Message}
    (h : ¬ (m.tag = .field ∧ m.fieldId ctx.toContext = fid)) :
    senders ctx.toContext fid (ms ++ [m]) = senders ctx.toContext fid ms := by
  rw [senders_append]
  simp [senders, h]

theorem registered_append_field {ms : List Message} {m : Message} (h : m.tag = .field) :
    registered (ms ++ [m]) = registered ms := by
  rw [registered_append]
  simp [registered, h]

theorem goal_eq_some_iff {pre : List Message} {ps : Finset Peer} :
    goal D pre = some ps ↔ D.points (registered pre) = D.size ∧ registered pre = ps := by
  unfold goal
  split_ifs with h
  · simp [h]
  · simp [h]

/-- A step that is not early and asks for the peers heard of has heard of all clients. -/
theorem senders_eq_clients_of_goal {pre : List Message} {m : Message} (htag : m.tag = .field)
    (hearly : ¬ CompletesEarly ctx D pre m)
    (hgoal : goal D pre = some (senders ctx.toContext (m.fieldId ctx.toContext) (pre ++ [m]))) :
    senders ctx.toContext (m.fieldId ctx.toContext) (pre ++ [m]) = D.clients := by
  obtain ⟨hpoints, hreg⟩ := goal_eq_some_iff.mp hgoal
  by_contra hne
  apply hearly
  exact ⟨htag, hreg ▸ hne, hpoints, hreg.symm⟩

section Interleaved

variable {T : List Message}

/-- Until all clients have sent their part of a field, the field does not go out. -/
theorem silent_of_ne_clients (hT : Interleaving ctx D T) {pre post : List Message}
    (heq : T = pre ++ post)
    (hearly : ∀ l m r, T = l ++ m :: r → ¬ CompletesEarly ctx D l m) {fid : String}
    (hne : senders ctx.toContext fid pre ≠ D.clients) :
    (parts ctx D).Silent fid (fun _ => none) (eventsOf D pre) := by
  apply Gather.Unfinished.silent (parts ctx D) rfl
  intro es e es' hes hkey hgoal
  obtain ⟨l, m, r, rfl, htag, rfl, rfl⟩ := eventsOf_eq_append hes
  have hfid : m.fieldId ctx.toContext = fid := hkey
  have hearlier := hearly l m (r ++ post) (by rw [heq]; simp)
  rw [← eventsOf_append_field htag, peers_eventsOf, ← hfid] at hgoal
  have hall := senders_eq_clients_of_goal htag hearlier hgoal
  apply hne
  apply Finset.Subset.antisymm
  · exact (hT.senders_subset heq fid).trans (hT.registered_subset heq)
  · rw [← hall, hfid, List.append_cons l m r, senders_append _ _ (l ++ [m])]
    exact Finset.subset_union_left

/-- A part that reaches the goal of its field before the field has gone out is given out with all
that is pending. -/
theorem step_of_goal {pre : List Message} {m : Message} (htag : m.tag = .field)
    (hsilent : (parts ctx D).Silent (m.fieldId ctx.toContext) (fun _ => none) (eventsOf D pre))
    (hgoal : goal D pre = some (senders ctx.toContext (m.fieldId ctx.toContext) (pre ++ [m]))) :
    ((parts ctx D).run (fun _ => none) (eventsOf D (pre ++ [m]))).1 (m.fieldId ctx.toContext) =
        none ∧
      ∃ out, gathered ctx D (m.fieldId ctx.toContext) (eventsOf D (pre ++ [m])) = [out] := by
  have hgoal' : (parts ctx D).goal (m, goal D pre) =
      some ((parts ctx D).peers (m.fieldId ctx.toContext)
        (eventsOf D pre ++ [(m, goal D pre)])) := by
    rw [← eventsOf_append_field htag, peers_eventsOf]
    exact hgoal
  have hkey : (parts ctx D).key (m, goal D pre) = m.fieldId ctx.toContext := rfl
  obtain ⟨hgone, a, -, hout⟩ := (parts ctx D).run_finishing rfl hsilent hkey hgoal'
  rw [eventsOf_append_field htag]
  constructor
  · rw [Gather.run_append]
    exact hgone
  · rw [gathered_append, if_pos hkey, hout, gathered_eq_nil_iff.mpr hsilent]
    exact ⟨_, rfl⟩

/-- Once all clients have sent their part of a field, it has gone out once and is gone. -/
theorem gathered_of_eq_clients (hD : D.WellFormed) (hT : Interleaving ctx D T)
    (hearly : ∀ l m r, T = l ++ m :: r → ¬ CompletesEarly ctx D l m) {fid : String}
    (pre post : List Message) (heq : T = pre ++ post)
    (hall : senders ctx.toContext fid pre = D.clients) :
    ((parts ctx D).run (fun _ => none) (eventsOf D pre)).1 fid = none ∧
      ∃ out, gathered ctx D fid (eventsOf D pre) = [out] := by
  induction pre using List.reverseRecOn generalizing post with
  | nil =>
    obtain ⟨p, hp⟩ := hD.nonempty
    rw [← hall] at hp
    cases hp
  | append_singleton pre m ih =>
    have heq' : T = pre ++ m :: post := by rw [heq]; simp
    -- the last message of the field completes it; the others do not change what was given out
    by_cases hm : m.tag = .field ∧ m.fieldId ctx.toContext = fid
    · obtain ⟨htag, rfl⟩ := hm
      have hmissing : m.source ∉ senders ctx.toContext (m.fieldId ctx.toContext) pre := by
        rcases hT.next heq' with h | h
        · rw [h.1.tag] at htag
          cases htag
        · exact h.2.2
      have hreg : registered pre = D.clients := by
        apply Finset.Subset.antisymm (hT.registered_subset heq')
        rw [← hall, ← registered_append_field htag]
        exact hT.senders_subset heq _
      apply step_of_goal htag
      · apply silent_of_ne_clients hT heq' hearly
        intro hpre
        rw [hpre] at hmissing
        exact hmissing (hT.source_mem m (by rw [heq']; simp))
      · rw [hall, goal_eq_some_iff, hreg]
        exact ⟨hD.points_clients, rfl⟩
    · rw [senders_append_of_ne hm] at hall
      obtain ⟨hgone, out, hout⟩ := ih (m :: post) heq' hall
      by_cases htag : m.tag = .field
      · have hkey : (parts ctx D).key (m, goal D pre) ≠ fid := fun h => hm ⟨htag, h⟩
        rw [eventsOf_append_field htag, gathered_append, if_neg hkey, List.append_nil,
          Gather.run_append]
        refine ⟨?_, out, hout⟩
        exact ((parts ctx D).step_of_ne _ _ (Ne.symm hkey)).trans hgone
      · rw [eventsOf_append_of_ne htag]
        exact ⟨hgone, out, hout⟩

theorem aggregatedOnce_iff (hD : D.WellFormed) (hT : Interleaving ctx D T)
    {pre post : List Message} (heq : T = pre ++ post) :
    AggregatedOnce ctx D pre ↔ ∀ fid ∈ D.fields,
      (gathered ctx D fid (eventsOf D pre)).length =
        (if senders ctx.toContext fid pre = D.clients then 1 else 0) ∧
      (senders ctx.toContext fid pre = D.clients →
        ((parts ctx D).run (fun _ => none) (eventsOf D pre)).1 fid = none) := by
  obtain ⟨s, outs, hrun, hinv⟩ := hT.dispatch_prefix hD pre post heq
  have hgone : ∀ fid, ((parts ctx D).run (fun _ => none) (eventsOf D pre)).1 fid = none ↔
      s.aggregate.aggCatalogue.messageMap.find? fid = none ∧
        s.aggregate.aggCatalogue.processedParts.find? fid = none := by
    intro fid
    rw [← hinv.pending]
    constructor
    · exact hinv.catalogue.synced.pending_eq_none
    · intro h
      rw [AggregationCatalogue.pending, h.1]
  constructor
  · rintro ⟨s', outs', hrun', h⟩
    obtain ⟨rfl, rfl⟩ := Prod.mk.inj (Except.ok.inj (hrun.symm.trans hrun'))
    intro fid hfid
    rw [← hinv.outputs_eq, hgone]
    exact h fid hfid
  · intro h
    refine ⟨s, outs, hrun, ?_⟩
    intro fid hfid
    rw [hinv.outputs_eq, ← hgone]
    exact h fid hfid

/-- A field that completes early goes out before all clients have sent their part. -/
theorem CompletesEarly.gathered {pre : List Message} {m : Message} (h : CompletesEarly ctx D pre m)
    (hsilent : gathered ctx D (m.fieldId ctx.toContext) (eventsOf D pre) = []) :
    senders ctx.toContext (m.fieldId ctx.toContext) (pre ++ [m]) ≠ D.clients ∧
      ∃ out, gathered ctx D (m.fieldId ctx.toContext) (eventsOf D (pre ++ [m])) = [out] := by
  obtain ⟨htag, hne, hpoints, hsenders⟩ := h
  refine ⟨hsenders ▸ hne, ?_⟩
  have hgoal : goal D pre =
      some (senders ctx.toContext (m.fieldId ctx.toContext) (pre ++ [m])) :=
    goal_eq_some_iff.mpr ⟨hpoints, hsenders.symm⟩
  exact (step_of_goal htag (gathered_eq_nil_iff.mp hsilent) hgoal).2

/-- Every field is aggregated exactly once, when the parts of all clients have arrived, and leaves
no entry behind, if and only if no field completes early. -/
theorem aggregated_once_iff (ctx : DispatchContext) (D : Deployment) (hD : D.WellFormed)
    (T : List Message) (hT : Interleaving ctx D T) :
    (∀ pre post, T = pre ++ post → AggregatedOnce ctx D pre) ↔
      ∀ pre m post, T = pre ++ m :: post → ¬ CompletesEarly ctx D pre m := by
  constructor
  · intro h pre m post heq hearly
    have heq' : T = (pre ++ [m]) ++ post := by rw [heq]; simp
    have hfield : IsFieldMessage ctx D m ∧ m.source ∈ registered pre ∧
        m.source ∉ senders ctx.toContext (m.fieldId ctx.toContext) pre := by
      rcases hT.next heq with hd | hf
      · have htag := hearly.1
        rw [hd.1.tag] at htag
        cases htag
      · exact hf
    have hbefore := ((aggregatedOnce_iff hD hT heq).mp (h _ _ heq) _ hfield.1.field).1
    rw [if_neg] at hbefore
    · obtain ⟨hne, out, hout⟩ := hearly.gathered (List.length_eq_zero_iff.mp hbefore)
      have hafter := ((aggregatedOnce_iff hD hT heq').mp (h _ _ heq') _ hfield.1.field).1
      rw [hout, if_neg hne] at hafter
      cases hafter
    · intro hall
      apply hfield.2.2
      rw [hall]
      exact hT.source_mem m (by rw [heq]; simp)
  · intro hearly pre post heq
    rw [aggregatedOnce_iff hD hT heq]
    intro fid _
    by_cases hall : senders ctx.toContext fid pre = D.clients
    · obtain ⟨hgone, out, hout⟩ := gathered_of_eq_clients hD hT hearly pre post heq hall
      rw [if_pos hall, hout]
      exact ⟨rfl, fun _ => hgone⟩
    · rw [if_neg hall, List.length_eq_zero_iff, gathered_eq_nil_iff]
      exact ⟨silent_of_ne_clients hT heq hearly hall, fun h => absurd h hall⟩

end Interleaved

def emptyPartContext : DispatchContext where
  parametrization := { bucketCount := 541 }
  toString _ := "f"
  memory _ _ := 0xFF
  parse _ := .error .terminate
  other s _ := .ok s

/-- The whole field is the part of peer 0; the part of peer 1 is empty. -/
def emptyPart : Deployment where
  clients := {{ group := "c", id := 0 }, { group := "c", id := 1 }}
  name := "d"
  size := 1
  dom p := if p.id = 0 then .unstructured [0] 1 else .unstructured [] 1
  precision _ := .float
  fields := {"f"}

def domainOf (i : ℕ) : Message where
  header := { tag := .domain, source := { group := "c", id := i }, destination := {},
              metadata := { bucketCount := 541,
                            nodes := [("name", .string "d"),
                                      ("representation", .string "unstructured"),
                                      ("misc-globalSize", .int64 1)] } }
  payload := if i = 0 then [0, 0, 0, 0] else []

def fieldOf (i : ℕ) : Message where
  header := { tag := .field, source := { group := "c", id := i }, destination := {},
              metadata := { bucketCount := 541,
                            nodes := [("domain", .string "d"), ("misc-precision", .string "single"),
                                      ("misc-globalSize", .int64 1)] } }
  payload := if i = 0 then [0, 0, 128, 63] else []

theorem emptyPart_wellFormed : emptyPart.WellFormed where
  nonempty := by decide
  size_lt := by decide
  inBounds p _ := by
    by_cases hp : p.id = 0
    · simp [emptyPart, hp, Domain.InBounds]
    · simp [emptyPart, hp, Domain.InBounds]
  dataCovers p _ := by
    by_cases hp : p.id = 0
    · simp [emptyPart, hp, Domain.DataCovers]
    · simp [emptyPart, hp, Domain.DataCovers]
  whole := by decide
  partition := by decide

theorem domainOf_isDomainMessage (i : ℕ) :
    IsDomainMessage emptyPartContext emptyPart (domainOf i) := by
  refine ⟨rfl, rfl, ?_⟩
  by_cases hi : i = 0
  · subst hi
    rfl
  · simp only [domainOf, hi, emptyPart, Message.source, if_false]
    rfl

theorem fieldOf_isFieldMessage (i : ℕ) :
    IsFieldMessage emptyPartContext emptyPart (fieldOf i) := by
  refine ⟨⟨rfl, rfl, rfl, rfl⟩, Finset.mem_singleton.mpr rfl, ?_⟩
  by_cases hi : i = 0
  · subst hi
    exact ⟨by simp [emptyPart, fieldOf, Message.source, Domain.InBounds, Deployment.spec],
      by decide, by decide⟩
  · refine ⟨?_, ?_, ?_⟩
    · simp [emptyPart, fieldOf, Message.source, Domain.InBounds, hi]
    · simp [emptyPart, fieldOf, Message.source, Domain.dataSize, hi]
    · simp [fieldOf, hi]

theorem emptyPart_interleaving {T : List Message}
    (hT : ∀ m ∈ T, m.source.group = "c" ∧ m.source.id < 2)
    (h₀ : T.filter (fun m => m.source = { group := "c", id := 0 }) = [domainOf 0, fieldOf 0])
    (h₁ : T.filter (fun m => m.source = { group := "c", id := 1 }) = [domainOf 1, fieldOf 1]) :
    Interleaving emptyPartContext emptyPart T := by
  have hstreams : ∀ i < 2, T.filter (fun m => m.source = { group := "c", id := i }) =
      [domainOf i, fieldOf i] := by
    intro i hi
    rcases Nat.le_one_iff_eq_zero_or_eq_one.mp (Nat.lt_succ_iff.mp hi) with rfl | rfl
    · exact h₀
    · exact h₁
  have hclients : ∀ p : Peer, p ∈ emptyPart.clients ↔ p.group = "c" ∧ p.id < 2 := by
    rintro ⟨g, i⟩
    simp only [emptyPart, Finset.mem_insert, Finset.mem_singleton, Peer.mk.injEq,
      Nat.lt_succ_iff, Nat.le_one_iff_eq_zero_or_eq_one]
    tauto
  refine ⟨fun m hm => (hclients _).mpr (hT m hm), ?_⟩
  rintro ⟨g, i⟩ hp
  obtain ⟨rfl, hi⟩ := (hclients _).mp hp
  refine ⟨domainOf i, [fieldOf i], hstreams i hi, domainOf_isDomainMessage i, ?_, ?_, ?_⟩
  · intro m hm
    rw [List.mem_singleton.mp hm]
    exact fieldOf_isFieldMessage i
  · simp
  · intro f hf
    exact hf

theorem aggregated_once_iff_two : AggregatedOnce emptyPartContext emptyPart
    [domainOf 0, domainOf 1, fieldOf 1, fieldOf 0] := by
  have honce := aggregated_once_iff emptyPartContext emptyPart emptyPart_wellFormed
    [domainOf 0, domainOf 1, fieldOf 1, fieldOf 0] (emptyPart_interleaving (by decide) rfl rfl)
  apply honce.mpr _ _ [] (List.append_nil _).symm
  intro pre m post heq hearly
  obtain ⟨htag, hne, -⟩ := hearly
  match pre, heq with
  | [], heq =>
    cases heq
    cases htag
  | [_], heq =>
    cases heq
    cases htag
  | [_, _], heq =>
    cases heq
    exact hne (by decide)
  | [_, _, _], heq =>
    cases heq
    exact hne (by decide)
  | _ :: _ :: _ :: _ :: _, heq => simp at heq

/-- The part of peer 0 goes out before that of peer 1 has arrived, and the part of peer 1 leaves an
entry that is never completed. -/
theorem empty_part_completes_early :
    emptyPart.WellFormed ∧
    Interleaving emptyPartContext emptyPart [domainOf 0, fieldOf 0, domainOf 1, fieldOf 1] ∧
    (∃ s global, dispatch emptyPartContext {} [domainOf 0, fieldOf 0] =
      .ok (s, [[], [global]])) ∧
    (∃ s outs, dispatch emptyPartContext {} [domainOf 0, fieldOf 0, domainOf 1, fieldOf 1] =
      .ok (s, outs) ∧ s.aggregate.aggCatalogue.contains "f" = true) ∧
    ¬ ∀ pre post, [domainOf 0, fieldOf 0, domainOf 1, fieldOf 1] = pre ++ post →
      AggregatedOnce emptyPartContext emptyPart pre := by
  refine ⟨emptyPart_wellFormed, ?_, ⟨_, _, rfl⟩, ⟨_, _, rfl, by decide⟩, ?_⟩
  · exact emptyPart_interleaving (by decide) rfl rfl
  · intro h
    obtain ⟨s, outs, hrun, hfields⟩ := h [domainOf 0, fieldOf 0] [domainOf 1, fieldOf 1] rfl
    cases hrun
    have hcount := (hfields "f" (by decide)).1
    revert hcount
    decide

end Multio.Server
