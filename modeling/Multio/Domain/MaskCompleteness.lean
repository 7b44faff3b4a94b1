import Multio.Domain.Mask
import Multio.Domain.MaskRoundTrip
import Mathlib.Data.Finset.Card

namespace Multio
open Exception Lib Domain

/-- Every element met by a loop that succeeds is one with which its body succeeds. -/
theorem exists_of_foldlM_ok {ε α β : Type} {f : β → α → Except ε β} {xs : List α} {b c : β}
    (h : xs.foldlM f b = .ok c) {x : α} (hx : x ∈ xs) : ∃ b' c', f b' x = .ok c' := by
  induction xs generalizing b with
  | nil => cases hx
  | cons y ys ih =>
    rw [List.foldlM_cons] at h
    obtain ⟨b', hb', hrest⟩ := bind_eq_ok_iff.mp h
    rcases List.mem_cons.mp hx with rfl | hx
    · exact ⟨b, b', hb'⟩
    · exact ih hrest hx

namespace Mask

variable (ctx : MaskContext)

/-- The store after messages that arrive under the mappings of their time. -/
def run (events : List (Mappings × Message)) : Mask :=
  events.foldl (fun s e => (s.add ctx e.1 e.2).2) {}

def Creates (s : Mask) (e : Mappings × Message) : Prop :=
  (s.addPartialMask ctx e.2).allPartsArrived ctx e.1 e.2 = .ok true ∧
    ∃ s', (s.addPartialMask ctx e.2).createBitmask ctx e.1 e.2 = .ok s'

/-- The peers whose masks of the message's field are collected once it has been added. -/
def contributors (s : Mask) (msg : Message) : List Peer :=
  ((s.addPartialMask ctx msg).collected (msg.fieldId ctx.toContext)).map Message.source

def AllContributed (s : Mask) (e : Mappings × Message) : Prop :=
  ∀ name dm, e.2.domain ctx.toContext = .ok name → e.1.get name = .ok dm →
    ∀ p ∈ dm.domainMap.keys, p ∈ s.contributors ctx e.2

variable {ctx}

theorem collected_addPartialMask (s : Mask) (msg : Message) (fid : String) :
    (s.addPartialMask ctx msg).collected fid =
      if fid = msg.fieldId ctx.toContext then s.collected fid ++ [msg] else s.collected fid := by
  simp only [collected, addPartialMask, OrderedMap.find?_insert]
  split_ifs with h
  · rw [h]
    rfl
  · rfl

theorem collected_createBitmask {s s' : Mask} {mappings : Mappings} {msg : Message}
    (h : s.createBitmask ctx mappings msg = .ok s') (fid : String) :
    s'.collected fid = if fid = msg.fieldId ctx.toContext then [] else s.collected fid := by
  obtain ⟨n, _, h⟩ := bind_eq_ok_iff.mp h
  split_ifs at h with hn
  obtain ⟨bitmask, _, h⟩ := bind_eq_ok_iff.mp h
  obtain ⟨bkey, _, h⟩ := bind_eq_ok_iff.mp h
  obtain ⟨encoded, _, h⟩ := bind_eq_ok_iff.mp h
  cases h
  simp only [collected, OrderedMap.find?_insert]
  split_ifs <;> rfl

/-- What is collected after a message has been collected before, or is the message. -/
theorem mem_collected_add {s : Mask} {mappings : Mappings} {msg m : Message} {fid : String}
    (h : m ∈ (s.add ctx mappings msg).2.collected fid) :
    m ∈ s.collected fid ∨ m = msg ∧ fid = msg.fieldId ctx.toContext := by
  have hpiece : ∀ m, m ∈ (s.addPartialMask ctx msg).collected fid →
      m ∈ s.collected fid ∨ m = msg ∧ fid = msg.fieldId ctx.toContext := by
    intro m hm
    rw [collected_addPartialMask] at hm
    split_ifs at hm with hfid
    · rcases List.mem_append.mp hm with hm | hm
      · exact .inl hm
      · exact .inr ⟨List.mem_singleton.mp hm, hfid⟩
    · exact .inl hm
  unfold add at h
  dsimp only at h
  split at h
  · exact hpiece m h
  · exact hpiece m h
  · split at h
    · exact hpiece m h
    next s' hcreate =>
      rw [collected_createBitmask hcreate] at h
      split_ifs at h with hfid
      · cases h
      · exact hpiece m h

theorem mem_collected_run {events : List (Mappings × Message)} {m : Message} {fid : String}
    (h : m ∈ (run ctx events).collected fid) :
    ∃ e ∈ events, e.2 = m ∧ m.fieldId ctx.toContext = fid := by
  induction events using List.reverseRecOn with
  | nil => cases h
  | append_singleton events e ih =>
    rw [run, List.foldl_append] at h
    rcases mem_collected_add h with h | ⟨rfl, rfl⟩
    · obtain ⟨e', he', hm⟩ := ih h
      exact ⟨e', List.mem_append_left _ he', hm⟩
    · exact ⟨e, by simp, rfl, rfl⟩

/-- A mask is put together only with the part that its sender has registered. -/
theorem source_mem_of_createBitmask {s s' : Mask} {mappings : Mappings} {inMsg : Message}
    (h : s.createBitmask ctx mappings inMsg = .ok s') {m : Message}
    (hm : m ∈ s.collected (inMsg.fieldId ctx.toContext)) {name : String} {dm : DomainMap}
    (hname : m.domain ctx.toContext = .ok name) (hdm : mappings.get name = .ok dm) :
    m.source ∈ dm.domainMap.keys := by
  obtain ⟨n, _, h⟩ := bind_eq_ok_iff.mp h
  split_ifs at h with hn
  obtain ⟨bitmask, hfold, _⟩ := bind_eq_ok_iff.mp h
  obtain ⟨before, after, hadd⟩ := exists_of_foldlM_ok hfold hm
  rw [addToBitmask, hname, ok_bind, hdm, ok_bind] at hadd
  obtain ⟨d, hd, _⟩ := bind_eq_ok_iff.mp hadd
  rw [DomainMap.at_] at hd
  cases hfind : dm.domainMap.find? m.source with
  | none => rw [hfind] at hd; cases hd
  | some d' => exact OrderedMap.mem_keys.mpr ⟨d', hfind⟩

theorem length_of_allPartsArrived {s : Mask} {mappings : Mappings} {msg : Message}
    (h : s.allPartsArrived ctx mappings msg = .ok true) {name : String} {dm : DomainMap}
    (hname : msg.domain ctx.toContext = .ok name) (hdm : mappings.get name = .ok dm) :
    (s.collected (msg.fieldId ctx.toContext)).length = dm.domainMap.keys.card := by
  rw [allPartsArrived, hname, ok_bind, hdm, ok_bind] at h
  obtain ⟨complete, hcomplete, h⟩ := bind_eq_ok_iff.mp h
  split_ifs at h with hc
  · obtain ⟨size, hsize, h⟩ := bind_eq_ok_iff.mp h
    rw [DomainMap.size, hcomplete, ok_bind, if_pos hc] at hsize
    cases hsize
    rw [← OrderedMap.size_eq_card]
    simpa using h
  · cases h

/-- As many peers as there are masks, all of them registered, are all peers iff none repeats. -/
theorem allContributed_iff {s : Mask} {e : Mappings × Message} (h : Creates ctx s e)
    (hsame : ∀ m ∈ s.collected (e.2.fieldId ctx.toContext),
      m.domain ctx.toContext = e.2.domain ctx.toContext) :
    AllContributed ctx s e ↔ (s.contributors ctx e.2).Nodup := by
  obtain ⟨harrived, s', hcreate⟩ := h
  obtain ⟨name, hname, hrest⟩ := bind_eq_ok_iff.mp harrived
  obtain ⟨dm, hdm, _⟩ := bind_eq_ok_iff.mp hrest
  have hlength := length_of_allPartsArrived harrived hname hdm
  have hsub : (s.contributors ctx e.2).toFinset ⊆ dm.domainMap.keys := by
    intro p hp
    rw [List.mem_toFinset, contributors, List.mem_map] at hp
    obtain ⟨m, hm, rfl⟩ := hp
    apply source_mem_of_createBitmask hcreate hm _ hdm
    rw [collected_addPartialMask, if_pos rfl] at hm
    rcases List.mem_append.mp hm with hm | hm
    · rw [hsame m hm, hname]
    · rw [List.mem_singleton.mp hm, hname]
  -- as many messages as peers, all from peers: without a repetition they are all of them
  have hcard : (s.contributors ctx e.2).length = dm.domainMap.keys.card := by
    rw [contributors, List.length_map, hlength]
  have hall : AllContributed ctx s e ↔
      dm.domainMap.keys ⊆ (s.contributors ctx e.2).toFinset := by
    constructor
    · intro hcontributed p hp
      exact List.mem_toFinset.mpr (hcontributed name dm hname hdm p hp)
    · intro hkeys name' dm' hname' hdm' p hp
      have hnames : name' = name := Except.ok.inj (hname'.symm.trans hname)
      subst hnames
      have hdms : dm' = dm := Except.ok.inj (hdm'.symm.trans hdm)
      subst hdms
      exact List.mem_toFinset.mp (hkeys hp)
  rw [hall]
  constructor
  · intro hkeys
    have heq : (s.contributors ctx e.2).toFinset = dm.domainMap.keys := hsub.antisymm hkeys
    have hcoe : Multiset.Nodup (s.contributors ctx e.2 : Multiset Peer) :=
      Multiset.toFinset_card_eq_card_iff_nodup.mp ((congrArg Finset.card heq).trans hcard.symm)
    exact Multiset.coe_nodup.mp hcoe
  · intro hnodup
    apply (Finset.eq_of_subset_of_card_le hsub _).ge
    rw [List.toFinset_card_of_nodup hnodup, hcard]

/-- In every run, the global masks are stored with the masks of all peers if and only
if none of them is stored while a peer's mask is collected twice. -/
theorem created_complete_iff (ctx : MaskContext) (events : List (Mappings × Message))
    (hdomain : ∀ e ∈ events, ∀ e' ∈ events,
      e.2.fieldId ctx.toContext = e'.2.fieldId ctx.toContext →
      e.2.domain ctx.toContext = e'.2.domain ctx.toContext) :
    (∀ pre e post, events = pre ++ e :: post → Creates ctx (run ctx pre) e →
        AllContributed ctx (run ctx pre) e) ↔
      ∀ pre e post, events = pre ++ e :: post → Creates ctx (run ctx pre) e →
        ((run ctx pre).contributors ctx e.2).Nodup := by
  have hstep : ∀ pre e post, events = pre ++ e :: post → Creates ctx (run ctx pre) e →
      (AllContributed ctx (run ctx pre) e ↔ ((run ctx pre).contributors ctx e.2).Nodup) := by
    intro pre e post hevents hcreates
    apply allContributed_iff hcreates
    intro m hm
    obtain ⟨e', he', rfl, hfid⟩ := mem_collected_run hm
    apply hdomain _ _ _ _ hfid
    · rw [hevents]
      exact List.mem_append_left _ he'
    · rw [hevents]
      simp
  constructor
  · intro h pre e post hevents hcreates
    exact (hstep pre e post hevents hcreates).mp (h pre e post hevents hcreates)
  · intro h pre e post hevents hcreates
    exact (hstep pre e post hevents hcreates).mpr (h pre e post hevents hcreates)

def halvesContext : MaskContext where
  parametrization := { bucketCount := 541 }
  toString _ := "lsm"
  memory _ := 0xFF

def half (i : ℕ) : Domain :=
  .structured { niGlobal := 2, njGlobal := 1, ibegin := i, ni := 1, jbegin := 0, nj := 1,
                dataDim := 2, dataIbegin := 0, dataNi := 1, dataJbegin := 0, dataNj := 1,
                dataPartialSize := 2 }

def halves : Mappings :=
  (∅ : Mappings).insert "grid"
    { domainMap := ((∅ : OrderedMap Peer Domain).insert { group := "c", id := 0 } (half 0)).insert
        { group := "c", id := 1 } (half 1) }

def maskOf (i : ℕ) : Message where
  header := { tag := .mask, source := { group := "c", id := i }, destination := {},
              metadata := { bucketCount := 541,
                            nodes := [("domain", .string "grid"), ("level", .int64 0),
                                      ("misc-globalSize", .int64 2)] } }
  payload := [192, 0, 0, 0, 1, 0]

theorem created_complete_iff_two :
    Creates halvesContext (run halvesContext [(halves, maskOf 0)]) (halves, maskOf 1) ∧
      AllContributed halvesContext (run halvesContext [(halves, maskOf 0)])
        (halves, maskOf 1) := by
  have hcreates :
      Creates halvesContext (run halvesContext [(halves, maskOf 0)]) (halves, maskOf 1) := by
    obtain ⟨b, hb, -⟩ := encodeMaskRunLength_decodes halvesContext.memory
      (show 0 < [true, true].length by decide) (by decide)
    have hcreate : createBitmask halvesContext halves
        (addPartialMask halvesContext (run halvesContext [(halves, maskOf 0)]) (maskOf 1))
        (maskOf 1) = (liftMask (encodeMaskRunLength halvesContext.memory [true, true]) >>= fun b =>
          .ok { messages := (∅ : OrderedMap String (List Message)).insert "lsm" [],
                bitmasks := (∅ : OrderedMap String Buffer).insert "(grid,0)" b }) := by rfl
    refine ⟨rfl, ?_⟩
    rw [hcreate, hb]
    exact ⟨_, rfl⟩
  refine ⟨hcreates, (created_complete_iff halvesContext
    [(halves, maskOf 0), (halves, maskOf 1)] ?_).mpr ?_ [(halves, maskOf 0)] _ [] rfl hcreates⟩
  · simp only [List.mem_cons, List.not_mem_nil, or_false]
    rintro e (rfl | rfl) e' (rfl | rfl) - <;> rfl
  · rintro (_ | ⟨e₀, _ | ⟨e₁, pre⟩⟩) e post h -
    · obtain ⟨rfl, -⟩ := List.cons.inj h
      exact List.nodup_singleton _
    · obtain ⟨rfl, hrest⟩ := List.cons.inj h
      obtain ⟨rfl, -⟩ := List.cons.inj hrest
      decide
    · simp at h

theorem repeated_mask_completes :
    Creates halvesContext (run halvesContext [(halves, maskOf 0)]) (halves, maskOf 0) ∧
      ¬ AllContributed halvesContext (run halvesContext [(halves, maskOf 0)])
        (halves, maskOf 0) := by
  refine ⟨⟨rfl, ?_⟩, ?_⟩
  · -- the global mask is put together from the same half twice
    obtain ⟨b, hb, -⟩ := encodeMaskRunLength_decodes halvesContext.memory
      (show 0 < [true, false].length by decide) (by decide)
    have hcreate : createBitmask halvesContext halves
        (addPartialMask halvesContext (run halvesContext [(halves, maskOf 0)]) (maskOf 0))
        (maskOf 0) = (liftMask (encodeMaskRunLength halvesContext.memory [true, false]) >>= fun b =>
          .ok { messages := (∅ : OrderedMap String (List Message)).insert "lsm" [],
                bitmasks := (∅ : OrderedMap String Buffer).insert "(grid,0)" b }) := by rfl
    rw [hcreate, hb]
    exact ⟨_, rfl⟩
  intro h
  have hmem := h "grid" _ rfl rfl { group := "c", id := 1 } (by decide)
  revert hmem
  decide

end Mask
end Multio
