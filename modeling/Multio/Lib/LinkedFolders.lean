import Mathlib.Data.List.Forall2

namespace Multio.Lib

structure LinkedFolders (F : Type) where
  folders : String → Option (List (String × F)) := fun _ => none
  /-- The target of the link. -/
  link : Option String := none

namespace LinkedFolders

variable {F : Type} (disk : LinkedFolders F)

def latest : String := "latest"

def resolve (name : String) : String :=
  if name = latest then disk.link.getD name else name

def folder (name : String) : Option (List (String × F)) := disk.folders (disk.resolve name)

def entry (name key : String) : Option F :=
  (disk.folder name).bind fun entries => (entries.find? fun e => e.1 = key).map Prod.snd

def put (name : String) (entries : List (String × F)) : LinkedFolders F where
  folders := Function.update disk.folders (disk.resolve name) (some entries)
  link := disk.link

def create (name : String) : LinkedFolders F := disk.put name ((disk.folder name).getD [])

def add (name key : String) (x : F) : LinkedFolders F :=
  disk.put name ((disk.folder name).getD [] ++ [(key, x)])

def unlink : LinkedFolders F :=
  if disk.link.isSome ∧ (disk.folder latest).isSome then { disk with link := none } else disk

def linkTo (name : String) : LinkedFolders F :=
  if disk.link.isSome ∨ (disk.folders latest).isSome then disk else { disk with link := some name }

section

variable {F : Type} {disk disk₁ disk₂ : LinkedFolders F} {name name' : String}

structure Grown (disk disk₁ : LinkedFolders F) : Prop where
  link : disk₁.link = disk.link
  folders : ∀ name, (disk.folders name).isSome → (disk₁.folders name).isSome

theorem Grown.refl (disk : LinkedFolders F) : disk.Grown disk := ⟨rfl, fun _ h => h⟩

theorem Grown.trans (h : disk.Grown disk₁) (h₁ : disk₁.Grown disk₂) : disk.Grown disk₂ :=
  ⟨h₁.link.trans h.link, fun name hname => h₁.folders name (h.folders name hname)⟩

theorem Grown.folder (h : disk.Grown disk₁) (hname : (disk.folder name).isSome) :
    (disk₁.folder name).isSome := by
  have hresolve : disk₁.resolve name = disk.resolve name := by rw [resolve, h.link, resolve]
  rw [LinkedFolders.folder, hresolve]
  exact h.folders _ hname

theorem grown_put (disk : LinkedFolders F) (name : String) (es : List (String × F)) :
    disk.Grown (disk.put name es) where
  link := rfl
  folders name' h := by
    unfold put
    simp only [Function.update_apply]
    split_ifs
    · rfl
    · exact h

theorem grown_create (disk : LinkedFolders F) (name : String) : disk.Grown (disk.create name) :=
  grown_put disk name _

theorem grown_add (disk : LinkedFolders F) (name key : String) (x : F) :
    disk.Grown (disk.add name key x) :=
  grown_put disk name _

theorem isSome_folder_create (disk : LinkedFolders F) (name : String) :
    ((disk.create name).folder name).isSome := by
  change ((disk.put name _).folders (disk.resolve name)).isSome
  simp only [put, Function.update_self]
  rfl

theorem folder_of_link_none (h : disk.link = none) (name : String) :
    disk.folder name = disk.folders name := by
  rw [folder, resolve, h]
  split_ifs <;> rfl

theorem folder_of_ne_latest (disk : LinkedFolders F) (h : name ≠ latest) :
    disk.folder name = disk.folders name := by
  rw [folder, resolve, if_neg h]

theorem folders_unlink (disk : LinkedFolders F) : disk.unlink.folders = disk.folders := by
  unfold unlink
  split_ifs <;> rfl

theorem folders_linkTo (disk : LinkedFolders F) (name : String) :
    (disk.linkTo name).folders = disk.folders := by
  unfold linkTo
  split_ifs <;> rfl

theorem link_unlink (h : (disk.folder latest).isSome) : disk.unlink.link = none := by
  unfold unlink
  split_ifs with hlink
  · rfl
  · rw [not_and_or] at hlink
    exact Option.not_isSome_iff_eq_none.mp (hlink.resolve_right fun hno => hno h)

/-- A name that stood for a folder does so after the link has been moved to another one. -/
theorem isSome_folder_linkTo (h : (disk.folder name).isSome) (hgrown : disk.unlink.Grown disk₁)
    (hname : (disk₁.folder name').isSome) : ((disk₁.linkTo name').folder name).isSome := by
  by_cases hlatest : name = latest
  · subst hlatest
    have hlink : disk₁.link = none := hgrown.link.trans (link_unlink h)
    unfold linkTo
    split_ifs with hused
    · rw [hlink] at hused
      rw [folder_of_link_none hlink]
      exact hused.resolve_left (by simp)
    · rw [folder_of_link_none hlink] at hname
      exact hname
  · rw [folder_of_ne_latest _ hlatest, folders_linkTo]
    rw [folder_of_ne_latest _ hlatest, ← folders_unlink] at h
    exact hgrown.folders name h

def Holds (disk : LinkedFolders F) (key : String) : Prop :=
  ∃ name es, disk.folders name = some es ∧ key ∈ es.map Prod.fst

variable {key key' : String} {x : F}

theorem entry_of_not_holds (h : ¬ disk.Holds key) (name : String) : disk.entry name key = none := by
  rw [entry, Option.bind_eq_none_iff]
  intro es hes
  rw [Option.map_eq_none_iff, List.find?_eq_none]
  intro e he hkey
  exact h ⟨disk.resolve name, es, hes, List.mem_map.mpr ⟨e, he, of_decide_eq_true hkey⟩⟩

theorem entry_add (disk : LinkedFolders F) (name key key' : String) (x : F) :
    (disk.add name key x).entry name key' =
      (disk.entry name key').or (if key' = key then some x else none) := by
  have hfolder : (disk.add name key x).folder name =
      some ((disk.folder name).getD [] ++ [(key, x)]) := Function.update_self _ _ _
  have hlast : (([(key, x)].find? fun e => e.1 = key').map Prod.snd : Option F) =
      if key' = key then some x else none := by
    rw [List.find?_singleton]
    by_cases hkey : key' = key
    · rw [if_pos hkey, if_pos (decide_eq_true hkey.symm)]
      rfl
    · rw [if_neg hkey, if_neg (by simpa using Ne.symm hkey)]
      rfl
  rw [entry, hfolder, Option.bind_some, List.find?_append, Option.map_or, hlast, entry]
  cases disk.folder name with
  | none => rfl
  | some es => rfl

theorem holds_put {es : List (String × F)} (h : (disk.put name es).Holds key) :
    disk.Holds key ∨ key ∈ es.map Prod.fst := by
  obtain ⟨name', es', hes', hkey⟩ := h
  unfold put at hes'
  simp only [Function.update_apply] at hes'
  split_ifs at hes'
  · obtain rfl := Option.some.inj hes'
    exact Or.inr hkey
  · exact Or.inl ⟨name', es', hes', hkey⟩

theorem holds_folder (h : key ∈ ((disk.folder name).getD []).map Prod.fst) : disk.Holds key := by
  cases hfolder : disk.folder name with
  | none =>
    rw [hfolder] at h
    exact absurd h List.not_mem_nil
  | some es =>
    rw [hfolder] at h
    exact ⟨disk.resolve name, es, hfolder, h⟩

theorem holds_create (h : (disk.create name).Holds key) : disk.Holds key :=
  (holds_put h).elim id holds_folder

theorem holds_add (h : (disk.add name key' x).Holds key) : disk.Holds key ∨ key = key' := by
  obtain hold | hmem := holds_put h
  · exact Or.inl hold
  · rw [List.map_append, List.mem_append] at hmem
    exact hmem.imp holds_folder List.mem_singleton.mp

theorem holds_unlink : disk.unlink.Holds key ↔ disk.Holds key := by
  unfold Holds
  rw [folders_unlink]

theorem holds_linkTo : (disk.linkTo name).Holds key ↔ disk.Holds key := by
  unfold Holds
  rw [folders_linkTo]

end

variable {F F' : Type} {R S : String → F → F' → Prop} {disk : LinkedFolders F}
  {disk' : LinkedFolders F'}

/-- The entries of two folders under the same names in the same order. -/
def RelatedEntries (R : String → F → F' → Prop) : List (String × F) → List (String × F') → Prop :=
  List.Forall₂ fun e e' => e.1 = e'.1 ∧ R e.1 e.2 e'.2

theorem rel_mono {α β : Type} {r s : α → β → Prop} {x : Option α} {y : Option β}
    (h : Option.Rel r x y) (hrs : ∀ a b, r a b → s a b) : Option.Rel s x y := by
  cases h with
  | none => exact .none
  | some hab => exact .some (hrs _ _ hab)

theorem RelatedEntries.mono (hRS : ∀ key x x', R key x x' → S key x x') {es : List (String × F)}
    {es' : List (String × F')} (h : RelatedEntries R es es') : RelatedEntries S es es' :=
  h.imp fun _ _ he => ⟨he.1, hRS _ _ _ he.2⟩

theorem isSome_of_rel {α β : Type} {r : α → β → Prop} {x : Option α} {y : Option β}
    (h : Option.Rel r x y) : y.isSome = x.isSome := by
  cases h <;> rfl

structure Related (R : String → F → F' → Prop) (disk : LinkedFolders F)
    (disk' : LinkedFolders F') : Prop where
  link : disk'.link = disk.link
  folders : ∀ name, Option.Rel (RelatedEntries R) (disk.folders name) (disk'.folders name)

namespace Related

variable (h : Related R disk disk')

include h

theorem mono (hRS : ∀ key x x', R key x x' → S key x x') : Related S disk disk' where
  link := h.link
  folders name := rel_mono (h.folders name) fun _ _ => RelatedEntries.mono hRS

theorem resolve (name : String) : disk'.resolve name = disk.resolve name := by
  rw [LinkedFolders.resolve, h.link, LinkedFolders.resolve]

theorem folder (name : String) : Option.Rel (RelatedEntries R) (disk.folder name)
    (disk'.folder name) := by
  rw [LinkedFolders.folder, LinkedFolders.folder, h.resolve]
  exact h.folders _

theorem isSome_folder (name : String) :
    (disk'.folder name).isSome = (disk.folder name).isSome := by
  exact isSome_of_rel (h.folder name)

theorem entry (name key : String) :
    Option.Rel (R key) (disk.entry name key) (disk'.entry name key) := by
  have hfind : ∀ {es : List (String × F)} {es' : List (String × F')}, RelatedEntries R es es' →
      Option.Rel (R key) ((es.find? fun e => e.1 = key).map Prod.snd)
        ((es'.find? fun e => e.1 = key).map Prod.snd) := by
    intro es es' hes
    induction hes with
    | nil => exact .none
    | @cons e e' es es' he hes ih =>
      rw [List.find?_cons, List.find?_cons, ← he.1]
      by_cases hkey : e.1 = key
      · rw [decide_eq_true hkey]
        exact .some (hkey ▸ he.2)
      · rw [decide_eq_false hkey]
        exact ih
  have hfolder := h.folder name
  unfold LinkedFolders.entry
  generalize disk.folder name = x at hfolder ⊢
  generalize disk'.folder name = y at hfolder ⊢
  cases hfolder with
  | none => exact .none
  | some hes => exact hfind hes

theorem put (name : String) {es : List (String × F)} {es' : List (String × F')}
    (hes : RelatedEntries R es es') : Related R (disk.put name es) (disk'.put name es') where
  link := h.link
  folders name' := by
    unfold LinkedFolders.put
    simp only [h.resolve, Function.update_apply]
    split_ifs
    · exact .some hes
    · exact h.folders name'

theorem getD_folder (name : String) :
    RelatedEntries R ((disk.folder name).getD []) ((disk'.folder name).getD []) := by
  have hfolder := h.folder name
  generalize disk.folder name = x at hfolder ⊢
  generalize disk'.folder name = y at hfolder ⊢
  cases hfolder with
  | none => exact .nil
  | some hes => exact hes

theorem create (name : String) : Related R (disk.create name) (disk'.create name) :=
  h.put name (h.getD_folder name)

theorem add (name key : String) {x : F} {x' : F'} (hx : R key x x') :
    Related R (disk.add name key x) (disk'.add name key x') :=
  h.put name (List.rel_append (h.getD_folder name) (.cons ⟨rfl, hx⟩ .nil))

theorem unlink : Related R disk.unlink disk'.unlink := by
  unfold LinkedFolders.unlink
  rw [h.link, h.isSome_folder]
  split_ifs
  · exact { link := rfl, folders := h.folders }
  · exact h

theorem linkTo (name : String) : Related R (disk.linkTo name) (disk'.linkTo name) := by
  unfold LinkedFolders.linkTo
  rw [h.link, isSome_of_rel (h.folders latest)]
  split_ifs
  · exact h
  · exact { link := rfl, folders := h.folders }

end Related

end LinkedFolders
end Multio.Lib
