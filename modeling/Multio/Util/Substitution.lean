import Mathlib.Data.List.Basic

namespace Multio.Util

/-- `s.find(c, pos)`, with nothing for `npos`. -/
def find (c : Char) (s : List Char) (pos : ℕ) : Option ℕ :=
  ((s.drop pos).findIdx? (· = c)).map (pos + ·)

/-- `s.substr(pos, count)`. -/
def substring (s : List Char) (pos count : ℕ) : List Char := (s.drop pos).take count

theorem find_lt {c : Char} {s : List Char} {pos i : ℕ} (h : find c s pos = some i) :
    pos ≤ i ∧ i < s.length := by
  rw [find, Option.map_eq_some_iff] at h
  obtain ⟨j, hj, rfl⟩ := h
  obtain ⟨hlt, -, -⟩ := List.findIdx?_eq_some_iff_getElem.mp hj
  rw [List.length_drop] at hlt
  omega

theorem find_append {c : Char} {t : List Char} (pre rest : List Char) (h : c ∉ t) :
    find c (pre ++ t ++ c :: rest) pre.length = some (pre ++ t).length := by
  rw [find, List.append_assoc, List.drop_left, List.findIdx?_append]
  have ht : t.findIdx? (· = c) = none := by
    rw [List.findIdx?_eq_none_iff]
    exact fun x hx => decide_eq_false fun hxc => h (hxc ▸ hx)
  rw [ht, List.findIdx?_cons, if_pos (decide_eq_true rfl)]
  simp

theorem find_none {c : Char} {t : List Char} (pre : List Char) (h : c ∉ t) :
    find c (pre ++ t) pre.length = none := by
  rw [find, List.drop_left, Option.map_eq_none_iff, List.findIdx?_eq_none_iff]
  exact fun x hx => decide_eq_false fun hxc => h (hxc ▸ hx)

section

variable (lookup : List Char → Option (List Char))

def replaceCurly (s : List Char) : List Char :=
  match find '{' s 0 with
  | none => s
  | some pos =>
    match _ : find '}' s (pos + 1) with
    | none => s
    | some endPos =>
      let key := substring s (pos + 1) (endPos - pos - 1)
      match lookup key with
      | some sub => substring s 0 pos ++ sub ++ replaceCurly (s.drop (endPos + 1))
      -- the brace that closes the block is still to be read
      | none => substring s 0 endPos ++ replaceCurly (s.drop endPos)
termination_by s.length
decreasing_by
  all_goals
    have := find_lt ‹_›
    rw [List.length_drop]
    omega

variable {t key : List Char}

theorem replaceCurly_of_notMem (h : '{' ∉ t) : replaceCurly lookup t = t := by
  have hpos : find '{' t 0 = none := find_none [] h
  rw [replaceCurly, hpos]

theorem replaceCurly_unclosed (ht : '{' ∉ t) (hkey : '}' ∉ key) :
    replaceCurly lookup (t ++ '{' :: key) = t ++ '{' :: key := by
  have hpos : find '{' (t ++ '{' :: key) 0 = some t.length := find_append [] key ht
  have hend : find '}' (t ++ '{' :: key) (t.length + 1) = none := by
    have := find_none (t ++ ['{']) hkey
    rwa [List.length_append, List.append_assoc] at this
  rw [replaceCurly, hpos]
  split
  · next heq => cases heq
  · next pos heq =>
    cases heq
    split
    · rfl
    · next endPos hsome => cases hend.symm.trans hsome

theorem replaceCurly_block (ht : '{' ∉ t) (hkey : '}' ∉ key) (rest : List Char) :
    replaceCurly lookup (t ++ '{' :: (key ++ '}' :: rest)) =
      match lookup key with
      | some sub => t ++ sub ++ replaceCurly lookup rest
      | none => t ++ '{' :: key ++ replaceCurly lookup ('}' :: rest) := by
  generalize hs : t ++ '{' :: (key ++ '}' :: rest) = s
  have hpos : find '{' s 0 = some t.length := hs ▸ find_append [] _ ht
  have hclosed : t ++ '{' :: key ++ '}' :: rest = s := by
    rw [← hs, List.append_assoc, List.cons_append]
  -- the positions that `find` returns cut the text into its three parts
  have hend : find '}' s (t.length + 1) = some (t ++ '{' :: key).length := by
    have := find_append (t ++ ['{']) rest hkey
    rwa [List.length_append, List.append_assoc t, List.singleton_append, hclosed] at this
  have hbefore : substring s 0 t.length = t := by
    rw [← hs, substring, List.drop_zero, List.take_left]
  have hlen : (t ++ '{' :: key).length - t.length - 1 = key.length := by
    rw [List.length_append, List.length_cons, Nat.add_sub_cancel_left, Nat.add_sub_cancel]
  have hinner : substring s (t.length + 1) ((t ++ '{' :: key).length - t.length - 1) = key := by
    rw [hlen, ← hs, substring, ← List.drop_drop, List.drop_left, List.drop_one, List.tail_cons,
      List.take_left]
  have hcopied : substring s 0 (t ++ '{' :: key).length = t ++ '{' :: key := by
    rw [← hclosed, substring, List.drop_zero, List.take_left]
  have hclose : s.drop (t ++ '{' :: key).length = '}' :: rest := by
    rw [← hclosed, List.drop_left]
  have hafter : s.drop ((t ++ '{' :: key).length + 1) = rest := by
    rw [← List.drop_drop, hclose, List.drop_one, List.tail_cons]
  rw [replaceCurly, hpos]
  split
  · next heq => cases heq
  · next pos heq =>
    cases heq
    split
    · next hnone => cases hend.symm.trans hnone
    · next endPos hsome =>
      cases hend.symm.trans hsome
      rw [hinner, hbefore, hcopied, hclose, hafter]

/-- Every template is a text, a text and a block that is not closed, or a text and a block. -/
theorem template_cases (s : List Char) :
    '{' ∉ s ∨ (∃ t key, '{' ∉ t ∧ '}' ∉ key ∧ s = t ++ '{' :: key) ∨
      ∃ t key rest, '{' ∉ t ∧ '}' ∉ key ∧ s = t ++ '{' :: (key ++ '}' :: rest) := by
  by_cases hopen : '{' ∈ s
  · obtain ⟨t, r, rfl, ht⟩ := List.eq_append_cons_of_mem hopen
    by_cases hclose : '}' ∈ r
    · obtain ⟨key, rest, rfl, hkey⟩ := List.eq_append_cons_of_mem hclose
      exact .inr (.inr ⟨t, key, rest, ht, hkey, rfl⟩)
    · exact .inr (.inl ⟨t, r, ht, hclose, rfl⟩)
  · exact .inl hopen

theorem replaceCurly_append (ht : '{' ∉ t) (s : List Char) :
    replaceCurly lookup (t ++ s) = t ++ replaceCurly lookup s := by
  obtain hs | ⟨u, key, hu, hkey, rfl⟩ | ⟨u, key, rest, hu, hkey, rfl⟩ := template_cases s
  · have hts : '{' ∉ t ++ s := fun h => (List.mem_append.mp h).elim ht hs
    rw [replaceCurly_of_notMem lookup hts, replaceCurly_of_notMem lookup hs]
  · have htu : '{' ∉ t ++ u := fun h => (List.mem_append.mp h).elim ht hu
    rw [← List.append_assoc, replaceCurly_unclosed lookup htu hkey,
      replaceCurly_unclosed lookup hu hkey, List.append_assoc]
  · have htu : '{' ∉ t ++ u := fun h => (List.mem_append.mp h).elim ht hu
    rw [← List.append_assoc, replaceCurly_block lookup htu hkey,
      replaceCurly_block lookup hu hkey]
    cases lookup key with
    | none => simp
    | some sub => simp

end

def BraceFree (s : List Char) : Prop := '{' ∉ s ∧ '}' ∉ s

instance (s : List Char) : Decidable (BraceFree s) := inferInstanceAs (Decidable (_ ∧ _))

inductive Piece
  | text (s : List Char) (h : BraceFree s)
  | block (key : List Char) (h : BraceFree key)

namespace Piece

def source : Piece → List Char
  | text s _ => s
  | block key _ => '{' :: (key ++ ['}'])

/-- What becomes of a piece: a block whose key is known is the value, all else stays. -/
def expand (lookup : List Char → Option (List Char)) : Piece → List Char
  | text s _ => s
  | block key h => (lookup key).getD (block key h).source

end Piece

/-- A part of a template: text that stays, or a block and the value that takes its place. -/
inductive Segment
  | kept (s : List Char)
  | replaced (key value : List Char)

namespace Segment

def source : Segment → List Char
  | kept s => s
  | replaced key _ => '{' :: (key ++ ['}'])

def result : Segment → List Char
  | kept s => s
  | replaced _ value => value

/-- A value takes the place of a block only if it is that of the key. -/
def Known (lookup : List Char → Option (List Char)) : Segment → Prop
  | kept _ => True
  | replaced key value => '}' ∉ key ∧ lookup key = some value

end Segment

variable (lookup : List Char → Option (List Char))

/-- The template `s` can be cut so that `out` is what remains once values took the place of
blocks. -/
def Substituted (s out : List Char) : Prop :=
  ∃ segments : List Segment, (∀ g ∈ segments, g.Known lookup) ∧
    s = segments.flatMap Segment.source ∧ out = segments.flatMap Segment.result

theorem replaceCurly_piece (p : Piece) (s : List Char) :
    replaceCurly lookup (p.source ++ s) = p.expand lookup ++ replaceCurly lookup s := by
  cases p with
  | text t h => exact replaceCurly_append lookup h.1 s
  | block key h =>
    have hclose : '{' ∉ ['}'] := by simp
    have hblock := replaceCurly_block lookup (List.not_mem_nil) h.2 s
    have hsource : (Piece.block key h).source ++ s = [] ++ '{' :: (key ++ '}' :: s) := by
      simp [Piece.source]
    rw [hsource, hblock, Piece.expand]
    cases lookup key with
    | some sub => rfl
    | none =>
      change '{' :: key ++ replaceCurly lookup (['}'] ++ s) = _
      rw [replaceCurly_append lookup hclose]
      simp [Piece.source]

theorem replaceCurly_pieces (pieces : List Piece) :
    replaceCurly lookup (pieces.flatMap Piece.source) = pieces.flatMap (Piece.expand lookup) := by
  induction pieces with
  | nil => exact replaceCurly_of_notMem lookup List.not_mem_nil
  | cons p ps ih => rw [List.flatMap_cons, replaceCurly_piece, ih, List.flatMap_cons]

theorem Substituted.of_segment {g : Segment} (h : g.Known lookup) :
    Substituted lookup g.source g.result :=
  ⟨[g], by simpa using h, by simp, by simp⟩

variable {lookup} in
theorem Substituted.append {s s' out out' : List Char} (h : Substituted lookup s out)
    (h' : Substituted lookup s' out') : Substituted lookup (s ++ s') (out ++ out') := by
  obtain ⟨gs, hgs, rfl, rfl⟩ := h
  obtain ⟨gs', hgs', rfl, rfl⟩ := h'
  refine ⟨gs ++ gs', ?_, List.flatMap_append.symm, List.flatMap_append.symm⟩
  intro g hg
  exact (List.mem_append.mp hg).elim (hgs g) (hgs' g)

theorem Substituted.kept (s : List Char) : Substituted lookup s s :=
  Substituted.of_segment lookup (g := .kept s) trivial

theorem substituted_replaceCurly (s : List Char) :
    Substituted lookup s (replaceCurly lookup s) := by
  -- along the length: what follows a block is shorter
  induction hn : s.length using Nat.strongRecOn generalizing s with
  | _ n ih =>
    subst hn
    obtain hs | ⟨t, key, ht, hkey, rfl⟩ | ⟨t, key, rest, ht, hkey, rfl⟩ := template_cases s
    · rw [replaceCurly_of_notMem lookup hs]
      exact .kept lookup s
    · rw [replaceCurly_unclosed lookup ht hkey]
      exact .kept lookup _
    · have hlen : ('}' :: rest).length < (t ++ '{' :: (key ++ '}' :: rest)).length := by
        simp
        omega
      rw [replaceCurly_block lookup ht hkey]
      cases hlookup : lookup key with
      | some sub =>
        have hrest := ih rest.length (Nat.lt_trans (Nat.lt_succ_self _) hlen) rest rfl
        have hblock : Substituted lookup ('{' :: (key ++ ['}'])) sub :=
          Substituted.of_segment lookup (g := .replaced key sub) ⟨hkey, hlookup⟩
        have := ((Substituted.kept lookup t).append hblock).append hrest
        simpa using this
      | none =>
        have hrest := ih ('}' :: rest).length hlen ('}' :: rest) rfl
        have := (Substituted.kept lookup (t ++ '{' :: key)).append hrest
        simpa using this

theorem replaceCurly_substitution :
    (∀ pieces : List Piece,
      replaceCurly lookup (pieces.flatMap Piece.source) =
        pieces.flatMap (Piece.expand lookup)) ∧
    ∀ s, Substituted lookup s (replaceCurly lookup s) :=
  ⟨replaceCurly_pieces lookup, substituted_replaceCurly lookup⟩

end Multio.Util
