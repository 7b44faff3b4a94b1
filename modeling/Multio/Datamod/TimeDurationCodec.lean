import Multio.Datamod.Types

namespace Multio.Datamod
open Exception

namespace TimeDuration

/-- The texts of a duration: a number that fits, and a unit, or an hour where there is none. -/
inductive Text : List Char → TimeDuration → Prop
  | noUnit {cs : List Char} {n : ℤ} (hcs : NumberText cs n) (hn : IsInt64 n) :
      Text cs (.hours n hn)
  | hours {cs : List Char} {n : ℤ} (hcs : NumberText cs n) (hn : IsInt64 n) :
      Text (cs ++ ['h']) (.hours n hn)
  | seconds {cs : List Char} {n : ℤ} (hcs : NumberText cs n) (hn : IsInt64 n) :
      Text (cs ++ ['s']) (.seconds n hn)

def print (d : TimeDuration) : String :=
  match d.dump with
  | .inl count => toString count
  | .inr text => text

/-- The texts of durations are read, and the others are refused by the data model. -/
def ReadsTexts (val : String) : Prop :=
  (∀ d, Text val.toList d → parse val = .ok d) ∧
    ((¬ ∃ d, Text val.toList d) → ∃ what, parse val = .error (.dataModelling what))

def EndsOtherwise (val : String) : Prop :=
  ∀ c, val.toList.getLast? = some c → c ≠ 'h' ∧ c ≠ 's' ∧ c.isDigit = false

end TimeDuration

theorem stol_ne_dataModelling (cs : List Char) (what : String) :
    stol cs ≠ .error (.dataModelling what) := by
  unfold stol
  dsimp only
  split
  · exact fun h => (by cases h)
  · split_ifs <;> exact fun h => (by cases h)

namespace TimeDuration

variable {val : String} {d : TimeDuration}

theorem print_text (d : TimeDuration) : Text d.print.toList d := by
  cases d with
  | hours n hn => exact .noUnit (numberText_toString n) hn
  | seconds n hn =>
    have htext : (toString n ++ "s").toList = (toString n).toList ++ ['s'] := String.toList_append
    change Text (toString n ++ "s").toList _
    rw [htext]
    exact .seconds (numberText_toString n) hn

theorem parse_unit {cs : List Char} {n : ℤ} {unit : Char} (hval : val.toList = cs ++ [unit])
    (hunit : unit = 'h' ∨ unit = 's') (hcs : NumberText cs n) (hn : IsInt64 n) :
    parse val = if unit = 'h' then .ok (.hours n hn) else .ok (.seconds n hn) := by
  have hlength : (cs ++ [unit]).length ≠ 1 := by
    rw [List.length_append, List.length_singleton]
    exact fun h => hcs.ne_nil (List.length_eq_zero_iff.mp (by omega))
  unfold parse
  rw [hval, List.getLast?_concat]
  dsimp only
  rw [if_pos hunit, if_neg hlength, List.dropLast_concat, hcs.stol hn, ok_bind]

theorem parse_of_text (h : Text val.toList d) : parse val = .ok d := by
  generalize hval : val.toList = cs at h
  cases h with
  | noUnit hcs hn =>
    obtain ⟨c, hlast, hdigit⟩ := hcs.getLast
    -- the last character is a digit, so that it is no unit
    have hunit : ¬ (c = 'h' ∨ c = 's') := by
      rintro (rfl | rfl)
      · exact absurd hdigit (by decide)
      · exact absurd hdigit (by decide)
    unfold parse
    rw [hval, hlast]
    dsimp only
    rw [if_neg hunit, if_pos hdigit, hcs.stol hn, ok_bind]
  | hours hcs hn => exact (parse_unit hval (Or.inl rfl) hcs hn).trans (if_pos rfl)
  | seconds hcs hn => exact (parse_unit hval (Or.inr rfl) hcs hn).trans (if_neg (by decide))

theorem mem_of_text {cs : List Char} (h : Text cs d) :
    ∀ c ∈ cs, c.isDigit = true ∨ c ∈ ['+', '-', 'h', 's'] := by
  have hnumber {cs : List Char} {n : ℤ} (hcs : NumberText cs n) :
      ∀ c ∈ cs, c.isDigit = true ∨ c ∈ ['+', '-', 'h', 's'] := by
    cases hcs with
    | unsigned _ hdigits => exact fun c hc => Or.inl (hdigits c hc)
    | plus _ hdigits =>
      exact List.forall_mem_cons.mpr ⟨Or.inr (by decide), fun c hc => Or.inl (hdigits c hc)⟩
    | minus _ hdigits =>
      exact List.forall_mem_cons.mpr ⟨Or.inr (by decide), fun c hc => Or.inl (hdigits c hc)⟩
  cases h with
  | noUnit hcs _ => exact hnumber hcs
  | hours hcs _ =>
    exact List.forall_mem_append.mpr
      ⟨hnumber hcs, List.forall_mem_singleton.mpr (Or.inr (by decide))⟩
  | seconds hcs _ =>
    exact List.forall_mem_append.mpr
      ⟨hnumber hcs, List.forall_mem_singleton.mpr (Or.inr (by decide))⟩

theorem parse_refused (h : val = "h" ∨ val = "s" ∨ EndsOtherwise val) :
    parse val = .error (.dataModelling ("Invalid time duration: " ++ val)) := by
  obtain rfl | rfl | hends := h
  · rfl
  · rfl
  · unfold parse
    cases hlast : val.toList.getLast? with
    | none => rfl
    | some c =>
      obtain ⟨hh, hs, hdigit⟩ := hends c hlast
      dsimp only
      rw [if_neg (not_or.mpr ⟨hh, hs⟩), if_neg (by rw [hdigit]; decide)]

theorem parse_ne_dataModelling (hh : val ≠ "h") (hs : val ≠ "s") (hends : ¬ EndsOtherwise val)
    (what : String) : parse val ≠ .error (.dataModelling what) := by
  have hstol (cs : List Char) (f : {n : ℤ // IsInt64 n} → TimeDuration) :
      (stol cs >>= fun n => .ok (f n)) ≠ (.error (.dataModelling what) : Except _ _) := by
    intro h
    cases hcs : stol cs with
    | ok n =>
      rw [hcs] at h
      cases h
    | error e =>
      rw [hcs] at h
      exact stol_ne_dataModelling cs what (hcs.trans (congrArg _ (Except.error.inj h)))
  have hlength {c : Char} (hlast : val.toList.getLast? = some c) (hc : c = 'h' ∨ c = 's') :
      val.toList.length ≠ 1 := by
    intro hone
    obtain ⟨c', hval⟩ := List.length_eq_one_iff.mp hone
    rw [hval] at hlast
    obtain rfl := Option.some.inj hlast
    obtain rfl | rfl := hc
    · exact hh (String.toList_inj.mp hval)
    · exact hs (String.toList_inj.mp hval)
  -- in the order of the parser: a bare unit, both units, a digit and the rest
  unfold parse
  cases hlast : val.toList.getLast? with
  | none => exact absurd (fun c hc => by rw [hlast] at hc; cases hc) hends
  | some c =>
    dsimp only
    split_ifs with hunit hone hh' hdigit
    · exact absurd hone (hlength hlast hunit)
    · exact hstol _ fun value => .hours value.1 value.2
    · exact hstol _ fun value => .seconds value.1 value.2
    · exact hstol _ fun value => .hours value.1 value.2
    · refine absurd ?_ hends
      intro c' hc'
      rw [hlast] at hc'
      obtain rfl := Option.some.inj hc'
      exact ⟨fun h => hunit (Or.inl h), fun h => hunit (Or.inr h), eq_false_of_ne_true hdigit⟩

theorem readsTexts_iff : ReadsTexts val ↔
    (∃ d, Text val.toList d) ∨ val = "h" ∨ val = "s" ∨ EndsOtherwise val := by
  constructor
  · rintro ⟨-, hrefused⟩
    by_contra hnot
    obtain ⟨htext, hnot⟩ := not_or.mp hnot
    obtain ⟨hh, hnot⟩ := not_or.mp hnot
    obtain ⟨hs, hends⟩ := not_or.mp hnot
    obtain ⟨what, hparse⟩ := hrefused htext
    exact parse_ne_dataModelling hh hs hends what hparse
  · intro h
    refine ⟨fun d => parse_of_text, fun htext => ?_⟩
    exact ⟨_, parse_refused (h.resolve_left htext)⟩

/-- Durations come back from their texts; other texts are refused by the data model if they are a
bare unit or end with neither a unit nor a digit. -/
theorem timeDuration_codec_iff (d : TimeDuration) (val : String) :
    parse d.print = .ok d ∧
      (ReadsTexts val ↔
        (∃ d, Text val.toList d) ∨ val = "h" ∨ val = "s" ∨ EndsOtherwise val) :=
  ⟨parse_of_text d.print_text, readsTexts_iff⟩

/-- What comes after a number is ignored. -/
theorem garbage_accepted :
    ¬ ((∀ d : TimeDuration, parse d.print = .ok d) ∧ ∀ val : String, ReadsTexts val) := by
  rintro ⟨-, hreads⟩
  have hnot : ¬ ∃ d, Text "5x7".toList d := by
    rintro ⟨d, hd⟩
    exact absurd (mem_of_text hd 'x' (by decide)) (by decide)
  obtain ⟨what, hparse⟩ := (hreads "5x7").2 hnot
  have haccepted : parse "5x7" = .ok (.hours 5 (by decide)) := by rfl
  cases haccepted.symm.trans hparse

end TimeDuration
end Multio.Datamod
