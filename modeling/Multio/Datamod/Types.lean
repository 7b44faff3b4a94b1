import Multio.Util.Exception
import Mathlib.Data.Int.Notation
import Mathlib.Data.List.TakeWhile

namespace Multio.Datamod

inductive LevType
  | ML | PL | PV | PT | SOL | SFC | O2D | O3D | HL | HHL | HPL | AL | WV | DP | CAT | LAYER
  deriving DecidableEq, Repr

def LevType.dump : LevType → String
  | .ML => "ml"
  | .PL => "pl"
  | .PV => "pv"
  | .PT => "pt"
  | .SOL => "sol"
  | .SFC => "sfc"
  | .O2D => "o2d"
  | .O3D => "o3d"
  | .HL => "hl"
  | .HHL => "hhl"
  | .HPL => "hpl"
  | .AL => "al"
  | .WV => "wv"
  | .DP => "dp"
  | .CAT => "cat"
  | .LAYER => "layer"

def LevType.parse (val : String) : Except Exception LevType :=
  match val with
  | "ml" => .ok .ML
  | "pl" => .ok .PL
  | "pv" => .ok .PV
  | "pt" => .ok .PT
  | "sol" => .ok .SOL
  | "sfc" => .ok .SFC
  | "o2d" => .ok .O2D
  | "o3d" => .ok .O3D
  | "hl" => .ok .HL
  | "hhl" => .ok .HHL
  | "hpl" => .ok .HPL
  | "al" => .ok .AL
  | "wv" => .ok .WV
  | "dp" => .ok .DP
  | "cat" => .ok .CAT
  | "layer" => .ok .LAYER
  | _ => .error (.dataModelling ("ParseType<LevType>::parse Unknown value for LevType: " ++ val))

theorem LevType.parse_dump (v : LevType) : LevType.parse v.dump = .ok v := by
  cases v <;> rfl

inductive Repres
  | GG | LL | SH | HEALPix
  deriving DecidableEq, Repr

def Repres.dump : Repres → String
  | .GG => "gg"
  | .HEALPix => "HEALPix"
  | .LL => "ll"
  | .SH => "sh"

def Repres.parse (val : String) : Except Exception Repres :=
  match val with
  | "gg" => .ok .GG
  | "ll" => .ok .LL
  | "sh" => .ok .SH
  | "HEALPix" => .ok .HEALPix
  | _ => .error (.dataModelling ("ParseType<Repres>::parse Unknown value for Repres: " ++ val))

theorem Repres.parse_dump (v : Repres) : Repres.parse v.dump = .ok v := by
  cases v <;> rfl

inductive StatTypeDuration
  | Day | Month
  deriving DecidableEq, Repr

def StatTypeDuration.toNat : StatTypeDuration → ℕ
  | .Day => 0
  | .Month => 1

inductive StatTypeOperation
  | Average | Max | Min | StandardDeviation
  deriving DecidableEq, Repr

def StatTypeOperation.toNat : StatTypeOperation → ℕ
  | .Average => 0
  | .Max => 1
  | .Min => 2
  | .StandardDeviation => 3

structure SingleStatType where
  duration : StatTypeDuration
  operation : StatTypeOperation
  deriving DecidableEq, Repr

structure StatType where
  firstLevel : SingleStatType
  secondLevel : Option SingleStatType
  ordered : ∀ second ∈ secondLevel, second.duration.toNat < firstLevel.duration.toNat
  deriving DecidableEq

def StatTypeDuration.dump : StatTypeDuration → String
  | .Day => "da"
  | .Month => "mo"

def StatTypeOperation.dump : StatTypeOperation → String
  | .Average => "av"
  | .Max => "mx"
  | .Min => "mn"
  | .StandardDeviation => "sd"

def StatTypeDuration.parse (val : String) : Except Exception StatTypeDuration :=
  match val with
  | "da" => .ok .Day
  | "mo" => .ok .Month
  | _ => .error (.dataModelling
      ("ParseType<StatTypeDuration>::parse Unknown value for StatTypeDuration: " ++ val))

def StatTypeOperation.parse (val : String) : Except Exception StatTypeOperation :=
  match val with
  | "av" => .ok .Average
  | "mx" => .ok .Max
  | "mn" => .ok .Min
  | "sd" => .ok .StandardDeviation
  | _ => .error (.dataModelling
      ("ParseType<StatTypeOperation>::parse Unknown value for StatTypeOperation: " ++ val))

def SingleStatType.dump (v : SingleStatType) : String := v.duration.dump ++ v.operation.dump

/-- `val.substr(first, count)`. -/
def substr (val : String) (first count : ℕ) : String :=
  String.ofList ((val.toList.drop first).take count)

def SingleStatType.parse (val : String) : Except Exception SingleStatType :=
  if val.toList.length ≠ 4 then
    .error (.dataModelling
      ("ParseType<SingleStatType>::parse Unknown value for SingleStatType: " ++ val))
  else do
    let duration ← StatTypeDuration.parse (substr val 0 2)
    let operation ← StatTypeOperation.parse (substr val 2 2)
    .ok { duration, operation }

/-- What the levels are dumped to, the constructor's message included. -/
def dumpLevels (first : SingleStatType) : Option SingleStatType → String
  | some second => first.dump ++ "_" ++ second.dump
  | none => first.dump

def StatType.make (first : SingleStatType) (second : Option SingleStatType) :
    Except Exception StatType :=
  if h : ∀ s ∈ second, s.duration.toNat < first.duration.toNat then
    .ok { firstLevel := first, secondLevel := second, ordered := h }
  else .error (.dataModelling ("StatType: Invalid level combination: " ++ dumpLevels first second))

def StatType.dump (v : StatType) : String := dumpLevels v.firstLevel v.secondLevel

def StatType.parse (val : String) : Except Exception StatType :=
  match val.toList.length with
  | 4 => do
    let first ← SingleStatType.parse (substr val 0 4)
    StatType.make first none
  | 9 =>
    if (val.toList.drop 4).take 1 ≠ ['_'] then
      .error (.dataModelling ("ParseType<StatType>::parse Unknown value for StatType: " ++ val ++
        ". Expected a '_' as forth character."))
    else do
      let first ← SingleStatType.parse (substr val 0 4)
      let second ← SingleStatType.parse (substr val 5 4)
      StatType.make first (some second)
  | _ => .error (.dataModelling ("ParseType<StatType>::parse Unknown value for StatType: " ++ val))

theorem substr_first (s t : String) : substr (s ++ t) 0 s.toList.length = s := by
  rw [substr, List.drop_zero, String.toList_append, List.take_left, String.ofList_toList]

theorem substr_rest (s t : String) : substr (s ++ t) s.toList.length t.toList.length = t := by
  rw [substr, String.toList_append, List.drop_left, List.take_length, String.ofList_toList]

theorem StatTypeDuration.length_dump (v : StatTypeDuration) : v.dump.toList.length = 2 := by
  cases v <;> rfl

theorem StatTypeOperation.length_dump (v : StatTypeOperation) : v.dump.toList.length = 2 := by
  cases v <;> rfl

theorem StatTypeDuration.parse_dump (v : StatTypeDuration) :
    StatTypeDuration.parse v.dump = .ok v := by
  cases v <;> rfl

theorem StatTypeOperation.parse_dump (v : StatTypeOperation) :
    StatTypeOperation.parse v.dump = .ok v := by
  cases v <;> rfl

theorem SingleStatType.length_dump (v : SingleStatType) : v.dump.toList.length = 4 := by
  rw [SingleStatType.dump, String.toList_append, List.length_append, v.duration.length_dump,
    v.operation.length_dump]

theorem SingleStatType.parse_dump (v : SingleStatType) : SingleStatType.parse v.dump = .ok v := by
  have hfirst := substr_first v.duration.dump v.operation.dump
  have hrest := substr_rest v.duration.dump v.operation.dump
  rw [v.duration.length_dump] at hfirst hrest
  rw [v.operation.length_dump] at hrest
  rw [SingleStatType.parse, if_neg (not_not.mpr v.length_dump), SingleStatType.dump, hfirst, hrest,
    v.duration.parse_dump, v.operation.parse_dump]
  rfl

theorem StatType.make_levels (v : StatType) : StatType.make v.firstLevel v.secondLevel = .ok v := by
  rw [StatType.make, dif_pos v.ordered]

theorem StatType.parse_dump (v : StatType) : StatType.parse v.dump = .ok v := by
  have hmake := v.make_levels
  rw [StatType.dump]
  cases hsecond : v.secondLevel with
  | none =>
    have hfirst := substr_first v.firstLevel.dump ""
    rw [v.firstLevel.length_dump, String.append_empty] at hfirst
    rw [hsecond] at hmake
    simp only [dumpLevels, StatType.parse, v.firstLevel.length_dump, hfirst,
      v.firstLevel.parse_dump]
    exact hmake
  | some second =>
    have hunderscore : (v.firstLevel.dump ++ "_").toList.length = 5 := by
      rw [String.toList_append, List.length_append, v.firstLevel.length_dump]
      rfl
    have hfirst := substr_first v.firstLevel.dump ("_" ++ second.dump)
    have hrest := substr_rest (v.firstLevel.dump ++ "_") second.dump
    rw [v.firstLevel.length_dump, ← String.append_assoc] at hfirst
    rw [hunderscore, second.length_dump] at hrest
    have hlen : (v.firstLevel.dump ++ "_" ++ second.dump).toList.length = 9 := by
      rw [String.toList_append, List.length_append, hunderscore, second.length_dump]
    have hsep : ((v.firstLevel.dump ++ "_" ++ second.dump).toList.drop 4).take 1 = ['_'] := by
      rw [String.append_assoc, String.toList_append, ← v.firstLevel.length_dump, List.drop_left,
        String.toList_append]
      rfl
    rw [hsecond] at hmake
    rw [dumpLevels, StatType.parse, hlen]
    simp only
    rw [if_neg (not_not.mpr hsep), hfirst, hrest, v.firstLevel.parse_dump, second.parse_dump]
    exact hmake

/-- The values of `std::int64_t`. -/
def IsInt64 (n : ℤ) : Prop := -2 ^ 63 ≤ n ∧ n < 2 ^ 63

instance (n : ℤ) : Decidable (IsInt64 n) := inferInstanceAs (Decidable (_ ∧ _))

/-- `std::isspace` in the "C" locale. -/
def isSpace (c : Char) : Bool := c = ' ' || ('\t' ≤ c && c ≤ '\r')

/-- `std::stol`: white space, a sign and as many digits as there are; what follows is ignored. -/
def stol (val : List Char) : Except Exception {n : ℤ // IsInt64 n} :=
  let signed := val.dropWhile isSpace
  let digits := if signed.head? = some '-' ∨ signed.head? = some '+' then signed.tail else signed
  match digits.takeWhile Char.isDigit with
  | [] => .error (.invalidArgument "stol")
  | c :: cs =>
    let magnitude : ℤ := Nat.ofDigitChars 10 (c :: cs) 0
    let n := if signed.head? = some '-' then -magnitude else magnitude
    if h : IsInt64 n then .ok ⟨n, h⟩ else .error (.outOfRange "stol")

/-- Decimal digits with an optional sign, and the number they stand for. -/
inductive NumberText : List Char → ℤ → Prop
  | unsigned {ds : List Char} (hne : ds ≠ []) (hdigits : ∀ c ∈ ds, c.isDigit = true) :
      NumberText ds (Nat.ofDigitChars 10 ds 0)
  | plus {ds : List Char} (hne : ds ≠ []) (hdigits : ∀ c ∈ ds, c.isDigit = true) :
      NumberText ('+' :: ds) (Nat.ofDigitChars 10 ds 0)
  | minus {ds : List Char} (hne : ds ≠ []) (hdigits : ∀ c ∈ ds, c.isDigit = true) :
      NumberText ('-' :: ds) (-(Nat.ofDigitChars 10 ds 0))

inductive TimeDuration
  | hours (count : ℤ) (isInt64 : IsInt64 count)
  | seconds (count : ℤ) (isInt64 : IsInt64 count)
  deriving DecidableEq

def TimeDuration.dump : TimeDuration → ℤ ⊕ String
  | .hours count _ => .inl count
  | .seconds count _ => .inr (toString count ++ "s")

def TimeDuration.parseHours (hours : {n : ℤ // IsInt64 n}) : TimeDuration :=
  .hours hours.1 hours.2

def TimeDuration.parse (val : String) : Except Exception TimeDuration :=
  let throwInvalid : Except Exception TimeDuration :=
    .error (.dataModelling ("Invalid time duration: " ++ val))
  match val.toList.getLast? with
  | none => throwInvalid
  | some last =>
    -- without a unit it is a number of hours
    if last = 'h' ∨ last = 's' then
      if val.toList.length = 1 then throwInvalid
      else do
        let value ← stol val.toList.dropLast
        if last = 'h' then .ok (.hours value.1 value.2) else .ok (.seconds value.1 value.2)
    else if last.isDigit then do
      let value ← stol val.toList
      .ok (.hours value.1 value.2)
    else throwInvalid

theorem isSpace_of_isDigit {c : Char} (h : c.isDigit = true) : isSpace c = false := by
  simp only [Char.isDigit, Bool.and_eq_true, decide_eq_true_eq, UInt32.le_iff_toNat_le] at h
  have hspace : c ≠ ' ' := by
    rintro rfl
    exact absurd h.1 (by decide)
  have hcr : ¬ c ≤ '\r' := by
    rw [Char.le_def, UInt32.le_iff_toNat_le]
    intro hle
    have h48 : 48 ≤ c.val.toNat := h.1
    have h13 : c.val.toNat ≤ 13 := hle
    omega
  simp [isSpace, hspace, hcr]

theorem stol_digits {cs : List Char} (hne : cs ≠ []) (hdigits : ∀ c ∈ cs, c.isDigit = true)
    (hrange : IsInt64 (Nat.ofDigitChars 10 cs 0)) :
    stol cs = .ok ⟨Nat.ofDigitChars 10 cs 0, hrange⟩ := by
  obtain ⟨c, cs, rfl⟩ := List.exists_cons_of_ne_nil hne
  have hc := hdigits c List.mem_cons_self
  have hdrop : (c :: cs).dropWhile isSpace = c :: cs := by
    rw [List.dropWhile_cons, isSpace_of_isDigit hc, if_neg Bool.false_ne_true]
  have hminus : c ≠ '-' := by
    rintro rfl
    exact absurd hc (by decide)
  have hplus : c ≠ '+' := by
    rintro rfl
    exact absurd hc (by decide)
  have htake : (c :: cs).takeWhile Char.isDigit = c :: cs := List.takeWhile_eq_self_iff.mpr hdigits
  simp only [stol, hdrop, List.head?_cons, Option.some.injEq, hminus, hplus, or_self, if_false,
    htake, dif_pos hrange]

theorem stol_negative {cs : List Char} (hne : cs ≠ []) (hdigits : ∀ c ∈ cs, c.isDigit = true)
    (hrange : IsInt64 (-(Nat.ofDigitChars 10 cs 0))) :
    stol ('-' :: cs) = .ok ⟨-(Nat.ofDigitChars 10 cs 0), hrange⟩ := by
  obtain ⟨c, cs, rfl⟩ := List.exists_cons_of_ne_nil hne
  have hdrop : ('-' :: c :: cs).dropWhile isSpace = '-' :: c :: cs := rfl
  have htake : (c :: cs).takeWhile Char.isDigit = c :: cs := List.takeWhile_eq_self_iff.mpr hdigits
  simp only [stol, hdrop, List.head?_cons, true_or, if_true, List.tail_cons, htake, dif_pos hrange]

theorem stol_plus {cs : List Char} (hne : cs ≠ []) (hdigits : ∀ c ∈ cs, c.isDigit = true)
    (hrange : IsInt64 (Nat.ofDigitChars 10 cs 0)) :
    stol ('+' :: cs) = .ok ⟨Nat.ofDigitChars 10 cs 0, hrange⟩ := by
  obtain ⟨c, cs, rfl⟩ := List.exists_cons_of_ne_nil hne
  have hdrop : ('+' :: c :: cs).dropWhile isSpace = '+' :: c :: cs := rfl
  have htake : (c :: cs).takeWhile Char.isDigit = c :: cs := List.takeWhile_eq_self_iff.mpr hdigits
  have hminus : ¬ some '+' = some '-' := by decide
  simp only [stol, hdrop, List.head?_cons, or_true, if_true, List.tail_cons, htake, if_neg hminus,
    dif_pos hrange]

theorem NumberText.stol {cs : List Char} {n : ℤ} (h : NumberText cs n) (hn : IsInt64 n) :
    stol cs = .ok ⟨n, hn⟩ := by
  cases h with
  | unsigned hne hdigits => exact stol_digits hne hdigits hn
  | plus hne hdigits => exact stol_plus hne hdigits hn
  | minus hne hdigits => exact stol_negative hne hdigits hn

theorem NumberText.ne_nil {cs : List Char} {n : ℤ} (h : NumberText cs n) : cs ≠ [] := by
  cases h with
  | unsigned hne _ => exact hne
  | plus _ _ => exact List.cons_ne_nil _ _
  | minus _ _ => exact List.cons_ne_nil _ _

theorem NumberText.getLast {cs : List Char} {n : ℤ} (h : NumberText cs n) :
    ∃ c, cs.getLast? = some c ∧ c.isDigit = true := by
  have hlast {ds : List Char} (hne : ds ≠ []) (hdigits : ∀ c ∈ ds, c.isDigit = true) :
      ∃ c, ds.getLast? = some c ∧ c.isDigit = true :=
    ⟨ds.getLast hne, List.getLast?_eq_some_getLast hne, hdigits _ (List.getLast_mem hne)⟩
  cases h with
  | unsigned hne hdigits => exact hlast hne hdigits
  | plus hne hdigits =>
    rw [List.getLast?_cons_of_ne_nil hne]
    exact hlast hne hdigits
  | minus hne hdigits =>
    rw [List.getLast?_cons_of_ne_nil hne]
    exact hlast hne hdigits

theorem numberText_toString (n : ℤ) : NumberText (toString n).toList n := by
  have hdigits : ∀ m : ℕ, ∀ c ∈ Nat.toDigits 10 m, c.isDigit = true := fun m c hc =>
    Nat.isDigit_of_mem_toDigits (by decide) (by decide) hc
  cases n with
  | ofNat m =>
    have htext : (toString (Int.ofNat m)).toList = Nat.toDigits 10 m := Nat.toList_repr
    have hvalue : Nat.ofDigitChars 10 (Nat.toDigits 10 m) 0 = m := Nat.ofDigitChars_ten_toDigits
    have hnumber := NumberText.unsigned Nat.toDigits_ne_nil (hdigits m)
    rw [hvalue] at hnumber
    rw [htext]
    exact hnumber
  | negSucc m =>
    have htext : (toString (Int.negSucc m)).toList = '-' :: Nat.toDigits 10 (m + 1) := by
      change ("-" ++ Nat.repr (m + 1)).toList = _
      rw [String.toList_append, Nat.toList_repr]
      rfl
    have hvalue : Nat.ofDigitChars 10 (Nat.toDigits 10 (m + 1)) 0 = m + 1 :=
      Nat.ofDigitChars_ten_toDigits
    have hnumber := NumberText.minus Nat.toDigits_ne_nil (hdigits (m + 1))
    rw [hvalue] at hnumber
    rw [htext]
    exact hnumber

theorem stol_toString {n : ℤ} (hn : IsInt64 n) : stol (toString n).toList = .ok ⟨n, hn⟩ :=
  (numberText_toString n).stol hn

theorem TimeDuration.parse_seconds {n : ℤ} (hn : IsInt64 n) :
    TimeDuration.parse (toString n ++ "s") = .ok (.seconds n hn) := by
  have hlast : (toString n ++ "s").toList = (toString n).toList ++ ['s'] := String.toList_append
  have hne : (toString n).toList ≠ [] := by
    intro hnil
    have hstol := stol_toString hn
    rw [hnil] at hstol
    cases hstol
  have hlen : ((toString n).toList ++ ['s']).length ≠ 1 := by
    rw [List.length_append, List.length_singleton]
    exact fun h => hne (List.length_eq_zero_iff.mp (by omega))
  simp only [TimeDuration.parse, hlast, List.getLast?_concat, if_neg hlen, List.dropLast_concat,
    stol_toString hn]
  rfl

structure Param where
  id : ℤ
  deriving DecidableEq, Repr

inductive TypeOfProcessedData
  | AnalysisProducts | ForecastProducts | AnalysisAndForecastProducts | ControlForecastProducts
  | PerturbedForecastProducts | ControlAndPerturbedForecastProducts
  | ProcessedSatelliteObservations | ProcessedRadarObservations | EventProbability
  deriving DecidableEq, Repr

namespace TypeOfProcessedData

def dump : TypeOfProcessedData → String
  | .AnalysisProducts => "an"
  | .ForecastProducts => "fc"
  | .AnalysisAndForecastProducts => "af"
  | .ControlForecastProducts => "cf"
  | .PerturbedForecastProducts => "pf"
  | .ControlAndPerturbedForecastProducts => "cp"
  | .ProcessedSatelliteObservations => "sa"
  | .ProcessedRadarObservations => "ra"
  | .EventProbability => "ep"

def throwUnknown (val : String) : Exception :=
  .dataModelling
    ("ParseType<TypeOfProcessedData>::parse Unknown value for TypeOfProcessedData: " ++ val)

def parse (val : String) : Except Exception TypeOfProcessedData :=
  match val with
  | "an" => .ok .AnalysisProducts
  | "fc" => .ok .ForecastProducts
  | "af" => .ok .AnalysisAndForecastProducts
  | "cf" => .ok .ControlForecastProducts
  | "pf" => .ok .PerturbedForecastProducts
  | "cp" => .ok .ControlAndPerturbedForecastProducts
  | "sa" => .ok .ProcessedSatelliteObservations
  | "ra" => .ok .ProcessedRadarObservations
  | "ep" => .ok .EventProbability
  | _ => .error (throwUnknown val)

/-- `parse` of the integer representation. -/
def parseInt64 (i : ℤ) : Except Exception TypeOfProcessedData :=
  match i with
  | 0 => .ok .AnalysisProducts
  | 1 => .ok .ForecastProducts
  | 2 => .ok .AnalysisAndForecastProducts
  | 3 => .ok .ControlForecastProducts
  | 4 => .ok .PerturbedForecastProducts
  | 5 => .ok .ControlAndPerturbedForecastProducts
  | 6 => .ok .ProcessedSatelliteObservations
  | 7 => .ok .ProcessedRadarObservations
  | 8 => .ok .EventProbability
  | _ => .error (throwUnknown (toString i))

theorem parse_dump (v : TypeOfProcessedData) : parse v.dump = .ok v := by
  cases v <;> rfl

end TypeOfProcessedData

end Multio.Datamod
