import Multio.Action.Statistics.WordContext
import Multio.Action.StatisticsMtg2.FieldSizes
import Multio.Action.StatisticsMtg2.Statistics

namespace Multio.StatisticsMtg2
open Lib Exception

/-- Arithmetic that does not round: every number has a value in a field, and what is computed of
the numbers is computed of their values. -/
structure Unrounded (A : FloatArithmetic) (K : Type) [Field K] where
  value : {p : PrecisionTag} → A.Real p → K
  toDouble : ∀ {p : PrecisionTag} (v : A.Real p), value (A.toDouble v) = value v
  ofDouble : ∀ {p : PrecisionTag} (v : A.Real .double), value (A.ofDouble v : A.Real p) = value v
  ofLong : ∀ {p : PrecisionTag} (n : ℤ), value (A.ofLong n : A.Real p) = n
  add : ∀ {p : PrecisionTag} (v x : A.Real p), value (A.add v x) = value v + value x
  sub : ∀ {p : PrecisionTag} (v x : A.Real p), value (A.sub v x) = value v - value x
  mul : ∀ {p : PrecisionTag} (v x : A.Real p), value (A.mul v x) = value v * value x
  div : ∀ {p : PrecisionTag} (v x : A.Real p), value (A.div v x) = value v / value x
  equal_iff : ∀ {p : PrecisionTag} (v x : A.Real p), A.equal v x = true ↔ value v = value x

/-- A format of `1 + exponent + fraction` bits. -/
structure BinaryFormat where
  exponent : ℕ
  fraction : ℕ

def BinaryFormat.of : PrecisionTag → BinaryFormat
  | .float => { exponent := 8, fraction := 23 }
  | .double => { exponent := 11, fraction := 52 }

namespace BinaryFormat

variable (f : BinaryFormat)

/-- The number of times that the smallest positive number goes into one. -/
def scale : ℕ := 2 ^ (2 ^ (f.exponent - 1) - 2 + f.fraction)

/-- The magnitude of a word without sign, in smallest positive numbers. -/
def units (w : ℕ) : ℕ :=
  if w / 2 ^ f.fraction = 0 then w
  else (2 ^ f.fraction + w % 2 ^ f.fraction) * 2 ^ (w / 2 ^ f.fraction - 1)

def ofUnits (n : ℕ) : ℕ :=
  if n < 2 ^ f.fraction then n
  else
    let k := n.log2 - f.fraction
    (k + 1) * 2 ^ f.fraction + (n / 2 ^ k - 2 ^ f.fraction)

def decode (w : ℕ) : ℚ :=
  let magnitude : ℚ := (f.units (w % 2 ^ (f.exponent + f.fraction)) : ℚ) / f.scale
  if w / 2 ^ (f.exponent + f.fraction) % 2 = 0 then magnitude else -magnitude

def encode (x : ℚ) : ℕ :=
  (if x < 0 then 2 ^ (f.exponent + f.fraction) else 0) + f.ofUnits (x.num.natAbs * f.scale / x.den)

/-- The smallest positive number with all digits, and the largest number. -/
def limitsMin : ℚ := (2 ^ f.fraction : ℕ) / f.scale
def limitsMax : ℚ := (f.units ((2 ^ f.exponent - 1) * 2 ^ f.fraction - 1) : ℚ) / f.scale

end BinaryFormat

example : (BinaryFormat.of .double).decode 0xBFF8000000000000 = -3 / 2 := by decide +kernel
example : (BinaryFormat.of .float).encode (-3 / 2) = 0xBFC00000 := by decide +kernel

/-- The arithmetic of the rational numbers; square roots are exact for squares. -/
def exactArithmetic : FloatArithmetic where
  Real _ := ℚ
  toDouble x := x
  ofDouble x := x
  ofLong n := n
  add x y := x + y
  sub x y := x - y
  mul x y := x * y
  div x y := x / y
  sqrt x := (x.num.toNat.sqrt : ℚ) / x.den.sqrt
  less x y := x < y
  equal x y := x = y
  limitsMin p := (BinaryFormat.of p).limitsMin
  limitsMax p := (BinaryFormat.of p).limitsMax
  bits x := UInt64.ofNat ((BinaryFormat.of .double).encode x)
  ofBits w := (BinaryFormat.of .double).decode w.toNat
  elements p bytes := (List.range (bytes.length / p.size)).map fun n =>
    (BinaryFormat.of p).decode (Statistics.wordAt p bytes n).toNat
  bytes p values := values.flatMap fun x => Util.littleEndian p.size ((BinaryFormat.of p).encode x)

instance (p : PrecisionTag) : DecidableEq (exactArithmetic.Real p) := inferInstanceAs (DecidableEq ℚ)

theorem exactArithmetic_readsValues : ReadsValues exactArithmetic := by
  intro p bytes
  unfold exactArithmetic
  simp only []
  rw [List.length_map, List.length_range]

def exactUnrounded : Unrounded exactArithmetic ℚ where
  value := @fun _ (v : ℚ) => v
  toDouble _ := rfl
  ofDouble _ := rfl
  ofLong _ := rfl
  add _ _ := rfl
  sub _ _ := rfl
  mul _ _ := rfl
  div _ _ := rfl
  equal_iff := @fun _ (v x : ℚ) => decide_eq_true_iff (p := v = x)

def exactValues {p : PrecisionTag} (xs : List ℚ) : List (exactArithmetic.Real p) := xs

def exactContext : Statistics.StatisticsContext :=
  { Statistics.wordContext with arithmetic := exactArithmetic }

def noFiles : RestartIO exactContext.toStatisticsContext where
  Field := Unit
  dump _ := ()
  load _ := .error (.seriousBug "Unable to find the restart field\n")
  makeDate := Statistics.orderedRestart.makeDate
  makeTime := Statistics.orderedRestart.makeTime
  masterCreates _ := true

/-- A field of doubles at a step of an hour, with more entries of its metadata. -/
def hourlyField (step : ℤ) (entries : List (String × MetadataValue)) (values : List ℚ) : Message where
  header :=
    { tag := .field
      source := {}
      destination := {}
      metadata :=
        { bucketCount := 541
          nodes := [("step", .int64 step), ("date", .int64 20200101), ("time", .int64 0),
            ("param", .int64 130), ("levtype", .string "sfc"), ("grid", .string "O320"),
            ("misc-precision", .string "double")] ++ entries } }
  payload := exactArithmetic.bytes .double values

def missing9999 : List (String × MetadataValue) :=
  [("missingValue", .double 0x40C3878000000000), ("bitmapPresent", .bool true)]

def daily (operations : List String) : Config where
  opt := { initialConditionPresent := true, disableStrictMapping := true }
  operations
  outputFrequency := "1d"

end Multio.StatisticsMtg2
