import Multio.Action.Statistics.OperationSizes
import Multio.Action.Statistics.Restart
import Multio.Lib.GregorianCalendar
import Multio.Util.ByteOrder

namespace Multio.Statistics
open Lib StatisticsMtg2 Exception Util

/-- The `n`-th value in memory. -/
def wordAt (p : PrecisionTag) (bytes : List UInt8) (n : ℕ) : UInt64 :=
  UInt64.ofNat (ofLittleEndian ((bytes.drop (n * p.size)).take p.size))

def wordArithmetic : FloatArithmetic where
  Real _ := UInt64
  toDouble v := v
  ofDouble v := v
  ofLong n := if n = 0 then 0 else 0x3FF0000000000000
  add v w := v + w
  sub v w := v - w
  mul v w := v * w
  div v w := v / w
  sqrt v := v
  less v w := v < w
  equal v w := v = w
  limitsMin p := if p = .float then 0x3810000000000000 else 0x0010000000000000
  limitsMax p := if p = .float then 0x47EFFFFFE0000000 else 0x7FEFFFFFFFFFFFFF
  bits v := v
  ofBits w := w
  elements p bytes := (List.range (bytes.length / p.size)).map (wordAt p bytes)
  bytes p values := values.flatMap fun v => littleEndian p.size v.toNat

theorem wordArithmetic_lawful : Lawful wordArithmetic where
  elements_length p bytes := by
    unfold wordArithmetic
    simp only []
    rw [List.length_map, List.length_range]
  ofDouble_toDouble _ := rfl
  ofBits_bits _ := rfl

def wordContext : StatisticsContext where
  parametrization := { bucketCount := 1 }
  toString _ := ""
  arithmetic := wordArithmetic
  calendar := Calendar.gregorian
  parseDate n := .ok (Calendar.gregorian.date (n / 10000) (n / 100 % 100) (n % 100))
  parseTime h m := .ok (3600 * h + 60 * m)
  printDateTime _ := ""
  policy := { hash := String.length, nextBucketCount := fun _ => 541 }
  parseTimeDuration v := v.getInt64
  parseParam v := v.getInt64
  parseGrid v := v.getString
  parseTruncation v := v.getInt64
  parseStatType _ := .error (.dataModelling "StatType")
  dumpStatType _ := ""
  paramMapping _ _ := none
  operationMapping _ := none
  hash _ := 0

def orderedRestart : RestartLibrary where
  listing names := names
  makeDate y m d := .ok (Calendar.gregorian.date y m d)
  makeTime h m s := .ok (3600 * h + 60 * m + s)
  masterCreates _ := true

/-- A field of one value at a step, an hour after the one before. -/
def fieldMessage (step : ℤ) : Message where
  header :=
    { tag := .field
      source := {}
      destination := {}
      metadata :=
        { bucketCount := 541
          nodes := [("step", .int64 step), ("startDate", .int64 20200101), ("startTime", .int64 0),
            ("level", .int64 0), ("param", .string "130"), ("levtype", .string "sfc"),
            ("gridType", .string "regular_ll"), ("misc-precision", .string "double")] } }
  payload := [0, 0, 0, 0, 0, 0, 0xF0, 0x3F]

end Multio.Statistics
