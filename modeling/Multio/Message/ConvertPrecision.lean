import Multio.Message.BaseMetadata
import Multio.Message.MatcherLists
import Multio.Util.ByteOrder

namespace Multio
open Lib Util Exception

structure FloatConversion where
  /-- `static_cast<float>` of a double and `static_cast<double>` of a float. -/
  toFloat : UInt64 → UInt32
  toDouble : UInt32 → UInt64

/-- `static_cast<To>`, on the bits of the value. -/
def FloatConversion.cast (F : FloatConversion) : PrecisionTag → PrecisionTag → ℕ → ℕ
  | .double, .float, x => (F.toFloat (UInt64.ofNat x)).toNat
  | .float, .double, x => (F.toDouble (UInt32.ofNat x)).toNat
  | _, _, x => x

def PrecisionTag.text : PrecisionTag → String
  | .float => "single"
  | .double => "double"

namespace Message

/-- `n` values read from where `a` points. -/
def readValues (p : PrecisionTag) : ℕ → List UInt8 → List ℕ
  | 0, _ => []
  | n + 1, a => ofLittleEndian (a.take p.size) :: readValues p n (a.drop p.size)

variable (F : FloatConversion) (policy : HashPolicy String) (source target : PrecisionTag)

/-- The loop of `convert_precision`: what it writes for the `n` values that `a` points to. -/
def convertValues : ℕ → List UInt8 → List UInt8
  | 0, _ => []
  | n + 1, a =>
    littleEndian target.size (F.cast source target (ofLittleEndian (a.take source.size))) ++
      convertValues n (a.drop source.size)

/-- `payload().size() / sizeof(From)`. -/
def valueCount (p : PrecisionTag) (msg : Message) : ℕ := msg.size / p.size

def values (p : PrecisionTag) (msg : Message) : List ℕ :=
  readValues p (msg.valueCount p) msg.payload

def convertPrecision (msg : Message) : Message :=
  let buffer := convertValues F source target (msg.valueCount source) msg.payload
  -- the size of a buffer is unsigned, the value of the key is signed
  let md := BaseMetadata.set policy msg.metadata "misc-globalSize"
    (.int64 (Int.bmod buffer.length (2 ^ 64)))
  let md := BaseMetadata.set policy md "misc-precision" (.string target.text)
  { header := { tag := msg.tag, source := msg.source, destination := msg.destination,
                metadata := md }
    payload := buffer }

/-- What the conversion is for: the values in order, and the keys that describe them. -/
structure IsConversion (ctx : Context) (msg out : Message) : Prop where
  values : out.values target = (msg.values source).map (F.cast source target)
  precision : out.precision ctx = .ok target
  globalSize : out.globalSize ctx = .ok (msg.valueCount source)
  size : ∃ n, out.globalSize ctx = .ok n ∧ (out.size : ℤ) = n * target.size

variable {F policy source target}

theorem convertValues_length (n : ℕ) (a : List UInt8) :
    (convertValues F source target n a).length = n * target.size := by
  induction n generalizing a with
  | zero => rw [convertValues, List.length_nil, Nat.zero_mul]
  | succ n ih =>
    rw [convertValues, List.length_append, littleEndian_length, ih, Nat.succ_mul, Nat.add_comm]

theorem cast_lt {x : ℕ} (hx : x < 2 ^ (8 * source.size)) :
    F.cast source target x < 2 ^ (8 * target.size) := by
  cases source with
  | float =>
    cases target with
    | float => exact hx
    | double => exact UInt64.toNat_lt _
  | double =>
    cases target with
    | float => exact UInt32.toNat_lt _
    | double => exact hx

theorem readValues_convertValues (n : ℕ) (a : List UInt8) :
    readValues target n (convertValues F source target n a) =
      (readValues source n a).map (F.cast source target) := by
  induction n generalizing a with
  | zero => rfl
  | succ n ih =>
    have hlt : F.cast source target (ofLittleEndian (a.take source.size)) <
        2 ^ (8 * target.size) := by
      apply cast_lt
      apply (ofLittleEndian_lt _).trans_le
      apply Nat.pow_le_pow_right (by decide)
      rw [List.length_take]
      omega
    rw [convertValues, readValues, readValues, List.map_cons,
      List.take_left' (littleEndian_length _ _), List.drop_left' (littleEndian_length _ _),
      ofLittleEndian_littleEndian hlt, ih]

theorem values_convertPrecision (msg : Message) :
    (convertPrecision F policy source target msg).values target =
      (msg.values source).map (F.cast source target) := by
  have hcount : (convertPrecision F policy source target msg).valueCount target =
      msg.valueCount source := by
    rw [valueCount, size, convertPrecision, convertValues_length]
    exact Nat.mul_div_cancel _ (by cases target <;> decide)
  rw [values, hcount]
  exact readValues_convertValues _ _

section Keys

variable {ctx : Context} {msg : Message} (hmd : msg.metadata.Keyed)

include hmd

theorem precision_convertPrecision :
    (convertPrecision F policy source target msg).precision ctx = .ok target := by
  have hget : Metadata.getOpt MetadataValue.getString ctx.parametrization
      (convertPrecision F policy source target msg).metadata "misc-precision" =
        .ok (some target.text) :=
    BaseMetadata.getOpt_set_self (BaseMetadata.keyed_set hmd _ _) _ (by rfl) _
  have hrequired : (convertPrecision F policy source target msg).header.required ctx
      MetadataValue.getString "misc-precision" = .ok target.text := by
    rw [Header.required]
    exact bind_eq_ok_iff.mpr ⟨_, hget, rfl⟩
  rw [precision, Header.precision, hrequired, ok_bind]
  cases target <;> rfl

theorem globalSize_convertPrecision :
    (convertPrecision F policy source target msg).globalSize ctx =
      .ok (Int.bmod (msg.valueCount source * target.size : ℕ) (2 ^ 64)) := by
  have hget : Metadata.getOpt MetadataValue.getInt64 ctx.parametrization
      (convertPrecision F policy source target msg).metadata "misc-globalSize" =
        .ok (some (Int.bmod (msg.valueCount source * target.size : ℕ) (2 ^ 64))) := by
    refine (BaseMetadata.getOpt_set_of_ne (BaseMetadata.keyed_set hmd _ _) _ _ (by decide) _).trans
      ?_
    refine BaseMetadata.getOpt_set_self hmd _ ?_ _
    rw [convertValues_length]
    rfl
  rw [globalSize, Header.globalSize, Header.required]
  exact bind_eq_ok_iff.mpr ⟨_, hget, rfl⟩

end Keys

theorem bmod_mul_size_eq_iff (n : ℕ) (p : PrecisionTag) :
    Int.bmod (n * p.size : ℕ) (2 ^ 64) = n ↔ n = 0 := by
  constructor
  · intro h
    obtain ⟨q, hq, hcoprime⟩ : ∃ q, p.size = q + 1 ∧ Nat.Coprime (2 ^ 64) q := by
      cases p with
      | float => exact ⟨3, rfl, by decide⟩
      | double => exact ⟨7, rfl, by decide⟩
    have hdvd : ((2 ^ 64 : ℕ) : ℤ) ∣ n - (n * p.size : ℕ) := by
      have hmod := Int.dvd_bmod_sub_self (x := (n * p.size : ℕ)) (m := 2 ^ 64)
      rwa [h] at hmod
    have hrest : (n : ℤ) - (n * p.size : ℕ) = -(n * q : ℕ) := by
      rw [hq, Nat.mul_succ, Int.natCast_add]
      omega
    rw [hrest, Int.dvd_neg, Int.natCast_dvd_natCast] at hdvd
    have hlt : (n : ℤ) < ((2 ^ 64 : ℕ) + 1) / 2 := h ▸ Int.bmod_lt (by decide)
    apply Nat.eq_zero_of_dvd_of_lt (hcoprime.dvd_of_dvd_mul_right hdvd)
    omega
  · rintro rfl
    rw [Nat.zero_mul]
    rfl

/-- The conversion keeps the size metadata if and only if the message has no value. -/
theorem convertPrecision_keeps_sizes_iff (F : FloatConversion) (policy : HashPolicy String)
    (ctx : Context) (source target : PrecisionTag) {msg : Message} (hmd : msg.metadata.Keyed) :
    IsConversion F source target ctx msg (convertPrecision F policy source target msg) ↔
      msg.size < source.size := by
  have hsize : 0 < source.size := by cases source <;> decide
  rw [← Nat.div_eq_zero_iff_lt hsize]
  have hglobal := @globalSize_convertPrecision F policy source target ctx msg hmd
  constructor
  · intro h
    have heq := hglobal.symm.trans h.globalSize
    rw [Except.ok.injEq] at heq
    exact (bmod_mul_size_eq_iff _ _).mp heq
  · intro hcount
    have hzero := (bmod_mul_size_eq_iff (msg.valueCount source) target).mpr hcount
    rw [hzero] at hglobal
    refine ⟨values_convertPrecision msg, precision_convertPrecision hmd, hglobal, _, hglobal, ?_⟩
    rw [size, convertPrecision, convertValues_length, Int.natCast_mul]

end Message

def exactToDouble (bits : UInt32) : UInt64 :=
  (bits.toUInt64 >>> 31 <<< 63) ||| ((bits.toUInt64 >>> 23 &&& 0xFF) + 896) <<< 52 |||
    (bits.toUInt64 &&& 0x7FFFFF) <<< 29

def exactConversion : FloatConversion := { toFloat := exactToFloat, toDouble := exactToDouble }

def twoFloats : Message where
  header :=
    { tag := .field, source := {}, destination := {},
      metadata := { bucketCount := 541,
                    nodes := [("misc-precision", .string "single"),
                              ("misc-globalSize", .int64 2)] } }
  payload := [0, 0, 0x80, 0x3F, 0, 0, 0, 0x3F]

theorem twoFloats_keyed : twoFloats.metadata.Keyed := by
  change ["misc-precision", "misc-globalSize"].Nodup
  decide

example : twoFloats.values .float = [0x3F800000, 0x3F000000] := by decide

example : (twoFloats.convertPrecision exactConversion namePolicy .float .double).values .double =
    [0x3FF0000000000000, 0x3FE0000000000000] := by decide

theorem convertPrecision_keeps_sizes_iff_two :
    Message.IsConversion exactConversion .float .double nameContext.toContext twoFloats
        (twoFloats.convertPrecision exactConversion namePolicy .float .double) ↔
      twoFloats.size < PrecisionTag.float.size :=
  Message.convertPrecision_keeps_sizes_iff exactConversion namePolicy nameContext.toContext .float .double
    twoFloats_keyed

theorem two_floats_have_size_sixteen :
    ¬Message.IsConversion exactConversion .float .double nameContext.toContext twoFloats
        (twoFloats.convertPrecision exactConversion namePolicy .float .double) := by
  intro h
  have hsize := h.globalSize
  rw [Message.globalSize_convertPrecision twoFloats_keyed, Except.ok.injEq] at hsize
  exact absurd hsize (by decide)

end Multio
