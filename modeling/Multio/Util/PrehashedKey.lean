import Multio.Lib.HashTable
import Multio.Lib.WordMixing

namespace Multio.Util
open Lib

/-- A `char` as an operand of a `std::uint64_t`: its sign is extended. -/
def charWord (c : UInt8) : UInt64 := c.toInt8.toInt64.toUInt64

/-- The characters up to the index `size` enter the hash. -/
def hashFNV1A64 (s : ℕ → UInt8) : ℕ → UInt64
  | 0 => (14695981039346656037 ^^^ charWord (s 0)) * 1099511628211
  | size + 1 => (hashFNV1A64 s size ^^^ charWord (s (size + 1))) * 1099511628211

/-- The characters that a view is on, with the memory that they are at the beginning of. -/
structure View where
  memory : ℕ → UInt8
  size : ℕ

namespace View

def chars (v : View) : List UInt8 := (List.range v.size).map v.memory

def after (v : View) : UInt8 := v.memory v.size

/-- The memory of a `std::string`, which ends with a zero. -/
def ofString (chars : List UInt8) : View where
  memory i := chars.getD i 0
  size := chars.length

/-- `substr(0, size)` of a view. -/
def take (v : View) (size : ℕ) : View := { v with size := min size v.size }

end View

/-- A key of either type: the constructors that convert one into the other copy both members. -/
structure PrehashedKey where
  value : List UInt8
  hash : UInt64

namespace PrehashedKey

def make (v : View) : PrehashedKey where
  value := v.chars
  hash := hashFNV1A64 v.memory v.size

/-- `std::equal_to`: the hashes are compared before the characters. -/
def equalTo (lhs rhs : PrehashedKey) : Bool := lhs.hash = rhs.hash && lhs.value = rhs.value

theorem equalTo_iff {lhs rhs : PrehashedKey} : equalTo lhs rhs = true ↔ lhs = rhs := by
  cases lhs
  cases rhs
  simp [equalTo, and_comm]

instance : DecidableEq PrehashedKey := fun _ _ => decidable_of_iff _ equalTo_iff

end PrehashedKey

theorem charWord_injective : Function.Injective charWord := by
  have hleft : Function.LeftInverse (fun w : UInt64 => w.toInt64.toInt8.toUInt8) charWord := by
    intro c
    unfold charWord
    dsimp only
    rw [Int64.toInt64_toUInt64, Int8.toInt8_toInt64, UInt8.toUInt8_toInt8]
  exact hleft.injective

theorem mix_inj {h h' w w' : UInt64} (heq : h = h' ∨ w = w') :
    (h ^^^ w) * 1099511628211 = (h' ^^^ w') * 1099511628211 ↔ h = h' ∧ w = w' := by
  -- the factor is odd
  rw [← Word.agreeTo_64, Word.agreeTo_mul_right le_rfl (by rfl)]
  rcases heq with rfl | rfl
  · rw [Word.agreeTo_xor_left, Word.agreeTo_64]
    exact (and_iff_right rfl).symm
  · rw [Word.agreeTo_xor_right, Word.agreeTo_64]
    exact (and_iff_left rfl).symm

/-- Only the last of the characters that enter the hash is one that the views do not share. -/
theorem hashFNV1A64_eq_iff {s s' : ℕ → UInt8} {size : ℕ} (h : ∀ i < size, s i = s' i) :
    hashFNV1A64 s size = hashFNV1A64 s' size ↔ s size = s' size := by
  induction size with
  | zero =>
    rw [hashFNV1A64, hashFNV1A64, mix_inj (Or.inl rfl), charWord_injective.eq_iff]
    exact and_iff_right rfl
  | succ size ih =>
    -- all rounds but the last are those of equal characters
    have hrounds := (ih fun i hi => h i (by omega)).mpr (h size (by omega))
    rw [hashFNV1A64, hashFNV1A64, mix_inj (Or.inl hrounds), charWord_injective.eq_iff]
    exact and_iff_right hrounds

namespace View

@[simp] theorem length_chars (v : View) : v.chars.length = v.size := by simp [chars]

theorem chars_eq_iff {v v' : View} :
    v.chars = v'.chars ↔ v.size = v'.size ∧ ∀ i < v.size, v.memory i = v'.memory i := by
  constructor
  · intro h
    have hsize : v.size = v'.size := by simpa using congrArg List.length h
    refine ⟨hsize, fun i hi => ?_⟩
    have hget := congrArg (·[i]?) h
    simpa [chars, hi, hsize ▸ hi] using hget
  · rintro ⟨hsize, hmemory⟩
    unfold chars
    rw [← hsize]
    exact List.map_congr_left fun i hi => hmemory i (List.mem_range.mp hi)

end View

theorem PrehashedKey.make_eq_iff {v v' : View} (h : v.chars = v'.chars) :
    make v = make v' ↔ v.after = v'.after := by
  obtain ⟨hsize, hmemory⟩ := View.chars_eq_iff.mp h
  unfold View.after
  rw [← hsize, ← hashFNV1A64_eq_iff hmemory]
  simp [make, h, hsize]

inductive MapOp (ν : Type)
  | insertOrAssign (key : View) (value : ν)
  | tryEmplace (key : View) (value : ν)
  | erase (key : View)

namespace MapOp

variable {ν : Type}

def key : MapOp ν → View
  | insertOrAssign key _ => key
  | tryEmplace key _ => key
  | erase key => key

def effect : MapOp ν → Option ν → Option ν
  | insertOrAssign _ value, _ => some value
  | tryEmplace _ value, old => old.or (some value)
  | erase _, _ => none

end MapOp

abbrev PrehashedMap (ν : Type) := HashTable PrehashedKey ν

namespace PrehashedMap

variable {ν : Type}

/-- `std::hash` reads the hash that the key has, and the map grows as it likes. -/
def policy (nextBucketCount : ℕ → ℕ) : HashPolicy PrehashedKey where
  hash key := key.hash.toNat
  nextBucketCount := nextBucketCount

def apply (p : HashPolicy PrehashedKey) (m : PrehashedMap ν) : MapOp ν → PrehashedMap ν
  | .insertOrAssign key value => m.insertOrAssign p (.make key) value
  | .tryEmplace key value => m.tryEmplace p (.make key) value
  | .erase key => m.erase (.make key)

def run (p : HashPolicy PrehashedKey) (bucketCount : ℕ) (ops : List (MapOp ν)) : PrehashedMap ν :=
  ops.foldl (apply p) { bucketCount }

def contents (ops : List (MapOp ν)) (chars : List UInt8) : Option ν :=
  ops.foldl (fun value op => if op.key.chars = chars then op.effect value else value) none

variable {p : HashPolicy PrehashedKey} {m : PrehashedMap ν}

theorem keyed_apply (hm : m.Keyed) (op : MapOp ν) : (apply p m op).Keyed := by
  cases op with
  | insertOrAssign key value => exact hm.insertOrAssign p _ value
  | tryEmplace key value => exact hm.tryEmplace p _ value
  | erase key => exact HashTable.Keyed.erase hm _

theorem find?_apply (hm : m.Keyed) (op : MapOp ν) (k : PrehashedKey) :
    (apply p m op).find? k =
      if k = .make op.key then op.effect (m.find? k) else m.find? k := by
  cases op with
  | insertOrAssign key value => exact hm.find?_insertOrAssign p _ value k
  | tryEmplace key value => exact hm.find?_tryEmplace p _ value k
  | erase key => exact HashTable.find?_erase m _ k

/-- The map has the value of the view's characters, and under no other key with them another. -/
structure Coherent (m : PrehashedMap ν) (v : View) (value : Option ν) : Prop where
  keyed : m.Keyed
  find?_make : m.find? (.make v) = value
  find?_other : ∀ k : PrehashedKey, k.value = v.chars → k ≠ .make v → m.find? k = none

theorem Coherent.apply {v : View} {value : Option ν} (h : Coherent m v value) {op : MapOp ν}
    (hop : op.key.chars = v.chars → op.key.after = v.after) :
    Coherent (apply p m op) v (if op.key.chars = v.chars then op.effect value else value) where
  keyed := keyed_apply h.keyed op
  find?_make := by
    rw [find?_apply h.keyed, h.find?_make]
    by_cases hchars : op.key.chars = v.chars
    · have hkey := (PrehashedKey.make_eq_iff hchars).mpr (hop hchars)
      rw [if_pos hkey.symm, if_pos hchars]
    · have hkey : PrehashedKey.make v ≠ .make op.key := by
        intro heq
        exact hchars (congrArg PrehashedKey.value heq).symm
      rw [if_neg hkey, if_neg hchars]
  find?_other k hvalue hk := by
    have hkey : k ≠ .make op.key := by
      rintro rfl
      exact hk ((PrehashedKey.make_eq_iff hvalue).mpr (hop hvalue))
    rw [find?_apply h.keyed, if_neg hkey, h.find?_other k hvalue hk]

theorem Coherent.foldl {v : View} {value : Option ν} (h : Coherent m v value)
    {ops : List (MapOp ν)} (hops : ∀ op ∈ ops, op.key.chars = v.chars → op.key.after = v.after) :
    Coherent (ops.foldl (PrehashedMap.apply p) m) v
      (ops.foldl (fun value op => if op.key.chars = v.chars then op.effect value else value)
        value) := by
  induction ops generalizing m value with
  | nil => exact h
  | cons op ops ih =>
    rw [List.forall_mem_cons] at hops
    exact ih (h.apply hops.1) hops.2

theorem coherent_run (bucketCount : ℕ) {v : View} {ops : List (MapOp ν)}
    (hops : ∀ op ∈ ops, op.key.chars = v.chars → op.key.after = v.after) :
    Coherent (run p bucketCount ops) v (contents ops v.chars) := by
  have hempty : Coherent (ν := ν) { bucketCount } v none := ⟨List.nodup_nil, rfl, fun _ _ _ => rfl⟩
  exact hempty.foldl hops

theorem Coherent.isSome_iff {v : View} {value : Option ν} (h : Coherent m v value) :
    (m.find? (.make v)).isSome ↔ ∃ e ∈ m.nodes, e.1.value = v.chars := by
  constructor
  · intro hfound
    obtain ⟨e, he, hkey⟩ := List.mem_map.mp (HashTable.contains_iff.mp hfound)
    exact ⟨e, he, by rw [hkey]; rfl⟩
  · rintro ⟨e, he, hvalue⟩
    by_contra hnone
    have hfind := h.keyed.find?_eq_some_iff.mpr he
    by_cases hkey : e.1 = .make v
    · rw [hkey] at hfind
      exact hnone (hfind ▸ rfl)
    · rw [h.find?_other _ hvalue hkey] at hfind
      contradiction

end PrehashedMap

/-- Keys with the same characters are equal when the same byte comes after them, and a
map in which all keys with the characters were made in front of one finds them. -/
theorem prehashedKey_iff {ν : Type} (p : ℕ → ℕ) (bucketCount : ℕ) (v v' : View)
    (hchars : v.chars = v'.chars) (ops : List (MapOp ν))
    (hops : ∀ op ∈ ops, op.key.chars = v.chars → op.key.after = v.after) :
    ((PrehashedKey.make v).hash = (PrehashedKey.make v').hash ∧
        PrehashedKey.equalTo (.make v) (.make v') = true ↔ v.after = v'.after) ∧
      (PrehashedMap.run (PrehashedMap.policy p) bucketCount ops).find? (.make v) =
        PrehashedMap.contents ops v.chars ∧
      (((PrehashedMap.run (PrehashedMap.policy p) bucketCount ops).find? (.make v)).isSome ↔
        ∃ e ∈ (PrehashedMap.run (PrehashedMap.policy p) bucketCount ops).nodes,
          e.1.value = v.chars) := by
  have hcoherent := PrehashedMap.coherent_run (p := PrehashedMap.policy p) bucketCount hops
  refine ⟨?_, hcoherent.find?_make, hcoherent.isSome_iff⟩
  rw [PrehashedKey.equalTo_iff, ← PrehashedKey.make_eq_iff hchars]
  exact and_iff_right_of_imp (congrArg PrehashedKey.hash)

/-- `"a"` in front of its zero, and set, erased and set again through a literal. -/
theorem prehashedKey_literal :
    let a := View.ofString [97]
    let ops := [MapOp.insertOrAssign a 1, .erase a, .tryEmplace (.ofString [97, 98]) 2,
      .tryEmplace a 3]
    (PrehashedMap.run (PrehashedMap.policy id) 13 ops).find? (.make a) = some 3 :=
  (prehashedKey_iff id 13 (View.ofString [97]) (View.ofString [97]) rfl
    [MapOp.insertOrAssign (View.ofString [97]) 1, .erase (View.ofString [97]),
      .tryEmplace (.ofString [97, 98]) 2, .tryEmplace (View.ofString [97]) 3]
    (by decide)).2.1.trans (by decide)

/-- The first character of `"ab"` is not the key `"a"`: `98` enters its hash. -/
theorem prehashedKey_substring :
    let a := View.ofString [97]
    let v := (View.ofString [97, 98]).take 1
    let m := PrehashedMap.run (PrehashedMap.policy id) 13 [MapOp.insertOrAssign a 1]
    v.chars = a.chars ∧ (PrehashedKey.make v).hash ≠ (PrehashedKey.make a).hash ∧
      PrehashedKey.equalTo (.make v) (.make a) = false ∧
      (m.find? (.make v)).isSome = false ∧ ∃ e ∈ m.nodes, e.1.value = v.chars := by
  decide +kernel

end Multio.Util
