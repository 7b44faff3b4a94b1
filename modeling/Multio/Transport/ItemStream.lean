import Multio.Message.Wire
import Multio.Util.ByteOrder

namespace Multio.Transport
open Exception Lib Util

/-- How an item is put on a stream, and taken from it. What is within the ranges of the stream
comes out as it went in. -/
structure ItemStream where
  write : StreamItem → List UInt8
  read : List UInt8 → Except Exception (StreamItem × List UInt8)
  Fits : StreamItem → Prop
  read_write : ∀ item rest, Fits item → read (write item ++ rest) = .ok (item, rest)
  read_length : ∀ bytes item rest, read bytes = .ok (item, rest) → rest.length < bytes.length

namespace ItemStream

variable (st : ItemStream)

def readItems : ℕ → List UInt8 → Except Exception (List StreamItem × List UInt8)
  | 0, bytes => .ok ([], bytes)
  | n + 1, bytes => do
    let (item, bytes) ← st.read bytes
    let (rest, bytes) ← readItems n bytes
    .ok (item :: rest, bytes)

theorem readItems_write {items : List StreamItem} (hitems : ∀ item ∈ items, st.Fits item)
    (rest : List UInt8) :
    st.readItems items.length (items.flatMap st.write ++ rest) = .ok (items, rest) := by
  induction items with
  | nil => rfl
  | cons item items ih =>
    obtain ⟨hitem, hitems⟩ := List.forall_mem_cons.mp hitems
    rw [List.length_cons, ItemStream.readItems, List.flatMap_cons, List.append_assoc,
      st.read_write _ _ hitem, ok_bind]
    simp only
    rw [ih hitems, ok_bind]

theorem read_nil (item : StreamItem) (rest : List UInt8) : st.read [] ≠ .ok (item, rest) :=
  fun h => Nat.not_lt_zero _ (st.read_length _ _ _ h)

theorem readItems_length {st : ItemStream} {n : ℕ} {bytes rest : List UInt8}
    {items : List StreamItem} (h : st.readItems n bytes = .ok (items, rest)) :
    rest.length + n ≤ bytes.length := by
  induction n generalizing bytes items with
  | zero =>
    obtain ⟨-, rfl⟩ := Prod.mk.inj (Except.ok.inj h)
    exact le_rfl
  | succ n ih =>
    rw [ItemStream.readItems] at h
    obtain ⟨⟨item, bytes'⟩, hread, h⟩ := bind_eq_ok_iff.mp h
    obtain ⟨⟨items', rest'⟩, hrest, h⟩ := bind_eq_ok_iff.mp h
    obtain ⟨-, rfl⟩ := Prod.mk.inj (Except.ok.inj h)
    have hle := ih hrest
    have hlt := st.read_length _ _ _ hread
    omega

end ItemStream

/-- A tag and what follows it, for each item of a stream: numbers of four or eight bytes, and
strings and blobs behind their lengths. -/
def taggedItem : StreamItem → List UInt8
  | .unsigned v => 1 :: littleEndian 4 v
  | .string v => 2 :: (littleEndian 4 v.length ++ v.toList.map fun c => UInt8.ofNat c.toNat)
  | .size v => 3 :: littleEndian 8 v
  | .blob v => 4 :: (littleEndian 4 v.length ++ v)

def FitsTagged : StreamItem → Prop
  | .unsigned v => v < 2 ^ 32
  | .string v => v.length < 2 ^ 32 ∧ ∀ c ∈ v.toList, c.toNat < 2 ^ 8
  | .size v => v < 2 ^ 64
  | .blob v => v.length < 2 ^ 32

instance : DecidablePred FitsTagged
  | .unsigned _ => Nat.decLt _ _
  | .string _ => @instDecidableAnd _ _ _ (List.decidableBAll _ _)
  | .size _ => Nat.decLt _ _
  | .blob _ => Nat.decLt _ _

def takeBytes (n : ℕ) (bytes : List UInt8) : Except Exception (List UInt8 × List UInt8) :=
  if n ≤ bytes.length then .ok (bytes.take n, bytes.drop n)
  else .error (.seriousBug "end of stream")

def takeBlock (bytes : List UInt8) : Except Exception (List UInt8 × List UInt8) := do
  let (n, bytes) ← takeBytes 4 bytes
  takeBytes (ofLittleEndian n) bytes

def charOf (b : UInt8) : Char := Char.ofNat b.toNat

/-- The item that some bytes make, with what is left behind them. -/
def asItem (f : List UInt8 → StreamItem) (x : Except Exception (List UInt8 × List UInt8)) :
    Except Exception (StreamItem × List UInt8) := x.map fun y => (f y.1, y.2)

def readTaggedItem : List UInt8 → Except Exception (StreamItem × List UInt8)
  | [] => .error (.seriousBug "end of stream")
  | tag :: bytes =>
    if tag = 1 then asItem (fun b => .unsigned (ofLittleEndian b)) (takeBytes 4 bytes)
    else if tag = 2 then asItem (fun b => .string (String.ofList (b.map charOf))) (takeBlock bytes)
    else if tag = 3 then asItem (fun b => .size (ofLittleEndian b)) (takeBytes 8 bytes)
    else asItem .blob (takeBlock bytes)

theorem takeBytes_append {n : ℕ} {bytes : List UInt8} (hn : bytes.length = n)
    (rest : List UInt8) : takeBytes n (bytes ++ rest) = .ok (bytes, rest) := by
  unfold takeBytes
  rw [if_pos (by rw [List.length_append]; omega), List.take_left' hn, List.drop_left' hn]

theorem takeBlock_append {bytes : List UInt8} (hlength : bytes.length < 2 ^ 32)
    (rest : List UInt8) :
    takeBlock (littleEndian 4 bytes.length ++ bytes ++ rest) = .ok (bytes, rest) := by
  unfold takeBlock
  rw [List.append_assoc, takeBytes_append (littleEndian_length _ _), ok_bind]
  simp only
  rw [ofLittleEndian_littleEndian hlength, takeBytes_append rfl]

theorem takeBytes_length {n : ℕ} {bytes taken rest : List UInt8}
    (h : takeBytes n bytes = .ok (taken, rest)) : rest.length ≤ bytes.length := by
  unfold takeBytes at h
  split_ifs at h
  obtain ⟨-, rfl⟩ := Prod.mk.inj (Except.ok.inj h)
  rw [List.length_drop]
  exact Nat.sub_le _ _

theorem takeBlock_length {bytes taken rest : List UInt8}
    (h : takeBlock bytes = .ok (taken, rest)) : rest.length ≤ bytes.length := by
  unfold takeBlock at h
  obtain ⟨⟨n, bytes'⟩, hn, h⟩ := bind_eq_ok_iff.mp h
  exact (takeBytes_length h).trans (takeBytes_length hn)

theorem charOf_ofNat {c : Char} (hc : c.toNat < 2 ^ 8) : charOf (UInt8.ofNat c.toNat) = c := by
  rw [charOf, UInt8.toNat_ofNat_of_lt' hc, Char.ofNat_toNat]

theorem readTaggedItem_taggedItem {item : StreamItem} (hitem : FitsTagged item)
    (rest : List UInt8) : readTaggedItem (taggedItem item ++ rest) = .ok (item, rest) := by
  cases item with
  | unsigned v =>
    rw [taggedItem, List.cons_append, readTaggedItem, if_pos rfl,
      takeBytes_append (littleEndian_length _ _), asItem, Except.map,
      ofLittleEndian_littleEndian hitem]
  | string v =>
    have hchars : (v.toList.map fun c => UInt8.ofNat c.toNat).map charOf = v.toList := by
      rw [List.map_map]
      exact (List.map_congr_left fun c hc => charOf_ofNat (hitem.2 c hc)).trans (List.map_id _)
    have hlength : (v.toList.map fun c => UInt8.ofNat c.toNat).length = v.length := by
      rw [List.length_map, String.length_toList]
    rw [taggedItem, List.cons_append, readTaggedItem, if_neg (by decide), if_pos rfl, ← hlength,
      takeBlock_append (hlength ▸ hitem.1), asItem, Except.map, hchars, String.ofList_toList]
  | size v =>
    rw [taggedItem, List.cons_append, readTaggedItem, if_neg (by decide), if_neg (by decide),
      if_pos rfl, takeBytes_append (littleEndian_length _ _), asItem, Except.map,
      ofLittleEndian_littleEndian hitem]
  | blob v =>
    rw [taggedItem, List.cons_append, readTaggedItem, if_neg (by decide), if_neg (by decide),
      if_neg (by decide), takeBlock_append hitem, asItem, Except.map]

theorem exists_of_asItem {f : List UInt8 → StreamItem}
    {x : Except Exception (List UInt8 × List UInt8)} {item : StreamItem} {rest : List UInt8}
    (h : asItem f x = .ok (item, rest)) : ∃ taken, x = .ok (taken, rest) := by
  cases x with
  | error e => cases h
  | ok y =>
    obtain ⟨-, rfl⟩ := Prod.mk.inj (Except.ok.inj h)
    exact ⟨y.1, rfl⟩

theorem readTaggedItem_length {bytes rest : List UInt8} {item : StreamItem}
    (h : readTaggedItem bytes = .ok (item, rest)) : rest.length < bytes.length := by
  cases bytes with
  | nil => cases h
  | cons tag bytes =>
    rw [List.length_cons, Nat.lt_succ_iff]
    rw [readTaggedItem] at h
    split_ifs at h
    · obtain ⟨taken, htaken⟩ := exists_of_asItem h
      exact takeBytes_length htaken
    · obtain ⟨taken, htaken⟩ := exists_of_asItem h
      exact takeBlock_length htaken
    · obtain ⟨taken, htaken⟩ := exists_of_asItem h
      exact takeBytes_length htaken
    · obtain ⟨taken, htaken⟩ := exists_of_asItem h
      exact takeBlock_length htaken

def taggedStream : ItemStream where
  write := taggedItem
  read := readTaggedItem
  Fits := FitsTagged
  read_write _ rest hitem := readTaggedItem_taggedItem hitem rest
  read_length _ _ _ h := readTaggedItem_length h

end Multio.Transport
