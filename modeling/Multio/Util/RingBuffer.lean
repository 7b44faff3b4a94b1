import Mathlib.Data.List.Induction
import Multio.Lib.SlotQueue

namespace Multio.Util
open Lib

/-- Positions are counted modulo `2 ^ 32` and reduced modulo the number of entries. Without other
threads, what waits for one waits for ever. -/
structure RingBuffer (T : Type) where
  data : List T
  prodHead : UInt32 := 0
  prodTail : UInt32 := 0
  consHead : UInt32 := 0
  consTail : UInt32 := 0
  entries : UInt32

namespace RingBuffer

variable {T : Type}

/-- The constructor; `zero` is what the data are filled with. -/
def make (zero : T) (numEntries : UInt32) : RingBuffer T where
  data := List.replicate numEntries.toNat zero
  entries := numEntries

/-- `push`, or nothing if it waits. -/
def push (rb : RingBuffer T) (item : T) : Option (RingBuffer T) :=
  let prodHead := rb.prodHead
  let prodNext := prodHead + 1
  -- the difference is one of `uint32_t`
  if prodNext - rb.consTail > rb.entries then none
  else
    let data := rb.data.set (prodHead % rb.entries).toNat item
    -- `prodTail_` follows in the order of the pushes
    if rb.prodTail = prodHead then some { rb with data, prodHead := prodNext, prodTail := prodNext }
    else none

/-- `pop` with what it returns, or nothing if it waits. -/
def pop (rb : RingBuffer T) : Option (RingBuffer T × Option T) :=
  let consHead := rb.consHead
  let consNext := consHead + 1
  -- not less than zero: nothing is stored if the positions are the same
  if rb.prodTail - consHead ≤ 0 then some (rb, none)
  else
    let data := rb.data[(consHead % rb.entries).toNat]?
    if rb.consTail = consHead then
      some ({ rb with consHead := consNext, consTail := consNext }, data)
    else none

end RingBuffer

inductive RingOp (T : Type)
  | push (item : T)
  | pop

variable {T : Type}

/-- A run, with what its pops return, or nothing if it comes to wait. -/
def RingBuffer.run (rb : RingBuffer T) : List (RingOp T) → Option (RingBuffer T × List (Option T))
  | [] => some (rb, [])
  | .push x :: ops => do
    let rb ← rb.push x
    rb.run ops
  | .pop :: ops => do
    let (rb, item) ← rb.pop
    let (rb, items) ← rb.run ops
    some (rb, item :: items)

theorem RingBuffer.run_push (rb : RingBuffer T) (x : T) (ops : List (RingOp T)) :
    rb.run (.push x :: ops) = (rb.push x).bind (·.run ops) := rfl

theorem RingBuffer.run_pop (rb : RingBuffer T) (ops : List (RingOp T)) :
    rb.run (.pop :: ops) =
      rb.pop.bind fun r => (r.1.run ops).bind fun r' => some (r'.1, r.2 :: r'.2) := rfl

def queued (xs : List T) : List (RingOp T) → List T
  | [] => xs
  | .push x :: ops => queued (xs ++ [x]) ops
  | .pop :: ops => queued xs.tail ops

def popped (xs : List T) : List (RingOp T) → List (Option T)
  | [] => []
  | .push x :: ops => popped (xs ++ [x]) ops
  | .pop :: ops => xs.head? :: popped xs.tail ops

def pushes : List (RingOp T) → ℕ
  | [] => 0
  | .push _ :: ops => pushes ops + 1
  | .pop :: ops => pushes ops

theorem queued_append (xs : List T) (ops ops' : List (RingOp T)) :
    queued xs (ops ++ ops') = queued (queued xs ops) ops' := by
  induction ops generalizing xs with
  | nil => rfl
  | cons op ops ih =>
    cases op with
    | push x => exact ih _
    | pop => exact ih _

theorem pushes_append (ops ops' : List (RingOp T)) :
    pushes (ops ++ ops') = pushes ops + pushes ops' := by
  induction ops with
  | nil => exact (Nat.zero_add _).symm
  | cons op ops ih =>
    cases op with
    | push x => exact (congrArg (· + 1) ih).trans (Nat.add_right_comm ..)
    | pop => exact ih

/-- Elements are pushed only while fewer than `N` are stored. -/
def Bounded (N : UInt32) (xs : List T) (ops : List (RingOp T)) : Prop :=
  ∀ pre x post, ops = pre ++ .push x :: post → (queued xs pre).length < N.toNat

/-- Where the positions begin anew, an element is pushed only while fewer are stored than the
entries miss to fill `2 ^ 32`; `p` elements were pushed before the run. -/
def ApartOnWrap (N : UInt32) (p : ℕ) (xs : List T) (ops : List (RingOp T)) : Prop :=
  ∀ pre x post, ops = pre ++ .push x :: post → 2 ^ 32 ≤ p + pushes pre →
    (p + pushes pre) % 2 ^ 32 < 2 ^ 32 % N.toNat → (queued xs pre).length < 2 ^ 32 % N.toNat

def WaitsWhenFull (N : UInt32) (ops : List (RingOp T)) : Prop :=
  N.toNat = 2 ^ 32 - 1 → ∀ pre post, ops = pre ++ post → (queued [] pre).length ≠ N.toNat

def RingBuffer.slot (rb : RingBuffer T) (position : UInt32) : ℕ := (position % rb.entries).toNat

/-- In a run, the buffer does what a queue of `N` elements does: nothing waits, the pops return the
same, no element that is stored gets overwritten, and with `N` elements a push would wait. -/
def IsBoundedFifo (zero : T) (N : UInt32) (ops : List (RingOp T)) : Prop :=
  ∀ pre post, ops = pre ++ post →
    ∃ rb, (RingBuffer.make zero N).run pre = some (rb, popped [] pre) ∧
      (∀ x rest, post = .push x :: rest → ∀ i < (queued [] pre).length,
        rb.slot (rb.consHead + UInt32.ofNat i) ≠ rb.slot rb.prodHead) ∧
      ((queued [] pre).length = N.toNat → ∀ x, rb.push x = none)

section

variable {N : UInt32} {p : ℕ} {x : T} {xs : List T} {ops : List (RingOp T)}

theorem bounded_nil (N : UInt32) (xs : List T) : Bounded N xs [] := by
  intro pre x post hops
  simp at hops

theorem bounded_push :
    Bounded N xs (.push x :: ops) ↔ xs.length < N.toNat ∧ Bounded N (xs ++ [x]) ops := by
  constructor
  · intro h
    refine ⟨h [] x ops rfl, fun pre y post hops => ?_⟩
    exact h (.push x :: pre) y post (congrArg (_ :: ·) hops)
  · rintro ⟨hroom, h⟩ pre y post hops
    cases pre with
    | nil =>
      cases hops
      exact hroom
    | cons op pre =>
      cases hops
      exact h pre y post rfl

theorem bounded_pop : Bounded N xs (.pop :: ops) ↔ Bounded N xs.tail ops := by
  constructor
  · exact fun h pre y post hops => h (.pop :: pre) y post (congrArg (_ :: ·) hops)
  · intro h pre y post hops
    cases pre with
    | nil => cases hops
    | cons op pre =>
      cases hops
      exact h pre y post rfl

theorem Bounded.of_append {pre post : List (RingOp T)} (h : Bounded N xs (pre ++ post)) :
    Bounded N xs pre := by
  rintro pre' y post' rfl
  exact h pre' y (post' ++ post) (by simp)

theorem ApartOnWrap.of_push (h : ApartOnWrap N p xs (.push x :: ops)) :
    ApartOnWrap N (p + 1) (xs ++ [x]) ops := by
  intro pre y post hops
  have := h (.push x :: pre) y post (congrArg (_ :: ·) hops)
  have hp : p + pushes (.push x :: pre) = p + 1 + pushes pre := (Nat.add_right_comm p 1 _).symm
  rwa [hp] at this

theorem ApartOnWrap.of_pop (h : ApartOnWrap N p xs (.pop :: ops)) : ApartOnWrap N p xs.tail ops :=
  fun pre y post hops => h (.pop :: pre) y post (congrArg (_ :: ·) hops)

theorem ApartOnWrap.of_append {pre post : List (RingOp T)} (h : ApartOnWrap N p xs (pre ++ post)) :
    ApartOnWrap N p xs pre := by
  rintro pre' y post' rfl
  exact h pre' y (post' ++ post) (by simp)

end

theorem toNat_ofNat_sub {c p : ℕ} (h : c ≤ p) :
    (UInt32.ofNat p - UInt32.ofNat c).toNat = (p - c) % 2 ^ 32 := by
  rw [UInt32.toNat_sub, UInt32.toNat_ofNat', UInt32.toNat_ofNat']
  omega

theorem ofNat_add_one (n : ℕ) : UInt32.ofNat n + 1 = UInt32.ofNat (n + 1) :=
  (UInt32.ofNat_add n 1).symm

namespace RingBuffer

/-- The positions after `p` pushes, with `n` elements stored. -/
structure Counted (rb : RingBuffer T) (N : UInt32) (p n : ℕ) : Prop where
  entries : rb.entries = N
  length : rb.data.length = N.toNat
  prodHead : rb.prodHead = UInt32.ofNat p
  prodTail : rb.prodTail = UInt32.ofNat p
  consHead : rb.consHead = UInt32.ofNat (p - n)
  consTail : rb.consTail = UInt32.ofNat (p - n)
  stored : n ≤ p
  bounded : n ≤ N.toNat

theorem Counted.make (zero : T) (N : UInt32) : (make zero N).Counted N 0 0 where
  entries := rfl
  length := List.length_replicate
  prodHead := rfl
  prodTail := rfl
  consHead := rfl
  consTail := rfl
  stored := le_rfl
  bounded := Nat.zero_le _

section

variable {rb : RingBuffer T} {N : UInt32} {p n : ℕ}

theorem Counted.slot_eq (h : rb.Counted N p n) (i : ℕ) :
    rb.slot (UInt32.ofNat i) = wrappedSlot (2 ^ 32) N.toNat i := by
  unfold slot wrappedSlot
  rw [h.entries, UInt32.toNat_mod, UInt32.toNat_ofNat']

theorem Counted.slot_prodHead (h : rb.Counted N p n) :
    rb.slot rb.prodHead = wrappedSlot (2 ^ 32) N.toNat p := by
  rw [h.prodHead, h.slot_eq]

theorem Counted.slot_consHead_add (h : rb.Counted N p n) (i : ℕ) :
    rb.slot (rb.consHead + UInt32.ofNat i) = wrappedSlot (2 ^ 32) N.toNat (p - n + i) := by
  rw [h.consHead, ← UInt32.ofNat_add, h.slot_eq]

theorem Counted.push (h : rb.Counted N p n) (hroom : n < N.toNat) (x : T) :
    ∃ rb', rb.push x = some rb' ∧ rb'.Counted N (p + 1) (n + 1) ∧
      rb'.data = rb.data.set (wrappedSlot (2 ^ 32) N.toNat p) x := by
  have hlt := N.toNat_lt
  have hstored := h.stored
  have hfits : ¬ rb.prodHead + 1 - rb.consTail > rb.entries := by
    rw [h.prodHead, h.consTail, h.entries, ofNat_add_one, gt_iff_lt, UInt32.lt_iff_toNat_lt,
      toNat_ofNat_sub (by omega)]
    omega
  have hslot : (rb.prodHead % rb.entries).toNat = wrappedSlot (2 ^ 32) N.toNat p := h.slot_prodHead
  have hcons : p - n = p + 1 - (n + 1) := by omega
  refine ⟨_, (if_neg hfits).trans (if_pos (h.prodTail.trans h.prodHead.symm)), ?_, ?_⟩
  · constructor
    · exact h.entries
    · exact (List.length_set ..).trans h.length
    · exact h.prodHead ▸ ofNat_add_one p
    · exact h.prodHead ▸ ofNat_add_one p
    · exact hcons ▸ h.consHead
    · exact hcons ▸ h.consTail
    · omega
    · omega
  · exact congrArg (rb.data.set · x) hslot

/-- A push waits while the buffer is full, if one more than its entries can be counted. -/
theorem Counted.push_full (h : rb.Counted N p N.toNat) (x : T) :
    rb.push x = none ↔ N.toNat ≠ 2 ^ 32 - 1 := by
  have hlt := N.toNat_lt
  have hstored := h.stored
  have hfull : rb.prodHead + 1 - rb.consTail > rb.entries ↔ N.toNat ≠ 2 ^ 32 - 1 := by
    rw [h.prodHead, h.consTail, h.entries, ofNat_add_one, gt_iff_lt, UInt32.lt_iff_toNat_lt,
      toNat_ofNat_sub (by omega)]
    omega
  rw [← hfull]
  constructor
  · intro hnone
    by_contra hfits
    cases ((if_neg hfits).trans (if_pos (h.prodTail.trans h.prodHead.symm))).symm.trans hnone
  · exact fun hwaits => if_pos hwaits

theorem Counted.pop_empty (h : rb.Counted N p 0) : rb.pop = some (rb, none) := by
  apply if_pos
  rw [h.prodTail, h.consHead, UInt32.le_iff_toNat_le, toNat_ofNat_sub (by omega)]
  simp

theorem Counted.pop (h : rb.Counted N p (n + 1)) :
    ∃ rb', rb.pop = some (rb', rb.data[wrappedSlot (2 ^ 32) N.toNat (p - (n + 1))]?) ∧
      rb'.Counted N p n ∧ rb'.data = rb.data := by
  have hlt := N.toNat_lt
  have hstored := h.stored
  have hbounded := h.bounded
  have hsome : ¬ rb.prodTail - rb.consHead ≤ 0 := by
    rw [h.prodTail, h.consHead, UInt32.le_iff_toNat_le, toNat_ofNat_sub (by omega)]
    change ¬ _ ≤ 0
    omega
  have hslot : (rb.consHead % rb.entries).toNat = wrappedSlot (2 ^ 32) N.toNat (p - (n + 1)) := by
    rw [h.consHead]
    exact h.slot_eq _
  have hcons : rb.consHead + 1 = UInt32.ofNat (p - n) := by
    rw [h.consHead, ofNat_add_one]
    congr 1
    omega
  refine ⟨{ rb with consHead := rb.consHead + 1, consTail := rb.consHead + 1 },
    (if_neg hsome).trans ((if_pos (h.consTail.trans h.consHead.symm)).trans ?_), ?_, rfl⟩
  · rw [← hslot]
  · constructor
    · exact h.entries
    · exact h.length
    · exact h.prodHead
    · exact h.prodTail
    · exact hcons
    · exact hcons
    · omega
    · omega

/-- The next push overwrites no stored element exactly if it is in none of the places in which a
position shares the slot of one before the count began anew. -/
theorem Counted.apart_iff (h : rb.Counted N p n) (hroom : n < N.toNat) :
    (∀ i < n, rb.slot (rb.consHead + UInt32.ofNat i) ≠ rb.slot rb.prodHead) ↔
      (2 ^ 32 ≤ p → p % 2 ^ 32 < 2 ^ 32 % N.toNat → n < 2 ^ 32 % N.toNat) := by
  have hlt := N.toNat_lt
  have hstored := h.stored
  have hslot (i : ℕ) (hi : i < n) : rb.slot (rb.consHead + UInt32.ofNat i) = rb.slot rb.prodHead ↔
      2 ^ 32 ≤ p ∧ p % 2 ^ 32 < 2 ^ 32 % N.toNat ∧ p = p - n + i + 2 ^ 32 % N.toNat := by
    rw [h.slot_consHead_add, h.slot_prodHead]
    exact wrappedSlot_eq_iff (by omega) hlt.le (by omega) (by omega)
  constructor
  · intro hapart hwrap hbegin
    by_contra hfar
    -- the element whose slot the next one is to get
    have hi : n - 2 ^ 32 % N.toNat < n := by omega
    exact hapart _ hi ((hslot _ hi).mpr ⟨hwrap, hbegin, by omega⟩)
  · intro hcond i hi heq
    obtain ⟨hwrap, hbegin, hp⟩ := (hslot i hi).mp heq
    have := hcond hwrap hbegin
    omega

end

/-- The elements of a queue are in the slots of their positions. -/
def Holds (rb : RingBuffer T) (N : UInt32) (p : ℕ) (xs : List T) : Prop :=
  Stored (wrappedSlot (2 ^ 32) N.toNat) rb.data (p - xs.length) xs

section

variable {rb rb' : RingBuffer T} {N : UInt32} {p : ℕ} {x : T} {xs : List T} {ops : List (RingOp T)}

theorem Holds.push (hholds : rb.Holds N p xs) (h : rb.Counted N p xs.length)
    (hroom : xs.length < N.toNat)
    (hapart : 2 ^ 32 ≤ p → p % 2 ^ 32 < 2 ^ 32 % N.toNat → xs.length < 2 ^ 32 % N.toNat)
    (hdata : rb'.data = rb.data.set (wrappedSlot (2 ^ 32) N.toNat p) x) :
    rb'.Holds N (p + 1) (xs ++ [x]) := by
  have hstored := h.stored
  have hp : p - xs.length + xs.length = p := by omega
  have hc : p + 1 - (xs ++ [x]).length = p - xs.length := by
    rw [List.length_append, List.length_singleton]
    omega
  have hslots := (h.apart_iff hroom).mpr hapart
  have hstep : Stored (wrappedSlot (2 ^ 32) N.toNat)
      (rb.data.set (wrappedSlot (2 ^ 32) N.toNat (p - xs.length + xs.length)) x) (p - xs.length)
      (xs ++ [x]) := by
    apply Stored.push hholds
    · rw [h.length]
      exact Nat.mod_lt _ (by omega)
    · intro i hi
      rw [hp, ← h.slot_prodHead, ← h.slot_consHead_add]
      exact hslots i hi
  unfold Holds
  rw [hc, hdata, ← hp]
  rwa [hp] at hstep ⊢

theorem Counted.pop_holds {y : T} (h : rb.Counted N p (y :: xs).length) :
    ∃ rb' item, rb.pop = some (rb', item) ∧ rb'.Counted N p xs.length ∧
      (rb.Holds N p (y :: xs) → item = some y ∧ rb'.Holds N p xs) := by
  obtain ⟨rb', hpop, h', hdata⟩ := Counted.pop h
  refine ⟨rb', _, hpop, h', ?_⟩
  intro hholds
  have hstored := h.stored
  have hc : p - (y :: xs).length + 1 = p - xs.length := by
    rw [List.length_cons] at hstored ⊢
    omega
  constructor
  · exact hholds.head
  · unfold Holds
    rw [hdata, ← hc]
    exact hholds.pop

/-- The elements that are stored, from the first to the last one. -/
def items (rb : RingBuffer T) : List T :=
  (List.range (rb.prodTail - rb.consHead).toNat).filterMap fun i =>
    rb.data[rb.slot (rb.consHead + UInt32.ofNat i)]?

/-- No stored element is in the slot that the next push writes to. -/
def Free (rb : RingBuffer T) : Prop :=
  ∀ i < (rb.prodTail - rb.consHead).toNat,
    rb.slot (rb.consHead + UInt32.ofNat i) ≠ rb.slot rb.prodHead

instance (rb : RingBuffer T) : Decidable rb.Free := Nat.decidableBallLT _ _

theorem filterMap_range_getElem? (xs : List T) :
    ((List.range xs.length).filterMap fun i => xs[i]?) = xs := by
  induction xs using List.reverseRecOn with
  | nil => rfl
  | append_singleton xs x ih =>
    have hbefore : ∀ i ∈ List.range xs.length, (xs ++ [x])[i]? = xs[i]? := fun i hi =>
      List.getElem?_append_left (List.mem_range.mp hi)
    rw [List.length_append, List.length_singleton, List.range_succ, List.filterMap_append,
      List.filterMap_congr hbefore, ih]
    simp

theorem Counted.stored_eq {n : ℕ} (h : rb.Counted N p n) :
    (rb.prodTail - rb.consHead).toNat = n := by
  have hlt := N.toNat_lt
  have hstored := h.stored
  have hbounded := h.bounded
  rw [h.prodTail, h.consHead, toNat_ofNat_sub (by omega)]
  omega

theorem Counted.items_eq (h : rb.Counted N p xs.length) (hholds : rb.Holds N p xs) :
    rb.items = xs := by
  unfold items
  rw [h.stored_eq]
  refine Eq.trans (List.filterMap_congr fun i hi => ?_) (filterMap_range_getElem? xs)
  have hi := List.getElem?_eq_getElem (List.mem_range.mp hi)
  rw [h.slot_consHead_add, hi]
  exact hholds i _ hi

def Ordered (rb : RingBuffer T) (N : UInt32) : Prop :=
  ∃ p xs, rb.Counted N p xs.length ∧ rb.Holds N p xs

theorem Ordered.make (zero : T) (N : UInt32) :
    (make zero N).Ordered N ∧ (make zero N).items = [] := by
  have hcounted : (RingBuffer.make zero N).Counted N 0 ([] : List T).length := .make zero N
  have hholds : (RingBuffer.make zero N).Holds N 0 [] := Stored.nil _ _ _
  exact ⟨⟨0, [], hcounted, hholds⟩, hcounted.items_eq hholds⟩

/-- A push that does not wait puts the element behind the others, if its slot is free. -/
theorem Ordered.push (h : rb.Ordered N) (hN : N.toNat ≠ 2 ^ 32 - 1) (hfree : rb.Free)
    (hpush : rb.push x = some rb') : rb'.Ordered N ∧ rb'.items = rb.items ++ [x] := by
  obtain ⟨p, xs, hcounted, hholds⟩ := h
  have hroom : xs.length < N.toNat := by
    by_contra hfull
    have hlen : xs.length = N.toNat := le_antisymm hcounted.bounded (not_lt.mp hfull)
    rw [hlen] at hcounted
    cases ((hcounted.push_full x).mpr hN).symm.trans hpush
  obtain ⟨rb₁, hpush₁, hcounted₁, hdata⟩ := hcounted.push hroom x
  obtain rfl := Option.some.inj (hpush.symm.trans hpush₁)
  unfold Free at hfree
  rw [hcounted.stored_eq] at hfree
  have hholds₁ := hholds.push hcounted hroom ((hcounted.apart_iff hroom).mp hfree) hdata
  have hlen : (xs ++ [x]).length = xs.length + 1 := List.length_append
  rw [← hlen] at hcounted₁
  refine ⟨⟨p + 1, xs ++ [x], hcounted₁, hholds₁⟩, ?_⟩
  rw [hcounted₁.items_eq hholds₁, hcounted.items_eq hholds]

theorem Ordered.pop (h : rb.Ordered N) : rb.items = [] ∧ rb.pop = some (rb, none) ∨
    ∃ x rb', rb.pop = some (rb', some x) ∧ rb'.Ordered N ∧ rb.items = x :: rb'.items := by
  obtain ⟨p, xs, hcounted, hholds⟩ := h
  rw [hcounted.items_eq hholds]
  cases xs with
  | nil => exact Or.inl ⟨rfl, hcounted.pop_empty⟩
  | cons x xs =>
    obtain ⟨rb', item, hpop, hcounted', hitem⟩ := hcounted.pop_holds
    obtain ⟨rfl, hholds'⟩ := hitem hholds
    refine Or.inr ⟨x, rb', hpop, ⟨p, xs, hcounted', hholds'⟩, ?_⟩
    rw [hcounted'.items_eq hholds']

theorem Counted.free_of_lt {n : ℕ} (h : rb.Counted N p n) (hroom : n < N.toNat)
    (hp : p < 2 ^ 32) : rb.Free := by
  unfold Free
  rw [h.stored_eq]
  exact (h.apart_iff hroom).mpr fun hwrap => absurd hp (not_lt.mpr hwrap)

/-- Where the number of entries divides `2 ^ 32`, every push that does not wait does. -/
theorem Ordered.free_of_dvd (h : rb.Ordered N) (hN : N.toNat ∣ 2 ^ 32)
    (hpush : rb.push x = some rb') : rb.Free := by
  obtain ⟨p, xs, hcounted, -⟩ := h
  have hne : N.toNat ≠ 2 ^ 32 - 1 := fun heq => absurd (heq ▸ hN) (by decide)
  have hroom : xs.length < N.toNat := by
    by_contra hfull
    have hlen : xs.length = N.toNat := le_antisymm hcounted.bounded (not_lt.mp hfull)
    rw [hlen] at hcounted
    cases ((hcounted.push_full x).mpr hne).symm.trans hpush
  unfold Free
  rw [hcounted.stored_eq]
  refine (hcounted.apart_iff hroom).mpr fun _ hbegin => ?_
  rw [Nat.mod_eq_zero_of_dvd hN] at hbegin
  exact absurd hbegin (Nat.not_lt_zero _)

/-- A run that never pushes into a full buffer does not wait, and it is that of a queue if no
element gets into the slot of another. -/
theorem Counted.run (h : rb.Counted N p xs.length) (hops : Bounded N xs ops) :
    ∃ rb' items, rb.run ops = some (rb', items) ∧
      rb'.Counted N (p + pushes ops) (queued xs ops).length ∧
      (ApartOnWrap N p xs ops → rb.Holds N p xs →
        items = popped xs ops ∧ rb'.Holds N (p + pushes ops) (queued xs ops)) := by
  -- along the run, with what is stored and the number of pushes before it
  induction ops generalizing rb p xs with
  | nil => exact ⟨rb, [], rfl, h, fun _ hholds => ⟨rfl, hholds⟩⟩
  | cons op ops ih =>
    cases op with
    | push x =>
      have hroom := hops [] x ops rfl
      obtain ⟨rb₁, hpush, h₁, hdata⟩ := h.push hroom x
      have hlen : (xs ++ [x]).length = xs.length + 1 := List.length_append
      rw [← hlen] at h₁
      obtain ⟨rb', items, hrun, h', hitems⟩ := ih h₁ (bounded_push.mp hops).2
      have hp : p + 1 + pushes ops = p + pushes (.push x :: ops) := Nat.add_right_comm ..
      rw [hp] at h' hitems
      refine ⟨rb', items, ?_, h', ?_⟩
      · rw [run_push, hpush]
        exact hrun
      · intro hapart hholds
        exact hitems hapart.of_push (hholds.push h hroom (hapart [] x ops rfl) hdata)
    | pop =>
      obtain ⟨rb₁, item, hpop, h₁, hitem⟩ : ∃ rb₁ item, rb.pop = some (rb₁, item) ∧
          rb₁.Counted N p xs.tail.length ∧
          (rb.Holds N p xs → item = xs.head? ∧ rb₁.Holds N p xs.tail) := by
        cases xs with
        | nil => exact ⟨rb, none, h.pop_empty, h, fun hholds => ⟨rfl, hholds⟩⟩
        | cons y xs => exact h.pop_holds
      obtain ⟨rb', items, hrun, h', hitems⟩ := ih h₁ (bounded_pop.mp hops)
      refine ⟨rb', item :: items, ?_, h', ?_⟩
      · rw [run_pop, hpop, Option.bind_some, hrun]
        rfl
      · intro hapart hholds
        obtain ⟨hhead, hholds₁⟩ := hitem hholds
        obtain ⟨hrest, hholds'⟩ := hitems hapart.of_pop hholds₁
        exact ⟨hhead ▸ hrest ▸ rfl, hholds'⟩

end

end RingBuffer

section

variable {zero : T} {N : UInt32} {ops : List (RingOp T)}

theorem IsBoundedFifo.apartOnWrap (h : IsBoundedFifo zero N ops) (hops : Bounded N [] ops) :
    ApartOnWrap N 0 [] ops := by
  rintro pre x post rfl
  obtain ⟨rb, hrun, hslots, -⟩ := h pre _ rfl
  obtain ⟨rb', items, hrun', hcounted, -⟩ := (RingBuffer.Counted.make zero N).run hops.of_append
  rw [hrun] at hrun'
  cases hrun'
  exact (hcounted.apart_iff (hops pre x post rfl)).mp (hslots x post rfl)

theorem IsBoundedFifo.waitsWhenFull (h : IsBoundedFifo zero N ops) (hops : Bounded N [] ops) :
    WaitsWhenFull N ops := by
  rintro hN pre post rfl hfull
  obtain ⟨rb, hrun, -, hwaits⟩ := h pre _ rfl
  obtain ⟨rb', items, hrun', hcounted, -⟩ := (RingBuffer.Counted.make zero N).run hops.of_append
  rw [hrun] at hrun'
  cases hrun'
  rw [hfull] at hcounted
  exact (hcounted.push_full zero).mp (hwaits hfull zero) hN

theorem ApartOnWrap.isBoundedFifo (h : ApartOnWrap N 0 [] ops) (hfull : WaitsWhenFull N ops)
    (hops : Bounded N [] ops) : IsBoundedFifo zero N ops := by
  rintro pre post rfl
  obtain ⟨rb, items, hrun, hcounted, hitems⟩ :=
    (RingBuffer.Counted.make zero N).run hops.of_append
  obtain ⟨rfl, -⟩ := hitems h.of_append (Stored.nil _ _ _)
  refine ⟨rb, hrun, ?_, ?_⟩
  · rintro x post rfl
    exact (hcounted.apart_iff (hops pre x post rfl)).mpr (h pre x post rfl)
  · intro hlen x
    have hN : N.toNat ≠ 2 ^ 32 - 1 := fun hN => hfull hN pre post rfl hlen
    rw [hlen] at hcounted
    exact (hcounted.push_full x).mpr hN

/-- The runs in which a buffer is a queue of `N` elements are those in which few enough elements are
stored where the positions begin anew, and in which the longest buffer does not fill up. -/
theorem isBoundedFifo_iff (zero : T) (hops : Bounded N [] ops) :
    IsBoundedFifo zero N ops ↔ ApartOnWrap N 0 [] ops ∧ WaitsWhenFull N ops := by
  constructor
  · exact fun h => ⟨h.apartOnWrap hops, h.waitsWhenFull hops⟩
  · exact fun h => h.1.isBoundedFifo h.2 hops

end

theorem isBoundedFifo_iff_two :
    Bounded 2 [] [.push 5, .push 6, .pop, .push 7] ∧
      (IsBoundedFifo 0 2 [.push 5, .push 6, .pop, .push 7] ↔
        ApartOnWrap 2 0 [] [.push 5, .push 6, .pop, .push 7] ∧
          WaitsWhenFull 2 [.push 5, .push 6, .pop, .push 7]) :=
  have hops : Bounded 2 [] [RingOp.push 5, .push 6, .pop, .push 7] :=
    bounded_push.mpr ⟨by decide, bounded_push.mpr ⟨by decide, bounded_pop.mpr
      (bounded_push.mpr ⟨by decide, bounded_nil _ _⟩)⟩⟩
  ⟨hops, isBoundedFifo_iff 0 hops⟩

/-- The element `0`, pushed and popped `n` times. -/
def drained : ℕ → List (RingOp ℕ)
  | 0 => []
  | n + 1 => .push 0 :: .pop :: drained n

theorem queued_drained (n : ℕ) : queued [] (drained n) = [] := by
  induction n with
  | zero => rfl
  | succ n ih => exact ih

theorem pushes_drained (n : ℕ) : pushes (drained n) = n := by
  induction n with
  | zero => rfl
  | succ n ih => exact congrArg (· + 1) ih

theorem bounded_drained {N : UInt32} (hN : 0 < N.toNat) (n : ℕ) {ops : List (RingOp ℕ)}
    (hops : Bounded N [] ops) : Bounded N [] (drained n ++ ops) := by
  induction n with
  | zero => exact hops
  | succ n ih => exact bounded_push.mpr ⟨hN, bounded_pop.mpr ih⟩

/-- Three entries: with one element stored, the position `2 ^ 32` is in its slot. -/
theorem ringBuffer_overwrites :
    ¬ ∀ N : UInt32, 0 < N → ∀ ops : List (RingOp ℕ), Bounded N [] ops → IsBoundedFifo 0 N ops := by
  intro hfifo
  have hops : Bounded 3 [] (drained (2 ^ 32 - 1) ++ [.push 1, .push 2]) := by
    apply bounded_drained (by decide)
    exact bounded_push.mpr ⟨by decide, bounded_push.mpr ⟨by decide, bounded_nil _ _⟩⟩
  have hapart := (hfifo 3 (by decide) _ hops).apartOnWrap hops
  have hwrap := hapart (drained (2 ^ 32 - 1) ++ [.push 1]) 2 [] (by simp)
  rw [pushes_append, queued_append, pushes_drained, queued_drained] at hwrap
  exact absurd (hwrap (by decide) (by decide)) (by decide)

end Multio.Util
