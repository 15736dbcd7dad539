import Mathlib.Data.Nat.Bitwise
import Mathlib.Logic.Function.Basic

/-!
# `SlidingRingBuffer`

`components/SlidingRingBuffer.hpp`: a ring of slots that keeps the values pushed last. Indices
count the pushes as `std::size_t`, which wraps, and are only reduced further where a slot is
accessed. `m_push_head` is the index of the next push; `m_read_head` is the index of the newest
value, so it is 0 both before the first push and after it.
-/

namespace CubeChip

/-- `N`, with the two static assertions. -/
structure RingSize where
  N : Nat
  single_bit : ∃ bits, N = 2 ^ bits
  at_least : 16 ≤ N
  /-- It is a `std::size_t`. -/
  fits : N < 2 ^ 64

namespace RingSize

variable (r : RingSize)

/-- `N` as it is computed with. -/
def word : UInt64 := UInt64.ofNat r.N

@[simp] theorem toNat_word : r.word.toNat = r.N := UInt64.toNat_ofNat_of_lt' r.fits

/-- `index & (N - 1)`. -/
def slot (index : UInt64) : Nat := (index &&& (r.word - 1)).toNat

theorem slot_eq (index : UInt64) : r.slot index = index.toNat % r.N := by
  obtain ⟨bits, hN⟩ := r.single_bit
  have hone : (1 : UInt64) ≤ r.word := by
    rw [UInt64.le_iff_toNat_le, toNat_word]
    exact le_trans (by decide) r.at_least
  have hmask : (r.word - 1).toNat = 2 ^ bits - 1 := by
    rw [UInt64.toNat_sub_of_le _ _ hone, toNat_word, hN]
    rfl
  rw [slot, UInt64.toNat_and, hmask, Nat.and_two_pow_sub_one_eq_mod, ← hN]

/-- Indices wrap by whole laps. -/
theorem dvd_two_pow : r.N ∣ 2 ^ 64 := by
  obtain ⟨bits, hN⟩ := r.single_bit
  have hlt : 2 ^ bits < 2 ^ 64 := hN ▸ r.fits
  rw [hN]
  exact Nat.pow_dvd_pow 2 ((Nat.pow_lt_pow_iff_right (by decide)).1 hlt).le

/-- The slot of a number that has wrapped. -/
theorem mod_two_pow_mod (i : Nat) : i % 2 ^ 64 % r.N = i % r.N :=
  Nat.mod_mod_of_dvd i r.dvd_two_pow

/-- Two numbers share a slot only a whole number of laps apart. -/
theorem eq_of_mod_eq {i j : Nat} (h : i % r.N = j % r.N) (hij : i < j + r.N)
    (hji : j < i + r.N) : i = j := by
  have hi := Nat.div_add_mod i r.N
  have hj := Nat.div_add_mod j r.N
  rcases Nat.lt_trichotomy (i / r.N) (j / r.N) with hlt | heq | hlt
  · have := Nat.mul_le_mul_left r.N (Nat.succ_le_of_lt hlt)
    rw [Nat.mul_succ] at this
    omega
  · rw [heq] at hi
    omega
  · have := Nat.mul_le_mul_left r.N (Nat.succ_le_of_lt hlt)
    rw [Nat.mul_succ] at this
    omega

end RingSize

/-- The members of the buffer; the slots hold the values themselves. -/
structure SlidingRingBuffer (T : Type) where
  buffer : Nat → T
  pushHead : UInt64
  readHead : UInt64

namespace SlidingRingBuffer

variable {T : Type} (r : RingSize)

/-- A constructed buffer: every slot holds the default entry. -/
def empty [Inhabited T] : SlidingRingBuffer T := ⟨fun _ => default, 0, 0⟩

/-! ## The parts of `push` -/

/-- `m_push_head.fetch_add(1)`: the index, and the buffer after. -/
def takeIndex (b : SlidingRingBuffer T) : UInt64 × SlidingRingBuffer T :=
  (b.pushHead, { b with pushHead := b.pushHead + 1 })

/-- The store into the slot. -/
def store (index : UInt64) (value : T) (b : SlidingRingBuffer T) : SlidingRingBuffer T :=
  { b with buffer := Function.update b.buffer (r.slot index) value }

/-- A `compare_exchange` of the read head that succeeds. -/
def raise (index : UInt64) (b : SlidingRingBuffer T) : SlidingRingBuffer T :=
  { b with readHead := index }

/-- `push`, by a thread that nobody interrupts. -/
def push (b : SlidingRingBuffer T) (value : T) : SlidingRingBuffer T :=
  let (index, b) := b.takeIndex
  let b := store r index value b
  if b.readHead < index then raise index b else b

/-! ## Reading -/

/-- `at_(index)`. -/
def at1 (b : SlidingRingBuffer T) (index : UInt64) : T := b.buffer (r.slot index)

/-- `at_(index, head)`: counted backwards from the head. -/
def at2 (b : SlidingRingBuffer T) (index head : UInt64) : T := at1 r b (head + r.word - index)

/-- `count ? std::min(count, dist) : dist`. -/
def limit (count dist : UInt64) : UInt64 := if count ≠ 0 then min count dist else dist

/-- How many values `ProxySnap_Count::snapshot` reads under a head. -/
def countSize (count head : UInt64) : UInt64 := limit count (min (head + 1) r.word)

/-- `ProxySnap_Count::snapshot`. -/
def snapshotCount (count : UInt64) (b : SlidingRingBuffer T) : List T :=
  let head := b.readHead
  if head = 0 then []
  else
    let size := countSize r count head
    (List.range size.toNat).map fun i => at2 r b (size - 1 - UInt64.ofNat i) head

/-- How many values `ProxySnap_Range::snapshot` reads under a head. -/
def rangeSize (count begin head : UInt64) : UInt64 :=
  if head = 0 ∨ head < begin then 0 else limit count (min (head - begin + 1) r.word)

/-- `ProxySnap_Range::snapshot`. -/
def snapshotRange (count begin : UInt64) (b : SlidingRingBuffer T) : List T :=
  (List.range (rangeSize r count begin b.readHead).toNat).map fun i =>
    at1 r b (begin + UInt64.ofNat i)

/-! ## What they compute -/

/-- `count` of so many, or all of them when `count` is 0. -/
def atMost (count dist : Nat) : Nat := if count ≠ 0 then min count dist else dist

theorem atMost_le (count dist : Nat) : atMost count dist ≤ dist := by
  unfold atMost
  split <;> omega

theorem toNat_min (x y : UInt64) : (min x y).toNat = min x.toNat y.toNat := by
  change (if x ≤ y then x else y).toNat = _
  rw [min_def, apply_ite UInt64.toNat]
  rfl

theorem toNat_limit (count dist : UInt64) :
    (limit count dist).toNat = atMost count.toNat dist.toNat := by
  have hzero : count ≠ 0 ↔ count.toNat ≠ 0 := not_congr UInt64.toNat_inj.symm
  unfold limit atMost
  by_cases h : count ≠ 0
  · rw [if_pos h, if_pos (hzero.1 h), toNat_min]
  · rw [if_neg h, if_neg fun h' => h (hzero.2 h')]

variable {r}

/-- The value in the slot of push number `i`. -/
def held (r : RingSize) (b : SlidingRingBuffer T) (i : Nat) : T := b.buffer (i % r.N)

theorem at1_eq_held (b : SlidingRingBuffer T) (index : UInt64) :
    at1 r b index = held r b index.toNat := congrArg b.buffer (r.slot_eq index)

theorem held_add_N (b : SlidingRingBuffer T) (i : Nat) : held r b (i + r.N) = held r b i :=
  congrArg b.buffer (Nat.add_mod_right ..)

/-- A number that has wrapped is in the same slot. -/
theorem held_mod (b : SlidingRingBuffer T) (i : Nat) : held r b (i % 2 ^ 64) = held r b i :=
  congrArg b.buffer (r.mod_two_pow_mod i)

theorem toNat_countSize (count head : UInt64) :
    (countSize r count head).toNat =
      atMost count.toNat (min ((head.toNat + 1) % 2 ^ 64) r.N) := by
  rw [countSize, toNat_limit, toNat_min, UInt64.toNat_add, RingSize.toNat_word]
  rfl

/-- A snapshot of so many, slot after slot up to the head. -/
theorem snapshotCount_eq {b : SlidingRingBuffer T} (hhead : b.readHead ≠ 0) (count : UInt64) :
    snapshotCount r count b =
      (List.range (countSize r count b.readHead).toNat).map fun i =>
        held r b (b.readHead.toNat + 1 - (countSize r count b.readHead).toNat + i) := by
  have hsize := toNat_countSize (r := r) count b.readHead
  have hle := atMost_le count.toNat (min ((b.readHead.toNat + 1) % 2 ^ 64) r.N)
  have hmod := Nat.mod_le (b.readHead.toNat + 1) (2 ^ 64)
  have hfits := r.fits
  have hlt := UInt64.toNat_lt b.readHead
  rw [← hsize] at hle
  unfold snapshotCount
  dsimp only
  rw [if_neg hhead]
  generalize countSize r count b.readHead = size at hle ⊢
  refine List.map_congr_left fun i hi => ?_
  have hi : i < size.toNat := List.mem_range.1 hi
  rw [at2, at1_eq_held]
  -- the index counted back from the head, before it wraps
  have hback : (b.readHead + r.word - (size - 1 - UInt64.ofNat i)).toNat =
      (b.readHead.toNat + 1 - size.toNat + i + r.N) % 2 ^ 64 := by
    have hone : (size - 1).toNat = size.toNat - 1 := by
      rw [UInt64.toNat_sub_of_le _ _ (by rw [UInt64.le_iff_toNat_le]; exact Nat.one_le_of_lt hi)]
      rfl
    have hindex : (UInt64.ofNat i).toNat = i :=
      UInt64.toNat_ofNat_of_lt' (hi.trans (UInt64.toNat_lt size))
    have hsub : (size - 1 - UInt64.ofNat i).toNat = size.toNat - 1 - i := by
      rw [UInt64.toNat_sub_of_le _ _ (by rw [UInt64.le_iff_toNat_le, hone, hindex]; omega), hone,
        hindex]
    rw [UInt64.toNat_sub, UInt64.toNat_add, hsub, RingSize.toNat_word]
    omega
  rw [hback, held_mod, held_add_N]

theorem snapshotRange_eq (count begin : UInt64) (b : SlidingRingBuffer T) :
    snapshotRange r count begin b =
      (List.range (rangeSize r count begin b.readHead).toNat).map fun i =>
        held r b (begin.toNat + i) := by
  refine List.map_congr_left fun i hi => ?_
  have hi : i < (rangeSize r count begin b.readHead).toNat := List.mem_range.1 hi
  rw [at1_eq_held, UInt64.toNat_add,
    UInt64.toNat_ofNat_of_lt' (hi.trans (UInt64.toNat_lt _)), held_mod]

theorem toNat_rangeSize (count begin head : UInt64) :
    (rangeSize r count begin head).toNat =
      if head.toNat = 0 ∨ head.toNat < begin.toNat then 0
      else atMost count.toNat (min ((head.toNat - begin.toNat + 1) % 2 ^ 64) r.N) := by
  have hzero : head = 0 ↔ head.toNat = 0 := UInt64.toNat_inj.symm
  unfold rangeSize
  by_cases h : head = 0 ∨ head < begin
  · rw [if_pos h, if_pos (h.imp hzero.1 UInt64.lt_iff_toNat_lt.1)]
    rfl
  · have hnot : ¬(head.toNat = 0 ∨ head.toNat < begin.toNat) :=
      fun h' => h (h'.imp hzero.2 UInt64.lt_iff_toNat_lt.2)
    have hle : begin ≤ head := by
      rw [UInt64.le_iff_toNat_le]
      omega
    rw [if_neg h, if_neg hnot, toNat_limit, toNat_min, UInt64.toNat_add,
      UInt64.toNat_sub_of_le _ _ hle, RingSize.toNat_word]
    rfl

end SlidingRingBuffer

end CubeChip
