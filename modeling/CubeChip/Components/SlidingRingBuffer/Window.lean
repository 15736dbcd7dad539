import CubeChip.Components.SlidingRingBuffer

/-!
# Snapshots after pushes of one thread

`Holds` is what a buffer knows of the values pushed: the newest `N` of them, each in its slot.
A snapshot is meant to be a window on the values pushed, `lastValues` or `valuesFrom`. It is
one but in three kinds of cases: a single value pushed is taken for none; a range that begins
before the values still held is read from the slot of its first index instead of from the
oldest value; and from `2 ^ 64` pushes on, where the read head stays at the last index there
is, the number of values wraps.
-/

namespace CubeChip

namespace SlidingRingBuffer

variable {T : Type} (r : RingSize)

/-! ## What a buffer holds -/

/-- The buffer after the values have been pushed in turn. -/
def pushAll [Inhabited T] (values : List T) : SlidingRingBuffer T :=
  values.foldl (push r) empty

/-- The heads, and the newest `N` values in their slots. The push head wraps, and the read head
stays where no index is higher. -/
structure Holds (values : List T) (b : SlidingRingBuffer T) : Prop where
  pushHead : b.pushHead.toNat = values.length % 2 ^ 64
  readHead : b.readHead.toNat = min values.length (2 ^ 64) - 1
  recent : ∀ i v, values[i]? = some v → values.length ≤ i + r.N → held r b i = v

variable {r}

/-- A push stores its value. -/
theorem push_buffer (b : SlidingRingBuffer T) (value : T) :
    (push r b value).buffer = (store r b.pushHead value b).buffer := by
  unfold push
  dsimp only [takeIndex]
  split <;> rfl

/-- It takes the next index. -/
theorem push_pushHead (b : SlidingRingBuffer T) (value : T) :
    (push r b value).pushHead = b.pushHead + 1 := by
  unfold push
  dsimp only [takeIndex]
  split <;> rfl

/-- It raises the read head to its index. -/
theorem push_readHead (b : SlidingRingBuffer T) (value : T) :
    (push r b value).readHead.toNat = max b.readHead.toNat b.pushHead.toNat := by
  unfold push
  dsimp only [takeIndex]
  split
  · next h =>
      have hlt : b.readHead.toNat < b.pushHead.toNat := h
      exact (Nat.max_eq_right hlt.le).symm
  · next h =>
      have hle : b.pushHead.toNat ≤ b.readHead.toNat := Nat.le_of_not_lt h
      exact (Nat.max_eq_left hle).symm

/-- The slot stored. -/
theorem held_store_self {index : UInt64} {i : Nat} (value : T) (b : SlidingRingBuffer T)
    (h : i % r.N = index.toNat % r.N) : held r (store r index value b) i = value := by
  have hslot : i % r.N = r.slot index := h.trans (r.slot_eq index).symm
  exact (congrArg (store r index value b).buffer hslot).trans (Function.update_self ..)

/-- The other slots. -/
theorem held_store_of_ne {index : UInt64} {i : Nat} (value : T) (b : SlidingRingBuffer T)
    (h : i % r.N ≠ index.toNat % r.N) : held r (store r index value b) i = held r b i :=
  Function.update_of_ne (fun hslot => h (hslot.trans (r.slot_eq index))) ..

/-- A push replaces the oldest of the values held. -/
theorem Holds.push {values : List T} {b : SlidingRingBuffer T} (h : Holds r values b)
    (value : T) : Holds r (values ++ [value]) (push r b value) where
  pushHead := by
    rw [push_pushHead, UInt64.toNat_add, h.pushHead, List.length_append, List.length_singleton]
    exact Nat.mod_add_mod ..
  readHead := by
    rw [push_readHead, h.readHead, h.pushHead, List.length_append, List.length_singleton]
    omega
  recent := by
    intro i v hv hi
    have hheld : held r (SlidingRingBuffer.push r b value) i =
        held r (store r b.pushHead value b) i := congrFun (push_buffer b value) (i % r.N)
    have hindex : b.pushHead.toNat % r.N = values.length % r.N := by
      rw [h.pushHead, r.mod_two_pow_mod]
    rw [List.length_append, List.length_singleton] at hi
    rw [hheld]
    by_cases hlast : i = values.length
    · subst hlast
      rw [List.getElem?_concat_length] at hv
      rw [held_store_self value b hindex.symm]
      exact Option.some.inj hv
    · have hlt : i < values.length := by
        have hlen := (List.getElem?_eq_some_iff.1 hv).1
        rw [List.length_append, List.length_singleton] at hlen
        omega
      rw [List.getElem?_append_left hlt] at hv
      rw [held_store_of_ne value b fun heq =>
        hlast (r.eq_of_mod_eq (heq.trans hindex) (by omega) (by omega))]
      exact h.recent i v hv (by omega)

/-- Any values, one after the other. -/
theorem holds_pushAll [Inhabited T] (values : List T) : Holds r values (pushAll r values) := by
  have hfold (vs : List T) : ∀ (ws : List T) (b : SlidingRingBuffer T), Holds r ws b →
      Holds r (ws ++ vs) (vs.foldl (SlidingRingBuffer.push r) b) := by
    induction vs with
    | nil => intro ws b h; rwa [List.append_nil]
    | cons v vs ih =>
        intro ws b h
        have hrest := ih (ws ++ [v]) (SlidingRingBuffer.push r b v) (h.push v)
        rwa [List.append_assoc] at hrest
  exact hfold values [] empty ⟨rfl, rfl, fun i v hv => nomatch hv⟩

/-! ## The windows -/

variable (r) in
/-- The newest values: `count` of them, or all the buffer can hold when `count` is 0. -/
def lastValues (count : Nat) (values : List T) : List T :=
  values.drop (values.length - atMost count (min values.length r.N))

variable (r) in
/-- The values from an index on that the buffer can still hold, at most `count` of them. -/
def valuesFrom (count begin : Nat) (values : List T) : List T :=
  let held := values.drop (max begin (values.length - r.N))
  if count ≠ 0 then held.take count else held

/-- A list read off slot by slot is a stretch of the values, if each slot holds the one due. -/
theorem map_range_eq (values : List T) (start : Nat) {size : Nat} {f : Nat → T}
    (hsize : start + size ≤ values.length)
    (hf : ∀ i < size, ∀ v, values[start + i]? = some v → f i = v) :
    (List.range size).map f = (values.drop start).take size := by
  apply List.ext_getElem
  · rw [List.length_map, List.length_range, List.length_take, List.length_drop]
    omega
  · intro i hi _
    rw [List.length_map, List.length_range] at hi
    rw [List.getElem_map, List.getElem_range, List.getElem_take, List.getElem_drop]
    exact hf i hi _ (List.getElem?_eq_getElem _)

/-- The newest values, as many as are asked for. -/
theorem Holds.snapshotCount {values : List T} {b : SlidingRingBuffer T} (h : Holds r values b)
    (hone : values.length ≠ 1) (hfits : values.length < 2 ^ 64) (count : UInt64) :
    snapshotCount r count b = lastValues r count.toNat values := by
  have hhead := h.readHead
  rw [Nat.min_eq_left hfits.le] at hhead
  by_cases h0 : b.readHead = 0
  · have hzero : b.readHead.toNat = 0 := congrArg UInt64.toNat h0
    have hnil : values = [] := List.length_eq_zero_iff.1 (by omega)
    rw [SlidingRingBuffer.snapshotCount, if_pos h0, lastValues, hnil, List.drop_nil]
  · have hne : b.readHead.toNat ≠ 0 := fun h' => h0 (UInt64.toNat_inj.1 h')
    have hlen : b.readHead.toNat + 1 = values.length := by omega
    have hle := atMost_le count.toNat (min values.length r.N)
    rw [snapshotCount_eq h0, toNat_countSize, hlen, Nat.mod_eq_of_lt hfits, lastValues]
    generalize atMost count.toNat (min values.length r.N) = size at hle ⊢
    rw [map_range_eq values (values.length - size) (by omega), List.take_of_length_le]
    · rw [List.length_drop]
      omega
    · intro i hi v hv
      exact h.recent _ v hv (by omega)

/-- Once the indices have run out nothing is shown. -/
theorem Holds.snapshotCount_of_le {values : List T} {b : SlidingRingBuffer T}
    (h : Holds r values b) (hfits : 2 ^ 64 ≤ values.length) (count : UInt64) :
    SlidingRingBuffer.snapshotCount r count b = [] := by
  have hhead := h.readHead
  rw [Nat.min_eq_right hfits] at hhead
  have hne : b.readHead ≠ 0 := by
    intro h0
    rw [h0] at hhead
    exact absurd hhead (by decide)
  have hsize : (countSize r count b.readHead).toNat = 0 := by
    have hle := atMost_le count.toNat (min ((b.readHead.toNat + 1) % 2 ^ 64) r.N)
    rw [toNat_countSize]
    omega
  rw [snapshotCount_eq hne, hsize]
  rfl

variable (r) in
/-- The first index of a range that is still held. -/
def firstHeld (begin length : Nat) : Nat := max begin (length - r.N)

/-- How many values are held from an index on. -/
theorem firstHeld_sub (begin length : Nat) :
    length - firstHeld r begin length = min (length - begin) r.N := by
  unfold firstHeld
  omega

/-- The values due from an index on, as a piece of the list. -/
theorem valuesFrom_eq (count begin : Nat) (values : List T) :
    valuesFrom r count begin values =
      (values.drop (firstHeld r begin values.length)).take
        (atMost count (min (values.length - begin) r.N)) := by
  unfold valuesFrom atMost
  rw [← firstHeld_sub]
  change (if count ≠ 0 then (values.drop (firstHeld r begin values.length)).take count
    else values.drop (firstHeld r begin values.length)) = _
  split
  · rw [List.take_eq_take_iff, List.length_drop]
    omega
  · rw [List.take_of_length_le (by rw [List.length_drop])]

/-- And their number. -/
theorem length_valuesFrom (count begin : Nat) (values : List T) :
    (valuesFrom r count begin values).length =
      atMost count (min (values.length - begin) r.N) := by
  have hle := atMost_le count (min (values.length - begin) r.N)
  rw [valuesFrom_eq, List.length_take, List.length_drop, firstHeld_sub]
  omega

/-- A range snapshot reads so many values; the number wraps. -/
theorem Holds.rangeSize {values : List T} {b : SlidingRingBuffer T} (h : Holds r values b)
    (hone : values.length ≠ 1) (count : UInt64) {begin : UInt64}
    (hbegin : begin.toNat < values.length) :
    (rangeSize r count begin b.readHead).toNat =
      atMost count.toNat (min ((min values.length (2 ^ 64) - begin.toNat) % 2 ^ 64) r.N) := by
  have hhead := h.readHead
  have hlt := UInt64.toNat_lt begin
  have hin : b.readHead.toNat - begin.toNat + 1 = min values.length (2 ^ 64) - begin.toNat := by
    omega
  rw [toNat_rangeSize, if_neg (by omega), hin]

/-- The number of values a snapshot shows. -/
theorem length_snapshotRange (count begin : UInt64) (b : SlidingRingBuffer T) :
    (snapshotRange r count begin b).length =
      (SlidingRingBuffer.rangeSize r count begin b.readHead).toNat := by
  rw [snapshotRange, List.length_map, List.length_range]

/-- The slot of `begin` is that of the first index held, if `begin` is held itself or whole
laps away. -/
theorem firstHeld_mod {begin length : Nat} (h : length ≤ begin + r.N ∨ r.N ∣ length - begin) :
    begin % r.N = firstHeld r begin length % r.N := by
  unfold firstHeld
  by_cases hheld : length ≤ begin + r.N
  · rw [Nat.max_eq_left (by omega)]
  · rw [Nat.max_eq_right (by omega)]
    have hsub : length - r.N = begin + (length - begin - r.N) := by omega
    obtain ⟨q, hq⟩ := h.resolve_left hheld
    have hlaps : r.N * q - r.N = r.N * (q - 1) := by rw [Nat.mul_sub_one]
    rw [hsub, hq, hlaps, Nat.add_mul_mod_self_left]

variable (r) in
/-- The number of values due from `begin` on does not wrap: fewer than `2 ^ 64` are pushed, or
the values asked for are below that index or no more than the ring can hold. -/
def LengthFits (k count begin : Nat) : Prop :=
  k < 2 ^ 64 ∨ 0 < begin ∧
    (k = 2 ^ 64 ∨ begin + r.N ≤ 2 ^ 64 ∨ count ≠ 0 ∧ begin + count ≤ 2 ^ 64)

/-- The two numbers agree unless the arithmetic wraps. -/
theorem size_eq_iff {k count begin : Nat} (hbegin : begin < k) (hfits : begin < 2 ^ 64) :
    atMost count (min ((min k (2 ^ 64) - begin) % 2 ^ 64) r.N) =
      atMost count (min (k - begin) r.N) ↔ LengthFits r k count begin := by
  have hN := r.at_least
  have hlt := r.fits
  unfold LengthFits atMost
  split <;> omega

/-- The values from an index on. -/
theorem Holds.snapshotRange {values : List T} {b : SlidingRingBuffer T} (h : Holds r values b)
    (hone : values.length ≠ 1) {begin : UInt64} (count : UInt64)
    (hin : begin.toNat < values.length)
    (hbegin : values.length ≤ begin.toNat + r.N ∨ r.N ∣ values.length - begin.toNat)
    (hfits : LengthFits r values.length count.toNat begin.toNat) :
    snapshotRange r count begin b = valuesFrom r count.toNat begin.toNat values := by
  have hsize := (h.rangeSize hone count hin).trans
    ((size_eq_iff hin (UInt64.toNat_lt begin)).2 hfits)
  have hle := atMost_le count.toNat (min (values.length - begin.toNat) r.N)
  have hfirst := firstHeld_sub (r := r) begin.toNat values.length
  have hheld : firstHeld r begin.toNat values.length ≤ values.length := by
    unfold firstHeld
    omega
  rw [snapshotRange_eq, hsize, valuesFrom_eq]
  refine map_range_eq values _ (by omega) fun i hi v hv => ?_
  have hslot : held r b (begin.toNat + i) =
      held r b (firstHeld r begin.toNat values.length + i) := by
    refine congrArg b.buffer ?_
    rw [Nat.add_mod, firstHeld_mod hbegin, ← Nat.add_mod]
  rw [hslot]
  refine h.recent _ v hv ?_
  unfold firstHeld
  omega

/-! ## Exactly when they are right -/

/-- A value held in the slot of an index that is not held any more. -/
theorem exists_held {begin length : Nat} (h : begin < length) :
    ∃ w, length ≤ w + r.N ∧ w < length ∧ r.N ∣ w - begin ∧ begin ≤ w := by
  have hN := r.at_least
  have hmod := Nat.mod_lt (length - 1 - begin) (show 0 < r.N by omega)
  have hle := Nat.mod_le (length - 1 - begin) r.N
  refine ⟨length - 1 - (length - 1 - begin) % r.N, by omega, by omega, ?_, by omega⟩
  have hsub : length - 1 - (length - 1 - begin) % r.N - begin =
      length - 1 - begin - (length - 1 - begin) % r.N := by omega
  rw [hsub]
  exact Nat.dvd_sub_mod _

/-- A number as a value of its own index. -/
theorem held_pushAll_range {k i : Nat} (hi : i < k) (hk : k ≤ i + r.N) :
    held r (pushAll r (List.range k)) i = i := by
  refine (holds_pushAll (r := r) (List.range k)).recent i i ?_ (by rwa [List.length_range])
  rw [List.getElem?_range hi]

/-- A range that begins too early is read from the value in the slot of its first index. -/
theorem dvd_of_snapshotRange {k : Nat} {count begin : UInt64}
    (hbegin : begin.toNat + r.N < k)
    (heq : snapshotRange r count begin (pushAll r (List.range k)) =
      valuesFrom r count.toNat begin.toNat (List.range k)) : r.N ∣ k - begin.toNat := by
  have hN := r.at_least
  have hlen : (List.range k).length = k := List.length_range
  have hfirst : firstHeld r begin.toNat k = k - r.N := Nat.max_eq_right (by omega)
  obtain ⟨size, hsize⟩ :
      ∃ size, atMost count.toNat (min (k - begin.toNat) r.N) = size + 1 := by
    refine Nat.exists_eq_add_one.2 ?_
    unfold atMost
    split <;> omega
  obtain ⟨w, hheld, hw, hdvd, hbw⟩ := exists_held (r := r) (show begin.toNat < k by omega)
  have hslot : begin.toNat % r.N = w % r.N := by
    obtain ⟨q, hq⟩ := hdvd
    rw [show w = begin.toNat + r.N * q by omega, Nat.add_mul_mod_self_left]
  have hlength := congrArg List.length heq
  rw [length_snapshotRange, length_valuesFrom, hlen, hsize] at hlength
  have hread : (snapshotRange r count begin (pushAll r (List.range k))).head? = some w := by
    have hvalue : held r (pushAll r (List.range k)) begin.toNat = w :=
      (congrArg (pushAll r (List.range k)).buffer hslot).trans (held_pushAll_range hw hheld)
    rw [snapshotRange_eq, hlength, List.range_succ_eq_map, List.map_cons, List.head?_cons,
      Nat.add_zero, hvalue]
  have hdue : (valuesFrom r count.toNat begin.toNat (List.range k)).head? = some (k - r.N) := by
    rw [valuesFrom_eq, hlen, hfirst, hsize, List.head?_take, if_neg (Nat.succ_ne_zero size),
      List.head?_drop, List.getElem?_range (by omega)]
  rw [heq, hdue] at hread
  have hwk : k - r.N = w := Option.some.inj hread
  obtain ⟨q, hq⟩ := hdvd
  exact ⟨q + 1, by rw [Nat.mul_succ]; omega⟩

variable (r) in
/-- After any `k` pushes, `snapshot(count)` is the window on the newest values. -/
def CountIsWindow (k : Nat) (count : UInt64) : Prop :=
  ∀ (T : Type) [Inhabited T] (values : List T), values.length = k →
    SlidingRingBuffer.snapshotCount r count (pushAll r values) = lastValues r count.toNat values

variable (r) in
/-- After any `k` pushes, `snapshot(count, begin)` is the window from `begin` on. -/
def RangeIsWindow (k : Nat) (count begin : UInt64) : Prop :=
  ∀ (T : Type) [Inhabited T] (values : List T), values.length = k →
    SlidingRingBuffer.snapshotRange r count begin (pushAll r values) =
      valuesFrom r count.toNat begin.toNat values

/-- The window on the newest values is not empty. -/
theorem lastValues_ne_nil (count : Nat) {values : List T} (h : values ≠ []) :
    lastValues r count values ≠ [] := by
  have hpos := List.length_pos_iff.2 h
  have hN := r.at_least
  intro hnil
  have hlen := congrArg List.length hnil
  have hlimit : 0 < atMost count (min values.length r.N) := by
    unfold atMost
    split <;> omega
  have hle := atMost_le count (min values.length r.N)
  rw [lastValues, List.length_drop, List.length_nil] at hlen
  omega

/-- The condition for the newest values. -/
theorem countIsWindow_iff (k : Nat) (count : UInt64) :
    CountIsWindow r k count ↔ k ≠ 1 ∧ k < 2 ^ 64 := by
  constructor
  · intro h
    constructor
    · rintro rfl
      exact lastValues_ne_nil count.toNat (List.cons_ne_nil 7 []) (h Nat [7] rfl).symm
    · by_contra hfits
      have hlen : (List.range k).length = k := List.length_range
      have hread := (holds_pushAll (r := r) (List.range k)).snapshotCount_of_le
        (by omega) count
      have hne : List.range k ≠ [] := List.ne_nil_of_length_pos (by omega)
      exact lastValues_ne_nil count.toNat hne ((h Nat _ hlen).symm.trans hread)
  · rintro ⟨hone, hfits⟩ T _ values rfl
    exact (holds_pushAll values).snapshotCount hone hfits count

/-- The condition for the values from an index on. -/
theorem rangeIsWindow_iff (k : Nat) (count begin : UInt64) :
    RangeIsWindow r k count begin ↔
      k ≤ begin.toNat ∨ k ≠ 1 ∧ (k ≤ begin.toNat + r.N ∨ r.N ∣ k - begin.toNat) ∧
        LengthFits r k count.toNat begin.toNat := by
  constructor
  · intro h
    refine or_iff_not_imp_left.2 fun hbegin => ?_
    have hone : k ≠ 1 := by
      rintro rfl
      have hN := r.at_least
      have hlen := congrArg List.length (h Nat [7] rfl)
      have hread : (rangeSize r count begin (pushAll r [7]).readHead).toNat = 0 := by
        rw [toNat_rangeSize, if_pos (.inl rfl)]
      rw [length_snapshotRange, hread, length_valuesFrom, List.length_singleton] at hlen
      unfold atMost at hlen
      split at hlen <;> omega
    have hlen : (List.range k).length = k := List.length_range
    have hrange := h Nat (List.range k) hlen
    refine ⟨hone, or_iff_not_imp_left.2 fun hheld => ?_, ?_⟩
    · exact dvd_of_snapshotRange (by omega) hrange
    · have hin : begin.toNat < (List.range k).length := by omega
      have hsize := (holds_pushAll (r := r) (List.range k)).rangeSize (by omega) count hin
      have hlength := congrArg List.length hrange
      rw [length_snapshotRange, hsize, length_valuesFrom, hlen] at hlength
      exact (size_eq_iff (by omega) (UInt64.toNat_lt begin)).1 hlength
  · rintro hwindow T _ values rfl
    by_cases hbegin : values.length ≤ begin.toNat
    · have hread : (rangeSize r count begin (pushAll r values).readHead).toNat = 0 := by
        have hlt := UInt64.toNat_lt begin
        rw [toNat_rangeSize, (holds_pushAll values).readHead, if_pos (by omega)]
      have hdrop : values.drop (firstHeld r begin.toNat values.length) = [] :=
        List.drop_eq_nil_of_le (hbegin.trans (Nat.le_max_left ..))
      rw [SlidingRingBuffer.snapshotRange, hread, valuesFrom_eq, hdrop, List.take_nil]
      rfl
    · obtain ⟨hone, hheld, hfits⟩ := hwindow.resolve_left hbegin
      exact (holds_pushAll values).snapshotRange hone count (by omega) hheld hfits

/-- **The two snapshots after `k` pushes.** The one of the newest values is right unless a
single value was pushed or the indices have run out; the one from an index on is right where it
is empty, and otherwise unless a single value was pushed, the index is older than what is held
and not by whole laps, or the number of values wraps. -/
theorem windows_iff (k : Nat) (count begin : UInt64) :
    (CountIsWindow r k count ↔ k ≠ 1 ∧ k < 2 ^ 64) ∧
      (RangeIsWindow r k count begin ↔
        k ≤ begin.toNat ∨ k ≠ 1 ∧ (k ≤ begin.toNat + r.N ∨ r.N ∣ k - begin.toNat) ∧
          LengthFits r k count.toNat begin.toNat) :=
  ⟨countIsWindow_iff k count, rangeIsWindow_iff k count begin⟩

/-- A buffer of sixteen slots. -/
def sixteen : RingSize := ⟨16, ⟨4, rfl⟩, le_rfl, by decide⟩

/-- A single value pushed does not show. -/
theorem not_windows :
    ¬ ∀ (r : RingSize) (k : Nat) (count begin : UInt64), 1 ≤ k →
      CountIsWindow r k count ∧ RangeIsWindow r k count begin := by
  intro h
  have hcount := (h sixteen 1 0 0 le_rfl).1 Nat [7] rfl
  exact absurd hcount (by decide)

end SlidingRingBuffer

end CubeChip
