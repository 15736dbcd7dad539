import CubeChip.Components.SlidingRingBuffer.Window
import CubeChip.Lib.Runs
import Mathlib.Data.Fintype.Defs

/-!
# Pushes of many threads

A push is six steps: take an index, acquire the shared lock, store the value, load the read
head, compare and exchange it until it is not lower, release the lock. The index is taken
before the lock, and the store looks at nothing. `InOrder` is what a schedule must keep to for
the buffer to be the window it is meant to be: the indices do not run out, nobody stores into a
slot that a later push already has, and nobody is left waiting for the lock with an index the
read head has passed when the last lock is released. `Inv` is what such schedules keep. One
state is an exception in every schedule: when the value with index 0 is the only one stored,
the read head says the same as before it.
-/

namespace CubeChip

namespace SlidingRingBuffer

/-- Where a producer is in `push`. -/
inductive Producer (T : Type) where
  | idle
  | waiting (index : UInt64) (value : T)
  | locked (index : UInt64) (value : T)
  | stored (index : UInt64)
  | comparing (index expected : UInt64)
  | raised

namespace Producer

variable {T : Type}

/-- The producer is under the shared lock. -/
def HoldsLock : Producer T → Prop
  | .idle | .waiting .. => False
  | _ => True

instance : DecidablePred (HoldsLock (T := T))
  | .idle | .waiting .. => inferInstanceAs (Decidable False)
  | .locked .. | .stored _ | .comparing .. | .raised => inferInstanceAs (Decidable True)

/-- The index taken and the value not stored yet. -/
def pending : Producer T → Option (Nat × T)
  | .waiting index value | .locked index value => some (index.toNat, value)
  | _ => none

/-- The index with which the producer waits for the lock. -/
def waitingFor : Producer T → Option Nat
  | .waiting index _ => some index.toNat
  | _ => none

/-- The index whose value is stored while the read head may still be lower. -/
def raising : Producer T → Option Nat
  | .stored index | .comparing index _ => some index.toNat
  | _ => none

end Producer

/-- The buffer, its producers, and the history: the values by index, and the indices stored,
newest first. -/
structure Pushing (ι T : Type) where
  ring : SlidingRingBuffer T
  producer : ι → Producer T
  issued : List T
  written : List Nat

/-- The steps of a push; a `compare_exchange_weak` may fail spuriously. -/
inductive PushStep (T : Type) where
  | takeIndex (value : T)
  | lock
  | store
  | load
  | exchange (spurious : Bool)
  | unlock

namespace Pushing

variable {ι T : Type} (r : RingSize)

/-- `head()`. -/
def readHead (s : Pushing ι T) : Nat := s.ring.readHead.toNat

/-- Nothing pushed. -/
def start [Inhabited T] : Pushing ι T := ⟨empty, fun _ => .idle, [], []⟩

/-! ## What is asked of the buffer -/

/-- No push is in progress. -/
def Quiet (s : Pushing ι T) : Prop := ∀ i, s.producer i = .idle

/-- The exclusive lock can be acquired. -/
def LockFree (s : Pushing ι T) : Prop := ∀ i, ¬ (s.producer i).HoldsLock

/-- Each slot holds the value of the largest index issued for it. -/
def SlotsLatest (s : Pushing ι T) : Prop :=
  ∀ j < s.issued.length, (∀ k < s.issued.length, k % r.N = j % r.N → k ≤ j) →
    s.issued[j]? = some (held r s.ring j)

/-- The values of the indices up to the read head, which is 0 also when nothing is stored. -/
def upToHead (s : Pushing ι T) : List T :=
  if s.written = [] then [] else s.issued.take (s.readHead + 1)

/-- A snapshot shows the values of consecutive indices that end at the read head: as many as
are asked for, of those the buffer can hold. -/
def SnapshotConsecutive (s : Pushing ι T) : Prop :=
  ∀ count, snapshotCount r count s.ring = lastValues r count.toNat s.upToHead

/-- The two guarantees, each in the states it is about. -/
def Lawful (s : Pushing ι T) : Prop :=
  (Quiet s → SlotsLatest r s) ∧ (LockFree s → SnapshotConsecutive r s)

/-! ## The invariant -/

/-- What a schedule in order keeps. -/
structure Inv (s : Pushing ι T) : Prop where
  fits : s.issued.length < 2 ^ 64
  pushHead : s.ring.pushHead.toNat = s.issued.length
  pending : ∀ i j v, (s.producer i).pending = some (j, v) → s.issued[j]? = some v
  /-- An index taken is stored, or its producer is on the way. -/
  covered : ∀ j < s.issued.length,
    j ∈ s.written ∨ ∃ i v, (s.producer i).pending = some (j, v)
  written : ∀ j ∈ s.written, j < s.issued.length
  slots : ∀ j ∈ s.written, (∀ k ∈ s.written, k % r.N = j % r.N → k ≤ j) →
    s.issued[j]? = some (held r s.ring j)
  raising : ∀ i j, (s.producer i).raising = some j → j ∈ s.written
  /-- What is stored is under the read head, or its producer is about to raise it. -/
  below : ∀ j ∈ s.written, j ≤ s.readHead ∨ ∃ i, (s.producer i).raising = some j
  head : s.readHead = 0 ∨ s.readHead ∈ s.written
  expected : ∀ i j e, s.producer i = .comparing j e → e.toNat ≤ s.readHead
  /-- Nobody who waits for a free lock has an index that a snapshot shows. -/
  settled : LockFree s → ∀ i, ∀ j ∈ (s.producer i).waitingFor,
    0 < s.readHead → j ≤ s.readHead → j + r.N ≤ s.readHead

variable {r} {s : Pushing ι T}

theorem inv_start [Inhabited T] : Inv r (start : Pushing ι T) where
  fits := Nat.two_pow_pos 64
  pushHead := rfl
  pending := fun _ _ _ h => nomatch h
  covered := fun j hj => absurd hj j.not_lt_zero
  written := fun _ hj => absurd hj List.not_mem_nil
  slots := fun _ hj => absurd hj List.not_mem_nil
  raising := fun _ _ h => nomatch h
  below := fun _ hj => absurd hj List.not_mem_nil
  head := .inl rfl
  expected := fun _ _ _ h => nomatch h
  settled := fun _ _ _ h => nomatch h

namespace Inv

/-- A read head that has moved is below the next index. -/
theorem readHead_lt (h : Inv r s) (hpos : 0 < s.readHead) : s.readHead < s.issued.length := by
  rcases h.head with h0 | hmem
  · omega
  · exact h.written _ hmem

theorem slotsLatest (h : Inv r s) (hquiet : Quiet s) : SlotsLatest r s := by
  intro j hj hmax
  rcases h.covered j hj with hmem | ⟨i, v, hi⟩
  · exact h.slots j hmem fun k hk => hmax k (h.written k hk)
  · rw [hquiet i] at hi
    exact nomatch hi

/-- Under a free lock, what is stored is under the read head. -/
theorem le_readHead (h : Inv r s) (hfree : LockFree s) {k : Nat} (hk : k ∈ s.written) :
    k ≤ s.readHead := by
  rcases h.below k hk with hle | ⟨i, hi⟩
  · exact hle
  · cases hp : s.producer i with
    | stored | comparing => exact absurd (by rw [hp]; trivial) (hfree i)
    | _ => rw [hp] at hi; exact nomatch hi

/-- Under a free lock, the indices a snapshot shows are stored, and nothing later is in their
slots. -/
theorem held_of_lockFree (h : Inv r s) (hfree : LockFree s) {j : Nat}
    (hj : j ≤ s.readHead) (hN : s.readHead < j + r.N) (hpos : 0 < s.readHead) :
    s.issued[j]? = some (held r s.ring j) := by
  have hmem : j ∈ s.written := by
    rcases h.covered j (hj.trans_lt (h.readHead_lt hpos)) with hmem | ⟨i, v, hi⟩
    · exact hmem
    · cases hp : s.producer i with
      | waiting index value =>
          rw [hp] at hi
          cases hi
          have hwait : index.toNat ∈ (s.producer i).waitingFor := by rw [hp]; rfl
          exact absurd (h.settled hfree i _ hwait hpos hj) (by omega)
      | locked => exact absurd (by rw [hp]; trivial) (hfree i)
      | _ => rw [hp] at hi; exact nomatch hi
  refine h.slots j hmem fun k hk hslot => ?_
  have hle := h.le_readHead hfree hk
  by_contra hjk
  exact absurd (r.eq_of_mod_eq hslot (by omega) (by omega)) (by omega)

/-- Under a read head that is 0 a snapshot is empty, so it is right if nothing is stored. -/
theorem snapshotConsecutive_of_zero (h : Inv r s) (h0 : s.readHead = 0) :
    SnapshotConsecutive r s ↔ s.written = [] := by
  have hhead : s.ring.readHead = 0 := UInt64.toNat_inj.1 h0
  have hshown (count : UInt64) : snapshotCount r count s.ring = [] := if_pos hhead
  constructor
  · intro hall
    by_contra hwritten
    obtain ⟨j, hj⟩ := List.exists_mem_of_ne_nil _ hwritten
    have hne : s.issued.take (s.readHead + 1) ≠ [] := by
      have hlt := h.written j hj
      refine List.ne_nil_of_length_pos ?_
      rw [List.length_take]
      omega
    have hall := hall 0
    rw [hshown, upToHead, if_neg hwritten] at hall
    exact lastValues_ne_nil _ hne hall.symm
  · intro hwritten count
    rw [hshown, upToHead, if_pos hwritten]
    exact List.drop_nil.symm

/-- Under a free lock and a read head that has moved a snapshot is right. -/
theorem snapshotConsecutive_of_pos (h : Inv r s) (hfree : LockFree s) (hpos : 0 < s.readHead) :
    SnapshotConsecutive r s := by
  intro count
  have hlt := h.readHead_lt hpos
  have hfits := h.fits
  have hmem : s.readHead ∈ s.written := h.head.resolve_left hpos.ne'
  have hne : s.ring.readHead ≠ 0 := fun h0 => hpos.ne' (congrArg UInt64.toNat h0)
  have hlen : (s.issued.take (s.readHead + 1)).length = s.readHead + 1 := by
    rw [List.length_take]
    omega
  have hle := atMost_le count.toNat (min (s.readHead + 1) r.N)
  rw [snapshotCount_eq hne, toNat_countSize, ← readHead,
    Nat.mod_eq_of_lt (show s.readHead + 1 < 2 ^ 64 by omega), upToHead,
    if_neg (List.ne_nil_of_mem hmem), lastValues, hlen]
  generalize atMost count.toNat (min (s.readHead + 1) r.N) = size at hle ⊢
  rw [map_range_eq _ (s.readHead + 1 - size) (by rw [hlen]; omega), List.take_of_length_le]
  · rw [List.length_drop, hlen]
    omega
  · intro i hi v hv
    have hin : s.readHead + 1 - size + i < s.readHead + 1 := by omega
    rw [List.getElem?_take_of_lt hin] at hv
    have hheld := h.held_of_lockFree hfree (j := s.readHead + 1 - size + i)
      (by omega) (by omega) hpos
    exact Option.some.inj (hheld.symm.trans hv)

/-- Under a free lock a snapshot is right, but for the read head that is 0 with a value
stored. -/
theorem snapshotConsecutive_iff (h : Inv r s) (hfree : LockFree s) :
    SnapshotConsecutive r s ↔ (s.readHead = 0 → s.written = []) := by
  rcases Nat.eq_zero_or_pos s.readHead with h0 | hpos
  · rw [h.snapshotConsecutive_of_zero h0, forall_prop_of_true h0]
  · exact iff_of_true (h.snapshotConsecutive_of_pos hfree hpos) fun h0 => absurd h0 hpos.ne'

end Inv

/-! ## Steps -/

section Steps

variable [DecidableEq ι] {i : ι}

/-- The producer goes on to `p`. -/
def goTo (i : ι) (p : Producer T) (s : Pushing ι T) : Pushing ι T :=
  { s with producer := Function.update s.producer i p }

/-- One step of a producer. -/
def step (r : RingSize) (s : Pushing ι T) : ι × PushStep T → Option (Pushing ι T)
  | (i, .takeIndex value) =>
      match s.producer i with
      | .idle => some (goTo i (.waiting s.ring.takeIndex.1 value)
          { s with ring := s.ring.takeIndex.2, issued := s.issued ++ [value] })
      | _ => none
  | (i, .lock) =>
      match s.producer i with
      | .waiting index value => some (goTo i (.locked index value) s)
      | _ => none
  | (i, .store) =>
      match s.producer i with
      | .locked index value => some (goTo i (.stored index)
          { s with ring := store r index value s.ring, written := index.toNat :: s.written })
      | _ => none
  | (i, .load) =>
      match s.producer i with
      | .stored index => some (goTo i (.comparing index s.ring.readHead) s)
      | _ => none
  | (i, .exchange spurious) =>
      match s.producer i with
      | .comparing index expected =>
          if expected < index then
            if s.ring.readHead = expected ∧ !spurious then
              some (goTo i .raised { s with ring := raise index s.ring })
            else some (goTo i (.comparing index s.ring.readHead) s)
          else some (goTo i .raised s)
      | _ => none
  | (i, .unlock) =>
      match s.producer i with
      | .raised => some (goTo i .idle s)
      | _ => none

/-- What a step of a producer can be: where the producer is, and the state after. -/
inductive StepOf (r : RingSize) (s : Pushing ι T) (i : ι) : PushStep T → Pushing ι T → Prop
  | takeIndex {value : T} (hi : s.producer i = .idle) : StepOf r s i (.takeIndex value)
      (goTo i (.waiting s.ring.takeIndex.1 value)
        { s with ring := s.ring.takeIndex.2, issued := s.issued ++ [value] })
  | lock {index : UInt64} {value : T} (hi : s.producer i = .waiting index value) :
      StepOf r s i .lock (goTo i (.locked index value) s)
  | store {index : UInt64} {value : T} (hi : s.producer i = .locked index value) :
      StepOf r s i .store (goTo i (.stored index)
        { s with ring := store r index value s.ring, written := index.toNat :: s.written })
  | load {index : UInt64} (hi : s.producer i = .stored index) :
      StepOf r s i .load (goTo i (.comparing index s.ring.readHead) s)
  | retry {index expected : UInt64} {spurious : Bool}
      (hi : s.producer i = .comparing index expected) :
      StepOf r s i (.exchange spurious) (goTo i (.comparing index s.ring.readHead) s)
  | leave {index expected head : UInt64} {spurious : Bool}
      (hi : s.producer i = .comparing index expected) (hup : s.ring.readHead ≤ head)
      (hhead : head = index ∨ head = s.ring.readHead ∧ index ≤ expected) :
      StepOf r s i (.exchange spurious) (goTo i .raised { s with ring := raise head s.ring })
  | unlock (hi : s.producer i = .raised) : StepOf r s i .unlock (goTo i .idle s)

theorem stepOf_of_step {r : RingSize} {s s' : Pushing ι T} {a : PushStep T}
    (hstep : step r s (i, a) = some s') : StepOf r s i a s' := by
  cases a with
  | takeIndex value =>
      cases hi : s.producer i with
      | idle =>
          simp only [step, hi, Option.some.injEq] at hstep
          exact hstep ▸ .takeIndex hi
      | _ => simp [step, hi] at hstep
  | lock =>
      cases hi : s.producer i with
      | waiting index value =>
          simp only [step, hi, Option.some.injEq] at hstep
          exact hstep ▸ .lock hi
      | _ => simp [step, hi] at hstep
  | store =>
      cases hi : s.producer i with
      | locked index value =>
          simp only [step, hi, Option.some.injEq] at hstep
          exact hstep ▸ .store hi
      | _ => simp [step, hi] at hstep
  | load =>
      cases hi : s.producer i with
      | stored index =>
          simp only [step, hi, Option.some.injEq] at hstep
          exact hstep ▸ .load hi
      | _ => simp [step, hi] at hstep
  | exchange spurious =>
      cases hi : s.producer i with
      | comparing index expected =>
          simp only [step, hi] at hstep
          split at hstep
          · next hlt =>
              split at hstep
              · next heq =>
                  cases hstep
                  exact .leave hi (heq.1 ▸ UInt64.le_of_lt hlt) (.inl rfl)
              · cases hstep
                exact .retry hi
          · next hle =>
              cases hstep
              exact .leave hi (UInt64.le_refl _) (.inr ⟨rfl, UInt64.not_lt.1 hle⟩)
      | _ => simp [step, hi] at hstep
  | unlock =>
      cases hi : s.producer i with
      | raised =>
          simp only [step, hi, Option.some.injEq] at hstep
          exact hstep ▸ .unlock hi
      | _ => simp [step, hi] at hstep

/-- The history and the read head only grow. -/
theorem StepOf.grows {r : RingSize} {s s' : Pushing ι T} {a : PushStep T}
    (h : StepOf r s i a s') :
    s.issued <+: s'.issued ∧ s.readHead ≤ s'.readHead := by
  cases h with
  | takeIndex => exact ⟨List.prefix_append .., le_rfl⟩
  | leave _ hup => exact ⟨List.prefix_rfl, hup⟩
  | _ => exact ⟨List.prefix_rfl, le_rfl⟩

/-- What a schedule must keep to. The indices do not run out. A store finds no later value in
its slot. When the last lock is released, no producer waits for it with one of the indices a
snapshot shows. -/
def InOrder (r : RingSize) (s : Pushing ι T) : ι × PushStep T → Prop
  | (_, .takeIndex _) => s.issued.length + 1 < 2 ^ 64
  | (i, .store) => ∀ x ∈ (s.producer i).pending, ∀ j ∈ s.written, j % r.N = x.1 % r.N → j ≤ x.1
  | (i, .unlock) => (∀ k, k ≠ i → ¬ (s.producer k).HoldsLock) →
      ∀ k, ∀ index ∈ (s.producer k).waitingFor,
        0 < s.readHead → index ≤ s.readHead → index + r.N ≤ s.readHead
  | _ => True

instance [Fintype ι] (r : RingSize) (s : Pushing ι T) :
    (a : ι × PushStep T) → Decidable (InOrder r s a)
  | (_, .takeIndex _) => inferInstanceAs (Decidable (_ < _))
  | (i, .store) => inferInstanceAs (Decidable (∀ x ∈ (s.producer i).pending, ∀ j ∈ s.written,
      j % r.N = x.1 % r.N → j ≤ x.1))
  | (i, .unlock) => inferInstanceAs (Decidable ((∀ k, k ≠ i → ¬ (s.producer k).HoldsLock) →
      ∀ k, ∀ index ∈ (s.producer k).waitingFor,
        0 < s.readHead → index ≤ s.readHead → index + r.N ≤ s.readHead))
  | (_, .lock) | (_, .load) | (_, .exchange _) => inferInstanceAs (Decidable True)

theorem producer_goTo_self (p : Producer T) : (goTo i p s).producer i = p :=
  Function.update_self ..

theorem producer_goTo_of_ne {k : ι} (hk : k ≠ i) (p : Producer T) :
    (goTo i p s).producer k = s.producer k := Function.update_of_ne hk ..

/-- A producer found where nobody went was there before. -/
theorem producer_of_goTo {k : ι} {p q : Producer T} (hk : (goTo i p s).producer k = q)
    (hq : q ≠ p) : s.producer k = q := by
  rcases eq_or_ne k i with rfl | hki
  · rw [producer_goTo_self] at hk
    exact absurd hk.symm hq
  · rwa [producer_goTo_of_ne hki] at hk

/-- An index that the step's producer has no more is another producer's. -/
theorem index_of_goTo {β : Type} {f : Producer T → Option β} {k : ι} {p : Producer T} {x : β}
    (hp : f p = none) (hk : f ((goTo i p s).producer k) = some x) :
    f (s.producer k) = some x := by
  rcases eq_or_ne k i with rfl | hki
  · rw [producer_goTo_self, hp] at hk
    exact nomatch hk
  · rwa [producer_goTo_of_ne hki] at hk

/-- An index that the step's producer did not have stays another producer's. -/
theorem index_goTo {β : Type} {f : Producer T → Option β} {k : ι} (p : Producer T) {x : β}
    (hi : f (s.producer i) = none) (hk : f (s.producer k) = some x) :
    f ((goTo i p s).producer k) = some x := by
  have hki : k ≠ i := by
    rintro rfl
    rw [hi] at hk
    exact nomatch hk
  rwa [producer_goTo_of_ne hki]

/-- A producer that holds the lock keeps it from being free. -/
theorem not_lockFree {p : Producer T} (hp : p.HoldsLock) : ¬ LockFree (goTo i p s) :=
  fun h => h i (by rwa [producer_goTo_self])

namespace Inv

/-- A step that only moves a producer on, its index kept. -/
theorem move (h : Inv r s) {p : Producer T} (hpending : p.pending = (s.producer i).pending)
    (hraising : p.raising = (s.producer i).raising)
    (hexpected : ∀ j e, p = .comparing j e → e.toNat ≤ s.readHead)
    (hsettled : LockFree (goTo i p s) → ∀ k, ∀ j ∈ ((goTo i p s).producer k).waitingFor,
      0 < s.readHead → j ≤ s.readHead → j + r.N ≤ s.readHead) :
    Inv r (goTo i p s) := by
  have hpend (k : ι) : ((goTo i p s).producer k).pending = (s.producer k).pending := by
    rcases eq_or_ne k i with rfl | hk
    · rw [producer_goTo_self, hpending]
    · rw [producer_goTo_of_ne hk]
  have hraise (k : ι) : ((goTo i p s).producer k).raising = (s.producer k).raising := by
    rcases eq_or_ne k i with rfl | hk
    · rw [producer_goTo_self, hraising]
    · rw [producer_goTo_of_ne hk]
  exact {
    fits := h.fits
    pushHead := h.pushHead
    pending := fun k j v hk => h.pending k j v (hpend k ▸ hk)
    covered := fun j hj => (h.covered j hj).imp_right fun ⟨k, v, hk⟩ => ⟨k, v, hpend k ▸ hk⟩
    written := h.written
    slots := h.slots
    raising := fun k j hk => h.raising k j (hraise k ▸ hk)
    below := fun j hj => (h.below j hj).imp_right fun ⟨k, hk⟩ => ⟨k, hraise k ▸ hk⟩
    head := h.head
    expected := by
      intro k j e hk
      rcases eq_or_ne k i with rfl | hne
      · rw [producer_goTo_self] at hk
        exact hexpected j e hk
      · rw [producer_goTo_of_ne hne] at hk
        exact h.expected k j e hk
    settled := hsettled }

theorem takeIndex (h : Inv r s) (hi : s.producer i = .idle) (value : T)
    (hfits : s.issued.length + 1 < 2 ^ 64) :
    Inv r (goTo i (.waiting s.ring.takeIndex.1 value)
      { s with ring := s.ring.takeIndex.2, issued := s.issued ++ [value] }) := by
  have hindex : s.ring.takeIndex.1.toNat = s.issued.length := h.pushHead
  have hlen : (s.issued ++ [value]).length = s.issued.length + 1 := List.length_append
  have hold {j : Nat} (hj : j < s.issued.length) : (s.issued ++ [value])[j]? = s.issued[j]? :=
    List.getElem?_append_left hj
  -- the producer had neither taken nor stored anything
  have hpending : (s.producer i).pending = none := by rw [hi]; rfl
  have hraising : (s.producer i).raising = none := by rw [hi]; rfl
  exact {
    fits := hlen.trans_lt hfits
    pushHead := by
      change (s.ring.pushHead + 1).toNat = (s.issued ++ [value]).length
      rw [hlen, UInt64.toNat_add, h.pushHead]
      exact Nat.mod_eq_of_lt hfits
    pending := by
      intro k j v hk
      rcases eq_or_ne k i with rfl | hki
      · rw [producer_goTo_self] at hk
        cases hk
        rw [hindex]
        exact List.getElem?_concat_length
      · rw [producer_goTo_of_ne hki] at hk
        have hget := h.pending k j v hk
        exact (hold (List.getElem?_eq_some_iff.1 hget).1).trans hget
    covered := by
      intro j hj
      have hj : j < (s.issued ++ [value]).length := hj
      rw [hlen] at hj
      rcases Nat.lt_succ_iff_lt_or_eq.1 hj with hj | rfl
      · exact (h.covered j hj).imp_right fun ⟨k, v, hk⟩ => ⟨k, v, index_goTo _ hpending hk⟩
      · exact .inr ⟨i, value, by rw [producer_goTo_self, ← hindex]; rfl⟩
    written := fun j hj => (h.written j hj).trans_le (by
      change _ ≤ (s.issued ++ [value]).length
      omega)
    slots := fun j hj hmax => (hold (h.written j hj)).trans (h.slots j hj hmax)
    raising := fun k j hk => h.raising k j (index_of_goTo rfl hk)
    below := fun j hj =>
      (h.below j hj).imp_right fun ⟨k, hk⟩ => ⟨k, index_goTo _ hraising hk⟩
    head := h.head
    expected := fun k j e hk => h.expected k j e (producer_of_goTo hk nofun)
    settled := by
      intro hfree k j hk hpos hj
      rcases eq_or_ne k i with rfl | hki
      · rw [producer_goTo_self] at hk
        cases hk
        rw [hindex] at hj
        exact absurd (h.readHead_lt hpos) (Nat.not_lt.2 hj)
      · rw [producer_goTo_of_ne hki] at hk
        refine h.settled (fun l hl => ?_) k j hk hpos hj
        rcases eq_or_ne l i with rfl | hli
        · rw [hi] at hl
          exact hl
        · exact hfree l (by rwa [producer_goTo_of_ne hli]) }

theorem lock (h : Inv r s) {index : UInt64} {value : T} (hi : s.producer i = .waiting index value) :
    Inv r (goTo i (.locked index value) s) :=
  h.move (by rw [hi]; rfl) (by rw [hi]; rfl) (fun _ _ hp => nomatch hp)
    fun hfree => absurd hfree (not_lockFree trivial)

theorem store (h : Inv r s) {index : UInt64} {value : T}
    (hi : s.producer i = .locked index value)
    (hlast : ∀ j ∈ s.written, j % r.N = index.toNat % r.N → j ≤ index.toNat) :
    Inv r (goTo i (.stored index)
      { s with ring := store r index value s.ring, written := index.toNat :: s.written }) := by
  have hvalue : s.issued[index.toNat]? = some value :=
    h.pending i index.toNat value (by rw [hi]; rfl)
  exact {
    fits := h.fits
    pushHead := h.pushHead
    pending := fun k j v hk => h.pending k j v (index_of_goTo rfl hk)
    covered := by
      intro j hj
      rcases h.covered j hj with hmem | ⟨k, v, hk⟩
      · exact .inl (List.mem_cons_of_mem _ hmem)
      · rcases eq_or_ne k i with rfl | hki
        · rw [hi] at hk
          cases hk
          exact .inl (.head _)
        · exact .inr ⟨k, v, by rwa [producer_goTo_of_ne hki]⟩
    written := by
      intro j hj
      rcases List.mem_cons.1 hj with rfl | hj
      · exact (List.getElem?_eq_some_iff.1 hvalue).1
      · exact h.written j hj
    slots := by
      intro j hj hmax
      by_cases hslot : j % r.N = index.toNat % r.N
      · -- the slot now holds the new value, and nothing later is in it
        have hle : index.toNat ≤ j := hmax index.toNat (.head _) hslot.symm
        have hj : j = index.toNat := by
          rcases List.mem_cons.1 hj with rfl | hj
          · rfl
          · exact Nat.le_antisymm (hlast j hj hslot) hle
        rw [hj]
        exact hvalue.trans (congrArg some (held_store_self value s.ring rfl).symm)
      · rcases List.mem_cons.1 hj with rfl | hj
        · exact absurd rfl hslot
        · refine (h.slots j hj fun k hk => hmax k (List.mem_cons_of_mem _ hk)).trans ?_
          exact congrArg some (held_store_of_ne value s.ring hslot).symm
    raising := by
      intro k j hk
      rcases eq_or_ne k i with rfl | hki
      · rw [producer_goTo_self] at hk
        cases hk
        exact .head _
      · rw [producer_goTo_of_ne hki] at hk
        exact List.mem_cons_of_mem _ (h.raising k j hk)
    below := by
      intro j hj
      rcases List.mem_cons.1 hj with rfl | hj
      · exact .inr ⟨i, by rw [producer_goTo_self]; rfl⟩
      · refine (h.below j hj).imp_right fun ⟨k, hk⟩ => ⟨k, ?_⟩
        exact index_goTo _ (by rw [hi]; rfl) hk
    head := h.head.imp_right (List.mem_cons_of_mem _)
    expected := fun k j e hk => h.expected k j e (producer_of_goTo hk nofun)
    settled := fun hfree => absurd hfree (not_lockFree trivial) }

theorem load (h : Inv r s) {index : UInt64} (hi : s.producer i = .stored index) :
    Inv r (goTo i (.comparing index s.ring.readHead) s) :=
  h.move (by rw [hi]; rfl) (by rw [hi]; rfl) (fun _ _ hp => by cases hp; exact le_rfl)
    fun hfree => absurd hfree (not_lockFree trivial)

theorem retry (h : Inv r s) {index expected : UInt64}
    (hi : s.producer i = .comparing index expected) :
    Inv r (goTo i (.comparing index s.ring.readHead) s) :=
  h.move (by rw [hi]; rfl) (by rw [hi]; rfl) (fun _ _ hp => by cases hp; exact le_rfl)
    fun hfree => absurd hfree (not_lockFree trivial)

/-- Leaving the loop, the read head raised to the index or at it already. -/
theorem leave (h : Inv r s) {index expected head : UInt64}
    (hi : s.producer i = .comparing index expected) (hup : s.ring.readHead ≤ head)
    (hhead : head = index ∨ head = s.ring.readHead ∧ index ≤ expected) :
    Inv r (goTo i .raised { s with ring := raise head s.ring }) where
  fits := h.fits
  pushHead := h.pushHead
  pending := fun k j v hk => h.pending k j v (index_of_goTo rfl hk)
  covered := by
    intro j hj
    refine (h.covered j hj).imp_right fun ⟨k, v, hk⟩ => ⟨k, v, ?_⟩
    exact index_goTo _ (by rw [hi]; rfl) hk
  written := h.written
  slots := h.slots
  raising := fun k j hk => h.raising k j (index_of_goTo rfl hk)
  below := by
    intro j hj
    rcases h.below j hj with hle | ⟨k, hk⟩
    · exact .inl (hle.trans hup)
    · rcases eq_or_ne k i with rfl | hki
      · rw [hi] at hk
        cases hk
        rcases hhead with rfl | ⟨rfl, hle⟩
        · exact .inl le_rfl
        · exact .inl ((UInt64.le_iff_toNat_le.1 hle).trans (h.expected _ _ _ hi))
      · exact .inr ⟨k, by rwa [producer_goTo_of_ne hki]⟩
  head := by
    rcases hhead with rfl | ⟨rfl, _⟩
    · exact .inr (h.raising i head.toNat (by rw [hi]; rfl))
    · exact h.head
  expected := fun k j e hk => (h.expected k j e (producer_of_goTo hk nofun)).trans hup
  settled := fun hfree => absurd hfree (not_lockFree trivial)

theorem unlock (h : Inv r s) (hi : s.producer i = .raised)
    (horder : InOrder r s (i, .unlock)) : Inv r (goTo i .idle s) := by
  refine h.move (by rw [hi]; rfl) (by rw [hi]; rfl) (fun _ _ hp => nomatch hp) ?_
  intro hfree k j hk hpos hj
  refine horder (fun l hl hlock => hfree l ?_) k j (index_of_goTo rfl hk) hpos hj
  rwa [producer_goTo_of_ne hl]

/-- **A step in order keeps the invariant.** -/
theorem step {s' : Pushing ι T} {a : ι × PushStep T} (h : Inv r s) (horder : InOrder r s a)
    (hstep : step r s a = some s') : Inv r s' := by
  obtain ⟨i, a⟩ := a
  cases stepOf_of_step hstep with
  | takeIndex hi => exact h.takeIndex hi _ horder
  | lock hi => exact h.lock hi
  | store hi => exact h.store hi fun j => horder (_, _) (by rw [hi]; rfl) j
  | load hi => exact h.load hi
  | retry hi => exact h.retry hi
  | leave hi hup hhead => exact h.leave hi hup hhead
  | unlock hi => exact h.unlock hi horder

end Inv

variable (r) in
/-- **The multi-producer law**, for every schedule of any producers that keeps in order: when
no push is in progress each slot holds the value of the largest index issued for it, and
whenever the exclusive lock can be acquired a snapshot shows consecutive values up to the read
head, precisely unless the read head is 0 with a value stored. -/
theorem lawful_of_inOrder [Inhabited T] (schedule : List (ι × PushStep T))
    (horder : ∀ x ∈ Runs.taken (step r) start schedule, InOrder r x.1 x.2) :
    ∀ s ∈ Runs.visited (step r) start schedule, (Quiet s → SlotsLatest r s) ∧
      (LockFree s → (SnapshotConsecutive r s ↔ (s.readHead = 0 → s.written = []))) := by
  intro s hs
  have h : Inv r s :=
    Runs.forall_visited_of_taken (fun _ _ _ h ho hstep => h.step ho hstep) inv_start horder s hs
  exact ⟨h.slotsLatest, h.snapshotConsecutive_iff⟩

end Steps

/-- The steps of two pushes in turn; the second producer is the first to store its value. -/
def twoAtOnce : List (Bool × PushStep Nat) :=
  [(true, .takeIndex 7), (false, .takeIndex 8), (true, .lock), (false, .lock), (false, .store),
    (false, .load), (true, .store), (true, .load), (false, .exchange false),
    (true, .exchange true), (true, .unlock), (false, .unlock)]

theorem lawful_of_twoAtOnce :
    ∃ s, Runs.run (step sixteen) start twoAtOnce = some s ∧
      snapshotCount sixteen 0 s.ring = [7, 8] ∧ (Quiet s → SlotsLatest sixteen s) ∧
      (LockFree s → (SnapshotConsecutive sixteen s ↔ (s.readHead = 0 → s.written = []))) := by
  obtain ⟨s, hs⟩ : ∃ s, Runs.run (step sixteen) start twoAtOnce = some s := ⟨_, rfl⟩
  have hshown : (Runs.run (step sixteen) start twoAtOnce).map
      (fun s => snapshotCount sixteen 0 s.ring) = some [7, 8] := by decide
  rw [hs, Option.map_some, Option.some.injEq] at hshown
  exact ⟨s, hs, hshown, lawful_of_inOrder sixteen twoAtOnce (by decide) s
    (Runs.mem_visited_of_run hs)⟩

/-! ## A producer left behind -/

/-- A push of one producer. -/
def wholePush (i : ι) (value : T) : List (ι × PushStep T) :=
  [(i, .takeIndex value), (i, .lock), (i, .store), (i, .load), (i, .exchange false), (i, .unlock)]

/-- The producer with index 0 is left behind by the one with index 1. -/
def leftBehind : List (Bool × PushStep Nat) := (false, .takeIndex 5) :: wholePush true 7

/-- **A snapshot can show an entry nobody pushed.** -/
theorem not_lawful :
    ¬ ∀ (r : RingSize) (schedule : List (Bool × PushStep Nat)),
      ∀ s ∈ Runs.visited (step r) start schedule, Lawful r s := by
  intro h
  obtain ⟨s, hs⟩ : ∃ s, Runs.run (step sixteen) start leftBehind = some s := ⟨_, rfl⟩
  have hproducers : (Runs.run (step sixteen) start leftBehind).map
      (fun s => (s.producer false, s.producer true)) = some (.waiting 0 5, .idle) := rfl
  have hshown : (Runs.run (step sixteen) start leftBehind).map
      (fun s => (snapshotCount sixteen 0 s.ring, lastValues sixteen 0 s.upToHead)) =
      some ([0, 7], [5, 7]) := by decide
  rw [hs, Option.map_some, Option.some.injEq, Prod.mk.injEq] at hproducers hshown
  have hfree : LockFree s := by
    intro i
    cases i with
    | false => rw [hproducers.1]; exact id
    | true => rw [hproducers.2]; exact id
  have hwindow := (h sixteen leftBehind s (Runs.mem_visited_of_run hs)).2 hfree 0
  exact absurd (hshown.1.symm.trans (hwindow.trans hshown.2)) (by decide)

end Pushing

end SlidingRingBuffer

end CubeChip
