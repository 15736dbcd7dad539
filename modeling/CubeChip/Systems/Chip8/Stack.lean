import CubeChip.Systems.Chip8.Cpu
import CubeChip.Lib.Nesting
import Mathlib.Algebra.Group.Nat.Defs

/-!
# The call stack over any run of calls and returns

The head runs freely over 32 bits and picks a slot by its low four bits, so the stack is a circle
of sixteen slots. `History` is what it is to hold: the depth as an unbounded integer, below zero
when an empty stack was popped, and all that was pushed since the last clear with the depth of
each. A slot holds what was pushed last at a depth of its remainder (`Shows`). As a store of
calls it keeps the newest sixteen (`Keeps`, over `Nesting`).
-/

namespace CubeChip.Stack

open Nesting (Event Entry Matched net)

/-- The stack after a push, a pop or a clear. -/
def step (s : Stack) : Event UInt32 → Stack
  | .push value => s.push value
  | .pop => s.pop.2
  | .clear => empty

/-- The stack after the events, from the initial one. -/
def afterEvents (events : List (Event UInt32)) : Stack := events.foldl step empty

/-! ## The slots of a free-running head -/

/-- A slot is the index modulo 16. -/
theorem slot_val (index : UInt32) : (slot index).val = index.toNat % 16 := by
  have hmask : (index &&& 0xF).toNat = index.toNat % 16 := by
    rw [UInt32.toNat_and]
    exact Nat.and_two_pow_sub_one_eq_mod index.toNat 4
  show (index &&& 0xF).toNat % 16 = _
  rw [hmask, Nat.mod_mod]

/-- The slot of a head that counts `d`, whatever wrapped. -/
theorem slot_ofInt (d : Int) : ((slot (UInt32.ofInt d)).val : Int) = d % 16 := by
  have hhead : (UInt32.ofInt d).toNat = (d % 2 ^ 32).toNat := by
    rw [UInt32.ofInt, UInt32.toNat_ofNat']
    omega
  rw [slot_val, hhead]
  omega

/-! ## What the slots hold -/

/-- The depth, and what was pushed since the last clear with the depth of each, newest first. -/
structure History where
  depth : Int
  pushed : List (Int × UInt32)

namespace History

/-- One event, without slots. -/
def step (h : History) : Event UInt32 → History
  | .push value => ⟨h.depth + 1, (h.depth, value) :: h.pushed⟩
  | .pop => ⟨h.depth - 1, h.pushed⟩
  | .clear => ⟨0, []⟩

/-- Some events, without slots. -/
def afterEvents (events : List (Event UInt32)) : History := events.foldl step ⟨0, []⟩

/-- What was pushed last at a depth of remainder `i`; 0 if nothing was. -/
def last (h : History) (i : Fin 16) : UInt32 :=
  (h.pushed.find? fun p => p.1 % 16 == (i.val : Int)).elim 0 Prod.snd

end History

/-- The head counts the depth, and every slot holds what was pushed last there. -/
structure Shows (s : Stack) (h : History) : Prop where
  head : s.head = UInt32.ofInt h.depth
  data : ∀ i, s.data i = h.last i

/-- One event. -/
theorem Shows.step {s : Stack} {h : History} (hs : Shows s h) (event : Event UInt32) :
    Shows (s.step event) (h.step event) := by
  cases event with
  | push value =>
      refine ⟨?_, fun i => ?_⟩
      · show s.head + 1 = UInt32.ofInt (h.depth + 1)
        rw [hs.head, UInt32.ofInt_add, UInt32.ofInt_one]
      · show Function.update s.data (slot s.head) value i = _
        have hslot := slot_ofInt h.depth
        rw [← hs.head] at hslot
        by_cases hi : i = slot s.head
        · subst hi
          simp [History.last, History.step, hslot]
        · have hne : (h.depth % 16 == (i.val : Int)) = false := by
            rw [beq_eq_false_iff_ne, ← hslot]
            exact fun heq => hi (Fin.ext (Int.natCast_inj.1 heq).symm)
          rw [Function.update_of_ne hi, hs.data]
          simp [History.last, History.step, hne]
  | pop =>
      refine ⟨?_, hs.data⟩
      show s.head - 1 = UInt32.ofInt (h.depth - 1)
      rw [hs.head, Int.sub_eq_add_neg, UInt32.ofInt_add, UInt32.ofInt_neg_one,
        ← UInt32.sub_eq_add_neg]
  | clear => exact ⟨rfl, fun i => rfl⟩

/-- Any events. -/
theorem shows_afterEvents (events : List (Event UInt32)) :
    Shows (afterEvents events) (History.afterEvents events) :=
  List.foldl_rel ⟨rfl, fun _ => rfl⟩ fun event _ _ _ hs => hs.step event

/-! ## The calls it keeps -/

/-- The slot of the entry that `i` others lie on. -/
def slotBelow (s : Stack) (i : Nat) : Fin 16 := slot (s.head - 1 - UInt32.ofNat i)

/-- The slot on top after a push. -/
theorem slotBelow_push_zero (s : Stack) (value : UInt32) :
    (s.push value).slotBelow 0 = slot s.head := by
  have hhead : s.head + 1 - 1 - UInt32.ofNat 0 = s.head := by grind
  exact congrArg slot hhead

/-- The slots below it. -/
theorem slotBelow_push_succ (s : Stack) (value : UInt32) (i : Nat) :
    (s.push value).slotBelow (i + 1) = s.slotBelow i := by
  have hhead : s.head + 1 - 1 - UInt32.ofNat (i + 1) = s.head - 1 - UInt32.ofNat i := by
    rw [UInt32.ofNat_add]
    grind
  exact congrArg slot hhead

/-- The slots after a pop. -/
theorem slotBelow_pop (s : Stack) (i : Nat) : s.pop.2.slotBelow i = s.slotBelow (i + 1) := by
  have hhead : s.head - 1 - 1 - UInt32.ofNat i = s.head - 1 - UInt32.ofNat (i + 1) := by
    rw [UInt32.ofNat_add]
    grind
  exact congrArg slot hhead

/-- The slot of the next push is that of the entry fifteen others lie on. -/
theorem slotBelow_eq_iff (s : Stack) (i : Nat) : s.slotBelow i = slot s.head ↔ i % 16 = 15 := by
  have hone : (1 : UInt32).toNat = 1 := rfl
  have hhead := s.head.toNat_lt
  rw [Fin.ext_iff, slotBelow, slot_val, slot_val, UInt32.toNat_sub, UInt32.toNat_sub,
    UInt32.toNat_ofNat', hone]
  omega

/-- Every call kept is among the newest sixteen and in its slot. -/
def Keeps (s : Stack) (calls : List (Entry UInt32)) : Prop :=
  ∀ i e, calls[i]? = some e → e.kept = true → i < 16 ∧ s.data (s.slotBelow i) = e.value

/-- One event: a push overwrites the slot sixteen below. -/
theorem Keeps.step {s : Stack} {calls : List (Entry UInt32)} (hs : Keeps s calls)
    (event : Event UInt32) : Keeps (s.step event) (Nesting.step 16 calls event) := by
  intro i e he hkept
  cases event with
  | push value =>
      have hi := Nesting.ne_of_kept_lose he hkept
      rw [Nesting.step, Nesting.getElem?_lose_of_ne hi] at he
      cases i with
      | zero =>
          obtain rfl : _ = e := Option.some.inj he
          refine ⟨by omega, ?_⟩
          show Function.update s.data (slot s.head) value ((s.push value).slotBelow 0) = value
          rw [slotBelow_push_zero, Function.update_self]
      | succ i =>
          obtain ⟨hlt, hdata⟩ := hs i e he hkept
          have hne : s.slotBelow i ≠ slot s.head := by
            rw [Ne, slotBelow_eq_iff]
            omega
          refine ⟨by omega, ?_⟩
          show Function.update s.data (slot s.head) value ((s.push value).slotBelow (i + 1)) = _
          rw [slotBelow_push_succ, Function.update_of_ne hne, hdata]
  | pop =>
      rw [Nesting.step, List.getElem?_tail] at he
      obtain ⟨hlt, hdata⟩ := hs (i + 1) e he hkept
      refine ⟨by omega, ?_⟩
      show s.data (s.pop.2.slotBelow i) = e.value
      rw [slotBelow_pop, hdata]
  | clear => cases he

/-- The calls after the events, with those lost that sixteen or more were pushed over. -/
def calls (events : List (Event UInt32)) : List (Entry UInt32) := Nesting.run 16 [] events

/-- Any events. -/
theorem keeps_afterEvents (events : List (Event UInt32)) :
    Keeps (afterEvents events) (calls events) := by
  refine List.foldl_rel ?_ fun event _ _ _ hs => hs.step event
  intro i e he
  cases he

/-- A pop returns the newest call, if it is kept. -/
theorem Keeps.pop {s : Stack} {calls : List (Entry UInt32)} (hs : Keeps s calls)
    {e : Entry UInt32} (he : calls.head? = some e) (hkept : e.kept = true) : s.pop.1 = e.value := by
  rw [List.head?_eq_getElem?] at he
  have hdata := (hs 0 e he hkept).2
  have hhead : s.head - 1 - UInt32.ofNat 0 = s.head - 1 := by grind
  rw [slotBelow, hhead] at hdata
  exact hdata

/-- **The call stack.** After any run of pushes, pops and clears:
* the indices a push and a pop use next are below sixteen, and are the depth and the one below it
  on the circle, whatever the head wrapped;
* each slot holds what was pushed last at its place on the circle;
* a push followed by its own pop is returned by it, when no more than sixteen calls from it on
  are outstanding between;
* the calls kept are among the newest sixteen, each in its slot. A push writes into the slot of the
  sixteenth, the oldest of them, and no other; a pop writes into none. -/
theorem afterEvents_spec (events : List (Event UInt32)) :
    (((afterEvents events).head &&& 0xF).toNat < 16 ∧
      (((afterEvents events).head - 1) &&& 0xF).toNat < 16) ∧
    (((slot (afterEvents events).head).val : Int) = (History.afterEvents events).depth % 16 ∧
      ((slot ((afterEvents events).head - 1)).val : Int) =
        ((History.afterEvents events).depth - 1) % 16) ∧
    (∀ i, (afterEvents events).data i = (History.afterEvents events).last i) ∧
    (∀ value between, Matched between → (∀ first, first <+: between → 1 + net first ≤ 16) →
      (afterEvents (events ++ .push value :: between)).pop.1 = value) ∧
    (∀ i e, (calls events)[i]? = some e → e.kept = true →
      i < 16 ∧ (afterEvents events).data ((afterEvents events).slotBelow i) = e.value ∧
      (i = 15 ↔ (afterEvents events).slotBelow i = slot (afterEvents events).head)) ∧
    (∀ value i, i ≠ slot (afterEvents events).head →
      ((afterEvents events).push value).data i = (afterEvents events).data i) ∧
    (afterEvents events).pop.2.data = (afterEvents events).data := by
  have hshows := shows_afterEvents events
  have hmask : ∀ index : UInt32, (index &&& 0xF).toNat < 16 := by
    intro index
    rw [UInt32.toNat_and]
    exact Nat.lt_succ_of_le Nat.and_le_right
  refine ⟨⟨hmask _, hmask _⟩, ⟨?_, ?_⟩, hshows.data, ?_, ?_, ?_, rfl⟩
  · rw [hshows.head, slot_ofInt]
  · have hpop := (hshows.step .pop).head
    change (afterEvents events).head - 1 = _ at hpop
    rw [hpop, slot_ofInt]
    rfl
  · intro value between hmatched hdeep
    have hkeeps := keeps_afterEvents (events ++ .push value :: between)
    refine hkeeps.pop (e := ⟨value, true⟩) ?_ rfl
    rw [calls, Nesting.run, List.foldl_append]
    exact Nesting.run_matched hmatched hdeep
  · intro i e he hkept
    obtain ⟨hlt, hdata⟩ := keeps_afterEvents events i e he hkept
    refine ⟨hlt, hdata, ?_⟩
    rw [slotBelow_eq_iff]
    omega
  · intro value i hi
    exact Function.update_of_ne hi _ _

end CubeChip.Stack
