import CubeChip.Lib.BitSet
import CubeChip.Systems.Chip8.Cpu

/-!
# Presses caught by the keypad

`HexInput` keeps four sets of keys: held in this frame and in the last one, hidden from the input
checks, and repeating. `catch_press` hides what was pressed and lets one key of it repeat; `update`
shows a key again when its state changes, and `reset` empties the sets while the keys stay
where they are. What holds of the sets is `Inv`, and it is kept by every event. That a key
stays hidden is an invariant too, of one key (`Hidden`), kept by every event but an update that
sees the key change or is the first since a reset (`Shows`); `not_hidden_after_reset` is a run
where the reset matters.
-/

namespace CubeChip

namespace HexInput

open BitSet

/-! ## Key states -/

/-- What an `update` reads: the key states and the bindings, to indices below 32. -/
structure KeyFrame where
  input : BasicKeyboard
  binds : List SimpleKeyMapping
  idx_lt : ∀ mapping ∈ binds, mapping.idx.toNat < 32

/-- A key is physically held, by one of its bindings. -/
def KeyFrame.Holds (f : KeyFrame) (j : Nat) : Prop :=
  ∃ mapping ∈ f.binds, mapping.idx.toNat = j ∧
    (f.input.isHeld mapping.key || f.input.isHeld mapping.alt) = true

/-- The loop over the bindings, from any keys. -/
theorem has_foldl_binds (input : BasicKeyboard) {binds : List SimpleKeyMapping}
    (hidx : ∀ mapping ∈ binds, mapping.idx.toNat < 32) (keys : UInt32) (j : Nat) :
    has (binds.foldl (fun keys mapping =>
      if input.isHeld mapping.key || input.isHeld mapping.alt
      then keys ||| ((1 : UInt32) <<< mapping.idx) else keys) keys) j = true ↔
    has keys j = true ∨ ∃ mapping ∈ binds, mapping.idx.toNat = j ∧
      (input.isHeld mapping.key || input.isHeld mapping.alt) = true := by
  induction binds generalizing keys with
  | nil => simp
  | cons mapping binds ih =>
    have hbit := has_one_shiftLeft (hidx mapping (.head _)) j
    rw [List.foldl_cons, ih fun m hm => hidx m (.tail _ hm)]
    simp only [List.mem_cons, exists_eq_or_imp]
    cases hheld : input.isHeld mapping.key || input.isHeld mapping.alt with
    | true => simp [hbit, or_assoc, eq_comm (a := j)]
    | false => simp

/-- **The keys of a frame** are those held. -/
theorem has_heldKeys (f : KeyFrame) (j : Nat) :
    has (heldKeys f.input f.binds) j = true ↔ f.Holds j := by
  rw [heldKeys, has_foldl_binds f.input f.idx_lt, has_zero]
  simp [KeyFrame.Holds]

/-! ## What the checks see -/

/-- The checks ask for a single key. -/
theorem and_shiftLeft_ne_zero {keys b : UInt32} {n : Nat} (hb : ∀ j, has b j = decide (j = n)) :
    (keys &&& b != 0) = has keys n := by
  rw [Bool.eq_iff_iff, bne_iff_ne]
  constructor
  · intro h
    obtain ⟨j, hj⟩ := exists_has_of_ne_zero h
    rw [has_and, hb, Bool.and_eq_true, decide_eq_true_eq] at hj
    exact hj.2 ▸ hj.1
  · intro h
    refine ne_zero_of_has (j := n) ?_
    rw [has_and, hb, h, decide_eq_true rfl]
    rfl

theorem toNat_keyIndex (v : UInt8) : (v &&& 0xF).toUInt32.toNat = v.toNat % 16 := by
  rw [UInt8.toNat_toUInt32, UInt8.toNat_and]
  exact Nat.and_two_pow_sub_one_eq_mod _ 4

/-- The first player's key `v`. -/
theorem isKeyHeldP1_eq (k : HexInput) (v : UInt8) :
    k.isKeyHeldP1 v = (has k.keysThis (v.toNat % 16) && !has k.keysHide (v.toNat % 16)) := by
  have hindex := toNat_keyIndex v
  rw [isKeyHeldP1, and_shiftLeft_ne_zero (n := v.toNat % 16), has_and_not]
  intro j
  rw [has_one_shiftLeft (by omega), hindex]

/-- The second player's key `v`. -/
theorem isKeyHeldP2_eq (k : HexInput) (v : UInt8) :
    k.isKeyHeldP2 v =
      (has k.keysThis (4 + v.toNat % 16) && !has k.keysHide (4 + v.toNat % 16)) := by
  have hindex := toNat_keyIndex v
  rw [isKeyHeldP2, and_shiftLeft_ne_zero (n := 4 + v.toNat % 16), has_and_not]
  intro j
  have hfour : has 0x10 (j - v.toNat % 16) = decide (j - v.toNat % 16 = 4) :=
    has_one_shiftLeft (k := 4) (by decide) _
  rw [has_shiftLeft (by omega), hindex, hfour, Bool.eq_iff_iff]
  simp only [Bool.and_eq_true, Bool.not_eq_true', decide_eq_true_eq, decide_eq_false_iff_not]
  omega

/-! ## `update` -/

/-- A key is hidden after an update if it was, and did not change. -/
theorem has_keysHide_update (k : HexInput) (f : KeyFrame) (j : Nat) :
    has (k.update f.input f.binds).keysHide j = true ↔
      has k.keysHide j = true ∧ (has k.keysThis j = true ↔ f.Holds j) := by
  rw [← has_heldKeys f j]
  simp only [update, has_and_not, has_xor, Bool.and_eq_true, Bool.not_eq_true']
  cases has k.keysThis j <;> cases has (heldKeys f.input f.binds) j <;> simp

theorem has_keysLoop_update (k : HexInput) (f : KeyFrame) (j : Nat) :
    has (k.update f.input f.binds).keysLoop j = true ↔
      has k.keysLoop j = true ∧ has (k.update f.input f.binds).keysHide j = true := by
  simp only [update, has_and, Bool.and_eq_true]

/-! ## `catch_press` -/

/-- The least key of a set. -/
def lowest (keys : UInt32) : UInt32 := keys &&& ~~~(keys - 1)

/-- `countr_zero` finds an element. -/
theorem has_countrZero {keys : UInt32} (h : keys ≠ 0) :
    has keys (countrZero keys) = true ∧ countrZero keys < 32 := by
  obtain ⟨j, hj⟩ := exists_has_of_ne_zero h
  have hsome : ((List.range 32).find? keys.toNat.testBit).isSome = true :=
    List.find?_isSome.2 ⟨j, List.mem_range.2 (lt_of_has hj), hj⟩
  obtain ⟨i, hi⟩ := Option.isSome_iff_exists.1 hsome
  have hcount : countrZero keys = i := by rw [countrZero, hi]; rfl
  have hhas : has keys i = true := List.find?_some hi
  rw [hcount]
  exact ⟨hhas, lt_of_has hhas⟩

/-- What `catch_press` did: nothing to the sets that matter, or it caught the keys `valid`. -/
structure Missed (k : HexInput) (r : Bool × HexInput × Option (Fin 16 × UInt8)) : Prop where
  returned : r.1 = false
  keysThis : r.2.1.keysThis = k.keysThis
  keysHide : r.2.1.keysHide = k.keysHide
  keysLoop : r.2.1.keysLoop = k.keysLoop
  written : r.2.2 = none

structure Caught (k : HexInput) (valid : UInt32)
    (r : Bool × HexInput × Option (Fin 16 × UInt8)) : Prop where
  returned : r.1 = true
  keysThis : r.2.1.keysThis = k.keysThis
  keysHide : r.2.1.keysHide = k.keysHide ||| valid
  keysLoop : r.2.1.keysLoop = lowest valid
  written : r.2.2 = k.keyRegPtr.map fun X => (X, UInt8.ofNat (countrZero (lowest valid)))
  valid_ne_zero : valid ≠ 0
  valid_held : ∀ j, has valid j = true → has k.keysThis j = true

/-- **What a call does.** What is caught is held: either new presses, or the one key that
repeats, when it is all that is pressed. -/
theorem catchPress_cases (k : HexInput) (n : UInt32)
    (hone : ∀ i j, has k.keysLoop i = true → has k.keysLoop j = true → i = j) :
    Missed k (k.catchPress n) ∨ ∃ valid, Caught k valid (k.catchPress n) := by
  unfold catchPress
  set l : HexInput := if k.tickLast + k.tickSpan ≤ n
    then { k with keysLast := k.keysLast &&& ~~~k.keysLoop } else k with hl
  have hthis : l.keysThis = k.keysThis := by rw [hl]; split <;> rfl
  have hhide : l.keysHide = k.keysHide := by rw [hl]; split <;> rfl
  have hloop : l.keysLoop = k.keysLoop := by rw [hl]; split <;> rfl
  have hreg : l.keyRegPtr = k.keyRegPtr := by rw [hl]; split <;> rfl
  dsimp only
  split
  · exact .inl ⟨rfl, hthis, hhide, hloop, rfl⟩
  · next hpress =>
    have hheld : ∀ j, has (l.keysThis &&& ~~~l.keysLast) j = true → has k.keysThis j = true := by
      intro j hj
      rw [has_and_not, Bool.and_eq_true] at hj
      exact hthis ▸ hj.1
    have hrepeat : ¬(l.keysThis &&& ~~~l.keysLast) &&& ~~~l.keysLoop ≠ 0 →
        ∃ j, has (l.keysThis &&& ~~~l.keysLast) j = true ∧ has l.keysLoop j = true :=
      fun hdiff => exists_has_both hpress (not_not.1 hdiff)
    refine .inr ⟨_, rfl, hthis, congrArg (· ||| _) hhide, rfl, by rw [hreg]; rfl, ?_, ?_⟩
    all_goals split
    · next hdiff => exact hdiff
    · next hdiff =>
      obtain ⟨j, -, hj⟩ := hrepeat hdiff
      exact ne_zero_of_has hj
    · next hdiff =>
      intro j hj
      rw [has_and_not, Bool.and_eq_true] at hj
      exact hheld j hj.1
    · next hdiff =>
      -- One key repeats, and something of it is pressed, so it is the one.
      intro i hi
      obtain ⟨j, hj, hjloop⟩ := hrepeat hdiff
      rw [hloop] at hi hjloop
      exact hone i j hi hjloop ▸ hheld j hj

/-! ## Every sequence of events -/

/-- What happens to a keypad. -/
inductive KeypadEvent where
  | update (f : KeyFrame)
  | catchPress (frameCount : UInt32)
  | setRegPtr (X : Option (Fin 16))
  | reset

/-- A frame in which no key is held. -/
def KeyFrame.blank : KeyFrame := ⟨.resetState, [], fun _ h => absurd h List.not_mem_nil⟩

/-- A keypad, with the frame of the last update, and whether that was before a reset. A reset
leaves the keyboard as it is. -/
structure Keypad where
  keys : HexInput
  frame : KeyFrame
  renewed : Bool

/-- A new keypad. -/
def Keypad.start : Keypad := ⟨reset, .blank, true⟩

/-- An event. -/
def Keypad.play (s : Keypad) : KeypadEvent → Keypad
  | .update f => ⟨s.keys.update f.input f.binds, f, false⟩
  | .catchPress n => { s with keys := (s.keys.catchPress n).2.1 }
  | .setRegPtr X => { s with keys := { s.keys with keyRegPtr := X } }
  | .reset => { s with keys := reset, renewed := true }

/-- The keypad after events. -/
def Keypad.after (events : List KeypadEvent) (s : Keypad) : Keypad := events.foldl play s

/-- **What holds of the sets** in every state. -/
structure Inv (s : Keypad) : Prop where
  loop_hide : ∀ j, has s.keys.keysLoop j = true → has s.keys.keysHide j = true
  loop_one : ∀ i j, has s.keys.keysLoop i = true → has s.keys.keysLoop j = true → i = j
  hide_this : ∀ j, has s.keys.keysHide j = true → has s.keys.keysThis j = true
  held : ∀ j, has s.keys.keysThis j = true ↔ s.renewed = false ∧ s.frame.Holds j

variable {s : Keypad}

theorem Inv.reset (f : KeyFrame) : Inv ⟨reset, f, true⟩ := by
  constructor <;> simp [HexInput.reset]

theorem Inv.update (h : Inv s) (f : KeyFrame) : Inv (s.play (.update f)) where
  loop_hide j hj := ((has_keysLoop_update s.keys f j).1 hj).2
  loop_one i j hi hj :=
    h.loop_one i j ((has_keysLoop_update s.keys f i).1 hi).1
      ((has_keysLoop_update s.keys f j).1 hj).1
  hide_this j hj := by
    obtain ⟨hhide, hsame⟩ := (has_keysHide_update s.keys f j).1 hj
    exact (has_heldKeys f j).2 (hsame.1 (h.hide_this j hhide))
  held j := (has_heldKeys f j).trans (and_iff_right rfl).symm

theorem Inv.catchPress (h : Inv s) (n : UInt32) : Inv (s.play (.catchPress n)) := by
  rcases catchPress_cases s.keys n h.loop_one with hmiss | ⟨valid, hcatch⟩
  · constructor
    all_goals simp only [Keypad.play, hmiss.keysThis, hmiss.keysHide, hmiss.keysLoop]
    · exact h.loop_hide
    · exact h.loop_one
    · exact h.hide_this
    · exact h.held
  · constructor
    all_goals simp only [Keypad.play, hcatch.keysThis, hcatch.keysHide, hcatch.keysLoop]
    · intro j hj
      rw [has_or, ((has_lowest valid j).1 hj).1, Bool.or_true]
    · exact fun i j => eq_of_has_lowest
    · intro j hj
      rw [has_or, Bool.or_eq_true] at hj
      exact hj.elim (h.hide_this j) (hcatch.valid_held j)
    · exact h.held

/-- **Every event keeps it.** -/
theorem Inv.play (h : Inv s) (e : KeypadEvent) : Inv (s.play e) := by
  cases e with
  | update f => exact h.update f
  | catchPress n => exact h.catchPress n
  | setRegPtr X => exact ⟨h.loop_hide, h.loop_one, h.hide_this, h.held⟩
  | reset => exact .reset s.frame

theorem Inv.after (h : Inv s) (events : List KeypadEvent) : Inv (s.after events) := by
  induction events generalizing s with
  | nil => exact h
  | cons e events ih => exact ih (h.play e)

/-! ## What was caught stays hidden -/

/-- An update sees a key's physical state change: it is another one than in the frame before. -/
def Sees (j : Nat) (s : Keypad) : KeypadEvent → Prop
  | .update f => ¬(s.frame.Holds j ↔ f.Holds j)
  | _ => False

/-- An update that can show a hidden key: it sees it change, or is the first since a reset. -/
def Shows (j : Nat) (s : Keypad) : KeypadEvent → Prop
  | .update f => Sees j s (.update f) ∨ s.renewed = true
  | _ => False

/-- No event is one of these, each in the state it happens in. -/
def Without (P : Keypad → KeypadEvent → Prop) : Keypad → List KeypadEvent → Prop
  | _, [] => True
  | s, e :: events => ¬P s e ∧ Without P (s.play e) events

/-- The checks do not see the key: it is hidden, or not held at all. -/
def Hidden (j : Nat) (k : HexInput) : Prop := has k.keysThis j = true → has k.keysHide j = true

theorem Hidden.play {j : Nat} (hs : Inv s) (h : Hidden j s.keys) {e : KeypadEvent}
    (he : ¬Shows j s e) : Hidden j (s.play e).keys := by
  cases e with
  | update f =>
    obtain ⟨hsees, hrenewed⟩ := not_or.1 he
    have hframe : has s.keys.keysThis j = true ↔ s.frame.Holds j :=
      (hs.held j).trans (and_iff_right (Bool.eq_false_iff.2 hrenewed))
    have hsame : has s.keys.keysThis j = true ↔ f.Holds j := hframe.trans (not_not.1 hsees)
    intro hj
    have hheld : has s.keys.keysThis j = true := hsame.2 ((has_heldKeys f j).1 hj)
    exact (has_keysHide_update s.keys f j).2 ⟨h hheld, hsame⟩
  | catchPress n =>
    intro hj
    rcases catchPress_cases s.keys n hs.loop_one with hmiss | ⟨valid, hcatch⟩
    · simp only [Keypad.play, hmiss.keysThis, hmiss.keysHide] at hj ⊢
      exact h hj
    · simp only [Keypad.play, hcatch.keysThis, hcatch.keysHide, has_or] at hj ⊢
      rw [h hj, Bool.true_or]
  | setRegPtr X => exact h
  | reset => exact fun hj => by simp [Keypad.play, reset] at hj

theorem Hidden.after {j : Nat} (hs : Inv s) (h : Hidden j s.keys) {events : List KeypadEvent}
    (hwithout : Without (Shows j) s events) : Hidden j (s.after events).keys := by
  induction events generalizing s with
  | nil => exact h
  | cons e events ih => exact ih (hs.play e) (h.play hs hwithout.1) hwithout.2

/-- Neither player's check reports it. -/
theorem Hidden.not_held {j : Nat} {k : HexInput} (h : Hidden j k) (v : UInt8) :
    (v.toNat % 16 = j → k.isKeyHeldP1 v = false) ∧
      (4 + v.toNat % 16 = j → k.isKeyHeldP2 v = false) := by
  have hcheck : (has k.keysThis j && !has k.keysHide j) = false := by
    cases hthis : has k.keysThis j with
    | false => rfl
    | true => rw [h hthis]; rfl
  constructor
  · rintro rfl
    rw [isKeyHeldP1_eq, hcheck]
  · rintro rfl
    rw [isKeyHeldP2_eq, hcheck]

/-! ## The whole invariant -/

/-- The value written, where a register is waiting, is the index of a key caught and held. -/
theorem written_of_caught (h : Inv s) {n : UInt32} {X : Fin 16}
    (hX : s.keys.keyRegPtr = some X) (hcaught : (s.keys.catchPress n).1 = true) :
    ∃ v, (s.keys.catchPress n).2.2 = some (X, v) ∧ s.frame.Holds v.toNat ∧
      has (s.keys.catchPress n).2.1.keysLoop v.toNat = true := by
  rcases catchPress_cases s.keys n h.loop_one with hmiss | ⟨valid, hcatch⟩
  · rw [hmiss.returned] at hcaught
    cases hcaught
  · obtain ⟨hloop, hlt⟩ := has_countrZero (lowest_ne_zero hcatch.valid_ne_zero)
    have hvalue : (UInt8.ofNat (countrZero (lowest valid))).toNat = countrZero (lowest valid) :=
      UInt8.toNat_ofNat_of_lt' (Nat.lt_trans hlt (by decide))
    refine ⟨_, by rw [hcatch.written, hX]; rfl, ?_, ?_⟩
    · rw [hvalue]
      exact ((h.held _).1 (hcatch.valid_held _ ((has_lowest valid _).1 hloop).1)).2
    · rw [hvalue, hcatch.keysLoop]
      exact hloop

/-- What can be said of a keypad: the repeating key is one at most and hidden; an update hides
no key that changes in it; a value written is the index of a key caught and held; and the keys
`catch_press` hides are not reported until an update sees them change, or is the first since a
reset. -/
structure Captures (s : Keypad) : Prop where
  loop_hide : ∀ j, has s.keys.keysLoop j = true → has s.keys.keysHide j = true
  loop_one : ∀ i j, has s.keys.keysLoop i = true → has s.keys.keysLoop j = true → i = j
  hide_unchanged : ∀ (f : KeyFrame) (j : Nat),
    has (s.keys.update f.input f.binds).keysHide j = true → (s.frame.Holds j ↔ f.Holds j)
  written_held : ∀ (n : UInt32) (X : Fin 16), s.keys.keyRegPtr = some X →
    (s.keys.catchPress n).1 = true →
      ∃ v, (s.keys.catchPress n).2.2 = some (X, v) ∧ s.frame.Holds v.toNat ∧
        has (s.keys.catchPress n).2.1.keysLoop v.toNat = true
  captured_not_held : ∀ (n : UInt32) (j : Nat), has (s.keys.catchPress n).2.1.keysHide j = true →
    ∀ later, Without (Shows j) (s.play (.catchPress n)) later → ∀ v : UInt8,
      (v.toNat % 16 = j → ((s.play (.catchPress n)).after later).keys.isKeyHeldP1 v = false) ∧
      (4 + v.toNat % 16 = j → ((s.play (.catchPress n)).after later).keys.isKeyHeldP2 v = false)

/-- **Captured presses**, after any events on a new keypad. -/
theorem keypad_captures (events : List KeypadEvent) : Captures (Keypad.start.after events) := by
  have h : Inv (Keypad.start.after events) := (Inv.reset .blank).after events
  exact {
    loop_hide := h.loop_hide
    loop_one := h.loop_one
    hide_unchanged := fun f j hj => by
      obtain ⟨hhide, hsame⟩ := (has_keysHide_update _ f j).1 hj
      have hthis := h.hide_this j hhide
      exact iff_of_true ((h.held j).1 hthis).2 (hsame.1 hthis)
    written_held := fun n X => written_of_caught h
    captured_not_held := fun n j hj later hwithout v =>
      (Hidden.after (h.catchPress n) (fun _ => hj) hwithout).not_held v }

/-- The key `0x5` is bound, and held. -/
def KeyFrame.five : KeyFrame where
  input := ⟨fun _ => true, fun _ => true⟩
  binds := [⟨5, default, default⟩]
  idx_lt := by decide

/-- It is caught, the keypad is reset, and no update sees it change; the next one shows it. -/
theorem not_hidden_after_reset :
    ¬ ∀ (events : List KeypadEvent) (n : UInt32) (j : Nat),
      let s := Keypad.start.after events
      has (s.keys.catchPress n).2.1.keysHide j = true →
        ∀ later, Without (Sees j) (s.play (.catchPress n)) later → ∀ v : UInt8,
          v.toNat % 16 = j →
            ((s.play (.catchPress n)).after later).keys.isKeyHeldP1 v = false := by
  intro h
  have hunseen : Without (Sees 5)
      ((Keypad.start.after [.update .five]).play (.catchPress 0)) [.reset, .update .five] :=
    ⟨not_false, fun hsees => hsees Iff.rfl, trivial⟩
  exact absurd (h [.update .five] 0 5 (by decide) _ hunseen 5 rfl) (by decide)

end HexInput

end CubeChip
