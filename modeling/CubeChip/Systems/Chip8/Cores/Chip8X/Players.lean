import Mathlib.Data.Set.Lattice
import Mathlib.Order.CompletePartialOrder
import CubeChip.Systems.Chip8.SideBySide
import CubeChip.Systems.Chip8.Cores.Chip8X

/-!
# `CHIP8X`: the keys of the two players

Ex9E and ExA1 test the keys of the first player, ExF2 and ExF5 those of the second. Both players'
tests shift a bit by the low half of a register, the first from bit 0 and the second from bit 4,
so that they meet in bits 4 to 15. The keys a player's instructions depend on are found here by
comparing two runs whose keys differ: a run that keeps to one player's instructions is decided by
the keys of that player's bits, and by no fewer.
-/

namespace CubeChip.Chip8X

open CubeChip.Core

/-! ## Players -/

/-- The two keypads. -/
inductive Player where
  | first
  | second
deriving DecidableEq, Repr

namespace Player

/-- The one who does not play. -/
def other : Player → Player
  | first => second
  | second => first

/-- The instruction tests a key of the player. -/
def reads : Player → Instruction → Bool
  | first, .common (.iEx9E _) => true
  | first, .common (.iExA1 _) => true
  | second, .iExF2 _ => true
  | second, .iExF5 _ => true
  | _, _ => false

/-- The instruction waits for a key, of whichever player. -/
def waits : Instruction → Bool
  | .common (.iFx0A _) => true
  | _ => false

/-- The instruction is not for the player's program. -/
def foreign (p : Player) (i : Instruction) : Bool := p.other.reads i || waits i

/-- The bits the player's tests can reach. -/
def mask : Player → UInt32
  | first => 0xFFFF
  | second => 0xFFFF0

/-- The bound key indices among them. -/
def keys : Player → Set UInt32
  | first => {idx | idx < 16}
  | second => {idx | 4 ≤ idx ∧ idx < 16}

end Player

/-! ## Two histories of keys -/

/-- Key states that agree on the keys bound to the indices of `S`. -/
def SameKeys (binds : List SimpleKeyMapping) (S : Set UInt32) (keys keys' : Scancode → Bool) :
    Prop :=
  ∀ mapping ∈ binds, mapping.idx ∈ S →
    keys mapping.key = keys' mapping.key ∧ keys mapping.alt = keys' mapping.alt

/-- Inputs that differ in the keys alone, and agree on those bound to `S`. -/
structure SameInput (binds : List SimpleKeyMapping) (S : Set UInt32) (i j : FrameInput) :
    Prop where
  keys : SameKeys binds S i.keys j.keys
  slices : i.slices = j.slices
  streamEnded : i.streamEnded = j.streamEnded

/-- The machine without the bit fields of its keypad and the key states they come from. -/
def machine (s : Chip8X) : Chip8X :=
  { s with
    input := BasicKeyboard.resetState
    keypad := { s.keypad with keysThis := 0, keysLast := 0, keysHide := 0, keysLoop := 0 } }

/-- No instruction of the run is foreign to the player. -/
def KeepsTo (p : Player) (s : Chip8X) (events : List Event) : Prop :=
  ∀ u ∈ instructionStarts virtuals s events, p.foreign (current virtuals u) = false

/-- From a state in which no Fx0A waits, two runs that keep to the player's instructions and
agree on the keys bound to `S` leave the same machine. -/
def Separated (p : Player) (S : Set UInt32) : Prop :=
  ∀ launch s, Reachable virtuals (boot launch) s → s.interrupt ≠ .input →
    ∀ events events', List.Forall₂ (SameEvent (SameInput s.customBinds S)) events events' →
      KeepsTo p s events → KeepsTo p s events' →
      (Runs.run (step virtuals) s events).map machine =
        (Runs.run (step virtuals) s events').map machine

/-! ## What a player sees of the keypad -/

/-- The keypad as far as the bits of `B`. -/
def visible (B : UInt32) (k : HexInput) : HexInput :=
  { k with
    keysThis := k.keysThis &&& B
    keysLast := 0
    keysHide := k.keysHide &&& B
    keysLoop := 0 }

/-- The core as far as the bits of `B`. -/
def seen (B : UInt32) (s : Chip8X) : Chip8X :=
  { s with input := BasicKeyboard.resetState, keypad := visible B s.keypad }

/-- Hiding keys does not touch the machine. -/
theorem machine_seen (B : UInt32) (s : Chip8X) : machine (seen B s) = machine s := rfl

/-- A test inside the mask. -/
theorem and_test {a b B m : UInt32} (hm : m &&& B = m) :
    (a &&& B) &&& ~~~(b &&& B) &&& m = a &&& ~~~b &&& m := by
  rw [← hm]
  refine UInt32.toBitVec_inj.1 ?_
  ext i hi
  simp only [UInt32.toBitVec_and, UInt32.toBitVec_not, BitVec.getElem_and, BitVec.getElem_not]
  cases a.toBitVec[i] <;> cases b.toBitVec[i] <;> cases B.toBitVec[i] <;>
    cases m.toBitVec[i] <;> rfl

/-- Hiding inside the mask. -/
theorem and_hide (a b c B : UInt32) :
    (a &&& ~~~(b ^^^ c)) &&& B = ((a &&& B) &&& ~~~((b &&& B) ^^^ (c &&& B))) &&& B := by
  refine UInt32.toBitVec_inj.1 ?_
  ext i hi
  simp only [UInt32.toBitVec_and, UInt32.toBitVec_not, UInt32.toBitVec_xor, BitVec.getElem_and,
    BitVec.getElem_not, BitVec.getElem_xor]
  cases a.toBitVec[i] <;> cases b.toBitVec[i] <;> cases B.toBitVec[i] <;>
    cases c.toBitVec[i] <;> rfl

/-- The low half of a register is one of sixteen values. -/
theorem forall_low {P : UInt8 → Prop} (h : ∀ k : Fin 16, P (UInt8.ofNat k.val)) (v : UInt8) :
    P (v &&& 0xF) := by
  have hlt : (v &&& 0xF).toNat < 16 := by
    rw [UInt8.toNat_and]
    exact Nat.lt_of_le_of_lt Nat.and_le_right (by decide)
  have hv : UInt8.ofNat (v &&& 0xF).toNat = v &&& 0xF := UInt8.ofNat_toNat
  rw [← hv]
  exact h ⟨_, hlt⟩

/-- The first player reads the low sixteen bits. -/
theorem isKeyHeldP1_visible (k : HexInput) (v : UInt8) :
    (visible 0xFFFF k).isKeyHeldP1 v = k.isKeyHeldP1 v := by
  have hmask : ((0x01 : UInt32) <<< (v &&& 0xF).toUInt32) &&& 0xFFFF =
      (0x01 : UInt32) <<< (v &&& 0xF).toUInt32 :=
    forall_low (P := fun v => ((0x01 : UInt32) <<< v.toUInt32) &&& 0xFFFF =
      (0x01 : UInt32) <<< v.toUInt32) (by decide) v
  exact congrArg (· != 0) (and_test hmask)

/-- The second player reads the sixteen from bit 4 on. -/
theorem isKeyHeldP2_visible (k : HexInput) (v : UInt8) :
    (visible 0xFFFF0 k).isKeyHeldP2 v = k.isKeyHeldP2 v := by
  have hmask : ((0x10 : UInt32) <<< (v &&& 0xF).toUInt32) &&& 0xFFFF0 =
      (0x10 : UInt32) <<< (v &&& 0xF).toUInt32 :=
    forall_low (P := fun v => ((0x10 : UInt32) <<< v.toUInt32) &&& 0xFFFF0 =
      (0x10 : UInt32) <<< v.toUInt32) (by decide) v
  exact congrArg (· != 0) (and_test hmask)

/-- A key that is not held alike has no bit in `B`. -/
theorem heldKeys_and {B : UInt32} {binds : List SimpleKeyMapping} {i j : BasicKeyboard}
    (h : ∀ mapping ∈ binds, (i.isHeld mapping.key = j.isHeld mapping.key ∧
      i.isHeld mapping.alt = j.isHeld mapping.alt) ∨ ((1 : UInt32) <<< mapping.idx) &&& B = 0) :
    HexInput.heldKeys i binds &&& B = HexInput.heldKeys j binds &&& B := by
  unfold HexInput.heldKeys
  suffices hgen : ∀ a b : UInt32, a &&& B = b &&& B →
      binds.foldl (fun keys mapping => if i.isHeld mapping.key || i.isHeld mapping.alt
        then keys ||| ((1 : UInt32) <<< mapping.idx) else keys) a &&& B =
      binds.foldl (fun keys mapping => if j.isHeld mapping.key || j.isHeld mapping.alt
        then keys ||| ((1 : UInt32) <<< mapping.idx) else keys) b &&& B from hgen 0 0 rfl
  induction binds with
  | nil => exact fun _ _ hab => hab
  | cons mapping binds ih =>
      intro a b hab
      obtain ⟨hfirst, hrest⟩ := List.forall_mem_cons.1 h
      refine ih hrest _ _ ?_
      have hor (held : Bool) (x : UInt32) :
          (if held then x ||| ((1 : UInt32) <<< mapping.idx) else x) &&& B =
            if held then (x &&& B) ||| (((1 : UInt32) <<< mapping.idx) &&& B) else x &&& B := by
        cases held with
        | false => rfl
        | true => exact UInt32.toBitVec_inj.1 BitVec.and_or_distrib_right
      rw [hor, hor, hab]
      rcases hfirst with ⟨hkey, halt⟩ | hzero
      · rw [hkey, halt]
      · rw [hzero, UInt32.or_zero, ite_self, ite_self]

/-- An update of the keypad, as far as the bits of `B`. -/
theorem visible_update {B : UInt32} {k l : HexInput} {i j : BasicKeyboard}
    {binds : List SimpleKeyMapping} (hkl : visible B k = visible B l)
    (hij : HexInput.heldKeys i binds &&& B = HexInput.heldKeys j binds &&& B) :
    visible B (k.update i binds) = visible B (l.update j binds) := by
  unfold visible at hkl
  obtain ⟨hlast, hspan, hthis, -, hhide, -, hreg⟩ := HexInput.mk.inj hkl
  unfold visible HexInput.update
  dsimp only
  rw [and_hide, and_hide l.keysHide, hthis, hhide, hij, hlast, hspan, hreg]

/-! ## Instructions -/

/-- A skip decided alike. -/
theorem onCpu_skipIf_seen {B : UInt32} {cond cond' : Bool} (h : cond = cond') (s : Chip8X) :
    (seen B s).onCpu (.skipIf cond 2) = seen B (s.onCpu (.skipIf cond' 2)) := by
  rw [h]
  rfl

/-- A processor as far as the bits of `B`. -/
def seenCpu (B : UInt32) (c : Cpu) : Cpu := { c with keypad := visible B c.keypad }

/-- `Fx65` does not read keys. -/
theorem loadRegisters_seen (B : UInt32) (N : Fin 16) (m : MirroredMemory 12) (c : Cpu) :
    (seenCpu B c).loadRegisters N m = seenCpu B (c.loadRegisters N m) :=
  List.foldl_hom (seenCpu B) fun _ _ => rfl

/-- Nor does its step of I. -/
theorem instructionFN65_seen (B : UInt32) (offset : UInt32) (N : Fin 16) (s : Chip8X) :
    (seen B s).instructionFN65 offset N = seen B (s.instructionFN65 offset N) := by
  have heq : (seen B s).instructionFN65 offset N = { seen B s with
      toCpu := ((seenCpu B s.toCpu).loadRegisters N s.memory).advanceI offset } := rfl
  rw [heq, loadRegisters_seen]
  rfl

/-- Nor do the rows of a sprite. -/
theorem drawRows_seen (B : UInt32) (s : Chip8X) (pX n H pY : Nat) (c : Canvas) :
    drawRows (seen B s) pX n H pY c = drawRows s pX n H pY c := by
  induction n generalizing H pY c with
  | zero => rfl
  | succ n ih =>
      rw [drawRows, drawRows]
      simp only [ih]
      rfl

/-- Nor does `DxyN`. -/
theorem instructionDxyN_seen (B : UInt32) (X Y N : Fin 16) (s : Chip8X) :
    instructionDxyN (seen B s) X Y N = seen B (instructionDxyN s X Y N) := by
  have hsprite (pX pY : Nat) (c : Canvas) :
      drawSprite (seen B s) N pX pY c = drawSprite s N pX pY c := by
    unfold drawSprite
    split
    · rfl
    · rfl
    · exact drawRows_seen ..
  unfold instructionDxyN
  dsimp only
  rw [hsprite]
  rfl

/-- Nor does `BxyN`. -/
theorem instructionBxyN_seen (B : UInt32) (X Y N : Fin 16) (s : Chip8X) :
    instructionBxyN X Y N (seen B s) = seen B (instructionBxyN X Y N s) := by
  unfold instructionBxyN
  dsimp only
  split <;> rfl

/-- A shared instruction reads the keys of its own player. -/
theorem executeCommon_seen {p : Player} {i : Common} (h : p.foreign (.common i) = false)
    (s : Chip8X) :
    (seen p.mask s).executeCommon config i = seen p.mask (s.executeCommon config i) := by
  cases i with
  | iFx0A X => cases p <;> exact nomatch h
  | iEx9E X =>
      cases p with
      | first => exact onCpu_skipIf_seen (isKeyHeldP1_visible _ (s.registersV X)) s
      | second => exact nomatch h
  | iExA1 X =>
      cases p with
      | first => exact onCpu_skipIf_seen (congrArg not (isKeyHeldP1_visible _ (s.registersV X))) s
      | second => exact nomatch h
  | iFN65 N => exact instructionFN65_seen ..
  | _ => rfl

/-- **What a player's instruction does depends on what the player sees.** -/
theorem execute_seen {p : Player} {i : Instruction} (h : p.foreign i = false) (s : Chip8X) :
    execute i (seen p.mask s) = (execute i s).map (seen p.mask) := by
  cases i with
  | common i => exact congrArg some (executeCommon_seen h s)
  | iExF2 X =>
      cases p with
      | first => exact nomatch h
      | second =>
          have hskip : (seen 0xFFFF0 s).onCpu (instructionExF2 X) =
              seen 0xFFFF0 (s.onCpu (instructionExF2 X)) :=
            onCpu_skipIf_seen (isKeyHeldP2_visible s.keypad (s.registersV X)) s
          exact congrArg some hskip
  | iExF5 X =>
      cases p with
      | first => exact nomatch h
      | second =>
          have hskip : (seen 0xFFFF0 s).onCpu (instructionExF5 X) =
              seen 0xFFFF0 (s.onCpu (instructionExF5 X)) :=
            onCpu_skipIf_seen (congrArg not (isKeyHeldP2_visible s.keypad (s.registersV X))) s
          exact congrArg some hskip
  | iBxyN X Y N => exact congrArg some (instructionBxyN_seen p.mask X Y N s)
  | iDxyN X Y N => exact congrArg some (instructionDxyN_seen p.mask X Y N s)
  | _ => rfl

/-- A jump never waits for a key. -/
theorem interrupt_jumpProgramTo (next : UInt32) {c : Cpu} (hc : c.interrupt ≠ .input) :
    (c.jumpProgramTo next).interrupt ≠ .input := by
  unfold Cpu.jumpProgramTo
  dsimp only
  split
  · exact nofun
  · exact hc

/-- No instruction but Fx0A makes a program wait for a key. -/
theorem interrupt_executeCommon {i : Common} {s : Chip8X}
    (hi : Player.waits (.common i) = false) (hs : s.interrupt ≠ .input) :
    (s.executeCommon config i).interrupt ≠ .input := by
  cases i with
  | iFx0A X => exact nomatch hi
  | i1NNN NNN | iBXNN X NNN => exact interrupt_jumpProgramTo _ hs
  | i2NNN NNN => exact interrupt_jumpProgramTo (c := { s with stack := _ }) NNN hs
  | iFN65 N =>
      exact List.foldlRecOn (motive := fun c : Cpu => c.interrupt ≠ .input) _ _ hs
        fun _ hc _ _ => hc
  | error => exact nofun
  | _ => exact hs

/-- Only `Fx0A` does. -/
theorem interrupt_execute {i : Instruction} {s s' : Chip8X} (hi : Player.waits i = false)
    (hs : s.interrupt ≠ .input) (h : execute i s = some s') : s'.interrupt ≠ .input := by
  cases i with
  | common i => cases h; exact interrupt_executeCommon hi hs
  | iBxyN X Y N =>
      cases h
      unfold instructionBxyN
      dsimp only
      split <;> exact hs
  | i00E0 | iDxyN | iFxFB => cases h; exact nofun
  | _ => cases h; exact hs

/-! ## The bindings -/

/-- No instruction binds keys. -/
theorem customBinds_execute {i : Instruction} {s s' : Chip8X} (h : execute i s = some s') :
    s'.customBinds = s.customBinds := by
  cases i with
  | common i => cases h; cases i <;> rfl
  | iBxyN X Y N =>
      cases h
      unfold instructionBxyN
      dsimp only
      split <;> rfl
  | _ => cases h; rfl

/-- Nor does the start of a frame. -/
theorem customBinds_prepareFrame (keys : Scancode → Bool) (s : IFamily) :
    (s.prepareFrame keys).customBinds = s.customBinds := by
  unfold IFamily.prepareFrame IFamily.handlePreWorkInterrupts
  split
  · rfl
  · split <;> rfl
  · split <;> rfl
  · rfl

/-- Nor does its end. -/
theorem customBinds_handlePostWorkInterrupts (s : IFamily) :
    s.handlePostWorkInterrupts.customBinds = s.customBinds := by
  unfold IFamily.handlePostWorkInterrupts
  split
  · dsimp only
    split <;> rfl
  all_goals rfl

/-- Nor does counting it. -/
theorem customBinds_countFrame (s : IFamily) : s.countFrame.customBinds = s.customBinds := by
  rw [IFamily.countFrame_eq]
  rfl

/-- Nor does the sound. -/
theorem customBinds_pushAudioData (input : FrameInput) (s : Chip8X) :
    (pushAudioData input s).customBinds = s.customBinds := by
  unfold pushAudioData
  split <;> rfl

/-- Nor does the picture. -/
theorem customBinds_pushVideoData (s : Chip8X) :
    (pushVideoData s).customBinds = s.customBinds := by
  unfold pushVideoData
  split <;> rfl

/-- So no frame does. -/
theorem customBinds_mainSystemLoop {input : FrameInput} {s s' : Chip8X}
    (h : mainSystemLoop virtuals input s = some s') : s'.customBinds = s.customBinds := by
  have hkept : LoopKept virtuals fun t : Chip8X => t.customBinds = s.customBinds :=
    { loopEntry := fun _ ht => ht
      iterate := fun t t' ht _ hstep => by
        obtain ⟨u, hu, rfl⟩ := Option.map_eq_some_iff.1 hstep
        have hrun : execute (current virtuals t) t.fetch.2 = some u := hu
        exact (customBinds_execute hrun).trans ht }
  unfold mainSystemLoop at h
  dsimp only at h
  split at h
  · cases h
    exact customBinds_pushAudioData input (s.onFamily .cacheQuirks)
  · obtain ⟨t, ht, rfl⟩ := Option.map_eq_some_iff.1 h
    have hloop : t.customBinds = s.customBinds :=
      hkept.executeCycleLoop (fun _ _ ht => ht) (customBinds_prepareFrame input.keys _) ht
    exact (customBinds_pushVideoData _).trans ((customBinds_pushAudioData input _).trans
      ((customBinds_handlePostWorkInterrupts t.toIFamily).trans hloop))

/-- Nor does an iteration of the worker. -/
theorem customBinds_workerFrame {input : FrameInput} {s s' : Chip8X}
    (h : workerFrame virtuals input s = some s') : s'.customBinds = s.customBinds := by
  unfold workerFrame at h
  dsimp only at h
  split at h
  · cases h
    rfl
  · obtain ⟨t, ht, rfl⟩ := Option.map_eq_some_iff.1 h
    have hloop : t.customBinds = s.customBinds :=
      customBinds_mainSystemLoop (s := s.onFamily .cacheSystemState) ht
    exact (customBinds_countFrame t.toIFamily).trans hloop

/-- Nothing changes the bindings. -/
theorem customBinds_step {s s' : Chip8X} {e : Event} (h : step virtuals s e = some s') :
    s'.customBinds = s.customBinds := by
  cases e with
  | reset =>
      cases h
      unfold workerReset
      split <;> rfl
  | host host => cases h; rfl
  | gui op =>
      cases h
      cases op with
      | tryPauseSystem | toggleQuirk =>
          unfold guiStep
          dsimp only
          split <;> rfl
      | _ => rfl
  | frame input => exact customBinds_workerFrame h

/-- The bindings are the default ones in every state. -/
theorem customBinds_reachable {launch : Launch} {s : Chip8X}
    (hs : Reachable virtuals (boot launch) s) : s.customBinds = defaultKeyMappings := by
  obtain ⟨events, hrun⟩ := hs
  exact Runs.run_invariant (I := fun s : Chip8X => s.customBinds = defaultKeyMappings)
    (fun s e s' hs hstep => (customBinds_step hstep).trans hs) rfl hrun

/-! ## Two runs -/

/-- Two states a player's program does not tell apart, and in which it does not wait. -/
structure Alike (p : Player) (s t : Chip8X) : Prop where
  seen : seen p.mask s = seen p.mask t
  waiting : s.interrupt ≠ .input
  binds : s.customBinds = defaultKeyMappings

/-- `seen`, of the base classes. -/
def seenFamily (B : UInt32) (s : IFamily) : IFamily :=
  { s with input := BasicKeyboard.resetState, keypad := visible B s.keypad }

/-- What commutes with seeing keeps two states alike. -/
theorem Alike.map {p : Player} {s t : Chip8X} (h : Alike p s t) {f : Chip8X → Chip8X}
    (hs : f (Chip8X.seen p.mask s) = Chip8X.seen p.mask (f s))
    (ht : f (Chip8X.seen p.mask t) = Chip8X.seen p.mask (f t))
    (hwait : (f s).interrupt ≠ .input) (hbinds : (f s).customBinds = s.customBinds) :
    Alike p (f s) (f t) where
  seen := hs.symm.trans ((congrArg f h.seen).trans ht)
  waiting := hwait
  binds := hbinds.trans h.binds

/-- A change of the base that looks alike to the player. -/
theorem Alike.onFamily {p : Player} {s t : Chip8X} (h : Alike p s t) {f g : IFamily → IFamily}
    (hfg : seenFamily p.mask (f s.toIFamily) = seenFamily p.mask (g t.toIFamily))
    (hwait : (f s.toIFamily).interrupt ≠ .input)
    (hbinds : (f s.toIFamily).customBinds = s.customBinds) :
    Alike p (s.onFamily f) (t.onFamily g) where
  seen := by
    have hmem : s.memory = t.memory := congrArg (·.memory) h.seen
    have hown : s.own = t.own := congrArg (·.own) h.seen
    have heq (s : Chip8X) (f : IFamily → IFamily) : Chip8X.seen p.mask (s.onFamily f) =
        ⟨seenFamily p.mask (f s.toIFamily), s.memory, s.own⟩ := rfl
    rw [heq, heq, hfg, hmem, hown]
  waiting := hwait
  binds := hbinds.trans h.binds

/-- A frame begins alike. -/
theorem handlePreWorkInterrupts_seenFamily (B : UInt32) (s : IFamily) :
    (seenFamily B s).handlePreWorkInterrupts = seenFamily B s.handlePreWorkInterrupts :=
  IFamily.handlePreWorkInterrupts_comm (seenFamily B) (fun _ => ⟨rfl, rfl, rfl⟩) (fun _ => rfl)
    (fun _ => rfl) s

/-- Nothing before the cycle loop makes a program wait for a key. -/
theorem interrupt_prepareFrame {s : IFamily} (hs : s.interrupt ≠ .input)
    (keys : Scancode → Bool) : (s.prepareFrame keys).interrupt ≠ .input := by
  unfold IFamily.prepareFrame IFamily.handlePreWorkInterrupts
  split
  · exact nofun
  · split
    · exact hs
    · exact nofun
  · split
    · exact hs
    · exact nofun
  · exact hs

/-- A key bound outside of a player's bits is not one the player sees. -/
theorem keys_or_mask (p : Player) : ∀ mapping ∈ defaultKeyMappings,
    mapping.idx ∈ p.keys ∨ ((1 : UInt32) <<< mapping.idx) &&& p.mask = 0 := by
  cases p with
  | first =>
      have hlt : ∀ mapping ∈ defaultKeyMappings, mapping.idx < 16 := by decide
      exact fun mapping hmem => .inl (hlt mapping hmem)
  | second =>
      have hcases : ∀ mapping ∈ defaultKeyMappings, (4 ≤ mapping.idx ∧ mapping.idx < 16) ∨
          ((1 : UInt32) <<< mapping.idx) &&& 0xFFFF0 = 0 := by decide
      exact hcases

/-- Of the keys polled, a player sees those bound to its bits. -/
theorem Alike.prepareFrame {p : Player} {s t : Chip8X} (h : Alike p s t)
    {keys keys' : Scancode → Bool} {S : Set UInt32} (hS : p.keys ⊆ S)
    (hkeys : SameKeys defaultKeyMappings S keys keys') :
    Alike p (s.onFamily (.prepareFrame keys)) (t.onFamily (.prepareFrame keys')) := by
  have hbinds : s.customBinds = t.customBinds := congrArg (·.customBinds) h.seen
  have hkeypad : visible p.mask s.keypad = visible p.mask t.keypad := congrArg (·.keypad) h.seen
  have hfamily : seenFamily p.mask s.toIFamily = seenFamily p.mask t.toIFamily :=
    congrArg (·.toIFamily) h.seen
  have hheld : HexInput.heldKeys (s.input.advanceState keys) s.customBinds &&& p.mask =
      HexInput.heldKeys (t.input.advanceState keys') s.customBinds &&& p.mask := by
    rw [h.binds]
    refine heldKeys_and fun mapping hmem => ?_
    rcases keys_or_mask p mapping hmem with hkey | hmask
    · exact .inl (hkeys mapping hmem (hS hkey))
    · exact .inr hmask
  have hupdate : seenFamily p.mask (s.toIFamily.updateKeypadData keys) =
      seenFamily p.mask (t.toIFamily.updateKeypadData keys') := by
    have heq (s : IFamily) (keys : Scancode → Bool) :
        seenFamily p.mask (s.updateKeypadData keys) = { seenFamily p.mask s with
          keypad := visible p.mask
            (s.keypad.update (s.input.advanceState keys) s.customBinds) } := rfl
    rw [heq, heq, hfamily, visible_update hkeypad hheld, hbinds]
  refine h.onFamily ?_ (interrupt_prepareFrame h.waiting keys) (customBinds_prepareFrame keys _)
  unfold IFamily.prepareFrame
  rw [← handlePreWorkInterrupts_seenFamily, ← handlePreWorkInterrupts_seenFamily]
  exact congrArg (fun s => s.handleTimerTicks.handlePreWorkInterrupts) hupdate

/-- And ends alike, unless a key is waited for. -/
theorem handlePostWorkInterrupts_seenFamily {B : UInt32} {s : IFamily}
    (hs : s.interrupt ≠ .input) :
    (seenFamily B s).handlePostWorkInterrupts = seenFamily B s.handlePostWorkInterrupts ∧
      s.handlePostWorkInterrupts.interrupt ≠ .input := by
  have hint : (seenFamily B s).interrupt = s.interrupt := rfl
  unfold IFamily.handlePostWorkInterrupts
  rw [hint]
  cases hcase : s.interrupt with
  | input => exact absurd hcase hs
  | wait1 => exact ⟨rfl, nofun⟩
  | _ => exact ⟨rfl, hs⟩

/-- What a frame does after the cycle loop no key has a part in. -/
theorem Alike.handlePostWorkInterrupts {p : Player} {s t : Chip8X} (h : Alike p s t) :
    Alike p (s.onFamily .handlePostWorkInterrupts) (t.onFamily .handlePostWorkInterrupts) := by
  have hwait : t.interrupt ≠ .input := by
    have hint : s.interrupt = t.interrupt := congrArg (·.interrupt) h.seen
    rw [← hint]
    exact h.waiting
  have hfamily : seenFamily p.mask s.toIFamily = seenFamily p.mask t.toIFamily :=
    congrArg (·.toIFamily) h.seen
  obtain ⟨hs, hsame⟩ := handlePostWorkInterrupts_seenFamily (B := p.mask) h.waiting
  obtain ⟨ht, -⟩ := handlePostWorkInterrupts_seenFamily (B := p.mask) hwait
  refine h.onFamily ?_ hsame (customBinds_handlePostWorkInterrupts _)
  rw [← hs, ← ht, hfamily]

/-- **An instruction of the player's.** -/
theorem Alike.cycle {p : Player} {s t : Chip8X} (h : Alike p s t)
    (hs : p.foreign (current virtuals s) = false) :
    Option.Rel (Alike p) (cycle virtuals s) (cycle virtuals t) := by
  have hfetch (s : Chip8X) : (Chip8X.seen p.mask s).fetch =
      (s.fetch.1, Chip8X.seen p.mask s.fetch.2) := rfl
  have hfetched : s.fetch.1 = t.fetch.1 ∧
      Chip8X.seen p.mask s.fetch.2 = Chip8X.seen p.mask t.fetch.2 := by
    have heq := congrArg fetch h.seen
    rw [hfetch, hfetch] at heq
    exact Prod.mk.inj heq
  have hcurrent : current virtuals s = current virtuals t := congrArg decode hfetched.1
  have hmap : (Core.cycle virtuals s).map (Chip8X.seen p.mask) =
      (Core.cycle virtuals t).map (Chip8X.seen p.mask) := by
    have hcycle (s : Chip8X) : Core.cycle virtuals s = execute (current virtuals s) s.fetch.2 := rfl
    rw [hcycle, hcycle, ← hcurrent, ← execute_seen hs, ← execute_seen hs, hfetched.2]
  cases hs' : Core.cycle virtuals s with
  | none =>
      rw [hs', Option.map_none, eq_comm, Option.map_eq_none_iff] at hmap
      rw [hmap]
      exact .none
  | some s' =>
      rw [hs', Option.map_some, eq_comm, Option.map_eq_some_iff] at hmap
      obtain ⟨t', ht', hseen⟩ := hmap
      rw [ht']
      have hwaits : Player.waits (current virtuals s) = false := (Bool.or_eq_false_iff.1 hs).2
      have hrun : execute (current virtuals s) s.fetch.2 = some s' := hs'
      exact .some ⟨hseen.symm, interrupt_execute (s := s.fetch.2) hwaits h.waiting hrun,
        (customBinds_execute hrun).trans h.binds⟩

/-- The sound. -/
theorem Alike.pushAudioData {p : Player} {s t : Chip8X} (h : Alike p s t) (i j : FrameInput) :
    Alike p (pushAudioData i s) (pushAudioData j t) := by
  have hseen (s : Chip8X) : Chip8X.pushAudioData i (Chip8X.seen p.mask s) =
      Chip8X.seen p.mask (Chip8X.pushAudioData i s) := by
    have hcached : (Chip8X.seen p.mask s).cachedSystemState = s.cachedSystemState := rfl
    unfold Chip8X.pushAudioData
    rw [hcached]
    split <;> rfl
  refine h.map (hseen s) (hseen t) ?_ (customBinds_pushAudioData i s)
  unfold Chip8X.pushAudioData
  split <;> exact h.waiting

/-- The picture. -/
theorem Alike.pushVideoData {p : Player} {s t : Chip8X} (h : Alike p s t) :
    Alike p (pushVideoData s) (pushVideoData t) := by
  have hseen (s : Chip8X) : Chip8X.pushVideoData (Chip8X.seen p.mask s) =
      Chip8X.seen p.mask (Chip8X.pushVideoData s) := by
    have htrait : (Chip8X.seen p.mask s).trait = s.trait := rfl
    unfold Chip8X.pushVideoData
    rw [htrait]
    split <;> rfl
  refine h.map (hseen s) (hseen t) ?_ (customBinds_pushVideoData s)
  unfold Chip8X.pushVideoData
  split <;> exact h.waiting

/-- A reset takes the keypad and the key states away. -/
theorem Alike.performInstanceReset {p : Player} {s t : Chip8X} (h : Alike p s t) :
    Alike p (performInstanceReset virtuals s) (performInstanceReset virtuals t) := by
  have hseen (s : Chip8X) : Core.performInstanceReset virtuals (Chip8X.seen p.mask s) =
      Core.performInstanceReset virtuals s := rfl
  refine ⟨?_, nofun, h.binds⟩
  rw [← hseen s, h.seen, hseen]

/-- **Two runs that keep to a player's instructions** stay alike under keys that agree where the
player's are bound. -/
theorem paired_alike {p : Player} {S : Set UInt32} (hS : p.keys ⊆ S) :
    Paired virtuals virtuals (Alike p) (fun s => p.foreign (current virtuals s) = false)
      (SameInput defaultKeyMappings S) where
  availQuirks := rfl
  slices := fun _ _ h => h.slices
  books := fun _ _ h => ⟨congrArg (·.books) h.seen, congrArg (·.interrupt) h.seen⟩
  withBooks := fun b _ _ h =>
    h.map (f := fun s => s.onFamily (.withBooks b)) rfl rfl h.waiting rfl
  enterLoop := fun _ _ h => ⟨h, congrArg (·.targetCpf) h.seen⟩
  cycle := fun _ _ h hs _ => h.cycle hs
  prepareFrame := fun _ _ _ _ hQ h => h.prepareFrame hS hQ.keys
  handlePostWorkInterrupts := fun _ _ h => h.handlePostWorkInterrupts
  pushAudioData := fun i j _ _ _ h => h.pushAudioData i j
  pushVideoData := fun _ _ h => h.pushVideoData
  performInstanceReset := fun _ _ h => h.performInstanceReset
  editMemory := fun address value _ _ h =>
    h.map (f := fun s => { s with memory := s.memory.set address value }) rfl rfl h.waiting rfl

/-- The keys of a player's bits are enough. -/
theorem separated_of_subset {p : Player} {S : Set UInt32} (hS : p.keys ⊆ S) : Separated p S := by
  intro launch s hs hwait events events' hevents hkeeps _
  have hbinds := customBinds_reachable hs
  rw [hbinds] at hevents
  obtain ⟨hrun, -⟩ := (paired_alike hS).run hevents ⟨rfl, hwait, hbinds⟩ hkeeps
  refine hrun.map_eq fun s' t' h => ?_
  rw [← machine_seen p.mask s', h.seen, machine_seen]

/-! ## The keys a player depends on -/

/-- The key bound to an index. -/
def scancodeOf (idx : UInt32) : Scancode :=
  ((defaultKeyMappings.find? (·.idx = idx)).map (·.key)).getD 0

/-- A frame with one key held. -/
def holding (idx : UInt32) : Event := .frame ⟨fun key => key = scancodeOf idx, 0, false⟩

/-- Loads the key index at 0x30A, tests that key of the player, and stops at 0x308 if it is held
and at 0x306 if it is not. The tests of the second player start at bit 4. -/
def probe (p : Player) (idx : Fin 16) : Launch := .ofProgram <|
  match p with
  | .first => [0xA3, 0x0A, 0xF0, 0x65, 0xE0, 0x9E, 0x13, 0x06, 0x13, 0x08, UInt8.ofNat idx.val]
  | .second => [0xA3, 0x0A, 0xF0, 0x65, 0xE0, 0xF2, 0x13, 0x06, 0x13, 0x08,
      UInt8.ofNat (idx.val - 4)]

/-- Where the probe stops after the events. -/
def stop (p : Player) (idx : Fin 16) (events : List Event) : Option UInt32 :=
  (Runs.run (step virtuals) (boot (probe p idx)) events).map (·.currentPc)

/-- A probe of the first player sees each of its keys. -/
theorem stop_first : ∀ idx : Fin 16,
    stop .first idx [holding (UInt32.ofNat idx.val)] = some 0x308 ∧
      stop .first idx [.idle] = some 0x306 := by
  decide +kernel

/-- A probe of the second player sees each of its keys from 4 on. -/
theorem stop_second : ∀ idx : Fin 16, 4 ≤ idx.val →
    stop .second idx [holding (UInt32.ofNat idx.val)] = some 0x308 ∧
      stop .second idx [.idle] = some 0x306 := by
  decide +kernel

/-- A probe reads the keys of its own player alone. -/
theorem keepsTo_probe : ∀ (p : Player) (idx : Fin 16),
    (instructionStarts virtuals (boot (probe p idx)) [holding (UInt32.ofNat idx.val)]).all
        (fun u => !p.foreign (current virtuals u)) = true ∧
      (instructionStarts virtuals (boot (probe p idx)) [.idle]).all
        (fun u => !p.foreign (current virtuals u)) = true := by
  intro p
  cases p <;> decide +kernel

/-- A key is bound once. -/
theorem scancodeOf_inj : ∀ idx : Fin 16, ∀ mapping ∈ defaultKeyMappings,
    (mapping.key = scancodeOf (UInt32.ofNat idx.val) → mapping.idx = UInt32.ofNat idx.val) ∧
      mapping.alt ≠ scancodeOf (UInt32.ofNat idx.val) := by
  decide +kernel

/-- A key of a player's bits changes where the probe for it stops. -/
theorem stop_ne {p : Player} {idx : Fin 16} (h : UInt32.ofNat idx.val ∈ p.keys) :
    stop p idx [holding (UInt32.ofNat idx.val)] ≠ stop p idx [.idle] := by
  cases p with
  | first =>
      rw [(stop_first idx).1, (stop_first idx).2]
      decide
  | second =>
      have hle : 4 ≤ idx.val := by
        have hle : (4 : UInt32) ≤ UInt32.ofNat idx.val := h.1
        have hlt : idx.val < 2 ^ 32 := Nat.lt_trans idx.isLt (by decide)
        rwa [UInt32.le_iff_toNat_le, UInt32.toNat_ofNat_of_lt' hlt] at hle
      rw [(stop_second idx hle).1, (stop_second idx hle).2]
      decide

/-- The keys of a player's bits are needed: the probe for one that is left out tells two runs
apart. -/
theorem subset_of_separated {p : Player} {S : Set UInt32} (h : Separated p S) : p.keys ⊆ S := by
  intro idx hidx
  have hlt : idx.toNat < 16 := by
    have hlt : idx < 16 := by cases p with
      | first => exact hidx
      | second => exact hidx.2
    exact UInt32.lt_iff_toNat_lt.1 hlt
  obtain ⟨i, rfl⟩ : ∃ i : Fin 16, UInt32.ofNat i.val = idx := ⟨⟨idx.toNat, hlt⟩, UInt32.ofNat_toNat⟩
  by_contra hS
  have hkeys : SameKeys defaultKeyMappings S (fun key => key = scancodeOf (UInt32.ofNat i.val))
      fun _ => false := by
    intro mapping hmem hmapping
    obtain ⟨hkey, halt⟩ := scancodeOf_inj i mapping hmem
    have hkey : mapping.key ≠ scancodeOf (UInt32.ofNat i.val) := fun heq => hS (hkey heq ▸ hmapping)
    exact ⟨decide_eq_false hkey, decide_eq_false halt⟩
  have hkeeps (events : List Event)
      (hall : (instructionStarts virtuals (boot (probe p i)) events).all
        (fun u => !p.foreign (current virtuals u)) = true) :
      KeepsTo p (boot (probe p i)) events :=
    fun u hu => by simpa using List.all_eq_true.1 hall u hu
  have hsame := h (probe p i) (boot (probe p i)) ⟨[], rfl⟩ (by exact nofun)
    [holding (UInt32.ofNat i.val)] [.idle] (.cons (.frame ⟨hkeys, rfl, rfl⟩) .nil)
    (hkeeps _ (keepsTo_probe p i).1) (hkeeps _ (keepsTo_probe p i).2)
  have hstop := congrArg (Option.map fun s : Chip8X => s.currentPc) hsame
  rw [Option.map_map, Option.map_map] at hstop
  exact stop_ne hidx hstop

/-- **Which keys a player depends on.** A set of key indices separates a player from all other keys
precisely when it holds the player's, and the two players' keys meet: no two disjoint sets
separate both players. -/
theorem separated_iff (S₁ S₂ : Set UInt32) :
    (Separated .first S₁ ↔ ∀ idx < 16, idx ∈ S₁) ∧
      (Separated .second S₂ ↔ ∀ idx, 4 ≤ idx → idx < 16 → idx ∈ S₂) ∧
      ¬ (Disjoint S₁ S₂ ∧ Separated .first S₁ ∧ Separated .second S₂) := by
  refine ⟨⟨fun h => subset_of_separated h, fun h => separated_of_subset h⟩,
    ⟨fun h idx hge hlt => subset_of_separated h ⟨hge, hlt⟩,
      fun h => separated_of_subset fun idx hidx => h idx hidx.1 hidx.2⟩, ?_⟩
  rintro ⟨hdisjoint, hfirst, hsecond⟩
  have h₁ : (4 : UInt32) ∈ S₁ := subset_of_separated hfirst (show (4 : UInt32) < 16 by decide)
  have h₂ : (4 : UInt32) ∈ S₂ := subset_of_separated hsecond ⟨by decide, by decide⟩
  exact Set.disjoint_left.1 hdisjoint h₁ h₂

/-- The key 4 moves the probes of both players, so that no two disjoint sets separate them. -/
theorem not_separated :
    (stop .first 4 [holding 4] = some 0x308 ∧ stop .first 4 [.idle] = some 0x306) ∧
    (stop .second 4 [holding 4] = some 0x308 ∧ stop .second 4 [.idle] = some 0x306) ∧
    ¬ ∃ S₁ S₂ : Set UInt32, (∀ idx ∈ S₁, idx < 32) ∧ (∀ idx ∈ S₂, idx < 32) ∧
      Disjoint S₁ S₂ ∧ Separated .first S₁ ∧ Separated .second S₂ := by
  refine ⟨stop_first 4, stop_second 4 (by decide), ?_⟩
  rintro ⟨S₁, S₂, -, -, hdisjoint, hfirst, hsecond⟩
  have h₁ : (4 : UInt32) ∈ S₁ := subset_of_separated hfirst (show (4 : UInt32) < 16 by decide)
  have h₂ : (4 : UInt32) ∈ S₂ := subset_of_separated hsecond ⟨by decide, by decide⟩
  exact Set.disjoint_left.1 hdisjoint h₁ h₂

end CubeChip.Chip8X
