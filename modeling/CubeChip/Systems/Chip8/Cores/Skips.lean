import CubeChip.Systems.Chip8.Cores.Xochip.Transfers
import CubeChip.Systems.Chip8.Cores.Megachip
import CubeChip.Systems.Chip8.Cores.Decoder.Switch

/-!
# Skips over whole instructions

`XOCHIP` and `MEGACHIP` have one instruction each that is followed by a word of its own, and
`skip_instruction` decides by itself, from the bytes at PC, whether it meets that one. What an
instruction takes up is what the decoder makes of it: its two bytes, and a word if its handler
steps over one (`operandBytes`). It is the number of bytes that are executed (`StepsBy`). In
`XOCHIP` skip and decoder always agree. In `MEGACHIP` the decoder knows `01NN` in mega mode only,
and the skip does not ask for the mode.
-/

namespace CubeChip

open CubeChip.Core

/-! ## Words

The two bytes of an instruction, as a number.
-/

/-- The word of an instruction. -/
theorem Opcode.toNat_word (op : Opcode) : op.word.toNat = op.HI.toNat * 256 + op.LO.toNat := by
  have hHI := op.HI.toNat_lt
  have hLO := op.LO.toNat_lt
  have hshift : (op.HI.toUInt32 <<< 8).toNat = op.HI.toNat <<< 8 := by
    rw [UInt32.toNat_shiftLeft, UInt8.toNat_toUInt32, show (8 : UInt32).toNat % 32 = 8 from rfl]
    exact Nat.mod_eq_of_lt (by rw [Nat.shiftLeft_eq]; omega)
  rw [word, UInt32.toNat_or, hshift, UInt8.toNat_toUInt32,
    ← Nat.shiftLeft_add_eq_or_of_lt hLO, Nat.shiftLeft_eq]

theorem Opcode.toNat_NNN (op : Opcode) : op.NNN.toNat = op.X.val * 256 + op.LO.toNat := by
  have hHI := op.HI_toNat
  have hX := op.X.isLt
  have hLO := op.LO.toNat_lt
  have hmask : op.word.toNat &&& 4095 = op.word.toNat % 4096 :=
    Nat.and_two_pow_sub_one_eq_mod _ 12
  rw [NNN, UInt32.toNat_and, show (0xFFF : UInt32).toNat = 4095 from rfl, hmask, op.toNat_word]
  omega

/-! ## Shared instructions -/

namespace Common

/-- The instruction is a skip that is taken. -/
def Skips (c : Cpu) : Common → Prop
  | .i3xNN X NN => c.registersV X = NN
  | .i4xNN X NN => c.registersV X ≠ NN
  | .i5xy0 X Y => c.registersV X = c.registersV Y
  | .i9xy0 X Y => c.registersV X ≠ c.registersV Y
  | .iEx9E X => c.keypad.isKeyHeldP1 (c.registersV X) = true
  | .iExA1 X => c.keypad.isKeyHeldP1 (c.registersV X) = false
  | _ => False

/-- The instruction goes elsewhere than to the next one. -/
def Moves : Common → Prop
  | .i00EE | .i1NNN _ | .i2NNN _ | .iBXNN _ _ => True
  | .i3xNN _ _ | .i4xNN _ _ | .i5xy0 _ _ | .i9xy0 _ _ | .iEx9E _ | .iExA1 _ => True
  | _ => False

end Common

namespace Core

variable {bits : Nat} {Own : Type} (cfg : Common.Config) {i : Common} (s : Core bits Own)

theorem currentPc_skipIf {cond : Bool} (width : UInt32) (c : Cpu) (h : cond = true) :
    (c.skipIf cond width).currentPc = c.currentPc + width := if_pos h

/-- **A skip that is taken** moves PC by the width of the core. -/
theorem currentPc_executeCommon_of_skips (h : i.Skips s.toCpu) :
    (s.executeCommon cfg i).currentPc = s.currentPc + cfg.skipWidth := by
  cases i with
  | i3xNN X NN => exact currentPc_skipIf _ _ (decide_eq_true h)
  | i4xNN X NN => exact currentPc_skipIf _ _ (decide_eq_true h)
  | i5xy0 X Y => exact currentPc_skipIf _ _ (decide_eq_true h)
  | i9xy0 X Y => exact currentPc_skipIf _ _ (decide_eq_true h)
  | iEx9E X => exact currentPc_skipIf _ _ h
  | iExA1 X => exact currentPc_skipIf _ _ (congrArg not h)
  | _ => exact h.elim

/-- A register is loaded without a look at PC. -/
theorem currentPc_loadRegisters (N : Fin 16) (m : MirroredMemory bits) (c : Cpu) :
    (c.loadRegisters N m).currentPc = c.currentPc := by
  refine Loops.foldl_range_invariant (I := fun _ (c' : Cpu) => c'.currentPc = c.currentPc)
    (fun k _ c' h => ?_) rfl
  exact h

/-- What does not go elsewhere leaves PC at the next instruction. -/
theorem currentPc_executeCommon_of_not_moves (h : ¬i.Moves) :
    (s.executeCommon cfg i).currentPc = s.currentPc := by
  cases i with
  | i00EE | i1NNN | i2NNN | iBXNN => exact absurd trivial h
  | i3xNN | i4xNN | i5xy0 | i9xy0 | iEx9E | iExA1 => exact absurd trivial h
  | i8xy0 X Y | i8xy1 X Y | i8xy2 X Y | i8xy3 X Y =>
    simp only [executeCommon, onCpu, Cpu.instruction8xy0, Cpu.instruction8xy1,
      Cpu.instruction8xy2, Cpu.instruction8xy3, Cpu.resetVf]
    split <;> rfl
  | i8xy6 X Y | i8xyE X Y =>
    simp only [executeCommon, onCpu, Cpu.instruction8xy6, Cpu.instruction8xyE, Cpu.setV,
      Cpu.loadShifted]
    split <;> rfl
  | iFN65 N => exact currentPc_loadRegisters N s.memory s.toCpu
  | _ => rfl

/-- An instruction that does not go elsewhere leaves PC behind the bytes counted for it. -/
def StepsBy {Instruction : Type} (V : Virtuals bits Own Instruction) (moves : Instruction → Prop)
    (length : Core bits Own → UInt32) : Prop :=
  ∀ s s', ¬moves (current V s) → cycle V s = some s' → s'.currentPc = s.currentPc + length s

end Core

/-! ## `XOCHIP` -/

namespace Xochip

/-- The bytes a handler takes behind its instruction. -/
def operandBytes : Instruction → UInt32
  | .iF000 => 2
  | _ => 0

/-- The bytes the decoder makes of the instruction at PC. -/
def instructionLength (s : Xochip) : UInt32 := 2 + operandBytes (current virtuals s)

/-- The instruction goes elsewhere than to the next one. -/
def Instruction.Moves : Instruction → Prop
  | .common i => i.Moves
  | _ => False

/-- A handler steps over its operand and nothing else. -/
theorem currentPc_execute {i : Instruction} {s s' : Xochip} (hi : ¬i.Moves)
    (h : execute i s = some s') : s'.currentPc = s.currentPc + operandBytes i := by
  cases i with
  | common i =>
    cases h
    exact (currentPc_executeCommon_of_not_moves (config s) s hi).trans (UInt32.add_zero _).symm
  | iF000 => cases h; rfl
  | i00CN N | i00DN N =>
    cases h
    simp only [instruction00CN, instruction00DN, awaitFrame, operandBytes, UInt32.add_zero]
    split <;> rfl
  | i5xy3 X Y =>
    cases h
    rw [instruction5xy3_eq]
    exact (UInt32.add_zero _).symm
  | iFN85 N =>
    obtain ⟨r, -, rfl⟩ := Option.map_eq_some_iff.1 h
    exact (UInt32.add_zero _).symm
  | _ =>
    cases h
    exact (UInt32.add_zero _).symm

/-- The bytes counted are those a cycle steps over. -/
theorem stepsBy : StepsBy virtuals Instruction.Moves instructionLength := fun s s' hi h => by
  rw [currentPc_execute hi h, instructionLength, ← UInt32.add_assoc]
  exact congrArg (· + _) (UInt32.add_assoc s.currentPc 1 1)

/-- Only `F000` has an operand. -/
theorem operandBytes_decode (op : Opcode) :
    operandBytes (decode op) = if op.HI = 0xF0 ∧ op.LO = 0x00 then 2 else 0 := by
  have hbranch : op.HI = 0xF0 → op.branch.val = 0xF := fun h => by
    have hHI := op.HI_toNat
    have hX := op.X.isLt
    rw [h] at hHI
    change 240 = _ at hHI
    omega
  by_cases hF : op.branch.val = 0xF
  · have hdecode : decode op = decodeF op := by simp only [decode, hF]
    rw [hdecode, decodeF]
    split
    · rfl
    · split
      · rfl
      · unfold decodeFx
        split <;> rfl
  · rw [if_neg fun h => hF (hbranch h.1)]
    unfold decode
    split
    · split
      · unfold decode0
        split
        all_goals first | rfl | (split <;> [rfl; (split <;> rfl)])
      · rfl
    · unfold decode5
      split <;> rfl
    · rfl
    · rfl
    · rfl
    · next h => exact absurd h hF
    · rfl

/-- The word at PC, from its bytes. -/
theorem NNNN_eq_iff (s : Xochip) :
    s.NNNN = 0xF000 ↔
      s.memory.get s.currentPc = 0xF0 ∧ s.memory.get (s.currentPc + 1) = 0x00 := by
  unfold NNNN
  generalize s.memory.get s.currentPc = HI
  generalize s.memory.get (s.currentPc + 1) = LO
  have hHI := HI.toNat_lt
  have hLO := LO.toNat_lt
  have hword : (HI.toUInt32 <<< 8 ||| LO.toUInt32).toNat = HI.toNat * 256 + LO.toNat :=
    Opcode.toNat_word ⟨HI, LO⟩
  rw [← UInt32.toNat_inj, hword, ← UInt8.toNat_inj, ← UInt8.toNat_inj]
  change _ = 61440 ↔ _ = 240 ∧ _ = 0
  omega

/-- **What the skip sees** is what the decoder makes of it. -/
theorem skipWidth_eq_instructionLength (s : Xochip) :
    (config s).skipWidth = instructionLength s := by
  change (if s.NNNN = 0xF000 then (4 : UInt32) else 2) = 2 + operandBytes (decode s.fetch.1)
  rw [operandBytes_decode]
  change _ = 2 + if s.memory.get s.currentPc = 0xF0 ∧ s.memory.get (s.currentPc + 1) = 0x00
    then _ else _
  rw [if_congr (NNNN_eq_iff s) rfl rfl]
  split <;> rfl

end Xochip

/-! ## `MEGACHIP` -/

namespace Megachip

/-- The bytes a handler takes behind its instruction. -/
def operandBytes : Instruction → UInt32
  | .i01NN _ => 2
  | _ => 0

/-- The bytes the decoder makes of the instruction at PC. -/
def instructionLength (s : Megachip) : UInt32 := 2 + operandBytes (current virtuals s)

/-- The instruction goes elsewhere than to the next one. -/
def Instruction.Moves : Instruction → Prop
  | .common i => i.Moves
  | _ => False

/-- The `switch (_X)` knows it by its first digit. -/
theorem operandBytes_decodeMegaX (op : Opcode) :
    operandBytes (decodeMegaX op) = if op.X.val = 0x1 then 2 else 0 := by
  unfold decodeMegaX
  split
  · next h => rw [if_pos h]; rfl
  all_goals
    rw [if_neg (by omega)]
    rfl

/-- In mega mode none of the cases before that is of its row. -/
theorem operandBytes_decodeMega (op : Opcode) :
    operandBytes (decodeMega op) = if op.X.val = 0x1 then 2 else 0 := by
  have hNNN := op.toNat_NNN
  have hLO := op.LO.toNat_lt
  unfold decodeMega
  split
  case h_8 =>
    by_cases hX : op.X.val = 0x1
    · rw [if_neg (by omega), if_neg (by omega), if_neg (by omega), if_neg (by omega)]
      exact operandBytes_decodeMegaX op
    · rw [if_neg hX]
      split_ifs
      case neg => rw [operandBytes_decodeMegaX, if_neg hX]
      all_goals rfl
  all_goals
    rw [if_neg (by omega)]
    rfl

/-- In the old resolutions nothing has an operand. -/
theorem operandBytes_decode0 (op : Opcode) : operandBytes (decode0 op) = 0 := by
  unfold decode0
  split
  · rfl
  · split
    all_goals first | rfl | (split <;> [rfl; (split <;> rfl)])

/-- Only `01NN` has an operand, and only in mega mode. -/
theorem operandBytes_decode (s : Megachip) (op : Opcode) :
    operandBytes (decode s op) =
      if s.trait.useManualVsync = true ∧ op.HI = 0x01 then 2 else 0 := by
  have hHI := op.HI_toNat
  have hX := op.X.isLt
  have hone : op.HI = 0x01 ↔ op.branch.val = 0x0 ∧ op.X.val = 0x1 := by
    rw [← UInt8.toNat_inj]
    change _ = 1 ↔ _
    omega
  by_cases h0 : op.branch.val = 0x0
  · have hdecode : decode s op = if s.trait.useManualVsync then decodeMega op else decode0 op := by
      simp only [decode, h0]
    rw [hdecode]
    cases s.trait.useManualVsync with
    | true => simp only [if_true, operandBytes_decodeMega, hone, h0, true_and]
    | false => simp [operandBytes_decode0]
  · rw [if_neg fun h => h0 (hone.1 h.2).1]
    unfold decode
    split
    · next h => exact absurd h h0
    · rfl
    · rfl
    · rfl
    · rfl
    · unfold decodeF
      split <;> rfl
    · rfl

theorem currentPc_scroll (cols rows : Int) (s : Megachip) :
    (scroll cols rows s).currentPc = s.currentPc := by
  unfold scroll
  split <;> rfl

/-- Whatever is drawn, PC stays. -/
theorem currentPc_instructionDxyN (s : Megachip) (X Y N : Fin 16) :
    (instructionDxyN s X Y N).currentPc = s.currentPc := by
  unfold instructionDxyN
  split
  · unfold drawMega drawTexture
    dsimp only
    split_ifs <;> rfl
  · rfl

/-- A handler steps over its operand and nothing else. -/
theorem currentPc_execute {i : Instruction} {s s' : Megachip} (hi : ¬i.Moves)
    (h : execute i s = some s') : s'.currentPc = s.currentPc + operandBytes i := by
  cases i with
  | common i =>
    cases h
    exact (currentPc_executeCommon_of_not_moves (config s) s hi).trans (UInt32.add_zero _).symm
  | i01NN => cases h; rfl
  | i00BN | i00CN | i00FB | i00FC =>
    cases h
    exact (currentPc_scroll ..).trans (UInt32.add_zero _).symm
  | i00E0 =>
    cases h
    refine Eq.trans ?_ (UInt32.add_zero _).symm
    unfold instruction00E0
    split <;> rfl
  | i060N N =>
    cases h
    refine Eq.trans ?_ (UInt32.add_zero _).symm
    unfold instruction060N startAudioTrack
    split <;> rfl
  | iDxyN X Y N =>
    cases h
    exact (currentPc_instructionDxyN s X Y N).trans (UInt32.add_zero _).symm
  | iFN85 N =>
    obtain ⟨r, -, rfl⟩ := Option.map_eq_some_iff.1 h
    exact (UInt32.add_zero _).symm
  | _ =>
    cases h
    exact (UInt32.add_zero _).symm

/-- The bytes counted are those a cycle steps over. -/
theorem stepsBy : StepsBy virtuals Instruction.Moves instructionLength := fun s s' hi h => by
  rw [currentPc_execute hi h, instructionLength, ← UInt32.add_assoc]
  exact congrArg (· + _) (UInt32.add_assoc s.currentPc 1 1)

/-- **What the skip sees** is what the decoder makes of it, but for a 01 it does not know. -/
theorem skipWidth_eq_instructionLength_iff (s : Megachip) :
    (config s).skipWidth = instructionLength s ↔
      s.trait.useManualVsync = true ∨ s.memory.get s.currentPc ≠ 0x01 := by
  change (if s.memory.get s.currentPc = 0x01 then (4 : UInt32) else 2) =
    2 + operandBytes (decode s.fetch.2 s.fetch.1) ↔ _
  rw [operandBytes_decode]
  change _ = 2 + (if s.trait.useManualVsync = true ∧ s.memory.get s.currentPc = 0x01
    then _ else _) ↔ _
  by_cases hHI : s.memory.get s.currentPc = 0x01 <;> by_cases hmode : s.trait.useManualVsync = true
  all_goals simp [hHI, hmode]

end Megachip

/-! ## Both cores -/

/-- A skip, taken in a state, moves PC over `length` bytes behind it. -/
def Core.SkipsOver {bits : Nat} {Own Instruction : Type} (V : Virtuals bits Own Instruction)
    (s : Core bits Own) (length : UInt32) : Prop :=
  (cycle V s).map (·.currentPc) = some (s.fetch.2.currentPc + length)

/-- A cycle at a skip that is taken. -/
theorem Core.skipsOver_iff {bits : Nat} {Own Instruction : Type} {V : Virtuals bits Own Instruction}
    {s : Core bits Own} {cfg : Common.Config} {i : Common}
    (hcycle : cycle V s = some (s.fetch.2.executeCommon cfg i)) (h : i.Skips s.toCpu)
    (length : UInt32) : SkipsOver V s length ↔ cfg.skipWidth = length := by
  have hskip : i.Skips s.fetch.2.toCpu := by cases i <;> exact h
  have hpc := currentPc_executeCommon_of_skips cfg s.fetch.2 hskip
  rw [SkipsOver, hcycle, Option.map_some, hpc, Option.some_inj, UInt32.add_right_inj]

/-- **Skips step over whole instructions** in both cores unless `MEGACHIP` skips a 01 outside
mega mode; and as many bytes are executed as are counted for an instruction. -/
theorem skips_whole_iff (x : Xochip) (m : Megachip) (i j : Common)
    (hx : current Xochip.virtuals x = .common i) (hi : i.Skips x.toCpu)
    (hm : current Megachip.virtuals m = .common j) (hj : j.Skips m.toCpu) :
    (SkipsOver Xochip.virtuals x (Xochip.instructionLength x.fetch.2) ∧
        SkipsOver Megachip.virtuals m (Megachip.instructionLength m.fetch.2) ↔
      m.trait.useManualVsync = true ∨ m.memory.get (m.currentPc + 1 + 1) ≠ 0x01) ∧
    StepsBy Xochip.virtuals Xochip.Instruction.Moves Xochip.instructionLength ∧
    StepsBy Megachip.virtuals Megachip.Instruction.Moves Megachip.instructionLength := by
  refine ⟨?_, Xochip.stepsBy, Megachip.stepsBy⟩
  have hxcycle : cycle Xochip.virtuals x =
      some (x.fetch.2.executeCommon (Xochip.config x.fetch.2) i) := by rw [cycle, hx]; rfl
  have hmcycle : cycle Megachip.virtuals m =
      some (m.fetch.2.executeCommon (Megachip.config m.fetch.2) j) := by rw [cycle, hm]; rfl
  rw [skipsOver_iff hxcycle hi, skipsOver_iff hmcycle hj,
    Megachip.skipWidth_eq_instructionLength_iff]
  exact and_iff_right (Xochip.skipWidth_eq_instructionLength x.fetch.2)

/-- Machines started at a 3000, which is taken. -/
def Xochip.atSkip (next : List UInt8) : Xochip := boot (.ofProgram (0x30 :: 0x00 :: next))

def Megachip.atSkip (next : List UInt8) : Megachip :=
  boot (.ofProgram (0x30 :: 0x00 :: next)) Unset.zero

theorem Xochip.skips_atSkip (next : List UInt8) :
    (Common.i3xNN 0 0).Skips (atSkip next).toCpu := rfl

theorem Megachip.skips_atSkip (next : List UInt8) :
    (Common.i3xNN 0 0).Skips (atSkip next).toCpu := rfl

/-- A skip over `F000`, and one over `6000`. -/
theorem skips_whole_atSkip :
    SkipsOver Xochip.virtuals (Xochip.atSkip [0xF0, 0x00])
        (Xochip.instructionLength (Xochip.atSkip [0xF0, 0x00]).fetch.2) ∧
      SkipsOver Megachip.virtuals (Megachip.atSkip [0x60, 0x00])
        (Megachip.instructionLength (Megachip.atSkip [0x60, 0x00]).fetch.2) :=
  (skips_whole_iff (Xochip.atSkip [0xF0, 0x00]) (Megachip.atSkip [0x60, 0x00]) (.i3xNN 0 0)
    (.i3xNN 0 0) (by decide +kernel) (Xochip.skips_atSkip _) (by decide +kernel)
    (Megachip.skips_atSkip _)).1.2 (.inr (by decide +kernel))

/-- At 01FF, which its decoder rejects, `MEGACHIP` skips 4 bytes. -/
theorem skip_01NN_not_whole :
    ¬∀ (m : Megachip) (j : Common), current Megachip.virtuals m = .common j → j.Skips m.toCpu →
      SkipsOver Megachip.virtuals m (Megachip.instructionLength m.fetch.2) := by
  intro h
  have h := h (Megachip.atSkip [0x01, 0xFF]) (.i3xNN 0 0) (by decide +kernel)
    (Megachip.skips_atSkip _)
  have hpc : (cycle Megachip.virtuals (Megachip.atSkip [0x01, 0xFF])).map (·.currentPc) =
      some 0x206 := by decide +kernel
  have hwhole : (Megachip.atSkip [0x01, 0xFF]).fetch.2.currentPc +
      Megachip.instructionLength (Megachip.atSkip [0x01, 0xFF]).fetch.2 = 0x204 := by
    decide +kernel
  rw [SkipsOver, hpc, hwhole] at h
  exact absurd h (by decide)

end CubeChip
