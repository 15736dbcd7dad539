import CubeChip.Systems.Chip8.Permaregs
import CubeChip.Components.Peripherals
import CubeChip.Utilities.ArrayOps

/-!
# The processor of the CHIP-8 family

What every core of the family computes with: registers, stack, timers, keypad, voices, the
interrupt and the random numbers, all members of `IFamily_CHIP8` or below it. The
instructions whose bodies the cores share are defined here once, with the quirk a core may
read and the length of the instruction it may skip as arguments.
-/

namespace CubeChip

/-! ## Interrupts, stack, opcodes -/

/-- `Interrupt`: why no instruction runs. -/
inductive Interrupt where
  | clear
  | frame
  | sound
  | delay
  | input
  | wait1
  | final
  | error
deriving DecidableEq, Repr

/-- `Stack`: sixteen slots, used circularly under a head that only wraps at 32 bits. -/
structure Stack where
  head : UInt32
  data : Fin 16 → UInt32

namespace Stack

/-- `m_data[index & 0xF]`. -/
def slot (index : UInt32) : Fin 16 := Fin.ofNat 16 (index &&& 0xF).toNat

/-- `push`: into the slot the head is at. -/
def push (s : Stack) (value : UInt32) : Stack :=
  ⟨s.head + 1, Function.update s.data (slot s.head) value⟩

/-- `pop`: the value, and the stack after. -/
def pop (s : Stack) : UInt32 × Stack := (s.data (slot (s.head - 1)), ⟨s.head - 1, s.data⟩)

/-- `clear`, also the initial stack. -/
def empty : Stack := ⟨0, fun _ => 0⟩

end Stack

/-- The two bytes of an instruction. -/
structure Opcode where
  HI : UInt8
  LO : UInt8
deriving DecidableEq, Repr

namespace Opcode

/-- `HI << 8 | LO`. -/
def word (op : Opcode) : UInt32 := (op.HI.toUInt32 <<< 8) ||| op.LO.toUInt32

/-- `_NNN`. -/
def NNN (op : Opcode) : UInt32 := op.word &&& 0xFFF

/-- `_X`. -/
def X (op : Opcode) : Fin 16 := Fin.ofNat 16 (op.HI &&& 0xF).toNat

/-- `Y_`. -/
def Y (op : Opcode) : Fin 16 := Fin.ofNat 16 (op.LO >>> 4).toNat

/-- `_N`. -/
def N (op : Opcode) : Fin 16 := Fin.ofNat 16 (op.LO &&& 0xF).toNat

/-- The instruction branch, the high half of `HI`. -/
def branch (op : Opcode) : Fin 16 := Fin.ofNat 16 (op.HI >>> 4).toNat

end Opcode

/-! ## `HexInput` -/

/-- The keypad: bit fields of keys, the pacing of repeated presses, and the register Fx0A
waits to fill. -/
structure HexInput where
  tickLast : UInt32
  tickSpan : UInt32
  keysThis : UInt32
  keysLast : UInt32
  keysHide : UInt32
  keysLoop : UInt32
  keyRegPtr : Option (Fin 16)
deriving DecidableEq, Repr

namespace HexInput

/-- `reset`, also the initial keypad. -/
def reset : HexInput := ⟨0, 0, 0, 0, 0, 0, none⟩

/-- `std::countr_zero`. -/
def countrZero (x : UInt32) : Nat := ((List.range 32).find? x.toNat.testBit).getD 32

/-- The keys held, by the bindings. -/
def heldKeys (input : BasicKeyboard) (binds : List SimpleKeyMapping) : UInt32 :=
  binds.foldl (fun keys mapping =>
    if input.isHeld mapping.key || input.isHeld mapping.alt
    then keys ||| ((1 : UInt32) <<< mapping.idx) else keys) 0

/-- `update`, once the keyboard has advanced. -/
def update (k : HexInput) (input : BasicKeyboard) (binds : List SimpleKeyMapping) : HexInput :=
  let keysThis := heldKeys input binds
  let keysHide := k.keysHide &&& ~~~(k.keysThis ^^^ keysThis)
  { k with
    keysLast := k.keysThis
    keysThis := keysThis
    keysHide := keysHide
    keysLoop := k.keysLoop &&& keysHide }

/-- `catch_press`: whether a key was pressed, the keypad after, and the register written. -/
def catchPress (k : HexInput) (frameCount : UInt32) : Bool × HexInput × Option (Fin 16 × UInt8) :=
  let k : HexInput := if k.tickLast + k.tickSpan ≤ frameCount
    then { k with keysLast := k.keysLast &&& ~~~k.keysLoop } else k
  let pressKeys := k.keysThis &&& ~~~k.keysLast
  if pressKeys = 0 then (false, k, none)
  else
    let pressDiff := pressKeys &&& ~~~k.keysLoop
    let validKeys := if pressDiff ≠ 0 then pressDiff else k.keysLoop
    let keysLoop := validKeys &&& ~~~(validKeys - 1)
    (true,
      { k with
        keysHide := k.keysHide ||| validKeys
        tickLast := frameCount
        tickSpan := if validKeys ≠ k.keysLoop then 20 else 5
        keysLoop := keysLoop },
      k.keyRegPtr.map fun X => (X, UInt8.ofNat (countrZero keysLoop)))

/-- `is_key_held_P1`. -/
def isKeyHeldP1 (k : HexInput) (keyIndex : UInt8) : Bool :=
  (k.keysThis &&& ~~~k.keysHide &&& ((0x01 : UInt32) <<< (keyIndex &&& 0xF).toUInt32)) != 0

/-- `is_key_held_P2`. -/
def isKeyHeldP2 (k : HexInput) (keyIndex : UInt8) : Bool :=
  (k.keysThis &&& ~~~k.keysHide &&& ((0x10 : UInt32) <<< (keyIndex &&& 0xF).toUInt32)) != 0

end HexInput

/-! ## `Cpu` -/

/-- The voices; the last one is the buzzer. -/
abbrev Voices := Fin 4 → AudioTimer

/-- `VOICE::UNIQUE`. -/
def voiceUnique : Fin 4 := 0

/-- `VOICE::BUZZER`. -/
def voiceBuzzer : Fin 4 := 3

/-- What the instructions of every core work on. -/
structure Cpu where
  registersV : Registers16
  registerI : UInt32
  currentPc : UInt32
  stack : Stack
  delayTimer : UInt32
  interrupt : Interrupt
  keypad : HexInput
  voices : Voices
  lastVoiceIndex : Fin 3
  rng : Well512

/-- `TriBCD`: hundreds, tens and ones. -/
structure TriBCD where
  hundreds : UInt8
  tens : UInt8
  ones : UInt8
deriving DecidableEq, Repr

/-- The digits of a byte, by the multiplications of the source. -/
def TriBCD.ofByte (value : UInt8) : TriBCD :=
  let hundreds := ((value.toUInt64 * 0x51EB851F) >>> 37).toUInt8
  let tempVal : UInt64 := value.toUInt64 - hundreds.toUInt64 * 100
  let tens := ((tempVal * 0xCCCD) >>> 19).toUInt8
  ⟨hundreds, tens, (tempVal - tens.toUInt64 * 10).toUInt8⟩

namespace Cpu

/-- A store into a register. -/
def setV (c : Cpu) (X : Fin 16) (value : UInt8) : Cpu :=
  { c with registersV := Function.update c.registersV X value }

/-- `trigger_interrupt`. -/
def triggerInterrupt (type : Interrupt) (cond : Bool) (c : Cpu) : Cpu :=
  { c with interrupt := if cond then type else c.interrupt }

/-- `instruction_error`. -/
def instructionError (c : Cpu) : Cpu := c.triggerInterrupt .error true

/-- `jump_program_to`: a jump to itself ends the program. -/
def jumpProgramTo (next : UInt32) (c : Cpu) : Cpu :=
  { c with
    currentPc := next
    interrupt := if next = c.currentPc - 2 then .sound else c.interrupt }

/-- A conditional skip over `width` bytes. -/
def skipIf (cond : Bool) (width : UInt32) (c : Cpu) : Cpu :=
  { c with currentPc := if cond then c.currentPc + width else c.currentPc }

/-- `start_voice_at`. -/
def startVoiceAt (index : Fin 4) (duration : UInt32) (c : Cpu) : Cpu :=
  { c with voices := Function.update c.voices index ((c.voices index).set duration) }

/-- `start_voice`: the next voice but the buzzer. -/
def startVoice (duration : UInt32) (c : Cpu) : Cpu :=
  { c.startVoiceAt c.lastVoiceIndex.castSucc duration with
    lastVoiceIndex := if duration ≠ 0 then c.lastVoiceIndex + 1 else c.lastVoiceIndex }

/-- `!!::accumulate(m_voices, 0)`. -/
def anyVoice (c : Cpu) : Bool :=
  (c.voices 0).get + (c.voices 1).get + (c.voices 2).get + (c.voices 3).get != 0

/-- The sound duration a register asks for. -/
def soundDuration (c : Cpu) (X : Fin 16) : UInt32 :=
  (c.registersV X).toUInt32 + if c.registersV X = 1 then 1 else 0

/-! ### Flow -/

/-- Return to the address on the stack. -/
def instruction00EE (c : Cpu) : Cpu :=
  { c with currentPc := c.stack.pop.1, stack := c.stack.pop.2 }

/-- Exit the program: the machine stops once its voices have ended. -/
def instruction00FD (c : Cpu) : Cpu := c.triggerInterrupt .sound true

/-- Jump. -/
def instruction1NNN (NNN : UInt32) (c : Cpu) : Cpu := c.jumpProgramTo NNN

/-- Call: the address of the next instruction goes onto the stack. -/
def instruction2NNN (NNN : UInt32) (c : Cpu) : Cpu :=
  { c with stack := c.stack.push c.currentPc }.jumpProgramTo NNN

/-- Skip if VX is NN. -/
def instruction3xNN (width : UInt32) (X : Fin 16) (NN : UInt8) (c : Cpu) : Cpu :=
  c.skipIf (c.registersV X = NN) width

/-- Skip if VX is not NN. -/
def instruction4xNN (width : UInt32) (X : Fin 16) (NN : UInt8) (c : Cpu) : Cpu :=
  c.skipIf (c.registersV X ≠ NN) width

/-- Skip if VX is VY. -/
def instruction5xy0 (width : UInt32) (X Y : Fin 16) (c : Cpu) : Cpu :=
  c.skipIf (c.registersV X = c.registersV Y) width

/-- Skip if VX is not VY. -/
def instruction9xy0 (width : UInt32) (X Y : Fin 16) (c : Cpu) : Cpu :=
  c.skipIf (c.registersV X ≠ c.registersV Y) width

/-- `BNNN`, and `BXNN` with the register it names. -/
def instructionBXNN (X : Fin 16) (NNN : UInt32) (c : Cpu) : Cpu :=
  c.jumpProgramTo (NNN + (c.registersV X).toUInt32)

/-- Skip if the key VX names is held. -/
def instructionEx9E (width : UInt32) (X : Fin 16) (c : Cpu) : Cpu :=
  c.skipIf (c.keypad.isKeyHeldP1 (c.registersV X)) width

/-- Skip if the key VX names is not held. -/
def instructionExA1 (width : UInt32) (X : Fin 16) (c : Cpu) : Cpu :=
  c.skipIf (!c.keypad.isKeyHeldP1 (c.registersV X)) width

/-! ### Arithmetic -/

/-- Load NN. -/
def instruction6xNN (X : Fin 16) (NN : UInt8) (c : Cpu) : Cpu := c.setV X NN

/-- Add NN, without a carry. -/
def instruction7xNN (X : Fin 16) (NN : UInt8) (c : Cpu) : Cpu := c.setV X (c.registersV X + NN)

/-- `RESET_VF_REG`, where a core reads it. -/
def resetVf (quirk : Bool) (c : Cpu) : Cpu := if quirk then c.setV 0xF 0 else c

/-- Load VY. -/
def instruction8xy0 (quirk : Bool) (X Y : Fin 16) (c : Cpu) : Cpu :=
  (c.setV X (c.registersV Y)).resetVf quirk

/-- OR with VY. -/
def instruction8xy1 (quirk : Bool) (X Y : Fin 16) (c : Cpu) : Cpu :=
  (c.setV X (c.registersV X ||| c.registersV Y)).resetVf quirk

/-- AND with VY. -/
def instruction8xy2 (quirk : Bool) (X Y : Fin 16) (c : Cpu) : Cpu :=
  (c.setV X (c.registersV X &&& c.registersV Y)).resetVf quirk

/-- XOR with VY. -/
def instruction8xy3 (quirk : Bool) (X Y : Fin 16) (c : Cpu) : Cpu :=
  (c.setV X (c.registersV X ^^^ c.registersV Y)).resetVf quirk

/-- Add VY; VF is the carry, whichever register VX is. -/
def instruction8xy4 (X Y : Fin 16) (c : Cpu) : Cpu :=
  let sum := (c.registersV X).toUInt32 + (c.registersV Y).toUInt32
  (c.setV X sum.toUInt8).setV 0xF (sum >>> 8).toUInt8

/-- Subtract VY; VF is 1 where nothing is borrowed. -/
def instruction8xy5 (X Y : Fin 16) (c : Cpu) : Cpu :=
  let nborrow := c.registersV Y ≤ c.registersV X
  (c.setV X (c.registersV X - c.registersV Y)).setV 0xF (if nborrow then 1 else 0)

/-- Subtract VX from VY; VF is 1 where nothing is borrowed. -/
def instruction8xy7 (X Y : Fin 16) (c : Cpu) : Cpu :=
  let nborrow := c.registersV X ≤ c.registersV Y
  (c.setV X (c.registersV Y - c.registersV X)).setV 0xF (if nborrow then 1 else 0)

/-- Where a shift works on VY, VX is loaded from it first. -/
def loadShifted (inPlace : Bool) (X Y : Fin 16) (c : Cpu) : Cpu :=
  if inPlace then c else c.setV X (c.registersV Y)

/-- Shift right; VF is the bit shifted out. -/
def instruction8xy6 (inPlace : Bool) (X Y : Fin 16) (c : Cpu) : Cpu :=
  let c := c.loadShifted inPlace X Y
  let lsb := c.registersV X &&& 1
  (c.setV X (c.registersV X >>> 1)).setV 0xF lsb

/-- Shift left; VF is the bit shifted out. -/
def instruction8xyE (inPlace : Bool) (X Y : Fin 16) (c : Cpu) : Cpu :=
  let c := c.loadShifted inPlace X Y
  let msb := c.registersV X >>> 7
  (c.setV X (c.registersV X <<< 1)).setV 0xF msb

/-- The next random number, under the mask NN. -/
def instructionCxNN (X : Fin 16) (NN : UInt8) (c : Cpu) : Cpu :=
  { c with
    registersV := Function.update c.registersV X (c.rng.next.1 &&& NN.toUInt32).toUInt8
    rng := c.rng.next.2 }

/-! ### Timers, keys and the index register -/

/-- Load I. -/
def instructionANNN (NNN : UInt32) (c : Cpu) : Cpu := { c with registerI := NNN }

/-- Read the delay timer. -/
def instructionFx07 (X : Fin 16) (c : Cpu) : Cpu := c.setV X c.delayTimer.toUInt8

/-- Wait for a key; the keypad keeps the register it goes to. -/
def instructionFx0A (X : Fin 16) (c : Cpu) : Cpu :=
  { c with keypad := { c.keypad with keyRegPtr := some X } }.triggerInterrupt .input true

/-- Start the delay timer. -/
def instructionFx15 (X : Fin 16) (c : Cpu) : Cpu :=
  { c with delayTimer := (c.registersV X).toUInt32 }

/-- Add VX to I. -/
def instructionFx1E (X : Fin 16) (c : Cpu) : Cpu :=
  { c with registerI := c.registerI + (c.registersV X).toUInt32 }

/-- `c_small_font_offset`. -/
def smallFontOffset : UInt32 := 0x00

/-- `c_large_font_offset`. -/
def largeFontOffset : UInt32 := smallFontOffset + 0x50

/-- Point I at a digit of the small font. -/
def instructionFx29 (X : Fin 16) (c : Cpu) : Cpu :=
  { c with registerI := (c.registersV X &&& 0xF).toUInt32 * 5 + smallFontOffset }

/-- Point I at a digit of the large font. -/
def instructionFx30 (X : Fin 16) (c : Cpu) : Cpu :=
  { c with registerI := (c.registersV X &&& 0xF).toUInt32 * 10 + largeFontOffset }

/-- `catch_press` of the keypad, with the register it writes. -/
def catchPress (frameCount : UInt32) (c : Cpu) : Bool × Cpu :=
  let (pressed, keypad, written) := c.keypad.catchPress frameCount
  let c : Cpu := { c with keypad := keypad }
  (pressed, match written with
    | some (X, value) => c.setV X value
    | none => c)

/-! ### Memory -/

variable {bits : Nat}

/-- Store the three digits of VX at I. -/
def instructionFx33 (X : Fin 16) (c : Cpu) (m : MirroredMemory bits) : MirroredMemory bits :=
  let bcd := TriBCD.ofByte (c.registersV X)
  ((m.set (c.registerI + 0) bcd.hundreds).set (c.registerI + 1) bcd.tens).set
    (c.registerI + 2) bcd.ones

/-- The loop of FN55. -/
def storeRegisters (N : Fin 16) (c : Cpu) (m : MirroredMemory bits) : MirroredMemory bits :=
  (List.range (N.val + 1)).foldl
    (fun m i => m.set (c.registerI + UInt32.ofNat i) (c.registersV (Fin.ofNat 16 i))) m

/-- The loop of FN65. -/
def loadRegisters (N : Fin 16) (m : MirroredMemory bits) (c : Cpu) : Cpu :=
  (List.range (N.val + 1)).foldl
    (fun c i => c.setV (Fin.ofNat 16 i) (m.get (c.registerI + UInt32.ofNat i))) c

/-- What FN55 and FN65 add to I. -/
def advanceI (offset : UInt32) (c : Cpu) : Cpu := { c with registerI := c.registerI + offset }

end Cpu

end CubeChip
