import CubeChip.Systems.Chip8.Cpu

/-!
# `ISystemEmu` and `IFamily_CHIP8`

The state every core of the family has beside its processor (the system state word and its
copy for the frame, quirks, traits, speeds, the staged metadata) and the members of the two
base classes that work on it. `Core` adds what the derived class adds: a memory, and whatever
else the core owns.
-/

namespace CubeChip

/-! ## Flags -/

/-- `QuirkFlag`. -/
inductive QuirkFlag where
  | resetVfReg
  | jumpWithVx
  | shiftVxReg
  | noIncIReg
  | x1IncIReg
  | awaitVblank
  | awaitScroll
  | wrapSprites
deriving DecidableEq, Repr

/-- A word of quirk flags. -/
abbrev QuirkFlags := QuirkFlag → Bool

/-- `EmuState`: the single bits of the system state. -/
inductive EmuState where
  | hidden
  | paused
  | halted
  | fatal
  | bench
  | stats
  | reset
  | debug
deriving DecidableEq, Repr

namespace EmuState

/-- `NOT_RUNNING`: emulation cannot progress. -/
def notRunning : List EmuState := [hidden, paused, halted, fatal, reset]

/-- `CANNOT_PAUSE`. -/
def cannotPause : List EmuState := [hidden, halted, fatal, reset]

/-- `ANY_PAUSE`. -/
def anyPause : List EmuState := [hidden, paused, reset]

/-- `ANY_STOP`. -/
def anyStop : List EmuState := [halted, fatal, reset]

end EmuState

/-- The system state word. -/
abbrev SystemState := EmuState → Bool

namespace SystemState

/-- A test against a mask. -/
def has (s : SystemState) (mask : List EmuState) : Bool := mask.any s

def add (s : SystemState) (mask : List EmuState) : SystemState := fun e => mask.elem e || s e

def sub (s : SystemState) (mask : List EmuState) : SystemState := fun e => !mask.elem e && s e

def xor (s : SystemState) (mask : List EmuState) : SystemState := fun e => mask.elem e ^^ s e

end SystemState

/-! ## Tables -/

/-- `s_fonts_data`: the small font and, from byte 80 on, the large one. -/
def fontsData : List UInt8 := [
  0x60, 0xA0, 0xA0, 0xA0, 0xC0, 0x40, 0xC0, 0x40, 0x40, 0xE0,
  0xC0, 0x20, 0x40, 0x80, 0xE0, 0xC0, 0x20, 0x40, 0x20, 0xC0,
  0x20, 0xA0, 0xE0, 0x20, 0x20, 0xE0, 0x80, 0xC0, 0x20, 0xC0,
  0x40, 0x80, 0xC0, 0xA0, 0x40, 0xE0, 0x20, 0x60, 0x40, 0x40,
  0x40, 0xA0, 0x40, 0xA0, 0x40, 0x40, 0xA0, 0x60, 0x20, 0x40,
  0x40, 0xA0, 0xE0, 0xA0, 0xA0, 0xC0, 0xA0, 0xC0, 0xA0, 0xC0,
  0x60, 0x80, 0x80, 0x80, 0x60, 0xC0, 0xA0, 0xA0, 0xA0, 0xC0,
  0xE0, 0x80, 0xC0, 0x80, 0xE0, 0xE0, 0x80, 0xC0, 0x80, 0x80,
  0x7C, 0xC6, 0xCE, 0xDE, 0xD6, 0xF6, 0xE6, 0xC6, 0x7C, 0x00,
  0x10, 0x30, 0xF0, 0x30, 0x30, 0x30, 0x30, 0x30, 0xFC, 0x00,
  0x78, 0xCC, 0xCC, 0x0C, 0x18, 0x30, 0x60, 0xCC, 0xFC, 0x00,
  0x78, 0xCC, 0x0C, 0x0C, 0x38, 0x0C, 0x0C, 0xCC, 0x78, 0x00,
  0x0C, 0x1C, 0x3C, 0x6C, 0xCC, 0xFE, 0x0C, 0x0C, 0x1E, 0x00,
  0xFC, 0xC0, 0xC0, 0xC0, 0xF8, 0x0C, 0x0C, 0xCC, 0x78, 0x00,
  0x38, 0x60, 0xC0, 0xC0, 0xF8, 0xCC, 0xCC, 0xCC, 0x78, 0x00,
  0xFE, 0xC6, 0xC6, 0x06, 0x0C, 0x18, 0x30, 0x30, 0x30, 0x00,
  0x78, 0xCC, 0xCC, 0xEC, 0x78, 0xDC, 0xCC, 0xCC, 0x78, 0x00,
  0x7C, 0xC6, 0xC6, 0xC6, 0x7C, 0x18, 0x18, 0x30, 0x70, 0x00,
  0x30, 0x78, 0xCC, 0xCC, 0xCC, 0xFC, 0xCC, 0xCC, 0xCC, 0x00,
  0xFC, 0x66, 0x66, 0x66, 0x7C, 0x66, 0x66, 0x66, 0xFC, 0x00,
  0x3C, 0x66, 0xC6, 0xC0, 0xC0, 0xC0, 0xC6, 0x66, 0x3C, 0x00,
  0xF8, 0x6C, 0x66, 0x66, 0x66, 0x66, 0x66, 0x6C, 0xF8, 0x00,
  0xFE, 0x62, 0x60, 0x64, 0x7C, 0x64, 0x60, 0x62, 0xFE, 0x00,
  0xFE, 0x66, 0x62, 0x64, 0x7C, 0x64, 0x60, 0x60, 0xF0, 0x00]

/-- `s_bit_colors`. -/
def bitColors : List RGBA := [
  0x181C20FF, 0xE4DCD4FF, 0x8C8884FF, 0x403C38FF,
  0xD82010FF, 0x40D020FF, 0x1040D0FF, 0xE0C818FF,
  0x501010FF, 0x105010FF, 0x50B0C0FF, 0xF08010FF,
  0xE06090FF, 0xE0F090FF, 0xB050F0FF, 0x704020FF].map RGBA.ofPacked

/-- `s_bit_colors[index]`. -/
def bitColor (index : Nat) : RGBA := bitColors.getD index RGBA.zero

/-- `c_bit_weight[pixel]`, the premultiplication of pixel trails. -/
def bitWeight (pixel : Nat) : UInt8 :=
  [0xFF, 0x37, 0x67, 0x67, 0xE7, 0xE7, 0xE7, 0xE7,
    0xFF, 0xFF, 0xFF, 0xFF, 0xFF, 0xFF, 0xFF, 0xFF].getD pixel 0

/-- The colour of a monochrome pixel, with or without trails. -/
def pixelColor (trails : Bool) (pixel : UInt8) : RGBA :=
  if trails then (bitColor (if pixel ≠ 0 then 1 else 0)).premul (bitWeight pixel.toNat)
  else bitColor (pixel >>> 3).toNat

/-- What a frame leaves of a pixel when trails are shown. -/
def fadePixel (pixel : UInt8) : UInt8 := (pixel &&& (0x8 : UInt8)) ||| (pixel >>> 1)

/-- `default_key_mappings`, by scancode; no key has an alternative. -/
def defaultKeyMappings : List SimpleKeyMapping :=
  [(0x1, 30), (0x2, 31), (0x3, 32), (0xC, 33), (0x4, 20), (0x5, 26), (0x6, 8), (0xD, 21),
    (0x7, 4), (0x8, 22), (0x9, 7), (0xE, 9), (0xA, 29), (0x0, 27), (0xB, 6), (0xF, 25)].map
    fun (idx, key) => ⟨idx, key, 0⟩

/-! ## The base classes -/

/-- `PlatformTraits`. -/
structure PlatformTraits where
  useHiresScreen : Bool
  useManualVsync : Bool
  usePixelTrails : Bool
deriving DecidableEq, Repr

/-- The members of `ISystemEmu` and `IFamily_CHIP8`. -/
structure IFamily extends Cpu where
  systemState : SystemState
  cachedSystemState : SystemState
  benchedFrames : UInt32
  elapsedFrames : UInt32
  input : BasicKeyboard
  customBinds : List SimpleKeyMapping
  fileImage : List UInt8
  metadata : Metadata
  /-- An audio device was opened. -/
  audioDevice : Bool
  quirkFlags : QuirkFlags
  cachedQuirkFlags : QuirkFlags
  trait : PlatformTraits
  standardCpf : UInt32
  debuggerCpf : UInt32
  cycleCount : UInt32
  permaregsPath : Option Path
  host : Host

/-- What a system is started with: the program, the seed of its random numbers, and what its
surroundings offer. -/
structure Launch where
  fileImage : List UInt8
  seed : UInt64
  audioDevice : Bool
  permaregsPath : Option Path
  host : Host

/-- A program started with nothing around it. -/
def Launch.ofProgram (fileImage : List UInt8) : Launch where
  fileImage := fileImage
  seed := 0
  audioDevice := false
  permaregsPath := none
  host := ⟨FileSystem.empty, fun _ => 0⟩

namespace IFamily

/-- A core constructed for a `w` by `h` texture, after `initialize_family`. -/
def construct (launch : Launch) (w h : Int) : IFamily where
  registersV := fun _ => 0
  registerI := 0
  currentPc := 0
  stack := Stack.empty
  delayTimer := 0
  interrupt := .clear
  keypad := HexInput.reset
  voices := fun _ => AudioTimer.reset
  lastVoiceIndex := 0
  rng := Well512.seeded launch.seed
  systemState := fun _ => false
  cachedSystemState := fun _ => false
  benchedFrames := 0
  elapsedFrames := 0
  input := BasicKeyboard.resetState
  customBinds := defaultKeyMappings
  fileImage := launch.fileImage
  metadata := Metadata.new w h
  audioDevice := launch.audioDevice
  quirkFlags := fun _ => false
  cachedQuirkFlags := fun _ => false
  trait := ⟨false, false, false⟩
  standardCpf := 0
  debuggerCpf := 0
  cycleCount := 0
  permaregsPath := launch.permaregsPath
  host := launch.host

/-- `has_quirk`: the flags cached for the frame. -/
def hasQuirk (s : IFamily) (flag : QuirkFlag) : Bool := s.cachedQuirkFlags flag

/-- `add_quirk`. -/
def addQuirk (flag : QuirkFlag) (s : IFamily) : IFamily :=
  { s with quirkFlags := Function.update s.quirkFlags flag true }

/-- `sub_quirk`. -/
def subQuirk (flag : QuirkFlag) (s : IFamily) : IFamily :=
  { s with quirkFlags := Function.update s.quirkFlags flag false }

/-- `xor_quirk`. -/
def xorQuirk (flag : QuirkFlag) (s : IFamily) : IFamily :=
  { s with quirkFlags := Function.update s.quirkFlags flag (!s.quirkFlags flag) }

/-- `use_hires_screen(state)`. -/
def setHiresScreen (state : Bool) (s : IFamily) : IFamily :=
  { s with trait := { s.trait with useHiresScreen := state } }

/-- `use_manual_vsync(state)`. -/
def setManualVsync (state : Bool) (s : IFamily) : IFamily :=
  { s with trait := { s.trait with useManualVsync := state } }

/-- `reset_family_data`: not the traits, not the quirks. -/
def resetFamilyData (s : IFamily) : IFamily :=
  { s with
    voices := fun _ => AudioTimer.reset
    registersV := fun _ => 0
    lastVoiceIndex := 0
    delayTimer := 0
    registerI := 0
    interrupt := .clear
    stack := Stack.empty
    keypad := HexInput.reset }

/-- `perform_instance_reset`, before `reset_system_data`. -/
def resetInstance (s : IFamily) : IFamily :=
  resetFamilyData { s with
    benchedFrames := 0
    elapsedFrames := 0
    input := BasicKeyboard.resetState }

/-- `update_keypad_data`, with the key states polled from the system. -/
def updateKeypadData (keys : Scancode → Bool) (s : IFamily) : IFamily :=
  { s with
    input := s.input.advanceState keys
    keypad := s.keypad.update (s.input.advanceState keys) s.customBinds }

/-- `handle_timer_ticks`. -/
def handleTimerTicks (s : IFamily) : IFamily :=
  { s with
    delayTimer := if s.delayTimer ≠ 0 then s.delayTimer - 1 else s.delayTimer
    voices := fun i => (s.voices i).dec }

/-- `handle_pre_work_interrupts`. -/
def handlePreWorkInterrupts (s : IFamily) : IFamily :=
  match s.interrupt with
  | .frame => { s with interrupt := .clear }
  | .sound =>
      if (List.finRange 4).any fun i => (s.voices i).get != 0 then s
      else { s with interrupt := .wait1, standardCpf := 0 }
  | .delay => if s.delayTimer ≠ 0 then s else { s with interrupt := .clear }
  | _ => s

/-- `handle_post_work_interrupts`. -/
def handlePostWorkInterrupts (s : IFamily) : IFamily :=
  match s.interrupt with
  | .input =>
      let (pressed, c) := s.toCpu.catchPress s.elapsedFrames
      if pressed then
        { s with toCpu := { c with interrupt := .clear }.startVoiceAt voiceBuzzer 2 }
      else { s with toCpu := c }
  | .wait1 => { s with interrupt := .final }
  | .error => { s with systemState := s.systemState.add [.fatal], standardCpf := 0 }
  | .final => { s with systemState := s.systemState.add [.halted], standardCpf := 0 }
  | _ => s

/-- `meta.set_border_color_if`, on the staged metadata. -/
def setBorderColorIf (cond : Bool) (color : RGBA) (s : IFamily) : IFamily :=
  { s with metadata := s.metadata.setBorderColorIf cond color }

end IFamily

/-! ## Cores -/

/-- A core: the base classes, its memory of `2 ^ bits` bytes, and its other members. -/
structure Core (bits : Nat) (Own : Type) extends IFamily where
  memory : MirroredMemory bits
  own : Own

namespace Core

variable {bits : Nat} {Own : Type}

/-- Run a member of the base classes. -/
def onFamily (f : IFamily → IFamily) (s : Core bits Own) : Core bits Own :=
  { s with toIFamily := f s.toIFamily }

/-- Run an instruction of the processor. -/
def onCpu (f : Cpu → Cpu) (s : Core bits Own) : Core bits Own := { s with toCpu := f s.toCpu }

/-- Rewrite the other members. -/
def onOwn (f : Own → Own) (s : Core bits Own) : Core bits Own := { s with own := f s.own }

/-- `trigger_interrupt(Interrupt::FRAME, has_quirk(flag))`. -/
def awaitFrame (flag : QuirkFlag) (s : Core bits Own) : Core bits Own :=
  s.onCpu (·.triggerInterrupt .frame (s.hasQuirk flag))

/-- `copy_file_image_to`. -/
def copyFileImageTo (offset : Nat) (s : Core bits Own) : Core bits Own :=
  { s with memory := s.memory.copyFrom offset s.fileImage }

/-- `copy_font_data_to`. -/
def copyFontDataTo (size : Nat) (s : Core bits Own) : Core bits Own :=
  { s with memory := s.memory.copyFrom Cpu.smallFontOffset.toNat (fontsData.take size) }

/-- `generate_n` over the whole memory: byte after byte from the random numbers. -/
def generateMemory (s : Core bits Own) : Core bits Own :=
  { s with
    memory := ⟨fun a => (s.rng.advance a.toNat).next.1.toUInt8⟩
    rng := s.rng.advance (2 ^ bits) }

/-- Fetch the instruction at PC and move PC past it. -/
def fetch (s : Core bits Own) : Opcode × Core bits Own :=
  (⟨s.memory.get s.currentPc, s.memory.get (s.currentPc + 1)⟩,
    { s with currentPc := s.currentPc + 1 + 1 })

/-- `NNNN()`. -/
def NNNN (s : Core bits Own) : UInt32 :=
  ((s.memory.get s.currentPc).toUInt32 <<< 8) ||| (s.memory.get (s.currentPc + 1)).toUInt32

def instructionFx33 (X : Fin 16) (s : Core bits Own) : Core bits Own :=
  { s with memory := s.toCpu.instructionFx33 X s.memory }

/-- FN55, adding `offset` to I. -/
def instructionFN55 (offset : UInt32) (N : Fin 16) (s : Core bits Own) : Core bits Own :=
  { s with
    memory := s.toCpu.storeRegisters N s.memory
    toCpu := s.toCpu.advanceI offset }

/-- FN65, adding `offset` to I. -/
def instructionFN65 (offset : UInt32) (N : Fin 16) (s : Core bits Own) : Core bits Own :=
  { s with toCpu := (s.toCpu.loadRegisters N s.memory).advanceI offset }

/-- FN75, with the count a core passes to `set_permaregs`. -/
def setPermaregs (count : Nat) (s : Core bits Own) : Core bits Own :=
  let r := Permaregs.setPermaregs count s.permaregsPath s.registersV s.host
  { s with permaregsPath := r.1, host := r.2 }

/-- FN85, with the count a core passes to `get_permaregs`; `none` if the process ends. -/
def getPermaregs (count : Nat) (s : Core bits Own) : Option (Core bits Own) :=
  (Permaregs.getPermaregs count s.permaregsPath s.registersV s.host).map fun r =>
    { s with permaregsPath := r.1, registersV := r.2.1, host := r.2.2 }

end Core

end CubeChip
