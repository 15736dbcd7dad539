import CubeChip.Systems.Chip8.Common
import CubeChip.Systems.Chip8.Draw

/-!
# `CHIP8_MODERN`

The CHIP-8 core of `cores/CHIP8_MODERN.cpp`: 4 KiB of memory, a 64x32 display, and a speed that
depends on whether drawing waits for the next frame.
-/

namespace CubeChip

/-- The members of the core beside its memory. -/
structure Chip8Modern.Members where
  displayMap : Map2D UInt8

/-- A `CHIP8_MODERN`. -/
abbrev Chip8Modern := Core 12 Chip8Modern.Members

namespace Chip8Modern

/-- `c_game_load_pos` and `c_sys_boot_pos`. -/
def gameLoadPos : Nat := 512

def bootPos : UInt32 := 512

/-- `c_sys_screen_W` and `c_sys_screen_H`. -/
def screenW : Nat := 64

def screenH : Nat := 32

/-- `c_sys_speed_hi` and `c_sys_speed_lo`. -/
def speedHi : UInt32 := 30

def speedLo : UInt32 := 11

/-- `get_avail_quirks`. -/
def availQuirks : List QuirkFlag :=
  [.resetVfReg, .shiftVxReg, .noIncIReg, .awaitVblank, .wrapSprites]

/-! ## Decoding -/

/-- The instructions beside the shared ones; `HI` from 01 to 0F has no case. -/
inductive Instruction where
  | common (i : Common)
  | i00E0
  | iDxyN (X Y N : Fin 16)
  | iFx18 (X : Fin 16)
  | iFx29 (X : Fin 16)
  | skipped
deriving DecidableEq, Repr

/-- The `case 0x00`. -/
def decode0 (op : Opcode) : Instruction :=
  match op.LO.toNat with
  | 0xE0 => .i00E0
  | 0xEE => .common .i00EE
  | _ => .common .error

/-- The `CASE_xNF(0xF0)`. -/
def decodeF (op : Opcode) : Instruction :=
  match op.LO.toNat with
  | 0x18 => .iFx18 op.X
  | 0x29 => .iFx29 op.X
  | _ => .common (Common.decodeF op)

/-- The `switch` of `instruction_loop`. -/
def decode (op : Opcode) : Instruction :=
  match op.branch.val with
  | 0x0 => if op.HI = 0 then decode0 op else .skipped
  | 0x5 => .common (Common.decode5 op)
  | 0xB => .common (.iBXNN 0 op.NNN)
  | 0xD => .iDxyN op.X op.Y op.N
  | 0xE => .common (Common.decodeE op)
  | 0xF => decodeF op
  | _ => .common (Common.decode op)

/-! ## Display instructions -/

variable (s : Chip8Modern)

/-- Rewrite the display. -/
def onDisplay (f : Map2D UInt8 → Map2D UInt8) (s : Chip8Modern) : Chip8Modern :=
  s.onOwn fun own => { own with displayMap := f own.displayMap }

def instruction00E0 (s : Chip8Modern) : Chip8Modern :=
  (onDisplay (·.fill 0) s).awaitFrame .awaitVblank

/-- `draw_byte`: a byte of one bit is drawn wherever `X` is, without a look at the width. -/
def drawByte (X Y : Nat) (DATA : UInt8) (c : Canvas) : Canvas :=
  if DATA = 0b00000000 then c
  else if DATA = 0b10000000 then c.flip 0x8 X Y
  else Canvas.drawBits (s.hasQuirk .wrapSprites) 0x8 Y DATA 8 0 X c

/-- A byte of the sprite. -/
def spriteByte (offset : Nat) : UInt8 := s.memory.get (s.registerI + UInt32.ofNat offset)

/-- The `switch` of `DxyN`. -/
def drawSprite (N : Fin 16) (pX pY : Nat) (c : Canvas) : Canvas :=
  match N.val with
  | 1 => drawByte s pX pY (spriteByte s 0) c
  | 0 => Canvas.drawRows (s.hasQuirk .wrapSprites)
      (fun row Y c => drawByte s (pX + 8) Y (spriteByte s (2 * row + 1))
        (drawByte s (pX + 0) Y (spriteByte s (2 * row + 0)) c)) 16 0 pY c
  | n => Canvas.drawRows (s.hasQuirk .wrapSprites)
      (fun row Y c => drawByte s pX Y (spriteByte s row) c) n 0 pY c

def instructionDxyN (X Y N : Fin 16) : Chip8Modern :=
  let pX := (s.registersV X).toNat &&& (screenW - 1)
  let pY := (s.registersV Y).toNat &&& (screenH - 1)
  let c := drawSprite s N pX pY ⟨s.own.displayMap, 0⟩
  ((onDisplay (fun _ => c.map) s).onCpu (·.setV 0xF c.VF)).awaitFrame .awaitVblank

/-! ## Executing -/

/-- What the shared handlers do here: 8xy0 never clears VF. -/
def config : Common.Config where
  skipWidth := 2
  resetVf0 := false
  resetVf1 := s.hasQuirk .resetVfReg
  resetVf2 := s.hasQuirk .resetVfReg
  resetVf3 := s.hasQuirk .resetVfReg
  shiftInPlace := s.hasQuirk .shiftVxReg
  indexOffset := fun N => if s.hasQuirk .noIncIReg then 0 else UInt32.ofNat (N.val + 1)

def execute (i : Instruction) (s : Chip8Modern) : Option Chip8Modern :=
  match i with
  | .common i => some (s.executeCommon (config s) i)
  | .i00E0 => some (instruction00E0 s)
  | .iDxyN X Y N => some (instructionDxyN s X Y N)
  | .iFx18 X => some (s.onCpu (.startVoice (s.soundDuration X)))
  | .iFx29 X => some (s.onCpu (.instructionFx29 X))
  | .skipped => some s

/-- The speed `instruction_loop` sets before its loop. -/
def enterLoop (s : Chip8Modern) : Chip8Modern :=
  { s with standardCpf := if s.hasQuirk .awaitVblank then speedHi else speedLo }

/-! ## Output -/

/-- `push_audio_data`, as far as it is not sound. -/
def pushAudioData (_input : FrameInput) (s : Chip8Modern) : Chip8Modern :=
  if s.cachedSystemState.has EmuState.anyPause then s
  else s.onFamily (.setBorderColorIf s.anyVoice (bitColor 1))

/-- The pixels of the frame `push_video_data` publishes. -/
def videoPixel (idx : Nat) : RGBA :=
  pixelColor s.trait.usePixelTrails (s.own.displayMap.at1 idx)

/-- `push_video_data`, as far as it changes the core: pixels fade with and without trails. -/
def pushVideoData (s : Chip8Modern) : Chip8Modern := onDisplay (·.transform fadePixel) s

/-! ## Starting and resetting -/

/-- A constructed core. -/
def construct (launch : Launch) : Chip8Modern where
  toIFamily := IFamily.construct launch screenW screenH
  memory := MirroredMemory.clear
  own := ⟨⟨fun _ => 0, screenW, screenH⟩⟩

/-- `initialize_system`: the speed is left to `instruction_loop`. -/
def initializeSystem (s : Chip8Modern) : Chip8Modern :=
  let s : Chip8Modern := (s.copyFileImageTo gameLoadPos).copyFontDataTo 80
  { s with
    currentPc := bootPos
    metadata := { s.metadata with
      minimumZoom := 8, innerMargin := 4, textureTint := bitColor 0, enabled := true } }

/-- A core ready to run. -/
def boot (launch : Launch) : Chip8Modern := initializeSystem (construct launch)

/-- `reset_system_data`. -/
def resetSystemData (s : Chip8Modern) : Chip8Modern :=
  let s : Chip8Modern := { s with memory := MirroredMemory.clear }
  let s := (s.copyFileImageTo gameLoadPos).copyFontDataTo 80
  { onDisplay (·.fill 0) s with
    currentPc := bootPos
    standardCpf := speedLo }

/-- The virtual functions. -/
def virtuals : Virtuals 12 Members Instruction where
  availQuirks := availQuirks
  enterLoop := enterLoop
  decode := fun _ => decode
  execute := execute
  pushAudioData := pushAudioData
  pushVideoData := pushVideoData
  resetSystemData := resetSystemData

end Chip8Modern

end CubeChip
