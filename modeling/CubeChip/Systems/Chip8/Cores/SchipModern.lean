import CubeChip.Systems.Chip8.Common
import CubeChip.Systems.Chip8.Draw

/-!
# `SCHIP_MODERN`

The SUPERCHIP core of `cores/SCHIP_MODERN.cpp`: 4 KiB of memory and a display that is resized
between 64x32 and 128x64.
-/

namespace CubeChip

/-- The members of the core beside its memory. -/
structure SchipModern.Members where
  displayMap : Map2D UInt8

/-- A `SCHIP_MODERN`. -/
abbrev SchipModern := Core 12 SchipModern.Members

namespace SchipModern

/-- `c_game_load_pos` and `c_sys_boot_pos`. -/
def gameLoadPos : Nat := 0x200

def bootPos : UInt32 := 0x200

/-- `c_sys_screen_W` and `c_sys_screen_H`. -/
def screenW : Nat := 128

def screenH : Nat := 64

/-- `c_sys_speed_lo`. -/
def speedLo : UInt32 := 30

/-- `get_avail_quirks`. -/
def availQuirks : List QuirkFlag :=
  [.resetVfReg, .shiftVxReg, .noIncIReg, .awaitScroll, .awaitVblank, .wrapSprites]

/-! ## Decoding -/

/-- The instructions beside the shared ones; `HI` from 01 to 0F has no case, so these opcodes
do nothing at all. -/
inductive Instruction where
  | common (i : Common)
  | i00CN (N : Fin 16)
  | i00E0
  | i00FB
  | i00FC
  | i00FD
  | i00FE
  | i00FF
  | iDxyN (X Y N : Fin 16)
  | iFx18 (X : Fin 16)
  | iFx29 (X : Fin 16)
  | iFx30 (X : Fin 16)
  | iFN75 (N : Fin 16)
  | iFN85 (N : Fin 16)
  | skipped
deriving DecidableEq, Repr

/-- The `case 0x00`. -/
def decode0 (op : Opcode) : Instruction :=
  match op.LO.toNat with
  | 0xE0 => .i00E0
  | 0xEE => .common .i00EE
  | 0xFB => .i00FB
  | 0xFC => .i00FC
  | 0xFD => .i00FD
  | 0xFE => .i00FE
  | 0xFF => .i00FF
  | LO => if 0xC1 ≤ LO ∧ LO ≤ 0xCF then .i00CN op.N else .common .error

/-- The `CASE_xNF(0xF0)`. -/
def decodeF (op : Opcode) : Instruction :=
  match op.LO.toNat with
  | 0x18 => .iFx18 op.X
  | 0x29 => .iFx29 op.X
  | 0x30 => .iFx30 op.X
  | 0x75 => .iFN75 op.X
  | 0x85 => .iFN85 op.X
  | _ => .common (Common.decodeF op)

/-- The `switch` of `instruction_loop`. -/
def decode (op : Opcode) : Instruction :=
  match op.branch.val with
  | 0x0 => if op.HI = 0 then decode0 op else .skipped
  | 0x5 => .common (Common.decode5 op)
  | 0xB => .common (.iBXNN 0 op.NNN)
  | 0xD => .iDxyN op.X op.Y op.N
  | 0xE => .common (Common.decodeE op)
  | 0xF => decodeF op
  | _ => .common (Common.decode op)

/-! ## Display instructions -/

variable (s : SchipModern)

/-- Rewrite the display. -/
def onDisplay (f : Map2D UInt8 → Map2D UInt8) (s : SchipModern) : SchipModern :=
  s.onOwn fun own => { own with displayMap := f own.displayMap }

/-- `scroll_display_dn`, `scroll_display_lt` and `scroll_display_rt`. -/
def scrollDisplayDn (N : Fin 16) : SchipModern → SchipModern := onDisplay (·.shift 0 N.val 0)

def scrollDisplayLt : SchipModern → SchipModern := onDisplay (·.shift (-4) 0 0)

def scrollDisplayRt : SchipModern → SchipModern := onDisplay (·.shift 4 0 0)

def instruction00CN (N : Fin 16) (s : SchipModern) : SchipModern :=
  (if N ≠ 0 then scrollDisplayDn N s else s).awaitFrame .awaitScroll

def instruction00E0 (s : SchipModern) : SchipModern :=
  (onDisplay (·.fill 0) s).awaitFrame .awaitVblank

def instruction00FB (s : SchipModern) : SchipModern :=
  (scrollDisplayRt s).awaitFrame .awaitScroll

def instruction00FC (s : SchipModern) : SchipModern :=
  (scrollDisplayLt s).awaitFrame .awaitScroll

def instruction00FE (s : SchipModern) : SchipModern :=
  (onDisplay (fun m => (m.resize (screenW / 2) (screenH / 2)).fill 0)
    (s.onFamily (.setHiresScreen false))).awaitFrame .awaitVblank

def instruction00FF (s : SchipModern) : SchipModern :=
  (onDisplay (fun m => (m.resize screenW screenH).fill 0)
    (s.onFamily (.setHiresScreen true))).awaitFrame .awaitVblank

/-- `draw_byte`. -/
def drawByte (X Y : Nat) (DATA : UInt8) : Canvas → Canvas :=
  Canvas.drawByte (s.hasQuirk .wrapSprites) 0x8 X Y DATA

/-- A byte of the sprite. -/
def spriteByte (offset : Nat) : UInt8 := s.memory.get (s.registerI + UInt32.ofNat offset)

/-- The `switch` of `DxyN`. -/
def drawSprite (N : Fin 16) (pX pY : Nat) (c : Canvas) : Canvas :=
  match N.val with
  | 1 => drawByte s pX pY (spriteByte s 0) c
  | 0 => Canvas.drawRows (s.hasQuirk .wrapSprites)
      (fun row Y c => drawByte s (pX + 8) Y (spriteByte s (2 * row + 1))
        (drawByte s (pX + 0) Y (spriteByte s (2 * row + 0)) c)) 16 0 pY c
  | n => Canvas.drawRows (s.hasQuirk .wrapSprites)
      (fun row Y c => drawByte s pX Y (spriteByte s row) c) n 0 pY c

def instructionDxyN (X Y N : Fin 16) : SchipModern :=
  let pX := (s.registersV X).toNat &&& (s.own.displayMap.width - 1)
  let pY := (s.registersV Y).toNat &&& (s.own.displayMap.height - 1)
  let c := drawSprite s N pX pY ⟨s.own.displayMap, 0⟩
  ((onDisplay (fun _ => c.map) s).onCpu (·.setV 0xF c.VF)).awaitFrame .awaitVblank

/-! ## Executing -/

/-- What the shared handlers do here: 8xy3 never clears VF. -/
def config : Common.Config where
  skipWidth := 2
  resetVf0 := s.hasQuirk .resetVfReg
  resetVf1 := s.hasQuirk .resetVfReg
  resetVf2 := s.hasQuirk .resetVfReg
  resetVf3 := false
  shiftInPlace := s.hasQuirk .shiftVxReg
  indexOffset := fun N => if s.hasQuirk .noIncIReg then 0 else UInt32.ofNat (N.val + 1)

def execute (i : Instruction) (s : SchipModern) : Option SchipModern :=
  match i with
  | .common i => some (s.executeCommon (config s) i)
  | .i00CN N => some (instruction00CN N s)
  | .i00E0 => some (instruction00E0 s)
  | .i00FB => some (instruction00FB s)
  | .i00FC => some (instruction00FC s)
  | .i00FD => some (s.onCpu .instruction00FD)
  | .i00FE => some (instruction00FE s)
  | .i00FF => some (instruction00FF s)
  | .iDxyN X Y N => some (instructionDxyN s X Y N)
  | .iFx18 X => some (s.onCpu (.startVoice (s.soundDuration X)))
  | .iFx29 X => some (s.onCpu (.instructionFx29 X))
  | .iFx30 X => some (s.onCpu (.instructionFx30 X))
  | .iFN75 N => some (s.setPermaregs (N.val + 1))
  | .iFN85 N => s.getPermaregs (N.val + 1)
  | .skipped => some s

/-! ## Output -/

/-- `push_audio_data`, as far as it is not sound. -/
def pushAudioData (_input : FrameInput) (s : SchipModern) : SchipModern :=
  if s.cachedSystemState.has EmuState.anyPause then s
  else s.onFamily (.setBorderColorIf s.anyVoice (bitColor 1))

/-- The index into the display a pixel of the 128x64 composite buffer is taken from. -/
def videoIndex (pixel : Nat) : Nat :=
  if s.trait.useHiresScreen then pixel
  else s.own.displayMap.offset (pixel % screenW / 2) (pixel / screenW / 2)

/-- The pixels of the frame `push_video_data` publishes. -/
def videoPixel (pixel : Nat) : RGBA :=
  pixelColor s.trait.usePixelTrails (s.own.displayMap.at1 (videoIndex s pixel))

/-- `push_video_data`, as far as it changes the core. -/
def pushVideoData (s : SchipModern) : SchipModern :=
  if s.trait.usePixelTrails then onDisplay (·.transform fadePixel) s else s

/-! ## Starting and resetting -/

/-- A constructed core. -/
def construct (launch : Launch) : SchipModern where
  toIFamily := IFamily.construct launch screenW screenH
  memory := MirroredMemory.clear
  own := ⟨⟨fun _ => 0, screenW / 2, screenH / 2⟩⟩

/-- `initialize_system`. -/
def initializeSystem (s : SchipModern) : SchipModern :=
  let s : SchipModern := (s.copyFileImageTo gameLoadPos).copyFontDataTo 240
  { onDisplay (·.resize (screenW / 2) (screenH / 2)) s with
    currentPc := bootPos
    standardCpf := speedLo
    metadata := { s.metadata with
      minimumZoom := 4, innerMargin := 4, textureTint := bitColor 0, enabled := true } }

/-- A core ready to run. -/
def boot (launch : Launch) : SchipModern := initializeSystem (construct launch)

/-- `reset_system_data`. -/
def resetSystemData (s : SchipModern) : SchipModern :=
  let s : SchipModern := { s with memory := MirroredMemory.clear }
  let s := (s.copyFileImageTo gameLoadPos).copyFontDataTo 240
  { onDisplay (fun m => (m.fill 0).resize (screenW / 2) (screenH / 2)) s with
    currentPc := bootPos
    standardCpf := speedLo }

/-- The virtual functions. -/
def virtuals : Virtuals 12 Members Instruction where
  availQuirks := availQuirks
  enterLoop := id
  decode := fun _ => decode
  execute := execute
  pushAudioData := pushAudioData
  pushVideoData := pushVideoData
  resetSystemData := resetSystemData

end SchipModern

end CubeChip
