import CubeChip.Systems.Chip8.Common
import CubeChip.Systems.Chip8.Draw

/-!
# `CHIP8X`

The CHIP-8X core of `cores/CHIP8X.cpp`: 4 KiB of memory, random where there is neither program
nor font, a 64x32 display, a colour for each eight of its cells, and four background colours to
cycle through. The background is kept twice, as an index and as the tint of the staged
metadata.
-/

namespace CubeChip

/-- The members of the core beside its memory. -/
structure Chip8X.Members where
  backgroundColor : Fin 4
  colorPixelMask : UInt32
  coloredMap : Map2D RGBA
  displayMap : Map2D UInt8

/-- A `CHIP8X`. -/
abbrev Chip8X := Core 12 Chip8X.Members

namespace Chip8X

/-- `c_game_load_pos` and `c_sys_boot_pos`. -/
def gameLoadPos : Nat := 0x300

def bootPos : UInt32 := 0x300

/-- `c_sys_screen_W` and `c_sys_screen_H`. -/
def screenW : Nat := 64

def screenH : Nat := 32

/-- `c_sys_speed_hi`. -/
def speedHi : UInt32 := 30

/-- `get_avail_quirks` of the family. -/
def availQuirks : List QuirkFlag := []

/-- `c_fore_colors`. -/
def foreColors : Fin 8 → RGBA := fun idx =>
  RGBA.ofPacked ([0x000000FF, 0xEE1111FF, 0x1111EEFF, 0xEE11EEFF,
    0x11EE11FF, 0xEEEE11FF, 0x11EEEEFF, 0xEEEEEEFF].getD idx.val 0)

/-- `c_back_colors`. -/
def backColors : Fin 4 → RGBA := fun idx =>
  RGBA.ofPacked ([0x111133FF, 0x111111FF, 0x113311FF, 0x331111FF].getD idx.val 0)

/-! ## Decoding -/

/-- The instructions beside the shared ones; `HI` 01 and from 03 to 0F has no case. -/
inductive Instruction where
  | common (i : Common)
  | i00E0
  | i02A0
  | i5xy1 (X Y : Fin 16)
  | iBxyN (X Y N : Fin 16)
  | iDxyN (X Y N : Fin 16)
  | iExF2 (X : Fin 16)
  | iExF5 (X : Fin 16)
  | iFx18 (X : Fin 16)
  | iFx29 (X : Fin 16)
  | iFxF8 (X : Fin 16)
  | iFxFB
  | skipped
deriving DecidableEq, Repr

/-- The `case 0x00` and the `case 0x02`. -/
def decode0 (op : Opcode) : Instruction :=
  match op.HI.toNat with
  | 0x00 =>
      match op.LO.toNat with
      | 0xE0 => .i00E0
      | 0xEE => .common .i00EE
      | _ => .common .error
  | 0x02 => if op.LO ≠ 0 then .i02A0 else .common .error
  | _ => .skipped

/-- The `CASE_xNF(0x50)`. -/
def decode5 (op : Opcode) : Instruction :=
  match op.N.val with
  | 0x0 => .common (.i5xy0 op.X op.Y)
  | 0x1 => .i5xy1 op.X op.Y
  | _ => .common .error

/-- The `CASE_xNF(0xE0)`. -/
def decodeE (op : Opcode) : Instruction :=
  match op.LO.toNat with
  | 0xF2 => .iExF2 op.X
  | 0xF5 => .iExF5 op.X
  | _ => .common (Common.decodeE op)

/-- The `CASE_xNF(0xF0)`. -/
def decodeF (op : Opcode) : Instruction :=
  match op.LO.toNat with
  | 0x18 => .iFx18 op.X
  | 0x29 => .iFx29 op.X
  | 0xF8 => .iFxF8 op.X
  | 0xFB => .iFxFB
  | _ => .common (Common.decodeF op)

/-- The `switch` of `instruction_loop`. -/
def decode (op : Opcode) : Instruction :=
  match op.branch.val with
  | 0x0 => decode0 op
  | 0x5 => decode5 op
  | 0xB => if op.HI = 0xBF then .common .error else .iBxyN op.X op.Y op.N
  | 0xD => .iDxyN op.X op.Y op.N
  | 0xE => decodeE op
  | 0xF => decodeF op
  | _ => .common (Common.decode op)

/-! ## Colours -/

/-- The assignment of a zone's colour to a cell of the colour map. -/
def setColor (idx : UInt32) (m : Map2D RGBA) (cell : UInt32 × UInt32) : Map2D RGBA :=
  m.set2 (cell.1 &&& 0x7).toNat (cell.2 &&& 0x1F).toNat (foreColors (Fin.ofNat 8 idx.toNat))

/-- The cells of `color_lores_zone`, row after row. -/
def loresZone (X Y : UInt32) : List (UInt32 × UInt32) :=
  (List.range ((Y >>> 4).toNat + 1)).flatMap fun pY =>
    (List.range ((X >>> 4).toNat + 1)).map fun pX =>
      (X + UInt32.ofNat pX, (Y + UInt32.ofNat pY) <<< 2)

/-- The cells of `color_hires_zone`. -/
def hiresZone (X Y : UInt32) (N : Fin 16) : List (UInt32 × UInt32) :=
  (List.range N.val).map fun pY => (X >>> 3, Y + UInt32.ofNat pY)

/-- `color_lores_zone` and `color_hires_zone`: colour the cells and set the mask. -/
def colorZone (cells : List (UInt32 × UInt32)) (idx mask : UInt32) (s : Chip8X) : Chip8X :=
  s.onOwn fun own => { own with
    coloredMap := cells.foldl (setColor idx) own.coloredMap
    colorPixelMask := mask }

def colorLoresZone (X Y idx : UInt32) : Chip8X → Chip8X := colorZone (loresZone X Y) idx 0xFC

def colorHiresZone (X Y idx : UInt32) (N : Fin 16) : Chip8X → Chip8X :=
  colorZone (hiresZone X Y N) idx 0xFF

def instructionBxyN (X Y N : Fin 16) (s : Chip8X) : Chip8X :=
  let VX := (s.registersV X).toUInt32
  let VX1 := (s.registersV (X + 1)).toUInt32
  let idx := (s.registersV Y &&& 0x7).toUInt32
  if N ≠ 0 then colorHiresZone VX VX1 idx N s else colorLoresZone VX VX1 idx s

/-- `02A0`: the next background colour, as index and as tint. -/
def instruction02A0 (s : Chip8X) : Chip8X :=
  let next := s.own.backgroundColor + 1
  (s.onOwn fun own => { own with backgroundColor := next }).onFamily fun s => { s with
    metadata := { s.metadata with textureTint := backColors next } }

/-! ## Drawing -/

/-- Rewrite the display. -/
def onDisplay (f : Map2D UInt8 → Map2D UInt8) (s : Chip8X) : Chip8X :=
  s.onOwn fun own => { own with displayMap := f own.displayMap }

/-- `trigger_interrupt(Interrupt::FRAME)`. -/
def triggerFrame (s : Chip8X) : Chip8X := s.onCpu (·.triggerInterrupt .frame true)

def instruction00E0 (s : Chip8X) : Chip8X := triggerFrame (onDisplay (·.fill 0) s)

/-- The loop over the bits of a byte, with `n` of them left. -/
def drawBits (Y : Nat) (DATA : UInt8) : Nat → Nat → Nat → Canvas → Canvas
  | 0, _, _, c => c
  | n + 1, B, X, c =>
      let c := if DATA.toNat.testBit (7 - B) then c.flip 0x8 X Y else c
      if X + 1 = screenW then c else drawBits Y DATA n (B + 1) (X + 1) c

/-- `draw_byte`. -/
def drawByte (X Y : Nat) (DATA : UInt8) (c : Canvas) : Canvas :=
  if DATA = 0b00000000 then c
  else if DATA = 0b10000000 then c.flip 0x8 X Y
  else drawBits Y DATA 8 0 X c

variable (s : Chip8X)

/-- The loop over the rows of a sprite, with `n` of them left. -/
def drawRows (pX : Nat) : Nat → Nat → Nat → Canvas → Canvas
  | 0, _, _, c => c
  | n + 1, H, pY, c =>
      let c := drawByte pX pY (s.memory.get (s.registerI + UInt32.ofNat H)) c
      if pY + 1 = screenH then c else drawRows pX n (H + 1) (pY + 1) c

/-- The `switch` of `DxyN`. -/
def drawSprite (N : Fin 16) (pX pY : Nat) (c : Canvas) : Canvas :=
  match N.val with
  | 0 => c
  | 1 => drawByte pX pY (s.memory.get s.registerI) c
  | n => drawRows s pX n 0 pY c

def instructionDxyN (X Y N : Fin 16) : Chip8X :=
  let pX := (s.registersV X).toNat &&& (screenW - 1)
  let pY := (s.registersV Y).toNat &&& (screenH - 1)
  let c := drawSprite s N pX pY ⟨s.own.displayMap, 0⟩
  triggerFrame ((onDisplay (fun _ => c.map) s).onCpu (·.setV 0xF c.VF))

/-! ## Registers and keys -/

/-- `5xy1`: a sum of two coordinate pairs. -/
def instruction5xy1 (X Y : Fin 16) (c : Cpu) : Cpu :=
  let lenX := (c.registersV X &&& (0x70 : UInt8)) + (c.registersV Y &&& (0x70 : UInt8))
  let lenY := (c.registersV X + c.registersV Y) &&& (0x7 : UInt8)
  c.setV X (lenX ||| lenY)

def instructionExF2 (X : Fin 16) (c : Cpu) : Cpu :=
  c.skipIf (c.keypad.isKeyHeldP2 (c.registersV X)) 2

def instructionExF5 (X : Fin 16) (c : Cpu) : Cpu :=
  c.skipIf (!c.keypad.isKeyHeldP2 (c.registersV X)) 2

/-! ## Executing -/

/-- What the shared handlers do here, under no quirk: the shifts work on VY, and FN55 and FN65
move I. -/
def config : Common.Config where
  skipWidth := 2
  resetVf0 := false
  resetVf1 := false
  resetVf2 := false
  resetVf3 := false
  shiftInPlace := false
  indexOffset := fun N => UInt32.ofNat (N.val + 1)

/-- `FxF8` only sets the step of a voice. -/
def execute (i : Instruction) (s : Chip8X) : Option Chip8X :=
  match i with
  | .common i => some (s.executeCommon config i)
  | .i00E0 => some (instruction00E0 s)
  | .i02A0 => some (instruction02A0 s)
  | .i5xy1 X Y => some (s.onCpu (instruction5xy1 X Y))
  | .iBxyN X Y N => some (instructionBxyN X Y N s)
  | .iDxyN X Y N => some (instructionDxyN s X Y N)
  | .iExF2 X => some (s.onCpu (instructionExF2 X))
  | .iExF5 X => some (s.onCpu (instructionExF5 X))
  | .iFx18 X => some (s.onCpu (.startVoiceAt voiceUnique (s.soundDuration X)))
  | .iFx29 X => some (s.onCpu (.instructionFx29 X))
  | .iFxF8 _ => some s
  | .iFxFB => some (triggerFrame s)
  | .skipped => some s

/-! ## Output -/

/-- The border of a background colour. -/
def borderColor (background : Fin 4) : RGBA :=
  foreColors (match background with
    | 0 => 2
    | 1 => 7
    | 2 => 4
    | 3 => 1)

/-- `push_audio_data`, as far as it is not sound. -/
def pushAudioData (_input : FrameInput) (s : Chip8X) : Chip8X :=
  if s.cachedSystemState.has EmuState.anyPause then s
  else s.onFamily (.setBorderColorIf s.anyVoice (borderColor s.own.backgroundColor))

/-- The pixels of the frame `push_video_data` publishes. -/
def videoPixel (idx : Nat) : RGBA :=
  let pixel := s.own.displayMap.at1 idx
  if pixel = 0 then backColors s.own.backgroundColor
  else
    let y := (idx / screenW) &&& s.own.colorPixelMask.toNat
    let x := (idx % screenW) >>> 3
    let color := s.own.coloredMap.at2 x y
    if s.trait.usePixelTrails then color.premul (bitWeight pixel.toNat) else color

/-- `push_video_data`, as far as it changes the core. -/
def pushVideoData (s : Chip8X) : Chip8X :=
  if s.trait.usePixelTrails then onDisplay (·.transform fadePixel) s else s

/-! ## Starting and resetting -/

/-- A constructed core. -/
def construct (launch : Launch) : Chip8X where
  toIFamily := IFamily.construct launch screenW screenH
  memory := MirroredMemory.clear
  own := {
    backgroundColor := 0x00
    colorPixelMask := 0xFC
    coloredMap := ⟨fun _ => RGBA.zero, screenW / 8, screenH⟩
    displayMap := ⟨fun _ => 0, screenW, screenH⟩ }

/-- `initialize_system`. -/
def initializeSystem (s : Chip8X) : Chip8X :=
  let s := (s.generateMemory.copyFileImageTo gameLoadPos).copyFontDataTo 80
  { s.onOwn fun own => { own with coloredMap := own.coloredMap.set2 0 0 (foreColors 2) } with
    currentPc := bootPos
    standardCpf := speedHi
    metadata := { s.metadata with
      minimumZoom := 8, innerMargin := 4
      textureTint := backColors s.own.backgroundColor, enabled := true } }

/-- A core ready to run. -/
def boot (launch : Launch) : Chip8X := initializeSystem (construct launch)

/-- `reset_system_data`: the tint stays. -/
def resetSystemData (s : Chip8X) : Chip8X :=
  let s := (s.copyFileImageTo gameLoadPos).copyFontDataTo 80
  { s.onOwn fun own => {
      displayMap := own.displayMap.fill 0
      coloredMap := (own.coloredMap.fill RGBA.zero).set2 0 0 (foreColors 2)
      backgroundColor := 0x00
      colorPixelMask := 0xFC } with
    currentPc := bootPos
    standardCpf := speedHi }

/-- The virtual functions. -/
def virtuals : Virtuals 12 Members Instruction where
  availQuirks := availQuirks
  enterLoop := fun s => s
  decode := fun _ => decode
  execute := execute
  pushAudioData := pushAudioData
  pushVideoData := pushVideoData
  resetSystemData := resetSystemData

end Chip8X

end CubeChip
