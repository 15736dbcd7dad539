import CubeChip.Systems.Chip8.Common
import CubeChip.Systems.Chip8.Draw

/-!
# `XOCHIP`

The XO-CHIP core of `cores/XOCHIP.cpp`: 64 KiB of memory, four planes drawn under a mask, a
palette of sixteen colours and a sound pattern. The pitch of the pattern only sets the step of
a voice, which is sound and not state.
-/

namespace CubeChip

/-- The members of the core beside its memory. -/
structure Xochip.Members where
  displayMap : Fin 4 → Map2D UInt8
  bitColors : Fin 16 → RGBA
  pulsePatternData : Fin 16 → UInt8
  planeMask : Fin 16

/-- An `XOCHIP`. -/
abbrev Xochip := Core 16 Xochip.Members

namespace Xochip

/-- `c_game_load_pos` and `c_sys_boot_pos`. -/
def gameLoadPos : Nat := 512

def bootPos : UInt32 := 512

/-- `c_sys_screen_W` and `c_sys_screen_H`. -/
def screenW : Nat := 128

def screenH : Nat := 64

/-- `c_sys_speed_lo`. -/
def speedLo : UInt32 := 1000

/-- `get_avail_quirks`. -/
def availQuirks : List QuirkFlag :=
  [.resetVfReg, .shiftVxReg, .noIncIReg, .awaitScroll, .wrapSprites]

/-! ## Tables -/

/-- A level of red or green in `c_color_palette`. -/
def level3 (index : UInt8) : UInt8 :=
  [0x00, 0x20, 0x40, 0x60, 0x80, 0xA0, 0xC0, 0xFF].getD index.toNat 0

/-- A level of blue. -/
def level2 (index : UInt8) : UInt8 := [0x00, 0x60, 0xA0, 0xFF].getD index.toNat 0

/-- `c_color_palette[index]`: three bits of red, three of green, two of blue, and no alpha. -/
def colorPalette (index : UInt8) : RGBA :=
  ⟨level3 (index >>> 5), level3 ((index >>> 2) &&& 0x7), level2 (index &&& 0x3), 0x00⟩

/-- `c_default_pattern_data`. -/
def defaultPatternData : Fin 16 → UInt8 := fun i => if i.val % 2 = 0 then 0x0F else 0x00

/-- `c_plane_mask[P][mask]`: the planes drawn before `P`. -/
def planesBefore (P : Fin 4) (mask : Fin 16) : UInt32 :=
  let row : List UInt32 := match P with
    | 0 => [0, 0, 0, 0, 0, 0, 0, 0, 0, 0, 0, 0, 0, 0, 0, 0]
    | 1 => [0, 1, 0, 1, 0, 1, 0, 1, 0, 1, 0, 1, 0, 1, 0, 1]
    | 2 => [0, 1, 1, 2, 0, 1, 1, 2, 0, 1, 1, 2, 0, 1, 1, 2]
    | 3 => [0, 1, 1, 2, 1, 2, 2, 3, 0, 1, 1, 2, 1, 2, 2, 3]
  row.getD mask.val 0

/-! ## Decoding -/

/-- The instructions beside the shared ones; `HI` from 01 to 0F has no case. -/
inductive Instruction where
  | common (i : Common)
  | i00CN (N : Fin 16)
  | i00DN (N : Fin 16)
  | i00E0
  | i00FB
  | i00FC
  | i00FD
  | i00FE
  | i00FF
  | i5xy2 (X Y : Fin 16)
  | i5xy3 (X Y : Fin 16)
  | i5xy4 (X Y : Fin 16)
  | iDxyN (X Y N : Fin 16)
  | iF000
  | iF002
  | iFN01 (N : Fin 16)
  | iFx18 (X : Fin 16)
  | iFx29 (X : Fin 16)
  | iFx30 (X : Fin 16)
  | iFx3A (X : Fin 16)
  | iFN75 (N : Fin 16)
  | iFN85 (N : Fin 16)
  | skipped
deriving DecidableEq, Repr

/-- The `case 0x00`. -/
def decode0 (op : Opcode) : Instruction :=
  match op.LO.toNat with
  | 0xE0 => .i00E0
  | 0xEE => .common .i00EE
  | 0xFB => .i00FB
  | 0xFC => .i00FC
  | 0xFD => .i00FD
  | 0xFE => .i00FE
  | 0xFF => .i00FF
  | LO =>
      if 0xC0 ≤ LO ∧ LO ≤ 0xCF then .i00CN op.N
      else if 0xD0 ≤ LO ∧ LO ≤ 0xDF then .i00DN op.N
      else .common .error

/-- The `CASE_xNF(0x50)`. -/
def decode5 (op : Opcode) : Instruction :=
  match op.N.val with
  | 0x0 => .common (.i5xy0 op.X op.Y)
  | 0x2 => .i5xy2 op.X op.Y
  | 0x3 => .i5xy3 op.X op.Y
  | 0x4 => .i5xy4 op.X op.Y
  | _ => .common .error

/-- The `CASE_xNF0(0xF0)`. -/
def decodeFx (op : Opcode) : Instruction :=
  match op.LO.toNat with
  | 0x01 => .iFN01 op.X
  | 0x18 => .iFx18 op.X
  | 0x29 => .iFx29 op.X
  | 0x30 => .iFx30 op.X
  | 0x3A => .iFx3A op.X
  | 0x75 => .iFN75 op.X
  | 0x85 => .iFN85 op.X
  | _ => .common (Common.decodeF op)

/-- The `case 0xF0`, which falls through but for two opcodes. -/
def decodeF (op : Opcode) : Instruction :=
  if op.HI = 0xF0 ∧ op.LO = 0x00 then .iF000
  else if op.HI = 0xF0 ∧ op.LO = 0x02 then .iF002
  else decodeFx op

/-- The `switch` of `instruction_loop`. -/
def decode (op : Opcode) : Instruction :=
  match op.branch.val with
  | 0x0 => if op.HI = 0 then decode0 op else .skipped
  | 0x5 => decode5 op
  | 0xB => .common (.iBXNN 0 op.NNN)
  | 0xD => .iDxyN op.X op.Y op.N
  | 0xE => .common (Common.decodeE op)
  | 0xF => decodeF op
  | _ => .common (Common.decode op)

/-! ## Planes -/

/-- `m_plane_mask & (1 << P)`. -/
def selects (mask : Fin 16) (P : Fin 4) : Bool := mask.val.testBit P.val

/-- Rewrite the planes of a mask. -/
def onPlanes (mask : Fin 16) (f : Map2D UInt8 → Map2D UInt8) (s : Xochip) : Xochip :=
  s.onOwn fun own => { own with
    displayMap := fun P => if selects mask P then f (own.displayMap P) else own.displayMap P }

/-- Rewrite all planes. -/
def onAllPlanes (f : Map2D UInt8 → Map2D UInt8) (s : Xochip) : Xochip :=
  s.onOwn fun own => { own with displayMap := fun P => f (own.displayMap P) }

/-- `scroll_display_up`, `scroll_display_dn`, `scroll_display_lt` and `scroll_display_rt`. -/
def scrollDisplayUp (N : Fin 16) (s : Xochip) : Xochip :=
  onPlanes s.own.planeMask (·.shift 0 (-N.val) 0) s

def scrollDisplayDn (N : Fin 16) (s : Xochip) : Xochip :=
  onPlanes s.own.planeMask (·.shift 0 N.val 0) s

def scrollDisplayLt (s : Xochip) : Xochip := onPlanes s.own.planeMask (·.shift (-4) 0 0) s

def scrollDisplayRt (s : Xochip) : Xochip := onPlanes s.own.planeMask (·.shift 4 0 0) s

def instruction00CN (N : Fin 16) (s : Xochip) : Xochip :=
  (if N ≠ 0 then scrollDisplayDn N s else s).awaitFrame .awaitScroll

def instruction00DN (N : Fin 16) (s : Xochip) : Xochip :=
  (if N ≠ 0 then scrollDisplayUp N s else s).awaitFrame .awaitScroll

def instruction00E0 (s : Xochip) : Xochip := onPlanes s.own.planeMask (·.fill 0) s

def instruction00FB (s : Xochip) : Xochip := (scrollDisplayRt s).awaitFrame .awaitScroll

def instruction00FC (s : Xochip) : Xochip := (scrollDisplayLt s).awaitFrame .awaitScroll

def instruction00FE (s : Xochip) : Xochip :=
  onAllPlanes (fun m => (m.resize (screenW / 2) (screenH / 2)).fill 0)
    (s.onFamily (.setHiresScreen false))

def instruction00FF (s : Xochip) : Xochip :=
  onAllPlanes (fun m => (m.resize screenW screenH).fill 0) (s.onFamily (.setHiresScreen true))

/-! ## Drawing -/

variable (s : Xochip)

/-- A byte of the sprite. -/
def spriteByte (offset : UInt32) : UInt8 := s.memory.get (s.registerI + offset)

/-- `draw_byte`. -/
def drawByte (X Y : Nat) (DATA : UInt8) : Canvas → Canvas :=
  Canvas.drawByte (s.hasQuirk .wrapSprites) 1 X Y DATA

/-- `draw_single_row<P>`. -/
def drawSingleRow (P : Fin 4) (pX pY : Nat) : Canvas → Canvas :=
  drawByte s pX pY (spriteByte s (planesBefore P s.own.planeMask))

/-- `draw_double_row<P>`. -/
def drawDoubleRow (P : Fin 4) (pX pY : Nat) : Canvas → Canvas :=
  let offset := planesBefore P s.own.planeMask * 32
  Canvas.drawRows (s.hasQuirk .wrapSprites)
    (fun H Y c =>
      drawByte s (pX + 8) Y (spriteByte s (offset + UInt32.ofNat (H * 2 + 1)))
        (drawByte s (pX + 0) Y (spriteByte s (offset + UInt32.ofNat (H * 2 + 0))) c)) 16 0 pY

/-- `draw_n_rows<P>`. -/
def drawNRows (P : Fin 4) (pX pY N : Nat) : Canvas → Canvas :=
  let offset := planesBefore P s.own.planeMask * UInt32.ofNat N
  Canvas.drawRows (s.hasQuirk .wrapSprites)
    (fun H Y c => drawByte s pX Y (spriteByte s (offset + UInt32.ofNat H)) c) N 0 pY

/-- The `switch` of `DxyN`, for one plane. -/
def drawPlane (N : Fin 16) (pX pY : Nat) (P : Fin 4) (c : Canvas) : Canvas :=
  match N.val with
  | 0 => drawDoubleRow s P pX pY c
  | 1 => drawSingleRow s P pX pY c
  | n => drawNRows s P pX pY n c

/-- The planes, and VF. -/
abbrev Planes := (Fin 4 → Map2D UInt8) × UInt8

/-- Draw on a plane, if it is selected. -/
def drawOn (N : Fin 16) (pX pY : Nat) (d : Planes) (P : Fin 4) : Planes :=
  if selects s.own.planeMask P then
    let c := drawPlane s N pX pY P ⟨d.1 P, d.2⟩
    (Function.update d.1 P c.map, c.VF)
  else d

def instructionDxyN (X Y N : Fin 16) : Xochip :=
  let pX := (s.registersV X).toNat &&& ((s.own.displayMap 0).width - 1)
  let pY := (s.registersV Y).toNat &&& ((s.own.displayMap 0).height - 1)
  let d := [0, 1, 2, 3].foldl (drawOn s N pX pY) (s.own.displayMap, 0)
  (s.onOwn fun own => { own with displayMap := d.1 }).onCpu (·.setV 0xF d.2)

/-! ## Registers, memory, colours and the pattern -/

/-- The registers from `X` to `Y`, upwards or downwards, each with its offset from I. -/
def registerRange (X Y : Fin 16) : List (UInt32 × Fin 16) :=
  if X < Y then
    (List.range (Y.val - X.val + 1)).map fun k => (UInt32.ofNat k, Fin.ofNat 16 (X.val + k))
  else
    (List.range (X.val - Y.val + 1)).map fun k => (UInt32.ofNat k, Fin.ofNat 16 (X.val - k))

def instruction5xy2 (X Y : Fin 16) (s : Xochip) : Xochip :=
  { s with
    memory := (registerRange X Y).foldl
      (fun m ⟨offset, i⟩ => m.set (s.registerI + offset) (s.registersV i)) s.memory }

def instruction5xy3 (X Y : Fin 16) (s : Xochip) : Xochip :=
  s.onCpu fun c => (registerRange X Y).foldl
    (fun c ⟨offset, i⟩ => c.setV i (s.memory.get (s.registerI + offset))) c

def instruction5xy4 (X Y : Fin 16) (s : Xochip) : Xochip :=
  s.onOwn fun own => { own with
    bitColors := (registerRange X Y).foldl
      (fun colors ⟨offset, i⟩ =>
        Function.update colors i (colorPalette (s.memory.get (s.registerI + offset))))
      own.bitColors }

/-- `F000`: I becomes the next word, which is skipped. -/
def instructionF000 (s : Xochip) : Xochip :=
  { s with registerI := s.NNNN, currentPc := s.currentPc + 2 }

def instructionF002 (s : Xochip) : Xochip :=
  s.onOwn fun own => { own with
    pulsePatternData := fun i => s.memory.get (s.registerI + UInt32.ofNat i.val) }

def instructionFN01 (N : Fin 16) (s : Xochip) : Xochip :=
  s.onOwn fun own => { own with planeMask := N }

/-- `get_bit_color`: a colour never loaded is the default one. -/
def getBitColor (index : Fin 16) : RGBA :=
  if (s.own.bitColors index).isSet then s.own.bitColors index else bitColor index.val

/-! ## Executing -/

/-- What the shared handlers do here; `skip_instruction` skips `F000` with its word. -/
def config : Common.Config where
  skipWidth := if s.NNNN = 0xF000 then 4 else 2
  resetVf0 := false
  resetVf1 := s.hasQuirk .resetVfReg
  resetVf2 := s.hasQuirk .resetVfReg
  resetVf3 := s.hasQuirk .resetVfReg
  shiftInPlace := s.hasQuirk .shiftVxReg
  indexOffset := fun N => if s.hasQuirk .noIncIReg then 0 else UInt32.ofNat (N.val + 1)

def execute (i : Instruction) (s : Xochip) : Option Xochip :=
  match i with
  | .common i => some (s.executeCommon (config s) i)
  | .i00CN N => some (instruction00CN N s)
  | .i00DN N => some (instruction00DN N s)
  | .i00E0 => some (instruction00E0 s)
  | .i00FB => some (instruction00FB s)
  | .i00FC => some (instruction00FC s)
  | .i00FD => some (s.onCpu .instruction00FD)
  | .i00FE => some (instruction00FE s)
  | .i00FF => some (instruction00FF s)
  | .i5xy2 X Y => some (instruction5xy2 X Y s)
  | .i5xy3 X Y => some (instruction5xy3 X Y s)
  | .i5xy4 X Y => some (instruction5xy4 X Y s)
  | .iDxyN X Y N => some (instructionDxyN s X Y N)
  | .iF000 => some (instructionF000 s)
  | .iF002 => some (instructionF002 s)
  | .iFN01 N => some (instructionFN01 N s)
  | .iFx18 X => some (s.onCpu (.startVoiceAt voiceUnique (s.soundDuration X)))
  | .iFx29 X => some (s.onCpu (.instructionFx29 X))
  | .iFx30 X => some (s.onCpu (.instructionFx30 X))
  | .iFx3A _ => some s
  | .iFN75 N => some (s.setPermaregs (N.val + 1))
  | .iFN85 N => s.getPermaregs (N.val + 1)
  | .skipped => some s

/-! ## Output -/

/-- `push_audio_data`, as far as it is not sound. -/
def pushAudioData (_input : FrameInput) (s : Xochip) : Xochip :=
  if s.cachedSystemState.has EmuState.anyPause then s
  else s.onFamily
    (.setBorderColorIf ((s.voices voiceBuzzer).get != 0) (getBitColor s 1))

/-- `merge_bit_color`: the pixel the planes make. -/
def mergeBitColor (idx : Nat) : UInt8 :=
  (s.own.displayMap 0).at1 idx <<< 0 ||| (s.own.displayMap 1).at1 idx <<< 1 |||
    (s.own.displayMap 2).at1 idx <<< 2 ||| (s.own.displayMap 3).at1 idx <<< 3

/-- The pixels of the frame `push_video_data` publishes; it changes nothing. -/
def videoPixel (pixel : Nat) : RGBA :=
  let idx := if s.trait.useHiresScreen then pixel
    else pixel / screenW / 2 * screenH + pixel % screenW / 2
  getBitColor s (Fin.ofNat 16 (mergeBitColor s idx).toNat)

/-! ## Starting and resetting -/

/-- A constructed core. -/
def construct (launch : Launch) : Xochip where
  toIFamily := IFamily.construct launch screenW screenH
  memory := MirroredMemory.clear
  own := {
    displayMap := fun _ => ⟨fun _ => 0, screenW / 2, screenH / 2⟩
    bitColors := fun _ => RGBA.zero
    pulsePatternData := defaultPatternData
    planeMask := 0x1 }

/-- `initialize_system`. -/
def initializeSystem (s : Xochip) : Xochip :=
  let s := ((s.onFamily (.addQuirk .wrapSprites)).copyFileImageTo gameLoadPos).copyFontDataTo 240
  { s with
    currentPc := bootPos
    standardCpf := speedLo
    metadata := { s.metadata with
      minimumZoom := 4, innerMargin := 4, textureTint := s.own.bitColors 0, enabled := true } }

/-- A core ready to run. -/
def boot (launch : Launch) : Xochip := initializeSystem (construct launch)

/-- `reset_system_data`: only the small font is copied again, and the traits stay. -/
def resetSystemData (s : Xochip) : Xochip :=
  let s : Xochip := { s with memory := MirroredMemory.clear }
  let s := (s.copyFileImageTo gameLoadPos).copyFontDataTo 80
  let s := onAllPlanes (fun m => (m.fill 0).resize (screenW / 2) (screenH / 2)) s
  { s.onOwn fun own => { own with
      bitColors := fun index => bitColor index.val
      planeMask := 0x1
      pulsePatternData := defaultPatternData } with
    currentPc := bootPos
    standardCpf := speedLo }

/-- The virtual functions. -/
def virtuals : Virtuals 16 Members Instruction where
  availQuirks := availQuirks
  enterLoop := fun s => s
  decode := fun _ => decode
  execute := execute
  pushAudioData := pushAudioData
  pushVideoData := fun s => s
  resetSystemData := resetSystemData

end Xochip

end CubeChip
