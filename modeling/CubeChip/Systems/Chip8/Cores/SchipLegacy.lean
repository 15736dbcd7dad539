import CubeChip.Systems.Chip8.Common
import CubeChip.Systems.Chip8.Draw

/-!
# `SCHIP_LEGACY`

The original SUPERCHIP of `cores/SCHIP_LEGACY.cpp`: 4 KiB of memory, random where there is
neither program nor font, and a 128x64 display whose extended mode is a flag.
-/

namespace CubeChip

/-- The members of the core beside its memory. -/
structure SchipLegacy.Members where
  displayMap : Map2D UInt8

/-- A `SCHIP_LEGACY`. -/
abbrev SchipLegacy := Core 12 SchipLegacy.Members

namespace SchipLegacy

/-- `c_game_load_pos` and `c_sys_boot_pos`. -/
def gameLoadPos : Nat := 0x200

def bootPos : UInt32 := 0x200

/-- `c_sys_screen_W` and `c_sys_screen_H`. -/
def screenW : Nat := 128

def screenH : Nat := 64

/-- `c_sys_speed_hi` and `c_sys_speed_lo`. -/
def speedHi : UInt32 := 45

def speedLo : UInt32 := 32

/-- `get_avail_quirks`. -/
def availQuirks : List QuirkFlag := [.x1IncIReg]

/-! ## Decoding -/

/-- The instructions beside the shared ones; `HI` from 01 to 0F has no case. -/
inductive Instruction where
  | common (i : Common)
  | i00CN (N : Fin 16)
  | i00E0
  | i00FB
  | i00FC
  | i00FD
  | i00FE
  | i00FF
  | iDxyN (X Y N : Fin 16)
  | iFx18 (X : Fin 16)
  | iFx29 (X : Fin 16)
  | iFx30 (X : Fin 16)
  | iFN75 (N : Fin 16)
  | iFN85 (N : Fin 16)
  | skipped
deriving DecidableEq, Repr

/-- The `case 0x00`. -/
def decode0 (op : Opcode) : Instruction :=
  match op.LO.toNat with
  | 0xE0 => .i00E0
  | 0xEE => .common .i00EE
  | 0xFB => .i00FB
  | 0xFC => .i00FC
  | 0xFD => .i00FD
  | 0xFE => .i00FE
  | 0xFF => .i00FF
  | LO => if 0xC1 ≤ LO ∧ LO ≤ 0xCF then .i00CN op.N else .common .error

/-- The `CASE_xNF(0xF0)`. -/
def decodeF (op : Opcode) : Instruction :=
  match op.LO.toNat with
  | 0x18 => .iFx18 op.X
  | 0x29 => .iFx29 op.X
  | 0x30 => .iFx30 op.X
  | 0x75 => .iFN75 op.X
  | 0x85 => .iFN85 op.X
  | _ => .common (Common.decodeF op)

/-- The `switch` of `instruction_loop`. -/
def decode (op : Opcode) : Instruction :=
  match op.branch.val with
  | 0x0 => if op.HI = 0 then decode0 op else .skipped
  | 0x5 => .common (Common.decode5 op)
  | 0xB => .common (.iBXNN op.X op.NNN)
  | 0xD => .iDxyN op.X op.Y op.N
  | 0xE => .common (Common.decodeE op)
  | 0xF => decodeF op
  | _ => .common (Common.decode op)

/-! ## Display instructions -/

/-- Rewrite the display. -/
def onDisplay (f : Map2D UInt8 → Map2D UInt8) (s : SchipLegacy) : SchipLegacy :=
  s.onOwn fun own => { own with displayMap := f own.displayMap }

/-- `trigger_interrupt(Interrupt::FRAME)`. -/
def triggerFrame (s : SchipLegacy) : SchipLegacy := s.onCpu (·.triggerInterrupt .frame true)

/-- `00CN`, by `scroll_display_dn`. -/
def instruction00CN (N : Fin 16) : SchipLegacy → SchipLegacy := onDisplay (·.shift 0 N.val 0)

def instruction00E0 (s : SchipLegacy) : SchipLegacy := triggerFrame (onDisplay (·.fill 0) s)

/-- `00FB`, by `scroll_display_rt`. -/
def instruction00FB : SchipLegacy → SchipLegacy := onDisplay (·.shift 4 0 0)

/-- `00FC`, by `scroll_display_lt`. -/
def instruction00FC : SchipLegacy → SchipLegacy := onDisplay (·.shift (-4) 0 0)

def instruction00FE (s : SchipLegacy) : SchipLegacy :=
  triggerFrame (s.onFamily fun s => (s.setHiresScreen false).addQuirk .awaitVblank)

def instruction00FF (s : SchipLegacy) : SchipLegacy :=
  triggerFrame (s.onFamily fun s => (s.setHiresScreen true).subQuirk .awaitVblank)

variable (s : SchipLegacy)

/-- A byte of the sprite. -/
def spriteByte (offset : Nat) : UInt8 := s.memory.get (s.registerI + UInt32.ofNat offset)

/-- What `DxyN` draws: in extended mode VF counts the rows that collided. -/
def drawSprite (X Y N : Fin 16) : Map2D UInt8 × UInt8 :=
  if s.trait.useHiresScreen then
    let d := RowDraw.drawHires screenW screenH (spriteByte s) (s.registersV X) (s.registersV Y)
      N s.own.displayMap
    (d.map, UInt8.ofNat d.collided)
  else
    let d := RowDraw.drawLores screenW screenH (spriteByte s) (s.registersV X) (s.registersV Y)
      N s.own.displayMap
    (d.map, if d.collided ≠ 0 then 1 else 0)

def instructionDxyN (X Y N : Fin 16) : SchipLegacy :=
  let (map, VF) := drawSprite s X Y N
  ((onDisplay (fun _ => map) s).onCpu (·.setV 0xF VF)).awaitFrame .awaitVblank

/-! ## Executing -/

/-- What the shared handlers do here: shifts on VX alone, and I moves only under a quirk. -/
def config : Common.Config where
  skipWidth := 2
  resetVf0 := false
  resetVf1 := false
  resetVf2 := false
  resetVf3 := false
  shiftInPlace := true
  indexOffset := fun N => if s.hasQuirk .x1IncIReg then UInt32.ofNat N.val else 0

def execute (i : Instruction) (s : SchipLegacy) : Option SchipLegacy :=
  match i with
  | .common i => some (s.executeCommon (config s) i)
  | .i00CN N => some (instruction00CN N s)
  | .i00E0 => some (instruction00E0 s)
  | .i00FB => some (instruction00FB s)
  | .i00FC => some (instruction00FC s)
  | .i00FD => some (s.onCpu .instruction00FD)
  | .i00FE => some (instruction00FE s)
  | .i00FF => some (instruction00FF s)
  | .iDxyN X Y N => some (instructionDxyN s X Y N)
  | .iFx18 X => some (s.onCpu (.startVoice (s.soundDuration X)))
  | .iFx29 X => some (s.onCpu (.instructionFx29 X))
  | .iFx30 X => some (s.onCpu (.instructionFx30 X))
  | .iFN75 N => some (s.setPermaregs (min N.val 7 + 1))
  | .iFN85 N => s.getPermaregs (min N.val 7 + 1)
  | .skipped => some s

/-- The start of `instruction_loop`: the speed follows the quirk cached for the frame. -/
def enterLoop (s : SchipLegacy) : SchipLegacy :=
  { s with standardCpf := if s.hasQuirk .awaitVblank then speedHi else speedLo }

/-! ## Output -/

/-- `push_audio_data`, as far as it is not sound. -/
def pushAudioData (_input : FrameInput) (s : SchipLegacy) : SchipLegacy :=
  if s.cachedSystemState.has EmuState.anyPause then s
  else s.onFamily (.setBorderColorIf s.anyVoice (bitColor 1))

/-- The pixels of the frame `push_video_data` publishes. -/
def videoPixel (pixel : Nat) : RGBA :=
  pixelColor s.trait.usePixelTrails (s.own.displayMap.at1 pixel)

/-- `push_video_data`, as far as it changes the core. -/
def pushVideoData (s : SchipLegacy) : SchipLegacy :=
  if s.trait.usePixelTrails then onDisplay (·.transform fadePixel) s else s

/-! ## Starting and resetting -/

/-- A constructed core. -/
def construct (launch : Launch) : SchipLegacy where
  toIFamily := IFamily.construct launch screenW screenH
  memory := MirroredMemory.clear
  own := ⟨⟨fun _ => 0, screenW, screenH⟩⟩

/-- `initialize_system`. -/
def initializeSystem (s : SchipLegacy) : SchipLegacy :=
  let s : SchipLegacy := (s.generateMemory.copyFileImageTo gameLoadPos).copyFontDataTo 180
  { s.onFamily (.addQuirk .awaitVblank) with
    currentPc := bootPos
    standardCpf := speedHi
    metadata := { s.metadata with
      minimumZoom := 4, innerMargin := 4, textureTint := bitColor 0, enabled := true } }

/-- A core ready to run. -/
def boot (launch : Launch) : SchipLegacy := initializeSystem (construct launch)

/-- `reset_system_data`: neither the traits nor the quirks. -/
def resetSystemData (s : SchipLegacy) : SchipLegacy :=
  let s := (s.copyFileImageTo gameLoadPos).copyFontDataTo 180
  { onDisplay (·.fill 0) s with
    currentPc := bootPos
    standardCpf := speedHi }

/-- The virtual functions. -/
def virtuals : Virtuals 12 Members Instruction where
  availQuirks := availQuirks
  enterLoop := enterLoop
  decode := fun _ => decode
  execute := execute
  pushAudioData := pushAudioData
  pushVideoData := pushVideoData
  resetSystemData := resetSystemData

end SchipLegacy

end CubeChip
