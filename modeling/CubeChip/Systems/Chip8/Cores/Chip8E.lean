import CubeChip.Systems.Chip8.Cores.Chip8X

/-!
# `CHIP8E`

The CHIP-8E core of `cores/CHIP8E.cpp`: 4 KiB of memory, random where there is neither program
nor font, and a 64x32 display. It is the core whose programs can wait for the delay timer.
-/

namespace CubeChip

/-- The members of the core beside its memory. -/
structure Chip8E.Members where
  displayMap : Map2D UInt8

/-- A `CHIP8E`. -/
abbrev Chip8E := Core 12 Chip8E.Members

namespace Chip8E

/-- `c_game_load_pos` and `c_sys_boot_pos`. -/
def gameLoadPos : Nat := 0x200

def bootPos : UInt32 := 0x200

/-- `c_sys_screen_W` and `c_sys_screen_H`. -/
def screenW : Nat := 64

def screenH : Nat := 32

/-- `c_sys_speed_hi`. -/
def speedHi : UInt32 := 30

/-- `get_avail_quirks` of the family. -/
def availQuirks : List QuirkFlag := []

/-! ## Decoding -/

/-- The instructions beside the shared ones; `HI` from 02 to 0F, and the branch B but for BB
and BF, have no case. -/
inductive Instruction where
  | common (i : Common)
  | i00E0
  | i00ED
  | i00F2
  | i0151
  | i0188
  | i5xy1 (X Y : Fin 16)
  | i5xy2 (X Y : Fin 16)
  | i5xy3 (X Y : Fin 16)
  | iBBNN (NN : UInt8)
  | iBFNN (NN : UInt8)
  | iDxyN (X Y N : Fin 16)
  | iFx18 (X : Fin 16)
  | iFx1B (X : Fin 16)
  | iFx1E (X : Fin 16)
  | iFx29 (X : Fin 16)
  | iFx4F (X : Fin 16)
  | iFxE3
  | iFxE7
  | skipped
deriving DecidableEq, Repr

/-- The `case 0x00` and the `case 0x01`. -/
def decode0 (op : Opcode) : Instruction :=
  match op.HI.toNat with
  | 0x00 =>
      match op.LO.toNat with
      | 0xE0 => .i00E0
      | 0xEE => .common .i00EE
      | 0xED => .i00ED
      | 0xF2 => .i00F2
      | _ => .common .error
  | 0x01 =>
      match op.LO.toNat with
      | 0x51 => .i0151
      | 0x88 => .i0188
      | _ => .common .error
  | _ => .skipped

/-- The `CASE_xNF(0x50)`. -/
def decode5 (op : Opcode) : Instruction :=
  match op.N.val with
  | 0x0 => .common (.i5xy0 op.X op.Y)
  | 0x1 => .i5xy1 op.X op.Y
  | 0x2 => .i5xy2 op.X op.Y
  | 0x3 => .i5xy3 op.X op.Y
  | _ => .common .error

/-- The `case 0xBB` and the `case 0xBF`. -/
def decodeB (op : Opcode) : Instruction :=
  match op.HI.toNat with
  | 0xBB => .iBBNN op.LO
  | 0xBF => .iBFNN op.LO
  | _ => .skipped

/-- The `CASE_xNF(0xF0)`. -/
def decodeF (op : Opcode) : Instruction :=
  match op.LO.toNat with
  | 0x18 => .iFx18 op.X
  | 0x1B => .iFx1B op.X
  | 0x1E => .iFx1E op.X
  | 0x29 => .iFx29 op.X
  | 0x4F => .iFx4F op.X
  | 0xE3 => .iFxE3
  | 0xE7 => .iFxE7
  | _ => .common (Common.decodeF op)

/-- The `switch` of `instruction_loop`. -/
def decode (op : Opcode) : Instruction :=
  match op.branch.val with
  | 0x0 => decode0 op
  | 0x5 => decode5 op
  | 0xB => decodeB op
  | 0xD => .iDxyN op.X op.Y op.N
  | 0xE => .common (Common.decodeE op)
  | 0xF => decodeF op
  | _ => .common (Common.decode op)

/-! ## Display instructions -/

/-- Rewrite the display. -/
def onDisplay (f : Map2D UInt8 → Map2D UInt8) (s : Chip8E) : Chip8E :=
  s.onOwn fun own => { own with displayMap := f own.displayMap }

/-- `trigger_interrupt(Interrupt::FRAME)`. -/
def triggerFrame (s : Chip8E) : Chip8E := s.onCpu (·.triggerInterrupt .frame true)

def instruction00E0 (s : Chip8E) : Chip8E := triggerFrame (onDisplay (·.fill 0) s)

/-- `draw_byte`, line for line the one of `CHIP8X`. -/
def drawByte (X Y : Nat) (DATA : UInt8) (c : Canvas) : Canvas := Chip8X.drawByte X Y DATA c

variable (s : Chip8E)

/-- The loop over the rows of a sprite, with `n` of them left. -/
def drawRows (pX : Nat) : Nat → Nat → Nat → Canvas → Canvas
  | 0, _, _, c => c
  | n + 1, H, pY, c =>
      let c := drawByte pX pY (s.memory.get (s.registerI + UInt32.ofNat H)) c
      if pY + 1 = screenH then c else drawRows pX n (H + 1) (pY + 1) c

/-- The `switch` of `DxyN`. -/
def drawSprite (N : Fin 16) (pX pY : Nat) (c : Canvas) : Canvas :=
  match N.val with
  | 0 => c
  | 1 => drawByte pX pY (s.memory.get s.registerI) c
  | n => drawRows s pX n 0 pY c

def instructionDxyN (X Y N : Fin 16) : Chip8E :=
  let pX := (s.registersV X).toNat &&& (screenW - 1)
  let pY := (s.registersV Y).toNat &&& (screenH - 1)
  let c := drawSprite s N pX pY ⟨s.own.displayMap, 0⟩
  triggerFrame ((onDisplay (fun _ => c.map) s).onCpu (·.setV 0xF c.VF))

/-! ## Registers and flow -/

def instruction00ED (c : Cpu) : Cpu := c.triggerInterrupt .sound true

def instruction0151 (c : Cpu) : Cpu := c.triggerInterrupt .delay true

def instruction0188 (c : Cpu) : Cpu := c.skipIf true 2

def instruction5xy1 (X Y : Fin 16) (c : Cpu) : Cpu :=
  c.skipIf (c.registersV Y < c.registersV X) 2

/-- The registers from VX up to VY, none if Y is less than X. -/
def registersBetween (X Y : Fin 16) : List (Fin 16) :=
  (List.finRange 16).filter fun Z => X ≤ Z ∧ Z ≤ Y

/-- `5xy2`: I moves along. -/
def instruction5xy2 (X Y : Fin 16) (s : Chip8E) : Chip8E :=
  (registersBetween X Y).foldl (fun s Z => { s with
    memory := s.memory.set s.registerI (s.registersV Z)
    registerI := s.registerI + 1 }) s

/-- `5xy3`: I moves along. -/
def instruction5xy3 (X Y : Fin 16) (s : Chip8E) : Chip8E :=
  (registersBetween X Y).foldl (fun s Z => { s with
    registersV := Function.update s.registersV Z (s.memory.get s.registerI)
    registerI := s.registerI + 1 }) s

def instructionBBNN (NN : UInt8) (c : Cpu) : Cpu := c.jumpProgramTo (c.currentPc - 2 - NN.toUInt32)

def instructionBFNN (NN : UInt8) (c : Cpu) : Cpu := c.jumpProgramTo (c.currentPc - 2 + NN.toUInt32)

def instructionFx1B (X : Fin 16) (c : Cpu) : Cpu :=
  { c with currentPc := c.currentPc + (c.registersV X).toUInt32 }

def instructionFx1E (X : Fin 16) (c : Cpu) : Cpu :=
  { c with registerI := (c.registerI + (c.registersV X).toUInt32) &&& 0xFFF }

def instructionFx4F (X : Fin 16) (c : Cpu) : Cpu :=
  { c with delayTimer := (c.registersV X).toUInt32 }.triggerInterrupt .delay true

/-! ## Executing -/

/-- What the shared handlers do here, under no quirk: 8xy1 to 8xy3 clear VF, the shifts work on
VY, and FN55 and FN65 move I. -/
def config : Common.Config where
  skipWidth := 2
  resetVf0 := false
  resetVf1 := true
  resetVf2 := true
  resetVf3 := true
  shiftInPlace := false
  indexOffset := fun N => UInt32.ofNat (N.val + 1)

def execute (i : Instruction) (s : Chip8E) : Option Chip8E :=
  match i with
  | .common i => some (s.executeCommon config i)
  | .i00E0 => some (instruction00E0 s)
  | .i00ED => some (s.onCpu instruction00ED)
  | .i00F2 => some s
  | .i0151 => some (s.onCpu instruction0151)
  | .i0188 => some (s.onCpu instruction0188)
  | .i5xy1 X Y => some (s.onCpu (instruction5xy1 X Y))
  | .i5xy2 X Y => some (instruction5xy2 X Y s)
  | .i5xy3 X Y => some (instruction5xy3 X Y s)
  | .iBBNN NN => some (s.onCpu (instructionBBNN NN))
  | .iBFNN NN => some (s.onCpu (instructionBFNN NN))
  | .iDxyN X Y N => some (instructionDxyN s X Y N)
  | .iFx18 X => some (s.onCpu (.startVoice (s.soundDuration X)))
  | .iFx1B X => some (s.onCpu (instructionFx1B X))
  | .iFx1E X => some (s.onCpu (instructionFx1E X))
  | .iFx29 X => some (s.onCpu (.instructionFx29 X))
  | .iFx4F X => some (s.onCpu (instructionFx4F X))
  | .iFxE3 => some (triggerFrame s)
  | .iFxE7 => some (triggerFrame s)
  | .skipped => some s

/-! ## Output -/

/-- `push_audio_data`, as far as it is not sound. -/
def pushAudioData (_input : FrameInput) (s : Chip8E) : Chip8E :=
  if s.cachedSystemState.has EmuState.anyPause then s
  else s.onFamily (.setBorderColorIf s.anyVoice (bitColor 1))

/-- The pixels of the frame `push_video_data` publishes. -/
def videoPixel (idx : Nat) : RGBA :=
  pixelColor s.trait.usePixelTrails (s.own.displayMap.at1 idx)

/-- `push_video_data`, as far as it changes the core. -/
def pushVideoData (s : Chip8E) : Chip8E :=
  if s.trait.usePixelTrails then onDisplay (·.transform fadePixel) s else s

/-! ## Starting and resetting -/

/-- A constructed core. -/
def construct (launch : Launch) : Chip8E where
  toIFamily := IFamily.construct launch screenW screenH
  memory := MirroredMemory.clear
  own := ⟨⟨fun _ => 0, screenW, screenH⟩⟩

/-- `initialize_system`. -/
def initializeSystem (s : Chip8E) : Chip8E :=
  let s := (s.generateMemory.copyFileImageTo gameLoadPos).copyFontDataTo 80
  { s with
    currentPc := bootPos
    standardCpf := speedHi
    metadata := { s.metadata with
      minimumZoom := 8, innerMargin := 4, textureTint := bitColor 0, enabled := true } }

/-- A core ready to run. -/
def boot (launch : Launch) : Chip8E := initializeSystem (construct launch)

/-- `reset_system_data`: what a program has left in memory stays. -/
def resetSystemData (s : Chip8E) : Chip8E :=
  let s := (s.copyFileImageTo gameLoadPos).copyFontDataTo 80
  { onDisplay (·.fill 0) s with
    currentPc := bootPos
    standardCpf := speedHi }

/-- The virtual functions. -/
def virtuals : Virtuals 12 Members Instruction where
  availQuirks := availQuirks
  enterLoop := fun s => s
  decode := fun _ => decode
  execute := execute
  pushAudioData := pushAudioData
  pushVideoData := pushVideoData
  resetSystemData := resetSystemData

end Chip8E

end CubeChip
