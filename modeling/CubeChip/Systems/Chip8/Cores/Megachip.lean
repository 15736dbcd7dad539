import CubeChip.Systems.Chip8.Common
import CubeChip.Systems.Chip8.Draw

/-!
# `MEGACHIP`

The MegaChip core of `cores/MEGACHIP.cpp`: 16 MiB of memory, a 128x64 display for the two old
resolutions, and in mega mode 256x192 buffers that textures are blended into under a palette,
beside an audio track in memory.

Some accesses of the source leave their array: reads behind the memory and behind the font
colours, where anything may be found (`Unset`), and drawing under the last row of a buffer,
which shows in no map.
-/

namespace CubeChip

namespace Megachip

/-- `Resolution`: low, high and mega. -/
inductive Resolution where
  | LO
  | HI
  | MC
deriving DecidableEq, Repr

/-- `BlendMode`. -/
inductive BlendMode where
  | alphaBlend
  | linearDodge
  | multiply
deriving DecidableEq, Repr

/-- `Texture`: its size, the index that collides, its opacity, and the last font sprite. -/
structure Texture where
  w : UInt32
  h : UInt32
  collide : UInt32
  opacity : UInt32
  fontPos : UInt32
deriving DecidableEq, Repr

/-- `Texture::reset`. -/
def Texture.reset : Texture := ⟨0, 0, 0xFF, 0xFF, 0⟩

/-- `TrackData`: where in memory the track is, if there is one. -/
structure TrackData where
  data : Option Nat
  size : UInt32
  loop : Bool
deriving DecidableEq, Repr

/-- `TrackData::reset`. -/
def TrackData.reset : TrackData := ⟨none, 0, false⟩

/-- What the language leaves open: the collision buffer before it is cleared, and what lies
behind the memory and behind the ten font colours. -/
structure Unset where
  collision : Nat → UInt8
  behindMemory : Nat → UInt8
  behindFontColors : Nat → RGBA

/-- Nothing but zeros. -/
def Unset.zero : Unset := ⟨fun _ => 0, fun _ => 0, fun _ => RGBA.zero⟩

/-- The members of the core beside its memory. -/
structure Members where
  displayMap : Map2D UInt8
  oldRenderMap : Map2D RGBA
  backgroundMap : Map2D RGBA
  collisionMap : Map2D UInt8
  colorPalette : UInt8 → RGBA
  fontColors : Fin 10 → RGBA
  texture : Texture
  blendMode : BlendMode
  track : TrackData
  unset : Unset

end Megachip

/-- A `MEGACHIP`. -/
abbrev Megachip := Core 24 Megachip.Members

namespace Megachip

/-- `c_game_load_pos` and `c_sys_boot_pos`. -/
def gameLoadPos : Nat := 0x200

def bootPos : UInt32 := 0x200

/-- `c_sys_screen_W` and `c_sys_screen_H`. -/
def screenW : Nat := 256

def screenH : Nat := 192

/-- `c_sys_speed_hi` and `c_sys_speed_lo`. -/
def speedHi : UInt32 := 45

def speedLo : UInt32 := 32

/-- `get_avail_quirks`. -/
def availQuirks : List QuirkFlag := [.wrapSprites]

/-! ## Decoding -/

/-- The instructions beside the shared ones. -/
inductive Instruction where
  | common (i : Common)
  | i00BN (N : Fin 16)
  | i00CN (N : Fin 16)
  | i00E0
  | i00FB
  | i00FC
  | i00FD
  | i00FE
  | i00FF
  | i0010
  | i0011
  | i01NN (NN : UInt8)
  | i02NN (NN : UInt8)
  | i03NN (NN : UInt8)
  | i04NN (NN : UInt8)
  | i05NN (NN : UInt8)
  | i060N (N : Fin 16)
  | i0700
  | i080N (N : Fin 16)
  | i09NN (NN : UInt8)
  | iDxyN (X Y N : Fin 16)
  | iFx18 (X : Fin 16)
  | iFx29 (X : Fin 16)
  | iFx30 (X : Fin 16)
  | iFN75 (N : Fin 16)
  | iFN85 (N : Fin 16)
deriving DecidableEq, Repr

/-- The `switch (_X)` of mega mode. -/
def decodeMegaX (op : Opcode) : Instruction :=
  match op.X.val with
  | 0x1 => .i01NN op.LO
  | 0x2 => .i02NN op.LO
  | 0x3 => .i03NN op.LO
  | 0x4 => .i04NN op.LO
  | 0x5 => .i05NN op.LO
  | 0x9 => .i09NN op.LO
  | _ => .common .error

/-- The `CASE_xNF(0x00)` in mega mode. -/
def decodeMega (op : Opcode) : Instruction :=
  match op.NNN.toNat with
  | 0x0010 => .i0010
  | 0x0700 => .i0700
  | 0x00E0 => .i00E0
  | 0x00EE => .common .i00EE
  | 0x00FB => .i00FB
  | 0x00FC => .i00FC
  | 0x00FD => .i00FD
  | NNN =>
      if 0x0600 ≤ NNN ∧ NNN ≤ 0x060F then .i060N op.N
      else if 0x0800 ≤ NNN ∧ NNN ≤ 0x080F then .i080N op.N
      else if 0x00B0 ≤ NNN ∧ NNN ≤ 0x00BF then .i00BN op.N
      else if 0x00C0 ≤ NNN ∧ NNN ≤ 0x00CF then .i00CN op.N
      else decodeMegaX op

/-- The `CASE_xNF(0x00)` in the old resolutions. -/
def decode0 (op : Opcode) : Instruction :=
  if op.X ≠ 0 then .common .error
  else
    match op.LO.toNat with
    | 0x11 => .i0011
    | 0xE0 => .i00E0
    | 0xEE => .common .i00EE
    | 0xFB => .i00FB
    | 0xFC => .i00FC
    | 0xFD => .i00FD
    | 0xFE => .i00FE
    | 0xFF => .i00FF
    | LO =>
        if 0xB1 ≤ LO ∧ LO ≤ 0xBF then .i00BN op.N
        else if 0xC1 ≤ LO ∧ LO ≤ 0xCF then .i00CN op.N
        else .common .error

/-- The `CASE_xNF(0xF0)`. -/
def decodeF (op : Opcode) : Instruction :=
  match op.LO.toNat with
  | 0x18 => .iFx18 op.X
  | 0x29 => .iFx29 op.X
  | 0x30 => .iFx30 op.X
  | 0x75 => .iFN75 op.X
  | 0x85 => .iFN85 op.X
  | _ => .common (Common.decodeF op)

/-- The `switch` of `instruction_loop`. -/
def decode (s : Megachip) (op : Opcode) : Instruction :=
  match op.branch.val with
  | 0x0 => if s.trait.useManualVsync then decodeMega op else decode0 op
  | 0x5 => .common (Common.decode5 op)
  | 0xB => .common (.iBXNN op.X op.NNN)
  | 0xD => .iDxyN op.X op.Y op.N
  | 0xE => .common (Common.decodeE op)
  | 0xF => decodeF op
  | _ => .common (Common.decode op)

/-! ## Display properties and buffers -/

/-- `set_display_properties`. -/
def setDisplayProperties (mode : Resolution) (s : Megachip) : Megachip :=
  s.onFamily fun s =>
    let s := s.setManualVsync (mode = .MC)
    match mode with
    | .MC =>
        { s.subQuirk .awaitVblank with
          metadata := { s.metadata.setViewport screenW screenH with textureTint := RGBA.black }
          standardCpf := speedLo * 100 }
    | .LO =>
        { (s.setHiresScreen false).addQuirk .awaitVblank with
          metadata :=
            { s.metadata.setViewport screenW (screenW / 2 : Nat) with textureTint := bitColor 0 }
          standardCpf := speedHi }
    | .HI =>
        { (s.setHiresScreen true).subQuirk .awaitVblank with
          metadata :=
            { s.metadata.setViewport screenW (screenW / 2 : Nat) with textureTint := bitColor 0 }
          standardCpf := speedLo }

/-- `init_font_sprite_colors`. -/
def initFontSpriteColors (s : Megachip) : Megachip :=
  s.onOwn fun own => { own with
    fontColors := fun i =>
      let mult := UInt8.ofNat (255 - 11 * i.val)
      ⟨fixedScale8 mult 264, fixedScale8 mult 291, fixedScale8 mult 309, 0xFF⟩ }

/-- `set_blend_callable`. -/
def setBlendCallable (mode : Nat) (s : Megachip) : Megachip :=
  s.onOwn fun own => { own with
    blendMode := match mode with
      | 4 => .linearDodge
      | 5 => .multiply
      | _ => .alphaBlend }

/-- `scrap_all_video_buffers`. -/
def scrapAllVideoBuffers (s : Megachip) : Megachip :=
  s.onOwn fun own => { own with
    oldRenderMap := own.oldRenderMap.fill RGBA.zero
    backgroundMap := own.backgroundMap.fill RGBA.zero
    collisionMap := own.collisionMap.fill 0 }

/-- `flush_all_video_buffers`, as far as it changes the core. -/
def flushAllVideoBuffers (andAdvance : Bool) (s : Megachip) : Megachip :=
  if andAdvance then
    s.onOwn fun own => { own with
      oldRenderMap := { own.oldRenderMap with
        data := fun i => if i < own.backgroundMap.size then own.backgroundMap.data i
          else own.oldRenderMap.data i }
      backgroundMap := own.backgroundMap.fill RGBA.zero
      collisionMap := own.collisionMap.fill 0 }
  else s

/-- Rewrite the 128x64 display. -/
def onDisplay (f : Map2D UInt8 → Map2D UInt8) (s : Megachip) : Megachip :=
  s.onOwn fun own => { own with displayMap := f own.displayMap }

/-- `scroll_display_up`, `_dn`, `_lt` and `_rt`, which move the display, or in mega mode
`scroll_buffers_up`, `_dn`, `_lt` and `_rt`, which move the last frame shown. -/
def scroll (cols rows : Int) (s : Megachip) : Megachip :=
  if s.trait.useManualVsync then
    flushAllVideoBuffers false
      (s.onOwn fun own => { own with oldRenderMap := own.oldRenderMap.shift cols rows RGBA.zero })
  else onDisplay (·.shift cols rows 0) s

def instruction00BN (N : Fin 16) : Megachip → Megachip := scroll 0 (-N.val)

def instruction00CN (N : Fin 16) : Megachip → Megachip := scroll 0 N.val

def instruction00FB : Megachip → Megachip := scroll 4 0

def instruction00FC : Megachip → Megachip := scroll (-4) 0

/-- `trigger_interrupt(Interrupt::FRAME)`. -/
def triggerFrame (s : Megachip) : Megachip := s.onCpu (·.triggerInterrupt .frame true)

def instruction00E0 (s : Megachip) : Megachip :=
  triggerFrame (if s.trait.useManualVsync then flushAllVideoBuffers true s
    else onDisplay (·.fill 0) s)

def instruction00FE (s : Megachip) : Megachip := triggerFrame (setDisplayProperties .LO s)

def instruction00FF (s : Megachip) : Megachip := triggerFrame (setDisplayProperties .HI s)

def instruction0010 (s : Megachip) : Megachip :=
  triggerFrame (scrapAllVideoBuffers (setDisplayProperties .LO s))

def instruction0011 (s : Megachip) : Megachip :=
  triggerFrame ((scrapAllVideoBuffers (setBlendCallable 0 (setDisplayProperties .MC s))).onOwn
    fun own => { own with texture := Texture.reset, track := TrackData.reset })

/-! ## Memory behind a pointer, palette, texture and track -/

variable (s : Megachip)

/-- `(&m_memory[index])[offset]`: the index is masked, the offset is not. -/
def byteBehind (index : UInt32) (offset : Nat) : UInt8 :=
  let address := (MirroredMemory.mask 24 index).toNat + offset
  if address < 2 ^ 24 then s.memory.mem (BitVec.ofNat 24 address)
  else s.own.unset.behindMemory (address - 2 ^ 24)

/-- `01NN`: I becomes `NN` and the next word, which is skipped. -/
def instruction01NN (NN : UInt8) (s : Megachip) : Megachip :=
  { s with registerI := (NN.toUInt32 <<< 16) ||| s.NNNN, currentPc := s.currentPc + 2 }

/-- `02NN`: the colours 1 to `NN`, stored with the alpha first. -/
def instruction02NN (NN : UInt8) (s : Megachip) : Megachip :=
  s.onOwn fun own => { own with
    colorPalette := (List.range NN.toNat).foldl (fun palette pos =>
      Function.update palette (UInt8.ofNat (pos + 1))
        ⟨byteBehind s s.registerI (4 * pos + 1), byteBehind s s.registerI (4 * pos + 2),
          byteBehind s s.registerI (4 * pos + 3), byteBehind s s.registerI (4 * pos)⟩)
      own.colorPalette }

/-- Rewrite the texture. -/
def onTexture (f : Texture → Texture) (s : Megachip) : Megachip :=
  s.onOwn fun own => { own with texture := f own.texture }

/-- The size `03NN` and `04NN` set. -/
def textureSize (NN : UInt8) : UInt32 := if NN ≠ 0 then NN.toUInt32 else 256

def instruction03NN (NN : UInt8) : Megachip → Megachip :=
  onTexture fun t => { t with w := textureSize NN }

def instruction04NN (NN : UInt8) : Megachip → Megachip :=
  onTexture fun t => { t with h := textureSize NN }

def instruction05NN (NN : UInt8) (s : Megachip) : Megachip :=
  s.onFamily fun s => { s with
    metadata := { s.metadata with textureTint := { s.metadata.textureTint with A := NN } } }

/-- `start_audio_track`; phase and step of the voice are sound. -/
def startAudioTrack (loop : Bool) (s : Megachip) : Megachip :=
  if s.audioDevice then
    let data := (MirroredMemory.mask 24 s.registerI).toNat + 6
    let size := ((byteBehind s s.registerI 2).toUInt32 <<< 16) |||
      ((byteBehind s s.registerI 3).toUInt32 <<< 8) ||| (byteBehind s s.registerI 4).toUInt32
    s.onOwn fun own => { own with
      track := if size = 0 ∨ 2 ^ 24 - 1 < data + size.toNat then TrackData.reset
        else ⟨some data, size, loop⟩ }
  else s

def instruction060N (N : Fin 16) : Megachip → Megachip := startAudioTrack (N = 0)

def instruction0700 (s : Megachip) : Megachip :=
  s.onOwn fun own => { own with track := TrackData.reset }

/-- `080N`: an opacity for `N` up to 3, and the blend mode. -/
def instruction080N (N : Fin 16) (s : Megachip) : Megachip :=
  setBlendCallable N.val (onTexture (fun t => { t with
    opacity := match N.val with
      | 1 => 0x3F
      | 2 => 0x7F
      | 3 => 0xBF
      | _ => 0xFF }) s)

def instruction09NN (NN : UInt8) : Megachip → Megachip :=
  onTexture fun t => { t with collide := NN.toUInt32 }

/-! ## Drawing in mega mode -/

/-- What `draw_texture` draws on, and VF. -/
structure Paint where
  backgroundMap : Map2D RGBA
  collisionMap : Map2D UInt8
  VF : UInt8

/-- The `impl` of a blend mode. -/
def BlendMode.impl : BlendMode → UInt8 → UInt8 → UInt8
  | .alphaBlend => RGBA.blendNone
  | .linearDodge => RGBA.blendLinearDodge
  | .multiply => RGBA.blendMultiply

/-- A pixel of the texture; index 0 is transparent. -/
def paintPixel (x y : Nat) (colorIdx : UInt8) (p : Paint) : Paint :=
  if colorIdx ≠ 0 then
    { VF := if (p.collisionMap.at2 x y).toUInt32 = s.own.texture.collide then 1 else p.VF
      collisionMap := p.collisionMap.set2 x y colorIdx
      backgroundMap := p.backgroundMap.set2 x y
        (RGBA.compositeBlend s.own.blendMode.impl (s.own.colorPalette colorIdx)
          (p.backgroundMap.at2 x y) s.own.texture.opacity.toUInt8) }
  else p

/-- The loop over the columns of a row, with `n` of them left. -/
def paintRow (wrap : Bool) (data : Nat → UInt8) (y : Nat) : Nat → Nat → Nat → Paint → Paint
  | 0, _, _, p => p
  | n + 1, col, x, p =>
      let p := paintPixel s x y (data col) p
      if wrap then paintRow wrap data y n (col + 1) ((x + 1) &&& (screenW - 1)) p
      else if x + 1 = screenW then p
      else paintRow wrap data y n (col + 1) (x + 1) p

/-- The loop over the rows of a texture; a wrapping one passes the rows under the screen. -/
def paintRows (wrap : Bool) (xBegin : Nat) : Nat → Nat → Nat → Paint → Paint
  | 0, _, _, p => p
  | n + 1, row, y, p =>
      if wrap && screenH ≤ y then
        paintRows wrap xBegin n (row + 1) ((y + 1) &&& (screenW - 1)) p
      else
        let p := paintRow s wrap
          (byteBehind s (s.registerI + UInt32.ofNat row * s.own.texture.w)) y
          s.own.texture.w.toNat 0 xBegin p
        if wrap then paintRows wrap xBegin n (row + 1) ((y + 1) &&& (screenW - 1)) p
        else if y + 1 = screenH then p
        else paintRows wrap xBegin n (row + 1) (y + 1) p

/-- `draw_texture`: a texture that ends behind the memory is given up. -/
def drawTexture (xBegin yBegin : Nat) : Megachip :=
  if 2 ^ 24 ≤ (s.registerI + s.own.texture.w * s.own.texture.h).toNat then
    onTexture (fun _ => Texture.reset) s
  else
    let p := paintRows s (s.hasQuirk .wrapSprites) xBegin s.own.texture.h.toNat 0 yBegin
      ⟨s.own.backgroundMap, s.own.collisionMap, s.registersV 0xF⟩
    (s.onOwn fun own => { own with
      backgroundMap := p.backgroundMap, collisionMap := p.collisionMap }).onCpu (·.setV 0xF p.VF)

/-- `m_font_colors[row]`. -/
def fontColor (row : Nat) : RGBA :=
  if h : row < 10 then s.own.fontColors ⟨row, h⟩ else s.own.unset.behindFontColors (row - 10)

/-- The loop over the columns of a font sprite. -/
def fontRow (wrap : Bool) (pixelData : UInt8) (color : RGBA) (y : Nat) :
    Nat → Nat → Nat → Map2D RGBA → Map2D RGBA
  | 0, _, _, m => m
  | n + 1, col, x, m =>
      let m := if pixelData.toNat.testBit (7 - col) then m.set2 x y color else m
      if !wrap && x == screenW - 1 then m
      else fontRow wrap pixelData color y n (col + 1) ((x + 1) &&& (screenW - 1)) m

/-- The loop over the rows of a font sprite; a wrapping one stays under the screen for good. -/
def fontRows (wrap : Bool) (xBegin : Nat) : Nat → Nat → Nat → Map2D RGBA → Map2D RGBA
  | 0, _, _, m => m
  | n + 1, row, y, m =>
      if wrap && screenH ≤ y then fontRows wrap xBegin n (row + 1) y m
      else
        let m := fontRow wrap (s.memory.get (s.registerI + UInt32.ofNat row)) (fontColor s row) y
          8 0 xBegin m
        if !wrap && y == screenW - 1 then m
        else fontRows wrap xBegin n (row + 1) ((y + 1) &&& (screenW - 1)) m

/-- `DxyN` in mega mode: nothing, a font sprite, or a texture. -/
def drawMega (X Y N : Fin 16) : Megachip :=
  let xBegin := (s.registersV X).toNat
  let yBegin := (s.registersV Y).toNat
  let s := s.onCpu (·.setV 0xF 0)
  if !s.hasQuirk .wrapSprites && screenH ≤ yBegin then s
  else if s.own.texture.fontPos = s.registerI then
    s.onOwn fun own => { own with
      backgroundMap :=
        fontRows s (s.hasQuirk .wrapSprites) xBegin N.val 0 yBegin own.backgroundMap }
  else (drawTexture s xBegin yBegin).awaitFrame .awaitVblank

/-! ## Drawing in the old resolutions -/

/-- A byte of the sprite. -/
def spriteByte (offset : Nat) : UInt8 := s.memory.get (s.registerI + UInt32.ofNat offset)

/-- What `DxyN` draws on the 128x64 display; `draw_single_byte` takes it to be 256 wide. -/
def drawSprite (X Y N : Fin 16) : Map2D UInt8 × UInt8 :=
  if s.trait.useHiresScreen then
    let d := RowDraw.drawHires screenW (screenH / 3) (spriteByte s) (s.registersV X)
      (s.registersV Y) N s.own.displayMap
    (d.map, UInt8.ofNat d.collided)
  else
    let d := RowDraw.drawLores (screenW / 2) (screenH / 3) (spriteByte s) (s.registersV X)
      (s.registersV Y) N s.own.displayMap
    (d.map, if d.collided ≠ 0 then 1 else 0)

def instructionDxyN (X Y N : Fin 16) : Megachip :=
  if s.trait.useManualVsync then drawMega s X Y N
  else
    let (map, VF) := drawSprite s X Y N
    ((onDisplay (fun _ => map) s).onCpu (·.setV 0xF VF)).awaitFrame .awaitVblank

/-! ## Executing -/

/-- Fx29 and Fx30, which also note the sprite as a font sprite. -/
def loadFont (instruction : Cpu → Cpu) (s : Megachip) : Megachip :=
  onTexture (fun t => { t with fontPos := (instruction s.toCpu).registerI }) (s.onCpu instruction)

/-- What the shared handlers do here; `skip_instruction` skips 01NN with its word. -/
def config : Common.Config where
  skipWidth := if s.memory.get s.currentPc = 0x01 then 4 else 2
  resetVf0 := false
  resetVf1 := false
  resetVf2 := false
  resetVf3 := false
  shiftInPlace := true
  indexOffset := fun _ => 0

def execute (i : Instruction) (s : Megachip) : Option Megachip :=
  match i with
  | .common i => some (s.executeCommon (config s) i)
  | .i00BN N => some (instruction00BN N s)
  | .i00CN N => some (instruction00CN N s)
  | .i00E0 => some (instruction00E0 s)
  | .i00FB => some (instruction00FB s)
  | .i00FC => some (instruction00FC s)
  | .i00FD => some (s.onCpu .instruction00FD)
  | .i00FE => some (instruction00FE s)
  | .i00FF => some (instruction00FF s)
  | .i0010 => some (instruction0010 s)
  | .i0011 => some (instruction0011 s)
  | .i01NN NN => some (instruction01NN NN s)
  | .i02NN NN => some (instruction02NN NN s)
  | .i03NN NN => some (instruction03NN NN s)
  | .i04NN NN => some (instruction04NN NN s)
  | .i05NN NN => some (instruction05NN NN s)
  | .i060N N => some (instruction060N N s)
  | .i0700 => some (instruction0700 s)
  | .i080N N => some (instruction080N N s)
  | .i09NN NN => some (instruction09NN NN s)
  | .iDxyN X Y N => some (instructionDxyN s X Y N)
  | .iFx18 X => some (s.onCpu (.startVoiceAt voiceBuzzer (s.soundDuration X)))
  | .iFx29 X => some (loadFont (.instructionFx29 X) s)
  | .iFx30 X => some (loadFont (.instructionFx30 X) s)
  | .iFN75 N => some (s.setPermaregs (min N.val 7 + 1))
  | .iFN85 N => s.getPermaregs (min N.val 7 + 1)

/-! ## Output -/

/-- `make_stream_wave`, as far as it is not sound: a track that does not repeat is dropped at
its end. -/
def makeStreamWave (input : FrameInput) (s : Megachip) : Megachip :=
  if s.own.track.data.isSome && !s.own.track.loop && input.streamEnded then
    s.onOwn fun own => { own with track := TrackData.reset }
  else s

/-- `mix_audio_data`, as far as it is not sound: in a pause no generator runs. -/
def mixAudioData (generators : Megachip → Megachip) (s : Megachip) : Megachip :=
  if s.audioDevice && !s.cachedSystemState.has EmuState.anyPause then generators s else s

/-- `push_audio_data`, as far as it is not sound. -/
def pushAudioData (input : FrameInput) (s : Megachip) : Megachip :=
  if s.trait.useManualVsync then
    let s := mixAudioData (makeStreamWave input) s
    if s.cachedSystemState.has EmuState.anyPause then s
    else s.onFamily (.setBorderColorIf ((s.voices voiceBuzzer).get != 0) (bitColor 1))
  else if s.cachedSystemState.has EmuState.anyPause then s
  else s.onFamily (.setBorderColorIf s.anyVoice (bitColor 1))

/-- Four cells of the background for each one of the display. -/
def showDisplay (s : Megachip) : Megachip :=
  s.onOwn fun own => { own with
    backgroundMap := { own.backgroundMap with
      data := (List.range own.displayMap.size).foldl (fun data i =>
        let color := pixelColor s.trait.usePixelTrails (own.displayMap.at1 i)
        let x := i % (screenW / 2) * 2
        let y := i / (screenW / 2) * 2
        let at2 := fun x y => own.backgroundMap.offset x y
        Function.update (Function.update (Function.update (Function.update data
          (at2 (x + 0) (y + 0)) color) (at2 (x + 1) (y + 0)) color)
          (at2 (x + 0) (y + 1)) color) (at2 (x + 1) (y + 1)) color) own.backgroundMap.data } }

/-- `push_video_data`, as far as it changes the core. -/
def pushVideoData (s : Megachip) : Megachip :=
  if s.trait.useManualVsync then
    if s.interrupt = .input then flushAllVideoBuffers false s else s
  else flushAllVideoBuffers false (showDisplay s)

/-! ## Starting and resetting -/

/-- A constructed core. -/
def construct (launch : Launch) (unset : Unset) : Megachip where
  toIFamily := IFamily.construct launch screenW screenH
  memory := MirroredMemory.clear
  own := {
    displayMap := ⟨fun _ => 0, screenW / 2, screenH / 3⟩
    oldRenderMap := ⟨fun _ => RGBA.zero, screenW, screenH⟩
    backgroundMap := ⟨fun _ => RGBA.zero, screenW, screenH⟩
    collisionMap := ⟨unset.collision, screenW, screenH⟩
    colorPalette := fun _ => RGBA.zero
    fontColors := fun _ => RGBA.zero
    texture := Texture.reset
    blendMode := .alphaBlend
    track := TrackData.reset
    unset := unset }

/-- `initialize_system`. -/
def initializeSystem (s : Megachip) : Megachip :=
  let s : Megachip := { (s.copyFileImageTo gameLoadPos).copyFontDataTo 180 with
    currentPc := bootPos }
  (initFontSpriteColors (setDisplayProperties .LO s)).onFamily fun s => { s with
    metadata := { s.metadata with minimumZoom := 2, innerMargin := 4, enabled := true } }

/-- A core ready to run. -/
def boot (launch : Launch) (unset : Unset) : Megachip := initializeSystem (construct launch unset)

/-- `reset_system_data`. -/
def resetSystemData (s : Megachip) : Megachip :=
  let s : Megachip := { s with memory := MirroredMemory.clear }
  let s := setDisplayProperties .LO ((s.copyFileImageTo gameLoadPos).copyFontDataTo 180)
  { s.onOwn fun own => { own with
      displayMap := own.displayMap.fill 0
      oldRenderMap := own.oldRenderMap.fill RGBA.zero
      backgroundMap := own.backgroundMap.fill RGBA.zero
      collisionMap := own.collisionMap.fill 0
      colorPalette := fun _ => RGBA.ofPacked 0
      track := TrackData.reset
      texture := Texture.reset
      blendMode := .alphaBlend } with
    currentPc := bootPos }

/-- The virtual functions. -/
def virtuals : Virtuals 24 Members Instruction where
  availQuirks := availQuirks
  enterLoop := fun s => s
  decode := decode
  execute := execute
  pushAudioData := pushAudioData
  pushVideoData := pushVideoData
  resetSystemData := resetSystemData

end Megachip

end CubeChip
