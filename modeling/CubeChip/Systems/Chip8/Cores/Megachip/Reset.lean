import CubeChip.Systems.Chip8.Cores.Megachip
import CubeChip.Systems.Chip8.Restart

/-!
# `MEGACHIP`: reset and boot

A reset goes through `set_display_properties` as a boot does, clears the memory and every map,
and resets the palette and the records one by one. What it relies on is that the maps keep
their sizes, so that filling one fills all it shows, and that the program stays the one
started.
-/

namespace CubeChip.Megachip

open CubeChip.Core

/-! ## What is compared -/

/-- Two machines that run a program alike. The collision buffer is compared in size: what a boot
finds in it before it is first cleared is left open. -/
structure SameStart (s s' : Megachip) : Prop where
  memory : s.memory = s'.memory
  displayMap : Map2D.SameCells s.own.displayMap s'.own.displayMap
  oldRenderMap : Map2D.SameCells s.own.oldRenderMap s'.own.oldRenderMap
  backgroundMap : Map2D.SameCells s.own.backgroundMap s'.own.backgroundMap
  collisionMap : Map2D.SameSize s.own.collisionMap s'.own.collisionMap
  colorPalette : s.own.colorPalette = s'.own.colorPalette
  texture : s.own.texture = s'.own.texture
  track : s.own.track = s'.own.track
  blendMode : s.own.blendMode = s'.own.blendMode
  hiresScreen : s.trait.useHiresScreen = s'.trait.useHiresScreen
  manualVsync : s.trait.useManualVsync = s'.trait.useManualVsync
  awaitVblank : s.quirkFlags .awaitVblank = s'.quirkFlags .awaitVblank
  standardCpf : s.standardCpf = s'.standardCpf
  processor : Cpu.SameState s.toCpu s'.toCpu

/-! ## Shape -/

/-- The same program, and maps of the same sizes. -/
structure SameShape (b b' : Body 24 Members) : Prop where
  fileImage : b.fileImage = b'.fileImage
  displayMap : Map2D.SameSize b.own.displayMap b'.own.displayMap
  oldRenderMap : Map2D.SameSize b.own.oldRenderMap b'.own.oldRenderMap
  backgroundMap : Map2D.SameSize b.own.backgroundMap b'.own.backgroundMap
  collisionMap : Map2D.SameSize b.own.collisionMap b'.own.collisionMap

/-- Where the program and the maps are not touched at all. -/
theorem SameShape.of_eq {b b' : Body 24 Members} (hfile : b.fileImage = b'.fileImage)
    (hdisplay : b.own.displayMap = b'.own.displayMap)
    (hold : b.own.oldRenderMap = b'.own.oldRenderMap)
    (hbackground : b.own.backgroundMap = b'.own.backgroundMap)
    (hcollision : b.own.collisionMap = b'.own.collisionMap) : SameShape b b' := by
  refine ⟨hfile, ?_, ?_, ?_, ?_⟩
  · rw [hdisplay]; exact ⟨rfl, rfl⟩
  · rw [hold]; exact ⟨rfl, rfl⟩
  · rw [hbackground]; exact ⟨rfl, rfl⟩
  · rw [hcollision]; exact ⟨rfl, rfl⟩

/-- Shapes compare through a third state. -/
theorem SameShape.trans {b b' b'' : Body 24 Members} (h : SameShape b b')
    (h' : SameShape b' b'') : SameShape b b'' where
  fileImage := h.fileImage.trans h'.fileImage
  displayMap := h.displayMap.trans h'.displayMap
  oldRenderMap := h.oldRenderMap.trans h'.oldRenderMap
  backgroundMap := h.backgroundMap.trans h'.backgroundMap
  collisionMap := h.collisionMap.trans h'.collisionMap

/-- A change of the base that keeps the image. -/
theorem SameShape.onFamily {f : IFamily → IFamily} (s : Megachip)
    (hfile : (f s.toIFamily).fileImage = s.fileImage) : SameShape (s.onFamily f).body s.body :=
  ⟨hfile, ⟨rfl, rfl⟩, ⟨rfl, rfl⟩, ⟨rfl, rfl⟩, ⟨rfl, rfl⟩⟩

/-- A change of the processor. -/
theorem SameShape.onCpu (f : Cpu → Cpu) (s : Megachip) : SameShape (s.onCpu f).body s.body :=
  ⟨rfl, ⟨rfl, rfl⟩, ⟨rfl, rfl⟩, ⟨rfl, rfl⟩, ⟨rfl, rfl⟩⟩

/-- Painting keeps the sizes. -/
def Paint.SameSizes (p p' : Paint) : Prop :=
  Map2D.SameSize p.backgroundMap p'.backgroundMap ∧ Map2D.SameSize p.collisionMap p'.collisionMap

/-- Sizes compare through a third canvas. -/
theorem Paint.SameSizes.trans {p p' p'' : Paint} (h : SameSizes p p') (h' : SameSizes p' p'') :
    SameSizes p p'' :=
  ⟨h.1.trans h'.1, h.2.trans h'.2⟩

variable (s : Megachip)

/-- A texel is written into a cell. -/
theorem sameSizes_paintPixel (x y : Nat) (colorIdx : UInt8) (p : Paint) :
    Paint.SameSizes (paintPixel s x y colorIdx p) p := by
  unfold paintPixel
  split <;> exact ⟨⟨rfl, rfl⟩, ⟨rfl, rfl⟩⟩

/-- By induction on the columns left. -/
theorem sameSizes_paintRow (wrap : Bool) (data : Nat → UInt8) (y n col x : Nat) (p : Paint) :
    Paint.SameSizes (paintRow s wrap data y n col x p) p := by
  induction n generalizing col x p with
  | zero => exact ⟨⟨rfl, rfl⟩, ⟨rfl, rfl⟩⟩
  | succ n ih =>
      have hpixel := sameSizes_paintPixel s x y (data col) p
      rw [paintRow]
      split
      · exact (ih _ _ _).trans hpixel
      · split
        · exact hpixel
        · exact (ih _ _ _).trans hpixel

/-- By induction on the rows left. -/
theorem sameSizes_paintRows (wrap : Bool) (xBegin n row y : Nat) (p : Paint) :
    Paint.SameSizes (paintRows s wrap xBegin n row y p) p := by
  induction n generalizing row y p with
  | zero => exact ⟨⟨rfl, rfl⟩, ⟨rfl, rfl⟩⟩
  | succ n ih =>
      rw [paintRows]
      split
      · exact ih _ _ _
      · have hrow := sameSizes_paintRow s wrap
          (byteBehind s (s.registerI + UInt32.ofNat row * s.own.texture.w)) y
          s.own.texture.w.toNat 0 xBegin p
        dsimp only
        split
        · exact (ih _ _ _).trans hrow
        · split
          · exact hrow
          · exact (ih _ _ _).trans hrow

/-- By induction on the columns of a glyph left. -/
theorem sameSize_fontRow (wrap : Bool) (pixelData : UInt8) (color : RGBA) (y n col x : Nat)
    (m : Map2D RGBA) : Map2D.SameSize (fontRow wrap pixelData color y n col x m) m := by
  induction n generalizing col x m with
  | zero => exact ⟨rfl, rfl⟩
  | succ n ih =>
      have hset : Map2D.SameSize
          (if pixelData.toNat.testBit (7 - col) then m.set2 x y color else m) m := by
        split <;> exact ⟨rfl, rfl⟩
      rw [fontRow]
      generalize (if pixelData.toNat.testBit (7 - col) then m.set2 x y color else m) = m'
        at hset ⊢
      split
      · exact hset
      · exact (ih _ _ _).trans hset

/-- By induction on the rows of a glyph left. -/
theorem sameSize_fontRows (wrap : Bool) (xBegin n row y : Nat) (m : Map2D RGBA) :
    Map2D.SameSize (fontRows s wrap xBegin n row y m) m := by
  induction n generalizing row y m with
  | zero => exact ⟨rfl, rfl⟩
  | succ n ih =>
      rw [fontRows]
      split
      · exact ih _ _ _
      · split
        · exact sameSize_fontRow ..
        · exact (ih _ _ _).trans (sameSize_fontRow ..)

/-- A sprite of the old resolutions. -/
theorem sameSize_drawSprite (X Y N : Fin 16) :
    Map2D.SameSize (drawSprite s X Y N).1 s.own.displayMap := by
  unfold drawSprite
  split
  · exact RowDraw.sameSize_drawHires ..
  · exact RowDraw.sameSize_drawLores ..

/-! ## Instructions -/

/-- A texture is painted on maps of the same sizes. -/
theorem sameShape_drawTexture (xBegin yBegin : Nat) :
    SameShape (drawTexture s xBegin yBegin).body s.body := by
  unfold drawTexture
  split
  · exact SameShape.of_eq rfl rfl rfl rfl rfl
  · obtain ⟨hbackground, hcollision⟩ := sameSizes_paintRows s (s.hasQuirk .wrapSprites) xBegin
      s.own.texture.h.toNat 0 yBegin
      ⟨s.own.backgroundMap, s.own.collisionMap, s.registersV 0xF⟩
    exact ⟨rfl, ⟨rfl, rfl⟩, ⟨rfl, rfl⟩, hbackground, hcollision⟩

/-- So is what `DxyN` draws in mega mode. -/
theorem sameShape_drawMega (X Y N : Fin 16) : SameShape (drawMega s X Y N).body s.body := by
  unfold drawMega
  dsimp only
  split
  · exact SameShape.onCpu ..
  · split
    · exact ⟨rfl, ⟨rfl, rfl⟩, ⟨rfl, rfl⟩, sameSize_fontRows .., ⟨rfl, rfl⟩⟩
    · exact (SameShape.onCpu ..).trans
        ((sameShape_drawTexture (s.onCpu (·.setV 0xF 0)) _ _).trans (SameShape.onCpu ..))

/-- `DxyN`, in mega mode and outside. -/
theorem sameShape_instructionDxyN (X Y N : Fin 16) :
    SameShape (instructionDxyN s X Y N).body s.body := by
  unfold instructionDxyN
  split
  · exact sameShape_drawMega s X Y N
  · exact ⟨rfl, sameSize_drawSprite s X Y N, ⟨rfl, rfl⟩, ⟨rfl, rfl⟩, ⟨rfl, rfl⟩⟩

/-- A scroll, in either mode. -/
theorem sameShape_scroll (cols rows : Int) : SameShape (scroll cols rows s).body s.body := by
  unfold scroll
  split
  · exact ⟨rfl, ⟨rfl, rfl⟩, Map2D.sameSize_shift .., ⟨rfl, rfl⟩, ⟨rfl, rfl⟩⟩
  · exact ⟨rfl, Map2D.sameSize_shift .., ⟨rfl, rfl⟩, ⟨rfl, rfl⟩, ⟨rfl, rfl⟩⟩

/-- A resolution leaves the maps alone. -/
theorem sameShape_setDisplayProperties (mode : Resolution) :
    SameShape (setDisplayProperties mode s).body s.body := by
  refine SameShape.onFamily s ?_
  cases mode <;> rfl

/-- Clearing flushes or fills. -/
theorem sameShape_instruction00E0 : SameShape (instruction00E0 s).body s.body := by
  unfold instruction00E0
  split
  · exact ⟨rfl, ⟨rfl, rfl⟩, ⟨rfl, rfl⟩, ⟨rfl, rfl⟩, ⟨rfl, rfl⟩⟩
  · exact ⟨rfl, ⟨rfl, rfl⟩, ⟨rfl, rfl⟩, ⟨rfl, rfl⟩, ⟨rfl, rfl⟩⟩

/-- A track touches no map. -/
theorem sameShape_startAudioTrack (loop : Bool) :
    SameShape (startAudioTrack loop s).body s.body := by
  unfold startAudioTrack
  split <;> exact SameShape.of_eq rfl rfl rfl rfl rfl

/-- **Every instruction** keeps the shape. -/
theorem sameShape_execute (i : Instruction) (s s' : Megachip) (h : execute i s = some s') :
    SameShape s'.body s.body := by
  cases i with
  | common i =>
      cases h
      obtain ⟨hset, hown, _⟩ := executeCommon_frame (config s) i s
      exact .of_eq (congrArg (·.fileImage) hset) (congrArg (·.displayMap) hown)
        (congrArg (·.oldRenderMap) hown) (congrArg (·.backgroundMap) hown)
        (congrArg (·.collisionMap) hown)
  | i00BN | i00CN | i00FB | i00FC => cases h; exact sameShape_scroll s _ _
  | i00E0 => cases h; exact sameShape_instruction00E0 s
  | i00FE | i00FF => cases h; exact (SameShape.onCpu ..).trans (sameShape_setDisplayProperties ..)
  | i0010 | i0011 => cases h; exact ⟨rfl, ⟨rfl, rfl⟩, ⟨rfl, rfl⟩, ⟨rfl, rfl⟩, ⟨rfl, rfl⟩⟩
  | i060N N => cases h; exact sameShape_startAudioTrack s _
  | iDxyN X Y N => cases h; exact sameShape_instructionDxyN s X Y N
  | iFN85 N =>
      obtain ⟨r, _, rfl⟩ := Option.map_eq_some_iff.1 h
      exact SameShape.of_eq rfl rfl rfl rfl rfl
  | _ => cases h; exact SameShape.of_eq rfl rfl rfl rfl rfl

/-- Nor does the end of one. -/
theorem sameShape_pushAudioData (input : FrameInput) :
    SameShape (pushAudioData input s).body s.body := by
  unfold pushAudioData mixAudioData makeStreamWave
  dsimp only
  repeat' split
  all_goals exact SameShape.of_eq rfl rfl rfl rfl rfl

/-- Flushing swaps and clears maps of one size. -/
theorem sameShape_pushVideoData : SameShape (pushVideoData s).body s.body := by
  unfold pushVideoData
  split
  · split <;> exact SameShape.of_eq rfl rfl rfl rfl rfl
  · exact ⟨rfl, ⟨rfl, rfl⟩, ⟨rfl, rfl⟩, ⟨rfl, rfl⟩, ⟨rfl, rfl⟩⟩

/-- A reset fills the maps there are. -/
theorem sameShape_reset : SameShape (performInstanceReset virtuals s).body s.body :=
  ⟨rfl, ⟨rfl, rfl⟩, ⟨rfl, rfl⟩, ⟨rfl, rfl⟩, ⟨rfl, rfl⟩⟩

variable {launch : Launch} {unset : Unset}

/-- **The invariant**: every state has the shape of the boot. -/
theorem alwaysKept_sameShape :
    AlwaysKept virtuals fun b => SameShape b (boot launch unset).body where
  enterLoop := fun _ hs => hs
  execute := fun i s s' hs h => (sameShape_execute i s s' h).trans hs
  pushAudioData := fun input s hs => (sameShape_pushAudioData s input).trans hs
  pushVideoData := fun s hs => (sameShape_pushVideoData s).trans hs
  reset := fun s hs => (sameShape_reset s).trans hs
  toggleQuirk := fun s hs _ _ => (SameShape.onFamily s rfl).trans hs
  editMemory := fun s hs address value =>
    have h : SameShape { s.body with memory := s.memory.set address value } s.body :=
      .of_eq rfl rfl rfl rfl rfl
    h.trans hs

/-! ## Reset -/

/-- The processor of a boot. -/
theorem powerOn_boot : Cpu.PowerOn bootPos (boot launch unset).toCpu :=
  ⟨rfl, rfl, rfl, rfl, rfl, rfl, rfl, rfl, rfl⟩

/-- The processor of a reset. -/
theorem powerOn_reset : Cpu.PowerOn bootPos (performInstanceReset virtuals s).toCpu :=
  Cpu.powerOn_resetInstance s.toIFamily bootPos

/-- The flags, the quirk and the speed of low resolution. -/
structure LowResolution (s : Megachip) : Prop where
  hiresScreen : s.trait.useHiresScreen = false
  manualVsync : s.trait.useManualVsync = false
  awaitVblank : s.quirkFlags .awaitVblank = true
  standardCpf : s.standardCpf = speedHi

/-- A boot is in low resolution. -/
theorem lowResolution_boot : LowResolution (boot launch unset) := ⟨rfl, rfl, rfl, rfl⟩

/-- So is a reset, wherever the program was. -/
theorem lowResolution_reset : LowResolution (performInstanceReset virtuals s) :=
  ⟨rfl, rfl, rfl, rfl⟩

/-- The memory of a boot. -/
theorem memory_reset (hfile : s.fileImage = launch.fileImage) :
    (performInstanceReset virtuals s).memory = (boot launch unset).memory := by
  have hreset : (performInstanceReset virtuals s).memory =
      (MirroredMemory.clear.copyFrom gameLoadPos s.fileImage).copyFrom
        Cpu.smallFontOffset.toNat (fontsData.take 180) := rfl
  have hboot : (boot launch unset).memory =
      (MirroredMemory.clear.copyFrom gameLoadPos launch.fileImage).copyFrom
        Cpu.smallFontOffset.toNat (fontsData.take 180) := rfl
  rw [hreset, hboot, hfile]

/-- **Reset equals boot.** A reset of any state reached, whatever its mode and records, yields
the machine of a boot. -/
theorem reset_sameStart (launch : Launch) (unset : Unset) (s : Megachip)
    (h : Reachable virtuals (boot launch unset) s) :
    SameStart (performInstanceReset virtuals s) (boot launch unset) := by
  have hs : SameShape s.body (boot launch unset).body :=
    alwaysKept_sameShape.reachable (.of_eq rfl rfl rfl rfl rfl) h
  have hreset := lowResolution_reset s
  have hboot : LowResolution (boot launch unset) := lowResolution_boot
  exact {
    memory := memory_reset s hs.fileImage
    displayMap := Map2D.sameCells_fill_const hs.displayMap.1 hs.displayMap.2 0
    oldRenderMap := Map2D.sameCells_fill_const hs.oldRenderMap.1 hs.oldRenderMap.2 RGBA.zero
    backgroundMap := Map2D.sameCells_fill_const hs.backgroundMap.1 hs.backgroundMap.2 RGBA.zero
    collisionMap := hs.collisionMap
    colorPalette := rfl
    texture := rfl
    track := rfl
    blendMode := rfl
    hiresScreen := hreset.hiresScreen.trans hboot.hiresScreen.symm
    manualVsync := hreset.manualVsync.trans hboot.manualVsync.symm
    awaitVblank := hreset.awaitVblank.trans hboot.awaitVblank.symm
    standardCpf := hreset.standardCpf.trans hboot.standardCpf.symm
    processor := (powerOn_reset s).sameState powerOn_boot }

/-- `0011`, a texture size, a blend mode and a jump to itself, after two frames: a reset leaves
mega mode for a boot. -/
theorem reset_sameStart_mega :
    ∃ s, Runs.run (step virtuals)
        (boot (.ofProgram [0x00, 0x11, 0x03, 0x10, 0x08, 0x05, 0x12, 0x06]) .zero)
        [.idle, .idle] = some s ∧
      s.trait.useManualVsync = true ∧ s.own.texture.w = 16 ∧ s.own.blendMode = .multiply ∧
      SameStart (performInstanceReset virtuals s)
        (boot (.ofProgram [0x00, 0x11, 0x03, 0x10, 0x08, 0x05, 0x12, 0x06]) .zero) := by
  have hrun : (Runs.run (step virtuals)
      (boot (.ofProgram [0x00, 0x11, 0x03, 0x10, 0x08, 0x05, 0x12, 0x06]) .zero)
      [.idle, .idle]).map (fun s => (s.trait.useManualVsync, s.own.texture.w, s.own.blendMode))
        = some (true, 16, .multiply) := by decide +kernel
  obtain ⟨s, hs, heq⟩ := Option.map_eq_some_iff.1 hrun
  simp only [Prod.mk.injEq] at heq
  exact ⟨s, hs, heq.1, heq.2.1, heq.2.2, reset_sameStart _ _ s ⟨_, hs⟩⟩

end CubeChip.Megachip
