import CubeChip.Systems.Chip8.Cells
import CubeChip.Systems.Chip8.Cores.Megachip
import CubeChip.Utilities.ColorOps.Blend

/-!
# The colours of mega mode

The buffers of `MEGACHIP` are shown over a tint, so their colours have to be multiplied with their
opacity already. They are (`premultiplied_reachable`): a blended texel is a mean of the pixel
below it and an opaque colour, font sprites and the display of the old resolutions are opaque, a
scroll fills in nothing, and a frame that is flushed by blending blends two such buffers. What a
texture does to the pixels below it goes by its blend mode (`drawTexture_blends`).
-/

namespace CubeChip

namespace Megachip

open CubeChip.Core
open Map2D (Every)
open RGBA (Premultiplied)

variable {s : Megachip}

/-! ## What a texture does to the pixels below -/

/-- Pixels that were blended in the same mode, any number of times. -/
structure Blends (mode : BlendMode) (c c' : RGBA) : Prop where
  alpha : c.A ≤ c'.A
  lightened : mode = .linearDodge → ∀ channel ∈ RGBA.colorChannels, channel c ≤ channel c'
  darkened : mode = .multiply → ∀ channel ∈ RGBA.colorChannels, channel c' ≤ channel c

/-- A texel that is not drawn. -/
theorem Blends.refl (mode : BlendMode) (c : RGBA) : Blends mode c c :=
  ⟨UInt8.le_refl _, fun _ _ _ => UInt8.le_refl _, fun _ _ _ => UInt8.le_refl _⟩

/-- Two texels drawn on one pixel. -/
theorem Blends.trans {mode : BlendMode} {c c' c'' : RGBA} (h : Blends mode c c')
    (h' : Blends mode c' c'') : Blends mode c c'' where
  alpha := UInt8.le_trans h.alpha h'.alpha
  lightened := fun hmode channel hchannel =>
    UInt8.le_trans (h.lightened hmode channel hchannel) (h'.lightened hmode channel hchannel)
  darkened := fun hmode channel hchannel =>
    UInt8.le_trans (h'.darkened hmode channel hchannel) (h.darkened hmode channel hchannel)

/-- One texel, in any mode and at any opacity. -/
theorem blends_compositeBlend (mode : BlendMode) (src dst : RGBA) (weight : UInt8) :
    Blends mode dst (RGBA.compositeBlend mode.impl src dst weight) := by
  refine ⟨RGBA.A_le_compositeBlend mode.impl src dst weight, fun hmode channel hchannel => ?_,
    fun hmode channel hchannel => ?_⟩
  · rw [hmode]
    exact RGBA.le_compositeBlend (.tail _ (.tail _ (.tail _ (.head _)))) hchannel src dst weight
  · rw [hmode]
    exact RGBA.compositeBlend_le (.tail _ (.head _)) hchannel src dst weight

/-- Drawing keeps what blending with a texel keeps of every pixel. -/
theorem every_paintPixel {R : Nat → RGBA → Prop}
    (hR : ∀ i c src, R i c → R i (RGBA.compositeBlend s.own.blendMode.impl src c
      s.own.texture.opacity.toUInt8)) (x y : Nat) (colorIdx : UInt8) {p : Paint}
    (h : ∀ i, R i (p.backgroundMap.data i)) (i : Nat) :
    R i ((paintPixel s x y colorIdx p).backgroundMap.data i) := by
  unfold paintPixel
  split
  · simp only [Map2D.set2, Function.update_apply]
    split
    · rename_i heq
      rw [heq]
      exact hR _ _ _ (h _)
    · exact h i
  · exact h i

/-- By induction on the columns left. -/
theorem every_paintRow {R : Nat → RGBA → Prop}
    (hR : ∀ i c src, R i c → R i (RGBA.compositeBlend s.own.blendMode.impl src c
      s.own.texture.opacity.toUInt8)) (wrap : Bool) (data : Nat → UInt8) (y n col x : Nat)
    {p : Paint} (h : ∀ i, R i (p.backgroundMap.data i)) :
    ∀ i, R i ((paintRow s wrap data y n col x p).backgroundMap.data i) := by
  induction n generalizing col x p with
  | zero => exact h
  | succ n ih =>
      have hpixel := every_paintPixel hR x y (data col) h
      rw [paintRow]
      split
      · exact ih _ _ hpixel
      · split
        · exact hpixel
        · exact ih _ _ hpixel

/-- By induction on the rows left. -/
theorem every_paintRows {R : Nat → RGBA → Prop}
    (hR : ∀ i c src, R i c → R i (RGBA.compositeBlend s.own.blendMode.impl src c
      s.own.texture.opacity.toUInt8)) (wrap : Bool) (xBegin n row y : Nat) {p : Paint}
    (h : ∀ i, R i (p.backgroundMap.data i)) :
    ∀ i, R i ((paintRows s wrap xBegin n row y p).backgroundMap.data i) := by
  induction n generalizing row y p with
  | zero => exact h
  | succ n ih =>
      rw [paintRows]
      split
      · exact ih _ _ h
      · have hrow := every_paintRow hR wrap
          (byteBehind s (s.registerI + UInt32.ofNat row * s.own.texture.w)) y
          s.own.texture.w.toNat 0 xBegin h
        dsimp only
        split
        · exact ih _ _ hrow
        · split
          · exact hrow
          · exact ih _ _ hrow

/-- What blending keeps of each pixel, a texture keeps of the background. -/
theorem every_drawTexture {R : Nat → RGBA → Prop}
    (hR : ∀ i c src, R i c → R i (RGBA.compositeBlend s.own.blendMode.impl src c
      s.own.texture.opacity.toUInt8)) (xBegin yBegin : Nat)
    (h : ∀ i, R i (s.own.backgroundMap.data i)) (i : Nat) :
    R i ((drawTexture s xBegin yBegin).own.backgroundMap.data i) := by
  unfold drawTexture
  split
  · exact h i
  · exact every_paintRows hR _ _ _ _ _ h i

/-- **A texture**, whatever its size, place and colours, leaves no pixel less opaque; where it is
dodged none is darker than before, and where it is multiplied none is lighter. -/
theorem drawTexture_blends (s : Megachip) (xBegin yBegin i : Nat) :
    Blends s.own.blendMode (s.own.backgroundMap.data i)
      ((drawTexture s xBegin yBegin).own.backgroundMap.data i) := by
  have hR : ∀ i c src, Blends s.own.blendMode (s.own.backgroundMap.data i) c →
      Blends s.own.blendMode (s.own.backgroundMap.data i)
        (RGBA.compositeBlend s.own.blendMode.impl src c s.own.texture.opacity.toUInt8) :=
    fun i c src h => h.trans (blends_compositeBlend ..)
  exact every_drawTexture hR xBegin yBegin (fun i => .refl _ _) i

/-! ## Premultiplied buffers -/

/-- Both buffers, and the colours of the font sprites. -/
structure ColorsPremultiplied (b : Body 24 Members) : Prop where
  oldRenderMap : Every Premultiplied b.own.oldRenderMap
  backgroundMap : Every Premultiplied b.own.backgroundMap
  fontColors : ∀ i, Premultiplied (b.own.fontColors i)
  behindFontColors : ∀ i, Premultiplied (b.own.unset.behindFontColors i)

/-- Only these members matter. -/
theorem ColorsPremultiplied.congr {b b' : Body 24 Members} (h : ColorsPremultiplied b)
    (hold : b'.own.oldRenderMap = b.own.oldRenderMap)
    (hback : b'.own.backgroundMap = b.own.backgroundMap)
    (hfont : b'.own.fontColors = b.own.fontColors) (hunset : b'.own.unset = b.own.unset) :
    ColorsPremultiplied b' :=
  ⟨hold ▸ h.oldRenderMap, hback ▸ h.backgroundMap, hfont ▸ h.fontColors,
    hunset ▸ h.behindFontColors⟩

/-- The colours of the planes are opaque. -/
theorem premultiplied_bitColor (index : Nat) : Premultiplied (bitColor index) := by
  unfold bitColor
  rw [List.getD_eq_getElem?_getD]
  cases h : bitColors[index]? with
  | none => exact RGBA.premultiplied_zero
  | some color =>
      have hfull : ∀ c ∈ bitColors, c.A = 255 := by decide
      exact RGBA.premultiplied_of_A (hfull color (List.mem_of_getElem? h))

/-- So are those of a cell, faded or not. -/
theorem premultiplied_pixelColor (trails : Bool) (pixel : UInt8) :
    Premultiplied (pixelColor trails pixel) := by
  unfold pixelColor
  split
  · exact RGBA.premultiplied_premul ..
  · exact premultiplied_bitColor _

/-- The colours of a glyph, those behind its table included. -/
theorem premultiplied_fontColor (h : ColorsPremultiplied s.body) (row : Nat) :
    Premultiplied (fontColor s row) := by
  unfold fontColor
  split
  · exact h.fontColors _
  · exact h.behindFontColors _

/-- By induction on the columns of a glyph left. -/
theorem every_fontRow {P : RGBA → Prop} (wrap : Bool) (pixelData : UInt8) {color : RGBA}
    (hcolor : P color) (y n col x : Nat) {m : Map2D RGBA} (h : Every P m) :
    Every P (fontRow wrap pixelData color y n col x m) := by
  induction n generalizing col x m with
  | zero => exact h
  | succ n ih =>
      have hpixel : Every P
          (if pixelData.toNat.testBit (7 - col) then m.set2 x y color else m) := by
        split
        · exact h.set2 _ _ hcolor
        · exact h
      rw [fontRow]
      generalize (if pixelData.toNat.testBit (7 - col) then m.set2 x y color else m) = m'
        at hpixel ⊢
      split
      · exact hpixel
      · exact ih _ _ hpixel

/-- By induction on the rows of a glyph left. -/
theorem every_fontRows {P : RGBA → Prop} (hcolor : ∀ row, P (fontColor s row)) (wrap : Bool)
    (xBegin n row y : Nat) {m : Map2D RGBA} (h : Every P m) :
    Every P (fontRows s wrap xBegin n row y m) := by
  induction n generalizing row y m with
  | zero => exact h
  | succ n ih =>
      rw [fontRows]
      split
      · exact ih _ _ h
      · have hrow := every_fontRow wrap (s.memory.get (s.registerI + UInt32.ofNat row))
          (hcolor row) y 8 0 xBegin h
        dsimp only
        split
        · exact hrow
        · exact ih _ _ hrow

/-- A texel is blended with the premultiplied palette. -/
theorem colorsPremultiplied_drawTexture (hs : ColorsPremultiplied s.body) (xBegin yBegin : Nat) :
    ColorsPremultiplied (drawTexture s xBegin yBegin).body := by
  have hback := every_drawTexture (R := fun _ c => Premultiplied c)
    (fun _ _ src hc => hc.compositeBlend _ src _) xBegin yBegin hs.backgroundMap
  have hkept : (drawTexture s xBegin yBegin).own.oldRenderMap = s.own.oldRenderMap ∧
      (drawTexture s xBegin yBegin).own.fontColors = s.own.fontColors ∧
      (drawTexture s xBegin yBegin).own.unset = s.own.unset := by
    unfold drawTexture
    split <;> exact ⟨rfl, rfl, rfl⟩
  obtain ⟨hold, hfont, hunset⟩ := hkept
  exact ⟨hold.symm ▸ hs.oldRenderMap, hback, hfont.symm ▸ hs.fontColors,
    hunset.symm ▸ hs.behindFontColors⟩

/-- What `DxyN` draws in mega mode. -/
theorem colorsPremultiplied_drawMega (hs : ColorsPremultiplied s.body) (X Y N : Fin 16) :
    ColorsPremultiplied (drawMega s X Y N).body := by
  unfold drawMega
  dsimp only
  split
  · exact hs
  · split
    · have hfont := every_fontRows (s := s.onCpu (·.setV 0xF 0)) (premultiplied_fontColor hs)
        (s.hasQuirk .wrapSprites) (s.registersV X).toNat N.val 0 (s.registersV Y).toNat
        hs.backgroundMap
      exact ⟨hs.oldRenderMap, hfont, hs.fontColors, hs.behindFontColors⟩
    · exact colorsPremultiplied_drawTexture (s := s.onCpu (·.setV 0xF 0)) hs _ _

/-- A scroll fills in transparent pixels. -/
theorem colorsPremultiplied_scroll (hs : ColorsPremultiplied s.body) (cols rows : Int) :
    ColorsPremultiplied (scroll cols rows s).body := by
  unfold scroll
  split
  · exact ⟨hs.oldRenderMap.shift cols rows RGBA.premultiplied_zero, hs.backgroundMap,
      hs.fontColors, hs.behindFontColors⟩
  · exact hs.congr rfl rfl rfl rfl

/-- The last frame becomes the old one, and the next one is empty. -/
theorem colorsPremultiplied_instruction00E0 (hs : ColorsPremultiplied s.body) :
    ColorsPremultiplied (instruction00E0 s).body := by
  unfold instruction00E0
  split
  · refine ⟨fun i => ?_, hs.backgroundMap.fill RGBA.premultiplied_zero, hs.fontColors,
      hs.behindFontColors⟩
    change Premultiplied (if i < s.own.backgroundMap.size then s.own.backgroundMap.data i
      else s.own.oldRenderMap.data i)
    split
    · exact hs.backgroundMap i
    · exact hs.oldRenderMap i
  · exact hs.congr rfl rfl rfl rfl

/-- Every instruction. -/
theorem colorsPremultiplied_execute (i : Instruction) (s s' : Megachip)
    (hs : ColorsPremultiplied s.body) (h : execute i s = some s') :
    ColorsPremultiplied s'.body := by
  cases i with
  | common i =>
    cases h
    have hown := (executeCommon_frame (config s) i s).2.1
    exact hs.congr (congrArg Members.oldRenderMap hown) (congrArg Members.backgroundMap hown)
      (congrArg Members.fontColors hown) (congrArg Members.unset hown)
  | i00BN | i00CN | i00FB | i00FC => cases h; exact colorsPremultiplied_scroll hs _ _
  | i00E0 => cases h; exact colorsPremultiplied_instruction00E0 hs
  | i0010 | i0011 =>
    cases h
    exact ⟨hs.oldRenderMap.fill RGBA.premultiplied_zero,
      hs.backgroundMap.fill RGBA.premultiplied_zero, hs.fontColors, hs.behindFontColors⟩
  | i060N N =>
    cases h
    unfold instruction060N startAudioTrack
    split <;> exact hs.congr rfl rfl rfl rfl
  | iDxyN X Y N =>
    cases h
    unfold instructionDxyN
    split
    · exact colorsPremultiplied_drawMega hs X Y N
    · exact hs.congr rfl rfl rfl rfl
  | iFN85 N =>
    obtain ⟨r, _, rfl⟩ := Option.map_eq_some_iff.1 h
    exact hs
  | _ => cases h; exact hs.congr rfl rfl rfl rfl

/-- A display of the old resolutions is shown in colours of the palette. -/
theorem every_showDisplay {P : RGBA → Prop} (hP : ∀ trails pixel, P (pixelColor trails pixel))
    (h : Every P s.own.backgroundMap) : Every P (showDisplay s).own.backgroundMap := by
  have hupdate : ∀ {data : Nat → RGBA} {i : Nat} {color : RGBA}, (∀ i, P (data i)) → P color →
      ∀ j, P (Function.update data i color j) := by
    intro data i color hdata hcolor j
    rw [Function.update_apply]
    split
    · exact hcolor
    · exact hdata j
  refine Loops.foldl_range_invariant (I := fun _ (data : Nat → RGBA) => ∀ i, P (data i)) ?_ h
  intro k _ data hdata
  have hcolor := hP s.trait.usePixelTrails (s.own.displayMap.at1 k)
  exact hupdate (hupdate (hupdate (hupdate hdata hcolor) hcolor) hcolor) hcolor

/-- **The invariant.** -/
theorem alwaysKept_colorsPremultiplied : AlwaysKept virtuals ColorsPremultiplied where
  enterLoop := fun _ hs => hs
  execute := colorsPremultiplied_execute
  pushAudioData := fun input s hs => by
    simp only [virtuals, pushAudioData, mixAudioData, makeStreamWave]
    repeat' split
    all_goals exact hs.congr rfl rfl rfl rfl
  pushVideoData := fun s hs => by
    simp only [virtuals, pushVideoData]
    split
    · split <;> exact hs
    · exact ⟨hs.oldRenderMap, every_showDisplay premultiplied_pixelColor hs.backgroundMap,
        hs.fontColors, hs.behindFontColors⟩
  reset := fun _ hs => ⟨hs.oldRenderMap.fill RGBA.premultiplied_zero,
    hs.backgroundMap.fill RGBA.premultiplied_zero, hs.fontColors, hs.behindFontColors⟩
  toggleQuirk := fun _ hs _ _ => hs.congr rfl rfl rfl rfl
  editMemory := fun _ hs _ _ => hs.congr rfl rfl rfl rfl

/-- A boot has transparent maps, and palettes that are empty. -/
theorem colorsPremultiplied_boot (launch : Launch) {unset : Unset}
    (hunset : ∀ i, Premultiplied (unset.behindFontColors i)) :
    ColorsPremultiplied (boot launch unset).body where
  oldRenderMap := fun _ => RGBA.premultiplied_zero
  backgroundMap := fun _ => RGBA.premultiplied_zero
  fontColors := fun _ => RGBA.premultiplied_of_A rfl
  behindFontColors := hunset

/-- A pixel of the frame that `flush_all_video_buffers` acquires. -/
def flushedPixel (byBlending : Bool) (s : Megachip) (i : Nat) : RGBA :=
  if byBlending then RGBA.alphaBlend (s.own.oldRenderMap.at1 i) (s.own.backgroundMap.at1 i)
  else s.own.backgroundMap.at1 i

/-- A flush shows the background, or blends it with the frame before. -/
theorem premultiplied_flushedPixel (hs : ColorsPremultiplied s.body) (byBlending : Bool)
    (i : Nat) : Premultiplied (flushedPixel byBlending s i) := by
  unfold flushedPixel
  split
  · exact (hs.oldRenderMap i).alphaBlend (hs.backgroundMap i)
  · exact hs.backgroundMap i

/-- **Every frame is premultiplied**, flushed by blending or not, between events and wherever an
instruction of a frame starts, unless a font sprite of more than ten rows finds another colour
behind the ten there are. -/
theorem premultiplied_reachable (launch : Launch) (unset : Unset) (s : Megachip)
    (hunset : ∀ i, Premultiplied (unset.behindFontColors i))
    (h : Reachable virtuals (boot launch unset) s) (byBlending : Bool) (i : Nat) :
    Premultiplied (flushedPixel byBlending s i) ∧
      ∀ input, ∀ t ∈ workerStarts virtuals input s, Premultiplied (flushedPixel byBlending t i) := by
  have hs := alwaysKept_colorsPremultiplied.reachable (colorsPremultiplied_boot launch hunset) h
  refine ⟨premultiplied_flushedPixel hs byBlending i, fun input t ht => ?_⟩
  have ht' := alwaysKept_colorsPremultiplied.toKept.workerStarts input hs t ht
  exact premultiplied_flushedPixel ht' byBlending i

/-- A texel a quarter opaque over nothing, in mega mode. -/
theorem premultiplied_reachable_texel :
    ∃ s, Runs.run (step virtuals) (boot (.ofProgram
        [0x00, 0x11, 0x01, 0x00, 0x02, 0x18, 0x02, 0x01, 0x03, 0x01, 0x04, 0x01, 0x01, 0x00, 0x02,
          0x1C, 0x08, 0x01, 0xD0, 0x00, 0x12, 0x14, 0x00, 0x00, 0xFF, 0xFF, 0x80, 0x40, 0x01])
        .zero) [.idle, .idle] = some s ∧
      flushedPixel false s 0 = ⟨0x3F, 0x20, 0x10, 0x3F⟩ ∧
      Premultiplied (flushedPixel false s 0) := by
  have hrun : (Runs.run (step virtuals) (boot (.ofProgram
      [0x00, 0x11, 0x01, 0x00, 0x02, 0x18, 0x02, 0x01, 0x03, 0x01, 0x04, 0x01, 0x01, 0x00, 0x02,
        0x1C, 0x08, 0x01, 0xD0, 0x00, 0x12, 0x14, 0x00, 0x00, 0xFF, 0xFF, 0x80, 0x40, 0x01])
      .zero) [.idle, .idle]).map (flushedPixel false · 0) = some ⟨0x3F, 0x20, 0x10, 0x3F⟩ := by
    decide +kernel
  obtain ⟨s, hs, hpixel⟩ := Option.map_eq_some_iff.1 hrun
  have hzero : ∀ i, Premultiplied (Unset.zero.behindFontColors i) := fun _ =>
    RGBA.premultiplied_zero
  exact ⟨s, hs, hpixel, (premultiplied_reachable _ _ s hzero ⟨_, hs⟩ false 0).1⟩

end Megachip

end CubeChip
