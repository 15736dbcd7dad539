import CubeChip.Systems.Chip8.Cells
import CubeChip.Systems.Chip8.Cores.Chip8Modern
import CubeChip.Systems.Chip8.Cores.Chip8E
import CubeChip.Systems.Chip8.Cores.Chip8X
import CubeChip.Systems.Chip8.Cores.SchipModern
import CubeChip.Systems.Chip8.Cores.SchipLegacy
import CubeChip.Systems.Chip8.Cores.Megachip

/-!
# The monochrome displays

Six of the cores look a cell of their display up in `c_bit_weight` and `s_bit_colors`. Each of
them keeps its cells below 16 (`PixelsKept`): drawing flips the lit bit, a scroll and a clear
fill in 0, and a trail fades. So no lookup leaves its table (`pixels_in_tables`).
-/

namespace CubeChip

open CubeChip.Core
open Map2D (Every)

/-- A cell that is cleared is a pixel. -/
theorem isPixel_zero : IsPixel 0 := by unfold IsPixel; decide

/-- Flipping the lit bit of a pixel gives a pixel. -/
theorem isPixel_xor (x : UInt8) : IsPixel x → IsPixel (x ^^^ 0x8) := IsPixel.xor

/-! ## Sprites without a wrap -/

namespace Chip8X

/-- By induction on the bits left. -/
theorem every_drawBits (Y : Nat) (DATA : UInt8) (n B X : Nat) {c : Canvas}
    (h : Every IsPixel c.map) : Every IsPixel (drawBits Y DATA n B X c).map := by
  induction n generalizing B X c with
  | zero => exact h
  | succ n ih =>
      have hflip : Every IsPixel
          (if DATA.toNat.testBit (7 - B) then c.flip 0x8 X Y else c).map := by
        split
        · exact Canvas.every_flip isPixel_xor h X Y
        · exact h
      rw [drawBits]
      generalize (if DATA.toNat.testBit (7 - B) then c.flip 0x8 X Y else c) = c' at hflip ⊢
      split
      · exact hflip
      · exact ih _ _ hflip

/-- A byte of a sprite flips cells only. -/
theorem every_drawByte (X Y : Nat) (DATA : UInt8) {c : Canvas} (h : Every IsPixel c.map) :
    Every IsPixel (drawByte X Y DATA c).map := by
  unfold drawByte
  split
  · exact h
  · split
    · exact Canvas.every_flip isPixel_xor h X Y
    · exact every_drawBits Y DATA 8 0 X h

/-- By induction on the rows left, clipped ones included. -/
theorem every_drawRows (s : Chip8X) (pX n H pY : Nat) {c : Canvas} (h : Every IsPixel c.map) :
    Every IsPixel (drawRows s pX n H pY c).map := by
  induction n generalizing H pY c with
  | zero => exact h
  | succ n ih =>
      rw [drawRows]
      split
      · exact every_drawByte pX pY _ h
      · exact ih _ _ (every_drawByte pX pY _ h)

/-- The three heights of a sprite. -/
theorem every_drawSprite (s : Chip8X) (N : Fin 16) (pX pY : Nat) {c : Canvas}
    (h : Every IsPixel c.map) : Every IsPixel (drawSprite s N pX pY c).map := by
  unfold drawSprite
  split
  · exact h
  · exact every_drawByte pX pY _ h
  · exact every_drawRows s pX _ 0 pY h

/-- Every step of `CHIP8X` keeps the cells pixels. -/
theorem pixelsKept : PixelsKept virtuals Members.displayMap where
  enterLoop := fun _ => rfl
  execute := fun i s s' hs h => by
    cases i with
    | common i =>
        cases h
        exact (executeCommon_frame config i s).2.1.symm ▸ hs
    | i00E0 => cases h; exact hs.fill isPixel_zero
    | iBxyN X Y N =>
        cases h
        unfold instructionBxyN
        dsimp only
        split <;> exact hs
    | iDxyN X Y N => cases h; exact every_drawSprite s N _ _ hs
    | _ => cases h; exact hs
  pushAudioData := fun input s => by
    simp only [virtuals, pushAudioData]
    split <;> rfl
  pushVideoData := fun s hs => by
    simp only [virtuals, pushVideoData]
    split
    · exact hs.transform fun _ => IsPixel.fade
    · exact hs
  resetSystemData := fun _ hs => hs.fill isPixel_zero

end Chip8X

namespace Chip8E

/-- The rows of `CHIP8E` are those of `CHIP8X`, read from its own memory. -/
theorem every_drawRows (s : Chip8E) (pX n H pY : Nat) {c : Canvas} (h : Every IsPixel c.map) :
    Every IsPixel (drawRows s pX n H pY c).map := by
  induction n generalizing H pY c with
  | zero => exact h
  | succ n ih =>
      rw [drawRows]
      split
      · exact Chip8X.every_drawByte pX pY _ h
      · exact ih _ _ (Chip8X.every_drawByte pX pY _ h)

/-- The three heights of a sprite. -/
theorem every_drawSprite (s : Chip8E) (N : Fin 16) (pX pY : Nat) {c : Canvas}
    (h : Every IsPixel c.map) : Every IsPixel (drawSprite s N pX pY c).map := by
  unfold drawSprite
  split
  · exact h
  · exact Chip8X.every_drawByte pX pY _ h
  · exact every_drawRows s pX _ 0 pY h

/-- Every step of `CHIP8E` keeps the cells pixels. -/
theorem pixelsKept : PixelsKept virtuals Members.displayMap where
  enterLoop := fun _ => rfl
  execute := fun i s s' hs h => by
    cases i with
    | common i =>
        cases h
        exact (executeCommon_frame config i s).2.1.symm ▸ hs
    | i00E0 => cases h; exact hs.fill isPixel_zero
    | i5xy2 X Y =>
        cases h
        exact List.foldlRecOn (motive := fun s : Chip8E => Every IsPixel s.own.displayMap)
          (registersBetween X Y) _ hs fun _ ht _ _ => ht
    | i5xy3 X Y =>
        cases h
        exact List.foldlRecOn (motive := fun s : Chip8E => Every IsPixel s.own.displayMap)
          (registersBetween X Y) _ hs fun _ ht _ _ => ht
    | iDxyN X Y N => cases h; exact every_drawSprite s N _ _ hs
    | _ => cases h; exact hs
  pushAudioData := fun input s => by
    simp only [virtuals, pushAudioData]
    split <;> rfl
  pushVideoData := fun s hs => by
    simp only [virtuals, pushVideoData]
    split
    · exact hs.transform fun _ => IsPixel.fade
    · exact hs
  resetSystemData := fun _ hs => hs.fill isPixel_zero

end Chip8E

/-! ## Sprites that may wrap -/

namespace Chip8Modern

/-- A byte is drawn bit by bit, with or without a wrap. -/
theorem every_drawByte (s : Chip8Modern) (X Y : Nat) (DATA : UInt8) {c : Canvas}
    (h : Every IsPixel c.map) : Every IsPixel (drawByte s X Y DATA c).map := by
  unfold drawByte
  split
  · exact h
  · split
    · exact Canvas.every_flip isPixel_xor h X Y
    · exact Canvas.every_drawBits isPixel_xor _ Y DATA 8 0 X h

/-- A sprite of no rows is one of 16 rows and two bytes each. -/
theorem every_drawSprite (s : Chip8Modern) (N : Fin 16) (pX pY : Nat) {c : Canvas}
    (h : Every IsPixel c.map) : Every IsPixel (drawSprite s N pX pY c).map := by
  unfold drawSprite
  split
  · exact every_drawByte s pX pY _ h
  · exact Canvas.every_drawRows
      (fun _ Y _ hc => every_drawByte s _ Y _ (every_drawByte s _ Y _ hc)) 16 0 pY h
  · exact Canvas.every_drawRows (fun _ Y _ hc => every_drawByte s pX Y _ hc) _ 0 pY h

/-- Every step of `CHIP8_MODERN` keeps the cells pixels. -/
theorem pixelsKept : PixelsKept virtuals Members.displayMap where
  enterLoop := fun _ => rfl
  execute := fun i s s' hs h => by
    cases i with
    | common i =>
        cases h
        exact (executeCommon_frame (config s) i s).2.1.symm ▸ hs
    | i00E0 => cases h; exact hs.fill isPixel_zero
    | iDxyN X Y N => cases h; exact every_drawSprite s N _ _ hs
    | _ => cases h; exact hs
  pushAudioData := fun input s => by
    simp only [virtuals, pushAudioData]
    split <;> rfl
  pushVideoData := fun _ hs => hs.transform fun _ => IsPixel.fade
  resetSystemData := fun _ hs => hs.fill isPixel_zero

end Chip8Modern

namespace SchipModern

/-- Two bytes a row when the height is 0. -/
theorem every_drawSprite (s : SchipModern) (N : Fin 16) (pX pY : Nat) {c : Canvas}
    (h : Every IsPixel c.map) : Every IsPixel (drawSprite s N pX pY c).map := by
  have hbyte (X Y : Nat) (DATA : UInt8) {c : Canvas} (h : Every IsPixel c.map) :
      Every IsPixel (drawByte s X Y DATA c).map := Canvas.every_drawByte isPixel_xor _ X Y DATA h
  unfold drawSprite
  split
  · exact hbyte pX pY _ h
  · exact Canvas.every_drawRows (fun _ Y _ hc => hbyte _ Y _ (hbyte _ Y _ hc)) 16 0 pY h
  · exact Canvas.every_drawRows (fun _ Y _ hc => hbyte pX Y _ hc) _ 0 pY h

/-- A scroll fills in 0, and a change of resolution clears the display. -/
theorem pixelsKept : PixelsKept virtuals Members.displayMap where
  enterLoop := fun _ => rfl
  execute := fun i s s' hs h => by
    cases i with
    | common i =>
        cases h
        exact (executeCommon_frame (config s) i s).2.1.symm ▸ hs
    | i00CN N =>
        cases h
        unfold instruction00CN
        split
        · exact hs.shift _ _ isPixel_zero
        · exact hs
    | i00FB | i00FC => cases h; exact hs.shift _ _ isPixel_zero
    | i00E0 => cases h; exact hs.fill isPixel_zero
    | i00FE =>
        cases h
        exact Every.fill (m := s.own.displayMap.resize (screenW / 2) (screenH / 2)) hs isPixel_zero
    | i00FF =>
        cases h
        exact Every.fill (m := s.own.displayMap.resize screenW screenH) hs isPixel_zero
    | iDxyN X Y N => cases h; exact every_drawSprite s N _ _ hs
    | iFN85 N =>
        obtain ⟨r, _, rfl⟩ := Option.map_eq_some_iff.1 h
        exact hs
    | _ => cases h; exact hs
  pushAudioData := fun input s => by
    simp only [virtuals, pushAudioData]
    split <;> rfl
  pushVideoData := fun s hs => by
    simp only [virtuals, pushVideoData]
    split
    · exact hs.transform fun _ => IsPixel.fade
    · exact hs
  resetSystemData := fun _ hs => hs.fill isPixel_zero

end SchipModern

/-! ## Sprites behind a pointer -/

namespace SchipLegacy

/-- Both resolutions flip cells behind one pointer. -/
theorem every_drawSprite (s : SchipLegacy) (X Y N : Fin 16)
    (h : Every IsPixel s.own.displayMap) : Every IsPixel (drawSprite s X Y N).1 := by
  unfold drawSprite
  split
  · exact RowDraw.every_drawHires isPixel_xor _ _ _ _ _ N h
  · exact RowDraw.every_drawLores isPixel_xor _ _ _ _ _ N h

/-- Every step of `SCHIP_LEGACY` keeps the cells pixels. -/
theorem pixelsKept : PixelsKept virtuals Members.displayMap where
  enterLoop := fun _ => rfl
  execute := fun i s s' hs h => by
    cases i with
    | common i =>
        cases h
        exact (executeCommon_frame (config s) i s).2.1.symm ▸ hs
    | i00CN N => cases h; exact hs.shift _ _ isPixel_zero
    | i00FB | i00FC => cases h; exact hs.shift _ _ isPixel_zero
    | i00E0 => cases h; exact hs.fill isPixel_zero
    | iDxyN X Y N => cases h; exact every_drawSprite s X Y N hs
    | iFN85 N =>
        obtain ⟨r, _, rfl⟩ := Option.map_eq_some_iff.1 h
        exact hs
    | _ => cases h; exact hs
  pushAudioData := fun input s => by
    simp only [virtuals, pushAudioData]
    split <;> rfl
  pushVideoData := fun s hs => by
    simp only [virtuals, pushVideoData]
    split
    · exact hs.transform fun _ => IsPixel.fade
    · exact hs
  resetSystemData := fun _ hs => hs.fill isPixel_zero

end SchipLegacy

namespace Megachip

variable {s : Megachip}

/-- Outside mega mode a sprite is drawn as on `SCHIP_LEGACY`. -/
theorem every_drawSprite (X Y N : Fin 16) (h : Every IsPixel s.own.displayMap) :
    Every IsPixel (drawSprite s X Y N).1 := by
  unfold drawSprite
  split
  · exact RowDraw.every_drawHires isPixel_xor _ _ _ _ _ N h
  · exact RowDraw.every_drawLores isPixel_xor _ _ _ _ _ N h

/-- In mega mode nothing is drawn on the display. -/
theorem displayMap_drawMega (X Y N : Fin 16) :
    (drawMega s X Y N).own.displayMap = s.own.displayMap := by
  unfold drawMega drawTexture
  dsimp only
  split
  · rfl
  · split
    · rfl
    · split <;> rfl

/-- In mega mode a scroll does nothing. -/
theorem every_scroll (cols rows : Int) (h : Every IsPixel s.own.displayMap) :
    Every IsPixel (scroll cols rows s).own.displayMap := by
  unfold scroll
  split
  · exact h
  · exact h.shift _ _ isPixel_zero

/-- In mega mode the display waits as it is for the next change of resolution. -/
theorem pixelsKept : PixelsKept virtuals Members.displayMap where
  enterLoop := fun _ => rfl
  execute := fun i s s' hs h => by
    cases i with
    | common i =>
        cases h
        exact (executeCommon_frame (config s) i s).2.1.symm ▸ hs
    | i00BN | i00CN | i00FB | i00FC => cases h; exact every_scroll _ _ hs
    | i00E0 =>
        cases h
        unfold instruction00E0
        split
        · exact hs
        · exact hs.fill isPixel_zero
    | i060N N =>
        cases h
        unfold instruction060N startAudioTrack
        split <;> exact hs
    | iDxyN X Y N =>
        cases h
        unfold instructionDxyN
        split
        · exact (displayMap_drawMega X Y N).symm ▸ hs
        · exact every_drawSprite X Y N hs
    | iFN85 N =>
        obtain ⟨r, _, rfl⟩ := Option.map_eq_some_iff.1 h
        exact hs
    | _ => cases h; exact hs
  pushAudioData := fun input s => by
    simp only [virtuals, pushAudioData, mixAudioData, makeStreamWave]
    repeat' split
    all_goals rfl
  pushVideoData := fun s hs => by
    simp only [virtuals, pushVideoData]
    split
    · split <;> exact hs
    · exact hs
  resetSystemData := fun _ hs => hs.fill isPixel_zero

end Megachip

/-! ## The tables -/

/-- The two lookups of a pixel, with and without trails, are inside their tables. -/
theorem IsPixel.in_tables {pixel : UInt8} (h : IsPixel pixel) :
    pixel.toNat < 16 ∧ (pixel >>> 3).toNat < bitColors.length := by
  refine ⟨h, ?_⟩
  have hdiv : (pixel >>> 3).toNat = pixel.toNat / 8 := by
    rw [UInt8.toNat_shiftRight, Nat.shiftRight_eq_div_pow]
    rfl
  have hlength : bitColors.length = 16 := rfl
  have hpixel : pixel.toNat < 16 := h
  rw [hdiv, hlength]
  omega

/-- **Every lookup stays in its table.** In every state the six cores reach, and wherever an
instruction of a frame starts, each cell of the display is an index into `c_bit_weight`, and its
lit bit one into `s_bit_colors`. -/
theorem pixels_in_tables (launch : Launch) (unset : Megachip.Unset) :
    HoldsPixels Chip8Modern.virtuals (·.displayMap) (Chip8Modern.boot launch) ∧
      HoldsPixels Chip8E.virtuals (·.displayMap) (Chip8E.boot launch) ∧
      HoldsPixels Chip8X.virtuals (·.displayMap) (Chip8X.boot launch) ∧
      HoldsPixels SchipModern.virtuals (·.displayMap) (SchipModern.boot launch) ∧
      HoldsPixels SchipLegacy.virtuals (·.displayMap) (SchipLegacy.boot launch) ∧
      HoldsPixels Megachip.virtuals (·.displayMap) (Megachip.boot launch unset) ∧
      ∀ pixel, IsPixel pixel → pixel.toNat < 16 ∧ (pixel >>> 3).toNat < bitColors.length :=
  ⟨Chip8Modern.pixelsKept.holdsPixels fun _ => isPixel_zero,
    Chip8E.pixelsKept.holdsPixels fun _ => isPixel_zero,
    Chip8X.pixelsKept.holdsPixels fun _ => isPixel_zero,
    SchipModern.pixelsKept.holdsPixels fun _ => isPixel_zero,
    SchipLegacy.pixelsKept.holdsPixels fun _ => isPixel_zero,
    Megachip.pixelsKept.holdsPixels fun _ => isPixel_zero, fun _ h => h.in_tables⟩

end CubeChip
