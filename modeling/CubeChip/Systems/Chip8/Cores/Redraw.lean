import CubeChip.Utilities.Map2D.Mirror
import CubeChip.Systems.Chip8.Cores.Drawing
import CubeChip.Systems.Chip8.Cores.Megachip
import CubeChip.Systems.Chip8.Cores.SchipLegacy.Display

/-!
# Drawing a sprite twice

A program moves a sprite by drawing it once more where it is: a cell flipped twice is as it was.
It works on every core but in the low resolution of `SCHIP_LEGACY` and `MEGACHIP`, where the lower
line of a pixel is not flipped but copied from the upper one (`DrawnLores.twice_iff`). Where a
core draws past the end of a row it is the masks of the flips that cancel (`Toggled.twice`).
-/

namespace CubeChip

variable {lit : UInt8} {cells : List (Nat × Nat)} {m m' m'' : Map2D UInt8}

/-- A bit that is toggled twice is as it was. -/
theorem xor_xor (v lit : UInt8) : v ^^^ lit ^^^ lit = v := by
  rw [UInt8.xor_assoc, UInt8.xor_self, UInt8.xor_zero]

/-- **Flipping some cells twice.** -/
theorem Flipped.twice (h : Flipped lit cells m m') (h' : Flipped lit cells m' m'') : m'' = m := by
  have hsize := h'.size.trans h.size
  refine Map2D.ext_cells hsize (fun X Y hX hY => ?_) fun i hi => ?_
  · rw [Map2D.width, hsize.1] at hX
    rw [Map2D.height, hsize.2] at hY
    rw [h'.cell X (hX.trans_eq h.size.1.symm) Y (hY.trans_eq h.size.2.symm), h.cell X hX Y hY]
    split
    · exact xor_xor _ lit
    · rfl
  · rw [Map2D.size, hsize.1, hsize.2] at hi
    have hi' : m'.size ≤ i := by
      rw [Map2D.size, h.size.1, h.size.2]
      exact hi
    exact (h'.behind i hi').trans (h.behind i hi)

/-! ## Masks -/

/-- A drawing that changes the byte at each offset by a mask. -/
structure Toggled (mask : Nat → UInt8) (m m' : Map2D UInt8) : Prop where
  size : Map2D.SameSize m' m
  data : ∀ i, m'.data i = m.data i ^^^ mask i

namespace Toggled

variable {mask mask' : Nat → UInt8}

/-- Nothing is toggled. -/
theorem refl (m : Map2D UInt8) : Toggled (fun _ => 0) m m :=
  ⟨⟨rfl, rfl⟩, fun _ => UInt8.xor_zero.symm⟩

/-- What two toggles do together. -/
theorem trans (h : Toggled mask m m') (h' : Toggled mask' m' m'') :
    Toggled (fun i => mask i ^^^ mask' i) m m'' :=
  ⟨h'.size.trans h.size, fun i => by rw [h'.data, h.data, UInt8.xor_assoc]⟩

/-- **The same mask twice.** -/
theorem twice (h : Toggled mask m m') (h' : Toggled mask m' m'') : m'' = m := by
  have hsize := h'.size.trans h.size
  have hdata : ∀ i, m''.data i = m.data i := fun i => by rw [h'.data, h.data, xor_xor]
  refine Map2D.ext_cells hsize (fun X Y _ _ => ?_) fun i _ => hdata i
  rw [Map2D.at2, Map2D.at2, hsize.offset_eq]
  exact hdata _

/-- One byte is changed. -/
theorem update (lit : UInt8) (offset : Nat) (m : Map2D UInt8) :
    Toggled (fun i => if i = offset then lit else 0) m
      { m with data := Function.update m.data offset (m.data offset ^^^ lit) } := by
  refine ⟨⟨rfl, rfl⟩, fun i => ?_⟩
  by_cases hi : i = offset
  · rw [hi, if_pos rfl]
    exact Function.update_self ..
  · rw [if_neg hi, UInt8.xor_zero]
    exact Function.update_of_ne hi ..

end Toggled

section
variable {D ι : Type} {map : D → Map2D UInt8} {W : Nat}

/-- Drawings whose masks do not depend on what is there, one after the other. -/
theorem exists_toggled_foldl {f : D → ι → D}
    (hf : ∀ i, ∃ mask, ∀ d, (map d).width = W → Toggled mask (map d) (map (f d i)))
    (l : List ι) : ∃ mask, ∀ d, (map d).width = W → Toggled mask (map d) (map (l.foldl f d)) := by
  induction l with
  | nil => exact ⟨_, fun d _ => .refl (map d)⟩
  | cons i l ih =>
    obtain ⟨mask, hmask⟩ := hf i
    obtain ⟨mask', hmask'⟩ := ih
    exact ⟨_, fun d hW => (hmask d hW).trans (hmask' (f d i) ((hmask d hW).size.1.trans hW))⟩

end

/-- Flipping the cells of a list twice, however often a cell is in it. -/
theorem Canvas.map_flipAll_twice (lit : UInt8) (cells : List (Nat × Nat)) (m : Map2D UInt8) :
    (flipAll lit cells ⟨(flipAll lit cells ⟨m, 0⟩).map, 0⟩).map = m := by
  have hflip : ∀ p : Nat × Nat, ∃ mask, ∀ c : Canvas, c.map.width = m.width →
      Toggled mask c.map (c.flip lit p.1 p.2).map := fun p => by
    refine ⟨fun i => if i = p.2 * m.width + p.1 then lit else 0, fun c hW => ?_⟩
    rw [← hW]
    exact .update lit (c.map.offset p.1 p.2) c.map
  obtain ⟨mask, hmask⟩ := exists_toggled_foldl hflip cells
  have hfirst := hmask ⟨m, 0⟩ rfl
  exact hfirst.twice (hmask ⟨_, 0⟩ hfirst.size.1)

namespace RowDraw

/-- A row behind a pointer, on a screen that need not be as wide as the map. -/
theorem exists_toggled_drawSingleByte (screenW xBegin yBegin byteW : Nat) (data : UInt32)
    (W : Nat) : ∃ mask, ∀ map : Map2D UInt8, map.width = W →
      Toggled mask map (drawSingleByte screenW xBegin yBegin byteW data map).map := by
  refine ⟨fun i => if ∃ col < min byteW (screenW - xBegin), bitAt byteW data col = true ∧
    i = yBegin * W + xBegin + col then 0x8 else 0, fun map hW => ?_⟩
  subst hW
  refine ⟨sameSize_drawSingleByte .., fun i => ?_⟩
  split
  next h =>
    obtain ⟨col, hcol, hbit, rfl⟩ := h
    exact data_drawSingleByte_of hcol hbit
  next h =>
    rw [UInt8.xor_zero]
    exact data_drawSingleByte_of_not fun col hcol hbit heq => h ⟨col, hcol, hbit, heq⟩

/-- The loop over the rows of a sprite. -/
theorem exists_toggled_countRows (screenH height : Nat) {W : Nat}
    {drawRow : Nat → Nat → Map2D UInt8 → RowDraw Bool}
    (hrow : ∀ row y, ∃ mask, ∀ map : Map2D UInt8, map.width = W →
      Toggled mask map (drawRow row y map).map) (n row y : Nat) :
    ∃ mask, ∀ d : RowDraw Nat, d.map.width = W →
      Toggled mask d.map (countRows screenH height drawRow n row y d).map := by
  induction n generalizing row y with
  | zero => exact ⟨_, fun d _ => .refl d.map⟩
  | succ n ih =>
    obtain ⟨mask, hmask⟩ := hrow row y
    by_cases hlast : y + height = screenH
    · refine ⟨mask, fun d hW => ?_⟩
      rw [countRows, if_pos hlast]
      exact hmask d.map hW
    · obtain ⟨mask', hmask'⟩ := ih (row + 1) (y + height)
      refine ⟨fun i => mask i ^^^ mask' i, fun d hW => ?_⟩
      have hfirst := hmask d.map hW
      rw [countRows, if_neg hlast]
      exact hfirst.trans (hmask' ⟨_, _⟩ (hfirst.size.1.trans hW))

/-- `DxyN` in high resolution, drawn twice. -/
theorem drawHires_twice (screenW screenH : Nat) (byteAt : Nat → UInt8) (VX VY : UInt8)
    (N : Fin 16) (m : Map2D UInt8) : (drawHires screenW screenH byteAt VX VY N
      (drawHires screenW screenH byteAt VX VY N m).map).map = m := by
  have hrow : ∀ row y, ∃ mask, ∀ map : Map2D UInt8, map.width = m.width →
      Toggled mask map (drawSpriteRow screenW byteAt VX N row y map).map :=
    fun _ _ => exists_toggled_drawSingleByte ..
  obtain ⟨mask, hmask⟩ := exists_toggled_countRows screenH 1 hrow (rowCount N) 0
    (VY &&& 0x3F).toNat
  rw [drawHires_eq, drawHires_eq]
  have hfirst := hmask ⟨m, 0⟩ rfl
  exact hfirst.twice (hmask ⟨_, 0⟩ hfirst.size.1)

end RowDraw

/-! ## The low resolution of `SCHIP_LEGACY` -/

namespace SchipLegacy

variable {sp : Sprite} {x y : Nat} {VF VF' : UInt8}

/-- On each row of the sprite that is on the screen, the lower line is as the upper one in the 32
columns `DxyN` copies. -/
def LinesDoubled (sp : Sprite) (x y : Nat) (m : Map2D UInt8) : Prop :=
  ∀ r < sp.rows, y + r * 2 < screenH → ∀ X < screenW, x / 16 * 16 ≤ X → X < x / 16 * 16 + 32 →
    m.at2 X (y + r * 2 + 1) = m.at2 X (y + r * 2)

section
variable (h : DrawnLores sp x y m m' VF) (h' : DrawnLores sp x y m' m'' VF')

include h h' in
/-- The upper lines are flipped twice. -/
theorem DrawnLores.twice_upper {r X : Nat} (hr : r < sp.rows) (hY : y + r * 2 < screenH)
    (hX : X < screenW) : m''.at2 X (y + r * 2) = m.at2 X (y + r * 2) := by
  rw [h'.upper r hr hY X hX, h.upper r hr hY X hX]
  split
  · exact xor_xor _ _
  · rfl

include h h' in
/-- **Drawing twice in low resolution** takes the sprite back where the lines were doubled. -/
theorem DrawnLores.twice_iff (hm : m.width = screenW ∧ m.height = screenH) (hy : 2 ∣ y) :
    m'' = m ↔ LinesDoubled sp x y m := by
  have hsize := h'.size.trans h.size
  have hscreen : ∀ {r}, y + r * 2 < screenH → y + r * 2 + 1 < screenH := fun {r} hY => by
    unfold screenH at hY ⊢
    omega
  constructor
  · rintro rfl r hr hY X hX hfrom hto
    rw [h'.lower r hr hY X hX, if_pos ⟨hfrom, hto⟩]
  · intro hdoubled
    refine Map2D.ext_cells hsize (fun X Y hX hY => ?_) fun i hi => ?_
    · have hX : X < screenW := hX.trans_eq (hsize.1.trans hm.1)
      have hY : Y < screenH := hY.trans_eq (hsize.2.trans hm.2)
      by_cases hrow : ∃ r < sp.rows, Y = y + r * 2 ∨ Y = y + r * 2 + 1
      · obtain ⟨r, hr, rfl | rfl⟩ := hrow
        · exact twice_upper h h' hr hY hX
        · have hY : y + r * 2 < screenH := Nat.lt_of_succ_lt hY
          rw [h'.lower r hr hY X hX]
          split
          next hwindow =>
            rw [twice_upper h h' hr hY hX, hdoubled r hr hY X hX hwindow.1 hwindow.2]
          next hwindow => rw [h.lower r hr hY X hX, if_neg hwindow]
      · have hfar : ∀ r < sp.rows, Y ≠ y + r * 2 ∧ Y ≠ y + r * 2 + 1 := fun r hr =>
          ⟨fun heq => hrow ⟨r, hr, .inl heq⟩, fun heq => hrow ⟨r, hr, .inr heq⟩⟩
        rw [h'.kept Y hY hfar X hX, h.kept Y hY hfar X hX]
    · rw [Map2D.size, hsize.1, hsize.2] at hi
      have hi' : m'.size ≤ i := by
        rw [Map2D.size, h.size.1, h.size.2]
        exact hi
      exact (h'.behind i hi').trans (h.behind i hi)

end

end SchipLegacy

/-! ## `DxyN` -/

variable {X Y N : Fin 16}

/-- The register another one than VF stands for is as it was after VF is written. -/
theorem update_flag {v : Fin 16 → UInt8} {i : Fin 16} (hi : i ≠ 0xF) (VF : UInt8) :
    Function.update v 0xF VF i = v i := Function.update_of_ne hi ..

theorem Chip8Modern.map_instructionDxyN_twice {s : Chip8Modern} (hX : X ≠ 0xF) (hY : Y ≠ 0xF)
    (hW : s.own.displayMap.width = 64) (hH : s.own.displayMap.height = 32) :
    (instructionDxyN (instructionDxyN s X Y N) X Y N).own.displayMap = s.own.displayMap := by
  have hfirst : (instructionDxyN s X Y N).own.displayMap = _ :=
    congrArg Canvas.map (instructionDxyN_eq hW hH X Y N)
  have hsize : Map2D.SameSize (Canvas.flipAll 0x8 (flips s N (beginX s X) (beginY s Y))
    ⟨s.own.displayMap, 0⟩).map s.own.displayMap := Canvas.sameSize_flipAll ..
  rw [← hfirst] at hsize
  have hsecond : _ = _ := congrArg Canvas.map (instructionDxyN_eq (s := instructionDxyN s X Y N)
    (hsize.1.trans hW) (hsize.2.trans hH) X Y N)
  have hflips : flips (instructionDxyN s X Y N) N (beginX (instructionDxyN s X Y N) X)
      (beginY (instructionDxyN s X Y N) Y) = flips s N (beginX s X) (beginY s Y) := by
    have hVX : (instructionDxyN s X Y N).registersV X = s.registersV X := update_flag hX _
    have hVY : (instructionDxyN s X Y N).registersV Y = s.registersV Y := update_flag hY _
    unfold beginX beginY
    rw [hVX, hVY]
    rfl
  rw [hflips, hfirst] at hsecond
  exact hsecond.trans (Canvas.map_flipAll_twice 0x8 _ _)

/-- Two sprites shown at the same place. -/
theorem Shows.twice {wrap : Bool} {byteAt : Nat → UInt8} {VX VY VF VF' : UInt8}
    (h : Shows lit wrap byteAt VX VY N m m' VF) (h' : Shows lit wrap byteAt VX VY N m' m'' VF') :
    m'' = m := by
  have hcells : shownCells wrap byteAt VX VY N m' = shownCells wrap byteAt VX VY N m := by
    have hwidth : m'.width = m.width := h.display.size.1
    have hheight : m'.height = m.height := h.display.size.2
    rw [shownCells, hwidth, hheight, shownCells]
  exact h.display.twice (hcells ▸ h'.display)

theorem Chip8E.map_instructionDxyN_twice {s : Chip8E} (hX : X ≠ 0xF) (hY : Y ≠ 0xF)
    (hW : s.own.displayMap.width = 64) (hH : s.own.displayMap.height = 32) :
    (instructionDxyN (instructionDxyN s X Y N) X Y N).own.displayMap = s.own.displayMap := by
  by_cases hN : N = 0
  · subst hN
    rfl
  · have hfirst := shows (X := X) (Y := Y) hN hW hH
    have hsize := hfirst.display.size
    have hsecond := shows (s := instructionDxyN s X Y N) (X := X) (Y := Y) hN
      (hsize.1.trans hW) (hsize.2.trans hH)
    have hVX : (instructionDxyN s X Y N).registersV X = s.registersV X := update_flag hX _
    have hVY : (instructionDxyN s X Y N).registersV Y = s.registersV Y := update_flag hY _
    rw [hVX, hVY] at hsecond
    exact hfirst.twice hsecond

theorem Chip8X.map_instructionDxyN_twice {s : Chip8X} (hX : X ≠ 0xF) (hY : Y ≠ 0xF)
    (hW : s.own.displayMap.width = 64) (hH : s.own.displayMap.height = 32) :
    (instructionDxyN (instructionDxyN s X Y N) X Y N).own.displayMap = s.own.displayMap := by
  by_cases hN : N = 0
  · subst hN
    rfl
  · have hfirst := shows (X := X) (Y := Y) hN hW hH
    have hsize := hfirst.display.size
    have hsecond := shows (s := instructionDxyN s X Y N) (X := X) (Y := Y) hN
      (hsize.1.trans hW) (hsize.2.trans hH)
    have hVX : (instructionDxyN s X Y N).registersV X = s.registersV X := update_flag hX _
    have hVY : (instructionDxyN s X Y N).registersV Y = s.registersV Y := update_flag hY _
    rw [hVX, hVY] at hsecond
    exact hfirst.twice hsecond

theorem SchipModern.map_instructionDxyN_twice {s : SchipModern} (hX : X ≠ 0xF) (hY : Y ≠ 0xF)
    {w h : Nat} (hW : s.own.displayMap.width = 2 ^ w) (hH : s.own.displayMap.height = 2 ^ h)
    (hw : 16 ≤ 2 ^ w) (hh : 16 ≤ 2 ^ h) :
    (instructionDxyN (instructionDxyN s X Y N) X Y N).own.displayMap = s.own.displayMap := by
  have hfirst := shows (X := X) (Y := Y) (N := N) hW hH hw hh
  have hsize := hfirst.display.size
  have hsecond := shows (s := instructionDxyN s X Y N) (X := X) (Y := Y) (N := N)
    (hsize.1.trans hW) (hsize.2.trans hH) hw hh
  have hVX : (instructionDxyN s X Y N).registersV X = s.registersV X := update_flag hX _
  have hVY : (instructionDxyN s X Y N).registersV Y = s.registersV Y := update_flag hY _
  rw [hVX, hVY] at hsecond
  exact hfirst.twice hsecond

theorem Xochip.map_instructionDxyN_twice {s : Xochip} (hX : X ≠ 0xF) (hY : Y ≠ 0xF)
    (hsize : OneResolution s.own.displayMap) :
    (instructionDxyN (instructionDxyN s X Y N) X Y N).own.displayMap = s.own.displayMap := by
  have hkept : ∀ P, Map2D.SameSize ((instructionDxyN s X Y N).own.displayMap P)
      (s.own.displayMap P) := fun P => by
    rw [displayMap_instructionDxyN hsize]
    split
    · exact Canvas.sameSize_flipAll _ ⟨s.own.displayMap P, 0⟩
    · exact ⟨rfl, rfl⟩
  have hsize' : OneResolution (instructionDxyN s X Y N).own.displayMap := by
    obtain ⟨W, H, hmem, hplanes⟩ := hsize
    exact ⟨W, H, hmem, fun P => ⟨(hkept P).1.trans (hplanes P).1, (hkept P).2.trans (hplanes P).2⟩⟩
  have hVX : (instructionDxyN s X Y N).registersV X = s.registersV X := update_flag hX _
  have hVY : (instructionDxyN s X Y N).registersV Y = s.registersV Y := update_flag hY _
  funext P
  have hcells : planeCells (instructionDxyN s X Y N) X Y N P = planeCells s X Y N P := by
    have hwidth : ((instructionDxyN s X Y N).own.displayMap P).width = _ := (hkept P).1
    have hheight : ((instructionDxyN s X Y N).own.displayMap P).height = _ := (hkept P).2
    unfold planeCells
    dsimp only
    rw [hwidth, hheight, hVX, hVY]
    rfl
  have hmask : (instructionDxyN s X Y N).own.planeMask = s.own.planeMask := rfl
  rw [displayMap_instructionDxyN hsize', hcells, hmask, displayMap_instructionDxyN hsize]
  split
  · exact Canvas.map_flipAll_twice 1 _ _
  · rfl

/-- `DxyN` in low resolution, drawn twice at the same place. -/
theorem RowDraw.drawLores_twice_iff {byteAt : Nat → UInt8} {VX VY : UInt8}
    (hm : m.width = 128 ∧ m.height = 64) :
    (drawLores 128 64 byteAt VX VY N (drawLores 128 64 byteAt VX VY N m).map).map = m ↔
      SchipLegacy.LinesDoubled (SchipLegacy.wideSprite N byteAt) (2 * (VX.toNat % 64))
        (2 * (VY.toNat % 32)) m := by
  have hlores : ∀ {map : Map2D UInt8}, map.width = 128 ∧ map.height = 64 →
      let d := drawLores 128 64 byteAt VX VY N map
      SchipLegacy.DrawnLores (SchipLegacy.wideSprite N byteAt) (2 * (VX.toNat % 64))
        (2 * (VY.toNat % 32)) map d.map (if d.collided ≠ 0 then 1 else 0) :=
    SchipLegacy.drawLores_lores
  have hfirst := hlores hm
  have hsize := hfirst.size
  exact hfirst.twice_iff (hlores ⟨hsize.1.trans hm.1, hsize.2.trans hm.2⟩) hm ⟨_, rfl⟩

namespace SchipLegacy

variable {s : SchipLegacy}

/-- In hi-res a second draw erases the first. -/
theorem map_instructionDxyN_twice (hX : X ≠ 0xF) (hY : Y ≠ 0xF)
    (hhires : s.trait.useHiresScreen = true) :
    (instructionDxyN (instructionDxyN s X Y N) X Y N).own.displayMap = s.own.displayMap := by
  have hVX : (instructionDxyN s X Y N).registersV X = s.registersV X := update_flag hX _
  have hVY : (instructionDxyN s X Y N).registersV Y = s.registersV Y := update_flag hY _
  have hdraw : ∀ t : SchipLegacy, t.trait.useHiresScreen = true →
      (instructionDxyN t X Y N).own.displayMap = (RowDraw.drawHires screenW screenH (spriteByte t)
        (t.registersV X) (t.registersV Y) N t.own.displayMap).map := fun t ht => by
    have hsprite : drawSprite t X Y N = (_, _) := if_pos ht
    exact congrArg Prod.fst hsprite
  rw [hdraw (instructionDxyN s X Y N) hhires, hVX, hVY, hdraw s hhires]
  exact RowDraw.drawHires_twice ..

/-- In lo-res it does where the lines it writes twice agree before. -/
theorem map_instructionDxyN_twice_iff (hX : X ≠ 0xF) (hY : Y ≠ 0xF)
    (hm : s.own.displayMap.width = 128 ∧ s.own.displayMap.height = 64)
    (hlores : s.trait.useHiresScreen = false) :
    (instructionDxyN (instructionDxyN s X Y N) X Y N).own.displayMap = s.own.displayMap ↔
      LinesDoubled (wideSprite N (spriteByte s)) (2 * ((s.registersV X).toNat % 64))
        (2 * ((s.registersV Y).toNat % 32)) s.own.displayMap := by
  have hVX : (instructionDxyN s X Y N).registersV X = s.registersV X := update_flag hX _
  have hVY : (instructionDxyN s X Y N).registersV Y = s.registersV Y := update_flag hY _
  have hdraw : ∀ t : SchipLegacy, t.trait.useHiresScreen = false →
      (instructionDxyN t X Y N).own.displayMap = (RowDraw.drawLores screenW screenH (spriteByte t)
        (t.registersV X) (t.registersV Y) N t.own.displayMap).map := fun t ht => by
    have hsprite : drawSprite t X Y N = (_, _) := if_neg (Bool.eq_false_iff.1 ht)
    exact congrArg Prod.fst hsprite
  rw [hdraw (instructionDxyN s X Y N) hlores, hVX, hVY, hdraw s hlores]
  exact RowDraw.drawLores_twice_iff hm

end SchipLegacy

namespace Megachip

variable {s : Megachip}

/-- `DxyN` outside of the mega mode. -/
theorem instructionDxyN_legacy (hlegacy : s.trait.useManualVsync = false) :
    (instructionDxyN s X Y N).own.displayMap = (drawSprite s X Y N).1 ∧
      (instructionDxyN s X Y N).trait = s.trait ∧
      spriteByte (instructionDxyN s X Y N) = spriteByte s ∧
      ∀ i ≠ 0xF, (instructionDxyN s X Y N).registersV i = s.registersV i := by
  have hdraw : instructionDxyN s X Y N = _ := if_neg (Bool.eq_false_iff.1 hlegacy)
  rw [hdraw]
  exact ⟨rfl, rfl, rfl, fun i hi => update_flag hi _⟩

/-- In hi-res a second draw erases the first. -/
theorem map_instructionDxyN_twice (hX : X ≠ 0xF) (hY : Y ≠ 0xF)
    (hlegacy : s.trait.useManualVsync = false) (hhires : s.trait.useHiresScreen = true) :
    (instructionDxyN (instructionDxyN s X Y N) X Y N).own.displayMap = s.own.displayMap := by
  obtain ⟨hmap, htrait, hbyte, hV⟩ := instructionDxyN_legacy (X := X) (Y := Y) (N := N) hlegacy
  rw [(instructionDxyN_legacy (htrait ▸ hlegacy)).1, drawSprite, htrait, if_pos hhires, hbyte,
    hV X hX, hV Y hY, hmap, drawSprite, if_pos hhires]
  exact RowDraw.drawHires_twice ..

/-- In lo-res it does where the lines it writes twice agree before. -/
theorem map_instructionDxyN_twice_iff (hX : X ≠ 0xF) (hY : Y ≠ 0xF)
    (hm : s.own.displayMap.width = 128 ∧ s.own.displayMap.height = 64)
    (hlegacy : s.trait.useManualVsync = false) (hlores : s.trait.useHiresScreen = false) :
    (instructionDxyN (instructionDxyN s X Y N) X Y N).own.displayMap = s.own.displayMap ↔
      SchipLegacy.LinesDoubled (SchipLegacy.wideSprite N (spriteByte s))
        (2 * ((s.registersV X).toNat % 64)) (2 * ((s.registersV Y).toNat % 32))
        s.own.displayMap := by
  have hlores' : ¬s.trait.useHiresScreen = true := Bool.eq_false_iff.1 hlores
  obtain ⟨hmap, htrait, hbyte, hV⟩ := instructionDxyN_legacy (X := X) (Y := Y) (N := N) hlegacy
  rw [(instructionDxyN_legacy (htrait ▸ hlegacy)).1, drawSprite, htrait, if_neg hlores', hbyte,
    hV X hX, hV Y hY, hmap, drawSprite, if_neg hlores']
  exact RowDraw.drawLores_twice_iff hm

end Megachip

/-- What a second `DxyN` at the same place leaves: on most displays what was there before the
first one. -/
structure RedrawErases (X Y N : Fin 16) : Prop where
  chip8Modern : ∀ s : Chip8Modern, s.own.displayMap.width = 64 → s.own.displayMap.height = 32 →
    ((s.instructionDxyN X Y N).instructionDxyN X Y N).own.displayMap = s.own.displayMap
  chip8E : ∀ s : Chip8E, s.own.displayMap.width = 64 → s.own.displayMap.height = 32 →
    ((s.instructionDxyN X Y N).instructionDxyN X Y N).own.displayMap = s.own.displayMap
  chip8X : ∀ s : Chip8X, s.own.displayMap.width = 64 → s.own.displayMap.height = 32 →
    ((s.instructionDxyN X Y N).instructionDxyN X Y N).own.displayMap = s.own.displayMap
  schipModern : ∀ s : SchipModern,
    (s.own.displayMap.width, s.own.displayMap.height) ∈ [(64, 32), (128, 64)] →
    ((s.instructionDxyN X Y N).instructionDxyN X Y N).own.displayMap = s.own.displayMap
  xochip : ∀ s : Xochip, Xochip.OneResolution s.own.displayMap →
    ((s.instructionDxyN X Y N).instructionDxyN X Y N).own.displayMap = s.own.displayMap
  schipLegacy : ∀ s : SchipLegacy, s.trait.useHiresScreen = true →
    ((s.instructionDxyN X Y N).instructionDxyN X Y N).own.displayMap = s.own.displayMap
  schipLegacyLores : ∀ s : SchipLegacy,
    s.own.displayMap.width = 128 ∧ s.own.displayMap.height = 64 →
    s.trait.useHiresScreen = false →
    (((s.instructionDxyN X Y N).instructionDxyN X Y N).own.displayMap = s.own.displayMap ↔
      SchipLegacy.LinesDoubled (SchipLegacy.wideSprite N s.spriteByte)
        (2 * ((s.registersV X).toNat % 64)) (2 * ((s.registersV Y).toNat % 32)) s.own.displayMap)
  megachip : ∀ s : Megachip, s.trait.useManualVsync = false → s.trait.useHiresScreen = true →
    ((s.instructionDxyN X Y N).instructionDxyN X Y N).own.displayMap = s.own.displayMap
  megachipLores : ∀ s : Megachip,
    s.own.displayMap.width = 128 ∧ s.own.displayMap.height = 64 →
    s.trait.useManualVsync = false → s.trait.useHiresScreen = false →
    (((s.instructionDxyN X Y N).instructionDxyN X Y N).own.displayMap = s.own.displayMap ↔
      SchipLegacy.LinesDoubled (SchipLegacy.wideSprite N s.spriteByte)
        (2 * ((s.registersV X).toNat % 64)) (2 * ((s.registersV Y).toNat % 32)) s.own.displayMap)

/-- **Drawing a sprite twice.** The place must not be in VF, which the first `DxyN` writes. -/
theorem redraw_erases (X Y N : Fin 16) (hX : X ≠ 0xF) (hY : Y ≠ 0xF) : RedrawErases X Y N where
  chip8Modern := fun _ => Chip8Modern.map_instructionDxyN_twice hX hY
  chip8E := fun _ => Chip8E.map_instructionDxyN_twice hX hY
  chip8X := fun _ => Chip8X.map_instructionDxyN_twice hX hY
  schipModern := fun s hsize => by
    rcases List.mem_cons.1 hsize with h | h
    · obtain ⟨hW, hH⟩ := Prod.mk.inj h
      exact SchipModern.map_instructionDxyN_twice hX hY (w := 6) (h := 5) hW hH (by decide)
        (by decide)
    · obtain ⟨hW, hH⟩ := Prod.mk.inj (List.mem_singleton.1 h)
      exact SchipModern.map_instructionDxyN_twice hX hY (w := 7) (h := 6) hW hH (by decide)
        (by decide)
  xochip := fun _ => Xochip.map_instructionDxyN_twice hX hY
  schipLegacy := fun _ => SchipLegacy.map_instructionDxyN_twice hX hY
  schipLegacyLores := fun _ => SchipLegacy.map_instructionDxyN_twice_iff hX hY
  megachip := fun _ => Megachip.map_instructionDxyN_twice hX hY
  megachipLores := fun _ => Megachip.map_instructionDxyN_twice_iff hX hY

/-- The 16x16 sprite at V0 and V1. -/
theorem redraw_erases_large : RedrawErases 0 1 0 := redraw_erases 0 1 0 (by decide) (by decide)

end CubeChip
