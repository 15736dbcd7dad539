import CubeChip.Utilities.ArrayOps
import CubeChip.Utilities.ColorOps
import CubeChip.Utilities.Map2D

/-!
# Drawing sprites

`draw_byte` of `SCHIP_MODERN`, `XOCHIP` and `CHIP8_MODERN`, and the loop over the rows around
it: the three differ in the bit of a cell that is lit and in where the rows come from. Then
`draw_single_byte` and `draw_double_byte` of `SCHIP_LEGACY` and `MEGACHIP`, which work on a
row of the display from a pointer on and count the rows that collide.
-/

namespace CubeChip

/-- The display drawn on, and VF. -/
structure Canvas where
  map : Map2D UInt8
  VF : UInt8

namespace Canvas

/-- Flip the lit bit of a cell; VF becomes 1 if that turned it off. -/
def flip (lit : UInt8) (X Y : Nat) (c : Canvas) : Canvas :=
  let cell := c.map.at2 X Y ^^^ lit
  ⟨c.map.set2 X Y cell, if cell &&& lit = 0 then 1 else c.VF⟩

/-- The loop over the bits from `B` on, with `n` of them left. -/
def drawBits (wrap : Bool) (lit : UInt8) (Y : Nat) (DATA : UInt8) :
    Nat → Nat → Nat → Canvas → Canvas
  | 0, _, _, c => c
  | n + 1, B, X, c =>
      let c := if DATA.toNat.testBit (7 - B) then c.flip lit X Y else c
      if !wrap && X == c.map.width - 1 then c
      else drawBits wrap lit Y DATA n (B + 1) ((X + 1) &&& (c.map.width - 1)) c

/-- `draw_byte`. -/
def drawByte (wrap : Bool) (lit : UInt8) (X Y : Nat) (DATA : UInt8) (c : Canvas) : Canvas :=
  let X := if wrap then X &&& (c.map.width - 1) else X
  if DATA = 0b00000000 then c
  else if DATA = 0b10000000 then if X < c.map.width then c.flip lit X Y else c
  else if !wrap && c.map.width ≤ X then c
  else drawBits wrap lit Y DATA 8 0 X c

/-- The loop over the rows from `row` on, with `n` of them left. -/
def drawRows (wrap : Bool) (drawRow : Nat → Nat → Canvas → Canvas) :
    Nat → Nat → Nat → Canvas → Canvas
  | 0, _, _, c => c
  | n + 1, row, Y, c =>
      let c := drawRow row Y c
      if !wrap && Y == c.map.height - 1 then c
      else drawRows wrap drawRow n (row + 1) ((Y + 1) &&& (c.map.height - 1)) c

/-! ## Sizes -/

/-- A cell flipped or not. -/
theorem sameSize_flip (bit : Bool) (lit : UInt8) (X Y : Nat) (c : Canvas) :
    Map2D.SameSize (if bit then c.flip lit X Y else c).map c.map := by
  cases bit <;> exact ⟨rfl, rfl⟩

/-- The loop over the bits of a byte sets cells only. -/
theorem sameSize_drawBits (wrap : Bool) (lit : UInt8) (Y : Nat) (DATA : UInt8) (n B X : Nat)
    (c : Canvas) : Map2D.SameSize (drawBits wrap lit Y DATA n B X c).map c.map := by
  induction n generalizing B X c with
  | zero => exact ⟨rfl, rfl⟩
  | succ n ih =>
      have hflip := sameSize_flip (DATA.toNat.testBit (7 - B)) lit X Y c
      rw [drawBits]
      generalize (if DATA.toNat.testBit (7 - B) then c.flip lit X Y else c) = c' at hflip ⊢
      split
      · exact hflip
      · exact (ih _ _ _).trans hflip

/-- So does a byte, -/
theorem sameSize_drawByte (wrap : Bool) (lit : UInt8) (X Y : Nat) (DATA : UInt8) (c : Canvas) :
    Map2D.SameSize (c.drawByte wrap lit X Y DATA).map c.map := by
  unfold drawByte
  generalize (if wrap then X &&& (c.map.width - 1) else X) = X
  dsimp only
  split
  · exact ⟨rfl, rfl⟩
  · split
    · split <;> exact ⟨rfl, rfl⟩
    · split
      · exact ⟨rfl, rfl⟩
      · exact sameSize_drawBits ..

/-- and a sprite of rows that do. -/
theorem sameSize_drawRows {wrap : Bool} {drawRow : Nat → Nat → Canvas → Canvas}
    (hrow : ∀ row Y c, Map2D.SameSize (drawRow row Y c).map c.map) (n row Y : Nat)
    (c : Canvas) : Map2D.SameSize (drawRows wrap drawRow n row Y c).map c.map := by
  induction n generalizing row Y c with
  | zero => exact ⟨rfl, rfl⟩
  | succ n ih =>
      rw [drawRows]
      split
      · exact hrow row Y c
      · exact (ih _ _ _).trans (hrow row Y c)

end Canvas

/-! ## Rows behind a pointer -/

/-- A display, and whether (or in how many rows) something collided. -/
structure RowDraw (γ : Type) where
  map : Map2D UInt8
  collided : γ

namespace RowDraw

/-- `px_row[col] = value` for the row behind `&map(xBegin, yBegin)`. -/
def setAt (map : Map2D UInt8) (xBegin yBegin col : Nat) (value : UInt8) : Map2D UInt8 :=
  { map with data := Function.update map.data (map.offset xBegin yBegin + col) value }

/-- The bit of `data` drawn in a column. -/
def bitAt (byteW : Nat) (data : UInt32) (col : Nat) : Bool := data.toNat.testBit (byteW - 1 - col)

/-- `draw_single_byte` on a screen said to be `screenW` wide. -/
def drawSingleByte (screenW xBegin yBegin byteW : Nat) (data : UInt32) (map : Map2D UInt8) :
    RowDraw Bool :=
  if data = 0 then ⟨map, false⟩
  else
    (List.range (min byteW (screenW - xBegin))).foldl (fun d col =>
      if bitAt byteW data col then
        let cell := d.map.at1 (d.map.offset xBegin yBegin + col)
        ⟨setAt d.map xBegin yBegin col (cell ^^^ 0x8), d.collided || cell &&& 0x8 != 0⟩
      else d) ⟨map, false⟩

/-- `draw_double_byte`: the lower row becomes a copy of the upper one. -/
def drawDoubleByte (screenW xBegin yBegin byteW : Nat) (data : UInt32) (map : Map2D UInt8) :
    RowDraw Bool :=
  (List.range (min byteW (screenW - xBegin))).foldl (fun d col =>
    let cell := d.map.at1 (d.map.offset xBegin yBegin + col)
    if bitAt byteW data col then
      ⟨setAt (setAt d.map xBegin yBegin col (cell ^^^ 0x8)) xBegin (yBegin + 1) col
          (cell ^^^ 0x8), d.collided || cell &&& 0x8 != 0⟩
    else ⟨setAt d.map xBegin (yBegin + 1) col cell, d.collided⟩) ⟨map, false⟩

/-- The loop over the rows of a sprite, `height` apart, with `n` of them left. -/
def countRows (screenH height : Nat) (drawRow : Nat → Nat → Map2D UInt8 → RowDraw Bool) :
    Nat → Nat → Nat → RowDraw Nat → RowDraw Nat
  | 0, _, _, d => d
  | n + 1, row, y, d =>
      let r := drawRow row y d.map
      let d := ⟨r.map, d.collided + if r.collided then 1 else 0⟩
      if y + height = screenH then d
      else countRows screenH height drawRow n (row + 1) (y + height) d

/-- `DxyN` in high resolution: the display, and the rows that collided. -/
def drawHires (screenW screenH : Nat) (byteAt : Nat → UInt8) (VX VY : UInt8) (N : Fin 16)
    (map : Map2D UInt8) : RowDraw Nat :=
  let xShift := 8 - (VX &&& 7).toUInt32
  let xBegin := (VX &&& 0x78).toNat
  let yBegin := (VY &&& 0x3F).toNat
  if N = 0 then
    countRows screenH 1 (fun row y map =>
      drawSingleByte screenW xBegin y (if xShift ≠ 0 then 24 else 16)
        ((((byteAt (2 * row + 0)).toUInt32 <<< 8) ||| (byteAt (2 * row + 1)).toUInt32)
          <<< xShift) map) 16 0 yBegin ⟨map, 0⟩
  else
    countRows screenH 1 (fun row y map =>
      drawSingleByte screenW xBegin y (if xShift ≠ 0 then 16 else 8)
        ((byteAt row).toUInt32 <<< xShift) map) N.val 0 yBegin ⟨map, 0⟩

/-- `DxyN` in low resolution: the display, and the rows that collided. -/
def drawLores (screenW screenH : Nat) (byteAt : Nat → UInt8) (VX VY : UInt8) (N : Fin 16)
    (map : Map2D UInt8) : RowDraw Nat :=
  let xShift := 16 - 2 * (VX &&& 0x07).toUInt32
  let xBegin := ((VX.toUInt32 * 2) &&& (0x70 : UInt32)).toNat
  let yBegin := ((VY.toUInt32 * 2) &&& (0x3E : UInt32)).toNat
  countRows screenH 2 (fun row y map =>
    drawDoubleByte screenW xBegin y 0x20 (bitDup8 (byteAt row).toUInt32 <<< xShift) map)
    (if N = 0 then 16 else N.val) 0 yBegin ⟨map, 0⟩

/-- A loop over columns keeps the size if its body does. -/
theorem sameSize_foldl {f : RowDraw Bool → Nat → RowDraw Bool}
    (hf : ∀ d col, Map2D.SameSize (f d col).map d.map) (cols : List Nat) (d : RowDraw Bool) :
    Map2D.SameSize (cols.foldl f d).map d.map := by
  induction cols generalizing d with
  | nil => exact ⟨rfl, rfl⟩
  | cons col cols ih => exact (ih (f d col)).trans (hf d col)

theorem sameSize_drawSingleByte (screenW xBegin yBegin byteW : Nat) (data : UInt32)
    (map : Map2D UInt8) :
    Map2D.SameSize (drawSingleByte screenW xBegin yBegin byteW data map).map map := by
  unfold drawSingleByte
  split
  · exact ⟨rfl, rfl⟩
  · refine sameSize_foldl (fun d col => ?_) _ ⟨map, false⟩
    split <;> exact ⟨rfl, rfl⟩

theorem sameSize_drawDoubleByte (screenW xBegin yBegin byteW : Nat) (data : UInt32)
    (map : Map2D UInt8) :
    Map2D.SameSize (drawDoubleByte screenW xBegin yBegin byteW data map).map map := by
  refine sameSize_foldl (fun d col => ?_) _ ⟨map, false⟩
  dsimp only
  split <;> exact ⟨rfl, rfl⟩

theorem sameSize_countRows {screenH height : Nat}
    {drawRow : Nat → Nat → Map2D UInt8 → RowDraw Bool}
    (hrow : ∀ row y map, Map2D.SameSize (drawRow row y map).map map) (n row y : Nat)
    (d : RowDraw Nat) :
    Map2D.SameSize (countRows screenH height drawRow n row y d).map d.map := by
  induction n generalizing row y d with
  | zero => exact ⟨rfl, rfl⟩
  | succ n ih =>
      rw [countRows]
      split
      · exact hrow row y d.map
      · exact (ih _ _ _).trans (hrow row y d.map)

/-- A hi-res sprite keeps the size of the display. -/
theorem sameSize_drawHires (screenW screenH : Nat) (byteAt : Nat → UInt8) (VX VY : UInt8)
    (N : Fin 16) (map : Map2D UInt8) :
    Map2D.SameSize (drawHires screenW screenH byteAt VX VY N map).map map := by
  unfold drawHires
  dsimp only
  split
  · exact sameSize_countRows (fun _ _ _ => sameSize_drawSingleByte ..) ..
  · exact sameSize_countRows (fun _ _ _ => sameSize_drawSingleByte ..) ..

/-- So does a lo-res one. -/
theorem sameSize_drawLores (screenW screenH : Nat) (byteAt : Nat → UInt8) (VX VY : UInt8)
    (N : Fin 16) (map : Map2D UInt8) :
    Map2D.SameSize (drawLores screenW screenH byteAt VX VY N map).map map :=
  sameSize_countRows (fun _ _ _ => sameSize_drawDoubleByte ..) ..

end RowDraw

end CubeChip
