import CubeChip.Systems.Chip8.Cores.Megachip
import CubeChip.Systems.Chip8.Cores.SchipLegacy
import CubeChip.Systems.Chip8.RowDraw
import CubeChip.Systems.Chip8.Sprite

/-!
# `MEGACHIP`: the old drawing

Outside mega mode `DxyN` is a copy of the one of `SCHIP_LEGACY`, with the constants of a
256x192 screen halved or cut to a third. `draw_double_byte` and the rows are cut right;
`draw_single_byte` was left with the full 256 columns, so in high resolution the pixels beyond
the right edge are drawn at the start of the next row, or behind the display. The two agree
exactly where no pixel is set there.
-/

namespace CubeChip

namespace RowDraw

/-! ## One row -/

variable {screenW : Nat} {byteAt : Nat → UInt8} {VX VY : UInt8} {N : Fin 16}
  {xBegin yBegin byteW : Nat} {data : UInt32} {map map' : Map2D UInt8}

/-- The columns beyond the last pixel set make no difference. -/
theorem drawSingleByte_narrow {narrow : Nat} (hle : narrow ≤ screenW)
    (h : ∀ col < byteW, bitAt byteW data col = true → xBegin + col < narrow) :
    drawSingleByte screenW xBegin yBegin byteW data map =
      drawSingleByte narrow xBegin yBegin byteW data map := by
  obtain ⟨k, hk⟩ : ∃ k, min byteW (screenW - xBegin) = min byteW (narrow - xBegin) + k :=
    Nat.exists_eq_add_of_le (by omega)
  unfold drawSingleByte
  split
  · rfl
  · rw [hk, List.range_add, List.foldl_append]
    refine List.foldlRecOn (motive := (· = _)) _ _ rfl ?_
    rintro d rfl col hcol
    obtain ⟨j, hj, rfl⟩ := List.mem_map.1 hcol
    rw [List.mem_range] at hj
    refine if_neg fun hbit => ?_
    have := h _ (by omega) hbit
    omega

/-- The cells of the row that are on the screen are cells of the map. -/
theorem offset_lt {col : Nat} (hW : screenW ≤ map.sizeX) (hy : yBegin < map.sizeY)
    (hcol : col < screenW - xBegin) : map.offset xBegin yBegin + col < map.size :=
  calc map.offset xBegin yBegin + col
      = yBegin * map.sizeX + (xBegin + col) := Nat.add_assoc ..
    _ < yBegin * map.sizeX + map.sizeX := Nat.add_lt_add_left (by omega) _
    _ = (yBegin + 1) * map.sizeX := (Nat.succ_mul ..).symm
    _ ≤ map.sizeY * map.sizeX := Nat.mul_le_mul_right _ hy

/-- Maps alike have the same cells in the row. -/
theorem at1_eq {col : Nat} (h : Map2D.SameCells map map') (hW : screenW ≤ map.sizeX)
    (hy : yBegin < map.sizeY) (hcol : col < screenW - xBegin) :
    map.at1 (map.offset xBegin yBegin + col) = map'.at1 (map'.offset xBegin yBegin + col) := by
  rw [← h.1.offset_eq]
  exact h.2 _ (offset_lt hW hy hcol)

theorem sameCells_setAt {col : Nat} {value : UInt8} (h : Map2D.SameCells map map') :
    Map2D.SameCells (setAt map xBegin yBegin col value) (setAt map' xBegin yBegin col value) := by
  refine ⟨h.1, fun i hi => ?_⟩
  simp only [setAt, Map2D.at1, h.1.offset_eq, Function.update_apply]
  split
  · rfl
  · exact h.2 i hi

/-- Two displays that show the same are drawn on alike, by the same draws. -/
def Alike {γ : Type} (d d' : RowDraw γ) : Prop :=
  Map2D.SameCells d.map d'.map ∧ d.collided = d'.collided

theorem alike_drawSingleByte (h : Map2D.SameCells map map') (hW : screenW ≤ map.sizeX)
    (hy : yBegin < map.sizeY) :
    Alike (drawSingleByte screenW xBegin yBegin byteW data map)
      (drawSingleByte screenW xBegin yBegin byteW data map') := by
  unfold drawSingleByte
  split
  · exact ⟨h, rfl⟩
  · refine And.right (Loops.foldl_range_rel
      (R := fun _ d d' => Map2D.SameSize d.map map ∧ Alike d d') ?_ ⟨⟨rfl, rfl⟩, h, rfl⟩)
    rintro col hcol d d' ⟨hsize, hcells, hcollided⟩
    split
    next =>
      have hcell := at1_eq hcells (hsize.1 ▸ hW) (hsize.2 ▸ hy)
        (show col < screenW - xBegin by omega)
      dsimp only
      rw [hcell, hcollided]
      exact ⟨hsize, sameCells_setAt hcells, rfl⟩
    next => exact ⟨hsize, hcells, hcollided⟩

theorem alike_drawDoubleByte (h : Map2D.SameCells map map') (hW : screenW ≤ map.sizeX)
    (hy : yBegin < map.sizeY) :
    Alike (drawDoubleByte screenW xBegin yBegin byteW data map)
      (drawDoubleByte screenW xBegin yBegin byteW data map') := by
  refine And.right (Loops.foldl_range_rel
    (R := fun _ d d' => Map2D.SameSize d.map map ∧ Alike d d') ?_ ⟨⟨rfl, rfl⟩, h, rfl⟩)
  rintro col hcol d d' ⟨hsize, hcells, hcollided⟩
  have hcell := at1_eq hcells (hsize.1 ▸ hW) (hsize.2 ▸ hy) (show col < screenW - xBegin by omega)
  dsimp only
  rw [hcell, hcollided]
  split
  · exact ⟨hsize, sameCells_setAt (sameCells_setAt hcells), rfl⟩
  · exact ⟨hsize, sameCells_setAt hcells, rfl⟩

/-! ## The rows -/

theorem alike_addRow {d d' : RowDraw Nat} {r r' : RowDraw Bool}
    (hcollided : d.collided = d'.collided) (h : Alike r r') :
    Alike (addRow d r) (addRow d' r') := by
  refine ⟨h.1, ?_⟩
  unfold addRow
  rw [hcollided, h.2]

/-- Every pixel of a drawn row that is set is to the left of the screen's right edge. -/
def Inside (byteAt : Nat → UInt8) (VX VY : UInt8) (N : Fin 16) : Prop :=
  ∀ row < rowCount N, (VY &&& 0x3F).toNat + row < 64 → ∀ j < spriteWidth N,
    bitAt (spriteWidth N) (spriteRow byteAt N row) j = true → (VX &&& 0x7F).toNat + j < 128

/-- With all pixels inside, the wider screen makes no difference to a row. -/
theorem drawSpriteRow_inside {row y : Nat} (h : Inside byteAt VX VY N) (hrow : row < rowCount N)
    (hy : y = (VY &&& 0x3F).toNat + row) (hy64 : y < 64) (map : Map2D UInt8) :
    drawSpriteRow 256 byteAt VX N row y map = drawSpriteRow 128 byteAt VX N row y map := by
  refine drawSingleByte_narrow (by decide) fun col hcol hbit => ?_
  obtain ⟨j, hj, heq, hbit⟩ := (bitAt_spriteRow hcol).1 hbit
  rw [heq]
  exact h row hrow (hy ▸ hy64) j hj hbit

/-- The cells of a map's rows from `first` on, up to `last`. -/
def InRows (width first last i : Nat) : Prop :=
  ∃ x < width, ∃ y, first ≤ y ∧ y < last ∧ i = y * width + x

/-- With all pixels inside, the wider screen draws as the other one, and on its rows alone. -/
theorem drawHires_inside {byteAt' : Nat → UInt8} (hsize : map.sizeX = 128 ∧ map.sizeY = 64)
    (hcells : Map2D.SameCells map map') (hbytes : ∀ k < 32, byteAt k = byteAt' k)
    (h : Inside byteAt VX VY N) :
    Alike (drawHires 256 64 byteAt VX VY N map) (drawHires 128 64 byteAt' VX VY N map') ∧
      ∀ i, ¬ InRows 128 (VY &&& 0x3F).toNat
          (min 64 ((VY &&& 0x3F).toNat + rowCount N)) i →
        (drawHires 256 64 byteAt VX VY N map).map.data i = map.data i := by
  rw [drawHires_eq, drawHires_eq]
  refine Exists.elim (countRows_rel
    (drawSpriteRow 256 byteAt VX N) (drawSpriteRow 128 byteAt' VX N) (rowCount N) 0
    (R := fun _ d d' => Map2D.SameSize d.map map ∧ Alike d d' ∧
      ∀ i, ¬ InRows 128 (VY &&& 0x3F).toNat
        (min 64 ((VY &&& 0x3F).toNat + rowCount N)) i → d.map.data i = map.data i)
    (toNat_line VY) (one_dvd _) ?_
    (by exact ⟨⟨rfl, rfl⟩, ⟨hcells, rfl⟩, fun _ _ => rfl⟩)) fun k hk => hk.2.2
  rintro k hk hy d d' ⟨hd, ⟨hmap, hcollided⟩, hframe⟩
  rw [Nat.mul_one] at hy
  have hW : 128 ≤ d.map.sizeX := (hd.1.trans hsize.1).ge
  have hH : (VY &&& 0x3F).toNat + k < d.map.sizeY := by rw [hd.2, hsize.2]; exact hy
  have hnarrow := drawSpriteRow_inside h hk rfl hy d.map
  have hrow : drawSpriteRow 128 byteAt' VX N k ((VY &&& 0x3F).toNat + k) =
      drawSpriteRow 128 byteAt VX N k ((VY &&& 0x3F).toNat + k) := by
    unfold drawSpriteRow
    rw [spriteRow_congr (hk.trans_le (rowCount_le N)) hbytes]
  simp only [Nat.zero_add, Nat.mul_one, hnarrow, hrow]
  have hdraw : Alike (drawSpriteRow 128 byteAt VX N k ((VY &&& 0x3F).toNat + k) d.map)
      (drawSpriteRow 128 byteAt VX N k ((VY &&& 0x3F).toNat + k) d'.map) :=
    alike_drawSingleByte hmap hW hH
  refine ⟨(sameSize_drawSingleByte ..).trans hd, alike_addRow hcollided hdraw, fun i hi => ?_⟩
  rw [← hframe i hi]
  refine data_drawSingleByte_of_not fun col hcol hbit heq => hi ?_
  rw [Map2D.offset, Map2D.width, hd.1, hsize.1, Nat.add_assoc] at heq
  exact ⟨_, by omega, _, Nat.le_add_right _ k, by omega, heq⟩

/-- In low resolution a sprite begins at a line of its own, which takes two rows. -/
theorem lores_begin (VY : UInt8) :
    ((VY.toUInt32 * 2) &&& (0x3E : UInt32)).toNat < 64 ∧
      2 ∣ 64 - ((VY.toUInt32 * 2) &&& (0x3E : UInt32)).toNat := by
  rw [UInt32.toNat_and]
  have hle : (VY.toUInt32 * 2).toNat &&& 0x3E ≤ 0x3E := Nat.and_le_right
  have heven : ((VY.toUInt32 * 2).toNat &&& 0x3E) % 2 = 0 := by
    rw [← Nat.pow_one 2, Nat.and_mod_two_pow]; exact Nat.and_zero _
  change (VY.toUInt32 * 2).toNat &&& 0x3E < 64 ∧ 2 ∣ 64 - ((VY.toUInt32 * 2).toNat &&& 0x3E)
  omega

variable (VX VY N) in
/-- Low resolution draws displays that show the same alike, and on the rows of the sprite alone. -/
theorem drawLores_alike {byteAt' : Nat → UInt8} (hsize : map.sizeX = 128 ∧ map.sizeY = 64)
    (hcells : Map2D.SameCells map map') (hbytes : ∀ k < 32, byteAt k = byteAt' k) :
    Alike (drawLores 128 64 byteAt VX VY N map) (drawLores 128 64 byteAt' VX VY N map') ∧
      ∀ i, ¬ InRows 128 ((VY.toUInt32 * 2) &&& (0x3E : UInt32)).toNat
          (min 64 (((VY.toUInt32 * 2) &&& (0x3E : UInt32)).toNat + 2 * rowCount N)) i →
        (drawLores 128 64 byteAt VX VY N map).map.data i = map.data i := by
  obtain ⟨hlt, hdvd⟩ := lores_begin VY
  unfold drawLores
  generalize hy : ((VY.toUInt32 * 2) &&& (0x3E : UInt32)).toNat = yBegin at hlt hdvd ⊢
  generalize ((VX.toUInt32 * 2) &&& (0x70 : UInt32)).toNat = xBegin
  refine Exists.elim (countRows_rel _ _ (rowCount N) 0
    (R := fun _ d d' => Map2D.SameSize d.map map ∧ Alike d d' ∧
      ∀ i, ¬ InRows 128 yBegin (min 64 (yBegin + 2 * rowCount N)) i →
        d.map.data i = map.data i)
    hlt hdvd ?_
    (by exact ⟨⟨rfl, rfl⟩, ⟨hcells, rfl⟩, fun _ _ => rfl⟩)) fun k hk => hk.2.2
  rintro k hk hky d d' ⟨hd, ⟨hmap, hcollided⟩, hframe⟩
  have hW : 128 ≤ d.map.sizeX := (hd.1.trans hsize.1).ge
  have hH : yBegin + k * 2 < d.map.sizeY := by rw [hd.2, hsize.2]; exact hky
  rw [Nat.zero_add, hbytes k (by have := rowCount_le N; omega)]
  generalize bitDup8 (byteAt' k).toUInt32 <<< (16 - 2 * (VX &&& 0x07).toUInt32) = data
  have hdraw : Alike (drawDoubleByte 128 xBegin (yBegin + k * 2) 0x20 data d.map)
      (drawDoubleByte 128 xBegin (yBegin + k * 2) 0x20 data d'.map) :=
    alike_drawDoubleByte hmap hW hH
  refine ⟨(sameSize_drawDoubleByte ..).trans hd, alike_addRow hcollided hdraw, fun i hi => ?_⟩
  rw [← hframe i hi]
  refine data_drawDoubleByte_of_not (fun col hcol heq => hi ?_) fun col hcol heq => hi ?_
  · rw [Map2D.offset, Map2D.width, hd.1, hsize.1, Nat.add_assoc] at heq
    exact ⟨_, by omega, _, Nat.le_add_right _ (k * 2), by omega, heq⟩
  · rw [Map2D.offset, Map2D.width, hd.1, hsize.1, Nat.add_assoc (_ * 128)] at heq
    exact ⟨_, by omega, yBegin + k * 2 + 1, by omega, by omega, heq⟩

/-! ## Pixels beyond the edge -/

/-- Where a pixel is set beyond the right edge, in the `row`-th row of a sprite: as a cell of the
map it is one at the start of the row below. -/
structure Spills (byteAt : Nat → UInt8) (VX VY : UInt8) (N : Fin 16) (row j : Nat) : Prop where
  row_lt : row < rowCount N
  line_lt : (VY &&& 0x3F).toNat + row < 64
  pixel_lt : j < spriteWidth N
  bit : bitAt (spriteWidth N) (spriteRow byteAt N row) j = true
  beyond : 128 ≤ (VX &&& 0x7F).toNat + j

/-- The cell it falls on. -/
def spillCell (VX VY : UInt8) (row j : Nat) : Nat :=
  ((VY &&& 0x3F).toNat + row) * 128 + ((VX &&& 0x7F).toNat + j)

theorem not_inside_iff :
    ¬ Inside byteAt VX VY N ↔ ∃ row j, Spills byteAt VX VY N row j := by
  unfold Inside
  push Not
  exact ⟨fun ⟨row, h, hy, j, hj, hbit, hle⟩ => ⟨row, j, h, hy, hj, hbit, hle⟩,
    fun ⟨row, j, h⟩ => ⟨row, h.row_lt, h.line_lt, j, h.pixel_lt, h.bit, h.beyond⟩⟩

section
variable {row j : Nat} (h : Spills byteAt VX VY N row j)
include h

/-- Only the last two bytes of a line are that close to the edge. -/
theorem Spills.begin_ge : 112 ≤ (VX &&& 0x78).toNat := by
  have hj := h.pixel_lt
  have hbeyond := h.beyond
  have hwidth := spriteWidth_le N
  have hmod : (VX &&& 0x78).toNat % 8 = 0 := by
    rw [UInt8.toNat_and, ← Nat.pow_one 8, Nat.and_mod_two_pow (n := 3)]; exact Nat.and_zero _
  have := toNat_split VX
  have := toNat_column VX
  omega

/-- A pixel beyond the edge is not far beyond. -/
theorem Spills.column_lt : (VX &&& 0x7F).toNat + j < 144 := by
  have hj := h.pixel_lt
  have hwidth := spriteWidth_le N
  have hbegin := toNat_begin VX
  have hcolumn := toNat_column VX
  rw [toNat_split]
  omega

omit h in
theorem Spills.congr {byteAt' : Nat → UInt8} (h : Spills byteAt VX VY N row j)
    (hbytes : ∀ k < 32, byteAt k = byteAt' k) : Spills byteAt' VX VY N row j where
  row_lt := h.row_lt
  line_lt := h.line_lt
  pixel_lt := h.pixel_lt
  bit := by rw [← spriteRow_congr (h.row_lt.trans_le (rowCount_le N)) hbytes]; exact h.bit
  beyond := h.beyond

/-- On the wider screen the cell is flipped: by its row, and by no other one. -/
theorem Spills.flipped (hsize : map.sizeX = 128) :
    (drawHires 256 64 byteAt VX VY N map).map.data (spillCell VX VY row j) =
      map.data (spillCell VX VY row j) ^^^ 0x8 := by
  have hbegin := h.begin_ge
  have hle := toNat_begin VX
  have hbeyond := h.beyond
  have hbefore := h.column_lt
  have hrow := h.row_lt
  have hy := h.line_lt
  have hj := h.pixel_lt
  have hsplit := toNat_split VX
  have hcolumn := toNat_column VX
  have hwidth := spriteWidth_le N
  rw [drawHires_eq]
  refine Exists.elim (countRows_invariant
    (I := fun k d => Map2D.SameSize d.map map ∧
      d.map.data (spillCell VX VY row j) =
        if row < k then map.data (spillCell VX VY row j) ^^^ 0x8
        else map.data (spillCell VX VY row j))
    (toNat_line VY) (one_dvd _) ?_ (by exact ⟨⟨rfl, rfl⟩, rfl⟩))
    fun k hk => hk.2.2.trans (if_pos (by omega))
  rintro k - hky d ⟨hd, hcell⟩
  rw [Nat.zero_add, Nat.mul_one]
  refine ⟨(sameSize_drawSingleByte ..).trans hd, ?_⟩
  rcases eq_or_ne row k with rfl | hne
  · rw [if_pos (Nat.lt_succ_self row)]
    rw [if_neg (lt_irrefl row)] at hcell
    have hcol : spillCell VX VY row j = d.map.offset (VX &&& 0x78).toNat
        ((VY &&& 0x3F).toNat + row) + ((VX &&& 7).toNat + j) := by
      rw [spillCell, Map2D.offset, Map2D.width, hd.1, hsize]
      omega
    rw [← hcell, hcol]
    exact data_drawSingleByte_of (by omega)
      ((bitAt_spriteRow (by omega)).2 ⟨j, hj, by omega, h.bit⟩)
  · have hlt : row < k + 1 ↔ row < k := by omega
    simp only [hlt]
    rw [← hcell]
    refine data_drawSingleByte_of_not fun col hcol hbit heq => ?_
    rw [spillCell, Map2D.offset, Map2D.width, hd.1, hsize] at heq
    omega

/-- On the narrower screen the cell stays. -/
theorem Spills.kept (hsize : map.sizeX = 128) :
    (drawHires 128 64 byteAt VX VY N map).map.data (spillCell VX VY row j) =
      map.data (spillCell VX VY row j) := by
  have hbegin := h.begin_ge
  have hbeyond := h.beyond
  have hbefore := h.column_lt
  rw [drawHires_eq]
  refine Exists.elim (countRows_invariant
    (I := fun _ d => Map2D.SameSize d.map map ∧
      d.map.data (spillCell VX VY row j) = map.data (spillCell VX VY row j))
    (toNat_line VY) (one_dvd _) ?_ (by exact ⟨⟨rfl, rfl⟩, rfl⟩)) fun k hk => hk.2.2
  rintro k - - d ⟨hd, hcell⟩
  refine ⟨(sameSize_drawSingleByte ..).trans hd, ?_⟩
  rw [← hcell]
  refine data_drawSingleByte_of_not fun col hcol hbit heq => ?_
  rw [spillCell, Map2D.offset, Map2D.width, hd.1, hsize] at heq
  have := toNat_begin VX
  omega

end

end RowDraw

namespace Megachip

open RowDraw

/-! ## The instruction -/

/-- What a `DxyN` of the two cores reads is the same. -/
structure SameInput (s : Megachip) (t : SchipLegacy) : Prop where
  display : Map2D.SameCells s.own.displayMap t.own.displayMap
  registersV : s.registersV = t.registersV
  hiresScreen : s.trait.useHiresScreen = t.trait.useHiresScreen
  sprite : ∀ k < 32, spriteByte s k = SchipLegacy.spriteByte t k

/-- The rows a `DxyN` draws: from this one on, -/
def firstRow (s : Megachip) (Y : Fin 16) : Nat :=
  if s.trait.useHiresScreen then (s.registersV Y &&& 0x3F).toNat
  else (((s.registersV Y).toUInt32 * 2) &&& (0x3E : UInt32)).toNat

/-- and up to this one, which is not among them. -/
def lastRow (s : Megachip) (Y N : Fin 16) : Nat :=
  min 64 (firstRow s Y + (if s.trait.useHiresScreen then 1 else 2) * rowCount N)

/-- The same display and VF, and no cell touched outside the rows drawn. -/
structure DrawnAsLegacy (s : Megachip) (t : SchipLegacy) (X Y N : Fin 16) : Prop where
  display : Map2D.SameCells (instructionDxyN s X Y N).own.displayMap
    (SchipLegacy.instructionDxyN t X Y N).own.displayMap
  VF : (instructionDxyN s X Y N).registersV 0xF =
    (SchipLegacy.instructionDxyN t X Y N).registersV 0xF
  onlyRows : ∀ i, ¬ InRows 128 (firstRow s Y) (lastRow s Y N) i →
    (instructionDxyN s X Y N).own.displayMap.data i = s.own.displayMap.data i

variable {s : Megachip} {t : SchipLegacy} {X Y N : Fin 16}

/-- Waiting for the next frame does not change VF. -/
theorem VF_awaitFrame {bits : Nat} {Own : Type} (s : Core bits Own) (VF : UInt8)
    (flag : QuirkFlag) :
    ((s.onCpu (·.setV 0xF VF)).awaitFrame flag).registersV 0xF = VF := by
  change Function.update s.registersV 0xF VF 0xF = VF
  exact Function.update_self ..

/-- Outside mega mode the display and VF are those of `drawSprite`. -/
theorem displayMap_instructionDxyN (hmega : s.trait.useManualVsync = false) :
    (instructionDxyN s X Y N).own.displayMap = (drawSprite s X Y N).1 := by
  unfold instructionDxyN; rw [hmega]; rfl

theorem VF_instructionDxyN (hmega : s.trait.useManualVsync = false) :
    (instructionDxyN s X Y N).registersV 0xF = (drawSprite s X Y N).2 := by
  unfold instructionDxyN; rw [hmega]
  exact VF_awaitFrame ..

/-- A `DxyN` whose two draws leave the same display and VF, and the rows drawn alone. -/
theorem DrawnAsLegacy.of_drawSprite (hmega : s.trait.useManualVsync = false)
    (hdisplay : Map2D.SameCells (drawSprite s X Y N).1 (SchipLegacy.drawSprite t X Y N).1)
    (hVF : (drawSprite s X Y N).2 = (SchipLegacy.drawSprite t X Y N).2)
    (hrows : ∀ i, ¬ InRows 128 (firstRow s Y) (lastRow s Y N) i →
      (drawSprite s X Y N).1.data i = s.own.displayMap.data i) : DrawnAsLegacy s t X Y N where
  display := by
    rw [displayMap_instructionDxyN hmega]
    exact hdisplay
  VF := by
    rw [VF_instructionDxyN hmega, hVF]
    exact (VF_awaitFrame ..).symm
  onlyRows i hi := by
    rw [displayMap_instructionDxyN hmega]
    exact hrows i hi

theorem drawnAsLegacy_of_inside (hmega : s.trait.useManualVsync = false)
    (hsize : s.own.displayMap.sizeX = 128 ∧ s.own.displayMap.sizeY = 64) (h : SameInput s t)
    (hinside : s.trait.useHiresScreen = true →
      Inside (spriteByte s) (s.registersV X) (s.registersV Y) N) :
    DrawnAsLegacy s t X Y N := by
  have hX := congrFun h.registersV X
  have hY := congrFun h.registersV Y
  cases hhires : s.trait.useHiresScreen with
  | true =>
      obtain ⟨⟨hcells, hcount⟩, hframe⟩ :=
        drawHires_inside hsize h.display h.sprite (hinside hhires)
      have hs : drawSprite s X Y N = (_, _) := if_pos hhires
      have ht : SchipLegacy.drawSprite t X Y N = (_, _) := if_pos (h.hiresScreen ▸ hhires)
      refine .of_drawSprite hmega ?_ ?_ fun i hi => ?_
      · rw [hs, ht, ← hX, ← hY]
        exact hcells
      · rw [hs, ht, ← hX, ← hY]
        exact congrArg UInt8.ofNat hcount
      · rw [hs]
        unfold lastRow firstRow at hi
        rw [hhires] at hi
        exact hframe i (by simpa using hi)
  | false =>
      obtain ⟨⟨hcells, hcount⟩, hframe⟩ :=
        drawLores_alike (s.registersV X) (s.registersV Y) N hsize h.display h.sprite
      have hs : drawSprite s X Y N = (_, _) := if_neg (Bool.eq_false_iff.1 hhires)
      have ht : SchipLegacy.drawSprite t X Y N = (_, _) :=
        if_neg (Bool.eq_false_iff.1 (h.hiresScreen ▸ hhires))
      refine .of_drawSprite hmega ?_ ?_ fun i hi => ?_
      · rw [hs, ht, ← hX, ← hY]
        exact hcells
      · rw [hs, ht, ← hX, ← hY]
        exact congrArg (fun n : Nat => if n ≠ 0 then (1 : UInt8) else 0) hcount
      · rw [hs]
        unfold lastRow firstRow at hi
        rw [hhires] at hi
        exact hframe i (by simpa using hi)

/-- A pixel set beyond the right edge shows at the start of the row below, or is drawn behind the
display. -/
theorem not_drawnAsLegacy_of_spills (hmega : s.trait.useManualVsync = false)
    (hsize : s.own.displayMap.sizeX = 128 ∧ s.own.displayMap.sizeY = 64) (h : SameInput s t)
    (hhires : s.trait.useHiresScreen = true) {row j : Nat}
    (hspills : Spills (spriteByte s) (s.registersV X) (s.registersV Y) N row j) :
    ¬ DrawnAsLegacy s t X Y N := by
  intro hdrawn
  have hlit : (0x8 : UInt8) ≠ 0 := by decide
  have hs : drawSprite s X Y N = (_, _) := if_pos hhires
  have ht : SchipLegacy.drawSprite t X Y N = (_, _) := if_pos (h.hiresScreen ▸ hhires)
  have hflipped := hspills.flipped hsize.1
  have hkept := (hspills.congr h.sprite).kept (h.display.1.1.symm.trans hsize.1)
  generalize spillCell (s.registersV X) (s.registersV Y) row j = i at hflipped hkept
  have hcell : (instructionDxyN s X Y N).own.displayMap.data i =
      s.own.displayMap.data i ^^^ 0x8 := by
    rw [displayMap_instructionDxyN hmega, hs]; exact hflipped
  by_cases hi : i < s.own.displayMap.size
  · have hlegacy : (SchipLegacy.instructionDxyN t X Y N).own.displayMap.data i =
        t.own.displayMap.data i := by
      change (SchipLegacy.drawSprite t X Y N).1.data i = _
      rw [ht, ← congrFun h.registersV X, ← congrFun h.registersV Y]
      exact hkept
    have hsize' : Map2D.SameSize (instructionDxyN s X Y N).own.displayMap s.own.displayMap := by
      rw [displayMap_instructionDxyN hmega, hs]; exact sameSize_drawHires ..
    have hsame := hdrawn.display.2 i (by rw [Map2D.size, hsize'.1, hsize'.2]; exact hi)
    refine Canvas.xor_ne hlit (s.own.displayMap.data i) ?_
    calc s.own.displayMap.data i ^^^ 0x8
        = (instructionDxyN s X Y N).own.displayMap.data i := hcell.symm
      _ = t.own.displayMap.data i := hsame.trans hlegacy
      _ = s.own.displayMap.data i := (h.display.2 i hi).symm
  · refine Canvas.xor_ne hlit (s.own.displayMap.data i) (hcell.symm.trans (hdrawn.onlyRows i ?_))
    rintro ⟨x, hx, y, -, hy, rfl⟩
    rw [Map2D.size, hsize.1, hsize.2] at hi
    unfold lastRow at hy
    omega

/-- Outside mega mode `DxyN` draws as the one of `SCHIP_LEGACY` in low resolution, and in high
resolution exactly if no pixel of the rows drawn is set beyond the right edge. -/
theorem drawnAsLegacy_iff (s : Megachip) (t : SchipLegacy) (X Y N : Fin 16)
    (hmega : s.trait.useManualVsync = false)
    (hsize : s.own.displayMap.sizeX = 128 ∧ s.own.displayMap.sizeY = 64) (h : SameInput s t) :
    DrawnAsLegacy s t X Y N ↔ (s.trait.useHiresScreen = true →
      Inside (spriteByte s) (s.registersV X) (s.registersV Y) N) := by
  refine ⟨fun hdrawn hhires => ?_, drawnAsLegacy_of_inside hmega hsize h⟩
  by_contra hinside
  obtain ⟨row, j, hspills⟩ := not_inside_iff.1 hinside
  exact not_drawnAsLegacy_of_spills hmega hsize h hhires hspills hdrawn

/-! ## Byte 7 of a line, column 7 -/

/-- Both cores in high resolution with a blank display, all ones in memory, and VX at 127. -/
def edge : Megachip :=
  { construct (Launch.ofProgram []) Unset.zero with
    trait := { (construct (Launch.ofProgram []) Unset.zero).trait with useHiresScreen := true }
    registersV := fun i => if i = 0 then 127 else 0
    memory := ⟨fun _ => 0xFF⟩ }

def edgeLegacy : SchipLegacy :=
  { SchipLegacy.construct (Launch.ofProgram []) with
    trait := { (SchipLegacy.construct (Launch.ofProgram [])).trait with useHiresScreen := true }
    registersV := fun i => if i = 0 then 127 else 0
    memory := ⟨fun _ => 0xFF⟩ }

theorem sameInput_edge : SameInput edge edgeLegacy where
  display := ⟨⟨rfl, rfl⟩, fun _ _ => rfl⟩
  registersV := rfl
  hiresScreen := rfl
  sprite := fun _ _ => rfl

/-- `D011` there draws its second pixel at the start of the next row. -/
theorem not_drawnAsLegacy_edge : edge.trait.useManualVsync = false ∧
    (edge.own.displayMap.sizeX = 128 ∧ edge.own.displayMap.sizeY = 64) ∧
    SameInput edge edgeLegacy ∧ ¬ DrawnAsLegacy edge edgeLegacy 0 1 1 := by
  have hspills : Spills (spriteByte edge) (edge.registersV 0) (edge.registersV 1) 1 0 1 :=
    ⟨by decide, by decide, by decide, by decide, by decide⟩
  exact ⟨rfl, ⟨rfl, rfl⟩, sameInput_edge,
    not_drawnAsLegacy_of_spills rfl ⟨rfl, rfl⟩ sameInput_edge rfl hspills⟩

/-- The same sprite at the left edge. -/
theorem drawnAsLegacy_iff_edge :
    DrawnAsLegacy edge edgeLegacy 1 1 1 ↔ (edge.trait.useHiresScreen = true →
      Inside (spriteByte edge) (edge.registersV 1) (edge.registersV 1) 1) :=
  drawnAsLegacy_iff edge edgeLegacy 1 1 1 rfl ⟨rfl, rfl⟩ sameInput_edge

end Megachip

end CubeChip
