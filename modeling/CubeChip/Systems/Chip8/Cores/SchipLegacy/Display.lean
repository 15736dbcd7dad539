import CubeChip.Systems.Chip8.Cores.SchipLegacy
import CubeChip.Systems.Chip8.RowDraw
import CubeChip.Systems.Chip8.Sprite

/-!
# `SCHIP_LEGACY`: the display specification

`guides/Legacy (Original) SuperCHIP Display Specification.md` against `DxyN`. In extended mode a
sprite is 8 pixels by `N`, or 16 by 16, and VF counts the rows that turn a pixel off. In low
resolution its pixels are 2x2 blocks: the upper row of a block is flipped and then copied to the
lower one, over the whole 32 columns from a 16-column zone on that a shifted byte may reach.
-/

namespace CubeChip

namespace SchipLegacy

/-! ## The specification -/

/-- A sprite of low resolution: two columns to a pixel, and 16 rows for `N = 0`. -/
def wideSprite (N : Fin 16) (byteAt : Nat → UInt8) : Sprite :=
  ⟨if N = 0 then 16 else N, 16, fun r c => (byteAt r).toNat.testBit (7 - c / 2)⟩

/-- The cells of line `Y` under row `r` of a sprite, clipped at the right edge. -/
def rowCells (sp : Sprite) (x r Y : Nat) : List (Nat × Nat) :=
  (sp.columns false screenW x r).map (·, Y)

/-- What a sprite in extended mode leaves: VF counts the rows on the screen that turn a pixel
off. -/
structure DrawnExtended (sp : Sprite) (x y : Nat) (m m' : Map2D UInt8) (VF : UInt8) : Prop where
  flipped : Flipped 0x8 (sp.cells false screenW screenH x y) m m'
  VF : VF.toNat = (List.range sp.rows).countP fun r =>
    y + r < screenH && TurnsOff 0x8 (rowCells sp x r (y + r)) m

/-- What a sprite in low resolution leaves, on the two lines of each of its rows and elsewhere. -/
structure DrawnLores (sp : Sprite) (x y : Nat) (m m' : Map2D UInt8) (VF : UInt8) : Prop where
  size : Map2D.SameSize m' m
  upper : ∀ r < sp.rows, y + r * 2 < screenH → ∀ X < screenW, m'.at2 X (y + r * 2) =
    if X ∈ sp.columns false screenW x r then m.at2 X (y + r * 2) ^^^ 0x8 else m.at2 X (y + r * 2)
  lower : ∀ r < sp.rows, y + r * 2 < screenH → ∀ X < screenW, m'.at2 X (y + r * 2 + 1) =
    if x / 16 * 16 ≤ X ∧ X < x / 16 * 16 + 32 then m'.at2 X (y + r * 2)
    else m.at2 X (y + r * 2 + 1)
  kept : ∀ Y < screenH, (∀ r < sp.rows, Y ≠ y + r * 2 ∧ Y ≠ y + r * 2 + 1) →
    ∀ X < screenW, m'.at2 X Y = m.at2 X Y
  behind : ∀ i ≥ m.size, m'.at1 i = m.at1 i
  VF : VF = if ∃ r < sp.rows, y + r * 2 < screenH ∧ TurnsOff 0x8 (rowCells sp x r (y + r * 2)) m
    then 1 else 0

/-- `DxyN` draws as the guide has it: only where a sprite begins does it wrap. -/
structure DrawsAsGuide (s : SchipLegacy) (X Y N : Fin 16) : Prop where
  extended : s.trait.useHiresScreen = true →
    DrawnExtended (Sprite.ofBytes N (spriteByte s)) ((s.registersV X).toNat % 128)
      ((s.registersV Y).toNat % 64) s.own.displayMap (instructionDxyN s X Y N).own.displayMap
      ((instructionDxyN s X Y N).registersV 0xF)
  lores : s.trait.useHiresScreen = false →
    DrawnLores (wideSprite N (spriteByte s)) (2 * ((s.registersV X).toNat % 64))
      (2 * ((s.registersV Y).toNat % 32)) s.own.displayMap
      (instructionDxyN s X Y N).own.displayMap ((instructionDxyN s X Y N).registersV 0xF)

/-! ## Extended mode -/

open RowDraw

variable {byteAt : Nat → UInt8} {VX VY : UInt8} {N : Fin 16} {m map : Map2D UInt8}

theorem rows_ofBytes : (Sprite.ofBytes N byteAt).rows = rowCount N := by
  unfold Sprite.ofBytes rowCount
  split <;> rfl

theorem cols_ofBytes : (Sprite.ofBytes N byteAt).cols = spriteWidth N := by
  unfold Sprite.ofBytes spriteWidth
  split <;> rfl

/-- The pixels of a row are the bits of its bytes. -/
theorem pixel_ofBytes {row j : Nat} (hj : j < spriteWidth N) :
    (Sprite.ofBytes N byteAt).pixel row j =
      bitAt (spriteWidth N) (spriteRow byteAt N row) j := by
  unfold Sprite.ofBytes spriteWidth spriteRow bitAt at *
  by_cases hN : N = 0
  · simp only [if_pos hN] at hj ⊢
    have hhi : ((byteAt (2 * row + 0)).toUInt32 <<< 8).toNat =
        (byteAt (2 * row + 0)).toNat <<< 8 := by
      have hlt := (byteAt (2 * row + 0)).toNat_lt
      rw [UInt32.toNat_shiftLeft, UInt8.toNat_toUInt32]
      exact Nat.mod_eq_of_lt (by rw [Nat.shiftLeft_eq]; change _ * 2 ^ 8 < _; omega)
    rw [UInt32.toNat_or, hhi, UInt8.toNat_toUInt32, Nat.testBit_or, Nat.testBit_shiftLeft]
    rcases Nat.lt_or_ge j 8 with hlt | hge
    · have hlo : (byteAt (2 * row + 1)).toNat.testBit (16 - 1 - j) = false :=
        Nat.testBit_lt_two_pow ((byteAt _).toNat_lt.trans_le
          (Nat.pow_le_pow_right (by decide) (by omega)))
      rw [hlo, Bool.or_false, decide_eq_true (by omega), Bool.true_and, Nat.div_eq_of_lt hlt,
        Nat.mod_eq_of_lt hlt]
      congr 1
      omega
    · have hdiv : j / 8 = 1 := by omega
      rw [decide_eq_false (by omega), Bool.false_and, Bool.false_or, hdiv]
      congr 1
      omega
  · rw [if_neg hN]
    simp only [if_neg hN, UInt8.toNat_toUInt32]

/-- The columns of a row are those of its window that are on the screen. -/
theorem mem_columns_ofBytes {row X : Nat} :
    X ∈ (Sprite.ofBytes N byteAt).columns false screenW (VX &&& 0x7F).toNat row ↔
      ∃ col < min (spriteWidth N + 8) (screenW - (VX &&& 0x78).toNat),
        bitAt (spriteWidth N + 8) (spriteRow byteAt N row <<< (8 - (VX &&& 7).toUInt32)) col =
          true ∧ X = (VX &&& 0x78).toNat + col := by
  have hsplit := toNat_split VX
  have hcolumn := toNat_column VX
  rw [Sprite.mem_columns, cols_ofBytes]
  constructor
  · rintro ⟨j, hj, hpixel, hX⟩
    obtain ⟨hlt, rfl⟩ := place_false.1 hX
    refine ⟨(VX &&& 7).toNat + j, by omega, ?_, by omega⟩
    exact (bitAt_spriteRow (by omega)).2 ⟨j, hj, by omega, (pixel_ofBytes hj).symm.trans hpixel⟩
  · rintro ⟨col, hcol, hbit, rfl⟩
    obtain ⟨j, hj, heq, hpixel⟩ := (bitAt_spriteRow (by omega)).1 hbit
    exact ⟨j, hj, (pixel_ofBytes hj).trans hpixel, place_false.2 ⟨by omega, heq⟩⟩

theorem lit_iff (cell : UInt8) : cell &&& 0x8 = 0x8 ↔ cell &&& 0x8 ≠ 0 := by
  have h : ∀ n < 256, n &&& 8 = 8 ↔ n &&& 8 ≠ 0 := by decide +kernel
  have hcell := h cell.toNat cell.toNat_lt
  rwa [← UInt8.toNat_inj, ne_eq, ← UInt8.toNat_inj, UInt8.toNat_and]

theorem turnsOff_rowCells {sp : Sprite} {x r Y : Nat} : TurnsOff 0x8 (rowCells sp x r Y) m ↔
    ∃ X ∈ sp.columns false screenW x r, m.at2 X Y &&& 0x8 ≠ 0 := by
  constructor
  · rintro ⟨p, hp, hlit⟩
    obtain ⟨X, hX, rfl⟩ := List.mem_map.1 hp
    exact ⟨X, hX, (lit_iff _).1 hlit⟩
  · rintro ⟨X, hX, hlit⟩
    exact ⟨(X, Y), List.mem_map.2 ⟨X, hX, rfl⟩, (lit_iff _).2 hlit⟩

/-- A row in extended mode, on its line. -/
theorem drawSpriteRow_line (byteAt : Nat → UInt8) (VX : UInt8) (N : Fin 16) (row y : Nat)
    (m : Map2D UInt8) :
    (∀ X < screenW, (drawSpriteRow screenW byteAt VX N row y m).map.at2 X y =
      if X ∈ (Sprite.ofBytes N byteAt).columns false screenW (VX &&& 0x7F).toNat row
      then m.at2 X y ^^^ 0x8 else m.at2 X y) ∧
    (drawSpriteRow screenW byteAt VX N row y m).collided =
      decide (TurnsOff 0x8 (rowCells (Sprite.ofBytes N byteAt) (VX &&& 0x7F).toNat row y) m) := by
  have hat : ∀ X, m.at2 X y = m.data (y * m.width + X) := fun X => rfl
  have hoffset : ∀ col, m.offset (VX &&& 0x78).toNat y + col =
      y * m.width + ((VX &&& 0x78).toNat + col) := fun col => Nat.add_assoc ..
  refine ⟨fun X hX => ?_, ?_⟩
  · rw [drawSpriteRow, Map2D.at2, (sameSize_drawSingleByte ..).offset_eq, hat, Map2D.offset]
    split
    next h =>
      obtain ⟨col, hcol, hbit, rfl⟩ := mem_columns_ofBytes.1 h
      rw [← hoffset]
      exact data_drawSingleByte_of hcol hbit
    next h =>
      refine data_drawSingleByte_of_not fun col hcol hbit heq => h ?_
      rw [hoffset] at heq
      exact mem_columns_ofBytes.2 ⟨col, hcol, hbit, by omega⟩
  · rw [Bool.eq_iff_iff, decide_eq_true_eq, turnsOff_rowCells, drawSpriteRow,
      collided_drawSingleByte]
    constructor
    · rintro ⟨col, hcol, hbit, hlit⟩
      rw [hoffset] at hlit
      exact ⟨_, mem_columns_ofBytes.2 ⟨col, hcol, hbit, rfl⟩, hlit⟩
    · rintro ⟨X, hX, hlit⟩
      obtain ⟨col, hcol, hbit, rfl⟩ := mem_columns_ofBytes.1 hX
      refine ⟨col, hcol, hbit, ?_⟩
      rw [hoffset]
      exact hlit

/-- On the first of its lines row `k` of a sprite is flipped. -/
def RowFlipped (height : Nat) (sp : Sprite) (x y : Nat) (map : Map2D UInt8) (k : Nat)
    (m : Map2D UInt8) : Prop :=
  ∀ X < screenW, m.at2 X (y + k * height) =
    if X ∈ sp.columns false screenW x k then map.at2 X (y + k * height) ^^^ 0x8
    else map.at2 X (y + k * height)

/-- And there it turns a pixel off. -/
def rowHits (height : Nat) (sp : Sprite) (x y : Nat) (map : Map2D UInt8) (k : Nat) : Bool :=
  TurnsOff 0x8 (rowCells sp x k (y + k * height)) map

theorem turnsOff_congr {sp : Sprite} {x r Y : Nat} (hwidth : map.width = screenW)
    (h : SameLine map m Y) :
    TurnsOff 0x8 (rowCells sp x r Y) m ↔ TurnsOff 0x8 (rowCells sp x r Y) map := by
  rw [turnsOff_rowCells, turnsOff_rowCells]
  refine exists_congr fun X => and_congr_right fun hX => ?_
  obtain ⟨c, -, -, hplace⟩ := (Sprite.mem_columns sp).1 hX
  rw [h X (hwidth.symm ▸ place_lt (by decide) hplace)]

/-- The cells of a clipped sprite, by rows. -/
theorem mem_cells_clipped {sp : Sprite} {x y X Y : Nat} :
    (X, Y) ∈ sp.cells false screenW screenH x y ↔
      ∃ r < sp.rows, (Y < screenH ∧ Y = y + r) ∧ X ∈ sp.columns false screenW x r := by
  rw [Sprite.mem_cells]
  simp only [Sprite.mem_columns]
  constructor
  · rintro ⟨r, hr, c, hc, hpixel, hX, hY⟩
    obtain ⟨hlt, rfl⟩ := place_false.1 hY
    exact ⟨r, hr, ⟨hlt, rfl⟩, c, hc, hpixel, hX⟩
  · rintro ⟨r, hr, ⟨hlt, rfl⟩, c, hc, hpixel, hX⟩
    exact ⟨r, hr, c, hc, hpixel, hX, place_of_lt hlt⟩

/-- What a row in extended mode leaves when its line is as it was at the start. -/
theorem drawSpriteRow_drawn (hmap : map.width = screenW ∧ map.height = screenH) {k y : Nat}
    (hend : y + (k + 1) * 1 ≤ screenH) (hm : Map2D.SameSize m map)
    (hsame : ∀ Y, y + k * 1 ≤ Y → Y < y + (k + 1) * 1 → SameLine map m Y) :
    let r := drawSpriteRow screenW byteAt VX N k (y + k * 1) m
    Lines (y + k * 1) (y + (k + 1) * 1) m r.map ∧
      RowFlipped 1 (Sprite.ofBytes N byteAt) (VX &&& 0x7F).toNat y map k r.map ∧
      r.collided = rowHits 1 (Sprite.ofBytes N byteAt) (VX &&& 0x7F).toNat y map k := by
  have hwidth : m.width = screenW := hm.1.trans hmap.1
  have hheight : m.height = screenH := hm.2.trans hmap.2
  have hsame := hsame (y + k * 1) le_rfl (by omega)
  obtain ⟨hcells, hhits⟩ := drawSpriteRow_line byteAt VX N k (y + k * 1) m
  refine ⟨?_, fun X hX => ?_, ?_⟩
  · have hlast : y + (k + 1) * 1 = y + k * 1 + 1 := by omega
    rw [hlast]
    exact lines_drawSingleByte hwidth.ge (by omega)
  · rw [hcells X hX, hsame X (hmap.1.symm ▸ hX)]
  · rw [hhits, rowHits]
    exact decide_eq_decide.2 (turnsOff_congr hmap.1 hsame)

/-- `DxyN` in extended mode. -/
theorem drawHires_extended (hmap : map.width = screenW ∧ map.height = screenH) :
    let d := drawHires screenW screenH byteAt VX VY N map
    DrawnExtended (Sprite.ofBytes N byteAt) (VX &&& 0x7F).toNat (VY &&& 0x3F).toNat map d.map
      (UInt8.ofNat d.collided) := by
  dsimp only
  have hline := toNat_line VY
  rw [drawHires_eq]
  generalize (VY &&& 0x3F).toNat = y at hline
  set sp := Sprite.ofBytes N byteAt with hsp
  obtain ⟨k, hk, h⟩ := rowsDrawn_countRows hmap.2 hline (one_dvd _)
    (fun _ _ hend _ hm hsame => drawSpriteRow_drawn hmap hend hm hsame)
    fun k _ _ m m' hm _ hsame hP X hX =>
      (hsame _ le_rfl (by omega) X (hX.trans_eq (hm.1.trans hmap.1).symm)).trans (hP X hX)
  have hshown : ∀ r < sp.rows, y + r < screenH → r < k := fun r hr hlt =>
    (hk r).2 ⟨rows_ofBytes ▸ hr, by rwa [Nat.mul_one]⟩
  refine ⟨⟨h.size, fun X hX Y hY => ?_, h.behind⟩, ?_⟩
  · rw [hmap.1] at hX
    by_cases hrow : ∃ r < k, Y = y + r
    · obtain ⟨r, hr, rfl⟩ := hrow
      have hcell := h.drawn r hr X hX
      rw [Nat.mul_one] at hcell
      rw [hcell]
      refine if_congr (Iff.trans ?_ mem_cells_clipped.symm) rfl rfl
      constructor
      · exact fun hmem =>
          ⟨r, rows_ofBytes ▸ ((hk r).1 hr).1, ⟨hmap.2 ▸ hY, rfl⟩, hmem⟩
      · rintro ⟨r', -, ⟨-, heq⟩, hmem⟩
        rwa [Nat.add_left_cancel heq]
    · rw [h.kept Y hY ?_ X (hmap.1.symm ▸ hX), if_neg]
      · intro hmem
        obtain ⟨r, hr, ⟨hlt, rfl⟩, -⟩ := mem_cells_clipped.1 hmem
        exact hrow ⟨r, hshown r hr hlt, rfl⟩
      · intro r hr
        have hne : Y ≠ y + r := fun heq => hrow ⟨r, hr, heq⟩
        omega
  · have hcount : (countRows screenH 1 (drawSpriteRow screenW byteAt VX N) (rowCount N) 0 y
        ⟨map, 0⟩).collided = (List.range sp.rows).countP fun r =>
          y + r < screenH && TurnsOff 0x8 (rowCells sp (VX &&& 0x7F).toNat r (y + r)) map := by
      have hon : ∀ i, i < k ↔ i < rowCount N ∧ decide (y + i < screenH) = true := fun i => by
        rw [hk, Nat.mul_one, decide_eq_true_eq]
      rw [h.collided, rows_ofBytes, countP_range _ hon]
      simp only [rowHits, Nat.mul_one, hsp]
    have hle := (List.countP_le_length (p := fun r => y + r < screenH &&
      TurnsOff 0x8 (rowCells sp (VX &&& 0x7F).toNat r (y + r)) map)).trans_eq
      (List.length_range (n := sp.rows))
    have hrows : sp.rows ≤ 16 := Sprite.ofBytes_rows_le N byteAt
    rw [hcount, UInt8.toNat_ofNat']
    exact Nat.mod_eq_of_lt (by omega)

/-! ## Low resolution -/

/-- `bit_dup8` doubles each bit. -/
theorem bitAt_bitDup8 (byte : UInt8) : (bitDup8 byte.toUInt32).toNat < 2 ^ 16 ∧
    ∀ j < 16, bitAt 16 (bitDup8 byte.toUInt32) j = byte.toNat.testBit (7 - j / 2) := by
  have h : ∀ n < 256, (bitDup8 (UInt8.ofNat n).toUInt32).toNat < 2 ^ 16 ∧ ∀ j < 16,
      bitAt 16 (bitDup8 (UInt8.ofNat n).toUInt32) j =
        (UInt8.ofNat n).toNat.testBit (7 - j / 2) := by
    decide +kernel
  have hbyte := h byte.toNat byte.toNat_lt
  rwa [UInt8.ofNat_toNat] at hbyte

/-- The zone a sprite begins in, and its line. -/
theorem lores_begin (VX VY : UInt8) :
    ((VX.toUInt32 * 2) &&& (0x70 : UInt32)).toNat = 2 * (VX.toNat % 64) / 16 * 16 ∧
      ((VY.toUInt32 * 2) &&& (0x3E : UInt32)).toNat = 2 * (VY.toNat % 32) := by
  have hx : ∀ v < 256, (v * 2) &&& 0x70 = 2 * (v % 64) / 16 * 16 := by decide +kernel
  have hy : ∀ v < 256, (v * 2) &&& 0x3E = 2 * (v % 32) := by decide +kernel
  have hdouble : ∀ v : UInt8, (v.toUInt32 * 2).toNat = v.toNat * 2 := fun v => by
    have hlt := v.toNat_lt
    rw [UInt32.toNat_mul, UInt8.toNat_toUInt32]
    exact Nat.mod_eq_of_lt (by change _ * 2 < _; omega)
  rw [UInt32.toNat_and, UInt32.toNat_and, hdouble, hdouble]
  exact ⟨hx _ VX.toNat_lt, hy _ VY.toNat_lt⟩

/-- In the zone the byte is shifted by the columns it is away from its start. -/
theorem lores_shift (VX : UInt8) : (16 - 2 * (VX &&& 0x07).toUInt32).toNat =
    16 - 2 * (VX.toNat % 64) % 16 := by
  have h : ∀ n < 256, (16 - 2 * (UInt8.ofNat n &&& 0x07).toUInt32).toNat =
      16 - 2 * ((UInt8.ofNat n).toNat % 64) % 16 := by decide +kernel
  have hVX := h VX.toNat VX.toNat_lt
  rwa [UInt8.ofNat_toNat] at hVX

/-- The columns of a row are those of its window that are on the screen. -/
theorem mem_columns_wideSprite (byteAt : Nat → UInt8) (N : Fin 16) (row : Nat) {X x : Nat}
    (hx : x = 2 * (VX.toNat % 64)) :
    X ∈ (wideSprite N byteAt).columns false screenW x row ↔
      ∃ col < min 0x20 (screenW - x / 16 * 16),
        bitAt 0x20 (bitDup8 (byteAt row).toUInt32 <<< (16 - 2 * (VX &&& 0x07).toUInt32)) col =
          true ∧ X = x / 16 * 16 + col := by
  obtain ⟨hlt, hbits⟩ := bitAt_bitDup8 (byteAt row)
  have hshift := lores_shift VX
  rw [← hx] at hshift
  have hwindow : ∀ {col : Nat}, col < 16 + 16 → _ := fun hcol =>
    bitAt_shiftLeft hlt (by decide) (by decide) (Nat.mod_lt x (by decide)).le hshift hcol
  rw [Sprite.mem_columns]
  constructor
  · rintro ⟨j, hj, hpixel, hX⟩
    obtain ⟨hX, rfl⟩ := place_false.1 hX
    have hj : j < 16 := hj
    exact ⟨x % 16 + j, by omega, (hwindow (by omega)).2 ⟨j, hj, rfl, (hbits j hj).trans hpixel⟩,
      by omega⟩
  · rintro ⟨col, hcol, hbit, rfl⟩
    obtain ⟨j, hj, rfl, hpixel⟩ := (hwindow (by omega)).1 hbit
    exact ⟨j, hj, (hbits j hj).symm.trans hpixel, place_false.2 ⟨by omega, by omega⟩⟩

/-- What `DxyN` does in low resolution with one row. -/
def drawLoresRow (byteAt : Nat → UInt8) (VX : UInt8) (x row y : Nat) :
    Map2D UInt8 → RowDraw Bool :=
  drawDoubleByte screenW (x / 16 * 16) y 0x20
    (bitDup8 (byteAt row).toUInt32 <<< (16 - 2 * (VX &&& 0x07).toUInt32))

/-- A row in low resolution, on its two lines. -/
theorem drawLoresRow_lines (byteAt : Nat → UInt8) (N : Fin 16) (row : Nat) {x y : Nat}
    (hx : x = 2 * (VX.toNat % 64)) (hm : m.width = screenW) :
    let r := drawLoresRow byteAt VX x row y m
    (∀ X < screenW, r.map.at2 X y =
      if X ∈ (wideSprite N byteAt).columns false screenW x row then m.at2 X y ^^^ 0x8
      else m.at2 X y) ∧
    (∀ X < screenW, r.map.at2 X (y + 1) =
      if x / 16 * 16 ≤ X ∧ X < x / 16 * 16 + 32 then r.map.at2 X y else m.at2 X (y + 1)) ∧
    r.collided = decide (TurnsOff 0x8 (rowCells (wideSprite N byteAt) x row y) m) := by
  dsimp only [drawLoresRow]
  have hcolumns : ∀ {X}, _ := fun {X} => mem_columns_wideSprite byteAt N row (X := X) hx
  generalize bitDup8 (byteAt row).toUInt32 <<< (16 - 2 * (VX &&& 0x07).toUInt32) = data
    at hcolumns ⊢
  have h : Doubled (x / 16 * 16) y 0x20 data m (min 0x20 (screenW - x / 16 * 16))
    (min 0x20 (screenW - x / 16 * 16)) (drawDoubleByte screenW (x / 16 * 16) y 0x20 data m) :=
    doubled_drawDoubleByte hm.ge
  -- a line of the display from the zone on
  have hoffset : ∀ Y col, m.offset (x / 16 * 16) Y + col = m.offset (x / 16 * 16 + col) Y :=
    fun Y col => Nat.add_assoc ..
  have hat : ∀ X Y, (drawDoubleByte screenW (x / 16 * 16) y 0x20 data m).map.at2 X Y =
      (drawDoubleByte screenW (x / 16 * 16) y 0x20 data m).map.data (m.offset X Y) :=
    fun X Y => by rw [Map2D.at2, h.size.offset_eq]
  refine ⟨fun X hX => ?_, fun X hX => ?_, ?_⟩
  · by_cases hwindow : ∃ col < min 0x20 (screenW - x / 16 * 16), X = x / 16 * 16 + col
    · obtain ⟨col, hcol, rfl⟩ := hwindow
      have hupper := h.upper col hcol
      rw [hoffset] at hupper
      rw [hat, hupper]
      refine if_congr (Iff.trans ⟨fun hbit => ?_, ?_⟩ hcolumns.symm) rfl rfl
      · exact ⟨col, hcol, hbit.2, rfl⟩
      · rintro ⟨col', hcol', hbit, heq⟩
        rw [Nat.add_left_cancel heq]
        exact ⟨hcol', hbit⟩
    · rw [at2_drawDoubleByte_of_not hm hX fun col hcol heq => hwindow ⟨col, hcol, heq⟩, if_neg]
      intro hmem
      obtain ⟨col, hcol, -, heq⟩ := hcolumns.1 hmem
      exact hwindow ⟨col, hcol, heq⟩
  · split
    next hwindow =>
      have hlower := h.lower (X - x / 16 * 16) (by omega)
      rw [hoffset, hoffset, Nat.add_sub_cancel' hwindow.1] at hlower
      rw [hat, hat, hlower]
    next hwindow =>
      exact at2_drawDoubleByte_of_not hm hX (fun col hcol heq => hwindow (by omega)) _
  · rw [Bool.eq_iff_iff, decide_eq_true_eq, turnsOff_rowCells, h.collided]
    constructor
    · rintro ⟨col, hcol, hbit, hlit⟩
      rw [hoffset] at hlit
      exact ⟨_, hcolumns.2 ⟨col, hcol, hbit, rfl⟩, hlit⟩
    · rintro ⟨X, hX, hlit⟩
      obtain ⟨col, hcol, hbit, rfl⟩ := hcolumns.1 hX
      refine ⟨col, hcol, hbit, ?_⟩
      rw [hoffset]
      exact hlit

/-- And its second line is a copy of the first one, from the zone on. -/
def RowCopied (x y : Nat) (map : Map2D UInt8) (k : Nat) (m : Map2D UInt8) : Prop :=
  ∀ X < screenW, m.at2 X (y + k * 2 + 1) =
    if x / 16 * 16 ≤ X ∧ X < x / 16 * 16 + 32 then m.at2 X (y + k * 2)
    else map.at2 X (y + k * 2 + 1)

/-- What a row in low resolution leaves when its lines are as they were at the start. -/
theorem drawLoresRow_drawn (byteAt : Nat → UInt8) (N : Fin 16)
    (hmap : map.width = screenW ∧ map.height = screenH) {k x y : Nat} (hx : x = 2 * (VX.toNat % 64))
    (hend : y + (k + 1) * 2 ≤ screenH) (hm : Map2D.SameSize m map)
    (hsame : ∀ Y, y + k * 2 ≤ Y → Y < y + (k + 1) * 2 → SameLine map m Y) :
    let r := drawLoresRow byteAt VX x k (y + k * 2) m
    Lines (y + k * 2) (y + (k + 1) * 2) m r.map ∧
      (RowFlipped 2 (wideSprite N byteAt) x y map k r.map ∧ RowCopied x y map k r.map) ∧
      r.collided = rowHits 2 (wideSprite N byteAt) x y map k := by
  have hwidth : m.width = screenW := hm.1.trans hmap.1
  have hheight : m.height = screenH := hm.2.trans hmap.2
  have hfirst := hsame (y + k * 2) le_rfl (by omega)
  have hsecond := hsame (y + k * 2 + 1) (by omega) (by omega)
  obtain ⟨hupper, hlower, hhits⟩ := drawLoresRow_lines byteAt N k (y := y + k * 2) hx hwidth
  refine ⟨?_, ⟨fun X hX => ?_, fun X hX => ?_⟩, ?_⟩
  · have hlast : y + (k + 1) * 2 = y + k * 2 + 2 := by omega
    rw [hlast]
    exact lines_drawDoubleByte hwidth.ge (by omega)
  · rw [hupper X hX, hfirst X (hmap.1.symm ▸ hX)]
  · rw [hlower X hX, hsecond X (hmap.1.symm ▸ hX)]
  · rw [hhits, rowHits]
    exact decide_eq_decide.2 (turnsOff_congr hmap.1 hfirst)

/-- It stays while other rows are drawn. -/
theorem rowLines_congr (hmap : map.width = screenW) {sp : Sprite} {k x y : Nat}
    {m' : Map2D UInt8} (hm : Map2D.SameSize m map)
    (hsame : ∀ Y, y + k * 2 ≤ Y → Y < y + (k + 1) * 2 → SameLine m m' Y)
    (h : RowFlipped 2 sp x y map k m ∧ RowCopied x y map k m) :
    RowFlipped 2 sp x y map k m' ∧ RowCopied x y map k m' := by
  have hwidth : m.width = screenW := hm.1.trans hmap
  have hfirst := hsame (y + k * 2) le_rfl (by omega)
  have hsecond := hsame (y + k * 2 + 1) (by omega) (by omega)
  refine ⟨fun X hX => ?_, fun X hX => ?_⟩
  · rw [hfirst X (hwidth.symm ▸ hX), h.1 X hX]
  · rw [hfirst X (hwidth.symm ▸ hX), hsecond X (hwidth.symm ▸ hX), h.2 X hX]

/-- `DxyN` in low resolution. -/
theorem drawLores_lores (hmap : map.width = screenW ∧ map.height = screenH) :
    let d := drawLores screenW screenH byteAt VX VY N map
    DrawnLores (wideSprite N byteAt) (2 * (VX.toNat % 64)) (2 * (VY.toNat % 32)) map d.map
      (if d.collided ≠ 0 then 1 else 0) := by
  obtain ⟨hbegin, hline⟩ := lores_begin VX VY
  have hrows : drawLores screenW screenH byteAt VX VY N map =
      countRows screenH 2 (drawLoresRow byteAt VX (2 * (VX.toNat % 64)))
        (wideSprite N byteAt).rows 0 (2 * (VY.toNat % 32)) ⟨map, 0⟩ := by
    unfold drawLores
    dsimp only
    rw [hbegin, hline]
    rfl
  rw [hrows]
  dsimp only
  generalize hx : 2 * (VX.toNat % 64) = x
  generalize hy : 2 * (VY.toNat % 32) = y
  have hfits : y < screenH ∧ 2 ∣ screenH - y := by
    change y < 64 ∧ 2 ∣ 64 - y
    omega
  obtain ⟨k, hk, h⟩ := rowsDrawn_countRows (n := (wideSprite N byteAt).rows)
    (P := fun k m => RowFlipped 2 (wideSprite N byteAt) x y map k m ∧ RowCopied x y map k m)
    hmap.2 hfits.1 hfits.2
    (fun _ _ hend _ hm hsame => drawLoresRow_drawn byteAt N hmap hx.symm hend hm hsame)
    fun _ _ _ _ _ hm _ hsame h => rowLines_congr hmap.1 hm hsame h
  refine ⟨h.size, fun r hr hlt => (h.drawn r ((hk r).2 ⟨hr, hlt⟩)).1,
    fun r hr hlt => (h.drawn r ((hk r).2 ⟨hr, hlt⟩)).2, fun Y hY hfar X hX => ?_, h.behind,
    if_congr ?_ rfl rfl⟩
  · refine h.kept Y (hmap.2.symm ▸ hY) (fun r hr => ?_) X (hmap.1.symm ▸ hX)
    have := hfar r ((hk r).1 hr).1
    omega
  · rw [h.collided, ← Nat.pos_iff_ne_zero, List.countP_pos_iff]
    constructor
    · rintro ⟨r, hr, hhits⟩
      obtain ⟨hr, hlt⟩ := (hk r).1 (List.mem_range.1 hr)
      exact ⟨r, hr, hlt, of_decide_eq_true hhits⟩
    · rintro ⟨r, hr, hlt, hhits⟩
      exact ⟨r, List.mem_range.2 ((hk r).2 ⟨hr, hlt⟩), decide_eq_true hhits⟩

/-! ## The instruction -/

/-- Waiting for the next frame changes neither the display nor VF. -/
theorem instructionDxyN_draws (s : SchipLegacy) (X Y N : Fin 16) :
    (instructionDxyN s X Y N).own.displayMap = (drawSprite s X Y N).1 ∧
      (instructionDxyN s X Y N).registersV 0xF = (drawSprite s X Y N).2 := by
  refine ⟨rfl, ?_⟩
  change Function.update s.registersV 0xF (drawSprite s X Y N).2 0xF = _
  exact Function.update_self ..

/-- **`DxyN` meets the display specification.** -/
theorem instructionDxyN_guide (s : SchipLegacy) (X Y N : Fin 16)
    (hsize : s.own.displayMap.sizeX = 128 ∧ s.own.displayMap.sizeY = 64) :
    DrawsAsGuide s X Y N := by
  obtain ⟨hdisplay, hVF⟩ := instructionDxyN_draws s X Y N
  refine ⟨fun hhires => ?_, fun hhires => ?_⟩
  · have hdraw : drawSprite s X Y N = (_, _) := if_pos hhires
    have hX : ((s.registersV X) &&& 0x7F).toNat = (s.registersV X).toNat % 128 := by
      rw [UInt8.toNat_and]; exact Nat.and_two_pow_sub_one_eq_mod _ 7
    have hY : ((s.registersV Y) &&& 0x3F).toNat = (s.registersV Y).toNat % 64 := by
      rw [UInt8.toNat_and]; exact Nat.and_two_pow_sub_one_eq_mod _ 6
    rw [hdisplay, hVF, hdraw, ← hX, ← hY]
    exact drawHires_extended hsize
  · have hdraw : drawSprite s X Y N = (_, _) := if_neg (Bool.eq_false_iff.1 hhires)
    rw [hdisplay, hVF, hdraw]
    exact drawLores_lores hsize

/-- A core with all ones in memory, and V0 and V1 at the last column and line. -/
def lastCell : SchipLegacy :=
  { construct (Launch.ofProgram []) with
    registersV := fun i => if i = 0 then 127 else if i = 1 then 63 else 0
    memory := ⟨fun _ => 0xFF⟩ }

/-- `D015` there. -/
theorem instructionDxyN_guide_lastCell : DrawsAsGuide lastCell 0 1 5 :=
  instructionDxyN_guide lastCell 0 1 5 ⟨rfl, rfl⟩

end SchipLegacy

end CubeChip
