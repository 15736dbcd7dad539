import CubeChip.Systems.Chip8.Draw
import CubeChip.Lib.Loops

/-!
# Rows behind a pointer, cell by cell

What `draw_single_byte` and `draw_double_byte` leave in each cell, and the loop over the rows of a
sprite, where each row is drawn on lines of its own.
-/

namespace CubeChip

namespace RowDraw

/-! ## Sprite rows -/

/-- The pixels in a row of a sprite. -/
def spriteWidth (N : Fin 16) : Nat := if N = 0 then 16 else 8

/-- The rows of a sprite. -/
def rowCount (N : Fin 16) : Nat := if N = 0 then 16 else N.val

/-- A row of a sprite. -/
def spriteRow (byteAt : Nat → UInt8) (N : Fin 16) (row : Nat) : UInt32 :=
  if N = 0 then ((byteAt (2 * row + 0)).toUInt32 <<< 8) ||| (byteAt (2 * row + 1)).toUInt32
  else (byteAt row).toUInt32

/-- What `DxyN` does with one row: an empty byte before or behind it takes up the shift. -/
def drawSpriteRow (screenW : Nat) (byteAt : Nat → UInt8) (VX : UInt8) (N : Fin 16)
    (row y : Nat) : Map2D UInt8 → RowDraw Bool :=
  drawSingleByte screenW (VX &&& 0x78).toNat y (spriteWidth N + 8)
    (spriteRow byteAt N row <<< (8 - (VX &&& 7).toUInt32))

variable {screenW screenH : Nat} {byteAt : Nat → UInt8} {VX VY : UInt8} {N : Fin 16}

theorem toNat_column (VX : UInt8) : (VX &&& 7).toNat < 8 := by
  rw [UInt8.toNat_and]; exact Nat.lt_succ_of_le Nat.and_le_right

/-- The column of a sprite splits at its byte. -/
theorem toNat_split (VX : UInt8) :
    (VX &&& 0x7F).toNat = (VX &&& 0x78).toNat + (VX &&& 7).toNat := by
  have h : ∀ v < 256, v &&& 0x7F = (v &&& 0x78) + (v &&& 7) := by decide +kernel
  simp only [UInt8.toNat_and]
  exact h VX.toNat VX.toNat_lt

theorem toNat_begin (VX : UInt8) : (VX &&& 0x78).toNat ≤ 120 := by
  rw [UInt8.toNat_and]; exact Nat.and_le_right

theorem toNat_line (VY : UInt8) : (VY &&& 0x3F).toNat < 64 := by
  rw [UInt8.toNat_and]; exact Nat.lt_succ_of_le Nat.and_le_right

theorem toNat_shift (VX : UInt8) :
    (8 - (VX &&& 7).toUInt32).toNat = 8 - (VX &&& 7).toNat := by
  have h := toNat_column VX
  rw [UInt32.toNat_sub_of_le]
  · rfl
  · rw [UInt32.le_iff_toNat_le]; exact h.le

/-- The two loops over the rows are one. -/
theorem drawHires_eq (map : Map2D UInt8) :
    drawHires screenW screenH byteAt VX VY N map =
      countRows screenH 1 (drawSpriteRow screenW byteAt VX N) (rowCount N) 0
        (VY &&& 0x3F).toNat ⟨map, 0⟩ := by
  have hshift : 8 - (VX &&& 7).toUInt32 ≠ 0 := by
    intro h
    have h0 := toNat_shift VX
    have := toNat_column VX
    rw [h] at h0
    simp only [UInt32.toNat_zero] at h0
    omega
  unfold drawHires drawSpriteRow spriteRow spriteWidth rowCount
  by_cases hN : N = 0
  · simp only [hN, if_pos, if_pos hshift]
  · simp only [if_neg hN, if_pos hshift]

/-- Data shifted to the end of its window, but for `r` columns, has its pixels from column `r`
on. -/
theorem bitAt_shiftLeft {data shift : UInt32} {width room r : Nat} (hdata : data.toNat < 2 ^ width)
    (hwidth : width + room ≤ 32) (hroom : room < 32) (hr : r ≤ room)
    (hshift : shift.toNat = room - r) {col : Nat} (hcol : col < width + room) :
    bitAt (width + room) (data <<< shift) col = true ↔
      ∃ j < width, col = r + j ∧ bitAt width data j = true := by
  have hsmall : data.toNat * 2 ^ (room - r) < 2 ^ 32 :=
    calc data.toNat * 2 ^ (room - r)
        < 2 ^ width * 2 ^ (room - r) := Nat.mul_lt_mul_of_pos_right hdata (Nat.two_pow_pos _)
      _ = 2 ^ (width + (room - r)) := (Nat.pow_add ..).symm
      _ ≤ 2 ^ 32 := Nat.pow_le_pow_right (by decide) (by omega)
  have hvalue : (data <<< shift).toNat = data.toNat <<< (room - r) := by
    have hlt : room - r < 32 := by omega
    rw [UInt32.toNat_shiftLeft, hshift, Nat.mod_eq_of_lt hlt, Nat.shiftLeft_eq,
      Nat.mod_eq_of_lt hsmall]
  rw [bitAt, hvalue, Nat.testBit_shiftLeft, Bool.and_eq_true, decide_eq_true_eq]
  constructor
  · rintro ⟨hge, hbit⟩
    have hle : r ≤ col := by
      by_contra hlt
      rw [Nat.testBit_lt_two_pow (hdata.trans_le (Nat.pow_le_pow_right (by decide) (by omega)))]
        at hbit
      exact Bool.false_ne_true hbit
    refine ⟨col - r, by omega, by omega, ?_⟩
    rw [bitAt, ← hbit]
    congr 1
    omega
  · rintro ⟨j, hj, rfl, hbit⟩
    refine ⟨by omega, ?_⟩
    rw [bitAt] at hbit
    rw [← hbit]
    congr 1
    omega

/-- A row of a sprite has no more bits than pixels. -/
theorem spriteRow_lt (byteAt : Nat → UInt8) (N : Fin 16) (row : Nat) :
    (spriteRow byteAt N row).toNat < 2 ^ spriteWidth N := by
  unfold spriteRow spriteWidth
  split
  · rw [UInt32.toNat_or, UInt32.toNat_shiftLeft]
    have hhi := (byteAt (2 * row + 0)).toNat_lt
    have hlo := (byteAt (2 * row + 1)).toNat_lt
    refine Nat.or_lt_two_pow ?_ ?_
    · refine (Nat.mod_le _ _).trans_lt ?_
      rw [Nat.shiftLeft_eq]
      simp only [UInt8.toNat_toUInt32]
      have : ((8 : UInt32).toNat % 32) = 8 := rfl
      rw [this]
      omega
    · simp only [UInt8.toNat_toUInt32]
      omega
  · exact (byteAt row).toNat_lt

theorem spriteRow_congr {byteAt' : Nat → UInt8} {row : Nat} (hrow : row < 16)
    (hbytes : ∀ k < 32, byteAt k = byteAt' k) :
    spriteRow byteAt N row = spriteRow byteAt' N row := by
  unfold spriteRow
  rw [hbytes _ (by omega), hbytes _ (by omega), hbytes row (by omega)]

theorem spriteWidth_le (N : Fin 16) : spriteWidth N ≤ 16 := by
  unfold spriteWidth; split <;> decide

theorem rowCount_le (N : Fin 16) : rowCount N ≤ 16 := by
  unfold rowCount
  split
  · exact le_rfl
  · exact N.isLt.le

/-- Where a row has a pixel set. -/
theorem bitAt_spriteRow {row col : Nat} (hcol : col < spriteWidth N + 8) :
    bitAt (spriteWidth N + 8) (spriteRow byteAt N row <<< (8 - (VX &&& 7).toUInt32)) col = true ↔
      ∃ j < spriteWidth N, (VX &&& 0x78).toNat + col = (VX &&& 0x7F).toNat + j ∧
        bitAt (spriteWidth N) (spriteRow byteAt N row) j = true := by
  have hwidth := spriteWidth_le N
  rw [bitAt_shiftLeft (spriteRow_lt byteAt N row) (by omega) (by decide) (toNat_column VX).le
    (toNat_shift VX) hcol, toNat_split]
  constructor
  · rintro ⟨j, hj, rfl, hbit⟩
    exact ⟨j, hj, (Nat.add_assoc ..).symm, hbit⟩
  · rintro ⟨j, hj, heq, hbit⟩
    exact ⟨j, hj, by omega, hbit⟩

/-! ## One row -/

variable {xBegin yBegin byteW : Nat} {data : UInt32} {map : Map2D UInt8}

/-- A cell that no pixel of the row falls on stays. -/
theorem data_drawSingleByte_of_not {i : Nat}
    (h : ∀ col < min byteW (screenW - xBegin), bitAt byteW data col = true →
      i ≠ map.offset xBegin yBegin + col) :
    (drawSingleByte screenW xBegin yBegin byteW data map).map.data i = map.data i := by
  unfold drawSingleByte
  split
  · rfl
  · refine (Loops.foldl_range_invariant
      (I := fun _ (d : RowDraw Bool) => Map2D.SameSize d.map map ∧ d.map.data i = map.data i) ?_
      ⟨⟨rfl, rfl⟩, rfl⟩).2
    rintro col hcol d ⟨hsize, hi⟩
    split
    next hbit =>
      refine ⟨hsize, ?_⟩
      have hne := h col hcol hbit
      dsimp only [setAt]
      rw [hsize.offset_eq, Function.update_of_ne hne, hi]
    next => exact ⟨hsize, hi⟩

/-- A cell that a pixel of the row falls on is flipped. -/
theorem data_drawSingleByte_of {col : Nat} (hcol : col < min byteW (screenW - xBegin))
    (hbit : bitAt byteW data col = true) :
    (drawSingleByte screenW xBegin yBegin byteW data map).map.data
        (map.offset xBegin yBegin + col) =
      map.data (map.offset xBegin yBegin + col) ^^^ 0x8 := by
  have hdata : data ≠ 0 := by
    rintro rfl
    rw [bitAt, UInt32.toNat_zero, Nat.zero_testBit] at hbit
    exact Bool.false_ne_true hbit
  rw [drawSingleByte, if_neg hdata]
  -- before its column the cell is as it was, behind it the cell is flipped
  refine (Loops.foldl_range_invariant
    (I := fun k (d : RowDraw Bool) => Map2D.SameSize d.map map ∧
      d.map.data (map.offset xBegin yBegin + col) =
        if col < k then map.data (map.offset xBegin yBegin + col) ^^^ 0x8
        else map.data (map.offset xBegin yBegin + col)) ?_ ⟨⟨rfl, rfl⟩, rfl⟩).2.trans
    (if_pos hcol)
  rintro k - d ⟨hsize, hd⟩
  rcases eq_or_ne col k with rfl | hne
  · rw [if_pos hbit, if_pos (Nat.lt_succ_self col)]
    refine ⟨hsize, ?_⟩
    rw [if_neg (lt_irrefl col)] at hd
    dsimp only [setAt, Map2D.at1]
    rw [hsize.offset_eq, Function.update_self, hd]
  · have hlt : col < k + 1 ↔ col < k := by omega
    simp only [hlt]
    split
    · refine ⟨hsize, ?_⟩
      dsimp only [setAt]
      rw [hsize.offset_eq, Function.update_of_ne (by omega), hd]
    · exact ⟨hsize, hd⟩

/-- A cell of neither row stays. -/
theorem data_drawDoubleByte_of_not {i : Nat}
    (hup : ∀ col < min byteW (screenW - xBegin), i ≠ map.offset xBegin yBegin + col)
    (hdn : ∀ col < min byteW (screenW - xBegin), i ≠ map.offset xBegin (yBegin + 1) + col) :
    (drawDoubleByte screenW xBegin yBegin byteW data map).map.data i = map.data i := by
  refine (Loops.foldl_range_invariant (I := fun _ (d : RowDraw Bool) =>
    Map2D.SameSize d.map map ∧ d.map.data i = map.data i) ?_ ⟨⟨rfl, rfl⟩, rfl⟩).2
  rintro col hcol d ⟨hsize, hi⟩
  have hup := hup col hcol
  have hdn := hdn col hcol
  rw [← hsize.offset_eq] at hup hdn
  dsimp only
  split
  · refine ⟨hsize, (Function.update_of_ne hdn ..).trans ?_⟩
    exact (Function.update_of_ne hup ..).trans hi
  · exact ⟨hsize, (Function.update_of_ne hdn ..).trans hi⟩

/-- A row collides where it has a pixel set and the cell was lit. -/
theorem collided_drawSingleByte : (drawSingleByte screenW xBegin yBegin byteW data map).collided =
    true ↔ ∃ col < min byteW (screenW - xBegin), bitAt byteW data col = true ∧
      map.data (map.offset xBegin yBegin + col) &&& 0x8 ≠ 0 := by
  by_cases hdata : data = 0
  · have hbit : ∀ col, ¬ bitAt byteW data col = true := fun col h => by
      rw [hdata, bitAt, UInt32.toNat_zero, Nat.zero_testBit] at h
      exact Bool.false_ne_true h
    rw [drawSingleByte, if_pos hdata]
    exact ⟨fun h => absurd h Bool.false_ne_true,
      fun h => h.elim fun col hcol => absurd hcol.2.1 (hbit col)⟩
  rw [drawSingleByte, if_neg hdata]
  -- the cells from column `k` on are those of the start
  refine (Loops.foldl_range_invariant (I := fun k (d : RowDraw Bool) =>
    Map2D.SameSize d.map map ∧
    (∀ col, k ≤ col → d.map.data (map.offset xBegin yBegin + col) =
      map.data (map.offset xBegin yBegin + col)) ∧
    (d.collided = true ↔ ∃ col < k, bitAt byteW data col = true ∧
      map.data (map.offset xBegin yBegin + col) &&& 0x8 ≠ 0)) ?_
    ⟨⟨rfl, rfl⟩, fun _ _ => rfl, ⟨fun h => absurd h Bool.false_ne_true,
      fun h => h.elim fun col hcol => absurd hcol.1 col.not_lt_zero⟩⟩).2.2
  rintro k - d ⟨hsize, hcells, hcollided⟩
  rw [Nat.exists_lt_succ_right]
  cases hbit : bitAt byteW data k with
  | true =>
      rw [if_pos rfl]
      refine ⟨hsize, fun col hcol => ?_, ?_⟩
      · dsimp only [setAt]
        rw [hsize.offset_eq, Function.update_of_ne (by omega), hcells col (by omega)]
      · dsimp only [Map2D.at1]
        rw [Bool.or_eq_true, hcollided, bne_iff_ne, hsize.offset_eq, hcells k le_rfl,
          eq_self_iff_true, true_and]
  | false =>
      rw [if_neg Bool.false_ne_true]
      refine ⟨hsize, fun col hcol => hcells col (by omega), hcollided.trans ?_⟩
      exact (or_iff_left fun h => absurd h.1 Bool.false_ne_true).symm

theorem data_setAt {m : Map2D UInt8} (hsize : Map2D.SameSize m map) (col : Nat) (value : UInt8) :
    (setAt m xBegin yBegin col value).data =
      Function.update m.data (map.offset xBegin yBegin + col) value := by
  rw [setAt, hsize.offset_eq]

/-- What `draw_double_byte` has done by column `n` of `cols`: the upper row is flipped where a pixel
is set, the lower row is a copy of it, and they collide where the upper one was lit. -/
structure Doubled (xBegin yBegin byteW : Nat) (data : UInt32) (map : Map2D UInt8) (cols n : Nat)
    (d : RowDraw Bool) : Prop where
  size : Map2D.SameSize d.map map
  upper : ∀ col < cols, d.map.data (map.offset xBegin yBegin + col) =
    if col < n ∧ bitAt byteW data col then map.data (map.offset xBegin yBegin + col) ^^^ 0x8
    else map.data (map.offset xBegin yBegin + col)
  lower : ∀ col < n, d.map.data (map.offset xBegin (yBegin + 1) + col) =
    d.map.data (map.offset xBegin yBegin + col)
  collided : d.collided = true ↔ ∃ col < n, bitAt byteW data col = true ∧
    map.data (map.offset xBegin yBegin + col) &&& 0x8 ≠ 0

/-- The lower line is the one after. -/
theorem offset_succ (map : Map2D UInt8) (xBegin yBegin : Nat) :
    map.offset xBegin (yBegin + 1) = map.offset xBegin yBegin + map.width := by
  unfold Map2D.offset
  rw [Nat.succ_mul]
  omega

namespace Doubled

variable {d : RowDraw Bool} {k n : Nat}

/-- The cell of a column to come is the one of the start. -/
theorem cell (h : Doubled xBegin yBegin byteW data map n k d) (hk : k < n) :
    d.map.data (map.offset xBegin yBegin + k) = map.data (map.offset xBegin yBegin + k) := by
  rw [h.upper k hk, if_neg fun h => absurd h.1 (lt_irrefl k)]

/-- A column whose pixel is set is flipped in both rows. -/
theorem flip (h : Doubled xBegin yBegin byteW data map n k d) (hk : k < n) (hn : n ≤ map.width)
    (hbit : bitAt byteW data k = true) :
    let cell := d.map.at1 (d.map.offset xBegin yBegin + k)
    Doubled xBegin yBegin byteW data map n (k + 1)
      ⟨setAt (setAt d.map xBegin yBegin k (cell ^^^ 0x8)) xBegin (yBegin + 1) k (cell ^^^ 0x8),
        d.collided || cell &&& 0x8 != 0⟩ := by
  have hlines := offset_succ map xBegin yBegin
  have hcell := h.cell hk
  have hsize' : Map2D.SameSize (setAt d.map xBegin yBegin k
    (d.map.at1 (d.map.offset xBegin yBegin + k) ^^^ 0x8)) map := h.size
  refine ⟨h.size, fun col hcol => ?_, fun col hcol => ?_, ?_⟩
  · rw [data_setAt hsize', data_setAt h.size, Function.update_of_ne (by omega)]
    rcases eq_or_ne col k with rfl | hne
    · rw [Function.update_self, Map2D.at1, h.size.offset_eq, hcell,
        if_pos ⟨Nat.lt_succ_self col, hbit⟩]
    · rw [Function.update_of_ne (by omega), h.upper col hcol]
      have hlt : col < k + 1 ↔ col < k := by omega
      simp only [hlt]
  · rw [data_setAt hsize', data_setAt h.size]
    rcases eq_or_ne col k with rfl | hne
    · rw [Function.update_self, Function.update_of_ne (by omega), Function.update_self]
    · rw [Function.update_of_ne (by omega), Function.update_of_ne (by omega),
        Function.update_of_ne (by omega), Function.update_of_ne (by omega)]
      exact h.lower col (by omega)
  · dsimp only [Map2D.at1]
    rw [Bool.or_eq_true, h.collided, bne_iff_ne, h.size.offset_eq, hcell,
      Nat.exists_lt_succ_right, hbit, eq_self_iff_true, true_and]

/-- Another column is copied to the lower row. -/
theorem copy (h : Doubled xBegin yBegin byteW data map n k d) (hk : k < n) (hn : n ≤ map.width)
    (hbit : bitAt byteW data k = false) :
    Doubled xBegin yBegin byteW data map n (k + 1)
      ⟨setAt d.map xBegin (yBegin + 1) k (d.map.at1 (d.map.offset xBegin yBegin + k)),
        d.collided⟩ := by
  have hlines := offset_succ map xBegin yBegin
  refine ⟨h.size, fun col hcol => ?_, fun col hcol => ?_, ?_⟩
  · rw [data_setAt h.size, Function.update_of_ne (by omega), h.upper col hcol]
    have hlt : (col < k + 1 ∧ bitAt byteW data col = true) ↔
        (col < k ∧ bitAt byteW data col = true) := by
      refine and_congr_left fun h => ⟨fun hlt => ?_, fun hlt => by omega⟩
      exact (Nat.lt_succ_iff_lt_or_eq.1 hlt).resolve_right
        fun heq => Bool.false_ne_true (hbit.symm.trans (heq ▸ h))
    simp only [hlt]
  · rw [data_setAt h.size]
    rcases eq_or_ne col k with rfl | hne
    · rw [Function.update_self, Function.update_of_ne (by omega), Map2D.at1,
        h.size.offset_eq]
    · rw [Function.update_of_ne (by omega), Function.update_of_ne (by omega)]
      exact h.lower col (by omega)
  · rw [Nat.exists_lt_succ_right, hbit]
    exact h.collided.trans (or_iff_left fun h => absurd h.1 Bool.false_ne_true).symm

end Doubled

theorem doubled_drawDoubleByte (hW : screenW ≤ map.width) :
    Doubled xBegin yBegin byteW data map (min byteW (screenW - xBegin))
      (min byteW (screenW - xBegin)) (drawDoubleByte screenW xBegin yBegin byteW data map) := by
  refine Loops.foldl_range_invariant
    (I := Doubled xBegin yBegin byteW data map (min byteW (screenW - xBegin))) ?_ ?_
  · intro k hk d hd
    cases hbit : bitAt byteW data k with
    | true =>
        rw [if_pos rfl]
        exact hd.flip hk (by omega) hbit
    | false =>
        rw [if_neg Bool.false_ne_true]
        exact hd.copy hk (by omega) hbit
  · exact ⟨⟨rfl, rfl⟩, fun col _ => (if_neg fun h => absurd h.1 col.not_lt_zero).symm,
      fun col h => absurd h col.not_lt_zero, ⟨fun h => absurd h Bool.false_ne_true,
        fun h => h.elim fun col hcol => absurd hcol.1 col.not_lt_zero⟩⟩

/-- Outside its window `draw_double_byte` leaves both rows as they were. -/
theorem at2_drawDoubleByte_of_not (hW : map.width = screenW) {X : Nat} (hX : X < screenW)
    (hout : ∀ col < min byteW (screenW - xBegin), X ≠ xBegin + col) (Y : Nat) :
    (drawDoubleByte screenW xBegin yBegin byteW data map).map.at2 X Y = map.at2 X Y := by
  have hne : ∀ y, ∀ col < min byteW (screenW - xBegin),
      map.offset X Y ≠ map.offset xBegin y + col := fun y col hcol heq => by
    rw [show map.offset xBegin y + col = map.offset (xBegin + col) y from Nat.add_assoc ..] at heq
    exact hout col hcol (Map2D.offset_inj (hW ▸ hX) (by omega) heq).1
  rw [Map2D.at2, (sameSize_drawDoubleByte ..).offset_eq]
  exact data_drawDoubleByte_of_not (hne yBegin) (hne (yBegin + 1))

/-! ## The rows -/

/-- The display after a row, and the count. -/
def addRow (d : RowDraw Nat) (r : RowDraw Bool) : RowDraw Nat :=
  ⟨r.map, d.collided + if r.collided then 1 else 0⟩

/-- Two loops over the rows with what relates them after each row; all the rows of the sprite
are drawn, or those down to the last one of the screen. -/
theorem countRows_rel (draw draw' : Nat → Nat → Map2D UInt8 → RowDraw Bool) (n row : Nat)
    {height y : Nat} {R : Nat → RowDraw Nat → RowDraw Nat → Prop} (hy : y < screenH)
    (hheight : height ∣ screenH - y)
    (hstep : ∀ k < n, y + k * height < screenH → ∀ d d', R k d d' →
      R (k + 1) (addRow d (draw (row + k) (y + k * height) d.map))
        (addRow d' (draw' (row + k) (y + k * height) d'.map))) {d d' : RowDraw Nat}
    (h : R 0 d d') :
    ∃ k, (k = n ∨ y + k * height = screenH) ∧ R k (countRows screenH height draw n row y d)
      (countRows screenH height draw' n row y d') := by
  induction n generalizing row y d d' R with
  | zero => exact ⟨0, .inl rfl, h⟩
  | succ n ih =>
      have hfirst := hstep 0 (Nat.succ_pos n) (by omega) d d' h
      rw [Nat.zero_mul] at hfirst
      rw [countRows, countRows]
      by_cases hlast : y + height = screenH
      · rw [if_pos hlast, if_pos hlast]
        exact ⟨1, .inr (by omega), hfirst⟩
      · rw [if_neg hlast, if_neg hlast]
        have hle := Nat.le_of_dvd (by omega) hheight
        obtain ⟨k, hk, hR⟩ := ih (row + 1) (y := y + height) (R := fun k => R (k + 1))
          (by omega) (by rw [Nat.sub_add_eq]; exact Nat.dvd_sub hheight dvd_rfl)
          (fun k hk hky d d' hd => by
            have hy' : y + (k + 1) * height = y + height + k * height := by
              rw [Nat.succ_mul]; omega
            have hrow : row + (k + 1) = row + 1 + k := by omega
            have hnext := hstep (k + 1) (by omega) (hy'.trans_lt hky) d d' hd
            rwa [hy', hrow] at hnext) hfirst
        exact ⟨k + 1, hk.imp (congrArg (· + 1)) (by rw [Nat.succ_mul]; omega), hR⟩

/-- One loop over the rows. -/
theorem countRows_invariant {draw : Nat → Nat → Map2D UInt8 → RowDraw Bool}
    {height n row y : Nat}
    {I : Nat → RowDraw Nat → Prop} (hy : y < screenH) (hheight : height ∣ screenH - y)
    (hstep : ∀ k < n, y + k * height < screenH → ∀ d, I k d →
      I (k + 1) (addRow d (draw (row + k) (y + k * height) d.map))) {d : RowDraw Nat} (h : I 0 d) :
    ∃ k, (k = n ∨ y + k * height = screenH) ∧
      I k (countRows screenH height draw n row y d) := by
  obtain ⟨k, hk, -, hI⟩ := countRows_rel draw draw n row (R := fun k d d' => d = d' ∧ I k d)
    hy hheight (fun k hk hy d d' hd => ⟨by rw [hd.1], hstep k hk hy d hd.2⟩)
    ⟨rfl, h⟩
  exact ⟨k, hk, hI⟩

/-! ## Lines -/

/-- A line of a display is that of another. -/
def SameLine (m m' : Map2D UInt8) (Y : Nat) : Prop := ∀ X < m.width, m'.at2 X Y = m.at2 X Y

/-- Only the lines from `first` on and before `last` are drawn on. -/
structure Lines (first last : Nat) (m m' : Map2D UInt8) : Prop where
  size : Map2D.SameSize m' m
  kept : ∀ Y < m.height, Y < first ∨ last ≤ Y → SameLine m m' Y
  behind : ∀ i, m.size ≤ i → m'.data i = m.data i

theorem lines_drawSingleByte (hW : screenW ≤ map.width) (hy : yBegin < map.height) :
    Lines yBegin (yBegin + 1) map
      (drawSingleByte screenW xBegin yBegin byteW data map).map where
  size := sameSize_drawSingleByte ..
  kept Y _ hline X hX := by
    rw [Map2D.at2, (sameSize_drawSingleByte ..).offset_eq]
    refine data_drawSingleByte_of_not fun col hcol _ heq => ?_
    have := (Map2D.offset_inj hX (by omega) (heq.trans (Nat.add_assoc ..))).2
    omega
  behind i hi := data_drawSingleByte_of_not fun col hcol _ heq => by
    have : map.offset xBegin yBegin + col < map.size := by
      rw [Map2D.offset, Nat.add_assoc]
      exact Map2D.offset_lt_size (by omega) hy
    omega

theorem lines_drawDoubleByte (hW : screenW ≤ map.width) (hy : yBegin + 1 < map.height) :
    Lines yBegin (yBegin + 2) map
      (drawDoubleByte screenW xBegin yBegin byteW data map).map where
  size := sameSize_drawDoubleByte ..
  kept Y _ hline X hX := by
    rw [Map2D.at2, (sameSize_drawDoubleByte ..).offset_eq]
    refine data_drawDoubleByte_of_not (fun col hcol heq => ?_) fun col hcol heq => ?_
    · have := (Map2D.offset_inj hX (by omega) (heq.trans (Nat.add_assoc ..))).2
      omega
    · have := (Map2D.offset_inj hX (by omega) (heq.trans (Nat.add_assoc ..))).2
      omega
  behind i hi := by
    have hlt : ∀ Y < map.height, ∀ col < screenW - xBegin, map.offset xBegin Y + col < map.size :=
      fun Y hY col hcol => by
        rw [Map2D.offset, Nat.add_assoc]
        exact Map2D.offset_lt_size (by omega) hY
    refine data_drawDoubleByte_of_not (fun col hcol heq => ?_) fun col hcol heq => ?_
    · have := hlt yBegin (by omega) col (by omega)
      omega
    · have := hlt _ hy col (by omega)
      omega

/-- What the loop has done after `k` rows: on the lines of each of them what the row does, and the
rows that collided are counted. -/
structure RowsDrawn (height y : Nat) (P : Nat → Map2D UInt8 → Prop) (hits : Nat → Bool)
    (map : Map2D UInt8) (k : Nat) (d : RowDraw Nat) : Prop where
  size : Map2D.SameSize d.map map
  drawn : ∀ i < k, P i d.map
  kept : ∀ Y < map.height, (∀ i < k, Y < y + i * height ∨ y + (i + 1) * height ≤ Y) →
    SameLine map d.map Y
  behind : ∀ i, map.size ≤ i → d.map.data i = map.data i
  collided : d.collided = (List.range k).countP hits

/-- The loop over rows that each draw on lines of their own, down to the last one of the screen.
`P` says what row `k` leaves on its lines when they are as they were at the start. -/
theorem rowsDrawn_countRows {draw : Nat → Nat → Map2D UInt8 → RowDraw Bool} {height y n : Nat}
    {P : Nat → Map2D UInt8 → Prop} {hits : Nat → Bool} (hH : map.height = screenH)
    (hy : y < screenH) (hheight : height ∣ screenH - y)
    (hdraw : ∀ k < n, y + (k + 1) * height ≤ screenH → ∀ m, Map2D.SameSize m map →
      (∀ Y, y + k * height ≤ Y → Y < y + (k + 1) * height → SameLine map m Y) →
        Lines (y + k * height) (y + (k + 1) * height) m (draw k (y + k * height) m).map ∧
          P k (draw k (y + k * height) m).map ∧ (draw k (y + k * height) m).collided = hits k)
    (hlines : ∀ k < n, y + (k + 1) * height ≤ screenH → ∀ m m', Map2D.SameSize m map →
      Map2D.SameSize m' m →
      (∀ Y, y + k * height ≤ Y → Y < y + (k + 1) * height → SameLine m m' Y) → P k m → P k m') :
    ∃ k, (∀ i, i < k ↔ i < n ∧ y + i * height < screenH) ∧
      RowsDrawn height y P hits map k (countRows screenH height draw n 0 y ⟨map, 0⟩) := by
  obtain ⟨q, hq⟩ := hheight
  have hpos : 0 < height := Nat.pos_of_ne_zero fun h => by rw [h, Nat.zero_mul] at hq; omega
  have hfits : ∀ k, y + k * height < screenH → y + (k + 1) * height ≤ screenH := fun k hk => by
    have hlt : height * k < height * q := by rw [Nat.mul_comm height k]; omega
    have hle := Nat.mul_le_mul_left height (Nat.succ_le_of_lt (Nat.lt_of_mul_lt_mul_left hlt))
    rw [Nat.mul_comm height (k + 1)] at hle
    omega
  refine Exists.elim (countRows_invariant (n := n)
    (I := fun k d => (k ≤ n ∧ y + k * height ≤ screenH) ∧ RowsDrawn height y P hits map k d)
    (d := ⟨map, 0⟩) hy ⟨q, hq⟩ ?_
    ⟨⟨n.zero_le, by omega⟩, ⟨rfl, rfl⟩, fun i hi => absurd hi i.not_lt_zero,
      fun _ _ _ _ _ => rfl, fun _ _ => rfl, rfl⟩) fun k ⟨hk, ⟨hle, hend⟩, h⟩ =>
        ⟨k, fun i => ⟨fun hi => ?_, fun ⟨hi, hlt⟩ => ?_⟩, h⟩
  · rintro k hk hky d ⟨-, hd⟩
    rw [Nat.zero_add]
    have hend := hfits k hky
    have hbefore : ∀ i < k, y + (i + 1) * height ≤ y + k * height := fun i hi =>
      Nat.add_le_add_left (Nat.mul_le_mul_right _ hi) y
    obtain ⟨hl, hP, hhit⟩ := hdraw k hk hend d.map hd.size fun Y hfirst hlast =>
      hd.kept Y (by omega) fun i hi => .inr ((hbefore i hi).trans hfirst)
    generalize draw k (y + k * height) d.map = r at hl hP hhit
    have hheight' : d.map.height = map.height := hd.size.2
    have hwidth' : d.map.width = map.width := hd.size.1
    refine ⟨⟨hk, hend⟩, hl.size.trans hd.size, fun i hi => ?_, fun Y hY hfar X hX => ?_,
      fun i hi => ?_, ?_⟩
    · rcases Nat.lt_succ_iff_lt_or_eq.1 hi with hlt | rfl
      · have hbefore := hbefore i hlt
        exact hlines i (hlt.trans hk) (hbefore.trans hky.le) d.map r.map hd.size hl.size
          (fun Y _ hY => hl.kept Y (by omega) (.inl (hY.trans_le hbefore))) (hd.drawn i hlt)
      · exact hP
    · have hline := hfar k (Nat.lt_succ_self k)
      exact (hl.kept Y (by omega) hline X (by omega)).trans
        (hd.kept Y hY (fun i hi => hfar i (hi.trans (Nat.lt_succ_self k))) X hX)
    · exact (hl.behind i (by rwa [Map2D.size, hd.size.1, hd.size.2])).trans (hd.behind i hi)
    · rw [List.range_succ, List.countP_append, ← hd.collided, List.countP_singleton, ← hhit]
      rfl
  · have := Nat.mul_lt_mul_of_pos_right hi hpos
    exact ⟨hi.trans_le hle, by omega⟩
  · refine hk.elim (fun hn => hn ▸ hi) fun hscreen => ?_
    exact Nat.lt_of_mul_lt_mul_right (a := height) (by omega)

/-- The rows drawn are those of the sprite that are on the screen. -/
theorem countP_range (on : Nat → Bool) {hits : Nat → Bool} {k n : Nat}
    (h : ∀ i, i < k ↔ i < n ∧ on i = true) :
    (List.range k).countP hits = (List.range n).countP fun i => on i && hits i := by
  obtain ⟨m, rfl⟩ : ∃ m, n = k + m :=
    Nat.exists_eq_add_of_le (Nat.le_of_not_lt fun hlt => lt_irrefl _ ((h n).1 hlt).1)
  have hbehind : ((List.range m).map (k + ·)).countP (fun i => on i && hits i) = 0 := by
    refine List.countP_eq_zero.2 fun i hi hon => ?_
    obtain ⟨j, hj, rfl⟩ := List.mem_map.1 hi
    have := (h (k + j)).2 ⟨by rw [List.mem_range] at hj; omega, (Bool.and_eq_true_iff.1 hon).1⟩
    omega
  rw [List.range_add, List.countP_append, hbehind]
  refine List.countP_congr fun i hi => ?_
  rw [((h i).1 (List.mem_range.1 hi)).2, Bool.true_and]

end RowDraw

end CubeChip
