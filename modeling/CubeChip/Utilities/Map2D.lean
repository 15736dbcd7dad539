import Mathlib.Logic.Function.Basic
import Mathlib.Tactic.SplitIfs

/-!
# `Map2D`: a resizable view of a buffer

`utilities/Map2D.hpp`: a pointer to a buffer and two sizes. `resize` changes the sizes
alone, so the same cells are seen under another row length; everything else works on the
range from `begin()` to `end()`. The buffer is a function of the offset from the pointer.
Rows and ranges are rewritten with `std::fill` and `std::rotate`, as in the source.
-/

namespace CubeChip

/-- `std::fill(data + first, data + last, value)`. -/
def fillRange {α : Type*} (data : Nat → α) (first last : Nat) (value : α) : Nat → α :=
  fun i => if first ≤ i ∧ i < last then value else data i

/-- `std::rotate(data + first, data + middle, data + last)`: `middle` becomes the first. -/
def rotateRange {α : Type*} (data : Nat → α) (first middle last : Nat) : Nat → α :=
  fun i => if first ≤ i ∧ i < last
    then data (first + (i - first + (middle - first)) % (last - first)) else data i

/-- A `Map2D<T>`: the buffer behind the pointer, and the two sizes. -/
structure Map2D (α : Type*) where
  data : Nat → α
  sizeX : Nat
  sizeY : Nat

namespace Map2D

variable {α : Type*}

def size (m : Map2D α) : Nat := m.sizeY * m.sizeX

def width (m : Map2D α) : Nat := m.sizeX

def height (m : Map2D α) : Nat := m.sizeY

/-- `operator()(idx)`. -/
def at1 (m : Map2D α) (idx : Nat) : α := m.data idx

/-- The offset of `operator()(col, row)`. -/
def offset (m : Map2D α) (col row : Nat) : Nat := row * m.width + col

/-- `operator()(col, row)`. -/
def at2 (m : Map2D α) (col row : Nat) : α := m.data (m.offset col row)

/-- Assignment through `operator()(col, row)`. -/
def set2 (m : Map2D α) (col row : Nat) (value : α) : Map2D α :=
  { m with data := Function.update m.data (m.offset col row) value }

/-- `resize`. -/
def resize (m : Map2D α) (width height : Nat) : Map2D α :=
  { m with sizeX := width, sizeY := height }

/-- `fill(value)`: the whole map. -/
def fill (m : Map2D α) (value : α) : Map2D α :=
  { m with data := fillRange m.data 0 m.size value }

/-- `std::for_each(begin(), end(), …)`, rewriting each element. -/
def transform (m : Map2D α) (f : α → α) : Map2D α :=
  { m with data := fun i => if i < m.size then f (m.data i) else m.data i }

/-- A loop over the rows that rewrites the buffer. -/
def forRows (m : Map2D α) (body : Nat → (Nat → α) → Nat → α) : Map2D α :=
  { m with data := (List.range m.height).foldl (fun data row => body row data) m.data }

/-- The column half of `fill(cols, rows, value)`. -/
def fillCols (m : Map2D α) (cols : Int) (value : α) : Map2D α :=
  m.forRows fun row data =>
    if cols < 0 then
      let offset := m.size - row * m.width
      fillRange data (offset - cols.natAbs) offset value
    else
      let offset := row * m.width
      fillRange data offset (offset + cols.natAbs) value

/-- The row half of `fill(cols, rows, value)`. -/
def fillRows (m : Map2D α) (rows : Int) (value : α) : Map2D α :=
  if rows.natAbs ≠ 0 then
    if rows.natAbs ≥ m.height then m.fill value
    else if rows < 0 then
      { m with data := fillRange m.data (m.size - rows.natAbs * m.width) m.size value }
    else { m with data := fillRange m.data 0 (rows.natAbs * m.width) value }
  else m

/-- `fill(cols, rows, value)`: the band a shift leaves empty. -/
def fillBand (m : Map2D α) (cols rows : Int) (value : α) : Map2D α :=
  if cols.natAbs ≠ 0 then
    if cols.natAbs ≥ m.width then m.fill value
    else (m.fillCols cols value).fillRows rows value
  else m.fillRows rows value

/-- The column half of `rotate(cols, rows)`. -/
def rotateCols (m : Map2D α) (cols : Int) : Map2D α :=
  let shift := cols.natAbs % m.width
  if shift ≠ 0 then
    m.forRows fun row data =>
      let offset := row * m.width
      if cols < 0 then rotateRange data offset (offset + shift) (offset + m.width)
      else rotateRange data offset (offset + m.width - shift) (offset + m.width)
  else m

/-- The row half of `rotate(cols, rows)`. -/
def rotateRows (m : Map2D α) (rows : Int) : Map2D α :=
  let shift := rows.natAbs % m.height * m.width
  if shift ≠ 0 then
    if rows < 0 then { m with data := rotateRange m.data 0 shift m.size }
    else { m with data := rotateRange m.data 0 (m.size - shift) m.size }
  else m

/-- `rotate(cols, rows)`. -/
def rotate (m : Map2D α) (cols rows : Int) : Map2D α := (m.rotateCols cols).rotateRows rows

/-- `shift(cols, rows, value)`. -/
def shift (m : Map2D α) (cols rows : Int) (value : α) : Map2D α :=
  (m.rotate cols rows).fillBand cols rows value

/-! ## Sizes

Only `resize` changes them.
-/

/-- Two maps with the same sizes. -/
def SameSize {β : Type*} (m : Map2D α) (m' : Map2D β) : Prop :=
  m.sizeX = m'.sizeX ∧ m.sizeY = m'.sizeY

theorem SameSize.trans {β γ : Type*} {m : Map2D α} {m' : Map2D β} {m'' : Map2D γ}
    (h : SameSize m m') (h' : SameSize m' m'') : SameSize m m'' :=
  ⟨h.1.trans h'.1, h.2.trans h'.2⟩

theorem SameSize.offset_eq {β : Type*} {m : Map2D α} {m' : Map2D β} (h : SameSize m m')
    (x y : Nat) : m.offset x y = m'.offset x y := by
  rw [offset, offset, width, width, h.1]

/-! ## Offsets -/

/-- Different cells of a row or of different rows are at different offsets. -/
theorem offset_inj {m : Map2D α} {x y x' y' : Nat} (hx : x < m.width) (hx' : x' < m.width)
    (h : m.offset x y = m.offset x' y') : x = x' ∧ y = y' := by
  have hcol : x = x' := by
    rw [← Nat.mul_add_mod_of_lt (a := y) hx, ← Nat.mul_add_mod_of_lt (a := y') hx']
    exact congrArg (· % m.width) h
  subst hcol
  exact ⟨rfl, Nat.eq_of_mul_eq_mul_right (Nat.zero_lt_of_lt hx) (Nat.add_right_cancel h)⟩

theorem offset_lt_size {m : Map2D α} {x y : Nat} (hx : x < m.width) (hy : y < m.height) :
    m.offset x y < m.size := by
  have hrow : (y + 1) * m.width ≤ m.sizeY * m.width := Nat.mul_le_mul_right _ hy
  rw [Nat.succ_mul] at hrow
  exact Nat.lt_of_lt_of_le (Nat.add_lt_add_left hx _) hrow

/-- Two maps that show the same cells; what lies behind the last one does not matter. -/
def SameCells (m m' : Map2D α) : Prop := SameSize m m' ∧ ∀ i < m.size, m.at1 i = m'.at1 i

theorem sameSize_fillRows (m : Map2D α) (rows : Int) (value : α) :
    SameSize (m.fillRows rows value) m := by
  unfold fillRows; split_ifs <;> exact ⟨rfl, rfl⟩

theorem sameSize_fillBand (m : Map2D α) (cols rows : Int) (value : α) :
    SameSize (m.fillBand cols rows value) m := by
  unfold fillBand
  split_ifs
  · exact ⟨rfl, rfl⟩
  · exact sameSize_fillRows (m.fillCols cols value) rows value
  · exact sameSize_fillRows m rows value

theorem sameSize_rotate (m : Map2D α) (cols rows : Int) : SameSize (m.rotate cols rows) m := by
  have hcols : SameSize (m.rotateCols cols) m := by
    unfold rotateCols
    dsimp only
    split_ifs <;> exact ⟨rfl, rfl⟩
  have hrows : SameSize ((m.rotateCols cols).rotateRows rows) (m.rotateCols cols) := by
    unfold rotateRows
    dsimp only
    split_ifs <;> exact ⟨rfl, rfl⟩
  exact hrows.trans hcols

theorem sameSize_shift (m : Map2D α) (cols rows : Int) (value : α) :
    SameSize (m.shift cols rows value) m :=
  (sameSize_fillBand (m.rotate cols rows) cols rows value).trans
    (sameSize_rotate m cols rows)

/-- A filled map shows its value everywhere. -/
theorem sameCells_fill_const {m : Map2D α} {w h : Nat} (hX : m.sizeX = w) (hY : m.sizeY = h)
    (value : α) : SameCells (m.fill value) ⟨fun _ => value, w, h⟩ :=
  ⟨⟨hX, hY⟩, fun i hi => if_pos ⟨i.zero_le, hi⟩⟩

/-- So does a map that was larger when it was filled. -/
theorem sameCells_fill_resize {m : Map2D α} {w h : Nat} (hsize : h * w ≤ m.size) (value : α) :
    SameCells ((m.fill value).resize w h) ⟨fun _ => value, w, h⟩ :=
  ⟨⟨rfl, rfl⟩, fun i hi => if_pos ⟨i.zero_le, Nat.lt_of_lt_of_le hi hsize⟩⟩

/-- Writing one cell keeps maps alike. -/
theorem SameCells.set2 {m m' : Map2D α} (h : SameCells m m') (col row : Nat) (value : α) :
    SameCells (m.set2 col row value) (m'.set2 col row value) := by
  refine ⟨h.1, fun i hi => ?_⟩
  have hoffset : m'.offset col row = m.offset col row := by
    rw [offset, offset, width, width, h.1.1]
  have hcell : m.data i = m'.data i := h.2 i hi
  simp only [at1, Map2D.set2, hoffset, Function.update_apply, hcell]

end Map2D

end CubeChip
