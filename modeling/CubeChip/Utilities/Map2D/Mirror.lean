import CubeChip.Utilities.Map2D.Shift

/-!
# `Map2D::flip_x`, `flip_y` and `reverse`

`flip_x` reverses the rows one by one, `flip_y` swaps rows up to the middle, `reverse` reverses
the whole range. Each is described by where it takes a cell (`at2_flipX`, `at2_flipY`,
`at2_reverse`) and by what it leaves alone behind the map; the rest follows from `ext_cells`.
`flip_y` and `reverse` find the end of the map by `size()`, a product of 32 bits, and so only
reach it if the map has less than 2^32 cells.
-/

namespace CubeChip

/-- `std::reverse(data + first, data + last)`. -/
def reverseRange {α : Type*} (data : Nat → α) (first last : Nat) : Nat → α :=
  fun i => if first ≤ i ∧ i < last then data (first + (last - 1 - i)) else data i

/-- `std::swap_ranges(data + first, data + last, data + second)`, of ranges apart. -/
def swapRanges {α : Type*} (data : Nat → α) (first last second : Nat) : Nat → α :=
  fun i =>
    if first ≤ i ∧ i < last then data (second + (i - first))
    else if second ≤ i ∧ i < second + (last - first) then data (first + (i - second))
    else data i

namespace Map2D

variable {α : Type*}

/-- `size()`: the product of two sizes of 32 bits has 32 bits. -/
def size32 (m : Map2D α) : Nat := m.sizeY * m.sizeX % 2 ^ 32

/-- `reverse`. -/
def reverse (m : Map2D α) : Map2D α := { m with data := reverseRange m.data 0 m.size32 }

/-- `flip_y`. -/
def flipY (m : Map2D α) : Map2D α :=
  { m with
    data := (List.range (m.height / 2)).foldl (fun data row =>
      let offset := m.width * row
      swapRanges data offset (offset + m.width) (m.size32 - offset - m.width)) m.data }

/-- `flip_x`. -/
def flipX (m : Map2D α) : Map2D α :=
  m.forRows fun row data =>
    let offset := m.width * row
    reverseRange data offset (offset + m.width)

variable (m : Map2D α) {x y : Nat}

/-! ## Cells and the rest -/

theorem size32_eq (h : m.size < 2 ^ 32) : m.size32 = m.size := Nat.mod_eq_of_lt h

/-- Every offset in the map is that of a cell. -/
theorem exists_cell {i : Nat} (h : i < m.size) :
    ∃ x y, x < m.width ∧ y < m.height ∧ m.offset x y = i := by
  have hwidth : 0 < m.width := by
    rcases Nat.eq_zero_or_pos m.width with hzero | hpos
    · rw [size, ← width, hzero] at h
      exact absurd h (Nat.not_lt_zero _)
    · exact hpos
  refine ⟨i % m.width, i / m.width, Nat.mod_lt i hwidth, ?_, ?_⟩
  · exact (Nat.div_lt_iff_lt_mul hwidth).2 h
  · rw [offset, Nat.mul_comm]
    exact Nat.div_add_mod i m.width

/-- Maps that show the same and have the same behind them are the same. -/
theorem ext_cells {m m' : Map2D α} (hsize : SameSize m m')
    (hcells : ∀ x y, x < m.width → y < m.height → m.at2 x y = m'.at2 x y)
    (hrest : ∀ i, m.size ≤ i → m.data i = m'.data i) : m = m' := by
  have hdata : m.data = m'.data := by
    funext i
    rcases Nat.lt_or_ge i m.size with hlt | hge
    · obtain ⟨x, y, hx, hy, rfl⟩ := exists_cell m hlt
      have hcell := hcells x y hx hy
      rwa [at2, at2, ← hsize.offset_eq] at hcell
    · exact hrest i hge
  cases m
  cases m'
  obtain ⟨rfl, rfl⟩ := hsize
  cases hdata
  rfl

/-! ## Ranges -/

/-- The reversed row. -/
theorem reverseRange_row (data : Nat → α) {w x y : Nat} (hx : x < w) :
    reverseRange data (y * w) (y * w + w) (y * w + x) = data (y * w + (w - 1 - x)) := by
  rw [reverseRange, if_pos ⟨Nat.le_add_right _ _, Nat.add_lt_add_left hx _⟩]
  exact congrArg data (by omega)

/-- Two rows swapped. -/
theorem swapRanges_row (data : Nat → α) {w r k x y : Nat} (hx : x < w) :
    swapRanges data (r * w) (r * w + w) (k * w) (y * w + x) =
      if y = r then data (k * w + x) else if y = k then data (r * w + x)
      else data (y * w + x) := by
  have hmem : ∀ r, (r * w ≤ y * w + x ∧ y * w + x < r * w + w) ↔ y = r := fun r => by
    constructor
    · exact fun h => (row_eq_of_mem hx h.1 h.2).symm
    · rintro rfl
      exact ⟨Nat.le_add_right _ _, Nat.add_lt_add_left hx _⟩
  rw [swapRanges, Nat.add_sub_cancel_left, if_congr (hmem r) rfl (if_congr (hmem k) rfl rfl)]
  split
  · next h => rw [h, Nat.add_sub_cancel_left]
  · split
    · next h => rw [h, Nat.add_sub_cancel_left]
    · rfl

/-! ## `flip_x` -/

theorem at2_flipX (hx : x < m.width) (hy : y < m.height) :
    m.flipX.at2 x y = m.at2 (m.width - 1 - x) y := by
  unfold flipX
  simp only [Nat.mul_comm m.width]
  rw [forRows_at2 ?_ ?_ hx hy]
  · exact reverseRange_row m.data hx
  · intro row data i hi
    exact if_neg hi
  · intro row data data' h i hi hi'
    rw [reverseRange, reverseRange, if_pos ⟨hi, hi'⟩, if_pos ⟨hi, hi'⟩]
    exact h _ (Nat.le_add_right _ _) (by omega)

/-- Nothing behind the map is rewritten. -/
theorem flipX_rest {i : Nat} (hi : m.size ≤ i) : m.flipX.data i = m.data i := by
  refine Loops.foldl_range_invariant (I := fun _ (data : Nat → α) => data i = m.data i)
    (fun row hrow data ih => ?_) rfl
  have hend : m.width * (row + 1) ≤ m.width * m.height := Nat.mul_le_mul_left _ hrow
  rw [Nat.mul_succ, Nat.mul_comm m.width m.height] at hend
  have hsize : m.height * m.width ≤ i := hi
  exact (if_neg (by omega)).trans ih

/-! ## `flip_y` -/

variable {m}

/-- The row that is swapped with row `row`, counted from the end. -/
theorem size32_sub (h : m.size < 2 ^ 32) {row : Nat} (hrow : row < m.height) :
    m.size32 - m.width * row - m.width = (m.height - 1 - row) * m.width := by
  rw [size32_eq m h, size, ← height, ← width, Nat.mul_comm m.width row, ← Nat.sub_mul,
    show m.height - row = m.height - 1 - row + 1 by omega, Nat.succ_mul, Nat.add_sub_cancel]

/-- The first `n` rows and the last `n` are swapped, and nothing else has changed. -/
structure RowsSwapped (m : Map2D α) (n : Nat) (data : Nat → α) : Prop where
  cells : ∀ x y, x < m.width → y < m.height → data (y * m.width + x) =
    if y < n ∨ m.height - 1 - y < n then m.data ((m.height - 1 - y) * m.width + x)
    else m.data (y * m.width + x)
  rest : ∀ i, m.size ≤ i → data i = m.data i

/-- One more row. -/
theorem RowsSwapped.swap {k : Nat} {data : Nat → α} (hdata : RowsSwapped m k data)
    (hk : k < m.height / 2) :
    RowsSwapped m (k + 1)
      (swapRanges data (k * m.width) (k * m.width + m.width)
        ((m.height - 1 - k) * m.width)) where
  cells x y hx hy := by
    have hself := hdata.cells x k hx (by omega)
    have hother := hdata.cells x (m.height - 1 - k) hx (by omega)
    rw [if_neg (by omega)] at hself hother
    rw [swapRanges_row data hx]
    split
    · next hy' => rw [hother, hy', if_pos (.inl (Nat.lt_succ_self k))]
    · split
      · next hy' =>
        rw [hself, hy', if_pos (.inr (by omega)),
          show m.height - 1 - (m.height - 1 - k) = k by omega]
      · next hk₁ hk₂ =>
        rw [hdata.cells x y hx hy]
        exact if_congr (by omega) rfl rfl
  rest i hi := by
    have hend : ∀ row < m.height, row * m.width + m.width ≤ i := by
      intro row hrow
      have hle : (row + 1) * m.width ≤ m.height * m.width := Nat.mul_le_mul_right _ hrow
      rw [Nat.succ_mul] at hle
      exact hle.trans hi
    have hself := hend k (by omega)
    have hother := hend (m.height - 1 - k) (by omega)
    rw [swapRanges, if_neg (by omega), if_neg (by omega), hdata.rest i hi]

/-- The rows of the loop of `flip_y`. -/
theorem rowsSwapped_flipY (h : m.size < 2 ^ 32) : RowsSwapped m (m.height / 2) m.flipY.data := by
  refine Loops.foldl_range_invariant (I := RowsSwapped m) (fun k hk data ih => ?_) ?_
  · have hk' : k < m.height := by omega
    dsimp only
    rw [size32_sub h hk', Nat.mul_comm m.width k]
    exact ih.swap hk
  · refine ⟨fun x y _ _ => ?_, fun _ _ => rfl⟩
    rw [if_neg (by omega)]

theorem at2_flipY (h : m.size < 2 ^ 32) (hx : x < m.width) (hy : y < m.height) :
    m.flipY.at2 x y = m.at2 x (m.height - 1 - y) := by
  refine ((rowsSwapped_flipY h).cells x y hx hy).trans ?_
  split
  · rfl
  · next hmiddle =>
    -- The middle row of an odd number is its own mirror image.
    rw [at2, offset, show m.height - 1 - y = y by omega]

theorem flipY_rest (h : m.size < 2 ^ 32) {i : Nat} (hi : m.size ≤ i) :
    m.flipY.data i = m.data i := (rowsSwapped_flipY h).rest i hi

/-! ## `reverse` -/

theorem at2_reverse (h : m.size < 2 ^ 32) (hx : x < m.width) (hy : y < m.height) :
    m.reverse.at2 x y = m.at2 (m.width - 1 - x) (m.height - 1 - y) := by
  have hin := offset_lt_size hx hy
  have hmirror : m.size - 1 - m.offset x y = m.offset (m.width - 1 - x) (m.height - 1 - y) := by
    have hrows : m.size = (m.height - 1 - y) * m.width + m.width + y * m.width := by
      rw [size, ← height, ← width, ← Nat.succ_mul, ← Nat.add_mul]
      exact congrArg (· * m.width) (by omega)
    rw [hrows, offset, offset]
    omega
  have hdata : m.reverse.data (m.offset x y) = m.data (0 + (m.size32 - 1 - m.offset x y)) :=
    if_pos ⟨Nat.zero_le _, by rw [size32_eq m h]; exact hin⟩
  rw [size32_eq m h, Nat.zero_add, hmirror] at hdata
  exact hdata

theorem reverse_rest (h : m.size < 2 ^ 32) {i : Nat} (hi : m.size ≤ i) :
    m.reverse.data i = m.data i := by
  have hout : ¬(0 ≤ i ∧ i < m.size32) := by rw [size32_eq m h]; omega
  exact if_neg hout

/-! ## All three -/

/-- What the three operations are for. -/
structure Mirrors (m : Map2D α) : Prop where
  flipX_at : ∀ x y, x < m.width → y < m.height →
    m.flipX.at2 (m.width - 1 - x) y = m.at2 x y
  flipY_at : ∀ x y, x < m.width → y < m.height →
    m.flipY.at2 x (m.height - 1 - y) = m.at2 x y
  reverse_at : ∀ x y, x < m.width → y < m.height →
    m.reverse.at2 (m.width - 1 - x) (m.height - 1 - y) = m.at2 x y
  flipX_flipX : m.flipX.flipX = m
  flipY_flipY : m.flipY.flipY = m
  reverse_reverse : m.reverse.reverse = m
  flipX_flipY : m.flipX.flipY = m.flipY.flipX
  reverse_eq : m.reverse = m.flipX.flipY

theorem mirror_lt {n k : Nat} (h : k < n) : n - 1 - k < n := by omega

theorem mirror_mirror {n k : Nat} (h : k < n) : n - 1 - (n - 1 - k) = k := by omega

/-- **Below 2^32 cells** the operations are the mirror images. -/
theorem mirrors (h : m.size < 2 ^ 32) : Mirrors m where
  flipX_at x y hx hy := by rw [at2_flipX m (mirror_lt hx) hy, mirror_mirror hx]
  flipY_at x y hx hy := by rw [at2_flipY h hx (mirror_lt hy), mirror_mirror hy]
  reverse_at x y hx hy := by
    rw [at2_reverse h (mirror_lt hx) (mirror_lt hy), mirror_mirror hx, mirror_mirror hy]
  flipX_flipX := ext_cells ⟨rfl, rfl⟩
    (fun x y (hx : x < m.width) (hy : y < m.height) => by
      rw [at2_flipX m.flipX hx hy]
      exact (at2_flipX m (mirror_lt hx) hy).trans (by rw [mirror_mirror hx]))
    fun i hi => (flipX_rest m.flipX hi).trans (flipX_rest m hi)
  flipY_flipY := ext_cells ⟨rfl, rfl⟩
    (fun x y (hx : x < m.width) (hy : y < m.height) => by
      rw [at2_flipY (m := m.flipY) h hx hy]
      exact (at2_flipY h hx (mirror_lt hy)).trans (by rw [mirror_mirror hy]))
    fun i hi => (flipY_rest (m := m.flipY) h hi).trans (flipY_rest h hi)
  reverse_reverse := ext_cells ⟨rfl, rfl⟩
    (fun x y (hx : x < m.width) (hy : y < m.height) => by
      rw [at2_reverse (m := m.reverse) h hx hy]
      exact (at2_reverse h (mirror_lt hx) (mirror_lt hy)).trans
        (by rw [mirror_mirror hx, mirror_mirror hy]))
    fun i hi => (reverse_rest (m := m.reverse) h hi).trans (reverse_rest h hi)
  flipX_flipY := ext_cells ⟨rfl, rfl⟩
    (fun x y (hx : x < m.width) (hy : y < m.height) => by
      rw [at2_flipY (m := m.flipX) h hx hy, at2_flipX m.flipY hx hy]
      exact (at2_flipX m hx (mirror_lt hy)).trans (at2_flipY h (mirror_lt hx) hy).symm)
    fun i hi => ((flipY_rest (m := m.flipX) h hi).trans (flipX_rest m hi)).trans
      ((flipX_rest m.flipY hi).trans (flipY_rest h hi)).symm
  reverse_eq := ext_cells ⟨rfl, rfl⟩
    (fun x y (hx : x < m.width) (hy : y < m.height) => by
      rw [at2_reverse h hx hy, at2_flipY (m := m.flipX) h hx hy]
      exact (at2_flipX m hx (mirror_lt hy)).symm)
    fun i hi => (reverse_rest h hi).trans
      ((flipY_rest (m := m.flipX) h hi).trans (flipX_rest m hi)).symm

/-- From 2^32 cells on `reverse` leaves the last one where it is. -/
theorem not_mirrors {W H : Nat} (h : 2 ^ 32 ≤ H * W) :
    ¬Mirrors (⟨fun i => i == 0, W, H⟩ : Map2D Bool) := by
  intro hm
  have hW : 0 < W := Nat.pos_of_ne_zero fun h0 => by simp [h0] at h
  have hH : 0 < H := Nat.pos_of_ne_zero fun h0 => by simp [h0] at h
  have hlast := hm.reverse_at 0 0 hW hH
  have hoffset : (⟨fun i => i == 0, W, H⟩ : Map2D Bool).offset (W - 1 - 0) (H - 1 - 0) =
      H * W - 1 := by
    have hrows : H * W = (H - 1) * W + W := by
      rw [← Nat.succ_mul, Nat.succ_eq_add_one, Nat.sub_add_cancel hH]
    change (H - 1) * W + (W - 1) = _
    omega
  have hout : ¬(0 ≤ H * W - 1 ∧ H * W - 1 < H * W % 2 ^ 32) := by omega
  have hkept : (⟨fun i => i == 0, W, H⟩ : Map2D Bool).reverse.data (H * W - 1) =
      (H * W - 1 == 0) := if_neg hout
  have hfirst : (H * W - 1 == 0) = true := by
    rw [← hkept, ← hoffset]
    exact hlast.trans (by simp [at2, offset])
  rw [beq_iff_eq] at hfirst
  omega

/-- **The mirror operations** do what they are for, on every content, precisely if the map has
less than 2^32 cells. -/
theorem mirrors_iff (W H : UInt32) :
    (∀ (α : Type) (data : Nat → α), Mirrors (⟨data, W.toNat, H.toNat⟩ : Map2D α)) ↔
      H.toNat * W.toNat < 2 ^ 32 := by
  refine ⟨fun h => ?_, fun h α data => mirrors h⟩
  by_contra hlarge
  exact not_mirrors (Nat.not_lt.1 hlarge) (h Bool _)

/-- A map of 65536 rows and columns has a `size()` of 0, and `reverse` does nothing. -/
theorem not_mirrors_65536 :
    ¬∀ (α : Type) (data : Nat → α), Mirrors (⟨data, 65536, 65536⟩ : Map2D α) :=
  fun h => not_mirrors (by decide) (h Bool _)

end Map2D

end CubeChip
