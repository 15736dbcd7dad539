import CubeChip.Lib.Loops
import CubeChip.Utilities.Map2D
import Mathlib.Tactic.Ring

/-!
# `Map2D::shift`

A shift is a rotation, which reduces the offsets modulo the sizes, and a fill of the band it
leaves, which does not. A cell of the rotated map is one of the old map (`at2_rotate`); whether
it is filled depends on where it came from (`at2_fillBand`), and a cell that came from inside the
map came from where the rotation says.
-/

namespace CubeChip.Map2D

variable {α : Type*}

/-! ## Cells and offsets -/

/-- A row is the range of its offsets. -/
theorem offset_mem_row {m : Map2D α} {x y : Nat} (hx : x < m.width) :
    y * m.width ≤ m.offset x y ∧ m.offset x y < y * m.width + m.width :=
  ⟨Nat.le_add_right _ _, Nat.add_lt_add_left hx _⟩

/-- And the range of no other row. -/
theorem row_eq_of_mem {w x y r : Nat} (hx : x < w) (h : r * w ≤ y * w + x)
    (h' : y * w + x < r * w + w) : r = y := by
  have hlt : r < y + 1 := Nat.lt_of_mul_lt_mul_right (a := w) (by rw [Nat.succ_mul]; omega)
  have hgt : y < r + 1 := Nat.lt_of_mul_lt_mul_right (a := w) (by rw [Nat.succ_mul]; omega)
  omega

/-- What is in one row is in no other. -/
theorem not_mem_row {w n y i : Nat} (hne : n ≠ y) (h : y * w ≤ i) (h' : i < y * w + w) :
    ¬(n * w ≤ i ∧ i < n * w + w) := by
  rintro ⟨hn, hn'⟩
  have hx : i - y * w < w := by omega
  exact hne (row_eq_of_mem hx (by omega) (by omega))

/-- The rows above row `k` are the cells before its first. -/
theorem offset_lt_row_iff {m : Map2D α} {x y : Nat} (hx : x < m.width) (k : Nat) :
    m.offset x y < k * m.width ↔ y < k := by
  constructor
  · intro h
    exact Nat.lt_of_mul_lt_mul_right (Nat.lt_of_le_of_lt (offset_mem_row hx).1 h)
  · intro h
    have hrow : (y + 1) * m.width ≤ k * m.width := Nat.mul_le_mul_right _ h
    rw [Nat.succ_mul] at hrow
    exact Nat.lt_of_lt_of_le (offset_mem_row hx).2 hrow

/-! ## Loops over the rows -/

/-- A loop whose bodies stay in their rows and only look there does each of them once. -/
theorem forRows_at2 {m : Map2D α} {body : Nat → (Nat → α) → Nat → α}
    (hframe : ∀ row data i, ¬(row * m.width ≤ i ∧ i < row * m.width + m.width) →
      body row data i = data i)
    (hlocal : ∀ row data data', (∀ i, row * m.width ≤ i → i < row * m.width + m.width →
      data i = data' i) → ∀ i, row * m.width ≤ i → i < row * m.width + m.width →
        body row data i = body row data' i)
    {x y : Nat} (hx : x < m.width) (hy : y < m.height) :
    (m.forRows body).at2 x y = body y m.data (m.offset x y) := by
  have hloop : ∀ i, y * m.width ≤ i → i < y * m.width + m.width →
      (List.range m.height).foldl (fun data row => body row data) m.data i =
        if y < m.height then body y m.data i else m.data i := by
    refine Loops.foldl_range_invariant (I := fun n (data : Nat → α) =>
      ∀ i, y * m.width ≤ i → i < y * m.width + m.width →
        data i = if y < n then body y m.data i else m.data i) ?_ ?_
    · intro n hn data ih i hi hi'
      rcases eq_or_ne n y with rfl | hne
      · rw [if_pos (Nat.lt_succ_self n)]
        refine hlocal n data m.data (fun j hj hj' => ?_) i hi hi'
        rw [ih j hj hj', if_neg (Nat.lt_irrefl n)]
      · rw [hframe n data i (not_mem_row hne hi hi'), ih i hi hi']
        exact if_congr (by omega) rfl rfl
    · intro i _ _
      rw [if_neg (Nat.not_lt_zero y)]
  obtain ⟨hrow, hrow'⟩ := offset_mem_row (y := y) hx
  exact (hloop _ hrow hrow').trans (if_pos hy)

/-- A loop of fills fills what any of them does. -/
theorem foldl_fillRange (n : Nat) (first last : Nat → Nat) (value : α) (data : Nat → α) (i : Nat) :
    (List.range n).foldl (fun data row => fillRange data (first row) (last row) value) data i =
      if ∃ row < n, first row ≤ i ∧ i < last row then value else data i := by
  induction n with
  | zero => simp
  | succ n ih =>
    rw [List.range_succ, List.foldl_append, List.foldl_cons, List.foldl_nil, fillRange, ih]
    simp only [Nat.lt_succ_iff_lt_or_eq, or_and_right, exists_or, exists_eq_left]
    by_cases h : first n ≤ i ∧ i < last n <;> simp [h]

/-! ## Rotating -/

variable (m : Map2D α) {x y : Nat}

/-- `i - d`, modulo `n`. -/
def wrapped (i : Nat) (d : Int) (n : Nat) : Nat := (((i : Int) - d) % n).toNat

theorem wrapped_lt (i : Nat) (d : Int) {n : Nat} (hn : 0 < n) : wrapped i d n < n := by
  have hnonneg := Int.emod_nonneg ((i : Int) - d) (b := n) (by omega)
  have hlt := Int.emod_lt_of_pos ((i : Int) - d) (b := n) (by omega)
  unfold wrapped
  omega

/-- Moving left by what is left of the offset. -/
theorem wrapped_of_neg (i : Nat) {d : Int} (n : Nat) (h : d < 0) :
    wrapped i d n = (i + d.natAbs % n) % n := by
  have hcast : (((i + d.natAbs % n) % n : Nat) : Int) = ((i : Int) - d) % n := by
    push_cast
    rw [abs_of_neg h, Int.add_emod_emod, Int.sub_eq_add_neg]
  rw [wrapped, ← hcast, Int.toNat_natCast]

/-- Moving right, as the source has it, by what is left of the size. -/
theorem wrapped_of_nonneg (i : Nat) {d : Int} {n : Nat} (hn : 0 < n) (h : 0 ≤ d) :
    wrapped i d n = (i + (n - d.natAbs % n)) % n := by
  have hlt := Nat.mod_lt d.natAbs hn
  have hcast : (((i + (n - d.natAbs % n)) % n : Nat) : Int) = ((i : Int) - d) % n := by
    push_cast [Nat.le_of_lt hlt]
    rw [abs_of_nonneg h]
    have hsum : (i : Int) + (n - d % n) = (i - d % n) + n := by ring
    rw [hsum, Int.add_emod_right, Int.sub_emod, Int.emod_emod, ← Int.sub_emod]
  rw [wrapped, ← hcast, Int.toNat_natCast]

/-- An offset that is a multiple of the size moves nothing. -/
theorem wrapped_of_mod_eq_zero {i n : Nat} {d : Int} (hi : i < n) (h : d.natAbs % n = 0) :
    wrapped i d n = i := by
  have hdvd : (n : Int) ∣ d := Int.ofNat_dvd_left.2 (Nat.dvd_of_mod_eq_zero h)
  rw [wrapped, Int.sub_emod, Int.emod_eq_zero_of_dvd hdvd, sub_zero, Int.emod_emod,
    ← Int.natCast_mod, Int.toNat_natCast, Nat.mod_eq_of_lt hi]

/-- A position inside the map is where it says. -/
theorem wrapped_of_inside {i n : Nat} {d : Int} (h : 0 ≤ (i : Int) - d)
    (h' : (i : Int) - d < n) : wrapped i d n = ((i : Int) - d).toNat := by
  rw [wrapped, Int.emod_eq_of_lt h h']

/-- A rotation to the left of a range. -/
theorem rotateRange_apply (data : Nat → α) {first n k j : Nat} (hj : j < n) :
    rotateRange data first (first + k) (first + n) (first + j) = data (first + (j + k) % n) := by
  have hmem : first ≤ first + j ∧ first + j < first + n := ⟨by omega, by omega⟩
  rw [rotateRange, if_pos hmem, Nat.add_sub_cancel_left, Nat.add_sub_cancel_left,
    Nat.add_sub_cancel_left]

/-- Rotating the columns. -/
theorem at2_rotateCols (cols : Int) (hx : x < m.width) (hy : y < m.height) :
    (m.rotateCols cols).at2 x y = m.at2 (wrapped x cols m.width) y := by
  have hpos : 0 < m.width := Nat.zero_lt_of_lt hx
  have hlt := Nat.mod_lt cols.natAbs hpos
  unfold rotateCols
  dsimp only
  split
  · rw [forRows_at2 ?_ ?_ hx hy]
    · split
      · next hneg =>
        rw [wrapped_of_neg x m.width hneg]
        exact rotateRange_apply m.data hx
      · next hnonneg =>
        rw [wrapped_of_nonneg x hpos (Int.not_lt.1 hnonneg), Nat.add_sub_assoc (Nat.le_of_lt hlt)]
        exact rotateRange_apply m.data hx
    · intro row data i hi
      split <;> exact if_neg hi
    · intro row data data' h i hi hi'
      split
      all_goals
        rw [rotateRange, rotateRange, if_pos ⟨hi, hi'⟩, if_pos ⟨hi, hi'⟩]
        refine h _ (Nat.le_add_right _ _) (Nat.add_lt_add_left ?_ _)
        rw [Nat.add_sub_cancel_left (row * m.width) m.width]
        exact Nat.mod_lt _ hpos
  · next hzero => rw [wrapped_of_mod_eq_zero hx (not_not.1 hzero)]

/-- So many rows further, modulo the size, is so many rows further modulo the height. -/
theorem offset_add_rows (k : Nat) (hx : x < m.width) (hy : y < m.height) :
    (m.offset x y + k * m.width) % m.size = m.offset x ((y + k) % m.height) := by
  have hpos : 0 < m.height := Nat.zero_lt_of_lt hy
  have hin : m.offset x ((y + k) % m.height) < m.size :=
    offset_lt_size hx (Nat.mod_lt (y + k) hpos)
  have hq := Nat.div_add_mod (y + k) m.height
  have hrows : (y + k) * m.width =
      (y + k) / m.height * m.size + (y + k) % m.height * m.width := calc
    (y + k) * m.width = m.height * ((y + k) / m.height) * m.width +
        (y + k) % m.height * m.width := by rw [← Nat.add_mul, hq]
    _ = (y + k) / m.height * (m.height * m.width) + (y + k) % m.height * m.width := by ring
  have hsum : m.offset x y + k * m.width =
      (y + k) / m.height * m.size + m.offset x ((y + k) % m.height) := by
    rw [Nat.add_mul] at hrows
    unfold offset
    omega
  rw [hsum, Nat.mul_add_mod_of_lt hin]

/-- A rotation of the whole range by whole rows. -/
theorem rotateRange_rows (k : Nat) (hx : x < m.width) (hy : y < m.height) :
    rotateRange m.data 0 (k * m.width) m.size (m.offset x y) = m.at2 x ((y + k) % m.height) := by
  have h : rotateRange m.data 0 (0 + k * m.width) (0 + m.size) (0 + m.offset x y) = _ :=
    rotateRange_apply m.data (offset_lt_size hx hy)
  simp only [Nat.zero_add] at h
  rw [h]
  exact congrArg m.data (offset_add_rows m k hx hy)

/-- Rotating whole rows. -/
theorem at2_rotateRows (rows : Int) (hx : x < m.width) (hy : y < m.height) :
    (m.rotateRows rows).at2 x y = m.at2 x (wrapped y rows m.height) := by
  have hwidth : 0 < m.width := Nat.zero_lt_of_lt hx
  have hpos : 0 < m.height := Nat.zero_lt_of_lt hy
  unfold rotateRows
  dsimp only
  split
  · split
    · next hneg =>
      rw [wrapped_of_neg y m.height hneg]
      exact rotateRange_rows m _ hx hy
    · next hnonneg =>
      rw [wrapped_of_nonneg y hpos (Int.not_lt.1 hnonneg)]
      have hmiddle : m.size - rows.natAbs % m.height * m.width =
          (m.height - rows.natAbs % m.height) * m.width := (Nat.sub_mul _ _ _).symm
      rw [hmiddle]
      exact rotateRange_rows m _ hx hy
  · next hzero =>
    have hzero : rows.natAbs % m.height = 0 := by
      rcases Nat.mul_eq_zero.1 (not_not.1 hzero) with h | h
      · exact h
      · omega
    rw [wrapped_of_mod_eq_zero hy hzero]

/-- **The rotated map.** -/
theorem at2_rotate (cols rows : Int) (hx : x < m.width) (hy : y < m.height) :
    (m.rotate cols rows).at2 x y =
      m.at2 (wrapped x cols m.width) (wrapped y rows m.height) := by
  have hsize : SameSize (m.rotateCols cols) m := by
    unfold rotateCols
    dsimp only
    split_ifs <;> exact ⟨rfl, rfl⟩
  have hwidth : (m.rotateCols cols).width = m.width := hsize.1
  have hheight : (m.rotateCols cols).height = m.height := hsize.2
  rw [rotate, at2_rotateRows _ rows (by rw [hwidth]; exact hx) (by rw [hheight]; exact hy), hheight]
  exact at2_rotateCols m cols hx (wrapped_lt y rows (Nat.zero_lt_of_lt hy))

/-! ## Filling -/

/-- Filling everything. -/
theorem at2_fill (value : α) (hx : x < m.width) (hy : y < m.height) :
    (m.fill value).at2 x y = value := if_pos ⟨Nat.zero_le _, offset_lt_size hx hy⟩

/-- Counted from the end of the map, the last row comes first. -/
theorem row_end {r : Nat} (hr : r < m.height) :
    m.size - (m.height - 1 - r) * m.width = r * m.width + m.width := by
  rw [size, ← height, ← width, ← Nat.sub_mul, ← Nat.succ_mul]
  exact congrArg (· * m.width) (by omega)

/-- The last `k` cells of the rows. -/
theorem mem_right_iff {k : Nat} (hk : k < m.width) (hx : x < m.width) (hy : y < m.height) :
    (∃ row < m.height, m.size - row * m.width - k ≤ m.offset x y ∧
      m.offset x y < m.size - row * m.width) ↔ m.width ≤ x + k := by
  have hoffset : m.offset x y = y * m.width + x := rfl
  constructor
  · rintro ⟨row, hrow, hfirst, hlast⟩
    have h := row_end m (r := m.height - 1 - row) (by omega)
    rw [show m.height - 1 - (m.height - 1 - row) = row by omega] at h
    rw [h] at hfirst hlast
    have heq := row_eq_of_mem (w := m.width) hx (by omega) hlast
    rw [heq] at hfirst
    omega
  · intro hright
    refine ⟨m.height - 1 - y, by omega, ?_⟩
    rw [row_end m hy]
    omega

/-- The first `k` cells of the rows. -/
theorem mem_left_iff {k : Nat} (hk : k < m.width) (hx : x < m.width) (hy : y < m.height) :
    (∃ row < m.height, row * m.width ≤ m.offset x y ∧ m.offset x y < row * m.width + k) ↔
      x < k := by
  have hoffset : m.offset x y = y * m.width + x := rfl
  constructor
  · rintro ⟨row, hrow, hfirst, hlast⟩
    have heq := row_eq_of_mem (w := m.width) hx hfirst (by omega)
    rw [heq] at hlast
    omega
  · intro hleft
    exact ⟨y, hy, by omega, by omega⟩

/-- The columns that are filled: from the right under a negative offset, where the rows are
counted from the last one. -/
theorem at2_fillCols {cols : Int} (value : α) (hcols : cols.natAbs < m.width) (hx : x < m.width)
    (hy : y < m.height) :
    (m.fillCols cols value).at2 x y =
      if 0 ≤ (x : Int) - cols ∧ (x : Int) - cols < m.width then m.at2 x y else value := by
  by_cases hneg : cols < 0
  · have hfill : m.fillCols cols value = { m with
        data := (List.range m.height).foldl (fun data row => fillRange data
          (m.size - row * m.width - cols.natAbs) (m.size - row * m.width) value) m.data } := by
      simp only [fillCols, forRows, hneg, if_true]
    have hright : m.width ≤ x + cols.natAbs ↔
        ¬(0 ≤ (x : Int) - cols ∧ (x : Int) - cols < m.width) := by omega
    have hcond := (mem_right_iff m hcols hx hy).trans hright
    rw [hfill]
    exact (foldl_fillRange ..).trans ((if_congr hcond rfl rfl).trans (ite_not ..))
  · have hfill : m.fillCols cols value = { m with
        data := (List.range m.height).foldl (fun data row => fillRange data
          (row * m.width) (row * m.width + cols.natAbs) value) m.data } := by
      simp only [fillCols, forRows, hneg, if_false]
    have hleft : x < cols.natAbs ↔
        ¬(0 ≤ (x : Int) - cols ∧ (x : Int) - cols < m.width) := by omega
    have hcond := (mem_left_iff m hcols hx hy).trans hleft
    rw [hfill]
    exact (foldl_fillRange ..).trans ((if_congr hcond rfl rfl).trans (ite_not ..))

/-- The rows that are filled. -/
theorem at2_fillRows (rows : Int) (value : α) (hx : x < m.width) (hy : y < m.height) :
    (m.fillRows rows value).at2 x y =
      if 0 ≤ (y : Int) - rows ∧ (y : Int) - rows < m.height then m.at2 x y else value := by
  have hin := offset_lt_size hx hy
  unfold fillRows
  split
  · split
    · next h =>
      rw [at2_fill m value hx hy, if_neg (by omega)]
    · next h =>
      split
      · next hneg =>
        have hfirst : m.size - rows.natAbs * m.width = (m.height - rows.natAbs) * m.width :=
          (Nat.sub_mul _ _ _).symm
        have hcond : (m.size - rows.natAbs * m.width ≤ m.offset x y ∧ m.offset x y < m.size) ↔
            ¬(0 ≤ (y : Int) - rows ∧ (y : Int) - rows < m.height) := by
          have hrow := offset_lt_row_iff (y := y) hx (m.height - rows.natAbs)
          rw [hfirst]
          omega
        exact (if_congr hcond rfl rfl).trans (ite_not ..)
      · next hpos =>
        have hcond : (0 ≤ m.offset x y ∧ m.offset x y < rows.natAbs * m.width) ↔
            ¬(0 ≤ (y : Int) - rows ∧ (y : Int) - rows < m.height) := by
          have hrow := offset_lt_row_iff (y := y) hx rows.natAbs
          omega
        exact (if_congr hcond rfl rfl).trans (ite_not ..)
  · next hzero => rw [if_pos (by omega)]

/-- A position of the map. -/
def Inside (m : Map2D α) (col row : Int) : Prop :=
  (0 ≤ col ∧ col < m.width) ∧ 0 ≤ row ∧ row < m.height

instance (m : Map2D α) (col row : Int) : Decidable (m.Inside col row) :=
  inferInstanceAs (Decidable (_ ∧ _))

/-- **The band a shift leaves empty**: the cells that came from outside. -/
theorem at2_fillBand (cols rows : Int) (value : α) (hx : x < m.width) (hy : y < m.height) :
    (m.fillBand cols rows value).at2 x y =
      if m.Inside (x - cols) (y - rows) then m.at2 x y else value := by
  have hrows := at2_fillRows m rows value hx hy
  unfold fillBand
  split
  · split
    · next hwide =>
      have hout : ¬m.Inside (x - cols) (y - rows) := fun h => by
        obtain ⟨⟨h₁, h₂⟩, -⟩ := h
        omega
      rw [at2_fill m value hx hy, if_neg hout]
    · next hwide =>
      have hcols := at2_fillCols m value (Nat.not_le.1 hwide) hx hy
      rw [at2_fillRows (m.fillCols cols value) rows value hx hy, hcols, ← ite_and]
      exact if_congr and_comm rfl rfl
  · next hzero =>
    have hcol : 0 ≤ (x : Int) - cols ∧ (x : Int) - cols < m.width := by omega
    rw [hrows]
    exact if_congr (and_iff_right hcol).symm rfl rfl

/-- **A shift moves the picture**: a cell shows what was `cols` to its left and `rows` above it,
or the fill value if that is outside the map. -/
theorem at2_shift (cols rows : Int) (value : α) (hx : x < m.width) (hy : y < m.height) :
    (m.shift cols rows value).at2 x y =
      if m.Inside (x - cols) (y - rows) then m.at2 (x - cols : Int).toNat (y - rows : Int).toNat
      else value := by
  have hsize := sameSize_rotate m cols rows
  have hx' : x < (m.rotate cols rows).width := Nat.lt_of_lt_of_eq hx hsize.1.symm
  have hy' : y < (m.rotate cols rows).height := Nat.lt_of_lt_of_eq hy hsize.2.symm
  have hinside : (m.rotate cols rows).Inside (x - cols) (y - rows) ↔
      m.Inside (x - cols) (y - rows) := by
    rw [Inside, Inside, width, height, hsize.1, hsize.2]
    rfl
  rw [shift, at2_fillBand _ cols rows value hx' hy', at2_rotate m cols rows hx hy,
    if_congr hinside rfl rfl]
  split
  · next hin => rw [wrapped_of_inside hin.1.1 hin.1.2, wrapped_of_inside hin.2.1 hin.2.2]
  · rfl

/-- A diagonal shift, up and to the right. -/
theorem at2_shift_diagonal : ((⟨id, 3, 2⟩ : Map2D Nat).shift 1 (-1) 99).at2 1 0 = 3 :=
  (at2_shift ⟨id, 3, 2⟩ 1 (-1) 99 (by decide) (by decide)).trans (by decide)

end CubeChip.Map2D
