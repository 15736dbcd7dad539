import CubeChip.Lib.Sweep
import CubeChip.Systems.Chip8.Draw
import Mathlib.Data.Nat.Bitwise
import Mathlib.Data.List.Pairwise
import Mathlib.Data.List.Range
import Mathlib.Data.List.Nodup

/-!
# Sprites, cell by cell

What `DxyN` is for: the set pixels of a sprite are placed on the screen, each of its rows and
columns wrapping or dropped at the edge, and the lit bit of every cell under one is flipped.
`Sprite.cells` lists those cells and `Canvas.Flipped` says what flipping them does. The loops of
`Draw` flip the cells of such a list in its order, which is a sweep.
-/

namespace CubeChip

/-- Where column or row `k` is: past the edge it wraps or is dropped. -/
def place (wrap : Bool) (size k : Nat) : Option Nat :=
  if wrap then some (k % size) else if k < size then some k else none

/-- Those of `n` columns or rows from `p` on that are on the screen, and where. -/
def placed (wrap : Bool) (size n p : Nat) : List (Nat × Nat) :=
  (List.range n).filterMap fun k => (place wrap size (p + k)).map (k, ·)

/-- A sprite: its size and its set pixels, by row and column. -/
structure Sprite where
  rows : Nat
  cols : Nat
  pixel : Nat → Nat → Bool

namespace Sprite

/-- The sprite of `DxyN`: for `N = 0` 16 by 16, with two bytes to a row, else 8 by `N`. -/
def ofBytes (N : Fin 16) (byteAt : Nat → UInt8) : Sprite :=
  if N = 0 then ⟨16, 16, fun r c => (byteAt (2 * r + c / 8)).toNat.testBit (7 - c % 8)⟩
  else ⟨N, 8, fun r c => (byteAt r).toNat.testBit (7 - c)⟩

/-- The columns under the set pixels of row `r`, from column `x` on. -/
def columns (sp : Sprite) (wrap : Bool) (W x r : Nat) : List Nat :=
  ((placed wrap W sp.cols x).filter fun l => sp.pixel r l.1).map (·.2)

/-- The cells of a screen under the set pixels of a sprite placed at `(x, y)`. -/
def cells (sp : Sprite) (wrap : Bool) (W H x y : Nat) : List (Nat × Nat) :=
  (placed wrap H sp.rows y).flatMap fun l => (sp.columns wrap W x l.1).map (·, l.2)

end Sprite

/-! ## Placing -/

section
variable {wrap : Bool} {size k p n : Nat}

/-- A place is one of the line. -/
theorem place_lt (hsize : 0 < size) {q : Nat} (h : place wrap size k = some q) : q < size := by
  unfold place at h
  split_ifs at h with hwrap hk
  · cases h; exact Nat.mod_lt k hsize
  · cases h; exact hk

/-- On the line nothing moves. -/
theorem place_of_lt (h : k < size) : place wrap size k = some k := by
  unfold place
  split_ifs
  · rw [Nat.mod_eq_of_lt h]
  · rfl

/-- Without wrapping, what lies behind the end has no place. -/
theorem place_false {q : Nat} : place false size k = some q ↔ k < size ∧ q = k := by
  rw [place, if_neg Bool.false_ne_true]
  split
  · rename_i h
    exact ⟨fun hq => ⟨h, (Option.some.inj hq).symm⟩, fun hq => congrArg some hq.2.symm⟩
  · rename_i h
    exact ⟨fun hq => absurd hq (Option.some_ne_none q).symm, fun hq => absurd hq.1 h⟩

/-- With wrapping everything has one. -/
theorem exists_place (h : wrap = true ∨ k < size) : ∃ q, place wrap size k = some q := by
  cases wrap with
  | true => exact ⟨_, if_pos rfl⟩
  | false => exact ⟨k, place_of_lt (h.resolve_left Bool.false_ne_true)⟩

/-- Wrapping twice is wrapping once. -/
theorem place_mod_add (h : wrap = true ∨ p < size) :
    place wrap size (p % size + k) = place wrap size (p + k) := by
  cases wrap with
  | true => simp only [place, if_true, Nat.mod_add_mod]
  | false => rw [Nat.mod_eq_of_lt (h.resolve_left Bool.false_ne_true)]

/-- No two of as many columns as there are share a place. -/
theorem place_inj (hn : n ≤ size) {i j q : Nat} (hi : i < n) (hj : j < n)
    (h : place wrap size (p + i) = some q) (h' : place wrap size (p + j) = some q) : i = j := by
  unfold place at h h'
  split_ifs at h h' with hwrap hi' hj'
  · have hmod : i ≡ j [MOD size] :=
      Nat.ModEq.add_left_cancel' p (Option.some.inj (h.trans h'.symm))
    exact Nat.ModEq.eq_of_lt_of_lt hmod (hi.trans_le hn) (hj.trans_le hn)
  · have := Option.some.inj (h.trans h'.symm)
    omega

/-- A place is taken by one step of the sprite. -/
theorem mem_placed {l : Nat × Nat} :
    l ∈ placed wrap size n p ↔ l.1 < n ∧ place wrap size (p + l.1) = some l.2 := by
  simp only [placed, List.mem_filterMap, List.mem_range, Option.map_eq_some_iff, Prod.ext_iff]
  constructor
  · rintro ⟨k, hk, q, hq, rfl, rfl⟩
    exact ⟨hk, hq⟩
  · rintro ⟨hk, hq⟩
    exact ⟨l.1, hk, l.2, hq, rfl, rfl⟩

/-- As many columns as there are get different places. -/
theorem placed_pairwise (hn : n ≤ size) :
    (placed wrap size n p).Pairwise fun l l' => l.2 ≠ l'.2 := by
  refine List.pairwise_filterMap.2 (List.pairwise_lt_range.imp_of_mem ?_)
  intro i j hi hj hij l hl l' hl' hq
  obtain ⟨q, hq', rfl⟩ := Option.map_eq_some_iff.1 hl
  obtain ⟨q', hq'', rfl⟩ := Option.map_eq_some_iff.1 hl'
  cases (show q = q' from hq)
  exact hij.ne (place_inj hn (List.mem_range.1 hi) (List.mem_range.1 hj) hq' hq'')

/-- Two stretches in a row. -/
theorem placed_add (m : Nat) : placed wrap size (n + m) p =
    placed wrap size n p ++ (placed wrap size m (p + n)).map fun l => (n + l.1, l.2) := by
  rw [placed, List.range_add, List.filterMap_append, List.filterMap_map, placed, placed,
    List.map_filterMap]
  congr 1
  refine List.filterMap_congr fun k _ => ?_
  simp only [Function.comp_apply, Option.map_map, Nat.add_assoc]
  rfl

/-- A single step. -/
theorem placed_one : placed wrap size 1 p = (place wrap size p).toList.map (0, ·) := by
  rw [placed, List.range_one, List.filterMap_cons, Nat.add_zero]
  cases place wrap size p <;> rfl

/-- The first column and the others. -/
theorem placed_succ : placed wrap size (n + 1) p =
    (place wrap size p).toList.map (0, ·) ++
      (placed wrap size n (p + 1)).map fun l => (1 + l.1, l.2) := by
  rw [Nat.add_comm n 1, placed_add, placed_one]

/-- So is wrapping where a stretch begins. -/
theorem placed_mod (h : wrap = true ∨ p < size) :
    placed wrap size n (p % size) = placed wrap size n p :=
  List.filterMap_congr fun k _ => by rw [place_mod_add h]

/-- Behind the edge of a screen that does not wrap there is nothing. -/
theorem placed_of_le (hp : size ≤ p) : placed false size n p = [] := by
  refine List.filterMap_eq_nil_iff.2 fun k _ => ?_
  have hk : ¬p + k < size := by omega
  simp [place, hk]

end

/-! ## The cells of a sprite -/

namespace Sprite

variable {sp : Sprite} {wrap : Bool} {W H x y : Nat}

/-- The columns of a row are the places of its set pixels. -/
theorem mem_columns (sp : Sprite) {r X : Nat} : X ∈ sp.columns wrap W x r ↔
    ∃ c < sp.cols, sp.pixel r c = true ∧ place wrap W (x + c) = some X := by
  simp only [columns, List.mem_map, List.mem_filter, mem_placed]
  constructor
  · rintro ⟨l, ⟨⟨hc, hX⟩, hpixel⟩, rfl⟩
    exact ⟨l.1, hc, hpixel, hX⟩
  · rintro ⟨c, hc, hpixel, hX⟩
    exact ⟨(c, X), ⟨⟨hc, hX⟩, hpixel⟩, rfl⟩

/-- A cell is flipped if it is the place of a set pixel. -/
theorem mem_cells {X Y : Nat} : (X, Y) ∈ sp.cells wrap W H x y ↔
    ∃ r < sp.rows, ∃ c < sp.cols, sp.pixel r c = true ∧
      place wrap W (x + c) = some X ∧ place wrap H (y + r) = some Y := by
  simp only [cells, List.mem_flatMap, List.mem_map, mem_placed, mem_columns, Prod.mk.injEq]
  constructor
  · rintro ⟨l, ⟨hr, hY⟩, X, ⟨c, hc, hpixel, hX⟩, rfl, rfl⟩
    exact ⟨l.1, hr, c, hc, hpixel, hX, hY⟩
  · rintro ⟨r, hr, c, hc, hpixel, hX, hY⟩
    exact ⟨(r, Y), ⟨hr, hY⟩, X, ⟨c, hc, hpixel, hX⟩, rfl, rfl⟩

/-- No column is taken twice if the sprite is no wider than the display. -/
theorem nodup_columns (sp : Sprite) (hcols : sp.cols ≤ W) (r : Nat) :
    (sp.columns wrap W x r).Nodup :=
  List.pairwise_map.2 ((placed_pairwise hcols).filter _)

/-- Rows at different places whose columns are different give different cells. -/
theorem nodup_rows {rows : List (Nat × Nat)} (hrows : rows.Pairwise fun l l' => l.2 ≠ l'.2)
    {columns : Nat → List Nat} (hcolumns : ∀ r, (columns r).Nodup) :
    (rows.flatMap fun l => (columns l.1).map (·, l.2)).Nodup := by
  have hinj (Y : Nat) : Function.Injective fun X : Nat => (X, Y) :=
    fun X X' h => (Prod.ext_iff.1 h).1
  refine List.nodup_flatMap.2 ⟨fun l _ => (hcolumns l.1).map (hinj l.2),
    hrows.imp fun {l l'} hne p hp hp' => ?_⟩
  obtain ⟨X, -, rfl⟩ := List.mem_map.1 hp
  obtain ⟨X', -, h⟩ := List.mem_map.1 hp'
  exact hne (Prod.ext_iff.1 h).2.symm

/-- No cell is flipped twice if the sprite fits the size of the display. -/
theorem nodup_cells (hcols : sp.cols ≤ W) (hrows : sp.rows ≤ H) :
    (sp.cells wrap W H x y).Nodup := nodup_rows (placed_pairwise hrows) (nodup_columns sp hcols)

/-- The cells are on the screen. -/
theorem cells_lt (hW : 0 < W) (hH : 0 < H) :
    ∀ p ∈ sp.cells wrap W H x y, p.1 < W ∧ p.2 < H := by
  rintro ⟨X, Y⟩ h
  obtain ⟨r, -, c, -, -, hX, hY⟩ := mem_cells.1 h
  exact ⟨place_lt hW hX, place_lt hH hY⟩

/-- Sprites of memory have at most 16 rows, -/
theorem ofBytes_rows_le (N : Fin 16) (byteAt : Nat → UInt8) : (ofBytes N byteAt).rows ≤ 16 := by
  unfold ofBytes
  split
  · exact Nat.le_refl 16
  · exact N.isLt.le

/-- and at most 16 columns. -/
theorem ofBytes_cols_le (N : Fin 16) (byteAt : Nat → UInt8) : (ofBytes N byteAt).cols ≤ 16 := by
  unfold ofBytes
  split
  · exact Nat.le_refl 16
  · exact Nat.le_add_right 8 8

end Sprite

/-! ## Flipping cells -/

/-- The lit bit of some cells of a map is flipped. -/
structure Flipped (lit : UInt8) (cells : List (Nat × Nat)) (m m' : Map2D UInt8) : Prop where
  size : Map2D.SameSize m' m
  cell : ∀ X < m.width, ∀ Y < m.height,
    m'.at2 X Y = if (X, Y) ∈ cells then m.at2 X Y ^^^ lit else m.at2 X Y
  behind : ∀ i ≥ m.size, m'.at1 i = m.at1 i

/-- Flipping some cells turns one off. -/
def TurnsOff (lit : UInt8) (cells : List (Nat × Nat)) (m : Map2D UInt8) : Prop :=
  ∃ p ∈ cells, m.at2 p.1 p.2 &&& lit = lit

instance (lit : UInt8) (cells : List (Nat × Nat)) (m : Map2D UInt8) :
    Decidable (TurnsOff lit cells m) :=
  inferInstanceAs (Decidable (∃ p ∈ cells, m.at2 p.1 p.2 &&& lit = lit))

namespace Canvas

/-- Flip the cells of a list, one after the other. -/
def flipAll (lit : UInt8) (cells : List (Nat × Nat)) (c : Canvas) : Canvas :=
  cells.foldl (fun c p => c.flip lit p.1 p.2) c

variable {lit : UInt8} {cells : List (Nat × Nat)}

@[simp] theorem flipAll_nil (c : Canvas) : flipAll lit [] c = c := rfl

@[simp] theorem flipAll_cons (p : Nat × Nat) (c : Canvas) :
    flipAll lit (p :: cells) c = flipAll lit cells (c.flip lit p.1 p.2) := rfl

/-- Flips follow one another. -/
theorem flipAll_append (cells' : List (Nat × Nat)) (c : Canvas) :
    flipAll lit (cells ++ cells') c = flipAll lit cells' (flipAll lit cells c) :=
  List.foldl_append

@[simp] theorem width_flip (X Y : Nat) (c : Canvas) :
    (c.flip lit X Y).map.width = c.map.width := rfl

@[simp] theorem height_flip (X Y : Nat) (c : Canvas) :
    (c.flip lit X Y).map.height = c.map.height := rfl

/-- Flips set cells only. -/
theorem sameSize_flipAll (cells : List (Nat × Nat)) (c : Canvas) :
    Map2D.SameSize (flipAll lit cells c).map c.map := by
  induction cells generalizing c with
  | nil => exact ⟨rfl, rfl⟩
  | cons p cells ih => exact (ih (c.flip lit p.1 p.2)).trans ⟨rfl, rfl⟩

/-- The map does not depend on VF. -/
theorem map_flipAll (m : Map2D UInt8) (VF VF' : UInt8) :
    (flipAll lit cells ⟨m, VF⟩).map = (flipAll lit cells ⟨m, VF'⟩).map := by
  induction cells generalizing m VF VF' with
  | nil => rfl
  | cons p cells ih => exact ih _ _ _

/-- Flipping as visits of a sweep over a buffer whose rows are `W` long. -/
def flipping (lit : UInt8) (W : Nat) : Sweep (Nat × Nat) Nat UInt8 UInt8 where
  pos p := p.2 * W + p.1
  rewrite _ v := v ^^^ lit
  hit _ v := (v ^^^ lit) &&& lit = 0
  mark := 1

/-- Flips are a sweep; its mark is the collision flag. -/
theorem flipAll_eq_run (cells : List (Nat × Nat)) (c : Canvas) : flipAll lit cells c =
    let d := (flipping lit c.map.width).run cells (c.map.data, c.VF)
    ⟨{ c.map with data := d.1 }, d.2⟩ := by
  induction cells generalizing c with
  | nil => rfl
  | cons p cells ih =>
      rw [flipAll_cons, ih, Sweep.run_cons]
      simp only [Sweep.visit, flipping, decide_eq_true_eq]
      rfl

/-- A cell that is flipped changes. -/
theorem xor_ne (hlit : lit ≠ 0) (v : UInt8) : v ^^^ lit ≠ v := by
  intro h
  have h0 : (v ^^^ lit) ^^^ v = 0 := by rw [h, UInt8.xor_self]
  rw [UInt8.xor_comm v, UInt8.xor_assoc, UInt8.xor_self, UInt8.xor_zero] at h0
  exact hlit h0

/-- A lit bit is turned off if it was on. -/
theorem xor_and_eq_zero_iff (v : UInt8) : (v ^^^ lit) &&& lit = 0 ↔ v &&& lit = lit := by
  have hbits : (v ^^^ lit) &&& lit = (v &&& lit) ^^^ lit := by
    apply UInt8.toBitVec_inj.1
    ext i
    simp only [UInt8.toBitVec_and, UInt8.toBitVec_xor, BitVec.getElem_and, BitVec.getElem_xor]
    cases v.toBitVec[i] <;> cases lit.toBitVec[i] <;> rfl
  rw [hbits, UInt8.xor_eq_zero_iff]

/-- Cells of a map, each of them once. -/
def Apart (m : Map2D UInt8) (cells : List (Nat × Nat)) : Prop :=
  cells.Nodup ∧ ∀ p ∈ cells, p.1 < m.width ∧ p.2 < m.height

/-- Cells apart from each other have different indices. -/
theorem Apart.distinct {m : Map2D UInt8} (h : Apart m cells) :
    (cells.map (flipping lit m.width).pos).Nodup :=
  h.1.map_on fun p hp q hq hpos =>
    Prod.ext_iff.2 (Map2D.offset_inj (m := m) (h.2 p hp).1 (h.2 q hq).1 hpos)

/-- **Flipping each cell once.** -/
theorem flipped_flipAll {c : Canvas} (h : Apart c.map cells) :
    Flipped lit cells c.map (flipAll lit cells c).map := by
  rw [flipAll_eq_run]
  refine ⟨⟨rfl, rfl⟩, fun X hX Y hY => ?_, fun i hi => ?_⟩
  · split
    · rename_i hmem
      exact Sweep.run_cells_of_mem h.distinct hmem _
    · rename_i hmem
      refine Sweep.run_cells_of_not_mem (fun hpos => hmem ?_) _
      obtain ⟨p, hp, hpos⟩ := List.mem_map.1 hpos
      have hp' : p = (X, Y) :=
        Prod.ext_iff.2 (Map2D.offset_inj (m := c.map) (h.2 p hp).1 hX hpos)
      exact hp' ▸ hp
  · refine Sweep.run_cells_of_not_mem (fun hpos => ?_) _
    obtain ⟨p, hp, hpos⟩ := List.mem_map.1 hpos
    exact absurd (hpos ▸ Map2D.offset_lt_size (h.2 p hp).1 (h.2 p hp).2) (Nat.not_lt.2 hi)

/-- VF is set if that turned one off. -/
theorem VF_flipAll {c : Canvas} (h : Apart c.map cells) :
    (flipAll lit cells c).VF = if TurnsOff lit cells c.map then 1 else c.VF := by
  rw [flipAll_eq_run]
  refine (Sweep.run_mark h.distinct _).trans (if_congr ?_ rfl rfl)
  simp only [List.any_eq_true, flipping, decide_eq_true_eq, xor_and_eq_zero_iff]
  rfl

/-- Flipping each cell once, with VF cleared before. -/
theorem flipped_of_eq {m m' : Map2D UInt8} {VF : UInt8} (hapart : Apart m cells)
    (h : (⟨m', VF⟩ : Canvas) = flipAll lit cells ⟨m, 0⟩) :
    Flipped lit cells m m' ∧ VF = if TurnsOff lit cells m then 1 else 0 := by
  have hmap : m' = (flipAll lit cells ⟨m, 0⟩).map := congrArg Canvas.map h
  have hVF : VF = (flipAll lit cells ⟨m, 0⟩).VF := congrArg Canvas.VF h
  rw [hmap, hVF]
  exact ⟨flipped_flipAll (c := ⟨m, 0⟩) hapart, VF_flipAll (c := ⟨m, 0⟩) hapart⟩

/-! ## The loops -/

/-- The cells the loops of `draw_byte` and `DxyN` come by on the way along a row or a column:
how far they are, and where. -/
def walk (wrap : Bool) (size : Nat) : Nat → Nat → Nat → List (Nat × Nat)
  | 0, _, _ => []
  | n + 1, k, p =>
      (k, p) :: if !wrap && p == size - 1 then []
        else walk wrap size n (k + 1) ((p + 1) &&& (size - 1))

theorem walk_one (wrap : Bool) (size k p : Nat) : walk wrap size 1 k p = [(k, p)] := by
  rw [walk]
  split <;> rfl

/-- The loop over the bits flips the places of the set ones. -/
theorem drawBits_eq (wrap : Bool) (Y : Nat) (DATA : UInt8) (n B X : Nat) (c : Canvas) :
    drawBits wrap lit Y DATA n B X c =
      flipAll lit (((walk wrap c.map.width n B X).filter fun l => DATA.toNat.testBit (7 - l.1)).map
        fun l => (l.2, Y)) c := by
  induction n generalizing B X c with
  | zero => rfl
  | succ n ih =>
      -- what follows the first bit, on the display as that bit leaves it
      have hrest : ∀ c' : Canvas, c'.map.width = c.map.width →
          (if !wrap && X == c'.map.width - 1 then c'
            else drawBits wrap lit Y DATA n (B + 1) ((X + 1) &&& (c'.map.width - 1)) c') =
          flipAll lit (((if !wrap && X == c.map.width - 1 then []
            else walk wrap c.map.width n (B + 1) ((X + 1) &&& (c.map.width - 1))).filter
              fun l => DATA.toNat.testBit (7 - l.1)).map fun l => (l.2, Y)) c' := by
        intro c' hW
        rw [hW]
        split
        · rfl
        · rw [ih, hW]
      rw [drawBits, walk]
      cases hbit : DATA.toNat.testBit (7 - B) with
      | false =>
          rw [List.filter_cons_of_neg (by simp only [hbit]; exact Bool.false_ne_true)]
          exact hrest c rfl
      | true =>
          rw [List.filter_cons_of_pos (by simp only [hbit]), List.map_cons, flipAll_cons]
          exact hrest (c.flip lit X Y) rfl

/-- One row needs no loop. -/
theorem drawRows_one (wrap : Bool) (drawRow : Nat → Nat → Canvas → Canvas) (row Y : Nat)
    (c : Canvas) : drawRows wrap drawRow 1 row Y c = drawRow row Y c := by
  rw [drawRows]
  split <;> rfl

/-- The loop over the rows flips what each row does. -/
theorem drawRows_eq {wrap : Bool} {drawRow : Nat → Nat → Canvas → Canvas} {W : Nat}
    {columns : Nat → List Nat}
    (hrow : ∀ row Y c, c.map.width = W →
      drawRow row Y c = flipAll lit ((columns row).map (·, Y)) c) (n row Y : Nat) (c : Canvas)
    (hW : c.map.width = W) : drawRows wrap drawRow n row Y c =
      flipAll lit ((walk wrap c.map.height n row Y).flatMap
        fun l => (columns l.1).map (·, l.2)) c := by
  induction n generalizing row Y c with
  | zero => rfl
  | succ n ih =>
      have hsize : Map2D.SameSize (drawRow row Y c).map c.map := by
        rw [hrow row Y c hW]
        exact sameSize_flipAll _ c
      have hwidth : (drawRow row Y c).map.width = c.map.width := hsize.1
      have hheight : (drawRow row Y c).map.height = c.map.height := hsize.2
      rw [drawRows, walk, List.flatMap_cons, flipAll_append, ← hrow row Y c hW, hheight]
      split
      · rfl
      · rw [ih _ _ _ (hwidth.trans hW), hheight]

/-- **The walk.** From a place on the screen the loops come by what is placed of a row or a
column, if there are a power of two of them. -/
theorem walk_eq {wrap : Bool} {size e : Nat} (hsize : size = 2 ^ e) (n k : Nat) {p : Nat}
    (hp : p < size) :
    walk wrap size n k p = (placed wrap size n p).map fun l => (k + l.1, l.2) := by
  induction n generalizing k p with
  | zero => rfl
  | succ n ih =>
      have hmask : (p + 1) &&& (size - 1) = (p + 1) % size := by
        rw [hsize, Nat.and_two_pow_sub_one_eq_mod]
      have hpos : 0 < size := Nat.zero_lt_of_lt hp
      rw [walk, placed_succ, place_of_lt hp, List.map_append, List.map_map, List.map_map]
      refine congrArg (List.cons (k, p)) ?_
      split
      · rename_i hedge
        rw [Bool.and_eq_true, Bool.not_eq_true', beq_iff_eq] at hedge
        obtain ⟨rfl, hlast⟩ := hedge
        have hbehind : size ≤ p + 1 := by omega
        rw [placed_of_le hbehind]
        rfl
      · rename_i hedge
        have hon : wrap = true ∨ p + 1 < size := by
          cases wrap with
          | true => exact .inl rfl
          | false =>
              refine .inr ?_
              have hne : p ≠ size - 1 := fun h => hedge (by simp [h])
              omega
        rw [hmask, ih _ (Nat.mod_lt _ hpos), placed_mod hon]
        refine List.map_congr_left fun l _ => ?_
        rw [Function.comp_apply, Nat.add_assoc]

/-! ## Bytes -/

/-- The columns under the set bits of a byte drawn from column `X` on. -/
def byteColumns (wrap : Bool) (W : Nat) (DATA : UInt8) (X : Nat) : List Nat :=
  ((placed wrap W 8 X).filter fun l => DATA.toNat.testBit (7 - l.1)).map (·.2)

variable {wrap : Bool} {W e X : Nat}

/-- The columns of a byte are the places of its set bits. -/
theorem mem_byteColumns {DATA : UInt8} {q : Nat} : q ∈ byteColumns wrap W DATA X ↔
    ∃ b < 8, DATA.toNat.testBit (7 - b) = true ∧ place wrap W (X + b) = some q :=
  Sprite.mem_columns ⟨1, 8, fun _ c => DATA.toNat.testBit (7 - c)⟩ (r := 0)

/-- No column is taken twice by a byte. -/
theorem nodup_byteColumns (hW : 8 ≤ W) (DATA : UInt8) : (byteColumns wrap W DATA X).Nodup :=
  Sprite.nodup_columns ⟨1, 8, fun _ c => DATA.toNat.testBit (7 - c)⟩ hW 0

/-- An empty byte has none. -/
theorem byteColumns_zero : byteColumns wrap W 0b00000000 X = [] := by
  rw [byteColumns, List.filter_eq_nil_iff.2 fun l _ => by simp]
  rfl

/-- The first bit and the others. -/
theorem byteColumns_succ (DATA : UInt8) : byteColumns wrap W DATA X =
    (if DATA.toNat.testBit 7 then (place wrap W X).toList else []) ++
      ((placed wrap W 7 (X + 1)).filter fun l => DATA.toNat.testBit (6 - l.1)).map (·.2) := by
  have hlater (l : Nat × Nat) : 7 - (1 + l.1) = 6 - l.1 := by omega
  have hfirst : (((place wrap W X).toList.map ((0 : Nat), ·)).filter
      fun l => DATA.toNat.testBit (7 - l.1)).map (·.2) =
      if DATA.toNat.testBit 7 then (place wrap W X).toList else [] := by
    cases place wrap W X with
    | none => exact (ite_self _).symm
    | some q =>
        rw [Option.toList_some, List.map_singleton, List.filter_singleton]
        simp only [Nat.sub_zero]
        cases DATA.toNat.testBit 7 <;> rfl
  rw [byteColumns, placed_succ, List.filter_append, List.map_append, hfirst, List.filter_map,
    List.map_map]
  simp only [Function.comp_def, hlater]

/-- The byte whose first bit alone is set has no others. -/
theorem filter_first {l : List (Nat × Nat)} :
    (l.filter fun l => (0b10000000 : UInt8).toNat.testBit (6 - l.1)) = [] := by
  refine List.filter_eq_nil_iff.2 fun l _ => ?_
  have hbit : Nat.testBit (2 ^ 7) (6 - l.1) = decide (7 = 6 - l.1) := Nat.testBit_two_pow
  have hne : ¬7 = 6 - l.1 := by omega
  exact Bool.not_eq_true _ ▸ hbit.trans (decide_eq_false hne)

/-- A byte of one pixel has at most the one. -/
theorem byteColumns_first : byteColumns wrap W 0b10000000 X = (place wrap W X).toList := by
  rw [byteColumns_succ, filter_first, if_pos (by decide), List.map_nil, List.append_nil]

/-- The eight turns of the loop over the bits. -/
theorem drawBits_eq_columns {c : Canvas} (hW : c.map.width = 2 ^ e) (hX : X < c.map.width) (Y : Nat)
    (DATA : UInt8) : drawBits wrap lit Y DATA 8 0 X c =
      flipAll lit ((byteColumns wrap c.map.width DATA X).map (·, Y)) c := by
  rw [drawBits_eq, walk_eq hW 8 0 hX, byteColumns, List.map_map]
  simp only [Nat.zero_add, Prod.mk.eta, List.map_id']
  rfl

/-- **`draw_byte`.** -/
theorem drawByte_eq {c : Canvas} (hW : c.map.width = 2 ^ e) (X Y : Nat) (DATA : UInt8) :
    c.drawByte wrap lit X Y DATA =
      flipAll lit ((byteColumns wrap c.map.width DATA X).map (·, Y)) c := by
  have hpos : 0 < c.map.width := hW ▸ Nat.two_pow_pos e
  have hmask : X &&& (c.map.width - 1) = X % c.map.width := by
    rw [hW, Nat.and_two_pow_sub_one_eq_mod]
  have hmod : ∀ h : wrap = true ∨ X < c.map.width,
      byteColumns wrap c.map.width DATA (X % c.map.width) =
        byteColumns wrap c.map.width DATA X := fun h => by
    rw [byteColumns, placed_mod h, byteColumns]
  unfold drawByte
  dsimp only
  split
  · rename_i hzero
    rw [hzero, byteColumns_zero]
    rfl
  split
  · rename_i hfirst
    rw [hfirst, byteColumns_first, place, hmask]
    cases wrap with
    | true => rw [if_pos rfl, if_pos rfl, if_pos (Nat.mod_lt X hpos)]; rfl
    | false =>
        rw [if_neg Bool.false_ne_true, if_neg Bool.false_ne_true]
        split <;> rfl
  · cases wrap with
    | true =>
        rw [if_pos rfl, hmask]
        exact (drawBits_eq_columns hW (Nat.mod_lt X hpos) Y DATA).trans
          (by rw [hmod (.inl rfl)])
    | false =>
        rw [if_neg Bool.false_ne_true]
        split
        · rename_i hbehind
          have hle : c.map.width ≤ X := by simpa using hbehind
          rw [byteColumns, placed_of_le hle]
          rfl
        · rename_i hbehind
          have hlt : X < c.map.width := by simpa using hbehind
          exact drawBits_eq_columns hW hlt Y DATA

end Canvas

namespace Sprite

variable {wrap : Bool} {W H x y : Nat} {byteAt : Nat → UInt8}

/-- A row of a sprite 8 wide is a byte. -/
theorem ofBytes_columns {N : Fin 16} (hN : N ≠ 0) (r : Nat) :
    (ofBytes N byteAt).columns wrap W x r = Canvas.byteColumns wrap W (byteAt r) x := by
  rw [ofBytes, if_neg hN]
  rfl

/-- A row of a sprite 16 wide is two bytes, the second one 8 columns further on. -/
theorem ofBytes_zero_columns (r : Nat) :
    (ofBytes 0 byteAt).columns wrap W x r =
      Canvas.byteColumns wrap W (byteAt (2 * r)) x ++
        Canvas.byteColumns wrap W (byteAt (2 * r + 1)) (x + 8) := by
  have hleft : ((placed wrap W 8 x).filter fun l =>
      (byteAt (2 * r + l.1 / 8)).toNat.testBit (7 - l.1 % 8)) =
      (placed wrap W 8 x).filter fun l => (byteAt (2 * r)).toNat.testBit (7 - l.1) := by
    refine List.filter_congr fun l hl => ?_
    have hlt := (mem_placed.1 hl).1
    rw [Nat.div_eq_of_lt hlt, Nat.mod_eq_of_lt hlt, Nat.add_zero]
  have hright : ((placed wrap W 8 (x + 8)).filter fun l =>
      (byteAt (2 * r + (8 + l.1) / 8)).toNat.testBit (7 - (8 + l.1) % 8)) =
      (placed wrap W 8 (x + 8)).filter fun l =>
        (byteAt (2 * r + 1)).toNat.testBit (7 - l.1) := by
    refine List.filter_congr fun l hl => ?_
    have hlt := (mem_placed.1 hl).1
    rw [Nat.add_div_left _ (by decide), Nat.div_eq_of_lt hlt, Nat.add_mod_left,
      Nat.mod_eq_of_lt hlt]
  rw [ofBytes, if_pos rfl, columns]
  dsimp only
  rw [show 16 = 8 + 8 from rfl, placed_add, List.filter_append, List.map_append, hleft,
    List.filter_map, List.map_map]
  exact congrArg (_ ++ List.map (·.2) ·) hright

/-- How many bytes the sprite of `DxyN` has. -/
def byteCount (N : Fin 16) : Nat := if N = 0 then 32 else N.val

/-- Only the bytes of the sprite matter. -/
theorem cells_congr {N : Fin 16} {byteAt' : Nat → UInt8}
    (h : ∀ k < byteCount N, byteAt k = byteAt' k) :
    (ofBytes N byteAt).cells wrap W H x y = (ofBytes N byteAt').cells wrap W H x y := by
  have hrows : (ofBytes N byteAt).rows = (ofBytes N byteAt').rows := by
    unfold ofBytes
    split <;> rfl
  rw [cells, cells, hrows]
  refine List.flatMap_congr fun l hl => congrArg (List.map (·, l.2)) ?_
  have hr := (mem_placed.1 hl).1
  by_cases hN : N = 0
  · subst hN
    have hr : l.1 < 16 := hr
    have hcount : byteCount 0 = 32 := rfl
    rw [ofBytes_zero_columns, ofBytes_zero_columns, h (2 * l.1) (by omega),
      h (2 * l.1 + 1) (by omega)]
  · rw [ofBytes, if_neg hN] at hr
    have hcount : byteCount N = N.val := if_neg hN
    rw [ofBytes_columns hN, ofBytes_columns hN, h l.1 (hcount ▸ hr)]

end Sprite

/-! ## Sprites -/

namespace Canvas

variable {lit : UInt8} {wrap : Bool} {W e x y : Nat} {byteAt : Nat → UInt8}

/-- The loop over the rows draws those on the screen. -/
theorem drawRows_eq_cells (sp : Sprite) {drawRow : Nat → Nat → Canvas → Canvas}
    (hrow : ∀ row Y c, c.map.width = W →
      drawRow row Y c = flipAll lit ((sp.columns wrap W x row).map (·, Y)) c) {c : Canvas}
    (hW : c.map.width = W) (hH : c.map.height = 2 ^ e) (hy : y < c.map.height) :
    drawRows wrap drawRow sp.rows 0 y c =
      flipAll lit (sp.cells wrap W c.map.height x y) c := by
  rw [drawRows_eq hrow sp.rows 0 y c hW, walk_eq hH sp.rows 0 hy, List.flatMap_map]
  simp only [Nat.zero_add]
  rfl

/-- A sprite 8 wide. -/
theorem drawRows_bytes {N : Fin 16} (hN : N ≠ 0) {drawByte : Nat → UInt8 → Canvas → Canvas}
    (hbyte : ∀ Y DATA c, c.map.width = W →
      drawByte Y DATA c = flipAll lit ((byteColumns wrap W DATA x).map (·, Y)) c)
    {c : Canvas} (hW : c.map.width = W) (hH : c.map.height = 2 ^ e) (hy : y < c.map.height) :
    drawRows wrap (fun row Y c => drawByte Y (byteAt row) c) N.val 0 y c =
      flipAll lit ((Sprite.ofBytes N byteAt).cells wrap W c.map.height x y) c := by
  have hrows : (Sprite.ofBytes N byteAt).rows = N.val := by rw [Sprite.ofBytes, if_neg hN]
  rw [← hrows]
  refine drawRows_eq_cells (Sprite.ofBytes N byteAt) (fun row Y c hW => ?_) hW hH hy
  rw [hbyte Y _ c hW, Sprite.ofBytes_columns hN]

/-- A sprite 16 wide. -/
theorem drawRows_doubleBytes {drawByte : Nat → Nat → UInt8 → Canvas → Canvas}
    (hbyte : ∀ Y DATA c, c.map.width = W →
      drawByte x Y DATA c = flipAll lit ((byteColumns wrap W DATA x).map (·, Y)) c)
    (hbyte' : ∀ Y DATA c, c.map.width = W →
      drawByte (x + 8) Y DATA c = flipAll lit ((byteColumns wrap W DATA (x + 8)).map (·, Y)) c)
    {c : Canvas} (hW : c.map.width = W) (hH : c.map.height = 2 ^ e) (hy : y < c.map.height) :
    drawRows wrap (fun row Y c => drawByte (x + 8) Y (byteAt (2 * row + 1))
        (drawByte x Y (byteAt (2 * row)) c)) 16 0 y c =
      flipAll lit ((Sprite.ofBytes 0 byteAt).cells wrap W c.map.height x y) c := by
  refine drawRows_eq_cells (Sprite.ofBytes 0 byteAt) (fun row Y c hW => ?_) hW hH hy
  have hwidth : (drawByte x Y (byteAt (2 * row)) c).map.width = W := by
    rw [hbyte Y _ c hW]
    exact (sameSize_flipAll _ c).1.trans hW
  rw [hbyte' Y _ _ hwidth, hbyte Y _ c hW, Sprite.ofBytes_zero_columns, List.map_append,
    flipAll_append]

/-- The cells of a sprite are different ones of a screen that is large enough. -/
theorem apart_cells {N : Fin 16} {m : Map2D UInt8} {H : Nat} (hW : m.width = W)
    (hH : m.height = H) (hW' : 16 ≤ W) (hH' : 16 ≤ H) (x y : Nat) :
    Apart m ((Sprite.ofBytes N byteAt).cells wrap W H x y) := by
  refine ⟨Sprite.nodup_cells ((Sprite.ofBytes_cols_le N byteAt).trans hW')
    ((Sprite.ofBytes_rows_le N byteAt).trans hH'), ?_⟩
  rw [hW, hH]
  exact Sprite.cells_lt (by omega) (by omega)

end Canvas

end CubeChip
