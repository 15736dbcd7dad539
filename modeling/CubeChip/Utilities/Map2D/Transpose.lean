import CubeChip.Lib.CycleChase
import CubeChip.Utilities.Map2D.Mirror

/-!
# `Map2D::transpose`

The transposed map is made in place: the element for offset `b` comes from `transposeIndex b`,
and the loops chase its cycles (`CycleChase`). The index map permutes the offsets, because it
takes apart the row and the column of one layout and puts them together in the other
(`transposeIndex_offset`), and it leaves the first offset and the last one where they are.
-/

namespace CubeChip.Map2D

variable {α : Type*}

/-- `(b % height()) * width() + (b / height())`. -/
def transposeIndex (m : Map2D α) (b : Nat) : Nat := b % m.height * m.width + b / m.height

/-- `transpose`, whose inner loop may go round `fuel` times for each element. -/
def transpose (fuel : Nat) (m : Map2D α) : Option (Map2D α) :=
  if 1 < m.size32 then
    (CycleChase.rearrange m.transposeIndex fuel (List.range' 1 (m.size32 - 2)) m.data).map
      fun data => ⟨data, m.sizeY, m.sizeX⟩
  else some ⟨m.data, m.sizeY, m.sizeX⟩

variable {m : Map2D α} {x y : Nat}

/-- The offset of a cell in the transposed layout, and in the old one. -/
theorem transposeIndex_offset (hy : y < m.height) :
    m.transposeIndex (x * m.height + y) = m.offset x y := by
  have hpos : 0 < m.height := Nat.zero_lt_of_lt hy
  have hdiv : (x * m.height + y) / m.height = x := by
    rw [Nat.mul_comm, Nat.mul_add_div hpos, Nat.div_eq_of_lt hy, Nat.add_zero]
  rw [transposeIndex, hdiv, Nat.mul_add_mod_of_lt hy]
  rfl

/-- Every offset is that of a cell in the transposed layout. -/
theorem exists_transposed {i : Nat} (h : i < m.size) :
    ∃ x y, x < m.width ∧ y < m.height ∧ i = x * m.height + y := by
  have hsize : (⟨m.data, m.sizeY, m.sizeX⟩ : Map2D α).size = m.size := Nat.mul_comm _ _
  obtain ⟨y, x, hy, hx, hi⟩ := exists_cell (⟨m.data, m.sizeY, m.sizeX⟩ : Map2D α) (hsize ▸ h)
  exact ⟨x, y, hx, hy, hi.symm⟩

/-- The index map permutes the offsets. -/
theorem permutes_transposeIndex (m : Map2D α) : CycleChase.Permutes m.transposeIndex m.size where
  lt i hi := by
    obtain ⟨x, y, hx, hy, rfl⟩ := exists_transposed hi
    rw [transposeIndex_offset hy]
    exact offset_lt_size hx hy
  inj i hi j hj h := by
    obtain ⟨x, y, hx, hy, rfl⟩ := exists_transposed hi
    obtain ⟨x', y', hx', hy', rfl⟩ := exists_transposed hj
    rw [transposeIndex_offset hy, transposeIndex_offset hy'] at h
    obtain ⟨rfl, rfl⟩ := offset_inj hx hx' h
    rfl

theorem transposeIndex_first (m : Map2D α) : m.transposeIndex 0 = 0 := by
  rw [transposeIndex, Nat.zero_mod, Nat.zero_mul, Nat.zero_div]

theorem transposeIndex_last (h : 0 < m.size) : m.transposeIndex (m.size - 1) = m.size - 1 := by
  have hW : 0 < m.width := Nat.pos_of_mul_pos_left h
  have hH : 0 < m.height := Nat.pos_of_mul_pos_right h
  have hrows : m.size = (m.height - 1) * m.width + m.width := by
    rw [← Nat.succ_mul, Nat.succ_eq_add_one, Nat.sub_add_cancel hH]
    rfl
  have hcols : m.size = (m.width - 1) * m.height + m.height := by
    rw [← Nat.succ_mul, Nat.succ_eq_add_one, Nat.sub_add_cancel hW, Nat.mul_comm]
    rfl
  have hlast := transposeIndex_offset (m := m) (x := m.width - 1) (y := m.height - 1) (by omega)
  rw [offset] at hlast
  rw [show m.size - 1 = (m.width - 1) * m.height + (m.height - 1) by omega, hlast]
  omega

/-- **The loops** end, and put every element where it belongs. -/
theorem exists_transpose (h : m.size < 2 ^ 32) {fuel : Nat} (hfuel : m.size ≤ fuel) :
    ∃ data, m.transpose fuel = some ⟨data, m.sizeY, m.sizeX⟩ ∧
      (∀ i < m.size, data i = m.data (m.transposeIndex i)) ∧
      ∀ i, m.size ≤ i → data i = m.data i := by
  unfold transpose
  rw [size32_eq m h]
  split
  · next hmany =>
    obtain ⟨data, hrun, hcells, hrest⟩ := CycleChase.exists_rearrange
      (permutes_transposeIndex m) hmany (transposeIndex_first m)
      (transposeIndex_last (Nat.zero_lt_of_lt hmany)) hfuel m.data
    exact ⟨data, by rw [hrun]; rfl, hcells, hrest⟩
  · next hfew =>
    refine ⟨m.data, rfl, fun i hi => ?_, fun _ _ => rfl⟩
    rw [show i = 0 by omega, transposeIndex_first]

/-- Its cells, by row and column. -/
theorem at2_transposed {data : Nat → α}
    (hcells : ∀ i < m.size, data i = m.data (m.transposeIndex i)) (hx : x < m.width)
    (hy : y < m.height) : (⟨data, m.sizeY, m.sizeX⟩ : Map2D α).at2 y x = m.at2 x y := by
  have hin : x * m.height + y < m.size := by
    have hsize : (⟨data, m.sizeY, m.sizeX⟩ : Map2D α).size = m.size := Nat.mul_comm _ _
    exact hsize ▸ offset_lt_size (m := (⟨data, m.sizeY, m.sizeX⟩ : Map2D α)) hy hx
  exact (hcells _ hin).trans (congrArg m.data (transposeIndex_offset hy))

/-- What a transposed map is. -/
structure Transposed (m t : Map2D α) : Prop where
  width_eq : t.width = m.height
  height_eq : t.height = m.width
  at2_eq : ∀ x y, x < m.width → y < m.height → t.at2 y x = m.at2 x y
  perm : ((List.range m.size).map t.at1).Perm ((List.range m.size).map m.at1)

/-- **`transpose` is the transpose**: it ends, and transposing again gives the map back. -/
theorem transpose_spec (h : m.size < 2 ^ 32) {fuel : Nat} (hfuel : m.size ≤ fuel) :
    ∃ t, m.transpose fuel = some t ∧ Transposed m t ∧ t.transpose fuel = some m := by
  obtain ⟨data, hrun, hcells, hrest⟩ := exists_transpose h hfuel
  have hsize : (⟨data, m.sizeY, m.sizeX⟩ : Map2D α).size = m.size := Nat.mul_comm _ _
  obtain ⟨data', hrun', hcells', hrest'⟩ :=
    exists_transpose (m := ⟨data, m.sizeY, m.sizeX⟩) (by omega) (show _ ≤ fuel by omega)
  have htwice : (⟨data', m.sizeX, m.sizeY⟩ : Map2D α) = m := by
    refine ext_cells ⟨rfl, rfl⟩ (fun x y hx hy => ?_) fun i hi => ?_
    · exact (at2_transposed (m := ⟨data, m.sizeY, m.sizeX⟩) hcells' hy hx).trans
        (at2_transposed hcells hx hy)
    · exact (hrest' i (by rw [hsize]; exact hi)).trans (hrest i hi)
  refine ⟨_, hrun, ⟨rfl, rfl, fun x y => at2_transposed hcells,
    (permutes_transposeIndex m).perm hcells⟩, ?_⟩
  rw [hrun']
  exact congrArg some htwice

/-- A map of three columns and two rows. -/
theorem transpose_spec_three_two : ∃ t, (⟨id, 3, 2⟩ : Map2D Nat).transpose 6 = some t ∧
    Transposed ⟨id, 3, 2⟩ t ∧ t.transpose 6 = some ⟨id, 3, 2⟩ :=
  transpose_spec (m := ⟨id, 3, 2⟩) (by decide) (by decide)

end CubeChip.Map2D
