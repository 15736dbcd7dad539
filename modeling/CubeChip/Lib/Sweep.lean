import Mathlib.Data.List.Nodup
import Mathlib.Logic.Function.Basic

/-!
# Sweeps over a buffer

A sweep visits cells of a buffer one after the other. A visit rewrites its cell from the value
it finds there, and sets a mark if that value is one it looks for. If no cell is visited twice,
every visit finds the value the cell had before the sweep: `run_cells_of_mem` and `run_mark`
describe the outcome by the initial buffer alone.
-/

/-- What a visit does: the cell it goes to, the value it leaves, when it sets the mark. -/
structure Sweep (ι α β ρ : Type*) where
  pos : ι → α
  rewrite : ι → β → β
  hit : ι → β → Bool
  mark : ρ

namespace Sweep

variable {ι α β ρ : Type*} [DecidableEq α] (w : Sweep ι α β ρ)

/-- One visit. -/
def visit (d : (α → β) × ρ) (i : ι) : (α → β) × ρ :=
  (Function.update d.1 (w.pos i) (w.rewrite i (d.1 (w.pos i))),
    if w.hit i (d.1 (w.pos i)) then w.mark else d.2)

/-- The visits of a list, in its order. -/
def run (visits : List ι) (d : (α → β) × ρ) : (α → β) × ρ := visits.foldl w.visit d

@[simp] theorem run_nil (d : (α → β) × ρ) : w.run [] d = d := rfl

@[simp] theorem run_cons (i : ι) (visits : List ι) (d : (α → β) × ρ) :
    w.run (i :: visits) d = w.run visits (w.visit d i) := rfl

variable {w} {visits : List ι} {a : α}

/-! ## Cells -/

theorem visit_cells_self (d : (α → β) × ρ) (i : ι) :
    (w.visit d i).1 (w.pos i) = w.rewrite i (d.1 (w.pos i)) := Function.update_self ..

theorem visit_cells_of_ne {d : (α → β) × ρ} {i : ι} (h : w.pos i ≠ a) :
    (w.visit d i).1 a = d.1 a := Function.update_of_ne h.symm ..

/-- A cell that is not visited keeps its value. -/
theorem run_cells_of_not_mem (h : a ∉ visits.map w.pos) (d : (α → β) × ρ) :
    (w.run visits d).1 a = d.1 a := by
  induction visits generalizing d with
  | nil => rfl
  | cons i visits ih =>
      obtain ⟨hi, hrest⟩ := not_or.1 (mt List.mem_cons.2 h)
      rw [run_cons, ih hrest, visit_cells_of_ne (Ne.symm hi)]

/-- **A cell visited once.** -/
theorem run_cells_of_mem (hdistinct : (visits.map w.pos).Nodup) {i : ι} (hi : i ∈ visits)
    (d : (α → β) × ρ) : (w.run visits d).1 (w.pos i) = w.rewrite i (d.1 (w.pos i)) := by
  induction visits generalizing d with
  | nil => exact absurd hi List.not_mem_nil
  | cons j visits ih =>
      obtain ⟨hj, hrest⟩ := List.nodup_cons.1 hdistinct
      rw [run_cons]
      rcases List.mem_cons.1 hi with rfl | hi
      · rw [run_cells_of_not_mem hj, visit_cells_self]
      · have hne : w.pos j ≠ w.pos i := fun h => hj (h ▸ List.mem_map_of_mem hi)
        rw [ih hrest hi, visit_cells_of_ne hne]

/-! ## The mark -/

/-- **The mark.** It is set if some visit finds what it looks for in the initial buffer. -/
theorem run_mark (hdistinct : (visits.map w.pos).Nodup) (d : (α → β) × ρ) :
    (w.run visits d).2 =
      if visits.any fun i => w.hit i (d.1 (w.pos i)) then w.mark else d.2 := by
  induction visits generalizing d with
  | nil => rfl
  | cons j visits ih =>
      obtain ⟨hj, hrest⟩ := List.nodup_cons.1 hdistinct
      have hsame : (visits.any fun i => w.hit i ((w.visit d j).1 (w.pos i))) =
          visits.any fun i => w.hit i (d.1 (w.pos i)) := by
        rw [Bool.eq_iff_iff, List.any_eq_true, List.any_eq_true]
        refine exists_congr fun i => and_congr_right fun hi => ?_
        rw [visit_cells_of_ne fun h => hj (h ▸ List.mem_map_of_mem hi)]
      rw [run_cons, ih hrest, hsame, List.any_cons]
      simp only [visit]
      cases w.hit j (d.1 (w.pos j)) <;> simp

/-! ## Sweeps that only write -/

/-- A visit that leaves a value fixed in advance, and marks nothing. -/
def writes (pos : ι → α) (value : ι → β) : Sweep ι α β Unit :=
  ⟨pos, fun i _ => value i, fun _ _ => false, ()⟩

/-- A loop of updates is such a sweep. -/
theorem foldl_update (pos : ι → α) (value : ι → β) (visits : List ι) (f : α → β) :
    visits.foldl (fun f i => Function.update f (pos i) (value i)) f =
      ((writes pos value).run visits (f, ())).1 := by
  induction visits generalizing f with
  | nil => rfl
  | cons i visits ih => exact ih _

end Sweep
