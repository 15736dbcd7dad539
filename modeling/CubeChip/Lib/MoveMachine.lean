import Mathlib.Logic.Function.Basic
import Mathlib.Data.Set.Image

/-!
# Machines that only move cells

A machine with one instruction: copy a cell to a cell, then jump. Where from, where to and where
next are read in the memory itself, the jump after the copy. Such a machine computes by moving
alone: no value appears in its memory that was not there before (`run_moves`).
-/

/-- How an instruction is read at a pointer. -/
structure MoveMachine (A C : Type*) where
  source : (A → C) → A → A
  target : (A → C) → A → A
  next : (A → C) → A → A

namespace MoveMachine

variable {A C : Type*} [DecidableEq A] (M : MoveMachine A C)

/-- One instruction, from a memory and a pointer. -/
def step (s : (A → C) × A) : (A → C) × A :=
  let m := Function.update s.1 (M.target s.1 s.2) (s.1 (M.source s.1 s.2))
  (m, M.next m s.2)

/-- So many instructions. -/
def run : Nat → (A → C) × A → (A → C) × A
  | 0, s => s
  | n + 1, s => run n (M.step s)

/-- A counted loop that takes related steps runs the machine. -/
theorem run_eq_of_step {σ : Type*} {R : σ → (A → C) × A → Prop} {f : σ → σ}
    (hstep : ∀ s t, R s t → R (f s) (M.step t)) (n : Nat) {s : σ} {t : (A → C) × A} (h : R s t) :
    R (f^[n] s) (M.run n t) := by
  induction n generalizing s t with
  | zero => exact h
  | succ n ih => exact ih (hstep s t h)

/-! ## Values -/

theorem step_moves (s : (A → C) × A) (a : A) : (M.step s).1 a ∈ Set.range s.1 := by
  have hcell : (M.step s).1 a =
      Function.update s.1 (M.target s.1 s.2) (s.1 (M.source s.1 s.2)) a := rfl
  rw [hcell, Function.update_apply]
  split
  · exact ⟨_, rfl⟩
  · exact ⟨a, rfl⟩

/-- **Nothing but moves.** -/
theorem run_moves (n : Nat) (s : (A → C) × A) : Set.range (M.run n s).1 ⊆ Set.range s.1 := by
  induction n generalizing s with
  | zero => exact fun _ h => h
  | succ n ih =>
      refine (ih (M.step s)).trans ?_
      rintro _ ⟨a, rfl⟩
      exact M.step_moves s a

end MoveMachine
