import Mathlib.Algebra.BigOperators.Group.List.Basic
import Mathlib.Algebra.Group.Nat.Defs
import Mathlib.Algebra.GroupWithZero.Nat

/-!
# Handing out a rate in whole units

A phase below `scale` grows by a fixed increment at every step; the whole units in it are handed
out and the rest is carried on. Nothing is lost in the carrying (`sum_units`), and no two steps
differ by more than a unit (`units_close`).
-/

namespace PhaseAccumulator

/-- The units of `n` steps from a phase, in order. -/
def units (scale increment : Nat) : Nat → Nat → List Nat
  | _, 0 => []
  | phase, n + 1 =>
      (phase + increment) / scale :: units scale increment ((phase + increment) % scale) n

variable {scale increment phase n : Nat}

@[simp] theorem length_units : (units scale increment phase n).length = n := by
  induction n generalizing phase with
  | zero => rfl
  | succ n ih => rw [units, List.length_cons, ih]

/-- **No drift**: what is handed out is what has come in, rounded down once. -/
theorem sum_units (hphase : phase < scale) :
    (units scale increment phase n).sum = (phase + n * increment) / scale := by
  have hscale : 0 < scale := Nat.zero_lt_of_lt hphase
  induction n generalizing phase with
  | zero => simp [units, Nat.div_eq_of_lt hphase]
  | succ n ih =>
      have hsplit : phase + (n + 1) * increment =
          (phase + increment) % scale + n * increment + (phase + increment) / scale * scale := by
        have hcarry := Nat.mod_add_div' (phase + increment) scale
        rw [Nat.succ_mul]
        omega
      rw [units, List.sum_cons, ih (Nat.mod_lt _ hscale), hsplit, Nat.add_mul_div_right _ _ hscale,
        Nat.add_comm]

/-- A step hands out the whole units of the increment, or one more. -/
theorem mem_units (hphase : phase < scale) {k : Nat} (h : k ∈ units scale increment phase n) :
    increment / scale ≤ k ∧ k ≤ increment / scale + 1 := by
  have hscale : 0 < scale := Nat.zero_lt_of_lt hphase
  induction n generalizing phase with
  | zero => cases h
  | succ n ih =>
      rcases List.mem_cons.1 h with rfl | h
      · refine ⟨Nat.div_le_div_right (Nat.le_add_left ..), ?_⟩
        rw [← Nat.add_div_right increment hscale]
        exact Nat.div_le_div_right (by omega)
      · exact ih (Nat.mod_lt _ hscale) h

/-- **Two steps differ by a unit at most.** -/
theorem units_close (hphase : phase < scale) {k j : Nat}
    (hk : k ∈ units scale increment phase n) (hj : j ∈ units scale increment phase n) :
    k ≤ j + 1 :=
  Nat.le_trans (mem_units hphase hk).2 (Nat.succ_le_succ (mem_units hphase hj).1)

end PhaseAccumulator
