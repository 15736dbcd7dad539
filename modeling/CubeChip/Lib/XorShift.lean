import Mathlib.Logic.Function.Basic

/-!
# Words xored with their own shifts

A word xored with itself shifted to the left is another word each time: below the shift its bits
are seen, and every other bit is seen as soon as one further down is known.
-/

namespace BitVec

variable {w k : Nat}

/-- Only zero is its own shift. -/
theorem eq_zero_of_eq_shiftLeft (hk : 0 < k) {d : BitVec w} (h : d = d <<< k) : d = 0 := by
  have hbits : ∀ i, d.getLsbD i = false := by
    intro i
    induction i using Nat.strongRecOn with
    | ind i ih =>
      rw [h, getLsbD_shiftLeft]
      by_cases hi : i < k
      · simp [hi]
      · rw [ih (i - k) (by omega), Bool.and_false]
  exact eq_of_getLsbD_eq fun i _ => (hbits i).trans getLsbD_zero.symm

/-- **A word and its shift.** -/
theorem xor_shiftLeft_injective (hk : 0 < k) :
    Function.Injective fun x : BitVec w => x ^^^ (x <<< k) := by
  intro x y hxy
  have hxy : x ^^^ (x <<< k) = y ^^^ (y <<< k) := hxy
  have hshift : x ^^^ y = (x ^^^ y) <<< k := by
    calc x ^^^ y = x ^^^ (x <<< k) ^^^ (x <<< k) ^^^ y := by
          rw [BitVec.xor_assoc x, BitVec.xor_self, BitVec.xor_zero]
      _ = y ^^^ (y <<< k) ^^^ (x <<< k) ^^^ y := by rw [hxy]
      _ = (x <<< k) ^^^ (y <<< k) := by
          rw [BitVec.xor_comm y, BitVec.xor_assoc, BitVec.xor_assoc, BitVec.xor_comm y,
            BitVec.xor_assoc, BitVec.xor_self, BitVec.xor_zero, BitVec.xor_comm]
      _ = (x ^^^ y) <<< k := (shiftLeft_xor_distrib x y k).symm
  exact xor_eq_zero_iff.1 (eq_zero_of_eq_shiftLeft hk hshift)

end BitVec
