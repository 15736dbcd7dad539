import Mathlib.Logic.Function.Basic
import Mathlib.Data.BitVec

/-!
# `MirroredMemory`

The power-of-two memory of `utilities/ArrayOps.hpp`. The source masks every index with
`N - 1`; with `N = 2 ^ bits` that is keeping the low `bits` bits, so an address *is* a
bit vector of that width and no access is out of range.
-/

namespace CubeChip

/-! ## Indices

The fixed arrays of the program are indexed modulo their sizes: voices, colours, registers.
-/

instance neZero3 : NeZero 3 := ⟨by decide⟩

instance neZero4 : NeZero 4 := ⟨by decide⟩

instance neZero8 : NeZero 8 := ⟨by decide⟩

instance neZero16 : NeZero 16 := ⟨by decide⟩

/-! ## The memory -/

/-- `MirroredMemory<2^bits>`. -/
structure MirroredMemory (bits : Nat) where
  mem : BitVec bits → UInt8

namespace MirroredMemory

variable {bits : Nat}

@[ext] theorem ext {m m' : MirroredMemory bits} (h : ∀ a, m.mem a = m'.mem a) : m = m' := by
  cases m; cases m'; congr; exact funext h

/-- `index & (N - 1)`. -/
def mask (bits : Nat) (index : UInt32) : BitVec bits := index.toBitVec.setWidth bits

/-- `memory[index]`. -/
def get (m : MirroredMemory bits) (index : UInt32) : UInt8 := m.mem (mask bits index)

/-- `memory[index] = value`. -/
def set (m : MirroredMemory bits) (index : UInt32) (value : UInt8) : MirroredMemory bits :=
  ⟨Function.update m.mem (mask bits index) value⟩

/-- `clear`, also the value-initialised memory. -/
def clear : MirroredMemory bits := ⟨fun _ => 0⟩

/-- `std::memcpy(memory.data() + offset, bytes.data(), min(bytes.size(), N - offset))`. -/
def copyFrom (m : MirroredMemory bits) (offset : Nat) (bytes : List UInt8) :
    MirroredMemory bits :=
  ⟨fun a => if offset ≤ a.toNat ∧ a.toNat - offset < bytes.length
    then bytes.getD (a.toNat - offset) 0 else m.mem a⟩

/-- An index that was computed with 32 bits is the same modulo the size of the memory. -/
theorem mask_eq_ofNat {index : UInt32} {n : Nat} (hbits : bits ≤ 32)
    (h : index.toNat = n % 2 ^ 32) : mask bits index = BitVec.ofNat bits n := by
  apply BitVec.eq_of_toNat_eq
  rw [mask, BitVec.toNat_setWidth, BitVec.toNat_ofNat, UInt32.toNat_toBitVec, h,
    Nat.mod_mod_of_dvd _ (Nat.pow_dvd_pow 2 hbits)]

/-- A cell under the copy. -/
theorem copyFrom_of_mem {m : MirroredMemory bits} {offset : Nat} {bytes : List UInt8}
    {a : BitVec bits} (h : offset ≤ a.toNat) (h' : a.toNat - offset < bytes.length) :
    (m.copyFrom offset bytes).mem a = bytes.getD (a.toNat - offset) 0 := if_pos ⟨h, h'⟩

/-- A cell outside the copy. -/
theorem copyFrom_of_not_mem {m : MirroredMemory bits} {offset : Nat} {bytes : List UInt8}
    {a : BitVec bits} (h : ¬(offset ≤ a.toNat ∧ a.toNat - offset < bytes.length)) :
    (m.copyFrom offset bytes).mem a = m.mem a := if_neg h

end MirroredMemory

end CubeChip
