import Mathlib

/-!
# Truncating a single-precision number

The conversion of a float to an unsigned 64-bit integer by truncation, which has no result unless
the integer is in range. What it yields has the 24 significant bits of a float, so it stays well
below the top of the range (`truncate?_add_le`).
-/

open Float.Model (Format UnpackedFloat)
open Float.Model.UnpackedFloat (ExtendedMantissa roundToInt decreaseExponent shiftToExponent)

namespace Float32

/-- The integer part, if the conversion to it is defined. -/
def truncate? (f : Float32) : Option UInt64 :=
  let i := f.toModel.unpack.toInt (-1) (2 ^ 64)
  if f.isNaN = false ∧ 0 ≤ i ∧ i < 2 ^ 64 then some (UInt64.ofNat i.toNat) else none

/-- A finite float has 24 bits of mantissa. -/
theorem mantissa_lt {f : Float32} {s : UnpackedFloat.Sign} {m : Nat} {e : Int} {hm : 0 < m}
    (h : f.toModel.unpack = .finite s m e hm) : m < 2 ^ 24 := by
  simp only [Float32.Model.unpack, UnpackedFloat.unpack] at h
  split at h
  · split at h <;> cases h
  · split at h
    · split at h
      · cases h
      · injection h with _ hmantissa
        rw [← hmantissa]
        exact Nat.lt_trans (BitVec.isLt _) (by decide)
    · injection h with _ hmantissa
      rw [← hmantissa]
      exact BitVec.isLt _

/-- A shift divides the mantissa. -/
theorem shiftRight_mantissa (em : ExtendedMantissa) (k : Nat) :
    (em >>> k).mantissa = em.mantissa / 2 ^ k := by
  induction k with
  | zero => exact (Nat.div_one _).symm
  | succ k ih =>
      show (em >>> k).mantissa / 2 = _
      rw [ih, Nat.div_div_eq_div_mul, Nat.pow_succ]

/-- The integer part of a mantissa and its exponent. -/
theorem roundToInt_eq (s : UnpackedFloat.Sign) (m : Nat) (e : Int) :
    roundToInt s m e = s.apply (m * 2 ^ e.toNat / 2 ^ (-e).toNat : Nat) := by
  have hshift : (0 - (e - ((e - 0).toNat : Int))).toNat = (-e).toNat := by omega
  simp only [roundToInt, decreaseExponent, shiftToExponent, shiftRight_mantissa, hshift]
  rw [Nat.shiftLeft_eq, Int.sub_zero]
  rfl

/-- A whole number of 24 bits below `2 ^ 64` stays `2 ^ 40` below it. -/
theorem add_le_of_lt {m : Nat} {e : Int} (hm : m < 2 ^ 24)
    (h : m * 2 ^ e.toNat / 2 ^ (-e).toNat < 2 ^ 64) :
    m * 2 ^ e.toNat / 2 ^ (-e).toNat + 2 ^ 40 ≤ 2 ^ 64 := by
  obtain hlarge | hsmall := Int.lt_or_le 40 e
  · -- a multiple of `2 ^ 40`
    obtain ⟨k, hk⟩ : ∃ k, e.toNat = k + 40 := ⟨e.toNat - 40, by omega⟩
    have hneg : (-e).toNat = 0 := by omega
    rw [hneg, hk, Nat.pow_add, Nat.pow_zero, Nat.div_one, ← Nat.mul_assoc] at h ⊢
    omega
  · have hpow : 2 ^ e.toNat ≤ 2 ^ 40 := Nat.pow_le_pow_right (by decide) (by omega)
    have hmul : m * 2 ^ e.toNat ≤ (2 ^ 24 - 1) * 2 ^ 40 :=
      Nat.mul_le_mul (Nat.le_sub_one_of_lt hm) hpow
    have hdiv := Nat.div_le_self (m * 2 ^ e.toNat) (2 ^ (-e).toNat)
    omega

/-- A float below `2 ^ 64` is `2 ^ 40` below it at least. -/
theorem toInt_add_le {f : Float32} (hnonneg : 0 ≤ f.toModel.unpack.toInt (-1) (2 ^ 64))
    (hlt : f.toModel.unpack.toInt (-1) (2 ^ 64) < 2 ^ 64) :
    f.toModel.unpack.toInt (-1) (2 ^ 64) + 2 ^ 40 ≤ 2 ^ 64 := by
  cases hunpack : f.toModel.unpack with
  | notANumber => decide
  | zero s => cases s <;> decide
  | infinity s =>
      rw [hunpack] at hnonneg hlt
      cases s with
      | negative => exact absurd hnonneg (by decide)
      | positive => exact absurd hlt (by decide)
  | finite s m e hm =>
      rw [hunpack, UnpackedFloat.toInt, roundToInt_eq] at hnonneg hlt
      rw [UnpackedFloat.toInt, roundToInt_eq]
      have hroom := add_le_of_lt (e := e) (mantissa_lt hunpack)
      generalize m * 2 ^ e.toNat / 2 ^ (-e).toNat = q at hnonneg hlt hroom ⊢
      cases s with
      | negative =>
          change -(q : Int) + 2 ^ 40 ≤ 2 ^ 64
          omega
      | positive =>
          change (q : Int) + 2 ^ 40 ≤ 2 ^ 64
          change (q : Int) < 2 ^ 64 at hlt
          omega

/-- **A truncated float leaves room above it.** -/
theorem truncate?_add_le {f : Float32} {i : UInt64} (h : f.truncate? = some i) :
    i.toNat + 2 ^ 40 ≤ 2 ^ 64 := by
  simp only [truncate?] at h
  split at h
  · next hrange =>
      obtain ⟨-, hnonneg, hlt⟩ := hrange
      have hroom := toInt_add_le hnonneg hlt
      cases h
      rw [UInt64.toNat_ofNat']
      omega
  · cases h

/-! ## Numbers -/

/-- What it is to be no number. -/
theorem isNaN_iff {f : Float32} : f.isNaN = true ↔ f.toModel.unpack = .notANumber :=
  UnpackedFloat.isNaN_iff

/-- No number packs to no number. -/
theorem isNaN_pack : (Float32.Model.pack .notANumber).unpack.isNaN = true := by decide

/-- No number divided. -/
theorem isNaN_div {f g : Float32} (h : g.isNaN = true) : (f / g).isNaN = true := by
  show (Float32.Model.pack (UnpackedFloat.div _ f.toModel.unpack g.toModel.unpack)).unpack.isNaN = _
  rw [isNaN_iff.1 h]
  cases f.toModel.unpack <;> exact isNaN_pack

/-- No number multiplied. -/
theorem isNaN_mul {f g : Float32} (h : f.isNaN = true) : (f * g).isNaN = true := by
  show (Float32.Model.pack (UnpackedFloat.mul _ f.toModel.unpack g.toModel.unpack)).unpack.isNaN = _
  rw [isNaN_iff.1 h]
  cases g.toModel.unpack <;> exact isNaN_pack

/-- A number is equal to itself. -/
theorem beq_self {f : Float32} (h : f.isNaN = false) : (f == f) = true := by
  rw [beq_self_iff]
  intro hnan
  rw [isNaN_eq_decide_eq_nan, decide_eq_true hnan] at h
  cases h

/-- A quotient that can be truncated is one by a number. -/
theorem number_of_truncate? {f g h : Float32} {i : UInt64} (hi : (f / g * h).truncate? = some i) :
    (g == g) = true := by
  simp only [truncate?] at hi
  split at hi
  · next hrange =>
      refine beq_self ?_
      cases hg : g.isNaN with
      | false => rfl
      | true =>
          rw [isNaN_mul (isNaN_div hg)] at hrange
          cases hrange.1
  · cases hi

end Float32
