import Mathlib.Algebra.Group.Nat.Defs
import Mathlib.Data.BitVec
import Mathlib.Tactic.Common

/-!
# Words as sets

A 32-bit word is a set of numbers below 32. `has_ext` is extensionality, the `has_` lemmas say
what the operations do to the set, and `has_lowest` that `x & ~(x - 1)` is the least element
alone.
-/

namespace BitSet

variable {x y : UInt32} {i j : Nat}

/-- The element `j` is in the set. -/
def has (x : UInt32) (j : Nat) : Bool := x.toBitVec.getLsbD j

@[simp] theorem has_zero (j : Nat) : has 0 j = false := by simp [has]

@[simp] theorem has_and (x y : UInt32) (j : Nat) : has (x &&& y) j = (has x j && has y j) := by
  simp [has]

@[simp] theorem has_or (x y : UInt32) (j : Nat) : has (x ||| y) j = (has x j || has y j) := by
  simp [has]

@[simp] theorem has_xor (x y : UInt32) (j : Nat) : has (x ^^^ y) j = (has x j ^^ has y j) := by
  simp [has]

/-- Only numbers below 32 are elements. -/
theorem lt_of_has (h : has x j = true) : j < 32 := BitVec.lt_of_getLsbD h

theorem has_not (x : UInt32) (hj : j < 32) : has (~~~x) j = !has x j := by simp [has, hj]

/-- A difference, of which `has_not` is one half. -/
@[simp] theorem has_and_not (x y : UInt32) (j : Nat) :
    has (x &&& ~~~y) j = (has x j && !has y j) := by
  rw [has_and]
  cases hx : has x j with
  | false => rfl
  | true => rw [has_not y (lt_of_has hx)]

/-- **Extensionality.** -/
theorem has_ext (h : ∀ j, has x j = has y j) : x = y :=
  UInt32.toBitVec_inj.1 (BitVec.eq_of_getLsbD_eq fun j _ => h j)

/-- A word that is not 0 has an element. -/
theorem exists_has_of_ne_zero (h : x ≠ 0) : ∃ j, has x j = true := by
  by_contra hnone
  refine h (has_ext fun j => ?_)
  rw [has_zero, Bool.eq_false_iff]
  exact fun hj => hnone ⟨j, hj⟩

theorem ne_zero_of_has (h : has x j = true) : x ≠ 0 := by
  rintro rfl
  simp at h

/-- A set that is not empty, and has nothing but elements of another, meets it. -/
theorem exists_has_both (hx : x ≠ 0) (hdiff : x &&& ~~~y = 0) :
    ∃ j, has x j = true ∧ has y j = true := by
  obtain ⟨j, hj⟩ := exists_has_of_ne_zero hx
  have hnone := congrArg (has · j) hdiff
  simp only [has_and_not x y, hj, has_zero, Bool.true_and, Bool.not_eq_false'] at hnone
  exact ⟨j, hj, hnone⟩

/-- A shift moves the elements up. -/
theorem has_shiftLeft {k : UInt32} (hk : k.toNat < 32) (x : UInt32) (j : Nat) :
    has (x <<< k) j = (decide (j < 32) && !decide (j < k.toNat) && has x (j - k.toNat)) := by
  rw [has, UInt32.toBitVec_shiftLeft, BitVec.shiftLeft_eq', BitVec.getLsbD_shiftLeft]
  simp [Nat.mod_eq_of_lt hk, has]

/-- `1 << j`. -/
theorem has_one_shiftLeft {k : UInt32} (hk : k.toNat < 32) (j : Nat) :
    has (1 <<< k) j = decide (j = k.toNat) := by
  have hshift : ((1 : UInt32) <<< k).toBitVec = BitVec.twoPow 32 k.toNat := by
    rw [UInt32.toBitVec_shiftLeft, BitVec.twoPow_eq]
    simp [Nat.mod_eq_of_lt hk]
  rw [has, hshift, BitVec.getLsbD_twoPow]
  simp only [hk, decide_true, Bool.true_and]
  exact decide_eq_decide.2 eq_comm

/-! ## The least element -/

/-- Below the least element there is nothing. -/
theorem toNat_mod_eq_zero (h : ∀ i < j, has x i = false) : x.toNat % 2 ^ j = 0 := by
  refine Nat.eq_of_testBit_eq fun i => ?_
  rw [Nat.testBit_mod_two_pow, Nat.zero_testBit, Bool.and_eq_false_iff]
  by_cases hi : i < j
  · exact .inr (h i hi)
  · exact .inl (decide_eq_false hi)

/-- What the words are as numbers. -/
theorem has_eq_decide (x : UInt32) (j : Nat) :
    has x j = decide (x.toNat / 2 ^ j % 2 = 1) := Nat.testBit_eq_decide_div_mod_eq

theorem toNat_sub_one (h : x ≠ 0) : (x - 1).toNat = x.toNat - 1 := by
  have hpos : x.toNat ≠ 0 := fun hx => h (UInt32.toNat_inj.1 hx)
  exact UInt32.toNat_sub_of_le x 1 (UInt32.le_iff_toNat_le.2 (Nat.one_le_iff_ne_zero.2 hpos))

/-- Subtracting 1 leaves everything above the least element as it is. -/
theorem has_sub_one_of_has (hi : has x i = true) (hij : i < j) : has (x - 1) j = has x j := by
  have hrest : x.toNat % 2 ^ j ≠ 0 := fun hzero => by
    have hbit := congrArg (Nat.testBit · i) hzero
    rw [Nat.testBit_mod_two_pow, Nat.zero_testBit, decide_eq_true hij, Bool.true_and] at hbit
    exact Bool.noConfusion (hbit.symm.trans hi)
  have hsum := Nat.div_add_mod x.toNat (2 ^ j)
  have hlt := Nat.mod_lt x.toNat (Nat.two_pow_pos j)
  have hdiv : (x.toNat - 1) / 2 ^ j = x.toNat / 2 ^ j := by
    have hpred : x.toNat - 1 = 2 ^ j * (x.toNat / 2 ^ j) + (x.toNat % 2 ^ j - 1) := by omega
    have hsmall : (x.toNat % 2 ^ j - 1) / 2 ^ j = 0 := Nat.div_eq_of_lt (by omega)
    rw [hpred, Nat.mul_add_div (Nat.two_pow_pos j), hsmall, Nat.add_zero]
  rw [has_eq_decide, has_eq_decide, toNat_sub_one (ne_zero_of_has hi), hdiv]

/-- Subtracting 1 takes the least element away. -/
theorem has_sub_one_of_least (hj : has x j = true) (h : ∀ i < j, has x i = false) :
    has (x - 1) j = false := by
  have hsum := Nat.div_add_mod x.toNat (2 ^ j)
  have hpos := Nat.two_pow_pos j
  have hodd : x.toNat / 2 ^ j % 2 = 1 := of_decide_eq_true ((has_eq_decide x j).symm.trans hj)
  have hdiv : (x.toNat - 1) / 2 ^ j = x.toNat / 2 ^ j - 1 := by
    obtain ⟨q, hq⟩ := Nat.exists_eq_succ_of_ne_zero (n := x.toNat / 2 ^ j)
      fun hzero => by simp [hzero] at hodd
    rw [toNat_mod_eq_zero h, hq, Nat.mul_succ] at hsum
    have hpred : x.toNat - 1 = 2 ^ j * q + (2 ^ j - 1) := by omega
    have hsmall : (2 ^ j - 1) / 2 ^ j = 0 := Nat.div_eq_of_lt (by omega)
    rw [hpred, Nat.mul_add_div hpos, hsmall, hq]
    rfl
  rw [has_eq_decide, toNat_sub_one (ne_zero_of_has hj), hdiv]
  exact decide_eq_false (by omega)

/-- **The least element** is what `x & ~(x - 1)` is. -/
theorem has_lowest (x : UInt32) (j : Nat) :
    has (x &&& ~~~(x - 1)) j = true ↔ has x j = true ∧ ∀ i < j, has x i = false := by
  rw [has_and_not, Bool.and_eq_true, Bool.not_eq_true']
  refine and_congr_right fun hj => ⟨fun hsub i hij => ?_, has_sub_one_of_least hj⟩
  rw [Bool.eq_false_iff]
  intro hi
  rw [has_sub_one_of_has hi hij, hj] at hsub
  cases hsub

/-- It is one element at most. -/
theorem eq_of_has_lowest (hi : has (x &&& ~~~(x - 1)) i = true)
    (hj : has (x &&& ~~~(x - 1)) j = true) : i = j := by
  obtain ⟨hi, hileast⟩ := (has_lowest x i).1 hi
  obtain ⟨hj, hjleast⟩ := (has_lowest x j).1 hj
  rcases Nat.lt_trichotomy i j with hlt | heq | hgt
  · exact absurd (hjleast i hlt) (by rw [hi]; decide)
  · exact heq
  · exact absurd (hileast j hgt) (by rw [hj]; decide)

/-- There is one unless the set is empty. -/
theorem lowest_ne_zero (h : x ≠ 0) : x &&& ~~~(x - 1) ≠ 0 := by
  have hexists := exists_has_of_ne_zero h
  have hleast : ∀ i < Nat.find hexists, has x i = false := fun i hi =>
    Bool.eq_false_iff.2 (Nat.find_min hexists hi)
  exact ne_zero_of_has ((has_lowest x _).2 ⟨Nat.find_spec hexists, hleast⟩)

end BitSet
