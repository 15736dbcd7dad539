import Mathlib.Tactic.Ring

/-!
# Rounding to the nearest, and weighted means of what is rounded

`nearest d n` is `n / d` rounded to the nearest integer. Where `d` is odd no quotient lies halfway
between two integers, so the roundings of two shares that make up a multiple of `d` make up its
quotient (`nearest_add`). A mean weighted in `d`-ths may thus round its two shares one by one: it
is exact at equal values (`mix_self`) and never leaves the interval between them.
-/

namespace Nearest

variable {d m n x y : Nat}

/-- `n / d` rounded to the nearest integer. -/
def nearest (d n : Nat) : Nat := (2 * n + d) / (2 * d)

/-- The distance to the quotient is at most a half. -/
theorem nearest_bounds (hd : 0 < d) (n : Nat) :
    2 * (d * nearest d n) ≤ 2 * n + d ∧ 2 * n < 2 * (d * nearest d n) + d := by
  have hdiv := Nat.div_add_mod (2 * n + d) (2 * d)
  have hmod := Nat.mod_lt (2 * n + d) (Nat.mul_pos Nat.two_pos hd)
  rw [Nat.mul_assoc] at hdiv
  change 2 * (d * nearest d n) + _ = _ at hdiv
  exact ⟨by omega, by omega⟩

/-- An integer at a distance of less than a half is the one. -/
theorem nearest_eq (hle : 2 * (d * x) ≤ 2 * n + d) (hlt : 2 * n < 2 * (d * x) + d) :
    nearest d n = x := by
  have hthis : x * (2 * d) = 2 * (d * x) := by ring
  have hnext : (x + 1) * (2 * d) = 2 * (d * x) + 2 * d := by ring
  exact Nat.div_eq_of_lt_le (by omega) (by omega)

/-- Rounding keeps the order. -/
theorem nearest_mono (d : Nat) (h : m ≤ n) : nearest d m ≤ nearest d n :=
  Nat.div_le_div_right (by omega)

/-- A multiple is not rounded. -/
theorem nearest_mul (hd : 0 < d) (x : Nat) : nearest d (d * x) = x :=
  nearest_eq (by omega) (by omega)

/-- Nor is 0. -/
@[simp] theorem nearest_zero (hd : 0 < d) : nearest d 0 = 0 := nearest_mul hd 0

/-- A part of a value is no larger than the value. -/
theorem nearest_mul_le (hd : 0 < d) (h : y ≤ d) : nearest d (x * y) ≤ x := by
  have hle : x * y ≤ d * x := (Nat.mul_le_mul_left x h).trans_eq (Nat.mul_comm ..)
  exact (nearest_mono d hle).trans_eq (nearest_mul hd x)

/-- **The roundings of two shares of a multiple of `d`** make up its quotient. -/
theorem nearest_add (hodd : d % 2 = 1) (h : m + n = d * x) : nearest d m + nearest d n = x := by
  have hd : 0 < d := by omega
  obtain ⟨hm, hm'⟩ := nearest_bounds hd m
  obtain ⟨hn, hn'⟩ := nearest_bounds hd n
  generalize nearest d m = p at hm hm' ⊢
  generalize nearest d n = q at hn hn' ⊢
  -- the first share is not halfway between two integers, so the sum is off by less than one
  have hne : 2 * m ≠ 2 * (d * p) + d ∧ 2 * m + d ≠ 2 * (d * p) := by omega
  have hsum : d * (p + q) = d * p + d * q := Nat.mul_add ..
  have hlt : d * (p + q) < d * (x + 1) := by rw [Nat.mul_succ]; omega
  have hgt : d * x < d * (p + q + 1) := by rw [Nat.mul_succ]; omega
  have := Nat.lt_of_mul_lt_mul_left hlt
  have := Nat.lt_of_mul_lt_mul_left hgt
  omega

/-! ## Weighted means -/

/-- The mean of `x` and `y` with a weight of `w` in `d` on `y`; the shares are rounded. -/
def mix (d x y w : Nat) : Nat := nearest d (x * (d - w)) + nearest d (y * w)

variable {w x' y' : Nat}

/-- Two equal ends mix to themselves. -/
theorem mix_self (hodd : d % 2 = 1) (h : w ≤ d) (x : Nat) : mix d x x w = x := by
  refine nearest_add hodd ?_
  rw [← Nat.mul_add, Nat.sub_add_cancel h, Nat.mul_comm]

/-- A mix keeps the order of its ends. -/
theorem mix_mono (d w : Nat) (hx : x ≤ x') (hy : y ≤ y') : mix d x y w ≤ mix d x' y' w :=
  Nat.add_le_add (nearest_mono d (Nat.mul_le_mul_right _ hx))
    (nearest_mono d (Nat.mul_le_mul_right _ hy))

/-- A mean is at most the larger value. -/
theorem mix_le_max (hodd : d % 2 = 1) (h : w ≤ d) (x y : Nat) : mix d x y w ≤ max x y :=
  (mix_mono d w (Nat.le_max_left ..) (Nat.le_max_right ..)).trans
    (mix_self hodd h (max x y)).le

/-- The weight 0 gives the one end. -/
theorem mix_zero (hd : 0 < d) (x y : Nat) : mix d x y 0 = x := by
  rw [mix, Nat.mul_zero, nearest_zero hd, Nat.sub_zero, Nat.mul_comm, nearest_mul hd, Nat.add_zero]

/-- The full weight gives the other. -/
theorem mix_full (hd : 0 < d) (x y : Nat) : mix d x y d = y := by
  rw [mix, Nat.sub_self, Nat.mul_zero, nearest_zero hd, Nat.mul_comm, nearest_mul hd, Nat.zero_add]

end Nearest
