import Mathlib.Data.List.Basic

/-!
# Block-wise consumption of a stream

A block function `f : σ → List α → σ` of width `n` consumes a stream `n` elements at a
time. `eatBlocks` is the counted loop, `absorb` the incremental consumer that keeps the
elements of an incomplete block as a residue, and `absorb_append` the law every streaming
interface rests on: absorbing two pieces in turn is absorbing their concatenation.
-/

namespace Blocks

variable {σ α : Type*}

/-! ## The counted loop -/

/-- Apply the block function to the first `k` blocks of `xs`, in order. -/
def eatBlocks (n : Nat) (f : σ → List α → σ) : Nat → σ → List α → σ
  | 0, s, _ => s
  | k + 1, s, xs => eatBlocks n f k (f s (xs.take n)) (xs.drop n)

variable {n : Nat} {f : σ → List α → σ}

@[simp] theorem eatBlocks_zero (s : σ) (xs : List α) : eatBlocks n f 0 s xs = s := rfl

@[simp] theorem eatBlocks_succ (k : Nat) (s : σ) (xs : List α) :
    eatBlocks n f (k + 1) s xs = eatBlocks n f k (f s (xs.take n)) (xs.drop n) := rfl

/-- The loop splits at any block boundary. -/
theorem eatBlocks_add (j k : Nat) (s : σ) (xs : List α) :
    eatBlocks n f (j + k) s xs = eatBlocks n f k (eatBlocks n f j s xs) (xs.drop (j * n)) := by
  induction j generalizing s xs with
  | zero => simp
  | succ j ih =>
      rw [Nat.succ_add, eatBlocks_succ, ih, eatBlocks_succ, List.drop_drop, Nat.succ_mul,
        Nat.add_comm n]

/-- The loop reads nothing past its last block. -/
theorem eatBlocks_append (k : Nat) (s : σ) (xs ys : List α) (h : k * n ≤ xs.length) :
    eatBlocks n f k s (xs ++ ys) = eatBlocks n f k s xs := by
  induction k generalizing s xs with
  | zero => rfl
  | succ k ih =>
      rw [Nat.succ_mul] at h
      rw [eatBlocks_succ, eatBlocks_succ, List.take_append_of_le_length (by omega),
        List.drop_append_of_le_length (by omega), ih _ _ (by simp; omega)]

/-- The loop reads nothing past its last block, however much of it there is. -/
theorem eatBlocks_take (k : Nat) (s : σ) (xs : List α) {l : Nat} (h : k * n ≤ l) :
    eatBlocks n f k s (xs.take l) = eatBlocks n f k s xs := by
  induction k generalizing s xs l with
  | zero => rfl
  | succ k ih =>
      rw [Nat.succ_mul] at h
      rw [eatBlocks_succ, eatBlocks_succ, List.take_take, Nat.min_eq_left (by omega),
        List.drop_take, ih _ _ (by omega)]

/-- A loop over an encoded state is the loop, encoded. -/
theorem eatBlocks_encode {τ : Type*} {g : τ → List α → τ} (encode : τ → σ)
    (h : ∀ t (xs : List α), f (encode t) (xs.take n) = encode (g t (xs.take n))) (k : Nat) (t : τ)
    (xs : List α) : eatBlocks n f k (encode t) xs = encode (eatBlocks n g k t xs) := by
  induction k generalizing t xs with
  | zero => rfl
  | succ k ih => rw [eatBlocks_succ, h, ih, eatBlocks_succ]

/-! ## Absorption with a residue -/

/-- Consume every whole block of the residue followed by `xs`; keep the rest. -/
def absorb (n : Nat) (f : σ → List α → σ) (st : σ × List α) (xs : List α) : σ × List α :=
  (eatBlocks n f ((st.2 ++ xs).length / n) st.1 (st.2 ++ xs),
    (st.2 ++ xs).drop ((st.2 ++ xs).length / n * n))

/-- Too little to complete a block only lengthens the residue. -/
theorem absorb_of_lt {st : σ × List α} {xs : List α} (h : (st.2 ++ xs).length < n) :
    absorb n f st xs = (st.1, st.2 ++ xs) := by
  simp only [absorb, Nat.div_eq_of_lt h, eatBlocks_zero, Nat.zero_mul, List.drop_zero]

/-- Exactly what was missing completes the block. -/
theorem absorb_of_eq {st : σ × List α} {xs : List α} (hn : 0 < n)
    (h : (st.2 ++ xs).length = n) : absorb n f st xs = (f st.1 (st.2 ++ xs), []) := by
  rw [absorb, h, Nat.div_self hn, Nat.one_mul, ← h, eatBlocks_succ, eatBlocks_zero,
    List.take_length, List.drop_length]

/-- **Absorption is a stream.** Two pieces in turn are their concatenation. -/
theorem absorb_append (hn : 0 < n) (st : σ × List α) (xs ys : List α) :
    absorb n f (absorb n f st xs) ys = absorb n f st (xs ++ ys) := by
  obtain ⟨s, t⟩ := st
  set l := t ++ xs with hl
  have hlen := Nat.div_add_mod' l.length n
  have hcut : (l.drop (l.length / n * n) ++ ys).length / n + l.length / n
      = (l ++ ys).length / n := by
    have : (l ++ ys).length = (l.drop (l.length / n * n) ++ ys).length + l.length / n * n := by
      simp only [List.length_append, List.length_drop]; omega
    rw [this, Nat.add_mul_div_right _ _ hn]
  have hdrop : (l ++ ys).drop (l.length / n * n) = l.drop (l.length / n * n) ++ ys :=
    List.drop_append_of_le_length (by omega)
  simp only [absorb, ← List.append_assoc, ← hl]
  rw [← hcut, Nat.add_comm _ (l.length / n), eatBlocks_add,
    eatBlocks_append (l.length / n) s l ys (by omega), hdrop, Nat.add_mul, ← List.drop_drop,
    hdrop]

end Blocks
