import CubeChip.Utilities.SHA1.Rounds
import CubeChip.Utilities.SHA1.Intrinsics

/-!
# The standard's steps in groups of four

A SHA instruction does four steps at once, with one function and one constant. `four` is
such a group, `after_group` says that twenty of them are the standard's eighty steps, and
`words_schedule` is the schedule by groups.
-/

namespace CubeChip

namespace SHA1

open FIPS180

/-! ## Rotations -/

/-- The rotation is the one of the standard. -/
theorem rotl_eq_ROTL (x n : UInt32) : rotl x n = ROTL n x := rfl

/-- A rotation goes through an exclusive or. -/
theorem rotl_one_xor (x y : UInt32) : rotl (x ^^^ y) 1 = rotl x 1 ^^^ rotl y 1 := by
  apply UInt32.toBitVec_inj.1
  ext i hi
  simp only [rotl]
  interval_cases i <;> simp [BitVec.getLsbD_of_ge]

/-- Two rotations by one are one by two. -/
theorem rotl_one_rotl_one (x : UInt32) : rotl (rotl x 1) 1 = rotl x 2 := by
  apply UInt32.toBitVec_inj.1
  ext i hi
  simp only [rotl]
  interval_cases i <;> simp [BitVec.getLsbD_of_ge]

/-! ## Steps -/

/-- One step with a function, a constant and a word. -/
def stepWith (F : UInt32 → UInt32 → UInt32 → UInt32) (k : UInt32) (s : Working) (w : UInt32) :
    Working :=
  ⟨ROTL 5 s.a + F s.b s.c s.d + s.e + k + w, s.a, ROTL 30 s.b, s.c, s.d⟩

/-- The working variables after `t` steps. -/
def after (block : List UInt8) (h : Working) (t : Nat) : Working :=
  (List.range t).foldl (step block) h

/-- No step. -/
@[simp] theorem after_zero (block : List UInt8) (h : Working) : after block h 0 = h := rfl

/-- One step more. -/
theorem after_succ (block : List UInt8) (h : Working) (t : Nat) :
    after block h (t + 1) = stepWith (f t) (K t) (after block h t) (W block t) := by
  rw [after, List.range_succ, List.foldl_concat]
  rfl

/-! ## Groups -/

/-- The words of group `g`. -/
def words (block : List UInt8) (g : Nat) : U32x4 :=
  ⟨W block (4 * g), W block (4 * g + 1), W block (4 * g + 2), W block (4 * g + 3)⟩

/-- The four steps of group `g`, with the words given. -/
def four (g : Nat) (s : Working) (w : U32x4) : Working :=
  [w.x0, w.x1, w.x2, w.x3].foldl (stepWith (f (4 * g)) (K (4 * g))) s

/-- The function and the constant do not change within a group. -/
theorem f_K_group (g : Nat) {j : Nat} (hj : j < 4) :
    f (4 * g + j) = f (4 * g) ∧ K (4 * g + j) = K (4 * g) := by
  have h₀ : (4 * g + j < 20) = (4 * g < 20) := propext (by omega)
  have h₁ : (4 * g + j < 40) = (4 * g < 40) := propext (by omega)
  have h₂ : (4 * g + j < 60) = (4 * g < 60) := propext (by omega)
  simp only [f, K, h₀, h₁, h₂, and_self]

/-- Four steps are one group. -/
theorem after_group (block : List UInt8) (h : Working) (g : Nat) :
    after block h (4 * (g + 1)) = four g (after block h (4 * g)) (words block g) := by
  obtain ⟨f₁, K₁⟩ := f_K_group g (j := 1) (by decide)
  obtain ⟨f₂, K₂⟩ := f_K_group g (j := 2) (by decide)
  obtain ⟨f₃, K₃⟩ := f_K_group g (j := 3) (by decide)
  rw [show 4 * (g + 1) = 4 * g + 1 + 1 + 1 + 1 by omega]
  simp only [after_succ, Nat.add_assoc, Nat.reduceAdd, f₁, K₁, f₂, K₂, f₃, K₃, four, words,
    List.foldl_cons, List.foldl_nil]

/-- The E after a group is the A before it, rotated. -/
theorem four_e (g : Nat) (s : Working) (w : U32x4) : (four g s w).e = ROTL 30 s.a := rfl

/-- A word of a later group, from the four groups before. -/
theorem W_group (block : List UInt8) {j i : Nat} (hj : j < 16) (hi : i < 4) :
    W block (4 * j + 16 + i) = rotl (W block (4 * j + 13 + i) ^^^ W block (4 * j + 8 + i)
      ^^^ W block (4 * j + 2 + i) ^^^ W block (4 * j + i)) 1 := by
  rw [W_of_le block (by omega) (by omega), rotl_eq_ROTL,
    show 4 * j + 16 + i - 3 = 4 * j + 13 + i by omega,
    show 4 * j + 16 + i - 8 = 4 * j + 8 + i by omega,
    show 4 * j + 16 + i - 14 = 4 * j + 2 + i by omega,
    show 4 * j + 16 + i - 16 = 4 * j + i by omega]

/-- The words of a later group, from the four groups before; the last of them takes the
first. -/
theorem words_schedule (block : List UInt8) {j : Nat} (hj : j < 16) :
    words block (j + 4) =
      let a := words block j
      let b := words block (j + 1)
      let c := words block (j + 2)
      let d := words block (j + 3)
      let w := rotl (d.x1 ^^^ c.x0 ^^^ a.x2 ^^^ a.x0) 1
      ⟨w, rotl (d.x2 ^^^ c.x1 ^^^ a.x3 ^^^ a.x1) 1, rotl (d.x3 ^^^ c.x2 ^^^ b.x0 ^^^ a.x2) 1,
        rotl (w ^^^ c.x3 ^^^ b.x1 ^^^ a.x3) 1⟩ := by
  have h₀ := W_group block hj (i := 0) (by decide)
  have h₁ := W_group block hj (i := 1) (by decide)
  have h₂ := W_group block hj (i := 2) (by decide)
  have h₃ := W_group block hj (i := 3) (by decide)
  simp only [Nat.add_assoc, Nat.reduceAdd, Nat.add_zero] at h₀ h₁ h₂ h₃
  simp only [words, Nat.mul_add, Nat.reduceMul, Nat.add_assoc, Nat.reduceAdd, h₀, h₁, h₂, h₃]

/-! ## Loads -/

/-- A word loaded and its bytes swapped. -/
theorem loadWord_eq_bigEndian (b₀ b₁ b₂ b₃ : UInt8) :
    loadWord b₃ b₂ b₁ b₀ = bigEndian b₀ b₁ b₂ b₃ := by
  rw [bigEndian_eq_or, loadWord]
  generalize b₀.toUInt32 <<< 24 = x₀, b₁.toUInt32 <<< 16 = x₁, b₂.toUInt32 <<< 8 = x₂,
    b₃.toUInt32 = x₃
  ac_rfl

/-- The words of the first four groups, from sixteen bytes of the block each. -/
theorem words_load (src : List UInt8) {g : Nat} (hg : g < 4) :
    words src g =
      let x := load16 src (16 * g)
      ⟨loadWord (x 3) (x 2) (x 1) (x 0), loadWord (x 7) (x 6) (x 5) (x 4),
        loadWord (x 11) (x 10) (x 9) (x 8), loadWord (x 15) (x 14) (x 13) (x 12)⟩ := by
  have hword (j : Nat) (hj : j < 4) : W src (4 * g + j) =
      bigEndian (src.getD (16 * g + 4 * j) 0) (src.getD (16 * g + (4 * j + 1)) 0)
        (src.getD (16 * g + (4 * j + 2)) 0) (src.getD (16 * g + (4 * j + 3)) 0) := by
    rw [W_of_lt src (by omega), blockWord, show 4 * (4 * g + j) = 16 * g + 4 * j by omega]
    rfl
  have h₀ := hword 0 (by decide)
  rw [Nat.add_zero] at h₀
  simp only [words, h₀, hword 1 (by decide), hword 2 (by decide), hword 3 (by decide),
    loadWord_eq_bigEndian]
  rfl

/-! ## Blocks -/

/-- The standard's compression, by its 80 steps. -/
theorem compress_eq (h : Working) (block : List UInt8) :
    compress h block =
      let s := after block h 80
      ⟨h.a + s.a, h.b + s.b, h.c + s.c, h.d + s.d, h.e + s.e⟩ := rfl

/-- `n` single-block calls of `transform_scalar`, one after the other. -/
def scalarCalls (digest : Registers) (src : List UInt8) (n : Nat) : Registers :=
  Blocks.eatBlocks blockBytes (fun d block => transformScalar d block 1) n digest src

/-- One block given to `transform_scalar`. -/
theorem toWorking_scalarCall (digest : Registers) (src : List UInt8) :
    (transformScalar digest (src.take blockBytes) 1).toWorking =
      compress digest.toWorking (src.take blockBytes) := by
  rw [working_transformScalar_one, List.take_take]
  rfl

end SHA1

end CubeChip
