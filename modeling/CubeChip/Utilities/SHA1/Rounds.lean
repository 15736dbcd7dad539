import Mathlib.Tactic.IntervalCases
import CubeChip.Utilities.SHA1
import CubeChip.Utilities.SHA1.Spec

/-!
# The unrolled rounds compute the standard's eighty steps

`rounds` passes the five words under rotating names and keeps the schedule in sixteen cells.
`role` is the name that plays a working variable at a given step, `RoundInv` relates the
state after `t` calls to the standard's state after `t` steps (the words under their roles,
and in each cell the latest schedule word of its residue), and `roundInv_roundAt` is its
step. `working_scalarBlock` is the result for one block.
-/

namespace CubeChip

namespace SHA1

open FIPS180

/-! ## Functions and words agree -/

/-- `Ch`, as the first twenty rounds write it. -/
theorem choose_eq_Ch (w x y : UInt32) : (w &&& (x ^^^ y)) ^^^ y = Ch w x y := by
  apply UInt32.toBitVec_inj.1
  ext i hi
  simp only [Ch, UInt32.toBitVec_xor, UInt32.toBitVec_and, UInt32.toBitVec_not,
    BitVec.getElem_xor, BitVec.getElem_and, BitVec.getElem_not]
  cases w.toBitVec[i] <;> cases x.toBitVec[i] <;> cases y.toBitVec[i] <;> rfl

/-- `Maj`, as rounds forty to fifty-nine write it. -/
theorem majority_eq_Maj (w x y : UInt32) : ((w ||| x) &&& y) ||| (w &&& x) = Maj w x y := by
  apply UInt32.toBitVec_inj.1
  ext i hi
  simp only [Maj, UInt32.toBitVec_or, UInt32.toBitVec_xor, UInt32.toBitVec_and,
    BitVec.getElem_or, BitVec.getElem_xor, BitVec.getElem_and]
  cases w.toBitVec[i] <;> cases x.toBitVec[i] <;> cases y.toBitVec[i] <;> rfl

/-- A word's bytes occupy disjoint bits, so their sum is their union. -/
theorem bigEndian_eq_or (b₀ b₁ b₂ b₃ : UInt8) : bigEndian b₀ b₁ b₂ b₃ =
    (b₀.toUInt32 <<< 24) ||| (b₁.toUInt32 <<< 16) ||| (b₂.toUInt32 <<< 8) ||| b₃.toUInt32 := by
  have h₀ := b₀.toNat_lt
  have h₁ := b₁.toNat_lt
  have h₂ := b₂.toNat_lt
  have h₃ := b₃.toNat_lt
  apply UInt32.toNat_inj.1
  simp only [bigEndian, UInt32.toNat_ofNat', UInt32.toNat_or, UInt32.toNat_shiftLeft,
    UInt8.toNat_toUInt32, UInt32.reduceToNat, Nat.reduceMod]
  have low : b₂.toNat <<< 8 ||| b₃.toNat = b₂.toNat * 2 ^ 8 + b₃.toNat := by
    rw [← Nat.shiftLeft_add_eq_or_of_lt h₃, Nat.shiftLeft_eq]
  have mid : b₁.toNat <<< 16 ||| (b₂.toNat * 2 ^ 8 + b₃.toNat)
      = b₁.toNat * 2 ^ 16 + (b₂.toNat * 2 ^ 8 + b₃.toNat) := by
    rw [← Nat.shiftLeft_add_eq_or_of_lt (by omega), Nat.shiftLeft_eq]
  have high : b₀.toNat <<< 24 ||| (b₁.toNat * 2 ^ 16 + (b₂.toNat * 2 ^ 8 + b₃.toNat))
      = b₀.toNat * 2 ^ 24 + (b₁.toNat * 2 ^ 16 + (b₂.toNat * 2 ^ 8 + b₃.toNat)) := by
    rw [← Nat.shiftLeft_add_eq_or_of_lt (by omega), Nat.shiftLeft_eq]
  rw [Nat.mod_eq_of_lt (by omega : b₀.toNat * 2 ^ 24 + _ + _ + _ < 2 ^ 32),
    Nat.mod_eq_of_lt (by rw [Nat.shiftLeft_eq]; omega : b₀.toNat <<< 24 < 2 ^ 32),
    Nat.mod_eq_of_lt (by rw [Nat.shiftLeft_eq]; omega : b₁.toNat <<< 16 < 2 ^ 32),
    Nat.mod_eq_of_lt (by rw [Nat.shiftLeft_eq]; omega : b₂.toNat <<< 8 < 2 ^ 32),
    Nat.or_assoc, Nat.or_assoc, low, mid, high]
  omega

/-- A little-endian load followed by a byte swap is the big-endian word. -/
theorem bswap32_loadWord (b₀ b₁ b₂ b₃ : UInt8) :
    bswap32 (loadWord b₀ b₁ b₂ b₃) = bigEndian b₀ b₁ b₂ b₃ := by
  rw [bigEndian_eq_or]
  apply UInt32.toBitVec_inj.1
  ext i hi
  simp only [bswap32, loadWord]
  interval_cases i <;> simp [BitVec.getLsbD_of_ge]

/-- The loaded block holds the block's words. -/
theorem loadBlock_get (src : List UInt8) (j : Nat) (h : j < 16) :
    (loadBlock src)[j] = blockWord src j := by
  simp only [loadBlock, Vector.getElem_ofFn, bswap32_loadWord, blockWord]

/-! ## Roles of the five names -/

/-- The name of role `j` (`v`, `w`, `x`, `y`, `z` are 0 to 4) in the call of step `t`. -/
def role (t j : Nat) : Reg :=
  match (j + 4 * t) % 5 with
  | 0 => .a
  | 1 => .b
  | 2 => .c
  | 3 => .d
  | _ => .e

/-- Each role is handed to the next one at the next step. -/
theorem role_succ (t j : Nat) : role (t + 1) (j + 1) = role t j := by
  have : (j + 1 + 4 * (t + 1)) % 5 = (j + 4 * t) % 5 := by omega
  simp only [role, this]

/-- The last role becomes the first. -/
theorem role_succ_zero (t : Nat) : role (t + 1) 0 = role t 4 := by
  have : (0 + 4 * (t + 1)) % 5 = (4 + 4 * t) % 5 := by omega
  simp only [role, this]

/-- Different roles have different names. -/
theorem role_ne (t i j : Nat) (h : i < 5 ∧ j < 5 ∧ i ≠ j) : role t i ≠ role t j := by
  obtain ⟨hi, hj, hne⟩ := h
  have : t % 5 = 0 ∨ t % 5 = 1 ∨ t % 5 = 2 ∨ t % 5 = 3 ∨ t % 5 = 4 := by omega
  have reduce : ∀ k, role t k = role (t % 5) k := fun k => by
    have : (k + 4 * t) % 5 = (k + 4 * (t % 5)) % 5 := by omega
    simp only [role, this]
  rw [reduce i, reduce j]
  rcases this with h' | h' | h' | h' | h' <;> rw [h'] <;>
    interval_cases i <;> interval_cases j <;> first | contradiction | decide

/-- Reading a word after an assignment. -/
theorem Registers.get_set (r : Registers) (value : UInt32) (m n : Reg) :
    (r.set value n).get m = if m = n then value else r.get m := by
  cases n <;> cases m <;> rfl

/-- The words under the roles of step `t`, as working variables. -/
def Registers.working (t : Nat) (r : Registers) : Working :=
  ⟨r.get (role t 0), r.get (role t 1), r.get (role t 2), r.get (role t 3), r.get (role t 4)⟩

/-- A digest as a hash value. -/
def Registers.toWorking (r : Registers) : Working := ⟨r.a, r.b, r.c, r.d, r.e⟩

/-- Roles come back to themselves after a multiple of five steps. -/
theorem Registers.working_eighty (r : Registers) : r.working 80 = r.toWorking := rfl

/-! ## One call is one step -/

/-- The cell of step `t`. -/
def cell (t : Nat) : Fin blockSize := ⟨t % 16, Nat.mod_lt _ (by decide)⟩

/-- The call of step `t`, in closed form. -/
def roundAt (t : Nat) : RoundState → RoundState :=
  (if t < 16 then R0 else if t < 20 then R1 else if t < 40 then R2 else if t < 60 then R3 else R4)
    (role t 0) (role t 1) (role t 2) (role t 3) (role t 4) (cell t)

/-- The unrolled sequence is the regular one. -/
theorem rounds_eq : rounds = (List.range 80).map roundAt := rfl

/-- The state once the call of step `t` has its schedule word. -/
def scheduled (t : Nat) (s : RoundState) : RoundState :=
  if t < 16 then s else mix (cell t) s

/-- Every call is the shared tail, at the standard's function and constant. -/
theorem roundAt_eq (t : Nat) (s : RoundState) :
    roundAt t s = accumulate (f t) (K t) (role t 0) (role t 1) (role t 2) (role t 3) (role t 4)
      (cell t) (scheduled t s) := by
  have choose : (fun w x y : UInt32 => (w &&& (x ^^^ y)) ^^^ y) = Ch := by
    funext w x y; exact choose_eq_Ch w x y
  have majority : (fun w x y : UInt32 => ((w ||| x) &&& y) ||| (w &&& x)) = Maj := by
    funext w x y; exact majority_eq_Maj w x y
  have parity : (fun w x y : UInt32 => w ^^^ x ^^^ y) = Parity := rfl
  simp only [roundAt, scheduled, f, K]
  by_cases h₀ : t < 16
  · simp only [if_pos h₀, if_pos (show t < 20 by omega), R0, choose]
  by_cases h₁ : t < 20
  · simp only [if_neg h₀, if_pos h₁, R1, choose]
  by_cases h₂ : t < 40
  · simp only [if_neg h₀, if_neg h₁, if_pos h₂, R2, parity]
  by_cases h₃ : t < 60
  · simp only [if_neg h₀, if_neg h₁, if_neg h₂, if_pos h₃, R3, majority]
  · simp only [if_neg h₀, if_neg h₁, if_neg h₂, if_neg h₃, R4, parity]

/-- The state after `t` calls, against the standard's after `t` steps. -/
structure RoundInv (src : List UInt8) (h : Working) (t : Nat) (s : RoundState) : Prop where
  regs : s.regs.working t = (List.range t).foldl (step src) h
  block : ∀ u, t ≤ u + 16 → u < max t 16 → s.block[cell u] = W src u

/-- An offset around the block is a step back in the schedule. -/
theorem cell_add {t j k : Nat} (hk : k ≤ t) (hjk : j + k = 16) :
    cell t + (Fin.ofNat 16 j) = cell (t - k) := by
  apply Fin.ext
  simp only [cell, Fin.ofNat, Fin.val_add, blockSize]
  omega

/-- The schedule cells advance by one word. -/
theorem scheduled_block {src : List UInt8} {h : Working} {t : Nat} {s : RoundState}
    (inv : RoundInv src h t s) (ht : t < 80) (u : Nat) (hu : t + 1 ≤ u + 16)
    (hu' : u < max (t + 1) 16) : (scheduled t s).block[cell u] = W src u := by
  unfold scheduled
  split
  case isTrue hlt => exact inv.block u (by omega) (by omega)
  case isFalse hge =>
    have back : ∀ j k, j + k = 16 → 0 < k → s.block[cell t + Fin.ofNat 16 j] = W src (t - k) :=
      fun j k hjk _ => by
        rw [← inv.block (t - k) (by omega) (by omega)]
        simp only [cell_add (show k ≤ t by omega) hjk]
    simp only [mix, Fin.getElem_fin, Vector.getElem_set]
    split
    case isTrue heq =>
      have hut : u = t := by simp only [cell] at heq; omega
      subst hut
      rw [W_of_le src (by omega) ht, ← back 0xD 3 rfl (by omega), ← back 0x8 8 rfl (by omega),
        ← back 0x2 14 rfl (by omega), ← back 0x0 16 rfl (by omega)]
      rfl
    case isFalse hne => exact inv.block u (by omega) (by simp only [cell] at hne; omega)

/-- The new first working variable, with its summands in the order the code adds them. -/
theorem sum_eq (e g w k v : UInt32) : e + (g + w + k + rotl v 5) = ROTL 5 v + g + e + k + w := by
  simp only [ROTL, rotl]
  ac_rfl

/-- The shared tail is the standard's step, up to the change of roles. -/
theorem working_accumulate {src : List UInt8} {t : Nat} {s : RoundState}
    (hw : s.block[cell t] = W src t) :
    (accumulate (f t) (K t) (role t 0) (role t 1) (role t 2) (role t 3) (role t 4) (cell t)
      s).regs.working (t + 1) = step src (s.regs.working t) t := by
  simp only [accumulate, Registers.working, step, role_succ_zero, role_succ t 0, role_succ t 1,
    role_succ t 2, role_succ t 3, Registers.get_set, hw, if_true,
    if_neg (role_ne t 4 1 (by decide)),
    if_neg (role_ne t 0 1 (by decide)),
    if_neg (role_ne t 0 4 (by decide)),
    if_neg (role_ne t 2 1 (by decide)),
    if_neg (role_ne t 2 4 (by decide)),
    if_neg (role_ne t 3 1 (by decide)),
    if_neg (role_ne t 3 4 (by decide)), sum_eq]
  rfl

/-- One call keeps the invariant. -/
theorem roundInv_roundAt {src : List UInt8} {h : Working} {t : Nat} {s : RoundState}
    (inv : RoundInv src h t s) (ht : t < 80) : RoundInv src h (t + 1) (roundAt t s) := by
  have regs_scheduled : (scheduled t s).regs = s.regs := by
    unfold scheduled; split <;> rfl
  rw [roundAt_eq]
  refine ⟨?_, fun u hu hu' => scheduled_block inv ht u hu hu'⟩
  rw [working_accumulate (scheduled_block inv ht t (by omega) (by omega)), regs_scheduled,
    inv.regs, List.range_succ, List.foldl_concat]

/-- Any prefix of the calls keeps it. -/
theorem roundInv_runRounds {src : List UInt8} {h : Working} {s : RoundState}
    (inv : RoundInv src h 0 s) (t : Nat) (ht : t ≤ 80) :
    RoundInv src h t (runRounds ((List.range t).map roundAt) s) := by
  induction t with
  | zero => exact inv
  | succ t ih =>
      rw [List.range_succ, List.map_append, List.map_singleton, runRounds, List.foldl_concat]
      exact roundInv_roundAt (ih (by omega)) (by omega)

/-- A freshly loaded block starts the invariant. -/
theorem roundInv_init (src : List UInt8) (regs : Registers) :
    RoundInv src regs.toWorking 0 ⟨loadBlock src, regs⟩ := by
  refine ⟨rfl, fun u _ hu => ?_⟩
  have hu : u < 16 := by omega
  rw [W_of_lt src hu, ← loadBlock_get src u hu]
  simp only [cell, Fin.getElem_fin, Nat.mod_eq_of_lt hu]

/-- **The loop body computes the eighty steps.** -/
theorem working_scalarBlock (regs : Registers) (src : List UInt8) :
    (scalarBlock regs src).toWorking = (List.range 80).foldl (step src) regs.toWorking := by
  rw [scalarBlock, rounds_eq, ← Registers.working_eighty]
  exact (roundInv_runRounds (roundInv_init src regs) 80 (le_refl 80)).regs

/-- A single-block call of `transform_scalar` is the standard's compression. -/
theorem working_transformScalar_one (digest : Registers) (src : List UInt8) :
    (transformScalar digest src 1).toWorking = compress digest.toWorking (src.take 64) := by
  have h := working_scalarBlock digest (src.take 64)
  have one : transformScalar digest src 1 = digest.add (scalarBlock digest (src.take 64)) := by
    simp only [transformScalar, Blocks.eatBlocks_succ, Blocks.eatBlocks_zero, Nat.one_ne_zero,
      if_false, blockBytes, blockSize, Nat.reduceMul]
  rw [one, compress, ← h]
  generalize scalarBlock digest (src.take 64) = r
  rfl

end SHA1

end CubeChip
