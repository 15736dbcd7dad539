import CubeChip.Utilities.SHA1.HardwareX86

/-!
# `transform_hw_arm`

The loop body is the sequence of its assignments, in the order they are written: the loads,
twenty groups of four rounds, and the accumulation. The words of E are scalars here, two of
them in turn: `vsha1h_u32` makes the E of the next group while that of this one is used.

The messages lie in the order of the block here, and a sum with the constant of a group is
made two groups ahead. `Before` says what the variables hold; `transform_hw` is the result
for both processors.
-/

namespace CubeChip

namespace SHA1

/-- The local vectors of `transform_hw_arm`. -/
inductive Neon where
  | abcd | abcdSave | tmp0 | tmp1 | msg0 | msg1 | msg2 | msg3
deriving DecidableEq

/-- Its local words. -/
inductive Word where
  | e0 | e0Save | e1
deriving DecidableEq

/-- Their values. -/
structure NeonFile where
  abcd : U32x4
  abcdSave : U32x4
  tmp0 : U32x4
  tmp1 : U32x4
  msg0 : U32x4
  msg1 : U32x4
  msg2 : U32x4
  msg3 : U32x4
  e0 : UInt32
  e0Save : UInt32
  e1 : UInt32

namespace NeonFile

/-- The value of a vector. -/
def get (s : NeonFile) : Neon → U32x4
  | .abcd => s.abcd
  | .abcdSave => s.abcdSave
  | .tmp0 => s.tmp0
  | .tmp1 => s.tmp1
  | .msg0 => s.msg0
  | .msg1 => s.msg1
  | .msg2 => s.msg2
  | .msg3 => s.msg3

/-- Assignment to a vector. -/
def set (s : NeonFile) (value : U32x4) : Neon → NeonFile
  | .abcd => { s with abcd := value }
  | .abcdSave => { s with abcdSave := value }
  | .tmp0 => { s with tmp0 := value }
  | .tmp1 => { s with tmp1 := value }
  | .msg0 => { s with msg0 := value }
  | .msg1 => { s with msg1 := value }
  | .msg2 => { s with msg2 := value }
  | .msg3 => { s with msg3 := value }

/-- The value of a word. -/
def word (s : NeonFile) : Word → UInt32
  | .e0 => s.e0
  | .e0Save => s.e0Save
  | .e1 => s.e1

/-- Assignment to a word. -/
def setWord (s : NeonFile) (value : UInt32) : Word → NeonFile
  | .e0 => { s with e0 := value }
  | .e0Save => { s with e0Save := value }
  | .e1 => { s with e1 := value }

@[simp] theorem get_set (s : NeonFile) (value : U32x4) (d x : Neon) :
    (s.set value d).get x = if x = d then value else s.get x := by
  cases d <;> cases x <;> rfl

@[simp] theorem word_setWord (s : NeonFile) (value : UInt32) (d x : Word) :
    (s.setWord value d).word x = if x = d then value else s.word x := by
  cases d <;> cases x <;> rfl

@[simp] theorem get_setWord (s : NeonFile) (value : UInt32) (d : Word) (x : Neon) :
    (s.setWord value d).get x = s.get x := by
  cases d <;> cases x <;> rfl

@[simp] theorem word_set (s : NeonFile) (value : U32x4) (d : Neon) (x : Word) :
    (s.set value d).word x = s.word x := by
  cases d <;> cases x <;> rfl

end NeonFile

namespace HwArm

open Arm Neon Word

/-- An assignment to a vector. -/
def assign (d : Neon) (value : NeonFile → U32x4) (s : NeonFile) : NeonFile := s.set (value s) d

/-- An assignment to a word. -/
def assignWord (d : Word) (value : NeonFile → UInt32) (s : NeonFile) : NeonFile :=
  s.setWord (value s) d

/-- `d = vreinterpretq_u32_u8(vrev32q_u8(vld1q_u8(src + off)))`. -/
def load (src : List UInt8) (d : Neon) (off : Nat) : NeonFile → NeonFile :=
  assign d fun _ => .ofBytes (vrev32q (load16 src off))

/-- `d = vaddq_u32(x, vdupq_n_u32(k))`. -/
def addConst (d x : Neon) (k : UInt32) : NeonFile → NeonFile :=
  assign d fun s => vaddq (s.get x) (vdupq k)

/-- `d = vsha1h_u32(vgetq_lane_u32(abcd, 0))`. -/
def sha1h (d : Word) : NeonFile → NeonFile := assignWord d fun s => vsha1h ((s.get abcd).get 0)

/-- `abcd = vsha1cq_u32(abcd, e, wk)`. -/
def sha1c (e : Word) (wk : Neon) : NeonFile → NeonFile :=
  assign abcd fun s => vsha1cq (s.get abcd) (s.word e) (s.get wk)

/-- `abcd = vsha1pq_u32(abcd, e, wk)`. -/
def sha1p (e : Word) (wk : Neon) : NeonFile → NeonFile :=
  assign abcd fun s => vsha1pq (s.get abcd) (s.word e) (s.get wk)

/-- `abcd = vsha1mq_u32(abcd, e, wk)`. -/
def sha1m (e : Word) (wk : Neon) : NeonFile → NeonFile :=
  assign abcd fun s => vsha1mq (s.get abcd) (s.word e) (s.get wk)

/-- `d = vsha1su0q_u32(d, x, y)`. -/
def su0 (d x y : Neon) : NeonFile → NeonFile :=
  assign d fun s => vsha1su0q (s.get d) (s.get x) (s.get y)

/-- `d = vsha1su1q_u32(d, x)`. -/
def su1 (d x : Neon) : NeonFile → NeonFile := assign d fun s => vsha1su1q (s.get d) (s.get x)

/-- The head of the loop body: the saved state, the message, and the first two sums. -/
def loads (src : List UInt8) : List (NeonFile → NeonFile) := [
  assign abcdSave fun s => s.get abcd, assignWord e0Save fun s => s.word e0,
  load src msg0 0, load src msg1 16, load src msg2 32, load src msg3 48,
  addConst tmp0 msg0 0x5A827999, addConst tmp1 msg1 0x5A827999]

/-- Rounds 0 to 79, a line for each four of them. -/
def groups : List (NeonFile → NeonFile) := [
  sha1h e1, sha1c e0 tmp0, addConst tmp0 msg2 0x5A827999, su0 msg0 msg1 msg2,
  sha1h e0, sha1c e1 tmp1, addConst tmp1 msg3 0x5A827999, su1 msg0 msg3, su0 msg1 msg2 msg3,
  sha1h e1, sha1c e0 tmp0, addConst tmp0 msg0 0x5A827999, su1 msg1 msg0, su0 msg2 msg3 msg0,
  sha1h e0, sha1c e1 tmp1, addConst tmp1 msg1 0x6ED9EBA1, su1 msg2 msg1, su0 msg3 msg0 msg1,
  sha1h e1, sha1c e0 tmp0, addConst tmp0 msg2 0x6ED9EBA1, su1 msg3 msg2, su0 msg0 msg1 msg2,
  sha1h e0, sha1p e1 tmp1, addConst tmp1 msg3 0x6ED9EBA1, su1 msg0 msg3, su0 msg1 msg2 msg3,
  sha1h e1, sha1p e0 tmp0, addConst tmp0 msg0 0x6ED9EBA1, su1 msg1 msg0, su0 msg2 msg3 msg0,
  sha1h e0, sha1p e1 tmp1, addConst tmp1 msg1 0x6ED9EBA1, su1 msg2 msg1, su0 msg3 msg0 msg1,
  sha1h e1, sha1p e0 tmp0, addConst tmp0 msg2 0x8F1BBCDC, su1 msg3 msg2, su0 msg0 msg1 msg2,
  sha1h e0, sha1p e1 tmp1, addConst tmp1 msg3 0x8F1BBCDC, su1 msg0 msg3, su0 msg1 msg2 msg3,
  sha1h e1, sha1m e0 tmp0, addConst tmp0 msg0 0x8F1BBCDC, su1 msg1 msg0, su0 msg2 msg3 msg0,
  sha1h e0, sha1m e1 tmp1, addConst tmp1 msg1 0x8F1BBCDC, su1 msg2 msg1, su0 msg3 msg0 msg1,
  sha1h e1, sha1m e0 tmp0, addConst tmp0 msg2 0x8F1BBCDC, su1 msg3 msg2, su0 msg0 msg1 msg2,
  sha1h e0, sha1m e1 tmp1, addConst tmp1 msg3 0xCA62C1D6, su1 msg0 msg3, su0 msg1 msg2 msg3,
  sha1h e1, sha1m e0 tmp0, addConst tmp0 msg0 0xCA62C1D6, su1 msg1 msg0, su0 msg2 msg3 msg0,
  sha1h e0, sha1p e1 tmp1, addConst tmp1 msg1 0xCA62C1D6, su1 msg2 msg1, su0 msg3 msg0 msg1,
  sha1h e1, sha1p e0 tmp0, addConst tmp0 msg2 0xCA62C1D6, su1 msg3 msg2, su0 msg0 msg1 msg2,
  sha1h e0, sha1p e1 tmp1, addConst tmp1 msg3 0xCA62C1D6, su1 msg0 msg3,
  sha1h e1, sha1p e0 tmp0,
  sha1h e0, sha1p e1 tmp1]

/-- The tail of the loop body. -/
def accumulation : List (NeonFile → NeonFile) := [
  assignWord e0 fun s => s.word e0 + s.word e0Save,
  assign abcd fun s => vaddq (s.get abcdSave) (s.get abcd)]

/-- A sequence of assignments. -/
def run (body : List (NeonFile → NeonFile)) (s : NeonFile) : NeonFile :=
  body.foldl (fun s assignment => assignment s) s

/-- One pass of the loop, on `abcd` and `e0`; the other variables are set before they are
used. -/
def block (state : U32x4 × UInt32) (src : List UInt8) : U32x4 × UInt32 :=
  let zero : U32x4 := ⟨0, 0, 0, 0⟩
  let s := run (loads src ++ groups ++ accumulation)
    ⟨state.1, zero, zero, zero, zero, zero, zero, zero, state.2, 0, 0⟩
  (s.abcd, s.e0)

end HwArm

/-- `transform_hw_arm`. -/
def transformHwArm (digest : Registers) (src : List UInt8) (transforms : Nat) : Registers :=
  let abcd : U32x4 := ⟨digest.a, digest.b, digest.c, digest.d⟩
  let (abcd, e0) := Blocks.eatBlocks blockBytes HwArm.block transforms (abcd, digest.e) src
  ⟨abcd.x0, abcd.x1, abcd.x2, abcd.x3, e0⟩

/-! ## The groups in closed form -/

namespace HwArm

open FIPS180 Arm Neon Word

variable {s : NeonFile}

/-- The vector of the words of group `g`. -/
def msgReg (g : Nat) : Neon :=
  match g % 4 with
  | 0 => msg0
  | 1 => msg1
  | 2 => msg2
  | _ => msg3

/-- The vector of these words with the constant of their group. -/
def tmpReg (g : Nat) : Neon := if g % 2 = 0 then tmp0 else tmp1

/-- The word E of group `g` is kept in. -/
def eReg (g : Nat) : Word := if g % 2 = 0 then e0 else e1

/-- The four rounds of group `g`. -/
def mixing (g : Nat) (e : Word) (wk : Neon) : NeonFile → NeonFile :=
  if g < 5 then sha1c e wk else if g < 10 then sha1p e wk
  else if g < 15 then sha1m e wk else sha1p e wk

/-- The assignments of group `g`: the E of the next is made before `abcd` moves on, and the
schedule ends with the words of the last. -/
def groupAt (g : Nat) : List (NeonFile → NeonFile) :=
  [sha1h (eReg (g + 1)), mixing g (eReg g) (tmpReg g)]
    ++ (if g ≤ 17 then [addConst (tmpReg g) (msgReg (g + 2)) (K (4 * (g + 2)))] else [])
    ++ (if 1 ≤ g ∧ g ≤ 17 then [su1 (msgReg (g + 3)) (msgReg (g + 2))] else [])
    ++ (if g ≤ 16 then [su0 (msgReg g) (msgReg (g + 1)) (msgReg (g + 2))] else [])

set_option maxRecDepth 4000 in
/-- The sequence as it is written is the regular one. -/
theorem groups_eq : groups = (List.range 20).flatMap groupAt := rfl

@[simp] theorem run_nil : run [] s = s := rfl

@[simp] theorem run_cons (x : NeonFile → NeonFile) (xs : List (NeonFile → NeonFile)) :
    run (x :: xs) s = run xs (x s) := rfl

@[simp] theorem run_append (xs ys : List (NeonFile → NeonFile)) :
    run (xs ++ ys) s = run ys (run xs s) := List.foldl_append

/-- Code that stands in some groups only. -/
theorem run_ite (c : Prop) [Decidable c] (x : NeonFile → NeonFile) :
    run (if c then [x] else []) s = if c then x s else s := by
  split <;> rfl

/-- A register after such code. -/
theorem get_ite (c : Prop) [Decidable c] (x y : NeonFile) (r : Neon) :
    (if c then x else y).get r = if c then x.get r else y.get r :=
  apply_ite (NeonFile.get · r) c x y

/-- A word after such code. -/
theorem word_ite (c : Prop) [Decidable c] (x y : NeonFile) (r : Word) :
    (if c then x else y).word r = if c then x.word r else y.word r :=
  apply_ite (NeonFile.word · r) c x y

/-- The function of the rounds of group `g`. -/
def groupFunction (g : Nat) : UInt32 → UInt32 → UInt32 → UInt32 :=
  if g < 5 then choose else if g < 10 then parity else if g < 15 then majority else parity

/-- The instruction of a group does four rounds with its function. -/
theorem mixing_eq (g : Nat) (e : Word) (wk : Neon) (s : NeonFile) :
    mixing g e wk s =
      s.set (fourRounds (groupFunction g) (s.get .abcd) (s.word e) (s.get wk)) .abcd := by
  simp only [mixing, groupFunction]
  repeat' split
  all_goals rfl

/-- The variables by their roles in group `g`: its E, and the words, those to come as far as
they are. -/
structure Roles where
  abcd : U32x4
  e : UInt32
  wk : U32x4
  wkNext : U32x4
  now : U32x4
  next : U32x4
  later : U32x4
  last : U32x4
  abcdSave : U32x4
  e0Save : UInt32

/-- The registers before group `g`, by what they are for. -/
def roles (g : Nat) (s : NeonFile) : Roles where
  abcd := s.get .abcd
  e := s.word (eReg g)
  wk := s.get (tmpReg g)
  wkNext := s.get (tmpReg (g + 1))
  now := s.get (msgReg g)
  next := s.get (msgReg (g + 1))
  later := s.get (msgReg (g + 2))
  last := s.get (msgReg (g + 3))
  abcdSave := s.get .abcdSave
  e0Save := s.word .e0Save

/-- What group `g` does to the roles. -/
def groupStep (g : Nat) (v : Roles) : Roles where
  abcd := fourRounds (groupFunction g) v.abcd v.e v.wk
  e := vsha1h v.abcd.x0
  wk := v.wkNext
  wkNext := if g ≤ 17 then vaddq v.later (vdupq (K (4 * (g + 2)))) else v.wk
  now := v.next
  next := v.later
  later := if 1 ≤ g ∧ g ≤ 17 then vsha1su1q v.last v.later else v.last
  last := if g ≤ 16 then vsha1su0q v.now v.next v.later else v.now
  abcdSave := v.abcdSave
  e0Save := v.e0Save

section

variable (g : Nat) (v : Roles)

theorem groupStep_abcd : (groupStep g v).abcd =
    fourRounds (groupFunction g) v.abcd v.e v.wk := rfl

theorem groupStep_e : (groupStep g v).e = vsha1h v.abcd.x0 := rfl

theorem groupStep_wkNext : (groupStep g v).wkNext =
    if g ≤ 17 then vaddq v.later (vdupq (K (4 * (g + 2)))) else v.wk := rfl

theorem groupStep_later : (groupStep g v).later =
    if 1 ≤ g ∧ g ≤ 17 then vsha1su1q v.last v.later else v.last := rfl

theorem groupStep_last : (groupStep g v).last =
    if g ≤ 16 then vsha1su0q v.now v.next v.later else v.now := rfl

end

/-- **The code of a group** does to the registers what `groupStep` does to their roles. -/
theorem roles_groupAt (g : Nat) (s : NeonFile) :
    roles (g + 1) (run (groupAt g) s) = groupStep g (roles g s) := by
  have hmsg (k : Nat) : msgReg (g + k) = msgReg (g % 4 + k) := by
    simp only [msgReg, Nat.mod_add_mod]
  have hmod (k : Nat) : (g + k) % 2 = (g % 4 + k) % 2 := by omega
  have he (k : Nat) : eReg (g + k) = eReg (g % 4 + k) := by simp only [eReg, hmod]
  have htmp (k : Nat) : tmpReg (g + k) = tmpReg (g % 4 + k) := by simp only [tmpReg, hmod]
  have hlt : g % 4 < 4 := Nat.mod_lt g (by decide)
  have hmsg0 := hmsg 0
  have he0 := he 0
  have htmp0 := htmp 0
  rw [Nat.add_zero] at hmsg0 he0 htmp0
  simp only [roles, groupAt, groupStep, Nat.add_assoc, Nat.reduceAdd, hmsg, he, htmp, hmsg0, he0,
    htmp0]
  generalize g % 4 = i at hlt
  interval_cases i <;>
    simp [run_ite, get_ite, word_ite, mixing_eq, msgReg, eReg, tmpReg, sha1h, addConst, su0,
      su1, assign, assignWord, U32x4.get]

/-! ## Four rounds are a group -/

/-- The first four working variables, as they lie in `abcd`. -/
def lanes (s : Working) : U32x4 := ⟨s.a, s.b, s.c, s.d⟩

/-- It is the function of the standard in these rounds. -/
theorem groupFunction_eq {g : Nat} (hg : g < 20) : groupFunction g = f (4 * g) := by
  have hchoose : choose = Ch := by
    funext x y z
    rw [choose, UInt32.and_comm, choose_eq_Ch]
  have hmajority : majority = Maj := by
    funext x y z
    rw [majority, UInt32.or_comm, majority_eq_Maj]
  rw [groupFunction, hchoose, hmajority]
  interval_cases g <;> rfl

/-- A round of the instruction is a round of the standard. -/
theorem round_eq (F : UInt32 → UInt32 → UInt32 → UInt32) (k : UInt32) (s : Working)
    (w : UInt32) :
    Arm.round F (lanes s, s.e) (w + k) = (lanes (stepWith F k s w), (stepWith F k s w).e) := by
  simp only [Arm.round, lanes, stepWith, rotl_eq_ROTL, Prod.mk.injEq, U32x4.mk.injEq, and_true]
  ac_rfl

/-- The instruction does four of them. -/
theorem fourRounds_group {g : Nat} (hg : g < 20) (s : Working) (w : U32x4) :
    fourRounds (groupFunction g) (lanes s) s.e (vaddq w (vdupq (K (4 * g)))) =
      lanes (four g s w) := by
  rw [groupFunction_eq hg]
  simp only [fourRounds, vaddq, vdupq, U32x4.zipWith, List.foldl_cons, List.foldl_nil, round_eq,
    four]

/-- The schedule instructions, four groups on. -/
theorem schedule_group (block : List UInt8) {j : Nat} (hj : j < 16) :
    vsha1su1q (vsha1su0q (words block j) (words block (j + 1)) (words block (j + 2)))
      (words block (j + 3)) = words block (j + 4) := by
  rw [words_schedule block hj]
  generalize words block j = a, words block (j + 1) = b, words block (j + 2) = c,
    words block (j + 3) = d
  simp only [vsha1su0q, vsha1su1q, U32x4.mk.injEq]
  refine ⟨by ac_rfl, by ac_rfl, by ac_rfl, ?_⟩
  rw [← rotl_one_rotl_one, ← rotl_one_xor]
  ac_rfl

/-! ## The invariant -/

/-- The roles before group `g` of the block, from the hash value `h`. -/
structure Before (block : List UInt8) (h : Working) (g : Nat) (v : Roles) : Prop where
  abcd : v.abcd = lanes (after block h (4 * g))
  e : v.e = (after block h (4 * g)).e
  wk : g ≤ 19 → v.wk = vaddq (words block g) (vdupq (K (4 * g)))
  wkNext : g ≤ 18 → v.wkNext = vaddq (words block (g + 1)) (vdupq (K (4 * (g + 1))))
  now : g ≤ 17 → v.now = words block g
  next : g ≤ 17 → v.next = words block (g + 1)
  later : g ≤ 17 → v.later = words block (g + 2)
  last : g ≤ 17 → v.last = if g = 0 then words block 3 else
    vsha1su0q (words block (g - 1)) (words block g) (words block (g + 1))
  abcdSave : v.abcdSave = lanes h
  e0Save : v.e0Save = h.e

variable {src : List UInt8} {h : Working} {g : Nat} {v : Roles}

/-- One group. -/
theorem before_groupStep (hv : Before src h g v) (hg : g < 20) :
    Before src h (g + 1) (groupStep g v) where
  abcd := by
    rw [groupStep_abcd, hv.abcd, hv.e, hv.wk (by omega), fourRounds_group hg, after_group]
  e := by
    rw [groupStep_e, hv.abcd, vsha1h, rotl_eq_ROTL, after_group, four_e, lanes]
  wk _ := hv.wkNext (by omega)
  wkNext _ := by
    rw [groupStep_wkNext, if_pos (show g ≤ 17 by omega), hv.later (by omega)]
  now _ := hv.next (by omega)
  next _ := hv.later (by omega)
  later _ := by
    rw [groupStep_later, hv.last (by omega), hv.later (by omega)]
    rcases Nat.eq_zero_or_pos g with rfl | hpos
    · rw [if_neg (show ¬(1 ≤ 0 ∧ 0 ≤ 17) by omega), if_pos rfl]
    · obtain ⟨j, rfl⟩ := Nat.exists_eq_add_of_le' hpos
      rw [if_pos (show 1 ≤ j + 1 ∧ j + 1 ≤ 17 by omega), if_neg (Nat.succ_ne_zero j)]
      exact schedule_group src (by omega)
  last _ := by
    rw [groupStep_last, if_pos (show g ≤ 16 by omega), hv.now (by omega), hv.next (by omega),
      hv.later (by omega), if_neg (Nat.succ_ne_zero g), Nat.add_sub_cancel]
  abcdSave := hv.abcdSave
  e0Save := hv.e0Save

/-- Any number of groups. -/
theorem before_run {s : NeonFile} (hs : Before src h 0 (roles 0 s)) (hg : g ≤ 20) :
    Before src h g (roles g (run ((List.range g).flatMap groupAt) s)) := by
  induction g with
  | zero => exact hs
  | succ g ih =>
      rw [List.range_succ, List.flatMap_append, run_append, List.flatMap_singleton, roles_groupAt]
      exact before_groupStep (ih (by omega)) (by omega)

/-! ## One block -/

/-- Bytes turned around in each word. -/
theorem ofBytes_load (src : List UInt8) {g : Nat} (hg : g < 4) :
    U32x4.ofBytes (vrev32q (load16 src (16 * g))) = words src g := by
  have hrev (x : U8x16) : U32x4.ofBytes (vrev32q x) =
      ⟨loadWord (x 3) (x 2) (x 1) (x 0), loadWord (x 7) (x 6) (x 5) (x 4),
        loadWord (x 11) (x 10) (x 9) (x 8), loadWord (x 15) (x 14) (x 13) (x 12)⟩ := rfl
  rw [hrev, words_load src hg]

/-- What the loads put into the registers. -/
theorem roles_loads (src : List UInt8) (s : NeonFile) :
    roles 0 (run (loads src) s) =
      let message (off : Nat) : U32x4 := .ofBytes (vrev32q (load16 src off))
      let sum (off : Nat) : U32x4 := vaddq (message off) (vdupq 0x5A827999)
      ⟨s.abcd, s.e0, sum 0, sum 16, message 0, message 16, message 32, message 48, s.abcd,
        s.e0⟩ := rfl

/-- The head of the loop body starts the invariant. -/
theorem before_loads (h : Working) (src : List UInt8) {s : NeonFile} (habcd : s.abcd = lanes h)
    (he : s.e0 = h.e) : Before src h 0 (roles 0 (run (loads src) s)) := by
  have h₀ := ofBytes_load src (g := 0) (by decide)
  have h₁ := ofBytes_load src (g := 1) (by decide)
  have h₂ := ofBytes_load src (g := 2) (by decide)
  have h₃ := ofBytes_load src (g := 3) (by decide)
  rw [roles_loads, habcd, he]
  exact {
    abcd := rfl
    e := rfl
    wk := fun _ => congrArg (fun w => vaddq w _) h₀
    wkNext := fun _ => congrArg (fun w => vaddq w _) h₁
    now := fun _ => h₀
    next := fun _ => h₁
    later := fun _ => h₂
    last := fun _ => h₃
    abcdSave := rfl
    e0Save := rfl }

/-- A hash value as it lies in `abcd` and `e0`. -/
def state (h : Working) : U32x4 × UInt32 := (lanes h, h.e)

/-- What the additions after the last group leave. -/
theorem run_accumulation (s : NeonFile) :
    (run accumulation s).abcd = vaddq s.abcdSave s.abcd ∧
      (run accumulation s).e0 = s.e0 + s.e0Save := ⟨rfl, rfl⟩

/-- One pass of the loop is the standard's compression. -/
theorem block_state (h : Working) (src : List UInt8) :
    block (state h) src = state (compress h src) := by
  rw [block, run_append, run_append, groups_eq]
  generalize hinit : NeonFile.mk (state h).1 _ _ _ _ _ _ _ (state h).2 _ _ = init
  have habcd : init.abcd = lanes h := by rw [← hinit]; rfl
  have he : init.e0 = h.e := by rw [← hinit]; rfl
  have hbefore := before_run (before_loads h src habcd he) (Nat.le_refl 20)
  generalize run ((List.range 20).flatMap groupAt) (run (loads src) init) = s at hbefore
  obtain ⟨hs, hsave⟩ := run_accumulation s
  have h₁ : s.abcd = lanes (after src h 80) := hbefore.abcd
  have h₂ : s.e0 = (after src h 80).e := hbefore.e
  have h₃ : s.abcdSave = lanes h := hbefore.abcdSave
  have h₄ : s.e0Save = h.e := hbefore.e0Save
  rw [hs, hsave, h₁, h₂, h₃, h₄, compress_eq]
  generalize after src h 80 = t
  simp only [state, lanes, vaddq, U32x4.zipWith, UInt32.add_comm]

end HwArm

/-! ## Both transforms -/

/-- `transform_hw_arm` is so many calls of `transform_scalar`. -/
theorem transformHwArm_eq (digest : Registers) (src : List UInt8) (n : Nat) :
    transformHwArm digest src n = scalarCalls digest src n := by
  have hblock (d : Registers) (xs : List UInt8) :
      HwArm.block (HwArm.state d.toWorking) (xs.take blockBytes) =
        HwArm.state (transformScalar d (xs.take blockBytes) 1).toWorking := by
    rw [HwArm.block_state, toWorking_scalarCall]
  have hloop := Blocks.eatBlocks_encode (g := fun d block => transformScalar d block 1)
    (fun d : Registers => HwArm.state d.toWorking) hblock n digest src
  have hstart : ((⟨digest.a, digest.b, digest.c, digest.d⟩, digest.e) : U32x4 × UInt32) =
      HwArm.state digest.toWorking := rfl
  rw [transformHwArm, hstart, hloop, scalarCalls]
  rfl

/-- **The hardware transforms.** Each leaves what so many single-block calls of
`transform_scalar` leave, for every digest and every sequence of blocks. -/
theorem transform_hw (digest : Registers) (src : List UInt8) (n : Nat) :
    transformHwX86 digest src n = scalarCalls digest src n ∧
      transformHwArm digest src n = scalarCalls digest src n :=
  ⟨transformHwX86_eq digest src n, transformHwArm_eq digest src n⟩

end SHA1

end CubeChip
