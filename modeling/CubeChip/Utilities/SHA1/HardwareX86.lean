import CubeChip.Utilities.SHA1.Groups

/-!
# `transform_hw_x86`

The loop body is the sequence of its assignments, in the order they are written: the loads,
twenty groups of four rounds, and the accumulation. `groups_eq` is their closed form, `Roles`
what the registers are for in a group, and `Before` what they hold: the working variables,
the E two groups apart, and the words to come as far as the schedule instructions have made
them. `transformHwX86_eq` is the result.
-/

namespace CubeChip

namespace SHA1

/-- The local registers of `transform_hw_x86`. -/
inductive Xmm where
  | abcd | abcdSave | e0 | e0Save | e1 | msg0 | msg1 | msg2 | msg3
deriving DecidableEq

/-- Their values. -/
structure XmmFile where
  abcd : U32x4
  abcdSave : U32x4
  e0 : U32x4
  e0Save : U32x4
  e1 : U32x4
  msg0 : U32x4
  msg1 : U32x4
  msg2 : U32x4
  msg3 : U32x4

namespace XmmFile

/-- The value of a register. -/
def get (s : XmmFile) : Xmm → U32x4
  | .abcd => s.abcd
  | .abcdSave => s.abcdSave
  | .e0 => s.e0
  | .e0Save => s.e0Save
  | .e1 => s.e1
  | .msg0 => s.msg0
  | .msg1 => s.msg1
  | .msg2 => s.msg2
  | .msg3 => s.msg3

/-- Assignment to a register. -/
def set (s : XmmFile) (value : U32x4) : Xmm → XmmFile
  | .abcd => { s with abcd := value }
  | .abcdSave => { s with abcdSave := value }
  | .e0 => { s with e0 := value }
  | .e0Save => { s with e0Save := value }
  | .e1 => { s with e1 := value }
  | .msg0 => { s with msg0 := value }
  | .msg1 => { s with msg1 := value }
  | .msg2 => { s with msg2 := value }
  | .msg3 => { s with msg3 := value }

@[simp] theorem get_set (s : XmmFile) (value : U32x4) (d x : Xmm) :
    (s.set value d).get x = if x = d then value else s.get x := by
  cases d <;> cases x <;> rfl

end XmmFile

namespace HwX86

open X86 Xmm

/-- An assignment. -/
def assign (d : Xmm) (value : XmmFile → U32x4) (s : XmmFile) : XmmFile := s.set (value s) d

/-- `mask`: a full reversal of sixteen bytes. -/
def mask : U8x16 := setEpi8 [0, 1, 2, 3, 4, 5, 6, 7, 8, 9, 10, 11, 12, 13, 14, 15]

/-- `d = _mm_shuffle_epi8(_mm_loadu_si128(src + off), mask)`. -/
def load (src : List UInt8) (d : Xmm) (off : Nat) : XmmFile → XmmFile :=
  assign d fun _ => .ofBytes (shuffleEpi8 (load16 src off) mask)

/-- `d = x`. -/
def copy (d x : Xmm) : XmmFile → XmmFile := assign d fun s => s.get x

/-- `d = _mm_add_epi32(d, x)`. -/
def add (d x : Xmm) : XmmFile → XmmFile := assign d fun s => addEpi32 (s.get d) (s.get x)

/-- `d = _mm_xor_si128(d, x)`. -/
def xor (d x : Xmm) : XmmFile → XmmFile := assign d fun s => xorSi128 (s.get d) (s.get x)

/-- `d = _mm_sha1nexte_epu32(d, x)`. -/
def nexte (d x : Xmm) : XmmFile → XmmFile := assign d fun s => sha1nexte (s.get d) (s.get x)

/-- `abcd = _mm_sha1rnds4_epu32(abcd, e, imm)`. -/
def rnds4 (e : Xmm) (imm : Fin 4) : XmmFile → XmmFile :=
  assign abcd fun s => sha1rnds4 (s.get abcd) (s.get e) imm

/-- `d = _mm_sha1msg1_epu32(d, x)`. -/
def mix1 (d x : Xmm) : XmmFile → XmmFile := assign d fun s => sha1msg1 (s.get d) (s.get x)

/-- `d = _mm_sha1msg2_epu32(d, x)`. -/
def mix2 (d x : Xmm) : XmmFile → XmmFile := assign d fun s => sha1msg2 (s.get d) (s.get x)

/-- The head of the loop body: the saved state and the message. -/
def loads (src : List UInt8) : List (XmmFile → XmmFile) := [
  copy abcdSave abcd, copy e0Save e0,
  load src msg0 0, load src msg1 16, load src msg2 32, load src msg3 48]

/-- Rounds 0 to 79, a line for each four of them. -/
def groups : List (XmmFile → XmmFile) := [
  add e0 msg0, copy e1 abcd, rnds4 e0 0,
  nexte e1 msg1, copy e0 abcd, rnds4 e1 0, mix1 msg0 msg1,
  nexte e0 msg2, copy e1 abcd, rnds4 e0 0, mix1 msg1 msg2, xor msg0 msg2,
  nexte e1 msg3, copy e0 abcd, mix2 msg0 msg3, rnds4 e1 0, mix1 msg2 msg3, xor msg1 msg3,
  nexte e0 msg0, copy e1 abcd, mix2 msg1 msg0, rnds4 e0 0, mix1 msg3 msg0, xor msg2 msg0,
  nexte e1 msg1, copy e0 abcd, mix2 msg2 msg1, rnds4 e1 1, mix1 msg0 msg1, xor msg3 msg1,
  nexte e0 msg2, copy e1 abcd, mix2 msg3 msg2, rnds4 e0 1, mix1 msg1 msg2, xor msg0 msg2,
  nexte e1 msg3, copy e0 abcd, mix2 msg0 msg3, rnds4 e1 1, mix1 msg2 msg3, xor msg1 msg3,
  nexte e0 msg0, copy e1 abcd, mix2 msg1 msg0, rnds4 e0 1, mix1 msg3 msg0, xor msg2 msg0,
  nexte e1 msg1, copy e0 abcd, mix2 msg2 msg1, rnds4 e1 1, mix1 msg0 msg1, xor msg3 msg1,
  nexte e0 msg2, copy e1 abcd, mix2 msg3 msg2, rnds4 e0 2, mix1 msg1 msg2, xor msg0 msg2,
  nexte e1 msg3, copy e0 abcd, mix2 msg0 msg3, rnds4 e1 2, mix1 msg2 msg3, xor msg1 msg3,
  nexte e0 msg0, copy e1 abcd, mix2 msg1 msg0, rnds4 e0 2, mix1 msg3 msg0, xor msg2 msg0,
  nexte e1 msg1, copy e0 abcd, mix2 msg2 msg1, rnds4 e1 2, mix1 msg0 msg1, xor msg3 msg1,
  nexte e0 msg2, copy e1 abcd, mix2 msg3 msg2, rnds4 e0 2, mix1 msg1 msg2, xor msg0 msg2,
  nexte e1 msg3, copy e0 abcd, mix2 msg0 msg3, rnds4 e1 3, mix1 msg2 msg3, xor msg1 msg3,
  nexte e0 msg0, copy e1 abcd, mix2 msg1 msg0, rnds4 e0 3, mix1 msg3 msg0, xor msg2 msg0,
  nexte e1 msg1, copy e0 abcd, mix2 msg2 msg1, rnds4 e1 3, xor msg3 msg1,
  nexte e0 msg2, copy e1 abcd, mix2 msg3 msg2, rnds4 e0 3,
  nexte e1 msg3, copy e0 abcd, rnds4 e1 3]

/-- The tail of the loop body. -/
def accumulation : List (XmmFile → XmmFile) := [nexte e0 e0Save, add abcd abcdSave]

/-- A sequence of assignments. -/
def run (body : List (XmmFile → XmmFile)) (s : XmmFile) : XmmFile :=
  body.foldl (fun s assignment => assignment s) s

/-- One pass of the loop, on `abcd` and `e0`; the other registers are set before they are
used. -/
def block (state : U32x4 × U32x4) (src : List UInt8) : U32x4 × U32x4 :=
  let zero : U32x4 := ⟨0, 0, 0, 0⟩
  let s := run (loads src ++ groups ++ accumulation)
    ⟨state.1, zero, state.2, zero, zero, zero, zero, zero, zero⟩
  (s.abcd, s.e0)

end HwX86

open X86 in
/-- `transform_hw_x86`. -/
def transformHwX86 (digest : Registers) (src : List UInt8) (transforms : Nat) : Registers :=
  let abcd := shuffleEpi32 ⟨digest.a, digest.b, digest.c, digest.d⟩ 0x1B
  let e0 := setEpi32 digest.e 0 0 0
  let (abcd, e0) := Blocks.eatBlocks blockBytes HwX86.block transforms (abcd, e0) src
  let stored := shuffleEpi32 abcd 0x1B
  ⟨stored.x0, stored.x1, stored.x2, stored.x3, extractEpi32 e0 3⟩

/-! ## The groups in closed form -/

namespace HwX86

open FIPS180 X86 Xmm

variable {s : XmmFile}

/-- The register of the words of group `g`. -/
def msgReg (g : Nat) : Xmm :=
  match g % 4 with
  | 0 => msg0
  | 1 => msg1
  | 2 => msg2
  | _ => msg3

/-- The register E is prepared in for group `g`. -/
def eReg (g : Nat) : Xmm := if g % 2 = 0 then e0 else e1

/-- The assignments of group `g`: the schedule starts with the second group, and its last
words are those of the last. -/
def groupAt (g : Nat) : List (XmmFile → XmmFile) :=
  [if g = 0 then add (eReg g) (msgReg g) else nexte (eReg g) (msgReg g), copy (eReg (g + 1)) abcd]
    ++ (if 3 ≤ g ∧ g ≤ 18 then [mix2 (msgReg (g + 1)) (msgReg g)] else [])
    ++ [rnds4 (eReg g) (Fin.ofNat 4 (g / 5))]
    ++ (if 1 ≤ g ∧ g ≤ 16 then [mix1 (msgReg (g + 3)) (msgReg g)] else [])
    ++ (if 2 ≤ g ∧ g ≤ 17 then [xor (msgReg (g + 2)) (msgReg g)] else [])

set_option maxRecDepth 4000 in
/-- The sequence as it is written is the regular one. -/
theorem groups_eq : groups = (List.range 20).flatMap groupAt := rfl

@[simp] theorem run_nil : run [] s = s := rfl

@[simp] theorem run_cons (x : XmmFile → XmmFile) (xs : List (XmmFile → XmmFile)) :
    run (x :: xs) s = run xs (x s) := rfl

@[simp] theorem run_append (xs ys : List (XmmFile → XmmFile)) :
    run (xs ++ ys) s = run ys (run xs s) := List.foldl_append

/-- Code that stands in some groups only. -/
theorem run_ite (c : Prop) [Decidable c] (x : XmmFile → XmmFile) :
    run (if c then [x] else []) s = if c then x s else s := by
  split <;> rfl

/-- The registers by their roles in group `g`: its words, then those of the groups to come,
as far as they are, and the group before. -/
structure Roles where
  abcd : U32x4
  e : U32x4
  now : U32x4
  next : U32x4
  later : U32x4
  last : U32x4
  abcdSave : U32x4
  e0Save : U32x4

/-- The registers before group `g`, by what they are for. -/
def roles (g : Nat) (s : XmmFile) : Roles where
  abcd := s.get .abcd
  e := s.get (eReg g)
  now := s.get (msgReg g)
  next := s.get (msgReg (g + 1))
  later := s.get (msgReg (g + 2))
  last := s.get (msgReg (g + 3))
  abcdSave := s.get .abcdSave
  e0Save := s.get .e0Save

/-- What group `g` does to the roles; the words used last take the place of the new ones. -/
def groupStep (g : Nat) (v : Roles) : Roles where
  abcd := sha1rnds4 v.abcd (if g = 0 then addEpi32 v.e v.now else sha1nexte v.e v.now)
    (Fin.ofNat 4 (g / 5))
  e := v.abcd
  now := if 3 ≤ g ∧ g ≤ 18 then sha1msg2 v.next v.now else v.next
  next := if 2 ≤ g ∧ g ≤ 17 then xorSi128 v.later v.now else v.later
  later := if 1 ≤ g ∧ g ≤ 16 then sha1msg1 v.last v.now else v.last
  last := v.now
  abcdSave := v.abcdSave
  e0Save := v.e0Save

section

variable (g : Nat) (v : Roles)

theorem groupStep_abcd : (groupStep g v).abcd =
    sha1rnds4 v.abcd (if g = 0 then addEpi32 v.e v.now else sha1nexte v.e v.now)
      (Fin.ofNat 4 (g / 5)) := rfl

theorem groupStep_e : (groupStep g v).e = v.abcd := rfl

theorem groupStep_now : (groupStep g v).now =
    if 3 ≤ g ∧ g ≤ 18 then sha1msg2 v.next v.now else v.next := rfl

theorem groupStep_next : (groupStep g v).next =
    if 2 ≤ g ∧ g ≤ 17 then xorSi128 v.later v.now else v.later := rfl

theorem groupStep_later : (groupStep g v).later =
    if 1 ≤ g ∧ g ≤ 16 then sha1msg1 v.last v.now else v.last := rfl

theorem groupStep_last : (groupStep g v).last = v.now := rfl

end

/-- A register after such code. -/
theorem get_ite (c : Prop) [Decidable c] (x y : XmmFile) (r : Xmm) :
    (if c then x else y).get r = if c then x.get r else y.get r := apply_ite (XmmFile.get · r) c x y

/-- **The code of a group** does to the registers what `groupStep` does to their roles. -/
theorem roles_groupAt (g : Nat) (s : XmmFile) :
    roles (g + 1) (run (groupAt g) s) = groupStep g (roles g s) := by
  have hmsg (k : Nat) : msgReg (g + k) = msgReg (g % 4 + k) := by
    simp only [msgReg, Nat.mod_add_mod]
  have he (k : Nat) : eReg (g + k) = eReg (g % 4 + k) := by
    have hmod : (g + k) % 2 = (g % 4 + k) % 2 := by omega
    simp only [eReg, hmod]
  have hlt : g % 4 < 4 := Nat.mod_lt g (by decide)
  have hmsg0 := hmsg 0
  have he0 := he 0
  rw [Nat.add_zero] at hmsg0 he0
  simp only [roles, groupAt, groupStep, Nat.add_assoc, Nat.reduceAdd, hmsg, he, hmsg0, he0]
  generalize g % 4 = i at hlt
  interval_cases i <;>
    simp [run_ite, ite_apply, get_ite, msgReg, eReg, add, nexte, copy, mix1, mix2, xor, rnds4,
      assign]

/-! ## Four rounds are a group -/

/-- The first four working variables, as they lie in `abcd`. -/
def lanes (s : Working) : U32x4 := ⟨s.d, s.c, s.b, s.a⟩

/-- Words as they lie in a message register. -/
def turned (w : U32x4) : U32x4 := ⟨w.x3, w.x2, w.x1, w.x0⟩

/-- A round of the instruction is a round of the standard. -/
theorem round_toWorking (imm : Fin 4) (r : Registers) (w : UInt32) :
    (X86.round imm r w).toWorking = stepWith (selected imm) (constant imm) r.toWorking w := by
  simp only [X86.round, Registers.toWorking, stepWith, rotl_eq_ROTL, Working.mk.injEq, and_true]
  ac_rfl

/-- The E that comes added to the first word. -/
theorem round_zero (imm : Fin 4) (r : Registers) (w : UInt32) :
    X86.round imm { r with e := 0 } (w + r.e) = X86.round imm r w := by
  simp only [X86.round, UInt32.add_zero, Registers.mk.injEq, and_true]
  ac_rfl

/-- So are several. -/
theorem foldl_round (imm : Fin 4) (ws : List UInt32) (r : Registers) :
    (ws.foldl (X86.round imm) r).toWorking =
      ws.foldl (stepWith (selected imm) (constant imm)) r.toWorking := by
  induction ws generalizing r with
  | nil => rfl
  | cons w ws ih => rw [List.foldl_cons, ih, round_toWorking, List.foldl_cons]

/-- The instruction is told the function and the constant of the group. -/
theorem selected_group {g : Nat} (hg : g < 20) :
    selected (Fin.ofNat 4 (g / 5)) = f (4 * g) ∧ constant (Fin.ofNat 4 (g / 5)) = K (4 * g) := by
  interval_cases g <;> exact ⟨rfl, rfl⟩

/-- The instruction does four rounds of the standard. -/
theorem sha1rnds4_group {g : Nat} (hg : g < 20) (s : Working) (w : U32x4) :
    sha1rnds4 (lanes s) ⟨w.x3, w.x2, w.x1, w.x0 + s.e⟩ (Fin.ofNat 4 (g / 5)) =
      lanes (four g s w) := by
  obtain ⟨hf, hK⟩ := selected_group hg
  have hfold := foldl_round (Fin.ofNat 4 (g / 5)) [w.x0, w.x1, w.x2, w.x3] ⟨s.a, s.b, s.c, s.d, s.e⟩
  rw [hf, hK] at hfold
  have hfirst := round_zero (Fin.ofNat 4 (g / 5)) ⟨s.a, s.b, s.c, s.d, s.e⟩ w.x0
  rw [sha1rnds4, lanes, List.foldl_cons, hfirst, ← List.foldl_cons]
  exact congrArg lanes hfold

/-- The schedule instructions, four groups on. -/
theorem schedule_group (block : List UInt8) {j : Nat} (hj : j < 16) :
    sha1msg2 (xorSi128 (sha1msg1 (turned (words block j)) (turned (words block (j + 1))))
      (turned (words block (j + 2)))) (turned (words block (j + 3))) =
      turned (words block (j + 4)) := by
  rw [words_schedule block hj]
  generalize words block j = a, words block (j + 1) = b, words block (j + 2) = c,
    words block (j + 3) = d
  simp only [turned, sha1msg1, sha1msg2, xorSi128, U32x4.zipWith, U32x4.mk.injEq]
  refine ⟨?_, ?_, ?_, ?_⟩ <;> ac_rfl

/-! ## The invariant -/

/-- The roles before group `g` of the block, from the hash value `h`. -/
structure Before (block : List UInt8) (h : Working) (g : Nat) (v : Roles) : Prop where
  abcd : v.abcd = lanes (after block h (4 * g))
  first : g = 0 → v.e = ⟨0, 0, 0, h.e⟩
  e : 0 < g → ROTL 30 v.e.x3 = (after block h (4 * g)).e
  now : g ≤ 19 → v.now = turned (words block g)
  next : g ≤ 18 → v.next = if g < 3 then turned (words block (g + 1)) else
    xorSi128 (sha1msg1 (turned (words block (g - 3))) (turned (words block (g - 2))))
      (turned (words block (g - 1)))
  later : g ≤ 17 → v.later = if g < 2 then turned (words block (g + 2)) else
    sha1msg1 (turned (words block (g - 2))) (turned (words block (g - 1)))
  last : g ≤ 16 → v.last = turned (words block (if g = 0 then 3 else g - 1))
  abcdSave : v.abcdSave = lanes h
  e0Save : v.e0Save = ⟨0, 0, 0, h.e⟩

variable {src : List UInt8} {h : Working} {g : Nat} {v : Roles}

/-- The working variables after a group. -/
theorem before_abcd (hv : Before src h g v) (hg : g < 20) :
    (groupStep g v).abcd = lanes (after src h (4 * (g + 1))) := by
  have hsum : (if g = 0 then addEpi32 v.e v.now else sha1nexte v.e v.now) =
      ⟨(words src g).x3, (words src g).x2, (words src g).x1,
        (words src g).x0 + (after src h (4 * g)).e⟩ := by
    rw [hv.now (by omega)]
    generalize words src g = w
    rcases Nat.eq_zero_or_pos g with rfl | hpos
    · rw [if_pos rfl, hv.first rfl, Nat.mul_zero, after_zero]
      simp only [turned, addEpi32, U32x4.zipWith, UInt32.zero_add, UInt32.add_comm h.e]
    · rw [if_neg (Nat.ne_of_gt hpos), sha1nexte, rotl_eq_ROTL, hv.e hpos, turned]
  rw [groupStep_abcd, hsum, hv.abcd, sha1rnds4_group hg, after_group]

/-- One group. -/
theorem before_groupStep (hv : Before src h g v) (hg : g < 20) :
    Before src h (g + 1) (groupStep g v) where
  abcd := before_abcd hv hg
  first h0 := absurd h0 (Nat.succ_ne_zero g)
  e _ := by
    rw [groupStep_e, hv.abcd, after_group, four_e, lanes]
  now h19 := by
    rw [groupStep_now, hv.next (by omega), hv.now (by omega)]
    rcases Nat.lt_or_ge g 3 with h3 | h3
    · rw [if_neg (show ¬(3 ≤ g ∧ g ≤ 18) by omega), if_pos h3]
    · obtain ⟨j, rfl⟩ := Nat.exists_eq_add_of_le' h3
      rw [if_pos (show 3 ≤ j + 3 ∧ j + 3 ≤ 18 by omega), if_neg (show ¬ j + 3 < 3 by omega)]
      exact schedule_group src (by omega)
  next h18 := by
    rw [groupStep_next, hv.later (by omega), hv.now (by omega)]
    rcases Nat.lt_or_ge g 2 with h2 | h2
    · rw [if_neg (show ¬(2 ≤ g ∧ g ≤ 17) by omega), if_pos h2, if_pos (show g + 1 < 3 by omega)]
    · rw [if_pos (show 2 ≤ g ∧ g ≤ 17 by omega), if_neg (show ¬ g < 2 by omega),
        if_neg (show ¬ g + 1 < 3 by omega), show g + 1 - 3 = g - 2 by omega,
        show g + 1 - 2 = g - 1 by omega, Nat.add_sub_cancel]
  later h17 := by
    rw [groupStep_later, hv.last (by omega), hv.now (by omega)]
    rcases Nat.eq_zero_or_pos g with rfl | hpos
    · rw [if_neg (show ¬(1 ≤ 0 ∧ 0 ≤ 16) by omega), if_pos rfl, if_pos (show 0 + 1 < 2 by omega)]
    · rw [if_pos (show 1 ≤ g ∧ g ≤ 16 by omega), if_neg (Nat.ne_of_gt hpos),
        if_neg (show ¬ g + 1 < 2 by omega), show g + 1 - 2 = g - 1 by omega, Nat.add_sub_cancel]
  last _ := by
    rw [groupStep_last, hv.now (by omega), if_neg (Nat.succ_ne_zero g), Nat.add_sub_cancel]
  abcdSave := hv.abcdSave
  e0Save := hv.e0Save

/-- Any number of groups. -/
theorem before_run {s : XmmFile} (hs : Before src h 0 (roles 0 s)) (hg : g ≤ 20) :
    Before src h g (roles g (run ((List.range g).flatMap groupAt) s)) := by
  induction g with
  | zero => exact hs
  | succ g ih =>
      rw [List.range_succ, List.flatMap_append, run_append, List.flatMap_singleton, roles_groupAt]
      exact before_groupStep (ih (by omega)) (by omega)

/-! ## One block -/

/-- The shuffle of the loads reverses the bytes. -/
theorem shuffleEpi8_mask (x : U8x16) : shuffleEpi8 x mask = fun i => x (15 - i) := by
  have hmask : ∀ i, mask i &&& 0x80 = 0 ∧ Fin.ofNat 16 (mask i &&& 0x0F).toNat = 15 - i := by
    decide
  funext i
  rw [shuffleEpi8, if_neg (not_not.2 (hmask i).1), (hmask i).2]

/-- The full reversal of sixteen bytes: the first word in the highest lane. -/
theorem ofBytes_load (src : List UInt8) {g : Nat} (hg : g < 4) :
    U32x4.ofBytes (shuffleEpi8 (load16 src (16 * g)) mask) = turned (words src g) := by
  rw [shuffleEpi8_mask, words_load src hg]
  rfl

/-- What the loads put into the registers. -/
theorem roles_loads (src : List UInt8) (s : XmmFile) :
    roles 0 (run (loads src) s) =
      let message (off : Nat) : U32x4 := .ofBytes (shuffleEpi8 (load16 src off) mask)
      ⟨s.abcd, s.e0, message 0, message 16, message 32, message 48, s.abcd, s.e0⟩ := rfl

/-- The head of the loop body starts the invariant. -/
theorem before_loads (h : Working) (src : List UInt8) {s : XmmFile} (habcd : s.abcd = lanes h)
    (he : s.e0 = ⟨0, 0, 0, h.e⟩) : Before src h 0 (roles 0 (run (loads src) s)) := by
  have hload (g : Nat) (hg : g < 4) := ofBytes_load src hg
  rw [roles_loads, habcd, he]
  exact {
    abcd := rfl
    first := fun _ => rfl
    e := fun h0 => absurd h0 (Nat.lt_irrefl 0)
    now := fun _ => hload 0 (by decide)
    next := fun _ => hload 1 (by decide)
    later := fun _ => hload 2 (by decide)
    last := fun _ => hload 3 (by decide)
    abcdSave := rfl
    e0Save := rfl }

/-- A hash value as it lies in `abcd` and `e0`. -/
def state (h : Working) : U32x4 × U32x4 := (lanes h, ⟨0, 0, 0, h.e⟩)

/-- What the additions after the last group leave. -/
theorem run_accumulation (s : XmmFile) :
    (run accumulation s).abcd = addEpi32 s.abcd s.abcdSave ∧
      (run accumulation s).e0 = sha1nexte s.e0 s.e0Save := ⟨rfl, rfl⟩

/-- One pass of the loop is the standard's compression. -/
theorem block_state (h : Working) (src : List UInt8) :
    block (state h) src = state (compress h src) := by
  rw [block, run_append, run_append, groups_eq]
  generalize hinit : XmmFile.mk (state h).1 _ (state h).2 _ _ _ _ _ _ = init
  have habcd : init.abcd = lanes h := by rw [← hinit]; rfl
  have he : init.e0 = ⟨0, 0, 0, h.e⟩ := by rw [← hinit]; rfl
  have hbefore := before_run (before_loads h src habcd he) (Nat.le_refl 20)
  generalize run ((List.range 20).flatMap groupAt) (run (loads src) init) = s at hbefore
  obtain ⟨hs, hsave⟩ := run_accumulation s
  have h₁ : s.abcd = lanes (after src h 80) := hbefore.abcd
  have h₂ : ROTL 30 s.e0.x3 = (after src h 80).e := hbefore.e (by decide)
  have h₃ : s.abcdSave = lanes h := hbefore.abcdSave
  have h₄ : s.e0Save = ⟨0, 0, 0, h.e⟩ := hbefore.e0Save
  rw [hs, hsave, h₁, h₃, h₄, sha1nexte, rotl_eq_ROTL, h₂, compress_eq]
  generalize after src h 80 = t
  simp only [state, lanes, addEpi32, U32x4.zipWith, UInt32.add_comm]

end HwX86

/-- **`transform_hw_x86` is so many calls of `transform_scalar`.** -/
theorem transformHwX86_eq (digest : Registers) (src : List UInt8) (n : Nat) :
    transformHwX86 digest src n = scalarCalls digest src n := by
  have hblock (d : Registers) (xs : List UInt8) :
      HwX86.block (HwX86.state d.toWorking) (xs.take blockBytes) =
        HwX86.state (transformScalar d (xs.take blockBytes) 1).toWorking := by
    rw [HwX86.block_state, toWorking_scalarCall]
  have hloop := Blocks.eatBlocks_encode (g := fun d block => transformScalar d block 1)
    (fun d : Registers => HwX86.state d.toWorking) hblock n digest src
  have hstart : (X86.shuffleEpi32 ⟨digest.a, digest.b, digest.c, digest.d⟩ 0x1B,
      X86.setEpi32 digest.e 0 0 0) = HwX86.state digest.toWorking := rfl
  rw [transformHwX86, hstart, hloop, scalarCalls]
  rfl

end SHA1

end CubeChip
