import CubeChip.Systems.Chip8.Cores.Chip8Modern
import CubeChip.Systems.Chip8.Cores.SchipModern
import CubeChip.Systems.Chip8.Cores.Xochip

/-!
# 8xyN on the modern cores

`CHIP8_MODERN`, `SCHIP_MODERN` and `XOCHIP` each have their own copy of the nine instructions
8xyN. `documented` is what the instructions and the descriptions of the quirks say they do:
the result goes to VX, the flag to VF after it, RESET_VF_REG affects 8xy1, 8xy2 and 8xy3, and
SHIFT_VX_REG shifts VX in place. The copy of `SCHIP_MODERN` clears VF after 8xy0 and not after
8xy3, which shows unless VF comes out 0 anyway.
-/

namespace CubeChip

namespace Arithmetic

/-! ## The documented instructions -/

/-- The instructions 8xyN. -/
inductive Operation where
  | i8xy0
  | i8xy1
  | i8xy2
  | i8xy3
  | i8xy4
  | i8xy5
  | i8xy6
  | i8xy7
  | i8xyE
deriving DecidableEq, Repr

namespace Operation

/-- The last digit of the opcode. -/
def N : Operation → Fin 16
  | .i8xy0 => 0x0
  | .i8xy1 => 0x1
  | .i8xy2 => 0x2
  | .i8xy3 => 0x3
  | .i8xy4 => 0x4
  | .i8xy5 => 0x5
  | .i8xy6 => 0x6
  | .i8xy7 => 0x7
  | .i8xyE => 0xE

/-- The value for VX, from those of VX and VY. -/
def result (shiftVx : Bool) (x y : UInt8) : Operation → UInt8
  | .i8xy0 => y
  | .i8xy1 => x ||| y
  | .i8xy2 => x &&& y
  | .i8xy3 => x ^^^ y
  | .i8xy4 => UInt8.ofNat (x.toNat + y.toNat)
  | .i8xy5 => x - y
  | .i8xy6 => UInt8.ofNat ((if shiftVx then x else y).toNat / 2)
  | .i8xy7 => y - x
  | .i8xyE => UInt8.ofNat (2 * (if shiftVx then x else y).toNat)

/-- The flag for VF: carry, no borrow, or the bit shifted out. -/
def flag (shiftVx : Bool) (x y : UInt8) : Operation → Option UInt8
  | .i8xy4 => some (if 0xFF < x.toNat + y.toNat then 1 else 0)
  | .i8xy5 => some (if y ≤ x then 1 else 0)
  | .i8xy7 => some (if x ≤ y then 1 else 0)
  | .i8xy6 => some (if (if shiftVx then x else y).toNat % 2 = 1 then 1 else 0)
  | .i8xyE => some (if 0x80 ≤ (if shiftVx then x else y).toNat then 1 else 0)
  | _ => none

/-- "Affects: 8xy1, 8xy2, 8xy3", of RESET_VF_REG. -/
def resetsVf : Operation → Bool
  | .i8xy1 | .i8xy2 | .i8xy3 => true
  | _ => false

end Operation

/-- The registers after an operation that clears VF or not: the flag, where there is one,
comes last. -/
def outcome (clears shiftVx : Bool) (op : Operation) (X Y : Fin 16) (V : Registers16) :
    Registers16 :=
  let loaded := Function.update V X (op.result shiftVx (V X) (V Y))
  match op.flag shiftVx (V X) (V Y) with
  | some flag => Function.update loaded 0xF flag
  | none => if clears then Function.update loaded 0xF 0 else loaded

/-- The documented registers, under the quirks `q`. -/
def documented (q : QuirkFlags) (op : Operation) (X Y : Fin 16) (V : Registers16) :
    Registers16 :=
  outcome (q .resetVfReg && op.resetsVf) (q .shiftVxReg) op X Y V

/-! ## The shared handlers -/

/-- The opcode of an operation. -/
def opcode (op : Operation) (X Y : Fin 16) : Opcode :=
  ⟨UInt8.ofNat (0x80 + X.val), UInt8.ofNat (Y.val * 16 + op.N.val)⟩

/-- The instruction it decodes to. -/
def instruction (X Y : Fin 16) : Operation → Common
  | .i8xy0 => .i8xy0 X Y
  | .i8xy1 => .i8xy1 X Y
  | .i8xy2 => .i8xy2 X Y
  | .i8xy3 => .i8xy3 X Y
  | .i8xy4 => .i8xy4 X Y
  | .i8xy5 => .i8xy5 X Y
  | .i8xy6 => .i8xy6 X Y
  | .i8xy7 => .i8xy7 X Y
  | .i8xyE => .i8xyE X Y

/-- The first digit of the opcode. -/
theorem opcode_branch (op : Operation) (X Y : Fin 16) : (opcode op X Y).branch = 0x8 := by
  have hX : ∀ X : Fin 16, Fin.ofNat 16 (UInt8.ofNat (0x80 + X.val) >>> 4).toNat = 0x8 := by
    decide
  exact hX X

/-- The second. -/
theorem opcode_X (op : Operation) (X Y : Fin 16) : (opcode op X Y).X = X := by
  have hX : ∀ X : Fin 16, Fin.ofNat 16 (UInt8.ofNat (0x80 + X.val) &&& 0xF).toNat = X := by
    decide
  exact hX X

/-- The third. -/
theorem opcode_Y (op : Operation) (X Y : Fin 16) : (opcode op X Y).Y = Y := by
  have hY : ∀ Y : Fin 16, Fin.ofNat 16 (UInt8.ofNat (Y.val * 16 + op.N.val) >>> 4).toNat = Y := by
    cases op <;> decide
  exact hY Y

/-- The last. -/
theorem opcode_N (op : Operation) (X Y : Fin 16) : (opcode op X Y).N = op.N := by
  have hN : ∀ Y : Fin 16,
      Fin.ofNat 16 (UInt8.ofNat (Y.val * 16 + op.N.val) &&& 0xF).toNat = op.N := by
    cases op <;> decide
  exact hN Y

/-- So it decodes to the operation on these registers. -/
theorem decode_opcode (op : Operation) (X Y : Fin 16) :
    Common.decode (opcode op X Y) = instruction X Y op := by
  rw [Common.decode, opcode_branch]
  change Common.decode8 (opcode op X Y) = instruction X Y op
  rw [Common.decode8, opcode_N, opcode_X, opcode_Y]
  cases op <;> rfl

/-- After which operations the handlers of a core clear VF. -/
def clears (cfg : Common.Config) : Operation → Bool
  | .i8xy0 => cfg.resetVf0
  | .i8xy1 => cfg.resetVf1
  | .i8xy2 => cfg.resetVf2
  | .i8xy3 => cfg.resetVf3
  | _ => false

/-- The carry of a sum. -/
theorem carry_eq (x y : UInt8) :
    ((x.toUInt32 + y.toUInt32) >>> 8).toUInt8 = if 0xFF < x.toNat + y.toNat then 1 else 0 := by
  have hx := x.toNat_lt
  have hy := y.toNat_lt
  apply UInt8.toNat.inj
  split <;> simp [Nat.shiftRight_eq_div_pow] <;> omega

/-- A sum. -/
theorem sum_eq (x y : UInt8) :
    (x.toUInt32 + y.toUInt32).toUInt8 = UInt8.ofNat (x.toNat + y.toNat) := by
  apply UInt8.toNat.inj
  simp

/-- The lowest bit. -/
theorem low_eq (x : UInt8) : x &&& 1 = if x.toNat % 2 = 1 then 1 else 0 := by
  apply UInt8.toNat.inj
  split <;> simp [Nat.and_one_is_mod] <;> omega

/-- The highest bit. -/
theorem high_eq (x : UInt8) : x >>> 7 = if 0x80 ≤ x.toNat then 1 else 0 := by
  have hx := x.toNat_lt
  apply UInt8.toNat.inj
  split <;> simp [Nat.shiftRight_eq_div_pow] <;> omega

/-- A byte shifted right. -/
theorem half_eq (x : UInt8) : x >>> 1 = UInt8.ofNat (x.toNat / 2) := by
  have hx := x.toNat_lt
  apply UInt8.toNat.inj
  simp [Nat.shiftRight_eq_div_pow]
  omega

/-- A byte shifted left. -/
theorem double_eq (x : UInt8) : x <<< 1 = UInt8.ofNat (2 * x.toNat) := by
  apply UInt8.toNat.inj
  simp [Nat.shiftLeft_eq]
  omega

/-- Where a shift does not work on VX, VX is written twice. -/
theorem update_loadShifted (inPlace : Bool) (X Y : Fin 16) (c : Cpu) (value : UInt8) :
    Function.update (c.loadShifted inPlace X Y).registersV X value =
      Function.update c.registersV X value := by
  cases inPlace
  · exact Function.update_idem ..
  · rfl

/-- The quirk of the shifts. -/
theorem loadShifted_self (inPlace : Bool) (X Y : Fin 16) (c : Cpu) :
    (c.loadShifted inPlace X Y).registersV X =
      if inPlace then c.registersV X else c.registersV Y := by
  cases inPlace
  · exact Function.update_self ..
  · rfl

/-- The quirk of the logical operations. -/
theorem registersV_resetVf (quirk : Bool) (c : Cpu) :
    (c.resetVf quirk).registersV =
      if quirk then Function.update c.registersV 0xF 0 else c.registersV := by
  cases quirk <;> rfl

/-- **What the shared handlers compute**, under any configuration. -/
theorem registersV_executeCommon {bits : Nat} {Own : Type} (cfg : Common.Config)
    (op : Operation) (X Y : Fin 16) (s : Core bits Own) :
    (s.executeCommon cfg (instruction X Y op)).registersV =
      outcome (clears cfg op) cfg.shiftInPlace op X Y s.registersV := by
  cases op with
  | i8xy0 | i8xy1 | i8xy2 | i8xy3 => exact registersV_resetVf ..
  | i8xy4 =>
      change Function.update (Function.update _ _ _) _ _ = Function.update _ _ _
      rw [sum_eq, carry_eq]
      rfl
  | i8xy5 | i8xy7 => rfl
  | i8xy6 =>
      change Function.update (Function.update _ _ _) _ _ = Function.update _ _ _
      rw [update_loadShifted, loadShifted_self, half_eq, low_eq]
      rfl
  | i8xyE =>
      change Function.update (Function.update _ _ _) _ _ = Function.update _ _ _
      rw [update_loadShifted, loadShifted_self, double_eq, high_eq]
      rfl

/-! ## The three cores -/

/-- A core with given registers, under given quirks. -/
def withRegisters {bits : Nat} {Own : Type} (q : QuirkFlags) (V : Registers16)
    (s : Core bits Own) : Core bits Own :=
  { s with cachedQuirkFlags := q, registersV := V }

/-- An instruction on the three cores, whatever the rest of their states: each computes the
documented registers. -/
def AsDocumented (q : QuirkFlags) (op : Operation) (X Y : Fin 16) (V : Registers16) : Prop :=
  (∀ s : Chip8Modern,
    (Chip8Modern.execute (Chip8Modern.decode (opcode op X Y)) (withRegisters q V s)).map
      (·.registersV) = some (documented q op X Y V)) ∧
  (∀ s : SchipModern,
    (SchipModern.execute (SchipModern.decode (opcode op X Y)) (withRegisters q V s)).map
      (·.registersV) = some (documented q op X Y V)) ∧
  (∀ s : Xochip,
    (Xochip.execute (Xochip.decode (opcode op X Y)) (withRegisters q V s)).map
      (·.registersV) = some (documented q op X Y V))

/-- What a core computes whose handlers are the shared ones. -/
theorem map_executeCommon {bits : Nat} {Own : Type} (cfg : Common.Config) (q : QuirkFlags)
    (op : Operation) (X Y : Fin 16) (V : Registers16) (s : Core bits Own)
    (hshift : cfg.shiftInPlace = q .shiftVxReg) :
    (some ((withRegisters q V s).executeCommon cfg (Common.decode (opcode op X Y)))).map
      (·.registersV) = some (outcome (clears cfg op) (q .shiftVxReg) op X Y V) := by
  rw [Option.map_some, decode_opcode, registersV_executeCommon, hshift]
  rfl

variable (q : QuirkFlags) (op : Operation) (X Y : Fin 16) (V : Registers16)

/-- `CHIP8_MODERN` clears VF where the quirk says. -/
theorem chip8Modern_asDocumented (s : Chip8Modern) :
    (Chip8Modern.execute (Chip8Modern.decode (opcode op X Y)) (withRegisters q V s)).map
      (·.registersV) = some (documented q op X Y V) := by
  rw [Chip8Modern.decode, opcode_branch]
  refine (map_executeCommon (Chip8Modern.config (withRegisters q V s)) q op X Y V s rfl).trans ?_
  have hclears : clears (Chip8Modern.config (withRegisters q V s)) op =
      (q .resetVfReg && op.resetsVf) := by
    cases op with
    | i8xy1 | i8xy2 | i8xy3 => exact (Bool.and_true _).symm
    | _ => exact (Bool.and_false _).symm
  rw [hclears]
  rfl

/-- So does `XOCHIP`. -/
theorem xochip_asDocumented (s : Xochip) :
    (Xochip.execute (Xochip.decode (opcode op X Y)) (withRegisters q V s)).map
      (·.registersV) = some (documented q op X Y V) := by
  rw [Xochip.decode, opcode_branch]
  refine (map_executeCommon (Xochip.config (withRegisters q V s)) q op X Y V s rfl).trans ?_
  have hclears : clears (Xochip.config (withRegisters q V s)) op =
      (q .resetVfReg && op.resetsVf) := by
    cases op with
    | i8xy1 | i8xy2 | i8xy3 => exact (Bool.and_true _).symm
    | _ => exact (Bool.and_false _).symm
  rw [hclears]
  rfl

/-- After which operations `SCHIP_MODERN` clears VF. -/
def schipClears : Operation → Bool
  | .i8xy0 | .i8xy1 | .i8xy2 => true
  | _ => false

/-- `SCHIP_MODERN` clears VF after the assignment and two of the logical operations. -/
theorem schipModern_registersV (s : SchipModern) :
    (SchipModern.execute (SchipModern.decode (opcode op X Y)) (withRegisters q V s)).map
      (·.registersV) =
      some (outcome (q .resetVfReg && schipClears op) (q .shiftVxReg) op X Y V) := by
  rw [SchipModern.decode, opcode_branch]
  refine (map_executeCommon (SchipModern.config (withRegisters q V s)) q op X Y V s rfl).trans ?_
  have hclears : clears (SchipModern.config (withRegisters q V s)) op =
      (q .resetVfReg && schipClears op) := by
    cases op with
    | i8xy0 | i8xy1 | i8xy2 => exact (Bool.and_true _).symm
    | _ => exact (Bool.and_false _).symm
  rw [hclears]

/-- Clearing VF shows unless it holds 0. -/
theorem update_zero_eq_iff (U : Registers16) : Function.update U 0xF 0 = U ↔ U 0xF = 0 :=
  ⟨fun h => h ▸ Function.update_self .., fun h => h ▸ Function.update_eq_self ..⟩

/-- VF comes out 0 of the two operations that `SCHIP_MODERN` mixes up. -/
def VfZero : Prop :=
  match op with
  | .i8xy0 => if X = 0xF then V Y = 0 else V 0xF = 0
  | .i8xy3 => if X = 0xF then V Y = V 0xF else V 0xF = 0
  | _ => True

/-- The outcomes with and without clearing VF agree precisely when it comes out 0. -/
theorem outcome_schip_iff :
    outcome (q .resetVfReg && schipClears op) (q .shiftVxReg) op X Y V =
      documented q op X Y V ↔ (q .resetVfReg = true → VfZero op X Y V) := by
  unfold documented
  cases q .resetVfReg with
  | false => exact ⟨fun _ h => (nomatch h), fun _ => rfl⟩
  | true =>
      rw [eq_self, true_imp_iff]
      cases op with
      | i8xy0 =>
          change Function.update (Function.update V X (V Y)) 0xF 0 = Function.update V X (V Y) ↔
            if X = 0xF then V Y = 0 else V 0xF = 0
          rw [update_zero_eq_iff, Function.update_apply]
          by_cases hX : X = 0xF
          · rw [if_pos hX, if_pos hX.symm]
          · rw [if_neg hX, if_neg (Ne.symm hX)]
      | i8xy3 =>
          change Function.update V X (V X ^^^ V Y) =
              Function.update (Function.update V X (V X ^^^ V Y)) 0xF 0 ↔
            if X = 0xF then V Y = V 0xF else V 0xF = 0
          rw [eq_comm, update_zero_eq_iff, Function.update_apply]
          by_cases hX : X = 0xF
          · rw [if_pos hX, if_pos hX.symm, hX, UInt8.xor_eq_zero_iff, eq_comm]
          · rw [if_neg hX, if_neg (Ne.symm hX)]
      | _ => exact ⟨fun _ => trivial, fun _ => rfl⟩

/-- **8xyN on the modern cores**: all three compute the documented registers, for every
register file, precisely when RESET_VF_REG is off or VF comes out 0 of the two operations
that `SCHIP_MODERN` mixes up. -/
theorem asDocumented_iff :
    AsDocumented q op X Y V ↔ (q .resetVfReg = true → VfZero op X Y V) := by
  rw [← outcome_schip_iff]
  constructor
  · intro h
    have hboot := h.2.1 (SchipModern.construct (Launch.ofProgram []))
    rw [schipModern_registersV] at hboot
    exact Option.some.inj hboot
  · intro h
    refine ⟨chip8Modern_asDocumented q op X Y V, fun s => ?_, xochip_asDocumented q op X Y V⟩
    rw [schipModern_registersV, h]

/-- 8010 clears a VF of 1 on `SCHIP_MODERN`. -/
theorem not_asDocumented :
    ¬ ∀ (q : QuirkFlags) (op : Operation) (X Y : Fin 16) (V : Registers16),
      AsDocumented q op X Y V := by
  intro h
  have hboot := (h (fun _ => true) .i8xy0 0 1 fun _ => 1).2.1
    (SchipModern.construct (Launch.ofProgram []))
  rw [schipModern_registersV] at hboot
  have hVF : (0 : UInt8) = 1 := congrFun (Option.some.inj hboot) 0xF
  exact absurd hVF (by decide)

end Arithmetic

end CubeChip
