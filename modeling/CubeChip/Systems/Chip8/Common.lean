import CubeChip.Systems.Chip8.Kept

/-!
# The instructions the cores share

Every core of the family repeats the same handlers for flow, arithmetic, timers, keys and
memory transfers. They are one type here, decoded and executed once; a core gives its
`Config`, which is all the handlers differ in, and keeps the instructions of its own.
-/

namespace CubeChip

/-- The shared instructions, and `instruction_error`. -/
inductive Common where
  | i00EE
  | i1NNN (NNN : UInt32)
  | i2NNN (NNN : UInt32)
  | i3xNN (X : Fin 16) (NN : UInt8)
  | i4xNN (X : Fin 16) (NN : UInt8)
  | i5xy0 (X Y : Fin 16)
  | i6xNN (X : Fin 16) (NN : UInt8)
  | i7xNN (X : Fin 16) (NN : UInt8)
  | i8xy0 (X Y : Fin 16)
  | i8xy1 (X Y : Fin 16)
  | i8xy2 (X Y : Fin 16)
  | i8xy3 (X Y : Fin 16)
  | i8xy4 (X Y : Fin 16)
  | i8xy5 (X Y : Fin 16)
  | i8xy7 (X Y : Fin 16)
  | i8xy6 (X Y : Fin 16)
  | i8xyE (X Y : Fin 16)
  | i9xy0 (X Y : Fin 16)
  | iANNN (NNN : UInt32)
  | iBXNN (X : Fin 16) (NNN : UInt32)
  | iCxNN (X : Fin 16) (NN : UInt8)
  | iEx9E (X : Fin 16)
  | iExA1 (X : Fin 16)
  | iFx07 (X : Fin 16)
  | iFx0A (X : Fin 16)
  | iFx15 (X : Fin 16)
  | iFx1E (X : Fin 16)
  | iFx33 (X : Fin 16)
  | iFN55 (N : Fin 16)
  | iFN65 (N : Fin 16)
  | error
deriving DecidableEq, Repr

namespace Common

/-- What the handlers of the cores differ in: how far `skip_instruction` goes, after which of
8xy0 to 8xy3 VF is cleared, whether the shifts work on VX alone, and what FN55 and FN65 add
to I. -/
structure Config where
  skipWidth : UInt32
  resetVf0 : Bool
  resetVf1 : Bool
  resetVf2 : Bool
  resetVf3 : Bool
  shiftInPlace : Bool
  indexOffset : Fin 16 → UInt32

/-! ## Decoding -/

/-- `CASE_xNF(0x50)` of the cores that only have 5xy0. -/
def decode5 (op : Opcode) : Common := if op.N ≠ 0 then .error else .i5xy0 op.X op.Y

/-- `CASE_xNF(0x80)`. -/
def decode8 (op : Opcode) : Common :=
  match op.N.val with
  | 0x0 => .i8xy0 op.X op.Y
  | 0x1 => .i8xy1 op.X op.Y
  | 0x2 => .i8xy2 op.X op.Y
  | 0x3 => .i8xy3 op.X op.Y
  | 0x4 => .i8xy4 op.X op.Y
  | 0x5 => .i8xy5 op.X op.Y
  | 0x7 => .i8xy7 op.X op.Y
  | 0x6 => .i8xy6 op.X op.Y
  | 0xE => .i8xyE op.X op.Y
  | _ => .error

/-- `CASE_xNF(0xE0)`, the keys of the first player. -/
def decodeE (op : Opcode) : Common :=
  match op.LO.toNat with
  | 0x9E => .iEx9E op.X
  | 0xA1 => .iExA1 op.X
  | _ => .error

/-- `CASE_xNF(0xF0)`, as far as it is shared. -/
def decodeF (op : Opcode) : Common :=
  match op.LO.toNat with
  | 0x07 => .iFx07 op.X
  | 0x0A => .iFx0A op.X
  | 0x15 => .iFx15 op.X
  | 0x1E => .iFx1E op.X
  | 0x33 => .iFx33 op.X
  | 0x55 => .iFN55 op.X
  | 0x65 => .iFN65 op.X
  | _ => .error

/-- The branches 1 to 4, 6 to A and C, which no core changes. -/
def decode (op : Opcode) : Common :=
  match op.branch.val with
  | 0x1 => .i1NNN op.NNN
  | 0x2 => .i2NNN op.NNN
  | 0x3 => .i3xNN op.X op.LO
  | 0x4 => .i4xNN op.X op.LO
  | 0x6 => .i6xNN op.X op.LO
  | 0x7 => .i7xNN op.X op.LO
  | 0x8 => decode8 op
  | 0x9 => if op.N ≠ 0 then .error else .i9xy0 op.X op.Y
  | 0xA => .iANNN op.NNN
  | 0xC => .iCxNN op.X op.LO
  | _ => .error

end Common

/-! ## Executing -/

namespace Core

variable {bits : Nat} {Own : Type}

/-- A shared instruction. -/
def executeCommon (cfg : Common.Config) (i : Common) (s : Core bits Own) : Core bits Own :=
  match i with
  | .i00EE => s.onCpu .instruction00EE
  | .i1NNN NNN => s.onCpu (.instruction1NNN NNN)
  | .i2NNN NNN => s.onCpu (.instruction2NNN NNN)
  | .i3xNN X NN => s.onCpu (.instruction3xNN cfg.skipWidth X NN)
  | .i4xNN X NN => s.onCpu (.instruction4xNN cfg.skipWidth X NN)
  | .i5xy0 X Y => s.onCpu (.instruction5xy0 cfg.skipWidth X Y)
  | .i6xNN X NN => s.onCpu (.instruction6xNN X NN)
  | .i7xNN X NN => s.onCpu (.instruction7xNN X NN)
  | .i8xy0 X Y => s.onCpu (.instruction8xy0 cfg.resetVf0 X Y)
  | .i8xy1 X Y => s.onCpu (.instruction8xy1 cfg.resetVf1 X Y)
  | .i8xy2 X Y => s.onCpu (.instruction8xy2 cfg.resetVf2 X Y)
  | .i8xy3 X Y => s.onCpu (.instruction8xy3 cfg.resetVf3 X Y)
  | .i8xy4 X Y => s.onCpu (.instruction8xy4 X Y)
  | .i8xy5 X Y => s.onCpu (.instruction8xy5 X Y)
  | .i8xy7 X Y => s.onCpu (.instruction8xy7 X Y)
  | .i8xy6 X Y => s.onCpu (.instruction8xy6 cfg.shiftInPlace X Y)
  | .i8xyE X Y => s.onCpu (.instruction8xyE cfg.shiftInPlace X Y)
  | .i9xy0 X Y => s.onCpu (.instruction9xy0 cfg.skipWidth X Y)
  | .iANNN NNN => s.onCpu (.instructionANNN NNN)
  | .iBXNN X NNN => s.onCpu (.instructionBXNN X NNN)
  | .iCxNN X NN => s.onCpu (.instructionCxNN X NN)
  | .iEx9E X => s.onCpu (.instructionEx9E cfg.skipWidth X)
  | .iExA1 X => s.onCpu (.instructionExA1 cfg.skipWidth X)
  | .iFx07 X => s.onCpu (.instructionFx07 X)
  | .iFx0A X => s.onCpu (.instructionFx0A X)
  | .iFx15 X => s.onCpu (.instructionFx15 X)
  | .iFx1E X => s.onCpu (.instructionFx1E X)
  | .iFx33 X => s.instructionFx33 X
  | .iFN55 N => s.instructionFN55 (cfg.indexOffset N) N
  | .iFN65 N => s.instructionFN65 (cfg.indexOffset N) N
  | .error => s.onCpu .instructionError

/-- Shared instructions leave the base classes' members and the core's own ones alone but for
the processor. -/
theorem executeCommon_frame (cfg : Common.Config) (i : Common) (s : Core bits Own) :
    (s.executeCommon cfg i).settings = s.settings ∧ (s.executeCommon cfg i).own = s.own ∧
      (s.executeCommon cfg i).cachedQuirkFlags = s.cachedQuirkFlags := by
  cases i <;> exact ⟨rfl, rfl, rfl⟩

end Core

end CubeChip
