import CubeChip.Systems.Chip8.Cores.Held

/-!
# Programs and their memory

`validate_program` is what a user goes by who picks a core for a program, and `memcpy` cuts off
what does not fit. A program is accepted precisely if all of it is in memory when the core
starts and after every reset, where the core begins to execute it: the fonts are behind it, and
no instruction changes the file.
-/

namespace CubeChip

/-- `validate_program`: what is wrong with a program. -/
def IFamily.validateProgram (file : List UInt8) (loadPosition memorySize : Nat) : Option String :=
  if file.isEmpty then some "empty file"
  else if file.length + loadPosition ≤ memorySize then none else some "file too large"

namespace FamilyCore

/-- `c_game_load_pos`. -/
def gameLoadPos : FamilyCore → Nat
  | .chip8E => Chip8E.gameLoadPos
  | .chip8X => Chip8X.gameLoadPos
  | .chip8Modern => Chip8Modern.gameLoadPos
  | .megachip => Megachip.gameLoadPos
  | .schipLegacy => SchipLegacy.gameLoadPos
  | .schipModern => SchipModern.gameLoadPos
  | .xochip => Xochip.gameLoadPos

/-- `validate_program` of the core. -/
def validateProgram (core : FamilyCore) (file : List UInt8) : Option String :=
  IFamily.validateProgram file core.gameLoadPos (2 ^ core.bits)

end FamilyCore

namespace Core

variable {bits : Nat} {Own Instruction : Type}

/-- The core is about to execute the first instruction of the program, and all of it is there. -/
structure Loaded (loadPos : Nat) (file : List UInt8) (s : Core bits Own) : Prop where
  currentPc : s.currentPc.toNat = loadPos
  fits : loadPos + file.length ≤ 2 ^ bits
  memory : ∀ i < file.length, s.memory.mem (BitVec.ofNat bits (loadPos + i)) = file.getD i 0

/-- A program below the end of the memory, with fonts that end before it, is loaded whole. -/
theorem loaded_copy (fonts : Nat) {s : Core bits Own} {loadPos : Nat} {m : MirroredMemory bits}
    {file : List UInt8} (hfonts : fonts ≤ loadPos)
    (hmemory : s.memory = (m.copyFrom loadPos file).copyFrom 0 (fontsData.take fonts))
    (hpc : s.currentPc.toNat = loadPos) (hfits : loadPos + file.length ≤ 2 ^ bits) :
    Loaded loadPos file s where
  currentPc := hpc
  fits := hfits
  memory := fun i hi => by
    have haddr : (BitVec.ofNat bits (loadPos + i)).toNat = loadPos + i := by
      rw [BitVec.toNat_ofNat]
      exact Nat.mod_eq_of_lt (by omega)
    have hfont : ¬(0 ≤ (BitVec.ofNat bits (loadPos + i)).toNat ∧
        (BitVec.ofNat bits (loadPos + i)).toNat - 0 < (fontsData.take fonts).length) := by
      rw [haddr, List.length_take]
      omega
    rw [hmemory, MirroredMemory.copyFrom_of_not_mem hfont,
      MirroredMemory.copyFrom_of_mem (by omega) (by omega), haddr, Nat.add_sub_cancel_left]

/-- A file that is loaded whole is one that is not too large. -/
theorem validateProgram_iff {loadPos : Nat} {file : List UInt8} :
    IFamily.validateProgram file loadPos (2 ^ bits) = none ↔
      file ≠ [] ∧ loadPos + file.length ≤ 2 ^ bits := by
  unfold IFamily.validateProgram
  rw [Nat.add_comm loadPos]
  cases file with
  | nil => exact iff_of_false (fun h => nomatch h) fun h => h.1 rfl
  | cons b bs => simp

end Core

open CubeChip.Core

/-! ## Monochrome cores -/

namespace Chip8E

/-- A boot copies the image into 4 KiB. -/
theorem loaded_boot (launch : Launch)
    (hfits : gameLoadPos + launch.fileImage.length ≤ 2 ^ 12) :
    Loaded gameLoadPos launch.fileImage (boot launch) :=
  loaded_copy 80 (by decide) rfl rfl hfits

/-- A reset copies it again. -/
theorem loaded_reset (s : Chip8E) (hfits : gameLoadPos + s.fileImage.length ≤ 2 ^ 12) :
    Loaded gameLoadPos s.fileImage (performInstanceReset virtuals s) :=
  loaded_copy 80 (by decide) rfl rfl hfits

end Chip8E

namespace Chip8X

/-- A boot copies the image into 4 KiB. -/
theorem loaded_boot (launch : Launch)
    (hfits : gameLoadPos + launch.fileImage.length ≤ 2 ^ 12) :
    Loaded gameLoadPos launch.fileImage (boot launch) :=
  loaded_copy 80 (by decide) rfl rfl hfits

/-- A reset copies it again. -/
theorem loaded_reset (s : Chip8X) (hfits : gameLoadPos + s.fileImage.length ≤ 2 ^ 12) :
    Loaded gameLoadPos s.fileImage (performInstanceReset virtuals s) :=
  loaded_copy 80 (by decide) rfl rfl hfits

end Chip8X

namespace Chip8Modern

/-- A boot copies the image into 4 KiB. -/
theorem loaded_boot (launch : Launch)
    (hfits : gameLoadPos + launch.fileImage.length ≤ 2 ^ 12) :
    Loaded gameLoadPos launch.fileImage (boot launch) :=
  loaded_copy 80 (by decide) rfl rfl hfits

/-- A reset copies it again. -/
theorem loaded_reset (s : Chip8Modern) (hfits : gameLoadPos + s.fileImage.length ≤ 2 ^ 12) :
    Loaded gameLoadPos s.fileImage (performInstanceReset virtuals s) :=
  loaded_copy 80 (by decide) rfl rfl hfits

end Chip8Modern

namespace SchipModern

/-- A boot copies the image into 4 KiB. -/
theorem loaded_boot (launch : Launch)
    (hfits : gameLoadPos + launch.fileImage.length ≤ 2 ^ 12) :
    Loaded gameLoadPos launch.fileImage (boot launch) :=
  loaded_copy 240 (by decide) rfl rfl hfits

/-- A reset copies it again. -/
theorem loaded_reset (s : SchipModern) (hfits : gameLoadPos + s.fileImage.length ≤ 2 ^ 12) :
    Loaded gameLoadPos s.fileImage (performInstanceReset virtuals s) :=
  loaded_copy 240 (by decide) rfl rfl hfits

end SchipModern

namespace SchipLegacy

/-- A boot copies the image into 4 KiB. -/
theorem loaded_boot (launch : Launch)
    (hfits : gameLoadPos + launch.fileImage.length ≤ 2 ^ 12) :
    Loaded gameLoadPos launch.fileImage (boot launch) :=
  loaded_copy 180 (by decide) rfl rfl hfits

/-- A reset copies it again. -/
theorem loaded_reset (s : SchipLegacy) (hfits : gameLoadPos + s.fileImage.length ≤ 2 ^ 12) :
    Loaded gameLoadPos s.fileImage (performInstanceReset virtuals s) :=
  loaded_copy 180 (by decide) rfl rfl hfits

end SchipLegacy

/-! ## Cores with colours of their own -/

namespace Xochip

/-- A boot copies the image into 64 KiB. -/
theorem loaded_boot (launch : Launch)
    (hfits : gameLoadPos + launch.fileImage.length ≤ 2 ^ 16) :
    Loaded gameLoadPos launch.fileImage (boot launch) :=
  loaded_copy 240 (by decide) rfl rfl hfits

/-- A reset copies it again. -/
theorem loaded_reset (s : Xochip) (hfits : gameLoadPos + s.fileImage.length ≤ 2 ^ 16) :
    Loaded gameLoadPos s.fileImage (performInstanceReset virtuals s) :=
  loaded_copy 80 (by decide) rfl rfl hfits

end Xochip

namespace Megachip

/-- A boot copies the image into 16 MiB. -/
theorem loaded_boot (launch : Launch) (unset : Unset)
    (hfits : gameLoadPos + launch.fileImage.length ≤ 2 ^ 24) :
    Loaded gameLoadPos launch.fileImage (boot launch unset) :=
  loaded_copy 180 (by decide) rfl rfl hfits

/-- A reset copies it again. -/
theorem loaded_reset (s : Megachip) (hfits : gameLoadPos + s.fileImage.length ≤ 2 ^ 24) :
    Loaded gameLoadPos s.fileImage (performInstanceReset virtuals s) :=
  loaded_copy 180 (by decide) rfl rfl hfits

end Megachip

/-! ## The family -/

namespace FamilyCore

variable {core : FamilyCore} {s : Core core.bits core.Own}

/-- A core loads the program it is started with. -/
theorem Boots.loaded (h : core.Boots s)
    (hfits : core.gameLoadPos + s.fileImage.length ≤ 2 ^ core.bits) :
    Loaded core.gameLoadPos s.fileImage s := by
  cases core with
  | chip8E => obtain ⟨launch, rfl⟩ := h; exact Chip8E.loaded_boot launch hfits
  | chip8X => obtain ⟨launch, rfl⟩ := h; exact Chip8X.loaded_boot launch hfits
  | chip8Modern => obtain ⟨launch, rfl⟩ := h; exact Chip8Modern.loaded_boot launch hfits
  | megachip => obtain ⟨launch, unset, rfl⟩ := h; exact Megachip.loaded_boot launch unset hfits
  | schipLegacy => obtain ⟨launch, rfl⟩ := h; exact SchipLegacy.loaded_boot launch hfits
  | schipModern => obtain ⟨launch, rfl⟩ := h; exact SchipModern.loaded_boot launch hfits
  | xochip => obtain ⟨launch, rfl⟩ := h; exact Xochip.loaded_boot launch hfits

/-- A reset loads it again. -/
theorem loaded_reset (hfits : core.gameLoadPos + s.fileImage.length ≤ 2 ^ core.bits) :
    Loaded core.gameLoadPos s.fileImage (performInstanceReset core.virtuals s) := by
  cases core with
  | chip8E => exact Chip8E.loaded_reset s hfits
  | chip8X => exact Chip8X.loaded_reset s hfits
  | chip8Modern => exact Chip8Modern.loaded_reset s hfits
  | megachip => exact Megachip.loaded_reset s hfits
  | schipLegacy => exact SchipLegacy.loaded_reset s hfits
  | schipModern => exact SchipModern.loaded_reset s hfits
  | xochip => exact Xochip.loaded_reset s hfits

end FamilyCore

/-- **A program is accepted** precisely if it is not empty and all of it is in memory, with the
program counter on its first byte, when the core starts and after a reset in any state. -/
theorem validateProgram_loaded (core : FamilyCore) (boot s : Core core.bits core.Own)
    (hboot : core.Boots boot) (hs : Reachable core.virtuals boot s) :
    core.validateProgram boot.fileImage = none ↔ boot.fileImage ≠ [] ∧
      Loaded core.gameLoadPos boot.fileImage boot ∧
      Loaded core.gameLoadPos boot.fileImage (performInstanceReset core.virtuals s) := by
  have hfile : s.fileImage = boot.fileImage :=
    (core.heldKept.alwaysKept boot.fileImage).reachable rfl hs
  refine validateProgram_iff.trans (and_congr_right fun _ => ⟨fun hfits => ⟨hboot.loaded hfits, ?_⟩,
    fun h => h.1.fits⟩)
  rw [← hfile] at hfits ⊢
  exact FamilyCore.loaded_reset hfits

/-- A jump at the start of CHIP8X's memory for programs. -/
theorem validateProgram_loaded_boot :
    let s := Chip8X.boot (Launch.ofProgram [0x13, 0x00])
    FamilyCore.chip8X.validateProgram [0x13, 0x00] = none ↔ [0x13, 0x00] ≠ ([] : List UInt8) ∧
      Loaded 0x300 [0x13, 0x00] s ∧
      Loaded 0x300 [0x13, 0x00] (performInstanceReset Chip8X.virtuals s) :=
  validateProgram_loaded .chip8X _ _ ⟨Launch.ofProgram [0x13, 0x00], rfl⟩ ⟨[], rfl⟩

end CubeChip
