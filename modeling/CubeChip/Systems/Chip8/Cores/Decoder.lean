import CubeChip.Systems.Chip8.Cores.Decoder.Chip8E
import CubeChip.Systems.Chip8.Cores.Decoder.Chip8Modern
import CubeChip.Systems.Chip8.Cores.Decoder.Superchip
import CubeChip.Systems.Chip8.Cores.Decoder.Xochip

/-!
# The decoders against their headers

An opcode without a `case` moves PC and is gone: the `switch` over `HI` has no default, so the
opcodes 01 to 0F of its first branch pass without a trace in most cores.
-/

namespace CubeChip

open CubeChip.Core

/-- The decoders are complete but for the first branch past its cases, the branch B of `CHIP8E`
but for BB and BF, the opcodes the comment over `instruction_00CN` names, and FX03. -/
theorem decoders_complete_iff (modern : Chip8Modern) (chip8E : Chip8E) (legacy : SchipLegacy)
    (schip : SchipModern) (xochip : Xochip) :
    (Chip8Modern.decoder.Complete modern ↔ modern.fetch.1.Cased) ∧
      (Chip8E.decoder.Complete chip8E ↔
        Chip8E.Cased chip8E.fetch.1 ∧ ¬ Chip8E.IsFx03 chip8E.fetch.1) ∧
      (SchipLegacy.decoder.Complete legacy ↔
        legacy.fetch.1.Cased ∧ ¬ legacy.fetch.1.Is00DN) ∧
      (SchipModern.decoder.Complete schip ↔ schip.fetch.1.Cased ∧ ¬ schip.fetch.1.Is00DN) ∧
      (Xochip.decoder.Complete xochip ↔ xochip.fetch.1.Cased ∧ ¬ xochip.fetch.1.Is00DN) :=
  ⟨Chip8Modern.complete_iff modern, Chip8E.complete_iff chip8E, SchipLegacy.complete_iff legacy,
    SchipModern.complete_iff schip, Xochip.complete_iff xochip⟩

/-- A program that starts with 0100. -/
def uncased : Chip8Modern := Chip8Modern.boot (.ofProgram [0x01, 0x00])

/-- Its first opcode is skipped. -/
theorem not_complete_0100 : ¬ Chip8Modern.decoder.Complete uncased ∧
    iterate Chip8Modern.virtuals uncased =
      some { uncased.fetch.2 with cycleCount := uncased.fetch.2.cycleCount + 1 } := by
  have hskip : Chip8Modern.outcome (Chip8Modern.decode uncased.fetch.1) = .skipped := by
    decide +kernel
  exact ⟨fun h => (Decoder.complete_iff.1 h).1 hskip,
    Decoder.iterate_of_skipped (D := Chip8Modern.decoder) hskip⟩

end CubeChip
