import CubeChip.Systems.Chip8.Cores.Decoder.Switch
import CubeChip.Systems.Chip8.Cores.Chip8E

/-!
# The decoder of `CHIP8E`

It has a `case` for 00 and 01 in the first branch and for BB and BF in the branch B, and none
that calls `instruction_Fx03`.
-/

namespace CubeChip

namespace Chip8E

/-- The shared jump has no opcode here. -/
def outcome : Instruction → Outcome
  | .common i => i.outcome .hBNNN
  | .i00E0 => .handler .h00E0
  | .i00ED => .handler .h00ED
  | .i00F2 => .handler .h00F2
  | .i0151 => .handler .h0151
  | .i0188 => .handler .h0188
  | .i5xy1 .. => .handler .h5xy1
  | .i5xy2 .. => .handler .h5xy2
  | .i5xy3 .. => .handler .h5xy3
  | .iBBNN _ => .handler .hBBNN
  | .iBFNN _ => .handler .hBFNN
  | .iDxyN .. => .handler .hDxyN
  | .iFx18 _ => .handler .hFx18
  | .iFx1B _ => .handler .hFx1B
  | .iFx1E _ => .handler .hFx1E
  | .iFx29 _ => .handler .hFx29
  | .iFx4F _ => .handler .hFx4F
  | .iFxE3 => .handler .hFxE3
  | .iFxE7 => .handler .hFxE7
  | .skipped => .skipped

section

open Digit

/-- `instruction_Fx03`, which nothing calls. -/
def outputPort : Declared := ⟨⟨0xF, any, 0x0, 0x3⟩, .hFx03⟩

/-- The words of its own with the high byte 00. -/
def words00 : List Declared :=
  [⟨⟨0x0, 0x0, 0xE, 0xD⟩, .h00ED⟩, ⟨⟨0x0, 0x0, 0xF, 0x2⟩, .h00F2⟩]

/-- The words with the high byte 01. -/
def words01 : List Declared :=
  [⟨⟨0x0, 0x1, 0x5, 0x1⟩, .h0151⟩, ⟨⟨0x0, 0x1, 0x8, 0x8⟩, .h0188⟩]

/-- The comparison and the register ranges of the branch 5. -/
def ranges : List Declared :=
  [⟨⟨0x5, any, any, 0x1⟩, .h5xy1⟩, ⟨⟨0x5, any, any, 0x2⟩, .h5xy2⟩,
    ⟨⟨0x5, any, any, 0x3⟩, .h5xy3⟩]

/-- The two jumps have no comment but their names. -/
def jumps : List Declared :=
  [⟨⟨0xB, 0xB, any, any⟩, .hBBNN⟩, ⟨⟨0xB, 0xF, any, any⟩, .hBFNN⟩]

/-- The opcodes of its own in the branch F. -/
def wordsF : List Declared :=
  [⟨⟨0xF, any, 0x1, 0xB⟩, .hFx1B⟩, ⟨⟨0xF, any, 0x4, 0xF⟩, .hFx4F⟩,
    ⟨⟨0xF, any, 0xE, 0x3⟩, .hFxE3⟩, ⟨⟨0xF, any, 0xE, 0x7⟩, .hFxE7⟩]

end

/-- The comments of the header. -/
def header : List Declared :=
  standard ++ outputPort :: (words00 ++ words01 ++ ranges ++ jumps ++ wordsF)

/-- The opcodes with a `case` in the first branch and in the branch B. -/
structure Cased (op : Opcode) : Prop where
  branch0 : op.branch.val = 0x0 → op.HI = 0x00 ∨ op.HI = 0x01
  branchB : op.branch.val = 0xB → op.HI = 0xBB ∨ op.HI = 0xBF

/-- The opcodes FX03. -/
def IsFx03 (op : Opcode) : Prop := op.branch.val = 0xF ∧ op.LO = 0x03

/-- The cases of `instruction_decode` where the cores differ. -/
def switch : Switch where
  jump := .hBNNN
  branch0 := fun op => outcome (decode0 op)
  branch5 := fun op => outcome (decode5 op)
  branchB := fun op => outcome (decodeB op)
  branchF := fun op => outcome (decodeF op)

/-- `decode` runs through those cases. -/
theorem outcome_decode (op : Opcode) : outcome (decode op) = switch.outcome op := by
  unfold decode
  split <;> rename_i hb
  all_goals simp only [Switch.outcome, hb]
  all_goals rfl

/-- No opcode comes to the shared jump. -/
theorem decode_ne_jump (op : Opcode) (X : Fin 16) (NNN : UInt32) :
    decode op ≠ .common (.iBXNN X NNN) := by
  unfold decode
  split
  case h_1 =>
    unfold decode0
    split <;> try split
    all_goals simp
  case h_2 =>
    unfold decode5
    split <;> simp
  case h_3 =>
    unfold decodeB
    split <;> simp
  case h_4 => simp
  case h_5 =>
    unfold Common.decodeE
    split <;> simp
  case h_6 =>
    unfold decodeF Common.decodeF
    split
    case h_8 => split <;> simp
    all_goals simp
  case h_7 =>
    unfold Common.decode Common.decode8
    split <;> try split
    all_goals simp

/-- A handler that is called has a comment. -/
theorem outcome_declared {op : Opcode} {h : Handler} (hi : outcome (decode op) = .handler h) :
    h ∈ header.map Declared.handler := by
  have hjump := decode_ne_jump op
  cases hdecode : decode op
  case common i =>
    rw [hdecode] at hi hjump
    rw [header, List.map_append, List.mem_append]
    refine .inl ((Common.declared hi).resolve_left ?_)
    rintro rfl
    cases i
    case iBXNN X NNN => exact hjump X NNN rfl
    all_goals cases hi
  all_goals
    rw [hdecode] at hi
    cases hi
  all_goals decide

/-- An error stops the machine, and a skipped opcode leaves the state as it was. -/
def decoder : Decoder 12 Members Instruction where
  virtuals := virtuals
  outcome := outcome
  header := header
  declared := fun _ _ _ => outcome_declared
  stops := by
    intro i s hi
    cases i
    case common i => exact ⟨_, rfl, by rw [Common.eq_error hi]; rfl⟩
    all_goals cases hi
  skips := by
    intro i s hi
    cases i
    case common i => exact absurd hi (i.outcome_ne_skipped _)
    case skipped => rfl
    all_goals cases hi

/-- It treats what all headers name as the other cores do. -/
theorem switch_standard : switch.Standard where
  branch0 := by
    intro op e he hn
    simp only [namedInFull, List.mem_cons, List.not_mem_nil, or_false] at he
    rcases he with rfl | rfl
    all_goals
      simp only [switch, decode0, hn.HI_eq, hn.LO_eq, Nat.reduceMul, Nat.reduceAdd]
      rfl
  branch5 := by
    intro op hN
    simp only [switch, decode5, hN]
    rfl
  branchF := by
    intro op e he hn
    simp only [namedF, List.mem_cons, List.not_mem_nil, or_false] at he
    rcases he with rfl | rfl | rfl | rfl | rfl | rfl | rfl | rfl | rfl
    all_goals
      simp only [switch, decodeF, Common.decodeF, hn.LO_eq, Nat.reduceMul, Nat.reduceAdd]
      rfl
  branch5_ne_skipped := by
    intro op
    simp only [switch, decode5]
    split <;> exact Outcome.noConfusion
  branchF_ne_skipped := by
    intro op
    simp only [switch, decodeF]
    split
    case h_8 => exact Common.outcome_ne_skipped _ _
    all_goals exact Outcome.noConfusion

/-- The first branch has a case for two high bytes. -/
theorem branch0_skipped_iff {op : Opcode} :
    switch.branch0 op = .skipped ↔ ¬ (op.HI = 0x00 ∨ op.HI = 0x01) := by
  simp only [switch, decode0, ← UInt8.toNat_inj]
  split <;> rename_i hHI
  · refine iff_of_false ?_ (not_not.2 (.inl hHI))
    split <;> exact Outcome.noConfusion
  · refine iff_of_false ?_ (not_not.2 (.inr hHI))
    split <;> exact Outcome.noConfusion
  · exact iff_of_true rfl fun h => h.elim ‹_› ‹_›

/-- So has the branch B. -/
theorem branchB_skipped_iff {op : Opcode} :
    switch.branchB op = .skipped ↔ ¬ (op.HI = 0xBB ∨ op.HI = 0xBF) := by
  simp only [switch, decodeB, ← UInt8.toNat_inj]
  split <;> rename_i hHI
  · exact iff_of_false Outcome.noConfusion (not_not.2 (.inl hHI))
  · exact iff_of_false Outcome.noConfusion (not_not.2 (.inr hHI))
  · exact iff_of_true rfl fun h => h.elim ‹_› ‹_›

/-- Every other branch has a case for each of its opcodes. -/
theorem skipped_iff {op : Opcode} : switch.outcome op = .skipped ↔ ¬ Cased op := by
  rw [switch_standard.skipped_iff, branch0_skipped_iff, branchB_skipped_iff]
  refine ⟨fun h hcased => ?_, fun h => ?_⟩
  · obtain ⟨hb, hHI⟩ | ⟨hb, hHI⟩ := h
    · exact hHI (hcased.branch0 hb)
    · exact hHI (hcased.branchB hb)
  · contrapose! h
    exact ⟨h.1, h.2⟩

/-- All comments but the one over `instruction_Fx03` name opcodes of their handler. -/
theorem named {op : Opcode} {e : Declared} (he : e ∈ header) (hport : ¬ IsFx03 op)
    (hn : e.name.Names op) : switch.outcome op = .handler e.handler := by
  simp only [header, List.mem_append, List.mem_cons, or_assoc] at he
  rcases he with he | rfl | he | he | he | he | he
  · exact switch_standard.named he hn
  · exact absurd ⟨hn.branch_eq, UInt8.toNat_inj.1 hn.LO_eq⟩ hport
  · simp only [words00, List.mem_cons, List.not_mem_nil, or_false] at he
    rcases he with rfl | rfl
    all_goals
      simp only [Switch.outcome, switch, decode0, hn.branch_eq, hn.HI_eq, hn.LO_eq,
        Nat.reduceMul, Nat.reduceAdd]
      rfl
  · simp only [words01, List.mem_cons, List.not_mem_nil, or_false] at he
    rcases he with rfl | rfl
    all_goals
      simp only [Switch.outcome, switch, decode0, hn.branch_eq, hn.HI_eq, hn.LO_eq,
        Nat.reduceMul, Nat.reduceAdd]
      rfl
  · simp only [ranges, List.mem_cons, List.not_mem_nil, or_false] at he
    rcases he with rfl | rfl | rfl
    all_goals
      simp only [Switch.outcome, switch, decode5, hn.branch_eq, hn.N_eq]
      rfl
  · simp only [jumps, List.mem_cons, List.not_mem_nil, or_false] at he
    rcases he with rfl | rfl
    all_goals
      simp only [Switch.outcome, switch, decodeB, hn.branch_eq, hn.HI_eq, Nat.reduceMul,
        Nat.reduceAdd]
      rfl
  · simp only [wordsF, List.mem_cons, List.not_mem_nil, or_false] at he
    rcases he with rfl | rfl | rfl | rfl
    all_goals
      simp only [Switch.outcome, switch, decodeF, hn.branch_eq, hn.LO_eq, Nat.reduceMul,
        Nat.reduceAdd]
      rfl

/-- FX03 is an error. -/
theorem outcome_Fx03 {op : Opcode} (h : IsFx03 op) : switch.outcome op = .error := by
  simp only [Switch.outcome, switch, decodeF, Common.decodeF, h.1, h.2]
  rfl

/-- That comment names FX03. -/
theorem names_outputPort {op : Opcode} (h : IsFx03 op) : outputPort.name.Names op := by
  have hLO := op.LO_toNat
  rw [h.2] at hLO
  change 3 = _ at hLO
  exact ⟨h.1, trivial, by change op.Y.val = 0; omega, by change op.N.val = 3; omega⟩

/-- So `CHIP8E` does what its header says wherever an opcode has a case, but for FX03. -/
theorem complete_iff (s : Chip8E) :
    decoder.Complete s ↔ Cased s.fetch.1 ∧ ¬ IsFx03 s.fetch.1 := by
  rw [Decoder.complete_iff_switch (outcome_decode s.fetch.1)]
  constructor
  · rintro ⟨hskip, hnamed⟩
    refine ⟨not_not.1 fun h => hskip (skipped_iff.2 h), fun h => ?_⟩
    have hport := hnamed outputPort (by simp [decoder, header]) (names_outputPort h)
    exact Outcome.noConfusion ((outcome_Fx03 h).symm.trans hport)
  · rintro ⟨hcased, hport⟩
    exact ⟨fun h => skipped_iff.1 h hcased, fun e he hn => named he hport hn⟩

end Chip8E

end CubeChip
