import CubeChip.Systems.Chip8.Cores.Decoder.Switch
import CubeChip.Systems.Chip8.Cores.Chip8Modern

/-!
# The decoder of `CHIP8_MODERN`

It runs what all the headers have in common.
-/

namespace CubeChip

namespace Chip8Modern

/-- What the `switch` does for an instruction. -/
def outcome : Instruction → Outcome
  | .common i => i.outcome .hBNNN
  | .i00E0 => .handler .h00E0
  | .iDxyN .. => .handler .hDxyN
  | .iFx18 _ => .handler .hFx18
  | .iFx29 _ => .handler .hFx29
  | .skipped => .skipped

/-- The comments of the header. -/
def header : List Declared := standard ++ [jumpOf .hBNNN]

/-- A handler that is called has a comment. -/
theorem outcome_declared {i : Instruction} {h : Handler} (hi : outcome i = .handler h) :
    h ∈ header.map Declared.handler := by
  cases i
  case common i =>
    rw [header, List.map_append, List.mem_append]
    exact (Common.declared hi).elim (fun h => .inr (List.mem_singleton.2 h)) .inl
  all_goals cases hi
  all_goals decide

/-- An error stops the machine, and a skipped opcode leaves the state as it was. -/
def decoder : Decoder 12 Members Instruction where
  virtuals := virtuals
  outcome := outcome
  header := header
  declared := fun _ _ _ => outcome_declared
  stops := by
    intro i s hi
    cases i
    case common i => exact ⟨_, rfl, by rw [Common.eq_error hi]; rfl⟩
    all_goals cases hi
  skips := by
    intro i s hi
    cases i
    case common i => exact absurd hi (i.outcome_ne_skipped _)
    case skipped => rfl
    all_goals cases hi

/-- The cases of `instruction_decode` where the cores differ. -/
def switch : Switch where
  jump := .hBNNN
  branch0 := fun op => if op.HI = 0 then outcome (decode0 op) else .skipped
  branch5 := fun op => (Common.decode5 op).outcome .hBNNN
  branchB := fun _ => .handler .hBNNN
  branchF := fun op => outcome (decodeF op)

/-- `decode` runs through those cases. -/
theorem outcome_decode (op : Opcode) : outcome (decode op) = switch.outcome op := by
  unfold decode
  split <;> rename_i hb
  all_goals simp only [Switch.outcome, hb]
  · simp only [switch]
    split <;> rfl
  all_goals rfl

/-- It treats what all headers name as the other cores do. -/
theorem switch_standard : switch.Standard where
  branch0 := by
    intro op e he hn
    simp only [namedInFull, List.mem_cons, List.not_mem_nil, or_false] at he
    rcases he with rfl | rfl
    all_goals
      have hHI : op.HI = 0 := UInt8.toNat_inj.1 hn.HI_eq
      simp only [switch, decode0, hHI, hn.LO_eq, reduceIte, Nat.reduceMul, Nat.reduceAdd]
      rfl
  branch5 := fun op hN => Common.outcome_decode5 hN
  branchF := by
    intro op e he hn
    simp only [namedF, List.mem_cons, List.not_mem_nil, or_false] at he
    rcases he with rfl | rfl | rfl | rfl | rfl | rfl | rfl | rfl | rfl
    all_goals
      simp only [switch, decodeF, Common.decodeF, hn.LO_eq, Nat.reduceMul, Nat.reduceAdd]
      rfl
  branch5_ne_skipped := fun op => Common.outcome_ne_skipped _ _
  branchF_ne_skipped := by
    intro op
    simp only [switch, decodeF]
    split
    case h_3 => exact Common.outcome_ne_skipped _ _
    all_goals exact Outcome.noConfusion

/-- Only a high byte other than 00 in the first branch has no case. -/
theorem skipped_iff {op : Opcode} : switch.outcome op = .skipped ↔ ¬ op.Cased := by
  refine switch_standard.skipped_iff_not_cased (fun op => ?_) fun _ => Outcome.noConfusion
  simp only [switch, decode0]
  split <;> rename_i hHI
  · refine iff_of_false ?_ (not_not.2 hHI)
    split <;> exact Outcome.noConfusion
  · exact iff_of_true rfl hHI

/-- A comment names opcodes of its handler. -/
theorem named {op : Opcode} {e : Declared} (he : e ∈ header) (hn : e.name.Names op) :
    switch.outcome op = .handler e.handler := by
  obtain he | he := List.mem_append.1 he
  · exact switch_standard.named he hn
  · obtain rfl := List.mem_singleton.1 he
    simp only [Switch.outcome, hn.branch_eq]
    rfl

/-- So the decoder does what the header says wherever an opcode has a case. -/
theorem complete_iff (s : Chip8Modern) : decoder.Complete s ↔ s.fetch.1.Cased := by
  have hskip : switch.outcome s.fetch.1 ≠ .skipped ↔ s.fetch.1.Cased :=
    not_iff_comm.1 skipped_iff.symm
  exact (Decoder.complete_iff_switch (outcome_decode s.fetch.1)).trans
    ((and_iff_left fun _ => named).trans hskip)

end Chip8Modern

end CubeChip
