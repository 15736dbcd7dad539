import CubeChip.Systems.Chip8.Cores.Decoder.Switch
import CubeChip.Systems.Chip8.Cores.SchipLegacy
import CubeChip.Systems.Chip8.Cores.SchipModern

/-!
# The decoders of the SUPERCHIP cores

`SCHIP_LEGACY` and `SCHIP_MODERN` differ in the jump of the branch B alone. The comment over
their `instruction_00CN` names 00DN, which is an error.
-/

namespace CubeChip

namespace Superchip

/-- The `case 0x00` of both. -/
def branch0 (op : Opcode) : Outcome :=
  match op.LO.toNat with
  | 0xE0 => .handler .h00E0
  | 0xEE => .handler .h00EE
  | 0xFB => .handler .h00FB
  | 0xFC => .handler .h00FC
  | 0xFD => .handler .h00FD
  | 0xFE => .handler .h00FE
  | 0xFF => .handler .h00FF
  | LO => if 0xC1 ≤ LO ∧ LO ≤ 0xCF then .handler .h00CN else .error

/-- The `CASE_xNF(0xF0)` of both. -/
def branchF (jump : Handler) (op : Opcode) : Outcome :=
  match op.LO.toNat with
  | 0x18 => .handler .hFx18
  | 0x29 => .handler .hFx29
  | 0x30 => .handler .hFx30
  | 0x75 => .handler .hFN75
  | 0x85 => .handler .hFN85
  | _ => (Common.decodeF op).outcome jump

/-- The cases of both, with the jump of the one. -/
def switch (jump : Handler) : Switch where
  jump := jump
  branch0 := fun op => if op.HI = 0 then branch0 op else .skipped
  branch5 := fun op => (Common.decode5 op).outcome jump
  branchB := fun _ => .handler jump
  branchF := branchF jump

/-- The comments of both headers, with the jump of the one. -/
def header (jump : Handler) : List Declared := standard ++ superchip ++ [jumpOf jump]

variable {jump : Handler} {op : Opcode}

/-- Both treat what all headers name as the other cores do. -/
theorem switch_standard : (switch jump).Standard where
  branch0 := by
    intro op e he hn
    simp only [namedInFull, List.mem_cons, List.not_mem_nil, or_false] at he
    rcases he with rfl | rfl
    all_goals
      have hHI : op.HI = 0 := UInt8.toNat_inj.1 hn.HI_eq
      simp only [switch, branch0, hHI, hn.LO_eq, reduceIte, Nat.reduceMul, Nat.reduceAdd]
  branch5 := fun op hN => Common.outcome_decode5 hN
  branchF := by
    intro op e he hn
    simp only [namedF, List.mem_cons, List.not_mem_nil, or_false] at he
    rcases he with rfl | rfl | rfl | rfl | rfl | rfl | rfl | rfl | rfl
    all_goals simp only [switch, branchF, Common.decodeF, hn.LO_eq, Nat.reduceMul, Nat.reduceAdd]
    all_goals rfl
  branch5_ne_skipped := fun op => Common.outcome_ne_skipped _ _
  branchF_ne_skipped := by
    intro op
    simp only [switch, branchF]
    split
    case h_6 => exact Common.outcome_ne_skipped _ _
    all_goals exact Outcome.noConfusion

/-- Only a high byte other than 00 in the first branch has no case. -/
theorem skipped_iff : (switch jump).outcome op = .skipped ↔ ¬ op.Cased := by
  refine switch_standard.skipped_iff_not_cased (fun op => ?_) fun _ => Outcome.noConfusion
  simp only [switch, branch0]
  split <;> rename_i hHI
  · refine iff_of_false ?_ (not_not.2 hHI)
    split
    case h_8 => split <;> exact Outcome.noConfusion
    all_goals exact Outcome.noConfusion
  · exact iff_of_true rfl hHI

/-- All comments but the one over `instruction_00CN` name opcodes of their handler. -/
theorem named {e : Declared} (he : e ∈ header jump) (hscroll : e ≠ scrollDown)
    (hn : e.name.Names op) : (switch jump).outcome op = .handler e.handler := by
  simp only [header, superchip, List.mem_append, List.mem_cons, or_assoc, List.not_mem_nil,
    or_false] at he
  rcases he with he | he | he | he | rfl
  · exact switch_standard.named he hn
  · exact absurd he hscroll
  · simp only [superchipInFull, List.mem_cons, List.not_mem_nil, or_false] at he
    rcases he with rfl | rfl | rfl | rfl | rfl
    all_goals
      have hHI : op.HI = 0 := UInt8.toNat_inj.1 hn.HI_eq
      simp only [Switch.outcome, switch, branch0, hn.branch_eq, hHI, hn.LO_eq, reduceIte,
        Nat.reduceMul, Nat.reduceAdd]
  · simp only [superchipF, List.mem_cons, List.not_mem_nil, or_false] at he
    rcases he with rfl | rfl | rfl
    all_goals
      simp only [Switch.outcome, switch, branchF, hn.branch_eq, hn.LO_eq, Nat.reduceMul,
        Nat.reduceAdd]
  · simp only [Switch.outcome, hn.branch_eq, switch]
    rfl

/-- The comment itself names opcodes that are errors. -/
theorem outcome_00DN (h : op.Is00DN) : (switch jump).outcome op = .error := by
  have hLO := op.LO_toNat
  have hN := op.N.isLt
  rw [h.2] at hLO
  simp only [Switch.outcome, switch, h.branch_eq, h.1, reduceIte, branch0]
  split
  case h_8 => exact if_neg (by omega)
  all_goals omega

/-- So 00DN is the one opcode with a case that both headers get wrong. -/
theorem complete_iff : ((switch jump).outcome op ≠ .skipped ∧ ∀ e ∈ header jump,
    e.name.Names op → (switch jump).outcome op = .handler e.handler) ↔
      op.Cased ∧ ¬ op.Is00DN := by
  constructor
  · rintro ⟨hskip, hnamed⟩
    refine ⟨not_not.1 fun h => hskip (skipped_iff.2 h), fun h => ?_⟩
    have hscroll := hnamed scrollDown (by simp [header, superchip]) (Opcode.names_scrollDown.2 h)
    exact Outcome.noConfusion ((outcome_00DN h).symm.trans hscroll)
  · rintro ⟨hcased, hdown⟩
    refine ⟨fun h => skipped_iff.1 h hcased, fun e he hn => named he ?_ hn⟩
    rintro rfl
    exact hdown (Opcode.names_scrollDown.1 hn)

end Superchip

namespace SchipLegacy

/-- What the `switch` does for an instruction. -/
def outcome : Instruction → Outcome
  | .common i => i.outcome .hBXNN
  | .i00CN _ => .handler .h00CN
  | .i00E0 => .handler .h00E0
  | .i00FB => .handler .h00FB
  | .i00FC => .handler .h00FC
  | .i00FD => .handler .h00FD
  | .i00FE => .handler .h00FE
  | .i00FF => .handler .h00FF
  | .iDxyN .. => .handler .hDxyN
  | .iFx18 _ => .handler .hFx18
  | .iFx29 _ => .handler .hFx29
  | .iFx30 _ => .handler .hFx30
  | .iFN75 _ => .handler .hFN75
  | .iFN85 _ => .handler .hFN85
  | .skipped => .skipped

/-- A handler that is called has a comment. -/
theorem outcome_declared {i : Instruction} {h : Handler} (hi : outcome i = .handler h) :
    h ∈ (Superchip.header .hBXNN).map Declared.handler := by
  cases i
  case common i =>
    rw [Superchip.header, List.append_assoc, List.map_append, List.mem_append]
    refine (Common.declared hi).elim (fun h => .inr ?_) .inl
    rw [h]
    decide
  all_goals cases hi
  all_goals decide

/-- An error stops the machine, and a skipped opcode leaves the state as it was. -/
def decoder : Decoder 12 Members Instruction where
  virtuals := virtuals
  outcome := outcome
  header := Superchip.header .hBXNN
  declared := fun _ _ _ => outcome_declared
  stops := by
    intro i s hi
    cases i
    case common i => exact ⟨_, rfl, by rw [Common.eq_error hi]; rfl⟩
    all_goals cases hi
  skips := by
    intro i s hi
    cases i
    case common i => exact absurd hi (i.outcome_ne_skipped _)
    case skipped => rfl
    all_goals cases hi

/-- Its first branch is the one of both. -/
theorem outcome_decode0 (op : Opcode) : outcome (decode0 op) = Superchip.branch0 op := by
  unfold decode0
  split <;> rename_i hLO
  case h_8 => split <;> simp only [Superchip.branch0, *] <;> rfl
  all_goals
    simp only [Superchip.branch0, hLO]
    rfl

/-- Its last branch is the one of both. -/
theorem outcome_decodeF (op : Opcode) :
    outcome (decodeF op) = Superchip.branchF .hBXNN op := by
  unfold decodeF
  split <;> rename_i hLO
  all_goals
    simp only [Superchip.branchF, hLO]
    rfl

/-- The branch B jumps with the register its second digit names. -/
theorem outcome_decode (op : Opcode) :
    outcome (decode op) = (Superchip.switch .hBXNN).outcome op := by
  unfold decode
  split <;> rename_i hb
  all_goals simp only [Switch.outcome, hb]
  · simp only [Superchip.switch, ← outcome_decode0]
    split <;> rfl
  case h_6 => exact outcome_decodeF op
  all_goals rfl

/-- `SCHIP_LEGACY` does what its header says but for 00DN. -/
theorem complete_iff (s : SchipLegacy) :
    decoder.Complete s ↔ s.fetch.1.Cased ∧ ¬ s.fetch.1.Is00DN :=
  (Decoder.complete_iff_switch (outcome_decode s.fetch.1)).trans Superchip.complete_iff

end SchipLegacy

namespace SchipModern

/-- What the `switch` does for an instruction. -/
def outcome : Instruction → Outcome
  | .common i => i.outcome .hBNNN
  | .i00CN _ => .handler .h00CN
  | .i00E0 => .handler .h00E0
  | .i00FB => .handler .h00FB
  | .i00FC => .handler .h00FC
  | .i00FD => .handler .h00FD
  | .i00FE => .handler .h00FE
  | .i00FF => .handler .h00FF
  | .iDxyN .. => .handler .hDxyN
  | .iFx18 _ => .handler .hFx18
  | .iFx29 _ => .handler .hFx29
  | .iFx30 _ => .handler .hFx30
  | .iFN75 _ => .handler .hFN75
  | .iFN85 _ => .handler .hFN85
  | .skipped => .skipped

/-- A handler that is called has a comment. -/
theorem outcome_declared {i : Instruction} {h : Handler} (hi : outcome i = .handler h) :
    h ∈ (Superchip.header .hBNNN).map Declared.handler := by
  cases i
  case common i =>
    rw [Superchip.header, List.append_assoc, List.map_append, List.mem_append]
    refine (Common.declared hi).elim (fun h => .inr ?_) .inl
    rw [h]
    decide
  all_goals cases hi
  all_goals decide

/-- An error stops the machine, and a skipped opcode leaves the state as it was. -/
def decoder : Decoder 12 Members Instruction where
  virtuals := virtuals
  outcome := outcome
  header := Superchip.header .hBNNN
  declared := fun _ _ _ => outcome_declared
  stops := by
    intro i s hi
    cases i
    case common i => exact ⟨_, rfl, by rw [Common.eq_error hi]; rfl⟩
    all_goals cases hi
  skips := by
    intro i s hi
    cases i
    case common i => exact absurd hi (i.outcome_ne_skipped _)
    case skipped => rfl
    all_goals cases hi

/-- Its first branch is the one of both. -/
theorem outcome_decode0 (op : Opcode) : outcome (decode0 op) = Superchip.branch0 op := by
  unfold decode0
  split <;> rename_i hLO
  case h_8 => split <;> simp only [Superchip.branch0, *] <;> rfl
  all_goals
    simp only [Superchip.branch0, hLO]
    rfl

/-- Its last branch is the one of both. -/
theorem outcome_decodeF (op : Opcode) :
    outcome (decodeF op) = Superchip.branchF .hBNNN op := by
  unfold decodeF
  split <;> rename_i hLO
  all_goals
    simp only [Superchip.branchF, hLO]
    rfl

/-- The branch B jumps with `V0`. -/
theorem outcome_decode (op : Opcode) :
    outcome (decode op) = (Superchip.switch .hBNNN).outcome op := by
  unfold decode
  split <;> rename_i hb
  all_goals simp only [Switch.outcome, hb]
  · simp only [Superchip.switch, ← outcome_decode0]
    split <;> rfl
  case h_6 => exact outcome_decodeF op
  all_goals rfl

/-- `SCHIP_MODERN` does what its header says but for 00DN. -/
theorem complete_iff (s : SchipModern) :
    decoder.Complete s ↔ s.fetch.1.Cased ∧ ¬ s.fetch.1.Is00DN :=
  (Decoder.complete_iff_switch (outcome_decode s.fetch.1)).trans Superchip.complete_iff

end SchipModern

end CubeChip
