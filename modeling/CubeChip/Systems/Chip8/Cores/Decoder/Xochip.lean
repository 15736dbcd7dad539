import CubeChip.Systems.Chip8.Cores.Decoder.Switch
import CubeChip.Systems.Chip8.Cores.Xochip

/-!
# The decoder of `XOCHIP`

Its header names 00DN twice, over `instruction_00CN` and over `instruction_00DN`.
-/

namespace CubeChip

namespace Xochip

/-- What the `switch` does for an instruction. -/
def outcome : Instruction → Outcome
  | .common i => i.outcome .hBNNN
  | .i00CN _ => .handler .h00CN
  | .i00DN _ => .handler .h00DN
  | .i00E0 => .handler .h00E0
  | .i00FB => .handler .h00FB
  | .i00FC => .handler .h00FC
  | .i00FD => .handler .h00FD
  | .i00FE => .handler .h00FE
  | .i00FF => .handler .h00FF
  | .i5xy2 .. => .handler .h5xy2
  | .i5xy3 .. => .handler .h5xy3
  | .i5xy4 .. => .handler .h5xy4
  | .iDxyN .. => .handler .hDxyN
  | .iF000 => .handler .hF000
  | .iF002 => .handler .hF002
  | .iFN01 _ => .handler .hFN01
  | .iFx18 _ => .handler .hFx18
  | .iFx29 _ => .handler .hFx29
  | .iFx30 _ => .handler .hFx30
  | .iFx3A _ => .handler .hFx3A
  | .iFN75 _ => .handler .hFN75
  | .iFN85 _ => .handler .hFN85
  | .skipped => .skipped

section

open Digit

/-- The comment over `instruction_00DN` names its own opcode, the one over `instruction_00CN`
as well. -/
def scrollUp : Declared := ⟨⟨0x0, 0x0, 0xD, any⟩, .h00DN⟩

/-- The register ranges and the palette of the branch 5. -/
def ranges : List Declared :=
  [⟨⟨0x5, any, any, 0x2⟩, .h5xy2⟩, ⟨⟨0x5, any, any, 0x3⟩, .h5xy3⟩,
    ⟨⟨0x5, any, any, 0x4⟩, .h5xy4⟩]

/-- The two words with the high byte F0. -/
def wordsF0 : List Declared :=
  [⟨⟨0xF, 0x0, 0x0, 0x0⟩, .hF000⟩, ⟨⟨0xF, 0x0, 0x0, 0x2⟩, .hF002⟩]

/-- The planes and the pitch. -/
def wordsF : List Declared :=
  [⟨⟨0xF, any, 0x0, 0x1⟩, .hFN01⟩, ⟨⟨0xF, any, 0x3, 0xA⟩, .hFx3A⟩]

end

/-- The comments of the header. -/
def header : List Declared :=
  standard ++ superchip ++ [jumpOf .hBNNN, scrollUp] ++ ranges ++ wordsF0 ++ wordsF

/-- A handler that is called has a comment. -/
theorem outcome_declared {i : Instruction} {h : Handler} (hi : outcome i = .handler h) :
    h ∈ header.map Declared.handler := by
  cases i
  case common i =>
    simp only [header, List.append_assoc]
    rw [List.map_append, List.mem_append]
    refine (Common.declared hi).elim (fun h => .inr ?_) .inl
    rw [h]
    decide
  all_goals cases hi
  all_goals decide

/-- An error stops the machine, and a skipped opcode leaves the state as it was. -/
def decoder : Decoder 16 Members Instruction where
  virtuals := virtuals
  outcome := outcome
  header := header
  declared := fun _ _ _ => outcome_declared
  stops := by
    intro i s hi
    cases i
    case common i => exact ⟨_, rfl, by rw [Common.eq_error hi]; rfl⟩
    all_goals cases hi
  skips := by
    intro i s hi
    cases i
    case common i => exact absurd hi (i.outcome_ne_skipped _)
    case skipped => rfl
    all_goals cases hi

/-- The cases of `instruction_decode` where the cores differ. -/
def switch : Switch where
  jump := .hBNNN
  branch0 := fun op => if op.HI = 0 then outcome (decode0 op) else .skipped
  branch5 := fun op => outcome (decode5 op)
  branchB := fun _ => .handler .hBNNN
  branchF := fun op => outcome (decodeF op)

/-- `decode` runs through those cases. -/
theorem outcome_decode (op : Opcode) : outcome (decode op) = switch.outcome op := by
  unfold decode
  split <;> rename_i hb
  all_goals simp only [Switch.outcome, hb]
  · simp only [switch]
    split <;> rfl
  all_goals rfl

/-- The opcodes of the branch F but for F000 and F002. -/
theorem decodeF_of_LO {op : Opcode} {LO : Nat} (hLO : op.LO.toNat = LO) (h0 : LO ≠ 0x00)
    (h2 : LO ≠ 0x02) : decodeF op = decodeFx op := by
  rw [decodeF, if_neg, if_neg]
  · exact fun h => h2 (hLO.symm.trans (congrArg UInt8.toNat h.2))
  · exact fun h => h0 (hLO.symm.trans (congrArg UInt8.toNat h.2))

/-- It treats what all headers name as the other cores do. -/
theorem switch_standard : switch.Standard where
  branch0 := by
    intro op e he hn
    simp only [namedInFull, List.mem_cons, List.not_mem_nil, or_false] at he
    rcases he with rfl | rfl
    all_goals
      have hHI : op.HI = 0 := UInt8.toNat_inj.1 hn.HI_eq
      simp only [switch, decode0, hHI, hn.LO_eq, reduceIte, Nat.reduceMul, Nat.reduceAdd]
      rfl
  branch5 := by
    intro op hN
    simp only [switch, decode5, hN]
    rfl
  branchF := by
    intro op e he hn
    simp only [namedF, List.mem_cons, List.not_mem_nil, or_false] at he
    rcases he with rfl | rfl | rfl | rfl | rfl | rfl | rfl | rfl | rfl
    all_goals
      simp only [switch, decodeF_of_LO hn.LO_eq (by decide) (by decide), decodeFx,
        Common.decodeF, hn.LO_eq, Nat.reduceMul, Nat.reduceAdd]
      rfl
  branch5_ne_skipped := by
    intro op
    simp only [switch, decode5]
    split <;> exact Outcome.noConfusion
  branchF_ne_skipped := by
    intro op
    simp only [switch, decodeF, decodeFx]
    split
    · exact Outcome.noConfusion
    split
    · exact Outcome.noConfusion
    split
    case h_8 => exact Common.outcome_ne_skipped _ _
    all_goals exact Outcome.noConfusion

/-- Only a high byte other than 00 in the first branch has no case. -/
theorem skipped_iff {op : Opcode} : switch.outcome op = .skipped ↔ ¬ op.Cased := by
  refine switch_standard.skipped_iff_not_cased (fun op => ?_) fun _ => Outcome.noConfusion
  simp only [switch, decode0]
  split <;> rename_i hHI
  · refine iff_of_false ?_ (not_not.2 hHI)
    split
    case h_8 =>
      split
      · exact Outcome.noConfusion
      · split <;> exact Outcome.noConfusion
    all_goals exact Outcome.noConfusion
  · exact iff_of_true rfl hHI

/-- No comment but the first over 00DN is wrong about its handler. -/
theorem named {op : Opcode} {e : Declared} (he : e ∈ header) (hdown : ¬ op.Is00DN)
    (hn : e.name.Names op) : switch.outcome op = .handler e.handler := by
  simp only [header, superchip, List.mem_append, List.mem_cons, or_assoc, List.not_mem_nil,
    or_false] at he
  rcases he with he | rfl | he | he | rfl | rfl | he | he | he
  · exact switch_standard.named he hn
  · exact absurd (Opcode.names_scrollDown.1 hn) hdown
  · simp only [superchipInFull, List.mem_cons, List.not_mem_nil, or_false] at he
    rcases he with rfl | rfl | rfl | rfl | rfl
    all_goals
      have hHI : op.HI = 0 := UInt8.toNat_inj.1 hn.HI_eq
      simp only [Switch.outcome, switch, decode0, hn.branch_eq, hHI, hn.LO_eq, reduceIte,
        Nat.reduceMul, Nat.reduceAdd]
      rfl
  · simp only [superchipF, List.mem_cons, List.not_mem_nil, or_false] at he
    rcases he with rfl | rfl | rfl
    all_goals
      simp only [Switch.outcome, switch, decodeF_of_LO hn.LO_eq (by decide) (by decide),
        decodeFx, hn.branch_eq, hn.LO_eq, Nat.reduceMul, Nat.reduceAdd]
      rfl
  · simp only [Switch.outcome, hn.branch_eq]
    rfl
  · exact absurd (Opcode.names_scrollDown.1 hn) hdown
  · simp only [ranges, List.mem_cons, List.not_mem_nil, or_false] at he
    rcases he with rfl | rfl | rfl
    all_goals
      simp only [Switch.outcome, switch, decode5, hn.branch_eq, hn.N_eq]
      rfl
  · simp only [wordsF0, List.mem_cons, List.not_mem_nil, or_false] at he
    rcases he with rfl | rfl
    · have hHI : op.HI = 0xF0 := UInt8.toNat_inj.1 hn.HI_eq
      have hLO : op.LO = 0x00 := UInt8.toNat_inj.1 hn.LO_eq
      simp only [Switch.outcome, switch, decodeF, hn.branch_eq, hHI, hLO]
      rfl
    · have hHI : op.HI = 0xF0 := UInt8.toNat_inj.1 hn.HI_eq
      have hLO : op.LO = 0x02 := UInt8.toNat_inj.1 hn.LO_eq
      simp only [Switch.outcome, switch, decodeF, hn.branch_eq, hHI, hLO]
      rfl
  · simp only [wordsF, List.mem_cons, List.not_mem_nil, or_false] at he
    rcases he with rfl | rfl
    all_goals
      simp only [Switch.outcome, switch, decodeF_of_LO hn.LO_eq (by decide) (by decide),
        decodeFx, hn.branch_eq, hn.LO_eq, Nat.reduceMul, Nat.reduceAdd]
      rfl

/-- Two handlers cannot both run. -/
theorem complete_iff (s : Xochip) :
    decoder.Complete s ↔ s.fetch.1.Cased ∧ ¬ s.fetch.1.Is00DN := by
  rw [Decoder.complete_iff_switch (outcome_decode s.fetch.1)]
  constructor
  · rintro ⟨hskip, hnamed⟩
    refine ⟨not_not.1 fun h => hskip (skipped_iff.2 h), fun h => ?_⟩
    have hnames := Opcode.names_scrollDown.2 h
    have hdown := hnamed scrollDown (by simp [decoder, header, superchip]) hnames
    have hup := hnamed scrollUp (by simp [decoder, header]) hnames
    exact absurd (hdown.symm.trans hup) (by decide)
  · rintro ⟨hcased, hdown⟩
    exact ⟨fun h => skipped_iff.1 h hcased, fun e he hn => named he hdown hn⟩

end Xochip

end CubeChip
