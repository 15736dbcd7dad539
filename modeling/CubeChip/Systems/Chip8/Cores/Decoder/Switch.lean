import CubeChip.Systems.Chip8.Common

/-!
# Headers and switches

Each header declares the handlers of its core, most of them under a comment that names their
opcode. The `switch` of `instruction_loop` should run one of them or report an error for every
opcode, and run the one a comment names for the opcodes it names. The switches agree in most of
their branches, so what they come to there is said once.
-/

namespace CubeChip

open CubeChip.Core

/-! ## The digits of an opcode -/

namespace Opcode

/-- A byte is its two digits. -/
theorem byte_digits : ∀ n < 256, n = 16 * ((n >>> 4) % 16) + (n &&& 15) % 16 := by decide +kernel

/-- The high byte, by its digits. -/
theorem HI_toNat (op : Opcode) : op.HI.toNat = 16 * op.branch.val + op.X.val := by
  have hHI := byte_digits op.HI.toNat op.HI.toNat_lt
  simp only [branch, X, Fin.val_ofNat, UInt8.toNat_shiftRight, UInt8.toNat_and]
  exact hHI

/-- The low byte, by its digits. -/
theorem LO_toNat (op : Opcode) : op.LO.toNat = 16 * op.Y.val + op.N.val := by
  have hLO := byte_digits op.LO.toNat op.LO.toNat_lt
  simp only [Y, N, Fin.val_ofNat, UInt8.toNat_shiftRight, UInt8.toNat_and]
  exact hLO

end Opcode

/-! ## Headers -/

/-- The handlers the headers declare. -/
inductive Handler where
  | h00CN | h00DN | h00E0 | h00ED | h00EE | h00F2 | h00FB | h00FC | h00FD | h00FE | h00FF
  | h0151 | h0188 | h1NNN | h2NNN | h3xNN | h4xNN | h5xy0 | h5xy1 | h5xy2 | h5xy3 | h5xy4
  | h6xNN | h7xNN | h8xy0 | h8xy1 | h8xy2 | h8xy3 | h8xy4 | h8xy5 | h8xy6 | h8xy7 | h8xyE
  | h9xy0 | hANNN | hBNNN | hBXNN | hBBNN | hBFNN | hCxNN | hDxyN | hEx9E | hExA1 | hF000
  | hF002 | hFN01 | hFx03 | hFx07 | hFx0A | hFx15 | hFx18 | hFx1B | hFx1E | hFx29 | hFx30
  | hFx33 | hFx3A | hFx4F | hFN55 | hFN65 | hFN75 | hFN85 | hFxE3 | hFxE7
deriving DecidableEq, Repr

/-- What an iteration of `instruction_loop` comes to: a handler, `instruction_error`, or no
`case` at all. -/
inductive Outcome where
  | handler (h : Handler)
  | error
  | skipped
deriving DecidableEq, Repr

/-- A digit in the name of an opcode; the letters stand for any. -/
inductive Digit where
  | is (d : Nat)
  | any
deriving DecidableEq, Repr

instance (n : Nat) : OfNat Digit n := ⟨.is n⟩

/-- A digit of a name and one of an opcode. -/
def Digit.Fits : Digit → Fin 16 → Prop
  | .is d, n => n.val = d
  | .any, _ => True

/-- The name of an opcode. -/
structure OpcodeName where
  branch : Digit
  X : Digit
  Y : Digit
  N : Digit

/-- An opcode has the four digits of a name. -/
structure OpcodeName.Names (name : OpcodeName) (op : Opcode) : Prop where
  branch : name.branch.Fits op.branch
  X : name.X.Fits op.X
  Y : name.Y.Fits op.Y
  N : name.N.Fits op.N

/-- A handler a header declares, and the opcode named above it. -/
structure Declared where
  name : OpcodeName
  handler : Handler

section

open Digit

/-- What the headers have in common, but for the jump of the branch B: the opcodes named in
full, by their branch, by the branch and the last digit, and by the branch and `LO`. -/
def namedInFull : List Declared :=
  [⟨⟨0x0, 0x0, 0xE, 0x0⟩, .h00E0⟩, ⟨⟨0x0, 0x0, 0xE, 0xE⟩, .h00EE⟩]

/-- The comments that name a branch. -/
def namedByBranch : List Declared :=
  [⟨⟨0x1, any, any, any⟩, .h1NNN⟩, ⟨⟨0x2, any, any, any⟩, .h2NNN⟩,
    ⟨⟨0x3, any, any, any⟩, .h3xNN⟩, ⟨⟨0x4, any, any, any⟩, .h4xNN⟩,
    ⟨⟨0x6, any, any, any⟩, .h6xNN⟩, ⟨⟨0x7, any, any, any⟩, .h7xNN⟩,
    ⟨⟨0xA, any, any, any⟩, .hANNN⟩, ⟨⟨0xC, any, any, any⟩, .hCxNN⟩,
    ⟨⟨0xD, any, any, any⟩, .hDxyN⟩]

/-- The comments that name a branch and the last digit. -/
def namedByLast : List Declared :=
  [⟨⟨0x5, any, any, 0x0⟩, .h5xy0⟩, ⟨⟨0x8, any, any, 0x0⟩, .h8xy0⟩,
    ⟨⟨0x8, any, any, 0x1⟩, .h8xy1⟩, ⟨⟨0x8, any, any, 0x2⟩, .h8xy2⟩,
    ⟨⟨0x8, any, any, 0x3⟩, .h8xy3⟩, ⟨⟨0x8, any, any, 0x4⟩, .h8xy4⟩,
    ⟨⟨0x8, any, any, 0x5⟩, .h8xy5⟩, ⟨⟨0x8, any, any, 0x7⟩, .h8xy7⟩,
    ⟨⟨0x8, any, any, 0x6⟩, .h8xy6⟩, ⟨⟨0x8, any, any, 0xE⟩, .h8xyE⟩,
    ⟨⟨0x9, any, any, 0x0⟩, .h9xy0⟩]

/-- The comments on the branch E. -/
def namedE : List Declared :=
  [⟨⟨0xE, any, 0x9, 0xE⟩, .hEx9E⟩, ⟨⟨0xE, any, 0xA, 0x1⟩, .hExA1⟩]

/-- The comments on the branch F that every header has. -/
def namedF : List Declared :=
  [⟨⟨0xF, any, 0x0, 0x7⟩, .hFx07⟩, ⟨⟨0xF, any, 0x0, 0xA⟩, .hFx0A⟩,
    ⟨⟨0xF, any, 0x1, 0x5⟩, .hFx15⟩, ⟨⟨0xF, any, 0x1, 0x8⟩, .hFx18⟩,
    ⟨⟨0xF, any, 0x1, 0xE⟩, .hFx1E⟩, ⟨⟨0xF, any, 0x2, 0x9⟩, .hFx29⟩,
    ⟨⟨0xF, any, 0x3, 0x3⟩, .hFx33⟩, ⟨⟨0xF, any, 0x5, 0x5⟩, .hFN55⟩,
    ⟨⟨0xF, any, 0x6, 0x5⟩, .hFN65⟩]

/-- The comments all headers share. -/
def standard : List Declared := namedInFull ++ namedByBranch ++ namedByLast ++ namedE ++
  namedF

/-- What the headers of the SUPERCHIP cores add: the comment over `instruction_00CN` says
00DN. -/
def scrollDown : Declared := ⟨⟨0x0, 0x0, 0xD, any⟩, .h00CN⟩

/-- The words the SUPERCHIP headers name. -/
def superchipInFull : List Declared :=
  [⟨⟨0x0, 0x0, 0xF, 0xB⟩, .h00FB⟩, ⟨⟨0x0, 0x0, 0xF, 0xC⟩, .h00FC⟩,
    ⟨⟨0x0, 0x0, 0xF, 0xD⟩, .h00FD⟩, ⟨⟨0x0, 0x0, 0xF, 0xE⟩, .h00FE⟩,
    ⟨⟨0x0, 0x0, 0xF, 0xF⟩, .h00FF⟩]

/-- The comments on the branch F that the SUPERCHIP headers add. -/
def superchipF : List Declared :=
  [⟨⟨0xF, any, 0x3, 0x0⟩, .hFx30⟩, ⟨⟨0xF, any, 0x7, 0x5⟩, .hFN75⟩,
    ⟨⟨0xF, any, 0x8, 0x5⟩, .hFN85⟩]

/-- What the SUPERCHIP headers add. -/
def superchip : List Declared := scrollDown :: (superchipInFull ++ superchipF)

/-- The jump of the branch B, whatever it adds to NNN. -/
def jumpOf (jump : Handler) : Declared := ⟨⟨0xB, any, any, any⟩, jump⟩

end

/-! ## Decoders -/

/-- The handler of a shared instruction; `jump` is the one of the branch B. -/
def Common.outcome (jump : Handler) : Common → Outcome
  | .i00EE => .handler .h00EE
  | .i1NNN _ => .handler .h1NNN
  | .i2NNN _ => .handler .h2NNN
  | .i3xNN .. => .handler .h3xNN
  | .i4xNN .. => .handler .h4xNN
  | .i5xy0 .. => .handler .h5xy0
  | .i6xNN .. => .handler .h6xNN
  | .i7xNN .. => .handler .h7xNN
  | .i8xy0 .. => .handler .h8xy0
  | .i8xy1 .. => .handler .h8xy1
  | .i8xy2 .. => .handler .h8xy2
  | .i8xy3 .. => .handler .h8xy3
  | .i8xy4 .. => .handler .h8xy4
  | .i8xy5 .. => .handler .h8xy5
  | .i8xy7 .. => .handler .h8xy7
  | .i8xy6 .. => .handler .h8xy6
  | .i8xyE .. => .handler .h8xyE
  | .i9xy0 .. => .handler .h9xy0
  | .iANNN _ => .handler .hANNN
  | .iBXNN .. => .handler jump
  | .iCxNN .. => .handler .hCxNN
  | .iEx9E _ => .handler .hEx9E
  | .iExA1 _ => .handler .hExA1
  | .iFx07 _ => .handler .hFx07
  | .iFx0A _ => .handler .hFx0A
  | .iFx15 _ => .handler .hFx15
  | .iFx1E _ => .handler .hFx1E
  | .iFx33 _ => .handler .hFx33
  | .iFN55 _ => .handler .hFN55
  | .iFN65 _ => .handler .hFN65
  | .error => .error

/-- A shared instruction is never passed over. -/
theorem Common.outcome_ne_skipped (jump : Handler) (i : Common) : i.outcome jump ≠ .skipped := by
  cases i <;> exact Outcome.noConfusion

/-- Only `instruction_error` is one. -/
theorem Common.eq_error {jump : Handler} {i : Common} (h : i.outcome jump = .error) :
    i = .error := by
  cases i <;> first | rfl | cases h

/-- The shared handlers are declared in every header. -/
theorem Common.declared {jump h : Handler} {i : Common} (hi : i.outcome jump = .handler h) :
    h = jump ∨ h ∈ standard.map Declared.handler := by
  cases i <;> cases hi
  case iBXNN => exact .inl rfl
  all_goals exact .inr (by decide)

/-- `5xy0` is shared. -/
theorem Common.outcome_decode5 {jump : Handler} {op : Opcode} (hN : op.N.val = 0) :
    (Common.decode5 op).outcome jump = .handler .h5xy0 := by
  rw [Common.decode5, if_neg (not_not.2 (Fin.ext hN))]
  rfl

/-- A core's decoder, and what its header says of it: the handlers the decoder comes to are
declared, `instruction_error` stops the machine, and a skipped opcode changes nothing. -/
structure Decoder (bits : Nat) (Own Instruction : Type) where
  virtuals : Virtuals bits Own Instruction
  outcome : Instruction → Outcome
  header : List Declared
  declared : ∀ s op h, outcome (virtuals.decode s op) = .handler h →
    h ∈ header.map Declared.handler
  stops : ∀ i s, outcome i = .error →
    ∃ s', virtuals.execute i s = some s' ∧ s'.interrupt = .error
  skips : ∀ i s, outcome i = .skipped → virtuals.execute i s = some s

namespace Decoder

variable {bits : Nat} {Own Instruction : Type}

/-- An iteration runs a declared handler or stops the machine with an error, and the opcodes a
comment names come to its handler. -/
structure Complete (D : Decoder bits Own Instruction) (s : Core bits Own) : Prop where
  handled : (∃ e ∈ D.header, D.outcome (current D.virtuals s) = .handler e.handler) ∨
    D.outcome (current D.virtuals s) = .error ∧
      ∃ s', iterate D.virtuals s = some s' ∧ s'.interrupt = .error
  named : ∀ e ∈ D.header, e.name.Names s.fetch.1 →
    D.outcome (current D.virtuals s) = .handler e.handler

variable {D : Decoder bits Own Instruction} {s : Core bits Own}

/-- What is declared by the structure leaves two things to ask. -/
theorem complete_iff : D.Complete s ↔ D.outcome (current D.virtuals s) ≠ .skipped ∧
    ∀ e ∈ D.header, e.name.Names s.fetch.1 →
      D.outcome (current D.virtuals s) = .handler e.handler := by
  refine ⟨fun h => ⟨fun hskip => ?_, h.named⟩, fun ⟨hskip, hnamed⟩ => ⟨?_, hnamed⟩⟩
  · obtain ⟨e, -, he⟩ | ⟨herror, -⟩ := h.handled
    · exact Outcome.noConfusion (hskip.symm.trans he)
    · exact Outcome.noConfusion (hskip.symm.trans herror)
  · cases houtcome : D.outcome (current D.virtuals s) with
    | handler h =>
        obtain ⟨e, he, rfl⟩ := List.mem_map.1 (D.declared _ _ _ houtcome)
        exact .inl ⟨e, he, rfl⟩
    | error =>
        obtain ⟨t, ht, herror⟩ := D.stops _ s.fetch.2 houtcome
        exact .inr ⟨rfl, _, congrArg (Option.map _) ht, herror⟩
    | skipped => exact absurd houtcome hskip

/-- A skipped opcode only moves PC. -/
theorem iterate_of_skipped (h : D.outcome (current D.virtuals s) = .skipped) :
    iterate D.virtuals s =
      some { s.fetch.2 with cycleCount := s.fetch.2.cycleCount + 1 } := by
  rw [iterate, cycle, D.skips _ _ h]
  rfl

end Decoder

namespace OpcodeName.Names

variable {b x y n : Nat} {X Y N : Digit} {op : Opcode}

/-- The branch a name gives. -/
theorem branch_eq (h : Names ⟨.is b, X, Y, N⟩ op) : op.branch.val = b := h.branch

/-- The last digit a name gives. -/
theorem N_eq (h : Names ⟨.is b, X, Y, .is n⟩ op) : op.N.val = n := h.N

/-- The high byte a name gives. -/
theorem HI_eq (h : Names ⟨.is b, .is x, Y, N⟩ op) : op.HI.toNat = 16 * b + x := by
  have hb : op.branch.val = b := h.branch
  have hx : op.X.val = x := h.X
  rw [op.HI_toNat, hb, hx]

/-- The low byte a name gives. -/
theorem LO_eq (h : Names ⟨.is b, X, .is y, .is n⟩ op) : op.LO.toNat = 16 * y + n := by
  have hy : op.Y.val = y := h.Y
  have hn : op.N.val = n := h.N
  rw [op.LO_toNat, hy, hn]

end OpcodeName.Names

/-! ## Switches -/

/-- The opcodes 00D0 to 00DF. -/
def Opcode.Is00DN (op : Opcode) : Prop := op.HI = 0 ∧ op.Y.val = 0xD

/-- 00DN is in the first branch. -/
theorem Opcode.Is00DN.branch_eq {op : Opcode} (h : op.Is00DN) : op.branch.val = 0 := by
  have hHI := op.HI_toNat
  rw [h.1, UInt8.toNat_zero] at hHI
  omega

/-- They are what the comment over `instruction_00CN` names. -/
theorem Opcode.names_scrollDown {op : Opcode} : scrollDown.name.Names op ↔ op.Is00DN := by
  refine ⟨fun h => ⟨UInt8.toNat_inj.1 h.HI_eq, h.Y⟩, fun h => ⟨h.branch_eq, ?_, h.2, trivial⟩⟩
  have hHI := op.HI_toNat
  rw [h.1, UInt8.toNat_zero] at hHI
  change op.X.val = 0
  omega

/-- Most cores have a `case` for 00 alone in the first branch. -/
def Opcode.Cased (op : Opcode) : Prop := op.branch.val = 0x0 → op.HI = 0

/-- What the `switch` over `HI` comes to; the cores differ in the branches 0, 5, B and F, and in
`jump`, the handler of the shared jump. -/
structure Switch where
  jump : Handler
  branch0 : Opcode → Outcome
  branch5 : Opcode → Outcome
  branchB : Opcode → Outcome
  branchF : Opcode → Outcome

/-- What a `switch` makes of an opcode. -/
def Switch.outcome (w : Switch) (op : Opcode) : Outcome :=
  match op.branch.val with
  | 0x0 => w.branch0 op
  | 0x5 => w.branch5 op
  | 0xB => w.branchB op
  | 0xD => .handler .hDxyN
  | 0xE => (Common.decodeE op).outcome w.jump
  | 0xF => w.branchF op
  | _ => (Common.decode op).outcome w.jump

/-- The same of the `switch` alone. -/
theorem Decoder.complete_iff_switch {bits : Nat} {Own Instruction : Type}
    {D : Decoder bits Own Instruction} {s : Core bits Own} {w : Switch}
    (h : D.outcome (current D.virtuals s) = w.outcome s.fetch.1) :
    D.Complete s ↔ w.outcome s.fetch.1 ≠ .skipped ∧
      ∀ e ∈ D.header, e.name.Names s.fetch.1 → w.outcome s.fetch.1 = .handler e.handler := by
  rw [complete_iff, h]

/-- The branches of a core run what the headers have in common, and skip nothing in 5 and F. -/
structure Switch.Standard (w : Switch) : Prop where
  branch0 : ∀ op, ∀ e ∈ namedInFull, e.name.Names op → w.branch0 op = .handler e.handler
  branch5 : ∀ op, op.N.val = 0 → w.branch5 op = .handler .h5xy0
  branchF : ∀ op, ∀ e ∈ namedF, e.name.Names op → w.branchF op = .handler e.handler
  branch5_ne_skipped : ∀ op, w.branch5 op ≠ .skipped
  branchF_ne_skipped : ∀ op, w.branchF op ≠ .skipped

namespace Switch.Standard

variable {w : Switch} (hw : w.Standard) {op : Opcode}
include hw

/-- A comment all headers share names opcodes of its handler. -/
theorem named {e : Declared} (he : e ∈ standard) (hn : e.name.Names op) :
    w.outcome op = .handler e.handler := by
  simp only [standard, List.mem_append, or_assoc] at he
  rcases he with he | he | he | he | he
  · have hzero := hw.branch0 op e he hn
    simp only [namedInFull, List.mem_cons, List.not_mem_nil, or_false] at he
    rcases he with rfl | rfl
    all_goals
      simp only [Switch.outcome, hn.branch_eq]
      exact hzero
  · simp only [namedByBranch, List.mem_cons, List.not_mem_nil, or_false] at he
    rcases he with rfl | rfl | rfl | rfl | rfl | rfl | rfl | rfl | rfl
    all_goals simp only [Switch.outcome, Common.decode, hn.branch_eq]
    all_goals rfl
  · simp only [namedByLast, List.mem_cons, List.not_mem_nil, or_false] at he
    obtain rfl | he := he
    · simp only [Switch.outcome, hn.branch_eq]
      exact hw.branch5 op hn.N_eq
    rcases he with rfl | rfl | rfl | rfl | rfl | rfl | rfl | rfl | rfl | rfl
    all_goals
      simp only [Switch.outcome, Common.decode, Common.decode8, hn.branch_eq, hn.N_eq, ne_eq,
        Fin.ext_iff, Fin.val_zero, not_true_eq_false, reduceIte]
      rfl
  · simp only [namedE, List.mem_cons, List.not_mem_nil, or_false] at he
    rcases he with rfl | rfl
    all_goals
      simp only [Switch.outcome, Common.decodeE, hn.branch_eq, hn.LO_eq, Nat.reduceMul,
        Nat.reduceAdd]
      rfl
  · have hlast := hw.branchF op e he hn
    simp only [namedF, List.mem_cons, List.not_mem_nil, or_false] at he
    rcases he with rfl | rfl | rfl | rfl | rfl | rfl | rfl | rfl | rfl
    all_goals
      simp only [Switch.outcome, hn.branch_eq]
      exact hlast

/-- Only the branches 0 and B skip. -/
theorem skipped_iff : w.outcome op = .skipped ↔
    op.branch.val = 0x0 ∧ w.branch0 op = .skipped ∨
      op.branch.val = 0xB ∧ w.branchB op = .skipped := by
  unfold Switch.outcome
  split
  case h_1 hb => simp [hb]
  case h_2 hb => simp [hb, hw.branch5_ne_skipped op]
  case h_3 hb => simp [hb]
  case h_4 hb => simp [hb]
  case h_5 hb => simp [hb, Common.outcome_ne_skipped]
  case h_6 hb => simp [hb, hw.branchF_ne_skipped op]
  case h_7 h0 _ hB _ _ _ =>
    refine iff_of_false (Common.outcome_ne_skipped _ _) ?_
    rintro (⟨hb, -⟩ | ⟨hb, -⟩)
    exacts [h0 hb, hB hb]

/-- Where the first branch alone passes opcodes over, `Cased` says which. -/
theorem skipped_iff_not_cased (h0 : ∀ op, w.branch0 op = .skipped ↔ op.HI ≠ 0)
    (hB : ∀ op, w.branchB op ≠ .skipped) : w.outcome op = .skipped ↔ ¬ op.Cased := by
  rw [hw.skipped_iff, h0, or_iff_left fun h => hB op h.2, Opcode.Cased, Classical.not_imp]

end Switch.Standard

end CubeChip
