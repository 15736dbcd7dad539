import CubeChip.Systems.Chip8.Common
import CubeChip.Systems.Chip8.Traced

/-!
# Random numbers

The generator of a core is seeded from outside, and CxNN hands its numbers to the program.
`IgnoresRng` is what a core shows of everything else: its other instructions, its output and its
reset do the same whatever the generator is, and leave it alone. A run that never executes CxNN
is then the same with any generator, and one that does takes the numbers of the generator in
their order, each of them once (`DrawsInOrder`).
-/

namespace CubeChip

/-- The shared instruction that asks for a random number. -/
def Common.draws : Common → Bool
  | .iCxNN _ _ => true
  | _ => false

namespace Common

variable {op : Opcode}

/-- No opcode of the branch 5 draws. -/
theorem draws_decode5 : (decode5 op).draws = false := by
  unfold decode5
  split <;> rfl

/-- Nor does one of the branch 8. -/
theorem draws_decode8 : (decode8 op).draws = false := by
  unfold decode8
  split <;> rfl

/-- Nor does one of the branch E. -/
theorem draws_decodeE : (decodeE op).draws = false := by
  unfold decodeE
  split <;> rfl

/-- Nor does one of the branch F. -/
theorem draws_decodeF : (decodeF op).draws = false := by
  unfold decodeF
  split <;> rfl

/-- The branch C draws, and no other that the cores share does. -/
theorem branch_of_draws_decode (h : (decode op).draws = true) : op.branch.val = 0xC := by
  unfold decode at h
  split at h
  case h_7 => exact absurd h (Bool.eq_false_iff.1 draws_decode8)
  case h_8 => split at h <;> cases h
  case h_10 hbranch => exact hbranch
  all_goals cases h

/-- The branch C is CxNN, with the register and the mask of the opcode. -/
theorem decode_of_branch (h : op.branch.val = 0xC) : decode op = .iCxNN op.X op.LO := by
  simp only [decode, h]

end Common

namespace Cpu

/-- The processor with another generator. -/
def withRng (r : Well512) (c : Cpu) : Cpu := { c with rng := r }

/-- The quirk of the logical operations. -/
theorem resetVf_withRng (quirk : Bool) (r : Well512) (c : Cpu) :
    (c.withRng r).resetVf quirk = (c.resetVf quirk).withRng r := by
  unfold resetVf
  split <;> rfl

/-- The quirk of the shifts. -/
theorem loadShifted_withRng (inPlace : Bool) (X Y : Fin 16) (r : Well512) (c : Cpu) :
    (c.withRng r).loadShifted inPlace X Y = (c.loadShifted inPlace X Y).withRng r := by
  unfold loadShifted
  split <;> rfl

/-- `Fx65`, register by register. -/
theorem loadRegisters_withRng {bits : Nat} (N : Fin 16) (m : MirroredMemory bits) (r : Well512)
    (c : Cpu) : (c.withRng r).loadRegisters N m = (c.loadRegisters N m).withRng r := by
  unfold loadRegisters
  exact List.foldl_hom (withRng r) (fun _ _ => rfl)

/-- A press that is caught writes a register. -/
theorem catchPress_withRng (frameCount : UInt32) (r : Well512) (c : Cpu) :
    (c.withRng r).catchPress frameCount =
      ((c.catchPress frameCount).1, (c.catchPress frameCount).2.withRng r) := by
  have hkeypad : (c.withRng r).keypad = c.keypad := rfl
  unfold catchPress
  rw [hkeypad]
  rcases c.keypad.catchPress frameCount with ⟨pressed, keypad, written⟩
  cases written <;> rfl

end Cpu

namespace IFamily

/-- The same base with another generator. -/
def withRng (r : Well512) (s : IFamily) : IFamily := { s with rng := r }

/-- A frame begins without the generator. -/
theorem prepareFrame_withRng (keys : Scancode → Bool) (r : Well512) (s : IFamily) :
    (s.withRng r).prepareFrame keys = (s.prepareFrame keys).withRng r :=
  handlePreWorkInterrupts_comm (withRng r) (fun _ => ⟨rfl, rfl, rfl⟩) (fun _ => rfl)
    (fun _ => rfl) ((s.updateKeypadData keys).handleTimerTicks)

/-- And leaves it as it is. -/
theorem rng_prepareFrame (keys : Scancode → Bool) (s : IFamily) :
    (s.prepareFrame keys).rng = s.rng := congrArg (·.rng) (prepareFrame_withRng keys s.rng s)

/-- A frame ends without the generator. -/
theorem handlePostWorkInterrupts_withRng (r : Well512) (s : IFamily) :
    (s.withRng r).handlePostWorkInterrupts = s.handlePostWorkInterrupts.withRng r := by
  have hint : (s.withRng r).interrupt = s.interrupt := rfl
  have hcatch : (s.withRng r).toCpu.catchPress (s.withRng r).elapsedFrames = _ :=
    Cpu.catchPress_withRng s.elapsedFrames r s.toCpu
  unfold handlePostWorkInterrupts
  rw [hint, hcatch]
  cases s.interrupt with
  | input =>
      dsimp only
      split <;> rfl
  | _ => rfl

/-- And leaves it as it is. -/
theorem rng_handlePostWorkInterrupts (s : IFamily) : s.handlePostWorkInterrupts.rng = s.rng :=
  congrArg (·.rng) (handlePostWorkInterrupts_withRng s.rng s)

end IFamily

namespace Core

variable {bits : Nat} {Own Instruction : Type}

/-- The core with another generator. -/
def withRng (r : Well512) (s : Core bits Own) : Core bits Own := { s with rng := r }

/-- The shared instructions but CxNN. -/
theorem executeCommon_withRng (cfg : Common.Config) (r : Well512) {i : Common}
    (h : i.draws = false) (s : Core bits Own) :
    (s.withRng r).executeCommon cfg i = (s.executeCommon cfg i).withRng r := by
  have honCpu {f : Cpu → Cpu} (hf : f (s.toCpu.withRng r) = (f s.toCpu).withRng r) :
      (s.withRng r).onCpu f = (s.onCpu f).withRng r :=
    congrArg (fun c => ({ s with toCpu := c } : Core bits Own)) hf
  cases i with
  | iCxNN X NN => exact nomatch h
  | i8xy0 X Y | i8xy1 X Y | i8xy2 X Y | i8xy3 X Y =>
      exact honCpu (Cpu.resetVf_withRng _ r (s.toCpu.setV X _))
  | i8xy6 X Y =>
      exact honCpu (by
        unfold Cpu.instruction8xy6
        rw [Cpu.loadShifted_withRng]
        rfl)
  | i8xyE X Y =>
      exact honCpu (by
        unfold Cpu.instruction8xyE
        rw [Cpu.loadShifted_withRng]
        rfl)
  | iFN65 N =>
      exact congrArg (fun c => ({ s with toCpu := c.advanceI (cfg.indexOffset N) } : Core bits Own))
        (Cpu.loadRegisters_withRng N s.memory r s.toCpu)
  | _ => rfl

/-- What is in the file does not depend on the generator. -/
theorem getPermaregs_withRng (count : Nat) (r : Well512) (s : Core bits Own) :
    (s.withRng r).getPermaregs count = (s.getPermaregs count).map (withRng r) := by
  unfold getPermaregs
  rw [Option.map_map]
  rfl

/-- What a core shows to have nothing but CxNN that takes random numbers. -/
structure IgnoresRng (V : Virtuals bits Own Instruction) (draws : Instruction → Bool) : Prop where
  enterLoop : ∀ r s, V.enterLoop (s.withRng r) = (V.enterLoop s).withRng r
  decode : ∀ r s op, V.decode (s.withRng r) op = V.decode s op
  execute : ∀ r i s, draws i = false →
    V.execute i (s.withRng r) = (V.execute i s).map (withRng r)
  pushAudioData : ∀ r input s,
    V.pushAudioData input (s.withRng r) = (V.pushAudioData input s).withRng r
  pushVideoData : ∀ r s, V.pushVideoData (s.withRng r) = (V.pushVideoData s).withRng r
  resetSystemData : ∀ r s, V.resetSystemData (s.withRng r) = (V.resetSystemData s).withRng r

namespace IgnoresRng

variable {V : Virtuals bits Own Instruction} {draws : Instruction → Bool}

/-- A pass of the loop that does not draw. -/
theorem cycle (h : IgnoresRng V draws) (r : Well512) {s : Core bits Own}
    (hs : draws (current V s) = false) :
    cycle V (s.withRng r) = (cycle V s).map (withRng r) := by
  have hcurrent : current V (s.withRng r) = current V s := h.decode r s.fetch.2 s.fetch.1
  have hfetch : (s.withRng r).fetch.2 = s.fetch.2.withRng r := rfl
  unfold Core.cycle
  rw [hcurrent, hfetch]
  exact h.execute r _ _ hs

/-- **Side by side** with any generator, as long as no random number is asked for. -/
theorem paired (h : IgnoresRng V draws) (r : Well512) :
    Paired V V (fun s t => t = s.withRng r) (fun s => draws (current V s) = false) Eq where
  availQuirks := rfl
  slices := fun _ _ hij => hij ▸ rfl
  books := by rintro s _ rfl; exact ⟨rfl, rfl⟩
  withBooks := by rintro b s _ rfl; rfl
  enterLoop := by
    rintro s _ rfl
    exact ⟨h.enterLoop r s, by rw [h.enterLoop]; rfl⟩
  cycle := by
    rintro s _ rfl hs -
    rw [h.cycle r hs]
    cases Core.cycle V s with
    | none => exact .none
    | some t => exact .some rfl
  prepareFrame := by
    rintro i _ s _ rfl rfl
    exact congrArg (fun F => ({ s with toIFamily := F } : Core bits Own))
      (IFamily.prepareFrame_withRng i.keys r s.toIFamily)
  handlePostWorkInterrupts := by
    rintro s _ rfl
    exact congrArg (fun F => ({ s with toIFamily := F } : Core bits Own))
      (IFamily.handlePostWorkInterrupts_withRng r s.toIFamily)
  pushAudioData := by rintro i _ s _ rfl rfl; exact h.pushAudioData r i s
  pushVideoData := by rintro s _ rfl; exact h.pushVideoData r s
  performInstanceReset := by
    rintro s _ rfl
    exact h.resetSystemData r (s.onFamily .resetInstance)
  editMemory := by rintro address value s _ rfl; rfl

/-- **A run** and the instructions of it. -/
theorem run (h : IgnoresRng V draws) (r : Well512) (s : Core bits Own) (events : List Event)
    (hdraws : ∀ u ∈ instructionStarts V s events, draws (current V u) = false) :
    Runs.run (step V) (s.withRng r) events = (Runs.run (step V) s events).map (withRng r) ∧
      instructionStarts V (s.withRng r) events =
        (instructionStarts V s events).map (withRng r) := by
  obtain ⟨hrun, hstarts⟩ := (h.paired r).run
    (List.forall₂_same.2 fun e _ => SameEvent.refl (Q := Eq) (fun _ => rfl) e) rfl hdraws
  constructor
  · revert hrun
    generalize Runs.run (step V) (s.withRng r) events = t
    generalize Runs.run (step V) s events = u
    rintro (heq | -)
    · exact congrArg some heq
    · rfl
  · have hmap := List.forall₂_map_left_iff (f := withRng r) |>.2
      (hstarts.imp fun _ _ heq => heq.symm)
    exact (List.forall₂_eq_eq_eq ▸ hmap).symm

end IgnoresRng

/-! ## The numbers of a run -/

/-- What a core shows to take a number at the opcodes of branch C and at no other. -/
structure DrawsInOrder (V : Virtuals bits Own Instruction) (draws : Instruction → Bool) : Prop
    extends IgnoresRng V draws where
  branch : ∀ s op, draws (V.decode s op) = true → op.branch.val = 0xC
  draws : ∀ s op, op.branch.val = 0xC → draws (V.decode s op) = true
  draw : ∀ s op, op.branch.val = 0xC →
    ∀ t, V.execute (V.decode s op) t = some (t.onCpu (.instructionCxNN op.X op.LO))

/-- The generator after the instruction at PC. -/
def rngAfter (V : Virtuals bits Own Instruction) (draws : Instruction → Bool)
    (s : Core bits Own) : Well512 := if draws (current V s) then s.rng.next.2 else s.rng

namespace DrawsInOrder

variable {V : Virtuals bits Own Instruction} {draws : Instruction → Bool} {s s' : Core bits Own}

/-- The generator along a list of states. -/
abbrev Drawn (V : Virtuals bits Own Instruction) (draws : Instruction → Bool) :
    Well512 → List (Core bits Own) → Well512 → Prop :=
  Traced (fun s : Core bits Own => s.rng) (rngAfter V draws)

/-- What the next instruction is, by its branch. -/
theorem draws_current (h : DrawsInOrder V draws) (s : Core bits Own) :
    draws (current V s) = decide (s.fetch.1.branch.val = 0xC) :=
  Bool.eq_iff_iff.2 ((Iff.intro (h.branch _ _) (h.draws _ _)).trans decide_eq_true_iff.symm)

/-- CxNN, with the register and the mask of its opcode. -/
theorem cycle_of_branch (h : DrawsInOrder V draws) (hbranch : s.fetch.1.branch.val = 0xC) :
    Core.cycle V s = some (s.fetch.2.onCpu (.instructionCxNN s.fetch.1.X s.fetch.1.LO)) :=
  h.draw s.fetch.2 s.fetch.1 hbranch s.fetch.2

/-- An instruction. -/
theorem rng_cycle (h : DrawsInOrder V draws) (hstep : cycle V s = some s') :
    s'.rng = rngAfter V draws s := by
  unfold rngAfter
  cases hdraws : draws (current V s) with
  | false =>
      have hcycle := h.toIgnoresRng.cycle s.rng hdraws
      rw [show s.withRng s.rng = s from rfl, hstep] at hcycle
      exact congrArg (·.rng) (Option.some.inj hcycle)
  | true =>
      rw [h.cycle_of_branch (h.branch _ _ hdraws)] at hstep
      cases hstep
      rfl

/-- The generator follows the instructions a frame starts. -/
theorem traceKept (h : DrawsInOrder V draws) :
    TraceKept V (fun s : Core bits Own => s.rng) (rngAfter V draws) where
  withBooks := fun _ _ => rfl
  prepareFrame := fun keys s => IFamily.rng_prepareFrame keys s.toIFamily
  handlePostWorkInterrupts := fun s => IFamily.rng_handlePostWorkInterrupts s.toIFamily
  enterLoop := fun s => congrArg (·.rng) (h.enterLoop s.rng s)
  cycle := fun _ _ => h.rng_cycle
  pushAudioData := fun input s => congrArg (·.rng) (h.pushAudioData s.rng input s)
  pushVideoData := fun s => congrArg (·.rng) (h.pushVideoData s.rng s)

/-- A reset leaves the generator where it is. -/
theorem rng_workerReset (h : DrawsInOrder V draws) (s : Core bits Own) :
    (workerReset V s).rng = s.rng := by
  unfold Core.workerReset
  split
  · exact congrArg (·.rng) (h.resetSystemData s.rng (s.onFamily .resetInstance))
  · rfl

/-- So does the GUI thread. -/
theorem rng_guiStep (op : GuiOp) (s : Core bits Own) : (guiStep V op s).rng = s.rng := by
  cases op with
  | tryPauseSystem | toggleQuirk flag => unfold guiStep; dsimp only; split <;> rfl
  | _ => rfl

/-- **A run** and the instructions of it. -/
theorem run (h : DrawsInOrder V draws) {events : List Event}
    (hrun : Runs.run (step V) s events = some s') :
    Drawn V draws s.rng (instructionStarts V s events) s'.rng := by
  refine h.traceKept.run (fun x _ hframe t ht => ?_) hrun
  obtain ⟨u, e⟩ := x
  cases e with
  | frame input => exact nomatch hframe
  | reset => cases ht; exact h.rng_workerReset u
  | gui op => cases ht; exact rng_guiStep op u
  | host host => cases ht; rfl

end DrawsInOrder

end Core

end CubeChip
