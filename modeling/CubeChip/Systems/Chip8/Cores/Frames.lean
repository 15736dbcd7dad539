import CubeChip.Systems.Chip8.Cores.Held

/-!
# Frames and cycles of each core

What the statistics of a core rest on: the cycle count is the number of instructions of the frame,
which is the number a frame has, unless an interrupt came, and the frame counters are the numbers
of frames since the last reset and since BENCH mode was entered.
-/

namespace CubeChip

open CubeChip.Core

/-- A core counts from 0. -/
theorem FamilyCore.Boots.framesCounted {core : FamilyCore} {s : Core core.bits core.Own}
    (h : core.Boots s) : FramesCounted [] s := by
  cases core with
  | megachip => obtain ⟨launch, unset, rfl⟩ := h; exact ⟨rfl, rfl⟩
  | _ => obtain ⟨launch, rfl⟩ := h; exact ⟨rfl, rfl⟩

/-- **Frame counters** of every core, after every run. -/
theorem frames_counted (core : FamilyCore) (boot s : Core core.bits core.Own)
    (hboot : core.Boots boot) (events : List Event)
    (hrun : Runs.run (step core.virtuals) boot events = some s) :
    FramesCounted (Runs.taken (step core.virtuals) boot events) s :=
  Runs.run_history (I := FramesCounted) (fun _ _ _ _ hs hstep => hs.step core.heldKept hstep)
    hboot.framesCounted hrun

/-- A BENCH frame, a reset in BENCH mode, a BENCH frame, and two frames outside of it. -/
theorem frames_counted_reset :
    let boot := Chip8Modern.boot (Launch.ofProgram [0x12, 0x00])
    let events : List Event := [.gui .toggleBench, .idle, .gui .requestInstanceReset, .reset, .idle,
      .gui .toggleBench, .idle, .idle]
    ∃ s, Runs.run (step Chip8Modern.virtuals) boot events = some s ∧
      (s.elapsedFrames, s.benchedFrames) = (3, 0) ∧
      FramesCounted (Runs.taken (step Chip8Modern.virtuals) boot events) s := by
  intro boot events
  have hcounts : (Runs.run (step Chip8Modern.virtuals) boot events).map
      (fun s => (s.elapsedFrames, s.benchedFrames)) = some (3, 0) := by decide +kernel
  obtain ⟨s, hs, heq⟩ := Option.map_eq_some_iff.1 hcounts
  exact ⟨s, hs, heq, frames_counted .chip8Modern boot s ⟨_, rfl⟩ events hs⟩

/-- **The cycle loop** of every core, in every state: the cycle count is the number of the
instructions executed, and fewer than the speed says are executed only if an interrupt came, in
one pass, and in all the passes of a BENCH frame at a speed set by the debugger. -/
theorem cycles_counted (core : FamilyCore) (s t : Core core.bits core.Own) (slices : Nat)
    (hrun : executeCycleLoop core.virtuals slices s = some t) :
    t.cycleCount = UInt32.ofNat (cycleStarts core.virtuals slices s).length ∧
    (s.cachedSystemState .bench = false →
      (cycleStarts core.virtuals slices s).length ≤ (core.virtuals.enterLoop s).targetCpf.toNat ∧
        ((cycleStarts core.virtuals slices s).length =
          (core.virtuals.enterLoop s).targetCpf.toNat ∨ t.interrupt ≠ .clear)) ∧
    (s.cachedSystemState .bench = true → s.debuggerCpf ≠ 0 →
      (cycleStarts core.virtuals slices s).length ≤ (slices + 1) * s.debuggerCpf.toNat ∧
        ((cycleStarts core.virtuals slices s).length = (slices + 1) * s.debuggerCpf.toNat ∨
          t.interrupt ≠ .clear)) := by
  have hstop : running t = false → t.interrupt ≠ .clear := fun h => of_decide_eq_false h
  refine ⟨congrArg Held.cycleCount (core.heldKept.executeCycleLoop hrun), fun hbench => ?_,
    fun hbench hcpf => ?_⟩
  · unfold executeCycleLoop at hrun
    unfold cycleStarts
    rw [hbench, if_neg Bool.false_ne_true] at hrun ⊢
    obtain ⟨-, hlen⟩ := core.heldKept.instructionLoop hrun
    exact ⟨HeldKept.length_loopStarts_le s, hlen.imp id hstop⟩
  · unfold executeCycleLoop at hrun
    unfold cycleStarts
    rw [hbench, if_pos rfl] at hrun ⊢
    obtain ⟨hle, hlen⟩ := core.heldKept.length_benchStarts hbench hcpf hrun
    exact ⟨hle, hlen.imp id hstop⟩

/-- A jump to itself ends the first frame after one instruction of eleven. -/
theorem cycles_counted_jump :
    let s := Chip8Modern.boot (Launch.ofProgram [0x12, 0x00])
    ∃ t, executeCycleLoop Chip8Modern.virtuals 0 s = some t ∧ t.interrupt = .sound ∧
      t.cycleCount = UInt32.ofNat (cycleStarts Chip8Modern.virtuals 0 s).length ∧
      t.cycleCount = 1 := by
  intro s
  have hloop : (executeCycleLoop Chip8Modern.virtuals 0 s).map
      (fun t => (t.interrupt, t.cycleCount)) = some (.sound, 1) := by decide +kernel
  obtain ⟨t, ht, heq⟩ := Option.map_eq_some_iff.1 hloop
  obtain ⟨hinterrupt, hcount⟩ := Prod.mk.inj heq
  exact ⟨t, ht, hinterrupt, (cycles_counted .chip8Modern s t 0 ht).1, hcount⟩

end CubeChip
