import CubeChip.Systems.Chip8.Kept

/-!
# What decides whether a core goes on

The worker goes by the system state, the frame by its snapshot, the interrupt and the timers,
and the cycle loop by the speed. `FlowKept` is what a core leaves of these to the base classes:
none of its virtual functions touches the states, its output touches no timer and no interrupt,
and no instruction sets the speed to 0. From it follows what a frame does to the system state.
-/

namespace CubeChip

/-- A bit of a mask that is not met. -/
theorem SystemState.not_of_has {s : SystemState} {mask : List EmuState} (h : s.has mask = false)
    {e : EmuState} (he : e ∈ mask) : s e = false :=
  Bool.eq_false_iff.2 (List.any_eq_false.1 h e he)

/-- What a system is steered by from outside. -/
structure Flow where
  systemState : SystemState
  cachedSystemState : SystemState
  debuggerCpf : UInt32

namespace IFamily

/-- What the host steers a frame by. -/
def flow (s : IFamily) : Flow := ⟨s.systemState, s.cachedSystemState, s.debuggerCpf⟩

end IFamily

/-- Two states of a core that are steered alike, the later one at some speed if the earlier is. -/
def Core.SteeredAlike {bits : Nat} {Own : Type} (s s' : Core bits Own) : Prop :=
  s'.flow = s.flow ∧ (s.standardCpf ≠ 0 → s'.standardCpf ≠ 0)

/-- A state and itself. -/
theorem Core.SteeredAlike.refl {bits : Nat} {Own : Type} (s : Core bits Own) :
    s.SteeredAlike s := ⟨rfl, id⟩

/-- Three states in a row. -/
theorem Core.SteeredAlike.trans {bits : Nat} {Own : Type} {s t u : Core bits Own}
    (h : s.SteeredAlike t) (h' : t.SteeredAlike u) : s.SteeredAlike u :=
  ⟨h'.1.trans h.1, h'.2 ∘ h.2⟩

/-- What the virtual functions of a core leave alone, or leave in order. -/
structure Virtuals.FlowKept {bits : Nat} {Own Instruction : Type}
    (V : Virtuals bits Own Instruction) : Prop where
  enterLoop : ∀ s, (V.enterLoop s).flow = s.flow ∧ (V.enterLoop s).toCpu = s.toCpu
  execute : ∀ i s s', V.execute i s = some s' → s.SteeredAlike s'
  pushAudioData : ∀ input s, (V.pushAudioData input s).flow = s.flow ∧
    (V.pushAudioData input s).toCpu = s.toCpu ∧
    (V.pushAudioData input s).standardCpf = s.standardCpf
  pushVideoData : ∀ s, (V.pushVideoData s).flow = s.flow ∧
    (V.pushVideoData s).toCpu = s.toCpu ∧ (V.pushVideoData s).standardCpf = s.standardCpf
  resetSystemData : ∀ s, (V.resetSystemData s).flow = s.flow ∧
    (V.resetSystemData s).standardCpf ≠ 0
  /-- `instruction_loop` sets the speed itself, or takes it as it is. -/
  speed : (∀ s, (V.enterLoop s).standardCpf ≠ 0) ∨
    ∀ s, (V.enterLoop s).standardCpf = s.standardCpf

namespace Core

variable {bits : Nat} {Own Instruction : Type} {V : Virtuals bits Own Instruction}
  {s s' : Core bits Own}

/-- One instruction. -/
theorem flow_iterate (hV : V.FlowKept) (hstep : iterate V s = some s') : s'.flow = s.flow := by
  obtain ⟨t, ht, rfl⟩ := Option.map_eq_some_iff.1 hstep
  exact (hV.execute _ _ _ ht).1

/-- The instructions of a frame. -/
theorem flow_executeCycleLoop (hV : V.FlowKept) {slices : Nat}
    (hrun : executeCycleLoop V slices s = some s') : s'.flow = s.flow := by
  have hkept : LoopKept V fun t => t.flow = s.flow :=
    { loopEntry := fun t ht => (hV.enterLoop t).1.trans ht
      iterate := fun t t' ht _ hstep => (flow_iterate hV hstep).trans ht }
  exact hkept.executeCycleLoop (fun _ _ ht => ht) rfl hrun

end Core

/-- A frame begins. -/
theorem IFamily.flow_prepareFrame (keys : Scancode → Bool) (s : IFamily) :
    (s.prepareFrame keys).flow = s.flow := by
  unfold prepareFrame handlePreWorkInterrupts
  split
  · rfl
  · split <;> rfl
  · split <;> rfl
  · rfl

/-- What `handle_post_work_interrupts` does to the system state. -/
theorem IFamily.systemState_handlePostWorkInterrupts (s : IFamily) :
    s.handlePostWorkInterrupts.systemState = s.systemState ∨
      s.handlePostWorkInterrupts.systemState = s.systemState.add [.fatal] ∨
      s.handlePostWorkInterrupts.systemState = s.systemState.add [.halted] := by
  unfold handlePostWorkInterrupts
  split
  · dsimp only
    split <;> exact .inl rfl
  · exact .inl rfl
  · exact .inr (.inl rfl)
  · exact .inr (.inr rfl)
  · exact .inl rfl

namespace Core

variable {bits : Nat} {Own Instruction : Type} {V : Virtuals bits Own Instruction}
  {s s' : Core bits Own}

/-- **A frame can only add HALTED and FATAL** to the system state. -/
theorem systemState_mainSystemLoop (hV : V.FlowKept) {input : FrameInput}
    (hrun : mainSystemLoop V input s = some s') :
    s'.systemState = s.systemState ∨ s'.systemState = s.systemState.add [.fatal] ∨
      s'.systemState = s.systemState.add [.halted] := by
  unfold mainSystemLoop at hrun
  dsimp only at hrun
  split at hrun
  · cases hrun
    exact .inl (congrArg Flow.systemState (hV.pushAudioData input _).1)
  · obtain ⟨t, ht, rfl⟩ := Option.map_eq_some_iff.1 hrun
    have hloop : t.systemState = s.systemState := congrArg Flow.systemState
      ((flow_executeCycleLoop hV ht).trans (IFamily.flow_prepareFrame ..))
    have houtput : (V.pushVideoData (V.pushAudioData input
        (t.onFamily .handlePostWorkInterrupts))).systemState =
        t.toIFamily.handlePostWorkInterrupts.systemState := congrArg Flow.systemState
      ((hV.pushVideoData _).1.trans (hV.pushAudioData input _).1)
    rw [houtput, ← hloop]
    exact IFamily.systemState_handlePostWorkInterrupts t.toIFamily

/-- The reset itself clears no state; the `fetch_and` after it does. -/
theorem systemState_performInstanceReset (hV : V.FlowKept) (s : Core bits Own) :
    (performInstanceReset V s).systemState = s.systemState :=
  congrArg Flow.systemState (hV.resetSystemData (s.onFamily .resetInstance)).1

/-! ## The GUI thread -/

/-- No frame runs in between: the processor, the frames counted, the keys and what the core has
of its own are the same. -/
structure Untouched (s s' : Core bits Own) : Prop where
  cpu : s'.toCpu = s.toCpu
  speed : s'.standardCpf = s.standardCpf
  trait : s'.trait = s.trait
  elapsedFrames : s'.elapsedFrames = s.elapsedFrames
  benchedFrames : s'.benchedFrames = s.benchedFrames
  input : s'.input = s.input
  own : s'.own = s.own

/-- A state and itself. -/
theorem Untouched.refl (s : Core bits Own) : Untouched s s := ⟨rfl, rfl, rfl, rfl, rfl, rfl, rfl⟩

/-- Three states in a row. -/
theorem Untouched.trans {s₁ s₂ s₃ : Core bits Own} (h : Untouched s₁ s₂) (h' : Untouched s₂ s₃) :
    Untouched s₁ s₃ where
  cpu := h'.cpu.trans h.cpu
  speed := h'.speed.trans h.speed
  trait := h'.trait.trans h.trait
  elapsedFrames := h'.elapsedFrames.trans h.elapsedFrames
  benchedFrames := h'.benchedFrames.trans h.benchedFrames
  input := h'.input.trans h.input
  own := h'.own.trans h.own

/-- What an operation of the GUI thread leaves: HALTED and FATAL are as they were, RESET is not
taken away, the snapshot is the worker's, and the rest is the program's. -/
structure GuiKept (s s' : Core bits Own) : Prop extends Untouched s s' where
  stop : ∀ e, e = .halted ∨ e = .fatal → s'.systemState e = s.systemState e
  reset : s.systemState .reset = true → s'.systemState .reset = true
  cached : s'.cachedSystemState = s.cachedSystemState

/-- An operation that does nothing. -/
theorem GuiKept.refl (s : Core bits Own) : GuiKept s s := ⟨.refl s, fun _ _ => rfl, id, rfl⟩

/-- An operation that toggles PAUSED, BENCH or STATS. -/
theorem GuiKept.xor {e : EmuState} (h : e = .paused ∨ e = .bench ∨ e = .stats) :
    GuiKept s (s.onFamily fun s => { s with systemState := s.systemState.xor [e] }) where
  toUntouched := ⟨rfl, rfl, rfl, rfl, rfl, rfl, rfl⟩
  stop := fun x hx => by
    rcases hx with rfl | rfl <;> rcases h with rfl | rfl | rfl <;> exact Bool.false_xor _
  reset := fun hreset => by
    rcases h with rfl | rfl | rfl <;> exact (Bool.false_xor _).trans hreset
  cached := rfl

variable (V s) in
/-- Every operation of the GUI thread. -/
theorem guiKept_guiStep (op : GuiOp) : GuiKept s (guiStep V op s) := by
  cases op with
  | requestInstanceReset =>
      exact ⟨⟨rfl, rfl, rfl, rfl, rfl, rfl, rfl⟩, by rintro e (rfl | rfl) <;> rfl, fun _ => rfl,
        rfl⟩
  | tryPauseSystem =>
      unfold guiStep
      dsimp only
      split
      · exact .refl s
      · exact .xor (.inl rfl)
  | toggleBench => exact .xor (.inr (.inl rfl))
  | toggleStats => exact .xor (.inr (.inr rfl))
  | setHidden hidden =>
      cases hidden <;>
        exact ⟨⟨rfl, rfl, rfl, rfl, rfl, rfl, rfl⟩, by rintro e (rfl | rfl) <;> rfl, id, rfl⟩
  | toggleQuirk flag =>
      unfold guiStep
      dsimp only
      split
      · exact ⟨⟨rfl, rfl, rfl, rfl, rfl, rfl, rfl⟩, fun _ _ => rfl, id, rfl⟩
      · exact .refl s
  | setDebuggerCpf cycles => exact ⟨⟨rfl, rfl, rfl, rfl, rfl, rfl, rfl⟩, fun _ _ => rfl, id, rfl⟩
  | editMemory address value =>
      exact ⟨⟨rfl, rfl, rfl, rfl, rfl, rfl, rfl⟩, fun _ _ => rfl, id, rfl⟩

end Core

end CubeChip
