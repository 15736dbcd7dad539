import CubeChip.Lib.Loops
import CubeChip.Lib.Runs
import CubeChip.Systems.Chip8.Family

/-!
# Running a core

`execute_cycle_loop` and `main_system_loop` of the family, the worker's loop around them, and
the GUI thread beside it, over the virtual functions of a core. A run is any sequence of
events: the worker testing for a reset, the worker going through a frame, the GUI thread
changing a flag, another instance or another program changing the host.
-/

namespace CubeChip

/-- What a frame gets from outside: the key states polled, how often the time left in a BENCH
frame lets the loop be entered again, and whether an audio stream reaches its end. -/
structure FrameInput where
  keys : Scancode → Bool
  slices : Nat
  streamEnded : Bool

/-- The virtual functions of a core, and the quirks a user can toggle. `enterLoop` is what
`instruction_loop` does before its loop; `execute` is `none` if the process ends. -/
structure Virtuals (bits : Nat) (Own Instruction : Type) where
  availQuirks : List QuirkFlag
  enterLoop : Core bits Own → Core bits Own
  decode : Core bits Own → Opcode → Instruction
  execute : Instruction → Core bits Own → Option (Core bits Own)
  pushAudioData : FrameInput → Core bits Own → Core bits Own
  pushVideoData : Core bits Own → Core bits Own
  resetSystemData : Core bits Own → Core bits Own

namespace IFamily

/-- `m_cached_quirk_flags = m_quirk_flags`. -/
def cacheQuirks (s : IFamily) : IFamily := { s with cachedQuirkFlags := s.quirkFlags }

/-- The snapshot of the system state for the frame. -/
def cacheSystemState (s : IFamily) : IFamily := { s with cachedSystemState := s.systemState }

/-- What `main_system_loop` does before the cycle loop. -/
def prepareFrame (keys : Scancode → Bool) (s : IFamily) : IFamily :=
  ((s.updateKeypadData keys).handleTimerTicks).handlePreWorkInterrupts

/-- The frame counters after a frame. -/
def countFrame (s : IFamily) : IFamily :=
  if s.cachedSystemState.has EmuState.notRunning then s
  else { s with
    elapsedFrames := s.elapsedFrames + 1
    benchedFrames := if s.cachedSystemState .bench then s.benchedFrames + 1 else 0 }

/-- `target_cpf`. -/
def targetCpf (s : IFamily) : UInt32 :=
  if s.cachedSystemState .bench ∧ s.debuggerCpf ≠ 0 then s.debuggerCpf else s.standardCpf

end IFamily

namespace Core

variable {bits : Nat} {Own Instruction : Type} (V : Virtuals bits Own Instruction)

/-! ## A frame -/

/-- The instruction at PC. -/
def current (s : Core bits Own) : Instruction := V.decode s.fetch.2 s.fetch.1

/-- Fetch, decode and execute one instruction. -/
def cycle (s : Core bits Own) : Option (Core bits Own) := V.execute (current V s) s.fetch.2

/-- The condition of `instruction_loop` on the interrupt. -/
def running (s : Core bits Own) : Bool := s.interrupt = .clear

theorem not_running_of_frame {s : Core bits Own} (h : s.interrupt = .frame) :
    running s = false := by
  rw [running, h]
  rfl

/-- The body of `instruction_loop`, with `++m_cycle_count`. -/
def iterate (s : Core bits Own) : Option (Core bits Own) :=
  (cycle V s).map fun s => { s with cycleCount := s.cycleCount + 1 }

/-- The state `instruction_loop` starts its loop in. -/
def loopEntry (s : Core bits Own) : Core bits Own := { V.enterLoop s with cycleCount := 0 }

/-- `instruction_loop`. -/
def instructionLoop (s : Core bits Own) : Option (Core bits Own) :=
  Loops.loop running (iterate V) (V.enterLoop s).targetCpf.toNat (loopEntry V s)

/-- `m_cycle_count = total_cycles`, with the cycles of the last pass. -/
def addCycles (totalCycles : UInt32) (s : Core bits Own) : Core bits Own :=
  { s with cycleCount := totalCycles + s.cycleCount }

/-- The loop of `execute_cycle_loop` in BENCH mode, re-entered at most `slices` times. -/
def benchLoop : Nat → UInt32 → Core bits Own → Option (Core bits Own)
  | 0, totalCycles, s => (instructionLoop V s).map (addCycles totalCycles)
  | slices + 1, totalCycles, s =>
      (instructionLoop V s).bind fun t =>
        if running t then benchLoop slices (totalCycles + t.cycleCount) t
        else some (addCycles totalCycles t)

/-- `execute_cycle_loop`. -/
def executeCycleLoop (slices : Nat) (s : Core bits Own) : Option (Core bits Own) :=
  if s.cachedSystemState .bench then benchLoop V slices 0 s else instructionLoop V s

/-- `main_system_loop`. -/
def mainSystemLoop (input : FrameInput) (s : Core bits Own) : Option (Core bits Own) :=
  let s := s.onFamily .cacheQuirks
  if s.cachedSystemState.has EmuState.anyPause then some (V.pushAudioData input s)
  else
    (executeCycleLoop V input.slices (s.onFamily (.prepareFrame input.keys))).map fun s =>
      V.pushVideoData (V.pushAudioData input (s.onFamily .handlePostWorkInterrupts))

/-! ## The states instructions start from -/

/-- The states the instructions of `instruction_loop` start from. -/
def loopStarts (s : Core bits Own) : List (Core bits Own) :=
  Loops.starts running (iterate V) (V.enterLoop s).targetCpf.toNat (loopEntry V s)

/-- The states the instructions of a BENCH frame start from, slice after slice. -/
def benchStarts : Nat → Core bits Own → List (Core bits Own)
  | 0, s => loopStarts V s
  | slices + 1, s =>
      loopStarts V s ++ (instructionLoop V s).elim [] fun t =>
        if running t then benchStarts slices t else []

/-- The states the instructions of the cycle loop start from. -/
def cycleStarts (slices : Nat) (s : Core bits Own) : List (Core bits Own) :=
  if s.cachedSystemState .bench then benchStarts V slices s else loopStarts V s

/-- The states the instructions of a frame start from. -/
def frameStarts (input : FrameInput) (s : Core bits Own) : List (Core bits Own) :=
  let s := s.onFamily .cacheQuirks
  if s.cachedSystemState.has EmuState.anyPause then []
  else cycleStarts V input.slices (s.onFamily (.prepareFrame input.keys))

variable {V} in
/-- A BENCH frame is one pass through the loop, or one that ended running and the rest. -/
theorem benchLoop_cases {slices : Nat} {total : UInt32} {s s' : Core bits Own}
    (h : benchLoop V slices total s = some s') :
    ∃ t, instructionLoop V s = some t ∧ (s' = addCycles total t ∨
      ∃ k, slices = k + 1 ∧ running t = true ∧
        benchLoop V k (total + t.cycleCount) t = some s') := by
  cases slices with
  | zero =>
      obtain ⟨t, ht, rfl⟩ := Option.map_eq_some_iff.1 h
      exact ⟨t, ht, .inl rfl⟩
  | succ k =>
      obtain ⟨t, ht, hrest⟩ := Option.bind_eq_some_iff.1 h
      refine ⟨t, ht, ?_⟩
      cases hgo : running t with
      | true => rw [hgo] at hrest; exact .inr ⟨k, rfl, rfl, hrest⟩
      | false => rw [hgo] at hrest; cases hrest; exact .inl rfl

/-- The instructions of a BENCH frame are those of one pass, or of one pass that ended
running and of the rest. -/
theorem benchStarts_cases (slices : Nat) (s : Core bits Own) :
    benchStarts V slices s = loopStarts V s ∨
      ∃ k t, slices = k + 1 ∧ instructionLoop V s = some t ∧ running t = true ∧
        benchStarts V slices s = loopStarts V s ++ benchStarts V k t := by
  cases slices with
  | zero => exact .inl rfl
  | succ k =>
      rw [benchStarts]
      cases hrun : instructionLoop V s with
      | none => exact .inl (List.append_nil _)
      | some t =>
          cases hgo : running t with
          | true =>
              refine .inr ⟨k, t, rfl, rfl, hgo, ?_⟩
              rw [Option.elim_some, if_pos hgo]
          | false =>
              rw [Option.elim_some, hgo]
              exact .inl (List.append_nil _)

/-- **Whatever ends the cycle loop happens in its last instruction**: one that has another
after it in the frame leaves no interrupt. -/
theorem cycleStarts_pairwise (slices : Nat) (s : Core bits Own) :
    (cycleStarts V slices s).Pairwise fun t _ => Loops.GoesOn running (iterate V) t := by
  have hbench (slices : Nat) (s : Core bits Own) :
      (benchStarts V slices s).Pairwise fun t _ => Loops.GoesOn running (iterate V) t := by
    induction slices generalizing s with
    | zero => exact Loops.starts_pairwise _ _
    | succ slices ih =>
        rcases benchStarts_cases V (slices + 1) s with heq | ⟨k, t, hk, hrun, hgo, heq⟩
        · rw [heq]
          exact Loops.starts_pairwise _ _
        · cases hk
          rw [heq]
          refine List.pairwise_append.2 ⟨Loops.starts_pairwise _ _, ih t, fun x hx _ _ => ?_⟩
          exact Loops.goesOn_of_loop hrun hgo x hx
  unfold cycleStarts
  split
  · exact hbench slices s
  · exact Loops.starts_pairwise _ _

/-! ## The worker and the GUI thread -/

/-- `perform_instance_reset`. -/
def performInstanceReset (s : Core bits Own) : Core bits Own :=
  V.resetSystemData (s.onFamily .resetInstance)

/-- The worker's test for a reset request. -/
def workerReset (s : Core bits Own) : Core bits Own :=
  if s.systemState .reset then
    (performInstanceReset V s).onFamily fun s =>
      { s with systemState := s.systemState.sub EmuState.notRunning }
  else s

/-- The rest of the worker's iteration. -/
def workerFrame (input : FrameInput) (s : Core bits Own) : Option (Core bits Own) :=
  let s := s.onFamily .cacheSystemState
  if s.cachedSystemState.has EmuState.anyStop then some s
  else (mainSystemLoop V input s).map fun s => s.onFamily .countFrame

/-- The states the instructions of the worker's iteration start from. -/
def workerStarts (input : FrameInput) (s : Core bits Own) : List (Core bits Own) :=
  let s := s.onFamily .cacheSystemState
  if s.cachedSystemState.has EmuState.anyStop then [] else frameStarts V input s

/-- The state the cycle loop of a frame starts in. -/
def frameEntry (input : FrameInput) (s : Core bits Own) : Core bits Own :=
  ((s.onFamily .cacheSystemState).onFamily .cacheQuirks).onFamily (.prepareFrame input.keys)

/-- The worker's iteration runs no instruction, or those of the cycle loop. -/
theorem workerStarts_cases (input : FrameInput) (s : Core bits Own) :
    workerStarts V input s = [] ∨
      workerStarts V input s = cycleStarts V input.slices (frameEntry input s) := by
  unfold workerStarts frameStarts
  dsimp only
  split
  · exact .inl rfl
  · split
    · exact .inl rfl
    · exact .inr rfl

/-- What the GUI thread does to a core. -/
inductive GuiOp where
  | requestInstanceReset
  | tryPauseSystem
  | toggleBench
  | toggleStats
  | setHidden (hidden : Bool)
  | toggleQuirk (flag : QuirkFlag)
  | setDebuggerCpf (cycles : UInt32)
  | editMemory (address : UInt32) (value : UInt8)

/-- One operation of the GUI thread; only available quirks are listed. -/
def guiStep (op : GuiOp) (s : Core bits Own) : Core bits Own :=
  match op with
  | .requestInstanceReset =>
      s.onFamily fun s => { s with systemState := s.systemState.add [.reset] }
  | .tryPauseSystem =>
      if s.systemState.has EmuState.cannotPause then s
      else s.onFamily fun s => { s with systemState := s.systemState.xor [.paused] }
  | .toggleBench => s.onFamily fun s => { s with systemState := s.systemState.xor [.bench] }
  | .toggleStats => s.onFamily fun s => { s with systemState := s.systemState.xor [.stats] }
  | .setHidden hidden =>
      s.onFamily fun s => { s with systemState :=
        if hidden then s.systemState.add [.hidden] else s.systemState.sub [.hidden] }
  | .toggleQuirk flag => if flag ∈ V.availQuirks then s.onFamily (.xorQuirk flag) else s
  | .setDebuggerCpf cycles => s.onFamily fun s => { s with debuggerCpf := cycles }
  | .editMemory address value => { s with memory := s.memory.set address value }

/-- What can happen next. -/
inductive Event where
  | reset
  | frame (input : FrameInput)
  | gui (op : GuiOp)
  | host (host : Host)

/-- A frame without keys. -/
def Event.idle : Event := .frame ⟨fun _ => false, 0, false⟩

/-- One event; `none` if the process ends in it. -/
def step (s : Core bits Own) : Event → Option (Core bits Own)
  | .reset => some (workerReset V s)
  | .frame input => workerFrame V input s
  | .gui op => some (guiStep V op s)
  | .host host => some { s with host := host }

/-- The states a core started from `boot` can reach. -/
def Reachable (boot s : Core bits Own) : Prop := ∃ events, Runs.run (step V) boot events = some s

end Core

end CubeChip
