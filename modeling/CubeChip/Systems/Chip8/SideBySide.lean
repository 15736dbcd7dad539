import Mathlib.Data.List.Forall2
import CubeChip.Systems.Chip8.Kept

/-!
# Two cores side by side

A statement about two runs (the same core from the same state under different keys, or two
cores under the same keys) is a relation that every instruction and every function of the base
classes keeps. `Paired` is what there is to show; `Paired.run` carries the relation through a
run, from the first instruction to the last, as long as the instructions of the first run meet a
guard.
-/

namespace CubeChip

/-- The bookkeeping of the base classes: states, counters, quirks and surroundings. -/
structure Books where
  systemState : SystemState
  cachedSystemState : SystemState
  benchedFrames : UInt32
  elapsedFrames : UInt32
  quirkFlags : QuirkFlags
  cachedQuirkFlags : QuirkFlags
  debuggerCpf : UInt32
  cycleCount : UInt32
  host : Host

/-- `countFrame`, of the books. -/
def Books.countFrame (b : Books) : Books :=
  if b.cachedSystemState.has EmuState.notRunning then b
  else { b with
    elapsedFrames := b.elapsedFrames + 1
    benchedFrames := if b.cachedSystemState .bench then b.benchedFrames + 1 else 0 }

namespace IFamily

/-- The books of a state. -/
def books (s : IFamily) : Books :=
  ⟨s.systemState, s.cachedSystemState, s.benchedFrames, s.elapsedFrames, s.quirkFlags,
    s.cachedQuirkFlags, s.debuggerCpf, s.cycleCount, s.host⟩

/-- A state with other books. -/
def withBooks (b : Books) (s : IFamily) : IFamily :=
  { s with
    systemState := b.systemState
    cachedSystemState := b.cachedSystemState
    benchedFrames := b.benchedFrames
    elapsedFrames := b.elapsedFrames
    quirkFlags := b.quirkFlags
    cachedQuirkFlags := b.cachedQuirkFlags
    debuggerCpf := b.debuggerCpf
    cycleCount := b.cycleCount
    host := b.host }

/-- Counting a frame is a matter of the books. -/
theorem countFrame_eq (s : IFamily) : s.countFrame = s.withBooks s.books.countFrame := by
  have hbooks : s.books.cachedSystemState = s.cachedSystemState := rfl
  unfold countFrame Books.countFrame
  rw [hbooks]
  split <;> rfl

/-- A view of the base classes that leaves interrupt and timers as they are, and speed and
interrupt to be set, does not change what happens before the cycle loop. -/
theorem handlePreWorkInterrupts_comm (view : IFamily → IFamily)
    (hkept : ∀ s, (view s).interrupt = s.interrupt ∧ (view s).voices = s.voices ∧
      (view s).delayTimer = s.delayTimer)
    (hclear : ∀ s, view { s with interrupt := .clear } = { view s with interrupt := .clear })
    (hwait : ∀ s, view { s with interrupt := .wait1, standardCpf := 0 } =
      { view s with interrupt := .wait1, standardCpf := 0 }) (s : IFamily) :
    (view s).handlePreWorkInterrupts = view s.handlePreWorkInterrupts := by
  obtain ⟨hint, hvoices, hdelay⟩ := hkept s
  have hany : ((List.finRange 4).any fun i => ((view s).voices i).get != 0) =
      (List.finRange 4).any fun i => (s.voices i).get != 0 := by rw [hvoices]
  have hne : (view s).delayTimer ≠ 0 ↔ s.delayTimer ≠ 0 := by rw [hdelay]
  unfold handlePreWorkInterrupts
  rw [hint]
  cases s.interrupt with
  | frame => exact (hclear s).symm
  | sound =>
      dsimp only
      rw [hany]
      split
      · rfl
      · exact (hwait s).symm
  | delay =>
      simp only [hne]
      split
      · rfl
      · exact (hclear s).symm
  | _ => rfl

end IFamily

namespace Core

variable {bits : Nat} {Own Instruction : Type}

/-! ## The instructions of a run -/

section
variable (V : Virtuals bits Own Instruction)

/-- The states the instructions of an event start from. -/
def eventStarts (s : Core bits Own) : Event → List (Core bits Own)
  | .frame input => workerStarts V input s
  | _ => []

/-- The states the instructions of a run start from, in their order. -/
def instructionStarts (s : Core bits Own) (events : List Event) : List (Core bits Own) :=
  (Runs.tried (step V) s events).flatMap fun x => eventStarts V x.1 x.2

variable {V}

/-- No interrupt is pending where an instruction starts. -/
theorem running_of_mem_instructionStarts {s u : Core bits Own} {events : List Event}
    (h : u ∈ instructionStarts V s events) : running u = true := by
  obtain ⟨⟨t, e⟩, -, hu⟩ := List.mem_flatMap.1 h
  cases e with
  | frame input =>
      have hkept : LoopKept V fun _ => True := ⟨fun _ _ => trivial, fun _ _ _ _ _ => trivial⟩
      have hu : u ∈ workerStarts V input t := hu
      rcases workerStarts_cases V input t with heq | heq <;> rw [heq] at hu
      · exact nomatch hu
      · exact (hkept.cycleStarts input.slices trivial u hu).2
  | _ => exact nomatch hu

end

/-- Two events of which one is a frame if the other is, with related inputs. -/
inductive SameEvent (Q : FrameInput → FrameInput → Prop) : Event → Event → Prop
  | reset : SameEvent Q .reset .reset
  | frame {i j : FrameInput} (h : Q i j) : SameEvent Q (.frame i) (.frame j)
  | gui (op : GuiOp) : SameEvent Q (.gui op) (.gui op)
  | host (host : Host) : SameEvent Q (.host host) (.host host)

/-- An event goes with itself. -/
theorem SameEvent.refl {Q : FrameInput → FrameInput → Prop} (hQ : ∀ i, Q i i) (e : Event) :
    SameEvent Q e e := by
  cases e with
  | reset => exact .reset
  | frame i => exact .frame (hQ i)
  | gui op => exact .gui op
  | host host => exact .host host

/-! ## What there is to show -/

/-- `R` is kept side by side, under inputs related by `Q` and from instructions that meet `G`. -/
structure Paired (V V' : Virtuals bits Own Instruction)
    (R : Core bits Own → Core bits Own → Prop) (G : Core bits Own → Prop)
    (Q : FrameInput → FrameInput → Prop) : Prop where
  availQuirks : V.availQuirks = V'.availQuirks
  slices : ∀ i j, Q i j → i.slices = j.slices
  books : ∀ s t, R s t → s.books = t.books ∧ s.interrupt = t.interrupt
  withBooks : ∀ b s t, R s t → R (s.onFamily (.withBooks b)) (t.onFamily (.withBooks b))
  enterLoop : ∀ s t, R s t → R (V.enterLoop s) (V'.enterLoop t) ∧
    (V.enterLoop s).targetCpf = (V'.enterLoop t).targetCpf
  cycle : ∀ s t, R s t → G s → running s = true → Option.Rel R (cycle V s) (cycle V' t)
  prepareFrame : ∀ i j s t, Q i j → R s t →
    R (s.onFamily (.prepareFrame i.keys)) (t.onFamily (.prepareFrame j.keys))
  handlePostWorkInterrupts : ∀ s t, R s t →
    R (s.onFamily .handlePostWorkInterrupts) (t.onFamily .handlePostWorkInterrupts)
  pushAudioData : ∀ i j s t, Q i j → R s t → R (V.pushAudioData i s) (V'.pushAudioData j t)
  pushVideoData : ∀ s t, R s t → R (V.pushVideoData s) (V'.pushVideoData t)
  performInstanceReset : ∀ s t, R s t →
    R (performInstanceReset V s) (performInstanceReset V' t)
  editMemory : ∀ address value s t, R s t →
    R { s with memory := s.memory.set address value }
      { t with memory := t.memory.set address value }

namespace Paired

variable {V V' : Virtuals bits Own Instruction} {R : Core bits Own → Core bits Own → Prop}
  {G : Core bits Own → Prop} {Q : FrameInput → FrameInput → Prop} {s t : Core bits Own}

/-- What a function of the base classes does to the books alone, it does on both sides. -/
theorem onBooks (h : Paired V V' R G Q) {f : IFamily → IFamily} (g : Books → Books)
    (hf : ∀ s, f s = s.withBooks (g s.books)) (hR : R s t) : R (s.onFamily f) (t.onFamily f) := by
  have hs : s.onFamily f = s.onFamily (.withBooks (g s.books)) :=
    congrArg (fun F => ({ s with toIFamily := F } : Core bits Own)) (hf s.toIFamily)
  have ht : t.onFamily f = t.onFamily (.withBooks (g s.books)) := by
    rw [(h.books s t hR).1]
    exact congrArg (fun F => ({ t with toIFamily := F } : Core bits Own)) (hf t.toIFamily)
  rw [hs, ht]
  exact h.withBooks _ s t hR

/-- A change of the state word, on both sides. -/
theorem setSystemState (h : Paired V V' R G Q) (f : SystemState → SystemState) (hR : R s t) :
    R (s.onFamily fun s => { s with systemState := f s.systemState })
      (t.onFamily fun s => { s with systemState := f s.systemState }) :=
  h.onBooks (fun b => { b with systemState := f b.systemState }) (fun _ => rfl) hR

/-- A change of the cycle count, on both sides. -/
theorem setCycleCount (h : Paired V V' R G Q) (f : UInt32 → UInt32) (hR : R s t) :
    R { s with cycleCount := f s.cycleCount } { t with cycleCount := f t.cycleCount } :=
  h.onBooks (f := fun s => { s with cycleCount := f s.cycleCount })
    (fun b => { b with cycleCount := f b.cycleCount }) (fun _ => rfl) hR

/-- Both sides go on, or none. -/
theorem running_eq (h : Paired V V' R G Q) (hR : R s t) : running s = running t := by
  unfold running
  rw [(h.books s t hR).2]

/-! ## The cycle loop -/

/-- **One round of the cycle loop**, on both sides. -/
theorem iterate (h : Paired V V' R G Q) (hR : R s t) (hG : G s) (hgo : running s = true) :
    Option.Rel R (iterate V s) (iterate V' t) := by
  exact (h.cycle s t hR hG hgo).map fun _ _ => h.setCycleCount (· + 1)

/-- **`instruction_loop`** and the instructions of it. -/
theorem instructionLoop (h : Paired V V' R G Q) (hR : R s t) (hG : ∀ u ∈ loopStarts V s, G u) :
    Option.Rel R (instructionLoop V s) (instructionLoop V' t) ∧
      List.Forall₂ R (loopStarts V s) (loopStarts V' t) := by
  obtain ⟨henter, htarget⟩ := h.enterLoop s t hR
  have hentry : R (loopEntry V s) (loopEntry V' t) := h.setCycleCount (fun _ => 0) henter
  have hgo : ∀ s t, R s t → running s = running t := fun _ _ => h.running_eq
  unfold Core.instructionLoop loopStarts at *
  rw [← htarget]
  exact Loops.loop_rel hgo (fun _ _ => h.iterate) hentry hG

/-- The loop of a BENCH frame. -/
theorem benchLoop (h : Paired V V' R G Q) (slices : Nat) (total : UInt32) (hR : R s t)
    (hG : ∀ u ∈ benchStarts V slices s, G u) :
    Option.Rel R (benchLoop V slices total s) (benchLoop V' slices total t) ∧
      List.Forall₂ R (benchStarts V slices s) (benchStarts V' slices t) := by
  induction slices generalizing s t total with
  | zero =>
      obtain ⟨hloop, hstarts⟩ := h.instructionLoop hR hG
      exact ⟨hloop.map fun _ _ => h.setCycleCount (total + ·), hstarts⟩
  | succ slices ih =>
      have hG : (∀ u ∈ loopStarts V s, G u) ∧ ∀ u ∈ (Core.instructionLoop V s).elim [] fun s' =>
          if running s' then benchStarts V slices s' else [], G u :=
        List.forall_mem_append.1 hG
      have hrest (s' : Core bits Own) (hs' : Core.instructionLoop V s = some s')
          (hgo : running s' = true) : ∀ u ∈ benchStarts V slices s', G u := by
        have hrest := hG.2
        rwa [hs', Option.elim_some, if_pos hgo] at hrest
      obtain ⟨hloop, hstarts⟩ := h.instructionLoop hR hG.1
      unfold Core.benchLoop Core.benchStarts
      refine ⟨hloop.bind fun s' t' hs' hR' => ?_,
        List.rel_append hstarts (hloop.elim .nil fun s' t' hs' hR' => ?_)⟩
      · have hcount : s'.cycleCount = t'.cycleCount :=
          congrArg Books.cycleCount (h.books s' t' hR').1
        rw [← h.running_eq hR', ← hcount]
        cases hgo : running s' with
        | false => exact .some (h.setCycleCount (total + ·) hR')
        | true => exact (ih _ hR' (hrest s' hs' hgo)).1
      · rw [← h.running_eq hR']
        cases hgo : running s' with
        | false => exact .nil
        | true => exact (ih 0 hR' (hrest s' hs' hgo)).2

/-- **`execute_cycle_loop`** and the instructions of it. -/
theorem executeCycleLoop (h : Paired V V' R G Q) (slices : Nat) (hR : R s t)
    (hG : ∀ u ∈ cycleStarts V slices s, G u) :
    Option.Rel R (executeCycleLoop V slices s) (executeCycleLoop V' slices t) ∧
      List.Forall₂ R (cycleStarts V slices s) (cycleStarts V' slices t) := by
  have hcached : s.cachedSystemState = t.cachedSystemState :=
    congrArg Books.cachedSystemState (h.books s t hR).1
  unfold Core.executeCycleLoop Core.cycleStarts at *
  rw [← hcached]
  cases hbench : s.cachedSystemState .bench with
  | false =>
      rw [hbench] at hG
      exact h.instructionLoop hR hG
  | true =>
      rw [hbench] at hG
      exact h.benchLoop slices 0 hR hG

/-! ## A frame -/

/-- **`main_system_loop`** and the instructions of it. -/
theorem mainSystemLoop (h : Paired V V' R G Q) {i j : FrameInput} (hQ : Q i j) (hR : R s t)
    (hG : ∀ u ∈ frameStarts V i s, G u) :
    Option.Rel R (mainSystemLoop V i s) (mainSystemLoop V' j t) ∧
      List.Forall₂ R (frameStarts V i s) (frameStarts V' j t) := by
  have hquirks : R (s.onFamily .cacheQuirks) (t.onFamily .cacheQuirks) :=
    h.onBooks (fun b => { b with cachedQuirkFlags := b.quirkFlags }) (fun _ => rfl) hR
  have hcached : (s.onFamily .cacheQuirks).cachedSystemState =
      (t.onFamily .cacheQuirks).cachedSystemState :=
    congrArg Books.cachedSystemState (h.books _ _ hquirks).1
  unfold Core.mainSystemLoop frameStarts at *
  dsimp only at *
  rw [← hcached, ← h.slices i j hQ]
  cases hpause : (s.onFamily .cacheQuirks).cachedSystemState.has EmuState.anyPause with
  | true => exact ⟨.some (h.pushAudioData i j _ _ hQ hquirks), .nil⟩
  | false =>
      rw [hpause] at hG
      have hprep := h.prepareFrame i j _ _ hQ hquirks
      obtain ⟨hloop, hstarts⟩ := h.executeCycleLoop i.slices hprep hG
      refine ⟨hloop.map fun s' t' hR' => ?_, hstarts⟩
      exact h.pushVideoData _ _ (h.pushAudioData i j _ _ hQ (h.handlePostWorkInterrupts s' t' hR'))

/-- **The worker's iteration** and the instructions of it. -/
theorem workerFrame (h : Paired V V' R G Q) {i j : FrameInput} (hQ : Q i j) (hR : R s t)
    (hG : ∀ u ∈ workerStarts V i s, G u) :
    Option.Rel R (workerFrame V i s) (workerFrame V' j t) ∧
      List.Forall₂ R (workerStarts V i s) (workerStarts V' j t) := by
  have hstate : R (s.onFamily .cacheSystemState) (t.onFamily .cacheSystemState) :=
    h.onBooks (fun b => { b with cachedSystemState := b.systemState }) (fun _ => rfl) hR
  have hcached : (s.onFamily .cacheSystemState).cachedSystemState =
      (t.onFamily .cacheSystemState).cachedSystemState :=
    congrArg Books.cachedSystemState (h.books _ _ hstate).1
  unfold Core.workerFrame workerStarts at *
  dsimp only at *
  rw [← hcached]
  cases hstop : (s.onFamily .cacheSystemState).cachedSystemState.has EmuState.anyStop with
  | true => exact ⟨.some hstate, .nil⟩
  | false =>
      rw [hstop] at hG
      obtain ⟨hloop, hstarts⟩ := h.mainSystemLoop hQ hstate hG
      exact ⟨hloop.map fun _ _ hR' => h.onBooks Books.countFrame IFamily.countFrame_eq hR', hstarts⟩

/-! ## Runs -/

/-- The reset of an iteration, where one is due. -/
theorem workerReset (h : Paired V V' R G Q) (hR : R s t) :
    R (workerReset V s) (workerReset V' t) := by
  have hstate : s.systemState = t.systemState :=
    congrArg Books.systemState (h.books s t hR).1
  unfold Core.workerReset
  rw [← hstate]
  split
  · exact h.setSystemState (·.sub EmuState.notRunning) (h.performInstanceReset s t hR)
  · exact hR

/-- An operation of the GUI thread. -/
theorem guiStep (h : Paired V V' R G Q) (op : GuiOp) (hR : R s t) :
    R (guiStep V op s) (guiStep V' op t) := by
  cases op with
  | requestInstanceReset => exact h.setSystemState (·.add [.reset]) hR
  | tryPauseSystem =>
      have hstate : s.systemState = t.systemState :=
        congrArg Books.systemState (h.books s t hR).1
      unfold Core.guiStep
      dsimp only
      rw [← hstate]
      split
      · exact hR
      · exact h.setSystemState (·.xor [.paused]) hR
  | toggleBench => exact h.setSystemState (·.xor [.bench]) hR
  | toggleStats => exact h.setSystemState (·.xor [.stats]) hR
  | setHidden hidden =>
      cases hidden with
      | true => exact h.setSystemState (·.add [.hidden]) hR
      | false => exact h.setSystemState (·.sub [.hidden]) hR
  | toggleQuirk flag =>
      unfold Core.guiStep
      dsimp only
      rw [← h.availQuirks]
      split
      · exact h.onBooks
          (fun b => { b with
            quirkFlags := Function.update b.quirkFlags flag (!b.quirkFlags flag) })
          (fun _ => rfl) hR
      · exact hR
  | setDebuggerCpf cycles =>
      exact h.onBooks (fun b => { b with debuggerCpf := cycles }) (fun _ => rfl) hR
  | editMemory address value => exact h.editMemory address value s t hR

/-- **An event** and the instructions of it. -/
theorem step (h : Paired V V' R G Q) {e e' : Event} (he : SameEvent Q e e') (hR : R s t)
    (hG : ∀ u ∈ eventStarts V s e, G u) :
    Option.Rel R (step V s e) (step V' t e') ∧
      List.Forall₂ R (eventStarts V s e) (eventStarts V' t e') := by
  cases he with
  | reset => exact ⟨.some (h.workerReset hR), .nil⟩
  | frame hQ => exact h.workerFrame hQ hR hG
  | gui op => exact ⟨.some (h.guiStep op hR), .nil⟩
  | host host =>
      exact ⟨.some (h.onBooks (f := fun s => { s with host := host })
        (fun b => { b with host := host }) (fun _ => rfl) hR), .nil⟩

/-- **A run** and the instructions of it. -/
theorem run (h : Paired V V' R G Q) {events events' : List Event}
    (he : List.Forall₂ (SameEvent Q) events events') (hR : R s t)
    (hG : ∀ u ∈ instructionStarts V s events, G u) :
    Option.Rel R (Runs.run (Core.step V) s events) (Runs.run (Core.step V') t events') ∧
      List.Forall₂ R (instructionStarts V s events) (instructionStarts V' t events') := by
  have hG : ∀ x ∈ Runs.tried (Core.step V) s events, ∀ u ∈ eventStarts V x.1 x.2, G u :=
    fun x hx u hu => hG u (List.mem_flatMap.2 ⟨x, hx, hu⟩)
  obtain ⟨hrun, htried⟩ := Runs.run_rel (E := SameEvent Q)
    (C := fun s e => ∀ u ∈ eventStarts V s e, G u)
    (fun _ _ _ _ hR he hG => (h.step he hR hG).1) hR he hG
  refine ⟨hrun, List.rel_flatMap htried fun x y hxy => ?_⟩
  obtain ⟨hR, he, hG⟩ := hxy
  exact (h.step he hR hG).2

end Paired

end Core

end CubeChip
