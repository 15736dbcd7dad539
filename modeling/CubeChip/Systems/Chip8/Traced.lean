import CubeChip.Lib.Traces
import CubeChip.Systems.Chip8.SideBySide

/-!
# What only instructions change

A part of a core that neither the base classes nor its output touch changes from one instruction to
the next alone. `TraceKept` is what there is to show of it, and `TraceKept.run` traces it along the
instructions of a run (`Traced`), if nothing else that happens in the run touches it either.
-/

namespace CubeChip.Core

variable {bits : Nat} {Own Instruction β : Type}

/-- Only instructions change `m`, to `act` of the state they start from. -/
structure TraceKept (V : Virtuals bits Own Instruction) (m act : Core bits Own → β) : Prop where
  withBooks : ∀ b s, m (s.onFamily (.withBooks b)) = m s
  prepareFrame : ∀ keys s, m (s.onFamily (.prepareFrame keys)) = m s
  handlePostWorkInterrupts : ∀ s, m (s.onFamily .handlePostWorkInterrupts) = m s
  enterLoop : ∀ s, m (V.enterLoop s) = m s
  cycle : ∀ s s', cycle V s = some s' → m s' = act s
  pushAudioData : ∀ input s, m (V.pushAudioData input s) = m s
  pushVideoData : ∀ s, m (V.pushVideoData s) = m s

/-- A frame. -/
def Event.isFrame : Event → Bool
  | .frame _ => true
  | _ => false

namespace TraceKept

variable {V : Virtuals bits Own Instruction} {m act : Core bits Own → β} {s s' : Core bits Own}

/-- What changes the books alone. -/
theorem onBooks (h : TraceKept V m act) {f : IFamily → IFamily} (g : Books → Books)
    (hf : ∀ s, f s = s.withBooks (g s.books)) (s : Core bits Own) : m (s.onFamily f) = m s := by
  have hs : s.onFamily f = s.onFamily (.withBooks (g s.books)) :=
    congrArg (fun F => ({ s with toIFamily := F } : Core bits Own)) (hf s.toIFamily)
  rw [hs, h.withBooks]

/-- The cycles counted do not matter. -/
theorem setCycleCount (h : TraceKept V m act) (f : UInt32 → UInt32) (s : Core bits Own) :
    m { s with cycleCount := f s.cycleCount } = m s :=
  h.onBooks (f := fun s => { s with cycleCount := f s.cycleCount })
    (fun b => { b with cycleCount := f b.cycleCount }) (fun _ => rfl) s

/-- One instruction acts once. -/
theorem iterate (h : TraceKept V m act) (hstep : iterate V s = some s') : m s' = act s := by
  obtain ⟨t, ht, rfl⟩ := Option.map_eq_some_iff.1 hstep
  exact (h.setCycleCount (· + 1) t).trans (h.cycle s t ht)

/-- The loop of a frame acts once for each instruction it starts. -/
theorem instructionLoop (h : TraceKept V m act) (hrun : instructionLoop V s = some s') :
    Traced m act (m s) (loopStarts V s) (m s') := by
  have hentry : m (loopEntry V s) = m s :=
    (h.setCycleCount (fun _ => 0) (V.enterLoop s)).trans (h.enterLoop s)
  rw [← hentry]
  exact Traced.loop (fun _ _ => h.iterate) hrun

/-- So does a BENCH frame: by induction on the slices. -/
theorem benchLoop (h : TraceKept V m act) (slices : Nat) {total : UInt32}
    (hrun : benchLoop V slices total s = some s') :
    Traced m act (m s) (benchStarts V slices s) (m s') := by
  have hadd (total : UInt32) (t : Core bits Own) : m (addCycles total t) = m t :=
    h.setCycleCount (total + ·) t
  induction slices generalizing s total with
  | zero =>
      obtain ⟨t, ht, rfl⟩ := Option.map_eq_some_iff.1 hrun
      rw [hadd]
      exact h.instructionLoop ht
  | succ slices ih =>
      obtain ⟨t, ht, hrest⟩ := Option.bind_eq_some_iff.1 hrun
      have hloop := h.instructionLoop ht
      rw [benchStarts, ht, Option.elim_some]
      cases hgo : running t with
      | true =>
          rw [hgo, if_pos rfl] at hrest
          rw [if_pos rfl]
          exact hloop.append (ih hrest)
      | false =>
          rw [hgo] at hrest
          cases hrest
          rw [if_neg Bool.false_ne_true, List.append_nil, hadd]
          exact hloop

/-- So does either kind of frame. -/
theorem executeCycleLoop (h : TraceKept V m act) {slices : Nat}
    (hrun : executeCycleLoop V slices s = some s') :
    Traced m act (m s) (cycleStarts V slices s) (m s') := by
  unfold Core.executeCycleLoop at hrun
  unfold Core.cycleStarts
  cases hbench : s.cachedSystemState .bench with
  | false =>
      rw [hbench] at hrun
      exact h.instructionLoop hrun
  | true =>
      rw [hbench] at hrun
      exact h.benchLoop slices hrun

/-- **A frame** and the instructions of it. -/
theorem workerFrame (h : TraceKept V m act) {input : FrameInput}
    (hrun : workerFrame V input s = some s') :
    Traced m act (m s) (workerStarts V input s) (m s') := by
  have hsystem : m (s.onFamily .cacheSystemState) = m s :=
    h.onBooks (fun b => { b with cachedSystemState := b.systemState }) (fun _ => rfl) s
  have hquirks : m ((s.onFamily .cacheSystemState).onFamily .cacheQuirks) = m s :=
    (h.onBooks (fun b => { b with cachedQuirkFlags := b.quirkFlags }) (fun _ => rfl) _).trans
      hsystem
  unfold Core.workerFrame Core.mainSystemLoop at hrun
  unfold workerStarts frameStarts
  dsimp only at hrun ⊢
  split at hrun
  next hstop =>
    cases hrun
    rw [if_pos hstop, hsystem]
    exact .nil _
  next hstop =>
    obtain ⟨t, ht, rfl⟩ := Option.map_eq_some_iff.1 hrun
    rw [if_neg hstop, h.onBooks Books.countFrame IFamily.countFrame_eq]
    split at ht
    next hpause =>
      cases ht
      rw [if_pos hpause, h.pushAudioData, hquirks]
      exact .nil _
    next hpause =>
      obtain ⟨u, hu, rfl⟩ := Option.map_eq_some_iff.1 ht
      have hloop := h.executeCycleLoop hu
      rw [h.prepareFrame, hquirks] at hloop
      rw [if_neg hpause, h.pushVideoData, h.pushAudioData, h.handlePostWorkInterrupts]
      exact hloop

/-- **A run** and the instructions of it. -/
theorem run (h : TraceKept V m act) {events : List Event}
    (hkept : ∀ x ∈ Runs.taken (step V) s events, x.2.isFrame = false →
      ∀ s', step V x.1 x.2 = some s' → m s' = m x.1)
    (hrun : Runs.run (step V) s events = some s') :
    Traced m act (m s) (instructionStarts V s events) (m s') := by
  induction events generalizing s with
  | nil => cases hrun; exact .nil _
  | cons e events ih =>
      obtain ⟨t, ht, hrest⟩ := Runs.run_cons_eq_some.1 hrun
      rw [Runs.taken, ht, Option.elim_some, List.forall_mem_cons] at hkept
      rw [instructionStarts, Runs.tried, ht, Option.elim_some, List.flatMap_cons]
      refine Traced.append ?_ (ih hkept.2 hrest)
      cases e with
      | frame input => exact h.workerFrame ht
      | _ => exact hkept.1 rfl t ht ▸ .nil _

end TraceKept

end CubeChip.Core
