import CubeChip.Systems.Chip8.Pauses
import CubeChip.Systems.Chip8.Cores.Flow

/-!
# The pauses of each core

A paused core is left as it is by its output: the generators of its sound do not run, so a track of
`MEGACHIP` does not end either. So the frames of a pause may be left out of a run of any core.
-/

namespace CubeChip

open CubeChip.Core

namespace Megachip

/-- In a pause no generator runs. -/
theorem mixAudioData_of_pause {s : Megachip} (generators : Megachip → Megachip)
    (hpause : s.cachedSystemState.has EmuState.anyPause = true) :
    mixAudioData generators s = s := by
  unfold mixAudioData
  rw [hpause, Bool.not_true, Bool.and_false, if_neg Bool.false_ne_true]

/-- So a track of `MEGACHIP` does not end in a pause. -/
theorem pausesKept : PausesKept virtuals where
  pushAudioData := fun input s hpause => by
    simp only [virtuals, pushAudioData, mixAudioData_of_pause _ hpause]
    rw [if_pos hpause, if_pos hpause, ite_self]
  performInstanceReset := fun _ _ _ => rfl

end Megachip

/-- The other cores leave the border alone in a pause. -/
theorem FamilyCore.pausesKept : (core : FamilyCore) → PausesKept core.virtuals
  | .chip8E => ⟨fun _ _ hpause => if_pos hpause, fun _ _ _ => rfl⟩
  | .chip8X => ⟨fun _ _ hpause => if_pos hpause, fun _ _ _ => rfl⟩
  | .chip8Modern => ⟨fun _ _ hpause => if_pos hpause, fun _ _ _ => rfl⟩
  | .megachip => Megachip.pausesKept
  | .schipLegacy => ⟨fun _ _ hpause => if_pos hpause, fun _ _ _ => rfl⟩
  | .schipModern => ⟨fun _ _ hpause => if_pos hpause, fun _ _ _ => rfl⟩
  | .xochip => ⟨fun _ _ hpause => if_pos hpause, fun _ _ _ => rfl⟩

/-- **Pauses leave no trace.** A run of any core, from any state, with its frames stopped and paused
at any times and for any number of frames, executes the same instructions in the same states as
what is left of it without those frames, and ends in the same state but for the copies that the
next frame makes anew. -/
theorem pauses_dropped (core : FamilyCore) (s : Core core.bits core.Own) (events : List Event) :
    let left := Runs.without (step core.virtuals) pausedFrame s events
    Option.Rel SameUncached (Runs.run (step core.virtuals) s events)
        (Runs.run (step core.virtuals) s left) ∧
      instructionStarts core.virtuals s events = instructionStarts core.virtuals s left :=
  core.pausesKept.run s events

/-- Two frames of four fall in a pause. -/
example : (Runs.without (step Chip8Modern.virtuals) pausedFrame
    (Chip8Modern.boot (.ofProgram [0x12, 0x00]))
    [.idle, .gui .tryPauseSystem, .idle, .idle, .gui .tryPauseSystem, .idle]).length = 4 := by
  decide +kernel

end CubeChip
