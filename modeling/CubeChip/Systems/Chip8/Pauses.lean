import CubeChip.Systems.Chip8.Held
import CubeChip.Systems.Chip8.SideBySide

/-!
# Pauses

While a system is stopped or paused the worker goes on with its frames, but these only copy the
state of the system and the quirks. Every frame that does anything copies them anew before it reads
them. So the frames of a pause may be left out: what is left of a run executes the same
instructions in the same states, and ends in the same state but for the two copies.
-/

namespace CubeChip

namespace IFamily

/-- Change the copies of the system's state and of the quirks. -/
def recache (system : SystemState) (quirks : QuirkFlags) (s : IFamily) : IFamily :=
  { s with cachedSystemState := system, cachedQuirkFlags := quirks }

end IFamily

namespace Core

variable {bits : Nat} {Own Instruction : Type} {s u : Core bits Own}

/-- The same state, but for the two copies. -/
def SameUncached (s u : Core bits Own) : Prop :=
  ∃ system quirks, u = s.onFamily (.recache system quirks)

theorem SameUncached.refl (s : Core bits Own) : SameUncached s s :=
  ⟨s.cachedSystemState, s.cachedQuirkFlags, rfl⟩

/-- What does not read the copies leaves such states alike. -/
theorem SameUncached.map (h : SameUncached s u) {f : Core bits Own → Core bits Own}
    (hf : ∀ system quirks s, f (s.onFamily (.recache system quirks)) =
      (f s).onFamily (.recache system quirks)) : SameUncached (f s) (f u) := by
  obtain ⟨system, quirks, rfl⟩ := h
  exact ⟨system, quirks, hf system quirks s⟩

/-- What a core shows of its output and its reset. -/
structure PausesKept (V : Virtuals bits Own Instruction) : Prop where
  pushAudioData : ∀ input (s : Core bits Own),
    s.cachedSystemState.has EmuState.anyPause = true → V.pushAudioData input s = s
  performInstanceReset : ∀ system quirks (s : Core bits Own),
    performInstanceReset V (s.onFamily (.recache system quirks)) =
      (performInstanceReset V s).onFamily (.recache system quirks)

/-- A frame of a system that is stopped or paused. -/
def pausedFrame (s : Core bits Own) : Event → Bool
  | .frame _ => s.systemState.has EmuState.notRunning
  | _ => false

namespace PausesKept

variable {V : Virtuals bits Own Instruction}

/-- A frame of a pause changes the copies at most, and executes nothing. -/
theorem pausedFrame_step (h : PausesKept V) {e : Event} (hsame : SameUncached s u)
    (hpaused : pausedFrame s e = true) :
    eventStarts V s e = [] ∧ ∃ s', step V s e = some s' ∧ SameUncached s' u := by
  cases e with
  | frame input =>
      have hnot : s.systemState.has EmuState.notRunning = true := hpaused
      obtain ⟨system, quirks, rfl⟩ := hsame
      have hcached : (s.onFamily .cacheSystemState).cachedSystemState = s.systemState := rfl
      have hquirks : ((s.onFamily .cacheSystemState).onFamily .cacheQuirks).cachedSystemState =
        s.systemState := rfl
      simp only [eventStarts, workerStarts, frameStarts, step, workerFrame, mainSystemLoop, hcached,
        hquirks]
      cases hstop : s.systemState.has EmuState.anyStop with
      | true => exact ⟨if_pos rfl, _, if_pos rfl, system, quirks, rfl⟩
      | false =>
          have hpause : s.systemState.has EmuState.anyPause = true := by
            rwa [SystemState.has_notRunning, hstop, Bool.false_or] at hnot
          have haudio := h.pushAudioData input
            ((s.onFamily .cacheSystemState).onFamily .cacheQuirks) hpause
          have hcount :
              ((s.onFamily .cacheSystemState).onFamily .cacheQuirks).onFamily .countFrame =
                (s.onFamily .cacheSystemState).onFamily .cacheQuirks :=
            congrArg (fun F => (⟨F, s.memory, s.own⟩ : Core bits Own)) (if_pos hnot)
          rw [if_neg Bool.false_ne_true, if_neg Bool.false_ne_true, if_pos hpause, if_pos hpause,
            haudio, Option.map_some, hcount]
          exact ⟨rfl, _, rfl, system, quirks, rfl⟩
  | _ => cases hpaused

theorem workerReset_rel (h : PausesKept V) (hsame : SameUncached s u) :
    SameUncached (workerReset V s) (workerReset V u) := by
  refine hsame.map fun system quirks s => ?_
  have hstate : (s.onFamily (.recache system quirks)).systemState = s.systemState := rfl
  unfold workerReset
  rw [hstate]
  split
  · rw [h.performInstanceReset]
    rfl
  · rfl

theorem guiStep_rel (hsame : SameUncached s u) (op : GuiOp) :
    SameUncached (guiStep V op s) (guiStep V op u) := by
  refine hsame.map fun system quirks s => ?_
  have hstate : (s.onFamily (.recache system quirks)).systemState = s.systemState := rfl
  cases op with
  | tryPauseSystem =>
      unfold guiStep
      dsimp only
      rw [hstate]
      split <;> rfl
  | toggleQuirk flag =>
      unfold guiStep
      dsimp only
      split <;> rfl
  | _ => rfl

/-- A frame copies them anew. -/
theorem workerFrame_rel (hsame : SameUncached s u) (input : FrameInput) :
    Option.Rel SameUncached (workerFrame V input s) (workerFrame V input u) := by
  obtain ⟨system, quirks, rfl⟩ := hsame
  cases hstop : s.systemState.has EmuState.anyStop with
  | true =>
      have hs : workerFrame V input s = some (s.onFamily .cacheSystemState) := if_pos hstop
      have hu : workerFrame V input (s.onFamily (.recache system quirks)) =
        some ((s.onFamily (.recache system quirks)).onFamily .cacheSystemState) := if_pos hstop
      rw [hs, hu]
      exact .some ⟨s.systemState, quirks, rfl⟩
  | false =>
      have hs : workerFrame V input s = _ := if_neg (Bool.eq_false_iff.1 hstop)
      have hu : workerFrame V input (s.onFamily (.recache system quirks)) = _ :=
        if_neg (Bool.eq_false_iff.1 hstop)
      have heq : workerFrame V input (s.onFamily (.recache system quirks)) =
        workerFrame V input s := hu.trans hs.symm
      rw [heq]
      cases workerFrame V input s with
      | none => exact .none
      | some t => exact .some (.refl t)

/-- **The other events** do not read the copies. -/
theorem step_rel (h : PausesKept V) (hsame : SameUncached s u) (e : Event) :
    eventStarts V s e = eventStarts V u e ∧ Option.Rel SameUncached (step V s e) (step V u e) := by
  cases e with
  | reset => exact ⟨rfl, .some (h.workerReset_rel hsame)⟩
  | frame input =>
      refine ⟨?_, workerFrame_rel hsame input⟩
      obtain ⟨system, quirks, rfl⟩ := hsame
      rfl
  | gui op => exact ⟨rfl, .some (guiStep_rel hsame op)⟩
  | host host =>
      obtain ⟨system, quirks, rfl⟩ := hsame
      exact ⟨rfl, .some ⟨system, quirks, rfl⟩⟩

/-- **A run and what is left of it without its pauses.** -/
theorem run (h : PausesKept V) (s : Core bits Own) (events : List Event) :
    Option.Rel SameUncached (Runs.run (step V) s events)
        (Runs.run (step V) s (Runs.without (step V) pausedFrame s events)) ∧
      instructionStarts V s events =
        instructionStarts V s (Runs.without (step V) pausedFrame s events) :=
  have hidle (s u : Core bits Own) (e : Event) (hsame : SameUncached s u)
      (hpaused : pausedFrame s e = true) := h.pausedFrame_step hsame hpaused
  Runs.run_without hidle (fun _ _ e hsame _ => h.step_rel hsame e) (.refl s) events

end PausesKept

end Core

end CubeChip
