import CubeChip.Systems.Chip8.Common
import CubeChip.Systems.Chip8.Interrupts

/-!
# The timers

Delay timer and voices are 32-bit counters, but the registers read and write them as bytes:
Fx07 cuts the delay timer off, and a sound is on if the *sum* of the voices is not 0. `InByte`
is why neither goes wrong. A core shows that its instructions keep it, `TimersKept`, and the
frame, the GUI thread and a reset do the rest.
-/

namespace CubeChip

/-! ## The processor -/

namespace Cpu

/-- Every timer is below 256. -/
def InByte (c : Cpu) : Prop :=
  c.delayTimer.toNat < 256 ∧ ∀ i, (c.voices i).get.toNat < 256

/-- Only the timers matter. -/
theorem InByte.congr {c c' : Cpu} (h : c.InByte) (hdelay : c'.delayTimer = c.delayTimer)
    (hvoices : c'.voices = c.voices) : c'.InByte := by
  unfold InByte
  rw [hdelay, hvoices]
  exact h

/-- Timers that are 0 fit a byte. -/
theorem inByte_reset {c : Cpu} (hdelay : c.delayTimer = 0)
    (hvoices : c.voices = fun _ => AudioTimer.reset) : c.InByte := by
  unfold InByte
  rw [hdelay, hvoices]
  exact ⟨by decide, fun _ => show AudioTimer.reset.get.toNat < 256 by decide⟩

/-- A register is a byte. -/
theorem toNat_toUInt32_lt (value : UInt8) : value.toUInt32.toNat < 256 := by
  rw [UInt8.toNat_toUInt32]
  exact value.toNat_lt

/-- A sound lasts as long as a register says. -/
theorem toNat_soundDuration_lt (c : Cpu) (X : Fin 16) : (c.soundDuration X).toNat < 256 := by
  unfold soundDuration
  split
  · next h => rw [h]; decide
  · simpa using toNat_toUInt32_lt (c.registersV X)

/-- A voice starts with a time that fits. -/
theorem InByte.startVoiceAt {c : Cpu} (h : c.InByte) (index : Fin 4) {duration : UInt32}
    (hduration : duration.toNat < 256) : (c.startVoiceAt index duration).InByte := by
  refine ⟨h.1, fun i => ?_⟩
  unfold Cpu.startVoiceAt
  dsimp only
  rcases eq_or_ne i index with rfl | hi
  · rw [Function.update_self]
    exact hduration
  · rw [Function.update_of_ne hi]
    exact h.2 i

/-- So does the next voice in turn. -/
theorem InByte.startVoice {c : Cpu} (h : c.InByte) {duration : UInt32}
    (hduration : duration.toNat < 256) : (c.startVoice duration).InByte :=
  h.startVoiceAt c.lastVoiceIndex.castSucc hduration

/-- A loop over registers. -/
theorem InByte.foldl {α : Type} {f : Cpu → α → Cpu} {c : Cpu} (h : c.InByte)
    (hf : ∀ c x, InByte c → InByte (f c x)) (xs : List α) : (xs.foldl f c).InByte :=
  List.foldlRecOn (motive := InByte) xs f h fun c hc x _ => hf c x hc

/-- The quirk of the logical operations. -/
theorem InByte.resetVf {c : Cpu} (h : c.InByte) (quirk : Bool) : (c.resetVf quirk).InByte := by
  unfold Cpu.resetVf
  split <;> exact h

/-- The quirk of the shifts. -/
theorem InByte.loadShifted {c : Cpu} (h : c.InByte) (inPlace : Bool) (X Y : Fin 16) :
    (c.loadShifted inPlace X Y).InByte := by
  unfold Cpu.loadShifted
  split <;> exact h

/-- Timers in a byte do not overflow when the voices are added up. -/
theorem anyVoice_iff {c : Cpu} (h : c.InByte) :
    c.anyVoice = true ↔ ∃ i, (c.voices i).get ≠ 0 := by
  have h0 := h.2 0
  have h1 := h.2 1
  have h2 := h.2 2
  have h3 := h.2 3
  have hsum : ((c.voices 0).get + (c.voices 1).get + (c.voices 2).get + (c.voices 3).get).toNat =
      (c.voices 0).get.toNat + (c.voices 1).get.toNat + (c.voices 2).get.toNat +
        (c.voices 3).get.toNat := by
    simp only [UInt32.toNat_add]
    omega
  have hne (n : UInt32) : n ≠ 0 ↔ n.toNat ≠ 0 := (UInt32.toNat_inj (b := 0)).not.symm
  unfold anyVoice
  rw [bne_iff_ne, hne, hsum]
  simp only [hne]
  constructor
  · intro hne
    by_contra hall
    push Not at hall
    exact hne (by rw [hall 0, hall 1, hall 2, hall 3])
  · rintro ⟨i, hi⟩
    match i with
    | 0 | 1 | 2 | 3 => omega

end Cpu

/-! ## The frame -/

namespace IFamily

/-- A frame begins with the timers one lower. -/
theorem inByte_prepareFrame (keys : Scancode → Bool) {s : IFamily} (h : s.InByte) :
    (s.prepareFrame keys).InByte := by
  obtain ⟨hvoices, hdelay⟩ := timers_prepareFrame keys s
  refine Cpu.InByte.congr (c := s.handleTimerTicks.toCpu) ⟨?_, fun i => ?_⟩ hdelay hvoices
  · rw [toNat_delayTimer_handleTimerTicks]
    exact Nat.lt_of_le_of_lt (Nat.sub_le _ _) h.1
  · exact (AudioTimer.toNat_get_dec (s.voices i)).trans_lt
      (Nat.lt_of_le_of_lt (Nat.sub_le _ _) (h.2 i))

/-- A key that is caught is heard for two frames. -/
theorem inByte_handlePostWorkInterrupts {s : IFamily} (h : s.InByte) :
    s.handlePostWorkInterrupts.InByte := by
  have hcatch : (s.toCpu.catchPress s.elapsedFrames).2.InByte := by
    unfold Cpu.catchPress
    dsimp only
    split <;> exact h
  unfold handlePostWorkInterrupts
  split
  · dsimp only
    split
    · exact Cpu.InByte.startVoiceAt (c := { (s.toCpu.catchPress s.elapsedFrames).2 with
        interrupt := .clear }) hcatch voiceBuzzer (by decide)
    · exact hcatch
  all_goals exact h

/-- The end of a frame counts it. -/
theorem inByte_countFrame {s : IFamily} (h : s.InByte) : s.countFrame.InByte := by
  unfold countFrame
  split <;> exact h

end IFamily

/-! ## Runs -/

namespace Core

variable {bits : Nat} {Own Instruction : Type} {V : Virtuals bits Own Instruction}
  {s s' boot : Core bits Own}

/-- What a core shows of its instructions and its reset to keep its timers in a byte. -/
structure TimersKept (V : Virtuals bits Own Instruction) : Prop where
  execute : ∀ i s s', s.toCpu.InByte → V.execute i s = some s' → s'.toCpu.InByte
  resetSystemData : ∀ s, s.toCpu.InByte → (V.resetSystemData s).toCpu.InByte

namespace TimersKept

/-- The timers as what the loop of a frame keeps. -/
theorem loopKept (h : TimersKept V) (hV : V.FlowKept) : LoopKept V fun s => s.toCpu.InByte where
  loopEntry := fun s hs => (hV.enterLoop s).2.symm ▸ hs
  iterate := fun s s' hs _ hstep => by
    obtain ⟨t, ht, rfl⟩ := Option.map_eq_some_iff.1 hstep
    exact h.execute (current V s) s.fetch.2 t hs ht

/-- A frame. -/
theorem mainSystemLoop (h : TimersKept V) (hV : V.FlowKept) {input : FrameInput}
    (hs : s.toCpu.InByte) (hrun : mainSystemLoop V input s = some s') : s'.toCpu.InByte := by
  unfold Core.mainSystemLoop at hrun
  dsimp only at hrun
  split at hrun
  · cases hrun
    exact (hV.pushAudioData input _).2.1.symm ▸ hs
  · obtain ⟨t, ht, rfl⟩ := Option.map_eq_some_iff.1 hrun
    have hloop : t.toCpu.InByte := (h.loopKept hV).executeCycleLoop (fun _ _ ht => ht)
      (s := (s.onFamily .cacheQuirks).onFamily (.prepareFrame input.keys))
      (IFamily.inByte_prepareFrame input.keys hs) ht
    have hpost : (t.onFamily .handlePostWorkInterrupts).toCpu.InByte :=
      IFamily.inByte_handlePostWorkInterrupts hloop
    rw [(hV.pushVideoData _).2.1, (hV.pushAudioData input _).2.1]
    exact hpost

/-- An iteration of the worker with a frame in it. -/
theorem workerFrame (h : TimersKept V) (hV : V.FlowKept) {input : FrameInput}
    (hs : s.toCpu.InByte) (hrun : workerFrame V input s = some s') : s'.toCpu.InByte := by
  unfold Core.workerFrame at hrun
  dsimp only at hrun
  split at hrun
  · cases hrun; exact hs
  · obtain ⟨t, ht, rfl⟩ := Option.map_eq_some_iff.1 hrun
    exact IFamily.inByte_countFrame (h.mainSystemLoop hV (s := s.onFamily .cacheSystemState) hs ht)

/-- Wherever an instruction of a frame starts. -/
theorem workerStarts (h : TimersKept V) (hV : V.FlowKept) (input : FrameInput)
    (hs : s.toCpu.InByte) : ∀ t ∈ workerStarts V input s, t.toCpu.InByte := by
  rcases workerStarts_cases V input s with heq | heq <;> rw [heq] <;> intro t ht
  · exact nomatch ht
  · have hentry : (frameEntry input s).toCpu.InByte := IFamily.inByte_prepareFrame input.keys hs
    exact ((h.loopKept hV).cycleStarts input.slices hentry t ht).1

/-- One event. -/
theorem step (h : TimersKept V) (hV : V.FlowKept) (hs : s.toCpu.InByte) {e : Event}
    (hstep : step V s e = some s') : s'.toCpu.InByte := by
  cases e with
  | reset =>
      cases hstep
      unfold workerReset
      split
      · exact h.resetSystemData _ (Cpu.inByte_reset rfl rfl)
      · exact hs
  | frame input => exact h.workerFrame hV hs hstep
  | gui op => cases hstep; exact (guiKept_guiStep V s op).cpu.symm ▸ hs
  | host host => cases hstep; exact hs

/-- Any run. -/
theorem reachable (h : TimersKept V) (hV : V.FlowKept) (hboot : boot.toCpu.InByte)
    (hs : Reachable V boot s) : s.toCpu.InByte := by
  obtain ⟨events, hrun⟩ := hs
  exact Runs.run_invariant (I := fun s => s.toCpu.InByte) (fun _ _ _ hs => h.step hV hs) hboot hrun

end TimersKept

/-- A shared instruction. -/
theorem inByte_executeCommon (cfg : Common.Config) (i : Common) {s : Core bits Own}
    (h : s.toCpu.InByte) : (s.executeCommon cfg i).toCpu.InByte := by
  cases i with
  | i8xy0 | i8xy1 | i8xy2 | i8xy3 => exact Cpu.InByte.resetVf (c := Cpu.setV _ _ _) h _
  | i8xy6 | i8xyE => exact h.loadShifted cfg.shiftInPlace _ _
  | iFx15 X => exact ⟨Cpu.toNat_toUInt32_lt (s.registersV X), h.2⟩
  | iFN65 N => exact h.foldl (by exact fun _ _ h => h) (List.range (N.val + 1))
  | _ => exact h

end Core

end CubeChip
