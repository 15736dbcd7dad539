import CubeChip.Systems.Chip8.Timers

/-!
# The timers of each core

The instructions of the seven cores that set a timer (Fx15, Fx18, and FX1B's sibling FX4F of
CHIP8E) set it from a register. So the timers of every state of every core fit in a byte, and
no program waits on them for more than 256 frames.
-/

namespace CubeChip

open CubeChip.Core

/-! ## Monochrome cores -/

namespace Chip8E

/-- `Fx4F` sets the delay timer from a register. -/
theorem timersKept : TimersKept virtuals where
  execute := fun i s s' hs h => by
    cases i with
    | common i => cases h; exact inByte_executeCommon config i hs
    | i5xy3 X Y =>
        cases h
        exact List.foldlRecOn (motive := fun t : Chip8E => t.toCpu.InByte) _ _ hs
          fun t ht Z _ => ht
    | i5xy2 X Y =>
        cases h
        exact List.foldlRecOn (motive := fun t : Chip8E => t.toCpu.InByte) _ _ hs
          fun t ht Z _ => ht
    | iFx18 X => cases h; exact hs.startVoice (s.toNat_soundDuration_lt X)
    | iFx4F X => cases h; exact ⟨Cpu.toNat_toUInt32_lt (s.registersV X), hs.2⟩
    | _ => cases h; exact hs
  resetSystemData := fun _ hs => hs

end Chip8E

namespace Chip8X

/-- `Fx18` starts one voice, whose pitch `CHIP8X` sets. -/
theorem timersKept : TimersKept virtuals where
  execute := fun i s s' hs h => by
    cases i with
    | common i => cases h; exact inByte_executeCommon config i hs
    | iBxyN X Y N => cases h; unfold instructionBxyN; dsimp only; split <;> exact hs
    | iFx18 X => cases h; exact hs.startVoiceAt voiceUnique (s.toNat_soundDuration_lt X)
    | _ => cases h; exact hs
  resetSystemData := fun _ hs => hs

end Chip8X

namespace Chip8Modern

/-- `CHIP8_MODERN` starts voices from a register. -/
theorem timersKept : TimersKept virtuals where
  execute := fun i s s' hs h => by
    cases i with
    | common i => cases h; exact inByte_executeCommon (config s) i hs
    | iFx18 X => cases h; exact hs.startVoice (s.toNat_soundDuration_lt X)
    | _ => cases h; exact hs
  resetSystemData := fun _ hs => hs

end Chip8Modern

namespace SchipModern

/-- The permanent registers are no timers. -/
theorem timersKept : TimersKept virtuals where
  execute := fun i s s' hs h => by
    cases i with
    | common i => cases h; exact inByte_executeCommon (config s) i hs
    | i00CN N => cases h; unfold instruction00CN; split <;> exact hs
    | iFx18 X => cases h; exact hs.startVoice (s.toNat_soundDuration_lt X)
    | iFN85 N =>
        obtain ⟨r, _, rfl⟩ := Option.map_eq_some_iff.1 h
        exact hs
    | _ => cases h; exact hs
  resetSystemData := fun _ hs => hs

end SchipModern

namespace SchipLegacy

/-- Nor are they in the original SUPERCHIP. -/
theorem timersKept : TimersKept virtuals where
  execute := fun i s s' hs h => by
    cases i with
    | common i => cases h; exact inByte_executeCommon (config s) i hs
    | iFx18 X => cases h; exact hs.startVoice (s.toNat_soundDuration_lt X)
    | iFN85 N =>
        obtain ⟨r, _, rfl⟩ := Option.map_eq_some_iff.1 h
        exact hs
    | _ => cases h; exact hs
  resetSystemData := fun _ hs => hs

end SchipLegacy

/-! ## Cores with colours of their own -/

namespace Xochip

/-- `XOCHIP` starts the voice of its pattern. -/
theorem timersKept : TimersKept virtuals where
  execute := fun i s s' hs h => by
    cases i with
    | common i => cases h; exact inByte_executeCommon (config s) i hs
    | i00CN N => cases h; unfold instruction00CN; split <;> exact hs
    | i00DN N => cases h; unfold instruction00DN; split <;> exact hs
    | i5xy3 X Y => cases h; exact hs.foldl (by exact fun _ _ h => h) _
    | iFx18 X => cases h; exact hs.startVoiceAt voiceUnique (s.toNat_soundDuration_lt X)
    | iFN85 N =>
        obtain ⟨r, _, rfl⟩ := Option.map_eq_some_iff.1 h
        exact hs
    | _ => cases h; exact hs
  resetSystemData := fun _ hs => hs

end Xochip

namespace Megachip

variable {s : Megachip}

/-- A scroll, in either mode. -/
theorem inByte_scroll (cols rows : Int) (h : s.toCpu.InByte) :
    (scroll cols rows s).toCpu.InByte := by
  unfold scroll
  split <;> exact h

/-- A texture. -/
theorem inByte_drawTexture (xBegin yBegin : Nat) (h : s.toCpu.InByte) :
    (drawTexture s xBegin yBegin).toCpu.InByte := by
  unfold drawTexture
  split <;> exact h

/-- What `DxyN` draws, in either mode. -/
theorem inByte_instructionDxyN (X Y N : Fin 16) (h : s.toCpu.InByte) :
    (instructionDxyN s X Y N).toCpu.InByte := by
  unfold instructionDxyN
  split
  · unfold drawMega
    dsimp only
    split
    · exact h
    · split
      · exact h
      · exact inByte_drawTexture (s := s.onCpu (·.setV 0xF 0)) _ _ h
  · exact h

/-- Tracks have no timer. -/
theorem timersKept : TimersKept virtuals where
  execute := fun i s s' hs h => by
    cases i with
    | common i => cases h; exact inByte_executeCommon (config s) i hs
    | i00BN | i00CN | i00FB | i00FC => cases h; exact inByte_scroll _ _ hs
    | i00E0 => cases h; unfold instruction00E0; split <;> exact hs
    | i060N N => cases h; unfold instruction060N startAudioTrack; split <;> exact hs
    | iDxyN X Y N => cases h; exact inByte_instructionDxyN X Y N hs
    | iFx18 X => cases h; exact hs.startVoiceAt voiceBuzzer (s.toNat_soundDuration_lt X)
    | iFN85 N =>
        obtain ⟨r, _, rfl⟩ := Option.map_eq_some_iff.1 h
        exact hs
    | _ => cases h; exact hs
  resetSystemData := fun _ hs => hs

end Megachip

/-! ## The family -/

namespace FamilyCore

/-- What `TimersKept` asks holds of each member of the family. -/
theorem timersKept (core : FamilyCore) : TimersKept core.virtuals := by
  cases core with
  | chip8E => exact Chip8E.timersKept
  | chip8X => exact Chip8X.timersKept
  | chip8Modern => exact Chip8Modern.timersKept
  | megachip => exact Megachip.timersKept
  | schipLegacy => exact SchipLegacy.timersKept
  | schipModern => exact SchipModern.timersKept
  | xochip => exact Xochip.timersKept

/-- Every core starts with its timers at 0. -/
theorem Boots.inByte {core : FamilyCore} {s : Core core.bits core.Own} (h : core.Boots s) :
    s.toCpu.InByte := by
  cases core with
  | megachip => obtain ⟨launch, unset, rfl⟩ := h; exact Cpu.inByte_reset rfl rfl
  | _ => obtain ⟨launch, rfl⟩ := h; exact Cpu.inByte_reset rfl rfl

end FamilyCore

/-- What a program and the output read off the timers: nothing is cut off. -/
structure ReadsTimers {bits : Nat} {Own : Type} (s : Core bits Own) : Prop where
  delayTimer : s.delayTimer.toNat < 256
  voices : ∀ i, (s.voices i).get.toNat < 256
  /-- Fx07 reads the delay timer. -/
  instructionFx07 : ∀ X, ((s.toCpu.instructionFx07 X).registersV X).toUInt32 = s.delayTimer
  /-- There is sound precisely if a voice is on. -/
  anyVoice : s.anyVoice = true ↔ ∃ i, (s.voices i).get ≠ 0

/-- A byte is read as it is. -/
theorem readsTimers_of_inByte {bits : Nat} {Own : Type} {s : Core bits Own}
    (h : s.toCpu.InByte) : ReadsTimers s where
  delayTimer := h.1
  voices := h.2
  instructionFx07 := fun X => by
    unfold Cpu.instructionFx07 Cpu.setV
    dsimp only
    rw [Function.update_self, ← UInt32.toNat_inj, UInt8.toNat_toUInt32, UInt32.toNat_toUInt8]
    exact Nat.mod_eq_of_lt h.1
  anyVoice := Cpu.anyVoice_iff h

/-- **Timers in every state** of every core, between its frames and inside them. -/
theorem readsTimers_reachable (core : FamilyCore) (boot s : Core core.bits core.Own)
    (hboot : core.Boots boot) (hs : Reachable core.virtuals boot s) :
    ReadsTimers s ∧ ∀ input, ∀ t ∈ workerStarts core.virtuals input s, ReadsTimers t := by
  have hbyte := core.timersKept.reachable core.flowKept hboot.inByte hs
  refine ⟨readsTimers_of_inByte hbyte, fun input t ht => readsTimers_of_inByte ?_⟩
  exact core.timersKept.workerStarts core.flowKept input hbyte t ht

/-- A program that starts its delay timer and a voice and goes on. -/
def timing : Chip8Modern := Chip8Modern.boot
  (.ofProgram [0x60, 0x09, 0xF0, 0x15, 0x60, 0x06, 0xF0, 0x18, 0x61, 0x00, 0x12, 0x08])

/-- Both are running after its second frame. -/
theorem readsTimers_reachable_timing : ∃ s,
    Runs.run (step Chip8Modern.virtuals) timing [.idle, .idle] = some s ∧
      (s.delayTimer = 8 ∧ (s.voices 0).get = 5) ∧
      ReadsTimers s ∧ ∀ input, ∀ t ∈ workerStarts Chip8Modern.virtuals input s, ReadsTimers t := by
  have hrun : (Runs.run (step Chip8Modern.virtuals) timing [.idle, .idle]).map
      (fun s => (s.delayTimer, (s.voices 0).get)) = some (8, 5) := by decide +kernel
  obtain ⟨s, hs, htimers⟩ := Option.map_eq_some_iff.1 hrun
  exact ⟨s, hs, Prod.mk.inj htimers, readsTimers_reachable .chip8Modern timing s ⟨_, rfl⟩ ⟨_, hs⟩⟩

/-! ## Waiting -/

/-- Every state reached is one the next frame can start from. -/
theorem FamilyCore.ready_reachable {core : FamilyCore} {boot s : Core core.bits core.Own}
    (hboot : core.Boots boot) (hs : Reachable core.virtuals boot s) : Ready core.virtuals s := by
  obtain ⟨events, hevents⟩ := hs
  have hready : Ready core.virtuals boot := core.flowKept.speed.imp_right fun hkeep =>
    ⟨hkeep, .inr (hkeep boot ▸ hboot.speed)⟩
  exact Runs.run_invariant (fun _ _ _ hs hstep => hs.step core.flowKept hstep) hready hevents

section
variable {bits : Nat} {Own Instruction : Type} {V : Virtuals bits Own Instruction}
  {s s' : Core bits Own}

/-- A voice ends within 256 frames. -/
theorem longestVoice_lt (h : s.toCpu.InByte) : s.longestVoice < 256 :=
  (Finset.sup_lt_iff (by decide)).2 fun i _ => h.2 i

/-- A frame that cannot execute an instruction does not end the process. -/
theorem turn_enabled (hV : V.FlowKept) {a : Turn} (h : a.unpaused = true → s.ticked ≠ .clear) :
    ∃ s', turn V s a = some s' := by
  cases a with
  | gui op => exact ⟨_, rfl⟩
  | host host => exact ⟨_, rfl⟩
  | frame cached input =>
      cases hpause : cached.has EmuState.anyPause with
      | true =>
          have hmain : mainSystemLoop V input (snapshot cached s) = some _ := if_pos hpause
          exact ⟨_, by rw [turn, hmain]; rfl⟩
      | false =>
          have hentry : (entry cached input s).interrupt ≠ .clear := by
            rw [interrupt_entry]
            exact h ((Bool.not_eq_true' _).mpr hpause)
          obtain ⟨-, t, ht, -⟩ := executeCycleLoop_blocked hV input.slices hentry
          exact ⟨_, by rw [turn_unpaused V hpause, ht]; rfl⟩

/-- A program that has ended. -/
theorem exists_run_of_sound (hV : V.FlowKept) (hi : s.interrupt = .sound) {turns : List Turn}
    (hlong : max 1 s.longestVoice < turns.countP Turn.unpaused) :
    ∃ t, Runs.run (turn V) s turns = some t ∧ t.interrupt = .final ∧
      t.systemState .halted = true := by
  have hstart : SoundAt s.longestVoice (s.systemState .halted) 0 s :=
    ⟨hi.trans (if_pos (by omega)).symm, rfl, (Bool.or_false _).symm⟩
  obtain ⟨t, ht, hat⟩ := Runs.exists_run_countP (p := Turn.unpaused)
    (I := SoundAt s.longestVoice (s.systemState .halted))
    (fun n u a hu _ => (turn_enabled hV fun _ => hu.blocked.1).imp
      fun _ hstep => ⟨hstep, hu.turn hV hstep⟩) hstart (le_refl (turns.countP _))
  refine ⟨t, ht, hat.interrupt.trans (if_neg (by omega)), hat.halted.trans ?_⟩
  rw [decide_eq_true hlong]
  exact Bool.or_true _

/-- A program that waits for its delay timer: between the turns is one that executes
instructions. -/
theorem exists_turnStarts_of_delay (hV : V.FlowKept) (hs : Ready V s) (hi : s.interrupt = .delay)
    {turns : List Turn} (hlong : max 1 s.delayTimer.toNat ≤ turns.countP Turn.unpaused) :
    ∃ before a after t, turns = before ++ a :: after ∧ Runs.run (turn V) s before = some t ∧
      turnStarts V t a ≠ [] := by
  have hlt : max 1 s.delayTimer.toNat - 1 < turns.countP Turn.unpaused := by omega
  obtain ⟨before, a, after, rfl, ha, hcount⟩ := Runs.exists_split_of_lt_countP hlt
  obtain ⟨t, ht, -⟩ := Runs.exists_run_countP (p := Turn.unpaused)
    (I := DelayAt s.delayTimer.toNat) (fun n u b hu hn => by
      refine (turn_enabled hV fun hb => ?_).imp fun _ hstep => ⟨hstep, hu.turn hV hstep⟩
      have := hn hb
      rw [hu.ticked (by omega), if_neg (by omega)]
      decide) ⟨fun _ => hi, fun _ => rfl⟩ hcount.le
  refine ⟨before, a, after, t, rfl, ht, ?_⟩
  cases a with
  | gui op => exact nomatch ha
  | host host => exact nomatch ha
  | frame cached input =>
      obtain ⟨-, -, hentry⟩ := (interruptMachine_of_ready hV hs).delay hi before t ht (by omega)
      obtain ⟨hstarts, hzero⟩ := hentry cached input ((Bool.not_eq_true' _).mp ha)
      exact hstarts.2 (hzero.2 (by omega))

end

/-- **No wait is longer than 256 frames** that are not paused: a program that has ended is
halted by then, and one that waits for its delay timer has gone on. -/
theorem waits_end (core : FamilyCore) (boot s : Core core.bits core.Own)
    (hboot : core.Boots boot) (hs : Reachable core.virtuals boot s) (turns : List Turn)
    (hlong : 256 ≤ turns.countP Turn.unpaused) :
    (s.interrupt = .sound → ∃ t, Runs.run (turn core.virtuals) s turns = some t ∧
      t.interrupt = .final ∧ t.systemState .halted = true) ∧
    (s.interrupt = .delay → ∃ before a after t, turns = before ++ a :: after ∧
      Runs.run (turn core.virtuals) s before = some t ∧ turnStarts core.virtuals t a ≠ []) := by
  have hbyte := core.timersKept.reachable core.flowKept hboot.inByte hs
  have hready := FamilyCore.ready_reachable hboot hs
  have hdelay := hbyte.1
  have hvoice := longestVoice_lt hbyte
  exact ⟨fun hi => exists_run_of_sound core.flowKept hi (by omega),
    fun hi => exists_turnStarts_of_delay core.flowKept hready hi (by omega)⟩

/-- A jump to itself, executed in the first frame. -/
theorem waits_end_jump :
    ∃ s t, step Chip8Modern.virtuals (Chip8Modern.boot (Launch.ofProgram [0x12, 0x00])) .idle =
        some s ∧ s.interrupt = .sound ∧
      Runs.run (turn Chip8Modern.virtuals) s
        (List.replicate 256 (.frame (fun _ => false) ⟨fun _ => false, 0, false⟩)) = some t ∧
      t.interrupt = .final ∧ t.systemState .halted = true := by
  have hsound : (step Chip8Modern.virtuals
      (Chip8Modern.boot (Launch.ofProgram [0x12, 0x00])) .idle).map (·.interrupt) = some .sound := by
    decide +kernel
  obtain ⟨s, hs, hi⟩ := Option.map_eq_some_iff.1 hsound
  obtain ⟨t, ht⟩ := (waits_end .chip8Modern _ s ⟨Launch.ofProgram [0x12, 0x00], rfl⟩
    ⟨[.idle], Runs.run_cons_eq_some.2 ⟨s, hs, rfl⟩⟩
    (List.replicate 256 (.frame (fun _ => false) ⟨fun _ => false, 0, false⟩))
    (by rw [List.countP_replicate]; decide)).1 hi
  exact ⟨s, t, hs, hi, ht⟩

end CubeChip
