import Mathlib.Data.Finset.Lattice.Fold
import Mathlib.Data.Fintype.Basic
import Mathlib.Order.Lattice.Nat
import Mathlib.Order.Nat
import CubeChip.Systems.Chip8.Cores.Flow

/-!
# The interrupts over many frames

An interrupt ends the instructions of its frame. What it does afterwards is decided by the
handlers before and after the cycle loop and by the timers, which tick once in each frame that
is not paused. A *turn* is what may happen to a core that is not reset: a frame on whatever
snapshot, an operation of the GUI thread, a change of the host. One frame is analysed by the
interrupt it enters its cycle loop with (`turn_blocked`, `turnStarts_ne_nil`), and a run by counting
the frames that were not paused. `Ready` is what lets an instruction execute at all when no
interrupt is left: a core that has not stopped for good has a speed.
-/

namespace CubeChip

namespace Core

/-! ## Turns -/

/-- What can happen to a core without a reset. -/
inductive Turn where
  | frame (cached : SystemState) (input : FrameInput)
  | gui (op : GuiOp)
  | host (host : Host)

/-- A frame in which the system is not paused. -/
def Turn.unpaused : Turn → Bool
  | .frame cached _ => !cached.has EmuState.anyPause
  | .gui _ => false
  | .host _ => false

section
variable {bits : Nat} {Own Instruction : Type} (V : Virtuals bits Own Instruction)

/-- A core with a snapshot of the system state. -/
def snapshot (cached : SystemState) (s : Core bits Own) : Core bits Own :=
  s.onFamily fun s => { s with cachedSystemState := cached }

/-- One turn; `none` if the process ends in it. -/
def turn (s : Core bits Own) : Turn → Option (Core bits Own)
  | .frame cached input =>
      (mainSystemLoop V input (snapshot cached s)).map fun s => s.onFamily .countFrame
  | .gui op => some (guiStep V op s)
  | .host host => some { s with host := host }

/-- The states the instructions of a turn start from. -/
def turnStarts (s : Core bits Own) : Turn → List (Core bits Own)
  | .frame cached input => frameStarts V input (snapshot cached s)
  | .gui _ => []
  | .host _ => []

/-- The state the cycle loop of a frame is entered in. -/
def entry (cached : SystemState) (input : FrameInput) (s : Core bits Own) : Core bits Own :=
  ((snapshot cached s).onFamily .cacheQuirks).onFamily (.prepareFrame input.keys)

/-- What a frame does after its cycle loop. -/
def finish (input : FrameInput) (s : Core bits Own) : Core bits Own :=
  (V.pushVideoData (V.pushAudioData input (s.onFamily .handlePostWorkInterrupts))).onFamily
    .countFrame

/-- The worker's frame is a turn, unless the system has stopped. -/
theorem workerFrame_eq_turn (input : FrameInput) (s : Core bits Own) :
    workerFrame V input s =
      if s.systemState.has EmuState.anyStop then some (s.onFamily .cacheSystemState)
      else turn V s (.frame s.systemState input) := rfl

/-- A frame that is not paused runs its cycles between the two handlers of interrupts. -/
theorem turn_unpaused {cached : SystemState} (h : cached.has EmuState.anyPause = false)
    (input : FrameInput) (s : Core bits Own) :
    turn V s (.frame cached input) =
      (executeCycleLoop V input.slices (entry cached input s)).map (finish V input) := by
  have hgo : ¬ cached.has EmuState.anyPause = true := by rw [h]; decide
  have hmain : mainSystemLoop V input (snapshot cached s) =
      (executeCycleLoop V input.slices (entry cached input s)).map fun s =>
        V.pushVideoData (V.pushAudioData input (s.onFamily .handlePostWorkInterrupts)) :=
    if_neg hgo
  rw [turn, hmain, Option.map_map]
  rfl

/-- The instructions it starts are those of its cycles. -/
theorem turnStarts_unpaused {cached : SystemState} (h : cached.has EmuState.anyPause = false)
    (input : FrameInput) (s : Core bits Own) :
    turnStarts V s (.frame cached input) = cycleStarts V input.slices (entry cached input s) :=
  if_neg (by rw [snapshot]; exact Bool.eq_false_iff.1 h)

/-- Only a frame that is not paused executes instructions. -/
theorem turnStarts_paused {s : Core bits Own} {a : Turn} (h : a.unpaused = false) :
    turnStarts V s a = [] := by
  cases a with
  | frame cached input => exact if_pos ((Bool.not_eq_false' _).mp h)
  | gui op => rfl
  | host host => rfl

end

end Core

/-! ## The handlers -/

/-- A timer counts down to 0. -/
theorem toNat_countDown {n : UInt32} (h : n ≠ 0) : (n - 1).toNat = n.toNat - 1 := by
  rw [UInt32.toNat_sub_of_le]
  · rfl
  · rw [UInt32.le_iff_toNat_le]
    have : n.toNat ≠ 0 := fun h0 => h (UInt32.toNat_inj.1 h0)
    exact Nat.one_le_iff_ne_zero.2 this

/-- A tick takes one from a timer that runs. -/
theorem AudioTimer.toNat_get_dec (t : AudioTimer) : t.dec.get.toNat = t.get.toNat - 1 := by
  unfold dec set get
  dsimp only
  split
  next h => exact toNat_countDown h
  next h => rw [not_not.1 h]; rfl

namespace IFamily

/-- The largest voice timer. -/
def longestVoice (s : IFamily) : Nat := Finset.univ.sup fun i => (s.voices i).get.toNat

/-- So the voice that runs longest is one shorter. -/
theorem longestVoice_handleTimerTicks (s : IFamily) :
    s.handleTimerTicks.longestVoice = s.longestVoice - 1 := by
  have h := Finset.apply_sup_eq_sup_comp_of_linearOrder (s := Finset.univ)
    (f := fun i => (s.voices i).get.toNat) (fun n : Nat => n - 1)
    (fun _ _ h => Nat.sub_le_sub_right h 1) rfl
  rw [longestVoice, longestVoice, h]
  exact Finset.sup_congr rfl fun i _ => AudioTimer.toNat_get_dec (s.voices i)

/-- No voice runs if the longest has ended. -/
theorem longestVoice_eq_zero (s : IFamily) :
    s.longestVoice = 0 ↔ ((List.finRange 4).any fun i => (s.voices i).get != 0) = false := by
  rw [longestVoice, ← Nat.bot_eq_zero, Finset.sup_eq_bot_iff, List.any_eq_false]
  refine forall_congr' fun i => ?_
  rw [Bool.not_eq_true, bne_eq_false_iff_eq, ← UInt32.toNat_inj]
  exact ⟨fun h _ => h (Finset.mem_univ i), fun h _ => h (List.mem_finRange i)⟩

/-- The delay timer ticks like the voices. -/
theorem toNat_delayTimer_handleTimerTicks (s : IFamily) :
    s.handleTimerTicks.delayTimer.toNat = s.delayTimer.toNat - 1 := by
  unfold handleTimerTicks
  dsimp only
  split
  next h => exact toNat_countDown h
  next h => rw [not_not.1 h]; rfl

/-- The interrupt after a tick of the timers and the handler before the cycle loop. -/
def ticked (s : IFamily) : Interrupt :=
  match s.interrupt with
  | .frame => .clear
  | .sound => if s.longestVoice - 1 = 0 then .wait1 else .sound
  | .delay => if s.delayTimer.toNat - 1 = 0 then .clear else .delay
  | i => i

/-- The interrupt as the cycles of a frame find it. -/
theorem interrupt_prepareFrame (keys : Scancode → Bool) (s : IFamily) :
    (s.prepareFrame keys).interrupt = s.ticked := by
  unfold prepareFrame handlePreWorkInterrupts ticked
  split
  next heq => rw [show s.interrupt = .frame from heq]
  next heq =>
    rw [show s.interrupt = .sound from heq, ← longestVoice_handleTimerTicks]
    dsimp only
    split
    next hany =>
      have hany : ((List.finRange 4).any fun i => (s.handleTimerTicks.voices i).get != 0) =
          true := hany
      rw [if_neg fun h0 => Bool.false_ne_true (((longestVoice_eq_zero _).1 h0).symm.trans hany)]
      exact heq
    next hany =>
      have hzero : s.handleTimerTicks.longestVoice = 0 :=
        (longestVoice_eq_zero _).2 (Bool.eq_false_iff.2 hany)
      exact (if_pos hzero).symm
  next heq =>
    rw [show s.interrupt = .delay from heq, ← toNat_delayTimer_handleTimerTicks]
    dsimp only
    split
    next hne =>
      have hne : ¬ s.handleTimerTicks.delayTimer.toNat = 0 := fun h0 =>
        hne (UInt32.toNat_inj.1 h0)
      rw [if_neg hne]
      exact heq
    next heq =>
      have hzero : s.handleTimerTicks.delayTimer.toNat = 0 := congrArg UInt32.toNat (not_not.1 heq)
      exact (if_pos hzero).symm
  next hframe hsound hdelay =>
    cases h : s.interrupt with
    | frame => exact absurd h hframe
    | sound => exact absurd h hsound
    | delay => exact absurd h hdelay
    | clear | input | wait1 | final | error => exact h

/-- Only the ticks touch the timers. -/
theorem timers_prepareFrame (keys : Scancode → Bool) (s : IFamily) :
    (s.prepareFrame keys).voices = s.handleTimerTicks.voices ∧
      (s.prepareFrame keys).delayTimer = s.handleTimerTicks.delayTimer := by
  unfold prepareFrame handlePreWorkInterrupts
  split
  · exact ⟨rfl, rfl⟩
  · split <;> exact ⟨rfl, rfl⟩
  · split <;> exact ⟨rfl, rfl⟩
  · exact ⟨rfl, rfl⟩

/-- What the handler behind the cycle loop does where it waits for no key. -/
theorem handlePostWorkInterrupts_spec {s : IFamily} (h : s.interrupt ≠ .input) :
    s.handlePostWorkInterrupts.interrupt =
        (if s.interrupt = .wait1 then .final else s.interrupt) ∧
      s.handlePostWorkInterrupts.voices = s.voices ∧
      s.handlePostWorkInterrupts.delayTimer = s.delayTimer ∧
      s.handlePostWorkInterrupts.systemState .halted =
        (s.systemState .halted || s.interrupt = .final) ∧
      (s.interrupt = .error → s.handlePostWorkInterrupts.systemState .fatal = true) := by
  unfold handlePostWorkInterrupts
  cases hi : s.interrupt with
  | input => exact absurd hi h
  | final => exact ⟨hi, rfl, rfl, (Bool.or_true _).symm, fun h => (nomatch h)⟩
  | error => exact ⟨hi, rfl, rfl, (Bool.or_false _).symm, fun _ => rfl⟩
  | wait1 => exact ⟨rfl, rfl, rfl, (Bool.or_false _).symm, fun h => (nomatch h)⟩
  | clear | frame | sound | delay =>
      exact ⟨hi, rfl, rfl, (Bool.or_false _).symm, fun h => (nomatch h)⟩

end IFamily

namespace Core

variable {bits : Nat} {Own Instruction : Type} {V : Virtuals bits Own Instruction}
  {s s' : Core bits Own}

/-! ## One frame -/

/-- The output and the counters leave what the handler left. -/
theorem finish_spec (hV : V.FlowKept) (input : FrameInput) (h : s.interrupt ≠ .input) :
    (finish V input s).interrupt = (if s.interrupt = .wait1 then .final else s.interrupt) ∧
      (finish V input s).voices = s.voices ∧ (finish V input s).delayTimer = s.delayTimer ∧
      (finish V input s).systemState .halted =
        (s.systemState .halted || s.interrupt = .final) ∧
      (s.interrupt = .error → (finish V input s).systemState .fatal = true) := by
  have hcount (c : Core bits Own) : (c.onFamily .countFrame).toCpu = c.toCpu ∧
      (c.onFamily .countFrame).systemState = c.systemState := by
    unfold onFamily IFamily.countFrame; split <;> exact ⟨rfl, rfl⟩
  obtain ⟨hflow, hcpu, -⟩ := hV.pushVideoData
    (V.pushAudioData input (s.onFamily .handlePostWorkInterrupts))
  obtain ⟨hflow', hcpu', -⟩ := hV.pushAudioData input (s.onFamily .handlePostWorkInterrupts)
  have hout : (finish V input s).toCpu = s.toIFamily.handlePostWorkInterrupts.toCpu :=
    (hcount _).1.trans (hcpu.trans hcpu')
  have hstate : (finish V input s).systemState =
      s.toIFamily.handlePostWorkInterrupts.systemState :=
    (hcount _).2.trans (congrArg Flow.systemState (hflow.trans hflow'))
  rw [hstate, hout]
  exact IFamily.handlePostWorkInterrupts_spec h

/-- A cycle loop entered under an interrupt executes nothing. -/
theorem executeCycleLoop_blocked (hV : V.FlowKept) (slices : Nat) (h : s.interrupt ≠ .clear) :
    cycleStarts V slices s = [] ∧ ∃ t, executeCycleLoop V slices s = some t ∧
      t.toCpu = s.toCpu ∧ t.flow = s.flow := by
  obtain ⟨hflow, hcpu⟩ := hV.enterLoop s
  have hstop : running (loopEntry V s) = false := by
    rw [running, loopEntry, hcpu]
    exact decide_eq_false h
  have hloop : instructionLoop V s = some (loopEntry V s) := Loops.loop_stop hstop
  have hstarts : loopStarts V s = [] := Loops.starts_stop hstop
  have hbench (slices : Nat) : benchStarts V slices s = [] ∧
      benchLoop V slices 0 s = some (addCycles 0 (loopEntry V s)) := by
    cases slices with
    | zero => exact ⟨hstarts, by rw [benchLoop, hloop]; rfl⟩
    | succ k =>
        constructor
        · rw [benchStarts, hloop, hstarts, Option.elim_some, hstop]; rfl
        · rw [benchLoop, hloop, Option.bind_some, hstop]; rfl
  unfold cycleStarts executeCycleLoop
  split
  · exact ⟨(hbench slices).1, _, (hbench slices).2, hcpu, hflow⟩
  · exact ⟨hstarts, _, hloop, hcpu, hflow⟩

/-- An instruction that raises an interrupt is the last one of its cycle loop, which ends in the
state it left. -/
theorem executeCycleLoop_raised {slices : Nat} {t u : Core bits Own}
    (ht : t ∈ cycleStarts V slices s) (hstep : iterate V t = some u) (hu : u.interrupt ≠ .clear) :
    (∃ l, cycleStarts V slices s = l ++ [t]) ∧
      ∃ v, executeCycleLoop V slices s = some v ∧ v.toCpu = u.toCpu := by
  have hstop : running u = false := decide_eq_false hu
  have hbench (slices : Nat) (total : UInt32) (s : Core bits Own)
      (ht : t ∈ benchStarts V slices s) : (∃ l, benchStarts V slices s = l ++ [t]) ∧
      ∃ v, benchLoop V slices total s = some v ∧ v.toCpu = u.toCpu := by
    induction slices generalizing total s with
    | zero =>
        obtain ⟨hloop, hl⟩ := Loops.last_of_stop ht hstep hstop
        exact ⟨hl, _, congrArg (Option.map (addCycles total)) hloop, rfl⟩
    | succ slices ih =>
        rw [benchStarts] at ht ⊢
        rw [benchLoop]
        rcases List.mem_append.1 ht with ht | ht
        · obtain ⟨hloop, l, hl⟩ := Loops.last_of_stop ht hstep hstop
          have hloop : instructionLoop V s = some u := hloop
          have hl : loopStarts V s = l ++ [t] := hl
          rw [hloop, hl, Option.elim_some, Option.bind_some, hstop]
          exact ⟨⟨l, List.append_nil _⟩, _, rfl, rfl⟩
        · cases hloop : instructionLoop V s with
          | none => rw [hloop] at ht; exact absurd ht List.not_mem_nil
          | some v =>
              rw [hloop, Option.elim_some] at ht
              cases hgo : running v with
              | false => rw [hgo] at ht; exact absurd ht List.not_mem_nil
              | true =>
                  rw [hgo, if_pos rfl] at ht
                  obtain ⟨⟨l, hl⟩, hrest⟩ := ih (total + v.cycleCount) v ht
                  rw [Option.elim_some, Option.bind_some, hgo, if_pos rfl, if_pos rfl, hl]
                  exact ⟨⟨loopStarts V s ++ l, (List.append_assoc ..).symm⟩, hrest⟩
  unfold cycleStarts at ht ⊢
  unfold executeCycleLoop
  split at ht
  next hb => rw [if_pos hb, if_pos hb]; exact hbench slices 0 s ht
  next hb =>
    rw [if_neg hb, if_neg hb]
    obtain ⟨hloop, hl⟩ := Loops.last_of_stop ht hstep hstop
    exact ⟨hl, u, hloop, rfl⟩

/-- A cycle loop entered without an interrupt, at a speed, executes an instruction. -/
theorem cycleStarts_ne_nil (hV : V.FlowKept) (slices : Nat) (h : s.interrupt = .clear)
    (hspeed : (V.enterLoop s).standardCpf ≠ 0) : cycleStarts V slices s ≠ [] := by
  have hrun : running (loopEntry V s) = true := by
    rw [running, loopEntry, (hV.enterLoop s).2]
    exact decide_eq_true h
  have htarget : (V.enterLoop s).targetCpf ≠ 0 := by
    unfold IFamily.targetCpf
    split
    next hb => exact hb.2
    next => exact hspeed
  obtain ⟨k, hk⟩ : ∃ k, (V.enterLoop s).targetCpf.toNat = k + 1 :=
    Nat.exists_eq_succ_of_ne_zero fun h0 => htarget (UInt32.toNat_inj.1 h0)
  have hloop : loopStarts V s ≠ [] := by
    rw [loopStarts, hk, Loops.starts_go hrun]
    exact List.cons_ne_nil _ _
  unfold cycleStarts
  split
  · rcases benchStarts_cases V slices s with heq | ⟨k, t, -, -, -, heq⟩
    · rw [heq]
      exact hloop
    · rw [heq]
      exact List.append_ne_nil_of_left_ne_nil hloop _
  · exact hloop

end Core

/-! ## Speed -/

/-- The interrupts a core does not leave without a reset, under which its speed may be 0. -/
def Interrupt.stopped : Interrupt → Bool
  | .wait1 => true
  | .final => true
  | .error => true
  | _ => false

namespace IFamily

/-- The core has stopped for good, or has a speed. -/
def Moving (s : IFamily) : Prop := s.interrupt.stopped = true ∨ s.standardCpf ≠ 0

theorem Moving.prepareFrame {s : IFamily} (h : s.Moving) (keys : Scancode → Bool) :
    (s.prepareFrame keys).Moving := by
  unfold IFamily.prepareFrame handlePreWorkInterrupts
  have hspeed (hi : s.interrupt.stopped = false) : s.standardCpf ≠ 0 :=
    h.resolve_left (by rw [hi]; decide)
  split
  next heq => exact .inr (hspeed (congrArg Interrupt.stopped heq))
  next heq =>
    split
    · exact .inr (hspeed (congrArg Interrupt.stopped heq))
    · exact .inl rfl
  next heq => split <;> exact .inr (hspeed (congrArg Interrupt.stopped heq))
  next => exact h

theorem Moving.handlePostWorkInterrupts {s : IFamily} (h : s.Moving) :
    s.handlePostWorkInterrupts.Moving := by
  unfold IFamily.handlePostWorkInterrupts
  split
  next heq =>
    have hspeed : s.standardCpf ≠ 0 := h.resolve_left (by rw [heq]; decide)
    dsimp only
    split <;> exact .inr hspeed
  next => exact .inl rfl
  next heq => exact .inl (congrArg Interrupt.stopped heq)
  next heq => exact .inl (congrArg Interrupt.stopped heq)
  next => exact h

theorem Moving.countFrame {s : IFamily} (h : s.Moving) : s.countFrame.Moving := by
  unfold IFamily.countFrame; split <;> exact h

end IFamily

namespace Core

variable {bits : Nat} {Own Instruction : Type} {V : Virtuals bits Own Instruction}
  {s s' : Core bits Own}

/-- What keeps a core able to go on: `instruction_loop` sets the speed itself, or it takes the
speed as it is, and the core keeps one until it has stopped. -/
def Ready (V : Virtuals bits Own Instruction) (s : Core bits Own) : Prop :=
  (∀ t, (V.enterLoop t).standardCpf ≠ 0) ∨
    (∀ t, (V.enterLoop t).standardCpf = t.standardCpf) ∧ s.toIFamily.Moving

/-- What keeps a core moving keeps it ready. -/
theorem Ready.of_moving (h : Ready V s) (hmoving : s.toIFamily.Moving → s'.toIFamily.Moving) :
    Ready V s' := h.imp_right fun h => ⟨h.1, hmoving h.2⟩

/-- A ready core that has not stopped enters its loop at a speed. -/
theorem Ready.speed (h : Ready V s) (hi : s.interrupt.stopped = false) :
    (V.enterLoop s).standardCpf ≠ 0 := by
  rcases h with h | ⟨hkeep, hmoving⟩
  · exact h s
  · rw [hkeep]
    exact hmoving.resolve_left (by rw [hi]; decide)

/-- A frame keeps a core moving. -/
theorem moving_mainSystemLoop (hV : V.FlowKept)
    (hkeep : ∀ t, (V.enterLoop t).standardCpf = t.standardCpf) {input : FrameInput}
    (hs : s.toIFamily.Moving) (hrun : mainSystemLoop V input s = some s') :
    s'.toIFamily.Moving := by
  have hpush (f : Core bits Own → Core bits Own) (hcpu : ∀ t, (f t).toCpu = t.toCpu)
      (hspeed : ∀ t, (f t).standardCpf = t.standardCpf) (t : Core bits Own)
      (ht : t.toIFamily.Moving) : (f t).toIFamily.Moving := by
    unfold IFamily.Moving
    rw [hcpu, hspeed]
    exact ht
  have haudio := hpush (V.pushAudioData input) (fun t => (hV.pushAudioData input t).2.1)
    fun t => (hV.pushAudioData input t).2.2
  have hvideo := hpush V.pushVideoData (fun t => (hV.pushVideoData t).2.1)
    fun t => (hV.pushVideoData t).2.2
  have hkept : LoopKept V fun t => t.toIFamily.Moving :=
    { loopEntry := hpush (loopEntry V) (fun t => (hV.enterLoop t).2) hkeep
      iterate := fun t t' ht hrun hstep => by
        obtain ⟨u, hu, rfl⟩ := Option.map_eq_some_iff.1 hstep
        have hclear : t.interrupt = .clear := of_decide_eq_true hrun
        have hspeed : t.standardCpf ≠ 0 := ht.resolve_left (by rw [hclear]; decide)
        exact .inr ((hV.execute _ _ _ hu).2 hspeed) }
  unfold mainSystemLoop at hrun
  dsimp only at hrun
  split at hrun
  · cases hrun
    exact haudio _ hs
  · obtain ⟨t, ht, rfl⟩ := Option.map_eq_some_iff.1 hrun
    have hprep : ((s.onFamily .cacheQuirks).toIFamily.prepareFrame input.keys).Moving :=
      IFamily.Moving.prepareFrame (s := (s.onFamily .cacheQuirks).toIFamily) hs input.keys
    have ht : t.toIFamily.Moving := hkept.executeCycleLoop (fun _ _ ht => ht) hprep ht
    exact hvideo _ (haudio _ ht.handlePostWorkInterrupts)

/-- The GUI thread changes none of it. -/
theorem Ready.guiStep (h : Ready V s) (op : GuiOp) : Ready V (guiStep V op s) :=
  h.of_moving fun hs => by
    unfold IFamily.Moving
    rw [(guiKept_guiStep V s op).cpu, (guiKept_guiStep V s op).speed]
    exact hs

/-- **One turn.** -/
theorem Ready.turn (hV : V.FlowKept) (h : Ready V s) {a : Turn} (hrun : turn V s a = some s') :
    Ready V s' := by
  cases a with
  | gui op => cases hrun; exact h.guiStep op
  | host host => cases hrun; exact h.of_moving id
  | frame cached input =>
      obtain ⟨t, ht, rfl⟩ := Option.map_eq_some_iff.1 hrun
      exact h.imp_right fun ⟨hkeep, hs⟩ =>
        ⟨hkeep, (moving_mainSystemLoop hV hkeep (s := snapshot cached s) hs ht).countFrame⟩

/-- All turns. -/
theorem ready_turns (hV : V.FlowKept) (h : Ready V s) {turns : List Turn}
    (hrun : Runs.run (turn V) s turns = some s') : Ready V s' :=
  Runs.run_invariant (fun _ _ _ hs hstep => hs.turn hV hstep) h hrun

/-- **Every state of a run**, resets included, is ready. -/
theorem Ready.step (hV : V.FlowKept) (h : Ready V s) {e : Event} (hrun : step V s e = some s') :
    Ready V s' := by
  cases e with
  | gui op => cases hrun; exact h.guiStep op
  | host host => cases hrun; exact h.of_moving id
  | frame input =>
      have hrun : workerFrame V input s = some s' := hrun
      rw [workerFrame_eq_turn] at hrun
      split at hrun
      · cases hrun; exact h.of_moving id
      · exact h.turn hV hrun
  | reset =>
      cases hrun
      unfold workerReset
      split
      · exact h.of_moving fun _ => .inr (hV.resetSystemData (s.onFamily .resetInstance)).2
      · exact h

/-! ## One turn -/

/-- The interrupt as the first cycle finds it. -/
theorem interrupt_entry (cached : SystemState) (input : FrameInput) (s : Core bits Own) :
    (entry cached input s).interrupt = s.ticked :=
  IFamily.interrupt_prepareFrame input.keys _

/-- A turn without a frame, or with a paused one, leaves interrupt and timers alone. -/
theorem turn_idle (hV : V.FlowKept) {a : Turn} (ha : a.unpaused = false)
    (h : turn V s a = some s') : s'.interrupt = s.interrupt ∧ s'.voices = s.voices ∧
      s'.delayTimer = s.delayTimer ∧ s'.systemState .halted = s.systemState .halted := by
  cases a with
  | host host => cases h; exact ⟨rfl, rfl, rfl, rfl⟩
  | gui op =>
      cases h
      have hkept := guiKept_guiStep V s op
      rw [hkept.cpu]
      exact ⟨rfl, rfl, rfl, hkept.stop _ (.inl rfl)⟩
  | frame cached input =>
      obtain ⟨t, ht, rfl⟩ := Option.map_eq_some_iff.1 h
      have hpause : cached.has EmuState.anyPause = true := (Bool.not_eq_false' _).mp ha
      have hmain : mainSystemLoop V input (snapshot cached s) =
          some (V.pushAudioData input ((snapshot cached s).onFamily .cacheQuirks)) :=
        if_pos hpause
      rw [hmain] at ht
      cases ht
      obtain ⟨hflow, hcpu, -⟩ := hV.pushAudioData input ((snapshot cached s).onFamily .cacheQuirks)
      have hstate := congrArg Flow.systemState hflow
      unfold onFamily IFamily.countFrame
      split <;>
        exact ⟨congrArg Cpu.interrupt hcpu, congrArg Cpu.voices hcpu,
          congrArg Cpu.delayTimer hcpu, congrFun hstate .halted⟩

/-- A frame that enters its cycle loop under an interrupt other than that of a key. -/
theorem turn_blocked (hV : V.FlowKept) {cached : SystemState} {input : FrameInput}
    (hup : cached.has EmuState.anyPause = false) (hclear : s.ticked ≠ .clear)
    (hinput : s.ticked ≠ .input) (h : turn V s (.frame cached input) = some s') :
    s'.interrupt = (if s.ticked = .wait1 then .final else s.ticked) ∧
      s'.voices = s.handleTimerTicks.voices ∧ s'.delayTimer = s.handleTimerTicks.delayTimer ∧
      s'.systemState .halted = (s.systemState .halted || s.ticked = .final) := by
  have hentry := interrupt_entry cached input s
  obtain ⟨-, t, ht, hcpu, hflow⟩ :=
    executeCycleLoop_blocked hV input.slices (hentry.trans_ne hclear)
  rw [turn_unpaused V hup, ht] at h
  cases h
  have hti : t.interrupt = s.ticked := (congrArg Cpu.interrupt hcpu).trans hentry
  obtain ⟨hvoices, hdelay⟩ := IFamily.timers_prepareFrame input.keys
    ((snapshot cached s).onFamily .cacheQuirks).toIFamily
  obtain ⟨h₁, h₂, h₃, h₄, -⟩ := finish_spec hV input (hti.trans_ne hinput)
  rw [h₁, h₂, h₃, h₄, hti]
  have hstate : t.systemState = s.systemState :=
    (congrArg Flow.systemState hflow).trans
      (congrArg Flow.systemState (IFamily.flow_prepareFrame input.keys _))
  exact ⟨rfl, (congrArg Cpu.voices hcpu).trans hvoices,
    (congrArg Cpu.delayTimer hcpu).trans hdelay, by rw [hstate]⟩

/-- It executes nothing. -/
theorem turnStarts_blocked (hV : V.FlowKept) (hclear : s.ticked ≠ .clear) (a : Turn) :
    turnStarts V s a = [] := by
  cases ha : a.unpaused with
  | false => exact turnStarts_paused V ha
  | true =>
      cases a with
      | gui op => exact nomatch ha
      | host host => exact nomatch ha
      | frame cached input =>
          rw [turnStarts_unpaused V (Bool.not_eq_true' _ |>.mp ha)]
          exact (executeCycleLoop_blocked hV input.slices
            ((interrupt_entry cached input s).trans_ne hclear)).1

/-- A frame that enters its cycle loop without an interrupt executes an instruction. -/
theorem turnStarts_ne_nil (hV : V.FlowKept) (hs : Ready V s) {cached : SystemState}
    (hup : cached.has EmuState.anyPause = false) (hclear : s.ticked = .clear)
    (input : FrameInput) : turnStarts V s (.frame cached input) ≠ [] := by
  rw [turnStarts_unpaused V hup]
  have hentry := (interrupt_entry cached input s).trans hclear
  have hready : Ready V (entry cached input s) := hs.of_moving fun h =>
    IFamily.Moving.prepareFrame
      (s := ((snapshot cached s).onFamily .cacheQuirks).toIFamily) h input.keys
  exact cycleStarts_ne_nil hV input.slices hentry (hready.speed (by rw [hentry]; rfl))

/-- What an instruction raises, as far as no key is waited for: it is the last one of its turn,
which ends with the interrupt and the timers the instruction left, and ERROR adds FATAL. -/
theorem turn_raised (hV : V.FlowKept) {a : Turn} {t u : Core bits Own}
    (ht : t ∈ turnStarts V s a) (hstep : iterate V t = some u) (hclear : u.interrupt ≠ .clear)
    (hinput : u.interrupt ≠ .input) (hwait : u.interrupt ≠ .wait1) :
    (∃ l, turnStarts V s a = l ++ [t]) ∧ ∃ s', turn V s a = some s' ∧
      s'.interrupt = u.interrupt ∧ s'.voices = u.voices ∧ s'.delayTimer = u.delayTimer ∧
      (u.interrupt = .error → s'.systemState .fatal = true) := by
  cases a with
  | gui op => exact nomatch ht
  | host host => exact nomatch ht
  | frame cached input =>
      have hup : cached.has EmuState.anyPause = false := by
        cases hpause : cached.has EmuState.anyPause with
        | false => rfl
        | true =>
            rw [turnStarts_paused V (by rw [Turn.unpaused, hpause]; rfl)] at ht
            exact nomatch ht
      rw [turnStarts_unpaused V hup] at ht ⊢
      obtain ⟨hlast, v, hv, hcpu⟩ := executeCycleLoop_raised ht hstep hclear
      have hi : v.interrupt = u.interrupt := congrArg Cpu.interrupt hcpu
      obtain ⟨h₁, h₂, h₃, -, h₅⟩ := finish_spec hV input (hi.trans_ne hinput)
      refine ⟨hlast, _, by rw [turn_unpaused V hup, hv]; rfl, ?_, ?_, ?_, ?_⟩
      · rw [h₁, hi, if_neg hwait]
      · exact h₂.trans (congrArg Cpu.voices hcpu)
      · exact h₃.trans (congrArg Cpu.delayTimer hcpu)
      · exact fun herror => h₅ (hi.trans herror)

/-! ## Runs -/

/-- ERROR stays, and nothing executes. -/
theorem run_error (hV : V.FlowKept) (hs : s.interrupt = .error) {turns : List Turn}
    (h : Runs.run (turn V) s turns = some s') : s'.interrupt = .error := by
  refine Runs.run_invariant (I := fun s => s.interrupt = .error) (fun s a s' hs hstep => ?_) hs h
  cases ha : a.unpaused with
  | false => exact (turn_idle hV ha hstep).1.trans hs
  | true =>
      cases a with
      | gui op => exact nomatch ha
      | host host => exact nomatch ha
      | frame cached input =>
          have hticked : s.ticked = .error := by unfold IFamily.ticked; rw [hs]
          have hup := (Bool.not_eq_true' _).mp ha
          have hnext := (turn_blocked hV hup (by rw [hticked]; decide) (by rw [hticked]; decide)
            hstep).1
          rw [hnext, hticked]
          rfl

/-- Where a core is that waited for its voices, `n` frames that were not paused later. -/
structure SoundAt (longest : Nat) (halted : Bool) (n : Nat) (s : Core bits Own) : Prop where
  interrupt : s.interrupt = if n < max 1 longest then .sound else .final
  voices : s.longestVoice = longest - n
  halted : s.systemState .halted = (halted || decide (max 1 longest < n))

variable {longest n : Nat} {halted : Bool}

/-- What the handler of interrupts makes of it in the next frame. -/
theorem SoundAt.ticked (h : SoundAt longest halted n s) :
    s.ticked = if n + 1 < max 1 longest then .sound
      else if n + 1 = max 1 longest then .wait1 else .final := by
  have hi := h.interrupt
  have hv := h.voices
  unfold IFamily.ticked
  by_cases hn : n < max 1 longest
  · rw [if_pos hn] at hi
    rw [hi, hv]
    by_cases hlast : n + 1 < max 1 longest
    · rw [if_pos hlast]
      exact if_neg (by omega)
    · have heq : n + 1 = max 1 longest := by omega
      rw [if_neg hlast, if_pos heq]
      exact if_pos (by omega)
  · have hlt : ¬ n + 1 < max 1 longest := by omega
    have hne : ¬ n + 1 = max 1 longest := by omega
    rw [if_neg hn] at hi
    rw [hi, if_neg hlt, if_neg hne]

/-- It is none an instruction runs under. -/
theorem SoundAt.blocked (h : SoundAt longest halted n s) :
    s.ticked ≠ .clear ∧ s.ticked ≠ .input := by
  rw [h.ticked]
  split
  · decide
  · split <;> decide

theorem longestVoice_congr {s s' : IFamily} (h : s'.voices = s.voices) :
    s'.longestVoice = s.longestVoice := by
  rw [IFamily.longestVoice, IFamily.longestVoice, h]

/-- **One turn**: it counts if it is a frame that is not paused. -/
theorem SoundAt.turn (hV : V.FlowKept) (h : SoundAt longest halted n s) {a : Turn}
    (hstep : turn V s a = some s') :
    SoundAt longest halted (if a.unpaused then n + 1 else n) s' := by
  cases ha : a.unpaused with
  | false =>
      obtain ⟨hi, hv, -, hh⟩ := turn_idle hV ha hstep
      exact ⟨hi.trans h.interrupt, (longestVoice_congr hv).trans h.voices, hh.trans h.halted⟩
  | true =>
      cases a with
      | gui op => exact nomatch ha
      | host host => exact nomatch ha
      | frame cached input =>
          obtain ⟨hi, hv, -, hh⟩ := turn_blocked hV ((Bool.not_eq_true' _).mp ha) h.blocked.1
            h.blocked.2 hstep
          rw [h.ticked] at hi hh
          rw [if_pos rfl]
          refine ⟨?_, ?_, ?_⟩
          · rw [hi]
            split
            · rfl
            · split <;> rfl
          · rw [longestVoice_congr hv, IFamily.longestVoice_handleTimerTicks, h.voices]
            omega
          · rw [hh, h.halted, Bool.or_assoc]
            congr 1
            by_cases hlast : n + 1 < max 1 longest
            · rw [if_pos hlast, decide_eq_false (by omega : ¬ max 1 longest < n),
                decide_eq_false (by omega : ¬ max 1 longest < n + 1)]
              rfl
            · rw [if_neg hlast]
              by_cases heq : n + 1 = max 1 longest
              · rw [if_pos heq, decide_eq_false (by omega : ¬ max 1 longest < n),
                  decide_eq_false (by omega : ¬ max 1 longest < n + 1)]
                rfl
              · rw [if_neg heq, decide_eq_true (by omega : max 1 longest < n + 1)]
                exact Bool.or_true _

/-- Where a core is that waits for its delay timer, `n` frames that were not paused later. -/
structure DelayAt (delay n : Nat) (s : Core bits Own) : Prop where
  interrupt : n < max 1 delay → s.interrupt = .delay
  delayTimer : n < max 1 delay → s.delayTimer.toNat = delay - n

variable {delay : Nat}

/-- What the handler of interrupts makes of it in the next frame. -/
theorem DelayAt.ticked (h : DelayAt delay n s) (hn : n < max 1 delay) :
    s.ticked = if n + 1 = max 1 delay then .clear else .delay := by
  unfold IFamily.ticked
  rw [h.interrupt hn, h.delayTimer hn]
  by_cases hlast : n + 1 = max 1 delay
  · rw [if_pos hlast]
    exact if_pos (by omega)
  · rw [if_neg hlast]
    exact if_neg (by omega)

/-- **One turn**: it counts if it is a frame that is not paused. -/
theorem DelayAt.turn (hV : V.FlowKept) (h : DelayAt delay n s) {a : Turn}
    (hstep : turn V s a = some s') : DelayAt delay (if a.unpaused then n + 1 else n) s' := by
  cases ha : a.unpaused with
  | false =>
      obtain ⟨hi, -, hd, -⟩ := turn_idle hV ha hstep
      exact ⟨fun hn => hi.trans (h.interrupt hn),
        fun hn => (congrArg UInt32.toNat hd).trans (h.delayTimer hn)⟩
  | true =>
      cases a with
      | gui op => exact nomatch ha
      | host host => exact nomatch ha
      | frame cached input =>
          rw [if_pos rfl]
          by_cases hn : n + 1 < max 1 delay
          · have hticked : s.ticked = .delay := by
              rw [h.ticked (by omega), if_neg hn.ne]
            obtain ⟨hi, -, hd, -⟩ := turn_blocked hV ((Bool.not_eq_true' _).mp ha)
              (by rw [hticked]; decide) (by rw [hticked]; decide) hstep
            refine ⟨fun _ => by rw [hi, hticked]; rfl, fun _ => ?_⟩
            rw [hd, IFamily.toNat_delayTimer_handleTimerTicks, h.delayTimer (by omega)]
            omega
          · exact ⟨fun hlt => absurd hlt hn, fun hlt => absurd hlt hn⟩

/-! ## The machine -/

/-- What holds of a state between two turns. -/
structure InterruptMachine (V : Virtuals bits Own Instruction) (s : Core bits Own) : Prop where
  /-- An instruction that raises ERROR, SOUND, DELAY or FRAME is the last one of its frame, which
  ends with the interrupt and the timers it left; ERROR adds FATAL. -/
  raised : ∀ a, ∀ t ∈ turnStarts V s a, ∀ u, iterate V t = some u →
    u.interrupt = .error ∨ u.interrupt = .sound ∨ u.interrupt = .delay ∨ u.interrupt = .frame →
    (∃ l, turnStarts V s a = l ++ [t]) ∧ ∃ s', turn V s a = some s' ∧
      s'.interrupt = u.interrupt ∧ s'.voices = u.voices ∧ s'.delayTimer = u.delayTimer ∧
      (u.interrupt = .error → s'.systemState .fatal = true)
  /-- Under ERROR nothing executes again, and the interrupt does not change. -/
  error : s.interrupt = .error → ∀ turns s', Runs.run (turn V) s turns = some s' →
    s'.interrupt = .error ∧ ∀ a, turnStarts V s' a = []
  /-- Under SOUND nothing executes again. With `m` the largest voice timer, or 1, the `m`-th frame
  that is not paused goes through WAIT1 to FINAL, and the one after it adds HALTED. -/
  sound : s.interrupt = .sound → ∀ turns s', Runs.run (turn V) s turns = some s' →
    (∀ a, turnStarts V s' a = []) ∧
    s'.interrupt = (if turns.countP Turn.unpaused < max 1 s.longestVoice then .sound
      else .final) ∧
    (∀ cached input, (entry cached input s').interrupt =
      if turns.countP Turn.unpaused + 1 < max 1 s.longestVoice then .sound
      else if turns.countP Turn.unpaused + 1 = max 1 s.longestVoice then .wait1 else .final) ∧
    s'.systemState .halted = (s.systemState .halted ||
      decide (max 1 s.longestVoice < turns.countP Turn.unpaused))
  /-- Under DELAY, of the frames that are not paused, the first one whose tick leaves the delay
  timer at 0 executes instructions again. -/
  delay : s.interrupt = .delay → ∀ turns s', Runs.run (turn V) s turns = some s' →
    turns.countP Turn.unpaused < max 1 s.delayTimer.toNat → s'.interrupt = .delay ∧
    (∀ a, a.unpaused = false → turnStarts V s' a = []) ∧
    ∀ cached input, cached.has EmuState.anyPause = false →
      (turnStarts V s' (.frame cached input) ≠ [] ↔ (entry cached input s').delayTimer = 0) ∧
      ((entry cached input s').delayTimer = 0 ↔
        turns.countP Turn.unpaused + 1 = max 1 s.delayTimer.toNat)
  /-- Under FRAME the next frame that is not paused executes instructions again. -/
  frame : s.interrupt = .frame → ∀ turns s', Runs.run (turn V) s turns = some s' →
    turns.countP Turn.unpaused = 0 → s'.interrupt = .frame ∧
    ∀ a, turnStarts V s' a ≠ [] ↔ a.unpaused = true

/-- The four interrupts, in a state every run keeps. -/
theorem interruptMachine_of_ready (hV : V.FlowKept) (hs : Ready V s) : InterruptMachine V s where
  raised := fun a t ht u hstep hu =>
    turn_raised hV ht hstep (by rcases hu with h | h | h | h <;> rw [h] <;> decide)
      (by rcases hu with h | h | h | h <;> rw [h] <;> decide)
      (by rcases hu with h | h | h | h <;> rw [h] <;> decide)
  error := fun hi turns s' hrun => by
    have herror := run_error hV hi hrun
    have hticked : s'.ticked = .error := by unfold IFamily.ticked; rw [herror]
    exact ⟨herror, turnStarts_blocked hV (by rw [hticked]; decide)⟩
  sound := fun hi turns s' hrun => by
    have hstart : SoundAt s.longestVoice (s.systemState .halted) 0 s :=
      ⟨hi.trans (if_pos (by omega)).symm, rfl, (Bool.or_false _).symm⟩
    have hat := Runs.run_countP (p := Turn.unpaused)
      (I := SoundAt s.longestVoice (s.systemState .halted))
      (fun n s a s' hs hstep => hs.turn hV hstep) hstart hrun
    exact ⟨turnStarts_blocked hV hat.blocked.1, hat.interrupt,
      fun cached input => (interrupt_entry cached input s').trans hat.ticked, hat.halted⟩
  delay := fun hi turns s' hrun hn => by
    have hat := Runs.run_countP (p := Turn.unpaused) (I := DelayAt s.delayTimer.toNat)
      (fun n s a s' hs hstep => hs.turn hV hstep) ⟨fun _ => hi, fun _ => rfl⟩ hrun
    have hready := ready_turns hV hs hrun
    refine ⟨hat.interrupt hn, fun a ha => turnStarts_paused V ha, fun cached input hup => ?_⟩
    have hentry : (entry cached input s').delayTimer = s'.handleTimerTicks.delayTimer :=
      (IFamily.timers_prepareFrame input.keys
        ((snapshot cached s').onFamily .cacheQuirks).toIFamily).2
    have hzero : (entry cached input s').delayTimer = 0 ↔
        turns.countP Turn.unpaused + 1 = max 1 s.delayTimer.toNat := by
      rw [hentry, ← UInt32.toNat_inj, IFamily.toNat_delayTimer_handleTimerTicks,
        hat.delayTimer hn, UInt32.toNat_zero]
      omega
    refine ⟨?_, hzero⟩
    rw [hzero]
    have hticked := hat.ticked hn
    constructor
    · intro hstarts
      by_contra hne
      rw [if_neg hne] at hticked
      exact hstarts (turnStarts_blocked hV (by rw [hticked]; decide) _)
    · intro heq
      rw [if_pos heq] at hticked
      exact turnStarts_ne_nil hV hready hup hticked input
  frame := fun hi turns s' hrun hn => by
    have hframe : s'.interrupt = .frame := by
      refine Runs.run_countP (p := Turn.unpaused) (I := fun n s => n = 0 → s.interrupt = .frame)
        (fun n s a s' hs hstep hn => ?_) (fun _ => hi) hrun hn
      cases ha : a.unpaused with
      | true => rw [ha] at hn; exact nomatch hn
      | false =>
          rw [ha] at hn
          exact (turn_idle hV ha hstep).1.trans (hs hn)
    have hready := ready_turns hV hs hrun
    have hticked : s'.ticked = .clear := by unfold IFamily.ticked; rw [hframe]
    refine ⟨hframe, fun a => ⟨fun hstarts => ?_, fun ha => ?_⟩⟩
    · by_contra ha
      exact hstarts (turnStarts_paused V (Bool.eq_false_iff.2 ha))
    · cases a with
      | gui op => exact nomatch ha
      | host host => exact nomatch ha
      | frame cached input =>
          exact turnStarts_ne_nil hV hready ((Bool.not_eq_true' _).mp ha) hticked input

/-- **Every core of the family**, with any program, at any point of any run. -/
theorem interruptMachine (core : FamilyCore) (boot s t : Core core.bits core.Own)
    (hboot : core.Boots boot) (hs : Reachable core.virtuals boot s) (turns : List Turn)
    (ht : Runs.run (turn core.virtuals) s turns = some t) : InterruptMachine core.virtuals t := by
  obtain ⟨events, hevents⟩ := hs
  have hready : Ready core.virtuals boot := core.flowKept.speed.imp_right fun hkeep =>
    ⟨hkeep, .inr (hkeep boot ▸ hboot.speed)⟩
  have hready : Ready core.virtuals s :=
    Runs.run_invariant (fun _ _ _ hs hstep => hs.step core.flowKept hstep) hready hevents
  have hready : Ready core.virtuals t :=
    Runs.run_invariant (fun _ _ _ hs hstep => hs.turn core.flowKept hstep) hready ht
  exact interruptMachine_of_ready core.flowKept hready

/-- A frame in which no key is held, of a system that may be paused. -/
def Turn.idle (paused : Bool) : Turn :=
  .frame (fun e => paused && e = .paused) ⟨fun _ => false, 0, false⟩

/-- A program that clears the display and waits two frames for its delay timer. -/
def waiting : Chip8E := Chip8E.boot (.ofProgram [0x00, 0xE0, 0x62, 0x02, 0xF2, 0x4F])

/-- A program that plays a sound and ends. -/
def sounding : Chip8E := Chip8E.boot (.ofProgram [0x62, 0x03, 0xF2, 0x18, 0x00, 0xED])

/-- A program that clears the display and has no instruction after that. -/
def failing : Chip8E := Chip8E.boot (.ofProgram [0x00, 0xE0, 0xFF, 0xFF])

/-- Programs under each of the four interrupts, with a pause on the way. -/
theorem interruptMachine_waits :
    (∃ t, Runs.run (turn Chip8E.virtuals) waiting [.idle false] = some t ∧
      t.interrupt = .frame ∧ InterruptMachine Chip8E.virtuals t) ∧
    (∃ t, Runs.run (turn Chip8E.virtuals) waiting [.idle false, .idle true, .idle false] = some t ∧
      t.interrupt = .delay ∧ InterruptMachine Chip8E.virtuals t) ∧
    (∃ t, Runs.run (turn Chip8E.virtuals) sounding [.idle true, .idle false] = some t ∧
      t.interrupt = .sound ∧ InterruptMachine Chip8E.virtuals t) ∧
    ∃ t, Runs.run (turn Chip8E.virtuals) failing [.idle false, .idle false] = some t ∧
      t.interrupt = .error ∧ InterruptMachine Chip8E.virtuals t := by
  have hframe : (Runs.run (turn Chip8E.virtuals) waiting [.idle false]).map (·.interrupt) =
      some .frame := by decide +kernel
  have hdelay : (Runs.run (turn Chip8E.virtuals) waiting
      [.idle false, .idle true, .idle false]).map (·.interrupt) = some .delay := by decide +kernel
  have hsound : (Runs.run (turn Chip8E.virtuals) sounding [.idle true, .idle false]).map
      (·.interrupt) = some .sound := by decide +kernel
  have herror : (Runs.run (turn Chip8E.virtuals) failing [.idle false, .idle false]).map
      (·.interrupt) = some .error := by decide +kernel
  obtain ⟨t₁, hrun₁, hi₁⟩ := Option.map_eq_some_iff.1 hframe
  obtain ⟨t₂, hrun₂, hi₂⟩ := Option.map_eq_some_iff.1 hdelay
  obtain ⟨t₃, hrun₃, hi₃⟩ := Option.map_eq_some_iff.1 hsound
  obtain ⟨t₄, hrun₄, hi₄⟩ := Option.map_eq_some_iff.1 herror
  exact ⟨⟨t₁, hrun₁, hi₁, interruptMachine .chip8E _ _ t₁ ⟨_, rfl⟩ ⟨[], rfl⟩ _ hrun₁⟩,
    ⟨t₂, hrun₂, hi₂, interruptMachine .chip8E _ _ t₂ ⟨_, rfl⟩ ⟨[], rfl⟩ _ hrun₂⟩,
    ⟨t₃, hrun₃, hi₃, interruptMachine .chip8E _ _ t₃ ⟨_, rfl⟩ ⟨[], rfl⟩ _ hrun₃⟩,
    t₄, hrun₄, hi₄, interruptMachine .chip8E _ _ t₄ ⟨_, rfl⟩ ⟨[], rfl⟩ _ hrun₄⟩

end Core

end CubeChip
