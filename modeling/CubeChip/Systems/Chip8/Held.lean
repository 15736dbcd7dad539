import Mathlib.Data.List.DropRight
import CubeChip.Systems.Chip8.Common
import CubeChip.Systems.Chip8.Restart

/-!
# What no virtual function of a core touches

The worker counts frames, the cycle loop counts instructions, the file is the one the core was
started with. `HeldKept` is what a core leaves of these to the base classes. From it follows
what the counters count, over a frame and over a run.
-/

namespace CubeChip

/-- A system that is not running is stopped or paused. -/
theorem SystemState.has_notRunning (s : SystemState) :
    s.has EmuState.notRunning = (s.has EmuState.anyStop || s.has EmuState.anyPause) := by
  simp only [has, EmuState.notRunning, EmuState.anyStop, EmuState.anyPause, List.any_cons,
    List.any_nil]
  cases s .hidden <;> cases s .paused <;> cases s .reset <;> simp

/-- The members that the virtual functions of a core do not touch. -/
structure Held where
  cachedSystemState : SystemState
  benchedFrames : UInt32
  elapsedFrames : UInt32
  fileImage : List UInt8
  debuggerCpf : UInt32
  cycleCount : UInt32

/-- `countFrame`, of what is held. -/
def Held.countFrame (b : Held) : Held :=
  if b.cachedSystemState.has EmuState.notRunning then b
  else { b with
    elapsedFrames := b.elapsedFrames + 1
    benchedFrames := if b.cachedSystemState .bench then b.benchedFrames + 1 else 0 }

namespace IFamily

def held (s : IFamily) : Held :=
  ⟨s.cachedSystemState, s.benchedFrames, s.elapsedFrames, s.fileImage, s.debuggerCpf,
    s.cycleCount⟩

theorem held_countFrame (s : IFamily) : s.countFrame.held = s.held.countFrame := by
  have hcached : s.held.cachedSystemState = s.cachedSystemState := rfl
  unfold countFrame Held.countFrame
  rw [hcached]
  split <;> rfl

theorem held_prepareFrame (keys : Scancode → Bool) (s : IFamily) :
    (s.prepareFrame keys).held = s.held := by
  unfold prepareFrame handlePreWorkInterrupts
  split
  · rfl
  · split <;> rfl
  · split <;> rfl
  · rfl

theorem held_handlePostWorkInterrupts (s : IFamily) :
    s.handlePostWorkInterrupts.held = s.held := by
  unfold handlePostWorkInterrupts
  split
  · dsimp only
    split <;> rfl
  all_goals rfl

end IFamily

namespace Core

variable {bits : Nat} {Own Instruction : Type}

/-- No virtual function of a core touches what is held. -/
structure HeldKept (V : Virtuals bits Own Instruction) : Prop where
  enterLoop : ∀ s, (V.enterLoop s).held = s.held
  execute : ∀ i s s', V.execute i s = some s' → s'.held = s.held
  pushAudioData : ∀ input s, (V.pushAudioData input s).held = s.held
  pushVideoData : ∀ s, (V.pushVideoData s).held = s.held
  resetSystemData : ∀ s, (V.resetSystemData s).held = s.held

theorem held_executeCommon (cfg : Common.Config) (i : Common) (s : Core bits Own) :
    (s.executeCommon cfg i).held = s.held := by
  cases i <;> rfl

theorem held_copy (offset size : Nat) (s : Core bits Own) :
    ((s.copyFileImageTo offset).copyFontDataTo size).held = s.held := rfl

theorem held_getPermaregs {count : Nat} {s s' : Core bits Own}
    (h : s.getPermaregs count = some s') : s'.held = s.held := by
  obtain ⟨r, -, rfl⟩ := Option.map_eq_some_iff.1 h
  rfl

namespace HeldKept

variable {V : Virtuals bits Own Instruction} {s s' : Core bits Own}

/-- The file is always the one the core was started with. -/
theorem alwaysKept (h : HeldKept V) (file : List UInt8) :
    AlwaysKept V fun b => b.fileImage = file where
  enterLoop := fun s hs => (congrArg Held.fileImage (h.enterLoop s)).trans hs
  execute := fun i s s' hs hstep => (congrArg Held.fileImage (h.execute i s s' hstep)).trans hs
  pushAudioData := fun input s hs =>
    (congrArg Held.fileImage (h.pushAudioData input s)).trans hs
  pushVideoData := fun s hs => (congrArg Held.fileImage (h.pushVideoData s)).trans hs
  reset := fun s hs =>
    (congrArg Held.fileImage (h.resetSystemData (s.onFamily .resetInstance))).trans hs
  toggleQuirk := fun _ hs _ _ => hs
  editMemory := fun _ hs _ _ => hs

/-! ## Instructions of a frame -/

/-- An iteration of the cycle loop counts one cycle. -/
theorem iterate (h : HeldKept V) (hstep : iterate V s = some s') :
    s'.held = { s.held with cycleCount := s.cycleCount + 1 } := by
  obtain ⟨t, ht, rfl⟩ := Option.map_eq_some_iff.1 hstep
  have hheld : t.held = s.held := h.execute (current V s) s.fetch.2 t ht
  exact congrArg (fun b : Held => { b with cycleCount := b.cycleCount + 1 }) hheld

/-- **`instruction_loop`** counts its instructions, and executes as many as it may unless an
interrupt stops it. -/
theorem instructionLoop (h : HeldKept V) (hrun : instructionLoop V s = some s') :
    s'.held = { s.held with cycleCount := UInt32.ofNat (loopStarts V s).length } ∧
      ((loopStarts V s).length = (V.enterLoop s).targetCpf.toNat ∨ running s' = false) := by
  have hentry : (loopEntry V s).held = { s.held with cycleCount := UInt32.ofNat 0 } :=
    congrArg (fun b : Held => { b with cycleCount := 0 }) (h.enterLoop s)
  refine Loops.loop_counts (I := fun k (t : Core bits Own) =>
    t.held = { s.held with cycleCount := UInt32.ofNat k }) (fun k t t' ht _ hstep => ?_) hentry hrun
  have hcount : t.cycleCount = UInt32.ofNat k := congrArg Held.cycleCount ht
  rw [h.iterate hstep, hcount, ht, UInt32.ofNat_add]
  rfl

/-- The BENCH loop counts the instructions of all its passes. -/
theorem benchLoop (h : HeldKept V) (slices : Nat) {total : UInt32}
    (hrun : benchLoop V slices total s = some s') :
    s'.held = { s.held with
      cycleCount := total + UInt32.ofNat (benchStarts V slices s).length } := by
  induction slices generalizing s total with
  | zero =>
      obtain ⟨t, ht, rfl⟩ := Option.map_eq_some_iff.1 hrun
      exact congrArg (fun b : Held => { b with cycleCount := total + b.cycleCount })
        (h.instructionLoop ht).1
  | succ slices ih =>
      obtain ⟨t, ht, hrest⟩ := Option.bind_eq_some_iff.1 hrun
      have hheld := (h.instructionLoop ht).1
      have hcount : t.cycleCount = UInt32.ofNat (loopStarts V s).length :=
        congrArg Held.cycleCount hheld
      rw [benchStarts, ht, Option.elim_some]
      cases hgo : running t with
      | true =>
          rw [hgo, if_pos rfl] at hrest
          rw [ih hrest, hheld, hcount, if_pos rfl, List.length_append, UInt32.ofNat_add,
            UInt32.add_assoc]
      | false =>
          rw [hgo] at hrest
          cases hrest
          rw [if_neg Bool.false_ne_true, List.append_nil]
          exact congrArg (fun b : Held => { b with cycleCount := total + b.cycleCount }) hheld

theorem length_loopStarts_le (s : Core bits Own) :
    (loopStarts V s).length ≤ (V.enterLoop s).targetCpf.toNat := Loops.length_starts_le _ _

/-- In BENCH mode, the speed the debugger sets is that of every pass. -/
theorem targetCpf_enterLoop (h : HeldKept V) (hbench : s.cachedSystemState .bench = true)
    (hcpf : s.debuggerCpf ≠ 0) : (V.enterLoop s).targetCpf = s.debuggerCpf := by
  have hheld := h.enterLoop s
  have hcached : (V.enterLoop s).cachedSystemState = s.cachedSystemState :=
    congrArg Held.cachedSystemState hheld
  have hdebugger : (V.enterLoop s).debuggerCpf = s.debuggerCpf := congrArg Held.debuggerCpf hheld
  rw [IFamily.targetCpf, hcached, hdebugger, if_pos ⟨hbench, hcpf⟩]

/-- At that speed all passes are executed, unless an interrupt comes. -/
theorem length_benchStarts (h : HeldKept V) (hbench : s.cachedSystemState .bench = true)
    (hcpf : s.debuggerCpf ≠ 0) {slices : Nat} {total : UInt32}
    (hrun : Core.benchLoop V slices total s = some s') :
    (benchStarts V slices s).length ≤ (slices + 1) * s.debuggerCpf.toNat ∧
      ((benchStarts V slices s).length = (slices + 1) * s.debuggerCpf.toNat ∨
        running s' = false) := by
  have htarget := h.targetCpf_enterLoop hbench hcpf
  have hle := htarget ▸ length_loopStarts_le (V := V) s
  induction slices generalizing s total with
  | zero =>
      obtain ⟨t, ht, rfl⟩ := Option.map_eq_some_iff.1 hrun
      rw [Nat.zero_add, Nat.one_mul]
      exact ⟨hle, htarget ▸ (h.instructionLoop ht).2⟩
  | succ slices ih =>
      obtain ⟨t, ht, hrest⟩ := Option.bind_eq_some_iff.1 hrun
      obtain ⟨hheld, hlen⟩ := h.instructionLoop ht
      rw [htarget] at hlen
      have hcached : t.cachedSystemState = s.cachedSystemState :=
        congrArg Held.cachedSystemState hheld
      have hdebugger : t.debuggerCpf = s.debuggerCpf := congrArg Held.debuggerCpf hheld
      rw [benchStarts, ht, Option.elim_some, Nat.succ_mul]
      cases hgo : running t with
      | true =>
          rw [hgo, if_pos rfl] at hrest
          rw [hgo] at hlen
          have hfull := hlen.resolve_right fun heq => Bool.noConfusion heq
          have htarget' := h.targetCpf_enterLoop (hcached ▸ hbench) (hdebugger ▸ hcpf)
          obtain ⟨hle', hlen'⟩ := ih (hcached ▸ hbench) (hdebugger ▸ hcpf) hrest htarget'
            (htarget' ▸ length_loopStarts_le (V := V) t)
          rw [hdebugger] at hle' hlen'
          rw [if_pos rfl, List.length_append, hfull]
          exact ⟨by omega, hlen'.imp (fun heq => by omega) id⟩
      | false =>
          rw [hgo] at hrest
          cases hrest
          rw [if_neg Bool.false_ne_true, List.append_nil]
          exact ⟨hle.trans (Nat.le_add_left ..), .inr hgo⟩

/-- **`execute_cycle_loop`** counts its instructions. -/
theorem executeCycleLoop (h : HeldKept V) {slices : Nat}
    (hrun : executeCycleLoop V slices s = some s') :
    s'.held = { s.held with
      cycleCount := UInt32.ofNat (cycleStarts V slices s).length } := by
  unfold Core.executeCycleLoop at hrun
  unfold Core.cycleStarts
  cases hbench : s.cachedSystemState .bench with
  | false =>
      rw [hbench] at hrun
      exact (h.instructionLoop hrun).1
  | true =>
      rw [hbench] at hrun
      have hheld := h.benchLoop slices hrun
      rwa [UInt32.zero_add] at hheld

/-! ## Frames -/

/-- A frame of a system that is not running counts nothing. -/
theorem workerFrame_notRunning (h : HeldKept V) {input : FrameInput}
    (hrun : workerFrame V input s = some s')
    (hnot : s.systemState.has EmuState.notRunning = true) :
    s'.held = { s.held with cachedSystemState := s.systemState } := by
  have hcached : (s.onFamily .cacheSystemState).cachedSystemState = s.systemState := rfl
  have hquirks : ((s.onFamily .cacheSystemState).onFamily .cacheQuirks).cachedSystemState =
    s.systemState := rfl
  unfold Core.workerFrame mainSystemLoop at hrun
  dsimp only at hrun
  rw [hcached, hquirks] at hrun
  cases hstop : s.systemState.has EmuState.anyStop with
  | true =>
      rw [hstop, if_pos rfl] at hrun
      cases hrun
      rfl
  | false =>
      have hpause : s.systemState.has EmuState.anyPause = true := by
        rwa [SystemState.has_notRunning, hstop, Bool.false_or] at hnot
      rw [hstop, if_neg Bool.false_ne_true, hpause, if_pos rfl, Option.map_some] at hrun
      cases hrun
      have hheld := h.pushAudioData input ((s.onFamily .cacheSystemState).onFamily .cacheQuirks)
      have hcount := IFamily.held_countFrame
        (V.pushAudioData input ((s.onFamily .cacheSystemState).onFamily .cacheQuirks)).toIFamily
      refine hcount.trans ?_
      rw [hheld]
      exact if_pos hnot

/-- **A frame of a running system** counts itself and its instructions. -/
theorem workerFrame_running (h : HeldKept V) {input : FrameInput}
    (hrun : workerFrame V input s = some s')
    (hnot : s.systemState.has EmuState.notRunning = false) :
    s'.held = { s.held with
      cachedSystemState := s.systemState
      elapsedFrames := s.elapsedFrames + 1
      benchedFrames := if s.systemState .bench then s.benchedFrames + 1 else 0
      cycleCount := UInt32.ofNat (workerStarts V input s).length } := by
  have hcached : (s.onFamily .cacheSystemState).cachedSystemState = s.systemState := rfl
  have hquirks : ((s.onFamily .cacheSystemState).onFamily .cacheQuirks).cachedSystemState =
    s.systemState := rfl
  obtain ⟨hstop, hpause⟩ := Bool.or_eq_false_iff.1 (s.systemState.has_notRunning ▸ hnot)
  unfold Core.workerFrame mainSystemLoop at hrun
  unfold Core.workerStarts frameStarts
  dsimp only at hrun ⊢
  rw [hcached, hquirks, hstop, hpause, if_neg Bool.false_ne_true, if_neg Bool.false_ne_true]
    at hrun ⊢
  obtain ⟨t, ht, rfl⟩ := Option.map_eq_some_iff.1 hrun
  obtain ⟨u, hu, rfl⟩ := Option.map_eq_some_iff.1 ht
  have hentry : (((s.onFamily .cacheSystemState).onFamily .cacheQuirks).onFamily
      (.prepareFrame input.keys)).held = { s.held with cachedSystemState := s.systemState } :=
    IFamily.held_prepareFrame input.keys _
  have hpost : (u.onFamily .handlePostWorkInterrupts).held = _ :=
    (IFamily.held_handlePostWorkInterrupts u.toIFamily).trans (h.executeCycleLoop hu)
  have hout := (h.pushVideoData _).trans ((h.pushAudioData input _).trans hpost)
  rw [hentry] at hout
  refine (IFamily.held_countFrame _).trans ((congrArg Held.countFrame hout).trans ?_)
  exact if_neg (Bool.eq_false_iff.1 hnot)

end HeldKept

/-! ## Runs -/

/-- A frame of a running system. -/
def countsFrame (x : Core bits Own × Event) : Bool :=
  match x.2 with
  | .frame _ => !x.1.systemState.has EmuState.notRunning
  | _ => false

/-- A reset that was requested. -/
def resets (x : Core bits Own × Event) : Bool :=
  match x.2 with
  | .reset => x.1.systemState .reset
  | _ => false

/-- What ends a BENCH: a reset, or a frame outside BENCH mode. -/
def endsBench (x : Core bits Own × Event) : Bool :=
  resets x || (countsFrame x && !x.1.systemState .bench)

/-- What the frame counters count, along the steps `l` of a run. -/
structure FramesCounted (l : List (Core bits Own × Event)) (s : Core bits Own) : Prop where
  elapsedFrames : s.elapsedFrames =
    UInt32.ofNat ((l.rtakeWhile fun x => !resets x).countP countsFrame)
  benchedFrames : s.benchedFrames =
    UInt32.ofNat ((l.rtakeWhile fun x => !endsBench x).countP countsFrame)

namespace FramesCounted

variable {l : List (Core bits Own × Event)} {s s' : Core bits Own} {x : Core bits Own × Event}

/-- A step that counts no frame and ends nothing. -/
theorem idle (hs : FramesCounted l s) (hcounts : countsFrame x = false)
    (hresets : resets x = false) (helapsed : s'.elapsedFrames = s.elapsedFrames)
    (hbenched : s'.benchedFrames = s.benchedFrames) : FramesCounted (l ++ [x]) s' := by
  have hends : endsBench x = false := by rw [endsBench, hresets, hcounts]; rfl
  constructor
  · rw [helapsed, hs.elapsedFrames, List.rtakeWhile_concat_pos _ _ _ (by rw [hresets]; rfl),
      List.countP_append, List.countP_singleton, hcounts]
    rfl
  · rw [hbenched, hs.benchedFrames, List.rtakeWhile_concat_pos _ _ _ (by rw [hends]; rfl),
      List.countP_append, List.countP_singleton, hcounts]
    rfl

/-- A step that ends what is counted, and sets a counter to 0. -/
theorem countP_ended {p : Core bits Own × Event → Bool} (hp : p x = false) :
    ((l ++ [x]).rtakeWhile p).countP countsFrame = 0 := by
  rw [List.rtakeWhile_concat_neg _ _ _ (by rw [hp]; decide)]
  rfl

/-- A step that counts a frame. -/
theorem countP_counted {p : Core bits Own × Event → Bool} (hp : p x = true)
    (hcounts : countsFrame x = true) :
    UInt32.ofNat (((l ++ [x]).rtakeWhile p).countP countsFrame) =
      UInt32.ofNat ((l.rtakeWhile p).countP countsFrame) + 1 := by
  rw [List.rtakeWhile_concat_pos _ _ _ hp, List.countP_append, List.countP_singleton,
    if_pos hcounts, UInt32.ofNat_add]
  rfl

variable {V : Virtuals bits Own Instruction}

/-- **An event** of a run. -/
theorem step (h : HeldKept V) (hs : FramesCounted l s) {e : Event}
    (hstep : Core.step V s e = some s') : FramesCounted (l ++ [(s, e)]) s' := by
  cases e with
  | reset =>
      cases hstep
      unfold workerReset
      cases hreset : s.systemState .reset with
      | false => exact hs.idle rfl hreset rfl rfl
      | true =>
          have hheld := h.resetSystemData (s.onFamily .resetInstance)
          have hresets : resets (s, Event.reset) = true := hreset
          constructor
          · rw [countP_ended (by rw [hresets]; rfl)]
            exact congrArg Held.elapsedFrames hheld
          · rw [countP_ended (by rw [endsBench, hresets]; rfl)]
            exact congrArg Held.benchedFrames hheld
  | frame input =>
      have hrun : Core.workerFrame V input s = some s' := hstep
      cases hnot : s.systemState.has EmuState.notRunning with
      | true =>
          have hheld := h.workerFrame_notRunning hrun hnot
          have hcounts : countsFrame (s, Event.frame input) = false := congrArg not hnot
          exact hs.idle hcounts rfl (congrArg Held.elapsedFrames hheld)
            (congrArg Held.benchedFrames hheld)
      | false =>
          have hheld := h.workerFrame_running hrun hnot
          have hcounts : countsFrame (s, Event.frame input) = true := congrArg not hnot
          constructor
          · rw [countP_counted rfl hcounts, ← hs.elapsedFrames]
            exact congrArg Held.elapsedFrames hheld
          · refine (congrArg Held.benchedFrames hheld).trans ?_
            cases hbench : s.systemState .bench with
            | true =>
                have hends : endsBench (s, Event.frame input) = false := by
                  rw [endsBench, hcounts, hbench]
                  rfl
                rw [countP_counted (by rw [hends]; rfl) hcounts, ← hs.benchedFrames]
                rfl
            | false =>
                have hends : endsBench (s, Event.frame input) = true := by
                  rw [endsBench, hcounts, hbench]
                  rfl
                rw [countP_ended (by rw [hends]; rfl)]
                rfl
  | gui op =>
      cases hstep
      have hkept : (guiStep V op s).elapsedFrames = s.elapsedFrames ∧
          (guiStep V op s).benchedFrames = s.benchedFrames := by
        cases op with
        | tryPauseSystem => unfold guiStep; dsimp only; split <;> exact ⟨rfl, rfl⟩
        | toggleQuirk flag => unfold guiStep; dsimp only; split <;> exact ⟨rfl, rfl⟩
        | _ => exact ⟨rfl, rfl⟩
      exact hs.idle rfl rfl hkept.1 hkept.2
  | host host => cases hstep; exact hs.idle rfl rfl rfl rfl

end FramesCounted

end Core

end CubeChip
