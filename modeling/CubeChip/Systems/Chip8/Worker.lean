import CubeChip.Systems.Chip8.Cores.Flow

/-!
# The worker and the GUI thread, step by step

The events of a run take the worker's iteration in two pieces. Here it is taken apart at every
access to the system state: the test for RESET, the reset, the `fetch_and` that clears
NOT_RUNNING, the snapshot, and `main_system_loop`, which may add HALTED or FATAL. The GUI
thread comes in between at any place, and its attempt to pause is a test and a `fetch_xor`.
`Inv` says where a reset that is owed stands: in the state word, or done with no call of
`main_system_loop` entered since, on a machine no frame has touched. `Safe` is what follows;
with nothing in between, the worker's steps are the two events (`alone_testReset`).
-/

namespace CubeChip

namespace Worker

open CubeChip.Core

/-- What the worker does next. -/
inductive Place where
  | testReset
  | performReset
  | subNotRunning
  | takeSnapshot
  | mainLoop
deriving DecidableEq, Repr

/-- A system with its worker and the GUI thread, and what an observer counts. -/
structure State (bits : Nat) (Own : Type) where
  core : Core bits Own
  place : Place
  /-- `try_pause_system` has passed its test. -/
  pausing : Bool
  /-- The calls of `main_system_loop` entered. -/
  entered : Nat
  /-- Their number when a `perform_instance_reset` was last complete. -/
  resetAt : Option Nat
  /-- Their number when a request last took effect. -/
  requestedAt : Option Nat
  /-- The worker has performed a reset in this iteration. -/
  resetDone : Bool

/-- The worker at the start of an iteration, on a core in any state. -/
def start {bits : Nat} {Own : Type} (core : Core bits Own) : State bits Own :=
  ⟨core, .testReset, false, 0, none, none, false⟩

inductive Action where
  | worker (input : FrameInput)
  | gui (op : GuiOp)
  | xorPaused

variable {bits : Nat} {Own Instruction : Type} (V : Virtuals bits Own Instruction)

/-- One step of the worker; `none` if the process ends in a frame. -/
def workerStep (input : FrameInput) (s : State bits Own) : Option (State bits Own) :=
  match s.place with
  | .testReset =>
      some { s with
        place := if s.core.systemState .reset then .performReset else .takeSnapshot
        resetDone := false }
  | .performReset =>
      some { s with
        core := performInstanceReset V s.core
        place := .subNotRunning
        resetAt := some s.entered
        resetDone := true }
  | .subNotRunning =>
      some { s with
        core := s.core.onFamily fun c =>
          { c with systemState := c.systemState.sub EmuState.notRunning }
        place := .takeSnapshot }
  | .takeSnapshot =>
      let core := s.core.onFamily .cacheSystemState
      if core.cachedSystemState.has EmuState.anyStop then
        some { s with core := core, place := .testReset }
      else some { s with core := core, place := .mainLoop, entered := s.entered + 1 }
  | .mainLoop =>
      (mainSystemLoop V input s.core).map fun core =>
        { s with core := core.onFamily .countFrame, place := .testReset }

/-- One operation of the GUI thread. -/
def guiAction (op : GuiOp) (s : State bits Own) : State bits Own :=
  match op with
  | .tryPauseSystem => { s with pausing := !s.core.systemState.has EmuState.cannotPause }
  | .requestInstanceReset =>
      { s with core := guiStep V op s.core, requestedAt := some s.entered }
  | op => { s with core := guiStep V op s.core }

/-- One step; the GUI thread does nothing else between the two halves of its attempt to pause. -/
def step (s : State bits Own) : Action → Option (State bits Own)
  | .worker input => workerStep V input s
  | .gui op => if s.pausing then none else some (guiAction V op s)
  | .xorPaused =>
      if s.pausing then some { s with
        core := s.core.onFamily fun c => { c with systemState := c.systemState.xor [.paused] }
        pausing := false }
      else none

/-! ## What a step can do -/

/-- The steps, by what they are. -/
inductive StepOf (s : State bits Own) : State bits Own → Prop where
  | gui (c : Core bits Own) (pausing : Bool) (h : GuiKept s.core c) :
      StepOf s { s with core := c, pausing := pausing }
  | request :
      StepOf s { s with
        core := guiStep V .requestInstanceReset s.core
        requestedAt := some s.entered }
  | testReset (h : s.place = .testReset) :
      StepOf s { s with
        place := if s.core.systemState .reset then .performReset else .takeSnapshot
        resetDone := false }
  | performReset (h : s.place = .performReset) :
      StepOf s { s with
        core := performInstanceReset V s.core
        place := .subNotRunning
        resetAt := some s.entered
        resetDone := true }
  | subNotRunning (h : s.place = .subNotRunning) :
      StepOf s { s with
        core := s.core.onFamily fun c =>
          { c with systemState := c.systemState.sub EmuState.notRunning }
        place := .takeSnapshot }
  | stopped (h : s.place = .takeSnapshot) (hstop : s.core.systemState.has EmuState.anyStop = true) :
      StepOf s { s with core := s.core.onFamily .cacheSystemState, place := .testReset }
  | enter (h : s.place = .takeSnapshot) (hgo : s.core.systemState.has EmuState.anyStop = false) :
      StepOf s { s with
        core := s.core.onFamily .cacheSystemState
        place := .mainLoop
        entered := s.entered + 1 }
  | ran (input : FrameInput) (t : Core bits Own) (h : s.place = .mainLoop)
      (hrun : mainSystemLoop V input s.core = some t) :
      StepOf s { s with core := t.onFamily .countFrame, place := .testReset }

variable {V} {s s' : State bits Own}

theorem stepOf_of_step {a : Action} (h : step V s a = some s') : StepOf V s s' := by
  cases a with
  | gui op =>
      dsimp only [step] at h
      split at h
      · cases h
      · cases h
        cases op with
        | tryPauseSystem => exact .gui _ _ (.refl s.core)
        | requestInstanceReset => exact .request
        | _ => exact .gui _ s.pausing (guiKept_guiStep V s.core _)
  | xorPaused =>
      dsimp only [step] at h
      split at h
      · cases h
        exact .gui _ false (.xor (.inl rfl))
      · cases h
  | worker input =>
      dsimp only [step, workerStep] at h
      split at h
      next hplace => cases h; exact .testReset hplace
      next hplace => cases h; exact .performReset hplace
      next hplace => cases h; exact .subNotRunning hplace
      next hplace =>
        split at h
        next hstop => cases h; exact .stopped hplace hstop
        next hgo => cases h; exact .enter hplace (Bool.eq_false_iff.2 hgo)
      next hplace =>
        obtain ⟨t, ht, rfl⟩ := Option.map_eq_some_iff.1 h
        exact .ran input t hplace ht

/-! ## What stays -/

/-- What a frame leaves: a state that was set stays set. -/
theorem set_mainSystemLoop (hV : V.FlowKept) {input : FrameInput} {c c' : Core bits Own}
    (hrun : mainSystemLoop V input c = some c') {e : EmuState} (h : c.systemState e = true) :
    c'.systemState e = true := by
  rcases systemState_mainSystemLoop hV hrun with heq | heq | heq <;> rw [heq]
  · exact h
  · exact (congrArg (_ || ·) h).trans (Bool.or_true _)
  · exact (congrArg (_ || ·) h).trans (Bool.or_true _)

theorem systemState_countFrame (c : IFamily) : c.countFrame.systemState = c.systemState := by
  unfold IFamily.countFrame; split <;> rfl

/-- What an operation of the GUI thread leaves set. -/
theorem set_of_guiKept {c c' : Core bits Own} (hkept : GuiKept c c') {e : EmuState}
    (he : e = .halted ∨ e = .fatal ∨ e = .reset) (hset : c.systemState e = true) :
    c'.systemState e = true := by
  rcases he with rfl | rfl | rfl
  · exact (hkept.stop _ (.inl rfl)).trans hset
  · exact (hkept.stop _ (.inr rfl)).trans hset
  · exact hkept.reset hset

/-- All steps but the `fetch_and` leave HALTED, FATAL and RESET set. -/
theorem set_of_stepOf (hV : V.FlowKept) (h : StepOf V s s') (hplace : s.place ≠ .subNotRunning)
    {e : EmuState} (he : e = .halted ∨ e = .fatal ∨ e = .reset)
    (hset : s.core.systemState e = true) : s'.core.systemState e = true := by
  cases h with
  | subNotRunning h => exact absurd h hplace
  | gui c pausing hkept => exact set_of_guiKept hkept he hset
  | request => exact set_of_guiKept (guiKept_guiStep V s.core .requestInstanceReset) he hset
  | testReset | stopped | enter => exact hset
  | performReset => exact (congrFun (systemState_performInstanceReset hV s.core) e).trans hset
  | ran input t h hrun =>
      exact (congrFun (systemState_countFrame t.toIFamily) e).trans
        (set_mainSystemLoop hV hrun hset)

/-! ## Where a reset is owed -/

/-- What every interleaving keeps. -/
structure Inv (V : Virtuals bits Own Instruction) (s : State bits Own) : Prop where
  /-- The `fetch_and` comes right after a reset in the same iteration. -/
  subNotRunning : s.place = .subNotRunning → s.resetDone = true ∧ s.resetAt = some s.entered
  mainLoop : s.place = .mainLoop → s.core.cachedSystemState.has EmuState.anyStop = false
  requestedAt_le : ∀ r, s.requestedAt = some r → r ≤ s.entered
  resetAt_le : ∀ k, s.resetAt = some k → k ≤ s.entered
  /-- A call that runs was entered after the resets there were. -/
  resetAt_mainLoop : s.place = .mainLoop → s.resetAt ≠ some s.entered
  /-- Before the next call a request stands in the state word, or a reset is done. -/
  owed : s.requestedAt = some s.entered →
    s.core.systemState .reset = true ∨ s.resetAt = some s.entered
  /-- The calls after a request follow a reset. -/
  served : ∀ r, s.requestedAt = some r → r < s.entered → ∃ k, s.resetAt = some k ∧ r ≤ k
  /-- Until the next call the machine is as the reset left it. -/
  fresh : s.resetAt = some s.entered → ∃ c, Untouched (performInstanceReset V c) s.core

theorem inv_start (core : Core bits Own) : Inv V (start core) where
  subNotRunning := fun h => nomatch h
  mainLoop := fun h => nomatch h
  requestedAt_le := fun _ h => nomatch h
  resetAt_le := fun _ h => nomatch h
  resetAt_mainLoop := fun h => nomatch h
  owed := fun h => nomatch h
  served := fun _ h => nomatch h
  fresh := fun h => nomatch h

/-- A step that enters no call, completes no reset and requests none. -/
theorem Inv.move (hs : Inv V s) {core : Core bits Own} {place : Place} {pausing resetDone : Bool}
    (hsub : place = .subNotRunning → s.place = .subNotRunning ∧ resetDone = s.resetDone)
    (hmain : place = .mainLoop →
      s.place = .mainLoop ∧ core.cachedSystemState = s.core.cachedSystemState)
    (howed : s.core.systemState .reset = true →
      core.systemState .reset = true ∨ s.resetAt = some s.entered)
    (hfresh : s.resetAt = some s.entered → Untouched s.core core) :
    Inv V { s with core, place, pausing, resetDone } where
  subNotRunning := fun h => by
    obtain ⟨hplace, hdone⟩ := hsub h
    exact (hs.subNotRunning hplace).imp_left hdone.trans
  mainLoop := fun h => by
    obtain ⟨hplace, hcached⟩ := hmain h
    exact hcached ▸ hs.mainLoop hplace
  requestedAt_le := hs.requestedAt_le
  resetAt_le := hs.resetAt_le
  resetAt_mainLoop := fun h => hs.resetAt_mainLoop (hmain h).1
  owed := fun hr => (hs.owed hr).elim howed .inr
  served := hs.served
  fresh := fun hk => (hs.fresh hk).imp fun _ hc => hc.trans (hfresh hk)

theorem Inv.request (hs : Inv V s) :
    Inv V { s with
      core := guiStep V .requestInstanceReset s.core
      requestedAt := some s.entered } where
  subNotRunning := hs.subNotRunning
  mainLoop := hs.mainLoop
  requestedAt_le := fun _ hr => (Option.some.inj hr).ge
  resetAt_le := hs.resetAt_le
  resetAt_mainLoop := hs.resetAt_mainLoop
  owed := fun _ => .inl rfl
  served := fun _ hr hlt => absurd (Option.some.inj hr) hlt.ne'
  fresh := fun hr => (hs.fresh hr).imp fun _ hc =>
    hc.trans (guiKept_guiStep V s.core .requestInstanceReset).toUntouched

/-- A reset serves every request so far. -/
theorem Inv.performReset (hs : Inv V s) :
    Inv V { s with
      core := performInstanceReset V s.core
      place := .subNotRunning
      resetAt := some s.entered
      resetDone := true } where
  subNotRunning := fun _ => ⟨rfl, rfl⟩
  mainLoop := fun h => nomatch h
  requestedAt_le := hs.requestedAt_le
  resetAt_le := fun _ hk => (Option.some.inj hk).ge
  resetAt_mainLoop := fun h => nomatch h
  owed := fun _ => .inr rfl
  served := fun _ _ hlt => ⟨s.entered, rfl, hlt.le⟩
  fresh := fun _ => ⟨s.core, .refl _⟩

/-- The snapshot did not have RESET, so the reset for a request is done. -/
theorem Inv.served_of_snapshot (hs : Inv V s)
    (hgo : s.core.systemState.has EmuState.anyStop = false) (r : Nat)
    (hr : s.requestedAt = some r) : ∃ k, s.resetAt = some k ∧ r ≤ k := by
  rcases (hs.requestedAt_le r hr).eq_or_lt with rfl | hlt
  · have hreset := SystemState.not_of_has hgo (e := .reset) (by decide)
    have hdone := (hs.owed hr).resolve_left (by rw [hreset]; decide)
    exact ⟨_, hdone, le_rfl⟩
  · exact hs.served r hr hlt

/-- A call is entered. -/
theorem Inv.enter (hs : Inv V s) (hgo : s.core.systemState.has EmuState.anyStop = false) :
    Inv V { s with
      core := s.core.onFamily .cacheSystemState
      place := .mainLoop
      entered := s.entered + 1 } := by
  have hnot : s.resetAt ≠ some (s.entered + 1) :=
    fun hk => absurd (hs.resetAt_le _ hk) (Nat.not_succ_le_self _)
  exact {
    subNotRunning := fun h => nomatch h
    mainLoop := fun _ => hgo
    requestedAt_le := fun r hr => Nat.le_succ_of_le (hs.requestedAt_le r hr)
    resetAt_le := fun k hk => Nat.le_succ_of_le (hs.resetAt_le k hk)
    resetAt_mainLoop := fun _ => hnot
    owed := fun hr => absurd (hs.requestedAt_le _ hr) (Nat.not_succ_le_self _)
    served := fun r hr _ => hs.served_of_snapshot hgo r hr
    fresh := fun hk => absurd hk hnot }

/-- **One step.** -/
theorem Inv.stepOf (hV : V.FlowKept) (hs : Inv V s) (h : StepOf V s s') : Inv V s' := by
  cases h with
  | gui c pausing hkept =>
      exact hs.move (fun h => ⟨h, rfl⟩) (fun h => ⟨h, hkept.cached⟩)
        (fun hreset => .inl (hkept.reset hreset)) fun _ => hkept.toUntouched
  | request => exact hs.request
  | testReset =>
      refine hs.move (fun h => ?_) (fun h => ?_) .inl fun _ => .refl _
      all_goals split at h <;> cases h
  | performReset => exact hs.performReset
  | subNotRunning hplace =>
      exact hs.move (fun h => nomatch h) (fun h => nomatch h)
        (fun _ => .inr (hs.subNotRunning hplace).2) fun _ => ⟨rfl, rfl, rfl, rfl, rfl, rfl, rfl⟩
  | stopped =>
      exact hs.move (fun h => nomatch h) (fun h => nomatch h) .inl
        fun _ => ⟨rfl, rfl, rfl, rfl, rfl, rfl, rfl⟩
  | enter _ hgo => exact hs.enter hgo
  | ran input t hplace hrun =>
      refine hs.move (fun h => nomatch h) (fun h => nomatch h) (fun hreset => .inl ?_)
        fun hk => absurd hk (hs.resetAt_mainLoop hplace)
      exact (congrFun (systemState_countFrame t.toIFamily) _).trans
        (set_mainSystemLoop hV hrun hreset)

/-! ## The events -/

/-- The core after some steps of the worker alone, and where it then is. -/
def alone (V : Virtuals bits Own Instruction) (input : FrameInput) (n : Nat) (s : State bits Own) :
    Option (Core bits Own × Place) :=
  (Runs.run (step V) s (List.replicate n (.worker input))).map fun t => (t.core, t.place)

theorem alone_succ {input : FrameInput} {n : Nat} (h : step V s (.worker input) = some s') :
    alone V input (n + 1) s = alone V input n s' := by
  rw [alone, List.replicate_succ, Runs.run, h]; rfl

/-- From the snapshot on. -/
theorem alone_takeSnapshot (input : FrameInput) (hplace : s.place = .takeSnapshot) :
    ∃ n, alone V input n s = (workerFrame V input s.core).map fun c => (c, Place.testReset) := by
  cases hstop : s.core.systemState.has EmuState.anyStop with
  | true =>
      refine ⟨1, ?_⟩
      have hstep : step V s (.worker input) = some { s with
          core := s.core.onFamily .cacheSystemState, place := .testReset } := by
        rw [step, workerStep, hplace]; exact if_pos hstop
      have hframe : workerFrame V input s.core = some (s.core.onFamily .cacheSystemState) :=
        if_pos hstop
      rw [alone_succ hstep, hframe]
      rfl
  | false =>
      refine ⟨2, ?_⟩
      have hgo : ¬ s.core.systemState.has EmuState.anyStop = true := by rw [hstop]; decide
      have hstep : step V s (.worker input) = some { s with
          core := s.core.onFamily .cacheSystemState
          place := .mainLoop
          entered := s.entered + 1 } := by
        rw [step, workerStep, hplace]; exact if_neg hgo
      have hframe : workerFrame V input s.core =
          (mainSystemLoop V input (s.core.onFamily .cacheSystemState)).map
            (·.onFamily .countFrame) := if_neg hgo
      rw [alone_succ hstep, hframe]
      cases hrun : mainSystemLoop V input (s.core.onFamily .cacheSystemState) with
      | none =>
          rw [alone, List.replicate_succ, Runs.run, step, workerStep, hrun]; rfl
      | some t =>
          rw [alone, List.replicate_succ, Runs.run, step, workerStep, hrun]; rfl

/-- **The worker's two events** are its steps with nothing between them. -/
theorem alone_testReset (input : FrameInput) (hplace : s.place = .testReset) :
    ∃ n, alone V input (n + 1) s =
      (workerFrame V input (workerReset V s.core)).map fun c => (c, Place.testReset) := by
  cases hreset : s.core.systemState .reset with
  | true =>
      have htest : step V s (.worker input) = some { s with
          place := .performReset, resetDone := false } := by
        rw [step, workerStep, hplace, hreset]; rfl
      obtain ⟨n, hn⟩ := alone_takeSnapshot (V := V) input (s := { s with
        core := workerReset V s.core
        place := .takeSnapshot
        resetAt := some s.entered
        resetDone := true }) rfl
      refine ⟨n + 2, (alone_succ htest).trans ?_⟩
      rw [← hn, workerReset, if_pos hreset]
      rfl
  | false =>
      have htest : step V s (.worker input) = some { s with
          place := .takeSnapshot, resetDone := false } := by
        rw [step, workerStep, hplace, hreset]; rfl
      obtain ⟨n, hn⟩ := alone_takeSnapshot (V := V) input
        (s := { s with place := .takeSnapshot, resetDone := false }) rfl
      refine ⟨n, (alone_succ htest).trans ?_⟩
      rw [hn, workerReset, if_neg (by rw [hreset]; decide)]

/-! ## The guarantees -/

/-- What holds of a state between any two steps. -/
structure Safe (V : Virtuals bits Own Instruction) (s : State bits Own) : Prop where
  /-- HALTED and FATAL are cleared only in an iteration that performed a reset. -/
  cleared : ∀ a s' e, step V s a = some s' → e = .halted ∨ e = .fatal →
    s.core.systemState e = true → s'.core.systemState e = false → s.resetDone = true
  /-- A call is entered on a snapshot without HALTED, FATAL and RESET. -/
  entered : s.place = .mainLoop → s.core.cachedSystemState.has EmuState.anyStop = false
  /-- A request puts RESET into the state word. -/
  requested : ∀ s', step V s (.gui .requestInstanceReset) = some s' →
    s'.core.systemState .reset = true ∧ s'.requestedAt = some s'.entered
  /-- RESET is cleared only in an iteration that performed a reset, with no call since. -/
  reset_cleared : ∀ a s', step V s a = some s' → s.core.systemState .reset = true →
    s'.core.systemState .reset = false → s.resetDone = true ∧ s.resetAt = some s.entered
  /-- From a request to the next call it stands in the state word, or a reset is complete. -/
  owed : s.requestedAt = some s.entered →
    s.core.systemState .reset = true ∨ s.resetAt = some s.entered
  /-- A call that runs after a request was entered before it, or runs on a machine reset since
  the calls before the request. -/
  running : s.place = .mainLoop → ∀ r, s.requestedAt = some r →
    s.entered = r ∨ ∃ k, s.resetAt = some k ∧ r ≤ k
  /-- The next call entered after a request follows a complete reset with no call between: no
  frame has touched what the reset left. -/
  next : ∀ a s', step V s a = some s' → s.place ≠ .mainLoop → s'.place = .mainLoop →
    s.requestedAt = some s.entered →
      s.resetAt = some s.entered ∧ ∃ c, Untouched (performInstanceReset V c) s.core
  /-- An iteration with nothing in between is that of a run. -/
  iteration : s.place = .testReset → ∀ input, ∃ n, alone V input (n + 1) s =
    (workerFrame V input (workerReset V s.core)).map fun c => (c, Place.testReset)

/-- A step into `main_system_loop` is that of a snapshot without a stop. -/
theorem enters (h : StepOf V s s') (hplace : s.place ≠ .mainLoop) (hplace' : s'.place = .mainLoop) :
    s.core.systemState.has EmuState.anyStop = false := by
  cases h with
  | enter _ hgo => exact hgo
  | testReset => dsimp only at hplace'; split at hplace' <;> cases hplace'
  | performReset | subNotRunning | stopped | ran => exact nomatch hplace'
  | gui | request => exact absurd hplace' hplace

theorem Inv.safe (hV : V.FlowKept) (hs : Inv V s) : Safe V s where
  cleared := fun a s' e h he hset hclear => by
    by_cases hplace : s.place = .subNotRunning
    · exact (hs.subNotRunning hplace).1
    · have hkept := set_of_stepOf hV (stepOf_of_step h) hplace (or_assoc.1 (.inl he)) hset
      exact absurd (hclear.symm.trans hkept) Bool.false_ne_true
  entered := hs.mainLoop
  requested := fun s' h => by
    dsimp only [step] at h
    split at h
    · cases h
    · cases h
      exact ⟨rfl, rfl⟩
  reset_cleared := fun a s' h hset hclear => by
    by_cases hplace : s.place = .subNotRunning
    · exact hs.subNotRunning hplace
    · have hkept := set_of_stepOf hV (stepOf_of_step h) hplace (.inr (.inr rfl)) hset
      exact absurd (hclear.symm.trans hkept) Bool.false_ne_true
  owed := hs.owed
  running := fun _ r hr =>
    (hs.requestedAt_le r hr).eq_or_lt.imp Eq.symm (hs.served r hr)
  next := fun a s' h hplace hplace' hr => by
    have hreset := SystemState.not_of_has (enters (stepOf_of_step h) hplace hplace') (e := .reset)
      (by decide)
    have hdone := (hs.owed hr).resolve_left (by rw [hreset]; decide)
    exact ⟨hdone, hs.fresh hdone⟩
  iteration := fun hplace input => alone_testReset input hplace

/-- **No order of steps** loses a reset request or wakes a stopped machine up without a reset. -/
theorem safe_of_run (core : FamilyCore) (c : Core core.bits core.Own) (actions : List Action)
    (s : State core.bits core.Own)
    (h : Runs.run (step core.virtuals) (start c) actions = some s) : Safe core.virtuals s := by
  have hinv : Inv core.virtuals s := Runs.run_invariant
    (fun _ _ _ hs hstep => hs.stepOf core.flowKept (stepOf_of_step hstep)) (inv_start c) h
  exact hinv.safe core.flowKept

/-- The worker's next step, without keys. -/
def Action.idle : Action := .worker ⟨fun _ => false, 0, false⟩

/-- A request while a call runs whose snapshot was taken, and one while the reset for it is in
progress: the next call is entered on a machine that was reset. -/
theorem safe_of_run_request :
    ∃ s, Runs.run (step Chip8Modern.virtuals)
        (start (Chip8Modern.construct (Launch.ofProgram [0x60, 0x01, 0x12, 0x00])))
        [.idle, .idle, .gui .requestInstanceReset, .idle, .idle, .idle,
          .gui .requestInstanceReset, .idle, .idle] = some s ∧
      s.place = .mainLoop ∧ s.entered = 2 ∧ s.requestedAt = some 1 ∧ s.resetAt = some 1 ∧
      Safe Chip8Modern.virtuals s := by
  have hrun : ((Runs.run (step Chip8Modern.virtuals)
      (start (Chip8Modern.construct (Launch.ofProgram [0x60, 0x01, 0x12, 0x00])))
      [.idle, .idle, .gui .requestInstanceReset, .idle, .idle, .idle,
        .gui .requestInstanceReset, .idle, .idle]).map
      fun s => (s.place, s.entered, s.requestedAt, s.resetAt)) =
        some (.mainLoop, 2, some 1, some 1) := by decide +kernel
  obtain ⟨s, hs, hfields⟩ := Option.map_eq_some_iff.1 hrun
  simp only [Prod.mk.injEq] at hfields
  obtain ⟨hplace, hentered, hrequested, hreset⟩ := hfields
  exact ⟨s, hs, hplace, hentered, hrequested, hreset, safe_of_run .chip8Modern _ _ s hs⟩

end Worker

end CubeChip
