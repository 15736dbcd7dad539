import CubeChip.Systems.Chip8.Cores.SchipLegacy.Reset

/-!
# `SCHIP_LEGACY`: waiting for the display

Outside extended mode a frame has one `DxyN` at most. The mode is read as it is, the quirk
that makes `DxyN` wait is the one cached when the frame began; the two agree wherever an
instruction starts because 00FE and 00FF, which change both, also end the frame.
-/

namespace CubeChip.SchipLegacy

open CubeChip.Core

/-- A `DxyN` starts here. -/
def draws (s : SchipLegacy) : Bool :=
  match current virtuals s with
  | .iDxyN _ _ _ => true
  | _ => false

/-- The instruction that starts here changes the mode. -/
def ChangesMode (s : SchipLegacy) : Prop :=
  ∃ s', cycle virtuals s = some s' ∧ s'.trait.useHiresScreen ≠ s.trait.useHiresScreen

/-! ## One instruction -/

/-- An instruction keeps the cached quirks; it keeps the mode as well, or ends the frame. -/
theorem execute_mode {i : Instruction} {s s' : SchipLegacy} (h : execute i s = some s') :
    s'.cachedQuirkFlags = s.cachedQuirkFlags ∧ (s'.trait = s.trait ∨ s'.interrupt = .frame) := by
  cases i with
  | common i =>
      cases h
      obtain ⟨hset, _, hcached⟩ := executeCommon_frame (config s) i s
      exact ⟨hcached, .inl (congrArg (·.trait) hset)⟩
  | i00FE | i00FF => cases h; exact ⟨rfl, .inr rfl⟩
  | iFN85 N =>
      obtain ⟨r, _, rfl⟩ := Option.map_eq_some_iff.1 h
      exact ⟨rfl, .inl rfl⟩
  | _ => cases h; exact ⟨rfl, .inl rfl⟩

/-- Under the quirk a `DxyN` ends the frame. -/
theorem interrupt_instructionDxyN (s : SchipLegacy) (X Y N : Fin 16)
    (h : s.hasQuirk .awaitVblank = true) : (instructionDxyN s X Y N).interrupt = .frame :=
  if_pos h

/-- If the loop goes on, the instruction left no interrupt. -/
theorem cycle_of_goesOn {s : SchipLegacy} (h : Loops.GoesOn running (iterate virtuals) s) :
    ∃ t, cycle virtuals s = some t ∧ t.interrupt ≠ .frame := by
  obtain ⟨t', ht', hgo⟩ := h
  obtain ⟨t, ht, rfl⟩ := Option.map_eq_some_iff.1 ht'
  refine ⟨t, ht, fun hframe => ?_⟩
  have hstop : running t = false := not_running_of_frame hframe
  exact Bool.false_ne_true (hstop.symm.trans hgo)

/-- If the loop goes on, the mode was kept. -/
theorem not_changesMode_of_goesOn {s : SchipLegacy}
    (h : Loops.GoesOn running (iterate virtuals) s) : ¬ ChangesMode s := by
  rintro ⟨t, ht, hmode⟩
  obtain ⟨t', ht', hclear⟩ := cycle_of_goesOn h
  cases ht.symm.trans ht'
  rcases (execute_mode ht).2 with htrait | hframe
  · exact hmode (congrArg (·.useHiresScreen) htrait)
  · exact hclear hframe

/-- If the loop goes on under the quirk, it was no `DxyN`. -/
theorem not_draws_of_goesOn {s : SchipLegacy}
    (h : Loops.GoesOn running (iterate virtuals) s) (hquirk : s.hasQuirk .awaitVblank = true) :
    draws s = false := by
  obtain ⟨t, ht, hclear⟩ := cycle_of_goesOn h
  unfold draws
  split
  · next X Y N hcur =>
      have ht : execute (current virtuals s) s.fetch.2 = some t := ht
      rw [hcur] at ht
      have hframe : t.interrupt = .frame :=
        Option.some.inj ht ▸ interrupt_instructionDxyN s.fetch.2 X Y N hquirk
      exact absurd hframe hclear
  · rfl

/-! ## One frame -/

/-- While instructions run, the quirks are those cached and they tell the mode. -/
theorem loopKept_discipline (quirks : QuirkFlags) :
    LoopKept virtuals fun s => s.cachedQuirkFlags = quirks ∧
      (running s = true → quirks .awaitVblank = !s.trait.useHiresScreen) where
  loopEntry := fun _ hs => hs
  iterate := fun s s' hs hgo hstep => by
    obtain ⟨t, ht, rfl⟩ := Option.map_eq_some_iff.1 hstep
    obtain ⟨hcached, hmode⟩ := execute_mode ht
    refine ⟨hcached.trans hs.1, fun hgo' => ?_⟩
    rcases hmode with htrait | hframe
    · have htrait : t.trait = s.trait := htrait
      have hquirk := hs.2 hgo
      rwa [← htrait] at hquirk
    · have hstop : running t = false := not_running_of_frame hframe
      exact absurd (hstop.symm.trans hgo') Bool.false_ne_true

variable {launch : Launch}

/-- Wherever an instruction of a frame starts. -/
theorem starts_discipline {s : SchipLegacy} (hs : InStep launch s.body) (input : FrameInput) :
    ∀ t ∈ workerStarts virtuals input s, t.cachedQuirkFlags = s.quirkFlags ∧
      s.quirkFlags .awaitVblank = !t.trait.useHiresScreen := by
  rcases workerStarts_cases virtuals input s with heq | heq <;> rw [heq] <;> intro t ht
  · exact nomatch ht
  · have hset : (frameEntry input s).settings = s.settings :=
      IFamily.settings_prepareFrame input.keys _
    have hcached : (frameEntry input s).cachedQuirkFlags = s.quirkFlags :=
      (IFamily.prepareFrame_frame input.keys _).2
    have hmode : s.quirkFlags .awaitVblank = !(frameEntry input s).trait.useHiresScreen :=
      hs.awaitVblank.trans (congrArg (fun x => !x.trait.useHiresScreen) hset.symm)
    obtain ⟨⟨htcached, htmode⟩, hgo⟩ := (loopKept_discipline s.quirkFlags).cycleStarts
      input.slices ⟨hcached, fun _ => hmode⟩ t ht
    exact ⟨htcached, htmode hgo⟩

/-- The instructions of a frame that have another one after them leave no interrupt. -/
theorem starts_pairwise (input : FrameInput) (s : SchipLegacy) :
    (workerStarts virtuals input s).Pairwise
      fun t _ => Loops.GoesOn running (iterate virtuals) t := by
  rcases workerStarts_cases virtuals input s with heq | heq <;> rw [heq]
  · exact .nil
  · exact cycleStarts_pairwise virtuals input.slices _

/-- How a frame waits for the display. -/
structure WaitsForDisplay (input : FrameInput) (s : SchipLegacy) : Prop where
  /-- Wherever an instruction starts, the cached quirk is set exactly outside extended mode. -/
  discipline : ∀ t ∈ workerStarts virtuals input s,
    t.hasQuirk .awaitVblank = true ↔ t.trait.useHiresScreen = false
  /-- A frame that starts outside extended mode draws once at most. -/
  singleDraw : ∀ t, (workerStarts virtuals input s).head? = some t →
    t.trait.useHiresScreen = false → ((workerStarts virtuals input s).filter draws).length ≤ 1
  /-- Nothing is drawn in a frame after the mode changed. -/
  noDrawAfterChange : (workerStarts virtuals input s).Pairwise
    fun t u => ChangesMode t → draws u = false

/-- **Display wait.** Every frame of every run waits for the display. -/
theorem displayWait (launch : Launch) (s : SchipLegacy)
    (h : Reachable virtuals (boot launch) s) (input : FrameInput) : WaitsForDisplay input s := by
  have hstarts := starts_discipline (alwaysKept_inStep.reachable (inStep_boot launch) h) input
  have hpairs := starts_pairwise input s
  refine ⟨fun t ht => ?_, fun t₀ hhead hlow => ?_, ?_⟩
  · obtain ⟨hcached, hmode⟩ := hstarts t ht
    have hquirk : t.hasQuirk .awaitVblank = !t.trait.useHiresScreen :=
      (congrFun hcached .awaitVblank).trans hmode
    rw [hquirk]
    cases t.trait.useHiresScreen <;> decide
  · have hquirk : s.quirkFlags .awaitVblank = true :=
      (hstarts t₀ (List.mem_of_mem_head? hhead)).2.trans (congrArg not hlow)
    refine Loops.filter_length_le_one (hpairs.imp_of_mem fun ht _ hgo => ?_)
    exact not_draws_of_goesOn hgo ((congrFun (hstarts _ ht).1 .awaitVblank).trans hquirk)
  · exact hpairs.imp fun hgo hchange => absurd hchange (not_changesMode_of_goesOn hgo)

/-- A program of one `DxyN` after another draws once in its first frame. -/
theorem displayWait_boot :
    ((workerStarts virtuals ⟨fun _ => false, 0, false⟩
        (boot (.ofProgram [0xD0, 0x11, 0xD0, 0x11]))).filter draws).length = 1 ∧
      WaitsForDisplay ⟨fun _ => false, 0, false⟩ (boot (.ofProgram [0xD0, 0x11, 0xD0, 0x11])) :=
  ⟨by decide +kernel, displayWait _ _ ⟨[], rfl⟩ _⟩

end CubeChip.SchipLegacy
