import CubeChip.Systems.Chip8.Restart
import CubeChip.Systems.Chip8.Seeds
import CubeChip.Systems.Chip8.Cores.Chip8Modern.OnScreen

/-!
# `CHIP8_MODERN`: a reset is a fresh start

A reset of this core leaves its speed, the metadata of its frames and what lies behind the last
cell of the display. `instruction_loop` sets the speed before it uses it, no instruction reads
the metadata, and a program that stays on the screen does not come by the rest: whatever ran
before a reset, a program runs after it as on a core just started, instruction by instruction.
-/

namespace CubeChip

/-! ## Displays of the same cells -/

namespace Map2D

variable {α : Type} {m m' : Map2D α}

/-- Maps of the same cells have as many. -/
theorem SameCells.lt_size (h : SameCells m m') {i : Nat} (hi : i < m.size) : i < m'.size := by
  rw [size, ← h.1.1, ← h.1.2]
  exact hi

/-- Both filled. -/
theorem SameCells.fill (h : SameCells m m') (value : α) :
    SameCells (m.fill value) (m'.fill value) :=
  ⟨h.1, fun i hi =>
    (if_pos ⟨i.zero_le, hi⟩).trans (if_pos ⟨i.zero_le, h.lt_size hi⟩).symm⟩

/-- Both transformed. -/
theorem SameCells.transform (h : SameCells m m') (f : α → α) :
    SameCells (m.transform f) (m'.transform f) := by
  refine ⟨h.1, fun i hi => ?_⟩
  have hcell : m.data i = m'.data i := h.2 i hi
  exact (if_pos hi).trans ((congrArg f hcell).trans (if_pos (h.lt_size hi)).symm)

/-- A cell inside. -/
theorem SameCells.at2 (h : SameCells m m') {X Y : Nat} (hX : X < m.width) (hY : Y < m.height) :
    m.at2 X Y = m'.at2 X Y := by
  have hcell : m.data (m.offset X Y) = m'.data (m.offset X Y) := h.2 _ (offset_lt_size hX hY)
  rw [Map2D.at2, Map2D.at2, ← h.1.offset_eq]
  exact hcell

end Map2D

namespace Canvas

variable {lit : UInt8} {c c' : Canvas}

/-- Canvases that show the same, with the same VF. -/
structure SameShown (c c' : Canvas) : Prop where
  map : Map2D.SameCells c.map c'.map
  VF : c.VF = c'.VF

/-- A cell inside, flipped in both. -/
theorem SameShown.flip (h : SameShown c c') {X Y : Nat} (hX : X < c.map.width)
    (hY : Y < c.map.height) : SameShown (c.flip lit X Y) (c'.flip lit X Y) := by
  unfold Canvas.flip
  rw [← h.map.at2 hX hY, ← h.VF]
  exact ⟨h.map.set2 X Y _, rfl⟩

/-- Flips of cells of the screen. -/
theorem SameShown.flipAll (h : SameShown c c') {cells : List (Nat × Nat)}
    (hcells : ∀ p ∈ cells, p.1 < c.map.width ∧ p.2 < c.map.height) :
    SameShown (c.flipAll lit cells) (c'.flipAll lit cells) := by
  induction cells generalizing c c' with
  | nil => exact h
  | cons p cells ih =>
      have hp := hcells p (.head _)
      exact ih (h.flip hp.1 hp.2) fun q hq => hcells q (.tail _ hq)

end Canvas

/-! ## What a program cannot tell -/

namespace IFamily

/-- The base classes without the speed and the metadata. -/
def hide (s : IFamily) : IFamily := { s with standardCpf := 0, metadata := Metadata.new 0 0 }

/-- A frame begins without what is hidden. -/
theorem hide_prepareFrame (keys : Scancode → Bool) (s : IFamily) :
    s.hide.prepareFrame keys = (s.prepareFrame keys).hide :=
  handlePreWorkInterrupts_comm hide (fun _ => ⟨rfl, rfl, rfl⟩) (fun _ => rfl) (fun _ => rfl)
    ((s.updateKeypadData keys).handleTimerTicks)

/-- And ends without it. -/
theorem hide_handlePostWorkInterrupts (s : IFamily) :
    s.hide.handlePostWorkInterrupts.hide = s.handlePostWorkInterrupts.hide := by
  have hint : s.hide.interrupt = s.interrupt := rfl
  have hcatch : s.hide.toCpu.catchPress s.hide.elapsedFrames =
    s.toCpu.catchPress s.elapsedFrames := rfl
  unfold handlePostWorkInterrupts
  rw [hint, hcatch]
  cases s.interrupt with
  | input =>
      dsimp only
      split <;> rfl
  | _ => rfl

end IFamily

namespace Chip8Modern

open CubeChip.Core

/-- A core without its speed, its metadata and its display. -/
def hide (s : Chip8Modern) : Chip8Modern :=
  { s with toIFamily := s.toIFamily.hide, own := ⟨⟨fun _ => 0, 0, 0⟩⟩ }

/-- Two cores that are the same but for what is hidden, and show the same. -/
structure Alike (s t : Chip8Modern) : Prop where
  rest : hide s = hide t
  display : Map2D.SameCells s.own.displayMap t.own.displayMap
  size : s.own.displayMap.width = screenW ∧ s.own.displayMap.height = screenH

/-- What does not go by what is hidden. -/
def Unseen (f : Chip8Modern → Chip8Modern) : Prop := ∀ s, hide (f (hide s)) = hide (f s)

variable {s t : Chip8Modern} {f : Chip8Modern → Chip8Modern}

/-- Two states alike but for what is hidden go on alike. -/
theorem Unseen.hide_congr (hf : Unseen f) (h : hide s = hide t) : hide (f s) = hide (f t) :=
  (hf s).symm.trans ((congrArg (fun s => hide (f s)) h).trans (hf t))

/-- What leaves the display alone besides. -/
theorem Alike.congr (h : Alike s t) (hf : Unseen f) (hown : ∀ s, (f s).own = s.own) :
    Alike (f s) (f t) := by
  refine ⟨hf.hide_congr h.rest, ?_, ?_⟩
  · rw [hown, hown]
    exact h.display
  · rw [hown]
    exact h.size

/-- What rewrites the display on both sides. -/
theorem Alike.onDisplay (h : Alike s t) {f : Map2D UInt8 → Map2D UInt8}
    (hf : Map2D.SameCells (f s.own.displayMap) (f t.own.displayMap))
    (hsize : Map2D.SameSize (f s.own.displayMap) s.own.displayMap) :
    Alike (onDisplay f s) (onDisplay f t) :=
  ⟨h.rest, hf, hsize.1.trans h.size.1, hsize.2.trans h.size.2⟩

/-! ## Instructions -/

/-- The shared instructions do not see it. -/
theorem unseen_executeCommon (i : Common) : Unseen fun s => s.executeCommon (config s) i := by
  intro s
  have hconfig : config (hide s) = config s := rfl
  dsimp only
  rw [hconfig]
  cases i <;> rfl

/-- The instruction at PC draws on the screen alone, if it draws. -/
def OnScreen (s : Chip8Modern) : Prop :=
  match current virtuals s with
  | .iDxyN X Y N => ∀ p ∈ flips s N (beginX s X) (beginY s Y), p.1 < screenW ∧ p.2 < screenH
  | _ => True

instance (s : Chip8Modern) : Decidable (OnScreen s) :=
  match h : current virtuals s with
  | .iDxyN X Y N =>
      decidable_of_iff
        (∀ p ∈ flips s N (beginX s X) (beginY s Y), p.1 < screenW ∧ p.2 < screenH)
        (by rw [OnScreen, h])
  | .common _ | .i00E0 | .iFx18 _ | .iFx29 _ | .skipped => isTrue (by rw [OnScreen, h]; trivial)

/-- What `DxyN` does beside drawing. -/
def setFlag (VF : UInt8) (s : Chip8Modern) : Chip8Modern :=
  (s.onCpu (·.setV 0xF VF)).awaitFrame .awaitVblank

/-- Nor does a sprite, but for its flag. -/
theorem hide_instructionDxyN (s : Chip8Modern) (X Y N : Fin 16) :
    hide (instructionDxyN s X Y N) =
      hide (setFlag ((instructionDxyN s X Y N).registersV 0xF) s) := by
  have hflag : (instructionDxyN s X Y N).registersV 0xF =
    (drawSprite s N ((s.registersV X).toNat &&& (screenW - 1))
      ((s.registersV Y).toNat &&& (screenH - 1)) ⟨s.own.displayMap, 0⟩).VF :=
    Function.update_self (0xF : Fin 16) _ s.registersV
  rw [hflag]
  rfl

/-- `DxyN` of a sprite that is on the screen. -/
theorem Alike.instructionDxyN (h : Alike s t) {X Y N : Fin 16}
    (hon : ∀ p ∈ flips s N (beginX s X) (beginY s Y), p.1 < screenW ∧ p.2 < screenH) :
    Alike (instructionDxyN s X Y N) (instructionDxyN t X Y N) := by
  obtain ⟨hW, hH⟩ := h.size
  have hflips : flips (hide t) N (beginX (hide t) X) (beginY (hide t) Y) =
      flips (hide s) N (beginX (hide s) X) (beginY (hide s) Y) := by rw [h.rest]
  change flips t N (beginX t X) (beginY t Y) = flips s N (beginX s X) (beginY s Y) at hflips
  have hs := instructionDxyN_eq hW hH X Y N
  have ht := instructionDxyN_eq (s := t) (h.display.1.1.symm.trans hW)
    (h.display.1.2.symm.trans hH) X Y N
  rw [hflips] at ht
  have hstart : Canvas.SameShown ⟨s.own.displayMap, 0⟩ ⟨t.own.displayMap, 0⟩ := ⟨h.display, rfl⟩
  have hshown : Canvas.SameShown
      (Canvas.flipAll 0x8 (flips s N (beginX s X) (beginY s Y)) ⟨s.own.displayMap, 0⟩)
      (Canvas.flipAll 0x8 (flips s N (beginX s X) (beginY s Y)) ⟨t.own.displayMap, 0⟩) :=
    hstart.flipAll fun p hp => by
      obtain ⟨hX, hY⟩ := hon p hp
      exact ⟨hX.trans_eq hW.symm, hY.trans_eq hH.symm⟩
  rw [← hs, ← ht] at hshown
  have hsize : Map2D.SameSize (Chip8Modern.instructionDxyN s X Y N).own.displayMap
      s.own.displayMap := by
    have hflip : Map2D.SameSize (Canvas.flipAll 0x8 (flips s N (beginX s X) (beginY s Y))
      ⟨s.own.displayMap, 0⟩).map s.own.displayMap := Canvas.sameSize_flipAll ..
    rw [← hs] at hflip
    exact hflip
  refine ⟨?_, hshown.map, hsize.1.trans hW, hsize.2.trans hH⟩
  have hVF : (Chip8Modern.instructionDxyN s X Y N).registersV 0xF =
    (Chip8Modern.instructionDxyN t X Y N).registersV 0xF := hshown.VF
  rw [hide_instructionDxyN, hide_instructionDxyN, hVF]
  exact Unseen.hide_congr (f := setFlag _) (fun _ => rfl) h.rest

/-- **An instruction** that draws on the screen, if it draws. -/
theorem Alike.cycle (h : Alike s t) (hon : OnScreen s) :
    Option.Rel Alike (cycle virtuals s) (cycle virtuals t) := by
  have hcurrent : current virtuals (hide t) = current virtuals (hide s) := by rw [h.rest]
  change current virtuals t = current virtuals s at hcurrent
  have hfetch : Alike s.fetch.2 t.fetch.2 := h.congr (f := fun s => s.fetch.2) (fun _ => rfl)
    fun _ => rfl
  unfold Core.cycle
  unfold OnScreen at hon
  rw [hcurrent]
  generalize current virtuals s = i at hon
  cases i with
  | common i =>
      refine .some (hfetch.congr (unseen_executeCommon i) fun s => ?_)
      exact (executeCommon_frame (config s) i s).2.1
  | i00E0 =>
      refine .some (Alike.congr (f := (·.awaitFrame .awaitVblank)) ?_ (fun _ => rfl) fun _ => rfl)
      exact hfetch.onDisplay (hfetch.display.fill 0) ⟨rfl, rfl⟩
  | iDxyN X Y N => exact .some (hfetch.instructionDxyN hon)
  | iFx18 X =>
      exact .some (hfetch.congr (f := fun s => s.onCpu (.startVoice (s.soundDuration X)))
        (fun _ => rfl) fun _ => rfl)
  | iFx29 X => exact .some (hfetch.congr (f := (·.onCpu (.instructionFx29 X))) (fun _ => rfl)
      fun _ => rfl)
  | skipped => exact .some hfetch

/-! ## Frames -/

/-- A function of the base classes. -/
theorem unseen_onFamily {f : IFamily → IFamily} (hf : ∀ s, (f s.hide).hide = (f s).hide) :
    Unseen (·.onFamily f) := fun s =>
  congrArg (fun F => (⟨F, s.memory, ⟨⟨fun _ => 0, 0, 0⟩⟩⟩ : Chip8Modern)) (hf s.toIFamily)

/-- Nor does the sound. -/
theorem unseen_pushAudioData (input : FrameInput) : Unseen (virtuals.pushAudioData input) :=
  fun s => by
  have hcached : (hide s).cachedSystemState = s.cachedSystemState := rfl
  dsimp only [virtuals, pushAudioData]
  rw [hcached]
  split <;> rfl

/-- The sound leaves the display alone. -/
theorem own_pushAudioData (input : FrameInput) (s : Chip8Modern) :
    (virtuals.pushAudioData input s).own = s.own := by
  dsimp only [virtuals, pushAudioData]
  split <;> rfl

/-- **Side by side**, as long as the instructions draw on the screen. -/
theorem paired_alike : Paired virtuals virtuals Alike OnScreen Eq where
  availQuirks := rfl
  slices := fun _ _ hij => hij ▸ rfl
  books := fun s t h => by
    have hbooks : (hide s).books = (hide t).books ∧ (hide s).interrupt = (hide t).interrupt := by
      rw [h.rest]
      exact ⟨rfl, rfl⟩
    exact hbooks
  withBooks := fun b s t h => h.congr (f := (·.onFamily (.withBooks b))) (fun _ => rfl) fun _ => rfl
  enterLoop := fun s t h => by
    refine ⟨h.congr (f := enterLoop) (fun _ => rfl) fun _ => rfl, ?_⟩
    have htarget : (enterLoop (hide s)).targetCpf = (enterLoop (hide t)).targetCpf := by
      rw [h.rest]
    exact htarget
  cycle := fun _ _ h hon _ => h.cycle hon
  prepareFrame := by
    rintro i _ s t rfl h
    refine h.congr (unseen_onFamily fun s => ?_) fun _ => rfl
    rw [IFamily.hide_prepareFrame]
    rfl
  handlePostWorkInterrupts := fun _ _ h =>
    h.congr (unseen_onFamily IFamily.hide_handlePostWorkInterrupts) fun _ => rfl
  pushAudioData := by
    rintro i _ s t rfl h
    exact h.congr (unseen_pushAudioData i) (own_pushAudioData i)
  pushVideoData := fun s t h =>
    h.onDisplay (f := (·.transform fadePixel)) (h.display.transform fadePixel) ⟨rfl, rfl⟩
  performInstanceReset := fun s t h => by
    refine ⟨Unseen.hide_congr (f := performInstanceReset virtuals) (fun _ => rfl) h.rest,
      h.display.fill 0, h.size⟩
  editMemory := fun address value s t h =>
    h.congr (f := fun s => { s with memory := s.memory.set address value }) (fun _ => rfl)
      fun _ => rfl

/-! ## Reset -/

/-- What no instruction changes of a core. -/
structure Unchanged (launch : Launch) (b : Body 12 Members) : Prop where
  fileImage : b.fileImage = launch.fileImage
  audioDevice : b.audioDevice = launch.audioDevice
  trait : b.trait = ⟨false, false, false⟩
  size : b.own.displayMap.width = screenW ∧ b.own.displayMap.height = screenH

variable {launch : Launch}

/-- Only what a boot sets for good matters. -/
theorem Unchanged.congr {b b' : Body 12 Members} (h : Unchanged launch b)
    (hfile : b'.fileImage = b.fileImage) (haudio : b'.audioDevice = b.audioDevice)
    (htrait : b'.trait = b.trait) (hsize : Map2D.SameSize b'.own.displayMap b.own.displayMap) :
    Unchanged launch b' where
  fileImage := hfile.trans h.fileImage
  audioDevice := haudio.trans h.audioDevice
  trait := htrait.trans h.trait
  size := ⟨hsize.1.trans h.size.1, hsize.2.trans h.size.2⟩

/-- A byte of a sprite. -/
theorem sameSize_drawByte (s : Chip8Modern) (X Y : Nat) (DATA : UInt8) (c : Canvas) :
    Map2D.SameSize (drawByte s X Y DATA c).map c.map := by
  unfold drawByte
  split
  · exact ⟨rfl, rfl⟩
  · split
    · exact ⟨rfl, rfl⟩
    · exact Canvas.sameSize_drawBits ..

/-- The three heights of a sprite. -/
theorem sameSize_drawSprite (s : Chip8Modern) (N : Fin 16) (pX pY : Nat) (c : Canvas) :
    Map2D.SameSize (drawSprite s N pX pY c).map c.map := by
  unfold drawSprite
  split
  · exact sameSize_drawByte ..
  · exact Canvas.sameSize_drawRows
      (fun _ _ _ => (sameSize_drawByte ..).trans (sameSize_drawByte ..)) ..
  · exact Canvas.sameSize_drawRows (fun _ _ _ => sameSize_drawByte ..) ..

/-- **The invariant.** -/
theorem alwaysKept_unchanged : AlwaysKept virtuals (Unchanged launch) where
  enterLoop := fun _ hs => hs
  execute := fun i s s' hs h => by
    cases i with
    | common i =>
        cases h
        obtain ⟨hset, hown, -⟩ := executeCommon_frame (config s) i s
        exact hs.congr (congrArg Settings.fileImage hset) (congrArg Settings.audioDevice hset)
          (congrArg Settings.trait hset) ⟨congrArg (fun own => own.displayMap.sizeX) hown,
            congrArg (fun own => own.displayMap.sizeY) hown⟩
    | iDxyN X Y N => cases h; exact hs.congr rfl rfl rfl (sameSize_drawSprite ..)
    | _ => cases h; exact hs.congr rfl rfl rfl ⟨rfl, rfl⟩
  pushAudioData := fun input s hs => by
    simp only [virtuals, pushAudioData]
    split <;> exact hs.congr rfl rfl rfl ⟨rfl, rfl⟩
  pushVideoData := fun _ hs => hs.congr rfl rfl rfl ⟨rfl, rfl⟩
  reset := fun _ hs => hs.congr rfl rfl rfl ⟨rfl, rfl⟩
  toggleQuirk := fun _ hs _ _ => hs.congr rfl rfl rfl ⟨rfl, rfl⟩
  editMemory := fun _ hs _ _ => hs.congr rfl rfl rfl ⟨rfl, rfl⟩

/-- A core just started, in the surroundings of another one: with its quirks, its key bindings,
its state of the system and its generator. -/
def startedIn (launch : Launch) (s : Chip8Modern) : Chip8Modern :=
  { (boot launch).onFamily (.withBooks s.books) with
    rng := s.rng
    customBinds := s.customBinds
    permaregsPath := s.permaregsPath }

/-- Cores of the same parts are the same when hidden. -/
theorem hide_eq (hcpu : s.toCpu = t.toCpu) (hbooks : s.books = t.books)
    (hinput : s.input = t.input ∧ s.customBinds = t.customBinds)
    (hset : s.fileImage = t.fileImage ∧ s.audioDevice = t.audioDevice ∧ s.trait = t.trait ∧
      s.permaregsPath = t.permaregsPath)
    (hmemory : s.memory = t.memory) : hide s = hide t := by
  obtain ⟨hkeys, hbinds⟩ := hinput
  obtain ⟨hfile, haudio, htrait, hpath⟩ := hset
  simp only [IFamily.books, Books.mk.injEq] at hbooks
  simp only [hide, IFamily.hide, hcpu, hbooks, hkeys, hbinds, hfile, haudio, htrait, hpath, hmemory]

/-- The memory a program starts in. -/
def startMemory (file : List UInt8) : MirroredMemory 12 :=
  (MirroredMemory.clear.copyFrom gameLoadPos file).copyFrom 0 (fontsData.take 80)

/-- The processor of a reset. -/
theorem toCpu_performInstanceReset (s : Chip8Modern) : (performInstanceReset virtuals s).toCpu =
    { s.toIFamily.resetInstance.toCpu with currentPc := bootPos } := rfl

/-- The processor of a boot. -/
theorem toCpu_boot (launch : Launch) : (boot launch).toCpu =
    { (IFamily.construct launch screenW screenH).toCpu with currentPc := bootPos } := rfl

/-- A reset puts the core in the state of one just started. -/
theorem alike_startedIn (hs : Unchanged launch s.body) :
    Alike (performInstanceReset virtuals s)
      (startedIn launch (performInstanceReset virtuals s)) := by
  refine ⟨hide_eq ?_ rfl ⟨rfl, rfl⟩ ⟨hs.fileImage, hs.audioDevice, hs.trait, rfl⟩ ?_,
    Map2D.sameCells_fill_const hs.size.1 hs.size.2 0, hs.size⟩
  · have hstarted : (startedIn launch (performInstanceReset virtuals s)).toCpu =
      { (boot launch).toCpu with rng := (performInstanceReset virtuals s).toCpu.rng } := rfl
    rw [hstarted, toCpu_performInstanceReset, toCpu_boot]
    rfl
  · exact (congrArg startMemory hs.fileImage :)

/-- The worker's answer to a reset request. -/
theorem alike_workerReset (hs : Unchanged launch s.body) (hreset : s.systemState .reset = true) :
    Alike (workerReset virtuals s) (startedIn launch (workerReset virtuals s)) := by
  have hworker : workerReset virtuals s = _ := if_pos hreset
  rw [hworker]
  exact paired_alike.setSystemState (·.sub EmuState.notRunning) (alike_startedIn hs)

/-- **A reset is a fresh start.** From the reset on a run is the one of a core just started in the
same surroundings, as long as it draws on the screen: every instruction starts and every event
ends in states alike. -/
theorem reset_replays (launch : Launch) (s : Chip8Modern) (events : List Event)
    (hs : Reachable virtuals (boot launch) s) (hreset : s.systemState .reset = true)
    (hon : ∀ u ∈ instructionStarts virtuals (workerReset virtuals s) events, OnScreen u) :
    Option.Rel Alike (Runs.run (step virtuals) (workerReset virtuals s) events)
        (Runs.run (step virtuals) (startedIn launch (workerReset virtuals s)) events) ∧
      List.Forall₂ Alike (instructionStarts virtuals (workerReset virtuals s) events)
        (instructionStarts virtuals (startedIn launch (workerReset virtuals s)) events) := by
  have hunchanged : Unchanged launch s.body :=
    alwaysKept_unchanged.reachable ⟨rfl, rfl, rfl, ⟨rfl, rfl⟩⟩ hs
  exact paired_alike.run
    (List.forall₂_same.2 fun e _ => SameEvent.refl (Q := Eq) (fun _ => rfl) e)
    (alike_workerReset hunchanged hreset) hon

/-- A sprite drawn in a frame of its own, then a reset, then the same again. -/
theorem reset_replays_sprite :
    let launch := Launch.ofProgram [0xD0, 0x15, 0x12, 0x02]
    ∃ s, Reachable virtuals (boot launch) s ∧
      Option.Rel Alike (Runs.run (step virtuals) (workerReset virtuals s) [.idle])
        (Runs.run (step virtuals) (startedIn launch (workerReset virtuals s)) [.idle]) ∧
      List.Forall₂ Alike (instructionStarts virtuals (workerReset virtuals s) [.idle])
        (instructionStarts virtuals (startedIn launch (workerReset virtuals s)) [.idle]) := by
  intro launch
  have hrun : (Runs.run (step virtuals) (boot launch) [.idle, .gui .requestInstanceReset]).map
      (fun s => decide (s.systemState .reset = true ∧
        ∀ u ∈ instructionStarts virtuals (workerReset virtuals s) [.idle], OnScreen u)) =
      some true := by decide +kernel
  obtain ⟨s, hs, hmeets⟩ := Option.map_eq_some_iff.1 hrun
  obtain ⟨hreset, hon⟩ := of_decide_eq_true hmeets
  exact ⟨s, ⟨_, hs⟩, reset_replays launch s [.idle] ⟨_, hs⟩ hreset hon⟩

end Chip8Modern

end CubeChip
