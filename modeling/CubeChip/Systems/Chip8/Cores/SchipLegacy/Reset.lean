import CubeChip.Systems.Chip8.Cores.SchipLegacy
import CubeChip.Systems.Chip8.Restart

/-!
# `SCHIP_LEGACY`: reset and boot

A core that boots is in normal mode and waits for the display. 00FE and 00FF change the mode
and the quirk together, so in every state one tells the other; a reset touches neither. So a
reset yields the state of a boot from normal mode, and not from extended mode.
-/

namespace CubeChip.SchipLegacy

open CubeChip.Core

/-! ## What is compared -/

/-- The program and the fonts. -/
def Stored (launch : Launch) (a : BitVec 12) : Prop :=
  MirroredMemory.Covers gameLoadPos launch.fileImage a ∨
    MirroredMemory.Covers Cpu.smallFontOffset.toNat (fontsData.take 180) a

/-- Two machines that run the program of `launch` alike. -/
structure SameStart (launch : Launch) (s s' : SchipLegacy) : Prop where
  extendedMode : s.trait.useHiresScreen = s'.trait.useHiresScreen
  awaitVblank : s.quirkFlags .awaitVblank = s'.quirkFlags .awaitVblank
  display : Map2D.SameCells s.own.displayMap s'.own.displayMap
  memory : ∀ a, Stored launch a → s.memory.mem a = s'.memory.mem a
  processor : Cpu.SameState s.toCpu s'.toCpu

/-- Normal mode, waiting for the display, and a blank 128x64 display. -/
structure Blank (s : SchipLegacy) : Prop where
  extendedMode : s.trait.useHiresScreen = false
  awaitVblank : s.quirkFlags .awaitVblank = true
  display : Map2D.SameCells s.own.displayMap ⟨fun _ => 0, 128, 64⟩

theorem blank_boot (launch : Launch) : Blank (boot launch) := ⟨rfl, rfl, ⟨rfl, rfl⟩, fun _ _ => rfl⟩

/-! ## What every state keeps -/

/-- The program is the one started, the display is 128x64, and outside extended mode `DxyN`
waits for it. -/
structure InStep (launch : Launch) (b : Body 12 Members) : Prop where
  fileImage : b.fileImage = launch.fileImage
  display : b.own.displayMap.sizeX = screenW ∧ b.own.displayMap.sizeY = screenH
  awaitVblank : b.quirkFlags .awaitVblank = !b.trait.useHiresScreen

variable {launch : Launch}

/-- Only the mode, the quirk and the size of the display matter. -/
theorem InStep.congr {b b' : Body 12 Members} (h : InStep launch b)
    (hfile : b'.fileImage = b.fileImage) (htrait : b'.trait = b.trait)
    (hquirk : b'.quirkFlags .awaitVblank = b.quirkFlags .awaitVblank)
    (hsize : Map2D.SameSize b'.own.displayMap b.own.displayMap) : InStep launch b' where
  fileImage := hfile.trans h.fileImage
  display := ⟨hsize.1.trans h.display.1, hsize.2.trans h.display.2⟩
  awaitVblank := by rw [hquirk, htrait, h.awaitVblank]

theorem inStep_boot (launch : Launch) : InStep launch (boot launch).body := ⟨rfl, ⟨rfl, rfl⟩, rfl⟩

theorem sameSize_drawSprite (s : SchipLegacy) (X Y N : Fin 16) :
    Map2D.SameSize (drawSprite s X Y N).1 s.own.displayMap := by
  unfold drawSprite
  split
  · exact RowDraw.sameSize_drawHires ..
  · exact RowDraw.sameSize_drawLores ..

theorem inStep_execute (i : Instruction) (s s' : SchipLegacy) (hs : InStep launch s.body)
    (h : execute i s = some s') : InStep launch s'.body := by
  cases i with
  | common i =>
      cases h
      obtain ⟨hset, hown, _⟩ := executeCommon_frame (config s) i s
      refine hs.congr (congrArg (·.fileImage) hset) (congrArg (·.trait) hset)
        (congrArg (·.quirkFlags .awaitVblank) hset) ?_
      exact ⟨congrArg (·.displayMap.sizeX) hown, congrArg (·.displayMap.sizeY) hown⟩
  | i00CN | i00FB | i00FC => cases h; exact hs.congr rfl rfl rfl (Map2D.sameSize_shift ..)
  | i00E0 => cases h; exact hs.congr rfl rfl rfl ⟨rfl, rfl⟩
  | i00FE | i00FF => cases h; exact ⟨hs.fileImage, hs.display, rfl⟩
  | iDxyN X Y N => cases h; exact hs.congr rfl rfl rfl (sameSize_drawSprite s X Y N)
  | iFN85 N =>
      obtain ⟨r, _, rfl⟩ := Option.map_eq_some_iff.1 h
      exact hs
  | _ => cases h; exact hs

/-- **The invariant.** -/
theorem alwaysKept_inStep : AlwaysKept virtuals (InStep launch) where
  enterLoop := fun _ hs => hs
  execute := inStep_execute
  pushAudioData := fun _ s hs => by
    simp only [virtuals, pushAudioData]
    split
    · exact hs
    · exact hs.congr rfl rfl rfl ⟨rfl, rfl⟩
  pushVideoData := fun s hs => by
    simp only [virtuals, pushVideoData]
    split
    · exact hs.congr rfl rfl rfl ⟨rfl, rfl⟩
    · exact hs
  reset := fun s hs => hs.congr rfl rfl rfl ⟨rfl, rfl⟩
  toggleQuirk := fun s hs flag hflag => by
    obtain rfl := List.mem_singleton.1 hflag
    exact hs.congr rfl rfl rfl ⟨rfl, rfl⟩
  editMemory := fun s hs _ _ => hs.congr rfl rfl rfl ⟨rfl, rfl⟩

/-! ## Reset -/

theorem powerOn_boot (launch : Launch) : Cpu.PowerOn bootPos (boot launch).toCpu :=
  ⟨rfl, rfl, rfl, rfl, rfl, rfl, rfl, rfl, rfl⟩

theorem powerOn_reset (s : SchipLegacy) :
    Cpu.PowerOn bootPos (performInstanceReset virtuals s).toCpu :=
  Cpu.powerOn_resetInstance s.toIFamily bootPos

/-- From normal mode a reset restores everything. -/
theorem reset_sameStart_of_low {s : SchipLegacy} (hs : InStep launch s.body)
    (hlow : s.trait.useHiresScreen = false) :
    SameStart launch (performInstanceReset virtuals s) (boot launch) where
  extendedMode := hlow
  awaitVblank := hs.awaitVblank.trans (congrArg not hlow)
  display := Map2D.sameCells_fill_const hs.display.1 hs.display.2 0
  memory := fun a ha => by
    have hfile : s.fileImage = launch.fileImage := hs.fileImage
    change ((s.memory.copyFrom gameLoadPos s.fileImage).copyFrom _ _).mem a = _
    rw [hfile]
    exact MirroredMemory.copyFrom_copyFrom_eq _ _ ha
  processor := (powerOn_reset s).sameState (powerOn_boot launch)

/-- **Reset against boot.** A boot is in normal mode, waiting for a blank display, and a reset
of any state reached yields the machine of a boot precisely when that state is in normal
mode. -/
theorem reset_sameStart_iff (launch : Launch) (s : SchipLegacy)
    (h : Reachable virtuals (boot launch) s) :
    Blank (boot launch) ∧
      (SameStart launch (performInstanceReset virtuals s) (boot launch) ↔
        s.trait.useHiresScreen = false) :=
  ⟨blank_boot launch, fun hsame => hsame.extendedMode,
    reset_sameStart_of_low (alwaysKept_inStep.reachable (inStep_boot launch) h)⟩

/-- `00FF`, `00FE` and a jump to itself, after three frames: a reset yields a boot. -/
theorem reset_sameStart_leftExtended :
    ∃ s, Runs.run (step virtuals) (boot (.ofProgram [0x00, 0xFF, 0x00, 0xFE, 0x12, 0x04]))
        [.idle, .idle, .idle] = some s ∧ s.interrupt = .sound ∧
      SameStart (.ofProgram [0x00, 0xFF, 0x00, 0xFE, 0x12, 0x04])
        (performInstanceReset virtuals s)
        (boot (.ofProgram [0x00, 0xFF, 0x00, 0xFE, 0x12, 0x04])) := by
  have hrun : (Runs.run (step virtuals)
      (boot (.ofProgram [0x00, 0xFF, 0x00, 0xFE, 0x12, 0x04]))
      [.idle, .idle, .idle]).map (fun s => (s.interrupt, s.trait.useHiresScreen))
        = some (.sound, false) := by decide +kernel
  obtain ⟨s, hs, heq⟩ := Option.map_eq_some_iff.1 hrun
  obtain ⟨hsound, hlow⟩ := Prod.mk.inj heq
  exact ⟨s, hs, hsound, (reset_sameStart_iff _ s ⟨_, hs⟩).2.2 hlow⟩

/-- **A reset in extended mode** stays there: `00FF` and one frame are enough. -/
theorem reset_keeps_extendedMode :
    ∃ s, Reachable virtuals (boot (.ofProgram [0x00, 0xFF, 0x12, 0x02])) s ∧
      (performInstanceReset virtuals s).trait.useHiresScreen = true ∧
      (performInstanceReset virtuals s).quirkFlags .awaitVblank = false ∧
      ¬ SameStart (.ofProgram [0x00, 0xFF, 0x12, 0x02]) (performInstanceReset virtuals s)
        (boot (.ofProgram [0x00, 0xFF, 0x12, 0x02])) := by
  have hrun : (Runs.run (step virtuals) (boot (.ofProgram [0x00, 0xFF, 0x12, 0x02]))
      [.idle]).map (fun s => (s.trait.useHiresScreen, s.quirkFlags .awaitVblank))
        = some (true, false) := by decide +kernel
  obtain ⟨s, hs, heq⟩ := Option.map_eq_some_iff.1 hrun
  obtain ⟨hhigh, hquirk⟩ := Prod.mk.inj heq
  refine ⟨s, ⟨_, hs⟩, hhigh, hquirk, fun hsame => ?_⟩
  exact absurd (hhigh.symm.trans hsame.extendedMode) (by decide)

end CubeChip.SchipLegacy
