import CubeChip.Systems.Chip8.Cores.SchipModern
import CubeChip.Systems.Chip8.Restart

/-!
# The resolution of `SCHIP_MODERN`

The flag `use_hires_screen` and the size of the display are set together by 00FE and 00FF and
touched by no other instruction (`keptWhen_fits`). A reset sets the size alone, so the two agree
in every state of a run precisely when every reset finds the flag off (`resolution_run`).
While they agree, `push_video_data` stays inside the display.
-/

namespace CubeChip.SchipModern

open CubeChip.Core

/-- The flag is on exactly with a 128x64 display, and off exactly with a 64x32 one. -/
def Fits (b : Body 12 Members) : Prop :=
  (b.trait.useHiresScreen = true ↔
    b.own.displayMap.sizeX = screenW ∧ b.own.displayMap.sizeY = screenH) ∧
  (b.trait.useHiresScreen = false ↔
    b.own.displayMap.sizeX = screenW / 2 ∧ b.own.displayMap.sizeY = screenH / 2)

/-- The flag and the size agree, and every index into the display is in range. -/
def Shows (s : SchipModern) : Prop :=
  Fits s.body ∧ ∀ pixel < screenW * screenH, videoIndex s pixel < s.own.displayMap.size

/-! ## Setting both -/

theorem fits_of_low {b : Body 12 Members} (h : b.trait.useHiresScreen = false)
    (hX : b.own.displayMap.sizeX = screenW / 2) (hY : b.own.displayMap.sizeY = screenH / 2) :
    Fits b := by
  refine ⟨⟨fun ht => ?_, fun hs => ?_⟩, ⟨fun _ => ⟨hX, hY⟩, fun _ => h⟩⟩
  · cases h.symm.trans ht
  · cases hX.symm.trans hs.1

theorem fits_of_high {b : Body 12 Members} (h : b.trait.useHiresScreen = true)
    (hX : b.own.displayMap.sizeX = screenW) (hY : b.own.displayMap.sizeY = screenH) :
    Fits b := by
  refine ⟨⟨fun _ => ⟨hX, hY⟩, fun _ => h⟩, ⟨fun hf => ?_, fun hs => ?_⟩⟩
  · cases h.symm.trans hf
  · cases hX.symm.trans hs.1

/-- With a 64x32 display the flag decides. -/
theorem fits_iff_low {b : Body 12 Members} (hX : b.own.displayMap.sizeX = screenW / 2)
    (hY : b.own.displayMap.sizeY = screenH / 2) :
    Fits b ↔ b.trait.useHiresScreen = false :=
  ⟨fun h => h.2.2 ⟨hX, hY⟩, fun h => fits_of_low h hX hY⟩

/-- Only the flag and the size matter. -/
theorem fits_congr {b b' : Body 12 Members} (h : Fits b)
    (hflag : b'.trait.useHiresScreen = b.trait.useHiresScreen)
    (hsize : Map2D.SameSize b'.own.displayMap b.own.displayMap) : Fits b' := by
  unfold Fits
  rw [hflag, hsize.1, hsize.2]
  exact h

/-! ## Instructions and frames -/

theorem sameSize_drawSprite (s : SchipModern) (N : Fin 16) (pX pY : Nat) (c : Canvas) :
    Map2D.SameSize (drawSprite s N pX pY c).map c.map := by
  have hbyte (X Y : Nat) (DATA : UInt8) (c : Canvas) :
      Map2D.SameSize (drawByte s X Y DATA c).map c.map := Canvas.sameSize_drawByte ..
  unfold drawSprite
  split
  · exact hbyte ..
  · exact Canvas.sameSize_drawRows (fun _ _ _ => (hbyte ..).trans (hbyte ..)) ..
  · exact Canvas.sameSize_drawRows (fun _ _ _ => hbyte ..) ..

/-- Every instruction keeps the flag and the size in step. -/
theorem fits_execute (i : Instruction) (s s' : SchipModern) (hs : Fits s.body)
    (h : execute i s = some s') : Fits s'.body := by
  cases i with
  | common i =>
      cases h
      obtain ⟨hset, hown, _⟩ := executeCommon_frame (config s) i s
      refine fits_congr hs (congrArg (fun x => x.trait.useHiresScreen) hset) ?_
      exact ⟨congrArg (fun o => o.displayMap.sizeX) hown,
        congrArg (fun o => o.displayMap.sizeY) hown⟩
  | i00CN N =>
      cases h
      unfold instruction00CN
      split
      · exact fits_congr hs rfl (Map2D.sameSize_shift ..)
      · exact fits_congr hs rfl ⟨rfl, rfl⟩
  | i00FB | i00FC => cases h; exact fits_congr hs rfl (Map2D.sameSize_shift ..)
  | i00FE => cases h; exact fits_of_low rfl rfl rfl
  | i00FF => cases h; exact fits_of_high rfl rfl rfl
  | iDxyN X Y N => cases h; exact fits_congr hs rfl (sameSize_drawSprite ..)
  | iFN85 N =>
      obtain ⟨r, _, rfl⟩ := Option.map_eq_some_iff.1 h
      exact hs
  | _ => cases h; exact hs

/-- A reset always leaves a 64x32 display, and the flag as it was. -/
theorem fits_reset (s : SchipModern) :
    Fits (performInstanceReset virtuals s).body ↔ s.trait.useHiresScreen = false :=
  fits_iff_low rfl rfl

/-- Everything but a reset keeps the flag and the size in step. -/
theorem keptWhen_fits : KeptWhen virtuals Fits fun s => s.trait.useHiresScreen = false where
  enterLoop := fun _ hs => hs
  execute := fits_execute
  pushAudioData := fun _ s hs => by
    simp only [virtuals, pushAudioData]
    split
    · exact hs
    · exact fits_congr hs rfl ⟨rfl, rfl⟩
  pushVideoData := fun s hs => by
    simp only [virtuals, pushVideoData]
    split
    · exact fits_congr hs rfl ⟨rfl, rfl⟩
    · exact hs
  reset := fun s _ => fits_reset s
  toggleQuirk := fun _ hs _ _ => fits_congr hs rfl ⟨rfl, rfl⟩
  editMemory := fun _ hs _ _ => fits_congr hs rfl ⟨rfl, rfl⟩

/-! ## The composite buffer -/

/-- While flag and size agree, the indices stay inside. -/
theorem videoIndex_lt {s : SchipModern} (h : Fits s.body) {pixel : Nat}
    (hp : pixel < screenW * screenH) : videoIndex s pixel < s.own.displayMap.size := by
  unfold videoIndex
  cases hflag : s.trait.useHiresScreen with
  | true =>
      obtain ⟨hX, hY⟩ := h.1.1 hflag
      have hX : s.own.displayMap.sizeX = 128 := hX
      have hY : s.own.displayMap.sizeY = 64 := hY
      rw [if_pos rfl, Map2D.size, hX, hY]
      exact hp
  | false =>
      obtain ⟨hX, hY⟩ := h.2.1 hflag
      have hX : s.own.displayMap.sizeX = 64 := hX
      have hY : s.own.displayMap.sizeY = 32 := hY
      rw [if_neg Bool.false_ne_true, Map2D.size, Map2D.offset, Map2D.width, hX, hY]
      simp only [screenW, screenH] at hp ⊢
      omega

theorem shows_iff {s : SchipModern} : Shows s ↔ Fits s.body :=
  ⟨fun h => h.1, fun h => ⟨h, fun _ hp => videoIndex_lt h hp⟩⟩

/-- In the state, and wherever an instruction of a frame from it starts. -/
def ShowsThroughout (s : SchipModern) : Prop :=
  Shows s ∧ ∀ input, ∀ t ∈ workerStarts virtuals input s, Shows t

theorem showsThroughout_iff {s : SchipModern} :
    ShowsThroughout s ↔ Throughout virtuals Fits s :=
  and_congr shows_iff
    (forall_congr' fun _ => forall_congr' fun _ => forall_congr' fun _ => shows_iff)

/-! ## Runs -/

/-- A reset, if the event performs one, finds the flag off. -/
def ResetsLow : SchipModern → Event → Prop := ResetsWhen fun s => s.trait.useHiresScreen = false

/-- **Resolution invariant.** The flag and the size agree, and `push_video_data` stays inside
the display, in every state of a run precisely when every reset of the run finds the flag
off. -/
theorem resolution_run (launch : Launch) (events : List Event) :
    (∀ s ∈ Runs.visited (step virtuals) (boot launch) events, ShowsThroughout s) ↔
      ∀ x ∈ Runs.taken (step virtuals) (boot launch) events, ResetsLow x.1 x.2 := by
  have hboot : Fits (boot launch).body := fits_of_low rfl rfl rfl
  have hshows : (∀ s ∈ Runs.visited (step virtuals) (boot launch) events, ShowsThroughout s) ↔
      ∀ s ∈ Runs.visited (step virtuals) (boot launch) events, Throughout virtuals Fits s :=
    forall_congr' fun _ => forall_congr' fun _ => showsThroughout_iff
  exact hshows.trans (keptWhen_fits.run hboot events)

/-- **A reset in high resolution** leaves the flag on over a 64x32 display. -/
theorem resolution_broken :
    ∃ s, Runs.run (step virtuals) (boot (.ofProgram [0x00, 0xFF, 0x12, 0x02]))
        [.idle, .gui .requestInstanceReset, .reset] = some s ∧
      s.trait.useHiresScreen = true ∧ s.own.displayMap.sizeX = 64 ∧
      s.own.displayMap.sizeY = 32 ∧ ¬ Shows s := by
  have hrun : (Runs.run (step virtuals) (boot (.ofProgram [0x00, 0xFF, 0x12, 0x02]))
      [.idle, .gui .requestInstanceReset, .reset]).map
        (fun s => (s.trait.useHiresScreen, s.own.displayMap.sizeX, s.own.displayMap.sizeY))
      = some (true, 64, 32) := by decide +kernel
  obtain ⟨s, hs, heq⟩ := Option.map_eq_some_iff.1 hrun
  simp only [Prod.mk.injEq] at heq
  refine ⟨s, hs, heq.1, heq.2.1, heq.2.2, fun hshows => ?_⟩
  have hsize : s.own.displayMap.sizeX = screenW := (hshows.1.1.1 heq.1).1
  exact absurd (heq.2.1.symm.trans hsize) (by decide)

end CubeChip.SchipModern
