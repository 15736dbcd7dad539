import CubeChip.Systems.Chip8.Cores.Chip8X
import CubeChip.Systems.Chip8.Restart

/-!
# `CHIP8X`: the background across resets

The background colour is an index of the core and a tint of the metadata. 02A0 changes both, a
reset sets the index back and leaves the tint: the two agree as long as every reset finds the
first background colour. Everything else a reset is to restore it does restore.
-/

namespace CubeChip.Chip8X

open CubeChip.Core

/-! ## What a reset restores -/

/-- Two machines alike but for the displayed tint. -/
structure SameRest (s s' : Chip8X) : Prop where
  displayMap : Map2D.SameCells s.own.displayMap s'.own.displayMap
  coloredMap : Map2D.SameCells s.own.coloredMap s'.own.coloredMap
  backgroundColor : s.own.backgroundColor = s'.own.backgroundColor
  colorPixelMask : s.own.colorPixelMask = s'.own.colorPixelMask
  processor : Cpu.SameState s.toCpu s'.toCpu

/-- Two machines alike. -/
structure SameStart (s s' : Chip8X) : Prop extends SameRest s s' where
  textureTint : s.metadata.textureTint = s'.metadata.textureTint

/-- The colours of a boot: one cell is coloured, all others are clear. -/
theorem coloredMap_boot (launch : Launch) (i : Nat) :
    (boot launch).own.coloredMap.at1 i = if i = 0 then foreColors 2 else RGBA.zero := by
  change Function.update (fun _ => RGBA.zero) 0 (foreColors 2) i = _
  rw [Function.update_apply]

/-- The sizes of the maps. -/
structure Sized (b : Body 12 Members) : Prop where
  displayMap : b.own.displayMap.sizeX = screenW ∧ b.own.displayMap.sizeY = screenH
  coloredMap : b.own.coloredMap.sizeX = screenW / 8 ∧ b.own.coloredMap.sizeY = screenH

/-- Only the sizes matter. -/
theorem Sized.congr {b b' : Body 12 Members} (h : Sized b)
    (hdisplay : Map2D.SameSize b'.own.displayMap b.own.displayMap)
    (hcolored : Map2D.SameSize b'.own.coloredMap b.own.coloredMap) : Sized b' where
  displayMap := ⟨hdisplay.1.trans h.displayMap.1, hdisplay.2.trans h.displayMap.2⟩
  coloredMap := ⟨hcolored.1.trans h.coloredMap.1, hcolored.2.trans h.coloredMap.2⟩

/-- A boot has the sizes of the screen. -/
theorem sized_boot (launch : Launch) : Sized (boot launch).body := ⟨⟨rfl, rfl⟩, ⟨rfl, rfl⟩⟩

/-- By induction on the bits left. -/
theorem sameSize_drawBits (Y : Nat) (DATA : UInt8) (n B X : Nat) (c : Canvas) :
    Map2D.SameSize (drawBits Y DATA n B X c).map c.map := by
  induction n generalizing B X c with
  | zero => exact ⟨rfl, rfl⟩
  | succ n ih =>
      have hflip := Canvas.sameSize_flip (DATA.toNat.testBit (7 - B)) 0x8 X Y c
      rw [drawBits]
      generalize (if DATA.toNat.testBit (7 - B) then c.flip 0x8 X Y else c) = c' at hflip ⊢
      split
      · exact hflip
      · exact (ih _ _ _).trans hflip

/-- A byte of a sprite. -/
theorem sameSize_drawByte (X Y : Nat) (DATA : UInt8) (c : Canvas) :
    Map2D.SameSize (drawByte X Y DATA c).map c.map := by
  unfold drawByte
  split
  · exact ⟨rfl, rfl⟩
  · split
    · exact ⟨rfl, rfl⟩
    · exact sameSize_drawBits ..

/-- By induction on the rows left. -/
theorem sameSize_drawRows (s : Chip8X) (pX n H pY : Nat) (c : Canvas) :
    Map2D.SameSize (drawRows s pX n H pY c).map c.map := by
  induction n generalizing H pY c with
  | zero => exact ⟨rfl, rfl⟩
  | succ n ih =>
      rw [drawRows]
      split
      · exact sameSize_drawByte ..
      · exact (ih _ _ _).trans (sameSize_drawByte ..)

/-- The three heights of a sprite. -/
theorem sameSize_drawSprite (s : Chip8X) (N : Fin 16) (pX pY : Nat) (c : Canvas) :
    Map2D.SameSize (drawSprite s N pX pY c).map c.map := by
  unfold drawSprite
  split
  · exact ⟨rfl, rfl⟩
  · exact sameSize_drawByte ..
  · exact sameSize_drawRows ..

/-- A zone coloured cell by cell. -/
theorem sameSize_setColors (idx : UInt32) (cells : List (UInt32 × UInt32)) (m : Map2D RGBA) :
    Map2D.SameSize (cells.foldl (setColor idx) m) m := by
  induction cells generalizing m with
  | nil => exact ⟨rfl, rfl⟩
  | cons cell cells ih => exact (ih (setColor idx m cell)).trans ⟨rfl, rfl⟩

/-- Every instruction. -/
theorem sized_execute (i : Instruction) (s s' : Chip8X) (hs : Sized s.body)
    (h : execute i s = some s') : Sized s'.body := by
  cases i with
  | common i =>
      cases h
      obtain ⟨_, hown, _⟩ := executeCommon_frame config i s
      have hbody : (s.executeCommon config i).body.own = s.body.own := hown
      refine hs.congr ?_ ?_ <;> rw [hbody] <;> exact ⟨rfl, rfl⟩
  | i00E0 | i02A0 => cases h; exact hs.congr ⟨rfl, rfl⟩ ⟨rfl, rfl⟩
  | iBxyN X Y N =>
      cases h
      unfold instructionBxyN
      dsimp only
      split <;> exact hs.congr ⟨rfl, rfl⟩ (sameSize_setColors ..)
  | iDxyN X Y N => cases h; exact hs.congr (sameSize_drawSprite ..) ⟨rfl, rfl⟩
  | _ => cases h; exact hs

/-- Every state has maps of these sizes. -/
theorem alwaysKept_sized : AlwaysKept virtuals Sized where
  enterLoop := fun _ hs => hs
  execute := sized_execute
  pushAudioData := fun _ s hs => by
    simp only [virtuals, pushAudioData]
    split <;> exact hs.congr ⟨rfl, rfl⟩ ⟨rfl, rfl⟩
  pushVideoData := fun s hs => by
    simp only [virtuals, pushVideoData]
    split <;> exact hs.congr ⟨rfl, rfl⟩ ⟨rfl, rfl⟩
  reset := fun _ hs => hs.congr ⟨rfl, rfl⟩ ⟨rfl, rfl⟩
  toggleQuirk := fun _ hs _ _ => hs.congr ⟨rfl, rfl⟩ ⟨rfl, rfl⟩
  editMemory := fun _ hs _ _ => hs.congr ⟨rfl, rfl⟩ ⟨rfl, rfl⟩

/-- The processor of a boot. -/
theorem powerOn_boot (launch : Launch) : Cpu.PowerOn bootPos (boot launch).toCpu :=
  ⟨rfl, rfl, rfl, rfl, rfl, rfl, rfl, rfl, rfl⟩

/-- The processor of a reset. -/
theorem powerOn_reset (s : Chip8X) :
    Cpu.PowerOn bootPos (performInstanceReset virtuals s).toCpu :=
  Cpu.powerOn_resetInstance s.toIFamily bootPos

/-- **A reset restores all but the tint.** -/
theorem reset_sameRest (launch : Launch) {s : Chip8X} (hs : Sized s.body) :
    SameRest (performInstanceReset virtuals s) (boot launch) where
  displayMap := Map2D.sameCells_fill_const hs.displayMap.1 hs.displayMap.2 0
  coloredMap :=
    (Map2D.sameCells_fill_const hs.coloredMap.1 hs.coloredMap.2 RGBA.zero).set2 0 0 (foreColors 2)
  backgroundColor := rfl
  colorPixelMask := rfl
  processor := (powerOn_reset s).sameState (powerOn_boot launch)

/-- A boot shows the first background. -/
theorem textureTint_boot (launch : Launch) :
    (boot launch).metadata.textureTint = backColors 0 := rfl

/-- A reset shows the background there was. -/
theorem textureTint_reset (s : Chip8X) :
    (performInstanceReset virtuals s).metadata.textureTint = s.metadata.textureTint := rfl

/-! ## Index and tint -/

/-- The tint is that of the index. -/
def Tinted (b : Body 12 Members) : Prop :=
  b.metadata.textureTint = backColors b.own.backgroundColor

/-- Every instruction: `02A0` changes the background and its colour at once. -/
theorem tinted_execute (i : Instruction) (s s' : Chip8X) (hs : Tinted s.body)
    (h : execute i s = some s') : Tinted s'.body := by
  cases i with
  | common i =>
      cases h
      obtain ⟨hset, hown, _⟩ := executeCommon_frame config i s
      have htint : (s.executeCommon config i).metadata.textureTint = s.metadata.textureTint :=
        congrArg (·.metadata.textureTint) hset
      have hindex : (s.executeCommon config i).own.backgroundColor = s.own.backgroundColor :=
        congrArg (·.backgroundColor) hown
      exact htint.trans (hs.trans (congrArg backColors hindex.symm))
  | i02A0 => cases h; rfl
  | iBxyN X Y N =>
      cases h
      unfold instructionBxyN
      dsimp only
      split <;> exact hs
  | _ => cases h; exact hs

/-- The four backgrounds differ. -/
theorem backColors_injective {a b : Fin 4} (h : backColors a = backColors b) : a = b := by
  revert a b
  decide

/-- A reset keeps them in step precisely at the first colour. -/
theorem tinted_reset {s : Chip8X} (hs : Tinted s.body) :
    Tinted (performInstanceReset virtuals s).body ↔ s.own.backgroundColor = 0 := by
  have hs : s.metadata.textureTint = backColors s.own.backgroundColor := hs
  have hreset : Tinted (performInstanceReset virtuals s).body ↔
      s.metadata.textureTint = backColors 0 := Iff.rfl
  rw [hreset, hs]
  exact ⟨backColors_injective, congrArg backColors⟩

/-- Everything else keeps them in step. -/
theorem keptWhen_tinted : KeptWhen virtuals Tinted fun s => s.own.backgroundColor = 0 where
  enterLoop := fun _ hs => hs
  execute := tinted_execute
  pushAudioData := fun _ s hs => by
    simp only [virtuals, pushAudioData]
    split <;> exact hs
  pushVideoData := fun s hs => by
    simp only [virtuals, pushVideoData]
    split <;> exact hs
  reset := fun _ hs => tinted_reset hs
  toggleQuirk := fun _ hs _ _ => hs
  editMemory := fun _ hs _ _ => hs

/-! ## Runs -/

/-- A reset, if the event performs one, finds the first background colour. -/
def ResetsFirst : Chip8X → Event → Prop := ResetsWhen fun s => s.own.backgroundColor = 0

/-- A reset, if the event performs one, restores the machine of a boot. -/
def ResetRestores (launch : Launch) : Chip8X → Event → Prop :=
  ResetsWhen fun s => SameStart (performInstanceReset virtuals s) (boot launch)

/-- At the first colour a reset restores everything. -/
theorem resetRestores_of_first (launch : Launch) {s : Chip8X} (hsized : Sized s.body)
    (hs : Tinted s.body) {e : Event} (h : ResetsFirst s e) : ResetRestores launch s e := by
  cases e with
  | reset =>
      intro hreset
      have hs : s.metadata.textureTint = backColors s.own.backgroundColor := hs
      refine ⟨reset_sameRest launch hsized, ?_⟩
      rw [textureTint_reset, textureTint_boot, hs, h hreset]
  | _ => exact trivial

/-- **Background across resets.** A boot colours one cell. Index and tint agree in every state
of a run and inside its frames, and every reset of it restores the machine of a boot, precisely
when every reset of the run finds the first background colour. -/
theorem background_run (launch : Launch) (events : List Event) :
    (∀ i, (boot launch).own.coloredMap.at1 i = if i = 0 then foreColors 2 else RGBA.zero) ∧
    (((∀ s ∈ Runs.visited (step virtuals) (boot launch) events, Throughout virtuals Tinted s) ∧
      ∀ x ∈ Runs.taken (step virtuals) (boot launch) events, ResetRestores launch x.1 x.2) ↔
      ∀ x ∈ Runs.taken (step virtuals) (boot launch) events, ResetsFirst x.1 x.2) := by
  have hboot : Tinted (boot launch).body := rfl
  have hiff := keptWhen_tinted.run hboot events
  refine ⟨coloredMap_boot launch, ?_⟩
  constructor
  · rintro ⟨htinted, _⟩
    exact hiff.1 htinted
  · intro hfirst
    have htinted := hiff.2 hfirst
    refine ⟨htinted, fun x hx => ?_⟩
    have hvisited := Runs.mem_visited_of_mem_taken hx
    have hsized : Sized x.1.body :=
      alwaysKept_sized.reachable (sized_boot launch) (Runs.exists_run_of_mem_visited hvisited)
    exact resetRestores_of_first launch hsized (htinted x.1 hvisited).1 (hfirst x hx)

/-- `02A0` and a jump to itself, one frame, then a reset: the index is back at the first colour,
the tint is still the second one. -/
theorem background_broken :
    ∃ s, Runs.run (step virtuals) (boot (.ofProgram [0x02, 0xA0, 0x13, 0x02]))
        [.idle, .gui .requestInstanceReset, .reset] = some s ∧
      s.own.backgroundColor = 0 ∧ s.metadata.textureTint = backColors 1 ∧ ¬ Tinted s.body := by
  have hrun : (Runs.run (step virtuals) (boot (.ofProgram [0x02, 0xA0, 0x13, 0x02]))
      [.idle, .gui .requestInstanceReset, .reset]).map
        (fun s => (s.own.backgroundColor, s.metadata.textureTint))
      = some (0, backColors 1) := by decide +kernel
  obtain ⟨s, hs, heq⟩ := Option.map_eq_some_iff.1 hrun
  obtain ⟨hindex, htint⟩ := Prod.mk.inj heq
  refine ⟨s, hs, hindex, htint, fun htinted => ?_⟩
  have htinted : s.metadata.textureTint = backColors s.own.backgroundColor := htinted
  rw [hindex, htint] at htinted
  exact absurd htinted (by decide)

end CubeChip.Chip8X
