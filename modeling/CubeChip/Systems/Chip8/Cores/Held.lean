import CubeChip.Systems.Chip8.Held
import CubeChip.Systems.Chip8.Cores.Flow

/-!
# What no core touches

No instruction of the seven cores touches the counters, the file or the worker's snapshot. So the
frames and cycles shown are the ones that ran, in every run of every core.
-/

namespace CubeChip

open CubeChip.Core

/-! ## Monochrome cores -/

namespace Chip8E

/-- The register ranges of `5xy2` and `5xy3` are walked one register at a time. -/
theorem heldKept : HeldKept virtuals where
  enterLoop := fun _ => rfl
  execute := fun i s s' h => by
    cases i with
    | common i => cases h; exact held_executeCommon ..
    | i5xy2 X Y | i5xy3 X Y =>
        cases h
        exact List.foldlRecOn (motive := fun t : Chip8E => t.held = s.held) _ _ rfl
          fun t ht Z _ => ht
    | _ => cases h; rfl
  pushAudioData := fun input s => by
    simp only [virtuals, pushAudioData]
    split <;> rfl
  pushVideoData := fun s => by
    simp only [virtuals, pushVideoData]
    split <;> rfl
  resetSystemData := fun _ => rfl

end Chip8E

namespace Chip8X

/-- Neither the zones nor the hues of `CHIP8X` are held. -/
theorem heldKept : HeldKept virtuals where
  enterLoop := fun _ => rfl
  execute := fun i s s' h => by
    cases i with
    | common i => cases h; exact held_executeCommon ..
    | iBxyN X Y N => cases h; unfold instructionBxyN; dsimp only; split <;> rfl
    | _ => cases h; rfl
  pushAudioData := fun input s => by
    simp only [virtuals, pushAudioData]
    split <;> rfl
  pushVideoData := fun s => by
    simp only [virtuals, pushVideoData]
    split <;> rfl
  resetSystemData := fun _ => rfl

end Chip8X

namespace Chip8Modern

/-- `CHIP8_MODERN` writes its own members and those of the base. -/
theorem heldKept : HeldKept virtuals where
  enterLoop := fun _ => rfl
  execute := fun i s s' h => by
    cases i with
    | common i => cases h; exact held_executeCommon ..
    | _ => cases h; rfl
  pushAudioData := fun input s => by
    simp only [virtuals, pushAudioData]
    split <;> rfl
  pushVideoData := fun _ => rfl
  resetSystemData := fun _ => rfl

end Chip8Modern

namespace SchipModern

/-- `FN85` reads the permanent registers of the file, and leaves the file as it is. -/
theorem heldKept : HeldKept virtuals where
  enterLoop := fun _ => rfl
  execute := fun i s s' h => by
    cases i with
    | common i => cases h; exact held_executeCommon ..
    | i00CN N => cases h; unfold instruction00CN; split <;> rfl
    | iFN85 N => exact held_getPermaregs h
    | _ => cases h; rfl
  pushAudioData := fun input s => by
    simp only [virtuals, pushAudioData]
    split <;> rfl
  pushVideoData := fun s => by
    simp only [virtuals, pushVideoData]
    split <;> rfl
  resetSystemData := fun _ => rfl

end SchipModern

namespace SchipLegacy

/-- The scrolls and `FN85` are those of `SCHIP_MODERN`. -/
theorem heldKept : HeldKept virtuals where
  enterLoop := fun _ => rfl
  execute := fun i s s' h => by
    cases i with
    | common i => cases h; exact held_executeCommon ..
    | iFN85 N => exact held_getPermaregs h
    | _ => cases h; rfl
  pushAudioData := fun input s => by
    simp only [virtuals, pushAudioData]
    split <;> rfl
  pushVideoData := fun s => by
    simp only [virtuals, pushVideoData]
    split <;> rfl
  resetSystemData := fun _ => rfl

end SchipLegacy

/-! ## Cores with colours of their own -/

namespace Xochip

/-- The planes, the palette and the pattern are members of the core. -/
theorem heldKept : HeldKept virtuals where
  enterLoop := fun _ => rfl
  execute := fun i s s' h => by
    cases i with
    | common i => cases h; exact held_executeCommon ..
    | i00CN N => cases h; unfold instruction00CN; split <;> rfl
    | i00DN N => cases h; unfold instruction00DN; split <;> rfl
    | iFN85 N => exact held_getPermaregs h
    | _ => cases h; rfl
  pushAudioData := fun input s => by
    simp only [virtuals, pushAudioData]
    split <;> rfl
  pushVideoData := fun _ => rfl
  resetSystemData := fun _ => rfl

end Xochip

namespace Megachip

/-- A scroll moves the cells of the display. -/
theorem held_scroll (cols rows : Int) (s : Megachip) :
    (scroll cols rows s).held = s.held := by
  unfold scroll
  split <;> rfl

/-- A sprite is drawn on the display, a texture on the background. -/
theorem held_instructionDxyN (X Y N : Fin 16) (s : Megachip) :
    (instructionDxyN s X Y N).held = s.held := by
  unfold instructionDxyN
  split
  · unfold drawMega
    dsimp only
    split
    · rfl
    · split
      · rfl
      · unfold drawTexture
        split <;> rfl
  · rfl

/-- A new resolution sets the viewport, the pace and two quirks. -/
theorem held_setDisplayProperties (mode : Resolution) (s : Megachip) :
    (setDisplayProperties mode s).held = s.held := by
  cases mode <;> simp only [setDisplayProperties, onFamily, IFamily.held, IFamily.setManualVsync,
    IFamily.setHiresScreen, IFamily.addQuirk, IFamily.subQuirk]

/-- A reset sets the resolution again, after the image and the font are in memory. -/
theorem held_resetSystemData (s : Megachip) : (resetSystemData s).held = s.held := by
  unfold resetSystemData
  dsimp only
  have hload : _ = s.held :=
    held_copy gameLoadPos 180 ({ s with memory := MirroredMemory.clear } : Megachip)
  generalize Core.copyFontDataTo 180 _ = t at hload ⊢
  exact (held_setDisplayProperties .LO t).trans hload

/-- No instruction of `MEGACHIP` touches what is held. -/
theorem held_execute (i : Instruction) (s s' : Megachip) (h : execute i s = some s') :
    s'.held = s.held := by
  cases i with
  | common i => cases h; exact held_executeCommon ..
  | i00BN | i00CN | i00FB | i00FC => cases h; exact held_scroll ..
  | i00E0 => cases h; unfold instruction00E0; split <;> rfl
  | i060N N => cases h; unfold instruction060N startAudioTrack; split <;> rfl
  | i00FE => cases h; exact held_setDisplayProperties .LO s
  | i00FF => cases h; exact held_setDisplayProperties .HI s
  | i0010 => cases h; exact held_setDisplayProperties .LO s
  | i0011 => cases h; exact held_setDisplayProperties .MC s
  | iDxyN X Y N => cases h; exact held_instructionDxyN ..
  | iFN85 N => exact held_getPermaregs h
  | _ => cases h; rfl

/-- A track that ends in a frame is a member of the core. -/
theorem held_pushAudioData (input : FrameInput) (s : Megachip) :
    (pushAudioData input s).held = s.held := by
  simp only [pushAudioData, mixAudioData, makeStreamWave]
  repeat' split
  all_goals rfl

/-- The frame shown is a member of the core too. -/
theorem held_pushVideoData (s : Megachip) : (pushVideoData s).held = s.held := by
  unfold pushVideoData
  split
  · split <;> rfl
  · rfl

/-- The five steps of `MEGACHIP`. -/
theorem heldKept : HeldKept virtuals where
  enterLoop := fun _ => rfl
  execute := held_execute
  pushAudioData := held_pushAudioData
  pushVideoData := held_pushVideoData
  resetSystemData := held_resetSystemData

end Megachip

/-! ## The family -/

namespace FamilyCore

/-- What `HeldKept` asks holds of each member of the family. -/
theorem heldKept (core : FamilyCore) : HeldKept core.virtuals := by
  cases core with
  | chip8E => exact Chip8E.heldKept
  | chip8X => exact Chip8X.heldKept
  | chip8Modern => exact Chip8Modern.heldKept
  | megachip => exact Megachip.heldKept
  | schipLegacy => exact SchipLegacy.heldKept
  | schipModern => exact SchipModern.heldKept
  | xochip => exact Xochip.heldKept

end FamilyCore

end CubeChip
