import CubeChip.Systems.Chip8.Flow
import CubeChip.Systems.Chip8.Cores.Chip8E
import CubeChip.Systems.Chip8.Cores.Chip8X
import CubeChip.Systems.Chip8.Cores.Chip8Modern
import CubeChip.Systems.Chip8.Cores.Megachip
import CubeChip.Systems.Chip8.Cores.SchipLegacy
import CubeChip.Systems.Chip8.Cores.SchipModern
import CubeChip.Systems.Chip8.Cores.Xochip

/-!
# The flow of each core

Instruction by instruction, none of the seven cores touches what the worker and the frame go
by. `FamilyCore` lists them, so that a statement about the family can be made about each.
-/

namespace CubeChip

namespace Core

variable {bits : Nat} {Own : Type}

/-- No shared instruction touches what steers a frame. -/
theorem steeredAlike_executeCommon (cfg : Common.Config) (i : Common) (s : Core bits Own) :
    s.SteeredAlike (s.executeCommon cfg i) := by
  cases i <;> exact ⟨rfl, id⟩

/-- Nor does reading the permanent registers. -/
theorem steeredAlike_getPermaregs {count : Nat} {s s' : Core bits Own}
    (h : s.getPermaregs count = some s') : s.SteeredAlike s' := by
  obtain ⟨r, -, rfl⟩ := Option.map_eq_some_iff.1 h
  exact ⟨rfl, id⟩

/-- What steers a frame, after a change of the base. -/
theorem flow_onFamily (f : IFamily → IFamily) (s : Core bits Own) :
    (s.onFamily f).flow = (f s.toIFamily).flow := rfl

/-- Copying the image and the font writes memory alone. -/
theorem flow_copy (offset size : Nat) (s : Core bits Own) :
    ((s.copyFileImageTo offset).copyFontDataTo size).flow = s.flow := rfl

/-- A loop over registers. -/
theorem steeredAlike_foldl {f : Core bits Own → Fin 16 → Core bits Own}
    (hf : ∀ s Z, SteeredAlike s (f s Z)) (Zs : List (Fin 16)) (s : Core bits Own) :
    s.SteeredAlike (Zs.foldl f s) :=
  List.foldlRecOn (motive := s.SteeredAlike) Zs f (.refl s) fun _ ht Z _ => ht.trans (hf _ Z)

end Core

/-! ## Monochrome cores -/

namespace Chip8E

/-- No instruction of its own touches what steers a frame. -/
theorem steeredAlike_execute (i : Instruction) (s s' : Chip8E) (h : execute i s = some s') :
    s.SteeredAlike s' := by
  cases i with
  | common i => cases h; exact Core.steeredAlike_executeCommon ..
  | i5xy2 X Y =>
      cases h; unfold instruction5xy2
      exact Core.steeredAlike_foldl (by exact fun _ _ => ⟨rfl, id⟩) _ s
  | i5xy3 X Y =>
      cases h; unfold instruction5xy3
      exact Core.steeredAlike_foldl (by exact fun _ _ => ⟨rfl, id⟩) _ s
  | _ => cases h; exact ⟨rfl, id⟩

/-- The steps of `CHIP8E`. -/
theorem flowKept : virtuals.FlowKept where
  enterLoop := fun _ => ⟨rfl, rfl⟩
  execute := steeredAlike_execute
  pushAudioData := fun input s => by
    dsimp only [virtuals, pushAudioData]; split <;> exact ⟨rfl, rfl, rfl⟩
  pushVideoData := fun s => by
    dsimp only [virtuals, pushVideoData]; split <;> exact ⟨rfl, rfl, rfl⟩
  resetSystemData := fun s => ⟨rfl, show speedHi ≠ 0 by decide⟩
  speed := .inr fun _ => rfl

end Chip8E

namespace Chip8X

/-- No instruction of its own touches what steers a frame. -/
theorem steeredAlike_execute (i : Instruction) (s s' : Chip8X) (h : execute i s = some s') :
    s.SteeredAlike s' := by
  cases i with
  | common i => cases h; exact Core.steeredAlike_executeCommon ..
  | iBxyN X Y N => cases h; unfold instructionBxyN; dsimp only; split <;> exact ⟨rfl, id⟩
  | _ => cases h; exact ⟨rfl, id⟩

/-- The steps of `CHIP8X`. -/
theorem flowKept : virtuals.FlowKept where
  enterLoop := fun _ => ⟨rfl, rfl⟩
  execute := steeredAlike_execute
  pushAudioData := fun input s => by
    dsimp only [virtuals, pushAudioData]; split <;> exact ⟨rfl, rfl, rfl⟩
  pushVideoData := fun s => by
    dsimp only [virtuals, pushVideoData]; split <;> exact ⟨rfl, rfl, rfl⟩
  resetSystemData := fun s => ⟨rfl, show speedHi ≠ 0 by decide⟩
  speed := .inr fun _ => rfl

end Chip8X

namespace Chip8Modern

/-- No instruction of its own touches what steers a frame. -/
theorem steeredAlike_execute (i : Instruction) (s s' : Chip8Modern)
    (h : execute i s = some s') : s.SteeredAlike s' := by
  cases i with
  | common i => cases h; exact Core.steeredAlike_executeCommon ..
  | _ => cases h; exact ⟨rfl, id⟩

/-- The loop is entered at one of the two speeds. -/
theorem speed_enterLoop (s : Chip8Modern) : (enterLoop s).standardCpf ≠ 0 := by
  unfold enterLoop; dsimp only; split <;> decide

/-- The steps of `CHIP8_MODERN`. -/
theorem flowKept : virtuals.FlowKept where
  enterLoop := fun _ => ⟨rfl, rfl⟩
  execute := steeredAlike_execute
  pushAudioData := fun input s => by
    dsimp only [virtuals, pushAudioData]; split <;> exact ⟨rfl, rfl, rfl⟩
  pushVideoData := fun _ => ⟨rfl, rfl, rfl⟩
  resetSystemData := fun s => ⟨rfl, show speedLo ≠ 0 by decide⟩
  speed := .inl speed_enterLoop

end Chip8Modern

namespace SchipModern

/-- No instruction of its own touches what steers a frame. -/
theorem steeredAlike_execute (i : Instruction) (s s' : SchipModern)
    (h : execute i s = some s') : s.SteeredAlike s' := by
  cases i with
  | common i => cases h; exact Core.steeredAlike_executeCommon ..
  | i00CN N => cases h; unfold instruction00CN; split <;> exact ⟨rfl, id⟩
  | iFN85 N => exact Core.steeredAlike_getPermaregs h
  | _ => cases h; exact ⟨rfl, id⟩

/-- The steps of `SCHIP_MODERN`. -/
theorem flowKept : virtuals.FlowKept where
  enterLoop := fun _ => ⟨rfl, rfl⟩
  execute := steeredAlike_execute
  pushAudioData := fun input s => by
    dsimp only [virtuals, pushAudioData]; split <;> exact ⟨rfl, rfl, rfl⟩
  pushVideoData := fun s => by
    dsimp only [virtuals, pushVideoData]; split <;> exact ⟨rfl, rfl, rfl⟩
  resetSystemData := fun s => ⟨rfl, show speedLo ≠ 0 by decide⟩
  speed := .inr fun _ => rfl

end SchipModern

namespace SchipLegacy

/-- No instruction of its own touches what steers a frame. -/
theorem steeredAlike_execute (i : Instruction) (s s' : SchipLegacy)
    (h : execute i s = some s') : s.SteeredAlike s' := by
  cases i with
  | common i => cases h; exact Core.steeredAlike_executeCommon ..
  | iFN85 N => exact Core.steeredAlike_getPermaregs h
  | _ => cases h; exact ⟨rfl, id⟩

/-- The loop is entered at one of the two speeds. -/
theorem speed_enterLoop (s : SchipLegacy) : (enterLoop s).standardCpf ≠ 0 := by
  unfold enterLoop; dsimp only; split <;> decide

/-- The steps of `SCHIP_LEGACY`, whose loop sets the pace itself. -/
theorem flowKept : virtuals.FlowKept where
  enterLoop := fun _ => ⟨rfl, rfl⟩
  execute := steeredAlike_execute
  pushAudioData := fun input s => by
    dsimp only [virtuals, pushAudioData]; split <;> exact ⟨rfl, rfl, rfl⟩
  pushVideoData := fun s => by
    dsimp only [virtuals, pushVideoData]; split <;> exact ⟨rfl, rfl, rfl⟩
  resetSystemData := fun s => ⟨rfl, show speedHi ≠ 0 by decide⟩
  speed := .inl speed_enterLoop

end SchipLegacy

/-! ## Cores with colours of their own -/

namespace Xochip

/-- No instruction of its own touches what steers a frame. -/
theorem steeredAlike_execute (i : Instruction) (s s' : Xochip) (h : execute i s = some s') :
    s.SteeredAlike s' := by
  cases i with
  | common i => cases h; exact Core.steeredAlike_executeCommon ..
  | i00CN N => cases h; unfold instruction00CN; split <;> exact ⟨rfl, id⟩
  | i00DN N => cases h; unfold instruction00DN; split <;> exact ⟨rfl, id⟩
  | iFN85 N => exact Core.steeredAlike_getPermaregs h
  | _ => cases h; exact ⟨rfl, id⟩

/-- The steps of `XOCHIP`. -/
theorem flowKept : virtuals.FlowKept where
  enterLoop := fun _ => ⟨rfl, rfl⟩
  execute := steeredAlike_execute
  pushAudioData := fun input s => by
    dsimp only [virtuals, pushAudioData]; split <;> exact ⟨rfl, rfl, rfl⟩
  pushVideoData := fun _ => ⟨rfl, rfl, rfl⟩
  resetSystemData := fun s => ⟨rfl, show speedLo ≠ 0 by decide⟩
  speed := .inr fun _ => rfl

end Xochip

namespace Megachip

/-- Every resolution has a speed. -/
theorem flow_setDisplayProperties (mode : Resolution) (s : Megachip) :
    (setDisplayProperties mode s).flow = s.flow ∧
      (setDisplayProperties mode s).standardCpf ≠ 0 := by
  rw [setDisplayProperties, Core.flow_onFamily]
  cases mode with
  | LO => exact ⟨rfl, show speedHi ≠ 0 by decide⟩
  | HI => exact ⟨rfl, show speedLo ≠ 0 by decide⟩
  | MC => exact ⟨rfl, show speedLo * 100 ≠ 0 by decide⟩

/-- A resolution sets the viewport and the pace. -/
theorem steeredAlike_setDisplayProperties (mode : Resolution) (s : Megachip) :
    s.SteeredAlike (setDisplayProperties mode s) :=
  ⟨(flow_setDisplayProperties mode s).1, fun _ => (flow_setDisplayProperties mode s).2⟩

/-- A scroll moves cells. -/
theorem steeredAlike_scroll (cols rows : Int) (s : Megachip) :
    s.SteeredAlike (scroll cols rows s) := by
  unfold scroll; split <;> exact ⟨rfl, id⟩

/-- A track is a member of the core. -/
theorem steeredAlike_startAudioTrack (loop : Bool) (s : Megachip) :
    s.SteeredAlike (startAudioTrack loop s) := by
  unfold startAudioTrack; split <;> exact ⟨rfl, id⟩

/-- So are the background and the collision map. -/
theorem steeredAlike_drawTexture (xBegin yBegin : Nat) (s : Megachip) :
    s.SteeredAlike (drawTexture s xBegin yBegin) := by
  unfold drawTexture; split <;> exact ⟨rfl, id⟩

/-- A sprite waits for a frame at most. -/
theorem steeredAlike_instructionDxyN (X Y N : Fin 16) (s : Megachip) :
    s.SteeredAlike (instructionDxyN s X Y N) := by
  unfold instructionDxyN
  split
  · unfold drawMega
    dsimp only
    split
    · exact ⟨rfl, id⟩
    · split
      · exact ⟨rfl, id⟩
      · exact (steeredAlike_drawTexture _ _ (s.onCpu (·.setV 0xF 0))).trans ⟨rfl, id⟩
  · exact ⟨rfl, id⟩

/-- No instruction of its own touches what steers a frame. -/
theorem steeredAlike_execute (i : Instruction) (s s' : Megachip) (h : execute i s = some s') :
    s.SteeredAlike s' := by
  cases i with
  | common i => cases h; exact Core.steeredAlike_executeCommon ..
  | i00BN N => cases h; exact steeredAlike_scroll ..
  | i00CN N => cases h; exact steeredAlike_scroll ..
  | i00FB => cases h; exact steeredAlike_scroll ..
  | i00FC => cases h; exact steeredAlike_scroll ..
  | i00E0 => cases h; unfold instruction00E0; split <;> exact ⟨rfl, id⟩
  | i00FE => cases h; exact (steeredAlike_setDisplayProperties .LO s).trans ⟨rfl, id⟩
  | i00FF => cases h; exact (steeredAlike_setDisplayProperties .HI s).trans ⟨rfl, id⟩
  | i0010 => cases h; exact (steeredAlike_setDisplayProperties .LO s).trans ⟨rfl, id⟩
  | i0011 => cases h; exact (steeredAlike_setDisplayProperties .MC s).trans ⟨rfl, id⟩
  | i060N N => cases h; exact steeredAlike_startAudioTrack ..
  | iDxyN X Y N => cases h; exact steeredAlike_instructionDxyN ..
  | iFN85 N => exact Core.steeredAlike_getPermaregs h
  | _ => cases h; exact ⟨rfl, id⟩

/-- A track that ends is a member of the core. -/
theorem flow_mixAudioData (input : FrameInput) (s : Megachip) :
    (mixAudioData (makeStreamWave input) s).flow = s.flow ∧
      (mixAudioData (makeStreamWave input) s).toCpu = s.toCpu ∧
      (mixAudioData (makeStreamWave input) s).standardCpf = s.standardCpf := by
  unfold mixAudioData makeStreamWave
  repeat' split
  all_goals exact ⟨rfl, rfl, rfl⟩

/-- The border is coloured, and a track may end. -/
theorem flow_pushAudioData (input : FrameInput) (s : Megachip) :
    (pushAudioData input s).flow = s.flow ∧ (pushAudioData input s).toCpu = s.toCpu ∧
      (pushAudioData input s).standardCpf = s.standardCpf := by
  unfold pushAudioData
  split
  · dsimp only
    split
    · exact flow_mixAudioData input s
    · exact flow_mixAudioData input s
  · split <;> exact ⟨rfl, rfl, rfl⟩

/-- A reset gives the pace of low resolution. -/
theorem flow_resetSystemData (s : Megachip) :
    (resetSystemData s).flow = s.flow ∧ (resetSystemData s).standardCpf ≠ 0 := by
  unfold resetSystemData
  dsimp only
  have hload : _ = s.flow :=
    Core.flow_copy gameLoadPos 180 ({ s with memory := MirroredMemory.clear } : Megachip)
  generalize Core.copyFontDataTo 180 _ = t at hload ⊢
  obtain ⟨hflow, hspeed⟩ := flow_setDisplayProperties .LO t
  exact ⟨hflow.trans hload, hspeed⟩

/-- The steps of `MEGACHIP`. -/
theorem flowKept : virtuals.FlowKept where
  enterLoop := fun _ => ⟨rfl, rfl⟩
  execute := steeredAlike_execute
  pushAudioData := flow_pushAudioData
  pushVideoData := fun s => by
    dsimp only [virtuals, pushVideoData]
    split
    · split <;> exact ⟨rfl, rfl, rfl⟩
    · exact ⟨rfl, rfl, rfl⟩
  resetSystemData := flow_resetSystemData
  speed := .inr fun _ => rfl

end Megachip

/-! ## The family -/

/-- The cores of the family. -/
inductive FamilyCore where
  | chip8E
  | chip8X
  | chip8Modern
  | megachip
  | schipLegacy
  | schipModern
  | xochip
deriving DecidableEq, Repr

namespace FamilyCore

/-- The width of its addresses. -/
def bits : FamilyCore → Nat
  | .chip8E | .chip8X | .chip8Modern | .schipLegacy | .schipModern => 12
  | .megachip => 24
  | .xochip => 16

/-- Its own members. -/
def Own : FamilyCore → Type
  | .chip8E => Chip8E.Members
  | .chip8X => Chip8X.Members
  | .chip8Modern => Chip8Modern.Members
  | .megachip => Megachip.Members
  | .schipLegacy => SchipLegacy.Members
  | .schipModern => SchipModern.Members
  | .xochip => Xochip.Members

/-- Its instructions. -/
def Instruction : FamilyCore → Type
  | .chip8E => Chip8E.Instruction
  | .chip8X => Chip8X.Instruction
  | .chip8Modern => Chip8Modern.Instruction
  | .megachip => Megachip.Instruction
  | .schipLegacy => SchipLegacy.Instruction
  | .schipModern => SchipModern.Instruction
  | .xochip => Xochip.Instruction

/-- Its virtual functions. -/
def virtuals : (core : FamilyCore) → Virtuals core.bits core.Own core.Instruction
  | .chip8E => Chip8E.virtuals
  | .chip8X => Chip8X.virtuals
  | .chip8Modern => Chip8Modern.virtuals
  | .megachip => Megachip.virtuals
  | .schipLegacy => SchipLegacy.virtuals
  | .schipModern => SchipModern.virtuals
  | .xochip => Xochip.virtuals

/-- The states it starts in, with any program. -/
def Boots : (core : FamilyCore) → Core core.bits core.Own → Prop
  | .chip8E => fun s => ∃ launch, s = Chip8E.boot launch
  | .chip8X => fun s => ∃ launch, s = Chip8X.boot launch
  | .chip8Modern => fun s => ∃ launch, s = Chip8Modern.boot launch
  | .megachip => fun s => ∃ launch unset, s = Megachip.boot launch unset
  | .schipLegacy => fun s => ∃ launch, s = SchipLegacy.boot launch
  | .schipModern => fun s => ∃ launch, s = SchipModern.boot launch
  | .xochip => fun s => ∃ launch, s = Xochip.boot launch

/-- What `FlowKept` asks holds of each member of the family. -/
theorem flowKept (core : FamilyCore) : core.virtuals.FlowKept := by
  cases core with
  | chip8E => exact Chip8E.flowKept
  | chip8X => exact Chip8X.flowKept
  | chip8Modern => exact Chip8Modern.flowKept
  | megachip => exact Megachip.flowKept
  | schipLegacy => exact SchipLegacy.flowKept
  | schipModern => exact SchipModern.flowKept
  | xochip => exact Xochip.flowKept

/-- A core starts at a speed. -/
theorem Boots.speed {core : FamilyCore} {s : Core core.bits core.Own} (h : core.Boots s) :
    (core.virtuals.enterLoop s).standardCpf ≠ 0 := by
  cases core with
  | chip8E => obtain ⟨launch, rfl⟩ := h; exact show Chip8E.speedHi ≠ 0 by decide
  | chip8X => obtain ⟨launch, rfl⟩ := h; exact show Chip8X.speedHi ≠ 0 by decide
  | chip8Modern => exact Chip8Modern.speed_enterLoop s
  | megachip => obtain ⟨launch, unset, rfl⟩ := h; exact show Megachip.speedHi ≠ 0 by decide
  | schipLegacy => exact SchipLegacy.speed_enterLoop s
  | schipModern => obtain ⟨launch, rfl⟩ := h; exact show SchipModern.speedLo ≠ 0 by decide
  | xochip => obtain ⟨launch, rfl⟩ := h; exact show Xochip.speedLo ≠ 0 by decide

end FamilyCore

end CubeChip
