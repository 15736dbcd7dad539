import CubeChip.Components.Well512
import CubeChip.Systems.Chip8.Seeds
import CubeChip.Systems.Chip8.Cores.Flow

/-!
# Random numbers of each core

Of the opcodes of the seven cores, those of branch C alone take a random number, to the register
and under the mask they name. So a program that does not execute them runs the same whatever
generator its core was started with, and one that does takes the numbers of that generator one
after the other.
-/

namespace CubeChip

open CubeChip.Core

/-! ## Monochrome cores -/

namespace Chip8E

/-- The instructions that take a random number. -/
def Instruction.draws : Instruction → Bool
  | .common i => i.draws
  | _ => false

/-- The rows of a sprite are the same under any generator. -/
theorem drawRows_withRng (r : Well512) (s : Chip8E) (pX n H pY : Nat) (c : Canvas) :
    drawRows (s.withRng r) pX n H pY c = drawRows s pX n H pY c := by
  induction n generalizing H pY c with
  | zero => rfl
  | succ n ih =>
      simp only [drawRows, ih]
      rfl

/-- So is the sprite. -/
theorem drawSprite_withRng (r : Well512) (s : Chip8E) (N : Fin 16) (pX pY : Nat) (c : Canvas) :
    drawSprite (s.withRng r) N pX pY c = drawSprite s N pX pY c := by
  simp only [drawSprite, drawRows_withRng]
  rfl

/-- Of the instructions of `CHIP8E`, CxNN alone asks the generator. -/
theorem ignoresRng : IgnoresRng virtuals Instruction.draws where
  enterLoop := fun _ _ => rfl
  decode := fun _ _ _ => rfl
  execute := fun r i s h => by
    cases i with
    | common i => exact congrArg some (executeCommon_withRng config r h s)
    | i5xy2 X Y => exact congrArg some (List.foldl_hom (withRng r) (by exact fun _ _ => rfl))
    | i5xy3 X Y => exact congrArg some (List.foldl_hom (withRng r) (by exact fun _ _ => rfl))
    | iDxyN X Y N =>
        dsimp only [virtuals, execute, instructionDxyN]
        rw [drawSprite_withRng]
        rfl
    | _ => rfl
  pushAudioData := fun r input s =>
    Eq.symm (show withRng r (pushAudioData input s) = _ from apply_ite (withRng r) _ _ _)
  pushVideoData := fun r s =>
    Eq.symm (show withRng r (pushVideoData s) = _ from apply_ite (withRng r) _ _ _)
  resetSystemData := fun _ _ => rfl

/-- No opcode of the first branch draws. -/
theorem draws_decode0 {op : Opcode} : (decode0 op).draws = false := by
  unfold decode0
  split
  case h_3 => rfl
  all_goals split <;> rfl

/-- Nor does one of the branch 5. -/
theorem draws_decode5 {op : Opcode} : (decode5 op).draws = false := by
  unfold decode5
  split <;> rfl

/-- Nor does one of the branch B. -/
theorem draws_decodeB {op : Opcode} : (decodeB op).draws = false := by
  unfold decodeB
  split <;> rfl

/-- Nor does one of the branch F. -/
theorem draws_decodeF {op : Opcode} : (decodeF op).draws = false := by
  unfold decodeF
  split
  case h_8 => exact Common.draws_decodeF
  all_goals rfl

/-- So what draws comes from the branch C. -/
theorem branch_of_draws {op : Opcode} (h : (decode op).draws = true) :
    op.branch.val = 0xC := by
  unfold decode at h
  split at h
  case h_1 => exact absurd h (Bool.eq_false_iff.1 draws_decode0)
  case h_2 => exact absurd h (Bool.eq_false_iff.1 draws_decode5)
  case h_3 => exact absurd h (Bool.eq_false_iff.1 draws_decodeB)
  case h_5 => exact absurd h (Bool.eq_false_iff.1 Common.draws_decodeE)
  case h_6 => exact absurd h (Bool.eq_false_iff.1 draws_decodeF)
  case h_7 => exact Common.branch_of_draws_decode h
  all_goals cases h

/-- And the branch C is CxNN, with the register and the mask of the opcode. -/
theorem decode_of_branch {op : Opcode} (h : op.branch.val = 0xC) :
    decode op = .common (.iCxNN op.X op.LO) := by
  simp only [decode, h, Common.decode_of_branch h]

/-- The decoder and the steps around it, for the run of draws. -/
theorem drawsInOrder : DrawsInOrder virtuals Instruction.draws where
  toIgnoresRng := ignoresRng
  branch := fun _ _ => branch_of_draws
  draws := fun _ _ h => congrArg Instruction.draws (decode_of_branch h)
  draw := fun _ _ h t => congrArg (fun i => execute i t) (decode_of_branch h)

end Chip8E

namespace Chip8X

/-- The instructions that take a random number. -/
def Instruction.draws : Instruction → Bool
  | .common i => i.draws
  | _ => false

/-- The rows of a sprite are the same under any generator. -/
theorem drawRows_withRng (r : Well512) (s : Chip8X) (pX n H pY : Nat) (c : Canvas) :
    drawRows (s.withRng r) pX n H pY c = drawRows s pX n H pY c := by
  induction n generalizing H pY c with
  | zero => rfl
  | succ n ih =>
      simp only [drawRows, ih]
      rfl

/-- So is the sprite. -/
theorem drawSprite_withRng (r : Well512) (s : Chip8X) (N : Fin 16) (pX pY : Nat) (c : Canvas) :
    drawSprite (s.withRng r) N pX pY c = drawSprite s N pX pY c := by
  simp only [drawSprite, drawRows_withRng]
  rfl

/-- `CHIP8X` asks it nowhere else either: colours and zones come from registers. -/
theorem ignoresRng : IgnoresRng virtuals Instruction.draws where
  enterLoop := fun _ _ => rfl
  decode := fun _ _ _ => rfl
  execute := fun r i s h => by
    cases i with
    | common i => exact congrArg some (executeCommon_withRng config r h s)
    | iBxyN X Y N =>
        dsimp only [virtuals, execute, instructionBxyN]
        split <;> rfl
    | iDxyN X Y N =>
        dsimp only [virtuals, execute, instructionDxyN]
        rw [drawSprite_withRng]
        rfl
    | _ => rfl
  pushAudioData := fun r input s =>
    Eq.symm (show withRng r (pushAudioData input s) = _ from apply_ite (withRng r) _ _ _)
  pushVideoData := fun r s =>
    Eq.symm (show withRng r (pushVideoData s) = _ from apply_ite (withRng r) _ _ _)
  resetSystemData := fun _ _ => rfl

/-- No opcode of the first branch draws. -/
theorem draws_decode0 {op : Opcode} : (decode0 op).draws = false := by
  unfold decode0
  split
  case h_3 => rfl
  all_goals split <;> rfl

/-- Nor does one of the branch 5. -/
theorem draws_decode5 {op : Opcode} : (decode5 op).draws = false := by
  unfold decode5
  split <;> rfl

/-- Nor does one of the branch E. -/
theorem draws_decodeE {op : Opcode} : (decodeE op).draws = false := by
  unfold decodeE
  split
  case h_3 => exact Common.draws_decodeE
  all_goals rfl

/-- Nor does one of the branch F. -/
theorem draws_decodeF {op : Opcode} : (decodeF op).draws = false := by
  unfold decodeF
  split
  case h_5 => exact Common.draws_decodeF
  all_goals rfl

/-- So what draws comes from the branch C. -/
theorem branch_of_draws {op : Opcode} (h : (decode op).draws = true) :
    op.branch.val = 0xC := by
  unfold decode at h
  split at h
  case h_1 => exact absurd h (Bool.eq_false_iff.1 draws_decode0)
  case h_2 => exact absurd h (Bool.eq_false_iff.1 draws_decode5)
  case h_3 => split at h <;> cases h
  case h_5 => exact absurd h (Bool.eq_false_iff.1 draws_decodeE)
  case h_6 => exact absurd h (Bool.eq_false_iff.1 draws_decodeF)
  case h_7 => exact Common.branch_of_draws_decode h
  all_goals cases h

/-- And the branch C is CxNN, with the register and the mask of the opcode. -/
theorem decode_of_branch {op : Opcode} (h : op.branch.val = 0xC) :
    decode op = .common (.iCxNN op.X op.LO) := by
  simp only [decode, h, Common.decode_of_branch h]

/-- The decoder and the steps around it, for the run of draws. -/
theorem drawsInOrder : DrawsInOrder virtuals Instruction.draws where
  toIgnoresRng := ignoresRng
  branch := fun _ _ => branch_of_draws
  draws := fun _ _ h => congrArg Instruction.draws (decode_of_branch h)
  draw := fun _ _ h t => congrArg (fun i => execute i t) (decode_of_branch h)

end Chip8X

namespace Chip8Modern

/-- The instructions that take a random number. -/
def Instruction.draws : Instruction → Bool
  | .common i => i.draws
  | _ => false

/-- No instruction of its own asks the generator of `CHIP8_MODERN`. -/
theorem ignoresRng : IgnoresRng virtuals Instruction.draws where
  enterLoop := fun _ _ => rfl
  decode := fun _ _ _ => rfl
  execute := fun r i s h => by
    cases i with
    | common i => exact congrArg some (executeCommon_withRng (config s) r h s)
    | _ => rfl
  pushAudioData := fun r input s =>
    Eq.symm (show withRng r (pushAudioData input s) = _ from apply_ite (withRng r) _ _ _)
  pushVideoData := fun _ _ => rfl
  resetSystemData := fun _ _ => rfl

/-- No opcode of the first branch draws. -/
theorem draws_decode0 {op : Opcode} : (decode0 op).draws = false := by
  unfold decode0
  split <;> rfl

/-- Nor does one of the branch F. -/
theorem draws_decodeF {op : Opcode} : (decodeF op).draws = false := by
  unfold decodeF
  split
  case h_3 => exact Common.draws_decodeF
  all_goals rfl

/-- So what draws comes from the branch C. -/
theorem branch_of_draws {op : Opcode} (h : (decode op).draws = true) :
    op.branch.val = 0xC := by
  unfold decode at h
  split at h
  case h_1 =>
    split at h
    · exact absurd h (Bool.eq_false_iff.1 draws_decode0)
    · cases h
  case h_2 => exact absurd h (Bool.eq_false_iff.1 Common.draws_decode5)
  case h_5 => exact absurd h (Bool.eq_false_iff.1 Common.draws_decodeE)
  case h_6 => exact absurd h (Bool.eq_false_iff.1 draws_decodeF)
  case h_7 => exact Common.branch_of_draws_decode h
  all_goals cases h

/-- And the branch C is CxNN, with the register and the mask of the opcode. -/
theorem decode_of_branch {op : Opcode} (h : op.branch.val = 0xC) :
    decode op = .common (.iCxNN op.X op.LO) := by
  simp only [decode, h, Common.decode_of_branch h]

/-- The decoder and the steps around it, for the run of draws. -/
theorem drawsInOrder : DrawsInOrder virtuals Instruction.draws where
  toIgnoresRng := ignoresRng
  branch := fun _ _ => branch_of_draws
  draws := fun _ _ h => congrArg Instruction.draws (decode_of_branch h)
  draw := fun _ _ h t => congrArg (fun i => execute i t) (decode_of_branch h)

end Chip8Modern

namespace SchipModern

/-- The instructions that take a random number. -/
def Instruction.draws : Instruction → Bool
  | .common i => i.draws
  | _ => false

/-- Scrolls, resolutions and permanent registers do not ask the generator. -/
theorem ignoresRng : IgnoresRng virtuals Instruction.draws where
  enterLoop := fun _ _ => rfl
  decode := fun _ _ _ => rfl
  execute := fun r i s h => by
    cases i with
    | common i => exact congrArg some (executeCommon_withRng (config s) r h s)
    | i00CN N =>
        dsimp only [virtuals, execute, instruction00CN]
        split <;> rfl
    | iFN85 N => exact getPermaregs_withRng (N.val + 1) r s
    | _ => rfl
  pushAudioData := fun r input s =>
    Eq.symm (show withRng r (pushAudioData input s) = _ from apply_ite (withRng r) _ _ _)
  pushVideoData := fun r s =>
    Eq.symm (show withRng r (pushVideoData s) = _ from apply_ite (withRng r) _ _ _)
  resetSystemData := fun _ _ => rfl

/-- No opcode of the first branch draws. -/
theorem draws_decode0 {op : Opcode} : (decode0 op).draws = false := by
  unfold decode0
  split
  case h_8 => split <;> rfl
  all_goals rfl

/-- Nor does one of the branch F. -/
theorem draws_decodeF {op : Opcode} : (decodeF op).draws = false := by
  unfold decodeF
  split
  case h_6 => exact Common.draws_decodeF
  all_goals rfl

/-- So what draws comes from the branch C. -/
theorem branch_of_draws {op : Opcode} (h : (decode op).draws = true) :
    op.branch.val = 0xC := by
  unfold decode at h
  split at h
  case h_1 =>
    split at h
    · exact absurd h (Bool.eq_false_iff.1 draws_decode0)
    · cases h
  case h_2 => exact absurd h (Bool.eq_false_iff.1 Common.draws_decode5)
  case h_5 => exact absurd h (Bool.eq_false_iff.1 Common.draws_decodeE)
  case h_6 => exact absurd h (Bool.eq_false_iff.1 draws_decodeF)
  case h_7 => exact Common.branch_of_draws_decode h
  all_goals cases h

/-- And the branch C is CxNN, with the register and the mask of the opcode. -/
theorem decode_of_branch {op : Opcode} (h : op.branch.val = 0xC) :
    decode op = .common (.iCxNN op.X op.LO) := by
  simp only [decode, h, Common.decode_of_branch h]

/-- The decoder and the steps around it, for the run of draws. -/
theorem drawsInOrder : DrawsInOrder virtuals Instruction.draws where
  toIgnoresRng := ignoresRng
  branch := fun _ _ => branch_of_draws
  draws := fun _ _ h => congrArg Instruction.draws (decode_of_branch h)
  draw := fun _ _ h t => congrArg (fun i => execute i t) (decode_of_branch h)

end SchipModern

namespace SchipLegacy

/-- The instructions that take a random number. -/
def Instruction.draws : Instruction → Bool
  | .common i => i.draws
  | _ => false

/-- The same for the original SUPERCHIP. -/
theorem ignoresRng : IgnoresRng virtuals Instruction.draws where
  enterLoop := fun _ _ => rfl
  decode := fun _ _ _ => rfl
  execute := fun r i s h => by
    cases i with
    | common i => exact congrArg some (executeCommon_withRng (config s) r h s)
    | iFN85 N => exact getPermaregs_withRng (min N.val 7 + 1) r s
    | _ => rfl
  pushAudioData := fun r input s =>
    Eq.symm (show withRng r (pushAudioData input s) = _ from apply_ite (withRng r) _ _ _)
  pushVideoData := fun r s =>
    Eq.symm (show withRng r (pushVideoData s) = _ from apply_ite (withRng r) _ _ _)
  resetSystemData := fun _ _ => rfl

/-- No opcode of the first branch draws. -/
theorem draws_decode0 {op : Opcode} : (decode0 op).draws = false := by
  unfold decode0
  split
  case h_8 => split <;> rfl
  all_goals rfl

/-- Nor does one of the branch F. -/
theorem draws_decodeF {op : Opcode} : (decodeF op).draws = false := by
  unfold decodeF
  split
  case h_6 => exact Common.draws_decodeF
  all_goals rfl

/-- So what draws comes from the branch C. -/
theorem branch_of_draws {op : Opcode} (h : (decode op).draws = true) :
    op.branch.val = 0xC := by
  unfold decode at h
  split at h
  case h_1 =>
    split at h
    · exact absurd h (Bool.eq_false_iff.1 draws_decode0)
    · cases h
  case h_2 => exact absurd h (Bool.eq_false_iff.1 Common.draws_decode5)
  case h_5 => exact absurd h (Bool.eq_false_iff.1 Common.draws_decodeE)
  case h_6 => exact absurd h (Bool.eq_false_iff.1 draws_decodeF)
  case h_7 => exact Common.branch_of_draws_decode h
  all_goals cases h

/-- And the branch C is CxNN, with the register and the mask of the opcode. -/
theorem decode_of_branch {op : Opcode} (h : op.branch.val = 0xC) :
    decode op = .common (.iCxNN op.X op.LO) := by
  simp only [decode, h, Common.decode_of_branch h]

/-- The decoder and the steps around it, for the run of draws. -/
theorem drawsInOrder : DrawsInOrder virtuals Instruction.draws where
  toIgnoresRng := ignoresRng
  branch := fun _ _ => branch_of_draws
  draws := fun _ _ h => congrArg Instruction.draws (decode_of_branch h)
  draw := fun _ _ h t => congrArg (fun i => execute i t) (decode_of_branch h)

end SchipLegacy

/-! ## Cores with colours of their own -/

namespace Xochip

/-- The instructions that take a random number. -/
def Instruction.draws : Instruction → Bool
  | .common i => i.draws
  | _ => false

/-- Planes, palettes and register ranges do not ask the generator. -/
theorem ignoresRng : IgnoresRng virtuals Instruction.draws where
  enterLoop := fun _ _ => rfl
  decode := fun _ _ _ => rfl
  execute := fun r i s h => by
    cases i with
    | common i => exact congrArg some (executeCommon_withRng (config s) r h s)
    | i00CN N =>
        dsimp only [virtuals, execute, instruction00CN]
        split <;> rfl
    | i00DN N =>
        dsimp only [virtuals, execute, instruction00DN]
        split <;> rfl
    | i5xy3 X Y =>
        exact congrArg (fun c => some ({ s with toCpu := c } : Xochip))
          (List.foldl_hom (Cpu.withRng r) (by exact fun _ _ => rfl))
    | iFN85 N => exact getPermaregs_withRng (N.val + 1) r s
    | _ => rfl
  pushAudioData := fun r input s =>
    Eq.symm (show withRng r (pushAudioData input s) = _ from apply_ite (withRng r) _ _ _)
  pushVideoData := fun _ _ => rfl
  resetSystemData := fun _ _ => rfl

/-- No opcode of the first branch draws. -/
theorem draws_decode0 {op : Opcode} : (decode0 op).draws = false := by
  unfold decode0
  split
  case h_8 =>
    split
    · rfl
    · split <;> rfl
  all_goals rfl

/-- Nor does one of the branch 5. -/
theorem draws_decode5 {op : Opcode} : (decode5 op).draws = false := by
  unfold decode5
  split <;> rfl

/-- No opcode of the branch F draws that is not F000 or F002. -/
theorem draws_decodeFx {op : Opcode} : (decodeFx op).draws = false := by
  unfold decodeFx
  split
  case h_8 => exact Common.draws_decodeF
  all_goals rfl

/-- Nor do these two. -/
theorem draws_decodeF {op : Opcode} : (decodeF op).draws = false := by
  unfold decodeF
  split
  · rfl
  · split
    · rfl
    · exact draws_decodeFx

/-- So what draws comes from the branch C. -/
theorem branch_of_draws {op : Opcode} (h : (decode op).draws = true) :
    op.branch.val = 0xC := by
  unfold decode at h
  split at h
  case h_1 =>
    split at h
    · exact absurd h (Bool.eq_false_iff.1 draws_decode0)
    · cases h
  case h_2 => exact absurd h (Bool.eq_false_iff.1 draws_decode5)
  case h_5 => exact absurd h (Bool.eq_false_iff.1 Common.draws_decodeE)
  case h_6 => exact absurd h (Bool.eq_false_iff.1 draws_decodeF)
  case h_7 => exact Common.branch_of_draws_decode h
  all_goals cases h

/-- And the branch C is CxNN, with the register and the mask of the opcode. -/
theorem decode_of_branch {op : Opcode} (h : op.branch.val = 0xC) :
    decode op = .common (.iCxNN op.X op.LO) := by
  simp only [decode, h, Common.decode_of_branch h]

/-- The decoder and the steps around it, for the run of draws. -/
theorem drawsInOrder : DrawsInOrder virtuals Instruction.draws where
  toIgnoresRng := ignoresRng
  branch := fun _ _ => branch_of_draws
  draws := fun _ _ h => congrArg Instruction.draws (decode_of_branch h)
  draw := fun _ _ h t => congrArg (fun i => execute i t) (decode_of_branch h)

end Xochip

namespace Megachip

/-- The instructions that take a random number. -/
def Instruction.draws : Instruction → Bool
  | .common i => i.draws
  | _ => false

/-- A scroll, in either mode. -/
theorem scroll_withRng (cols rows : Int) (r : Well512) (s : Megachip) :
    scroll cols rows (s.withRng r) = (scroll cols rows s).withRng r :=
  Eq.symm (show withRng r (scroll cols rows s) = _ from apply_ite (withRng r) _ _ _)

/-- The texels of a row: by induction on the columns left. -/
theorem paintRow_withRng (r : Well512) (s : Megachip) (wrap : Bool) (data : Nat → UInt8)
    (y n col x : Nat) (p : Paint) :
    paintRow (s.withRng r) wrap data y n col x p = paintRow s wrap data y n col x p := by
  induction n generalizing col x p with
  | zero => rfl
  | succ n ih =>
      simp only [paintRow, ih]
      rfl

/-- The rows of a texture: by induction on the rows left. -/
theorem paintRows_withRng (r : Well512) (s : Megachip) (wrap : Bool) (xBegin n row y : Nat)
    (p : Paint) :
    paintRows (s.withRng r) wrap xBegin n row y p = paintRows s wrap xBegin n row y p := by
  induction n generalizing row y p with
  | zero => rfl
  | succ n ih =>
      simp only [paintRows, paintRow_withRng, ih]
      rfl

/-- A texture is drawn alike under any generator. -/
theorem drawTexture_withRng (r : Well512) (s : Megachip) (xBegin yBegin : Nat) :
    drawTexture (s.withRng r) xBegin yBegin = (drawTexture s xBegin yBegin).withRng r := by
  unfold drawTexture
  rw [paintRows_withRng]
  exact Eq.symm (apply_ite (withRng r) _ _ _)

/-- The rows of a glyph: by induction on the rows left. -/
theorem fontRows_withRng (r : Well512) (s : Megachip) (wrap : Bool) (xBegin n row y : Nat)
    (m : Map2D RGBA) :
    fontRows (s.withRng r) wrap xBegin n row y m = fontRows s wrap xBegin n row y m := by
  induction n generalizing row y m with
  | zero => rfl
  | succ n ih =>
      simp only [fontRows, ih]
      rfl

/-- What `DxyN` draws in mega mode, glyph or texture. -/
theorem drawMega_withRng (X Y N : Fin 16) (r : Well512) (s : Megachip) :
    drawMega (s.withRng r) X Y N = (drawMega s X Y N).withRng r := by
  have hstart : (s.withRng r).onCpu (·.setV 0xF 0) = (s.onCpu (·.setV 0xF 0)).withRng r := rfl
  have hregs : (s.withRng r).registersV = s.registersV := rfl
  have hquirk (t : Megachip) : (t.withRng r).hasQuirk .wrapSprites = t.hasQuirk .wrapSprites := rfl
  have hfont (t : Megachip) : ((t.withRng r).own.texture.fontPos = (t.withRng r).registerI) =
      (t.own.texture.fontPos = t.registerI) := rfl
  unfold drawMega
  dsimp only
  simp only [hstart, hregs, hquirk, hfont, drawTexture_withRng, fontRows_withRng]
  split
  · rfl
  · split <;> rfl

/-- Textures, glyphs and tracks do not ask the generator. -/
theorem ignoresRng : IgnoresRng virtuals Instruction.draws where
  enterLoop := fun _ _ => rfl
  decode := fun _ _ _ => rfl
  execute := fun r i s h => by
    cases i with
    | common i => exact congrArg some (executeCommon_withRng (config s) r h s)
    | i00BN | i00CN | i00FB | i00FC => exact congrArg some (scroll_withRng _ _ r s)
    | i00E0 =>
        exact congrArg (fun t => some (triggerFrame t)) (Eq.symm (apply_ite (withRng r)
          (s.trait.useManualVsync = true) (flushAllVideoBuffers true s) (onDisplay (·.fill 0) s)))
    | i060N N =>
        exact congrArg some (Eq.symm (show withRng r (startAudioTrack (N = 0) s) = _ from
          apply_ite (withRng r) _ _ _))
    | iDxyN X Y N =>
        have htrait : (s.withRng r).trait = s.trait := rfl
        dsimp only [virtuals, execute, instructionDxyN]
        rw [htrait, drawMega_withRng]
        split <;> rfl
    | iFN85 N => exact getPermaregs_withRng (min N.val 7 + 1) r s
    | _ => rfl
  pushAudioData := fun r input s => by
    have htrait : (s.withRng r).trait = s.trait := rfl
    have hcached : (s.withRng r).cachedSystemState = s.cachedSystemState := rfl
    have hwave : makeStreamWave input (s.withRng r) = (makeStreamWave input s).withRng r :=
      Eq.symm (show withRng r (makeStreamWave input s) = _ from apply_ite (withRng r) _ _ _)
    have hstream : mixAudioData (makeStreamWave input) (s.withRng r) =
        (mixAudioData (makeStreamWave input) s).withRng r := by
      unfold mixAudioData
      rw [hwave, hcached, apply_ite (withRng r)]
      rfl
    dsimp only [virtuals, pushAudioData]
    rw [htrait, hcached, hstream]
    split
    · exact Eq.symm (apply_ite (withRng r) _ _ _)
    · exact Eq.symm (apply_ite (withRng r) _ _ _)
  pushVideoData := fun r s => by
    have htrait : (s.withRng r).trait = s.trait := rfl
    have hshow : showDisplay (s.withRng r) = (showDisplay s).withRng r := rfl
    dsimp only [virtuals, pushVideoData]
    rw [htrait, hshow]
    split
    · exact Eq.symm (apply_ite (withRng r) (s.interrupt = .input) s s)
    · rfl
  resetSystemData := fun _ _ => rfl

/-- Of the mega opcodes, those with an argument in their last digits do not draw. -/
theorem draws_decodeMegaX {op : Opcode} : (decodeMegaX op).draws = false := by
  unfold decodeMegaX
  split <;> rfl

/-- Nor do the others. -/
theorem draws_decodeMega {op : Opcode} : (decodeMega op).draws = false := by
  unfold decodeMega
  split
  case h_8 =>
    repeat' split
    case isFalse => exact draws_decodeMegaX
    all_goals rfl
  all_goals rfl

/-- No opcode of the first branch draws. -/
theorem draws_decode0 {op : Opcode} : (decode0 op).draws = false := by
  unfold decode0
  split
  · rfl
  · split
    case h_9 =>
      split
      · rfl
      · split <;> rfl
    all_goals rfl

/-- Nor does one of the branch F. -/
theorem draws_decodeF {op : Opcode} : (decodeF op).draws = false := by
  unfold decodeF
  split
  case h_6 => exact Common.draws_decodeF
  all_goals rfl

/-- So what draws comes from the branch C. -/
theorem branch_of_draws {s : Megachip} {op : Opcode} (h : (decode s op).draws = true) :
    op.branch.val = 0xC := by
  unfold decode at h
  split at h
  case h_1 =>
    split at h
    · exact absurd h (Bool.eq_false_iff.1 draws_decodeMega)
    · exact absurd h (Bool.eq_false_iff.1 draws_decode0)
  case h_2 => exact absurd h (Bool.eq_false_iff.1 Common.draws_decode5)
  case h_5 => exact absurd h (Bool.eq_false_iff.1 Common.draws_decodeE)
  case h_6 => exact absurd h (Bool.eq_false_iff.1 draws_decodeF)
  case h_7 => exact Common.branch_of_draws_decode h
  all_goals cases h

/-- And the branch C is CxNN, with the register and the mask of the opcode. -/
theorem decode_of_branch {s : Megachip} {op : Opcode} (h : op.branch.val = 0xC) :
    decode s op = .common (.iCxNN op.X op.LO) := by
  simp only [decode, h, Common.decode_of_branch h]

/-- The decoder and the steps around it, for the run of draws. -/
theorem drawsInOrder : DrawsInOrder virtuals Instruction.draws where
  toIgnoresRng := ignoresRng
  branch := fun _ _ => branch_of_draws
  draws := fun _ _ h => congrArg Instruction.draws (decode_of_branch h)
  draw := fun _ _ h t => congrArg (fun i => execute i t) (decode_of_branch h)

end Megachip

/-! ## The family -/

namespace FamilyCore

/-- The instructions of a core that take a random number: CxNN. -/
def draws : (core : FamilyCore) → core.Instruction → Bool
  | .chip8E => Chip8E.Instruction.draws
  | .chip8X => Chip8X.Instruction.draws
  | .chip8Modern => Chip8Modern.Instruction.draws
  | .megachip => Megachip.Instruction.draws
  | .schipLegacy => SchipLegacy.Instruction.draws
  | .schipModern => SchipModern.Instruction.draws
  | .xochip => Xochip.Instruction.draws

/-- What `DrawsInOrder` asks holds of each member of the family. -/
theorem drawsInOrder (core : FamilyCore) : DrawsInOrder core.virtuals core.draws := by
  cases core with
  | chip8E => exact Chip8E.drawsInOrder
  | chip8X => exact Chip8X.drawsInOrder
  | chip8Modern => exact Chip8Modern.drawsInOrder
  | megachip => exact Megachip.drawsInOrder
  | schipLegacy => exact SchipLegacy.drawsInOrder
  | schipModern => exact SchipModern.drawsInOrder
  | xochip => exact Xochip.drawsInOrder

end FamilyCore

/-- **A program that never executes CxNN** runs the same on a core with another generator, state
by state but for the generator, and leaves the generator as it is: under the same keys, settings
changed in the GUI, files and resets. -/
theorem seedless_run (core : FamilyCore) (s : Core core.bits core.Own) (events : List Event)
    (hdraws : ∀ u ∈ instructionStarts core.virtuals s events,
      core.draws (current core.virtuals u) = false) :
    (∀ r, Runs.run (step core.virtuals) (s.withRng r) events =
        (Runs.run (step core.virtuals) s events).map (withRng r) ∧
      instructionStarts core.virtuals (s.withRng r) events =
        (instructionStarts core.virtuals s events).map (withRng r)) ∧
    ∀ t, Runs.run (step core.virtuals) s events = some t → t.rng = s.rng := by
  refine ⟨fun r => core.drawsInOrder.toIgnoresRng.run r s events hdraws, fun t ht => ?_⟩
  have hsame := (core.drawsInOrder.toIgnoresRng.run s.rng s events hdraws).1
  rw [show s.withRng s.rng = s from rfl, ht] at hsame
  exact congrArg (·.rng) (Option.some.inj hsame)

/-- A jump to itself takes no random number, and neither does the reset after it. -/
theorem seedless_run_jump :
    let s := Chip8Modern.boot (Launch.ofProgram [0x12, 0x00])
    (∀ r, Runs.run (step Chip8Modern.virtuals) (s.withRng r) [.idle, .reset] =
        (Runs.run (step Chip8Modern.virtuals) s [.idle, .reset]).map (withRng r) ∧
      instructionStarts Chip8Modern.virtuals (s.withRng r) [.idle, .reset] =
        (instructionStarts Chip8Modern.virtuals s [.idle, .reset]).map (withRng r)) ∧
    ∀ t, Runs.run (step Chip8Modern.virtuals) s [.idle, .reset] = some t → t.rng = s.rng :=
  seedless_run .chip8Modern _ [.idle, .reset] (by decide +kernel)

/-! ## Programs that do -/

namespace FamilyCore

/-- The states in which a run executes CxNN, in their order: PC is at an opcode of branch C. -/
def drawing (core : FamilyCore) (s : Core core.bits core.Own) (events : List Event) :
    List (Core core.bits core.Own) :=
  (instructionStarts core.virtuals s events).filter fun u => u.fetch.1.branch.val = 0xC

end FamilyCore

/-- What the instructions of a run take from the generator, and where CxNN puts it: in the register
its opcode names, under the mask that is the opcode's second byte. -/
structure DrawnInOrder (core : FamilyCore) (s s' : Core core.bits core.Own)
    (events : List Event) : Prop where
  rng : s'.rng = s.rng.advance (core.drawing s events).length
  numbers : (core.drawing s events).map (fun u => u.rng.next.1) =
    (List.range (core.drawing s events).length).map fun k => (s.rng.advance k).next.1
  used : ∀ u ∈ core.drawing s events, cycle core.virtuals u =
    some (u.fetch.2.onCpu fun c => { c with
      registersV := Function.update c.registersV u.fetch.1.X
        (u.rng.next.1 &&& u.fetch.1.LO.toUInt32).toUInt8
      rng := u.rng.next.2 })

/-- **Random numbers are taken in their order.** In every run the `k`-th CxNN executed takes the
`k`-th number of the generator the run began with, through resets and BENCH frames, and nothing
else takes one. -/
theorem randoms_run (core : FamilyCore) (s s' : Core core.bits core.Own) (events : List Event)
    (hrun : Runs.run (step core.virtuals) s events = some s') : DrawnInOrder core s s' events := by
  obtain ⟨hrng, hdrawn⟩ := (core.drawsInOrder.run hrun).iterate (f := fun g : Well512 => g.next.2)
    (p := fun u => core.draws (current core.virtuals u)) fun _ => rfl
  rw [List.filter_congr fun u _ => core.drawsInOrder.draws_current u] at hrng hdrawn
  refine ⟨hrng.trans (Well512.iterate_next _ _), ?_, fun u hu => ?_⟩
  · have hnumbers := congrArg (List.map fun g : Well512 => g.next.1) hdrawn
    rw [List.map_map, List.map_map] at hnumbers
    simp only [Function.comp_def, Well512.iterate_next] at hnumbers
    exact hnumbers
  · exact core.drawsInOrder.cycle_of_branch (of_decide_eq_true (List.mem_filter.1 hu).2)

/-- A program that takes numbers up to 3F into V5 again and again, with a reset between two
frames. -/
theorem randoms_run_jump : ∃ s',
    Runs.run (step Chip8Modern.virtuals)
      (Chip8Modern.boot (Launch.ofProgram [0xC5, 0x3F, 0x12, 0x00]))
      [.idle, .gui .requestInstanceReset, .reset, .idle] = some s' ∧
    DrawnInOrder .chip8Modern (Chip8Modern.boot (Launch.ofProgram [0xC5, 0x3F, 0x12, 0x00])) s'
      [.idle, .gui .requestInstanceReset, .reset, .idle] := by
  have hrun : (Runs.run (step Chip8Modern.virtuals)
      (Chip8Modern.boot (Launch.ofProgram [0xC5, 0x3F, 0x12, 0x00]))
      [.idle, .gui .requestInstanceReset, .reset, .idle]).isSome = true := by decide +kernel
  obtain ⟨s', hs'⟩ := Option.isSome_iff_exists.1 hrun
  exact ⟨s', hs', randoms_run .chip8Modern _ s' _ hs'⟩

end CubeChip
