import CubeChip.Systems.Chip8.SideBySide
import CubeChip.Systems.Chip8.Cores.Chip8Modern

/-!
# `CHIP8_MODERN`: mirrored addresses

The memory masks every index, but PC, I and the stack hold 32 bits: they leave the memory and are
never brought back. Here the core is compared with one that takes them mod 4096 after every
instruction. Reading, writing, skipping and returning do not tell the two apart. A jump does: the
test that ends a program by its last jump compares PCs and not places in memory.
-/

namespace CubeChip.Chip8Modern

open CubeChip.Core

/-! ## The reduced core -/

/-- PC, I and the return addresses mod 4096. -/
def reduceAddresses (c : Cpu) : Cpu :=
  { c with
    currentPc := c.currentPc % 4096
    registerI := c.registerI % 4096
    stack := ⟨c.stack.head, fun slot => c.stack.data slot % 4096⟩ }

/-- The core with its addresses reduced. -/
def reduced (s : Chip8Modern) : Chip8Modern := s.onCpu reduceAddresses

/-- The core whose addresses are reduced after every instruction. -/
def reducedVirtuals : Virtuals 12 Members Instruction :=
  { virtuals with execute := fun i s => (execute i s).map reduced }

/-! ## Addresses -/

/-- Reducing twice is reducing once. -/
theorem mod_mod (x : UInt32) : x % 4096 % 4096 = x % 4096 := by
  refine UInt32.toNat.inj ?_
  simp only [UInt32.toNat_mod, UInt32.reduceToNat]
  omega

/-- A sum may be reduced before or after. -/
theorem mod_add_mod (x y : UInt32) : (x % 4096 + y) % 4096 = (x + y) % 4096 := by
  refine UInt32.toNat.inj ?_
  simp only [UInt32.toNat_mod, UInt32.toNat_add, UInt32.reduceToNat]
  omega

/-- Two addresses of one reduced address are one cell. -/
theorem mask_of_mod_eq {x y : UInt32} (h : x % 4096 = y % 4096) :
    MirroredMemory.mask 12 x = MirroredMemory.mask 12 y := by
  have h : x.toNat % 4096 = y.toNat % 4096 := by
    have := congrArg UInt32.toNat h
    simpa only [UInt32.toNat_mod, UInt32.reduceToNat] using this
  refine BitVec.eq_of_toNat_eq ?_
  simpa only [MirroredMemory.mask, BitVec.toNat_setWidth, UInt32.toNat_toBitVec] using h

/-- A read at an offset from a reduced address. -/
theorem get_mod_add (m : MirroredMemory 12) (x y : UInt32) : m.get (x % 4096 + y) = m.get (x + y) :=
  congrArg m.mem (mask_of_mod_eq (mod_add_mod x y))

/-- A read at a reduced address. -/
theorem get_mod (m : MirroredMemory 12) (x : UInt32) : m.get (x % 4096) = m.get x :=
  congrArg m.mem (mask_of_mod_eq (mod_mod x))

/-- A write at an offset from a reduced address. -/
theorem set_mod_add (m : MirroredMemory 12) (x y : UInt32) (value : UInt8) :
    m.set (x % 4096 + y) value = m.set (x + y) value := by
  unfold MirroredMemory.set
  rw [mask_of_mod_eq (mod_add_mod x y)]

/-! ## What does not see the difference -/

/-- Reducing first makes no difference. -/
def Transparent (f : Chip8Modern → Chip8Modern) : Prop :=
  ∀ s, reduced (f (reduced s)) = reduced (f s)

/-- Reducing twice is reducing once. -/
theorem reduced_reduced (s : Chip8Modern) : reduced (reduced s) = reduced s := by
  unfold reduced onCpu reduceAddresses
  simp only [mod_mod]

/-- So it is with all that works beside the addresses. -/
theorem Transparent.of_commutes {f : Chip8Modern → Chip8Modern}
    (hf : ∀ s, f (reduced s) = reduced (f s)) : Transparent f := fun s => by
  rw [hf, reduced_reduced]

/-- Then two states alike but for the addresses stay so. -/
theorem Transparent.alike {f : Chip8Modern → Chip8Modern} (hf : Transparent f)
    {x y : Chip8Modern} (hxy : reduced x = reduced y) : reduced (f x) = reduced (f y) :=
  (hf x).symm.trans ((congrArg (reduced ∘ f) hxy).trans (hf y))

/-- A skip, if what it asks does not depend on the addresses. -/
theorem transparent_skipIf (cond : Chip8Modern → Bool) (width : UInt32)
    (hcond : ∀ s, cond (reduced s) = cond s) :
    Transparent fun s => s.onCpu (.skipIf (cond s) width) := fun s => by
  dsimp only
  rw [hcond]
  cases cond s with
  | false => exact reduced_reduced s
  | true =>
      unfold reduced onCpu reduceAddresses Cpu.skipIf
      simp only [mod_mod, mod_add_mod, if_true]

/-- `ANNN` sets I to an address below 4096. -/
theorem transparent_ANNN (NNN : UInt32) : Transparent fun s => s.onCpu (.instructionANNN NNN) :=
  fun s => by
  unfold reduced onCpu reduceAddresses Cpu.instructionANNN
  simp only [mod_mod]

/-- `Fx29` sets I to the font. -/
theorem transparent_Fx29 (X : Fin 16) : Transparent fun s => s.onCpu (.instructionFx29 X) :=
  fun s => by
  unfold reduced onCpu reduceAddresses Cpu.instructionFx29
  simp only [mod_mod]

/-- I advanced by what does not depend on the addresses. -/
theorem transparent_advanceI (f : Chip8Modern → UInt32) (hf : ∀ s, f (reduced s) = f s) :
    Transparent fun s => s.onCpu (.advanceI (f s)) := fun s => by
  dsimp only
  rw [hf]
  unfold reduced onCpu reduceAddresses Cpu.advanceI
  simp only [mod_mod, mod_add_mod]

/-- A return takes the address on the stack. -/
theorem transparent_00EE : Transparent fun s => s.onCpu .instruction00EE := fun s => by
  unfold reduced onCpu reduceAddresses Cpu.instruction00EE Stack.pop
  simp only [mod_mod]

/-- One after the other. -/
theorem Transparent.comp {f g : Chip8Modern → Chip8Modern} (hf : Transparent f)
    (hg : Transparent g) : Transparent (g ∘ f) := fun s => hg.alike (hf s)

/-! ## Memory -/

/-- `Fx33` writes at offsets from I. -/
theorem instructionFx33_reduced (X : Fin 16) (s : Chip8Modern) :
    (reduced s).instructionFx33 X = reduced (s.instructionFx33 X) := by
  unfold Core.instructionFx33 Cpu.instructionFx33 reduced onCpu reduceAddresses
  simp only [set_mod_add]

/-- `Fx55` writes at offsets from I. -/
theorem storeRegisters_reduced (N : Fin 16) (c : Cpu) (m : MirroredMemory 12) :
    (reduceAddresses c).storeRegisters N m = c.storeRegisters N m := by
  unfold Cpu.storeRegisters reduceAddresses
  simp only [set_mod_add]

/-- `Fx65` reads at offsets from I. -/
theorem loadRegisters_reduced (N : Fin 16) (m : MirroredMemory 12) (c : Cpu) :
    (reduceAddresses c).loadRegisters N m = reduceAddresses (c.loadRegisters N m) := by
  unfold Cpu.loadRegisters
  refine List.foldl_hom reduceAddresses fun c i => ?_
  unfold reduceAddresses Cpu.setV
  simp only [get_mod_add]

/-- FN55 is a store and a step of I. -/
theorem transparent_FN55 (N : Fin 16) :
    Transparent fun s => s.instructionFN55 ((config s).indexOffset N) N := by
  have hstore : Transparent fun s => { s with memory := s.storeRegisters N s.memory } :=
    .of_commutes fun s => by
      have hmem : (reduced s).storeRegisters N (reduced s).memory =
        s.storeRegisters N s.memory := storeRegisters_reduced N s.toCpu s.memory
      rw [hmem]
      rfl
  exact hstore.comp (transparent_advanceI (fun s => (config s).indexOffset N) fun _ => rfl)

/-- FN65 is a load and a step of I. -/
theorem transparent_FN65 (N : Fin 16) :
    Transparent fun s => s.instructionFN65 ((config s).indexOffset N) N := by
  have hload : Transparent fun s => { s with toCpu := s.toCpu.loadRegisters N s.memory } :=
    .of_commutes fun s => by
      have hcpu : (reduced s).toCpu.loadRegisters N (reduced s).memory =
        reduceAddresses (s.toCpu.loadRegisters N s.memory) :=
          loadRegisters_reduced N s.memory s.toCpu
      rw [hcpu]
      rfl
  exact hload.comp (transparent_advanceI (fun s => (config s).indexOffset N) fun _ => rfl)

/-! ## Drawing -/

/-- A sprite is read at offsets from I. -/
theorem spriteByte_reduced (s : Chip8Modern) : spriteByte (reduced s) = spriteByte s :=
  funext fun offset => get_mod_add s.memory s.registerI (UInt32.ofNat offset)

/-- So it is the same sprite. -/
theorem drawSprite_reduced (s : Chip8Modern) : drawSprite (reduced s) = drawSprite s := by
  have hbyte : drawByte (reduced s) = drawByte s := rfl
  have hquirk : (reduced s).hasQuirk .wrapSprites = s.hasQuirk .wrapSprites := rfl
  funext N pX pY c
  unfold drawSprite
  rw [hbyte, spriteByte_reduced, hquirk]

/-- And the same display. -/
theorem instructionDxyN_reduced (X Y N : Fin 16) (s : Chip8Modern) :
    instructionDxyN (reduced s) X Y N = reduced (instructionDxyN s X Y N) := by
  unfold instructionDxyN
  rw [drawSprite_reduced]
  rfl

/-! ## Jumps -/

/-- The address an instruction jumps to, if it is a jump. -/
def jumpTarget : Instruction → Registers16 → Option UInt32
  | .common (.i1NNN NNN), _ => some NNN
  | .common (.i2NNN NNN), _ => some NNN
  | .common (.iBXNN X NNN), V => some (NNN + (V X).toUInt32)
  | _, _ => none

/-- A slot of the stack written, then all reduced. -/
theorem update_mod (data : Fin 16 → UInt32) (i : Fin 16) (value : UInt32) :
    (fun slot => Function.update (fun slot => data slot % 4096) i (value % 4096) slot % 4096) =
      fun slot => Function.update data i value slot % 4096 := by
  funext slot
  rcases eq_or_ne slot i with rfl | hne
  · rw [Function.update_self, Function.update_self, mod_mod]
  · rw [Function.update_of_ne hne, Function.update_of_ne hne, mod_mod]

/-- The call of 2NNN, before its jump. -/
theorem transparent_push : Transparent fun s => s.onCpu fun c =>
    { c with stack := c.stack.push c.currentPc } := fun s => by
  unfold reduced onCpu reduceAddresses Stack.push
  simp only [mod_mod, update_mod]

/-- Alike but for the addresses, two states stay alike by a jump that is to the jump itself on
both sides or on neither. -/
theorem reduced_jumpProgramTo {x y : Chip8Modern} (hxy : reduced x = reduced y) (next : UInt32)
    (hnext : next = x.currentPc - 2 ↔ next = y.currentPc - 2) :
    reduced (x.onCpu (.jumpProgramTo next)) = reduced (y.onCpu (.jumpProgramTo next)) := by
  have hland (stops : Bool) : Transparent fun s => s.onCpu fun c => { c with
      currentPc := next
      interrupt := if stops then .sound else c.interrupt } := fun s => by
    unfold reduced onCpu reduceAddresses
    simp only [mod_mod]
  have heq (s : Chip8Modern) : s.onCpu (.jumpProgramTo next) = s.onCpu fun c => { c with
      currentPc := next
      interrupt := if decide (next = s.currentPc - 2) then .sound else c.interrupt } := by
    simp only [decide_eq_true_eq]
    rfl
  rw [heq, heq, decide_eq_decide.2 hnext]
  exact (hland _).alike hxy

/-- A change of the processor that reducing does not see. -/
theorem onCpu_reduced {f : Cpu → Cpu} (hf : ∀ c, f (reduceAddresses c) = reduceAddresses (f c))
    (s : Chip8Modern) : (reduced s).onCpu f = reduced (s.onCpu f) :=
  congrArg (fun c => ({ s with toCpu := c } : Chip8Modern)) (hf s.toCpu)

/-- What a quirk changes beside the addresses. -/
theorem transparent_quirked (flag : QuirkFlag) (f : Bool → Cpu → Cpu)
    (hf : ∀ quirk c, f quirk (reduceAddresses c) = reduceAddresses (f quirk c)) :
    Transparent fun s => s.onCpu (f (s.hasQuirk flag)) :=
  .of_commutes fun s => onCpu_reduced (hf (s.hasQuirk flag)) s

/-- **An instruction does not tell states apart that are alike but for the addresses**, if it is
not a jump to itself on one side only. -/
theorem execute_alike (i : Instruction) {x y : Chip8Modern} (hxy : reduced x = reduced y)
    (hjump : ∀ next ∈ jumpTarget i x.registersV,
      (next = x.currentPc - 2 ↔ next = y.currentPc - 2)) :
    (execute i x).map reduced = (execute i y).map reduced := by
  have halike {f : Chip8Modern → Chip8Modern} (hf : Transparent f) :
      (some (f x)).map reduced = (some (f y)).map reduced := congrArg some (hf.alike hxy)
  cases i with
  | i00E0 => exact halike (f := instruction00E0) (.of_commutes fun _ => rfl)
  | iDxyN X Y N =>
      exact halike (f := fun s => instructionDxyN s X Y N)
        (.of_commutes (instructionDxyN_reduced X Y N))
  | iFx18 X =>
      exact halike (f := fun s => s.onCpu (.startVoice (s.soundDuration X)))
        (.of_commutes fun _ => rfl)
  | iFx29 X => exact halike (transparent_Fx29 X)
  | skipped => exact congrArg some hxy
  | common i =>
    cases i with
    | i00EE => exact halike transparent_00EE
    | i1NNN NNN => exact congrArg some (reduced_jumpProgramTo hxy NNN (hjump NNN rfl))
    | i2NNN NNN =>
      exact congrArg some (reduced_jumpProgramTo (transparent_push.alike hxy) NNN (hjump NNN rfl))
    | iBXNN X NNN =>
      have hV : x.registersV X = y.registersV X := congrArg (·.registersV X) hxy
      have hy : execute (.common (.iBXNN X NNN)) y =
          some (y.onCpu (.jumpProgramTo (NNN + (x.registersV X).toUInt32))) := by
        rw [hV]
        rfl
      rw [hy]
      exact congrArg some (reduced_jumpProgramTo hxy _ (hjump _ rfl))
    | i3xNN X NN => exact halike (transparent_skipIf (fun s => s.registersV X = NN) 2 fun _ => rfl)
    | i4xNN X NN => exact halike (transparent_skipIf (fun s => s.registersV X ≠ NN) 2 fun _ => rfl)
    | i5xy0 X Y =>
      exact halike (transparent_skipIf (fun s => s.registersV X = s.registersV Y) 2 fun _ => rfl)
    | i9xy0 X Y =>
      exact halike (transparent_skipIf (fun s => s.registersV X ≠ s.registersV Y) 2 fun _ => rfl)
    | iEx9E X =>
      exact halike (transparent_skipIf (fun s => s.keypad.isKeyHeldP1 (s.registersV X)) 2
        fun _ => rfl)
    | iExA1 X =>
      exact halike (transparent_skipIf (fun s => !s.keypad.isKeyHeldP1 (s.registersV X)) 2
        fun _ => rfl)
    | iANNN NNN => exact halike (transparent_ANNN NNN)
    | iFx1E X =>
      exact halike (transparent_advanceI (fun s => (s.registersV X).toUInt32) fun _ => rfl)
    | iFx33 X => exact halike (.of_commutes (instructionFx33_reduced X))
    | iFN55 N => exact halike (transparent_FN55 N)
    | iFN65 N => exact halike (transparent_FN65 N)
    | i8xy1 X Y =>
      exact halike (transparent_quirked .resetVfReg (.instruction8xy1 · X Y)
        fun quirk _ => by cases quirk <;> rfl)
    | i8xy2 X Y =>
      exact halike (transparent_quirked .resetVfReg (.instruction8xy2 · X Y)
        fun quirk _ => by cases quirk <;> rfl)
    | i8xy3 X Y =>
      exact halike (transparent_quirked .resetVfReg (.instruction8xy3 · X Y)
        fun quirk _ => by cases quirk <;> rfl)
    | i8xy6 X Y =>
      exact halike (transparent_quirked .shiftVxReg (.instruction8xy6 · X Y)
        fun quirk _ => by cases quirk <;> rfl)
    | i8xyE X Y =>
      exact halike (transparent_quirked .shiftVxReg (.instruction8xyE · X Y)
        fun quirk _ => by cases quirk <;> rfl)
    | _ => exact halike (f := fun s => s.executeCommon (config s) _) (.of_commutes fun _ => rfl)

/-- What a jump does to the interrupt. -/
theorem interrupt_of_jumpTarget {i : Instruction} {x : Chip8Modern} {next : UInt32}
    (h : next ∈ jumpTarget i x.registersV) : (execute i x).map (·.interrupt) =
      some (if next = x.currentPc - 2 then .sound else x.interrupt) := by
  cases i with
  | common i =>
    cases i with
    | i1NNN NNN | i2NNN NNN | iBXNN X NNN => cases h; rfl
    | _ => exact nomatch h
  | _ => exact nomatch h

/-! ## One instruction -/

/-- The opcode at PC is the one at the reduced address. -/
theorem fetch_reduced (s : Chip8Modern) : (reduced s).fetch.1 = s.fetch.1 ∧
    reduced (reduced s).fetch.2 = reduced s.fetch.2 := by
  have hopcode : (reduced s).fetch.1 = ⟨s.memory.get (s.currentPc % 4096),
    s.memory.get (s.currentPc % 4096 + 1)⟩ := rfl
  constructor
  · rw [hopcode, get_mod, get_mod_add]
    rfl
  · unfold fetch reduced onCpu reduceAddresses
    simp only [mod_mod, mod_add_mod, UInt32.add_assoc]

/-- So the next instruction is the same. -/
theorem current_reduced (s : Chip8Modern) : current virtuals (reduced s) = current virtuals s :=
  congrArg decode (fetch_reduced s).1

/-- If the instruction at `s` is a jump from beyond the memory, it is neither to its own PC nor
to its own PC mod 4096. -/
def StopsAlike (s : Chip8Modern) : Prop :=
  ∀ next ∈ jumpTarget (current virtuals s) s.registersV, 4096 ≤ s.currentPc →
    next ≠ s.currentPc ∧ next ≠ s.currentPc % 4096

/-- Both cores then take it for a jump to itself, or neither does. -/
theorem stopsAlike_iff {s : Chip8Modern} : StopsAlike s ↔
    ∀ next ∈ jumpTarget (current virtuals s) s.registersV,
      (next = s.currentPc ↔ next = s.currentPc % 4096) := by
  refine forall₂_congr fun next _ => ?_
  rcases Nat.lt_or_ge s.currentPc.toNat 4096 with hlt | hge
  · have hmod : s.currentPc % 4096 = s.currentPc := by
      refine UInt32.toNat.inj ?_
      simp only [UInt32.toNat_mod, UInt32.reduceToNat]
      omega
    have hle : ¬(4096 : UInt32) ≤ s.currentPc := UInt32.not_le.2 hlt
    rw [hmod]
    exact ⟨fun _ => Iff.rfl, fun _ h => absurd h hle⟩
  · have hle : (4096 : UInt32) ≤ s.currentPc := hge
    have hne : s.currentPc ≠ s.currentPc % 4096 := fun h => by
      have h := congrArg UInt32.toNat h
      simp only [UInt32.toNat_mod, UInt32.reduceToNat] at h
      omega
    constructor
    · intro h
      obtain ⟨h₁, h₂⟩ := h hle
      exact ⟨fun h => absurd h h₁, fun h => absurd h h₂⟩
    · intro h _
      exact ⟨fun h' => hne (h'.symm.trans (h.1 h')), fun h' => hne ((h.2 h').symm.trans h')⟩

/-- PC steps over an opcode byte by byte. -/
theorem add_two_sub_two (pc : UInt32) : pc + 1 + 1 - 2 = pc := by
  rw [UInt32.add_assoc]
  exact UInt32.add_sub_cancel pc 2

/-- **One instruction does the same to both cores precisely when it stops alike.** -/
theorem cycle_reduced_iff {s : Chip8Modern} (hgo : running s = true) :
    cycle reducedVirtuals (reduced s) = (cycle virtuals s).map reduced ↔ StopsAlike s := by
  have hreal : s.fetch.2.currentPc - 2 = s.currentPc := add_two_sub_two s.currentPc
  have hred : (reduced s).fetch.2.currentPc - 2 = s.currentPc % 4096 :=
    add_two_sub_two (s.currentPc % 4096)
  have hcycle : cycle reducedVirtuals (reduced s) =
      (execute (current virtuals s) (reduced s).fetch.2).map reduced := by
    rw [← current_reduced]
    rfl
  rw [hcycle, stopsAlike_iff]
  constructor
  · intro heq next hnext
    have hclear : s.interrupt = .clear := of_decide_eq_true hgo
    have hint := congrArg (Option.map fun s : Chip8Modern => s.interrupt) heq
    simp only [Option.map_map] at hint
    have hx := interrupt_of_jumpTarget (x := s.fetch.2) hnext
    have hy := interrupt_of_jumpTarget (x := (reduced s).fetch.2) hnext
    rw [hreal] at hx
    rw [hred] at hy
    have hint : some (if next = s.currentPc % 4096 then Interrupt.sound else s.interrupt) =
      some (if next = s.currentPc then Interrupt.sound else s.interrupt) :=
        hy.symm.trans (hint.trans hx)
    rw [hclear, Option.some_inj] at hint
    by_cases hself : next = s.currentPc <;> by_cases hmod : next = s.currentPc % 4096
    · exact ⟨fun _ => hmod, fun _ => hself⟩
    · rw [if_neg hmod, if_pos hself] at hint
      exact nomatch hint
    · rw [if_pos hmod, if_neg hself] at hint
      exact nomatch hint
    · exact ⟨fun h => absurd h hself, fun h => absurd h hmod⟩
  · intro hjump
    refine (execute_alike _ (fetch_reduced s).2.symm fun next hnext => ?_).symm
    rw [hreal, hred]
    exact hjump next hnext

/-! ## Runs -/

/-- `reduced`, of the base classes. -/
def reduceFamily (s : IFamily) : IFamily := { s with toCpu := reduceAddresses s.toCpu }

/-- A press that is caught writes a register. -/
theorem catchPress_reduced (frameCount : UInt32) (c : Cpu) :
    (reduceAddresses c).catchPress frameCount =
      ((c.catchPress frameCount).1, reduceAddresses (c.catchPress frameCount).2) := by
  have hkeypad : (reduceAddresses c).keypad = c.keypad := rfl
  unfold Cpu.catchPress
  rw [hkeypad]
  obtain ⟨pressed, keypad, written⟩ := c.keypad.catchPress frameCount
  cases written <;> rfl

/-- A frame ends alike. -/
theorem handlePostWorkInterrupts_reduceFamily (s : IFamily) :
    (reduceFamily s).handlePostWorkInterrupts = reduceFamily s.handlePostWorkInterrupts := by
  have hint : (reduceFamily s).interrupt = s.interrupt := rfl
  unfold IFamily.handlePostWorkInterrupts
  rw [hint]
  cases s.interrupt with
  | input =>
      have hcatch : (reduceFamily s).toCpu.catchPress (reduceFamily s).elapsedFrames =
        ((s.toCpu.catchPress s.elapsedFrames).1,
          reduceAddresses (s.toCpu.catchPress s.elapsedFrames).2) := catchPress_reduced ..
      dsimp only
      rw [hcatch]
      dsimp only
      split <;> rfl
  | _ => rfl

/-- A function of the base classes that works beside the addresses. -/
theorem onFamily_reduced {f : IFamily → IFamily}
    (hf : ∀ s, f (reduceFamily s) = reduceFamily (f s)) (s : Chip8Modern) :
    (reduced s).onFamily f = reduced (s.onFamily f) :=
  congrArg (fun F => ({ s with toIFamily := F } : Chip8Modern)) (hf s.toIFamily)

/-- A frame begins alike. -/
theorem prepareFrame_reduceFamily (keys : Scancode → Bool) (s : IFamily) :
    (reduceFamily s).prepareFrame keys = reduceFamily (s.prepareFrame keys) :=
  IFamily.handlePreWorkInterrupts_comm reduceFamily (fun _ => ⟨rfl, rfl, rfl⟩) (fun _ => rfl)
    (fun _ => rfl) (s.updateKeypadData keys).handleTimerTicks

/-- The sound does not ask for an address. -/
theorem pushAudioData_reduced (input : FrameInput) (s : Chip8Modern) :
    pushAudioData input (reduced s) = reduced (pushAudioData input s) := by
  have hcached : (reduced s).cachedSystemState = s.cachedSystemState := rfl
  unfold pushAudioData
  rw [hcached]
  split <;> rfl

/-- The reduced core is the reduction of the other one as long as the instructions stop alike. -/
theorem paired_reduced :
    Paired virtuals reducedVirtuals (fun s t => t = reduced s) StopsAlike (· = ·) where
  availQuirks := rfl
  slices := fun _ _ h => congrArg FrameInput.slices h
  books := by rintro s _ rfl; exact ⟨rfl, rfl⟩
  withBooks := by rintro b s _ rfl; rfl
  enterLoop := by rintro s _ rfl; exact ⟨rfl, rfl⟩
  cycle := by
    rintro s _ rfl hstops hgo
    rw [(cycle_reduced_iff hgo).2 hstops]
    cases cycle virtuals s with
    | none => exact .none
    | some s' => exact .some rfl
  prepareFrame := by
    rintro i _ s _ rfl rfl
    exact onFamily_reduced (prepareFrame_reduceFamily i.keys) s
  handlePostWorkInterrupts := by
    rintro s _ rfl
    exact onFamily_reduced handlePostWorkInterrupts_reduceFamily s
  pushAudioData := by rintro i _ s _ rfl rfl; exact pushAudioData_reduced i s
  pushVideoData := by rintro s _ rfl; rfl
  performInstanceReset := by rintro s _ rfl; rfl
  editMemory := by rintro address value s _ rfl; rfl

/-- The instructions of a run, each with the state it starts from and the one it leaves. -/
def instructionSteps (V : Virtuals 12 Members Instruction) (launch : Launch)
    (events : List Event) : List (Chip8Modern × Option Chip8Modern) :=
  (instructionStarts V (boot launch) events).map fun s => (s, cycle V s)

/-- A run of the reduced core, instruction after instruction, is the reduction of the run. -/
structure MirroredRun (launch : Launch) (events : List Event) : Prop where
  run : Runs.run (step reducedVirtuals) (boot launch) events =
    (Runs.run (step virtuals) (boot launch) events).map reduced
  steps : instructionSteps reducedVirtuals launch events =
    (instructionSteps virtuals launch events).map (Prod.map reduced (Option.map reduced))

/-- A boot has its addresses below 4096. -/
theorem reduced_boot (launch : Launch) : reduced (boot launch) = boot launch := rfl

/-- **Mirrored runs.** Whatever the program and its input, the core and the reduced one do the
same instruction after instruction precisely when no jump from beyond the memory is to its own PC
or to its own PC mod 4096. -/
theorem mirroredRun_iff (launch : Launch) (events : List Event) :
    MirroredRun launch events ↔
      ∀ s ∈ instructionStarts virtuals (boot launch) events, StopsAlike s := by
  constructor
  · intro h s hs
    have hmem : (reduced s, (cycle virtuals s).map reduced) ∈
        instructionSteps reducedVirtuals launch events := by
      rw [h.steps]
      exact List.mem_map.2 ⟨(s, cycle virtuals s), List.mem_map.2 ⟨s, hs, rfl⟩, rfl⟩
    obtain ⟨t, -, heq⟩ := List.mem_map.1 hmem
    obtain ⟨rfl, hcycle⟩ := Prod.mk.inj heq
    exact (cycle_reduced_iff (running_of_mem_instructionStarts hs)).1 hcycle
  · intro hstops
    obtain ⟨hrun, hstarts⟩ := paired_reduced.run
      (List.forall₂_same.2 fun e _ => SameEvent.refl (fun _ => rfl) e)
      (reduced_boot launch).symm hstops
    have hstarts : instructionStarts reducedVirtuals (boot launch) events =
        (instructionStarts virtuals (boot launch) events).map reduced := by
      have heq := List.forall₂_map_left_iff.2 (hstarts.imp fun _ _ h => h.symm)
      rw [List.forall₂_eq_eq_eq] at heq
      exact heq.symm
    constructor
    · have heq := hrun.map_eq (f := reduced) (g := id) fun _ _ h => h.symm
      rw [heq, Option.map_id_fun, id]
    · unfold instructionSteps
      rw [hstarts, List.map_map, List.map_map]
      refine List.map_congr_left fun s hs => ?_
      have hcycle := (cycle_reduced_iff (running_of_mem_instructionStarts hs)).2 (hstops s hs)
      exact congrArg (Prod.mk (reduced s)) hcycle

/-- The interrupts the instructions of a run leave. -/
def interrupts (V : Virtuals 12 Members Instruction) (launch : Launch) (events : List Event) :
    List (Option Interrupt) :=
  (instructionSteps V launch events).map fun x => x.2.map (·.interrupt)

/-- Two runs alike show the same interrupts. -/
theorem MirroredRun.interrupts_eq {launch : Launch} {events : List Event}
    (h : MirroredRun launch events) :
    interrupts reducedVirtuals launch events = interrupts virtuals launch events := by
  unfold interrupts
  rw [h.steps, List.map_map]
  refine List.map_congr_left fun ⟨_, left⟩ _ => ?_
  cases left <;> rfl

/-- Writes BFFF to address 0 and jumps to 0x1000, where that is a jump to itself. -/
def jumpBeyond : Launch := .ofProgram
  [0x60, 0xBF, 0x61, 0xFF, 0xA0, 0x00, 0xF1, 0x55, 0x60, 0x01, 0xBF, 0xFF]

/-- Writes 10FE to address 0x0FE and jumps to 0x10FE, from where that is a jump to its mirror. -/
def jumpToMirror : Launch := .ofProgram
  [0x60, 0x10, 0x61, 0xFE, 0xA0, 0xFE, 0xF1, 0x55, 0x60, 0xFF, 0xBF, 0xFF]

/-- The first program ends by its jump and never does on the reduced core; the second one ends an
instruction later than on the reduced core. -/
theorem not_mirroredRun :
    (interrupts virtuals jumpBeyond [.idle] ≠ interrupts reducedVirtuals jumpBeyond [.idle] ∧
      ¬ MirroredRun jumpBeyond [.idle]) ∧
    interrupts virtuals jumpToMirror [.idle] ≠ interrupts reducedVirtuals jumpToMirror [.idle] ∧
      ¬ MirroredRun jumpToMirror [.idle] := by
  have hbeyond : interrupts virtuals jumpBeyond [.idle] ≠
      interrupts reducedVirtuals jumpBeyond [.idle] := by decide +kernel
  have hmirror : interrupts virtuals jumpToMirror [.idle] ≠
      interrupts reducedVirtuals jumpToMirror [.idle] := by decide +kernel
  exact ⟨⟨hbeyond, fun h => hbeyond h.interrupts_eq.symm⟩,
    hmirror, fun h => hmirror h.interrupts_eq.symm⟩

end CubeChip.Chip8Modern
