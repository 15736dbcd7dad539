import CubeChip.Systems.Chip8.Transfers
import CubeChip.Systems.Chip8.Cores.Flow
import CubeChip.Systems.Chip8.Cores.Xochip.Transfers

/-!
# Transfers of each core

Of the instructions of the seven cores only Fx33, FN55 and the `5xy2` of `CHIP8E` and `XOCHIP` write
to memory, at most 16 cells from I. So a run changes no cell but those its instructions address in
this way (`memory_written`), and registers saved by FN55 are found again by FN65 after any run that
spares their cells (`saved_found`).
-/

namespace CubeChip

open CubeChip.Core

/-! ## Monochrome cores -/

namespace Chip8E

/-- How many cells from I an instruction writes. -/
def Instruction.reach : Instruction → Nat
  | .common i => i.reach
  | .i5xy2 X Y => (registersBetween X Y).length
  | _ => 0

/-- `5xy2`; I passes over the cells it writes. -/
theorem memory_foldl_of_ne (l : List (Fin 16)) (s : Chip8E) {a : BitVec 12}
    (h : ∀ k < l.length, a ≠ cellAt 12 s.registerI k) :
    (l.foldl (fun s Z => { s with
      memory := s.memory.set s.registerI (s.registersV Z)
      registerI := s.registerI + 1 }) s).memory.mem a = s.memory.mem a := by
  induction l generalizing s with
  | nil => rfl
  | cons Z l ih =>
      have hfirst : a ≠ MirroredMemory.mask 12 s.registerI := by
        have h0 := h 0 (Nat.succ_pos _)
        rwa [cellAt, show s.registerI + UInt32.ofNat 0 = s.registerI from UInt32.add_zero _] at h0
      refine (ih _ fun k hk => ?_).trans (Function.update_of_ne hfirst ..)
      have hnext := h (k + 1) (Nat.succ_lt_succ hk)
      have hsum : s.registerI + UInt32.ofNat (k + 1) = s.registerI + 1 + UInt32.ofNat k := by
        rw [Nat.add_comm, UInt32.ofNat_add, UInt32.add_assoc]
        rfl
      rwa [cellAt, hsum] at hnext

/-- Here 5xy2 writes too. -/
theorem writesKept : WritesKept virtuals Instruction.reach where
  execute := fun i s s' h a ha => by
    cases i with
    | common i => cases h; exact executeCommon_of_ne config i s ha
    | i5xy2 X Y => cases h; exact memory_foldl_of_ne _ s ha
    | i5xy3 X Y =>
        cases h
        exact List.foldlRecOn (motive := fun t : Chip8E => t.memory.mem a = s.memory.mem a) _ _ rfl
          fun t ht Z _ => ht
    | _ => cases h; rfl
  enterLoop := fun _ => rfl
  pushAudioData := fun input s => by
    simp only [virtuals, pushAudioData]
    split <;> rfl
  pushVideoData := fun s => by
    simp only [virtuals, pushVideoData]
    split <;> rfl

end Chip8E

namespace Chip8X

/-- How many cells from I an instruction writes. -/
def Instruction.reach : Instruction → Nat
  | .common i => i.reach
  | _ => 0

/-- Only the shared instructions write to memory. -/
theorem writesKept : WritesKept virtuals Instruction.reach where
  execute := fun i s s' h a ha => by
    cases i with
    | common i => cases h; exact executeCommon_of_ne config i s ha
    | iBxyN X Y N => cases h; unfold instructionBxyN; split <;> rfl
    | _ => cases h; rfl
  enterLoop := fun _ => rfl
  pushAudioData := fun input s => by
    simp only [virtuals, pushAudioData]
    split <;> rfl
  pushVideoData := fun s => by
    simp only [virtuals, pushVideoData]
    split <;> rfl

end Chip8X

namespace Chip8Modern

/-- How many cells from I an instruction writes. -/
def Instruction.reach : Instruction → Nat
  | .common i => i.reach
  | _ => 0

/-- Only the shared instructions write to memory. -/
theorem writesKept : WritesKept virtuals Instruction.reach where
  execute := fun i s s' h a ha => by
    cases i with
    | common i => cases h; exact executeCommon_of_ne (config s) i s ha
    | _ => cases h; rfl
  enterLoop := fun _ => rfl
  pushAudioData := fun input s => by
    simp only [virtuals, pushAudioData]
    split <;> rfl
  pushVideoData := fun _ => rfl

end Chip8Modern

namespace SchipModern

/-- How many cells from I an instruction writes. -/
def Instruction.reach : Instruction → Nat
  | .common i => i.reach
  | _ => 0

/-- Only the shared instructions write to memory. -/
theorem writesKept : WritesKept virtuals Instruction.reach where
  execute := fun i s s' h a ha => by
    cases i with
    | common i => cases h; exact executeCommon_of_ne (config s) i s ha
    | i00CN N => cases h; unfold instruction00CN; split <;> rfl
    | iFN85 N => obtain ⟨r, -, rfl⟩ := Option.map_eq_some_iff.1 h; rfl
    | _ => cases h; rfl
  enterLoop := fun _ => rfl
  pushAudioData := fun input s => by
    simp only [virtuals, pushAudioData]
    split <;> rfl
  pushVideoData := fun s => by
    simp only [virtuals, pushVideoData]
    split <;> rfl

end SchipModern

namespace SchipLegacy

/-- How many cells from I an instruction writes. -/
def Instruction.reach : Instruction → Nat
  | .common i => i.reach
  | _ => 0

/-- Only the shared instructions write to memory. -/
theorem writesKept : WritesKept virtuals Instruction.reach where
  execute := fun i s s' h a ha => by
    cases i with
    | common i => cases h; exact executeCommon_of_ne (config s) i s ha
    | iFN85 N => obtain ⟨r, -, rfl⟩ := Option.map_eq_some_iff.1 h; rfl
    | _ => cases h; rfl
  enterLoop := fun _ => rfl
  pushAudioData := fun input s => by
    simp only [virtuals, pushAudioData]
    split <;> rfl
  pushVideoData := fun s => by
    simp only [virtuals, pushVideoData]
    split <;> rfl

end SchipLegacy

/-! ## Cores with colours of their own -/

namespace Xochip

/-- How many cells from I an instruction writes. -/
def Instruction.reach : Instruction → Nat
  | .common i => i.reach
  | .i5xy2 X Y => gap X Y + 1
  | _ => 0

/-- Here 5xy2 writes too. -/
theorem writesKept : WritesKept virtuals Instruction.reach where
  execute := fun i s s' h a ha => by
    cases i with
    | common i => cases h; exact executeCommon_of_ne (config s) i s ha
    | i00CN N => cases h; unfold instruction00CN; split <;> rfl
    | i00DN N => cases h; unfold instruction00DN; split <;> rfl
    | i5xy2 X Y =>
        cases h
        exact memory_instruction5xy2_of_ne s fun k hk => ha k (Nat.lt_succ_of_le hk)
    | iFN85 N => obtain ⟨r, -, rfl⟩ := Option.map_eq_some_iff.1 h; rfl
    | _ => cases h; rfl
  enterLoop := fun _ => rfl
  pushAudioData := fun input s => by
    simp only [virtuals, pushAudioData]
    split <;> rfl
  pushVideoData := fun _ => rfl

end Xochip

namespace Megachip

/-- How many cells from I an instruction writes. -/
def Instruction.reach : Instruction → Nat
  | .common i => i.reach
  | _ => 0

/-- A scroll moves pixels only. -/
theorem memory_scroll (cols rows : Int) (s : Megachip) :
    (scroll cols rows s).memory = s.memory := by
  unfold scroll
  split <;> rfl

/-- So does a sprite of either kind. -/
theorem memory_drawMega (X Y N : Fin 16) (s : Megachip) :
    (drawMega s X Y N).memory = s.memory := by
  unfold drawMega drawTexture
  dsimp only
  split
  · rfl
  · split
    · rfl
    · split <;> rfl

/-- Only the shared instructions write to memory. -/
theorem writesKept : WritesKept virtuals Instruction.reach where
  execute := fun i s s' h a ha => by
    cases i with
    | common i => cases h; exact executeCommon_of_ne (config s) i s ha
    | i00BN | i00CN | i00FB | i00FC =>
        cases h
        exact congrArg (·.mem a) (memory_scroll _ _ s)
    | i00E0 => cases h; unfold instruction00E0; split <;> rfl
    | i060N N => cases h; unfold instruction060N startAudioTrack; split <;> rfl
    | iDxyN X Y N =>
        cases h
        unfold instructionDxyN
        split
        · exact congrArg (·.mem a) (memory_drawMega X Y N s)
        · rfl
    | iFN85 N => obtain ⟨r, -, rfl⟩ := Option.map_eq_some_iff.1 h; rfl
    | _ => cases h; rfl
  enterLoop := fun _ => rfl
  pushAudioData := fun input s => by
    simp only [virtuals, pushAudioData, mixAudioData, makeStreamWave]
    repeat' split
    all_goals rfl
  pushVideoData := fun s => by
    simp only [virtuals, pushVideoData]
    split
    · split <;> rfl
    · rfl

end Megachip

/-! ## The family -/

namespace FamilyCore

/-- Every core has at least 16 cells, and at most what I can name. -/
theorem bits_le (core : FamilyCore) : 4 ≤ core.bits ∧ core.bits ≤ 32 := by
  cases core <;> exact ⟨by decide, by decide⟩

/-- How many cells from I an instruction of a core writes. -/
def reach : (core : FamilyCore) → core.Instruction → Nat
  | .chip8E => Chip8E.Instruction.reach
  | .chip8X => Chip8X.Instruction.reach
  | .chip8Modern => Chip8Modern.Instruction.reach
  | .megachip => Megachip.Instruction.reach
  | .schipLegacy => SchipLegacy.Instruction.reach
  | .schipModern => SchipModern.Instruction.reach
  | .xochip => Xochip.Instruction.reach

/-- **What an instruction writes**, on every core. -/
theorem writesKept (core : FamilyCore) : WritesKept core.virtuals core.reach := by
  cases core with
  | chip8E => exact Chip8E.writesKept
  | chip8X => exact Chip8X.writesKept
  | chip8Modern => exact Chip8Modern.writesKept
  | megachip => exact Megachip.writesKept
  | schipLegacy => exact SchipLegacy.writesKept
  | schipModern => exact SchipModern.writesKept
  | xochip => exact Xochip.writesKept

/-- A shared instruction, of a core. -/
def common : (core : FamilyCore) → Common → core.Instruction
  | .chip8E => Chip8E.Instruction.common
  | .chip8X => Chip8X.Instruction.common
  | .chip8Modern => Chip8Modern.Instruction.common
  | .megachip => Megachip.Instruction.common
  | .schipLegacy => SchipLegacy.Instruction.common
  | .schipModern => SchipModern.Instruction.common
  | .xochip => Xochip.Instruction.common

/-- Its `Config`, in a state. -/
def config : (core : FamilyCore) → Core core.bits core.Own → Common.Config
  | .chip8E => fun _ => Chip8E.config
  | .chip8X => fun _ => Chip8X.config
  | .chip8Modern => Chip8Modern.config
  | .megachip => Megachip.config
  | .schipLegacy => SchipLegacy.config
  | .schipModern => SchipModern.config
  | .xochip => Xochip.config

/-- A shared instruction does the same on every core, under the settings of that core. -/
theorem execute_common (core : FamilyCore) (i : Common) (s : Core core.bits core.Own) :
    core.virtuals.execute (core.common i) s = some (s.executeCommon (core.config s) i) := by
  cases core <;> rfl

end FamilyCore

/-- FN55 with N = F writes the most. -/
theorem Common.reach_le (i : Common) : i.reach ≤ 16 := by
  cases i with
  | iFN55 N => exact N.isLt
  | iFx33 X => exact (by decide : 3 ≤ 16)
  | _ => exact Nat.zero_le _

/-- No instruction writes more than 16 cells. -/
theorem FamilyCore.reach_le (core : FamilyCore) (i : core.Instruction) : core.reach i ≤ 16 := by
  cases core with
  | chip8E =>
      cases i with
      | common i => exact i.reach_le
      | i5xy2 X Y => exact (List.length_filter_le ..).trans (List.length_finRange (n := 16)).le
      | _ => exact Nat.zero_le _
  | xochip =>
      cases i with
      | common i => exact i.reach_le
      | i5xy2 X Y => exact Nat.succ_le_succ (Xochip.gap_le X Y)
      | _ => exact Nat.zero_le _
  | _ =>
      cases i with
      | common i => exact i.reach_le
      | _ => exact Nat.zero_le _

/-- **What a run writes.** A cell that a run of any core changes, from any state, is one of at most
16 from I on that an Fx33, an FN55 or a `5xy2` executed in the run addresses, unless the core is
reset or its memory edited meanwhile. -/
theorem memory_written (core : FamilyCore) (s s' : Core core.bits core.Own) (events : List Event)
    (hkeeps : ∀ x ∈ Runs.taken (step core.virtuals) s events, KeepsMemory x.1 x.2)
    (hrun : Runs.run (step core.virtuals) s events = some s') (a : BitVec core.bits)
    (hne : s'.memory.mem a ≠ s.memory.mem a) :
    ∃ u ∈ instructionStarts core.virtuals s events, Writes core.virtuals core.reach u a ∧
      core.reach (current core.virtuals u) ≤ 16 := by
  obtain ⟨u, hu, hwrites⟩ := core.writesKept.run hkeeps hrun hne
  exact ⟨u, hu, hwrites, core.reach_le _⟩

/-- Frames keep the memory but for their instructions. -/
theorem keepsMemory_of_idle {bits : Nat} {Own Instruction : Type}
    {V : Virtuals bits Own Instruction} {s : Core bits Own} {x : Core bits Own × Event}
    (hx : x ∈ Runs.taken (step V) s [.idle]) : KeepsMemory x.1 x.2 := by
  rw [List.mem_singleton.1 (Runs.snd_mem_of_mem_taken hx)]
  trivial

/-- A program that stores a register at 0x300, where there was a 0. -/
theorem memory_written_store :
    let s := Chip8Modern.boot (Launch.ofProgram [0x60, 0x07, 0xA3, 0x00, 0xF0, 0x55, 0x12, 0x06])
    ∃ s', Runs.run (step Chip8Modern.virtuals) s [.idle] = some s' ∧ s'.memory.mem 0x300 = 7 ∧
      ∃ u ∈ instructionStarts Chip8Modern.virtuals s [.idle],
        Writes Chip8Modern.virtuals Chip8Modern.Instruction.reach u 0x300 ∧
          Chip8Modern.Instruction.reach (current Chip8Modern.virtuals u) ≤ 16 := by
  intro s
  have hstored : (Runs.run (step Chip8Modern.virtuals) s [.idle]).map (·.memory.mem 0x300) =
      some 7 := by decide +kernel
  have hempty : s.memory.mem 0x300 = 0 := by decide +kernel
  obtain ⟨s', hs', hseven⟩ := Option.map_eq_some_iff.1 hstored
  have hkeeps : ∀ x ∈ Runs.taken (step Chip8Modern.virtuals) s [.idle], KeepsMemory x.1 x.2 :=
    fun _ hx => keepsMemory_of_idle hx
  have hne : s'.memory.mem 0x300 ≠ s.memory.mem 0x300 := by
    rw [hseven, hempty]
    decide
  exact ⟨s', hs', hseven, memory_written .chip8Modern s s' [.idle] hkeeps hs' 0x300 hne⟩

/-! ## What is saved is found again -/

section
variable {core : FamilyCore} {s s' t t' : Core core.bits core.Own} {events : List Event}

/-- The cells from I on that a run spares. -/
def Spares (core : FamilyCore) (I : UInt32) (n : Nat) (s : Core core.bits core.Own)
    (events : List Event) : Prop :=
  (∀ x ∈ Runs.taken (step core.virtuals) s events, KeepsMemory x.1 x.2) ∧
    ∀ u ∈ instructionStarts core.virtuals s events, ∀ k < n,
      ¬Writes core.virtuals core.reach u (cellAt core.bits I k)

/-- A run that spares some cells ends with what they held. -/
theorem Spares.mem_eq {I : UInt32} {n : Nat} (h : Spares core I n s events)
    (hrun : Runs.run (step core.virtuals) s events = some t) {k : Nat} (hk : k < n) :
    t.memory.mem (cellAt core.bits I k) = s.memory.mem (cellAt core.bits I k) := by
  by_contra hne
  obtain ⟨u, hu, hwrites⟩ := core.writesKept.run h.1 hrun hne
  exact h.2 u hu k hk hwrites

/-- FN65, of the registers. -/
theorem registersV_iFN65 {N : Fin 16}
    (hload : core.virtuals.execute (core.common (.iFN65 N)) t = some t') (i : Fin 16) :
    t'.registersV i = if i ≤ N then t.memory.mem (cellAt core.bits t.registerI i.val)
      else t.registersV i := by
  rw [core.execute_common] at hload
  cases hload
  split
  next hi => exact Cpu.loadRegisters_loaded (c := t.toCpu) (m := t.memory) hi
  next hi => exact Cpu.loadRegisters_of_lt (c := t.toCpu) (m := t.memory) (not_le.1 hi)

/-- **Saved registers are found again.** After FN55 and any run that spares the cells it wrote, an
FN65 with the same I loads the registers saved, on every core and wherever I points. -/
theorem saved_found (core : FamilyCore) (N : Fin 16) (s s' t t' : Core core.bits core.Own)
    (events : List Event) (hsave : core.virtuals.execute (core.common (.iFN55 N)) s = some s')
    (hspares : Spares core s.registerI (N.val + 1) s' events)
    (hrun : Runs.run (step core.virtuals) s' events = some t) (hI : t.registerI = s.registerI)
    (hload : core.virtuals.execute (core.common (.iFN65 N)) t = some t') (i : Fin 16) :
    t'.registersV i = if i ≤ N then s.registersV i else t.registersV i := by
  obtain ⟨hsmall, hbits⟩ := core.bits_le
  rw [registersV_iFN65 hload, hI]
  refine if_ctx_congr Iff.rfl (fun hi => ?_) fun _ => rfl
  have hval : Fin.ofNat 16 i.val = i := Fin.ext (Nat.mod_eq_of_lt i.isLt)
  rw [hspares.mem_eq hrun (Nat.lt_succ_of_le hi)]
  rw [core.execute_common] at hsave
  cases hsave
  exact (Cpu.storeRegisters_stored (c := s.toCpu) (m := s.memory) hsmall hbits hi).trans
    (congrArg s.registersV hval)

/-- A program that clears V0 and points I at the cells again, from where four registers were
saved. -/
theorem saved_found_idle :
    let s : Chip8Modern :=
      { Chip8Modern.boot (Launch.ofProgram [0x60, 0x00, 0xA3, 0x00, 0x12, 0x04]) with
        registerI := 0x300, registersV := fun _ => 7 }
    ∃ s' t t', Chip8Modern.execute (.common (.iFN55 3)) s = some s' ∧
      Runs.run (step Chip8Modern.virtuals) s' [.idle] = some t ∧ t.registersV 0 = 0 ∧
      Chip8Modern.execute (.common (.iFN65 3)) t = some t' ∧ t'.registersV 0 = 7 := by
  intro s
  let s' : Chip8Modern := s.executeCommon (Chip8Modern.config s) (.iFN55 3)
  have hend : (Runs.run (step Chip8Modern.virtuals) s' [.idle]).map
      (fun t => (t.registersV 0, t.registerI)) = some (0, 0x300) := by decide +kernel
  obtain ⟨t, ht, heq⟩ := Option.map_eq_some_iff.1 hend
  obtain ⟨hV, hI⟩ := Prod.mk.inj heq
  have hreach : ∀ u ∈ instructionStarts Chip8Modern.virtuals s' [.idle],
      Chip8Modern.Instruction.reach (current Chip8Modern.virtuals u) = 0 := by decide +kernel
  have hspares : Spares .chip8Modern 0x300 4 s' [.idle] :=
    ⟨fun _ hx => keepsMemory_of_idle hx, fun u hu k _ ⟨j, hj, _⟩ =>
      absurd (hreach u hu ▸ hj) (Nat.not_lt_zero j)⟩
  exact ⟨s', t, _, rfl, ht, hV, rfl,
    saved_found .chip8Modern 3 s s' t _ [.idle] rfl hspares ht hI rfl 0⟩

/-- **So are the digits** of a register, hundreds, tens and ones. -/
theorem digits_found (core : FamilyCore) (X : Fin 16) (s s' t t' : Core core.bits core.Own)
    (events : List Event) (hsave : core.virtuals.execute (core.common (.iFx33 X)) s = some s')
    (hspares : Spares core s.registerI 3 s' events)
    (hrun : Runs.run (step core.virtuals) s' events = some t) (hI : t.registerI = s.registerI)
    (hload : core.virtuals.execute (core.common (.iFN65 2)) t = some t') :
    (t'.registersV 0).toNat = (s.registersV X).toNat / 100 ∧
      (t'.registersV 1).toNat = (s.registersV X).toNat / 10 % 10 ∧
      (t'.registersV 2).toNat = (s.registersV X).toNat % 10 := by
  obtain ⟨hsmall, hbits⟩ := core.bits_le
  have hloaded {i : Fin 16} (hi : i ≤ 2) :
      t'.registersV i = s'.memory.mem (cellAt core.bits s.registerI i.val) := by
    rw [registersV_iFN65 hload, if_pos hi, hI]
    exact hspares.mem_eq hrun (Nat.lt_succ_of_le hi)
  rw [core.execute_common] at hsave
  cases hsave
  obtain ⟨hhundreds, htens, hones⟩ :=
    Cpu.instructionFx33_stored (c := s.toCpu) (m := s.memory) hsmall hbits X
  obtain ⟨h100, h10, h1⟩ := Cpu.TriBCD.ofByte_digits (s.registersV X)
  rw [hloaded (by decide), hloaded (by decide), hloaded (by decide)]
  exact ⟨(congrArg UInt8.toNat hhundreds).trans h100, (congrArg UInt8.toNat htens).trans h10,
    (congrArg UInt8.toNat hones).trans h1⟩

/-- The digits of 123. -/
theorem digits_found_idle :
    let s : Chip8Modern :=
      { Chip8Modern.boot (Launch.ofProgram [0x60, 0x00, 0xA3, 0x00, 0x12, 0x04]) with
        registerI := 0x300, registersV := fun _ => 123 }
    ∃ s' t t', Chip8Modern.execute (.common (.iFx33 5)) s = some s' ∧
      Runs.run (step Chip8Modern.virtuals) s' [.idle] = some t ∧
      Chip8Modern.execute (.common (.iFN65 2)) t = some t' ∧
      (t'.registersV 0).toNat = 1 ∧ (t'.registersV 1).toNat = 2 ∧ (t'.registersV 2).toNat = 3 := by
  intro s
  let s' : Chip8Modern := s.executeCommon (Chip8Modern.config s) (.iFx33 5)
  have hend : (Runs.run (step Chip8Modern.virtuals) s' [.idle]).map (·.registerI) =
      some 0x300 := by decide +kernel
  obtain ⟨t, ht, hI⟩ := Option.map_eq_some_iff.1 hend
  have hreach : ∀ u ∈ instructionStarts Chip8Modern.virtuals s' [.idle],
      Chip8Modern.Instruction.reach (current Chip8Modern.virtuals u) = 0 := by decide +kernel
  have hspares : Spares .chip8Modern 0x300 3 s' [.idle] :=
    ⟨fun _ hx => keepsMemory_of_idle hx, fun u hu k _ ⟨j, hj, _⟩ =>
      absurd (hreach u hu ▸ hj) (Nat.not_lt_zero j)⟩
  have hdigits := digits_found .chip8Modern 5 s s' t _ [.idle] rfl hspares ht hI rfl
  rw [show (s.registersV 5).toNat = 123 from rfl] at hdigits
  exact ⟨s', t, _, rfl, ht, rfl, hdigits⟩

end

end CubeChip
