import CubeChip.Lib.Sweep
import CubeChip.Systems.Chip8.Common
import CubeChip.Systems.Chip8.Traced

/-!
# Transfers between registers and memory

FN55, FN65 and Fx33 walk the cells from I upwards, past the end of memory to its start. The cells of
a transfer are distinct (`cellAt_injOn`), so what FN55 stores FN65 finds again, and Fx33 leaves the
digits of a register. `WritesKept` is what a core shows of the cells its instructions write: a run
leaves every other cell alone, unless it is reset or edited.
-/

namespace CubeChip

/-! ## Cells -/

/-- The cell `k` places from I. -/
def cellAt (bits : Nat) (I : UInt32) (k : Nat) : BitVec bits :=
  MirroredMemory.mask bits (I + UInt32.ofNat k)

theorem toNat_cellAt {bits : Nat} (hbits : bits ≤ 32) (I : UInt32) (k : Nat) :
    (cellAt bits I k).toNat = (I.toNat + k) % 2 ^ bits := by
  have hsum : (I + UInt32.ofNat k).toNat = (I.toNat + k) % 2 ^ 32 := by
    rw [UInt32.toNat_add, UInt32.toNat_ofNat', Nat.add_mod_mod]
  rw [cellAt, MirroredMemory.mask_eq_ofNat hbits hsum, BitVec.toNat_ofNat]

/-- The cells of a transfer are distinct. -/
theorem cellAt_injOn {bits : Nat} (hsmall : 4 ≤ bits) (hbits : bits ≤ 32) {I : UInt32} {j k : Nat}
    (hj : j < 16) (hk : k < 16) (h : cellAt bits I j = cellAt bits I k) : j = k := by
  have hsize : 2 ^ 4 ≤ 2 ^ bits := Nat.pow_le_pow_right (by decide) hsmall
  have h := congrArg BitVec.toNat h
  rw [toNat_cellAt hbits, toNat_cellAt hbits] at h
  have hmod : j ≡ k [MOD 2 ^ bits] := Nat.ModEq.add_left_cancel' I.toNat h
  exact hmod.eq_of_lt_of_lt (by omega) (by omega)

namespace Cpu

variable {bits : Nat} {c : Cpu} {m : MirroredMemory bits} {N : Fin 16}

/-! ## Registers -/

/-- The registers of FN55 and FN65, by their numbers. -/
theorem ofNat_val {i : Nat} (hi : i ≤ N.val) : (Fin.ofNat 16 i).val = i :=
  Nat.mod_eq_of_lt (by omega)

/-- FN55 as a sweep over memory. -/
theorem mem_storeRegisters (N : Fin 16) (c : Cpu) (m : MirroredMemory bits) :
    (c.storeRegisters N m).mem =
      ((Sweep.writes (cellAt bits c.registerI) fun i => c.registersV (Fin.ofNat 16 i)).run
        (List.range (N.val + 1)) (m.mem, ())).1 := by
  rw [← Sweep.foldl_update]
  exact (List.foldl_hom MirroredMemory.mem fun _ _ => rfl).symm

/-- A cell that FN55 stores. -/
theorem storeRegisters_stored (hsmall : 4 ≤ bits) (hbits : bits ≤ 32) {i : Nat} (hi : i ≤ N.val) :
    (c.storeRegisters N m).mem (cellAt bits c.registerI i) = c.registersV (Fin.ofNat 16 i) := by
  have hnodup : ((List.range (N.val + 1)).map (cellAt bits c.registerI)).Nodup := by
    refine List.Nodup.map_on (fun j hj k hk h => ?_) List.nodup_range
    rw [List.mem_range] at hj hk
    exact cellAt_injOn hsmall hbits (by omega) (by omega) h
  rw [mem_storeRegisters]
  exact Sweep.run_cells_of_mem (w := Sweep.writes _ _) hnodup (List.mem_range.2 (by omega)) _

/-- Any other cell. -/
theorem storeRegisters_of_ne {a : BitVec bits} (h : ∀ k ≤ N.val, a ≠ cellAt bits c.registerI k) :
    (c.storeRegisters N m).mem a = m.mem a := by
  rw [mem_storeRegisters]
  refine Sweep.run_cells_of_not_mem (fun hmem => ?_) _
  obtain ⟨k, hk, rfl⟩ := List.mem_map.1 hmem
  rw [List.mem_range] at hk
  exact h k (by omega) rfl

/-- FN65 as a sweep over the registers. -/
theorem registersV_loadRegisters (N : Fin 16) (m : MirroredMemory bits) (c : Cpu) :
    c.loadRegisters N m = { c with registersV :=
      ((Sweep.writes (Fin.ofNat 16) fun i => m.mem (cellAt bits c.registerI i)).run
        (List.range (N.val + 1)) (c.registersV, ())).1 } := by
  rw [← Sweep.foldl_update]
  unfold loadRegisters
  generalize List.range (N.val + 1) = l
  have hloop : ∀ V : Fin 16 → UInt8,
      l.foldl (fun c i => c.setV (Fin.ofNat 16 i) (m.get (c.registerI + UInt32.ofNat i)))
        { c with registersV := V } =
      { c with registersV := l.foldl (fun V i =>
        Function.update V (Fin.ofNat 16 i) (m.mem (cellAt bits c.registerI i))) V } := by
    induction l with
    | nil => exact fun V => rfl
    | cons i l ih => exact fun V => ih _
  exact hloop c.registersV

/-- A register that FN65 loads. -/
theorem loadRegisters_loaded {i : Fin 16} (hi : i ≤ N) :
    (c.loadRegisters N m).registersV i = m.mem (cellAt bits c.registerI i.val) := by
  have hnodup : ((List.range (N.val + 1)).map (Fin.ofNat 16)).Nodup := by
    refine List.Nodup.map_on (fun j hj k hk h => ?_) List.nodup_range
    rw [List.mem_range] at hj hk
    have h := congrArg Fin.val h
    rwa [ofNat_val (N := N) (by omega), ofNat_val (N := N) (by omega)] at h
  have hval : Fin.ofNat 16 i.val = i := Fin.ext (Nat.mod_eq_of_lt i.isLt)
  have hmem : i.val ∈ List.range (N.val + 1) := List.mem_range.2 (Nat.lt_succ_of_le hi)
  have hrun : (c.loadRegisters N m).registersV (Fin.ofNat 16 i.val) =
      m.mem (cellAt bits c.registerI i.val) := by
    rw [registersV_loadRegisters]
    exact Sweep.run_cells_of_mem (w := Sweep.writes _ _) hnodup hmem _
  rwa [hval] at hrun

/-- Any other register. -/
theorem loadRegisters_of_lt {i : Fin 16} (hi : N < i) :
    (c.loadRegisters N m).registersV i = c.registersV i := by
  rw [registersV_loadRegisters]
  refine Sweep.run_cells_of_not_mem (fun hmem => ?_) _
  obtain ⟨k, hk, rfl⟩ := List.mem_map.1 hmem
  rw [List.mem_range] at hk
  have hi : N.val < (Fin.ofNat 16 k).val := hi
  rw [ofNat_val (N := N) (by omega)] at hi
  omega

/-! ## Digits -/

/-- The digits of a byte. -/
theorem TriBCD.ofByte_digits (value : UInt8) :
    (TriBCD.ofByte value).hundreds.toNat = value.toNat / 100 ∧
      (TriBCD.ofByte value).tens.toNat = value.toNat / 10 % 10 ∧
      (TriBCD.ofByte value).ones.toNat = value.toNat % 10 := by
  have hall : ∀ n : Fin 256, (TriBCD.ofByte (UInt8.ofFin n)).hundreds.toNat = n.val / 100 ∧
      (TriBCD.ofByte (UInt8.ofFin n)).tens.toNat = n.val / 10 % 10 ∧
      (TriBCD.ofByte (UInt8.ofFin n)).ones.toNat = n.val % 10 := by decide +kernel
  exact hall value.toFin

/-- The cells Fx33 leaves. -/
theorem instructionFx33_stored (hsmall : 4 ≤ bits) (hbits : bits ≤ 32) (X : Fin 16) :
    (c.instructionFx33 X m).mem (cellAt bits c.registerI 0) =
        (TriBCD.ofByte (c.registersV X)).hundreds ∧
      (c.instructionFx33 X m).mem (cellAt bits c.registerI 1) =
        (TriBCD.ofByte (c.registersV X)).tens ∧
      (c.instructionFx33 X m).mem (cellAt bits c.registerI 2) =
        (TriBCD.ofByte (c.registersV X)).ones := by
  have hne {j k : Nat} (hj : j < 16) (hk : k < 16) (h : j ≠ k) :
      cellAt bits c.registerI j ≠ cellAt bits c.registerI k :=
    fun heq => h (cellAt_injOn hsmall hbits hj hk heq)
  have h01 := hne (j := 0) (k := 1) (by decide) (by decide) (by decide)
  have h02 := hne (j := 0) (k := 2) (by decide) (by decide) (by decide)
  have h12 := hne (j := 1) (k := 2) (by decide) (by decide) (by decide)
  refine ⟨?_, ?_, Function.update_self ..⟩
  · refine (Function.update_of_ne h02 ..).trans ((Function.update_of_ne h01 ..).trans ?_)
    exact Function.update_self ..
  · exact (Function.update_of_ne h12 ..).trans (Function.update_self ..)

/-- Any other cell. -/
theorem instructionFx33_of_ne {X : Fin 16} {a : BitVec bits}
    (h : ∀ k < 3, a ≠ cellAt bits c.registerI k) : (c.instructionFx33 X m).mem a = m.mem a := by
  refine (Function.update_of_ne (h 2 (by decide)) ..).trans ?_
  refine (Function.update_of_ne (h 1 (by decide)) ..).trans ?_
  exact Function.update_of_ne (h 0 (by decide)) ..

end Cpu

/-! ## What instructions write -/

/-- How many cells from I a shared instruction writes. -/
def Common.reach : Common → Nat
  | .iFx33 _ => 3
  | .iFN55 N => N.val + 1
  | _ => 0

namespace Core

variable {bits : Nat} {Own Instruction : Type}

theorem executeCommon_of_ne (cfg : Common.Config) (i : Common) (s : Core bits Own) {a : BitVec bits}
    (h : ∀ k < i.reach, a ≠ cellAt bits s.registerI k) :
    (s.executeCommon cfg i).memory.mem a = s.memory.mem a := by
  cases i with
  | iFx33 X => exact Cpu.instructionFx33_of_ne h
  | iFN55 N => exact Cpu.storeRegisters_of_ne fun k hk => h k (Nat.lt_succ_of_le hk)
  | _ => rfl

/-- What a core shows of the cells its instructions write, `reach` of them from I. -/
structure WritesKept (V : Virtuals bits Own Instruction) (reach : Instruction → Nat) : Prop where
  execute : ∀ i s s', V.execute i s = some s' → ∀ a,
    (∀ k < reach i, a ≠ cellAt bits s.registerI k) → s'.memory.mem a = s.memory.mem a
  enterLoop : ∀ s, (V.enterLoop s).memory = s.memory
  pushAudioData : ∀ input s, (V.pushAudioData input s).memory = s.memory
  pushVideoData : ∀ s, (V.pushVideoData s).memory = s.memory

/-- The instruction at PC may write the cell `a`. -/
def Writes (V : Virtuals bits Own Instruction) (reach : Instruction → Nat) (s : Core bits Own)
    (a : BitVec bits) : Prop := ∃ k < reach (current V s), a = cellAt bits s.registerI k

/-- An event that leaves the memory to the instructions: no reset that was requested and no edit. -/
def KeepsMemory (s : Core bits Own) : Event → Prop
  | .reset => s.systemState .reset = false
  | .gui (.editMemory _ _) => False
  | _ => True

namespace WritesKept

variable {V : Virtuals bits Own Instruction} {reach : Instruction → Nat} {s s' : Core bits Own}

theorem traceKept (h : WritesKept V reach) :
    TraceKept V (fun s : Core bits Own => s.memory)
      (fun s => (cycle V s).elim s.memory fun t => t.memory) where
  withBooks := fun _ _ => rfl
  prepareFrame := fun _ _ => rfl
  handlePostWorkInterrupts := fun _ => rfl
  enterLoop := h.enterLoop
  cycle := fun s s' hs => by rw [hs, Option.elim_some]
  pushAudioData := h.pushAudioData
  pushVideoData := h.pushVideoData

theorem memory_step {e : Event} (hkeeps : KeepsMemory s e) (hframe : e.isFrame = false)
    (hstep : step V s e = some s') : s'.memory = s.memory := by
  cases e with
  | frame input => exact nomatch hframe
  | reset =>
      cases hstep
      unfold workerReset
      rw [show s.systemState .reset = false from hkeeps, if_neg Bool.false_ne_true]
  | gui op =>
      cases hstep
      cases op with
      | editMemory address value => exact hkeeps.elim
      | tryPauseSystem | toggleQuirk flag => unfold guiStep; dsimp only; split <;> rfl
      | _ => rfl
  | host host => cases hstep; rfl

/-- **A run** changes no cell that none of its instructions may write. -/
theorem run (h : WritesKept V reach) {events : List Event}
    (hkeeps : ∀ x ∈ Runs.taken (step V) s events, KeepsMemory x.1 x.2)
    (hrun : Runs.run (step V) s events = some s') {a : BitVec bits}
    (hne : s'.memory.mem a ≠ s.memory.mem a) :
    ∃ u ∈ instructionStarts V s events, Writes V reach u a := by
  have htraced := h.traceKept.run
    (fun x hx hframe t ht => memory_step (hkeeps x hx) hframe ht) hrun
  obtain ⟨u, hu, hwrites⟩ := htraced.exists_of_ne (f := fun m => m.mem a) hne
  refine ⟨u, hu, ?_⟩
  by_contra hnot
  refine hwrites ?_
  cases hcycle : cycle V u with
  | none => rfl
  | some t =>
      exact h.execute _ u.fetch.2 t hcycle a fun k hk heq => hnot ⟨k, hk, heq⟩

end WritesKept

end Core

end CubeChip
