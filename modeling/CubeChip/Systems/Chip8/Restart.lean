import CubeChip.Systems.Chip8.Kept

/-!
# Restarting a core

What `perform_instance_reset` brings back whatever the core: the processor, up to its random
numbers, and the bytes copied into memory. What a core can still have changed is a matter of
its body, so the invariants here are about the body in every state reached: `AlwaysKept`
collects what a core shows of its instructions, its output and its reset.
-/

namespace CubeChip

/-! ## The processor -/

/-- Two processors that differ in their random numbers at most. -/
structure Cpu.SameState (c c' : Cpu) : Prop where
  registersV : c.registersV = c'.registersV
  registerI : c.registerI = c'.registerI
  currentPc : c.currentPc = c'.currentPc
  stack : c.stack = c'.stack
  delayTimer : c.delayTimer = c'.delayTimer
  interrupt : c.interrupt = c'.interrupt
  keypad : c.keypad = c'.keypad
  voices : c.voices = c'.voices
  lastVoiceIndex : c.lastVoiceIndex = c'.lastVoiceIndex

/-- A processor at power-on. -/
structure Cpu.PowerOn (pc : UInt32) (c : Cpu) : Prop where
  registersV : c.registersV = fun _ => 0
  registerI : c.registerI = 0
  currentPc : c.currentPc = pc
  stack : c.stack = Stack.empty
  delayTimer : c.delayTimer = 0
  interrupt : c.interrupt = .clear
  keypad : c.keypad = HexInput.reset
  voices : c.voices = fun _ => AudioTimer.reset
  lastVoiceIndex : c.lastVoiceIndex = 0

/-- Processors at power-on are in the same state. -/
theorem Cpu.PowerOn.sameState {pc : UInt32} {c c' : Cpu} (h : PowerOn pc c)
    (h' : PowerOn pc c') : SameState c c' where
  registersV := h.registersV.trans h'.registersV.symm
  registerI := h.registerI.trans h'.registerI.symm
  currentPc := h.currentPc.trans h'.currentPc.symm
  stack := h.stack.trans h'.stack.symm
  delayTimer := h.delayTimer.trans h'.delayTimer.symm
  interrupt := h.interrupt.trans h'.interrupt.symm
  keypad := h.keypad.trans h'.keypad.symm
  voices := h.voices.trans h'.voices.symm
  lastVoiceIndex := h.lastVoiceIndex.trans h'.lastVoiceIndex.symm

/-- Whatever a processor was, the family's part of a reset and a start address put it at
power-on. -/
theorem Cpu.powerOn_resetInstance (s : IFamily) (pc : UInt32) :
    PowerOn pc { s.resetInstance.toCpu with currentPc := pc } :=
  ⟨rfl, rfl, rfl, rfl, rfl, rfl, rfl, rfl, rfl⟩

/-! ## Memory -/

namespace MirroredMemory

variable {bits : Nat}

/-- The addresses a copy reaches. -/
def Covers (offset : Nat) (bytes : List UInt8) (a : BitVec bits) : Prop :=
  offset ≤ a.toNat ∧ a.toNat - offset < bytes.length

/-- The bytes copied do not depend on the memory copied over. -/
theorem copyFrom_eq_of_covers (m m' : MirroredMemory bits) {offset : Nat} {bytes : List UInt8}
    {a : BitVec bits} (h : Covers offset bytes a) :
    (m.copyFrom offset bytes).mem a = (m'.copyFrom offset bytes).mem a :=
  (copyFrom_of_mem h.1 h.2).trans (copyFrom_of_mem h.1 h.2).symm

/-- Copying over memories that agree at an address gives memories that do. -/
theorem copyFrom_congr {m m' : MirroredMemory bits} {a : BitVec bits} (h : m.mem a = m'.mem a)
    (offset : Nat) (bytes : List UInt8) :
    (m.copyFrom offset bytes).mem a = (m'.copyFrom offset bytes).mem a := by
  by_cases hcov : Covers offset bytes a
  · exact copyFrom_eq_of_covers m m' hcov
  · rw [copyFrom_of_not_mem hcov, copyFrom_of_not_mem hcov, h]

/-- A program and a font, copied one after the other, are the same over any memory. -/
theorem copyFrom_copyFrom_eq (m m' : MirroredMemory bits) {offset offset' : Nat}
    {bytes bytes' : List UInt8} {a : BitVec bits}
    (h : Covers offset bytes a ∨ Covers offset' bytes' a) :
    ((m.copyFrom offset bytes).copyFrom offset' bytes').mem a =
      ((m'.copyFrom offset bytes).copyFrom offset' bytes').mem a := by
  rcases h with h | h
  · exact copyFrom_congr (copyFrom_eq_of_covers m m' h) offset' bytes'
  · exact copyFrom_eq_of_covers _ _ h

end MirroredMemory

theorem length_fontsData : fontsData.length = 240 := by decide +kernel

namespace Core

variable {bits : Nat} {Own Instruction : Type} {V : Virtuals bits Own Instruction}

/-- The fonts copied. -/
theorem memory_copyFontDataTo_of_lt (s : Core bits Own) {size : Nat} (hsize : size ≤ 240)
    {a : BitVec bits} (h : a.toNat < size) :
    (s.copyFontDataTo size).memory.mem a = fontsData.getD a.toNat 0 := by
  have hlength : (fontsData.take size).length = size := by
    rw [List.length_take, length_fontsData, Nat.min_eq_left hsize]
  have hcov : MirroredMemory.Covers 0 (fontsData.take size) a :=
    ⟨Nat.zero_le _, hlength.symm ▸ h⟩
  have hcopy : (s.copyFontDataTo size).memory.mem a = (fontsData.take size).getD a.toNat 0 :=
    MirroredMemory.copyFrom_of_mem hcov.1 hcov.2
  rw [hcopy, List.getD_eq_getElem?_getD, List.getD_eq_getElem?_getD,
    List.getElem?_take_of_lt h]

/-- The memory behind them. -/
theorem memory_copyFontDataTo_of_le (s : Core bits Own) {size : Nat} {a : BitVec bits}
    (h : size ≤ a.toNat) : (s.copyFontDataTo size).memory.mem a = s.memory.mem a := by
  refine MirroredMemory.copyFrom_of_not_mem fun hcov => ?_
  have hlt : a.toNat < size := Nat.lt_of_lt_of_le hcov.2 (List.length_take_le _ _)
  exact Nat.not_lt.2 h hlt

/-! ## The body in every state -/

/-- The GUI thread reaches the body through the quirks it lists and the memory editor. -/
theorem body_guiStep {J : Body bits Own → Prop} {s : Core bits Own} (hs : J s.body)
    (hquirk : ∀ flag ∈ V.availQuirks, J (s.onFamily (.xorQuirk flag)).body)
    (hmemory : ∀ address value, J { s.body with memory := s.memory.set address value })
    (op : GuiOp) : J (guiStep V op s).body := by
  cases op with
  | toggleQuirk flag =>
      unfold guiStep
      dsimp only
      split
      · next hflag => exact hquirk flag hflag
      · exact hs
  | tryPauseSystem =>
      unfold guiStep
      dsimp only
      split <;> exact hs
  | editMemory address value => exact hmemory address value
  | _ => exact hs

/-- The event performs no reset where `G` fails. -/
def ResetsWhen (G : Core bits Own → Prop) (s : Core bits Own) : Event → Prop
  | .reset => s.systemState .reset = true → G s
  | _ => True

/-- `J` of the body, in the state and wherever an instruction of a frame from it starts. -/
def Throughout (V : Virtuals bits Own Instruction) (J : Body bits Own → Prop)
    (s : Core bits Own) : Prop :=
  J s.body ∧ ∀ input, ∀ t ∈ workerStarts V input s, J t.body

theorem Kept.throughout_iff {J : Body bits Own → Prop} (h : Kept V J) {s : Core bits Own} :
    Throughout V J s ↔ J s.body :=
  ⟨fun hs => hs.1, fun hs => ⟨hs, fun input => h.workerStarts input hs⟩⟩

/-- What a core shows to keep `J` of its body as long as its resets find `G`. -/
structure KeptWhen (V : Virtuals bits Own Instruction) (J : Body bits Own → Prop)
    (G : Core bits Own → Prop) : Prop extends Kept V J where
  reset : ∀ s, J s.body → (J (performInstanceReset V s).body ↔ G s)
  toggleQuirk : ∀ s : Core bits Own, J s.body →
    ∀ flag ∈ V.availQuirks, J (s.onFamily (.xorQuirk flag)).body
  editMemory : ∀ s : Core bits Own, J s.body →
    ∀ address value, J { s.body with memory := s.memory.set address value }

namespace KeptWhen

variable {J : Body bits Own → Prop} {G : Core bits Own → Prop} {s s' boot : Core bits Own}

/-- One event. -/
theorem step (h : KeptWhen V J G) (hs : J s.body) {e : Event} (hstep : step V s e = some s') :
    J s'.body ↔ ResetsWhen G s e := by
  cases e with
  | reset =>
      cases hstep
      unfold workerReset ResetsWhen
      cases hreset : s.systemState .reset with
      | true => exact (h.reset s hs).trans ⟨fun hG _ => hG, fun hG => hG rfl⟩
      | false => exact iff_of_true hs fun hG => nomatch hG
  | frame input => exact iff_of_true (h.toKept.workerFrame hs hstep) trivial
  | gui op =>
      cases hstep
      exact iff_of_true (body_guiStep hs (h.toggleQuirk s hs) (h.editMemory s hs) op) trivial
  | host host => cases hstep; exact iff_of_true hs trivial

/-- **Exact invariant rule for a core.** -/
theorem run (h : KeptWhen V J G) (hboot : J boot.body) (events : List Event) :
    (∀ s ∈ Runs.visited (Core.step V) boot events, Throughout V J s) ↔
      ∀ x ∈ Runs.taken (Core.step V) boot events, ResetsWhen G x.1 x.2 :=
  Runs.forall_visited_iff (J := fun _ => True) (fun _ _ _ _ _ _ _ => trivial)
    (fun _ _ _ _ hs hstep =>
      h.throughout_iff.trans (h.step (h.throughout_iff.1 hs) hstep))
    events trivial (h.throughout_iff.2 hboot)

end KeptWhen

/-- What a core shows to keep `J` of its body in every state it reaches. -/
structure AlwaysKept (V : Virtuals bits Own Instruction) (J : Body bits Own → Prop) : Prop
    extends Kept V J where
  reset : ∀ s, J s.body → J (performInstanceReset V s).body
  toggleQuirk : ∀ s : Core bits Own, J s.body →
    ∀ flag ∈ V.availQuirks, J (s.onFamily (.xorQuirk flag)).body
  editMemory : ∀ s : Core bits Own, J s.body →
    ∀ address value, J { s.body with memory := s.memory.set address value }

namespace AlwaysKept

variable {J : Body bits Own → Prop} {s boot : Core bits Own}

/-- Then its resets need find nothing. -/
theorem keptWhen (h : AlwaysKept V J) : KeptWhen V J fun _ => True where
  toKept := h.toKept
  reset := fun s hs => iff_of_true (h.reset s hs) trivial
  toggleQuirk := h.toggleQuirk
  editMemory := h.editMemory

/-- **Invariant rule for a core.** -/
theorem reachable (h : AlwaysKept V J) (hboot : J boot.body) (hs : Reachable V boot s) :
    J s.body := by
  obtain ⟨events, hrun⟩ := hs
  refine Runs.run_invariant (I := fun s => J s.body) (fun s e s' hs hstep => ?_) hboot hrun
  refine (h.keptWhen.step hs hstep).2 ?_
  cases e with
  | reset => exact fun _ => trivial
  | _ => exact trivial

end AlwaysKept

end Core

end CubeChip
