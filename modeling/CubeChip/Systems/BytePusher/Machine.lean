import CubeChip.Lib.MoveMachine
import CubeChip.Systems.BytePusher
import CubeChip.Systems.Chip8.Keypad

/-!
# The BytePusher machine

What the core is for: a machine of 2^24 cells whose instruction is three addresses of three
cells each (copy from, copy to, go to), with the keys in cells 0 and 1, the start address in
cells 2 to 4, the picture in the page that cell 5 names and the sound in the bank that cells 6
and 7 name. `Action` is what can happen to it. Every run of the core is a run of the machine
(`run_boot`), frames send out its picture and its sound (`workerFrame_eq`), and no pointer
leaves the memory.
-/

namespace CubeChip

namespace BytePusherStandard

open MirroredMemory

/-! ## The machine -/

/-- The memory of the machine. -/
abbrev Cells := BitVec 24 → UInt8

namespace Cells

/-- Three cells as an address, the first the most significant. -/
def address (m : Cells) (p : BitVec 24) : BitVec 24 :=
  (m p).toBitVec ++ (m (p + 1)).toBitVec ++ (m (p + 2)).toBitVec

/-- The instruction at a pointer. -/
def machine : MoveMachine (BitVec 24) UInt8 where
  source m p := address m p
  target m p := address m (p + 3)
  next m p := address m (p + 6)

/-- A program from cell 0 on, in a memory of zeros. -/
def loaded (image : List UInt8) : Cells := fun a => image.getD a.toNat 0

/-- The keys in cells 0 and 1. -/
def storeKeys (keys : BitVec 16) (m : Cells) : Cells :=
  Function.update (Function.update m 0 ⟨keys.extractLsb' 8 8⟩) 1 ⟨keys.extractLsb' 0 8⟩

/-- So many instructions from the start address on. -/
def execute (n : Nat) (m : Cells) : Cells := (machine.run n (m, address m 2)).1

/-- A frame. -/
def frame (keys : BitVec 16) (m : Cells) : Cells := execute 65536 (storeKeys keys m)

/-- The picture: row after row, the page of 65536 cells that cell 5 names. -/
def picture (m : Cells) : List RGBA :=
  (List.range 65536).map fun i => bitColor (m ((m 5).toBitVec ++ BitVec.ofNat 16 i))

/-- The sound: the 256 samples of the bank that cells 6 and 7 name. -/
def sound (m : Cells) : List Int8 :=
  (List.range 256).map fun i =>
    (m ((m 6).toBitVec ++ (m 7).toBitVec ++ BitVec.ofNat 8 i)).toInt8

end Cells

/-- What can happen to the machine. -/
inductive Action where
  | frame (keys : BitVec 16)
  | load
  | poke (a : BitVec 24) (value : UInt8)

/-- The cells after an action of the machine with this program. -/
def Cells.act (image : List UInt8) (m : Cells) : Action → Cells
  | .frame keys => m.frame keys
  | .load => Cells.loaded image
  | .poke a value => Function.update m a value

/-! ## Addresses -/

/-- The low bits of a sum are the sum of the low bits. -/
theorem mask_add (x y : UInt32) : mask 24 (x + y) = mask 24 x + mask 24 y := by
  rw [mask, UInt32.toBitVec_add, BitVec.setWidth_add _ _ (by decide)]
  rfl

/-- Three bytes put together are the three side by side. -/
theorem setWidth_bytes (a b c : UInt8) :
    ((a.toUInt32 <<< 16) ||| (b.toUInt32 <<< 8) ||| c.toUInt32).toBitVec.setWidth 24 =
      a.toBitVec ++ b.toBitVec ++ c.toBitVec := by
  have h16 : (a.toUInt32 <<< 16).toBitVec = a.toUInt32.toBitVec <<< 16 := rfl
  have h8 : (b.toUInt32 <<< 8).toBitVec = b.toUInt32.toBitVec <<< 8 := rfl
  refine BitVec.eq_of_getLsbD_eq fun i hi => ?_
  rw [UInt32.toBitVec_or, UInt32.toBitVec_or, h16, h8]
  simp only [BitVec.getLsbD_setWidth, UInt8.toBitVec_toUInt32, BitVec.getLsbD_or,
    BitVec.getLsbD_shiftLeft, BitVec.getLsbD_append]
  grind

theorem toNat_append {j k : Nat} (x : BitVec j) (y : BitVec k) :
    (x ++ y).toNat = x.toNat * 2 ^ k + y.toNat := by
  rw [BitVec.toNat_append, Nat.shiftLeft_eq, Nat.mul_comm,
    Nat.two_pow_add_eq_or_of_lt y.isLt, Nat.mul_comm]

/-- Two bytes put together and moved up are the first of 256 places. -/
theorem toNat_bank (a b : UInt8) :
    (((a.toUInt32 <<< 8) ||| b.toUInt32) <<< 8).toNat =
      (a.toBitVec ++ b.toBitVec).toNat * 2 ^ 8 := by
  have h (x : UInt32) : (x <<< 8).toBitVec = x.toBitVec <<< 8 := rfl
  have hbits : (((a.toUInt32 <<< 8) ||| b.toUInt32) <<< 8).toBitVec =
      (0#8 ++ (a.toBitVec ++ b.toBitVec) ++ 0#8 : BitVec 32) := by
    refine BitVec.eq_of_getLsbD_eq fun i hi => ?_
    rw [h, UInt32.toBitVec_or, h]
    simp only [UInt8.toBitVec_toUInt32, BitVec.getLsbD_or, BitVec.getLsbD_setWidth,
      BitVec.getLsbD_shiftLeft, BitVec.getLsbD_append, BitVec.getLsbD_zero]
    grind
  rw [← UInt32.toNat_toBitVec, hbits]
  refine (toNat_append (0#8 ++ (a.toBitVec ++ b.toBitVec)) 0#8).trans ?_
  rw [toNat_append (0#8), BitVec.toNat_ofNat, Nat.zero_mod, Nat.zero_mul, Nat.zero_add,
    Nat.add_zero]

/-- A byte moved up is the first of 65536 places. -/
theorem setWidth_page (a : UInt8) :
    (a.toUInt32 <<< 16).toBitVec.setWidth 24 = a.toBitVec ++ 0#16 := by
  have h : (a.toUInt32 <<< 16).toBitVec = a.toUInt32.toBitVec <<< 16 := rfl
  refine BitVec.eq_of_getLsbD_eq fun i hi => ?_
  rw [h]
  simp only [UInt8.toBitVec_toUInt32, BitVec.getLsbD_setWidth, BitVec.getLsbD_shiftLeft,
    BitVec.getLsbD_append, BitVec.getLsbD_zero]
  grind

/-- Three bytes read are an address of the cell machine. -/
theorem mask_readTriple (m : MirroredMemory 24) (pos : UInt32) :
    mask 24 (readTriple m pos) = Cells.address m.mem (mask 24 pos) := by
  rw [mask, readTriple, setWidth_bytes]
  unfold MirroredMemory.get
  rw [mask_add, mask_add, mask_add, show mask 24 0 = 0#24 from rfl, BitVec.add_zero]
  rfl

/-! ## Windows -/

/-- A block of cells, by the high bits of its addresses. -/
theorem span_block {j k : Nat} (m : MirroredMemory (j + k)) (x : BitVec j) :
    span m (x.toNat * 2 ^ k) (2 ^ k) =
      some ((List.range (2 ^ k)).map fun i => m.mem (x ++ BitVec.ofNat k i)) := by
  have hx : (x.toNat + 1) * 2 ^ k ≤ 2 ^ (j + k) := by
    rw [Nat.pow_add]
    exact Nat.mul_le_mul_right _ x.isLt
  rw [Nat.succ_mul] at hx
  rw [span, if_pos hx]
  refine congrArg some (List.map_congr_left fun i hi => congrArg m.mem ?_)
  have hi : i < 2 ^ k := List.mem_range.1 hi
  apply BitVec.eq_of_toNat_eq
  rw [BitVec.toNat_ofNat, toNat_append, BitVec.toNat_ofNat, Nat.mod_eq_of_lt hi,
    Nat.mod_eq_of_lt (by omega)]

/-- The samples of a frame are those of the cell machine. -/
theorem span_sound (m : MirroredMemory 24) :
    (span m (readDouble m 6 <<< 8).toNat 256).map (·.map UInt8.toInt8) =
      some (Cells.sound m.mem) := by
  have hbase : (readDouble m 6 <<< 8).toNat =
      ((m.mem 6).toBitVec ++ (m.mem 7).toBitVec).toNat * 2 ^ 8 := toNat_bank _ _
  rw [hbase]
  refine (congrArg _ (span_block (j := 8 + 8) (k := 8) m _)).trans ?_
  rw [Option.map_some, List.map_map]
  rfl

/-- So is its picture. -/
theorem span_picture (m : MirroredMemory 24) :
    (span m (mask 24 (readSingle m 5 <<< 16)).toNat (screenW * screenH)).map (·.map bitColor) =
      some (Cells.picture m.mem) := by
  have hbase : (mask 24 (readSingle m 5 <<< 16)).toNat = (m.mem 5).toBitVec.toNat * 2 ^ 16 := by
    rw [mask, readSingle, setWidth_page, toNat_append, BitVec.toNat_ofNat, Nat.zero_mod,
      Nat.add_zero]
    rfl
  rw [hbase]
  refine (congrArg _ (span_block (j := 8) (k := 16) m _)).trans ?_
  rw [Option.map_some, List.map_map]
  rfl

/-! ## Keys -/

/-- The key on the keyboard for each key of the machine. -/
def scancodes : List Scancode := [27, 30, 31, 32, 20, 26, 8, 4, 22, 7, 29, 6, 33, 21, 9, 25]

/-- The keys of the machine that are held; the other bind of every key is the unknown key. -/
def hexKeys (keys : Scancode → Bool) : BitVec 16 :=
  (BitVec.ofBoolListLE (scancodes.map fun key => keys key || keys 0)).setWidth 16

/-- The default bindings, by the codes of the keys. -/
theorem binds_scancodes : ∀ mapping ∈ defaultKeyMappings, mapping.idx.toNat < 16 ∧
    mapping.key = scancodes.getD mapping.idx.toNat 0 ∧ mapping.alt = 0 := by decide

/-- Each of the sixteen keys is bound. -/
theorem exists_bind : ∀ k < 16, ∃ mapping ∈ defaultKeyMappings, mapping.idx.toNat = k := by decide

/-- **The preset binds** read exactly the keys of the machine. -/
theorem heldKeys_eq (input : BasicKeyboard) :
    (HexInput.heldKeys input defaultKeyMappings).toBitVec =
      (hexKeys input.newBuf).setWidth 32 := by
  refine BitVec.eq_of_getLsbD_eq fun j hj => Bool.eq_iff_iff.2 ?_
  have hbound : ∀ mapping ∈ defaultKeyMappings, mapping.idx.toNat < 32 := fun mapping h =>
    Nat.lt_trans (binds_scancodes mapping h).1 (by decide)
  refine (HexInput.has_heldKeys ⟨input, defaultKeyMappings, hbound⟩ j).trans ?_
  have hright : ((hexKeys input.newBuf).setWidth 32).getLsbD j = true ↔
      j < 16 ∧ (input.newBuf (scancodes.getD j 0) || input.newBuf 0) = true := by
    rw [BitVec.getLsbD_setWidth, hexKeys, BitVec.getLsbD_setWidth, BitVec.getLsbD_ofBoolListLE]
    rcases Nat.lt_or_ge j 16 with h | h
    · have hlen : j < scancodes.length := h
      simp [List.getD_eq_getElem?_getD, hlen, hj, h]
    · have hlen : scancodes.length ≤ j := h
      simp [List.getD_eq_getElem?_getD, hlen, Nat.not_lt.2 h]
  rw [hright]
  constructor
  · rintro ⟨mapping, hmem, rfl, hheld⟩
    obtain ⟨hlt, hkey, halt⟩ := binds_scancodes mapping hmem
    rw [hkey, halt] at hheld
    exact ⟨hlt, hheld⟩
  · rintro ⟨hlt, hheld⟩
    obtain ⟨mapping, hmem, rfl⟩ := exists_bind j hlt
    obtain ⟨_, hkey, halt⟩ := binds_scancodes mapping hmem
    rw [← hkey, ← halt] at hheld
    exact ⟨mapping, hmem, rfl, hheld⟩

/-- The two bytes the keys are stored in. -/
theorem set_keys (m : MirroredMemory 24) {keys : BitVec 16} {inputStates : UInt32}
    (h : inputStates.toBitVec = keys.setWidth 32) :
    ((m.set 0 (inputStates >>> 0x8).toUInt8).set 1 (inputStates &&& 0xFF).toUInt8).mem =
      Cells.storeKeys keys m.mem := by
  have hhi : (inputStates >>> 0x8).toUInt8 = ⟨keys.extractLsb' 8 8⟩ := by
    have hshift : (inputStates >>> 0x8).toBitVec = inputStates.toBitVec >>> 8 := rfl
    apply UInt8.toBitVec_inj.1
    rw [UInt32.toBitVec_toUInt8, hshift, h]
    grind
  have hlo : (inputStates &&& 0xFF).toUInt8 = ⟨keys.extractLsb' 0 8⟩ := by
    apply UInt8.toBitVec_inj.1
    have hmask : (0xFF : UInt32).toBitVec = (BitVec.allOnes 8).setWidth 32 := rfl
    rw [UInt32.toBitVec_toUInt8, UInt32.toBitVec_and, h, hmask]
    refine BitVec.eq_of_getLsbD_eq fun i hi => ?_
    simp only [BitVec.getLsbD_setWidth, BitVec.getLsbD_and, BitVec.getLsbD_allOnes,
      BitVec.getLsbD_extractLsb', Nat.zero_add, hi, decide_true, Bool.true_and, Bool.and_true]
    simp [show i < 32 by omega]
  rw [hhi, hlo]
  rfl

/-! ## Frames -/

/-- **One cycle** is a step of the cell machine. -/
theorem cycle_step (c : MirroredMemory 24 × UInt32) :
    ((cycle c).1.mem, mask 24 (cycle c).2) = Cells.machine.step (c.1.mem, mask 24 c.2) := by
  have hadd (n : UInt32) (m : MirroredMemory 24) :
      mask 24 (readTriple m (c.2 + n)) = Cells.address m.mem (mask 24 c.2 + mask 24 n) := by
    rw [mask_readTriple, mask_add]
  have hsource : mask 24 (readTriple c.1 (c.2 + 0)) = Cells.address c.1.mem (mask 24 c.2) :=
    (hadd 0 c.1).trans (congrArg _ (BitVec.add_zero _))
  unfold cycle MoveMachine.step
  dsimp only
  rw [hadd 6]
  unfold MirroredMemory.set MirroredMemory.get
  rw [hadd 3 c.1, hsource]
  rfl

/-- **The loop of a frame.** -/
theorem mem_cycleLoop (n : Nat) (pc : UInt32) (m : MirroredMemory 24) :
    (cycleLoop n pc m).mem = (Cells.machine.run n (m.mem, mask 24 pc)).1 := by
  let R (c : MirroredMemory 24 × UInt32) (s : Cells × BitVec 24) := (c.1.mem, mask 24 c.2) = s
  have hrun : R (cycle^[n] (m, pc)) (Cells.machine.run n (m.mem, mask 24 pc)) :=
    Cells.machine.run_eq_of_step (R := R)
      (fun c s h => (cycle_step c).trans (congrArg Cells.machine.step h)) n rfl
  exact congrArg Prod.fst hrun

/-- The core reads the start address before it stores the keys. -/
theorem address_storeKeys (keys : BitVec 16) (m : Cells) :
    Cells.address (Cells.storeKeys keys m) 2 = Cells.address m 2 := by
  have hkeep (a : BitVec 24) (h1 : a ≠ 1) (h0 : a ≠ 0) : Cells.storeKeys keys m a = m a := by
    rw [Cells.storeKeys, Function.update_of_ne h1, Function.update_of_ne h0]
  unfold Cells.address
  rw [hkeep 2 (by decide) (by decide), hkeep (2 + 1) (by decide) (by decide),
    hkeep (2 + 2) (by decide) (by decide)]

variable {s : BytePusherStandard}

/-- **The cycles of a frame** are a frame of it. -/
theorem memory_handleCycleLoop (hbinds : s.customBinds = defaultKeyMappings)
    (keys : Scancode → Bool) :
    (s.handleCycleLoop keys).memory.mem = Cells.frame (hexKeys keys) s.memory.mem := by
  have hheld : (HexInput.heldKeys (s.input.advanceState keys) s.customBinds).toBitVec =
      (hexKeys keys).setWidth 32 := hbinds ▸ heldKeys_eq _
  have hpc : mask 24 s.getProgramCounter = Cells.address s.memory.mem 2 := mask_readTriple _ 2
  unfold handleCycleLoop getKeyStates
  dsimp only
  rw [mem_cycleLoop, set_keys s.memory hheld]
  unfold Cells.frame Cells.execute
  rw [address_storeKeys, ← hpc, standardCpf]
  rfl

/-! ## What a frame sends out -/

/-- The picture pushed. -/
theorem pushVideoData_eq : s.pushVideoData = some (Cells.picture s.memory.mem, s.metadata) := by
  have h := span_picture s.memory
  unfold pushVideoData
  cases hspan : span s.memory (mask 24 (readSingle s.memory 5 <<< 16)).toNat
      (screenW * screenH) with
  | none => rw [hspan] at h; cases h
  | some pixels =>
    rw [hspan] at h
    exact congrArg some (congrArg (·, s.metadata) (Option.some.inj h))

/-- The samples pushed, if there is a device. -/
theorem pushAudioData_eq (hpause : s.cachedSystemState.has EmuState.anyPause = false) :
    s.pushAudioData = some (if s.audioDevice then some (Cells.sound s.memory.mem) else none) := by
  have h := span_sound s.memory
  unfold pushAudioData
  rw [hpause]
  cases s.audioDevice with
  | false => rfl
  | true =>
    cases hspan : span s.memory (readDouble s.memory 6 <<< 8).toNat 256 with
    | none => rw [hspan] at h; cases h
    | some samples =>
      rw [hspan] at h
      exact congrArg (some ∘ some) (Option.some.inj h)

/-- A pause is silent. -/
theorem pushAudioData_pause (hpause : s.cachedSystemState.has EmuState.anyPause = true) :
    s.pushAudioData =
      some (if s.audioDevice then some (List.replicate audioSampleTotal 0) else none) := by
  unfold pushAudioData
  rw [hpause]
  split <;> rfl

/-- What never changes. -/
structure Fixed (boot s : BytePusherStandard) : Prop where
  customBinds : s.customBinds = boot.customBinds
  fileImage : s.fileImage = boot.fileImage
  metadata : s.metadata = boot.metadata
  audioDevice : s.audioDevice = boot.audioDevice

/-- Over two runs, one after the other. -/
theorem Fixed.trans {boot t : BytePusherStandard} (h : Fixed boot s) (h' : Fixed s t) :
    Fixed boot t where
  customBinds := h'.customBinds.trans h.customBinds
  fileImage := h'.fileImage.trans h.fileImage
  metadata := h'.metadata.trans h.metadata
  audioDevice := h'.audioDevice.trans h.audioDevice

/-- The cycles of a frame change none of it. -/
theorem fixed_handleCycleLoop (keys : Scancode → Bool) : Fixed s (s.handleCycleLoop keys) :=
  ⟨rfl, rfl, rfl, rfl⟩

/-- A frame under a pause changes nothing. -/
theorem mainSystemLoop_pause (hpause : s.cachedSystemState.has EmuState.anyPause = true)
    (keys : Scancode → Bool) : ∃ audio, s.mainSystemLoop keys = some (s, ⟨audio, none⟩) := by
  unfold mainSystemLoop
  rw [if_pos hpause, pushAudioData_pause hpause]
  exact ⟨_, rfl⟩

/-- Another runs its cycles and pushes what they leave. -/
theorem mainSystemLoop_run (hpause : s.cachedSystemState.has EmuState.anyPause = false)
    (keys : Scancode → Bool) :
    ∃ t, t = s.handleCycleLoop keys ∧ s.mainSystemLoop keys = some (t,
      ⟨if s.audioDevice then some (Cells.sound t.memory.mem) else none,
        some (Cells.picture t.memory.mem, s.metadata)⟩) := by
  have hcached : (s.handleCycleLoop keys).cachedSystemState = s.cachedSystemState := rfl
  have hfixed := fixed_handleCycleLoop (s := s) keys
  refine ⟨_, rfl, ?_⟩
  unfold mainSystemLoop
  rw [hpause]
  generalize s.handleCycleLoop keys = t at hcached hfixed
  rw [if_neg Bool.false_ne_true]
  dsimp only
  rw [pushAudioData_eq (hcached ▸ hpause), pushVideoData_eq, hfixed.metadata,
    hfixed.audioDevice]
  rfl

/-- The worker finds the system stopped or paused. -/
def idle (s : BytePusherStandard) : Bool :=
  s.systemState.has EmuState.anyStop || s.systemState.has EmuState.anyPause

/-- Counting a frame changes none of it, nor memory. -/
theorem countFrame_frame (s : BytePusherStandard) :
    s.countFrame.memory = s.memory ∧ Fixed s s.countFrame := by
  unfold countFrame
  split
  · exact ⟨rfl, rfl, rfl, rfl, rfl⟩
  · exact ⟨rfl, rfl, rfl, rfl, rfl⟩

/-- **A frame of the worker**, while the system is stopped or paused. -/
theorem workerFrame_of_idle (h : s.idle = true) (keys : Scancode → Bool) :
    ∃ s' out, s.workerFrame keys = some (s', out) ∧ s'.memory = s.memory ∧ Fixed s s' ∧
      out.video = none := by
  let t : BytePusherStandard := { s with cachedSystemState := s.systemState }
  have hst : Fixed s t := ⟨rfl, rfl, rfl, rfl⟩
  unfold workerFrame
  dsimp only
  split
  · exact ⟨t, _, rfl, rfl, hst, rfl⟩
  · next hstop =>
    have hpause : t.cachedSystemState.has EmuState.anyPause = true :=
      ((Bool.or_eq_true _ _).mp h).resolve_left hstop
    obtain ⟨audio, haudio⟩ := mainSystemLoop_pause hpause keys
    obtain ⟨hmem, hfixed⟩ := countFrame_frame t
    exact ⟨t.countFrame, ⟨audio, none⟩, congrArg (Option.map _) haudio, hmem,
      hst.trans hfixed, rfl⟩

/-- **A frame of the worker**, while the system runs. -/
theorem workerFrame_of_not_idle (h : s.idle = false)
    (hbinds : s.customBinds = defaultKeyMappings) (keys : Scancode → Bool) :
    ∃ s' out, s.workerFrame keys = some (s', out) ∧
      s'.memory.mem = Cells.frame (hexKeys keys) s.memory.mem ∧ Fixed s s' ∧
      out.video = some (Cells.picture s'.memory.mem, s.metadata) ∧
      out.audio = if s.audioDevice then some (Cells.sound s'.memory.mem) else none := by
  obtain ⟨hstop, hpause⟩ := Bool.or_eq_false_iff.1 h
  let t : BytePusherStandard := { s with cachedSystemState := s.systemState }
  have hst : Fixed s t := ⟨rfl, rfl, rfl, rfl⟩
  obtain ⟨u, hu, hrun⟩ := mainSystemLoop_run (s := t) hpause keys
  have hmem : u.memory.mem = Cells.frame (hexKeys keys) s.memory.mem :=
    hu ▸ memory_handleCycleLoop (s := t) hbinds keys
  have hfixed : Fixed t u := hu ▸ fixed_handleCycleLoop (s := t) keys
  obtain ⟨hcount, hcountFixed⟩ := countFrame_frame u
  have hframe : s.workerFrame keys =
      (t.mainSystemLoop keys).map fun r => (r.1.countFrame, r.2) := by
    unfold workerFrame
    dsimp only
    rw [hstop]
    rfl
  refine ⟨u.countFrame, _, hframe.trans (congrArg (Option.map _) hrun), ?_,
    (hst.trans hfixed).trans hcountFixed, ?_, ?_⟩
  · rw [hcount, hmem]
  · rw [hcount]
  · rw [hcount]

/-! ## Runs -/

/-- What an event does to the machine. -/
def action (s : BytePusherStandard) : Event → Option Action
  | .reset => if s.systemState .reset then some .load else none
  | .frame keys => if s.idle then none else some (.frame (hexKeys keys))
  | .gui (.editMemory address value) => some (.poke (mask 24 address) value)
  | .gui _ => none

/-- A loaded program lies at address 0. -/
theorem mem_copyFileImage (h : s.memory = MirroredMemory.clear) :
    s.copyFileImage.memory.mem = Cells.loaded s.fileImage := by
  funext a
  have hmem : s.copyFileImage.memory = s.memory.copyFrom 0 s.fileImage := rfl
  rw [hmem, h, Cells.loaded]
  rcases Nat.lt_or_ge a.toNat s.fileImage.length with hlt | hge
  · exact copyFrom_of_mem (Nat.zero_le _) hlt
  · rw [copyFrom_of_not_mem fun hcov => Nat.not_lt.2 hge hcov.2, List.getD_eq_getElem?_getD,
      List.getElem?_eq_none hge]
    rfl

/-- A program is accepted precisely if the machine has a cell for each of its bytes. -/
theorem validateProgram_iff (image : List UInt8) :
    validateProgram image = none ↔ image ≠ [] ∧
      ∀ i < image.length, ∃ a : BitVec 24, a.toNat = i ∧ Cells.loaded image a = image.getD i 0 := by
  unfold validateProgram
  cases image with
  | nil => exact iff_of_false (fun h => nomatch h) fun h => h.1 rfl
  | cons b bs =>
    rw [if_neg (by simp)]
    constructor
    · intro h
      refine ⟨List.cons_ne_nil b bs, fun i hi => ?_⟩
      have hfits : (b :: bs).length ≤ 2 ^ 24 := by
        by_contra hlong
        rw [if_neg hlong] at h
        exact nomatch h
      have haddr : (BitVec.ofNat 24 i).toNat = i := Nat.mod_eq_of_lt (hi.trans_le hfits)
      exact ⟨BitVec.ofNat 24 i, haddr, by rw [Cells.loaded, haddr]⟩
    · rintro ⟨-, hcells⟩
      refine if_pos ?_
      obtain ⟨a, ha, -⟩ := hcells bs.length (Nat.lt_succ_self _)
      exact Nat.succ_le_of_lt (ha ▸ a.isLt)

/-- One operation of the GUI thread: only the memory editor reaches the memory. -/
theorem guiStep_frame (op : GuiOp) (s : BytePusherStandard) :
    (guiStep op s).memory.mem =
        (action s (.gui op)).elim s.memory.mem (Cells.act s.fileImage s.memory.mem) ∧
      Fixed s (guiStep op s) := by
  cases op with
  | tryPauseSystem =>
    unfold guiStep
    dsimp only
    split
    · exact ⟨rfl, rfl, rfl, rfl, rfl⟩
    · exact ⟨rfl, rfl, rfl, rfl, rfl⟩
  | _ => exact ⟨rfl, rfl, rfl, rfl, rfl⟩

/-- The reset the worker tests for. -/
theorem workerReset_frame (s : BytePusherStandard) :
    s.workerReset.memory.mem =
        (action s .reset).elim s.memory.mem (Cells.act s.fileImage s.memory.mem) ∧
      Fixed s s.workerReset := by
  unfold workerReset action
  dsimp only
  split
  · refine ⟨?_, rfl, rfl, rfl, rfl⟩
    exact mem_copyFileImage (s := { s with
      benchedFrames := 0
      elapsedFrames := 0
      input := BasicKeyboard.resetState
      memory := MirroredMemory.clear }) rfl
  · exact ⟨rfl, rfl, rfl, rfl, rfl⟩

/-- **One event** is one action of the machine, or none. -/
theorem step_action (hbinds : s.customBinds = defaultKeyMappings) (e : Event) :
    ∃ s', step s e = some s' ∧ Fixed s s' ∧ s'.memory.mem =
      (action s e).elim s.memory.mem (Cells.act s.fileImage s.memory.mem) := by
  cases e with
  | reset =>
    obtain ⟨hmem, hfixed⟩ := workerReset_frame s
    exact ⟨_, rfl, hfixed, hmem⟩
  | gui op =>
    obtain ⟨hmem, hfixed⟩ := guiStep_frame op s
    exact ⟨_, rfl, hfixed, hmem⟩
  | frame keys =>
    cases hidle : s.idle with
    | true =>
      obtain ⟨s', out, hframe, hmem, hfixed, _⟩ := workerFrame_of_idle hidle keys
      refine ⟨s', congrArg (Option.map Prod.fst) hframe, hfixed, ?_⟩
      rw [hmem, action, hidle]
      rfl
    | false =>
      obtain ⟨s', out, hframe, hmem, hfixed, _⟩ := workerFrame_of_not_idle hidle hbinds keys
      refine ⟨s', congrArg (Option.map Prod.fst) hframe, hfixed, ?_⟩
      rw [hmem, action, hidle]
      rfl

variable (image : List UInt8) (audioDevice : Bool)

/-- The actions of a run. -/
def actions (events : List Event) : List Action :=
  (Runs.taken step (boot image audioDevice) events).filterMap fun x => action x.1 x.2

/-- A run never stops, keeps what is fixed, and is a run of the machine. -/
theorem run_actions (events : List Event) :
    ∃ s, Runs.run step (boot image audioDevice) events = some s ∧
      Fixed (boot image audioDevice) s ∧
      s.memory.mem =
        (actions image audioDevice events).foldl (Cells.act image) (Cells.loaded image) := by
  have hstep (s : BytePusherStandard) (e : Event) (hs : Fixed (boot image audioDevice) s) :
      ∃ s', step s e = some s' ∧ Fixed (boot image audioDevice) s' ∧ s'.memory.mem =
        (action s e).elim s.memory.mem (Cells.act image s.memory.mem) := by
    obtain ⟨s', hs', hfixed, hmem⟩ := step_action (s := s) hs.customBinds e
    rw [hs.fileImage] at hmem
    exact ⟨s', hs', hs.trans hfixed, hmem⟩
  have hboot : (boot image audioDevice).memory.mem = Cells.loaded image :=
    mem_copyFileImage (s := { boot image audioDevice with memory := MirroredMemory.clear }) rfl
  obtain ⟨s, hrun, hfixed, hmem⟩ :=
    Runs.exists_run_of_actions hstep (s := boot image audioDevice) ⟨rfl, rfl, rfl, rfl⟩ events
  refine ⟨s, hrun, hfixed, ?_⟩
  rw [hmem, hboot]
  rfl

/-- **The core is the machine.** A run never ends in a pointer outside the memory, its memory is
that of the machine, and a frame from there, unless the system is stopped or paused, runs a frame
of the machine and sends out its picture and its sound. -/
theorem runs_machine (events : List Event) :
    ∃ s, Runs.run step (boot image audioDevice) events = some s ∧
      s.memory.mem =
        (actions image audioDevice events).foldl (Cells.act image) (Cells.loaded image) ∧
      ∀ keys, ∃ s' out, s.workerFrame keys = some (s', out) ∧
        if s.idle then s'.memory.mem = s.memory.mem ∧ out.video = none
        else
          s'.memory.mem = Cells.frame (hexKeys keys) s.memory.mem ∧
            out.video = some (Cells.picture s'.memory.mem, s.metadata) ∧
            out.audio = if audioDevice then some (Cells.sound s'.memory.mem) else none := by
  obtain ⟨s, hrun, hfixed, hmem⟩ := run_actions image audioDevice events
  have haudio : s.audioDevice = audioDevice := hfixed.audioDevice
  refine ⟨s, hrun, hmem, fun keys => ?_⟩
  cases hidle : s.idle with
  | true =>
    obtain ⟨s', out, hframe, hkept, _, hvideo⟩ := workerFrame_of_idle hidle keys
    exact ⟨s', out, hframe, congrArg _ hkept, hvideo⟩
  | false =>
    obtain ⟨s', out, hframe, hstep, _, hvideo, hsound⟩ :=
      workerFrame_of_not_idle hidle hfixed.customBinds keys
    exact ⟨s', out, hframe, hstep, hvideo, haudio ▸ hsound⟩

/-! ## Bytes -/

/-- The bytes of a memory with the program in it. -/
def programBytes (image : List UInt8) : Set UInt8 := insert 0 {b | b ∈ image}

/-- The bytes there may be after an action, from those there were. -/
def Action.bytes (image : List UInt8) (B : Set UInt8) : Action → Set UInt8
  | .frame keys => insert ⟨keys.extractLsb' 0 8⟩ (insert ⟨keys.extractLsb' 8 8⟩ B)
  | .load => programBytes image
  | .poke _ value => insert value B

variable {image}

/-- A store adds at most the byte stored. -/
theorem range_update (m : Cells) (a : BitVec 24) (v : UInt8) {B : Set UInt8}
    (h : Set.range m ⊆ B) : Set.range (Function.update m a v) ⊆ insert v B := by
  rintro _ ⟨b, rfl⟩
  rw [Function.update_apply]
  split
  · exact .inl rfl
  · exact .inr (h ⟨b, rfl⟩)

/-- Memory begins with bytes of the program and zeros. -/
theorem range_loaded : Set.range (Cells.loaded image) ⊆ programBytes image := by
  rintro _ ⟨a, rfl⟩
  rw [Cells.loaded, List.getD_eq_getElem?_getD]
  cases hget : image[a.toNat]? with
  | none => exact .inl rfl
  | some b => exact .inr (List.mem_of_getElem? hget)

/-- One action: a frame moves the bytes there are and the two bytes of the keys. -/
theorem range_act {m : Cells} {B : Set UInt8} (h : Set.range m ⊆ B) (a : Action) :
    Set.range (Cells.act image m a) ⊆ a.bytes image B := by
  cases a with
  | frame keys =>
    exact (Cells.machine.run_moves 65536 _).trans (range_update _ 1 _ (range_update m 0 _ h))
  | load => exact range_loaded
  | poke a v => exact range_update m a v h

/-- Over a run, each action adds at most its own bytes. -/
theorem range_foldl_act (as : List Action) {m : Cells} {B : Set UInt8} (h : Set.range m ⊆ B) :
    Set.range (as.foldl (Cells.act image) m) ⊆ as.foldl (Action.bytes image) B := by
  induction as generalizing m B with
  | nil => exact h
  | cons a as ih => exact ih (range_act h a)

variable (image)

/-- **No byte from nowhere.** Whatever a program does, every byte of the memory is 0, a byte of
the program, or a byte of the keys or of the memory editor since the last reset. -/
theorem run_bytes (events : List Event) :
    ∃ s, Runs.run step (boot image audioDevice) events = some s ∧
      ∀ a, s.memory.mem a ∈
        (actions image audioDevice events).foldl (Action.bytes image) (programBytes image) := by
  obtain ⟨s, hrun, _, hmem⟩ := run_actions image audioDevice events
  refine ⟨s, hrun, fun a => ?_⟩
  exact range_foldl_act _ range_loaded (hmem ▸ ⟨a, rfl⟩)

end BytePusherStandard

end CubeChip
