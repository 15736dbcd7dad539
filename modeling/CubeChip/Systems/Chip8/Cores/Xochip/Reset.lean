import CubeChip.Systems.Chip8.Cores.Xochip
import CubeChip.Systems.Chip8.Restart

/-!
# `XOCHIP`: reset and boot

A boot copies the small font and the large one behind it, a reset clears the memory and copies
the small one alone: no reset yields the memory of a boot. Beside the large font only the
resolution flag can differ, which no reset touches; `reset_restores` is everything else.
-/

namespace CubeChip.Xochip

open CubeChip.Core

/-! ## What is compared -/

/-- Everything compared but the memory and the resolution flag. -/
structure SameRest (s s' : Xochip) : Prop where
  planes : ∀ P, Map2D.SameCells (s.own.displayMap P) (s'.own.displayMap P)
  planeMask : s.own.planeMask = s'.own.planeMask
  bitColor : ∀ index, getBitColor s index = getBitColor s' index
  pulsePatternData : s.own.pulsePatternData = s'.own.pulsePatternData
  processor : Cpu.SameState s.toCpu s'.toCpu
  standardCpf : s.standardCpf = s'.standardCpf

/-- Two machines that run a program alike. -/
structure SameStart (s s' : Xochip) : Prop extends SameRest s s' where
  memory : s.memory = s'.memory
  hiresScreen : s.trait.useHiresScreen = s'.trait.useHiresScreen

/-! ## What every state keeps -/

/-- A plane in one of the two resolutions. -/
def Sized (m : Map2D UInt8) : Prop :=
  (m.sizeX = screenW / 2 ∧ m.sizeY = screenH / 2) ∨ (m.sizeX = screenW ∧ m.sizeY = screenH)

theorem Sized.congr {m m' : Map2D UInt8} (h : Sized m) (hsize : Map2D.SameSize m' m) :
    Sized m' := by
  unfold Sized
  rw [hsize.1, hsize.2]
  exact h

/-- Such a plane holds the small resolution. -/
theorem Sized.le_size {m : Map2D UInt8} (h : Sized m) :
    screenH / 2 * (screenW / 2) ≤ m.size := by
  rcases h with ⟨hX, hY⟩ | ⟨hX, hY⟩
  · rw [Map2D.size, hX, hY]
  · rw [Map2D.size, hX, hY]
    decide

/-- The program is the one started, and the planes have one of the two resolutions. -/
structure InShape (launch : Launch) (b : Body 16 Members) : Prop where
  fileImage : b.fileImage = launch.fileImage
  planes : ∀ P, Sized (b.own.displayMap P)

variable {launch : Launch}

/-- Only the sizes of the planes matter. -/
theorem InShape.congr {b b' : Body 16 Members} (h : InShape launch b)
    (hfile : b'.fileImage = b.fileImage)
    (hsize : ∀ P, Map2D.SameSize (b'.own.displayMap P) (b.own.displayMap P)) :
    InShape launch b' :=
  ⟨hfile.trans h.fileImage, fun P => (h.planes P).congr (hsize P)⟩

theorem inShape_boot (launch : Launch) : InShape launch (boot launch).body :=
  ⟨rfl, fun _ => .inl ⟨rfl, rfl⟩⟩

theorem sameSize_drawPlane (s : Xochip) (N : Fin 16) (pX pY : Nat) (P : Fin 4) (c : Canvas) :
    Map2D.SameSize (drawPlane s N pX pY P c).map c.map := by
  have hbyte (X Y : Nat) (DATA : UInt8) (c : Canvas) :
      Map2D.SameSize (drawByte s X Y DATA c).map c.map := Canvas.sameSize_drawByte ..
  unfold drawPlane
  split
  · exact Canvas.sameSize_drawRows (fun _ _ _ => (hbyte ..).trans (hbyte ..)) ..
  · exact hbyte ..
  · exact Canvas.sameSize_drawRows (fun _ _ _ => hbyte ..) ..

theorem sameSize_drawOn (s : Xochip) (N : Fin 16) (pX pY : Nat) (d : Planes) (P Q : Fin 4) :
    Map2D.SameSize ((drawOn s N pX pY d P).1 Q) (d.1 Q) := by
  unfold drawOn
  split
  · by_cases hQ : Q = P
    · subst hQ
      dsimp only
      rw [Function.update_self]
      exact sameSize_drawPlane s N pX pY Q ⟨d.1 Q, d.2⟩
    · dsimp only
      rw [Function.update_of_ne hQ]
      exact ⟨rfl, rfl⟩
  · exact ⟨rfl, rfl⟩

/-- Drawing on planes one after the other. -/
theorem sameSize_drawPlanes (s : Xochip) (N : Fin 16) (pX pY : Nat) (Ps : List (Fin 4))
    (d : Planes) (Q : Fin 4) :
    Map2D.SameSize ((Ps.foldl (drawOn s N pX pY) d).1 Q) (d.1 Q) := by
  induction Ps generalizing d with
  | nil => exact ⟨rfl, rfl⟩
  | cons P Ps ih => exact (ih (drawOn s N pX pY d P)).trans (sameSize_drawOn s N pX pY d P Q)

/-- Rewriting planes without a resize. -/
theorem InShape.onPlanes {s : Xochip} (h : InShape launch s.body) (mask : Fin 16)
    {f : Map2D UInt8 → Map2D UInt8} (hf : ∀ m, Map2D.SameSize (f m) m) :
    InShape launch (onPlanes mask f s).body := by
  refine h.congr rfl fun P => ?_
  simp only [Xochip.onPlanes, onOwn, body]
  split
  · exact hf _
  · exact ⟨rfl, rfl⟩

theorem inShape_execute (i : Instruction) (s s' : Xochip) (hs : InShape launch s.body)
    (h : execute i s = some s') : InShape launch s'.body := by
  have hshift (x y : Int) (m : Map2D UInt8) : Map2D.SameSize (m.shift x y 0) m :=
    Map2D.sameSize_shift ..
  cases i with
  | common i =>
      cases h
      obtain ⟨hset, hown, _⟩ := executeCommon_frame (config s) i s
      refine hs.congr (congrArg (·.fileImage) hset) fun P => ?_
      exact ⟨congrArg (fun o => (o.displayMap P).sizeX) hown,
        congrArg (fun o => (o.displayMap P).sizeY) hown⟩
  | i00CN N =>
      cases h
      unfold instruction00CN
      split
      · exact (hs.onPlanes _ (hshift 0 N.val) :)
      · exact hs
  | i00DN N =>
      cases h
      unfold instruction00DN
      split
      · exact (hs.onPlanes _ (hshift 0 (-N.val)) :)
      · exact hs
  | i00E0 => cases h; exact hs.onPlanes _ fun _ => ⟨rfl, rfl⟩
  | i00FB => cases h; exact (hs.onPlanes _ (hshift 4 0) :)
  | i00FC => cases h; exact (hs.onPlanes _ (hshift (-4) 0) :)
  | i00FE => cases h; exact ⟨hs.fileImage, fun _ => .inl ⟨rfl, rfl⟩⟩
  | i00FF => cases h; exact ⟨hs.fileImage, fun _ => .inr ⟨rfl, rfl⟩⟩
  | iDxyN X Y N => cases h; exact hs.congr rfl (sameSize_drawPlanes s N _ _ [0, 1, 2, 3] _)
  | i5xy2 | i5xy3 | i5xy4 | iF002 | iFN01 | iFN75 => cases h; exact hs.congr rfl fun _ => ⟨rfl, rfl⟩
  | iFN85 N =>
      obtain ⟨r, _, rfl⟩ := Option.map_eq_some_iff.1 h
      exact hs
  | _ => cases h; exact hs

/-- **The invariant.** -/
theorem alwaysKept_inShape : AlwaysKept virtuals (InShape launch) where
  enterLoop := fun _ hs => hs
  execute := inShape_execute
  pushAudioData := fun _ s hs => by
    simp only [virtuals, pushAudioData]
    split
    · exact hs
    · exact hs.congr rfl fun _ => ⟨rfl, rfl⟩
  pushVideoData := fun _ hs => hs
  reset := fun s hs => ⟨hs.fileImage, fun _ => .inl ⟨rfl, rfl⟩⟩
  toggleQuirk := fun s hs _ _ => hs.congr rfl fun _ => ⟨rfl, rfl⟩
  editMemory := fun s hs _ _ => hs.congr rfl fun _ => ⟨rfl, rfl⟩

/-! ## Reset -/

theorem powerOn_boot (launch : Launch) : Cpu.PowerOn bootPos (boot launch).toCpu :=
  ⟨rfl, rfl, rfl, rfl, rfl, rfl, rfl, rfl, rfl⟩

theorem powerOn_reset (s : Xochip) :
    Cpu.PowerOn bootPos (performInstanceReset virtuals s).toCpu :=
  Cpu.powerOn_resetInstance s.toIFamily bootPos

theorem standardCpf_boot (launch : Launch) : (boot launch).standardCpf = speedLo := rfl

theorem standardCpf_reset (s : Xochip) :
    (performInstanceReset virtuals s).standardCpf = speedLo := rfl

/-- The palette a reset loads shows the colours an empty one shows. -/
theorem getBitColor_reset (s : Xochip) (index : Fin 16) :
    getBitColor (performInstanceReset virtuals s) index = bitColor index.val := by
  change (if (bitColor index.val).isSet then bitColor index.val else bitColor index.val) = _
  split <;> rfl

/-- The addresses of the large font. -/
def InLargeFont (a : BitVec 16) : Prop := 80 ≤ a.toNat ∧ a.toNat < 240

/-- A core whose memory holds the program alone, in a reset. -/
def cleared (s : Xochip) : Xochip :=
  copyFileImageTo gameLoadPos { s.onFamily .resetInstance with memory := MirroredMemory.clear }

/-- The same in a boot. -/
def loaded (launch : Launch) : Xochip :=
  ((construct launch).onFamily (.addQuirk .wrapSprites)).copyFileImageTo gameLoadPos

/-- Nothing is in front of the program. -/
theorem memory_cleared_of_lt (s : Xochip) {a : BitVec 16} (h : a.toNat < gameLoadPos) :
    (cleared s).memory.mem a = 0 :=
  MirroredMemory.copyFrom_of_not_mem fun hcov => Nat.not_lt.2 hcov.1 h

/-- **What a reset restores.** In every state reached a reset restores all that is compared
outside the large font, and leaves the resolution flag as it was. -/
theorem reset_restores (s : Xochip) (h : Reachable virtuals (boot launch) s) :
    SameRest (performInstanceReset virtuals s) (boot launch) ∧
      (∀ a, ¬ InLargeFont a →
        (performInstanceReset virtuals s).memory.mem a = (boot launch).memory.mem a) ∧
      (performInstanceReset virtuals s).trait.useHiresScreen = s.trait.useHiresScreen := by
  have hs : InShape launch s.body := alwaysKept_inShape.reachable (inShape_boot launch) h
  refine ⟨⟨fun P => Map2D.sameCells_fill_resize (hs.planes P).le_size 0, rfl,
    getBitColor_reset s, rfl, (powerOn_reset s).sameState (powerOn_boot launch),
    (standardCpf_reset s).trans (standardCpf_boot launch).symm⟩, ?_, rfl⟩
  intro a ha
  have hreset : (performInstanceReset virtuals s).memory =
    ((cleared s).copyFontDataTo 80).memory := rfl
  have hboot : (boot launch).memory = ((loaded launch).copyFontDataTo 240).memory := rfl
  rw [hreset, hboot]
  by_cases hsmall : a.toNat < 80
  · rw [memory_copyFontDataTo_of_lt _ (by decide) hsmall,
      memory_copyFontDataTo_of_lt _ (by decide) (Nat.lt_trans hsmall (by decide))]
  · have hle : 80 ≤ a.toNat := Nat.le_of_not_lt hsmall
    have hlarge : 240 ≤ a.toNat := Nat.le_of_not_lt fun hlt => ha ⟨hle, hlt⟩
    rw [memory_copyFontDataTo_of_le _ hle, memory_copyFontDataTo_of_le _ hlarge]
    exact congrArg (fun image => (MirroredMemory.clear.copyFrom gameLoadPos image).mem a)
      hs.fileImage

/-- **No reset is a boot**: the first byte of the large font is missing after it. -/
theorem reset_not_sameStart (launch : Launch) (s : Xochip) :
    ¬ SameStart (performInstanceReset virtuals s) (boot launch) := by
  intro hsame
  have hmem : ((cleared s).copyFontDataTo 80).memory.mem 80 =
      ((loaded launch).copyFontDataTo 240).memory.mem 80 :=
    congrArg (fun m => m.mem 80) hsame.memory
  rw [memory_copyFontDataTo_of_le _ (by decide), memory_cleared_of_lt s (by decide),
    memory_copyFontDataTo_of_lt _ (by decide) (by decide)] at hmem
  exact absurd hmem (by decide)

/-- `00FF` and a jump to itself, one frame, then a reset: high resolution stays on, and the
large font is gone. -/
theorem reset_not_boot :
    ∃ s, Reachable virtuals (boot (.ofProgram [0x00, 0xFF, 0x12, 0x02])) s ∧
      (performInstanceReset virtuals s).trait.useHiresScreen = true ∧
      (performInstanceReset virtuals s).memory.get 80 = 0x00 ∧
      (boot (.ofProgram [0x00, 0xFF, 0x12, 0x02])).memory.get 80 = 0x7C ∧
      ¬ SameStart (performInstanceReset virtuals s)
        (boot (.ofProgram [0x00, 0xFF, 0x12, 0x02])) := by
  have hrun : (Runs.run (step virtuals) (boot (.ofProgram [0x00, 0xFF, 0x12, 0x02]))
      [.idle]).map
        (fun s => (s.trait.useHiresScreen, (performInstanceReset virtuals s).memory.get 80))
        = some (true, 0x00) := by decide +kernel
  obtain ⟨s, hs, heq⟩ := Option.map_eq_some_iff.1 hrun
  obtain ⟨hhigh, hbyte⟩ := Prod.mk.inj heq
  have hboot : (boot (.ofProgram [0x00, 0xFF, 0x12, 0x02])).memory.get 80 = 0x7C := by
    decide +kernel
  refine ⟨s, ⟨_, hs⟩, hhigh, hbyte, hboot, fun hsame => ?_⟩
  have hbyte' := congrArg (fun m => m.get 80) hsame.memory
  exact absurd ((hbyte.symm.trans hbyte').trans hboot) (by decide)

end CubeChip.Xochip
