import CubeChip.Systems.Chip8.Cells
import CubeChip.Systems.Chip8.Cores.Xochip.Reset

/-!
# The planes and the picture of `XOCHIP`

`push_video_data` reads the four planes at one index and makes of their cells an index into the
palette. Cells are bits in every state, so the palette index has one bit for each plane
(`bits_reachable`). The index into the planes goes by the resolution flag, and as in
`SCHIP_MODERN` a reset resizes the planes and leaves the flag: flag and planes agree in every
state of a run precisely when every reset finds the flag off (`planes_run`).
-/

namespace CubeChip.Xochip

open CubeChip.Core
open Map2D (Every)

/-! ## Bits -/

/-- A cell of a plane. -/
def IsBit (cell : UInt8) : Prop := cell = 0 ∨ cell = 1

/-- A cell that is cleared is a bit. -/
theorem isBit_zero : IsBit 0 := .inl rfl

/-- Flipping a bit gives a bit. -/
theorem isBit_xor (x : UInt8) (h : IsBit x) : IsBit (x ^^^ 1) := by
  rcases h with rfl | rfl
  · exact .inr rfl
  · exact .inl rfl

/-- Every plane holds bits. -/
def HoldsBits (b : Body 16 Members) : Prop := ∀ P, Every IsBit (b.own.displayMap P)

/-- A sprite flips the cells of a plane. -/
theorem every_drawPlane (s : Xochip) (N : Fin 16) (pX pY : Nat) (P : Fin 4) {c : Canvas}
    (h : Every IsBit c.map) : Every IsBit (drawPlane s N pX pY P c).map := by
  have hbyte (X Y : Nat) (DATA : UInt8) {c : Canvas} (h : Every IsBit c.map) :
      Every IsBit (drawByte s X Y DATA c).map := Canvas.every_drawByte isBit_xor _ X Y DATA h
  unfold drawPlane
  split
  · exact Canvas.every_drawRows (fun _ Y _ hc => hbyte _ Y _ (hbyte _ Y _ hc)) 16 0 pY h
  · exact hbyte pX pY _ h
  · exact Canvas.every_drawRows (fun _ Y _ hc => hbyte pX Y _ hc) _ 0 pY h

/-- The plane drawn, and the planes that are not. -/
theorem every_drawOn (s : Xochip) (N : Fin 16) (pX pY : Nat) {d : Planes} (P : Fin 4)
    (h : ∀ Q, Every IsBit (d.1 Q)) (Q : Fin 4) : Every IsBit ((drawOn s N pX pY d P).1 Q) := by
  unfold drawOn
  split
  · dsimp only
    by_cases hQ : Q = P
    · subst hQ
      rw [Function.update_self]
      exact every_drawPlane s N pX pY Q (h Q)
    · rw [Function.update_of_ne hQ]
      exact h Q
  · exact h Q

/-- An operation on the planes of a mask. -/
theorem HoldsBits.onPlanes {s : Xochip} (h : HoldsBits s.body) (mask : Fin 16)
    {f : Map2D UInt8 → Map2D UInt8} (hf : ∀ m, Every IsBit m → Every IsBit (f m)) :
    HoldsBits (onPlanes mask f s).body := by
  intro P
  simp only [Xochip.onPlanes, onOwn, body]
  split
  · exact hf _ (h P)
  · exact h P

/-- Every instruction. -/
theorem holdsBits_execute (i : Instruction) (s s' : Xochip) (hs : HoldsBits s.body)
    (h : execute i s = some s') : HoldsBits s'.body := by
  have hshift (cols rows : Int) (m : Map2D UInt8) (hm : Every IsBit m) :
      Every IsBit (m.shift cols rows 0) := hm.shift cols rows isBit_zero
  cases i with
  | common i =>
      cases h
      intro P
      have hown : (s.executeCommon (config s) i).own = s.own := (executeCommon_frame _ i s).2.1
      exact (congrArg (fun own => own.displayMap P) hown).symm ▸ hs P
  | i00CN N =>
      cases h
      unfold instruction00CN
      split
      · exact hs.onPlanes _ (hshift 0 N.val)
      · exact hs
  | i00DN N =>
      cases h
      unfold instruction00DN
      split
      · exact hs.onPlanes _ (hshift 0 (-N.val))
      · exact hs
  | i00FB => cases h; exact hs.onPlanes _ (hshift 4 0)
  | i00FC => cases h; exact hs.onPlanes _ (hshift (-4) 0)
  | i00E0 => cases h; exact hs.onPlanes _ fun _ hm => hm.fill isBit_zero
  | i00FE =>
      cases h
      exact fun P =>
        Every.fill (m := (s.own.displayMap P).resize (screenW / 2) (screenH / 2)) (hs P) isBit_zero
  | i00FF =>
      cases h
      exact fun P => Every.fill (m := (s.own.displayMap P).resize screenW screenH) (hs P) isBit_zero
  | iDxyN X Y N =>
      cases h
      exact List.foldlRecOn (motive := fun d : Planes => ∀ Q, Every IsBit (d.1 Q)) [0, 1, 2, 3] _
        hs fun d hd P _ => every_drawOn s N _ _ P hd
  | iFN85 N =>
      obtain ⟨r, _, rfl⟩ := Option.map_eq_some_iff.1 h
      exact hs
  | _ => cases h; exact hs

/-- Every event of a run. -/
theorem alwaysKept_holdsBits : AlwaysKept virtuals HoldsBits where
  enterLoop := fun _ hs => hs
  execute := holdsBits_execute
  pushAudioData := fun _ s hs => by
    simp only [virtuals, pushAudioData]
    split <;> exact hs
  pushVideoData := fun _ hs => hs
  reset := fun _ hs P => (hs P).fill isBit_zero
  toggleQuirk := fun _ hs _ _ => hs
  editMemory := fun _ hs _ _ => hs

/-- A boot has blank planes. -/
theorem holdsBits_boot (launch : Launch) : HoldsBits (boot launch).body :=
  fun _ _ => isBit_zero

/-- The palette index of four cells has one bit for each. -/
theorem toNat_mergeBitColor {s : Xochip} (hs : HoldsBits s.body) (idx : Nat) :
    (mergeBitColor s idx).toNat =
      ((s.own.displayMap 0).at1 idx).toNat + 2 * ((s.own.displayMap 1).at1 idx).toNat +
        4 * ((s.own.displayMap 2).at1 idx).toNat + 8 * ((s.own.displayMap 3).at1 idx).toNat := by
  have h0 : IsBit ((s.own.displayMap 0).at1 idx) := hs 0 idx
  have h1 : IsBit ((s.own.displayMap 1).at1 idx) := hs 1 idx
  have h2 : IsBit ((s.own.displayMap 2).at1 idx) := hs 2 idx
  have h3 : IsBit ((s.own.displayMap 3).at1 idx) := hs 3 idx
  unfold mergeBitColor
  rcases h0 with h0 | h0 <;> rcases h1 with h1 | h1 <;> rcases h2 with h2 | h2 <;>
    rcases h3 with h3 | h3 <;> rw [h0, h1, h2, h3] <;> rfl

/-- A bit as a number. -/
theorem IsBit.toNat_le {cell : UInt8} (h : IsBit cell) : cell.toNat ≤ 1 := by
  rcases h with rfl | rfl <;> decide

/-- The palette index is below 16, and shows which planes are set. -/
def Merges (s : Xochip) : Prop :=
  ∀ idx, (mergeBitColor s idx).toNat < 16 ∧
    ∀ P : Fin 4, (mergeBitColor s idx).toNat.testBit P.val =
      decide ((s.own.displayMap P).at1 idx = 1)

/-- Four bits side by side do not overlap. -/
theorem bit_of_sum (bit : Fin 4 → Nat) (hbit : ∀ P, bit P ≤ 1) (P : Fin 4) :
    (bit 0 + 2 * bit 1 + 4 * bit 2 + 8 * bit 3) / 2 ^ P.val % 2 = 1 ↔ bit P % 2 = 1 := by
  have h0 := hbit 0
  have h1 := hbit 1
  have h2 := hbit 2
  have h3 := hbit 3
  match P with
  | 0 => change _ / 1 % 2 = 1 ↔ _; omega
  | 1 => change _ / 2 % 2 = 1 ↔ _; omega
  | 2 => change _ / 4 % 2 = 1 ↔ _; omega
  | 3 => change _ / 8 % 2 = 1 ↔ _; omega

/-- So the four planes merge into an index of the palette. -/
theorem merges_of_bits {s : Xochip} (hs : HoldsBits s.body) : Merges s := by
  intro idx
  have hle (P : Fin 4) : ((s.own.displayMap P).at1 idx).toNat ≤ 1 := (hs P idx).toNat_le
  have hcell (P : Fin 4) : decide ((s.own.displayMap P).at1 idx = 1) =
      decide (((s.own.displayMap P).at1 idx).toNat % 2 = 1) := by
    refine decide_eq_decide.2 ⟨fun h => congrArg (fun c : UInt8 => c.toNat % 2) h, fun h => ?_⟩
    exact UInt8.toNat_inj.1 (show _ = 1 by have := hle P; omega)
  rw [toNat_mergeBitColor hs]
  refine ⟨?_, fun P => ?_⟩
  · have h0 := hle 0
    have h1 := hle 1
    have h2 := hle 2
    have h3 := hle 3
    omega
  · rw [hcell, Nat.testBit_eq_decide_div_mod_eq]
    exact decide_eq_decide.2 (bit_of_sum (fun P => ((s.own.displayMap P).at1 idx).toNat) hle P)

/-! ## Flag and planes -/

/-- The planes have the size of the flag. -/
def Fits (b : Body 16 Members) : Prop :=
  ∀ P, (b.own.displayMap P).sizeX = (if b.trait.useHiresScreen then screenW else screenW / 2) ∧
    (b.own.displayMap P).sizeY = (if b.trait.useHiresScreen then screenH else screenH / 2)

/-- Where `push_video_data` looks for a pixel. -/
def videoIndex (s : Xochip) (pixel : Nat) : Nat :=
  if s.trait.useHiresScreen then pixel else pixel / screenW / 2 * screenH + pixel % screenW / 2

/-- Flag and planes agree, and every pixel shows the colour of its index, which is in range in
every plane. -/
def Shows (s : Xochip) : Prop :=
  Fits s.body ∧ ∀ pixel < screenW * screenH,
    videoPixel s pixel =
      getBitColor s (Fin.ofNat 16 (mergeBitColor s (videoIndex s pixel)).toNat) ∧
    ∀ P, videoIndex s pixel < (s.own.displayMap P).size

/-- Only the flag and the sizes matter. -/
theorem Fits.congr {b b' : Body 16 Members} (h : Fits b)
    (hflag : b'.trait.useHiresScreen = b.trait.useHiresScreen)
    (hsize : ∀ P, Map2D.SameSize (b'.own.displayMap P) (b.own.displayMap P)) : Fits b' := by
  intro P
  rw [hflag, (hsize P).1, (hsize P).2]
  exact h P

/-- Every instruction: a new resolution resizes the planes. -/
theorem fits_execute (i : Instruction) (s s' : Xochip) (hs : Fits s.body)
    (h : execute i s = some s') : Fits s'.body := by
  have hplanes {f : Map2D UInt8 → Map2D UInt8} (hf : ∀ m, Map2D.SameSize (f m) m) :
      Fits (onPlanes s.own.planeMask f s).body := by
    refine hs.congr rfl fun P => ?_
    simp only [onPlanes, onOwn, body]
    split
    · exact hf _
    · exact ⟨rfl, rfl⟩
  have hshift (x y : Int) (m : Map2D UInt8) : Map2D.SameSize (m.shift x y 0) m :=
    Map2D.sameSize_shift ..
  cases i with
  | common i =>
      cases h
      obtain ⟨hset, hown, _⟩ := executeCommon_frame (config s) i s
      refine hs.congr (congrArg (·.trait.useHiresScreen) hset) fun P => ?_
      exact ⟨congrArg (fun o => (o.displayMap P).sizeX) hown,
        congrArg (fun o => (o.displayMap P).sizeY) hown⟩
  | i00CN N =>
      cases h
      unfold instruction00CN
      split
      · exact hplanes (hshift 0 N.val)
      · exact hs
  | i00DN N =>
      cases h
      unfold instruction00DN
      split
      · exact hplanes (hshift 0 (-N.val))
      · exact hs
  | i00E0 => cases h; exact hplanes fun _ => ⟨rfl, rfl⟩
  | i00FB => cases h; exact hplanes (hshift 4 0)
  | i00FC => cases h; exact hplanes (hshift (-4) 0)
  | i00FE | i00FF => cases h; exact fun _ => ⟨rfl, rfl⟩
  | iDxyN X Y N => cases h; exact hs.congr rfl (sameSize_drawPlanes s N _ _ [0, 1, 2, 3] _)
  | i5xy2 | i5xy3 | i5xy4 | iF002 | iFN01 | iFN75 =>
      cases h
      exact hs.congr rfl fun _ => ⟨rfl, rfl⟩
  | iFN85 N =>
      obtain ⟨r, _, rfl⟩ := Option.map_eq_some_iff.1 h
      exact hs
  | _ => cases h; exact hs

/-- A reset leaves 64x32 planes, and the flag as it was. -/
theorem fits_reset (s : Xochip) :
    Fits (performInstanceReset virtuals s).body ↔ s.trait.useHiresScreen = false := by
  have hflag : (performInstanceReset virtuals s).body.trait.useHiresScreen =
      s.trait.useHiresScreen := rfl
  have hsize (P : Fin 4) :
      ((performInstanceReset virtuals s).body.own.displayMap P).sizeX = screenW / 2 ∧
        ((performInstanceReset virtuals s).body.own.displayMap P).sizeY = screenH / 2 :=
    ⟨rfl, rfl⟩
  unfold Fits
  simp only [hflag, (hsize _).1, (hsize _).2]
  cases s.trait.useHiresScreen with
  | false => exact iff_of_true (fun _ => ⟨rfl, rfl⟩) rfl
  | true => exact iff_of_false (fun h => absurd (h 0).1 (by decide)) (by decide)

/-- Every event of a run, a reset if the resolution is low. -/
theorem keptWhen_fits : KeptWhen virtuals Fits fun s => s.trait.useHiresScreen = false where
  enterLoop := fun _ hs => hs
  execute := fits_execute
  pushAudioData := fun _ s hs => by
    simp only [virtuals, pushAudioData]
    split <;> exact hs
  pushVideoData := fun _ hs => hs
  reset := fun s _ => fits_reset s
  toggleQuirk := fun _ hs _ _ => hs
  editMemory := fun _ hs _ _ => hs

/-- The cells that are shown are cells of the planes. -/
theorem videoIndex_lt {s : Xochip} (h : Fits s.body) {pixel : Nat}
    (hp : pixel < screenW * screenH) (P : Fin 4) :
    videoIndex s pixel < (s.own.displayMap P).size := by
  have hX : (s.own.displayMap P).sizeX = if s.trait.useHiresScreen then screenW else screenW / 2 :=
    (h P).1
  have hY : (s.own.displayMap P).sizeY = if s.trait.useHiresScreen then screenH else screenH / 2 :=
    (h P).2
  unfold videoIndex Map2D.size
  rw [hX, hY]
  simp only [screenW, screenH] at hp ⊢
  split
  · omega
  · omega

/-- What is shown is there precisely if the planes fit the resolution. -/
theorem shows_iff {s : Xochip} : Shows s ↔ Fits s.body :=
  ⟨fun h => h.1, fun h => ⟨h, fun _ hp => ⟨rfl, videoIndex_lt h hp⟩⟩⟩

/-! ## Runs -/

/-- In the state, and wherever an instruction of a frame from it starts. -/
def InFrames (Q : Xochip → Prop) (s : Xochip) : Prop :=
  Q s ∧ ∀ input, ∀ t ∈ workerStarts virtuals input s, Q t

/-- A reset, if the event performs one, finds the flag off. -/
def ResetsLow : Xochip → Event → Prop := ResetsWhen fun s => s.trait.useHiresScreen = false

/-- Two properties that agree hold alike along a frame. -/
theorem inFrames_congr {Q Q' : Xochip → Prop} (h : ∀ s, Q s ↔ Q' s) (s : Xochip) :
    InFrames Q s ↔ InFrames Q' s :=
  and_congr (h s) (forall_congr' fun _ => forall_congr' fun t => forall_congr' fun _ => h t)

/-- **The picture of a run.** In every state the palette index of a pixel has one bit for each
plane. Flag and planes agree, and every index into a plane is in range, in every state precisely
when every reset finds the flag off. -/
theorem planes_run (launch : Launch) (events : List Event) :
    (∀ s ∈ Runs.visited (step virtuals) (boot launch) events, InFrames Merges s) ∧
      ((∀ s ∈ Runs.visited (step virtuals) (boot launch) events, InFrames Shows s) ↔
        ∀ x ∈ Runs.taken (step virtuals) (boot launch) events, ResetsLow x.1 x.2) := by
  constructor
  · intro s hs
    obtain ⟨prefix', hrun⟩ := Runs.exists_run_of_mem_visited hs
    have hbits := alwaysKept_holdsBits.reachable (holdsBits_boot launch) ⟨prefix', hrun⟩
    refine ⟨merges_of_bits hbits, fun input t ht => ?_⟩
    exact merges_of_bits (alwaysKept_holdsBits.toKept.workerStarts input hbits t ht)
  · have hboot : Fits (boot launch).body := fun _ => ⟨rfl, rfl⟩
    refine Iff.trans ?_ (keptWhen_fits.run hboot events)
    exact forall_congr' fun s => forall_congr' fun _ => inFrames_congr (fun _ => shows_iff) s

end CubeChip.Xochip
