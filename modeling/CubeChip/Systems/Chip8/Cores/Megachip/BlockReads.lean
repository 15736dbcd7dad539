import Mathlib.Data.Rat.Floor
import CubeChip.Systems.Chip8.Cores.Megachip.Texture

/-!
# Reads behind a pointer in mega mode

An element of the memory is found modulo its size, but 02NN, 060N, the track and `draw_texture`
take the address of one and walk on from there. The lists below are the addresses they read:
where these are in memory the result does not depend on what is behind it, and where one of a
palette or of a texture is not, it does (`AreRead`). A track is checked to end in memory before it
is kept, but its header is read before that; 02NN checks nothing, and `draw_texture` checks a sum
of 32 bits, which is small again for an I just below 2^32.
-/

namespace CubeChip

namespace Megachip

open CubeChip.Core

/-! ## What is read -/

variable (s : Megachip)

/-- The address of `(&m_memory[index])[offset]`. -/
def addressBehind (index : UInt32) (offset : Nat) : Nat :=
  (MirroredMemory.mask 24 index).toNat + offset

/-- What 02NN reads. -/
def paletteReads (NN : UInt8) : List Nat :=
  (List.range NN.toNat).flatMap fun pos =>
    [addressBehind s.registerI (4 * pos + 1), addressBehind s.registerI (4 * pos + 2),
      addressBehind s.registerI (4 * pos + 3), addressBehind s.registerI (4 * pos)]

/-- What 060N reads: the size, and if the track is kept its frequency. -/
def headerReads : List Nat :=
  if s.audioDevice then
    [addressBehind s.registerI 2, addressBehind s.registerI 3, addressBehind s.registerI 4] ++
      if (startAudioTrack true s).own.track.data.isSome then
        [addressBehind s.registerI 0, addressBehind s.registerI 1]
      else []
  else []

/-- The index of `TrackData::pos`: the product of the phase and the size is rounded before it is
cut off. -/
def TrackData.pos (round : ℚ → ℚ) (head : ℚ) (t : TrackData) : Nat := ⌊round (head * t.size.toNat)⌋₊

/-- What may be read of the track: a phase is at most 1, so no sample is farther than its size. -/
def sampleReads : List Nat :=
  s.own.track.data.elim [] fun data => (List.range (s.own.track.size.toNat + 1)).map (data + ·)

/-- `DxyN` in mega mode comes to `draw_texture`. -/
def Texturing (Y : Fin 16) : Prop :=
  s.trait.useManualVsync = true ∧
    (s.hasQuirk .wrapSprites = true ∨ (s.registersV Y).toNat < screenH) ∧
    s.own.texture.fontPos ≠ s.registerI

instance (Y : Fin 16) : Decidable (Texturing s Y) :=
  inferInstanceAs (Decidable (_ ∧ _ ∧ _))

/-- What `DxyN` reads of the texture. -/
def textureReads (X Y : Fin 16) : List Nat :=
  if Texturing s Y ∧ (s.registerI + s.own.texture.w * s.own.texture.h).toNat < 2 ^ 24 then
    (texels (s.hasQuirk .wrapSprites) s.own.texture.w.toNat s.own.texture.h.toNat
      (s.registersV X).toNat (s.registersV Y).toNat).map (texelAddress s)
  else []

/-- All of it is in memory. -/
structure ReadsInMemory (NN : UInt8) (X Y : Fin 16) : Prop where
  palette : ∀ a ∈ paletteReads s NN, a < 2 ^ 24
  header : ∀ a ∈ headerReads s, a < 2 ^ 24
  samples : ∀ a ∈ sampleReads s, a < 2 ^ 24
  texture : ∀ a ∈ textureReads s X Y, a < 2 ^ 24

/-- The core with something else behind its memory. -/
def withBehind (u : Nat → UInt8) : Megachip :=
  s.onOwn fun own => { own with unset := { own.unset with behindMemory := u } }

/-- The lists are what is read. A header that goes over the end is read, but its track is given up
whatever it says; and the product of a phase is rounded by a function that keeps the order and the
whole numbers. -/
structure AreRead (NN : UInt8) (X Y : Fin 16) : Prop where
  palette : (∀ a ∈ paletteReads s NN, a < 2 ^ 24) ↔
    ∀ u, instruction02NN NN (withBehind s u) = withBehind (instruction02NN NN s) u
  header : (∀ a ∈ headerReads s, a < 2 ^ 24) →
    ∀ loop u, startAudioTrack loop (withBehind s u) = withBehind (startAudioTrack loop s) u
  samples : ∀ data, s.own.track.data = some data → ∀ round : ℚ → ℚ, Monotone round →
    (∀ n : ℕ, n < 2 ^ 32 → round n = n) → ∀ head ≤ 1,
      data + s.own.track.pos round head ∈ sampleReads s
  texture : Texturing s Y → ((∀ a ∈ textureReads s X Y, a < 2 ^ 24) ↔
    ∀ u, drawTexture (withBehind s u) (s.registersV X).toNat (s.registersV Y).toNat =
      withBehind (drawTexture s (s.registersV X).toNat (s.registersV Y).toNat) u)

/-! ## When it is -/

/-- The columns of a texture's row that are read. -/
def columnsRead (X : Fin 16) : Nat :=
  if s.hasQuirk .wrapSprites then s.own.texture.w.toNat
  else min s.own.texture.w.toNat (screenW - (s.registersV X).toNat)

/-- What is read of a texture's row runs over the address 2^32. -/
def RunsOver (X : Fin 16) (row : Nat) : Prop :=
  s.registerI.toNat + row * s.own.texture.w.toNat < 2 ^ 32 ∧
    2 ^ 32 < s.registerI.toNat + row * s.own.texture.w.toNat + columnsRead s X

/-- The palette and the header end in memory, and no row of the texture that is on the screen
runs over. -/
structure ReadsFit (NN : UInt8) (X Y : Fin 16) : Prop where
  palette : NN = 0 ∨ s.registerI.toNat % 2 ^ 24 + 4 * NN.toNat ≤ 2 ^ 24
  header : s.audioDevice = true → s.registerI.toNat % 2 ^ 24 + 5 ≤ 2 ^ 24
  texture : Texturing s Y → ∀ row < s.own.texture.h.toNat, ∀ y < screenH,
    place (s.hasQuirk .wrapSprites) screenW ((s.registersV Y).toNat + row) = some y →
      ¬ RunsOver s X row

/-! ## They read nothing else -/

variable {s}

/-- A byte inside the memory is what it is. -/
theorem byteBehind_withBehind {index : UInt32} {offset : Nat} (u : Nat → UInt8)
    (h : addressBehind index offset < 2 ^ 24) :
    byteBehind (withBehind s u) index offset = byteBehind s index offset :=
  (if_pos h).trans (if_pos h).symm

/-- 02NN does not see what is behind the memory. -/
theorem instruction02NN_withBehind {NN : UInt8} (u : Nat → UInt8)
    (h : ∀ a ∈ paletteReads s NN, a < 2 ^ 24) :
    instruction02NN NN (withBehind s u) = withBehind (instruction02NN NN s) u := by
  have hbyte : ∀ pos ∈ List.range NN.toNat, ∀ k < 4,
      byteBehind (withBehind s u) s.registerI (4 * pos + k) =
        byteBehind s s.registerI (4 * pos + k) := fun pos hpos k hk => by
    refine byteBehind_withBehind u (h _ (List.mem_flatMap.2 ⟨pos, hpos, ?_⟩))
    have hcases : k = 0 ∨ k = 1 ∨ k = 2 ∨ k = 3 := by omega
    rcases hcases with rfl | rfl | rfl | rfl
    · exact .tail _ (.tail _ (.tail _ (.head _)))
    · exact .head _
    · exact .tail _ (.head _)
    · exact .tail _ (.tail _ (.head _))
  have hpalette : (instruction02NN NN (withBehind s u)).own.colorPalette =
      (instruction02NN NN s).own.colorPalette := by
    refine List.foldl_ext _ _ _ fun palette pos hpos => ?_
    have hfirst := hbyte pos hpos 0 (by decide)
    have h1 := hbyte pos hpos 1 (by decide)
    have h2 := hbyte pos hpos 2 (by decide)
    have h3 := hbyte pos hpos 3 (by decide)
    rw [Nat.add_zero] at hfirst
    exact congrArg (Function.update palette _) (congr (congr (congr (congrArg RGBA.mk h1) h2) h3)
      hfirst)
  exact congrArg (fun palette => (withBehind s u).onOwn fun own =>
    { own with colorPalette := palette }) hpalette

/-- Nor does 060N, -/
theorem startAudioTrack_withBehind (loop : Bool) (u : Nat → UInt8)
    (h : ∀ a ∈ headerReads s, a < 2 ^ 24) :
    startAudioTrack loop (withBehind s u) = withBehind (startAudioTrack loop s) u := by
  have haudio : (withBehind s u).audioDevice = s.audioDevice := rfl
  unfold startAudioTrack
  rw [haudio]
  split
  next hdevice =>
    have hbyte : ∀ k, k = 2 ∨ k = 3 ∨ k = 4 →
        byteBehind (withBehind s u) s.registerI k = byteBehind s s.registerI k := fun k hk => by
      refine byteBehind_withBehind u (h _ ?_)
      rw [headerReads, if_pos hdevice]
      refine List.mem_append_left _ ?_
      rcases hk with rfl | rfl | rfl
      · exact .head _
      · exact .tail _ (.head _)
      · exact .tail _ (.tail _ (.head _))
    have hindex : (withBehind s u).registerI = s.registerI := rfl
    dsimp only
    rw [hindex, hbyte 2 (.inl rfl), hbyte 3 (.inr (.inl rfl)), hbyte 4 (.inr (.inr rfl))]
    rfl
  next => rfl

/-- nor `draw_texture`. -/
theorem drawTexture_withBehind {xBegin yBegin : Nat} (u : Nat → UInt8)
    (h : ∀ t ∈ texels (s.hasQuirk .wrapSprites) s.own.texture.w.toNat s.own.texture.h.toNat
      xBegin yBegin, texelAddress s t < 2 ^ 24) :
    drawTexture (withBehind s u) xBegin yBegin = withBehind (drawTexture s xBegin yBegin) u := by
  let before : Paint := ⟨s.own.backgroundMap, s.own.collisionMap, s.registersV 0xF⟩
  have hpaint : paintRows (withBehind s u) (s.hasQuirk .wrapSprites) xBegin
      s.own.texture.h.toNat 0 yBegin before = paintRows s (s.hasQuirk .wrapSprites) xBegin
        s.own.texture.h.toNat 0 yBegin before := by
    rw [paintRows_eq, paintRows_eq]
    refine List.foldl_ext _ _ _ fun p t ht => ?_
    exact congrArg (paintPixel s t.x t.y · p) (byteBehind_withBehind u (h t ht))
  by_cases hguard : 2 ^ 24 ≤ (s.registerI + s.own.texture.w * s.own.texture.h).toNat
  · have hgiven : drawTexture s xBegin yBegin = onTexture (fun _ => Texture.reset) s :=
      if_pos hguard
    rw [hgiven]
    exact if_pos hguard
  · have hdrawn : drawTexture s xBegin yBegin = _ := if_neg hguard
    rw [hdrawn]
    refine (if_neg hguard).trans ?_
    exact congrArg (fun p : Paint => ((withBehind s u).onOwn fun own => { own with
      backgroundMap := p.backgroundMap, collisionMap := p.collisionMap }).onCpu
        (·.setV 0xF p.VF)) hpaint

/-! ## They read all of it -/

/-- A byte behind the memory is what stands there. -/
theorem byteBehind_of_le {index : UInt32} {offset : Nat} (v : UInt8)
    (h : 2 ^ 24 ≤ addressBehind index offset) :
    byteBehind (withBehind s fun _ => v) index offset = v :=
  if_neg (Nat.not_lt_of_le h)

/-- The last colour of a palette that goes over the end is seen. -/
theorem colorPalette_withBehind {NN : UInt8} {n : Nat} (hn : NN.toNat = n + 1) (v : UInt8)
    (h : 2 ^ 24 ≤ addressBehind s.registerI (4 * n + 3)) :
    ((instruction02NN NN (withBehind s fun _ => v)).own.colorPalette (UInt8.ofNat (n + 1))).B =
      v := by
  have hlast : (instruction02NN NN (withBehind s fun _ => v)).own.colorPalette =
      (List.range NN.toNat).foldl _ s.own.colorPalette := rfl
  rw [hlast, hn, List.range_succ, List.foldl_append, List.foldl_cons, List.foldl_nil,
    Function.update_self]
  exact byteBehind_of_le v h

/-- A texel of a texture that goes over the end is seen, if it is not transparent. -/
theorem collisionMap_withBehind {xBegin yBegin : Nat} {t : Texel} {v : UInt8}
    (hwide : (paintOf s).Wide) (hw : s.own.texture.w.toNat ≤ 256)
    (hh : s.own.texture.h.toNat ≤ 256) (hx : xBegin < screenW) (hy : yBegin < screenW)
    (hy' : s.hasQuirk .wrapSprites = false → yBegin < screenH)
    (hguard : (s.registerI + s.own.texture.w * s.own.texture.h).toNat < 2 ^ 24)
    (ht : t ∈ texels (s.hasQuirk .wrapSprites) s.own.texture.w.toNat s.own.texture.h.toNat
      xBegin yBegin) (hv : v ≠ 0) (hread : 2 ^ 24 ≤ texelAddress s t) :
    (drawTexture (withBehind s fun _ => v) xBegin yBegin).own.collisionMap.data t.offset = v := by
  have hcolor : colorIdx (withBehind s fun _ => v) t = v := byteBehind_of_le v hread
  have hdrawn : paintOf (drawTexture (withBehind s fun _ => v) xBegin yBegin) =
      paintRows (withBehind s fun _ => v) (s.hasQuirk .wrapSprites) xBegin
        s.own.texture.h.toNat 0 yBegin (paintOf s) := by
    have hdrawn : drawTexture (withBehind s fun _ => v) xBegin yBegin = _ :=
      if_neg (Nat.not_le_of_lt hguard)
    rw [hdrawn]
    exact congrArg (Paint.mk _ _) (Function.update_self (0xF : Fin 16) _ s.registersV)
  have hcells : (paintOf (drawTexture (withBehind s fun _ => v) xBegin yBegin)).cells =
      (painting (withBehind s fun _ => v)).run (drawn (withBehind s fun _ => v) xBegin yBegin)
        (paintOf s).cells := by
    rw [hdrawn]
    exact cells_paintRows hwide _ _
  have hmem : t ∈ drawn (withBehind s fun _ => v) xBegin yBegin := by
    rw [drawn, List.mem_filter, decide_eq_true_eq, hcolor]
    exact ⟨ht, hv⟩
  have hdistinct : ((drawn (withBehind s fun _ => v) xBegin yBegin).map
      (painting (withBehind s fun _ => v)).pos).Nodup :=
    (texels_apart hx hy hy' hw hh).sublist (List.filter_sublist.map _)
  have hcell := Sweep.run_cells_of_mem hdistinct hmem (paintOf s).cells
  rw [← hcells] at hcell
  exact (congrArg Prod.fst hcell).trans hcolor

/-! ## Texture sizes and tracks -/

/-- Textures are of a size that can be set, and a track ends before the last byte of memory. -/
structure Sound (b : Body 24 Members) : Prop where
  width : b.own.texture.w.toNat ≤ 256
  height : b.own.texture.h.toNat ≤ 256
  track : ∀ data, b.own.track.data = some data → data + b.own.track.size.toNat ≤ 2 ^ 24 - 1

/-- Only the texture and the track matter. -/
theorem Sound.of_eq {b b' : Body 24 Members} (h : Sound b)
    (htexture : b'.own.texture = b.own.texture) (htrack : b'.own.track = b.own.track) :
    Sound b' where
  width := htexture ▸ h.width
  height := htexture ▸ h.height
  track := htrack ▸ h.track

/-- A track given up. -/
theorem Sound.drop_track {b b' : Body 24 Members} (h : Sound b)
    (htexture : b'.own.texture = b.own.texture) (htrack : b'.own.track = TrackData.reset) :
    Sound b' where
  width := htexture ▸ h.width
  height := htexture ▸ h.height
  track := fun data hdata => by
    rw [htrack] at hdata
    exact absurd hdata.symm (Option.some_ne_none data)

/-- A side is 256 texels at most. -/
theorem textureSize_le (NN : UInt8) : (textureSize NN).toNat ≤ 256 := by
  unfold textureSize
  split
  · rw [UInt8.toNat_toUInt32]
    exact NN.toNat_lt.le
  · exact le_rfl

/-- A track starts only if it ends inside the memory. -/
theorem sound_startAudioTrack (loop : Bool) (h : Sound s.body) :
    Sound (startAudioTrack loop s).body := by
  unfold startAudioTrack
  split
  · refine ⟨h.width, h.height, fun data hdata => ?_⟩
    dsimp only [onOwn, body] at hdata ⊢
    split at hdata
    · exact absurd hdata.symm (Option.some_ne_none data)
    next hfits =>
      rw [if_neg hfits]
      cases hdata
      exact Nat.le_of_not_lt fun hlt => hfits (.inr hlt)
  · exact h

/-- A texture. -/
theorem sound_drawTexture (xBegin yBegin : Nat) (h : Sound s.body) :
    Sound (drawTexture s xBegin yBegin).body := by
  unfold drawTexture
  split
  · exact ⟨Nat.zero_le _, Nat.zero_le _, h.track⟩
  · exact h.of_eq rfl rfl

/-- What `DxyN` draws, in either mode. -/
theorem sound_instructionDxyN (X Y N : Fin 16) (h : Sound s.body) :
    Sound (instructionDxyN s X Y N).body := by
  unfold instructionDxyN
  split
  · unfold drawMega
    dsimp only
    split
    · exact h.of_eq rfl rfl
    · split
      · exact h.of_eq rfl rfl
      · exact (sound_drawTexture (s := s.onCpu (·.setV 0xF 0)) _ _ h).of_eq rfl rfl
  · exact h.of_eq rfl rfl

/-- A scroll, in either mode. -/
theorem sound_scroll (cols rows : Int) (h : Sound s.body) : Sound (scroll cols rows s).body := by
  unfold scroll
  split <;> exact h.of_eq rfl rfl

/-- **Every instruction** keeps textures and tracks sound. -/
theorem sound_execute (i : Instruction) (s s' : Megachip) (hs : Sound s.body)
    (h : execute i s = some s') : Sound s'.body := by
  cases i with
  | common i =>
      cases h
      obtain ⟨_, hown, _⟩ := executeCommon_frame (config s) i s
      exact hs.of_eq (congrArg (·.texture) hown) (congrArg (·.track) hown)
  | i00BN | i00CN | i00FB | i00FC => cases h; exact sound_scroll _ _ hs
  | i00E0 =>
      cases h
      unfold instruction00E0
      split <;> exact hs.of_eq rfl rfl
  | i0011 =>
      cases h
      exact ⟨Nat.zero_le _, Nat.zero_le _, fun data hdata => absurd hdata.symm
        (Option.some_ne_none data)⟩
  | i03NN NN => cases h; exact ⟨textureSize_le NN, hs.height, hs.track⟩
  | i04NN NN => cases h; exact ⟨hs.width, textureSize_le NN, hs.track⟩
  | i060N N => cases h; exact sound_startAudioTrack _ hs
  | i0700 => cases h; exact hs.drop_track rfl rfl
  | i080N | i09NN => cases h; exact ⟨hs.width, hs.height, hs.track⟩
  | iDxyN X Y N => cases h; exact sound_instructionDxyN X Y N hs
  | iFx29 | iFx30 => cases h; exact ⟨hs.width, hs.height, hs.track⟩
  | iFN85 N =>
      obtain ⟨r, _, rfl⟩ := Option.map_eq_some_iff.1 h
      exact hs.of_eq rfl rfl
  | _ => cases h; exact hs.of_eq rfl rfl

/-- A track that ends. -/
theorem sound_pushAudioData (input : FrameInput) (h : Sound s.body) :
    Sound (pushAudioData input s).body := by
  have hwave : Sound (mixAudioData (makeStreamWave input) s).body := by
    unfold mixAudioData makeStreamWave
    split
    · split
      · exact h.drop_track rfl rfl
      · exact h
    · exact h
  unfold pushAudioData
  split
  · dsimp only
    split
    · exact hwave
    · exact hwave.of_eq rfl rfl
  · split <;> exact h.of_eq rfl rfl

/-- A frame that is shown. -/
theorem sound_pushVideoData (h : Sound s.body) : Sound (pushVideoData s).body := by
  unfold pushVideoData
  split
  · split
    · exact h.of_eq rfl rfl
    · exact h
  · exact h.of_eq rfl rfl

/-- **The invariant.** -/
theorem alwaysKept_sound : AlwaysKept virtuals Sound where
  enterLoop := fun _ hs => hs
  execute := sound_execute
  pushAudioData := fun input _ hs => sound_pushAudioData input hs
  pushVideoData := fun _ hs => sound_pushVideoData hs
  reset := fun _ _ => ⟨Nat.zero_le _, Nat.zero_le _, fun data hdata => absurd hdata.symm
    (Option.some_ne_none data)⟩
  toggleQuirk := fun _ hs _ _ => hs.of_eq rfl rfl
  editMemory := fun _ hs _ _ => hs.of_eq rfl rfl

/-- A state met in a run: between two frames, where an instruction starts, and where the output
of a frame is produced. -/
inductive Met (launch : Launch) (unset : Unset) : Megachip → Prop where
  | between {s : Megachip} (h : Reachable virtuals (boot launch unset) s) : Met launch unset s
  | start {s t : Megachip} (h : Reachable virtuals (boot launch unset) s) (input : FrameInput)
      (ht : t ∈ workerStarts virtuals input s) : Met launch unset t
  | output {s t : Megachip} (h : Reachable virtuals (boot launch unset) s) (input : FrameInput)
      (ht : executeCycleLoop virtuals input.slices (frameEntry input s) = some t) :
      Met launch unset t

/-- What every event keeps holds in every state met. -/
theorem Met.kept {launch : Launch} {unset : Unset} {I : Body 24 Members → Prop}
    (h : Met launch unset s) (hkept : AlwaysKept virtuals I)
    (hboot : I (boot launch unset).body) : I s.body := by
  cases h with
  | between h => exact hkept.reachable hboot h
  | start h input ht => exact hkept.toKept.workerStarts input (hkept.reachable hboot h) _ ht
  | output h input ht =>
      exact hkept.toKept.loopKept.executeCycleLoop (fun _ _ ht => ht)
        (Kept.frameEntry (hkept.reachable hboot h) input) ht

/-- Every state met has such a texture and such a track. -/
theorem Met.sound {launch : Launch} {unset : Unset} (h : Met launch unset s) : Sound s.body :=
  h.kept alwaysKept_sound
    ⟨Nat.zero_le _, Nat.zero_le _, fun data hdata => absurd hdata.symm (Option.some_ne_none data)⟩

/-- And a background of the width of the screen. -/
theorem Met.wide {launch : Launch} {unset : Unset} (h : Met launch unset s) :
    (paintOf s).Wide := by
  have hshape : SameShape s.body (boot launch unset).body :=
    h.kept alwaysKept_sameShape (.of_eq rfl rfl rfl rfl rfl)
  exact ⟨hshape.collisionMap.1, hshape.backgroundMap.1⟩

/-! ## Where the reads are -/

/-- The mask of an address. -/
theorem toNat_mask (index : UInt32) : (MirroredMemory.mask 24 index).toNat = index.toNat % 2 ^ 24 :=
  BitVec.toNat_setWidth ..

/-- The addresses `02NN` reads. -/
theorem palette_iff (NN : UInt8) : (∀ a ∈ paletteReads s NN, a < 2 ^ 24) ↔
    NN = 0 ∨ s.registerI.toNat % 2 ^ 24 + 4 * NN.toNat ≤ 2 ^ 24 := by
  rw [← UInt8.toNat_inj, UInt8.toNat_zero]
  simp only [paletteReads, addressBehind, toNat_mask, List.mem_flatMap, List.mem_range,
    List.mem_cons, List.not_mem_nil, or_false]
  constructor
  · intro h
    by_contra hne
    have := h (s.registerI.toNat % 2 ^ 24 + (4 * (NN.toNat - 1) + 3))
      ⟨NN.toNat - 1, by omega, .inr (.inr (.inl rfl))⟩
    omega
  · rintro h a ⟨pos, hpos, ha⟩
    omega

/-- The addresses of a track's header. -/
theorem header_iff : (∀ a ∈ headerReads s, a < 2 ^ 24) ↔
    (s.audioDevice = true → s.registerI.toNat % 2 ^ 24 + 5 ≤ 2 ^ 24) := by
  unfold headerReads addressBehind
  rw [toNat_mask]
  split
  next haudio =>
    constructor
    · intro h _
      have := h (s.registerI.toNat % 2 ^ 24 + 4)
        (List.mem_append_left _ (.tail _ (.tail _ (.head _))))
      omega
    · intro h a ha
      have := h haudio
      have hle : a ≤ s.registerI.toNat % 2 ^ 24 + 4 := by
        rcases List.mem_append.1 ha with ha | ha
        · simp only [List.mem_cons, List.not_mem_nil, or_false] at ha
          omega
        · split at ha
          · simp only [List.mem_cons, List.not_mem_nil, or_false] at ha
            omega
          · exact absurd ha List.not_mem_nil
      omega
  next haudio =>
    exact ⟨fun _ h => absurd h haudio, fun _ a ha => absurd ha List.not_mem_nil⟩

/-- A track that is kept is in memory, wherever in it the phase is. -/
theorem Sound.samples (h : Sound s.body) : ∀ a ∈ sampleReads s, a < 2 ^ 24 := by
  intro a ha
  unfold sampleReads at ha
  cases hdata : s.own.track.data with
  | none =>
      rw [hdata] at ha
      exact absurd ha List.not_mem_nil
  | some data =>
      rw [hdata] at ha
      obtain ⟨k, hk, rfl⟩ := List.mem_map.1 ha
      have htrack : data + s.own.track.size.toNat ≤ 2 ^ 24 - 1 := h.track data hdata
      rw [List.mem_range] at hk
      omega

/-- The address of a texel. -/
theorem texelAddress_eq (t : Texel) : texelAddress s t =
    (s.registerI.toNat + t.row * s.own.texture.w.toNat) % 2 ^ 24 + t.col := by
  have hindex : (s.registerI + UInt32.ofNat t.row * s.own.texture.w).toNat =
      (s.registerI.toNat + t.row * s.own.texture.w.toNat) % 2 ^ 32 := by
    simp only [UInt32.toNat_add, UInt32.toNat_mul, UInt32.toNat_ofNat', Nat.mod_mul_mod,
      Nat.add_mod_mod]
  rw [texelAddress, MirroredMemory.mask_eq_ofNat (by decide) hindex, BitVec.toNat_ofNat]

/-- No more columns than there are. -/
theorem columnsRead_le (X : Fin 16) : columnsRead s X ≤ s.own.texture.w.toNat := by
  unfold columnsRead
  split <;> omega

/-- A column is read if it has a place on the screen. -/
theorem lt_columnsRead {X : Fin 16} {col : Nat} : col < columnsRead s X ↔
    col < s.own.texture.w.toNat ∧
      ∃ x, place (s.hasQuirk .wrapSprites) screenW ((s.registersV X).toNat + col) = some x := by
  unfold columnsRead
  cases hwrap : s.hasQuirk .wrapSprites with
  | true =>
      rw [if_pos rfl]
      exact ⟨fun h => ⟨h, exists_place (.inl rfl)⟩, And.left⟩
  | false =>
      rw [if_neg Bool.false_ne_true]
      constructor
      · exact fun h => ⟨by omega, exists_place (.inr (by omega))⟩
      · rintro ⟨hcol, x, hx⟩
        have := (place_false.1 hx).1
        omega

/-- The texels that are read. -/
theorem mem_textureReads {X Y : Fin 16} (h : Texturing s Y) {row col : Nat} :
    (∃ t ∈ texels (s.hasQuirk .wrapSprites) s.own.texture.w.toNat s.own.texture.h.toNat
        (s.registersV X).toNat (s.registersV Y).toNat, t.row = row ∧ t.col = col) ↔
      row < s.own.texture.h.toNat ∧ col < columnsRead s X ∧ ∃ y < screenH,
        place (s.hasQuirk .wrapSprites) screenW ((s.registersV Y).toNat + row) = some y := by
  have hy : s.hasQuirk .wrapSprites = false → (s.registersV Y).toNat < screenH := fun hwrap =>
    h.2.1.resolve_left fun htrue => Bool.false_ne_true (hwrap.symm.trans htrue)
  simp only [mem_texels (s.registersV X).toNat_lt (s.registersV Y).toNat_lt hy, Lands,
    lt_columnsRead]
  constructor
  · rintro ⟨t, ⟨hrow, hcol, hx, hy, hlow⟩, rfl, rfl⟩
    exact ⟨hrow, ⟨hcol, _, hx⟩, _, hlow, hy⟩
  · rintro ⟨hrow, ⟨hcol, x, hx⟩, y, hlow, hy⟩
    exact ⟨⟨row, col, x, y⟩, ⟨hrow, hcol, hx, hy, hlow⟩, rfl, rfl⟩

/-- The addresses of a texture. -/
theorem texture_iff {X Y : Fin 16} (hs : Sound s.body) :
    (∀ a ∈ textureReads s X Y, a < 2 ^ 24) ↔
      (Texturing s Y → ∀ row < s.own.texture.h.toNat, ∀ y < screenH,
        place (s.hasQuirk .wrapSprites) screenW ((s.registersV Y).toNat + row) = some y →
          ¬ RunsOver s X row) := by
  have hw : s.own.texture.w.toNat ≤ 256 := hs.width
  have hh : s.own.texture.h.toNat ≤ 256 := hs.height
  have hI := s.registerI.toNat_lt
  have hsum : (s.registerI + s.own.texture.w * s.own.texture.h).toNat =
      (s.registerI.toNat + s.own.texture.w.toNat * s.own.texture.h.toNat) % 2 ^ 32 := by
    rw [UInt32.toNat_add, UInt32.toNat_mul, Nat.add_mod_mod]
  have hblock : s.own.texture.w.toNat * s.own.texture.h.toNat ≤ 256 * 256 :=
    Nat.mul_le_mul hw hh
  -- a row ends where the texture does, at the latest
  have hrows : ∀ row < s.own.texture.h.toNat, row * s.own.texture.w.toNat +
      s.own.texture.w.toNat ≤ s.own.texture.w.toNat * s.own.texture.h.toNat := fun row hrow => by
    rw [← Nat.succ_mul, Nat.mul_comm s.own.texture.w.toNat]
    exact Nat.mul_le_mul_right _ hrow
  have hcolumns := columnsRead_le (s := s) X
  constructor
  · rintro h htexturing row hrow y hy hplace ⟨hlt, hover⟩
    have hrows := hrows row hrow
    -- the texel of the row that address 2^32 would hold
    have hcol : 2 ^ 32 - (s.registerI.toNat + row * s.own.texture.w.toNat) < columnsRead s X := by
      omega
    obtain ⟨t, ht, rfl, hcol⟩ := (mem_textureReads htexturing).2 ⟨hrow, hcol, y, hy, hplace⟩
    have hread : texelAddress s t ∈ textureReads s X Y := by
      rw [textureReads, if_pos ⟨htexturing, by omega⟩]
      exact List.mem_map_of_mem ht
    have := h _ hread
    rw [texelAddress_eq, hcol] at this
    omega
  · intro h a ha
    unfold textureReads at ha
    split at ha
    next hread =>
      obtain ⟨t, ht, rfl⟩ := List.mem_map.1 ha
      obtain ⟨hrow, hcol, y, hy, hplace⟩ := (mem_textureReads (X := X) hread.1).1 ⟨t, ht, rfl, rfl⟩
      have hrows := hrows _ hrow
      have hfits := h hread.1 _ hrow y hy hplace
      have hguard := hread.2
      rw [RunsOver] at hfits
      rw [texelAddress_eq]
      omega
    next => exact absurd ha List.not_mem_nil

/-! ## What the result depends on -/

/-- What is behind the memory matters to `02NN` precisely if it reads it. -/
theorem palette_unseen_iff (NN : UInt8) : (∀ a ∈ paletteReads s NN, a < 2 ^ 24) ↔
    ∀ u, instruction02NN NN (withBehind s u) = withBehind (instruction02NN NN s) u := by
  refine ⟨fun h u => instruction02NN_withBehind u h, fun hunseen => (palette_iff NN).2 ?_⟩
  by_contra hover
  rw [not_or, ← UInt8.toNat_inj, UInt8.toNat_zero] at hover
  obtain ⟨n, hn⟩ := Nat.exists_eq_succ_of_ne_zero hover.1
  have hread : 2 ^ 24 ≤ addressBehind s.registerI (4 * n + 3) := by
    rw [addressBehind, toNat_mask]
    omega
  -- with two values behind the memory the last colour has two
  have hseen (v : UInt8) :
      ((instruction02NN NN s).own.colorPalette (UInt8.ofNat (n + 1))).B = v := by
    rw [← colorPalette_withBehind hn v hread, hunseen]
    rfl
  exact absurd ((hseen 1).symm.trans (hseen 2)) (by decide)

/-- A phase is at most 1, so an index is at most the size. -/
theorem TrackData.pos_le {round : ℚ → ℚ} (hmono : Monotone round)
    (hexact : ∀ n : ℕ, n < 2 ^ 32 → round n = n) {head : ℚ} (hhead : head ≤ 1) (t : TrackData) :
    t.pos round head ≤ t.size.toNat := by
  have hsize : round t.size.toNat = t.size.toNat := hexact _ t.size.toNat_lt
  have hproduct : head * t.size.toNat ≤ t.size.toNat :=
    mul_le_of_le_one_left (Nat.cast_nonneg _) hhead
  exact Nat.floor_le_of_le ((hmono hproduct).trans_eq hsize)

/-- And to a texture. -/
theorem texture_unseen_iff {X Y : Fin 16} (hs : Sound s.body) (hwide : (paintOf s).Wide)
    (h : Texturing s Y) : (∀ a ∈ textureReads s X Y, a < 2 ^ 24) ↔
      ∀ u, drawTexture (withBehind s u) (s.registersV X).toNat (s.registersV Y).toNat =
        withBehind (drawTexture s (s.registersV X).toNat (s.registersV Y).toNat) u := by
  have hy' : s.hasQuirk .wrapSprites = false → (s.registersV Y).toNat < screenH := fun hwrap =>
    h.2.1.resolve_left fun htrue => Bool.false_ne_true (hwrap.symm.trans htrue)
  by_cases hguard : (s.registerI + s.own.texture.w * s.own.texture.h).toNat < 2 ^ 24
  · rw [textureReads, if_pos ⟨h, hguard⟩, List.forall_mem_map]
    refine ⟨fun hreads u => drawTexture_withBehind u hreads, fun hunseen t ht => ?_⟩
    by_contra hread
    -- with two indices behind the memory the cell of this texel has two
    have hseen (v : UInt8) (hv : v ≠ 0) : (drawTexture s (s.registersV X).toNat
        (s.registersV Y).toNat).own.collisionMap.data t.offset = v := by
      rw [← collisionMap_withBehind hwide hs.width hs.height (s.registersV X).toNat_lt
        (s.registersV Y).toNat_lt hy' hguard ht hv (Nat.le_of_not_lt hread), hunseen]
      rfl
    exact absurd ((hseen 1 (by decide)).symm.trans (hseen 2 (by decide))) (by decide)
  · rw [textureReads, if_neg fun hread => hguard hread.2]
    refine iff_of_true (fun a ha => absurd ha List.not_mem_nil) fun u => ?_
    have hgiven : drawTexture s (s.registersV X).toNat (s.registersV Y).toNat =
        onTexture (fun _ => Texture.reset) s := if_pos (Nat.le_of_not_lt hguard)
    rw [hgiven]
    exact if_pos (Nat.le_of_not_lt hguard)

/-- So the lists are what is read. -/
theorem Sound.areRead (h : Sound s.body) (hwide : (paintOf s).Wide) (NN : UInt8) (X Y : Fin 16) :
    AreRead s NN X Y where
  palette := palette_unseen_iff NN
  header := fun hreads loop u => startAudioTrack_withBehind loop u hreads
  samples := fun data hdata round hmono hexact head hhead => by
    rw [sampleReads, hdata]
    exact List.mem_map_of_mem
      (List.mem_range.2 (Nat.lt_succ_of_le (TrackData.pos_le hmono hexact hhead _)))
  texture := fun htexturing => texture_unseen_iff h hwide htexturing

/-- **When the reads stay in memory**, and that these are the reads. -/
theorem readsInMemory_iff (launch : Launch) (unset : Unset) (s : Megachip)
    (h : Met launch unset s) (NN : UInt8) (X Y : Fin 16) :
    (ReadsInMemory s NN X Y ↔ ReadsFit s NN X Y) ∧ AreRead s NN X Y := by
  refine ⟨⟨fun hreads => ?_, fun hfit => ?_⟩, h.sound.areRead h.wide NN X Y⟩
  · exact ⟨(palette_iff NN).1 hreads.palette, header_iff.1 hreads.header,
      (texture_iff h.sound).1 hreads.texture⟩
  · exact ⟨(palette_iff NN).2 hfit.palette, header_iff.2 hfit.header, h.sound.samples,
      (texture_iff h.sound).2 hfit.texture⟩

/-! ## The last byte of memory -/

/-- `0011`, `01FF` with I near the last byte, a palette, and a jump to itself. -/
def atEnd (low colors : UInt8) : Launch :=
  .ofProgram [0x00, 0x11, 0x01, 0xFF, 0xFF, low, 0x02, colors, 0x12, 0x08]

/-- The state in which 02NN starts. -/
theorem met_atEnd (low colors : UInt8) (index : UInt32)
    (hrun : (Runs.run (step virtuals) (boot (atEnd low colors) .zero) [.idle]).any (fun s =>
      (workerStarts virtuals ⟨fun _ => false, 0, false⟩ s).any fun t =>
        t.registerI = index && current virtuals t = .i02NN colors) = true) :
    ∃ s, Met (atEnd low colors) .zero s ∧ s.registerI = index ∧
      current virtuals s = .i02NN colors := by
  obtain ⟨s, hs, hany⟩ := (Option.any_eq_true ..).1 hrun
  obtain ⟨t, ht, heq⟩ := List.any_eq_true.1 hany
  rw [Bool.and_eq_true, decide_eq_true_eq, decide_eq_true_eq] at heq
  exact ⟨t, .start ⟨_, hs⟩ _ ht, heq⟩

/-- A palette of one colour is read from behind the memory. -/
theorem not_readsInMemory_lastByte : ∃ s, Met (atEnd 0xFF 1) .zero s ∧ s.registerI = 0xFFFFFF ∧
    current virtuals s = .i02NN 1 ∧ ¬ ReadsInMemory s 1 0 0 := by
  obtain ⟨s, hs, hindex, hcurrent⟩ := met_atEnd 0xFF 1 0xFFFFFF (by decide +kernel)
  refine ⟨s, hs, hindex, hcurrent, fun h => ?_⟩
  have hpalette := (palette_iff 1).1 h.palette
  rw [hindex] at hpalette
  exact absurd hpalette (by decide)

/-- One of four colours ends with it. -/
theorem readsInMemory_iff_lastColor : ∃ s, Met (atEnd 0xF0 4) .zero s ∧ s.registerI = 0xFFFFF0 ∧
    (∀ a ∈ paletteReads s 4, a < 2 ^ 24) ∧
    (ReadsInMemory s 4 0 0 ↔ ReadsFit s 4 0 0) ∧ AreRead s 4 0 0 := by
  obtain ⟨s, hs, hindex, -⟩ := met_atEnd 0xF0 4 0xFFFFF0 (by decide +kernel)
  have hpalette : ∀ a ∈ paletteReads s 4, a < 2 ^ 24 := (palette_iff 4).2 (by
    rw [hindex]
    decide)
  exact ⟨s, hs, hindex, hpalette, readsInMemory_iff (atEnd 0xF0 4) .zero s hs 4 0 0⟩

end Megachip

end CubeChip
