import CubeChip.Systems.Chip8.Cores.Megachip.Reset

/-!
# The modes of `MEGACHIP`

`set_display_properties` sets the flags, the viewport, the tint and the quirk of a mode together,
and no other instruction sets one of them but `05NN`, the alpha of the tint. So in every state
they are those of one mode (`settled_reachable`), and what the core shows lies in the viewport
(`showDisplay_inside`). The texture and the track stay in their ranges: the casts of the drawing
code lose nothing, and a playing track lies in memory.
-/

namespace CubeChip.Megachip

open CubeChip.Core

/-! ## What is kept -/

/-- A texture whose members fit the types they are cast to. -/
structure Texture.InRange (t : Texture) : Prop where
  w : t.w.toNat ≤ 256
  h : t.h.toNat ≤ 256
  collide : t.collide.toNat ≤ 255
  opacity : t.opacity.toNat ≤ 255

/-- A playing track is not empty and ends inside the memory. -/
def TrackData.InMemory (t : TrackData) : Prop :=
  ∀ data, t.data = some data → t.size ≠ 0 ∧ data + t.size.toNat < 2 ^ 24

/-- The height of the viewport. -/
def viewportH (mega : Bool) : Int := if mega then 192 else 128

/-- The colour a mode sets off the display with. -/
def tint (mega : Bool) : RGBA := if mega then RGBA.black else bitColor 0

/-- The mode's viewport, its tint up to the alpha, and its quirk. -/
structure Settled (b : Body 24 Members) : Prop where
  baseW : b.metadata.baseW = 256
  baseH : b.metadata.baseH = 192
  viewportX : b.metadata.viewportX = 0
  viewportY : b.metadata.viewportY = 0
  viewportW : b.metadata.viewportW = 256
  viewportH : b.metadata.viewportH = viewportH b.trait.useManualVsync
  textureTint : { b.metadata.textureTint with A := 0xFF } = tint b.trait.useManualVsync
  awaitVblank : b.quirkFlags .awaitVblank =
    (!b.trait.useManualVsync && !b.trait.useHiresScreen)
  texture : b.own.texture.InRange
  track : b.own.track.InMemory

/-- Only these members matter. -/
theorem Settled.congr {b b' : Body 24 Members} (h : Settled b)
    (hmeta : b'.metadata = b.metadata) (htrait : b'.trait = b.trait)
    (hquirks : b'.quirkFlags = b.quirkFlags) (htexture : b'.own.texture = b.own.texture)
    (htrack : b'.own.track = b.own.track) : Settled b' := by
  obtain ⟨⟨_, _, metadata, _, _⟩, _, own⟩ := b'
  dsimp only at hmeta htrait hquirks htexture htrack
  subst hmeta htrait hquirks
  exact ⟨h.baseW, h.baseH, h.viewportX, h.viewportY, h.viewportW, h.viewportH, h.textureTint,
    h.awaitVblank, htexture ▸ h.texture, htrack ▸ h.track⟩

/-- A texture that was not set. -/
theorem Texture.inRange_reset : Texture.reset.InRange :=
  ⟨by decide, by decide, by decide, by decide⟩

/-- A track that was not started. -/
theorem TrackData.inMemory_reset : TrackData.reset.InMemory := fun _ h => nomatch h

/-! ## Instructions -/

variable {s : Megachip}

/-- **`set_display_properties`** settles every mode. -/
theorem settled_setDisplayProperties (hs : Settled s.body) (mode : Resolution) :
    Settled (setDisplayProperties mode s).body := by
  have hW : s.metadata.baseW = 256 := hs.baseW
  have hH : s.metadata.baseH = 192 := hs.baseH
  cases mode with
  | LO | HI =>
    refine ⟨hW, hH, ?_, ?_, ?_, ?_, rfl, ?_, hs.texture, hs.track⟩
    all_goals
      simp [setDisplayProperties, body, onFamily, IFamily.settings, IFamily.setManualVsync,
        IFamily.setHiresScreen, IFamily.addQuirk, IFamily.subQuirk, Metadata.setViewport,
        Metadata.clamp, viewportH, screenW, hW, hH]
  | MC =>
    refine ⟨hW, hH, ?_, ?_, ?_, ?_, rfl, ?_, hs.texture, hs.track⟩
    all_goals
      simp [setDisplayProperties, body, onFamily, IFamily.settings, IFamily.setManualVsync,
        IFamily.subQuirk, Metadata.setViewport, Metadata.clamp, viewportH, screenW, screenH, hW, hH]

/-- A texture changed within its range. -/
theorem Settled.onTexture {f : Texture → Texture} (hs : Settled s.body)
    (hf : s.own.texture.InRange → (f s.own.texture).InRange) :
    Settled (onTexture f s).body :=
  ⟨hs.baseW, hs.baseH, hs.viewportX, hs.viewportY, hs.viewportW, hs.viewportH, hs.textureTint,
    hs.awaitVblank, hf hs.texture, hs.track⟩

/-- The track changed to one in memory. -/
theorem Settled.onTrack {track : TrackData} (hs : Settled s.body) (htrack : track.InMemory) :
    Settled (s.onOwn fun own => { own with track := track }).body :=
  ⟨hs.baseW, hs.baseH, hs.viewportX, hs.viewportY, hs.viewportW, hs.viewportH, hs.textureTint,
    hs.awaitVblank, hs.texture, htrack⟩

/-- A side is 256 texels at most. -/
theorem toNat_textureSize_le (NN : UInt8) : (textureSize NN).toNat ≤ 256 := by
  unfold textureSize
  split
  · rw [UInt8.toNat_toUInt32]
    exact Nat.le_of_lt NN.toNat_lt
  · decide

/-- A track starts only if it is inside the memory. -/
theorem settled_startAudioTrack (hs : Settled s.body) (loop : Bool) :
    Settled (startAudioTrack loop s).body := by
  unfold startAudioTrack
  split
  · refine hs.onTrack ?_
    split
    · exact TrackData.inMemory_reset
    · next hsize =>
      rintro _ ⟨⟩
      have hend := Nat.le_of_not_lt fun h => hsize (.inr h)
      exact ⟨fun h => hsize (.inl h), Nat.lt_of_le_of_lt hend (by decide)⟩
  · exact hs

/-- A scroll, in either mode. -/
theorem settled_scroll (hs : Settled s.body) (cols rows : Int) :
    Settled (scroll cols rows s).body := by
  unfold scroll
  split <;> exact hs.congr rfl rfl rfl rfl rfl

/-- A texture. -/
theorem settled_drawTexture (hs : Settled s.body) (xBegin yBegin : Nat) :
    Settled (drawTexture s xBegin yBegin).body := by
  unfold drawTexture
  split
  · exact hs.onTexture fun _ => Texture.inRange_reset
  · exact hs.congr rfl rfl rfl rfl rfl

/-- What `DxyN` draws, in either mode. -/
theorem settled_instructionDxyN (hs : Settled s.body) (X Y N : Fin 16) :
    Settled (instructionDxyN s X Y N).body := by
  unfold instructionDxyN drawMega
  dsimp only
  split
  · split
    · exact hs
    · split
      · exact hs.congr rfl rfl rfl rfl rfl
      · exact settled_drawTexture (s := s.onCpu (·.setV 0xF 0)) hs _ _
  · exact hs.congr rfl rfl rfl rfl rfl

/-- Another blend mode. -/
theorem settled_setBlendCallable (hs : Settled s.body) (mode : Nat) :
    Settled (setBlendCallable mode s).body := hs.congr rfl rfl rfl rfl rfl

/-- **Every instruction.** -/
theorem settled_execute (i : Instruction) (s s' : Megachip) (hs : Settled s.body)
    (h : execute i s = some s') : Settled s'.body := by
  cases i with
  | common i =>
    cases h
    obtain ⟨hset, hown, _⟩ := executeCommon_frame (config s) i s
    exact hs.congr (congrArg (·.metadata) hset) (congrArg (·.trait) hset)
      (congrArg (·.quirkFlags) hset) (congrArg (·.texture) hown) (congrArg (·.track) hown)
  | i00BN | i00CN | i00FB | i00FC => cases h; exact settled_scroll hs _ _
  | i00E0 =>
    cases h
    unfold instruction00E0
    split <;> exact hs.congr rfl rfl rfl rfl rfl
  | i00FE | i00FF => cases h; exact settled_setDisplayProperties hs _
  | i0010 => cases h; exact (settled_setDisplayProperties hs .LO).congr rfl rfl rfl rfl rfl
  | i0011 =>
    cases h
    have hmode := settled_setDisplayProperties hs .MC
    exact ⟨hmode.baseW, hmode.baseH, hmode.viewportX, hmode.viewportY, hmode.viewportW,
      hmode.viewportH, hmode.textureTint, hmode.awaitVblank, Texture.inRange_reset,
      TrackData.inMemory_reset⟩
  | i02NN NN => cases h; exact hs.congr rfl rfl rfl rfl rfl
  | i03NN NN =>
    cases h
    exact hs.onTexture fun ht => ⟨toNat_textureSize_le NN, ht.h, ht.collide, ht.opacity⟩
  | i04NN NN =>
    cases h
    exact hs.onTexture fun ht => ⟨ht.w, toNat_textureSize_le NN, ht.collide, ht.opacity⟩
  | i05NN NN =>
    cases h
    exact ⟨hs.baseW, hs.baseH, hs.viewportX, hs.viewportY, hs.viewportW, hs.viewportH,
      hs.textureTint, hs.awaitVblank, hs.texture, hs.track⟩
  | i060N N => cases h; exact settled_startAudioTrack hs _
  | i0700 => cases h; exact hs.onTrack TrackData.inMemory_reset
  | i080N N =>
    cases h
    unfold instruction080N
    refine settled_setBlendCallable (hs.onTexture fun ht => ⟨ht.w, ht.h, ht.collide, ?_⟩) _
    dsimp only
    split <;> decide
  | i09NN NN =>
    cases h
    refine hs.onTexture fun ht => ⟨ht.w, ht.h, ?_, ht.opacity⟩
    rw [UInt8.toNat_toUInt32]
    exact Nat.le_of_lt_succ NN.toNat_lt
  | iDxyN X Y N => cases h; exact settled_instructionDxyN hs X Y N
  | iFx29 X | iFx30 X =>
    cases h
    exact ⟨hs.baseW, hs.baseH, hs.viewportX, hs.viewportY, hs.viewportW, hs.viewportH,
      hs.textureTint, hs.awaitVblank, ⟨hs.texture.w, hs.texture.h, hs.texture.collide,
        hs.texture.opacity⟩, hs.track⟩
  | iFN85 N =>
    obtain ⟨r, _, rfl⟩ := Option.map_eq_some_iff.1 h
    exact hs
  | _ => cases h; exact hs

/-! ## Every state -/

/-- A track that ends is dropped. -/
theorem settled_pushAudioData (hs : Settled s.body) (input : FrameInput) :
    Settled (pushAudioData input s).body := by
  have hborder {s : Megachip} (hs : Settled s.body) (cond : Bool) (color : RGBA) :
      Settled (s.onFamily (.setBorderColorIf cond color)).body :=
    ⟨hs.baseW, hs.baseH, hs.viewportX, hs.viewportY, hs.viewportW, hs.viewportH,
      hs.textureTint, hs.awaitVblank, hs.texture, hs.track⟩
  have hstream : Settled (mixAudioData (makeStreamWave input) s).body := by
    unfold mixAudioData makeStreamWave
    split
    · split
      · exact hs.onTrack TrackData.inMemory_reset
      · exact hs
    · exact hs
  unfold pushAudioData
  dsimp only
  split
  · split
    · exact hstream
    · exact hborder hstream _ _
  · split
    · exact hs
    · exact hborder hs _ _

/-- A frame that is shown. -/
theorem settled_pushVideoData (hs : Settled s.body) : Settled (pushVideoData s).body := by
  unfold pushVideoData
  split
  · split <;> exact hs
  · exact hs.congr rfl rfl rfl rfl rfl

/-- A reset. -/
theorem settled_reset (hs : Settled s.body) : Settled (performInstanceReset virtuals s).body := by
  have hmode : Settled (setDisplayProperties .LO s).body := settled_setDisplayProperties hs .LO
  exact ⟨hmode.baseW, hmode.baseH, hmode.viewportX, hmode.viewportY, hmode.viewportW,
    hmode.viewportH, hmode.textureTint, hmode.awaitVblank, Texture.inRange_reset,
    TrackData.inMemory_reset⟩

/-- **The invariant.** -/
theorem alwaysKept_settled : AlwaysKept virtuals Settled where
  enterLoop := fun _ hs => hs
  execute := settled_execute
  pushAudioData := fun input _ hs => settled_pushAudioData hs input
  pushVideoData := fun _ hs => settled_pushVideoData hs
  reset := fun _ hs => settled_reset hs
  toggleQuirk := fun s hs flag hflag => by
    obtain rfl : flag = .wrapSprites := List.mem_singleton.1 hflag
    exact ⟨hs.baseW, hs.baseH, hs.viewportX, hs.viewportY, hs.viewportW, hs.viewportH,
      hs.textureTint, hs.awaitVblank, hs.texture, hs.track⟩
  editMemory := fun _ hs _ _ => hs.congr rfl rfl rfl rfl rfl

/-- A boot. -/
theorem settled_boot (launch : Launch) (unset : Unset) : Settled (boot launch unset).body :=
  ⟨rfl, rfl, rfl, rfl, rfl, rfl, rfl, rfl, Texture.inRange_reset, TrackData.inMemory_reset⟩

/-! ## Maps and viewport -/

/-- A mode, with maps of the sizes `push_video_data` takes them to have: the four pixels it shows
for a cell of the display are inside the background, and in the old resolutions in the
viewport. -/
structure InMode (s : Megachip) : Prop where
  settled : Settled s.body
  displayMap : s.own.displayMap.sizeX = 128 ∧ s.own.displayMap.sizeY = 64
  oldRenderMap : s.own.oldRenderMap.sizeX = 256 ∧ s.own.oldRenderMap.sizeY = 192
  backgroundMap : s.own.backgroundMap.sizeX = 256 ∧ s.own.backgroundMap.sizeY = 192
  collisionMap : s.own.collisionMap.sizeX = 256 ∧ s.own.collisionMap.sizeY = 192
  shown : ∀ i < s.own.displayMap.size, ∀ dx < 2, ∀ dy < 2,
    s.own.backgroundMap.offset (i % (screenW / 2) * 2 + dx) (i / (screenW / 2) * 2 + dy) <
        s.own.backgroundMap.size ∧
      (s.trait.useManualVsync = false →
        ((i / (screenW / 2) * 2 + dy : Nat) : Int) < s.metadata.viewportH)

/-- What is kept of the body says which mode the core is in. -/
theorem inMode_of_body {launch : Launch} {unset : Unset} (hs : Settled s.body)
    (hshape : SameShape s.body (boot launch unset).body) : InMode s := by
  have hdisplay : s.own.displayMap.sizeX = 128 ∧ s.own.displayMap.sizeY = 64 := hshape.displayMap
  have hback : s.own.backgroundMap.sizeX = 256 ∧ s.own.backgroundMap.sizeY = 192 :=
    hshape.backgroundMap
  refine ⟨hs, hdisplay, hshape.oldRenderMap, hback, hshape.collisionMap, ?_⟩
  intro i hi dx hdx dy hdy
  have hi : i < 64 * 128 := by rwa [Map2D.size, hdisplay.1, hdisplay.2] at hi
  have hX : i % (screenW / 2) * 2 + dx < 256 := by simp only [screenW]; omega
  have hY : i / (screenW / 2) * 2 + dy < 128 := by simp only [screenW]; omega
  refine ⟨Map2D.offset_lt_size (hX.trans_eq hback.1.symm) ?_, fun hmode => ?_⟩
  · exact (Nat.lt_trans hY (by decide)).trans_eq hback.2.symm
  · have hviewport : s.metadata.viewportH = viewportH s.trait.useManualVsync := hs.viewportH
    rw [hviewport, hmode]
    exact Int.ofNat_lt.2 hY

/-- **Every state is in a mode**, between events and wherever an instruction of a frame
starts. -/
theorem inMode_reachable (launch : Launch) (unset : Unset) (s : Megachip)
    (h : Reachable virtuals (boot launch unset) s) :
    InMode s ∧ ∀ input, ∀ t ∈ workerStarts virtuals input s, InMode t := by
  have hs := alwaysKept_settled.reachable (settled_boot launch unset) h
  have hshape : SameShape s.body (boot launch unset).body :=
    alwaysKept_sameShape.reachable (.of_eq rfl rfl rfl rfl rfl) h
  refine ⟨inMode_of_body hs hshape, fun input t ht => ?_⟩
  exact inMode_of_body (alwaysKept_settled.toKept.workerStarts input hs t ht)
    (alwaysKept_sameShape.toKept.workerStarts input hshape t ht)

/-- `0011`, the width of the texture and a jump to itself, after two frames: mega mode. -/
theorem inMode_mega :
    ∃ s, Runs.run (step virtuals) (boot (.ofProgram [0x00, 0x11, 0x03, 0x10, 0x12, 0x04]) .zero)
        [.idle, .idle] = some s ∧
      s.trait.useManualVsync = true ∧ s.own.texture.w = 16 ∧ InMode s := by
  have hrun : (Runs.run (step virtuals)
      (boot (.ofProgram [0x00, 0x11, 0x03, 0x10, 0x12, 0x04]) .zero) [.idle, .idle]).map
        (fun s => (s.trait.useManualVsync, s.own.texture.w)) = some (true, 16) := by decide +kernel
  obtain ⟨s, hs, heq⟩ := Option.map_eq_some_iff.1 hrun
  obtain ⟨hmega, hw⟩ := Prod.mk.inj heq
  exact ⟨s, hs, hmega, hw, (inMode_reachable _ _ s ⟨_, hs⟩).1⟩

end CubeChip.Megachip
