import CubeChip.Systems.Chip8.Run

/-!
# What a frame keeps

The processor, the counters and the system state change all the time; the *body* of a core,
its settings, memory and own members, only changes where an instruction or the core's output
says so. `Kept` is what a core shows of these, and `Kept.workerFrame` and
`Kept.workerStarts` carry a property of the body through a frame.
-/

namespace CubeChip

/-- The members of the base classes the frame itself leaves alone. -/
structure Settings where
  trait : PlatformTraits
  quirkFlags : QuirkFlags
  metadata : Metadata
  fileImage : List UInt8
  audioDevice : Bool

namespace IFamily

/-- The settings of the base. -/
def settings (s : IFamily) : Settings :=
  ⟨s.trait, s.quirkFlags, s.metadata, s.fileImage, s.audioDevice⟩

/-- Keys, timers and interrupts leave the settings and the cached quirks alone. -/
theorem prepareFrame_frame (keys : Scancode → Bool) (s : IFamily) :
    (s.prepareFrame keys).settings = s.settings ∧
      (s.prepareFrame keys).cachedQuirkFlags = s.cachedQuirkFlags := by
  unfold prepareFrame handlePreWorkInterrupts
  split
  · exact ⟨rfl, rfl⟩
  · split <;> exact ⟨rfl, rfl⟩
  · split <;> exact ⟨rfl, rfl⟩
  · exact ⟨rfl, rfl⟩

/-- A frame begins. -/
theorem settings_prepareFrame (keys : Scancode → Bool) (s : IFamily) :
    (s.prepareFrame keys).settings = s.settings := (prepareFrame_frame keys s).1

/-- A frame ends. -/
theorem settings_handlePostWorkInterrupts (s : IFamily) :
    s.handlePostWorkInterrupts.settings = s.settings := by
  unfold handlePostWorkInterrupts
  split
  · dsimp only
    split <;> rfl
  all_goals rfl

/-- A frame is counted. -/
theorem settings_countFrame (s : IFamily) : s.countFrame.settings = s.settings := by
  unfold countFrame
  split <;> rfl

end IFamily

/-- A core without its processor, counters and system state. -/
structure Body (bits : Nat) (Own : Type) extends Settings where
  memory : MirroredMemory bits
  own : Own

namespace Core

variable {bits : Nat} {Own Instruction : Type}

/-- What is not the processor's. -/
def body (s : Core bits Own) : Body bits Own := ⟨s.settings, s.memory, s.own⟩

/-- A change of the base that keeps the settings. -/
theorem body_onFamily {f : IFamily → IFamily} (hf : ∀ s, (f s).settings = s.settings)
    (s : Core bits Own) : (s.onFamily f).body = s.body :=
  congrArg (fun settings => Body.mk settings s.memory s.own) (hf s.toIFamily)

variable {V : Virtuals bits Own Instruction}

/-! ## The cycle loop -/

/-- What a property of all states shows to hold wherever an instruction of the cycle loop
starts. -/
structure LoopKept (V : Virtuals bits Own Instruction) (I : Core bits Own → Prop) : Prop where
  loopEntry : ∀ s, I s → I (loopEntry V s)
  iterate : ∀ s s', I s → running s = true → iterate V s = some s' → I s'

namespace LoopKept

variable {I : Core bits Own → Prop} {s s' : Core bits Own}

/-- The loop of a frame. -/
theorem instructionLoop (h : LoopKept V I) (hs : I s) (hrun : instructionLoop V s = some s') :
    I s' :=
  Loops.loop_invariant h.iterate (h.loopEntry s hs) hrun

/-- Wherever an instruction starts in it. -/
theorem loopStarts (h : LoopKept V I) (hs : I s) : ∀ t ∈ loopStarts V s, I t ∧ running t :=
  Loops.starts_invariant h.iterate (h.loopEntry s hs)

/-- Wherever an instruction starts in a BENCH frame: by induction on the slices. -/
theorem benchStarts (h : LoopKept V I) (slices : Nat) (hs : I s) :
    ∀ t ∈ benchStarts V slices s, I t ∧ running t := by
  induction slices generalizing s with
  | zero =>
      rcases benchStarts_cases V 0 s with heq | ⟨k, t, hk, _⟩
      · rw [heq]
        exact h.loopStarts hs
      · exact nomatch hk
  | succ slices ih =>
      rcases benchStarts_cases V (slices + 1) s with heq | ⟨k, t, hk, ht, _, heq⟩
      · rw [heq]
        exact h.loopStarts hs
      · cases hk
        rw [heq]
        intro x hx
        rcases List.mem_append.1 hx with hx | hx
        · exact h.loopStarts hs x hx
        · exact ih (h.instructionLoop hs ht) x hx

/-- The end of a BENCH frame: by induction on the slices. -/
theorem benchLoop (h : LoopKept V I) (hadd : ∀ total s, I s → I (addCycles total s)) (slices : Nat)
    {total : UInt32} (hs : I s) (hrun : benchLoop V slices total s = some s') : I s' := by
  induction slices generalizing s total with
  | zero =>
      obtain ⟨t, ht, rfl | ⟨k, hk, _⟩⟩ := benchLoop_cases hrun
      · exact hadd total t (h.instructionLoop hs ht)
      · exact nomatch hk
  | succ slices ih =>
      obtain ⟨t, ht, rfl | ⟨k, hk, _, hrest⟩⟩ := benchLoop_cases hrun
      · exact hadd total t (h.instructionLoop hs ht)
      · cases hk
        exact ih (h.instructionLoop hs ht) hrest

/-- **Where the cycle loop ends.** -/
theorem executeCycleLoop (h : LoopKept V I) (hadd : ∀ total s, I s → I (addCycles total s))
    {slices : Nat} (hs : I s) (hrun : executeCycleLoop V slices s = some s') : I s' := by
  unfold Core.executeCycleLoop at hrun
  split at hrun
  · exact h.benchLoop hadd slices hs hrun
  · exact h.instructionLoop hs hrun

/-- **Wherever an instruction of the cycle loop starts.** -/
theorem cycleStarts (h : LoopKept V I) (slices : Nat) (hs : I s) :
    ∀ t ∈ cycleStarts V slices s, I t ∧ running t := by
  unfold Core.cycleStarts
  split
  · exact h.benchStarts slices hs
  · exact h.loopStarts hs

end LoopKept

/-! ## The body -/

/-- What the instructions and the output of a core show to keep `J` of its body. -/
structure Kept (V : Virtuals bits Own Instruction) (J : Body bits Own → Prop) : Prop where
  enterLoop : ∀ s, J s.body → J (V.enterLoop s).body
  execute : ∀ i s s', J s.body → V.execute i s = some s' → J s'.body
  pushAudioData : ∀ input s, J s.body → J (V.pushAudioData input s).body
  pushVideoData : ∀ s, J s.body → J (V.pushVideoData s).body

namespace Kept

variable {J : Body bits Own → Prop} {s s' : Core bits Own}

/-- One instruction. -/
theorem iterate (h : Kept V J) (hs : J s.body) (hstep : iterate V s = some s') : J s'.body := by
  obtain ⟨t, ht, rfl⟩ := Option.map_eq_some_iff.1 hstep
  exact h.execute (current V s) s.fetch.2 t hs ht

/-- A property of the body, as what the loop keeps. -/
theorem loopKept (h : Kept V J) : LoopKept V fun s => J s.body where
  loopEntry := h.enterLoop
  iterate := fun _ _ hs _ hstep => h.iterate hs hstep

/-- **`main_system_loop`.** -/
theorem mainSystemLoop (h : Kept V J) {input : FrameInput} (hs : J s.body)
    (hrun : mainSystemLoop V input s = some s') : J s'.body := by
  unfold Core.mainSystemLoop at hrun
  dsimp only at hrun
  split at hrun
  · cases hrun
    exact h.pushAudioData input _ hs
  · obtain ⟨t, ht, rfl⟩ := Option.map_eq_some_iff.1 hrun
    have hprep : J ((s.onFamily .cacheQuirks).onFamily (.prepareFrame input.keys)).body :=
      (body_onFamily (IFamily.settings_prepareFrame input.keys) _).symm ▸ hs
    have htJ : J t.body := h.loopKept.executeCycleLoop (fun _ _ ht => ht) hprep ht
    have hpost : J (t.onFamily .handlePostWorkInterrupts).body :=
      (body_onFamily IFamily.settings_handlePostWorkInterrupts t).symm ▸ htJ
    exact h.pushVideoData _ (h.pushAudioData input _ hpost)

/-- **A worker frame** keeps what the instructions and the output keep. -/
theorem workerFrame (h : Kept V J) {input : FrameInput} (hs : J s.body)
    (hrun : workerFrame V input s = some s') : J s'.body := by
  unfold Core.workerFrame at hrun
  dsimp only at hrun
  split at hrun
  · cases hrun; exact hs
  · obtain ⟨t, ht, rfl⟩ := Option.map_eq_some_iff.1 hrun
    exact (body_onFamily IFamily.settings_countFrame t).symm ▸
      h.mainSystemLoop (s := s.onFamily .cacheSystemState) hs ht

/-- A frame begins. -/
theorem frameEntry (hs : J s.body) (input : FrameInput) : J (frameEntry input s).body :=
  (body_onFamily (IFamily.settings_prepareFrame input.keys) _).symm ▸ hs

/-- **Inside a worker frame** it holds wherever an instruction starts. -/
theorem workerStarts (h : Kept V J) (input : FrameInput) (hs : J s.body) :
    ∀ t ∈ workerStarts V input s, J t.body := by
  rcases workerStarts_cases V input s with heq | heq <;> rw [heq] <;> intro t ht
  · exact nomatch ht
  · exact (h.loopKept.cycleStarts input.slices (frameEntry hs input) t ht).1

end Kept

end Core

end CubeChip
