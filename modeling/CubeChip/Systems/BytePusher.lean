import CubeChip.Lib.Runs
import CubeChip.Systems.Chip8.Family

/-!
# `BYTEPUSHER_STANDARD`

The BytePusher core of `systems/bytepusher`: a memory of 16 MiB and one instruction, which copies
a byte and jumps. A frame stores the keys in the memory, runs `0x10000` instructions, and sends
two windows of the memory out as sound and picture. `ISystemEmu` is the base class it shares with
the CHIP-8 family; the flags, the keyboard and the worker's test for a reset are the same.
-/

namespace CubeChip

/-- The members of `ISystemEmu`, `IFamily_BYTEPUSHER` and the core. -/
structure BytePusherStandard where
  systemState : SystemState
  cachedSystemState : SystemState
  benchedFrames : UInt32
  elapsedFrames : UInt32
  input : BasicKeyboard
  customBinds : List SimpleKeyMapping
  fileImage : List UInt8
  metadata : Metadata
  /-- An audio device was opened. -/
  audioDevice : Bool
  memory : MirroredMemory 24

namespace BytePusherStandard

/-- `c_sys_audio_sample_total`. -/
def audioSampleTotal : Nat := 256

/-- `c_sys_standard_cpf`. -/
def standardCpf : Nat := 0x10000

/-- `c_sys_screen_W` and `c_sys_screen_H`. -/
def screenW : Nat := 256

def screenH : Nat := 256

/-- `c_bit_colors`: a colour cube of 216 colours, then black. -/
def bitColors : List RGBA := [
  0x000000FF, 0x000033FF, 0x000066FF, 0x000099FF, 0x0000CCFF, 0x0000FFFF, 0x003300FF, 0x003333FF,
  0x003366FF, 0x003399FF, 0x0033CCFF, 0x0033FFFF, 0x006600FF, 0x006633FF, 0x006666FF, 0x006699FF,
  0x0066CCFF, 0x0066FFFF, 0x009900FF, 0x009933FF, 0x009966FF, 0x009999FF, 0x0099CCFF, 0x0099FFFF,
  0x00CC00FF, 0x00CC33FF, 0x00CC66FF, 0x00CC99FF, 0x00CCCCFF, 0x00CCFFFF, 0x00FF00FF, 0x00FF33FF,
  0x00FF66FF, 0x00FF99FF, 0x00FFCCFF, 0x00FFFFFF, 0x330000FF, 0x330033FF, 0x330066FF, 0x330099FF,
  0x3300CCFF, 0x3300FFFF, 0x333300FF, 0x333333FF, 0x333366FF, 0x333399FF, 0x3333CCFF, 0x3333FFFF,
  0x336600FF, 0x336633FF, 0x336666FF, 0x336699FF, 0x3366CCFF, 0x3366FFFF, 0x339900FF, 0x339933FF,
  0x339966FF, 0x339999FF, 0x3399CCFF, 0x3399FFFF, 0x33CC00FF, 0x33CC33FF, 0x33CC66FF, 0x33CC99FF,
  0x33CCCCFF, 0x33CCFFFF, 0x33FF00FF, 0x33FF33FF, 0x33FF66FF, 0x33FF99FF, 0x33FFCCFF, 0x33FFFFFF,
  0x660000FF, 0x660033FF, 0x660066FF, 0x660099FF, 0x6600CCFF, 0x6600FFFF, 0x663300FF, 0x663333FF,
  0x663366FF, 0x663399FF, 0x6633CCFF, 0x6633FFFF, 0x666600FF, 0x666633FF, 0x666666FF, 0x666699FF,
  0x6666CCFF, 0x6666FFFF, 0x669900FF, 0x669933FF, 0x669966FF, 0x669999FF, 0x6699CCFF, 0x6699FFFF,
  0x66CC00FF, 0x66CC33FF, 0x66CC66FF, 0x66CC99FF, 0x66CCCCFF, 0x66CCFFFF, 0x66FF00FF, 0x66FF33FF,
  0x66FF66FF, 0x66FF99FF, 0x66FFCCFF, 0x66FFFFFF, 0x990000FF, 0x990033FF, 0x990066FF, 0x990099FF,
  0x9900CCFF, 0x9900FFFF, 0x993300FF, 0x993333FF, 0x993366FF, 0x993399FF, 0x9933CCFF, 0x9933FFFF,
  0x996600FF, 0x996633FF, 0x996666FF, 0x996699FF, 0x9966CCFF, 0x9966FFFF, 0x999900FF, 0x999933FF,
  0x999966FF, 0x999999FF, 0x9999CCFF, 0x9999FFFF, 0x99CC00FF, 0x99CC33FF, 0x99CC66FF, 0x99CC99FF,
  0x99CCCCFF, 0x99CCFFFF, 0x99FF00FF, 0x99FF33FF, 0x99FF66FF, 0x99FF99FF, 0x99FFCCFF, 0x99FFFFFF,
  0xCC0000FF, 0xCC0033FF, 0xCC0066FF, 0xCC0099FF, 0xCC00CCFF, 0xCC00FFFF, 0xCC3300FF, 0xCC3333FF,
  0xCC3366FF, 0xCC3399FF, 0xCC33CCFF, 0xCC33FFFF, 0xCC6600FF, 0xCC6633FF, 0xCC6666FF, 0xCC6699FF,
  0xCC66CCFF, 0xCC66FFFF, 0xCC9900FF, 0xCC9933FF, 0xCC9966FF, 0xCC9999FF, 0xCC99CCFF, 0xCC99FFFF,
  0xCCCC00FF, 0xCCCC33FF, 0xCCCC66FF, 0xCCCC99FF, 0xCCCCCCFF, 0xCCCCFFFF, 0xCCFF00FF, 0xCCFF33FF,
  0xCCFF66FF, 0xCCFF99FF, 0xCCFFCCFF, 0xCCFFFFFF, 0xFF0000FF, 0xFF0033FF, 0xFF0066FF, 0xFF0099FF,
  0xFF00CCFF, 0xFF00FFFF, 0xFF3300FF, 0xFF3333FF, 0xFF3366FF, 0xFF3399FF, 0xFF33CCFF, 0xFF33FFFF,
  0xFF6600FF, 0xFF6633FF, 0xFF6666FF, 0xFF6699FF, 0xFF66CCFF, 0xFF66FFFF, 0xFF9900FF, 0xFF9933FF,
  0xFF9966FF, 0xFF9999FF, 0xFF99CCFF, 0xFF99FFFF, 0xFFCC00FF, 0xFFCC33FF, 0xFFCC66FF, 0xFFCC99FF,
  0xFFCCCCFF, 0xFFCCFFFF, 0xFFFF00FF, 0xFFFF33FF, 0xFFFF66FF, 0xFFFF99FF, 0xFFFFCCFF, 0xFFFFFFFF,
  0x000000FF, 0x000000FF, 0x000000FF, 0x000000FF, 0x000000FF, 0x000000FF, 0x000000FF, 0x000000FF,
  0x000000FF, 0x000000FF, 0x000000FF, 0x000000FF, 0x000000FF, 0x000000FF, 0x000000FF, 0x000000FF,
  0x000000FF, 0x000000FF, 0x000000FF, 0x000000FF, 0x000000FF, 0x000000FF, 0x000000FF, 0x000000FF,
  0x000000FF, 0x000000FF, 0x000000FF, 0x000000FF, 0x000000FF, 0x000000FF, 0x000000FF, 0x000000FF,
  0x000000FF, 0x000000FF, 0x000000FF, 0x000000FF, 0x000000FF, 0x000000FF, 0x000000FF, 0x000000FF
].map RGBA.ofPacked

/-- `c_bit_colors[pixel]`. -/
def bitColor (pixel : UInt8) : RGBA := bitColors.getD pixel.toNat RGBA.zero

/-! ## The memory -/

/-- `read_data<ByteSpan::SINGLE>`. -/
def readSingle (m : MirroredMemory 24) (pos : UInt32) : UInt32 := (m.get (pos + 0)).toUInt32

/-- `read_data<ByteSpan::DOUBLE>`. -/
def readDouble (m : MirroredMemory 24) (pos : UInt32) : UInt32 :=
  ((m.get (pos + 0)).toUInt32 <<< 8) ||| (m.get (pos + 1)).toUInt32

/-- `read_data<ByteSpan::TRIPLE>`. -/
def readTriple (m : MirroredMemory 24) (pos : UInt32) : UInt32 :=
  ((m.get (pos + 0)).toUInt32 <<< 16) ||| ((m.get (pos + 1)).toUInt32 <<< 8) |||
    (m.get (pos + 2)).toUInt32

/-- The bytes from a pointer into the memory; `none` if they are not all inside. -/
def span {bits : Nat} (m : MirroredMemory bits) (first count : Nat) : Option (List UInt8) :=
  if first + count ≤ 2 ^ bits then
    some ((List.range count).map fun i => m.mem (BitVec.ofNat bits (first + i)))
  else none

/-- One instruction of the loop: the copy, then the jump. -/
def cycle (c : MirroredMemory 24 × UInt32) : MirroredMemory 24 × UInt32 :=
  let m := c.1.set (readTriple c.1 (c.2 + 3)) (c.1.get (readTriple c.1 (c.2 + 0)))
  (m, readTriple m (c.2 + 6))

/-- The loop of `handle_cycle_loop`, from a pointer: the memory after. -/
def cycleLoop (cycles : Nat) (progPointer : UInt32) (m : MirroredMemory 24) :
    MirroredMemory 24 := (cycle^[cycles] (m, progPointer)).1

/-! ## A frame -/

/-- What a frame sends out: the sound, if there is a device, and the picture, if the frame ran. -/
structure Output where
  audio : Option (List Int8)
  video : Option (List RGBA × Metadata)

variable (s : BytePusherStandard)

/-- `get_program_counter`. -/
def getProgramCounter : UInt32 := readTriple s.memory 2

/-- `get_key_states`, with the keyboard after. -/
def getKeyStates (keys : Scancode → Bool) (s : BytePusherStandard) :
    UInt32 × BytePusherStandard :=
  let s := { s with input := s.input.advanceState keys }
  (HexInput.heldKeys s.input s.customBinds, s)

/-- `handle_cycle_loop`. -/
def handleCycleLoop (keys : Scancode → Bool) (s : BytePusherStandard) : BytePusherStandard :=
  let (inputStates, s) := s.getKeyStates keys
  let progPointer := s.getProgramCounter
  let m := (s.memory.set 0 (inputStates >>> 0x8).toUInt8).set 1 (inputStates &&& 0xFF).toUInt8
  { s with memory := cycleLoop standardCpf progPointer m }

/-- `push_audio_data`: silence while paused; the gain of the samples is floating point. -/
def pushAudioData : Option (Option (List Int8)) :=
  if s.audioDevice then
    if s.cachedSystemState.has EmuState.anyPause then
      some (some (List.replicate audioSampleTotal 0))
    else (span s.memory (readDouble s.memory 6 <<< 8).toNat 256).map fun samples =>
      some (samples.map UInt8.toInt8)
  else some none

/-- `push_video_data`. -/
def pushVideoData : Option (List RGBA × Metadata) :=
  (span s.memory (MirroredMemory.mask 24 (readSingle s.memory 5 <<< 16)).toNat
    (screenW * screenH)).map fun pixels => (pixels.map bitColor, s.metadata)

/-- `main_system_loop`; `none` if a pointer leaves the memory. -/
def mainSystemLoop (keys : Scancode → Bool) (s : BytePusherStandard) :
    Option (BytePusherStandard × Output) :=
  if s.cachedSystemState.has EmuState.anyPause then
    s.pushAudioData.map fun audio => (s, ⟨audio, none⟩)
  else
    let s := s.handleCycleLoop keys
    s.pushAudioData.bind fun audio => s.pushVideoData.map fun video => (s, ⟨audio, some video⟩)

/-! ## Starting and resetting -/

/-- `copy_file_image_to(m_memory, 0)`. -/
def copyFileImage : BytePusherStandard :=
  { s with memory := s.memory.copyFrom 0 s.fileImage }

/-- A core constructed, after `initialize_system`. -/
def boot (fileImage : List UInt8) (audioDevice : Bool) : BytePusherStandard :=
  copyFileImage
    { systemState := fun _ => false
      cachedSystemState := fun _ => false
      benchedFrames := 0
      elapsedFrames := 0
      input := BasicKeyboard.resetState
      customBinds := defaultKeyMappings
      fileImage := fileImage
      metadata :=
        { Metadata.new screenW screenH with
          minimumZoom := 2
          innerMargin := 4
          textureTint := bitColor 0
          enabled := true }
      audioDevice := audioDevice
      memory := MirroredMemory.clear }

/-- `validate_program`: what is wrong with a program. -/
def validateProgram (file : List UInt8) : Option String :=
  if file.isEmpty then some "empty file"
  else if file.length ≤ 2 ^ 24 then none else some "file too large"

/-- `reset_system_data`. -/
def resetSystemData : BytePusherStandard :=
  copyFileImage { s with memory := MirroredMemory.clear }

/-- `perform_instance_reset`. -/
def performInstanceReset : BytePusherStandard :=
  resetSystemData { s with
    benchedFrames := 0
    elapsedFrames := 0
    input := BasicKeyboard.resetState }

/-! ## The worker and the GUI thread -/

/-- The worker's test for a reset request. -/
def workerReset : BytePusherStandard :=
  if s.systemState .reset then
    { s.performInstanceReset with systemState := s.systemState.sub EmuState.notRunning }
  else s

/-- The frame counters after a frame. -/
def countFrame : BytePusherStandard :=
  if s.cachedSystemState.has EmuState.notRunning then s
  else { s with
    elapsedFrames := s.elapsedFrames + 1
    benchedFrames := if s.cachedSystemState .bench then s.benchedFrames + 1 else 0 }

/-- The rest of the worker's iteration, with what it sends out. -/
def workerFrame (keys : Scancode → Bool) (s : BytePusherStandard) :
    Option (BytePusherStandard × Output) :=
  let s := { s with cachedSystemState := s.systemState }
  if s.cachedSystemState.has EmuState.anyStop then some (s, ⟨none, none⟩)
  else (s.mainSystemLoop keys).map fun r => (r.1.countFrame, r.2)

/-- What the GUI thread does to the core. -/
inductive GuiOp where
  | requestInstanceReset
  | tryPauseSystem
  | toggleBench
  | toggleStats
  | setHidden (hidden : Bool)
  | editMemory (address : UInt32) (value : UInt8)

/-- One operation of the GUI thread. -/
def guiStep (op : GuiOp) (s : BytePusherStandard) : BytePusherStandard :=
  match op with
  | .requestInstanceReset => { s with systemState := s.systemState.add [.reset] }
  | .tryPauseSystem =>
      if s.systemState.has EmuState.cannotPause then s
      else { s with systemState := s.systemState.xor [.paused] }
  | .toggleBench => { s with systemState := s.systemState.xor [.bench] }
  | .toggleStats => { s with systemState := s.systemState.xor [.stats] }
  | .setHidden hidden =>
      { s with systemState :=
        if hidden then s.systemState.add [.hidden] else s.systemState.sub [.hidden] }
  | .editMemory address value => { s with memory := s.memory.set address value }

/-- What can happen next. -/
inductive Event where
  | reset
  | frame (keys : Scancode → Bool)
  | gui (op : GuiOp)

/-- One event. -/
def step (s : BytePusherStandard) : Event → Option BytePusherStandard
  | .reset => some s.workerReset
  | .frame keys => (s.workerFrame keys).map Prod.fst
  | .gui op => some (guiStep op s)

end BytePusherStandard

end CubeChip
