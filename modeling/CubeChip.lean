import CubeChip.Utilities.ColorOps
import CubeChip.Utilities.ArrayOps
import CubeChip.Utilities.Map2D.Transpose
import CubeChip.Components.Peripherals
import CubeChip.Components.TripleBuffer.Handoff
import CubeChip.Utilities.SHA1Helpers
import CubeChip.Systems.Chip8.Permaregs.Isolation
import CubeChip.Systems.Chip8.Permaregs.Persistence
import CubeChip.Systems.Chip8.Permaregs.Errors
import CubeChip.Systems.Chip8.Keypad
import CubeChip.Systems.Chip8.Cores.SchipModern.Resolution
import CubeChip.Systems.Chip8.Cores.SchipLegacy.DisplayWait
import CubeChip.Systems.Chip8.Cores.SchipLegacy.Display
import CubeChip.Systems.Chip8.Cores.Xochip.Reset
import CubeChip.Systems.Chip8.Cores.Xochip.Transfers
import CubeChip.Systems.Chip8.Cores.Xochip.Palette
import CubeChip.Systems.Chip8.Cores.Megachip.Reset
import CubeChip.Systems.Chip8.Cores.Megachip.LegacyDraw
import CubeChip.Systems.Chip8.Cores.Megachip.Font
import CubeChip.Systems.Chip8.Cores.Megachip.BlockReads
import CubeChip.Systems.Chip8.Cores.Chip8X.Background
import CubeChip.Systems.Chip8.Cores.Chip8X.Players
import CubeChip.Systems.Chip8.Cores.Chip8Modern.Mirroring
import CubeChip.Systems.Chip8.Cores.Chip8E
import CubeChip.Systems.Chip8.Cores.Arithmetic
import CubeChip.Systems.Chip8.Cores.Drawing
import CubeChip.Systems.Chip8.Cores.Decoder
import CubeChip.Systems.Chip8.Cores.Skips
import CubeChip.Systems.Chip8.Worker
import CubeChip.Systems.Chip8.Interrupts
import CubeChip.Components.SlidingRingBuffer.Producers
import CubeChip.Services.BasicLogger
import CubeChip.Services.HomeDirManager
import CubeChip.Frontend.ApplicationHost
import CubeChip.Components.SimpleMRU.Reference
import CubeChip.Utilities.DefaultConfig.Merge
import CubeChip.Components.AudioDevice
import CubeChip.Services.BasicVideoSpec.Placement
import CubeChip.Frontend.UserInterface.Once
import CubeChip.Systems.Chip8.Cores.Chip8X.Zones
import CubeChip.Systems.Chip8.Stack
import CubeChip.Systems.BytePusher.Machine
import CubeChip.Systems.Chip8.Cores.Megachip.Modes
import CubeChip.Systems.Chip8.Cores.Pixels
import CubeChip.Systems.Chip8.Cores.Xochip.Display
import CubeChip.Systems.Chip8.Cores.Timers
import CubeChip.Utilities.AtomicBox
import CubeChip.Components.BasicInput
import CubeChip.Systems.Chip8.Cores.Programs
import CubeChip.Systems.Chip8.Cores.Seeds
import CubeChip.Systems.Chip8.Cores.Frames
import CubeChip.Systems.Chip8.Cores.Redraw
import CubeChip.Systems.Chip8.Cores.Chip8Modern.Replay
import CubeChip.Systems.Chip8.Cores.Megachip.Blending
import CubeChip.Systems.Chip8.Cores.Pauses
import CubeChip.Systems.Chip8.Cores.Transfers
