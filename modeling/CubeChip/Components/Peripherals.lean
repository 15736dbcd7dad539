import CubeChip.Utilities.ArrayOps
import CubeChip.Utilities.ColorOps

/-!
# Peripherals

The small devices a core is built around: the `Well512` generator, the integer half of a
`Voice` (its `AudioTimer`; phase, step and gain are floating point and play no part in the
machine's state), the double-buffered `BasicKeyboard`, and the frame `Metadata` a
`DisplayDevice` stages.
-/

namespace CubeChip

/-! ## `Well512` -/

/-- The generator: sixteen words and an index. -/
structure Well512 where
  state : Fin 16 → UInt32
  index : UInt32

namespace Well512

/-- A word of the state; every index is masked to four bits. -/
def word (g : Well512) (i : UInt32) : UInt32 := g.state (Fin.ofNat 16 (i &&& 0xF).toNat)

/-- Assignment to a word. -/
def setWord (g : Well512) (i value : UInt32) : Well512 :=
  { g with state := Function.update g.state (Fin.ofNat 16 (i &&& 0xF).toNat) value }

/-- `splitmix64`. -/
def splitmix64 (seed : UInt64) : UInt64 :=
  let z := seed + 0x9E3779B97F4A7C15
  let z := (z ^^^ (z >>> 30)) * 0xBF58476D1CE4E5B9
  let z := (z ^^^ (z >>> 27)) * 0x94D049BB133111EB
  z ^^^ (z >>> 31)

/-- The constructor: each word is the low half of the next `splitmix64` value. -/
def seeded (seed : UInt64) : Well512 where
  state := fun i => (Nat.repeat splitmix64 (i.val + 1) seed).toUInt32
  index := 0

/-- `next()`: the value, and the generator after it. -/
def next (g : Well512) : UInt32 × Well512 :=
  let a := g.word g.index
  let c := g.word (g.index + 13)
  let b : UInt32 := a ^^^ c ^^^ (a <<< 16) ^^^ (c <<< 15)
  let c := g.word (g.index + 9)
  let c : UInt32 := c ^^^ (c >>> 11)
  let a := b ^^^ c
  let g := g.setWord g.index a
  let d : UInt32 := a ^^^ ((a <<< 5) &&& 0xDA442D24)
  let g : Well512 := { g with index := (g.index + 15) &&& 0xF }
  let a := g.word g.index
  let value : UInt32 := a ^^^ b ^^^ d ^^^ (a <<< 2) ^^^ (b <<< 18) ^^^ (c <<< 28)
  (value, g.setWord g.index value)

/-- The generator after `n` calls. -/
def advance (n : Nat) (g : Well512) : Well512 := Nat.repeat (fun g => g.next.2) n g

end Well512

/-! ## `AudioTimer` -/

/-- How long a voice is active, now and one update earlier. -/
structure AudioTimer where
  timerOld : UInt32
  timerNew : UInt32
deriving DecidableEq, Repr

namespace AudioTimer

def get (t : AudioTimer) : UInt32 := t.timerNew

def set (t : AudioTimer) (time : UInt32) : AudioTimer := ⟨t.timerNew, time⟩

def dec (t : AudioTimer) : AudioTimer :=
  t.set (if t.timerNew ≠ 0 then t.timerNew - 1 else 0)

def reset : AudioTimer := ⟨0, 0⟩

end AudioTimer

/-! ## `BasicKeyboard` -/

/-- An `SDL_Scancode`. -/
abbrev Scancode := Nat

/-- The key states of this frame and of the last one. -/
structure BasicKeyboard where
  newBuf : Scancode → Bool
  oldBuf : Scancode → Bool

namespace BasicKeyboard

def isHeld (k : BasicKeyboard) (key : Scancode) : Bool := k.newBuf key

/-- `advance_state`: take the states polled last. -/
def advanceState (k : BasicKeyboard) (polled : Scancode → Bool) : BasicKeyboard :=
  ⟨polled, k.newBuf⟩

/-- `reset_state`. -/
def resetState : BasicKeyboard := ⟨fun _ => false, fun _ => false⟩

end BasicKeyboard

/-- A `SimpleKeyMapping`: key index, primary key, alternative key. -/
structure SimpleKeyMapping where
  idx : UInt32
  key : Scancode
  alt : Scancode

/-! ## Frame metadata -/

/-- What a core stages for the display. -/
structure Metadata where
  /-- The size of the texture, fixed at construction. -/
  baseW : Int
  baseH : Int
  viewportX : Int
  viewportY : Int
  viewportW : Int
  viewportH : Int
  textureTint : RGBA
  borderColor : RGBA
  minimumZoom : Int
  innerMargin : Int
  enabled : Bool
deriving DecidableEq, Repr

namespace Metadata

/-- `std::clamp`. -/
def clamp (x lo hi : Int) : Int := if x < lo then lo else if hi < x then hi else x

def defaultBorderColor : RGBA := RGBA.ofPacked 0x303030FF

/-- A new `Metadata(W, H)`. -/
def new (w h : Int) : Metadata where
  baseW := clamp w 1 8192
  baseH := clamp h 1 8192
  viewportX := 0
  viewportY := 0
  viewportW := w
  viewportH := h
  textureTint := RGBA.white
  borderColor := defaultBorderColor
  minimumZoom := 1
  innerMargin := 0
  enabled := false

/-- `set_viewport(w, h)`, at the origin. -/
def setViewport (m : Metadata) (w h : Int) : Metadata :=
  let x := clamp 0 0 (m.baseW - 1)
  let y := clamp 0 0 (m.baseH - 1)
  { m with
    viewportX := x
    viewportY := y
    viewportW := clamp w 1 (m.baseW - x)
    viewportH := clamp h 1 (m.baseH - y) }

/-- `set_border_color_if`. -/
def setBorderColorIf (m : Metadata) (cond : Bool) (color : RGBA) : Metadata :=
  { m with borderColor := if cond then color else defaultBorderColor }

end Metadata

end CubeChip
