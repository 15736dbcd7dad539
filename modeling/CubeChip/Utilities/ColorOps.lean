/-!
# `RGBA` colours

The part of `utilities/ColorOps.hpp` and `utilities/EzMaths.hpp` the cores use: packed
colours, 8-bit fixed-point products, the three blend modes and the composite blend.
-/

namespace CubeChip

/-! ## Fixed point -/

/-- `ez::fixed_mul8`. -/
def fixedMul8 (x y : UInt8) : UInt8 :=
  ((x.toUInt32 * (y.toUInt32 ||| (y.toUInt32 <<< 8)) + 0x8080) >>> 16).toUInt8

/-- `ez::fixed_scale8`. -/
def fixedScale8 (x : UInt8) (y : UInt32) : UInt8 :=
  (min ((x.toUInt32 * y * 257 + 0x8080) >>> 16) 255).toUInt8

/-- `ez::fixed_lerp8`. -/
def fixedLerp8 (x y w : UInt8) : UInt8 := fixedMul8 x (255 - w) + fixedMul8 y w

/-- `ez::bit_dup8`: every bit of a byte twice. -/
def bitDup8 (data : UInt32) : UInt32 :=
  let data := ((data <<< 4) ||| data) &&& 0x0F0F
  let data := ((data <<< 2) ||| data) &&& 0x3333
  let data := ((data <<< 1) ||| data) &&& 0x5555
  ((data <<< 1) ||| data) &&& 0xFFFF

/-! ## Colours -/

/-- An `RGBA` colour. -/
structure RGBA where
  R : UInt8
  G : UInt8
  B : UInt8
  A : UInt8
deriving DecidableEq, Repr

namespace RGBA

/-- The colour of a packed `0xRRGGBBAA`. -/
def ofPacked (color : UInt32) : RGBA :=
  ⟨(color >>> 24).toUInt8, (color >>> 16).toUInt8, (color >>> 8).toUInt8, color.toUInt8⟩

/-- `raw()`, as a truth value: false for the all-zero colour alone. -/
def isSet (c : RGBA) : Bool := !(c.R == 0 && c.G == 0 && c.B == 0 && c.A == 0)

/-- The default colour, `RGBA()`. -/
def zero : RGBA := ⟨0, 0, 0, 0⟩

def white : RGBA := ofPacked 0xFFFFFFFF

def black : RGBA := ofPacked 0x000000FF

/-- `lerp`. -/
def lerp (x y : RGBA) (w : UInt8) : RGBA :=
  ⟨fixedLerp8 x.R y.R w, fixedLerp8 x.G y.G w, fixedLerp8 x.B y.B w, fixedLerp8 x.A y.A w⟩

/-- `Blend::None::impl`. -/
def blendNone (src _dst : UInt8) : UInt8 := src

/-- `Blend::LinearDodge::impl`. -/
def blendLinearDodge (src dst : UInt8) : UInt8 :=
  UInt8.ofNat (min (src.toNat + dst.toNat) 255)

/-- `Blend::Multiply::impl`. -/
def blendMultiply (src dst : UInt8) : UInt8 := fixedMul8 src dst

/-- `channel_blend`: the result is opaque. -/
def channelBlend (impl : UInt8 → UInt8 → UInt8) (src dst : RGBA) : RGBA :=
  ⟨impl src.R dst.R, impl src.G dst.G, impl src.B dst.B, 0xFF⟩

/-- `weighted_alpha_blend`. -/
def weightedAlphaBlend (src dst : RGBA) (weight : UInt8) : RGBA :=
  if weight = 0xFF then src
  else if weight = 0x00 then dst
  else lerp dst src weight

/-- `composite_blend`. -/
def compositeBlend (impl : UInt8 → UInt8 → UInt8) (src dst : RGBA) (weight : UInt8) : RGBA :=
  let alpha := fixedMul8 src.A weight
  if alpha ≠ 0 then weightedAlphaBlend (channelBlend impl src dst) dst alpha else dst

/-- `premul`. -/
def premul (src : RGBA) (weight : UInt8) : RGBA :=
  ⟨fixedMul8 src.R weight, fixedMul8 src.G weight, fixedMul8 src.B weight, weight⟩

end RGBA

end CubeChip
