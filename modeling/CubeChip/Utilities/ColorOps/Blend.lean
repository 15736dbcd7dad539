import CubeChip.Lib.Nearest
import CubeChip.Utilities.ColorOps

/-!
# Blending colours

The blend modes of `utilities/ColorOps.hpp` and the composite blend around them. The fixed-point
product rounds `x * y / 255` to the nearest integer, so a weighted blend is a `Nearest.mix`: no
channel leaves the interval between the colour below and what the mode makes of it. The source
sorts its modes into lightening and darkening ones; those of the first kind never darken a channel
of the colour below and those of the second never lighten one, whatever the opacity.
-/

namespace CubeChip

open Nearest (nearest mix)

namespace RGBA

/-! ## The modes -/

/-- `Blend::x8`. -/
def x8 (x : UInt8) : UInt8 := ~~~x

/-- `Blend::Lighten::impl`. -/
def blendLighten (src dst : UInt8) : UInt8 := max src dst

/-- `Blend::Screen::impl`. -/
def blendScreen (src dst : UInt8) : UInt8 := x8 (fixedMul8 (x8 src) (x8 dst))

/-- `Blend::ColorDodge::impl`. -/
def blendColorDodge (src dst : UInt8) : UInt8 :=
  if src = 255 then 255 else UInt8.ofNat (min (dst.toNat * 255 / (x8 src).toNat) 255)

/-- `Blend::Darken::impl`. -/
def blendDarken (src dst : UInt8) : UInt8 := min src dst

/-- `Blend::ColorBurn::impl`, whose division rounds towards zero. -/
def blendColorBurn (src dst : UInt8) : UInt8 :=
  if src = 0 then 0
  else UInt8.ofNat (max (((src.toNat + dst.toNat - 255 : Int) * 255).tdiv src.toNat) 0).toNat

/-- `Blend::LinearBurn::impl`. -/
def blendLinearBurn (src dst : UInt8) : UInt8 :=
  UInt8.ofNat (max (src.toNat + dst.toNat - 255 : Int) 0).toNat

/-- The lightening modes. -/
def lightening : List (UInt8 → UInt8 → UInt8) :=
  [blendLighten, blendScreen, blendColorDodge, blendLinearDodge]

/-- The darkening modes. -/
def darkening : List (UInt8 → UInt8 → UInt8) :=
  [blendDarken, blendMultiply, blendColorBurn, blendLinearBurn]

end RGBA

/-! ## Fixed point -/

/-- A byte is at most 255. -/
theorem toNat_le_255 (x : UInt8) : x.toNat ≤ 255 := Nat.le_of_lt_succ x.toNat_lt

/-- `257 / 65536` is close enough to `1 / 255` for the product of two bytes. -/
theorem nearest_255_eq {n : Nat} (h : n ≤ 255 * 255) :
    (257 * n + 0x8080) / 2 ^ 16 = nearest 255 n := by
  unfold Nearest.nearest
  omega

/-- A byte above itself is 257 times the byte. -/
theorem toNat_byte_twice (y : UInt8) :
    (y.toUInt32 ||| (y.toUInt32 <<< 8)).toNat = 257 * y.toNat := by
  have hy := y.toNat_lt
  have hshift : (y.toUInt32 <<< 8).toNat = y.toNat <<< 8 := by
    rw [UInt32.toNat_shiftLeft, UInt8.toNat_toUInt32]
    change y.toNat <<< 8 % 2 ^ 32 = y.toNat <<< 8
    rw [Nat.shiftLeft_eq]
    omega
  rw [UInt32.toNat_or, hshift, UInt8.toNat_toUInt32, Nat.or_comm,
    ← Nat.shiftLeft_add_eq_or_of_lt hy, Nat.shiftLeft_eq]
  omega

/-- **`fixed_mul8`** rounds to the nearest. -/
theorem toNat_fixedMul8 (x y : UInt8) :
    (fixedMul8 x y).toNat = nearest 255 (x.toNat * y.toNat) := by
  have hxy : x.toNat * y.toNat ≤ 255 * 255 := Nat.mul_le_mul (toNat_le_255 x) (toNat_le_255 y)
  have hword : (x.toUInt32 * (y.toUInt32 ||| (y.toUInt32 <<< 8)) + 0x8080).toNat =
      257 * (x.toNat * y.toNat) + 0x8080 := by
    rw [UInt32.toNat_add, UInt32.toNat_mul, toNat_byte_twice, UInt8.toNat_toUInt32,
      Nat.mul_left_comm]
    change (257 * (x.toNat * y.toNat) % 2 ^ 32 + 0x8080) % 2 ^ 32 = _
    omega
  have hle : nearest 255 (x.toNat * y.toNat) ≤ 255 :=
    (Nearest.nearest_mono 255 hxy).trans_eq (Nearest.nearest_mul (by decide) 255)
  rw [fixedMul8, UInt32.toNat_toUInt8, UInt32.toNat_shiftRight, hword]
  change (_ >>> 16) % 2 ^ 8 = _
  rw [Nat.shiftRight_eq_div_pow, nearest_255_eq hxy, Nat.mod_eq_of_lt (by omega)]

/-- **`fixed_lerp8`** is a weighted mean: its sum does not overflow. -/
theorem toNat_fixedLerp8 (x y w : UInt8) :
    (fixedLerp8 x y w).toNat = mix 255 x.toNat y.toNat w.toNat := by
  have hw := toNat_le_255 w
  have hrest : (255 - w).toNat = 255 - w.toNat := UInt8.toNat_sub_of_le 255 w hw
  have hsum : mix 255 x.toNat y.toNat w.toNat ≤ 255 :=
    (Nearest.mix_le_max (by decide) hw _ _).trans (Nat.max_le.2 ⟨toNat_le_255 x, toNat_le_255 y⟩)
  rw [fixedLerp8, UInt8.toNat_add, toNat_fixedMul8, toNat_fixedMul8, hrest]
  exact Nat.mod_eq_of_lt (by unfold Nearest.mix at hsum; omega)

/-- A channel blended in with a weight stays between the two. -/
theorem le_fixedLerp8 {x y z : UInt8} (hx : z ≤ x) (hy : z ≤ y) (w : UInt8) :
    z ≤ fixedLerp8 x y w := by
  rw [UInt8.le_iff_toNat_le, toNat_fixedLerp8,
    ← Nearest.mix_self (by decide) (toNat_le_255 w) z.toNat]
  exact Nearest.mix_mono 255 _ hx hy

/-- A mix stays below what both ends are below. -/
theorem fixedLerp8_le {x y z : UInt8} (hx : x ≤ z) (hy : y ≤ z) (w : UInt8) :
    fixedLerp8 x y w ≤ z := by
  rw [UInt8.le_iff_toNat_le, toNat_fixedLerp8,
    ← Nearest.mix_self (by decide) (toNat_le_255 w) z.toNat]
  exact Nearest.mix_mono 255 _ hx hy

/-- A mix keeps the order of its ends. -/
theorem fixedLerp8_mono {x x' y y' : UInt8} (hx : x ≤ x') (hy : y ≤ y') (w : UInt8) :
    fixedLerp8 x y w ≤ fixedLerp8 x' y' w := by
  rw [UInt8.le_iff_toNat_le, toNat_fixedLerp8, toNat_fixedLerp8]
  exact Nearest.mix_mono 255 _ hx hy

/-- A product is at most either factor. -/
theorem fixedMul8_le_left (x y : UInt8) : fixedMul8 x y ≤ x := by
  rw [UInt8.le_iff_toNat_le, toNat_fixedMul8]
  exact Nearest.nearest_mul_le (by decide) (toNat_le_255 y)

/-- A product of bytes, the other way round. -/
theorem fixedMul8_comm (x y : UInt8) : fixedMul8 x y = fixedMul8 y x := by
  rw [← UInt8.toNat_inj, toNat_fixedMul8, toNat_fixedMul8, Nat.mul_comm]

/-- A product is not above its factors. -/
theorem fixedMul8_le_right (x y : UInt8) : fixedMul8 x y ≤ y := by
  rw [fixedMul8_comm]
  exact fixedMul8_le_left y x

/-- Times 0. -/
theorem fixedMul8_zero (x : UInt8) : fixedMul8 x 0 = 0 := by
  rw [← UInt8.toNat_inj, toNat_fixedMul8, UInt8.toNat_zero, Nat.mul_zero]
  exact Nearest.nearest_zero (by decide)

namespace RGBA

/-! ## Lightening and darkening -/

/-- The complement of a byte. -/
theorem toNat_x8 (x : UInt8) : (x8 x).toNat = 255 - x.toNat := UInt8.toNat_not x

/-- A mode that never darkens the channel below. -/
def Lightens (impl : UInt8 → UInt8 → UInt8) : Prop := ∀ src dst, dst ≤ impl src dst

/-- A mode that never lightens it. -/
def Darkens (impl : UInt8 → UInt8 → UInt8) : Prop := ∀ src dst, impl src dst ≤ dst

/-- A number that fits a byte. -/
theorem toNat_ofNat_of_le {n : Nat} (h : n ≤ 255) : (UInt8.ofNat n).toNat = n :=
  UInt8.toNat_ofNat_of_lt' (Nat.lt_succ_of_le h)

/-- The lighter of two. -/
theorem lightens_lighten : Lightens blendLighten := fun src dst => by
  unfold blendLighten
  change dst ≤ if src ≤ dst then dst else src
  split
  · exact UInt8.le_refl _
  · rename_i h
    exact (UInt8.le_total src dst).resolve_left h

/-- The complement of a product of complements. -/
theorem lightens_screen : Lightens blendScreen := fun src dst => by
  have hle := fixedMul8_le_right (x8 src) (x8 dst)
  rw [UInt8.le_iff_toNat_le, toNat_x8] at hle
  rw [UInt8.le_iff_toNat_le, blendScreen, toNat_x8]
  have := toNat_le_255 dst
  omega

/-- A quotient, or full. -/
theorem lightens_colorDodge : Lightens blendColorDodge := fun src dst => by
  unfold blendColorDodge
  split
  · rw [UInt8.le_iff_toNat_le]
    exact toNat_le_255 dst
  · rename_i h
    have hsrc : 0 < (x8 src).toNat := by
      have hne : src.toNat ≠ 255 := fun heq => h (UInt8.toNat_inj.1 heq)
      have := toNat_le_255 src
      rw [toNat_x8]
      omega
    have hdiv : dst.toNat ≤ dst.toNat * 255 / (x8 src).toNat :=
      (Nat.le_div_iff_mul_le hsrc).2 (Nat.mul_le_mul_left _ (toNat_le_255 _))
    rw [UInt8.le_iff_toNat_le, toNat_ofNat_of_le (Nat.min_le_right ..)]
    exact Nat.le_min.2 ⟨hdiv, toNat_le_255 dst⟩

/-- A sum, cut off at full. -/
theorem lightens_linearDodge : Lightens blendLinearDodge := fun src dst => by
  rw [UInt8.le_iff_toNat_le, blendLinearDodge, toNat_ofNat_of_le (Nat.min_le_right ..)]
  exact Nat.le_min.2 ⟨Nat.le_add_left .., toNat_le_255 dst⟩

/-- The darker of two. -/
theorem darkens_darken : Darkens blendDarken := fun src dst => by
  unfold blendDarken
  change (if src ≤ dst then src else dst) ≤ dst
  split
  · assumption
  · exact UInt8.le_refl _

/-- A product. -/
theorem darkens_multiply : Darkens blendMultiply := fixedMul8_le_right

/-- The complement of a quotient, or 0. -/
theorem darkens_colorBurn : Darkens blendColorBurn := fun src dst => by
  unfold blendColorBurn
  split
  · exact UInt8.zero_le ..
  · rename_i h
    have hsrc : 0 < src.toNat := Nat.pos_of_ne_zero fun heq => h (UInt8.toNat_inj.1 heq)
    have hs := toNat_le_255 src
    have hd := toNat_le_255 dst
    have hburn : (max (((src.toNat + dst.toNat - 255 : Int) * 255).tdiv src.toNat) 0).toNat ≤
        dst.toNat := by
      generalize src.toNat = x at hsrc hs ⊢
      generalize dst.toNat = y at hd ⊢
      by_cases hdark : x + y ≤ 255
      · -- the numerator is not positive
        have hnum : ((x : Int) + y - 255) * 255 = -((255 - (x + y)) * 255 : Nat) := by omega
        have hquot := Int.natCast_nonneg ((255 - (x + y)) * 255 / x)
        rw [hnum, Int.neg_tdiv, ← Int.ofNat_tdiv]
        omega
      · obtain ⟨k, hk⟩ := Nat.exists_eq_add_of_lt (Nat.lt_of_not_le hdark)
        have hnum : ((x : Int) + y - 255) * 255 = ((k + 1) * 255 : Nat) := by omega
        have hle : (k + 1) * 255 ≤ x * y := by
          have hmul : (255 - x) * y ≤ (255 - x) * 255 := Nat.mul_le_mul_left _ hd
          rw [Nat.sub_mul] at hmul
          omega
        rw [hnum, ← Int.ofNat_tdiv]
        have := Nat.div_le_of_le_mul hle
        omega
    rw [UInt8.le_iff_toNat_le, toNat_ofNat_of_le (hburn.trans hd)]
    exact hburn

/-- A sum less full, cut off at 0. -/
theorem darkens_linearBurn : Darkens blendLinearBurn := fun src dst => by
  have hs := toNat_le_255 src
  have hd := toNat_le_255 dst
  rw [UInt8.le_iff_toNat_le, blendLinearBurn, toNat_ofNat_of_le (by omega)]
  omega

/-- **The modes are what the source sorts them as.** -/
theorem lightens_of_mem {impl : UInt8 → UInt8 → UInt8} (h : impl ∈ lightening) :
    Lightens impl := by
  simp only [lightening, List.mem_cons, List.not_mem_nil, or_false] at h
  rcases h with rfl | rfl | rfl | rfl
  · exact lightens_lighten
  · exact lightens_screen
  · exact lightens_colorDodge
  · exact lightens_linearDodge

/-- The same of the darkening ones. -/
theorem darkens_of_mem {impl : UInt8 → UInt8 → UInt8} (h : impl ∈ darkening) :
    Darkens impl := by
  simp only [darkening, List.mem_cons, List.not_mem_nil, or_false] at h
  rcases h with rfl | rfl | rfl | rfl
  · exact darkens_darken
  · exact darkens_multiply
  · exact darkens_colorBurn
  · exact darkens_linearBurn

/-! ## Composite blends -/

variable {impl : UInt8 → UInt8 → UInt8} {src dst : RGBA}

/-- `alpha_blend`. -/
def alphaBlend (src dst : RGBA) : RGBA := weightedAlphaBlend src dst src.A

/-- A blend with a weight, by channels: the three cases of `weighted_alpha_blend` are one, as the
ends of a mean are exact. -/
theorem weightedAlphaBlend_eq (src dst : RGBA) (weight : UInt8) :
    weightedAlphaBlend src dst weight = lerp dst src weight := by
  have hfull (x y : UInt8) : fixedLerp8 x y 255 = y := by
    rw [← UInt8.toNat_inj, toNat_fixedLerp8]
    exact Nearest.mix_full (by decide) _ _
  have hzero (x y : UInt8) : fixedLerp8 x y 0 = x := by
    rw [← UInt8.toNat_inj, toNat_fixedLerp8]
    exact Nearest.mix_zero (by decide) _ _
  unfold weightedAlphaBlend lerp
  split
  · rename_i h
    rw [h, hfull, hfull, hfull, hfull]
  · split
    · rename_i h
      rw [h, hzero, hzero, hzero, hzero]
    · rfl

/-- So is a composite blend without a weight. -/
theorem compositeBlend_eq (impl : UInt8 → UInt8 → UInt8) (src dst : RGBA) (weight : UInt8) :
    compositeBlend impl src dst weight =
      lerp dst (channelBlend impl src dst) (fixedMul8 src.A weight) := by
  unfold compositeBlend
  dsimp only
  split
  · exact weightedAlphaBlend_eq ..
  · rename_i h
    rw [Classical.not_not.1 h, ← weightedAlphaBlend_eq]
    rfl

/-- The channels that a mode blends. -/
def colorChannels : List (RGBA → UInt8) := [RGBA.R, RGBA.G, RGBA.B]

/-- What a composite blend makes of the colour below it: channels between those and what the mode
makes of them, and no less opacity. -/
structure Composited (impl : UInt8 → UInt8 → UInt8) (src dst : RGBA) (weight : UInt8)
    (c : RGBA) : Prop where
  between : ∀ channel ∈ colorChannels, ∀ z,
    (z ≤ channel dst → z ≤ impl (channel src) (channel dst) → z ≤ channel c) ∧
    (channel dst ≤ z → impl (channel src) (channel dst) ≤ z → channel c ≤ z)
  lightened : impl ∈ lightening → ∀ channel ∈ colorChannels, channel dst ≤ channel c
  darkened : impl ∈ darkening → ∀ channel ∈ colorChannels, channel c ≤ channel dst
  alpha : dst.A ≤ c.A
  transparent : src.A = 0 ∨ weight = 0 → c = dst
  covered : src.A = 255 → weight = 255 → c = channelBlend impl src dst

/-- A channel of a composite blend is a mean of the channel below and what the mode makes of it. -/
theorem channel_compositeBlend {channel : RGBA → UInt8} (h : channel ∈ colorChannels)
    (impl : UInt8 → UInt8 → UInt8) (src dst : RGBA) (weight : UInt8) :
    channel (compositeBlend impl src dst weight) =
      fixedLerp8 (channel dst) (impl (channel src) (channel dst)) (fixedMul8 src.A weight) := by
  rw [compositeBlend_eq]
  simp only [colorChannels, List.mem_cons, List.not_mem_nil, or_false] at h
  rcases h with rfl | rfl | rfl <;> rfl

/-- A lightening mode darkens no channel. -/
theorem le_compositeBlend (himpl : impl ∈ lightening) {channel : RGBA → UInt8}
    (hchannel : channel ∈ colorChannels) (src dst : RGBA) (weight : UInt8) :
    channel dst ≤ channel (compositeBlend impl src dst weight) := by
  rw [channel_compositeBlend hchannel]
  exact le_fixedLerp8 (UInt8.le_refl _) (lightens_of_mem himpl _ _) _

/-- A darkening mode lightens none. -/
theorem compositeBlend_le (himpl : impl ∈ darkening) {channel : RGBA → UInt8}
    (hchannel : channel ∈ colorChannels) (src dst : RGBA) (weight : UInt8) :
    channel (compositeBlend impl src dst weight) ≤ channel dst := by
  rw [channel_compositeBlend hchannel]
  exact fixedLerp8_le (UInt8.le_refl _) (darkens_of_mem himpl _ _) _

/-- What a mode makes of a colour is opaque, so no opacity is lost. -/
theorem A_le_compositeBlend (impl : UInt8 → UInt8 → UInt8) (src dst : RGBA) (weight : UInt8) :
    dst.A ≤ (compositeBlend impl src dst weight).A := by
  rw [compositeBlend_eq]
  refine le_fixedLerp8 (UInt8.le_refl _) ?_ _
  rw [UInt8.le_iff_toNat_le]
  exact toNat_le_255 dst.A

/-- **Composite blends.** -/
theorem composited_compositeBlend (impl : UInt8 → UInt8 → UInt8) (src dst : RGBA)
    (weight : UInt8) : Composited impl src dst weight (compositeBlend impl src dst weight) where
  between := by
    intro channel hchannel z
    rw [channel_compositeBlend hchannel]
    exact ⟨fun hdst hblend => le_fixedLerp8 hdst hblend _,
      fun hdst hblend => fixedLerp8_le hdst hblend _⟩
  lightened := fun himpl _ hchannel => le_compositeBlend himpl hchannel src dst weight
  darkened := fun himpl _ hchannel => compositeBlend_le himpl hchannel src dst weight
  alpha := A_le_compositeBlend impl src dst weight
  transparent := by
    intro h
    have hzero : fixedMul8 src.A weight = 0 := by
      rcases h with h | h
      · rw [h, fixedMul8_comm, fixedMul8_zero]
      · rw [h, fixedMul8_zero]
    rw [compositeBlend, hzero]
    rfl
  covered := by
    intro hA hweight
    rw [compositeBlend, hA, hweight]
    rfl

/-! ## Premultiplied colours -/

/-- A colour whose channels are multiplied with its opacity already. -/
structure Premultiplied (c : RGBA) : Prop where
  R : c.R ≤ c.A
  G : c.G ≤ c.A
  B : c.B ≤ c.A

/-- An opaque colour. -/
theorem premultiplied_of_A {c : RGBA} (h : c.A = 255) : Premultiplied c := by
  have hle (x : UInt8) : x ≤ c.A := by
    rw [h, UInt8.le_iff_toNat_le]
    exact toNat_le_255 x
  exact ⟨hle _, hle _, hle _⟩

/-- The transparent one. -/
theorem premultiplied_zero : Premultiplied zero :=
  ⟨UInt8.le_refl _, UInt8.le_refl _, UInt8.le_refl _⟩

/-- A mix of two. -/
theorem Premultiplied.lerp {x y : RGBA} (hx : Premultiplied x) (hy : Premultiplied y)
    (w : UInt8) : Premultiplied (RGBA.lerp x y w) :=
  ⟨fixedLerp8_mono hx.R hy.R w, fixedLerp8_mono hx.G hy.G w, fixedLerp8_mono hx.B hy.B w⟩

/-- Whatever the mode, what it makes of a colour is opaque. -/
theorem Premultiplied.compositeBlend (h : Premultiplied dst) (impl : UInt8 → UInt8 → UInt8)
    (src : RGBA) (weight : UInt8) :
    Premultiplied (RGBA.compositeBlend impl src dst weight) := by
  rw [compositeBlend_eq]
  exact h.lerp (premultiplied_of_A rfl) _

/-- One over the other. -/
theorem Premultiplied.alphaBlend (hs : Premultiplied src) (hd : Premultiplied dst) :
    Premultiplied (RGBA.alphaBlend src dst) := by
  unfold RGBA.alphaBlend
  rw [weightedAlphaBlend_eq]
  exact hd.lerp hs _

/-- What `premul` is for. -/
theorem premultiplied_premul (src : RGBA) (weight : UInt8) : Premultiplied (src.premul weight) :=
  ⟨fixedMul8_le_right .., fixedMul8_le_right .., fixedMul8_le_right ..⟩

end RGBA

end CubeChip
