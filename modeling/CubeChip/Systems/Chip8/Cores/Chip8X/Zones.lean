import CubeChip.Systems.Chip8.Cores.Chip8X.Background
import CubeChip.Systems.Chip8.Cores.Decoder.Switch

/-!
# `CHIP8X`: colour zones

BxyN colours a zone of the colour map, and the renderer looks the colour of a lit pixel up there.
Both reduce their coordinates by masks of their own: the writers the unreduced registers, by
whole cells of 8x4 pixels or by rows of 8, the renderer a pixel's, by a mask of the mode. In the
mode of the zone the two agree (`LoresZone`, `HiresZone`).
-/

namespace CubeChip.Chip8X

/-! ## The cells a zone colours -/

/-- The cell of the colour map that a zone's coordinates are masked to. -/
def zoneCell (cell : UInt32 × UInt32) : Nat × Nat :=
  ((cell.1 &&& 0x7).toNat, (cell.2 &&& 0x1F).toNat)

theorem zoneCell_eq (cell : UInt32 × UInt32) :
    zoneCell cell = (cell.1.toNat % 8, cell.2.toNat % 32) := by
  refine Prod.ext ?_ ?_
  · show (cell.1 &&& 0x7).toNat = _
    rw [UInt32.toNat_and]
    exact Nat.and_two_pow_sub_one_eq_mod cell.1.toNat 3
  · show (cell.2 &&& 0x1F).toNat = _
    rw [UInt32.toNat_and]
    exact Nat.and_two_pow_sub_one_eq_mod cell.2.toNat 5

/-- The cells of a zone take its colour, the others keep theirs. -/
theorem at2_setColors {m : Map2D RGBA} (hm : m.width = 8) (idx : UInt32)
    (cells : List (UInt32 × UInt32)) {u : Nat} (hu : u < 8) (v : Nat) :
    (cells.foldl (setColor idx) m).at2 u v =
      if (u, v) ∈ cells.map zoneCell then foreColors (Fin.ofNat 8 idx.toNat) else m.at2 u v := by
  induction cells generalizing m with
  | nil => simp
  | cons cell cells ih =>
      have hset : (setColor idx m cell).at2 u v =
          if (u, v) = zoneCell cell then foreColors (Fin.ofNat 8 idx.toNat) else m.at2 u v := by
        have hcell : (zoneCell cell).1 < 8 := by
          rw [zoneCell_eq]
          exact Nat.mod_lt _ (by decide)
        show Function.update m.data (m.offset (zoneCell cell).1 (zoneCell cell).2) _
          (m.offset u v) = _
        by_cases heq : (u, v) = zoneCell cell
        · rw [← heq, if_pos rfl, Function.update_self]
        · have hne : m.offset u v ≠ m.offset (zoneCell cell).1 (zoneCell cell).2 := by
            intro hoffset
            obtain ⟨h₁, h₂⟩ := Map2D.offset_inj (hm.symm ▸ hu) (hm.symm ▸ hcell) hoffset
            exact heq (Prod.ext h₁ h₂)
          rw [if_neg heq, Function.update_of_ne hne]
          rfl
      rw [List.foldl_cons, ih (m := setColor idx m cell) hm, hset]
      simp only [List.map_cons, List.mem_cons]
      by_cases hrest : (u, v) ∈ cells.map zoneCell
      · rw [if_pos hrest, if_pos (.inr hrest)]
      · simp [hrest]

/-- `N = 0`: whole cells of eight by four pixels, both coordinates modulo eight cells. -/
structure LoresZone (a b : UInt8) (x y : Nat) : Prop where
  column : ∃ p ≤ a.toNat / 16, x / 8 % 8 = (a.toNat + p) % 8
  row : ∃ q ≤ b.toNat / 16, y / 4 % 8 = (b.toNat + q) % 8

/-- `N > 0`: rows of eight pixels, in one column. -/
structure HiresZone (a b : UInt8) (N : Fin 16) (x y : Nat) : Prop where
  column : x / 8 = a.toNat / 8 % 8
  row : ∃ r < N.val, y % 32 = (b.toNat + r) % 32

/-- A register byte plus a small count does not wrap. -/
theorem toNat_add_ofNat (a : UInt8) {p : Nat} (hp : p < 256) :
    (a.toUInt32 + UInt32.ofNat p).toNat = a.toNat + p := by
  have ha := a.toNat_lt
  rw [UInt32.toNat_add, UInt8.toNat_toUInt32, UInt32.toNat_ofNat']
  omega

/-- The zone of `color_lores_zone`, on the map. -/
theorem mem_loresZone {a b : UInt8} {u v : Nat} :
    (u, 4 * v) ∈ (loresZone a.toUInt32 b.toUInt32).map zoneCell ↔
      (∃ p ≤ a.toNat / 16, u = (a.toNat + p) % 8) ∧ ∃ q ≤ b.toNat / 16, v = (b.toNat + q) % 8 := by
  have ha := a.toNat_lt
  have hb := b.toNat_lt
  have hshift : ∀ c : UInt8, (c.toUInt32 >>> 4).toNat + 1 = c.toNat / 16 + 1 := by
    intro c
    rw [UInt32.toNat_shiftRight, UInt8.toNat_toUInt32]
    exact congrArg (· + 1) (Nat.shiftRight_eq_div_pow c.toNat 4)
  have hcell : ∀ p q, p < 256 → q < 256 →
      zoneCell (a.toUInt32 + UInt32.ofNat p, (b.toUInt32 + UInt32.ofNat q) <<< 2) =
        ((a.toNat + p) % 8, 4 * ((b.toNat + q) % 8)) := by
    intro p q hp hq
    have hrow : ((b.toUInt32 + UInt32.ofNat q) <<< 2).toNat = (b.toNat + q) * 4 % 2 ^ 32 := by
      rw [UInt32.toNat_shiftLeft, toNat_add_ofNat b hq, Nat.shiftLeft_eq]
      rfl
    rw [zoneCell_eq, toNat_add_ofNat a hp, hrow]
    refine Prod.ext rfl ?_
    show (b.toNat + q) * 4 % 2 ^ 32 % 32 = _
    omega
  simp only [loresZone, hshift, List.map_flatMap, List.mem_flatMap, List.mem_map, List.mem_range,
    Nat.lt_succ_iff, List.map_map, Function.comp_apply]
  constructor
  · rintro ⟨q, hq, p, hp, heq⟩
    rw [hcell p q (by omega) (by omega), Prod.mk.injEq] at heq
    exact ⟨⟨p, hp, heq.1.symm⟩, q, hq, by omega⟩
  · rintro ⟨⟨p, hp, rfl⟩, q, hq, rfl⟩
    exact ⟨q, hq, p, hp, hcell p q (by omega) (by omega)⟩

/-- The zone of `color_hires_zone`, on the map. -/
theorem mem_hiresZone {a b : UInt8} {N : Fin 16} {u v : Nat} :
    (u, v) ∈ (hiresZone a.toUInt32 b.toUInt32 N).map zoneCell ↔
      u = a.toNat / 8 % 8 ∧ ∃ r < N.val, v = (b.toNat + r) % 32 := by
  have hcolumn : (a.toUInt32 >>> 3).toNat = a.toNat / 8 := by
    rw [UInt32.toNat_shiftRight, UInt8.toNat_toUInt32]
    exact Nat.shiftRight_eq_div_pow a.toNat 3
  have hcell : ∀ r, r < 256 → zoneCell (a.toUInt32 >>> 3, b.toUInt32 + UInt32.ofNat r) =
      (a.toNat / 8 % 8, (b.toNat + r) % 32) := by
    intro r hr
    rw [zoneCell_eq, toNat_add_ofNat b hr, hcolumn]
  simp only [hiresZone, List.map_map, List.mem_map, List.mem_range, Function.comp_apply]
  constructor
  · rintro ⟨r, hr, heq⟩
    rw [hcell r (by omega), Prod.mk.injEq] at heq
    exact ⟨heq.1.symm, r, hr, heq.2.symm⟩
  · rintro ⟨rfl, r, hr, rfl⟩
    exact ⟨r, hr, hcell r (by omega)⟩

/-! ## What the renderer shows -/

/-- The colour of a pixel that is not 0, from that of its cell. -/
def shade (trails : Bool) (pixel : UInt8) (color : RGBA) : RGBA :=
  if trails then color.premul (bitWeight pixel.toNat) else color

theorem fixedMul8_max (x : UInt8) : fixedMul8 x 0xFF = x := by
  have hx := x.toNat_lt
  have hweight : (0xFF : UInt8).toUInt32 ||| ((0xFF : UInt8).toUInt32 <<< 8) = 65535 := rfl
  rw [fixedMul8, hweight]
  refine UInt8.toNat_inj.1 ?_
  rw [UInt32.toNat_toUInt8, UInt32.toNat_shiftRight, UInt32.toNat_add, UInt32.toNat_mul,
    UInt8.toNat_toUInt32]
  have hmax : (65535 : UInt32).toNat = 65535 := rfl
  have hround : (0x8080 : UInt32).toNat = 32896 := rfl
  have hshift : (16 : UInt32).toNat % 32 = 16 := rfl
  have hproduct : x.toNat * 65535 % 2 ^ 32 = x.toNat * 65535 := Nat.mod_eq_of_lt (by omega)
  have hsum : (x.toNat * 65535 + 32896) % 2 ^ 32 = x.toNat * 65535 + 32896 :=
    Nat.mod_eq_of_lt (by omega)
  rw [hmax, hround, hshift, hproduct, hsum, Nat.shiftRight_eq_div_pow]
  have hrounded : (x.toNat * 65535 + 32896) / 2 ^ 16 = x.toNat :=
    Nat.div_eq_of_lt_le (by omega) (by omega)
  rw [hrounded, Nat.mod_eq_of_lt hx]

/-- The colours of the zones are opaque, and a pixel that is on has the full weight. -/
theorem shade_foreColors {trails : Bool} {pixel : UInt8}
    (h : trails = true → 8 ≤ pixel.toNat ∧ pixel.toNat < 16) (idx : Fin 8) :
    shade trails pixel (foreColors idx) = foreColors idx := by
  cases trails with
  | false => rfl
  | true =>
      obtain ⟨h₁, h₂⟩ := h rfl
      have hweight : ∀ n < 16, 8 ≤ n → bitWeight n = 0xFF := by decide
      have hopaque : ∀ idx, (foreColors idx).A = 0xFF := by decide
      rw [shade, if_pos rfl, hweight _ h₂ h₁, RGBA.premul, fixedMul8_max, fixedMul8_max,
        fixedMul8_max, ← hopaque idx]

/-- The pixel (x, y) shows its own shade of the colour of its cell. -/
theorem videoPixel_eq (s : Chip8X) {x : Nat} (y : Nat) (hx : x < screenW) :
    videoPixel s (y * screenW + x) =
      if s.own.displayMap.at1 (y * screenW + x) = 0 then backColors s.own.backgroundColor
      else shade s.trait.usePixelTrails (s.own.displayMap.at1 (y * screenW + x))
        (s.own.coloredMap.at2 (x / 8) (y &&& s.own.colorPixelMask.toNat)) := by
  have hcol : (y * screenW + x) % screenW = x := Nat.mul_add_mod_of_lt hx
  have hrow : (y * screenW + x) / screenW = y := by
    rw [Nat.mul_comm, Nat.mul_add_div (by decide), Nat.div_eq_of_lt hx, Nat.add_zero]
  simp only [videoPixel, shade, hcol, hrow, Nat.shiftRight_eq_div_pow]

/-- The rows of a cell, in the mode of whole cells. -/
theorem and_mask_lores {y : Nat} (hy : y < 32) : y &&& (0xFC : UInt32).toNat = 4 * (y / 4) := by
  revert y
  decide

/-- Every row is its own, in the other mode. -/
theorem and_mask_hires {y : Nat} (hy : y < 32) : y &&& (0xFF : UInt32).toNat = y := by
  revert y
  decide

/-- A zone coloured in the mode that is set: the pixels whose cell it holds show their shade of its
colour, all others what they showed. -/
theorem videoPixel_colorZone {s : Chip8X} (hs : Sized s.body) {cells : List (UInt32 × UInt32)}
    {idx mask : UInt32} (hmask : s.own.colorPixelMask = mask) {x : Nat} (y : Nat)
    (hx : x < screenW) :
    videoPixel (colorZone cells idx mask s) (y * screenW + x) =
      if s.own.displayMap.at1 (y * screenW + x) ≠ 0 ∧
        (x / 8, y &&& mask.toNat) ∈ cells.map zoneCell
      then shade s.trait.usePixelTrails (s.own.displayMap.at1 (y * screenW + x))
        (foreColors (Fin.ofNat 8 idx.toNat))
      else videoPixel s (y * screenW + x) := by
  have hcol : x / 8 < 8 := Nat.div_lt_of_lt_mul hx
  have hcolor :=
    at2_setColors (m := s.own.coloredMap) hs.coloredMap.1 idx cells hcol (y &&& mask.toNat)
  have hnew := videoPixel_eq (colorZone cells idx mask s) y hx
  change _ = if s.own.displayMap.at1 (y * screenW + x) = 0 then backColors s.own.backgroundColor
      else shade s.trait.usePixelTrails (s.own.displayMap.at1 (y * screenW + x))
        ((cells.foldl (setColor idx) s.own.coloredMap).at2 (x / 8) (y &&& mask.toNat)) at hnew
  rw [hnew, hcolor, videoPixel_eq s y hx, hmask]
  by_cases hpixel : s.own.displayMap.at1 (y * screenW + x) = 0
  · simp only [hpixel, if_true, ne_eq, not_true_eq_false, false_and, if_false]
  · by_cases hcell : (x / 8, y &&& mask.toNat) ∈ cells.map zoneCell
    · simp only [hpixel, hcell, if_true, if_false, ne_eq, not_false_eq_true, and_self]
    · simp only [hpixel, hcell, if_false, and_false]

/-! ## Zones -/

/-- A pixel that is on: not merely a trail of one that was. -/
def Lit (s : Chip8X) (x y : Nat) : Prop :=
  s.own.displayMap.at1 (y * screenW + x) ≠ 0 ∧
    (s.trait.usePixelTrails = true → 8 ≤ (s.own.displayMap.at1 (y * screenW + x)).toNat ∧
      (s.own.displayMap.at1 (y * screenW + x)).toNat < 16)

/-- The cell of the colour map that the renderer looks the pixel `idx` up in. -/
def pixelCell (s : Chip8X) (idx : Nat) : Nat × Nat :=
  ((idx % screenW) >>> 3, (idx / screenW) &&& s.own.colorPixelMask.toNat)

/-- What BxyN shows of the zone: the colour on lit pixels, its shade on trails, and what was there
before elsewhere. -/
structure Paints (s s' : Chip8X) (zone : Nat → Nat → Prop) (color : RGBA) : Prop where
  lit : ∀ x < screenW, ∀ y < screenH, Lit s x y → zone x y →
    videoPixel s' (y * screenW + x) = color
  trail : ∀ x < screenW, ∀ y < screenH, s.own.displayMap.at1 (y * screenW + x) ≠ 0 → zone x y →
    videoPixel s' (y * screenW + x) =
      shade s.trait.usePixelTrails (s.own.displayMap.at1 (y * screenW + x)) color
  others : ∀ x < screenW, ∀ y < screenH,
    s.own.displayMap.at1 (y * screenW + x) = 0 ∨ ¬ zone x y →
    videoPixel s' (y * screenW + x) = videoPixel s (y * screenW + x)

/-- In the mode that is set, the pixels of a zone are those whose cells it colours. -/
theorem paints_colorZone {s : Chip8X} (hs : Sized s.body) {cells : List (UInt32 × UInt32)}
    (idx : UInt32) {mask : UInt32} (hmask : s.own.colorPixelMask = mask) {zone : Nat → Nat → Prop}
    (hzone : ∀ x < screenW, ∀ y < screenH,
      (x / 8, y &&& mask.toNat) ∈ cells.map zoneCell ↔ zone x y) :
    Paints s (colorZone cells idx mask s) zone (foreColors (Fin.ofNat 8 idx.toNat)) := by
  have hpaint : ∀ x < screenW, ∀ y < screenH, s.own.displayMap.at1 (y * screenW + x) ≠ 0 →
      zone x y → videoPixel (colorZone cells idx mask s) (y * screenW + x) =
        shade s.trait.usePixelTrails (s.own.displayMap.at1 (y * screenW + x))
          (foreColors (Fin.ofNat 8 idx.toNat)) := by
    intro x hx y hy hpixel hin
    rw [videoPixel_colorZone hs hmask y hx, if_pos ⟨hpixel, (hzone x hx y hy).2 hin⟩]
  refine ⟨?_, hpaint, ?_⟩
  · intro x hx y hy hlit hin
    rw [hpaint x hx y hy hlit.1 hin, shade_foreColors hlit.2]
  · intro x hx y hy hother
    rw [videoPixel_colorZone hs hmask y hx, if_neg]
    rintro ⟨hpixel, hin⟩
    exact hother.elim hpixel fun hnot => hnot ((hzone x hx y hy).1 hin)

theorem loresZone_iff {a b : UInt8} {x y : Nat} (hx : x < screenW) (hy : y < screenH) :
    (x / 8, y &&& (0xFC : UInt32).toNat) ∈ (loresZone a.toUInt32 b.toUInt32).map zoneCell ↔
      LoresZone a b x y := by
  have hcol : x / 8 % 8 = x / 8 := Nat.mod_eq_of_lt (Nat.div_lt_of_lt_mul hx)
  have hrow : y / 4 % 8 = y / 4 := Nat.mod_eq_of_lt (Nat.div_lt_of_lt_mul hy)
  rw [and_mask_lores hy, mem_loresZone]
  constructor
  · rintro ⟨hcolumn, hrows⟩
    exact ⟨by rwa [hcol], by rwa [hrow]⟩
  · rintro ⟨hcolumn, hrows⟩
    rw [hcol] at hcolumn
    rw [hrow] at hrows
    exact ⟨hcolumn, hrows⟩

theorem hiresZone_iff {a b : UInt8} {N : Fin 16} {x y : Nat} (hy : y < screenH) :
    (x / 8, y &&& (0xFF : UInt32).toNat) ∈ (hiresZone a.toUInt32 b.toUInt32 N).map zoneCell ↔
      HiresZone a b N x y := by
  have hrow : y % 32 = y := Nat.mod_eq_of_lt hy
  rw [and_mask_hires hy, mem_hiresZone]
  constructor
  · rintro ⟨hcolumn, hrows⟩
    exact ⟨hcolumn, by rwa [hrow]⟩
  · rintro ⟨hcolumn, hrows⟩
    rw [hrow] at hrows
    exact ⟨hcolumn, hrows⟩

/-- BxyN is not decoded where there is no register behind VX. -/
theorem ne_of_decode {op : Opcode} {X Y N : Fin 16} (h : decode op = .iBxyN X Y N) : X ≠ 15 := by
  unfold decode at h
  split at h
  · unfold decode0 at h
    split at h
    · split at h <;> cases h
    · split at h <;> cases h
    · cases h
  · unfold decode5 at h
    split at h <;> cases h
  · next hbranch =>
      split at h
      · cases h
      · next hHI =>
          cases h
          intro hX
          refine hHI (UInt8.toNat_inj.1 ?_)
          have hbranch' : op.branch.val = 11 := hbranch
          have hX' : op.X.val = 15 := congrArg Fin.val hX
          rw [op.HI_toNat, hbranch', hX']
          rfl
  · cases h
  · unfold decodeE at h
    split at h <;> cases h
  · unfold decodeF at h
    split at h <;> cases h
  · cases h

/-- **Colour zones.** BxyN in the mode that is set paints the pixels of its zone and no others,
and every access to the colour map is inside it. -/
theorem colorZones_paint {s : Chip8X} (hs : Sized s.body) (X Y N : Fin 16) :
    (∀ op, decode op = .iBxyN X Y N → X ≠ 15) ∧
    (N = 0 → s.own.colorPixelMask = 0xFC →
      Paints s (instructionBxyN X Y N s) (LoresZone (s.registersV X) (s.registersV (X + 1)))
        (foreColors (Fin.ofNat 8 (s.registersV Y &&& 7).toNat))) ∧
    (N ≠ 0 → s.own.colorPixelMask = 0xFF →
      Paints s (instructionBxyN X Y N s) (HiresZone (s.registersV X) (s.registersV (X + 1)) N)
        (foreColors (Fin.ofNat 8 (s.registersV Y &&& 7).toNat))) ∧
    (∀ cell, (zoneCell cell).1 < s.own.coloredMap.sizeX ∧
      (zoneCell cell).2 < s.own.coloredMap.sizeY) ∧
    ∀ idx < screenW * screenH, (pixelCell s idx).1 < s.own.coloredMap.sizeX ∧
      (pixelCell s idx).2 < s.own.coloredMap.sizeY := by
  have hX : s.own.coloredMap.sizeX = 8 := hs.coloredMap.1
  have hY : s.own.coloredMap.sizeY = 32 := hs.coloredMap.2
  have hbyte : ∀ c : UInt8, c.toUInt32.toNat = c.toNat := fun c => UInt8.toNat_toUInt32 c
  refine ⟨fun op => ne_of_decode, ?_, ?_, ?_, ?_⟩
  · rintro rfl hmask
    have hpaint := paints_colorZone hs (s.registersV Y &&& 0x7).toUInt32 hmask
      fun x hx y hy => loresZone_iff (a := s.registersV X) (b := s.registersV (X + 1)) hx hy
    rw [hbyte] at hpaint
    exact hpaint
  · intro hN hmask
    have hpaint := paints_colorZone hs (s.registersV Y &&& 0x7).toUInt32 hmask
      fun x hx y hy => hiresZone_iff (a := s.registersV X) (b := s.registersV (X + 1)) (N := N) hy
    rw [hbyte] at hpaint
    rw [instructionBxyN, if_pos hN]
    exact hpaint
  · intro cell
    rw [zoneCell_eq, hX, hY]
    exact ⟨Nat.mod_lt _ (by decide), Nat.mod_lt _ (by decide)⟩
  · intro idx hidx
    have hcol : idx % screenW < screenW := Nat.mod_lt _ (by decide)
    have hrow : idx / screenW < screenH := Nat.div_lt_of_lt_mul hidx
    rw [hX, hY, pixelCell, Nat.shiftRight_eq_div_pow]
    exact ⟨Nat.div_lt_of_lt_mul hcol, Nat.lt_of_le_of_lt Nat.and_le_left hrow⟩

/-- The digit 0 of the font is shown, and V0, V1 and V2 name a zone that wraps in both directions
and a colour. -/
def lores : Chip8X :=
  (instructionDxyN (boot (.ofProgram [])) 0 0 5).onCpu fun c =>
    ((c.setV 0 0x1F).setV 1 0x18).setV 2 5

/-- A zone of rows was coloured, and the registers name one that goes on from the last row to the
first. -/
def hires : Chip8X :=
  (instructionBxyN 0 2 3 lores).onCpu fun c => ((c.setV 0 0x40).setV 1 0x1F).setV 2 3

/-- One zone in each mode, over lit pixels of another colour. -/
theorem colorZones_paint_wrapped :
    (Paints lores (instructionBxyN 0 2 0 lores) (LoresZone 0x1F 0x18) (foreColors 5) ∧
      videoPixel lores 1 = foreColors 2 ∧
      videoPixel (instructionBxyN 0 2 0 lores) 1 = foreColors 5) ∧
    Paints hires (instructionBxyN 0 2 3 hires) (HiresZone 0x40 0x1F 3) (foreColors 3) ∧
      videoPixel hires 1 = foreColors 2 ∧
      videoPixel (instructionBxyN 0 2 3 hires) 1 = foreColors 3 := by
  have hdrawn : Sized (instructionDxyN (boot (.ofProgram [])) 0 0 5).body :=
    sized_execute (.iDxyN 0 0 5) _ _ (sized_boot (.ofProgram [])) rfl
  have hlores : Sized lores.body := hdrawn
  have hpainted : Sized (instructionBxyN 0 2 3 lores).body :=
    sized_execute (.iBxyN 0 2 3) lores _ hlores rfl
  have hhires : Sized hires.body := hpainted
  exact ⟨⟨(colorZones_paint hlores 0 2 0).2.1 rfl rfl, by decide +kernel⟩,
    (colorZones_paint hhires 0 2 3).2.2.1 (by decide) rfl, by decide +kernel⟩

end CubeChip.Chip8X
