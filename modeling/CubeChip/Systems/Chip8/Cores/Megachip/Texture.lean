import CubeChip.Systems.Chip8.Cores.Megachip.Reset
import CubeChip.Systems.Chip8.Sprite

/-!
# Drawing a texture in mega mode

`draw_texture` goes through the texels of a texture row by row. Rows and columns are counted
modulo 256 when wrapping, though there are only 192 rows: a row that falls under the screen is
passed over, but counted. `texels` lists the texels the loops come by, each with the cell it is
drawn on. No cell comes up twice, so drawing is a sweep over the cells of both buffers at once.
-/

namespace CubeChip

namespace Megachip

/-! ## The texels the loops come by -/

/-- The columns of a texture row and of the screen. -/
def textureCols (wrap : Bool) : Nat → Nat → Nat → List (Nat × Nat)
  | 0, _, _ => []
  | n + 1, col, x =>
      (col, x) ::
        if wrap then textureCols wrap n (col + 1) ((x + 1) &&& (screenW - 1))
        else if x + 1 = screenW then []
        else textureCols wrap n (col + 1) (x + 1)

/-- The rows of a texture and of the screen. -/
def textureRows (wrap : Bool) : Nat → Nat → Nat → List (Nat × Nat)
  | 0, _, _ => []
  | n + 1, row, y =>
      if wrap && screenH ≤ y then textureRows wrap n (row + 1) ((y + 1) &&& (screenW - 1))
      else
        (row, y) ::
          if wrap then textureRows wrap n (row + 1) ((y + 1) &&& (screenW - 1))
          else if y + 1 = screenH then []
          else textureRows wrap n (row + 1) (y + 1)

/-- A texel and the cell of the screen it is drawn on. -/
structure Texel where
  row : Nat
  col : Nat
  x : Nat
  y : Nat

/-- The texels of a texture that `draw_texture` reads, in its order. -/
def texels (wrap : Bool) (w h xBegin yBegin : Nat) : List Texel :=
  (textureRows wrap h 0 yBegin).flatMap fun r =>
    (textureCols wrap w 0 xBegin).map fun c => ⟨r.1, c.1, c.2, r.2⟩

/-- Where the texel in row `r` and column `c` of a texture belongs: rows and columns wrap modulo
256 or are dropped, and so are the rows under the screen. -/
def Lands (wrap : Bool) (xBegin yBegin r c X Y : Nat) : Prop :=
  place wrap screenW (xBegin + c) = some X ∧ place wrap screenW (yBegin + r) = some Y ∧ Y < screenH

theorem textureCols_eq_walk {wrap : Bool} (n col : Nat) {x : Nat} (hx : x < screenW) :
    textureCols wrap n col x = Canvas.walk wrap screenW n col x := by
  induction n generalizing col x with
  | zero => rfl
  | succ n ih =>
      have hmask : (x + 1) &&& (screenW - 1) = (x + 1) % screenW :=
        Nat.and_two_pow_sub_one_eq_mod _ 8
      rw [textureCols, Canvas.walk, hmask]
      refine congrArg (List.cons (col, x)) ?_
      cases wrap with
      | true => exact ih _ (Nat.mod_lt _ (by decide))
      | false =>
          by_cases hedge : x + 1 = screenW
          · have hlast : (x == screenW - 1) = true := beq_iff_eq.2 (by omega)
            rw [if_neg Bool.false_ne_true, if_pos hedge, hlast]
            rfl
          · have hlast : (x == screenW - 1) = false := beq_false_of_ne (by omega)
            have hlt : x + 1 < screenW := by omega
            rw [if_neg Bool.false_ne_true, if_neg hedge, hlast, Nat.mod_eq_of_lt hlt]
            exact ih _ hlt

theorem textureCols_eq {wrap : Bool} (n col : Nat) {x : Nat} (hx : x < screenW) :
    textureCols wrap n col x = (placed wrap screenW n x).map fun l => (col + l.1, l.2) := by
  rw [textureCols_eq_walk n col hx, Canvas.walk_eq (show screenW = 2 ^ 8 from rfl) n col hx]

/-- **The rows.** Those placed above the lower edge. -/
theorem textureRows_eq {wrap : Bool} (n row : Nat) {y : Nat}
    (hy : y < screenW) (hy' : wrap = false → y < screenH) :
    textureRows wrap n row y =
      ((placed wrap screenW n y).filter (·.2 < screenH)).map fun l => (row + l.1, l.2) := by
  induction n generalizing row y with
  | zero => rfl
  | succ n ih =>
      have hmask : (y + 1) &&& (screenW - 1) = (y + 1) % screenW :=
        Nat.and_two_pow_sub_one_eq_mod _ 8
      have hassoc (l : Nat × Nat) : row + 1 + l.1 = row + (1 + l.1) := Nat.add_assoc ..
      -- the rows below this one
      have hwrap : wrap = true → textureRows wrap n (row + 1) ((y + 1) &&& (screenW - 1)) =
          ((placed wrap screenW n (y + 1)).filter (·.2 < screenH)).map
            fun l => (row + (1 + l.1), l.2) := fun hwrap => by
        have hnot : wrap ≠ false := fun h => Bool.false_ne_true (h.symm.trans hwrap)
        rw [hmask, ih _ (Nat.mod_lt _ (by decide)) fun h => absurd h hnot,
          placed_mod (.inl hwrap)]
        simp only [hassoc]
      have hclip : wrap = false →
          (if y + 1 = screenH then [] else textureRows wrap n (row + 1) (y + 1)) =
          ((placed wrap screenW n (y + 1)).filter (·.2 < screenH)).map
            fun l => (row + (1 + l.1), l.2) := fun hwrap => by
        split
        · rename_i hedge
          rw [List.filter_eq_nil_iff.2 fun l hl => ?_]
          · rfl
          · rw [hwrap] at hl
            have hplace := place_false.1 (mem_placed.1 hl).2
            simp only [decide_eq_true_eq]
            omega
        · rename_i hedge
          have hlt : y + 1 < screenH := by
            have := hy' hwrap
            omega
          rw [ih _ (hlt.trans (by decide)) fun _ => hlt]
          simp only [hassoc]
      rw [textureRows, placed_succ, place_of_lt hy, Option.toList_some, List.map_singleton,
        List.filter_append, List.map_append, List.filter_map, List.map_map]
      by_cases hrow : y < screenH
      · have hon : ¬(wrap && decide (screenH ≤ y)) = true := by simp [Nat.not_le.2 hrow]
        rw [if_neg hon, List.filter_cons_of_pos (by simp [hrow])]
        refine congrArg (List.cons (row, y)) ?_
        cases hwrap' : wrap with
        | true =>
            rw [if_pos rfl, ← hwrap']
            exact hwrap hwrap'
        | false =>
            rw [if_neg Bool.false_ne_true, ← hwrap']
            exact hclip hwrap'
      · have hwrap' : wrap = true := by
          cases wrap with
          | true => rfl
          | false => exact absurd (hy' rfl) hrow
        have hunder : (wrap && decide (screenH ≤ y)) = true := by simp [hwrap', Nat.not_lt.1 hrow]
        rw [if_pos hunder, List.filter_cons_of_neg (by simp [hrow])]
        exact hwrap hwrap'

variable {wrap : Bool} {w h xBegin yBegin : Nat}

theorem mem_texels (hx : xBegin < screenW) (hy : yBegin < screenW)
    (hy' : wrap = false → yBegin < screenH) {t : Texel} :
    t ∈ texels wrap w h xBegin yBegin ↔
      t.row < h ∧ t.col < w ∧ Lands wrap xBegin yBegin t.row t.col t.x t.y := by
  rw [texels, textureRows_eq h 0 hy hy', textureCols_eq w 0 hx]
  simp only [Nat.zero_add, Prod.mk.eta, List.map_id', List.mem_flatMap, List.mem_map,
    List.mem_filter, mem_placed, decide_eq_true_eq, Lands]
  constructor
  · rintro ⟨r, ⟨⟨hr, hY⟩, hrow⟩, c, ⟨hc, hX⟩, rfl⟩
    exact ⟨hr, hc, hX, hY, hrow⟩
  · rintro ⟨hr, hc, hX, hY, hrow⟩
    exact ⟨(t.row, t.y), ⟨⟨hr, hY⟩, hrow⟩, (t.col, t.x), ⟨hc, hX⟩, rfl⟩

/-- The offset of a cell in both buffers. -/
def Texel.offset (t : Texel) : Nat := t.y * screenW + t.x

/-- No two texels of a texture at most as large as the screen counts are drawn on one cell. -/
theorem texels_apart (hx : xBegin < screenW) (hy : yBegin < screenW)
    (hy' : wrap = false → yBegin < screenH) (hw : w ≤ screenW) (hh : h ≤ screenW) :
    ((texels wrap w h xBegin yBegin).map Texel.offset).Nodup := by
  have hcell : ∀ t t' : Texel, t.x < screenW → t'.x < screenW → t.offset = t'.offset →
      t.x = t'.x ∧ t.y = t'.y := fun t t' hlt hlt' =>
    Map2D.offset_inj (m := (⟨fun _ => (), screenW, screenH⟩ : Map2D Unit)) hlt hlt'
  have hrows : (textureRows wrap h 0 yBegin).Pairwise fun r r' => r.2 ≠ r'.2 := by
    rw [textureRows_eq h 0 hy hy']
    exact List.pairwise_map.2 ((placed_pairwise hh).filter _)
  have hcols : (textureCols wrap w 0 xBegin).Pairwise fun c c' => c.2 ≠ c'.2 := by
    rw [textureCols_eq w 0 hx]
    exact List.pairwise_map.2 (placed_pairwise hw)
  have hlt : ∀ c ∈ textureCols wrap w 0 xBegin, c.2 < screenW := by
    rw [textureCols_eq w 0 hx]
    intro c hc
    obtain ⟨l, hl, rfl⟩ := List.mem_map.1 hc
    exact place_lt (by decide) (mem_placed.1 hl).2
  refine List.pairwise_map.2 (List.pairwise_flatMap.2 ⟨fun r _ => ?_, hrows.imp ?_⟩)
  · refine List.pairwise_map.2 (hcols.imp_of_mem fun hc hc' hne heq => hne ?_)
    exact (hcell _ _ (hlt _ hc) (hlt _ hc') heq).1
  · intro r r' hne t ht t' ht' heq
    obtain ⟨c, hc, rfl⟩ := List.mem_map.1 ht
    obtain ⟨c', hc', rfl⟩ := List.mem_map.1 ht'
    exact hne (hcell _ _ (hlt _ hc) (hlt _ hc') heq).2

/-! ## Drawing is a sweep -/

variable (s : Megachip)

/-- The colour index the loops read for a texel. -/
def colorIdx (t : Texel) : UInt8 :=
  byteBehind s (s.registerI + UInt32.ofNat t.row * s.own.texture.w) t.col

/-- Both buffers, cell by cell, and VF. -/
def Paint.cells (p : Paint) : (Nat → UInt8 × RGBA) × UInt8 :=
  (fun i => (p.collisionMap.data i, p.backgroundMap.data i), p.VF)

/-- Drawing a texel: the collision cell becomes its index, the background cell is blended with
its colour, and VF is set if the collision cell held the index that collides. -/
def painting : Sweep Texel Nat (UInt8 × RGBA) UInt8 where
  pos t := t.offset
  rewrite t cell :=
    (colorIdx s t, RGBA.compositeBlend s.own.blendMode.impl (s.own.colorPalette (colorIdx s t))
      cell.2 s.own.texture.opacity.toUInt8)
  hit _ cell := cell.1.toUInt32 = s.own.texture.collide
  mark := 1

/-- Both buffers are 256 columns wide. -/
def Paint.Wide (p : Paint) : Prop :=
  p.collisionMap.width = screenW ∧ p.backgroundMap.width = screenW

variable {s}

theorem paintRow_eq (data : Nat → UInt8) (y n col x : Nat) (p : Paint) :
    paintRow s wrap data y n col x p = (textureCols wrap n col x).foldl
      (fun p c => paintPixel s c.2 y (data c.1) p) p := by
  induction n generalizing col x p with
  | zero => rfl
  | succ n ih =>
      rw [paintRow, textureCols, List.foldl_cons]
      cases wrap with
      | true => exact ih _ _ _
      | false =>
          dsimp only
          rw [if_neg Bool.false_ne_true, if_neg Bool.false_ne_true]
          split
          · rfl
          · exact ih _ _ _

/-- The loops draw the texels one after the other. -/
theorem paintRows_eq (n row y : Nat) (p : Paint) :
    paintRows s wrap xBegin n row y p =
      ((textureRows wrap n row y).flatMap fun r =>
        (textureCols wrap s.own.texture.w.toNat 0 xBegin).map fun c =>
          (⟨r.1, c.1, c.2, r.2⟩ : Texel)).foldl
        (fun p t => paintPixel s t.x t.y (colorIdx s t) p) p := by
  induction n generalizing row y p with
  | zero => rfl
  | succ n ih =>
      rw [paintRows, textureRows]
      split
      · exact ih _ _ _
      · rw [List.flatMap_cons, List.foldl_append, List.foldl_map, paintRow_eq]
        cases wrap with
        | true => exact ih _ _ _
        | false =>
            dsimp only
            rw [if_neg Bool.false_ne_true, if_neg Bool.false_ne_true]
            split
            · rfl
            · exact ih _ _ _

theorem Paint.Wide.paintPixel {p : Paint} (h : p.Wide) (x y : Nat) (c : UInt8) :
    (Megachip.paintPixel s x y c p).Wide := by
  unfold Megachip.paintPixel
  split <;> exact h

/-- A texel that is drawn is a visit, and a transparent one is none. -/
theorem cells_paintPixel {p : Paint} (h : p.Wide) {t : Texel} :
    (Megachip.paintPixel s t.x t.y (colorIdx s t) p).cells =
      if colorIdx s t ≠ 0 then (painting s).visit p.cells t else p.cells := by
  have hcoll : p.collisionMap.offset t.x t.y = t.offset := by
    rw [Map2D.offset, h.1, Texel.offset]
  have hback : p.backgroundMap.offset t.x t.y = t.offset := by
    rw [Map2D.offset, h.2, Texel.offset]
  unfold Megachip.paintPixel
  split
  · refine Prod.ext ?_ ?_
    · funext i
      simp only [Paint.cells, Sweep.visit, painting, Map2D.set2, hcoll, hback,
        Function.update_apply, Map2D.at2]
      split <;> rfl
    · simp only [Paint.cells, Sweep.visit, painting, Map2D.at2, hcoll, decide_eq_true_eq]
  · rfl

/-- **Drawing a texture.** The loops visit the cells of the texels that are not transparent. -/
theorem cells_paintRows {p : Paint} (h : p.Wide) (n y : Nat) :
    (paintRows s wrap xBegin n 0 y p).cells =
      (painting s).run ((texels wrap s.own.texture.w.toNat n xBegin y).filter
        (colorIdx s · ≠ 0)) p.cells := by
  rw [paintRows_eq]
  change ((texels wrap s.own.texture.w.toNat n xBegin y).foldl _ p).cells = _
  induction texels wrap s.own.texture.w.toNat n xBegin y generalizing p with
  | nil => rfl
  | cons t l ih =>
      rw [List.foldl_cons, ih (h.paintPixel t.x t.y _), cells_paintPixel h]
      by_cases ht : colorIdx s t ≠ 0
      · rw [if_pos ht, List.filter_cons_of_pos (by simp [ht])]
        rfl
      · rw [if_neg ht, List.filter_cons_of_neg (by simp [ht])]

/-! ## The specification -/

variable (s)

/-- The colour index in row `r` and column `c` of the texture. -/
def textureIndex (r c : Nat) : UInt8 :=
  s.memory.mem (BitVec.ofNat 24 (s.registerI.toNat + r * s.own.texture.w.toNat + c))

/-- The texel in row `r` and column `c` is not transparent, and belongs on the cell `(X, Y)`. -/
def Painted (xBegin yBegin r c X Y : Nat) : Prop :=
  r < s.own.texture.h.toNat ∧ c < s.own.texture.w.toNat ∧ textureIndex s r c ≠ 0 ∧
    Lands (s.hasQuirk .wrapSprites) xBegin yBegin r c X Y

/-- The address `draw_texture` reads for a texel. -/
def texelAddress (t : Texel) : Nat :=
  (MirroredMemory.mask 24 (s.registerI + UInt32.ofNat t.row * s.own.texture.w)).toNat + t.col

/-- A texture of a size that can be set and that ends in memory, and the buffers of mega mode. -/
structure Drawable : Prop where
  width : 1 ≤ s.own.texture.w.toNat ∧ s.own.texture.w.toNat ≤ 256
  height : 1 ≤ s.own.texture.h.toNat ∧ s.own.texture.h.toNat ≤ 256
  memory : s.registerI.toNat + s.own.texture.w.toNat * s.own.texture.h.toNat < 2 ^ 24
  background : s.own.backgroundMap.width = screenW ∧ s.own.backgroundMap.height = screenH
  collision : s.own.collisionMap.width = screenW ∧ s.own.collisionMap.height = screenH

/-- `draw_texture`, texel by texel. -/
structure DrawsTexture (xBegin yBegin : Nat) : Prop where
  pixel : ∀ r c X Y, Painted s xBegin yBegin r c X Y →
    (drawTexture s xBegin yBegin).own.collisionMap.at2 X Y = textureIndex s r c ∧
    (drawTexture s xBegin yBegin).own.backgroundMap.at2 X Y =
      RGBA.compositeBlend s.own.blendMode.impl (s.own.colorPalette (textureIndex s r c))
        (s.own.backgroundMap.at2 X Y) s.own.texture.opacity.toUInt8
  kept : ∀ i, (¬ ∃ r c X Y, Painted s xBegin yBegin r c X Y ∧ i = Y * screenW + X) →
    (drawTexture s xBegin yBegin).own.collisionMap.at1 i = s.own.collisionMap.at1 i ∧
    (drawTexture s xBegin yBegin).own.backgroundMap.at1 i = s.own.backgroundMap.at1 i
  flagged : (∃ r c X Y, Painted s xBegin yBegin r c X Y ∧
      (s.own.collisionMap.at2 X Y).toUInt32 = s.own.texture.collide) →
    (drawTexture s xBegin yBegin).registersV 0xF = 1
  unflagged : (¬ ∃ r c X Y, Painted s xBegin yBegin r c X Y ∧
      (s.own.collisionMap.at2 X Y).toUInt32 = s.own.texture.collide) →
    (drawTexture s xBegin yBegin).registersV 0xF = s.registersV 0xF
  access : ∀ t ∈ texels (s.hasQuirk .wrapSprites) s.own.texture.w.toNat s.own.texture.h.toNat
      xBegin yBegin,
    (t.x < screenW ∧ t.y < screenH) ∧ s.registerI.toNat ≤ texelAddress s t ∧
      texelAddress s t < s.registerI.toNat + s.own.texture.w.toNat * s.own.texture.h.toNat

variable {s} {r c X Y : Nat}

/-- Texels of the texture are in its block of memory. -/
theorem Drawable.address (h : Drawable s) (hr : r < s.own.texture.h.toNat)
    (hc : c < s.own.texture.w.toNat) :
    (MirroredMemory.mask 24 (s.registerI + UInt32.ofNat r * s.own.texture.w)).toNat + c =
        s.registerI.toNat + r * s.own.texture.w.toNat + c ∧
      s.registerI.toNat + r * s.own.texture.w.toNat + c <
        s.registerI.toNat + s.own.texture.w.toNat * s.own.texture.h.toNat := by
  have hmem := h.memory
  have hblock : (r + 1) * s.own.texture.w.toNat ≤
      s.own.texture.w.toNat * s.own.texture.h.toNat := by
    rw [Nat.mul_comm s.own.texture.w.toNat]
    exact Nat.mul_le_mul_right _ hr
  rw [Nat.succ_mul] at hblock
  have hindex : (s.registerI + UInt32.ofNat r * s.own.texture.w).toNat =
      (s.registerI.toNat + r * s.own.texture.w.toNat) % 2 ^ 32 := by
    simp only [UInt32.toNat_add, UInt32.toNat_mul, UInt32.toNat_ofNat', Nat.mod_mul_mod,
      Nat.add_mod_mod]
  rw [MirroredMemory.mask_eq_ofNat (by decide) hindex, BitVec.toNat_ofNat,
    Nat.mod_eq_of_lt (by omega)]
  exact ⟨rfl, by omega⟩

theorem Drawable.colorIdx_eq (h : Drawable s) {t : Texel} (hr : t.row < s.own.texture.h.toNat)
    (hc : t.col < s.own.texture.w.toNat) : colorIdx s t = textureIndex s t.row t.col := by
  obtain ⟨haddress, hlt⟩ := h.address hr hc
  have hmem := h.memory
  rw [colorIdx, byteBehind, haddress]
  exact if_pos (by omega)

/-- A texture that ends in memory is drawn. -/
theorem Drawable.drawTexture_eq (h : Drawable s) : drawTexture s xBegin yBegin =
    let p := paintRows s (s.hasQuirk .wrapSprites) xBegin s.own.texture.h.toNat 0 yBegin
      ⟨s.own.backgroundMap, s.own.collisionMap, s.registersV 0xF⟩
    (s.onOwn fun own => { own with
      backgroundMap := p.backgroundMap, collisionMap := p.collisionMap }).onCpu
        (·.setV 0xF p.VF) := by
  have hmem := h.memory
  have hend : (s.registerI + s.own.texture.w * s.own.texture.h).toNat =
      s.registerI.toNat + s.own.texture.w.toNat * s.own.texture.h.toNat := by
    rw [UInt32.toNat_add, UInt32.toNat_mul, Nat.add_mod_mod, Nat.mod_eq_of_lt (by omega)]
  exact if_neg (by omega)

/-! ## Drawing as a sweep -/

/-- What `draw_texture` writes to. -/
def paintOf (s : Megachip) : Paint := ⟨s.own.backgroundMap, s.own.collisionMap, s.registersV 0xF⟩

/-- The texels that are not transparent. -/
def drawn (s : Megachip) (xBegin yBegin : Nat) : List Texel :=
  (texels (s.hasQuirk .wrapSprites) s.own.texture.w.toNat s.own.texture.h.toNat xBegin
    yBegin).filter (colorIdx s · ≠ 0)

/-- They are those of the specification. -/
theorem Drawable.mem_drawn (h : Drawable s) (hx : xBegin < screenW) (hy : yBegin < screenW)
    (hy' : s.hasQuirk .wrapSprites = false → yBegin < screenH) {t : Texel} :
    t ∈ drawn s xBegin yBegin ↔ Painted s xBegin yBegin t.row t.col t.x t.y := by
  rw [drawn, List.mem_filter, mem_texels hx hy hy', Painted, decide_eq_true_eq]
  constructor
  · rintro ⟨⟨hr, hc, hlands⟩, hne⟩
    exact ⟨hr, hc, h.colorIdx_eq hr hc ▸ hne, hlands⟩
  · rintro ⟨hr, hc, hne, hlands⟩
    exact ⟨⟨hr, hc, hlands⟩, (h.colorIdx_eq hr hc).symm ▸ hne⟩

theorem Drawable.nodup_drawn (h : Drawable s) (hx : xBegin < screenW) (hy : yBegin < screenW)
    (hy' : s.hasQuirk .wrapSprites = false → yBegin < screenH) :
    ((drawn s xBegin yBegin).map (painting s).pos).Nodup :=
  (texels_apart hx hy hy' h.width.2 h.height.2).sublist (List.filter_sublist.map _)

theorem Drawable.paintOf_drawTexture (h : Drawable s) : paintOf (drawTexture s xBegin yBegin) =
    paintRows s (s.hasQuirk .wrapSprites) xBegin s.own.texture.h.toNat 0 yBegin (paintOf s) := by
  rw [h.drawTexture_eq]
  exact congrArg (Paint.mk _ _) (Function.update_self (0xF : Fin 16) _ s.registersV)

/-- `draw_texture` visits the cells of these texels. -/
theorem Drawable.cells_drawTexture (h : Drawable s) :
    (paintOf (drawTexture s xBegin yBegin)).cells =
      (painting s).run (drawn s xBegin yBegin) (paintOf s).cells := by
  rw [h.paintOf_drawTexture]
  exact cells_paintRows ⟨h.collision.1, h.background.1⟩ _ _

theorem Drawable.sameSizes_drawTexture (h : Drawable s) :
    Paint.SameSizes (paintOf (drawTexture s xBegin yBegin)) (paintOf s) := by
  rw [h.paintOf_drawTexture]
  exact sameSizes_paintRows ..

/-- A visit hits where a texel that is drawn finds the index that collides. -/
theorem Drawable.any_hit (h : Drawable s) (hx : xBegin < screenW) (hy : yBegin < screenW)
    (hy' : s.hasQuirk .wrapSprites = false → yBegin < screenH) :
    ((drawn s xBegin yBegin).any fun t => (painting s).hit t ((paintOf s).cells.1 t.offset)) =
      true ↔ ∃ r c X Y, Painted s xBegin yBegin r c X Y ∧
        (s.own.collisionMap.at2 X Y).toUInt32 = s.own.texture.collide := by
  have hcell (X Y : Nat) : s.own.collisionMap.at2 X Y =
      s.own.collisionMap.data (Y * screenW + X) := by rw [Map2D.at2, Map2D.offset, h.collision.1]
  simp only [List.any_eq_true, painting, decide_eq_true_eq, hcell]
  constructor
  · rintro ⟨t, ht, hhit⟩
    exact ⟨_, _, _, _, (h.mem_drawn hx hy hy').1 ht, hhit⟩
  · rintro ⟨r, c, X, Y, hp, hhit⟩
    exact ⟨⟨r, c, X, Y⟩, (h.mem_drawn hx hy hy').2 hp, hhit⟩

/-- **`draw_texture` draws its texture.** -/
theorem drawTexture_texels (s : Megachip) (xBegin yBegin : Nat) (h : Drawable s)
    (hx : xBegin < screenW) (hy : yBegin < screenW)
    (hy' : s.hasQuirk .wrapSprites = false → yBegin < screenH) :
    DrawsTexture s xBegin yBegin := by
  have hrun : (paintOf (drawTexture s xBegin yBegin)).cells = _ := h.cells_drawTexture
  have hdistinct := h.nodup_drawn hx hy hy'
  have hmark : (drawTexture s xBegin yBegin).registersV 0xF = if (drawn s xBegin yBegin).any
      fun t => (painting s).hit t ((paintOf s).cells.1 t.offset)
      then 1 else s.registersV 0xF :=
    (congrArg Prod.snd hrun).trans (Sweep.run_mark hdistinct (paintOf s).cells)
  refine ⟨fun r c X Y hp => ?_, fun i hi => ?_, fun hhit => ?_, fun hhit => ?_, fun t ht => ?_⟩
  · have hcell := Sweep.run_cells_of_mem hdistinct (i := ⟨r, c, X, Y⟩)
      ((h.mem_drawn hx hy hy').2 hp) (paintOf s).cells
    rw [← hrun] at hcell
    have hcolor : colorIdx s ⟨r, c, X, Y⟩ = textureIndex s r c := h.colorIdx_eq hp.1 hp.2.1
    have hsizes : Paint.SameSizes (paintOf (drawTexture s xBegin yBegin)) _ :=
      h.sameSizes_drawTexture
    have hwidth : (drawTexture s xBegin yBegin).own.collisionMap.width = screenW :=
      hsizes.2.1.trans h.collision.1
    have hwidth' : (drawTexture s xBegin yBegin).own.backgroundMap.width = screenW :=
      hsizes.1.1.trans h.background.1
    rw [Map2D.at2, Map2D.at2, Map2D.at2, Map2D.offset, Map2D.offset, Map2D.offset, hwidth,
      hwidth', h.background.1, ← hcolor]
    exact ⟨congrArg Prod.fst hcell, congrArg Prod.snd hcell⟩
  · have hkept : (paintOf (drawTexture s xBegin yBegin)).cells.1 i = (paintOf s).cells.1 i := by
      rw [hrun]
      refine Sweep.run_cells_of_not_mem (fun hmem => hi ?_) _
      obtain ⟨t, ht, hpos⟩ := List.mem_map.1 hmem
      exact ⟨_, _, _, _, (h.mem_drawn hx hy hy').1 ht, hpos.symm⟩
    exact ⟨congrArg Prod.fst hkept, congrArg Prod.snd hkept⟩
  · rw [hmark, if_pos ((h.any_hit hx hy hy').2 hhit)]
  · rw [hmark, if_neg (mt (h.any_hit hx hy hy').1 hhit)]
  · obtain ⟨hr, hc, hX, hY, hrow⟩ := (mem_texels hx hy hy').1 ht
    obtain ⟨haddress, hlt⟩ := h.address hr hc
    refine ⟨⟨place_lt (by decide) hX, hrow⟩, ?_⟩
    rw [texelAddress, haddress]
    exact ⟨by omega, hlt⟩

/-- A core with a tall texture set: the font in shades of red, half transparent, which collides
with the empty display. -/
def tall : Megachip :=
  (boot (Launch.ofProgram []) Unset.zero).onOwn fun own => { own with
    texture := ⟨3, 200, 0, 0x80, 0⟩
    colorPalette := fun i => ⟨i, 0, 0, 0xFF⟩ }

/-- Four rows of it fit, and two columns. -/
theorem drawTexture_texels_tall : DrawsTexture tall 254 188 ∧
    textureIndex tall 3 1 = 0xC0 ∧ (drawTexture tall 254 188).own.collisionMap.at2 255 191 = 0xC0 ∧
      (drawTexture tall 254 188).own.backgroundMap.at2 255 191 ≠ RGBA.zero ∧
      (drawTexture tall 254 188).registersV 0xF = 1 := by
  have hdrawable : Drawable tall :=
    { width := ⟨by decide, by decide⟩
      height := ⟨by decide, by decide⟩
      memory := by decide
      background := ⟨rfl, rfl⟩
      collision := ⟨rfl, rfl⟩ }
  exact ⟨drawTexture_texels tall 254 188 hdrawable (by decide) (by decide) fun _ => by decide,
    by decide +kernel⟩

end Megachip

end CubeChip
