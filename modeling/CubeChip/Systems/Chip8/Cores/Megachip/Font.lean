import CubeChip.Systems.Chip8.Cores.Megachip.Texture

/-!
# Font sprites in mega mode

`DxyN` draws the sprite that Fx29 or Fx30 has chosen with the font colours, one for each row.
There are ten of them and 192 rows on the screen, but the loop looks for neither: without
WRAP_SPRITES it ends at row 255, and with it a sprite that has come under the screen stays there,
where `draw_texture` goes on counting. `fontTexels` lists the pixels the loops draw.
-/

namespace CubeChip

namespace Megachip

/-- The rows the loop over a font sprite comes by. -/
def fontLines (wrap : Bool) : Nat → Nat → Nat → List (Nat × Nat)
  | 0, _, _ => []
  | n + 1, row, y =>
      if wrap && screenH ≤ y then fontLines wrap n (row + 1) y
      else
        (row, y) :: if !wrap && y == screenW - 1 then []
          else fontLines wrap n (row + 1) ((y + 1) &&& (screenW - 1))

variable (s : Megachip)

/-- A pixel of the font sprite. -/
def fontPixel (row col : Nat) : Bool :=
  (s.memory.get (s.registerI + UInt32.ofNat row)).toNat.testBit (7 - col)

/-- The set pixels of `n` rows that the loops come by, in their order. -/
def fontTexels (wrap : Bool) (xBegin n yBegin : Nat) : List Texel :=
  (fontLines wrap n 0 yBegin).flatMap fun r =>
    ((Canvas.walk wrap screenW 8 0 xBegin).filter fun c => fontPixel s r.1 c.1).map
      fun c => ⟨r.1, c.1, c.2, r.2⟩

/-- The accesses of the font path of `DxyN`: for each of them the background cell at column `x`
and row `y` becomes the font colour `row`. -/
def fontAccesses (X Y N : Fin 16) : List Texel :=
  let xBegin := (s.registersV X).toNat
  let yBegin := (s.registersV Y).toNat
  if !s.hasQuirk .wrapSprites && screenH ≤ yBegin then []
  else fontTexels s (s.hasQuirk .wrapSprites) xBegin N.val yBegin

/-- The font path keeps to the background and to the font colours, and a wrapping sprite is placed
as `draw_texture` places a texture. -/
structure FontInRange (X Y N : Fin 16) : Prop where
  range : ∀ t ∈ fontAccesses s X Y N, (t.x < screenW ∧ t.y < screenH) ∧ t.row < 10
  wrapped : s.hasQuirk .wrapSprites = true → ∀ t : Texel, t ∈ fontAccesses s X Y N ↔
    t.row < N.val ∧ t.col < 8 ∧ fontPixel s t.row t.col = true ∧
      Lands true (s.registersV X).toNat (s.registersV Y).toNat t.row t.col t.x t.y

/-- A row with a set pixel that is not beyond the right edge. -/
def RowShows (xBegin row : Nat) : Prop :=
  ∃ col < 8, fontPixel s row col = true ∧
    (s.hasQuirk .wrapSprites = true ∨ xBegin + col < screenW)

/-- The rows that show anything are among the first ten while on the screen, and do not come out
below it: not at all without wrapping, not back at the top with it. -/
def FontFits (X Y N : Fin 16) : Prop :=
  (s.hasQuirk .wrapSprites = false ∧ screenH ≤ (s.registersV Y).toNat) ∨
    ∀ row < N.val, RowShows s (s.registersV X).toNat row →
      ((s.registersV Y).toNat + row < screenH → row < 10) ∧
        (s.registersV Y).toNat + row < if s.hasQuirk .wrapSprites then screenW else screenH

/-! ## The loops -/

variable {s} {wrap : Bool} {xBegin : Nat}

theorem fontRow_eq (pixelData : UInt8) (color : RGBA) (y n col x : Nat) (m : Map2D RGBA) :
    fontRow wrap pixelData color y n col x m =
      ((Canvas.walk wrap screenW n col x).filter fun c => pixelData.toNat.testBit (7 - c.1)).foldl
        (fun m c => m.set2 c.2 y color) m := by
  induction n generalizing col x m with
  | zero => rfl
  | succ n ih =>
      rw [fontRow, Canvas.walk]
      cases hbit : pixelData.toNat.testBit (7 - col) with
      | false =>
          rw [List.filter_cons_of_neg (by simp only [hbit]; exact Bool.false_ne_true),
            if_neg Bool.false_ne_true]
          split
          · rfl
          · exact ih _ _ _
      | true =>
          rw [List.filter_cons_of_pos (by simp only [hbit]), List.foldl_cons, if_pos rfl]
          split
          · rfl
          · exact ih _ _ _

/-- The loops colour the cells of the pixels they come by. -/
theorem fontRows_eq (n row y : Nat) (m : Map2D RGBA) :
    fontRows s wrap xBegin n row y m =
      ((fontLines wrap n row y).flatMap fun r =>
        ((Canvas.walk wrap screenW 8 0 xBegin).filter fun c => fontPixel s r.1 c.1).map
          fun c => (⟨r.1, c.1, c.2, r.2⟩ : Texel)).foldl
        (fun m t => m.set2 t.x t.y (fontColor s t.row)) m := by
  induction n generalizing row y m with
  | zero => rfl
  | succ n ih =>
      rw [fontRows, fontLines]
      split
      · exact ih _ _ _
      · rw [List.flatMap_cons, List.foldl_append, List.foldl_map, fontRow_eq]
        dsimp only
        split
        · rfl
        · exact ih _ _ _

/-- The font path draws what it accesses. -/
theorem drawMega_font (s : Megachip) (X Y N : Fin 16)
    (hfont : s.own.texture.fontPos = s.registerI) :
    (drawMega s X Y N).own.backgroundMap = (fontAccesses s X Y N).foldl
      (fun m t => m.set2 t.x t.y (fontColor s t.row)) s.own.backgroundMap := by
  let cleared : Megachip := s.onCpu (·.setV 0xF 0)
  have hfont' : cleared.own.texture.fontPos = cleared.registerI := hfont
  unfold drawMega fontAccesses
  dsimp only
  by_cases hunder : (!s.hasQuirk .wrapSprites && decide (screenH ≤ (s.registersV Y).toNat)) = true
  · have hunder' : (!cleared.hasQuirk .wrapSprites &&
        decide (screenH ≤ (s.registersV Y).toNat)) = true := hunder
    rw [if_pos hunder, if_pos hunder']
    rfl
  · have hunder' : ¬(!cleared.hasQuirk .wrapSprites &&
        decide (screenH ≤ (s.registersV Y).toNat)) = true := hunder
    rw [if_neg hunder, if_neg hunder', if_pos hfont']
    exact fontRows_eq (s := cleared) N.val 0 (s.registersV Y).toNat s.own.backgroundMap

/-! ## Where the pixels are -/

/-- The rows the loop comes by, as long as it does not come round: all of them, or when wrapping
those above the lower edge. -/
theorem mem_fontLines {n row y : Nat} (hy : y < screenW) (hn : wrap = false → y + n ≤ screenW)
    {l : Nat × Nat} : l ∈ fontLines wrap n row y ↔
      ∃ k < n, l = (row + k, y + k) ∧ (wrap = true → y + k < screenH) := by
  induction n generalizing row y with
  | zero => exact ⟨fun h => absurd h List.not_mem_nil, fun ⟨k, hk, _⟩ => absurd hk k.not_lt_zero⟩
  | succ n ih =>
      rw [fontLines]
      split
      · rename_i hunder
        rw [Bool.and_eq_true, decide_eq_true_eq] at hunder
        obtain ⟨rfl, hunder⟩ := hunder
        -- once under the screen, a wrapping sprite stays there
        rw [ih hy fun h => absurd h.symm Bool.false_ne_true]
        constructor
        · rintro ⟨k, -, -, hk⟩
          exact absurd (hk rfl) (by omega)
        · rintro ⟨k, -, -, hk⟩
          exact absurd (hk rfl) (by omega)
      · rename_i hon
        have hrow : wrap = true → y < screenH := fun hwrap =>
          Nat.not_le.1 fun hle => hon (by simp [hwrap, hle])
        have hrest : l ∈ (if !wrap && y == screenW - 1 then []
            else fontLines wrap n (row + 1) ((y + 1) &&& (screenW - 1))) ↔
            ∃ k < n, l = (row + 1 + k, y + 1 + k) ∧ (wrap = true → y + 1 + k < screenH) := by
          split
          · rename_i hedge
            rw [Bool.and_eq_true, Bool.not_eq_true', beq_iff_eq] at hedge
            have hlast := hn hedge.1
            have hnone : n = 0 := by omega
            subst hnone
            exact ⟨fun h => absurd h List.not_mem_nil, fun ⟨k, hk, _⟩ => absurd hk k.not_lt_zero⟩
          · rename_i hedge
            have hlt : y + 1 < screenW := by
              cases wrap with
              | true =>
                  have := hrow rfl
                  unfold screenH at this
                  unfold screenW
                  omega
              | false =>
                  have hne : y ≠ screenW - 1 := fun h => hedge (by simp [h])
                  omega
            have hmask : (y + 1) &&& (screenW - 1) = y + 1 :=
              (Nat.and_two_pow_sub_one_eq_mod _ 8).trans (Nat.mod_eq_of_lt hlt)
            rw [hmask]
            exact ih hlt fun h => by
              have := hn h
              omega
        have hsucc : ∀ j k : Nat, j + 1 + k = j + (k + 1) := fun j k => by omega
        simp only [hsucc] at hrest
        rw [List.mem_cons, hrest, Nat.exists_lt_succ_left]
        exact or_congr_left (iff_self_and.2 fun _ => hrow)

variable {X Y N : Fin 16}

/-- What the font path accesses: the set pixels of the rows the loop comes by. -/
theorem mem_fontAccesses {t : Texel} : t ∈ fontAccesses s X Y N ↔
    (s.hasQuirk .wrapSprites = true ∨ (s.registersV Y).toNat < screenH) ∧
      t.row < N.val ∧ t.col < 8 ∧ fontPixel s t.row t.col = true ∧
      place (s.hasQuirk .wrapSprites) screenW ((s.registersV X).toNat + t.col) = some t.x ∧
      t.y = (s.registersV Y).toNat + t.row ∧ (s.hasQuirk .wrapSprites = true → t.y < screenH) := by
  have hx : (s.registersV X).toNat < screenW := (s.registersV X).toNat_lt
  have hy : (s.registersV Y).toNat < screenW := (s.registersV Y).toNat_lt
  unfold fontAccesses
  dsimp only
  split
  · rename_i hunder
    rw [Bool.and_eq_true, Bool.not_eq_true', decide_eq_true_eq] at hunder
    obtain ⟨hwrap, hunder⟩ := hunder
    refine ⟨fun h => absurd h List.not_mem_nil, fun ⟨h, _⟩ => ?_⟩
    rw [hwrap] at h
    exact absurd (h.resolve_left Bool.false_ne_true) (Nat.not_lt.2 hunder)
  · rename_i hon
    have hon' : s.hasQuirk .wrapSprites = true ∨ (s.registersV Y).toNat < screenH := by
      cases hwrap : s.hasQuirk .wrapSprites with
      | true => exact .inl rfl
      | false => exact .inr (Nat.not_le.1 fun hle => hon (by simp [hwrap, hle]))
    have hround : s.hasQuirk .wrapSprites = false →
        (s.registersV Y).toNat + N.val ≤ screenW := fun hwrap => by
      have hlt := hon'.resolve_left fun h => Bool.false_ne_true (hwrap.symm.trans h)
      unfold screenH at hlt
      unfold screenW
      omega
    rw [fontTexels, Canvas.walk_eq (show screenW = 2 ^ 8 from rfl) 8 0 hx]
    simp only [hon', true_and, List.mem_flatMap, List.mem_map, List.mem_filter,
      mem_fontLines hy hround, mem_placed, Nat.zero_add, Prod.mk.eta, List.map_id']
    constructor
    · rintro ⟨-, ⟨k, hk, rfl, hrow⟩, c, ⟨⟨hc, hplace⟩, hpixel⟩, rfl⟩
      exact ⟨hk, hc, hpixel, hplace, rfl, hrow⟩
    · rintro ⟨hk, hc, hpixel, hplace, hY, hrow⟩
      refine ⟨(t.row, t.y), ⟨t.row, hk, by rw [hY], fun h => hY ▸ hrow h⟩, (t.col, t.x),
        ⟨⟨hc, hplace⟩, hpixel⟩, rfl⟩

theorem fontInRange_of_fits (h : FontFits s X Y N) : FontInRange s X Y N := by
  rcases h with ⟨hwrap, hunder⟩ | hrows
  · refine ⟨fun t ht => ?_, fun hwrap' => absurd (hwrap.symm.trans hwrap') Bool.false_ne_true⟩
    have hon := (mem_fontAccesses.1 ht).1
    rw [hwrap] at hon
    exact absurd (hon.resolve_left Bool.false_ne_true) (Nat.not_lt.2 hunder)
  · have hshows : ∀ row < N.val, ∀ col < 8, ∀ x, fontPixel s row col = true →
        place (s.hasQuirk .wrapSprites) screenW ((s.registersV X).toNat + col) = some x →
        RowShows s (s.registersV X).toNat row := fun row _ col hcol x hpixel hplace => by
      refine ⟨col, hcol, hpixel, ?_⟩
      cases hwrap : s.hasQuirk .wrapSprites with
      | true => exact .inl rfl
      | false => exact .inr (place_false.1 (hwrap ▸ hplace)).1
    refine ⟨fun t ht => ?_, fun hwrap t => ?_⟩
    · obtain ⟨-, hrow, hcol, hpixel, hplace, hY, hon⟩ := mem_fontAccesses.1 ht
      obtain ⟨hten, hlow⟩ := hrows t.row hrow (hshows _ hrow _ hcol _ hpixel hplace)
      have hscreen : (s.registersV Y).toNat + t.row < screenH := by
        cases hwrap : s.hasQuirk .wrapSprites with
        | true => exact hY ▸ hon hwrap
        | false => rwa [hwrap, if_neg Bool.false_ne_true] at hlow
      exact ⟨⟨place_lt (by decide) hplace, hY ▸ hscreen⟩, hten hscreen⟩
    · rw [mem_fontAccesses, hwrap, Lands]
      constructor
      · rintro ⟨-, hrow, hcol, hpixel, hplace, hY, hon⟩
        have hlt : (s.registersV Y).toNat + t.row < screenW :=
          hY ▸ (hon rfl).trans (by decide)
        exact ⟨hrow, hcol, hpixel, hplace, (place_of_lt hlt).trans (congrArg some hY.symm),
          hon rfl⟩
      · rintro ⟨hrow, hcol, hpixel, hplace, hY, hon⟩
        obtain ⟨-, hlow⟩ := hrows t.row hrow
          (hshows _ hrow _ hcol _ hpixel (hwrap.symm ▸ hplace))
        rw [hwrap, if_pos rfl] at hlow
        rw [place_of_lt hlow] at hY
        exact ⟨.inl rfl, hrow, hcol, hpixel, hplace, (Option.some.inj hY).symm, fun _ => hon⟩

theorem fits_of_fontInRange (h : FontInRange s X Y N) : FontFits s X Y N := by
  cases hwrap : s.hasQuirk .wrapSprites with
  | false =>
      by_cases hunder : screenH ≤ (s.registersV Y).toNat
      · exact .inl ⟨hwrap, hunder⟩
      · refine .inr fun row hrow ⟨col, hcol, hpixel, hon⟩ => ?_
        have hlt := hon.resolve_left fun h => Bool.false_ne_true (hwrap.symm.trans h)
        have hmem : (⟨row, col, (s.registersV X).toNat + col, (s.registersV Y).toNat + row⟩ : Texel)
            ∈ fontAccesses s X Y N := mem_fontAccesses.2
          ⟨.inr (Nat.not_le.1 hunder), hrow, hcol, hpixel, place_of_lt hlt, rfl,
            fun h => absurd (hwrap.symm.trans h) Bool.false_ne_true⟩
        obtain ⟨⟨-, hscreen⟩, hten⟩ := h.range _ hmem
        rw [hwrap, if_neg Bool.false_ne_true]
        exact ⟨fun _ => hten, hscreen⟩
  | true =>
      refine .inr fun row hrow ⟨col, hcol, hpixel, _⟩ => ?_
      obtain ⟨x, hx⟩ : ∃ x, place true screenW ((s.registersV X).toNat + col) = some x :=
        exists_place (.inl rfl)
      rw [hwrap, if_pos rfl]
      refine ⟨fun hscreen => ?_, ?_⟩
      · have hmem : (⟨row, col, x, (s.registersV Y).toNat + row⟩ : Texel)
            ∈ fontAccesses s X Y N := mem_fontAccesses.2
          ⟨.inl hwrap, hrow, hcol, hpixel, hwrap.symm ▸ hx, rfl, fun _ => hscreen⟩
        exact (h.range _ hmem).2
      · by_contra hlow
        -- `draw_texture` would show this row at the top
        have hlt := (s.registersV Y).toNat_lt
        have hround : ((s.registersV Y).toNat + row) % screenW < screenH := by
          unfold screenW screenH at *
          omega
        obtain ⟨-, -, -, -, -, hY, -⟩ := mem_fontAccesses.1 ((h.wrapped hwrap
          ⟨row, col, x, ((s.registersV Y).toNat + row) % screenW⟩).2
            ⟨hrow, hcol, hpixel, hx, if_pos rfl, hround⟩)
        have hmod := Nat.mod_lt ((s.registersV Y).toNat + row) (show 0 < screenW by decide)
        exact hlow (hY ▸ hmod)

/-- **Where font sprites stay in range**, and that the font path draws precisely what it
accesses. -/
theorem fontInRange_iff (s : Megachip) (X Y N : Fin 16) :
    (FontInRange s X Y N ↔ FontFits s X Y N) ∧
    (s.own.texture.fontPos = s.registerI →
      (drawMega s X Y N).own.backgroundMap = (fontAccesses s X Y N).foldl
        (fun m t => m.set2 t.x t.y (fontColor s t.row)) s.own.backgroundMap) :=
  ⟨⟨fits_of_fontInRange, fontInRange_of_fits⟩, drawMega_font s X Y N⟩

/-! ## A font sprite at the lower edge -/

/-- All ones in memory, I at the font sprite, and VY at 190. -/
def lowerEdge : Megachip :=
  { construct (Launch.ofProgram []) Unset.zero with
    registersV := fun i => if i = 1 then 190 else 0
    memory := ⟨fun _ => 0xFF⟩ }

/-- The third row of `D015` there is drawn under the screen. -/
theorem not_fontInRange_lowerEdge : lowerEdge.own.texture.fontPos = lowerEdge.registerI ∧
    ¬ FontInRange lowerEdge 0 1 5 := by
  refine ⟨rfl, fun h => ?_⟩
  have hmem : (⟨2, 0, 0, 192⟩ : Texel) ∈ fontAccesses lowerEdge 0 1 5 :=
    mem_fontAccesses.2 ⟨.inr (by decide), by decide, by decide, by decide, by decide, by decide,
      fun h => absurd h (by decide)⟩
  exact absurd (h.range _ hmem).1.2 (by decide)

end Megachip

end CubeChip
