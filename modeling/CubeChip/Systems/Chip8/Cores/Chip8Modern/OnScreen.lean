import CubeChip.Systems.Chip8.Cores.Chip8Modern
import CubeChip.Systems.Chip8.Sprite

/-!
# Where `CHIP8_MODERN` draws

`DxyN` of `CHIP8_MODERN` draws a row of a 16x16 sprite as two bytes, and begins the second one 8
columns further on without a look at the width. `flips` lists the cells the loops come by. The
sprite is drawn as it should be unless some second byte begins behind the right edge: with its
first bit set it flips a cell that is not in its row, and without WRAP_SPRITES its other bits
show at the left edge.
-/

namespace CubeChip

namespace Chip8Modern

/-- The columns `draw_byte` flips. -/
def byteFlips (wrap : Bool) (X : Nat) (DATA : UInt8) : List Nat :=
  if DATA = 0b00000000 then []
  else if DATA = 0b10000000 then [X]
  else ((Canvas.walk wrap screenW 8 0 X).filter fun l => DATA.toNat.testBit (7 - l.1)).map (·.2)

variable (s : Chip8Modern)

/-- The columns `DxyN` flips in a row of a 16x16 sprite. -/
def doubleFlips (pX row : Nat) : List Nat :=
  byteFlips (s.hasQuirk .wrapSprites) pX (spriteByte s (2 * row)) ++
    byteFlips (s.hasQuirk .wrapSprites) (pX + 8) (spriteByte s (2 * row + 1))

/-- The cells `DxyN` flips, in its order; it reads and writes no others. -/
def flips (N : Fin 16) (pX pY : Nat) : List (Nat × Nat) :=
  match N.val with
  | 1 => (byteFlips (s.hasQuirk .wrapSprites) pX (spriteByte s 0)).map (·, pY)
  | 0 => (Canvas.walk (s.hasQuirk .wrapSprites) screenH 16 0 pY).flatMap fun l =>
      (doubleFlips s pX l.1).map (·, l.2)
  | n => (Canvas.walk (s.hasQuirk .wrapSprites) screenH n 0 pY).flatMap fun l =>
      (byteFlips (s.hasQuirk .wrapSprites) pX (spriteByte s l.1)).map (·, l.2)

/-- `VX` and `VY`, on the screen. -/
def beginX (X : Fin 16) : Nat := (s.registersV X).toNat % screenW

def beginY (Y : Fin 16) : Nat := (s.registersV Y).toNat % screenH

/-- The cells `DxyN` is to flip. -/
def spriteCells (X Y N : Fin 16) : List (Nat × Nat) :=
  (Sprite.ofBytes N (spriteByte s)).cells (s.hasQuirk .wrapSprites) screenW screenH
    (beginX s X) (beginY s Y)

/-- `DxyN` stays on the screen, and draws its sprite there. -/
structure DrawsOnScreen (X Y N : Fin 16) : Prop where
  access : ∀ p ∈ flips s N (beginX s X) (beginY s Y), p.1 < screenW ∧ p.2 < screenH
  display : Flipped 0x8 (spriteCells s X Y N) s.own.displayMap
    (instructionDxyN s X Y N).own.displayMap
  flag : (instructionDxyN s X Y N).registersV 0xF =
    if TurnsOff 0x8 (spriteCells s X Y N) s.own.displayMap then 1 else 0

/-- The second byte of row `r` does no harm: it begins on the screen, or is empty, or wraps with
its first bit clear. -/
def SecondByteFits (pX r : Nat) : Prop :=
  pX < 56 ∨ spriteByte s (2 * r + 1) = 0 ∨
    (s.hasQuirk .wrapSprites = true ∧ (spriteByte s (2 * r + 1)).toNat.testBit 7 = false)

/-- The rows of the 16x16 sprite that are on the screen have such bytes. -/
def SecondBytesFit (X Y : Fin 16) : Prop :=
  ∀ r < 16, (s.hasQuirk .wrapSprites = true ∨ beginY s Y + r < screenH) →
    SecondByteFits s (beginX s X) r

/-! ## Bytes -/

variable {s} {wrap : Bool} {X : Nat} {DATA : UInt8} {c : Canvas}

theorem drawByte_eq (hW : c.map.width = screenW) (X Y : Nat) (DATA : UInt8) :
    drawByte s X Y DATA c =
      c.flipAll 0x8 ((byteFlips (s.hasQuirk .wrapSprites) X DATA).map (·, Y)) := by
  unfold drawByte byteFlips
  split
  · rfl
  · split
    · rfl
    · rw [Canvas.drawBits_eq, hW, List.map_map]
      rfl

/-- A byte that begins on the screen. -/
theorem byteFlips_of_lt (hX : X < screenW) (DATA : UInt8) :
    byteFlips wrap X DATA = Canvas.byteColumns wrap screenW DATA X := by
  unfold byteFlips
  split
  · rename_i hzero
    rw [hzero, Canvas.byteColumns_zero]
  · split
    · rename_i hfirst
      rw [hfirst, Canvas.byteColumns_first, place_of_lt hX]
      rfl
    · rw [Canvas.walk_eq (show screenW = 2 ^ 6 from rfl) 8 0 hX, Canvas.byteColumns]
      simp only [Nat.zero_add, Prod.mk.eta, List.map_id']

/-- A byte that begins behind the right edge: its first bit shows there, the others at the left
edge. -/
theorem byteFlips_behind (hX : screenW ≤ X) (hX' : X < 72) (DATA : UInt8) :
    byteFlips wrap X DATA = (if DATA.toNat.testBit 7 then [X] else []) ++
      ((placed wrap screenW 7 (X - 63)).filter fun l => DATA.toNat.testBit (6 - l.1)).map
        (·.2) := by
  unfold byteFlips
  split
  · rename_i hzero
    subst hzero
    rw [List.filter_eq_nil_iff.2 fun l _ => by simp]
    rfl
  · split
    · rename_i hfirst
      subst hfirst
      rw [Canvas.filter_first, if_pos (by decide)]
      rfl
    · have hnext : (X + 1) &&& (screenW - 1) = X - 63 := by
        rw [show screenW - 1 = 2 ^ 6 - 1 from rfl, Nat.and_two_pow_sub_one_eq_mod]
        unfold screenW at hX
        omega
      have hlt : X - 63 < screenW := by unfold screenW; omega
      have hedge : (X == screenW - 1) = false := by
        refine beq_false_of_ne ?_
        unfold screenW at hX ⊢
        omega
      have hlater (l : Nat × Nat) : 7 - (0 + 1 + l.1) = 6 - l.1 := by omega
      rw [Canvas.walk, hedge, Bool.and_false, if_neg Bool.false_ne_true, hnext,
        Canvas.walk_eq (show screenW = 2 ^ 6 from rfl) 7 _ hlt, List.filter_cons,
        List.filter_map]
      simp only [Function.comp_def, hlater]
      split
      · rw [List.map_cons, List.map_map]
        rfl
      · rw [List.map_map]
        rfl

/-! ## Sprites -/

theorem drawSprite_eq (hW : c.map.width = screenW) (hH : c.map.height = screenH) (N : Fin 16)
    (pX pY : Nat) : drawSprite s N pX pY c = c.flipAll 0x8 (flips s N pX pY) := by
  have hrow : ∀ row Y (c : Canvas), c.map.width = screenW →
      drawByte s pX Y (spriteByte s row) c = c.flipAll 0x8
        ((byteFlips (s.hasQuirk .wrapSprites) pX (spriteByte s row)).map (·, Y)) :=
    fun row Y c hW => drawByte_eq hW pX Y _
  have hdouble : ∀ row Y (c : Canvas), c.map.width = screenW →
      drawByte s (pX + 8) Y (spriteByte s (2 * row + 1))
          (drawByte s pX Y (spriteByte s (2 * row)) c) =
        c.flipAll 0x8 ((doubleFlips s pX row).map (·, Y)) := fun row Y c hW => by
    have hwidth : (drawByte s pX Y (spriteByte s (2 * row)) c).map.width = screenW := by
      rw [drawByte_eq hW]
      exact (Canvas.sameSize_flipAll _ c).1.trans hW
    rw [drawByte_eq hwidth, drawByte_eq hW, doubleFlips, List.map_append, Canvas.flipAll_append]
  unfold drawSprite flips
  generalize N.val = n
  rcases n with _ | _ | n
  · exact (Canvas.drawRows_eq hdouble 16 0 pY c hW).trans (by rw [hH]; rfl)
  · exact hrow 0 pY c hW
  · exact (Canvas.drawRows_eq hrow (n + 2) 0 pY c hW).trans (by rw [hH]; rfl)

theorem beginX_lt (X : Fin 16) : beginX s X < screenW := Nat.mod_lt _ (by decide)

theorem beginY_lt (Y : Fin 16) : beginY s Y < screenH := Nat.mod_lt _ (by decide)

/-- The rows the loops come by. -/
theorem walk_screenH (n : Nat) (Y : Fin 16) :
    Canvas.walk wrap screenH n 0 (beginY s Y) = placed wrap screenH n (beginY s Y) := by
  rw [Canvas.walk_eq (show screenH = 2 ^ 5 from rfl) n 0 (beginY_lt Y)]
  simp only [Nat.zero_add, Prod.mk.eta, List.map_id']

/-- Sprites 8 wide begin on the screen. -/
theorem flips_eq_cells {N : Fin 16} (hN : N ≠ 0) (X Y : Fin 16) :
    flips s N (beginX s X) (beginY s Y) = spriteCells s X Y N := by
  have hloop : flips s N (beginX s X) (beginY s Y) =
      (Canvas.walk (s.hasQuirk .wrapSprites) screenH N.val 0 (beginY s Y)).flatMap fun l =>
        (byteFlips (s.hasQuirk .wrapSprites) (beginX s X) (spriteByte s l.1)).map (·, l.2) := by
    unfold flips
    split
    · rename_i h1
      rw [h1, Canvas.walk_one, List.flatMap_singleton]
    · rename_i h0
      exact absurd (Fin.ext h0) hN
    · rfl
  have hrows : (Sprite.ofBytes N (spriteByte s)).rows = N.val := by rw [Sprite.ofBytes, if_neg hN]
  rw [hloop, walk_screenH, spriteCells, Sprite.cells, hrows]
  refine List.flatMap_congr fun l _ => ?_
  rw [byteFlips_of_lt (beginX_lt X), Sprite.ofBytes_columns hN]

theorem flips_zero (X Y : Fin 16) : flips s 0 (beginX s X) (beginY s Y) =
    (placed (s.hasQuirk .wrapSprites) screenH 16 (beginY s Y)).flatMap fun l =>
      (doubleFlips s (beginX s X) l.1).map (·, l.2) := by
  rw [← walk_screenH]
  rfl

/-! ## The instruction -/

/-- The display and VF after `DxyN`. -/
theorem instructionDxyN_eq (hW : s.own.displayMap.width = screenW)
    (hH : s.own.displayMap.height = screenH) (X Y N : Fin 16) :
    (⟨(instructionDxyN s X Y N).own.displayMap, (instructionDxyN s X Y N).registersV 0xF⟩ :
      Canvas) = Canvas.flipAll 0x8 (flips s N (beginX s X) (beginY s Y)) ⟨s.own.displayMap, 0⟩ := by
  have hX : (s.registersV X).toNat &&& (screenW - 1) = beginX s X :=
    Nat.and_two_pow_sub_one_eq_mod _ 6
  have hY : (s.registersV Y).toNat &&& (screenH - 1) = beginY s Y :=
    Nat.and_two_pow_sub_one_eq_mod _ 5
  rw [← drawSprite_eq hW hH, ← hX, ← hY]
  exact congrArg (Canvas.mk _) (Function.update_self (0xF : Fin 16) _ s.registersV)

/-- Where the loops come by the right cells, the sprite is drawn. -/
theorem drawsOnScreen_of_eq (hW : s.own.displayMap.width = screenW)
    (hH : s.own.displayMap.height = screenH) {X Y N : Fin 16}
    (h : flips s N (beginX s X) (beginY s Y) = spriteCells s X Y N) : DrawsOnScreen s X Y N := by
  have hapart : Canvas.Apart s.own.displayMap (spriteCells s X Y N) :=
    Canvas.apart_cells hW hH (by decide) (by decide) _ _
  obtain ⟨hdisplay, hflag⟩ := Canvas.flipped_of_eq hapart (h ▸ instructionDxyN_eq hW hH X Y N)
  exact ⟨h ▸ Sprite.cells_lt (by decide) (by decide), hdisplay, hflag⟩

/-- A second byte that fits is drawn where it belongs. -/
theorem byteFlips_of_fits {X : Fin 16} {r : Nat} (h : SecondByteFits s (beginX s X) r) :
    byteFlips (s.hasQuirk .wrapSprites) (beginX s X + 8) (spriteByte s (2 * r + 1)) =
      Canvas.byteColumns (s.hasQuirk .wrapSprites) screenW (spriteByte s (2 * r + 1))
        (beginX s X + 8) := by
  have hlt := beginX_lt (s := s) X
  by_cases hX : beginX s X < 56
  · exact byteFlips_of_lt (by unfold screenW; omega) _
  rcases h with h | h | ⟨hwrap, hbit⟩
  · exact absurd h hX
  · rw [h, Canvas.byteColumns_zero]
    rfl
  · have hbehind : screenW ≤ beginX s X + 8 := by unfold screenW; omega
    have hmod : (beginX s X + 8 + 1) % screenW = beginX s X + 8 - 63 := by
      unfold screenW at hlt ⊢
      omega
    rw [hwrap, byteFlips_behind hbehind (by unfold screenW at hlt; omega), hbit, ← hmod,
      placed_mod (.inl rfl), Canvas.byteColumns_succ, hbit, if_neg Bool.false_ne_true,
      if_neg Bool.false_ne_true]

/-- **Bytes that fit.** -/
theorem drawsOnScreen_of_fit (hW : s.own.displayMap.width = screenW)
    (hH : s.own.displayMap.height = screenH) {X Y : Fin 16} (h : SecondBytesFit s X Y) :
    DrawsOnScreen s X Y 0 := by
  refine drawsOnScreen_of_eq hW hH ?_
  rw [flips_zero, spriteCells]
  refine List.flatMap_congr fun l hl => ?_
  obtain ⟨hr, hplace⟩ := mem_placed.1 hl
  have hon : s.hasQuirk .wrapSprites = true ∨ beginY s Y + l.1 < screenH := by
    unfold place at hplace
    split_ifs at hplace with hwrap hlt
    · exact .inl hwrap
    · exact .inr hlt
  rw [Sprite.ofBytes_zero_columns, doubleFlips, byteFlips_of_lt (beginX_lt X),
    byteFlips_of_fits (h l.1 hr hon)]

/-! ## Bytes that do not fit -/

theorem mem_byteFlips_behind (hX : screenW ≤ X) (hX' : X < 72) {q : Nat} :
    q ∈ byteFlips false X DATA ↔ (DATA.toNat.testBit 7 = true ∧ q = X) ∨
      ∃ b < 7, DATA.toNat.testBit (6 - b) = true ∧ q = X - 63 + b := by
  have hon (b : Nat) (hb : b < 7) : place false screenW (X - 63 + b) = some (X - 63 + b) :=
    place_of_lt (by unfold screenW; omega)
  rw [byteFlips_behind hX hX', List.mem_append]
  refine or_congr ?_ ?_
  · split
    · simp_all
    · simp_all
  · simp only [List.mem_map, List.mem_filter, mem_placed]
    constructor
    · rintro ⟨l, ⟨⟨hb, hq⟩, hbit⟩, rfl⟩
      rw [hon l.1 hb] at hq
      exact ⟨l.1, hb, hbit, (Option.some.inj hq).symm⟩
    · rintro ⟨b, hb, hbit, rfl⟩
      exact ⟨(b, X - 63 + b), ⟨⟨hb, hon b hb⟩, hbit⟩, rfl⟩

/-- A byte with a bit set, but not the first, has one set later. -/
theorem exists_later_bit (hDATA : DATA ≠ 0) (hbit : DATA.toNat.testBit 7 = false) :
    ∃ b < 7, DATA.toNat.testBit (6 - b) = true := by
  obtain ⟨i, hi⟩ := Nat.exists_testBit_of_ne_zero fun h => hDATA (UInt8.toNat_inj.1 h)
  have hlt : i < 7 := by
    by_contra hge
    have hne : i ≠ 7 := fun h => by rw [h, hbit] at hi; exact Bool.false_ne_true hi
    have hbyte : DATA.toNat < 2 ^ i :=
      DATA.toNat_lt.trans_le (Nat.pow_le_pow_right (by decide) (by omega))
    rw [Nat.testBit_lt_two_pow hbyte] at hi
    exact Bool.false_ne_true hi
  have hback : 6 - (6 - i) = i := by omega
  exact ⟨6 - i, by omega, hback.symm ▸ hi⟩

theorem nodup_byteFlips_behind (hX : screenW ≤ X) (hX' : X < 72) :
    (byteFlips false X DATA).Nodup := by
  have hrest : (((placed false screenW 7 (X - 63)).filter
      fun l => DATA.toNat.testBit (6 - l.1)).map (·.2)).Nodup :=
    List.pairwise_map.2 ((placed_pairwise (by decide)).filter _)
  rw [byteFlips_behind hX hX']
  split
  · refine List.nodup_append.2 ⟨List.nodup_singleton X, hrest, fun q hq q' hq' hne => ?_⟩
    obtain ⟨l, hl, rfl⟩ := List.mem_map.1 hq'
    have hlt := place_lt (by decide) (mem_placed.1 (List.mem_of_mem_filter hl)).2
    rw [← hne, List.mem_singleton.1 hq] at hlt
    exact Nat.not_lt.2 hX hlt
  · exact hrest

/-- Without wrapping, the columns of a row are different ones. -/
theorem nodup_doubleFlips (hwrap : s.hasQuirk .wrapSprites = false) {pX : Nat}
    (hX : 56 ≤ pX) (hX' : pX < screenW) (r : Nat) : (doubleFlips s pX r).Nodup := by
  have hbehind : screenW ≤ pX + 8 := by unfold screenW; omega
  have hbehind' : pX + 8 < 72 := by unfold screenW at hX'; omega
  rw [doubleFlips, hwrap, byteFlips_of_lt hX']
  refine List.nodup_append.2 ⟨Canvas.nodup_byteColumns (by decide) _,
    nodup_byteFlips_behind hbehind hbehind', fun q hq q' hq' hne => ?_⟩
  obtain ⟨b, -, -, hplace⟩ := Canvas.mem_byteColumns.1 hq
  have hq := place_false.1 hplace
  subst hne
  rcases (mem_byteFlips_behind hbehind hbehind').1 hq' with ⟨-, h⟩ | ⟨b', hb', -, h⟩
  · omega
  · unfold screenW at hq
    omega

/-- A second byte that does not fit is drawn where the sprite is not. -/
theorem not_drawsOnScreen (hW : s.own.displayMap.width = screenW)
    (hH : s.own.displayMap.height = screenH) {X Y : Fin 16} {r : Nat} (hr : r < 16)
    (hon : s.hasQuirk .wrapSprites = true ∨ beginY s Y + r < screenH)
    (hfit : ¬ SecondByteFits s (beginX s X) r) : ¬ DrawsOnScreen s X Y 0 := by
  intro hdraws
  obtain ⟨hX, hrest⟩ := not_or.1 hfit
  obtain ⟨hDATA, hwraps⟩ := not_or.1 hrest
  have hlt := beginX_lt (s := s) X
  have hbehind : screenW ≤ beginX s X + 8 := by unfold screenW; omega
  have hbehind' : beginX s X + 8 < 72 := by unfold screenW at hlt; omega
  obtain ⟨y, hy⟩ := exists_place hon
  have hflips : ∀ q ∈ byteFlips (s.hasQuirk .wrapSprites) (beginX s X + 8)
      (spriteByte s (2 * r + 1)), (q, y) ∈ flips s 0 (beginX s X) (beginY s Y) := by
    intro q hq
    rw [flips_zero]
    exact List.mem_flatMap.2 ⟨(r, y), mem_placed.2 ⟨hr, hy⟩,
      List.mem_map.2 ⟨q, List.mem_append_right _ hq, rfl⟩⟩
  cases hbit : (spriteByte s (2 * r + 1)).toNat.testBit 7 with
  | true =>
      -- the first bit is flipped behind the edge
      have hmem : beginX s X + 8 ∈ byteFlips (s.hasQuirk .wrapSprites) (beginX s X + 8)
          (spriteByte s (2 * r + 1)) := by
        rw [byteFlips_behind hbehind hbehind', if_pos hbit]
        exact List.mem_append_left _ (List.mem_singleton_self _)
      exact absurd (hdraws.access _ (hflips _ hmem)).1 (Nat.not_lt.2 hbehind)
  | false =>
      -- a later one is flipped at the left edge
      have hwrap : s.hasQuirk .wrapSprites = false :=
        Bool.eq_false_iff.2 fun hwrap => hwraps ⟨hwrap, hbit⟩
      obtain ⟨b, hb, hset⟩ := exists_later_bit hDATA hbit
      rw [hwrap] at hflips
      have hmem := hflips _ ((mem_byteFlips_behind hbehind hbehind').2 (.inr ⟨b, hb, hset, rfl⟩))
      have hapart : Canvas.Apart s.own.displayMap (flips s 0 (beginX s X) (beginY s Y)) := by
        refine ⟨?_, by rw [hW, hH]; exact hdraws.access⟩
        rw [flips_zero]
        exact Sprite.nodup_rows (placed_pairwise (by decide))
          (nodup_doubleFlips hwrap (Nat.not_lt.1 hX) hlt)
      have hon' := hapart.2 _ hmem
      have hflipped := (Canvas.flipped_of_eq hapart (instructionDxyN_eq hW hH X Y 0)).1.cell
        _ hon'.1 _ hon'.2
      rw [if_pos hmem, hdraws.display.cell _ hon'.1 _ hon'.2, if_neg ?_] at hflipped
      · exact Canvas.xor_ne (by decide) _ hflipped.symm
      · intro hcell
        obtain ⟨-, -, c, -, -, hplace, -⟩ := Sprite.mem_cells.1 hcell
        rw [hwrap] at hplace
        have := place_false.1 hplace
        omega

/-- **Where `DxyN` stays on the screen.** -/
theorem drawsOnScreen_iff (s : Chip8Modern) (X Y N : Fin 16)
    (hW : s.own.displayMap.width = screenW) (hH : s.own.displayMap.height = screenH) :
    DrawsOnScreen s X Y N ↔ N ≠ 0 ∨ SecondBytesFit s X Y := by
  refine ⟨fun hdraws => ?_, fun h => ?_⟩
  · by_cases hN : N = 0
    · subst hN
      refine .inr fun r hr hon => ?_
      by_contra hfit
      exact not_drawsOnScreen hW hH hr hon hfit hdraws
    · exact .inl hN
  · by_cases hN : N = 0
    · subst hN
      exact drawsOnScreen_of_fit hW hH (h.resolve_left fun h => h rfl)
    · exact drawsOnScreen_of_eq hW hH (flips_eq_cells hN X Y)

/-! ## A 16x16 sprite at the right edge -/

/-- A blank display, all ones in memory, and VX at 60. -/
def rightEdge : Chip8Modern :=
  { construct (Launch.ofProgram []) with
    registersV := fun i => if i = 0 then 60 else 0
    memory := ⟨fun _ => 0xFF⟩ }

/-- `D010` there flips column 68 of each row. -/
theorem not_drawsOnScreen_rightEdge :
    (rightEdge.own.displayMap.width = screenW ∧ rightEdge.own.displayMap.height = screenH) ∧
      ¬ DrawsOnScreen rightEdge 0 1 0 := by
  have hfit : ¬ SecondByteFits rightEdge (beginX rightEdge 0) 0 := by
    rintro (h | h | ⟨-, h⟩)
    · exact absurd h (by decide)
    · exact absurd h (by decide)
    · exact absurd h (by decide)
  exact ⟨⟨rfl, rfl⟩, not_drawsOnScreen rfl rfl (by decide) (.inr (by decide)) hfit⟩

/-- The same sprite at the left edge. -/
theorem drawsOnScreen_iff_rightEdge : DrawsOnScreen rightEdge 1 1 0 ↔
    (0 : Fin 16) ≠ 0 ∨ SecondBytesFit rightEdge 1 1 :=
  drawsOnScreen_iff rightEdge 1 1 0 rfl rfl

end Chip8Modern

end CubeChip
