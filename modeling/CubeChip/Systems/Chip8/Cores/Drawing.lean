import CubeChip.Systems.Chip8.Cores.Chip8E
import CubeChip.Systems.Chip8.Cores.Chip8X.Background
import CubeChip.Systems.Chip8.Cores.Chip8Modern.OnScreen
import CubeChip.Systems.Chip8.Cores.SchipModern
import CubeChip.Systems.Chip8.Cores.Xochip.Planes

/-!
# Cores that draw alike

`CHIP8_MODERN`, `CHIP8E` and `CHIP8X` have each their own loops for the same 64x32 display, and
`SCHIP_MODERN` and `XOCHIP` light different bits of a cell. Each of them flips the cells of the
sprite (`Flipped`), so that displays lit in the same cells stay lit in the same cells.
-/

namespace CubeChip

/-! ## Displays lit alike -/

/-- A bit that can be lit: all or nothing of it is set. -/
def SingleBit (lit : UInt8) : Prop := lit ≠ 0 ∧ ∀ v : UInt8, v &&& lit = 0 ∨ v &&& lit = lit

/-- A power of two has one bit. -/
theorem singleBit_of_toNat {lit : UInt8} {k : Nat} (h : lit.toNat = 2 ^ k) : SingleBit lit := by
  refine ⟨fun hzero => ?_, fun v => ?_⟩
  · rw [hzero] at h
    exact absurd h.symm (Nat.two_pow_pos k).ne'
  · have hand : (v &&& lit).toNat = (v.toNat.testBit k).toNat * 2 ^ k := by
      rw [UInt8.toNat_and, h, Nat.and_two_pow]
    cases hbit : v.toNat.testBit k with
    | true => exact .inr (UInt8.toNat_inj.1 (by rw [hand, hbit, h, Bool.toNat_true, Nat.one_mul]))
    | false =>
        exact .inl (UInt8.toNat_inj.1 (by rw [hand, hbit, Bool.toNat_false, Nat.zero_mul]; rfl))

theorem singleBit_8 : SingleBit 0x8 := singleBit_of_toNat (k := 3) rfl

theorem singleBit_1 : SingleBit 1 := singleBit_of_toNat (k := 0) rfl

/-- Two displays of the same size are lit in the same cells, each in its own bit. -/
structure LitAlike (lit lit' : UInt8) (m m' : Map2D UInt8) : Prop where
  size : Map2D.SameSize m m'
  lit : ∀ X < m.width, ∀ Y < m.height, m.at2 X Y &&& lit = lit ↔ m'.at2 X Y &&& lit' = lit'

/-- Flipping a bit turns it off or on. -/
theorem SingleBit.xor_and {lit : UInt8} (h : SingleBit lit) (v : UInt8) :
    (v ^^^ lit) &&& lit = lit ↔ ¬ v &&& lit = lit := by
  refine Iff.trans ?_ (not_congr (Canvas.xor_and_eq_zero_iff v))
  rcases h.2 (v ^^^ lit) with hzero | hset
  · rw [hzero]
    exact ⟨fun hlit => absurd hlit.symm h.1, fun hne => absurd rfl hne⟩
  · rw [hset]
    exact ⟨fun _ => h.1, fun _ => rfl⟩

variable {lit lit' : UInt8} {cells : List (Nat × Nat)} {m m' n n' : Map2D UInt8}

/-- **Displays stay alike** if the same cells are flipped. -/
theorem LitAlike.flipped (h : LitAlike lit lit' m n) (hlit : SingleBit lit)
    (hlit' : SingleBit lit') (hm : Flipped lit cells m m') (hn : Flipped lit' cells n n') :
    LitAlike lit lit' m' n' := by
  refine ⟨hm.size.trans (h.size.trans ⟨hn.size.1.symm, hn.size.2.symm⟩), fun X hX Y hY => ?_⟩
  rw [Map2D.width, hm.size.1] at hX
  rw [Map2D.height, hm.size.2] at hY
  have hX' : X < n.width := hX.trans_eq h.size.1
  have hY' : Y < n.height := hY.trans_eq h.size.2
  rw [hm.cell X hX Y hY, hn.cell X hX' Y hY']
  split
  · rw [hlit.xor_and, hlit'.xor_and, h.lit X hX Y hY]
  · exact h.lit X hX Y hY

/-- And a lit cell is turned off in both or in none. -/
theorem LitAlike.turnsOff_iff (h : LitAlike lit lit' m n) (hcells : Canvas.Apart m cells) :
    TurnsOff lit cells m ↔ TurnsOff lit' cells n :=
  exists_congr fun p => and_congr_right fun hp =>
    h.lit p.1 (hcells.2 p hp).1 p.2 (hcells.2 p hp).2

/-! ## 64x32 displays -/

namespace Chip8X

variable {c : Canvas} {s : Chip8X}

/-- A loop that stops at the last column is the shared one without wrapping. -/
theorem drawBits_eq (hW : c.map.width = screenW) (Y : Nat) (DATA : UInt8) (n B : Nat) {X : Nat}
    (hX : X < screenW) : drawBits Y DATA n B X c = Canvas.drawBits false 0x8 Y DATA n B X c := by
  induction n generalizing B X c with
  | zero => rfl
  | succ n ih =>
      have hsize := Canvas.sameSize_flip (DATA.toNat.testBit (7 - B)) 0x8 X Y c
      rw [drawBits, Canvas.drawBits]
      generalize (if DATA.toNat.testBit (7 - B) then c.flip 0x8 X Y else c) = c' at hsize ⊢
      have hW' : c'.map.width = screenW := hsize.1.trans hW
      simp only [hW']
      by_cases hedge : X + 1 = screenW
      · have hlast : (X == screenW - 1) = true := beq_iff_eq.2 (by omega)
        rw [if_pos hedge, hlast]
        rfl
      · have hlast : (X == screenW - 1) = false := beq_false_of_ne (by omega)
        have hlt : X + 1 < 2 ^ 6 := by
          unfold screenW at hX hedge
          omega
        have hnext : (X + 1) &&& (screenW - 1) = X + 1 :=
          (Nat.and_two_pow_sub_one_eq_mod _ 6).trans (Nat.mod_eq_of_lt hlt)
        rw [if_neg hedge, hlast, if_neg (by decide), hnext]
        exact ih hW' _ (by omega)

/-- `draw_byte`, from a column of the screen on. -/
theorem drawByte_eq (hW : c.map.width = screenW) {X : Nat} (hX : X < screenW) (Y : Nat)
    (DATA : UInt8) : drawByte X Y DATA c =
      c.flipAll 0x8 ((Canvas.byteColumns false screenW DATA X).map (·, Y)) := by
  unfold drawByte
  split
  · rename_i hzero
    rw [hzero, Canvas.byteColumns_zero]
    rfl
  · split
    · rename_i hfirst
      rw [hfirst, Canvas.byteColumns_first, place_of_lt hX]
      rfl
    · rw [drawBits_eq hW Y DATA 8 0 hX,
        Canvas.drawBits_eq_columns (hW.trans (show screenW = 2 ^ 6 from rfl)) (hW ▸ hX), hW]

end Chip8X

/-- A loop over the rows that stops at the last one is the shared one without wrapping. -/
theorem drawRows_eq_shared {size e W : Nat} (hsize : size = 2 ^ e)
    {drawRow : Nat → Nat → Canvas → Canvas} {loop : Nat → Nat → Nat → Canvas → Canvas}
    (hzero : ∀ H pY c, loop 0 H pY c = c)
    (hsucc : ∀ n H pY c, loop (n + 1) H pY c =
      if pY + 1 = size then drawRow H pY c else loop n (H + 1) (pY + 1) (drawRow H pY c))
    (hrow : ∀ H pY c, c.map.width = W → Map2D.SameSize (drawRow H pY c).map c.map) (n H : Nat)
    {pY : Nat} (hY : pY < size) {c : Canvas} (hW : c.map.width = W) (hH : c.map.height = size) :
    loop n H pY c = Canvas.drawRows false drawRow n H pY c := by
  induction n generalizing H pY c with
  | zero => exact hzero H pY c
  | succ n ih =>
      have hsame := hrow H pY c hW
      have hH' : (drawRow H pY c).map.height = size := hsame.2.trans hH
      rw [hsucc, Canvas.drawRows, hH']
      by_cases hedge : pY + 1 = size
      · have hlast : (pY == size - 1) = true := beq_iff_eq.2 (by omega)
        rw [if_pos hedge, hlast]
        rfl
      · have hlast : (pY == size - 1) = false := beq_false_of_ne (by omega)
        have hlt : pY + 1 < size := by omega
        have hnext : (pY + 1) &&& (size - 1) = pY + 1 := by
          rw [hsize, Nat.and_two_pow_sub_one_eq_mod, ← hsize, Nat.mod_eq_of_lt hlt]
        rw [if_neg hedge, hlast, if_neg (by decide), hnext]
        exact ih _ hlt (hsame.1.trans hW) hH'

namespace Chip8X

variable {c : Canvas}

/-- The loop over the rows of a sprite flips the cells of the sprite. -/
theorem loop_eq_cells {N : Fin 16} (hN : N ≠ 0) {byteAt : Nat → UInt8} {pX pY : Nat}
    (loop : Nat → Nat → Nat → Canvas → Canvas) (hzero : ∀ H pY c, loop 0 H pY c = c)
    (hsucc : ∀ n H pY c, loop (n + 1) H pY c =
      if pY + 1 = screenH then drawByte pX pY (byteAt H) c
      else loop n (H + 1) (pY + 1) (drawByte pX pY (byteAt H) c))
    (hX : pX < screenW) (hY : pY < screenH) (hW : c.map.width = screenW)
    (hH : c.map.height = screenH) :
    loop N.val 0 pY c =
      c.flipAll 0x8 ((Sprite.ofBytes N byteAt).cells false screenW screenH pX pY) := by
  rw [drawRows_eq_shared (show screenH = 2 ^ 5 from rfl) hzero hsucc
      (fun _ _ _ _ => sameSize_drawByte ..) N.val 0 hY hW hH,
    Canvas.drawRows_bytes hN (fun Y DATA c hW => drawByte_eq hW hX Y DATA) hW
      (hH.trans (show screenH = 2 ^ 5 from rfl)) (hH ▸ hY), hH]

/-- A byte of the sprite. -/
def spriteByte (s : Chip8X) (offset : Nat) : UInt8 :=
  s.memory.get (s.registerI + UInt32.ofNat offset)

/-- A sprite of some rows is drawn row by row. -/
theorem drawSprite_eq_rows {s : Chip8X} {N : Fin 16} (hN : N ≠ 0) (pX pY : Nat) (c : Canvas) :
    drawSprite s N pX pY c = drawRows s pX N.val 0 pY c := by
  unfold drawSprite
  split
  · rename_i h0
    exact absurd (Fin.ext h0) hN
  · rename_i h1
    rw [h1, drawRows, show UInt32.ofNat 0 = 0 from rfl, UInt32.add_zero]
    split <;> rfl
  · rfl

end Chip8X

namespace Chip8E

/-- A byte of the sprite. -/
def spriteByte (s : Chip8E) (offset : Nat) : UInt8 :=
  s.memory.get (s.registerI + UInt32.ofNat offset)

/-- A sprite of some rows is drawn row by row. -/
theorem drawSprite_eq_rows {s : Chip8E} {N : Fin 16} (hN : N ≠ 0) (pX pY : Nat) (c : Canvas) :
    drawSprite s N pX pY c = drawRows s pX N.val 0 pY c := by
  unfold drawSprite
  split
  · rename_i h0
    exact absurd (Fin.ext h0) hN
  · rename_i h1
    rw [h1, drawRows, show UInt32.ofNat 0 = 0 from rfl, UInt32.add_zero]
    split <;> rfl
  · rfl

end Chip8E

/-! ## What `DxyN` shows -/

/-- The cells of the sprite of `DxyN` on a display. -/
def shownCells (wrap : Bool) (byteAt : Nat → UInt8) (VX VY : UInt8) (N : Fin 16)
    (m : Map2D UInt8) : List (Nat × Nat) :=
  (Sprite.ofBytes N byteAt).cells wrap m.width m.height (VX.toNat % m.width)
    (VY.toNat % m.height)

/-- `DxyN` flips the cells of its sprite, and VF says whether it turned one off. -/
structure Shows (lit : UInt8) (wrap : Bool) (byteAt : Nat → UInt8) (VX VY : UInt8) (N : Fin 16)
    (m m' : Map2D UInt8) (VF : UInt8) : Prop where
  display : Flipped lit (shownCells wrap byteAt VX VY N m) m m'
  flag : VF = if TurnsOff lit (shownCells wrap byteAt VX VY N m) m then 1 else 0

section
variable {wrap : Bool} {byteAt byteAt' : Nat → UInt8} {VX VY VF VF' : UInt8} {N : Fin 16}

theorem Shows.of_flipAll (hW : 16 ≤ m.width) (hH : 16 ≤ m.height)
    (h : (⟨m', VF⟩ : Canvas) = Canvas.flipAll lit (shownCells wrap byteAt VX VY N m) ⟨m, 0⟩) :
    Shows lit wrap byteAt VX VY N m m' VF := by
  obtain ⟨hdisplay, hflag⟩ := Canvas.flipped_of_eq (Canvas.apart_cells rfl rfl hW hH _ _) h
  exact ⟨hdisplay, hflag⟩

/-- **Displays lit alike stay so** under the same sprite, and VF is the same. -/
theorem Shows.alike (h : LitAlike lit lit' m n) (hlit : SingleBit lit) (hlit' : SingleBit lit')
    (hW : 16 ≤ m.width) (hH : 16 ≤ m.height)
    (hbytes : ∀ k < Sprite.byteCount N, byteAt k = byteAt' k)
    (hm : Shows lit wrap byteAt VX VY N m m' VF) (hn : Shows lit' wrap byteAt' VX VY N n n' VF') :
    LitAlike lit lit' m' n' ∧ VF = VF' := by
  have hcells : shownCells wrap byteAt' VX VY N n = shownCells wrap byteAt VX VY N m := by
    have hwidth : n.width = m.width := h.size.1.symm
    have hheight : n.height = m.height := h.size.2.symm
    rw [shownCells, hwidth, hheight, ← Sprite.cells_congr hbytes, shownCells]
  obtain ⟨hdisplay, hflag⟩ := hn
  rw [hcells] at hdisplay hflag
  refine ⟨h.flipped hlit hlit' hm.display hdisplay, ?_⟩
  rw [hm.flag, hflag]
  exact if_congr (h.turnsOff_iff (Canvas.apart_cells rfl rfl hW hH _ _)) rfl rfl

end

/-! ## The 64x32 cores -/

variable {X Y N : Fin 16}

/-- What the loop over the rows of `CHIP8X` and `CHIP8E` draws is the sprite. -/
theorem Shows.of_loop {byteAt : Nat → UInt8} {VX VY VF : UInt8} (hN : N ≠ 0) (hW : m.width = 64)
    (hH : m.height = 32) (loop : Nat → Nat → Nat → Canvas → Canvas)
    (hzero : ∀ H pY c, loop 0 H pY c = c)
    (hsucc : ∀ n H pY c, loop (n + 1) H pY c =
      if pY + 1 = 32 then Chip8X.drawByte (VX.toNat &&& 63) pY (byteAt H) c
      else loop n (H + 1) (pY + 1) (Chip8X.drawByte (VX.toNat &&& 63) pY (byteAt H) c))
    (h : (⟨m', VF⟩ : Canvas) = loop N.val 0 (VY.toNat &&& 31) ⟨m, 0⟩) :
    Shows 0x8 false byteAt VX VY N m m' VF := by
  have hX : VX.toNat &&& 63 = VX.toNat % 64 := Nat.and_two_pow_sub_one_eq_mod _ 6
  have hY : VY.toNat &&& 31 = VY.toNat % 32 := Nat.and_two_pow_sub_one_eq_mod _ 5
  refine .of_flipAll (by omega) (by omega) (h.trans ?_)
  rw [shownCells, hW, hH, ← hX, ← hY]
  exact Chip8X.loop_eq_cells hN loop hzero hsucc (hX ▸ Nat.mod_lt _ (by decide))
    (hY ▸ Nat.mod_lt _ (by decide)) hW hH

/-- CHIP-8X clips its sprites. -/
theorem Chip8X.shows {s : Chip8X} (hN : N ≠ 0) (hW : s.own.displayMap.width = 64)
    (hH : s.own.displayMap.height = 32) :
    Shows 0x8 false (spriteByte s) (s.registersV X) (s.registersV Y) N s.own.displayMap
      (instructionDxyN s X Y N).own.displayMap ((instructionDxyN s X Y N).registersV 0xF) := by
  refine .of_loop hN hW hH (drawRows s _) (fun _ _ _ => rfl) (fun _ _ _ _ => rfl) ?_
  rw [← drawSprite_eq_rows hN]
  exact congrArg (Canvas.mk _) (Function.update_self (0xF : Fin 16) _ s.registersV)

/-- So does CHIP-8E, -/
theorem Chip8E.shows {s : Chip8E} (hN : N ≠ 0) (hW : s.own.displayMap.width = 64)
    (hH : s.own.displayMap.height = 32) :
    Shows 0x8 false (spriteByte s) (s.registersV X) (s.registersV Y) N s.own.displayMap
      (instructionDxyN s X Y N).own.displayMap ((instructionDxyN s X Y N).registersV 0xF) := by
  refine .of_loop hN hW hH (drawRows s _) (fun _ _ _ => rfl) (fun _ _ _ _ => rfl) ?_
  rw [← drawSprite_eq_rows hN]
  exact congrArg (Canvas.mk _) (Function.update_self (0xF : Fin 16) _ s.registersV)

/-- and CHIP-8 without the quirk that wraps them. -/
theorem Chip8Modern.shows {s : Chip8Modern} (hN : N ≠ 0)
    (hwrap : s.hasQuirk .wrapSprites = false) (hW : s.own.displayMap.width = 64)
    (hH : s.own.displayMap.height = 32) :
    Shows 0x8 false (spriteByte s) (s.registersV X) (s.registersV Y) N s.own.displayMap
      (instructionDxyN s X Y N).own.displayMap ((instructionDxyN s X Y N).registersV 0xF) := by
  have hdraws := drawsOnScreen_of_eq hW hH (flips_eq_cells hN X Y)
  have hcells : spriteCells s X Y N = shownCells false (spriteByte s) (s.registersV X)
      (s.registersV Y) N s.own.displayMap := by
    rw [spriteCells, shownCells, hwrap, hW, hH]
    rfl
  exact ⟨hcells ▸ hdraws.display, hcells ▸ hdraws.flag⟩

/-- The three cores before the same `DxyN`: the displays are lit in the same cells, and the sprite
has the same bytes and the same place. -/
structure Same64x32 (s : Chip8Modern) (t : Chip8E) (u : Chip8X) (X Y N : Fin 16) : Prop where
  size : s.own.displayMap.width = 64 ∧ s.own.displayMap.height = 32
  display : LitAlike 0x8 0x8 s.own.displayMap t.own.displayMap ∧
    LitAlike 0x8 0x8 s.own.displayMap u.own.displayMap
  VX : s.registersV X = t.registersV X ∧ s.registersV X = u.registersV X
  VY : s.registersV Y = t.registersV Y ∧ s.registersV Y = u.registersV Y
  bytes : ∀ k < N.val, Chip8Modern.spriteByte s k = Chip8E.spriteByte t k ∧
    Chip8Modern.spriteByte s k = Chip8X.spriteByte u k

/-- The three cores after it: lit in the same cells, and with the same VF. -/
structure Alike64x32 (s : Chip8Modern) (t : Chip8E) (u : Chip8X) (X Y N : Fin 16) : Prop where
  asChip8E :
    LitAlike 0x8 0x8 (s.instructionDxyN X Y N).own.displayMap
        (t.instructionDxyN X Y N).own.displayMap ∧
      (s.instructionDxyN X Y N).registersV 0xF = (t.instructionDxyN X Y N).registersV 0xF
  asChip8X :
    LitAlike 0x8 0x8 (s.instructionDxyN X Y N).own.displayMap
        (u.instructionDxyN X Y N).own.displayMap ∧
      (s.instructionDxyN X Y N).registersV 0xF = (u.instructionDxyN X Y N).registersV 0xF

/-- **64x32 cores draw alike.** -/
theorem instructionDxyN_alike (s : Chip8Modern) (t : Chip8E) (u : Chip8X) (X Y N : Fin 16)
    (hN : 1 ≤ N.val) (hwrap : s.hasQuirk .wrapSprites = false) (h : Same64x32 s t u X Y N) :
    Alike64x32 s t u X Y N := by
  have hN' : N ≠ 0 := fun hzero => by
    rw [hzero] at hN
    exact absurd hN (by decide)
  have hcount : Sprite.byteCount N = N.val := if_neg hN'
  obtain ⟨hW, hH⟩ := h.size
  obtain ⟨hE, hX⟩ := h.display
  have hs := Chip8Modern.shows (X := X) (Y := Y) hN' hwrap hW hH
  have ht := Chip8E.shows (X := X) (Y := Y) hN' (hE.size.1.symm.trans hW) (hE.size.2.symm.trans hH)
  have hu := Chip8X.shows (X := X) (Y := Y) hN' (hX.size.1.symm.trans hW) (hX.size.2.symm.trans hH)
  rw [← h.VX.1, ← h.VY.1] at ht
  rw [← h.VX.2, ← h.VY.2] at hu
  exact ⟨hs.alike hE singleBit_8 singleBit_8 (by omega) (by omega)
      (fun k hk => (h.bytes k (hcount ▸ hk)).1) ht,
    hs.alike hX singleBit_8 singleBit_8 (by omega) (by omega)
      (fun k hk => (h.bytes k (hcount ▸ hk)).2) hu⟩

/-- The digit 0 of the font on the display, and I at the digit 1. -/
def Chip8Modern.digit : Chip8Modern :=
  (instructionDxyN (boot (.ofProgram [])) 0 0 5).onCpu (.instructionANNN 5)

/-- The same on CHIP-8E. -/
def Chip8E.digit : Chip8E :=
  (instructionDxyN (boot (.ofProgram [])) 0 0 5).onCpu (.instructionANNN 5)

/-- The same on CHIP-8X. -/
def Chip8X.digit : Chip8X :=
  (instructionDxyN (boot (.ofProgram [])) 0 0 5).onCpu (.instructionANNN 5)

/-- The digit 1 in the place of the digit 0 clears cells and sets others. -/
theorem instructionDxyN_alike_digits :
    Alike64x32 .digit .digit .digit 0 0 5 ∧
      Chip8Modern.digit.own.displayMap.at2 1 0 = 8 ∧
      (Chip8Modern.digit.instructionDxyN 0 0 5).own.displayMap.at2 1 0 = 0 ∧
      Chip8Modern.digit.own.displayMap.at2 1 1 = 0 ∧
      (Chip8Modern.digit.instructionDxyN 0 0 5).own.displayMap.at2 1 1 = 8 := by
  have hzero := instructionDxyN_alike (.boot (.ofProgram [])) (.boot (.ofProgram []))
    (.boot (.ofProgram [])) 0 0 5 (by decide) rfl
    { size := ⟨rfl, rfl⟩
      display := ⟨⟨⟨rfl, rfl⟩, fun _ _ _ _ => Iff.rfl⟩, ⟨rfl, rfl⟩, fun _ _ _ _ => Iff.rfl⟩
      VX := ⟨rfl, rfl⟩
      VY := ⟨rfl, rfl⟩
      bytes := by decide +kernel }
  refine ⟨instructionDxyN_alike .digit .digit .digit 0 0 5 (by decide) (by decide +kernel) ?_,
    by decide +kernel⟩
  exact
    { size := by decide +kernel
      display := ⟨hzero.asChip8E.1, hzero.asChip8X.1⟩
      VX := by decide +kernel
      VY := by decide +kernel
      bytes := by decide +kernel }

/-! ## `SCHIP_MODERN` and `XOCHIP` -/

namespace SchipModern

variable {s : SchipModern} {c : Canvas} {e e' pX pY : Nat}

/-- The `switch` of `DxyN`, on a display of a power of two columns and rows. -/
theorem drawSprite_eq (hW : c.map.width = 2 ^ e) (hH : c.map.height = 2 ^ e')
    (hY : pY < c.map.height) : drawSprite s N pX pY c = c.flipAll 0x8
      ((Sprite.ofBytes N (spriteByte s)).cells (s.hasQuirk .wrapSprites) c.map.width
        c.map.height pX pY) := by
  have hbyte : ∀ X Y DATA (c' : Canvas), c'.map.width = c.map.width →
      drawByte s X Y DATA c' = c'.flipAll 0x8
        ((Canvas.byteColumns (s.hasQuirk .wrapSprites) c.map.width DATA X).map (·, Y)) :=
    fun X Y DATA c' h => by rw [drawByte, Canvas.drawByte_eq (h.trans hW), h]
  by_cases hN : N = 0
  · subst hN
    exact Canvas.drawRows_doubleBytes (hbyte pX) (hbyte (pX + 8)) rfl hH hY
  · have hrows : drawSprite s N pX pY c = Canvas.drawRows (s.hasQuirk .wrapSprites)
        (fun row Y c => drawByte s pX Y (spriteByte s row) c) N.val 0 pY c := by
      unfold drawSprite
      split
      · rename_i h1
        rw [h1, Canvas.drawRows_one]
      · rename_i h0
        exact absurd (Fin.ext h0) hN
      · rfl
    rw [hrows]
    exact Canvas.drawRows_bytes hN (hbyte pX) rfl hH hY

/-- SCHIP_MODERN clips or wraps, as its quirk says, in both resolutions. -/
theorem shows (hW : s.own.displayMap.width = 2 ^ e) (hH : s.own.displayMap.height = 2 ^ e')
    (he : 16 ≤ 2 ^ e) (he' : 16 ≤ 2 ^ e') :
    Shows 0x8 (s.hasQuirk .wrapSprites) (spriteByte s) (s.registersV X) (s.registersV Y) N
      s.own.displayMap (instructionDxyN s X Y N).own.displayMap
      ((instructionDxyN s X Y N).registersV 0xF) := by
  have hX : (s.registersV X).toNat &&& (s.own.displayMap.width - 1) =
      (s.registersV X).toNat % s.own.displayMap.width := by
    rw [hW, Nat.and_two_pow_sub_one_eq_mod]
  have hY : (s.registersV Y).toNat &&& (s.own.displayMap.height - 1) =
      (s.registersV Y).toNat % s.own.displayMap.height := by
    rw [hH, Nat.and_two_pow_sub_one_eq_mod]
  have hlt : (s.registersV Y).toNat &&& (s.own.displayMap.height - 1) <
      s.own.displayMap.height := by
    rw [hY, hH]
    exact Nat.mod_lt _ (Nat.two_pow_pos e')
  refine .of_flipAll (hW ▸ he) (hH ▸ he') ?_
  rw [shownCells, ← hX, ← hY]
  refine Eq.trans ?_ (drawSprite_eq (c := ⟨s.own.displayMap, 0⟩) hW hH hlt)
  exact congrArg (Canvas.mk _) (Function.update_self (0xF : Fin 16) _ s.registersV)

end SchipModern

/-- With mask 1, `DxyN` of `XOCHIP` shows one sprite on plane 0. -/
theorem Xochip.shows {s : Xochip} (hmask : s.own.planeMask = 1)
    (hsize : OneResolution s.own.displayMap) :
    Shows 1 (s.hasQuirk .wrapSprites) (fun k => spriteByte s (UInt32.ofNat k))
      (s.registersV X) (s.registersV Y) N (s.own.displayMap 0)
      ((instructionDxyN s X Y N).own.displayMap 0) ((instructionDxyN s X Y N).registersV 0xF) := by
  have hbytes : (fun k => spriteByte s (UInt32.ofNat k)) = planeByte s N 0 := by
    funext k
    have hbyte := spriteByte_eq s (N := N) (k := 0) rfl k
    rw [show UInt32.ofNat 0 = 0 from rfl, UInt32.zero_mul, UInt32.zero_add] at hbyte
    exact hbyte
  have hselects : ∀ P, selects s.own.planeMask P = true ↔ P = 0 := by
    rw [hmask]
    decide
  have hrank : rank s.own.planeMask 0 = 0 := by
    rw [hmask]
    decide
  have hcells : planeCells s X Y N 0 = shownCells (s.hasQuirk .wrapSprites)
      (fun k => spriteByte s (UInt32.ofNat k)) (s.registersV X) (s.registersV Y) N
      (s.own.displayMap 0) := by
    rw [planeCells, cellsAt, hrank, shownCells, hbytes]
  refine ⟨?_, ?_⟩
  · rw [displayMap_instructionDxyN hsize, if_pos ((hselects 0).2 rfl), ← hcells]
    exact Canvas.flipped_flipAll (c := ⟨s.own.displayMap 0, 0⟩) (hsize.apart 0)
  · rw [VF_instructionDxyN hsize, ← hcells]
    refine if_congr ?_ rfl rfl
    simp only [hselects, exists_eq_left]

/-- **`SCHIP_MODERN` and `XOCHIP` draw alike** on displays of either resolution that are lit in
the same cells. -/
theorem SchipModern.instructionDxyN_asXochip (s : SchipModern) (t : Xochip) (X Y N : Fin 16)
    (hmask : t.own.planeMask = 1) (hsize : Xochip.OneResolution t.own.displayMap)
    (hdisplay : LitAlike 0x8 1 s.own.displayMap (t.own.displayMap 0))
    (hX : s.registersV X = t.registersV X) (hY : s.registersV Y = t.registersV Y)
    (hwrap : s.hasQuirk .wrapSprites = t.hasQuirk .wrapSprites)
    (hbytes : ∀ k < Sprite.byteCount N,
      spriteByte s k = Xochip.spriteByte t (UInt32.ofNat k)) :
    LitAlike 0x8 1 (instructionDxyN s X Y N).own.displayMap
        ((Xochip.instructionDxyN t X Y N).own.displayMap 0) ∧
      (instructionDxyN s X Y N).registersV 0xF =
        (Xochip.instructionDxyN t X Y N).registersV 0xF := by
  obtain ⟨e, e', he, he', hplanes⟩ := hsize.spec
  have hW : s.own.displayMap.width = 2 ^ e := hdisplay.size.1.trans (hplanes 0).1
  have hH : s.own.displayMap.height = 2 ^ e' := hdisplay.size.2.trans (hplanes 0).2
  have hs := shows (X := X) (Y := Y) (N := N) hW hH he he'
  have ht := Xochip.shows (X := X) (Y := Y) (N := N) hmask hsize
  rw [← hX, ← hY, ← hwrap] at ht
  exact hs.alike hdisplay singleBit_8 singleBit_1 (hW ▸ he) (hH ▸ he') hbytes ht

/-- The font as a sprite of 16 rows and columns, and I at its next byte. -/
def SchipModern.digits : SchipModern :=
  (instructionDxyN (boot (.ofProgram [])) 0 0 0).onCpu (.instructionANNN 1)

def Xochip.digits : Xochip :=
  (instructionDxyN (boot (.ofProgram [])) 0 0 0).onCpu (.instructionANNN 1)

/-- The sprite one byte on, in the same place, clears cells and sets others. -/
theorem SchipModern.instructionDxyN_asXochip_digits :
    (LitAlike 0x8 1 (instructionDxyN digits 0 0 0).own.displayMap
        ((Xochip.instructionDxyN .digits 0 0 0).own.displayMap 0) ∧
      (instructionDxyN digits 0 0 0).registersV 0xF =
        (Xochip.instructionDxyN .digits 0 0 0).registersV 0xF) ∧
      digits.own.displayMap.at2 2 0 = 8 ∧
      (instructionDxyN digits 0 0 0).own.displayMap.at2 2 0 = 0 ∧
      digits.own.displayMap.at2 0 0 = 0 ∧
      (instructionDxyN digits 0 0 0).own.displayMap.at2 0 0 = 8 := by
  have hone : Xochip.OneResolution Xochip.digits.own.displayMap :=
    ⟨_, _, .head _, by decide +kernel⟩
  obtain ⟨hdisplay, -⟩ := instructionDxyN_asXochip (.boot (.ofProgram []))
    (.boot (.ofProgram [])) 0 0 0 rfl ⟨_, _, .head _, fun _ => ⟨rfl, rfl⟩⟩
    ⟨⟨rfl, rfl⟩, fun _ _ _ _ => ⟨fun h => absurd h (show ¬(0 : UInt8) &&& 0x8 = 0x8 by decide),
      fun h => absurd h (show ¬(0 : UInt8) &&& 1 = 1 by decide)⟩⟩ rfl rfl rfl (by decide +kernel)
  exact ⟨instructionDxyN_asXochip digits .digits 0 0 0 (by decide +kernel) hone hdisplay
    (by decide +kernel) (by decide +kernel) (by decide +kernel) (by decide +kernel),
    by decide +kernel⟩

end CubeChip
