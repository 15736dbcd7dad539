import CubeChip.Systems.Chip8.Draw
import CubeChip.Systems.Chip8.Restart

/-!
# What the cells of a display hold

`push_video_data` uses the cells of a display as indices into tables. What bounds them is a
property of single cells that scrolling, clearing and drawing keep: a scroll moves cells and
fills in a value, and drawing flips a bit of them. `Map2D.Every` is the property of all cells,
also of those behind the last one, which a resize may bring back.
-/

namespace CubeChip

namespace Map2D

variable {α : Type*} {P : α → Prop} {m : Map2D α}

/-- Every cell of the buffer satisfies `P`. -/
def Every (P : α → Prop) (m : Map2D α) : Prop := ∀ i, P (m.data i)

/-- A range filled with a value that has the property. -/
theorem every_fillRange {data : Nat → α} (h : ∀ i, P (data i)) {value : α} (hvalue : P value)
    (first last : Nat) (i : Nat) : P (fillRange data first last value i) := by
  unfold fillRange
  split
  · exact hvalue
  · exact h i

/-- A rotation permutes cells. -/
theorem every_rotateRange {data : Nat → α} (h : ∀ i, P (data i)) (first middle last : Nat)
    (i : Nat) : P (rotateRange data first middle last i) := by
  unfold rotateRange
  split
  · exact h _
  · exact h i

/-- A fill leaves the value everywhere. -/
theorem Every.fill (h : Every P m) {value : α} (hvalue : P value) : Every P (m.fill value) :=
  every_fillRange h hvalue 0 m.size

/-- A function applied to each cell. -/
theorem Every.transform (h : Every P m) {f : α → α} (hf : ∀ x, P x → P (f x)) :
    Every P (m.transform f) := by
  intro i
  unfold Map2D.transform
  dsimp only
  split
  · exact hf _ (h i)
  · exact h i

/-- One cell written. -/
theorem Every.set2 (h : Every P m) (col row : Nat) {value : α} (hvalue : P value) :
    Every P (m.set2 col row value) := by
  intro i
  simp only [Map2D.set2, Function.update_apply]
  split
  · exact hvalue
  · exact h i

/-- A loop over the rows, if its body keeps the property. -/
theorem Every.forRows (h : Every P m) {body : Nat → (Nat → α) → Nat → α}
    (hbody : ∀ row data, (∀ i, P (data i)) → ∀ i, P (body row data i)) :
    Every P (m.forRows body) := by
  unfold Map2D.forRows
  generalize List.range m.height = rows
  change ∀ i, P (rows.foldl (fun data row => body row data) m.data i)
  have hdata : ∀ i, P (m.data i) := h
  generalize m.data = data at hdata ⊢
  induction rows generalizing data with
  | nil => exact hdata
  | cons row rows ih => exact ih _ (hbody row data hdata)

/-- Rows filled from above or below. -/
theorem Every.fillRows (h : Every P m) (rows : Int) {value : α} (hvalue : P value) :
    Every P (m.fillRows rows value) := by
  unfold Map2D.fillRows
  split_ifs
  · exact h.fill hvalue
  · exact every_fillRange h hvalue _ _
  · exact every_fillRange h hvalue _ _
  · exact h

/-- A band of columns and rows filled. -/
theorem Every.fillBand (h : Every P m) (cols rows : Int) {value : α} (hvalue : P value) :
    Every P (m.fillBand cols rows value) := by
  have hcols : Every P (m.fillCols cols value) := h.forRows fun row data hdata i => by
    dsimp only
    split <;> exact every_fillRange hdata hvalue _ _ i
  unfold Map2D.fillBand
  split_ifs
  · exact h.fill hvalue
  · exact hcols.fillRows rows hvalue
  · exact h.fillRows rows hvalue

/-- Rows and columns rotated. -/
theorem Every.rotate (h : Every P m) (cols rows : Int) : Every P (m.rotate cols rows) := by
  have hcols : Every P (m.rotateCols cols) := by
    unfold Map2D.rotateCols
    dsimp only
    split_ifs
    · exact h.forRows fun row data hdata i => every_rotateRange hdata _ _ _ i
    · exact h.forRows fun row data hdata i => every_rotateRange hdata _ _ _ i
    · exact h
  unfold Map2D.rotate Map2D.rotateRows
  dsimp only
  split_ifs
  · exact every_rotateRange hcols _ _ _
  · exact every_rotateRange hcols _ _ _
  · exact hcols

/-- **Scrolling.** -/
theorem Every.shift (h : Every P m) (cols rows : Int) {value : α} (hvalue : P value) :
    Every P (m.shift cols rows value) :=
  (h.rotate cols rows).fillBand cols rows hvalue

end Map2D

/-! ## Drawing -/

open Map2D (Every)

namespace Canvas

variable {P : UInt8 → Prop} {lit : UInt8}

/-- A flip of the lit bit is a write of one cell. -/
theorem every_flip (hP : ∀ x, P x → P (x ^^^ lit)) {c : Canvas} (h : Every P c.map)
    (X Y : Nat) : Every P (c.flip lit X Y).map := h.set2 X Y (hP _ (h _))

/-- By induction on the bits left. -/
theorem every_drawBits (hP : ∀ x, P x → P (x ^^^ lit)) (wrap : Bool) (Y : Nat) (DATA : UInt8)
    (n B X : Nat) {c : Canvas} (h : Every P c.map) :
    Every P (drawBits wrap lit Y DATA n B X c).map := by
  induction n generalizing B X c with
  | zero => exact h
  | succ n ih =>
      have hflip : Every P (if DATA.toNat.testBit (7 - B) then c.flip lit X Y else c).map := by
        split
        · exact every_flip hP h X Y
        · exact h
      rw [drawBits]
      generalize (if DATA.toNat.testBit (7 - B) then c.flip lit X Y else c) = c' at hflip ⊢
      split
      · exact hflip
      · exact ih _ _ hflip

/-- A byte, single bits taken short. -/
theorem every_drawByte (hP : ∀ x, P x → P (x ^^^ lit)) (wrap : Bool) (X Y : Nat) (DATA : UInt8)
    {c : Canvas} (h : Every P c.map) : Every P (c.drawByte wrap lit X Y DATA).map := by
  unfold drawByte
  generalize (if wrap then X &&& (c.map.width - 1) else X) = X
  dsimp only
  split
  · exact h
  · split
    · split
      · exact every_flip hP h X Y
      · exact h
    · split
      · exact h
      · exact every_drawBits hP wrap Y DATA 8 0 _ h

/-- By induction on the rows left, if a row keeps the property. -/
theorem every_drawRows {wrap : Bool} {drawRow : Nat → Nat → Canvas → Canvas}
    (hrow : ∀ row Y c, Every P c.map → Every P (drawRow row Y c).map) (n row Y : Nat)
    {c : Canvas} (h : Every P c.map) : Every P (drawRows wrap drawRow n row Y c).map := by
  induction n generalizing row Y c with
  | zero => exact h
  | succ n ih =>
      rw [drawRows]
      split
      · exact hrow row Y c h
      · exact ih _ _ (hrow row Y c h)

end Canvas

namespace RowDraw

variable {P : UInt8 → Prop}

/-- A cell written behind the pointer. -/
theorem every_setAt {map : Map2D UInt8} (h : Every P map) (xBegin yBegin col : Nat)
    {value : UInt8} (hvalue : P value) : Every P (setAt map xBegin yBegin col value) := by
  intro i
  simp only [setAt, Function.update_apply]
  split
  · exact hvalue
  · exact h i

/-- A loop over columns. -/
theorem every_foldl {f : RowDraw Bool → Nat → RowDraw Bool}
    (hf : ∀ d col, Every P d.map → Every P (f d col).map) (cols : List Nat) {d : RowDraw Bool}
    (h : Every P d.map) : Every P (cols.foldl f d).map := by
  induction cols generalizing d with
  | nil => exact h
  | cons col cols ih => exact ih (hf d col h)

/-- The columns of a row that are set. -/
theorem every_drawSingleByte (hP : ∀ x, P x → P (x ^^^ 0x8)) (screenW xBegin yBegin byteW : Nat)
    (data : UInt32) {map : Map2D UInt8} (h : Every P map) :
    Every P (drawSingleByte screenW xBegin yBegin byteW data map).map := by
  unfold drawSingleByte
  split
  · exact h
  · refine every_foldl (fun d col hd => ?_) _ h
    split
    · exact every_setAt hd xBegin yBegin col (hP _ (hd _))
    · exact hd

/-- The columns of a row, and those of its copy below. -/
theorem every_drawDoubleByte (hP : ∀ x, P x → P (x ^^^ 0x8)) (screenW xBegin yBegin byteW : Nat)
    (data : UInt32) {map : Map2D UInt8} (h : Every P map) :
    Every P (drawDoubleByte screenW xBegin yBegin byteW data map).map := by
  unfold drawDoubleByte
  refine every_foldl (fun d col hd => ?_) _ h
  have hcell : P (d.map.at1 (d.map.offset xBegin yBegin + col)) := hd _
  dsimp only
  split
  · exact every_setAt (every_setAt hd _ _ _ (hP _ hcell)) _ _ _ (hP _ hcell)
  · exact every_setAt hd _ _ _ hcell

/-- By induction on the rows left, if a row keeps the property. -/
theorem every_countRows {screenH height : Nat}
    {drawRow : Nat → Nat → Map2D UInt8 → RowDraw Bool}
    (hrow : ∀ row y map, Every P map → Every P (drawRow row y map).map) (n row y : Nat)
    {d : RowDraw Nat} (h : Every P d.map) :
    Every P (countRows screenH height drawRow n row y d).map := by
  induction n generalizing row y d with
  | zero => exact h
  | succ n ih =>
      have hnext := hrow row y d.map h
      rw [countRows]
      split
      · exact hnext
      · exact ih _ _ hnext

/-- A sprite in high resolution. -/
theorem every_drawHires (hP : ∀ x, P x → P (x ^^^ 0x8)) (screenW screenH : Nat)
    (byteAt : Nat → UInt8) (VX VY : UInt8) (N : Fin 16) {map : Map2D UInt8} (h : Every P map) :
    Every P (drawHires screenW screenH byteAt VX VY N map).map := by
  unfold drawHires
  dsimp only
  split
  · exact every_countRows (fun _ _ _ => every_drawSingleByte hP _ _ _ _ _) _ _ _ h
  · exact every_countRows (fun _ _ _ => every_drawSingleByte hP _ _ _ _ _) _ _ _ h

/-- A sprite in low resolution. -/
theorem every_drawLores (hP : ∀ x, P x → P (x ^^^ 0x8)) (screenW screenH : Nat)
    (byteAt : Nat → UInt8) (VX VY : UInt8) (N : Fin 16) {map : Map2D UInt8} (h : Every P map) :
    Every P (drawLores screenW screenH byteAt VX VY N map).map :=
  every_countRows (fun _ _ _ => every_drawDoubleByte hP _ _ _ _ _) _ _ _ h

end RowDraw

/-! ## Pixels -/

/-- A cell of a monochrome display: the lit bit and the trail behind it. -/
def IsPixel (pixel : UInt8) : Prop := pixel.toNat < 16

/-- The lit bit is below 16. -/
theorem IsPixel.xor {pixel : UInt8} (h : IsPixel pixel) : IsPixel (pixel ^^^ 0x8) := by
  unfold IsPixel
  rw [UInt8.toNat_xor]
  exact Nat.xor_lt_two_pow (n := 4) h (by decide)

/-- A fade keeps the lit bit and halves the trail. -/
theorem IsPixel.fade {pixel : UInt8} (h : IsPixel pixel) : IsPixel (fadePixel pixel) := by
  have hlit : (pixel &&& 0x8).toNat < 16 := by
    rw [UInt8.toNat_and]
    exact Nat.and_lt_two_pow (n := 4) _ (by decide)
  have htrail : (pixel >>> 1).toNat < 16 := by
    rw [UInt8.toNat_shiftRight]
    exact Nat.lt_of_le_of_lt (Nat.shiftRight_le _ _) h
  unfold IsPixel fadePixel
  rw [UInt8.toNat_or]
  exact Nat.or_lt_two_pow (n := 4) hlit htrail

namespace Core

variable {bits : Nat} {Own Instruction : Type}

/-- In every state a core reaches, and wherever an instruction of a frame starts, its display
holds pixels. -/
def HoldsPixels (V : Virtuals bits Own Instruction) (display : Own → Map2D UInt8)
    (boot : Core bits Own) : Prop :=
  ∀ s, Reachable V boot s → Every IsPixel (display s.own) ∧
    ∀ input, ∀ t ∈ workerStarts V input s, Every IsPixel (display t.own)

/-- What a core shows of its display: it is rewritten by instructions and output, and by a
reset. -/
structure PixelsKept (V : Virtuals bits Own Instruction) (display : Own → Map2D UInt8) :
    Prop where
  enterLoop : ∀ s, (V.enterLoop s).own = s.own
  execute : ∀ i s s', Every IsPixel (display s.own) → V.execute i s = some s' →
    Every IsPixel (display s'.own)
  pushAudioData : ∀ input s, display (V.pushAudioData input s).own = display s.own
  pushVideoData : ∀ s, Every IsPixel (display s.own) →
    Every IsPixel (display (V.pushVideoData s).own)
  resetSystemData : ∀ s, Every IsPixel (display s.own) →
    Every IsPixel (display (V.resetSystemData s).own)

variable {V : Virtuals bits Own Instruction} {display : Own → Map2D UInt8}

/-- **From one instruction to every state.** -/
theorem PixelsKept.holdsPixels (h : PixelsKept V display) {boot : Core bits Own}
    (hboot : Every IsPixel (display boot.own)) : HoldsPixels V display boot := by
  have hkept : AlwaysKept V fun b => Every IsPixel (display b.own) :=
    { enterLoop := fun s hs => (congrArg display (h.enterLoop s)).symm ▸ hs
      execute := fun i s s' hs hrun => h.execute i s s' hs hrun
      pushAudioData := fun input s hs => (h.pushAudioData input s).symm ▸ hs
      pushVideoData := fun s hs => h.pushVideoData s hs
      reset := fun s hs => h.resetSystemData (s.onFamily .resetInstance) hs
      toggleQuirk := fun _ hs _ _ => hs
      editMemory := fun _ hs _ _ => hs }
  intro s hs
  have hbody := hkept.reachable hboot hs
  exact ⟨hbody, fun input => hkept.toKept.workerStarts input hbody⟩

end Core

end CubeChip
