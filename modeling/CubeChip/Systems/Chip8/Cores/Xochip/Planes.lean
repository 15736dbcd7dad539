import CubeChip.Systems.Chip8.Cores.Xochip
import CubeChip.Systems.Chip8.Sprite

/-!
# Drawing on the planes of `XOCHIP`

`DxyN` draws one sprite on each selected plane, and the sprites follow each other in memory in
the order of the planes. The table of the source counts the selected planes before one, and a
plane is drawn on as if it were the display of the other cores. Going through the planes is a
sweep whose cells are whole planes.
-/

namespace CubeChip

namespace Xochip

variable (s : Xochip)

/-- How many selected planes come before `P`. -/
def rank (mask : Fin 16) (P : Fin 4) : Nat :=
  ((List.finRange 4).filter fun Q => Q < P ∧ selects mask Q).length

/-- The bytes of the sprite of the `k`-th selected plane: behind `k` sprites of 32 bytes, or of
`N`, modulo the size of the memory. -/
def planeByte (N : Fin 16) (k offset : Nat) : UInt8 :=
  s.memory.mem (BitVec.ofNat 16
    (s.registerI.toNat + k * (if N = 0 then 32 else N.val) + offset))

/-- The cells of `P` under its sprite, on a screen `W` by `H`. -/
def cellsAt (N : Fin 16) (W H x y : Nat) (P : Fin 4) : List (Nat × Nat) :=
  (Sprite.ofBytes N (planeByte s N (rank s.own.planeMask P))).cells (s.hasQuirk .wrapSprites)
    W H x y

/-- The cells of `P` that `DxyN` is to flip. -/
def planeCells (X Y N : Fin 16) (P : Fin 4) : List (Nat × Nat) :=
  let W := (s.own.displayMap P).width
  let H := (s.own.displayMap P).height
  cellsAt s N W H ((s.registersV X).toNat % W) ((s.registersV Y).toNat % H) P

/-- All planes are of the size of one of the two resolutions. -/
def OneResolution (planes : Fin 4 → Map2D UInt8) : Prop :=
  ∃ W H, (W, H) ∈ [(64, 32), (128, 64)] ∧ ∀ P, (planes P).width = W ∧ (planes P).height = H

/-- What `DxyN` is to do. -/
structure DrawsPlanar (X Y N : Fin 16) : Prop where
  planes : ∀ P, if selects s.own.planeMask P
    then Flipped 1 (planeCells s X Y N P) (s.own.displayMap P)
      ((instructionDxyN s X Y N).own.displayMap P)
    else (instructionDxyN s X Y N).own.displayMap P = s.own.displayMap P
  flag : (instructionDxyN s X Y N).registersV 0xF =
    if ∃ P, selects s.own.planeMask P ∧
      TurnsOff 1 (planeCells s X Y N P) (s.own.displayMap P) then 1 else 0

/-! ## Where a sprite is in memory -/

/-- The table counts the selected planes. -/
theorem planesBefore_eq (P : Fin 4) (mask : Fin 16) :
    planesBefore P mask = UInt32.ofNat (rank mask P) := by
  revert P mask
  decide

/-- An address is computed with 32 bits and then masked. -/
theorem spriteByte_eq {N : Fin 16} {k S : Nat} (hS : S = if N = 0 then 32 else N.val)
    (offset : Nat) :
    spriteByte s (UInt32.ofNat k * UInt32.ofNat S + UInt32.ofNat offset) =
      planeByte s N k offset := by
  refine congrArg s.memory.mem (MirroredMemory.mask_eq_ofNat (by decide) ?_)
  subst hS
  simp only [UInt32.toNat_add, UInt32.toNat_mul, UInt32.toNat_ofNat', Nat.add_mod_mod,
    Nat.mod_add_mod, Nat.mul_mod_mod, Nat.mod_mul_mod, Nat.add_assoc]

/-! ## One plane -/

variable {s} {N : Fin 16} {P : Fin 4} {pX pY e e' : Nat} {c : Canvas}

/-- `draw_byte`, on a plane of a power of two columns. -/
theorem drawByte_eq (hW : c.map.width = 2 ^ e) (X Y : Nat) (DATA : UInt8) :
    drawByte s X Y DATA c = c.flipAll 1
      ((Canvas.byteColumns (s.hasQuirk .wrapSprites) c.map.width DATA X).map (·, Y)) :=
  Canvas.drawByte_eq hW X Y DATA

/-- The loop over the rows of a sprite 16 wide. -/
theorem drawDoubleRow_eq : drawDoubleRow s P pX pY c =
    Canvas.drawRows (s.hasQuirk .wrapSprites)
      (fun row Y c => drawByte s (pX + 8) Y (planeByte s 0 (rank s.own.planeMask P) (2 * row + 1))
        (drawByte s pX Y (planeByte s 0 (rank s.own.planeMask P) (2 * row)) c)) 16 0 pY c := by
  have hbyte := spriteByte_eq s (N := 0) (k := rank s.own.planeMask P) rfl
  simp only [← hbyte, ← planesBefore_eq, Nat.mul_comm 2]
  rfl

/-- The loop over the rows of a sprite 8 wide, which a single row does without. -/
theorem drawPlane_eq_rows (hN : N ≠ 0) : drawPlane s N pX pY P c =
    Canvas.drawRows (s.hasQuirk .wrapSprites)
      (fun row Y c => drawByte s pX Y (planeByte s N (rank s.own.planeMask P) row) c)
      N.val 0 pY c := by
  have hbyte := spriteByte_eq s (N := N) (k := rank s.own.planeMask P) (if_neg hN).symm
  simp only [← hbyte, ← planesBefore_eq]
  unfold drawPlane
  split
  · rename_i h0
    exact absurd (Fin.ext h0) hN
  · rename_i h1
    rw [h1, Canvas.drawRows_one, drawSingleRow, show UInt32.ofNat 1 = 1 from rfl,
      show UInt32.ofNat 0 = 0 from rfl, UInt32.mul_one, UInt32.add_zero]
  · rfl

/-- A plane shows the sprite that is its own. -/
theorem drawPlane_eq (hW : c.map.width = 2 ^ e) (hH : c.map.height = 2 ^ e')
    (hY : pY < c.map.height) :
    drawPlane s N pX pY P c = c.flipAll 1 (cellsAt s N c.map.width c.map.height pX pY P) := by
  have hbyte : ∀ X Y DATA (c' : Canvas), c'.map.width = c.map.width →
      drawByte s X Y DATA c' = c'.flipAll 1
        ((Canvas.byteColumns (s.hasQuirk .wrapSprites) c.map.width DATA X).map (·, Y)) :=
    fun X Y DATA c' h => by rw [drawByte_eq (h.trans hW), h]
  by_cases hN : N = 0
  · subst hN
    exact drawDoubleRow_eq.trans (Canvas.drawRows_doubleBytes (hbyte pX) (hbyte (pX + 8)) rfl hH hY)
  · rw [drawPlane_eq_rows hN]
    exact Canvas.drawRows_bytes hN (hbyte pX) rfl hH hY

/-! ## All planes -/

/-- Going through planes, flipping some cells of each. -/
def planeSweep (cells : Fin 4 → List (Nat × Nat)) :
    Sweep (Fin 4) (Fin 4) (Map2D UInt8) UInt8 where
  pos P := P
  rewrite P m := (Canvas.flipAll 1 (cells P) ⟨m, 0⟩).map
  hit P m := TurnsOff 1 (cells P) m
  mark := 1

theorem OneResolution.spec {planes : Fin 4 → Map2D UInt8} (h : OneResolution planes) :
    ∃ e e', 16 ≤ 2 ^ e ∧ 16 ≤ 2 ^ e' ∧
      ∀ P, (planes P).width = 2 ^ e ∧ (planes P).height = 2 ^ e' := by
  obtain ⟨W, H, hmem, hsize⟩ := h
  rcases List.mem_pair.1 hmem with h | h
  · obtain ⟨rfl, rfl⟩ := Prod.ext_iff.1 h
    exact ⟨6, 5, by decide, by decide, hsize⟩
  · obtain ⟨rfl, rfl⟩ := Prod.ext_iff.1 h
    exact ⟨7, 6, by decide, by decide, hsize⟩

/-- A selected plane is visited. -/
theorem drawOn_eq_visit (hP : selects s.own.planeMask P = true) (he : 16 ≤ 2 ^ e)
    (he' : 16 ≤ 2 ^ e') (hY : pY < 2 ^ e') {d : Planes}
    (hsize : (d.1 P).width = 2 ^ e ∧ (d.1 P).height = 2 ^ e') :
    drawOn s N pX pY d P = (planeSweep (cellsAt s N (2 ^ e) (2 ^ e') pX pY)).visit d P := by
  have hapart : Canvas.Apart (d.1 P) (cellsAt s N (2 ^ e) (2 ^ e') pX pY P) :=
    Canvas.apart_cells hsize.1 hsize.2 he he' pX pY
  have hdraw : drawPlane s N pX pY P ⟨d.1 P, d.2⟩ =
      Canvas.flipAll 1 (cellsAt s N (2 ^ e) (2 ^ e') pX pY P) ⟨d.1 P, d.2⟩ := by
    rw [drawPlane_eq hsize.1 hsize.2 (hsize.2 ▸ hY)]
    exact congrArg₂ (fun W H => Canvas.flipAll 1 (cellsAt s N W H pX pY P) ⟨d.1 P, d.2⟩)
      hsize.1 hsize.2
  rw [drawOn, if_pos hP, hdraw]
  refine Prod.ext ?_ ?_
  · exact congrArg (Function.update d.1 P) (Canvas.map_flipAll (d.1 P) d.2 0)
  · exact (Canvas.VF_flipAll hapart).trans (if_congr decide_eq_true_iff.symm rfl rfl)

theorem sameSize_visit (cells : Fin 4 → List (Nat × Nat)) (d : Planes) (P Q : Fin 4) :
    Map2D.SameSize (((planeSweep cells).visit d P).1 Q) (d.1 Q) := by
  by_cases hQ : P = Q
  · subst hQ
    have hvisit : ((planeSweep cells).visit d P).1 P =
        (Canvas.flipAll 1 (cells P) ⟨d.1 P, 0⟩).map := Sweep.visit_cells_self d P
    rw [hvisit]
    exact Canvas.sameSize_flipAll (cells P) ⟨d.1 P, 0⟩
  · rw [Sweep.visit_cells_of_ne hQ]
    exact ⟨rfl, rfl⟩

/-- **The loop over the planes** visits the selected ones. -/
theorem foldl_drawOn (he : 16 ≤ 2 ^ e) (he' : 16 ≤ 2 ^ e') (hY : pY < 2 ^ e')
    (planes : List (Fin 4)) {d : Planes}
    (hsize : ∀ P, (d.1 P).width = 2 ^ e ∧ (d.1 P).height = 2 ^ e') :
    planes.foldl (drawOn s N pX pY) d = (planeSweep (cellsAt s N (2 ^ e) (2 ^ e') pX pY)).run
      (planes.filter (selects s.own.planeMask)) d := by
  induction planes generalizing d with
  | nil => rfl
  | cons P planes ih =>
      cases hP : selects s.own.planeMask P with
      | false =>
          rw [List.filter_cons_of_neg (Bool.eq_false_iff.1 hP), List.foldl_cons, drawOn,
            if_neg (Bool.eq_false_iff.1 hP), ih hsize]
      | true =>
          rw [List.filter_cons_of_pos hP, List.foldl_cons,
            drawOn_eq_visit hP he he' hY (hsize P), Sweep.run_cons]
          refine ih fun Q => ?_
          have hsame := sameSize_visit (cellsAt s N (2 ^ e) (2 ^ e') pX pY) d P Q
          exact ⟨hsame.1.trans (hsize Q).1, hsame.2.trans (hsize Q).2⟩

/-! ## The instruction -/

/-- The planes `DxyN` draws on. -/
def selected (mask : Fin 16) : List (Fin 4) := [0, 1, 2, 3].filter (selects mask)

theorem mem_selected {mask : Fin 16} : P ∈ selected mask ↔ selects mask P = true := by
  have hP : P ∈ [0, 1, 2, 3] := by revert P; decide
  rw [selected, List.mem_filter, and_iff_right hP]

theorem nodup_selected (cells : Fin 4 → List (Nat × Nat)) (mask : Fin 16) :
    ((selected mask).map (planeSweep cells).pos).Nodup := by
  rw [show (planeSweep cells).pos = id from rfl, List.map_id]
  exact List.Nodup.filter _ (by decide)

variable {X Y : Fin 16}

theorem OneResolution.apart (hsize : OneResolution s.own.displayMap) (P : Fin 4) :
    Canvas.Apart (s.own.displayMap P) (planeCells s X Y N P) := by
  obtain ⟨e, e', he, he', hplanes⟩ := hsize.spec
  have hW : 16 ≤ (s.own.displayMap P).width := he.trans_eq (hplanes P).1.symm
  have hH : 16 ≤ (s.own.displayMap P).height := he'.trans_eq (hplanes P).2.symm
  exact Canvas.apart_cells rfl rfl hW hH _ _

/-- `DxyN` visits the selected planes. -/
theorem instructionDxyN_run (hsize : OneResolution s.own.displayMap) :
    ((instructionDxyN s X Y N).own.displayMap, (instructionDxyN s X Y N).registersV 0xF) =
      (planeSweep (planeCells s X Y N)).run (selected s.own.planeMask)
        (s.own.displayMap, 0) := by
  obtain ⟨e, e', he, he', hplanes⟩ := hsize.spec
  have hX : (s.registersV X).toNat &&& ((s.own.displayMap 0).width - 1) =
      (s.registersV X).toNat % 2 ^ e := by
    rw [(hplanes 0).1, Nat.and_two_pow_sub_one_eq_mod]
  have hY : (s.registersV Y).toNat &&& ((s.own.displayMap 0).height - 1) =
      (s.registersV Y).toNat % 2 ^ e' := by
    rw [(hplanes 0).2, Nat.and_two_pow_sub_one_eq_mod]
  have hcells : planeCells s X Y N = cellsAt s N (2 ^ e) (2 ^ e')
      ((s.registersV X).toNat % 2 ^ e) ((s.registersV Y).toNat % 2 ^ e') := funext fun P => by
    simp only [planeCells, (hplanes P).1, (hplanes P).2]
  rw [hcells, selected, ← foldl_drawOn he he' (Nat.mod_lt _ (by omega)) _ hplanes, ← hX, ← hY]
  exact Prod.ext rfl (Function.update_self (0xF : Fin 16) _ s.registersV)

/-- A selected plane is drawn on as the only one, the others are as before. -/
theorem displayMap_instructionDxyN (hsize : OneResolution s.own.displayMap) (P : Fin 4) :
    (instructionDxyN s X Y N).own.displayMap P = if selects s.own.planeMask P
      then (Canvas.flipAll 1 (planeCells s X Y N P) ⟨s.own.displayMap P, 0⟩).map
      else s.own.displayMap P := by
  have hrun := congrArg (fun d => d.1 P) (instructionDxyN_run (X := X) (Y := Y) (N := N) hsize)
  refine hrun.trans ?_
  split
  · rename_i hP
    exact Sweep.run_cells_of_mem (nodup_selected _ _) (mem_selected.2 hP) _
  · rename_i hP
    refine Sweep.run_cells_of_not_mem (fun hpos => hP ?_) _
    obtain ⟨Q, hQ, rfl⟩ := List.mem_map.1 hpos
    exact mem_selected.1 hQ

theorem VF_instructionDxyN (hsize : OneResolution s.own.displayMap) :
    (instructionDxyN s X Y N).registersV 0xF = if ∃ P, selects s.own.planeMask P ∧
      TurnsOff 1 (planeCells s X Y N P) (s.own.displayMap P) then 1 else 0 := by
  have hrun := congrArg (·.2) (instructionDxyN_run (X := X) (Y := Y) (N := N) hsize)
  refine hrun.trans ((Sweep.run_mark (nodup_selected _ _) _).trans (if_congr ?_ rfl rfl))
  simp only [List.any_eq_true, mem_selected, planeSweep, decide_eq_true_eq]

/-- **`DxyN`.** Each selected plane shows its own sprite, the others and all other cells are as
before, and VF says whether a cell of a selected plane was turned off. -/
theorem instructionDxyN_planar (X Y N : Fin 16) (hsize : OneResolution s.own.displayMap) :
    DrawsPlanar s X Y N := by
  obtain ⟨hmap, hVF⟩ := Prod.ext_iff.1 (instructionDxyN_run (X := X) (Y := Y) (N := N) hsize)
  have hdistinct := nodup_selected (planeCells s X Y N) s.own.planeMask
  dsimp only at hmap hVF
  refine ⟨fun P => ?_, ?_⟩
  · rw [hmap]
    split
    · rename_i hP
      have hcell : ((planeSweep (planeCells s X Y N)).run (selected s.own.planeMask)
          (s.own.displayMap, 0)).1 P =
          (Canvas.flipAll 1 (planeCells s X Y N P) ⟨s.own.displayMap P, 0⟩).map :=
        Sweep.run_cells_of_mem hdistinct (mem_selected.2 hP) (s.own.displayMap, 0)
      rw [hcell]
      exact Canvas.flipped_flipAll (c := ⟨s.own.displayMap P, 0⟩) (hsize.apart P)
    · rename_i hP
      refine Sweep.run_cells_of_not_mem (fun hpos => hP ?_) _
      obtain ⟨Q, hQ, rfl⟩ := List.mem_map.1 hpos
      exact mem_selected.1 hQ
  · rw [hVF]
    refine (Sweep.run_mark hdistinct (s.own.displayMap, 0)).trans (if_congr ?_ rfl rfl)
    simp only [List.any_eq_true, mem_selected, planeSweep, decide_eq_true_eq]

/-- A sprite is shown on two planes, and I is at the last byte of memory. -/
def twoPlanes : Xochip :=
  let s : Xochip := (boot (.ofProgram [])).onOwn fun own => { own with planeMask := 5 }
  (instructionDxyN s 0 0 5).onCpu (.instructionANNN 0xFFFF)

/-- Another one in its place, read over the end of memory, sets and clears cells of both. -/
theorem instructionDxyN_planar_lastByte :
    DrawsPlanar twoPlanes 0 0 5 ∧ (instructionDxyN twoPlanes 0 0 5).registersV 0xF = 1 ∧
      ((twoPlanes.own.displayMap 0).at2 1 1, (twoPlanes.own.displayMap 0).at2 2 1) = (0, 1) ∧
      (((instructionDxyN twoPlanes 0 0 5).own.displayMap 0).at2 1 1,
        ((instructionDxyN twoPlanes 0 0 5).own.displayMap 0).at2 2 1) = (1, 0) ∧
      ((twoPlanes.own.displayMap 2).at2 0 0, (twoPlanes.own.displayMap 2).at2 1 0) = (0, 1) ∧
      (((instructionDxyN twoPlanes 0 0 5).own.displayMap 2).at2 0 0,
        ((instructionDxyN twoPlanes 0 0 5).own.displayMap 2).at2 1 0) = (1, 0) :=
  ⟨instructionDxyN_planar 0 0 5 ⟨_, _, .head _, by decide +kernel⟩, by decide +kernel⟩

end Xochip

end CubeChip
