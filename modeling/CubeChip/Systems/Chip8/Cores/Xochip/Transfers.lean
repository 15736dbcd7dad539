import CubeChip.Systems.Chip8.Cores.Xochip
import CubeChip.Lib.Sweep

/-!
# `XOCHIP`: block transfers

`5xy2`, `5xy3` and `5xy4` walk the registers from `X` to `Y`, in either direction, against the
cells from I upwards. A register between the two is met once, at as many cells from I as it is
registers from `X` (`mem_registerRange`), and the cells met are distinct (`cell_injOn`): each of
the three is one sweep (`Sweep.writes`), over memory, registers or colours.
-/

namespace CubeChip.Xochip

/-! ## The registers of a range -/

/-- `|X - i|`. -/
def gap (X i : Fin 16) : Nat := (X.val - i.val) + (i.val - X.val)

/-- `i` is one of the registers from `X` to `Y`. -/
def Between (X Y i : Fin 16) : Prop := min X Y ≤ i ∧ i ≤ max X Y

instance (X Y i : Fin 16) : Decidable (Between X Y i) :=
  inferInstanceAs (Decidable (_ ∧ _))

variable {X Y i : Fin 16}

theorem gap_le (X i : Fin 16) : gap X i ≤ 15 := by
  have hX := X.isLt
  have hi := i.isLt
  unfold gap
  omega

theorem between_iff :
    Between X Y i ↔ (X.val ≤ i.val ∧ i.val ≤ Y.val) ∨ (Y.val ≤ i.val ∧ i.val ≤ X.val) := by
  simp only [Between, min_le_iff, le_max_iff, Fin.le_def]
  omega

theorem Between.gap_le (h : Between X Y i) : gap X i ≤ gap X Y := by
  have h := between_iff.1 h
  unfold gap
  omega

/-- There is a register at every distance up to that of `Y`. -/
theorem exists_between {k : Nat} (h : k ≤ gap X Y) : ∃ i, Between X Y i ∧ gap X i = k := by
  have hX := X.isLt
  have hY := Y.isLt
  simp only [between_iff]
  unfold gap at h ⊢
  rcases Nat.le_total X.val Y.val with hXY | hYX
  · exact ⟨⟨X.val + k, by omega⟩, .inl ⟨by simp, by simp; omega⟩, by simp⟩
  · exact ⟨⟨X.val - k, by omega⟩, .inr ⟨by simp; omega, by simp⟩, by simp; omega⟩

/-- **The loop of either direction** meets the registers between, each at its distance. -/
theorem mem_registerRange {p : UInt32 × Fin 16} :
    p ∈ registerRange X Y ↔ Between X Y p.2 ∧ p.1 = UInt32.ofNat (gap X p.2) := by
  obtain ⟨offset, i⟩ := p
  have hX := X.isLt
  have hY := Y.isLt
  have hi := i.isLt
  rw [between_iff]
  unfold registerRange gap
  split
  · next hlt =>
    have hlt : X.val < Y.val := hlt
    simp only [List.mem_map, List.mem_range, Prod.mk.injEq]
    constructor
    · rintro ⟨k, hk, rfl, rfl⟩
      have hval : (Fin.ofNat 16 (X.val + k)).val = X.val + k := Nat.mod_eq_of_lt (by omega)
      rw [hval]
      exact ⟨by omega, congrArg UInt32.ofNat (by omega)⟩
    · rintro ⟨hb, rfl⟩
      refine ⟨i.val - X.val, by omega, congrArg UInt32.ofNat (by omega), Fin.ext ?_⟩
      exact (Nat.mod_eq_of_lt (by omega)).trans (by omega)
  · next hge =>
    have hge : Y.val ≤ X.val := Nat.not_lt.1 hge
    simp only [List.mem_map, List.mem_range, Prod.mk.injEq]
    constructor
    · rintro ⟨k, hk, rfl, rfl⟩
      have hval : (Fin.ofNat 16 (X.val - k)).val = X.val - k := Nat.mod_eq_of_lt (by omega)
      rw [hval]
      exact ⟨by omega, congrArg UInt32.ofNat (by omega)⟩
    · rintro ⟨hb, rfl⟩
      refine ⟨X.val - i.val, by omega, congrArg UInt32.ofNat (by omega), Fin.ext ?_⟩
      exact (Nat.mod_eq_of_lt (by omega)).trans (by omega)

/-- No register is met twice. -/
theorem nodup_registerRange : ((registerRange X Y).map Prod.snd).Nodup := by
  have hX := X.isLt
  have hY := Y.isLt
  unfold registerRange
  split
  all_goals
    rw [List.map_map]
    refine List.Nodup.map_on (fun j hj k hk h => ?_) List.nodup_range
    rw [List.mem_range] at hj hk
    have h : (_ : Nat) % 16 = _ % 16 := congrArg Fin.val h
    omega

/-- **A sweep over the registers of a range**, from the offset of each. -/
theorem run_writes_registerRange {β : Type*} (value : UInt32 × Fin 16 → β) (f : Fin 16 → β)
    (X Y i : Fin 16) :
    ((Sweep.writes Prod.snd value).run (registerRange X Y) (f, ())).1 i =
      if Between X Y i then value (UInt32.ofNat (gap X i), i) else f i := by
  split
  · next h =>
    have hmem : (UInt32.ofNat (gap X i), i) ∈ registerRange X Y := mem_registerRange.2 ⟨h, rfl⟩
    exact Sweep.run_cells_of_mem (w := Sweep.writes Prod.snd value) nodup_registerRange hmem _
  · next h =>
    refine Sweep.run_cells_of_not_mem (fun hmem => ?_) _
    obtain ⟨p, hp, hi⟩ := List.mem_map.1 hmem
    have hi : p.2 = i := hi
    exact h (hi ▸ (mem_registerRange.1 hp).1)

/-! ## The cells of a range -/

/-- The cell `k` places from I. -/
def cell (I : UInt32) (k : Nat) : BitVec 16 := MirroredMemory.mask 16 (I + UInt32.ofNat k)

theorem toNat_cell (I : UInt32) {k : Nat} (hk : k ≤ 15) :
    (cell I k).toNat = (I.toNat + k) % 65536 := by
  have hmask : cell I k = BitVec.ofNat 16 (I.toNat + k) := by
    refine MirroredMemory.mask_eq_ofNat (by omega) ?_
    rw [UInt32.toNat_add, UInt32.toNat_ofNat_of_lt' (Nat.lt_of_le_of_lt hk (by decide))]
  rw [hmask, BitVec.toNat_ofNat]

/-- Cells of one range are distinct, also where the range wraps past the end of memory. -/
theorem cell_injOn {I : UInt32} {j k : Nat} (hj : j ≤ 15) (hk : k ≤ 15)
    (h : cell I j = cell I k) : j = k := by
  have h := congrArg BitVec.toNat h
  rw [toNat_cell I hj, toNat_cell I hk] at h
  omega

/-- Registers between `X` and `Y` have cells of their own. -/
theorem nodup_cells (I : UInt32) :
    ((registerRange X Y).map fun p => MirroredMemory.mask 16 (I + p.1)).Nodup := by
  have hnodup := List.Nodup.of_map _ (nodup_registerRange (X := X) (Y := Y))
  refine List.Nodup.map_on (fun p hp q hq h => ?_) hnodup
  obtain ⟨hp, hpo⟩ := mem_registerRange.1 hp
  obtain ⟨hq, hqo⟩ := mem_registerRange.1 hq
  rw [hpo, hqo] at h
  have hgap : gap X p.2 = gap X q.2 := cell_injOn (gap_le X p.2) (gap_le X q.2) h
  have hreg : p.2 = q.2 := by
    have hp := between_iff.1 hp
    have hq := between_iff.1 hq
    unfold gap at hgap
    exact Fin.ext (by omega)
  exact Prod.ext (by rw [hpo, hqo, hreg]) hreg

/-! ## Storing -/

variable (s : Xochip)

/-- `5xy2` as a sweep over memory. -/
theorem memory_instruction5xy2 (X Y : Fin 16) :
    (instruction5xy2 X Y s).memory.mem =
      ((Sweep.writes (fun p : UInt32 × Fin 16 => MirroredMemory.mask 16 (s.registerI + p.1))
        fun p => s.registersV p.2).run (registerRange X Y) (s.memory.mem, ())).1 := by
  rw [← Sweep.foldl_update]
  exact (List.foldl_hom MirroredMemory.mem fun _ _ => rfl).symm

/-- The cell of a register between `X` and `Y`. -/
theorem memory_instruction5xy2_of_between (h : Between X Y i) :
    (instruction5xy2 X Y s).memory.mem (cell s.registerI (gap X i)) = s.registersV i := by
  have hmem : (UInt32.ofNat (gap X i), i) ∈ registerRange X Y := mem_registerRange.2 ⟨h, rfl⟩
  rw [memory_instruction5xy2]
  exact Sweep.run_cells_of_mem (nodup_cells s.registerI) hmem _

/-- A cell further than `Y`'s, or below I. -/
theorem memory_instruction5xy2_of_ne {a : BitVec 16}
    (h : ∀ k ≤ gap X Y, a ≠ cell s.registerI k) :
    (instruction5xy2 X Y s).memory.mem a = s.memory.mem a := by
  rw [memory_instruction5xy2]
  refine Sweep.run_cells_of_not_mem (fun hmem => ?_) _
  obtain ⟨p, hp, rfl⟩ := List.mem_map.1 hmem
  obtain ⟨hbetween, hoffset⟩ := mem_registerRange.1 hp
  exact h (gap X p.2) hbetween.gap_le (by rw [cell, ← hoffset]; rfl)

/-! ## Loading -/

/-- `5xy3` as a sweep over the registers. -/
theorem registersV_instruction5xy3 (X Y : Fin 16) :
    (instruction5xy3 X Y s).registersV =
      ((Sweep.writes Prod.snd fun p : UInt32 × Fin 16 =>
        s.memory.get (s.registerI + p.1)).run (registerRange X Y) (s.registersV, ())).1 := by
  rw [← Sweep.foldl_update]
  exact (List.foldl_hom Cpu.registersV fun _ _ => rfl).symm

/-- Nothing else is loaded. -/
theorem instruction5xy3_eq (X Y : Fin 16) :
    instruction5xy3 X Y s =
      s.onCpu fun c => { c with registersV := (instruction5xy3 X Y s).registersV } := by
  have hrest : ∀ (l : List (UInt32 × Fin 16)) (c : Cpu),
      l.foldl (fun c p => c.setV p.2 (s.memory.get (s.registerI + p.1))) c =
        { c with registersV :=
          (l.foldl (fun c p => c.setV p.2 (s.memory.get (s.registerI + p.1))) c).registersV } := by
    intro l
    induction l with
    | nil => exact fun _ => rfl
    | cons p l ih => exact fun c => (ih _).trans rfl
  exact congrArg (fun c => s.onCpu fun _ => c) (hrest (registerRange X Y) s.toCpu)

/-- **The registers after a load.** -/
theorem registersV_instruction5xy3_apply (X Y i : Fin 16) :
    (instruction5xy3 X Y s).registersV i =
      if Between X Y i then s.memory.mem (cell s.registerI (gap X i)) else s.registersV i := by
  rw [registersV_instruction5xy3, run_writes_registerRange]
  rfl

/-! ## Storing and loading again -/

/-- **A block transfer round trip.** A store fills the cells from I upwards, one for a register,
and nothing else; a later load with the same `X`, `Y` and I gives back what was stored, whatever
became of the registers, and leaves the other registers and everything else alone. -/
theorem registerTransfer_roundTrip (s : Xochip) (X Y : Fin 16) :
    (∀ i, Between X Y i →
      (instruction5xy2 X Y s).memory.mem (cell s.registerI (gap X i)) = s.registersV i) ∧
    (∀ k ≤ gap X Y, ∃ i, Between X Y i ∧ gap X i = k) ∧
    (∀ j k, j ≤ gap X Y → k ≤ gap X Y → cell s.registerI j = cell s.registerI k → j = k) ∧
    (∀ a, (∀ k ≤ gap X Y, a ≠ cell s.registerI k) →
      (instruction5xy2 X Y s).memory.mem a = s.memory.mem a) ∧
    instruction5xy2 X Y s = { s with memory := (instruction5xy2 X Y s).memory } ∧
    ∀ V : Registers16,
      instruction5xy3 X Y ((instruction5xy2 X Y s).onCpu fun c => { c with registersV := V }) =
        (instruction5xy2 X Y s).onCpu fun c =>
          { c with registersV := fun i => if Between X Y i then s.registersV i else V i } := by
  refine ⟨fun i => memory_instruction5xy2_of_between s, fun k => exists_between,
    fun j k hj hk => ?_, fun a => memory_instruction5xy2_of_ne s, rfl, fun V => ?_⟩
  · exact cell_injOn (hj.trans (gap_le X Y)) (hk.trans (gap_le X Y))
  · set u := (instruction5xy2 X Y s).onCpu fun c => { c with registersV := V } with hu
    have hV : (instruction5xy3 X Y u).registersV =
        fun i => if Between X Y i then s.registersV i else V i := by
      funext i
      rw [registersV_instruction5xy3_apply]
      exact if_ctx_congr Iff.rfl (memory_instruction5xy2_of_between s) fun _ => rfl
    rw [instruction5xy3_eq, hV]
    rfl

end CubeChip.Xochip
