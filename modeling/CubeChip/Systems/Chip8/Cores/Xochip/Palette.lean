import CubeChip.Systems.Chip8.Cores.Xochip.Transfers

/-!
# `XOCHIP`: palette loads

`5xy4` loads colours, and `get_bit_color` shows them. The reader takes the stored colour zero for
a colour never loaded and shows the default one, which is never zero (`isSet_bitColor`); and
byte 0 asks for the colour zero, alone among all bytes (`isSet_colorPalette`). So a load shows
what it asked for as long as it meets no byte 0 (`getBitColor_instruction5xy4`), and then only.
-/

namespace CubeChip.Xochip

/-! ## Colours that read as not set -/

theorem isSet_iff {c : RGBA} : c.isSet = true ↔ c ≠ RGBA.zero := by
  cases c
  simp only [RGBA.isSet, RGBA.zero, ne_eq, RGBA.mk.injEq, Bool.not_eq_true', Bool.and_eq_false_iff,
    beq_eq_false_iff_ne]
  tauto

/-- Every default colour is a colour. -/
theorem isSet_bitColor (i : Fin 16) : (bitColor i.val).isSet = true := by
  revert i
  decide

/-- Only the lowest level of red or green is dark. -/
theorem level3_eq_zero {index : UInt8} (h : index.toNat < 8) :
    level3 index = 0 ↔ index.toNat = 0 := by
  have hall : ∀ n : Fin 8, level3 (UInt8.ofNat n.val) = 0 ↔ n.val = 0 := by decide
  simpa using hall ⟨index.toNat, h⟩

/-- Only the lowest level of blue is dark. -/
theorem level2_eq_zero {index : UInt8} (h : index.toNat < 4) :
    level2 index = 0 ↔ index.toNat = 0 := by
  have hall : ∀ n : Fin 4, level2 (UInt8.ofNat n.val) = 0 ↔ n.val = 0 := by decide
  simpa using hall ⟨index.toNat, h⟩

/-- Only byte 0 asks for the colour that reads as not set. -/
theorem isSet_colorPalette (b : UInt8) : (colorPalette b).isSet = true ↔ b ≠ 0 := by
  have hb := b.toNat_lt
  have hred : (b >>> 5).toNat = b.toNat / 32 := by
    simp [UInt8.toNat_shiftRight, Nat.shiftRight_eq_div_pow]
  have hgreen : ((b >>> 2) &&& 0x7).toNat = b.toNat / 4 % 8 := by
    simp [UInt8.toNat_shiftRight, Nat.shiftRight_eq_div_pow, Nat.and_two_pow_sub_one_eq_mod _ 3]
  have hblue : (b &&& 0x3).toNat = b.toNat % 4 := by
    simp [Nat.and_two_pow_sub_one_eq_mod _ 2]
  have hzero : b = 0 ↔ b.toNat = 0 := by rw [← UInt8.toNat_inj]; rfl
  rw [isSet_iff, not_iff_not, colorPalette, RGBA.zero, RGBA.mk.injEq,
    level3_eq_zero (by omega), level3_eq_zero (by omega), level2_eq_zero (by omega), hred, hgreen,
    hblue, hzero]
  simp only [and_true]
  omega

/-! ## One load -/

/-- A `5xy4`, with the I and the memory it meets. -/
structure PaletteLoad where
  X : Fin 16
  Y : Fin 16
  I : UInt32
  memory : MirroredMemory 16

namespace PaletteLoad

variable (l : PaletteLoad) (i : Fin 16)

/-- The load covers a colour. -/
def Covers : Prop := Between l.X l.Y i

instance : DecidablePred l.Covers := fun i => inferInstanceAs (Decidable (Between l.X l.Y i))

/-- The byte a colour is loaded from. -/
def byte : UInt8 := l.memory.mem (cell l.I (gap l.X i))

/-- The colour asked for. -/
def color : RGBA := colorPalette (l.byte i)

/-- The load, by a machine in any state. -/
def execute (s : Xochip) : Xochip :=
  instruction5xy4 l.X l.Y { s with registerI := l.I, memory := l.memory }

end PaletteLoad

/-- The load an instruction is in its state. -/
def paletteLoad (s : Xochip) (X Y : Fin 16) : PaletteLoad := ⟨X, Y, s.registerI, s.memory⟩

variable (s : Xochip) (l : PaletteLoad)

/-- **The stored colours after a load**, a sweep over the colours. -/
theorem bitColors_execute (i : Fin 16) :
    (l.execute s).own.bitColors i = if l.Covers i then l.color i else s.own.bitColors i := by
  have hsweep : (l.execute s).own.bitColors =
      ((Sweep.writes Prod.snd fun p : UInt32 × Fin 16 =>
        colorPalette (l.memory.get (l.I + p.1))).run (registerRange l.X l.Y)
          (s.own.bitColors, ())).1 := Sweep.foldl_update ..
  rw [hsweep, run_writes_registerRange]
  rfl

/-- A colour that is not covered is shown as before. -/
theorem getBitColor_execute_of_not_covers {i : Fin 16} (h : ¬l.Covers i) :
    getBitColor (l.execute s) i = getBitColor s i := by
  unfold getBitColor
  rw [bitColors_execute, if_neg h]

/-- **A covered colour** is shown as asked for unless it was asked for by byte 0. -/
theorem getBitColor_execute_of_covers {i : Fin 16} (h : l.Covers i) :
    getBitColor (l.execute s) i = if l.byte i ≠ 0 then l.color i else bitColor i.val := by
  unfold getBitColor
  rw [bitColors_execute, if_pos h]
  exact if_congr (isSet_colorPalette _) rfl rfl

/-- It is shown as asked for precisely when the byte is not 0. -/
theorem getBitColor_execute_eq_color_iff {i : Fin 16} (h : l.Covers i) :
    getBitColor (l.execute s) i = l.color i ↔ l.byte i ≠ 0 := by
  rw [getBitColor_execute_of_covers s l h]
  constructor
  · intro heq hb
    rw [if_neg (not_not_intro hb)] at heq
    have hset : (l.color i).isSet = true := heq ▸ isSet_bitColor i
    exact (isSet_colorPalette (l.byte i)).1 hset hb
  · intro hb
    rw [if_pos hb]

/-! ## A run of loads -/

/-- The machine after loads. -/
def afterLoads (loads : List PaletteLoad) (s : Xochip) : Xochip :=
  loads.foldl (fun s l => l.execute s) s

/-- The latest load that covers a colour. -/
def latestLoad (loads : List PaletteLoad) (i : Fin 16) : Option PaletteLoad :=
  loads.reverse.find? fun l => l.Covers i

/-- The colour to be shown: the one the latest load asked for, the colour before without one. -/
def askedColor (loads : List PaletteLoad) (s : Xochip) (i : Fin 16) : RGBA :=
  (latestLoad loads i).elim (getBitColor s i) (·.color i)

/-- A load shows what it asks for and nothing else changes. -/
def PaletteLoad.TakesEffect (s : Xochip) : Prop :=
  ∀ i, getBitColor (l.execute s) i = if l.Covers i then l.color i else getBitColor s i

/-- No colour is loaded from byte 0. -/
def PaletteLoad.NoZeroByte : Prop := ∀ i, l.Covers i → l.byte i ≠ 0

/-- **One load.** -/
theorem takesEffect_iff : l.TakesEffect s ↔ l.NoZeroByte := by
  refine forall_congr' fun i => ?_
  by_cases h : l.Covers i
  · rw [if_pos h, getBitColor_execute_eq_color_iff s l h]
    exact ⟨fun hb _ => hb, fun hb => hb h⟩
  · rw [if_neg h, getBitColor_execute_of_not_covers s l h]
    exact ⟨fun _ hc => absurd hc h, fun _ => rfl⟩

/-- The last load asks first. -/
theorem askedColor_concat (loads : List PaletteLoad) (i : Fin 16) :
    askedColor (loads ++ [l]) s i = if l.Covers i then l.color i else askedColor loads s i := by
  unfold askedColor latestLoad
  rw [List.reverse_append, List.reverse_singleton, List.singleton_append, List.find?_cons]
  by_cases h : l.Covers i <;> simp [h]

theorem afterLoads_concat (loads : List PaletteLoad) :
    afterLoads (loads ++ [l]) s = l.execute (afterLoads loads s) := by
  simp [afterLoads]

/-- One more load shows its colours precisely when it meets no byte 0, if the colours were as
asked for up to it. -/
theorem shown_concat_iff {loads : List PaletteLoad}
    (h : ∀ i, getBitColor (afterLoads loads s) i = askedColor loads s i) :
    (∀ i, getBitColor (afterLoads (loads ++ [l]) s) i = askedColor (loads ++ [l]) s i) ↔
      l.NoZeroByte := by
  rw [← takesEffect_iff (afterLoads loads s) l]
  refine forall_congr' fun i => ?_
  rw [afterLoads_concat, askedColor_concat, h i]

/-- **Palette loads take effect** all along a run precisely when none of them meets a byte 0. -/
theorem paletteLoads_shown_iff (s : Xochip) (loads : List PaletteLoad) :
    (∀ done, done <+: loads →
      ∀ i, getBitColor (afterLoads done s) i = askedColor done s i) ↔
    ∀ l ∈ loads, ∀ i, Between l.X l.Y i → l.memory.mem (cell l.I (gap l.X i)) ≠ 0 := by
  change _ ↔ ∀ l ∈ loads, l.NoZeroByte
  induction loads using List.reverseRecOn with
  | nil =>
    refine ⟨fun _ l hl => absurd hl List.not_mem_nil, fun _ done hdone i => ?_⟩
    rw [List.prefix_nil.1 hdone]
    rfl
  | append_singleton loads l ih =>
    simp only [List.prefix_concat_iff, or_imp, forall_and, forall_eq, List.mem_append,
      List.mem_singleton]
    rw [and_comm, ih]
    refine and_congr_right fun hgood => shown_concat_iff s l ?_
    exact (ih.2 hgood) loads (List.prefix_refl loads)

/-- A machine that was started and made I point behind its program. -/
def behindProgram : Xochip := { boot (Launch.ofProgram []) with registerI := 0x400 }

theorem byte_behindProgram : behindProgram.memory.mem 0x400 = 0 := by
  have hfont : (fontsData.take 240).length ≤ 240 := List.length_take_le ..
  have hbeyond : ¬(0x400 - Cpu.smallFontOffset.toNat < (fontsData.take 240).length) := by
    rw [show 0x400 - Cpu.smallFontOffset.toNat = 1024 from rfl]
    omega
  refine (MirroredMemory.copyFrom_of_not_mem fun h => hbeyond h.2).trans ?_
  exact MirroredMemory.copyFrom_of_not_mem fun h => absurd h.2 (Nat.not_lt_zero _)

/-- A load of byte 0 shows the default colour where it asks for black. -/
theorem paletteLoad_zero_not_shown :
    ¬∀ (s : Xochip) (X Y i : Fin 16), Between X Y i →
      getBitColor (instruction5xy4 X Y s) i =
        colorPalette (s.memory.get (s.registerI + UInt32.ofNat (gap X i))) := by
  intro hall
  have hasked : getBitColor (instruction5xy4 2 2 behindProgram) 2 = colorPalette 0 :=
    (hall behindProgram 2 2 2 (by decide)).trans (congrArg colorPalette byte_behindProgram)
  have hshown : getBitColor (instruction5xy4 2 2 behindProgram) 2 = bitColor 2 :=
    (getBitColor_execute_of_covers behindProgram (paletteLoad behindProgram 2 2)
      (by decide)).trans (if_neg (not_not_intro byte_behindProgram))
  exact absurd (hasked.symm.trans hshown) (by decide)

end CubeChip.Xochip
