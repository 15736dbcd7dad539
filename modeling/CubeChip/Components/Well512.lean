import Mathlib.Data.Finite.Prod
import Mathlib.Dynamics.PeriodicPts.Lemmas
import CubeChip.Lib.XorShift
import CubeChip.Components.Peripherals

/-!
# `Well512`

`next` changes two words of the state, and each of the two can be computed back from what is there
after it: no state has two predecessors. So the generator comes by the state it was seeded with
again, two generators in different states never meet, and one that is not all zero never gets
stuck there.
-/

namespace CubeChip

namespace Well512

variable {g g' : Well512}

/-! ## Words -/

/-- The word an index stands for. -/
def slot (i : UInt32) : Fin 16 := Fin.ofNat 16 (i &&& 0xF).toNat

/-- A word is known from its XOR with a shift of itself. -/
theorem xor_shift_inj {k : UInt32} (hk : 0 < (k.toBitVec % 32#32).toNat) {a b : UInt32}
    (h : a ^^^ (a <<< k) = b ^^^ (b <<< k)) : a = b :=
  UInt32.toBitVec_inj.1 (BitVec.xor_shiftLeft_injective hk (congrArg UInt32.toBitVec h))

/-- The words `next` works on are four different ones. -/
theorem slots_ne {i : UInt32} (h : i < 16) :
    slot (i + 13) ≠ slot i ∧ slot (i + 9) ≠ slot i ∧ slot ((i + 15) &&& 0xF) ≠ slot i ∧
      slot (i + 13) ≠ slot ((i + 15) &&& 0xF) ∧ slot (i + 9) ≠ slot ((i + 15) &&& 0xF) := by
  have hall : ∀ n : Fin 16, let i := UInt32.ofNat n.val
      slot (i + 13) ≠ slot i ∧ slot (i + 9) ≠ slot i ∧ slot ((i + 15) &&& 0xF) ≠ slot i ∧
        slot (i + 13) ≠ slot ((i + 15) &&& 0xF) ∧ slot (i + 9) ≠ slot ((i + 15) &&& 0xF) := by
    decide
  have hi := hall ⟨i.toNat, h⟩
  rwa [UInt32.ofNat_toNat] at hi

/-- The index before can be read off the index after. -/
theorem index_inj {i j : UInt32} (hi : i < 16) (hj : j < 16)
    (h : (i + 15) &&& 0xF = (j + 15) &&& 0xF) : i = j := by
  have hall : ∀ m n : Fin 16,
      (UInt32.ofNat m.val + 15) &&& 0xF = (UInt32.ofNat n.val + 15) &&& 0xF → m = n := by decide
  have hij := hall ⟨i.toNat, hi⟩ ⟨j.toNat, hj⟩ (by rwa [UInt32.ofNat_toNat, UInt32.ofNat_toNat])
  exact UInt32.toNat_inj.1 (Fin.mk.inj hij)

/-! ## One step -/

/-- What `next` takes from the words it does not change. -/
def kept (g : Well512) : UInt32 := g.word (g.index + 9) ^^^ (g.word (g.index + 9) >>> 11)

/-- And from the word at the index. -/
def mixed (g : Well512) : UInt32 :=
  g.word g.index ^^^ g.word (g.index + 13) ^^^ (g.word g.index <<< 16) ^^^
    (g.word (g.index + 13) <<< 15)

/-- The word written first. -/
def first (g : Well512) : UInt32 := mixed g ^^^ kept g

/-- The word written first, tempered. -/
def tempered (g : Well512) : UInt32 := first g ^^^ ((first g <<< 5) &&& 0xDA442D24)

/-- The word written last, from the one that was there. -/
def last (g : Well512) (a : UInt32) : UInt32 :=
  a ^^^ mixed g ^^^ tempered g ^^^ (a <<< 2) ^^^ (mixed g <<< 18) ^^^ (kept g <<< 28)

/-- The first mix, by the words it takes. -/
theorem mixed_eq (g : Well512) : mixed g = (g.word g.index ^^^ (g.word g.index <<< 16)) ^^^
    (g.word (g.index + 13) ^^^ (g.word (g.index + 13) <<< 15)) := by
  unfold mixed
  generalize g.word g.index <<< 16 = a'
  generalize g.word (g.index + 13) <<< 15 = c'
  ac_rfl

/-- The word stored last, by the mixes before. -/
theorem last_eq (g : Well512) (a : UInt32) : last g a = (a ^^^ (a <<< 2)) ^^^
    (mixed g ^^^ tempered g ^^^ (mixed g <<< 18) ^^^ (kept g <<< 28)) := by
  unfold last
  generalize a <<< 2 = a'
  generalize mixed g <<< 18 = b'
  generalize kept g <<< 28 = c'
  ac_rfl

/-- The state after `next`. -/
theorem next_eq (h : g.index < 16) : g.next.2 = ⟨Function.update
    (Function.update g.state (slot g.index) (first g)) (slot ((g.index + 15) &&& 0xF))
      (last g (g.state (slot ((g.index + 15) &&& 0xF)))), (g.index + 15) &&& 0xF⟩ := by
  obtain ⟨-, -, hne, -⟩ := slots_ne h
  have hread : (g.setWord g.index (first g)).state (slot ((g.index + 15) &&& 0xF)) =
    g.state (slot ((g.index + 15) &&& 0xF)) := Function.update_of_ne hne ..
  rw [← hread]
  rfl

/-- **No state has two predecessors.** -/
theorem next_injective (h : g.index < 16) (h' : g'.index < 16) (heq : g.next.2 = g'.next.2) :
    g = g' := by
  rw [next_eq h, next_eq h'] at heq
  obtain ⟨hstate, hnext⟩ := Well512.mk.inj heq
  have hindex : g.index = g'.index := index_inj h h' hnext
  obtain ⟨h13, h9, hne, h13', h9'⟩ := slots_ne h
  rw [← hindex] at hstate
  set p := slot g.index with hp
  set q := slot ((g.index + 15) &&& 0xF) with hq
  have hat := fun r => congrFun hstate r
  -- the words that are not written
  have hrest : ∀ r, r ≠ p → r ≠ q → g.state r = g'.state r := fun r hrp hrq => by
    have hr := hat r
    rwa [Function.update_of_ne hrq, Function.update_of_ne hrq, Function.update_of_ne hrp,
      Function.update_of_ne hrp] at hr
  have hkept : kept g = kept g' := by
    have hword : g.word (g.index + 9) = g'.word (g'.index + 9) := by
      rw [← hindex]
      exact hrest _ h9 h9'
    rw [kept, kept, hword]
  have hfirst : first g = first g' := by
    have hr := hat p
    rwa [Function.update_of_ne hne.symm, Function.update_of_ne hne.symm, Function.update_self,
      Function.update_self] at hr
  have hmixed : mixed g = mixed g' := by
    rw [first, first, hkept] at hfirst
    exact (UInt32.xor_left_inj _).1 hfirst
  have hp : g.state p = g'.state p := by
    have hword : g.word (g.index + 13) = g'.word (g'.index + 13) := by
      rw [← hindex]
      exact hrest _ h13 h13'
    rw [mixed_eq, mixed_eq, hword] at hmixed
    have hroot := xor_shift_inj (by decide) ((UInt32.xor_left_inj _).1 hmixed)
    rwa [← hindex] at hroot
  have hq : g.state q = g'.state q := by
    have hr := hat q
    rw [Function.update_self, Function.update_self] at hr
    rw [last_eq, last_eq, hmixed, tempered, tempered, hfirst, hkept] at hr
    exact xor_shift_inj (by decide) ((UInt32.xor_left_inj _).1 hr)
  have hall : g.state = g'.state := by
    funext r
    by_cases hrp : r = p
    · rw [hrp, hp]
    · by_cases hrq : r = q
      · rw [hrq, hq]
      · exact hrest r hrp hrq
  cases g
  cases g'
  cases hall
  cases hindex
  rfl

/-! ## Runs -/

/-- Taking `n` numbers moves on by `n`. -/
theorem iterate_next (n : Nat) (g : Well512) :
    (fun g : Well512 => g.next.2)^[n] g = g.advance n := by
  induction n with
  | zero => rfl
  | succ n ih => rw [Function.iterate_succ_apply', ih]; rfl

/-- The index stays one of a word. -/
theorem index_next (g : Well512) : g.next.2.index < 16 := by
  have hmask : (g.next.2.index).toNat = (g.index + 15).toNat &&& 15 := UInt32.toNat_and ..
  rw [UInt32.lt_iff_toNat_lt, hmask]
  exact Nat.lt_succ_of_le Nat.and_le_right

/-- So it does over any number of steps. -/
theorem index_advance (h : g.index < 16) (n : Nat) : (g.advance n).index < 16 := by
  cases n with
  | zero => exact h
  | succ n => exact index_next (g.advance n)

instance : Finite Well512 :=
  Finite.of_injective (fun g => (fun i => (g.state i).toFin, g.index.toFin)) fun g g' heq => by
    obtain ⟨hstate, hindex⟩ := Prod.mk.inj heq
    cases g
    cases g'
    cases UInt32.toFin_inj.1 hindex
    cases funext fun i => UInt32.toFin_inj.1 (congrFun hstate i)
    rfl

/-- `next`, as a step between generators whose index is in range. -/
def step (g : { g : Well512 // g.index < 16 }) : { g : Well512 // g.index < 16 } :=
  ⟨g.val.next.2, index_next g.val⟩

/-- No two states are followed by the same one. -/
theorem step_injective : Function.Injective step := fun g g' heq =>
  Subtype.ext (next_injective g.property g'.property (congrArg Subtype.val heq))

/-- Steps of states with an index are steps of their generators. -/
theorem iterate_step (n : Nat) (g : { g : Well512 // g.index < 16 }) :
    (step^[n] g).val = g.val.advance n := by
  rw [← iterate_next]
  exact Function.Semiconj.iterate_right (f := Subtype.val) (fun _ => rfl) n g

/-- A generator whose words are all 0 stays so. -/
theorem state_next_zero {i : UInt32} (h : i < 16) :
    (next ⟨fun _ => 0, i⟩).2 = ⟨fun _ => 0, (i + 15) &&& 0xF⟩ := by
  have hfirst : first ⟨fun _ => 0, i⟩ = 0 := by simp [first, mixed, kept, word]
  have hlast : last ⟨fun _ => 0, i⟩ 0 = 0 := by simp [last, tempered, first, mixed, kept, word]
  rw [next_eq h]
  dsimp only
  rw [hfirst, hlast, Function.update_eq_self_iff.2 rfl, Function.update_eq_self_iff.2 rfl]

/-- What a generator keeps apart. -/
structure Recurrent (g : Well512) : Prop where
  returns : ∃ n > 0, g.advance n = g
  apart : ∀ g' : Well512, g'.index < 16 → ∀ n, g.advance n = g'.advance n → g = g'
  alive : g.state ≠ (fun _ => 0) → ∀ n, (g.advance n).state ≠ fun _ => 0

/-- **The generator loses no state.** It comes by the state it started in again, does not meet
another one, and never ends with all its words at 0. -/
theorem recurrent (g : Well512) (h : g.index < 16) : Recurrent g where
  returns := by
    obtain ⟨n, hn, hperiod⟩ := step_injective.mem_periodicPts ⟨g, h⟩
    exact ⟨n, hn, (iterate_step n ⟨g, h⟩).symm.trans (congrArg Subtype.val hperiod)⟩
  apart := fun g' h' n heq => by
    have hiter : step^[n] ⟨g, h⟩ = step^[n] ⟨g', h'⟩ :=
      Subtype.ext (by rw [iterate_step, iterate_step, heq])
    exact congrArg Subtype.val (step_injective.iterate n hiter)
  alive := fun hg n => by
    induction n with
    | zero => exact hg
    | succ n ih =>
        intro hzero
        have hindex := index_advance h n
        have hnext : (g.advance n).next.2 = ⟨fun _ => 0, ((g.advance n).index + 15) &&& 0xF⟩ := by
          rw [← hzero]
          rfl
        have hsame : g.advance n = ⟨fun _ => 0, (g.advance n).index⟩ :=
          next_injective hindex hindex (hnext.trans (state_next_zero hindex).symm)
        exact ih (congrArg Well512.state hsame)

/-- The generator of seed 0. -/
theorem recurrent_seeded : Recurrent (seeded 0) := recurrent (seeded 0) (by decide)

end Well512

end CubeChip
