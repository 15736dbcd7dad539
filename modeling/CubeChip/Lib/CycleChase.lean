import Mathlib.Algebra.Group.Nat.Defs
import Mathlib.Data.Fintype.Pigeonhole
import Mathlib.Data.List.NodupEquivFin
import Mathlib.Logic.Function.Iterate

/-!
# Permuting a buffer in place by chasing cycles

To move the element at `σ a` to `a` for every `a`, without a set of the places done, go through
the places in order and swap each with where its element is by now. That is found by following
`σ` from `a` until a place not done yet comes up: what was at a place done was moved on along its
cycle, to the next place not done. `FirstReturn a c d` says that `d` is this place, for `c`;
`Sorted` is the invariant that it holds the element of `c`.
-/

namespace CycleChase

variable {α : Type*} {σ : Nat → Nat} {n a c d k : Nat}

/-! ## The algorithm -/

/-- Follow `σ` from `b` to a place that is not below `a`, in `fuel` steps at most. -/
def chase (σ : Nat → Nat) (a : Nat) : Nat → Nat → Option Nat
  | 0, _ => none
  | fuel + 1, b => if σ b < a then chase σ a fuel (σ b) else some (σ b)

/-- Swap two elements. -/
def swap (data : Nat → α) (a b : Nat) : Nat → α :=
  Function.update (Function.update data a (data b)) b (data a)

/-- Go through places, and swap each with where its element is. -/
def rearrange (σ : Nat → Nat) (fuel : Nat) : List Nat → (Nat → α) → Option (Nat → α)
  | [], data => some data
  | a :: as, data =>
      (chase σ a fuel a).bind fun b =>
        rearrange σ fuel as (if b ≠ a then swap data a b else data)

/-! ## Permutations of the numbers below `n` -/

/-- `σ` permutes the numbers below `n`. -/
structure Permutes (σ : Nat → Nat) (n : Nat) : Prop where
  lt : ∀ i < n, σ i < n
  inj : ∀ i < n, ∀ j < n, σ i = σ j → i = j

namespace Permutes

theorem iterate_lt (h : Permutes σ n) (hc : c < n) (k : Nat) : σ^[k] c < n := by
  induction k with
  | zero => exact hc
  | succ k ih =>
    rw [Function.iterate_succ_apply']
    exact h.lt _ ih

theorem iterate_inj (h : Permutes σ n) (hc : c < n) (hd : d < n) (k : Nat)
    (heq : σ^[k] c = σ^[k] d) : c = d := by
  induction k with
  | zero => exact heq
  | succ k ih =>
    rw [Function.iterate_succ_apply', Function.iterate_succ_apply'] at heq
    exact ih (h.inj _ (h.iterate_lt hc k) _ (h.iterate_lt hd k) heq)

/-- **Every cycle closes** after at most `n` steps. -/
theorem exists_iterate_eq (h : Permutes σ n) (hc : c < n) :
    ∃ k, 0 < k ∧ k ≤ n ∧ σ^[k] c = c := by
  have hclose : ∀ i j : Fin (n + 1), i < j → σ^[i.val] c = σ^[j.val] c →
      ∃ k, 0 < k ∧ k ≤ n ∧ σ^[k] c = c := by
    intro i j hij heq
    have hlt : i.val < j.val := hij
    have hj := j.isLt
    refine ⟨j.val - i.val, by omega, by omega, ?_⟩
    refine h.iterate_inj (h.iterate_lt hc _) hc i.val ?_
    rw [← Function.iterate_add_apply, Nat.add_sub_cancel' (Nat.le_of_lt hlt)]
    exact heq.symm
  obtain ⟨i, j, hne, heq⟩ := Fintype.exists_ne_map_eq_of_card_lt
    (fun i : Fin (n + 1) => (⟨σ^[i.val] c, h.iterate_lt hc i.val⟩ : Fin n)) (by simp)
  have heq : σ^[i.val] c = σ^[j.val] c := congrArg Fin.val heq
  rcases lt_or_gt_of_ne hne with hlt | hgt
  · exact hclose i j hlt heq
  · exact hclose j i hgt heq.symm

/-- It hits every number. -/
theorem exists_eq (h : Permutes σ n) (hc : c < n) : ∃ b < n, σ b = c := by
  obtain ⟨k, hk, -, heq⟩ := h.exists_iterate_eq hc
  obtain ⟨j, rfl⟩ := Nat.exists_eq_add_of_lt hk
  rw [Nat.zero_add, Function.iterate_succ_apply'] at heq
  exact ⟨_, h.iterate_lt hc j, heq⟩

/-- No element is lost or doubled where each comes from its place under `σ`. -/
theorem perm (h : Permutes σ n) {data data' : Nat → α} (hdata : ∀ i < n, data' i = data (σ i)) :
    ((List.range n).map data').Perm ((List.range n).map data) := by
  have hmap : (List.range n).map data' = ((List.range n).map σ).map data := by
    rw [List.map_map]
    exact List.map_congr_left fun i hi => hdata i (List.mem_range.1 hi)
  rw [hmap]
  refine List.Perm.map data ((List.perm_ext_iff_of_nodup ?_ List.nodup_range).2 fun c => ?_)
  · exact List.Nodup.map_on (fun i hi j hj => h.inj i (List.mem_range.1 hi) j (List.mem_range.1 hj))
      List.nodup_range
  · rw [List.mem_map, List.mem_range]
    constructor
    · rintro ⟨b, hb, rfl⟩
      exact h.lt b (List.mem_range.1 hb)
    · intro hc
      obtain ⟨b, hb, heq⟩ := h.exists_eq hc
      exact ⟨b, List.mem_range.2 hb, heq⟩

end Permutes

/-! ## First returns -/

/-- `d` is the first place after `c`, along `σ`, that is not below `a`. -/
def FirstReturn (σ : Nat → Nat) (a c d : Nat) : Prop :=
  ∃ k, σ^[k + 1] c = d ∧ a ≤ d ∧ ∀ j < k, σ^[j + 1] c < a

namespace FirstReturn

/-- The next place, if it is not below `a`. -/
theorem of_le (h : a ≤ σ c) : FirstReturn σ a c (σ c) :=
  ⟨0, rfl, h, fun j hj => absurd hj (Nat.not_lt_zero j)⟩

theorem unique {d' : Nat} (h : FirstReturn σ a c d) (h' : FirstReturn σ a c d') : d = d' := by
  obtain ⟨k, rfl, hd, hbelow⟩ := h
  obtain ⟨k', rfl, hd', hbelow'⟩ := h'
  rcases Nat.lt_trichotomy k k' with hlt | rfl | hgt
  · exact absurd (hbelow' k hlt) (Nat.not_lt.2 hd)
  · rfl
  · exact absurd (hbelow k' hgt) (Nat.not_lt.2 hd')

/-- Two places not below `a` do not return to the same one: the later one would have been met on
the way. -/
theorem inj (hσ : Permutes σ n) {c' : Nat} (hc : a ≤ c) (hcn : c < n) (hc' : a ≤ c')
    (hcn' : c' < n) (h : FirstReturn σ a c d) (h' : FirstReturn σ a c' d) : c = c' := by
  have hmeet : ∀ {c c' k k' : Nat}, a ≤ c → c < n → c' < n → σ^[k + 1] c = σ^[k' + 1] c' →
      (∀ j < k', σ^[j + 1] c' < a) → ¬k < k' := by
    intro c c' k k' hc hcn hcn' heq hbelow hlt
    obtain ⟨j, rfl⟩ := Nat.exists_eq_add_of_lt hlt
    have hmet : c = σ^[j + 1] c' := by
      refine hσ.iterate_inj hcn (hσ.iterate_lt hcn' _) (k + 1) ?_
      rw [heq, ← Function.iterate_add_apply]
      exact congrArg (σ^[·] c') (by omega)
    have hlow : σ^[j + 1] c' < a := hbelow j (by omega)
    omega
  obtain ⟨k, hk, -, hbelow⟩ := h
  obtain ⟨k', hk', -, hbelow'⟩ := h'
  have heq : σ^[k + 1] c = σ^[k' + 1] c' := hk.trans hk'.symm
  have hle : k ≤ k' := Nat.not_lt.1 (hmeet hc' hcn' hcn heq.symm hbelow)
  have hge : k' ≤ k := Nat.not_lt.1 (hmeet hc hcn hcn' heq hbelow')
  have hsame : k = k' := Nat.le_antisymm hle hge
  subst hsame
  exact hσ.iterate_inj hcn hcn' (k + 1) heq

/-- The chase takes as many steps as there are places below `a` on the way. -/
theorem chase_eq {fuel : Nat} (hbelow : ∀ j < k, σ^[j + 1] c < a) (hd : a ≤ σ^[k + 1] c)
    (hfuel : k < fuel) : chase σ a fuel c = some (σ^[k + 1] c) := by
  induction k generalizing c fuel with
  | zero =>
    obtain ⟨fuel, rfl⟩ := Nat.exists_eq_succ_of_ne_zero (Nat.ne_of_gt hfuel)
    exact if_neg (Nat.not_lt.2 hd)
  | succ k ih =>
    obtain ⟨fuel, rfl⟩ := Nat.exists_eq_succ_of_ne_zero (Nat.ne_of_gt (Nat.zero_lt_of_lt hfuel))
    have hfirst : σ c < a := hbelow 0 (Nat.succ_pos k)
    refine (if_pos hfirst).trans (ih (fun j hj => ?_) hd (by omega))
    exact hbelow (j + 1) (by omega)

/-- **A place not below `a` returns**, and `n` steps are enough to get there: it comes up again
itself, so something does, and the chase ends no later. -/
theorem exists_chase (hσ : Permutes σ n) (hc : a ≤ c) (hcn : c < n) {fuel : Nat}
    (hfuel : n ≤ fuel) :
    ∃ d < n, FirstReturn σ a c d ∧ chase σ a fuel c = some d := by
  obtain ⟨k, hk, hkn, hself⟩ := hσ.exists_iterate_eq hcn
  obtain ⟨l, rfl⟩ := Nat.exists_eq_succ_of_ne_zero (Nat.ne_of_gt hk)
  have hexists : ∃ j, a ≤ σ^[j + 1] c := ⟨l, hself.symm ▸ hc⟩
  have hle : Nat.find hexists ≤ l := Nat.find_min' hexists (hself.symm ▸ hc)
  have hbelow : ∀ j < Nat.find hexists, σ^[j + 1] c < a :=
    fun j hj => Nat.not_le.1 (Nat.find_min hexists hj)
  have hd := Nat.find_spec hexists
  exact ⟨_, hσ.iterate_lt hcn _, ⟨_, rfl, hd, hbelow⟩, chase_eq hbelow hd (by omega)⟩

/-- A return to another place than `a` is one past `a`. -/
theorem succ (h : FirstReturn σ a c d) (hne : d ≠ a) : FirstReturn σ (a + 1) c d := by
  obtain ⟨k, hk, hd, hbelow⟩ := h
  exact ⟨k, hk, by omega, fun j hj => Nat.lt_succ_of_lt (hbelow j hj)⟩

/-- A return to `a` goes on from there. -/
theorem through (h : FirstReturn σ a c a) (h' : FirstReturn σ a a d) (hne : d ≠ a) :
    FirstReturn σ (a + 1) c d := by
  obtain ⟨k, hk, -, hbelow⟩ := h
  obtain ⟨k', hk', hd, hbelow'⟩ := h'
  have hsplit : ∀ j, σ^[k + 1 + (j + 1)] c = σ^[j + 1] a := fun j => by
    rw [Nat.add_comm, Function.iterate_add_apply, hk]
  refine ⟨k + 1 + k', (hsplit k').trans hk', by omega, fun j hj => ?_⟩
  rcases Nat.lt_trichotomy j k with hlt | rfl | hgt
  · exact Nat.lt_succ_of_lt (hbelow j hlt)
  · rw [hk]
    exact Nat.lt_succ_self a
  · obtain ⟨i, rfl⟩ := Nat.exists_eq_add_of_lt hgt
    have hlow := hbelow' i (by omega)
    rw [← hsplit i, show k + 1 + (i + 1) = k + i + 1 + 1 by omega] at hlow
    exact Nat.lt_succ_of_lt hlow

end FirstReturn

/-! ## The invariant -/

variable {old data : Nat → α}

theorem swap_apply (data : Nat → α) (a b i : Nat) :
    swap data a b i = if i = b then data a else if i = a then data b else data i := by
  simp only [swap, Function.update_apply]

/-- Swapping an element with itself would do nothing either. -/
theorem swap_of_ne_apply (data : Nat → α) (a b i : Nat) :
    (if b ≠ a then swap data a b else data) i =
      if i = a then data b else if i = b then data a else data i := by
  by_cases hne : b = a
  · subst hne
    rw [if_neg (not_not_intro rfl)]
    split <;> simp [*]
  · rw [if_pos hne, swap_apply]
    by_cases hia : i = a
    · subst hia
      rw [if_neg (Ne.symm hne), if_pos rfl, if_pos rfl]
    · rw [if_neg hia, if_neg hia]

/-- The places below `a` are done, and what belongs elsewhere is where `σ` returns. -/
structure Sorted (σ : Nat → Nat) (n : Nat) (old : Nat → α) (a : Nat) (data : Nat → α) : Prop where
  done : ∀ c < a, c < n → data c = old (σ c)
  pending : ∀ c d, a ≤ c → c < n → FirstReturn σ a c d → data d = old (σ c)
  rest : ∀ i, n ≤ i → data i = old i

/-- **One place.** -/
theorem Sorted.swap (hσ : Permutes σ n) (h : Sorted σ n old a data) (ha : a < n) {b : Nat}
    (hbn : b < n) (hb : FirstReturn σ a a b) :
    Sorted σ n old (a + 1) (if b ≠ a then swap data a b else data) := by
  have hfound : data b = old (σ a) := h.pending a b (Nat.le_refl a) ha hb
  have hval := swap_of_ne_apply data a b
  constructor
  · intro c hc hcn
    rw [hval]
    split
    · next heq => rw [heq, hfound]
    · next hne =>
      have hb' : a ≤ b := by
        obtain ⟨-, -, hle, -⟩ := hb
        exact hle
      rw [if_neg (by omega)]
      exact h.done c (by omega) hcn
  · intro c d hc hcn hd
    obtain ⟨e, -, he, -⟩ :=
      FirstReturn.exists_chase hσ (Nat.le_of_succ_le hc) hcn (Nat.le_refl n)
    have hac : a ≠ c := by omega
    have heb : e ≠ b := fun heq =>
      hac (FirstReturn.inj hσ (Nat.le_refl a) ha (Nat.le_of_succ_le hc) hcn hb (heq ▸ he))
    have hpending : data e = old (σ c) := h.pending c e (Nat.le_of_succ_le hc) hcn he
    rw [hval]
    by_cases hea : e = a
    · -- What belongs to `c` was at `a`, and is moved on to `b`.
      subst hea
      have hdb : d = b := hd.unique (he.through hb (Ne.symm heb))
      rw [hdb, if_neg (Ne.symm heb), if_pos rfl, hpending]
    · have hde : d = e := hd.unique (he.succ hea)
      rw [hde, if_neg hea, if_neg heb, hpending]
  · intro i hi
    rw [hval, if_neg (by omega), if_neg (by omega)]
    exact h.rest i hi

/-- **A run over places.** -/
theorem Sorted.rearrange (hσ : Permutes σ n) {fuel : Nat} (hfuel : n ≤ fuel) {m : Nat}
    (h : Sorted σ n old a data) (hm : a + m ≤ n) :
    ∃ data', rearrange σ fuel (List.range' a m) data = some data' ∧
      Sorted σ n old (a + m) data' := by
  induction m generalizing a data with
  | zero => exact ⟨data, rfl, h⟩
  | succ m ih =>
    obtain ⟨b, hbn, hb, hchase⟩ :=
      FirstReturn.exists_chase (a := a) hσ (Nat.le_refl a) (by omega) hfuel
    obtain ⟨data', hrun, hsorted⟩ := ih (h.swap hσ (by omega) hbn hb) (by omega)
    refine ⟨data', ?_, by rwa [Nat.add_right_comm] at hsorted⟩
    rw [List.range'_succ, CycleChase.rearrange, hchase]
    exact hrun

/-- **Rearranging**: where the first place and the last are fixed, going through the ones between
puts every element where it belongs, and leaves the rest of the buffer alone. -/
theorem exists_rearrange (hσ : Permutes σ n) (hn : 1 < n) (hfirst : σ 0 = 0)
    (hlast : σ (n - 1) = n - 1) {fuel : Nat} (hfuel : n ≤ fuel) (old : Nat → α) :
    ∃ data, rearrange σ fuel (List.range' 1 (n - 2)) old = some data ∧
      (∀ c < n, data c = old (σ c)) ∧ ∀ i, n ≤ i → data i = old i := by
  have hstart : Sorted σ n old 1 old := by
    refine ⟨fun c hc _ => ?_, fun c d hc hcn hd => ?_, fun i _ => rfl⟩
    · rw [Nat.lt_one_iff.1 hc, hfirst]
    · have hpos : 1 ≤ σ c := Nat.one_le_iff_ne_zero.2 fun hzero =>
        absurd (hσ.inj c hcn 0 (by omega) (hzero.trans hfirst.symm)) (by omega)
      rw [hd.unique (FirstReturn.of_le hpos)]
  obtain ⟨data, hrun, hsorted⟩ := hstart.rearrange hσ hfuel (m := n - 2) (by omega)
  refine ⟨data, hrun, fun c hc => ?_, hsorted.rest⟩
  by_cases hcn : c < 1 + (n - 2)
  · exact hsorted.done c hcn hc
  · have heq : c = n - 1 := by omega
    have hself : FirstReturn σ (1 + (n - 2)) (n - 1) (σ (n - 1)) :=
      FirstReturn.of_le (by omega)
    rw [hlast] at hself
    rw [heq]
    exact hsorted.pending (n - 1) (n - 1) (by omega) (by omega) hself

end CycleChase
