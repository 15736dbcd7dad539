import Mathlib.Data.List.Basic
import Mathlib.Data.List.Perm.Basic
import Mathlib.Order.Lattice

/-!
# Maps in the order of their keys

A map as the list of its entries, in the order of the keys, with access that makes an entry where
there is none. What an access changes is one entry (`mem_access`), and what the values hold
together is what it was with what was added to that one (`flatMap_access_perm`). While the keys
are in order an access is seen at its key and at no other (`lookup_access_self`,
`lookup_access_of_ne`).
-/

namespace OrderedMap

variable {K V α : Type*} [LinearOrder K]

/-- `f` at the value of `k`, which is `d` if there was none. -/
def access (d : V) (k : K) (f : V → V) : List (K × V) → List (K × V)
  | [] => [(k, f d)]
  | (j, v) :: m =>
      if k < j then (k, f d) :: (j, v) :: m
      else if j < k then (j, v) :: access d k f m
      else (j, f v) :: m

/-- The value of `k`, which is `d` if there is none. -/
def lookup (d : V) (k : K) : List (K × V) → V
  | [] => d
  | (j, v) :: m => if j = k then v else lookup d k m

/-- The keys are in order, so none has two entries. -/
def Sorted (m : List (K × V)) : Prop := (m.map Prod.fst).Pairwise (· < ·)

variable {d : V} {k : K} {f : V → V} {m : List (K × V)}

/-- The entries after an access: those there were, and the one accessed. -/
theorem mem_access {j : K} {v' : V} (h : (j, v') ∈ access d k f m) :
    (j, v') ∈ m ∨ j = k ∧ ∃ v, ((k, v) ∈ m ∨ v = d) ∧ v' = f v := by
  induction m with
  | nil =>
      cases List.mem_singleton.1 h
      exact .inr ⟨rfl, d, .inr rfl, rfl⟩
  | cons e m ih =>
      obtain ⟨i, v⟩ := e
      rw [access] at h
      split at h
      · rcases List.mem_cons.1 h with heq | h
        · cases heq
          exact .inr ⟨rfl, d, .inr rfl, rfl⟩
        · exact .inl h
      · next hle =>
        split at h
        · rcases List.mem_cons.1 h with heq | h
          · exact .inl (heq ▸ List.mem_cons_self)
          · rcases ih h with h | ⟨rfl, u, hu, rfl⟩
            · exact .inl (List.mem_cons_of_mem _ h)
            · exact .inr ⟨rfl, u, hu.imp_left (List.mem_cons_of_mem _), rfl⟩
        · next hge =>
          rcases List.mem_cons.1 h with heq | h
          · cases heq
            obtain rfl : j = k := le_antisymm (not_lt.1 hle) (not_lt.1 hge)
            exact .inr ⟨rfl, v, .inl List.mem_cons_self, rfl⟩
          · exact .inl (List.mem_cons_of_mem _ h)

/-- What an access adds to one value it adds to what all of them list. -/
theorem flatMap_access_perm {g : V → List α} {added : List α} (hd : g d = [])
    (hf : ∀ v, (g (f v)).Perm (g v ++ added)) (m : List (K × V)) :
    ((access d k f m).flatMap fun e => g e.2).Perm ((m.flatMap fun e => g e.2) ++ added) := by
  have hnew : (g (f d)).Perm added := by simpa [hd] using hf d
  induction m with
  | nil => simpa [access] using hnew
  | cons e m ih =>
      obtain ⟨j, v⟩ := e
      rw [access]
      split
      · rw [List.flatMap_cons]
        exact (hnew.append_right _).trans List.perm_append_comm
      · split
        · rw [List.flatMap_cons, List.flatMap_cons, List.append_assoc]
          exact ih.append_left _
        · rw [List.flatMap_cons, List.flatMap_cons, List.append_assoc]
          refine ((hf v).append_right _).trans ?_
          rw [List.append_assoc]
          exact List.perm_append_comm.append_left _

/-! ## Looking up -/

/-- A map in order, entry by entry. -/
theorem sorted_cons {e : K × V} : Sorted (e :: m) ↔ (∀ x ∈ m, e.1 < x.1) ∧ Sorted m := by
  rw [Sorted, List.map_cons, List.pairwise_cons, List.forall_mem_map]
  rfl

/-- A key before all others is not there. -/
theorem lookup_of_lt (h : ∀ e ∈ m, k < e.1) : lookup d k m = d := by
  induction m with
  | nil => rfl
  | cons e m ih =>
      obtain ⟨hlt, hrest⟩ := List.forall_mem_cons.1 h
      rw [lookup, if_neg hlt.ne', ih hrest]

/-- A map of default values alone. -/
theorem lookup_of_forall (h : ∀ e ∈ m, e.2 = d) : lookup d k m = d := by
  induction m with
  | nil => rfl
  | cons e m ih =>
      obtain ⟨hfirst, hrest⟩ := List.forall_mem_cons.1 h
      rw [lookup, ih hrest, hfirst, ite_self]

/-- The values of a map taken through a function that keeps the default. -/
theorem lookup_map {V' : Type*} (g : V → V') :
    lookup (g d) k (m.map fun e => (e.1, g e.2)) = g (lookup d k m) := by
  induction m with
  | nil => rfl
  | cons e m ih => rw [List.map_cons, lookup, lookup, ih, apply_ite g]

/-- The value accessed. -/
theorem lookup_access_self (h : Sorted m) : lookup d k (access d k f m) = f (lookup d k m) := by
  induction m with
  | nil => exact if_pos rfl
  | cons e m ih =>
      obtain ⟨j, v⟩ := e
      obtain ⟨hlt, hm⟩ := sorted_cons.1 h
      rw [access]
      split
      · next hkj =>
        have hnone : lookup d k ((j, v) :: m) = d :=
          lookup_of_lt (List.forall_mem_cons.2 ⟨hkj, fun x hx => hkj.trans (hlt x hx)⟩)
        rw [hnone, lookup, if_pos rfl]
      · next hle =>
        split
        · next hjk => rw [lookup, lookup, if_neg hjk.ne, if_neg hjk.ne, ih hm]
        · next hge =>
          have hjk : j = k := le_antisymm (not_lt.1 hle) (not_lt.1 hge)
          rw [lookup, lookup, if_pos hjk, if_pos hjk]

/-- The other values stay. -/
theorem lookup_access_of_ne {i : K} (hi : i ≠ k) :
    lookup d i (access d k f m) = lookup d i m := by
  induction m with
  | nil => exact if_neg hi.symm
  | cons e m ih =>
      obtain ⟨j, v⟩ := e
      rw [access]
      split
      · rw [lookup, if_neg hi.symm]
      · next hle =>
        split
        · rw [lookup, lookup, ih]
        · next hge =>
          have hjk : j = k := le_antisymm (not_lt.1 hle) (not_lt.1 hge)
          rw [lookup, lookup, hjk, if_neg hi.symm, if_neg hi.symm]

/-- An access keeps the order. -/
theorem sorted_access (h : Sorted m) : Sorted (access d k f m) := by
  induction m with
  | nil => exact List.pairwise_singleton ..
  | cons e m ih =>
      obtain ⟨j, v⟩ := e
      obtain ⟨hlt, hm⟩ := sorted_cons.1 h
      rw [access]
      split
      · next hkj =>
        exact sorted_cons.2
          ⟨List.forall_mem_cons.2 ⟨hkj, fun x hx => hkj.trans (hlt x hx)⟩, h⟩
      · split
        · next hjk =>
          refine sorted_cons.2 ⟨fun x hx => ?_, ih hm⟩
          obtain ⟨i, v'⟩ := x
          rcases mem_access hx with hx | ⟨hx, -⟩
          · exact hlt (i, v') hx
          · exact hx ▸ hjk
        · exact sorted_cons.2 ⟨hlt, hm⟩

/-- An entry is the value of its key. -/
theorem lookup_split {before after : List (K × V)} {v : V}
    (h : Sorted (before ++ (k, v) :: after)) : lookup d k (before ++ (k, v) :: after) = v := by
  induction before with
  | nil => exact if_pos rfl
  | cons e before ih =>
      obtain ⟨hlt, hrest⟩ := sorted_cons.1 h
      have hne : e.1 ≠ k := (hlt (k, v) (by simp)).ne
      rw [List.cons_append, lookup, if_neg hne, ih hrest]

/-- Another value at a key is seen at no other. -/
theorem lookup_split_of_ne {before after : List (K × V)} {v v' : V} {i : K} (hi : i ≠ k) :
    lookup d i (before ++ (k, v) :: after) = lookup d i (before ++ (k, v') :: after) := by
  induction before with
  | nil => rw [List.nil_append, List.nil_append, lookup, lookup, if_neg hi.symm, if_neg hi.symm]
  | cons e before ih => rw [List.cons_append, List.cons_append, lookup, lookup, ih]

end OrderedMap
