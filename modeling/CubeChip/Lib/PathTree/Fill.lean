import CubeChip.Lib.PathTree
import Mathlib.Data.List.Perm.Basic

/-!
# Filling a tree of named entries from another one

`fill` gives a tree the entries it lacks of another one, and goes into the tables both have; a
leaf stays what it is and blocks the paths through it. With the names of each table distinct,
`at?_fill` says what is found at a path afterwards. Both `fill` and `merge` are idempotent
(`fill_fill`, `merge_merge`).
-/

namespace PathTree

variable {K L : Type*}

/-- Induction over a tree: a table by its entries. -/
@[elab_as_elim]
theorem induct {motive : PathTree K L → Prop} (leaf : ∀ l, motive (.leaf l))
    (node : ∀ entries : Entries K L, (∀ e ∈ entries, motive e.2) → motive (.node entries)) :
    ∀ t, motive t :=
  @PathTree.rec K L motive (fun entries => ∀ e ∈ entries, motive e.2) (fun e => motive e.2) leaf
    node (fun _ h => absurd h List.not_mem_nil)
    (fun _ _ hhead htail e he => (List.mem_cons.1 he).elim (fun heq => heq ▸ hhead) (htail e))
    (fun _ _ h => h)

/-- The names of every table are distinct. -/
inductive Distinct : PathTree K L → Prop where
  | leaf (l : L) : Distinct (.leaf l)
  | node {entries : Entries K L} (nodup : (entries.map Prod.fst).Nodup)
      (subtrees : ∀ e ∈ entries, Distinct e.2) : Distinct (.node entries)

variable [DecidableEq K]

/-- A leaf is in the way of the path. -/
def blocked : List K → PathTree K L → Bool
  | [], _ => false
  | _ :: _, .leaf _ => true
  | k :: path, .node entries => (entries.lookup k).elim false (blocked path)

variable {k j : K} {t u v : PathTree K L} {entries dst src : Entries K L} {p : List K} {l : L}

/-- An entry found is there. -/
theorem mem_of_lookup (h : entries.lookup k = some t) : (k, t) ∈ entries := by
  obtain ⟨l₁, l₂, rfl, -⟩ := List.lookup_eq_some_iff.1 h
  exact List.mem_append_right _ List.mem_cons_self

/-- An entry that is there is found if no key is twice. -/
theorem lookup_of_mem (hnodup : (entries.map Prod.fst).Nodup) (h : (k, t) ∈ entries) :
    entries.lookup k = some t := by
  induction entries with
  | nil => cases h
  | cons e entries ih =>
      obtain ⟨hnot, hrest⟩ := List.nodup_cons.1 hnodup
      rcases List.mem_cons.1 h with rfl | hmem
      · exact List.lookup_cons_self
      · have hne : k ≠ e.1 := by
          rintro rfl
          exact hnot (List.mem_map.2 ⟨_, hmem, rfl⟩)
        rw [lookup_cons_of_ne hne, ih hrest hmem]

/-- The tables in a table. -/
theorem Distinct.of_lookup (h : Distinct (.node entries)) (hk : entries.lookup k = some t) :
    Distinct t := by
  cases h with
  | node _ hsub => exact hsub _ (mem_of_lookup hk)

/-- A path is blocked by a leaf at a shorter one. -/
theorem blocked_iff :
    blocked p t = true ↔ ∃ q l, q <+: p ∧ q ≠ p ∧ at? q t = some (.leaf l) := by
  constructor
  · intro h
    induction p generalizing t with
    | nil => cases h
    | cons k p ih =>
        cases t with
        | leaf l => exact ⟨[], l, List.nil_prefix, (List.cons_ne_nil _ _).symm, rfl⟩
        | node entries =>
            rw [blocked] at h
            cases hk : entries.lookup k with
            | none =>
                rw [hk] at h
                cases h
            | some u =>
                rw [hk] at h
                obtain ⟨q, l, hq, hne, hat⟩ := ih h
                refine ⟨k :: q, l, List.cons_prefix_cons.2 ⟨rfl, hq⟩, ?_, ?_⟩
                · exact fun heq => hne (List.cons.inj heq).2
                · rw [at?, hk, Option.bind_some, hat]
  · rintro ⟨q, l, hq, hne, hat⟩
    induction q generalizing p t with
    | nil =>
        cases Option.some.inj hat
        cases p with
        | nil => exact absurd rfl hne
        | cons k p => rfl
    | cons k q ih =>
        cases t with
        | leaf l => cases hat
        | node entries =>
            obtain ⟨p, rfl⟩ : ∃ p', p = k :: p' := by
              obtain ⟨r, rfl⟩ := hq
              exact ⟨q ++ r, rfl⟩
            obtain ⟨u, hk, hat⟩ := Option.bind_eq_some_iff.1 hat
            have hrest : q ≠ p := fun heq => hne (heq ▸ rfl)
            rw [blocked, hk, Option.elim_some]
            exact ih (List.cons_prefix_cons.1 hq).2 hrest hat

/-! ## Setting an entry -/

/-- Give the entry `k` another tree, in its place. -/
def setEntry (k : K) (t : PathTree K L) : Entries K L → Entries K L
  | [] => []
  | (j, u) :: entries => if k = j then (k, t) :: entries else (j, u) :: setEntry k t entries

/-- The entry set. -/
theorem lookup_setEntry (h : (entries.lookup k).isSome) :
    (setEntry k t entries).lookup k = some t := by
  induction entries with
  | nil => cases h
  | cons e entries ih =>
      obtain ⟨j, u⟩ := e
      rw [setEntry]
      split
      · exact List.lookup_cons_self
      · next hne =>
          rw [lookup_cons_of_ne hne] at h ⊢
          exact ih h

/-- The other entries stay. -/
theorem lookup_setEntry_of_ne (h : j ≠ k) :
    (setEntry k t entries).lookup j = entries.lookup j := by
  induction entries with
  | nil => rfl
  | cons e entries ih =>
      obtain ⟨i, u⟩ := e
      rw [setEntry]
      split
      · next heq =>
          rw [lookup_cons_of_ne h, lookup_cons_of_ne (heq ▸ h)]
      · rw [List.lookup_cons, List.lookup_cons, ih]

/-- The tree that is there changes nothing. -/
theorem setEntry_self (h : entries.lookup k = some t) : setEntry k t entries = entries := by
  induction entries with
  | nil => rfl
  | cons e entries ih =>
      obtain ⟨j, u⟩ := e
      rw [setEntry]
      split
      · next heq =>
          subst heq
          rw [List.lookup_cons_self] at h
          rw [Option.some.inj h]
      · next hne =>
          rw [lookup_cons_of_ne hne] at h
          rw [ih h]

/-! ## Filling -/

section Fill

variable [LT K] [DecidableLT K]

mutual

/-- Give `dst` what it lacks of `src`. -/
def fill : PathTree K L → PathTree K L → PathTree K L
  | .node dst, .node src => .node (fillEntries dst src)
  | dst, _ => dst

/-- One entry of `src` after the other: it is inserted, or fills the one that is there. -/
def fillEntries (dst : Entries K L) : Entries K L → Entries K L
  | [] => dst
  | (k, t) :: src =>
      fillEntries (match dst.lookup k with
        | none => insertOrAssign k t dst
        | some u => setEntry k (fill u t) dst) src

end

/-- An entry of both is filled, one of either is kept or added. -/
theorem lookup_fillEntries (hsrc : (src.map Prod.fst).Nodup) :
    (fillEntries dst src).lookup j =
      (src.lookup j).elim (dst.lookup j) fun t =>
        some ((dst.lookup j).elim t fun u => fill u t) := by
  induction src generalizing dst with
  | nil => rfl
  | cons e src ih =>
      obtain ⟨k, t⟩ := e
      obtain ⟨hnot, hrest⟩ := List.nodup_cons.1 hsrc
      rw [fillEntries, ih hrest]
      by_cases hj : j = k
      · subst hj
        have hnone : src.lookup j = none := by
          cases hlookup : src.lookup j with
          | none => rfl
          | some u => exact absurd (List.mem_map_of_mem (mem_of_lookup hlookup)) hnot
        rw [hnone, List.lookup_cons_self, Option.elim_none, Option.elim_some]
        cases hdst : dst.lookup j with
        | none => exact lookup_insertOrAssign
        | some u => exact lookup_setEntry (by rw [hdst]; rfl)
      · rw [lookup_cons_of_ne hj]
        have hstep : (match dst.lookup k with
            | none => insertOrAssign k t dst
            | some u => setEntry k (fill u t) dst).lookup j = dst.lookup j := by
          cases dst.lookup k with
          | none => exact lookup_insertOrAssign_of_ne hj
          | some u => exact lookup_setEntry_of_ne hj
        rw [hstep]

/-- A tree is filled by a leaf with nothing. -/
theorem fill_leaf (t : PathTree K L) (l : L) : fill t (.leaf l) = t := by
  cases t <;> rw [fill]
  · simp
  · simp

/-- A leaf is never filled. -/
theorem leaf_fill (l : L) (u : PathTree K L) : fill (.leaf l) u = .leaf l := by
  rw [fill]
  simp

/-- What is found at a path after filling: what was there, filled by what `src` has there, and
where nothing was and no leaf is in the way, what `src` has there. -/
theorem at?_fill (hu : Distinct u) : at? p (fill t u) =
    (at? p t).elim (if blocked p t then none else at? p u)
      fun v => some ((at? p u).elim v (fill v)) := by
  induction p generalizing t u with
  | nil => rfl
  | cons k p ih =>
      cases t with
      | leaf l =>
          rw [leaf_fill]
          rfl
      | node dst =>
          cases u with
          | leaf m =>
              rw [fill_leaf]
              change at? (k :: p) (.node dst) = (at? (k :: p) (.node dst)).elim _ fun v => some v
              cases at? (k :: p) (.node dst) with
              | none => exact (ite_self none).symm
              | some v => rfl
          | node src =>
              cases hu with
              | node hnodup hsub =>
                  rw [fill, at?, at?, at?, blocked, lookup_fillEntries hnodup]
                  cases hsrc : src.lookup k with
                  | none =>
                      rw [Option.elim_none, Option.bind_none, ite_self]
                      cases (dst.lookup k).bind (at? p) with
                      | none => rfl
                      | some v => rfl
                  | some u =>
                      have hdistinct := hsub _ (mem_of_lookup hsrc)
                      cases dst.lookup k with
                      | none => rfl
                      | some t => exact ih hdistinct

/-- Nothing changes where every entry is there and full. -/
theorem fillEntries_eq_self
    (h : ∀ e ∈ src, ∃ u, dst.lookup e.1 = some u ∧ fill u e.2 = u) :
    fillEntries dst src = dst := by
  induction src with
  | nil => rfl
  | cons e src ih =>
      obtain ⟨k, t⟩ := e
      obtain ⟨u, hu, hfill⟩ := h (k, t) List.mem_cons_self
      have hrest := ih fun e he => h e (List.mem_cons_of_mem _ he)
      have hstep : setEntry k (fill u t) dst = dst := setEntry_self (hfill.symm ▸ hu)
      rw [fillEntries, hu]
      show fillEntries (setEntry k (fill u t) dst) src = dst
      rw [hstep, hrest]

/-- A tree lacks nothing of itself. -/
theorem fill_self (ht : Distinct t) : fill t t = t := by
  induction t using induct with
  | leaf l => exact leaf_fill l _
  | node entries ih =>
      cases ht with
      | node hnodup hsub =>
          rw [fill, fillEntries_eq_self fun e he => ?_]
          exact ⟨e.2, lookup_of_mem hnodup he, ih e he (hsub e he)⟩

/-- **Filling twice is filling once.** -/
theorem fill_fill (hu : Distinct u) : fill (fill t u) u = fill t u := by
  induction u using induct generalizing t with
  | leaf l => rw [fill_leaf, fill_leaf]
  | node src ih =>
      cases t with
      | leaf l => rw [leaf_fill, leaf_fill]
      | node dst =>
          cases hu with
          | node hnodup hsub =>
              rw [fill, fill, fillEntries_eq_self fun e he => ?_]
              have hlookup : (fillEntries dst src).lookup e.1 = _ := lookup_fillEntries hnodup
              rw [lookup_of_mem hnodup he, Option.elim_some] at hlookup
              refine ⟨_, hlookup, ?_⟩
              cases dst.lookup e.1 with
              | none => exact fill_self (hsub e he)
              | some v => exact ih e he (hsub e he)

/-! ### Distinct names -/

omit [LT K] [DecidableLT K] in
/-- The entries after setting one. -/
theorem mem_setEntry {e : K × PathTree K L} (h : e ∈ setEntry k t entries) :
    e = (k, t) ∨ e ∈ entries := by
  induction entries with
  | nil => cases h
  | cons f entries ih =>
      obtain ⟨j, u⟩ := f
      rw [setEntry] at h
      split at h
      · exact (List.mem_cons.1 h).imp_right (List.mem_cons_of_mem _)
      · rcases List.mem_cons.1 h with rfl | h
        · exact .inr List.mem_cons_self
        · exact (ih h).imp_right (List.mem_cons_of_mem _)

omit [LT K] [DecidableLT K] in
/-- The keys stay. -/
theorem map_fst_setEntry : (setEntry k t entries).map Prod.fst = entries.map Prod.fst := by
  induction entries with
  | nil => rfl
  | cons f entries ih =>
      obtain ⟨j, u⟩ := f
      rw [setEntry]
      split
      · next heq => rw [List.map_cons, List.map_cons, heq]
      · rw [List.map_cons, List.map_cons, ih]

/-- A new entry, at the place its key has. -/
theorem insertOrAssign_perm (h : entries.lookup k = none) :
    (insertOrAssign k t entries).Perm ((k, t) :: entries) := by
  induction entries with
  | nil => exact .refl _
  | cons f entries ih =>
      obtain ⟨j, u⟩ := f
      rw [insertOrAssign]
      split_ifs with heq hlt
      · rw [heq, List.lookup_cons_self] at h
        cases h
      · exact .refl _
      · rw [lookup_cons_of_ne heq] at h
        exact ((ih h).cons (j, u)).trans (.swap ..)

omit [LT K] [DecidableLT K] in
/-- Setting an entry repeats no key. -/
theorem Distinct.setEntry (h : Distinct (.node entries)) (ht : Distinct t) :
    Distinct (.node (setEntry k t entries)) := by
  cases h with
  | node hnodup hsub =>
      refine .node (by rwa [map_fst_setEntry]) fun e he => ?_
      rcases mem_setEntry he with rfl | he
      · exact ht
      · exact hsub e he

/-- Nor does adding one. -/
theorem Distinct.insertOrAssign (h : Distinct (.node entries)) (hk : entries.lookup k = none)
    (ht : Distinct t) : Distinct (.node (insertOrAssign k t entries)) := by
  have hperm := insertOrAssign_perm (t := t) hk
  cases h with
  | node hnodup hsub =>
      have hnot : k ∉ entries.map Prod.fst := by
        intro hmem
        obtain ⟨e, he, rfl⟩ := List.mem_map.1 hmem
        rw [lookup_of_mem hnodup he] at hk
        cases hk
      refine .node ?_ fun e he => ?_
      · exact ((hperm.map Prod.fst).nodup_iff).2 (List.nodup_cons.2 ⟨hnot, hnodup⟩)
      · rcases List.mem_cons.1 (hperm.mem_iff.1 he) with rfl | he
        · exact ht
        · exact hsub e he

/-- Filling keeps names distinct. -/
theorem Distinct.fill (ht : Distinct t) (hu : Distinct u) : Distinct (fill t u) := by
  induction u using induct generalizing t with
  | leaf l => rwa [fill_leaf]
  | node src ih =>
      cases t with
      | leaf l => rwa [leaf_fill]
      | node dst =>
          cases hu with
          | node hnodup hsub =>
              rw [PathTree.fill]
              induction src generalizing dst with
              | nil => exact ht
              | cons e src ihsrc =>
                  obtain ⟨k, v⟩ := e
                  have hv := hsub _ List.mem_cons_self
                  rw [fillEntries]
                  refine ihsrc (fun e he => ih e (List.mem_cons_of_mem _ he)) _ ?_
                    (List.nodup_cons.1 hnodup).2 fun e he => hsub e (List.mem_cons_of_mem _ he)
                  cases hk : dst.lookup k with
                  | none => exact ht.insertOrAssign hk hv
                  | some w => exact ht.setEntry (ih _ List.mem_cons_self (ht.of_lookup hk) hv)

end Fill

/-! ## Merging -/

section
variable {join : L → L → L}

/-- A merge goes through the entries of `dst`. -/
theorem mergeEntries_eq_map : mergeEntries join dst src =
    dst.map fun e => (e.1, (src.lookup e.1).elim e.2 (merge join e.2)) := by
  induction dst with
  | nil => rfl
  | cons e dst ih =>
      obtain ⟨k, t⟩ := e
      rw [mergeEntries, ih, List.map_cons]

/-- The names of a table stay, in their order. -/
theorem map_fst_mergeEntries : (mergeEntries join dst src).map Prod.fst = dst.map Prod.fst := by
  rw [mergeEntries_eq_map, List.map_map]
  rfl

/-- Merging keeps names distinct. -/
theorem Distinct.merge (ht : Distinct t) : Distinct (merge join t u) := by
  induction t using induct generalizing u with
  | leaf l => cases u <;> exact .leaf _
  | node dst ih =>
      cases u with
      | leaf m => exact ht
      | node src =>
          cases ht with
          | node hnodup hsub =>
              rw [PathTree.merge]
              refine .node (by rwa [map_fst_mergeEntries]) fun e he => ?_
              rw [mergeEntries_eq_map] at he
              obtain ⟨f, hf, rfl⟩ := List.mem_map.1 he
              show Distinct ((src.lookup f.1).elim f.2 (PathTree.merge join f.2))
              cases src.lookup f.1 with
              | none => exact hsub f hf
              | some v => exact ih f hf (hsub f hf)

/-- **Merging twice is merging once**, if it is so for leaves. -/
theorem merge_merge (hjoin : ∀ l m, join (join l m) m = join l m) :
    merge join (merge join t u) u = merge join t u := by
  induction t using induct generalizing u with
  | leaf l =>
      cases u with
      | leaf m => rw [merge, merge, hjoin]
      | node src => rfl
  | node dst ih =>
      cases u with
      | leaf m => rfl
      | node src =>
          rw [merge, merge, mergeEntries_eq_map, mergeEntries_eq_map, List.map_map]
          refine congrArg PathTree.node (List.map_congr_left fun e he => ?_)
          refine congrArg (Prod.mk e.1) ?_
          show (src.lookup e.1).elim ((src.lookup e.1).elim e.2 (merge join e.2))
            (merge join ((src.lookup e.1).elim e.2 (merge join e.2))) = _
          cases src.lookup e.1 with
          | none => rfl
          | some u => exact ih e he

end

end PathTree
