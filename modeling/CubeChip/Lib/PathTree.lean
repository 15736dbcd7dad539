import Mathlib.Data.List.Infix

/-!
# Trees of named entries

A tree is a leaf or a table of named entries, and a path of names leads to its subtrees.
`assign` puts a tree at the end of a path and makes the tables on the way; it stops where a leaf
is in the way. `merge` updates a tree by what it has in common with another one. `at?_assign`,
`at?_assign_of_apart` and `at?_merge` say what is found at a path afterwards.
-/

/-- A tree with names in `K` and leaves in `L`. -/
inductive PathTree (K L : Type*) where
  | leaf (l : L)
  | node (entries : List (K × PathTree K L))

/-- A place in a tree: the tables on the way and the name in the last one. -/
structure Slot (K : Type*) where
  way : List K
  name : K

/-- The keys on the way, then the name. -/
def Slot.path {K : Type*} (s : Slot K) : List K := s.way ++ [s.name]

namespace PathTree

variable {K L : Type*}

/-- The entries of a table. -/
abbrev Entries (K L : Type*) := List (K × PathTree K L)

/-- Neither path leads on from the other. -/
def Apart (p q : List K) : Prop := ¬ p <+: q ∧ ¬ q <+: p

/-- Two paths, the other way round. -/
theorem Apart.symm {p q : List K} (h : Apart p q) : Apart q p := ⟨h.2, h.1⟩

/-- Two paths apart differ. -/
theorem Apart.ne {p q : List K} (h : Apart p q) : p ≠ q := fun heq => h.1 (heq ▸ List.prefix_rfl)

/-- Two paths apart behind a key they share. -/
theorem Apart.of_cons {k : K} {p q : List K} (h : Apart (k :: p) (k :: q)) : Apart p q :=
  ⟨fun hp => h.1 (List.cons_prefix_cons.2 ⟨rfl, hp⟩),
    fun hq => h.2 (List.cons_prefix_cons.2 ⟨rfl, hq⟩)⟩

/-- A tree in its slot is not in the way of another slot apart from it, nor of its own. -/
theorem not_path_prefix_way {s r : Slot K} (h : s = r ∨ Apart s.path r.path) :
    ¬ s.path <+: r.way := by
  intro hp
  obtain rfl | h := h
  · have hle := hp.length_le
    rw [Slot.path, List.length_append, List.length_singleton] at hle
    omega
  · exact h.1 (hp.trans (List.prefix_append _ _))

variable [DecidableEq K]

/-- The subtree at a path. -/
def at? : List K → PathTree K L → Option (PathTree K L)
  | [], t => some t
  | k :: path, .node entries => (entries.lookup k).bind (at? path)
  | _ :: _, .leaf _ => none

/-- No leaf is in the way. -/
def Opens : List K → Entries K L → Prop
  | [], _ => True
  | k :: way, entries => ∀ t, entries.lookup k = some t → ∃ sub, t = .node sub ∧ Opens way sub

/-- An empty table is open to every way. -/
theorem opens_nil : ∀ way : List K, Opens way ([] : Entries K L)
  | [] => trivial
  | _ :: _ => fun _ h => absurd h (Option.some_ne_none _).symm

variable {k j : K} {t : PathTree K L} {entries : Entries K L} {s : Slot K} {way p q : List K}

/-- An entry of another key. -/
theorem lookup_cons_of_ne (h : j ≠ k) : ((k, t) :: entries).lookup j = entries.lookup j := by
  rw [List.lookup_cons, beq_false_of_ne h]

/-! ## Assigning -/

section
variable [LT K] [DecidableLT K]

/-- Give the entry `k` a new tree; tables are kept sorted. -/
def insertOrAssign (k : K) (t : PathTree K L) : Entries K L → Entries K L
  | [] => [(k, t)]
  | (j, u) :: entries =>
      if k = j then (k, t) :: entries
      else if k < j then (k, t) :: (j, u) :: entries
      else (j, u) :: insertOrAssign k t entries

/-- Change the table at the end of a way, which is made if it is not there. -/
def alter (f : Entries K L → Entries K L) : List K → Entries K L → Entries K L
  | [], entries => f entries
  | k :: way, entries =>
      match entries.lookup k with
      | none => insertOrAssign k (.node (alter f way [])) entries
      | some (.node sub) => insertOrAssign k (.node (alter f way sub)) entries
      | some (.leaf _) => entries

/-- Put a tree into a slot. -/
def assign (s : Slot K) (t : PathTree K L) : Entries K L → Entries K L :=
  alter (insertOrAssign s.name t) s.way

/-- The entry written. -/
theorem lookup_insertOrAssign : (insertOrAssign k t entries).lookup k = some t := by
  induction entries with
  | nil => exact List.lookup_cons_self
  | cons e entries ih =>
      rw [insertOrAssign]
      split_ifs with heq hlt
      · exact List.lookup_cons_self
      · exact List.lookup_cons_self
      · rw [lookup_cons_of_ne heq]
        exact ih

/-- The other entries stay. -/
theorem lookup_insertOrAssign_of_ne (h : j ≠ k) :
    (insertOrAssign k t entries).lookup j = entries.lookup j := by
  induction entries with
  | nil => exact lookup_cons_of_ne h
  | cons e entries ih =>
      rw [insertOrAssign]
      split_ifs with heq hlt
      · rw [lookup_cons_of_ne h, lookup_cons_of_ne (heq ▸ h)]
      · exact lookup_cons_of_ne h
      · rw [List.lookup_cons, List.lookup_cons, ih]

/-- What `alter` does to its first step: the table there is changed, or the leaf stays. -/
theorem alter_cons (f : Entries K L → Entries K L) (k : K) (way : List K)
    (entries : Entries K L) :
    alter f (k :: way) entries = entries ∧ (∃ l, entries.lookup k = some (.leaf l)) ∨
      ∃ sub, alter f (k :: way) entries = insertOrAssign k (.node (alter f way sub)) entries ∧
        (entries.lookup k = none ∧ sub = [] ∨ entries.lookup k = some (.node sub)) := by
  rw [alter]
  cases h : entries.lookup k with
  | none => exact .inr ⟨[], rfl, .inl ⟨rfl, rfl⟩⟩
  | some t =>
      cases t with
      | leaf l => exact .inl ⟨rfl, l, rfl⟩
      | node sub => exact .inr ⟨sub, rfl, .inr rfl⟩

/-- What is written on an open way is there. -/
theorem at?_alter (ht : Opens way entries) :
    at? (way ++ [k]) (.node (alter (insertOrAssign k t) way entries)) = some t := by
  induction way generalizing entries with
  | nil => rw [alter, List.nil_append, at?, lookup_insertOrAssign, Option.bind_some, at?]
  | cons j way ih =>
      rw [List.cons_append, at?]
      obtain ⟨-, l, hl⟩ | ⟨sub, halter, hsub⟩ := alter_cons (insertOrAssign k t) j way entries
      · obtain ⟨sub, hsub, -⟩ := ht _ hl
        cases hsub
      · rw [halter, lookup_insertOrAssign, Option.bind_some]
        refine ih ?_
        obtain ⟨-, rfl⟩ | hsub := hsub
        · exact opens_nil way
        · obtain ⟨sub', heq, hopens⟩ := ht _ hsub
          cases heq
          exact hopens

/-- What is at a path apart stays. -/
theorem at?_alter_of_apart (h : Apart (way ++ [k]) q) :
    at? q (.node (alter (insertOrAssign k t) way entries)) = at? q (.node entries) := by
  induction way generalizing entries q with
  | nil =>
      cases q with
      | nil => exact absurd List.nil_prefix h.2
      | cons j q =>
          have hne : j ≠ k := by
            rintro rfl
            exact h.1 (List.cons_prefix_cons.2 ⟨rfl, List.nil_prefix⟩)
          rw [alter, at?, at?, lookup_insertOrAssign_of_ne hne]
  | cons i way ih =>
      cases q with
      | nil => exact absurd List.nil_prefix h.2
      | cons j q =>
          obtain ⟨halter, -⟩ | ⟨sub, halter, hsub⟩ :=
            alter_cons (insertOrAssign k t) i way entries
          · rw [halter]
          rw [halter, at?, at?]
          by_cases hji : j = i
          · subst hji
            have hq : Apart (way ++ [k]) q := h.of_cons
            rw [lookup_insertOrAssign, Option.bind_some, ih hq]
            obtain ⟨hnone, rfl⟩ | hsub := hsub
            · -- the table was made: nothing of `q` was there, and nothing is
              cases q with
              | nil => exact absurd List.nil_prefix hq.2
              | cons _ _ => rw [hnone, at?, List.lookup_nil, Option.bind_none, Option.bind_none]
            · rw [hsub, Option.bind_some]
          · rw [lookup_insertOrAssign_of_ne hji]

/-- A way that does not pass the place written stays open. -/
theorem opens_alter (hq : Opens q entries) (h : ¬ way ++ [k] <+: q) :
    Opens q (alter (insertOrAssign k t) way entries) := by
  induction way generalizing entries q with
  | nil =>
      cases q with
      | nil => trivial
      | cons j q =>
          have hne : j ≠ k := by
            rintro rfl
            exact h (List.cons_prefix_cons.2 ⟨rfl, List.nil_prefix⟩)
          intro u hu
          rw [alter, lookup_insertOrAssign_of_ne hne] at hu
          exact hq u hu
  | cons i way ih =>
      cases q with
      | nil => trivial
      | cons j q =>
          obtain ⟨halter, -⟩ | ⟨sub, halter, hsub⟩ :=
            alter_cons (insertOrAssign k t) i way entries
          · rw [halter]
            exact hq
          rw [halter]
          intro u hu
          by_cases hji : j = i
          · subst hji
            rw [lookup_insertOrAssign] at hu
            cases hu
            refine ⟨_, rfl, ih ?_ fun hp => h (List.cons_prefix_cons.2 ⟨rfl, hp⟩)⟩
            obtain ⟨-, rfl⟩ | hsub := hsub
            · exact opens_nil q
            · obtain ⟨sub', heq, hopens⟩ := hq _ hsub
              cases heq
              exact hopens
          · rw [lookup_insertOrAssign_of_ne hji] at hu
            exact hq u hu

/-! ### Slots -/

/-- A slot assigned holds the value. -/
theorem at?_assign (ho : Opens s.way entries) : at? s.path (.node (assign s t entries)) = some t :=
  at?_alter ho

/-- What is at a path apart stays. -/
theorem at?_assign_of_apart (h : Apart s.path q) :
    at? q (.node (assign s t entries)) = at? q (.node entries) :=
  at?_alter_of_apart h

/-- A way that does not pass the slot stays open. -/
theorem opens_assign (hq : Opens q entries) (h : ¬ s.path <+: q) :
    Opens q (assign s t entries) :=
  opens_alter hq h

/-- Put trees into slots, one after the other. -/
def assignAll (items : List (Slot K × PathTree K L)) (entries : Entries K L) : Entries K L :=
  items.foldl (fun entries item => assign item.1 item.2 entries) entries

variable {items : List (Slot K × PathTree K L)}

/-- By induction on the slots assigned. -/
theorem opens_assignAll (hq : Opens q entries) (h : ∀ item ∈ items, ¬ item.1.path <+: q) :
    Opens q (assignAll items entries) := by
  induction items generalizing entries with
  | nil => exact hq
  | cons item items ih =>
      have hitem := h item List.mem_cons_self
      exact ih (opens_assign hq hitem) fun i hi => h i (List.mem_cons_of_mem _ hi)

/-- What is at a path apart from all slots stays. -/
theorem at?_assignAll_of_apart (h : ∀ item ∈ items, Apart item.1.path q) :
    at? q (.node (assignAll items entries)) = at? q (.node entries) := by
  induction items generalizing entries with
  | nil => rfl
  | cons item items ih =>
      have hitem := h item List.mem_cons_self
      exact (ih fun i hi => h i (List.mem_cons_of_mem _ hi)).trans (at?_assign_of_apart hitem)

/-- Trees in slots apart from one another are all found there. -/
theorem at?_assignAll (ho : ∀ item ∈ items, Opens item.1.way entries)
    (h : items.Pairwise fun a b => Apart a.1.path b.1.path) {item : Slot K × PathTree K L}
    (hitem : item ∈ items) : at? item.1.path (.node (assignAll items entries)) = some item.2 := by
  induction items generalizing entries with
  | nil => exact absurd hitem List.not_mem_nil
  | cons first items ih =>
      obtain ⟨hfirst, hrest⟩ := List.pairwise_cons.1 h
      obtain rfl | hitem := List.mem_cons.1 hitem
      · refine (at?_assignAll_of_apart fun i hi => (hfirst i hi).symm).trans ?_
        exact at?_assign (ho item List.mem_cons_self)
      · refine ih (fun i hi => ?_) hrest hitem
        exact opens_assign (ho i (List.mem_cons_of_mem _ hi))
          (not_path_prefix_way (.inr (hfirst i hi)))

end

/-! ## Merging -/

section
variable (join : L → L → L)

mutual

/-- Update `dst` by what it shares with `src`; two leaves are joined. -/
def merge : PathTree K L → PathTree K L → PathTree K L
  | .leaf l, .leaf m => .leaf (join l m)
  | .node dst, .node src => .node (mergeEntries dst src)
  | dst, _ => dst

/-- Entry by entry. -/
def mergeEntries : Entries K L → Entries K L → Entries K L
  | [], _ => []
  | (k, t) :: dst, src => (k, (src.lookup k).elim t (merge t)) :: mergeEntries dst src

end

variable {join} {dst src : Entries K L}

/-- The entries of `dst` alone, each merged with its like in `src`. -/
theorem lookup_mergeEntries : (mergeEntries join dst src).lookup k =
    (dst.lookup k).map fun t => (src.lookup k).elim t (merge join t) := by
  induction dst with
  | nil => rfl
  | cons e dst ih =>
      obtain ⟨j, t⟩ := e
      rw [mergeEntries]
      by_cases hkj : k = j
      · subst hkj
        rw [List.lookup_cons_self, List.lookup_cons_self, Option.map_some]
      · rw [lookup_cons_of_ne hkj, lookup_cons_of_ne hkj, ih]

/-- What is found at a path after a merge: what was there, updated by what `src` has there. -/
theorem at?_merge {t u : PathTree K L} : at? p (merge join t u) =
    (at? p t).map fun v => (at? p u).elim v (merge join v) := by
  induction p generalizing t u with
  | nil => rfl
  | cons k p ih =>
      cases t with
      | leaf l => cases u <;> rw [merge] <;> simp [at?]
      | node dst =>
          cases u with
          | leaf m =>
              change at? (k :: p) (.node dst) = _
              cases at? (k :: p) (.node dst) <;> rfl
          | node src =>
              rw [merge, at?, at?, at?, lookup_mergeEntries]
              cases dst.lookup k with
              | none => rfl
              | some t =>
                  cases src.lookup k with
                  | none =>
                      change at? p t = (at? p t).map fun v => v
                      cases at? p t <;> rfl
                  | some u => exact ih

/-- What a merge leaves at a path. -/
theorem at?_mergeEntries : at? p (.node (mergeEntries join dst src)) =
    (at? p (.node dst)).map fun v => (at? p (.node src)).elim v (merge join v) :=
  at?_merge (t := .node dst) (u := .node src)

/-- A way open in `dst` stays open. -/
theorem opens_mergeEntries (h : Opens p dst) : Opens p (mergeEntries join dst src) := by
  induction p generalizing dst src with
  | nil => trivial
  | cons k p ih =>
      intro t ht
      rw [lookup_mergeEntries, Option.map_eq_some_iff] at ht
      obtain ⟨u, hu, rfl⟩ := ht
      obtain ⟨sub, rfl, hsub⟩ := h u hu
      cases src.lookup k with
      | none => exact ⟨sub, rfl, hsub⟩
      | some v =>
          cases v with
          | leaf m => exact ⟨sub, rfl, hsub⟩
          | node other => exact ⟨_, rfl, ih hsub⟩

end

end PathTree
