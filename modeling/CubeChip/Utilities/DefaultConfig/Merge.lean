import CubeChip.Utilities.DefaultConfig
import Mathlib.Data.List.Nodup

/-!
# `TomlConfig`: what the two merges do at every path

`update_existing_table_contents` changes no path and no type, only leaves that the source has a
fitting one for; `insert_missing_table_entries` changes no leaf and adds what the source has
beside them. Tables are finite maps: the names of each are distinct (`Distinct`).
-/

namespace CubeChip.TomlConfig

open PathTree

/-- `toml::node_type`. -/
inductive NodeType where
  | table
  | array
  | value (type : ValueType)
deriving DecidableEq, Repr

/-- `type()` of a leaf. -/
def leafType : Leaf → NodeType
  | .array _ => .array
  | .value v => .value v.type

/-- `type()`. -/
def nodeType : Node → NodeType
  | .node _ => .table
  | .leaf l => leafType l

/-- A leaf takes the place of one of its own type. -/
theorem updateLeaf_eq (l m : Leaf) :
    updateLeaf l m = if leafType l = leafType m then m else l := by
  cases l with
  | array _ =>
      cases m with
      | array _ => rfl
      | value _ => rfl
  | value v =>
      cases m with
      | array _ => rfl
      | value w =>
          simp only [updateLeaf, leafType, NodeType.value.injEq]

/-- An update keeps the type of a value. -/
theorem leafType_updateLeaf (l m : Leaf) : leafType (updateLeaf l m) = leafType l := by
  rw [updateLeaf_eq]
  split
  · next h => exact h.symm
  · rfl

/-- Updating twice is updating once. -/
theorem updateLeaf_updateLeaf (l m : Leaf) : updateLeaf (updateLeaf l m) m = updateLeaf l m := by
  rw [updateLeaf_eq (updateLeaf l m), leafType_updateLeaf, updateLeaf_eq]
  split <;> rfl

/-- A merge keeps the type of a node. -/
theorem nodeType_merge (t u : Node) : nodeType (merge updateLeaf t u) = nodeType t := by
  cases t with
  | leaf l =>
      cases u with
      | leaf m => exact leafType_updateLeaf l m
      | node _ => rfl
  | node _ => cases u <;> rfl

variable {dst src : Table} {p : List Text}

/-- What an update leaves at the path of a leaf. -/
theorem at?_update_leaf {l : Leaf} (h : at? p (.node dst) = some (.leaf l)) :
    at? p (.node (updateExistingTableContents dst src)) =
      some (match at? p (.node src) with
        | some (.leaf m) => .leaf (if leafType l = leafType m then m else l)
        | _ => .leaf l) := by
  rw [updateExistingTableContents, at?_mergeEntries, h, Option.map_some]
  cases at? p (.node src) with
  | none => rfl
  | some u =>
      cases u with
      | leaf m => exact congrArg (fun l => some (PathTree.leaf l)) (updateLeaf_eq l m)
      | node _ => rfl

/-! ## Updating -/

/-- The nodes of `dst` stay where they are and of their types, tables with their names, and a leaf
is that of `src` precisely where there is one of its type. -/
structure Updates (dst src result : Table) : Prop where
  types : ∀ p, (at? p (.node result)).map nodeType = (at? p (.node dst)).map nodeType
  names : ∀ p entries, at? p (.node dst) = some (.node entries) →
    ∃ entries', at? p (.node result) = some (.node entries') ∧
      entries'.map Prod.fst = entries.map Prod.fst
  replaced : ∀ p l m, at? p (.node dst) = some (.leaf l) → at? p (.node src) = some (.leaf m) →
    leafType m = leafType l → at? p (.node result) = some (.leaf m)
  kept : ∀ p l, at? p (.node dst) = some (.leaf l) →
    (∀ m, at? p (.node src) = some (.leaf m) → leafType m ≠ leafType l) →
    at? p (.node result) = some (.leaf l)

/-- The update laws. -/
theorem updates (dst src : Table) : Updates dst src (updateExistingTableContents dst src) := by
  refine ⟨fun p => ?_, fun p entries h => ?_, fun p l m h hm htype => ?_, fun p l h hno => ?_⟩
  · rw [updateExistingTableContents, at?_mergeEntries, Option.map_map]
    refine congrArg (fun f => Option.map f _) (funext fun t => ?_)
    show nodeType ((at? p (.node src)).elim t (merge updateLeaf t)) = nodeType t
    cases at? p (.node src) with
    | none => rfl
    | some u => exact nodeType_merge t u
  · rw [updateExistingTableContents, at?_mergeEntries, h, Option.map_some]
    cases at? p (.node src) with
    | none => exact ⟨entries, rfl, rfl⟩
    | some u =>
        cases u with
        | leaf _ => exact ⟨entries, rfl, rfl⟩
        | node other => exact ⟨mergeEntries updateLeaf entries other, rfl, map_fst_mergeEntries⟩
  · rw [at?_update_leaf h, hm]
    simp only [htype, if_true]
  · rw [at?_update_leaf h]
    cases hu : at? p (.node src) with
    | none => rfl
    | some u =>
        cases u with
        | node _ => rfl
        | leaf m => simp only [Ne.symm (hno m hu), if_false]

/-- Updating twice is updating once. -/
theorem update_update (dst src : Table) :
    updateExistingTableContents (updateExistingTableContents dst src) src =
      updateExistingTableContents dst src :=
  PathTree.node.inj (merge_merge (t := .node dst) (u := .node src) updateLeaf_updateLeaf)

/-! ## Inserting -/

/-- A leaf of `dst` lies on the way. -/
def Blocked (p : List Text) (dst : Table) : Prop :=
  ∃ q l, q <+: p ∧ q ≠ p ∧ at? q (.node dst) = some (.leaf l)

/-- The leaves of `dst` stay and none of its paths goes; every path of `src` without a leaf of
`dst` in its way is there; what is there beside the paths of `dst` is so in `src`. -/
structure Completes (dst src result : Table) : Prop where
  leaves : ∀ p l, at? p (.node dst) = some (.leaf l) → at? p (.node result) = some (.leaf l)
  types : ∀ p t, at? p (.node dst) = some t →
    ∃ t', at? p (.node result) = some t' ∧ nodeType t' = nodeType t
  paths : ∀ p, (at? p (.node src)).isSome → ¬ Blocked p dst → (at? p (.node result)).isSome
  rest : ∀ p t, at? p (.node result) = some t →
    (at? p (.node dst)).isSome ∨ at? p (.node src) = some t ∧ ¬ Blocked p dst

/-- The completion laws. -/
theorem completes {src : Table} (hsrc : Distinct (.node src)) (dst : Table) :
    Completes dst src (insertMissingTableEntries dst src) := by
  have hat : ∀ p, at? p (.node (insertMissingTableEntries dst src)) =
      (at? p (.node dst)).elim (if blocked p (.node dst) then none else at? p (.node src))
        fun v => some ((at? p (.node src)).elim v (fill v)) :=
    fun p => at?_fill (t := .node dst) hsrc
  have hblocked : ∀ p, blocked p (.node dst) = true ↔ Blocked p dst := fun p => blocked_iff
  refine ⟨fun p l h => ?_, fun p t h => ?_, fun p h hopen => ?_, fun p t h => ?_⟩
  · rw [hat, h, Option.elim_some]
    cases at? p (.node src) with
    | none => rfl
    | some u => exact congrArg some (leaf_fill l u)
  · rw [hat, h]
    refine ⟨_, rfl, ?_⟩
    cases at? p (.node src) with
    | none => rfl
    | some u =>
        cases t with
        | leaf l => exact congrArg nodeType (leaf_fill l u)
        | node entries => cases u <;> rfl
  · rw [← hblocked] at hopen
    rw [hat, if_neg hopen]
    cases at? p (.node dst) with
    | none => exact h
    | some v => rfl
  · rw [hat] at h
    cases hdst : at? p (.node dst) with
    | some v => exact .inl rfl
    | none =>
        rw [hdst, Option.elim_none] at h
        split at h
        · cases h
        · next hopen =>
            rw [hblocked] at hopen
            exact .inr ⟨h, hopen⟩

/-- Completing twice is completing once. -/
theorem insert_insert {src : Table} (hsrc : Distinct (.node src)) (dst : Table) :
    insertMissingTableEntries (insertMissingTableEntries dst src) src =
      insertMissingTableEntries dst src :=
  PathTree.node.inj (fill_fill (t := .node dst) hsrc)

/-! ## The laws -/

/-- **Merge laws.** Updating changes fitting leaves alone, inserting adds what is missing alone, a
second time neither changes anything, and both leave tables whose names are distinct. -/
theorem merge_laws {dst src : Table} (hdst : Distinct (.node dst)) (hsrc : Distinct (.node src)) :
    Updates dst src (updateExistingTableContents dst src) ∧
    updateExistingTableContents (updateExistingTableContents dst src) src =
      updateExistingTableContents dst src ∧
    Completes dst src (insertMissingTableEntries dst src) ∧
    insertMissingTableEntries (insertMissingTableEntries dst src) src =
      insertMissingTableEntries dst src ∧
    Distinct (.node (updateExistingTableContents dst src)) ∧
    Distinct (.node (insertMissingTableEntries dst src)) := by
  have hupdate : Distinct (merge updateLeaf (.node dst) (.node src)) := hdst.merge
  have hinsert : Distinct (fill (.node dst) (.node src)) := hdst.fill hsrc
  exact ⟨updates dst src, update_update dst src, completes hsrc dst, insert_insert hsrc dst,
    hupdate, hinsert⟩

/-- A table with a table in it, and one with a value there. -/
theorem merge_laws_nested :
    Completes [("a".toList, .node [])] [("a".toList, .node [("b".toList, .leaf (.array []))])]
      (insertMissingTableEntries [("a".toList, .node [])]
        [("a".toList, .node [("b".toList, .leaf (.array []))])]) := by
  have hempty : Distinct (.node [] : Node) := .node .nil fun _ h => absurd h List.not_mem_nil
  have hleaf : ∀ e ∈ [("b".toList, (.leaf (.array []) : Node))], Distinct e.2 := by
    intro e he
    rw [List.mem_singleton.1 he]
    exact .leaf _
  have hinner : Distinct (.node [("b".toList, .leaf (.array []))] : Node) :=
    .node (List.nodup_singleton _) hleaf
  have houter : ∀ t : Node, Distinct t → Distinct (.node [("a".toList, t)]) := by
    intro t ht
    refine .node (List.nodup_singleton _) fun e he => ?_
    rw [List.mem_singleton.1 he]
    exact ht
  exact (merge_laws (houter _ hempty) (houter _ hinner)).2.2.1

end CubeChip.TomlConfig
