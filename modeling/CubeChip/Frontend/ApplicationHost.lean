import Mathlib.Data.List.AList
import Mathlib.Data.List.Find
import CubeChip.Components.SimpleMRU
import CubeChip.Lib.Runs

/-!
# `ApplicationHost`: the running systems and their focus list

The map of running systems and the list of their ids by focus, from
`frontend/ApplicationHost.cpp`, with the four operations that change them and the two places of
a client frame that read the front of the list. What is undefined in the source, the front of
an empty list and a member call on a core that is not there, is `none`.
-/

namespace CubeChip

/-- `SystemID`. -/
abbrev SystemID := Nat

/-- What the host sees of an `ISystemEmu`. -/
structure SystemCore where
  instanceId : UInt32
  viewportVisible : Bool
  viewportFocused : Bool
  /-- `EmuState::HIDDEN`. -/
  hidden : Bool
deriving DecidableEq, Repr

/-- `SystemInstance`: the owner of a core, or of none. -/
structure SystemInstance where
  core : Option SystemCore
deriving DecidableEq, Repr

/-- `m_systems` and `m_focus_mru`. -/
structure ApplicationHost where
  systems : AList fun _ : SystemID => SystemInstance
  focusMru : SimpleMRU SystemID

namespace ApplicationHost

/-- A host without systems; its list has no limit. -/
def start : ApplicationHost := ⟨∅, ⟨[], 0⟩⟩

/-! ## The operations -/

/-- `m_systems[id]->…`: the core, and the host after the call has changed it. -/
def onCore (id : SystemID) (f : SystemCore → SystemCore) (s : ApplicationHost) :
    Option (SystemCore × ApplicationHost) :=
  match s.systems.lookup id with
  | some ⟨some core⟩ => some (core, { s with systems := s.systems.insert id ⟨some (f core)⟩ })
  | _ => none

/-- `!system || !system->is_viewport_visible()`. -/
def terminated (system : SystemInstance) : Bool :=
  match system.core with
  | some core => !core.viewportVisible
  | none => true

/-- `prune_terminated_systems`: one pass over the map. -/
def pruneTerminatedSystems (s : ApplicationHost) : ApplicationHost :=
  s.systems.keys.foldl (fun s id =>
    if (s.systems.lookup id).any terminated then
      { s with focusMru := s.focusMru.erase id, systems := s.systems.erase id }
    else s) s

/-- The loop of `find_last_focused_system` from position `i` of the list on, with `n` passes
left: the host after, and the ids whose focus flag was cleared, in turn. -/
def focusPass : Nat → Nat → Bool → ApplicationHost → Option (ApplicationHost × List SystemID)
  | 0, _, _, s => some (s, [])
  | n + 1, i, found, s => do
      let id ← s.focusMru.items[i]?
      let (core, s) ← s.onCore id fun core => { core with viewportFocused := false }
      let moves := !found && core.viewportFocused && s.focusMru.items.head? != some id
      -- `insert` gets a reference into the list it rotates, and is done with it by then
      let s := if moves then { s with focusMru := s.focusMru.insert id } else s
      let (s, cleared) ← focusPass n (i + 1) (found || moves) s
      some (s, id :: cleared)

/-- `find_last_focused_system`. -/
def findLastFocusedSystem (s : ApplicationHost) : Option (ApplicationHost × List SystemID) :=
  focusPass s.focusMru.items.length 0 false s

/-- `unload_system_instance`. -/
def unloadSystemInstance (systemId : SystemID) (s : ApplicationHost) : ApplicationHost :=
  let target := if systemId ≠ 0 then systemId else s.focusMru.items.head?.getD 0
  { s with systems := s.systems.erase target, focusMru := s.focusMru.erase target }

/-- `insert_system_instance`. -/
def insertSystemInstance (ptr : Option SystemCore) (s : ApplicationHost) :
    Option ApplicationHost :=
  match ptr with
  | none => some s
  | some core => do
      let mru := s.focusMru.insert core.instanceId.toNat
      let front ← mru.items.head?
      some { s with focusMru := mru, systems := s.systems.insert front ⟨some core⟩ }

/-- `handle_main_hotkeys`, as far as it is about the systems: the core in focus is looked at,
and terminated by its hotkey. -/
def handleMainHotkeys (terminate : Bool) (s : ApplicationHost) : Option ApplicationHost :=
  match s.focusMru.items.head? with
  | none => some s
  | some front => do
      let (_, s) ← s.onCore front id
      some (if terminate then unloadSystemInstance 0 s else s)

/-- The loop of `process_client_frame`: every system but the one in focus is hidden. -/
def toggleSystemRuntimes (minimized : Bool) (s : ApplicationHost) : Option ApplicationHost :=
  s.systems.keys.foldlM (fun s id => do
    let front ← s.focusMru.items.head?
    let state := if id = front then minimized else true
    let (_, s) ← s.onCore id fun core => { core with hidden := state }
    some s) s

/-- What the user interface has made of the viewports. -/
def presentViewports (visible focused : SystemID → Bool) (s : ApplicationHost) :
    ApplicationHost :=
  s.systems.keys.foldl (fun s id => (s.onCore id fun core => { core with
    viewportVisible := visible id, viewportFocused := focused id }).elim s (·.2)) s

/-- What can happen next. -/
inductive Operation where
  | insertSystemInstance (ptr : Option SystemCore)
  | unloadSystemInstance (systemId : SystemID)
  | pruneTerminatedSystems
  | findLastFocusedSystem
  | presentViewports (visible focused : SystemID → Bool)
  | handleMainHotkeys (terminate : Bool)
  | toggleSystemRuntimes (minimized : Bool)

/-- One operation; `none` if it does what is undefined. -/
def step (s : ApplicationHost) : Operation → Option ApplicationHost
  | .insertSystemInstance ptr => s.insertSystemInstance ptr
  | .unloadSystemInstance systemId => some (s.unloadSystemInstance systemId)
  | .pruneTerminatedSystems => some s.pruneTerminatedSystems
  | .findLastFocusedSystem => s.findLastFocusedSystem.map (·.1)
  | .presentViewports visible focused => some (s.presentViewports visible focused)
  | .handleMainHotkeys terminate => s.handleMainHotkeys terminate
  | .toggleSystemRuntimes minimized => s.toggleSystemRuntimes minimized

/-! ## The invariant -/

/-- The list and the map are in step: the ids are distinct and are the keys, each of which has
its core. -/
structure InStep (s : ApplicationHost) : Prop where
  nodup : s.focusMru.items.Nodup
  keys : ∀ id, id ∈ s.focusMru.items ↔ id ∈ s.systems
  live : ∀ id system, s.systems.lookup id = some system →
    ∃ core, system.core = some core ∧ core.instanceId.toNat = id
  unlimited : s.focusMru.limit = 0

variable {s t : ApplicationHost} {id : SystemID} {core : SystemCore}

theorem inStep_start : InStep start where
  nodup := List.nodup_nil
  keys := fun id => ⟨fun h => absurd h List.not_mem_nil, fun h => absurd h (AList.notMem_empty id)⟩
  live := fun _ _ h => nomatch h
  unlimited := rfl

/-- A core in its place. -/
def Has (s : ApplicationHost) (id : SystemID) (core : SystemCore) : Prop :=
  s.systems.lookup id = some ⟨some core⟩

theorem onCore_of_has (h : Has s id core) (f : SystemCore → SystemCore) :
    s.onCore id f =
      some (core, { s with systems := s.systems.insert id ⟨some (f core)⟩ }) := by
  rw [onCore, h]

namespace InStep

theorem has (h : InStep s) (hid : id ∈ s.systems) :
    ∃ core, Has s id core ∧ core.instanceId.toNat = id := by
  obtain ⟨system, hsystem⟩ := Option.isSome_iff_exists.1 (AList.lookup_isSome.2 hid)
  obtain ⟨core, hcore, hinstance⟩ := h.live id system hsystem
  refine ⟨core, ?_, hinstance⟩
  rw [Has, hsystem, ← hcore]

/-- A call on a core that leaves it the instance it is. -/
theorem setCore (h : InStep s) (hcore : Has s id core) {core' : SystemCore}
    (hinstance : core'.instanceId = core.instanceId) :
    InStep { s with systems := s.systems.insert id ⟨some core'⟩ } where
  nodup := h.nodup
  keys := by
    intro x
    rw [h.keys, AList.mem_insert]
    refine ⟨.inr, fun hx => hx.elim (fun heq => ?_) (·)⟩
    rw [heq, ← AList.lookup_isSome, show s.systems.lookup id = _ from hcore]
    rfl
  live := by
    intro x system hx
    by_cases heq : x = id
    · subst heq
      have hsystem : system = ⟨some core'⟩ :=
        Option.some.inj (hx.symm.trans (AList.lookup_insert s.systems))
      obtain ⟨c, hc, hid⟩ := h.live x _ hcore
      cases hc
      exact ⟨core', by rw [hsystem], by rw [hinstance, hid]⟩
    · exact h.live x system ((AList.lookup_insert_ne heq).symm.trans hx)
  unlimited := h.unlimited

/-- Taking an id out of both. -/
theorem eraseBoth (h : InStep s) (id : SystemID) :
    InStep { s with systems := s.systems.erase id, focusMru := s.focusMru.erase id } where
  nodup := h.nodup.erase id
  keys := by
    intro x
    change x ∈ s.focusMru.items.erase id ↔ x ∈ s.systems.erase id
    rw [h.nodup.mem_erase_iff, AList.mem_erase, h.keys]
  live := by
    intro x system hx
    by_cases heq : x = id
    · subst heq
      rw [AList.lookup_erase] at hx
      exact nomatch hx
    · exact h.live x system ((AList.lookup_erase_ne heq).symm.trans hx)
  unlimited := h.unlimited

theorem unloadSystemInstance (h : InStep s) (systemId : SystemID) :
    InStep (s.unloadSystemInstance systemId) := h.eraseBoth _

theorem pruneTerminatedSystems (h : InStep s) : InStep s.pruneTerminatedSystems := by
  unfold ApplicationHost.pruneTerminatedSystems
  generalize s.systems.keys = ids
  induction ids generalizing s with
  | nil => exact h
  | cons id ids ih =>
      rw [List.foldl_cons]
      split
      · exact ih (h.eraseBoth id)
      · exact ih h

/-- Moving an id that is there. -/
theorem moveToFront (h : InStep s) (hid : id ∈ s.focusMru.items) :
    InStep { s with focusMru := s.focusMru.insert id } where
  nodup := SimpleMRU.nodup_insert h.unlimited h.nodup id
  keys := by
    intro x
    rw [SimpleMRU.mem_insert h.unlimited, ← h.keys]
    exact ⟨fun hx => hx.elim (fun heq => heq ▸ hid) (·), .inr⟩
  live := h.live
  unlimited := (SimpleMRU.limit_insert ..).trans h.unlimited

theorem insertSystemInstance (h : InStep s) (ptr : Option SystemCore) :
    ∃ t, s.insertSystemInstance ptr = some t ∧ InStep t := by
  cases ptr with
  | none => exact ⟨s, rfl, h⟩
  | some core =>
      have hfront : (s.focusMru.insert core.instanceId.toNat).items.head? =
          some core.instanceId.toNat := by
        rw [SimpleMRU.items_insert h.unlimited]
        rfl
      refine ⟨_, by rw [ApplicationHost.insertSystemInstance, hfront]; rfl, ?_⟩
      exact {
        nodup := SimpleMRU.nodup_insert h.unlimited h.nodup _
        keys := by
          intro x
          rw [SimpleMRU.mem_insert h.unlimited, AList.mem_insert, h.keys]
        live := by
          intro x system hx
          by_cases heq : x = core.instanceId.toNat
          · subst heq
            have hsystem : system = ⟨some core⟩ :=
              Option.some.inj (hx.symm.trans (AList.lookup_insert s.systems))
            exact ⟨core, by rw [hsystem], rfl⟩
          · exact h.live x system ((AList.lookup_insert_ne heq).symm.trans hx)
        unlimited := (SimpleMRU.limit_insert ..).trans h.unlimited }

theorem handleMainHotkeys (h : InStep s) (terminate : Bool) :
    ∃ t, s.handleMainHotkeys terminate = some t ∧ InStep t := by
  unfold ApplicationHost.handleMainHotkeys
  cases hfront : s.focusMru.items.head? with
  | none => exact ⟨s, rfl, h⟩
  | some front =>
      have hmem : front ∈ s.systems := (h.keys front).1 (List.mem_of_head? hfront)
      obtain ⟨core, hcore, _⟩ := h.has hmem
      have hsame := h.setCore hcore rfl
      refine ⟨_, by dsimp only; rw [onCore_of_has hcore]; rfl, ?_⟩
      split
      · exact hsame.unloadSystemInstance 0
      · exact hsame

theorem toggleSystemRuntimes (h : InStep s) (minimized : Bool) :
    ∃ t, s.toggleSystemRuntimes minimized = some t ∧ InStep t := by
  have hkeys : ∀ id ∈ s.systems.keys, id ∈ s.systems := fun _ hid => AList.mem_keys.2 hid
  unfold ApplicationHost.toggleSystemRuntimes
  generalize s.systems.keys = ids at hkeys ⊢
  induction ids generalizing s with
  | nil => exact ⟨s, rfl, h⟩
  | cons id ids ih =>
      obtain ⟨hid, hids⟩ := List.forall_mem_cons.1 hkeys
      obtain ⟨core, hcore, _⟩ := h.has hid
      -- a system is in the list, so the list has a front
      obtain ⟨front, hfront⟩ : ∃ front, s.focusMru.items.head? = some front :=
        ⟨_, List.head?_eq_some_head (List.ne_nil_of_mem ((h.keys id).2 hid))⟩
      have hset := h.setCore hcore (show ({ core with
        hidden := if id = front then minimized else true } : SystemCore).instanceId =
          core.instanceId from rfl)
      obtain ⟨t, ht, hstep⟩ := ih hset fun x hx => (AList.mem_insert _).2 (.inr (hids x hx))
      refine ⟨t, ?_, hstep⟩
      rw [List.foldlM_cons, hfront]
      simp only [Option.bind_eq_bind, Option.bind_some, onCore_of_has hcore]
      exact ht

theorem presentViewports (h : InStep s) (visible focused : SystemID → Bool) :
    InStep (s.presentViewports visible focused) := by
  unfold ApplicationHost.presentViewports
  generalize s.systems.keys = ids
  induction ids generalizing s with
  | nil => exact h
  | cons id ids ih =>
      rw [List.foldl_cons]
      cases hsystem : s.systems.lookup id with
      | none =>
          rw [onCore, hsystem]
          exact ih h
      | some system =>
          obtain ⟨core, hcore, _⟩ := h.live id system hsystem
          have hhas : Has s id core := by rw [Has, hsystem, ← hcore]
          rw [onCore_of_has hhas]
          exact ih (h.setCore hhas rfl)

end InStep

/-! ## The focus pass -/

/-- The flag the focus pass reads. -/
def isFocused (s : ApplicationHost) (id : SystemID) : Bool :=
  ((s.systems.lookup id).bind (·.core)).any (·.viewportFocused)

/-- A system with its flag cleared. -/
def unfocused (system : SystemInstance) : SystemInstance :=
  ⟨system.core.map fun core => { core with viewportFocused := false }⟩

/-- The pass looks for an id in focus that is not at the front. -/
def wantsFront (s : ApplicationHost) (id : SystemID) : Bool :=
  s.isFocused id && s.focusMru.items.head? != some id

/-- The list after the pass over `ids`. -/
def movedFirst (s : ApplicationHost) (ids : List SystemID) : List SystemID :=
  match ids.find? s.wantsFront with
  | some id => id :: s.focusMru.items.erase id
  | none => s.focusMru.items

/-- What the focus pass over `ids` does: it clears the flag of each of them, in turn and once,
and moves at most one id, the first one in focus that is not at the front. -/
structure FocusPass (s t : ApplicationHost) (found : Bool) (ids cleared : List SystemID) :
    Prop where
  cleared : cleared = ids
  flags : ∀ id, t.systems.lookup id =
    if id ∈ ids then (s.systems.lookup id).map unfocused else s.systems.lookup id
  moved : t.focusMru.items = if found then s.focusMru.items else s.movedFirst ids
  inStep : InStep t

theorem isFocused_of_has (h : Has s id core) : s.isFocused id = core.viewportFocused := by
  rw [isFocused, show s.systems.lookup id = _ from h]
  rfl

/-- The host after `m_systems[id]->force_viewport_focused(false)`. -/
def clearFocus (id : SystemID) (core : SystemCore) (s : ApplicationHost) : ApplicationHost :=
  { s with systems := s.systems.insert id ⟨some { core with viewportFocused := false }⟩ }

theorem lookup_clearFocus (h : Has s id core) (x : SystemID) :
    (s.clearFocus id core).systems.lookup x =
      if x = id then (s.systems.lookup x).map unfocused else s.systems.lookup x := by
  by_cases hx : x = id
  · rw [if_pos hx, hx, show s.systems.lookup id = _ from h]
    exact AList.lookup_insert s.systems
  · rw [if_neg hx]
    exact AList.lookup_insert_ne hx

/-- A flag cleared first is one more that is cleared. -/
theorem flags_clearFocus (h : Has s id core) {ids : List SystemID} (hid : id ∉ ids)
    {t : ApplicationHost} (ht : ∀ x, t.systems.lookup x =
      if x ∈ ids then ((s.clearFocus id core).systems.lookup x).map unfocused
      else (s.clearFocus id core).systems.lookup x) (x : SystemID) :
    t.systems.lookup x =
      if x ∈ id :: ids then (s.systems.lookup x).map unfocused else s.systems.lookup x := by
  rw [ht, lookup_clearFocus h]
  by_cases hx : x = id
  · subst hx
    rw [if_neg hid, if_pos rfl, if_pos (List.mem_cons_self ..)]
  · simp only [List.mem_cons, hx, false_or, if_false]

/-- Clearing a flag does not change what the pass looks for among the others. -/
theorem movedFirst_clearFocus (h : Has s id core) {ids : List SystemID} (hid : id ∉ ids) :
    (s.clearFocus id core).movedFirst ids = s.movedFirst ids := by
  have hwants : ∀ x ∈ ids, (s.clearFocus id core).wantsFront x = s.wantsFront x := by
    intro x hx
    have hne : x ≠ id := fun heq => hid (heq ▸ hx)
    rw [wantsFront, isFocused, lookup_clearFocus h, if_neg hne]
    rfl
  rw [movedFirst, List.find?_congr hwants]
  rfl

/-- A pass that starts with the id it moves to the front. -/
theorem FocusPass.cons_moved (h : Has s id core) (hin : InStep s) {ids cleared : List SystemID}
    (hid : id ∉ ids) (hwants : s.wantsFront id = true) {t : ApplicationHost}
    (hspec : FocusPass { s.clearFocus id core with focusMru := s.focusMru.insert id } t true ids
      cleared) : FocusPass s t false (id :: ids) (id :: cleared) where
  cleared := congrArg (id :: ·) hspec.cleared
  flags := flags_clearFocus h hid hspec.flags
  moved := by
    have hmoved : s.movedFirst (id :: ids) = id :: s.focusMru.items.erase id := by
      rw [movedFirst, List.find?_cons_of_pos hwants]
    rw [if_neg Bool.false_ne_true, hmoved]
    exact hspec.moved.trans (SimpleMRU.items_insert hin.unlimited id)
  inStep := hspec.inStep

/-- A pass that starts with an id that stays where it is. -/
theorem FocusPass.cons_kept (h : Has s id core) {ids cleared : List SystemID} (hid : id ∉ ids)
    {found : Bool} (hkept : (!found && s.wantsFront id) = false) {t : ApplicationHost}
    (hspec : FocusPass (s.clearFocus id core) t found ids cleared) :
    FocusPass s t found (id :: ids) (id :: cleared) where
  cleared := congrArg (id :: ·) hspec.cleared
  flags := flags_clearFocus h hid hspec.flags
  moved := by
    refine hspec.moved.trans ?_
    cases found with
    | true => rfl
    | false =>
        rw [Bool.not_false, Bool.true_and] at hkept
        rw [movedFirst_clearFocus h hid, movedFirst, movedFirst,
          List.find?_cons_of_neg (by rw [hkept]; exact Bool.false_ne_true)]
        rfl
  inStep := hspec.inStep

/-- **The focus pass from a position on.** The list behind the position is what it was when
the pass began, although the pass moves an id to the front. -/
theorem focusPass_spec (ids : List SystemID) (i : Nat) (found : Bool) (s : ApplicationHost)
    (h : InStep s) (hids : s.focusMru.items.drop i = ids) :
    ∃ t cleared, focusPass ids.length i found s = some (t, cleared) ∧
      FocusPass s t found ids cleared := by
  induction ids generalizing i found s with
  | nil =>
      refine ⟨s, [], rfl, rfl, fun id => ?_, ?_, h⟩
      · exact (if_neg List.not_mem_nil).symm
      · exact (ite_self _).symm
  | cons id ids ih =>
      have hget : s.focusMru.items[i]? = some id := by
        rw [← List.head?_drop, hids]
        rfl
      have hmem := List.mem_of_getElem? hget
      have hfresh : id ∉ ids := by
        have hnodup : (id :: ids).Nodup := hids ▸ h.nodup.sublist (List.drop_sublist ..)
        exact (List.nodup_cons.1 hnodup).1
      have hnext : s.focusMru.items.drop (i + 1) = ids := by
        rw [← List.drop_drop, hids]
        rfl
      obtain ⟨core, hcore, _⟩ := h.has ((h.keys id).1 hmem)
      have hclear : InStep (s.clearFocus id core) := h.setCore hcore rfl
      have hfocused : s.wantsFront id = (core.viewportFocused &&
          s.focusMru.items.head? != some id) := by rw [wantsFront, isFocused_of_has hcore]
      have hpass : focusPass (ids.length + 1) i found s =
          (focusPass ids.length (i + 1) (found || (!found && s.wantsFront id))
            (if (!found && s.wantsFront id) = true then
              { s.clearFocus id core with focusMru := s.focusMru.insert id }
            else s.clearFocus id core)).bind fun r => some (r.1, id :: r.2) := by
        rw [hfocused, ← Bool.and_assoc]
        simp only [focusPass, hget, onCore_of_has hcore, Option.bind_eq_bind, Option.bind_some]
        rfl
      rw [List.length_cons, hpass]
      cases hmoves : (!found && s.wantsFront id) with
      | true =>
          obtain ⟨hfound, hwants⟩ := (Bool.and_eq_true ..).mp hmoves
          cases found with
          | true => exact nomatch hfound
          | false =>
              obtain ⟨t, cleared, ht, hspec⟩ := ih (i + 1) true
                { s.clearFocus id core with focusMru := s.focusMru.insert id }
                (hclear.moveToFront hmem) ((SimpleMRU.drop_insert hget h.nodup).trans hnext)
              refine ⟨t, id :: cleared, ?_, hspec.cons_moved hcore h hfresh hwants⟩
              rw [if_pos rfl, Bool.false_or, ht]
              rfl
      | false =>
          obtain ⟨t, cleared, ht, hspec⟩ := ih (i + 1) found (s.clearFocus id core) hclear hnext
          refine ⟨t, id :: cleared, ?_, hspec.cons_kept hcore hfresh hmoves⟩
          rw [Bool.or_false, if_neg Bool.false_ne_true, ht]
          rfl

/-- **`find_last_focused_system`** clears the flag of every system exactly once, in the order
of the list, and moves the first one in focus behind the front, if there is one. -/
theorem InStep.findLastFocusedSystem (h : InStep s) :
    ∃ t cleared, s.findLastFocusedSystem = some (t, cleared) ∧
      FocusPass s t false s.focusMru.items cleared :=
  focusPass_spec s.focusMru.items 0 false s h rfl

/-! ## Every sequence of operations -/

/-- **One operation** is defined and keeps the list and the map in step. -/
theorem InStep.step (h : InStep s) (op : Operation) : ∃ t, s.step op = some t ∧ InStep t := by
  cases op with
  | insertSystemInstance ptr => exact h.insertSystemInstance ptr
  | unloadSystemInstance systemId => exact ⟨_, rfl, h.unloadSystemInstance systemId⟩
  | pruneTerminatedSystems => exact ⟨_, rfl, h.pruneTerminatedSystems⟩
  | findLastFocusedSystem =>
      obtain ⟨t, cleared, ht, hpass⟩ := h.findLastFocusedSystem
      exact ⟨t, by rw [ApplicationHost.step, ht]; rfl, hpass.inStep⟩
  | presentViewports visible focused => exact ⟨_, rfl, h.presentViewports visible focused⟩
  | handleMainHotkeys terminate => exact h.handleMainHotkeys terminate
  | toggleSystemRuntimes minimized => exact h.toggleSystemRuntimes minimized

/-- **The running systems and the focus list stay in step**: no sequence of operations reads the
front of an empty list or calls a core that is not there; after each operation the ids in the
list are distinct and are the keys of the map, each with its core; and wherever the focus pass
runs it clears every flag exactly once and moves at most the first id in focus. -/
theorem inStep_run (ops : List Operation) :
    (∃ t, Runs.run step start ops = some t) ∧
      ∀ s ∈ Runs.visited step start ops, InStep s ∧
        ∃ t cleared, s.findLastFocusedSystem = some (t, cleared) ∧
          FocusPass s t false s.focusMru.items cleared := by
  have hinv : ∀ s ∈ Runs.visited step start ops, InStep s := by
    refine Runs.forall_visited_of_taken (G := fun _ _ => True) (fun s op t h _ ht => ?_)
      inStep_start fun _ _ => trivial
    obtain ⟨t', ht', hstep⟩ := h.step op
    cases ht.symm.trans ht'
    exact hstep
  refine ⟨?_, fun s hs => ⟨hinv s hs, (hinv s hs).findLastFocusedSystem⟩⟩
  have hrun (ops : List Operation) : ∀ s, InStep s → ∃ t, Runs.run step s ops = some t := by
    induction ops with
    | nil => exact fun s _ => ⟨s, rfl⟩
    | cons op ops ih =>
        intro s h
        obtain ⟨s', hs', hstep⟩ := h.step op
        obtain ⟨t, ht⟩ := ih s' hstep
        exact ⟨t, Runs.run_cons_eq_some.2 ⟨s', hs', ht⟩⟩
  exact hrun ops start inStep_start

end ApplicationHost

end CubeChip
