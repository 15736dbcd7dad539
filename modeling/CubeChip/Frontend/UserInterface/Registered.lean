import CubeChip.Frontend.UserInterface.Menus

/-!
# Menus: what is registered in a pass

The hooks of a menu are those in its buffer and then those that wait for it in the overflow
(`hooksAt`). A visit adds what the hooks it calls register there (`MenuBar.made`) and erases only
what has expired; a merge moves them over and changes nothing else. So at any time in a pass all
that was registered at a menu is there, in order, but for what has expired (`kept_after`).
-/

namespace CubeChip.UserInterface

open OrderedMap

variable {K W : Type*} [LinearOrder K] {bar : MenuBar K W} {m : Menus K W} {key : K}
  {r : HookRegistry} {e : Env W (LateMenus K)}

/-! ## The order of the keys -/

/-- Hooks registered late keep the keys in order. -/
theorem sorted_foldl_registerMenu (made : List (K × Nat)) {overflow : LateMenus K}
    (h : Sorted overflow) :
    Sorted (made.foldl (fun o hook => registerMenu hook.1 hook.2 o) overflow) :=
  List.foldlRecOn made _ h fun _ ho _ _ => sorted_access ho

/-- So do the menus they are merged into. -/
theorem sorted_foldl_mergeMenu (overflow : LateMenus K) {registry : List (K × HookRegistry)}
    (h : Sorted registry) : Sorted (overflow.foldl mergeMenu registry) :=
  List.foldlRecOn overflow _ h fun _ ho src _ => by
    unfold mergeMenu
    split
    · exact ho
    · exact sorted_access ho

/-- A merge keeps both maps in order. -/
theorem sorted_merge (h : m.Sorted) {cursor : Nat} :
    Menus.Sorted { (mergeOverflowingMenus m).2 with cursor } where
  registry := sorted_foldl_mergeMenu m.env.overflow h.registry
  overflow := by
    have hkeys : (m.env.overflow.map fun src => (src.1, ([] : List Nat))).map Prod.fst =
        m.env.overflow.map Prod.fst := List.map_map ..
    change ((m.env.overflow.map fun src => (src.1, [])).map Prod.fst).Pairwise _
    rw [hkeys]
    exact h.overflow

/-! ## A visit -/

/-- What a visit of a menu registers: it is the hooks called that do. -/
def MenuBar.madeBy (bar : MenuBar K W) (key : K) (r : HookRegistry) (e : Env W (LateMenus K)) :
    List (K × Nat) :=
  if r.buffer ≠ [] ∧ bar.opens key e = true then
    bar.made ((bar.live r e).drop r.offset) (bar.enter key r e).toScene
  else []

omit [LinearOrder K] in
/-- Opening a menu expires no hook. -/
theorem expired_enter (hook : Nat) :
    bar.expired (bar.enter key r e).world hook = bar.expired e.world hook :=
  bar.expired_beginMenu hook key e.world

omit [LinearOrder K] in
/-- Nor does closing it. -/
theorem expired_leave (hook : Nat) :
    bar.expired (bar.leave e).world hook = bar.expired e.world hook :=
  bar.expired_endMenu hook e.world

/-- What has expired stays so in a walk, and what is not kept by it has expired. -/
theorem expired_walkIn (hooks : Hooks K W) {turns : List Nat} {hook : Nat}
    (h : hooks.expired e.world hook = true ∨
      hook ∈ turns ∧ hook ∉ hooks.kept turns e.toScene) :
    hooks.expired (hooks.walkIn registerMenu turns e).world hook = true := by
  have hstays : ∀ (a b : Nat) (e : Env W (LateMenus K)), hooks.expired e.world a = true →
      hooks.expired (hooks.callIn registerMenu b e).world a = true :=
    fun a b e ha => hooks.expired_invoke a b e.next e.clicked e.world ha
  rcases h with h | ⟨hmem, hkept⟩
  · exact Turns.walk_invariant (I := fun e : Env W (LateMenus K) => hooks.expired e.world hook)
      (fun b _ e he _ => hstays hook b e he) h
  · rw [← (toScene_walkIn hooks registerMenu turns e).2] at hkept
    have hexpired := Turns.expired_walk hstays hmem hkept
    exact hexpired

/-- A visit erases from a menu only what has expired, and adds to the overflow what is made. -/
structure VisitKept (bar : MenuBar K W) (key : K) (r : HookRegistry) (e : Env W (LateMenus K)) :
    Prop where
  stays : ∀ hook, bar.expired e.world hook = true →
    bar.expired (visitMenu bar key r e).2.world hook = true
  erased : ∀ hook ∈ r.buffer, hook ∉ (visitMenu bar key r e).1.buffer →
    bar.expired (visitMenu bar key r e).2.world hook = true
  overflow : (visitMenu bar key r e).2.overflow =
    (bar.madeBy key r e).foldl (fun o hook => registerMenu hook.1 hook.2 o) e.overflow

omit [LinearOrder K] in
/-- What the clean-up erases has expired. -/
theorem mem_live {hook : Nat} (h : hook ∈ r.buffer) (halive : bar.expired e.world hook = false) :
    hook ∈ bar.live r e := by
  rw [MenuBar.live, List.mem_filter, halive]
  exact ⟨h, rfl⟩

/-- A menu without hooks is passed by. -/
theorem visitKept_of_nil (h : r.buffer = []) : VisitKept bar key r e := by
  have hvisit : visitMenu bar key r e = (r, e) := visitMenu_of_nil h
  have hmade : bar.madeBy key r e = [] := if_neg fun hnot => hnot.1 h
  refine ⟨?_, ?_, ?_⟩
  · rw [hvisit]
    exact fun _ => id
  · rw [hvisit]
    exact fun hook hin hout => absurd hin hout
  · rw [hvisit, hmade]
    rfl

/-- A menu that is closed is tidied up only. -/
theorem visitKept_of_not_opens (h : r.buffer ≠ []) (hopens : bar.opens key e = false) :
    VisitKept bar key r e := by
  have hvisit := visitMenu_of_not_opens h hopens
  have hmade : bar.madeBy key r e = [] :=
    if_neg fun hnot => Bool.false_ne_true (hopens.symm.trans hnot.2)
  have hexpired (hook : Nat) : bar.expired (visitMenu bar key r e).2.world hook =
      bar.expired e.world hook := by
    rw [hvisit]
    exact bar.expired_beginMenu hook key e.world
  refine ⟨fun hook halive => (hexpired hook).trans halive, fun hook hin hout => ?_, ?_⟩
  · rw [hexpired]
    by_contra halive
    rw [hvisit] at hout
    exact hout (mem_live hin (Bool.eq_false_iff.2 halive))
  · rw [hvisit, hmade]
    rfl

/-- A menu that is open calls hooks, which register others. -/
theorem visitKept_of_opens (h : r.buffer ≠ []) (hopens : bar.opens key e = true) :
    VisitKept bar key r e := by
  obtain ⟨hbuffer, -, henv⟩ := visitMenu_of_opens h hopens
  have hmade : bar.madeBy key r e =
      bar.made ((bar.live r e).drop r.offset) (bar.enter key r e).toScene := if_pos ⟨h, hopens⟩
  have hexpired (hook : Nat) (hgone : bar.expired e.world hook = true ∨
      hook ∈ (bar.live r e).drop r.offset ∧
        hook ∉ bar.kept ((bar.live r e).drop r.offset) (bar.enter key r e).toScene) :
      bar.expired (visitMenu bar key r e).2.world hook = true := by
    rw [henv, expired_leave]
    exact expired_walkIn bar.toHooks (hgone.imp_left fun hw => (expired_enter hook).trans hw)
  refine ⟨fun hook hw => hexpired hook (.inl hw), fun hook hin hout => ?_, ?_⟩
  · cases hw : bar.expired e.world hook with
    | true => exact hexpired hook (.inl hw)
    | false =>
        rw [hbuffer, List.mem_append, not_or] at hout
        have hmem := mem_live hin hw
        rw [← List.take_append_drop r.offset (bar.live r e), List.mem_append] at hmem
        exact hexpired hook (.inr ⟨hmem.resolve_left hout.1, hout.2⟩)
  · rw [henv, hmade]
    exact overflow_walkIn bar.toHooks registerMenu _ (bar.enter key r e)

/-- Any visit. -/
theorem visitMenu_kept (bar : MenuBar K W) (key : K) (r : HookRegistry)
    (e : Env W (LateMenus K)) : VisitKept bar key r e := by
  by_cases h : r.buffer = []
  · exact visitKept_of_nil h
  · cases hopens : bar.opens key e with
    | false => exact visitKept_of_not_opens h hopens
    | true => exact visitKept_of_opens h hopens

/-! ## A pass -/

/-- The hooks of a menu: those in its buffer, and those that wait for it. -/
def hooksAt (m : Menus K W) (key : K) : List Nat :=
  (lookup HookRegistry.empty key m.registry).buffer ++ lookup [] key m.env.overflow

/-- What a step of a pass registers. -/
def MenuBar.registers (bar : MenuBar K W) (m : Menus K W) : List (K × Nat) :=
  match m.registry[m.cursor]? with
  | some (key, r) => bar.madeBy key r m.env
  | none => []

/-- The hooks made for a menu. -/
def madeAt (made : List (K × Nat)) (key : K) : List Nat :=
  (made.filter fun hook => hook.1 = key).map Prod.snd

/-- All that was registered at a menu, in order: before a pass, and in its first `n` steps. -/
def registeredAt (bar : MenuBar K W) (m : Menus K W) (n : Nat) (key : K) : List Nat :=
  hooksAt m key ++ (List.range n).flatMap fun i => madeAt (bar.registers (menusAfter bar i m)) key

/-- Of all that was registered at a menu, what is not there has expired. -/
structure Kept (bar : MenuBar K W) (registered : List Nat) (m : Menus K W) (key : K) : Prop where
  order : (hooksAt m key).Sublist registered
  expired : ∀ hook ∈ registered, hook ∉ hooksAt m key → bar.expired m.env.world hook = true

/-- What waits for a menu after some hooks were registered. -/
theorem lookup_foldl_registerMenu (made : List (K × Nat)) {overflow : LateMenus K}
    (h : Sorted overflow) :
    lookup [] key (made.foldl (fun o hook => registerMenu hook.1 hook.2 o) overflow) =
      lookup [] key overflow ++ madeAt made key := by
  induction made generalizing overflow with
  | nil => exact (List.append_nil _).symm
  | cons hook made ih =>
      obtain ⟨k, n⟩ := hook
      have hrest : Sorted (registerMenu k n overflow) := sorted_access h
      rw [List.foldl_cons, ih hrest, registerMenu]
      by_cases hk : k = key
      · subst hk
        have hmade : madeAt ((k, n) :: made) k = n :: madeAt made k := by simp [madeAt]
        rw [lookup_access_self h, hmade, List.append_assoc]
        rfl
      · have hmade : madeAt ((k, n) :: made) key = madeAt made key := by simp [madeAt, hk]
        rw [lookup_access_of_ne (Ne.symm hk), hmade]

/-- A merge appends to each menu what waits for it. -/
theorem lookup_foldl_mergeMenu {overflow : LateMenus K} {registry : List (K × HookRegistry)}
    (h : Sorted overflow) (hr : Sorted registry) :
    (lookup HookRegistry.empty key (overflow.foldl mergeMenu registry)).buffer =
      (lookup HookRegistry.empty key registry).buffer ++ lookup [] key overflow := by
  induction overflow generalizing registry with
  | nil => exact (List.append_nil _).symm
  | cons src overflow ih =>
      obtain ⟨k, late⟩ := src
      obtain ⟨hlt, hrest⟩ := sorted_cons.1 h
      have hmerge : Sorted (mergeMenu registry (k, late)) :=
        sorted_foldl_mergeMenu [(k, late)] hr
      rw [List.foldl_cons, ih hrest hmerge, lookup]
      by_cases hk : k = key
      · subst hk
        rw [if_pos rfl, lookup_of_lt hlt, List.append_nil, mergeMenu]
        split
        · next hnil =>
          have hnil : late = [] := hnil
          rw [hnil, List.append_nil]
        · rw [lookup_access_self hr]
      · rw [if_neg hk, mergeMenu]
        split
        · rfl
        · rw [lookup_access_of_ne (Ne.symm hk)]

/-- A merge moves the hooks of a menu over, in order. -/
theorem hooksAt_merge (h : m.Sorted) {cursor : Nat} (key : K) :
    hooksAt { (mergeOverflowingMenus m).2 with cursor } key = hooksAt m key := by
  have hcleared : lookup [] key (m.env.overflow.map fun src => (src.1, ([] : List Nat))) = [] :=
    lookup_of_forall fun src hsrc => by
      obtain ⟨_, _, rfl⟩ := List.mem_map.1 hsrc
      rfl
  change (lookup HookRegistry.empty key (m.env.overflow.foldl mergeMenu m.registry)).buffer ++
    lookup [] key (m.env.overflow.map fun src => (src.1, [])) = _
  rw [hcleared, List.append_nil, lookup_foldl_mergeMenu h.overflow h.registry]
  rfl

/-- The buffer of a menu after a visit of that menu or another. -/
theorem buffer_visit {visited : K} (hsorted : m.Sorted)
    (hat : m.registry[m.cursor]? = some (visited, r)) (key : K) :
    ((lookup HookRegistry.empty key (menusStep bar m).registry).buffer.Sublist
        (lookup HookRegistry.empty key m.registry).buffer) ∧
      ∀ hook ∈ (lookup HookRegistry.empty key m.registry).buffer,
        hook ∉ (lookup HookRegistry.empty key (menusStep bar m).registry).buffer →
          bar.expired (visitMenu bar visited r m.env).2.world hook = true := by
  obtain ⟨hsplit, hstep⟩ := menusStep_visit bar hat
  have hregistry := hsorted.registry
  rw [hsplit] at hregistry
  rw [hstep]
  by_cases hk : key = visited
  · subst hk
    have hafter : Sorted (m.registry.take m.cursor ++
        (key, (visitMenu bar key r m.env).1) :: m.registry.drop (m.cursor + 1)) := by
      rwa [Sorted, List.map_append, List.map_cons] at hregistry ⊢
    have hbefore : lookup HookRegistry.empty key m.registry = r := by
      rw [hsplit, lookup_split hregistry]
    obtain ⟨called, hframe⟩ := visitMenu_frame bar key r m.env
    rw [lookup_split hafter, hbefore]
    exact ⟨hframe.erased, (visitMenu_kept bar key r m.env).erased⟩
  · have hsame : lookup HookRegistry.empty key m.registry =
        lookup HookRegistry.empty key (m.registry.take m.cursor ++
          (visited, (visitMenu bar visited r m.env).1) :: m.registry.drop (m.cursor + 1)) := by
      conv_lhs => rw [hsplit]
      exact lookup_split_of_ne hk
    rw [← hsame]
    exact ⟨.refl _, fun hook hin hout => absurd hin hout⟩

/-- A visit, seen from any menu. -/
theorem Kept.visit {registered : List Nat} {visited : K} (h : Kept bar registered m key)
    (hsorted : m.Sorted) (hat : m.registry[m.cursor]? = some (visited, r)) :
    Kept bar (registered ++ madeAt (bar.madeBy visited r m.env) key) (menusStep bar m) key := by
  obtain ⟨-, hstep⟩ := menusStep_visit bar hat
  obtain ⟨hsub, herased⟩ := buffer_visit hsorted hat key
  have hkept := visitMenu_kept bar visited r m.env
  have hlate : lookup [] key (menusStep bar m).env.overflow =
      lookup [] key m.env.overflow ++ madeAt (bar.madeBy visited r m.env) key := by
    rw [hstep, hkept.overflow, lookup_foldl_registerMenu _ hsorted.overflow]
  have hworld : (menusStep bar m).env.world = (visitMenu bar visited r m.env).2.world := by
    rw [hstep]
  constructor
  · rw [hooksAt, hlate, ← List.append_assoc]
    exact ((hsub.append_right _).trans h.order).append_right _
  · intro hook hhook hout
    rw [hooksAt, hlate, List.mem_append, List.mem_append, not_or, not_or] at hout
    obtain ⟨hbuffer, hwaits, hmade⟩ := hout
    rw [hworld]
    have hregistered := (List.mem_append.1 hhook).resolve_right hmade
    by_cases hin : hook ∈ hooksAt m key
    · exact herased hook ((List.mem_append.1 hin).resolve_right hwaits) hbuffer
    · exact hkept.stays hook (h.expired hook hregistered hin)

/-- One step keeps both maps in order. -/
theorem sorted_step (h : m.Sorted) : (menusStep bar m).Sorted := by
  cases hat : m.registry[m.cursor]? with
  | some menu =>
      obtain ⟨key, r⟩ := menu
      obtain ⟨hsplit, hstep⟩ := menusStep_visit bar hat
      have hregistry := h.registry
      rw [hsplit] at hregistry
      rw [hstep]
      constructor
      · rwa [Sorted, List.map_append, List.map_cons] at hregistry ⊢
      · rw [(visitMenu_kept bar key r m.env).overflow]
        exact sorted_foldl_registerMenu _ h.overflow
  | none =>
      rcases menusStep_merge bar hat with hstep | hstep
      · rwa [hstep]
      · rw [hstep]
        exact sorted_merge h

/-- So does any number of steps. -/
theorem sorted_after (h : m.Ready) (n : Nat) : (menusAfter bar n m).Sorted := by
  induction n with
  | zero => exact sorted_merge h.sorted
  | succ n ih =>
      rw [menusAfter, Function.iterate_succ_apply']
      exact sorted_step ih

/-- What one step more registers. -/
theorem registeredAt_succ (n : Nat) :
    registeredAt bar m (n + 1) key =
      registeredAt bar m n key ++ madeAt (bar.registers (menusAfter bar n m)) key := by
  rw [registeredAt, registeredAt, List.range_succ, List.flatMap_append, List.flatMap_singleton,
    List.append_assoc]

/-- **Nothing registered is lost**, before a pass or in it. -/
theorem kept_after (h : m.Ready) (n : Nat) (key : K) :
    Kept bar (registeredAt bar m n key) (menusAfter bar n m) key := by
  induction n with
  | zero =>
      have hstart : hooksAt (menusAfter bar 0 m) key = registeredAt bar m 0 key :=
        (hooksAt_merge h.sorted key).trans (List.append_nil _).symm
      exact ⟨hstart ▸ .refl _, fun hook hin hout => absurd (hstart ▸ hin) hout⟩
  | succ n ih =>
      have hsorted : (menusAfter bar n m).Sorted := sorted_after h n
      have hstep : menusAfter bar (n + 1) m = menusStep bar (menusAfter bar n m) :=
        Function.iterate_succ_apply' ..
      rw [registeredAt_succ, hstep, MenuBar.registers]
      generalize menusAfter bar n m = t at ih hsorted
      cases hat : t.registry[t.cursor]? with
      | some menu => exact ih.visit hsorted hat
      | none =>
          rw [madeAt, List.filter_nil, List.map_nil, List.append_nil]
          rcases menusStep_merge bar hat with hstep | hstep
          · rwa [hstep]
          · have hsame : hooksAt { (mergeOverflowingMenus t).2 with cursor := 0 } key =
                hooksAt t key := hooksAt_merge hsorted key
            rw [hstep]
            exact ⟨hsame ▸ ih.order, fun hook hin hout => ih.expired hook hin (hsame ▸ hout)⟩

/-- When a pass returns no hook waits: all that are there are in the buffers. -/
theorem buffer_of_returned {n : Nat} {invoked : Bool} {m' : Menus K W}
    (hret : invokeRegisteredMenus bar n m = some (invoked, m')) (key : K) :
    (lookup HookRegistry.empty key m'.registry).buffer = hooksAt (menusAfter bar n m) key := by
  unfold invokeRegisteredMenus at hret
  dsimp only at hret
  split at hret
  · next hfinished =>
    cases hret
    have hlate : lookup [] key (menusAfter bar n m).env.overflow = [] := by
      have hempty := List.any_eq_false.1 hfinished.2
      refine lookup_of_forall fun src hsrc => ?_
      simpa using hempty src hsrc
    rw [hooksAt, hlate, List.append_nil]
    have hback := lookup_map (d := HookRegistry.empty) (k := key)
      (m := (menusAfter bar n m).registry) fun r => { r with offset := 0 }
    exact (congrArg HookRegistry.buffer hback).trans rfl
  · cases hret

/-- A pass that returns leaves the menus ready for the next. -/
theorem ready_of_returned (h : m.Ready) {n : Nat} {invoked : Bool} {m' : Menus K W}
    (hret : invokeRegisteredMenus bar n m = some (invoked, m')) :
    Menus.Ready { m' with env := { m'.env with invoked := [] } } := by
  have hbase := base_after bar h n
  unfold invokeRegisteredMenus at hret
  dsimp only at hret
  split at hret
  · cases hret
    have hhooks : menuHooks ((menusAfter bar n m).registry.map fun menu =>
        (menu.1, { menu.2 with offset := 0 })) = menuHooks (menusAfter bar n m).registry := by
      rw [menuHooks, List.flatMap_map]
      rfl
    have hnodup := hbase.nodup
    have hlt := hbase.lt
    rw [← hhooks] at hnodup hlt
    have hsorted : (menusAfter bar n m).Sorted := sorted_after h n
    have hkeys : ((menusAfter bar n m).registry.map fun menu =>
        (menu.1, { menu.2 with offset := 0 })).map Prod.fst =
          (menusAfter bar n m).registry.map Prod.fst := List.map_map ..
    refine ⟨?_, rfl, hnodup, hlt, ⟨?_, hsorted.overflow⟩⟩
    · intro menu hmenu
      obtain ⟨menu, _, rfl⟩ := List.mem_map.1 hmenu
      rfl
    · exact (congrArg (List.Pairwise (· < ·)) hkeys).mpr hsorted.registry
  · cases hret

end CubeChip.UserInterface
