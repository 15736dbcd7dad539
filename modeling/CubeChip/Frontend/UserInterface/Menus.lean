import CubeChip.Frontend.UserInterface.Walk

/-!
# Menus: what a pass keeps

The hooks of the menus stay apart through a pass: each belongs to one menu or to the overflow, and
none is called twice, whatever ImGui opens and whatever the hooks do (`base_after`). The steps are
taken apart into a visit of one menu (`visitMenu_frame`) and a merge (`mem_foldl_mergeMenu`).
-/

namespace CubeChip.UserInterface

variable {K W : Type*} [LinearOrder K] (bar : MenuBar K W)

/-- The hooks of the menus. -/
def menuHooks (registry : List (K × HookRegistry)) : List Nat :=
  registry.flatMap fun menu => menu.2.buffer

/-- The hooks in the overflow. -/
def lateHooks (overflow : LateMenus K) : List Nat := overflow.flatMap fun src => src.2

/-! ## Registering -/

/-- A hook registered late waits with the others. -/
theorem lateHooks_registerMenu (key : K) (hook : Nat) (overflow : LateMenus K) :
    (lateHooks (registerMenu key hook overflow)).Perm (lateHooks overflow ++ [hook]) := by
  unfold lateHooks registerMenu
  exact OrderedMap.flatMap_access_perm (g := fun buffer => buffer) rfl (fun _ => .refl _) overflow

/-- So do several. -/
theorem lateHooks_foldl (made : List (K × Nat)) (overflow : LateMenus K) :
    (lateHooks (made.foldl (fun o hook => registerMenu hook.1 hook.2 o) overflow)).Perm
      (lateHooks overflow ++ made.map Prod.snd) := by
  induction made generalizing overflow with
  | nil => simp
  | cons hook made ih =>
      rw [List.foldl_cons, List.map_cons, ← List.singleton_append, ← List.append_assoc]
      exact (ih _).trans ((lateHooks_registerMenu ..).append_right _)

/-- What is added to the overflow are the hooks made on the way. -/
theorem lateHooks_walkIn (hooks : Hooks K W) (turns : List Nat) (e : Env W (LateMenus K)) :
    (lateHooks (hooks.walkIn registerMenu turns e).overflow).Perm
      (lateHooks e.overflow ++
        List.range' e.next ((hooks.walkIn registerMenu turns e).next - e.next)) := by
  rw [overflow_walkIn, ← map_snd_made hooks registerMenu turns e]
  exact lateHooks_foldl (hooks.made turns e.toScene) e.overflow

/-! ## A visit -/

/-- The hooks of a menu the clean-up leaves. -/
def MenuBar.live (r : HookRegistry) (e : Env W (LateMenus K)) : List Nat :=
  r.buffer.filter fun hook => !bar.expired e.world hook

/-- The menu is opened if it is visited. -/
def MenuBar.opens (key : K) (e : Env W (LateMenus K)) : Bool := (bar.beginMenu key e.world).1

/-- The menu is opened. -/
def MenuBar.enter (key : K) (r : HookRegistry) (e : Env W (LateMenus K)) : Env W (LateMenus K) :=
  { e with world := (bar.beginMenu key e.world).2, clicked := !r.hasFocus }

/-- The menu is ended. -/
def MenuBar.leave (e : Env W (LateMenus K)) : Env W (LateMenus K) :=
  { e with world := bar.endMenu e.world }

variable {bar} {key : K} {r : HookRegistry} {e : Env W (LateMenus K)}

/-- A menu that is open calls the live hooks behind its index. -/
theorem visitMenu_of_opens (h : r.buffer ≠ []) (hopens : bar.opens key e = true) :
    (visitMenu bar key r e).1.buffer = (bar.live r e).take r.offset ++
        bar.kept ((bar.live r e).drop r.offset) (bar.enter key r e).toScene ∧
    (visitMenu bar key r e).1.offset = r.offset +
        (bar.kept ((bar.live r e).drop r.offset) (bar.enter key r e).toScene).length ∧
    (visitMenu bar key r e).2 = bar.leave
        (bar.walkIn registerMenu ((bar.live r e).drop r.offset) (bar.enter key r e)) := by
  have hvisit : visitMenu bar key r e =
      ((invokeHooks bar.toHooks registerMenu
          { r with buffer := bar.live r e, firstHit := !r.hasFocus, hasFocus := true }
          (bar.enter key r e)).1,
        bar.leave (invokeHooks bar.toHooks registerMenu
          { r with buffer := bar.live r e, firstHit := !r.hasFocus, hasFocus := true }
          (bar.enter key r e)).2) := by
    rw [visitMenu, if_neg h]
    exact if_pos hopens
  rw [hvisit, invokeHooks_eq]
  exact ⟨rfl, rfl, rfl⟩

/-- Leaving a menu calls no hook. -/
theorem invoked_leave (turns : List Nat) :
    (bar.leave (bar.walkIn registerMenu turns (bar.enter key r e))).invoked =
      e.invoked ++ bar.kept turns (bar.enter key r e).toScene :=
  invoked_walkIn bar.toHooks registerMenu turns (bar.enter key r e)

/-- A menu that is closed is tidied up only. -/
theorem visitMenu_of_not_opens (h : r.buffer ≠ []) (hopens : bar.opens key e = false) :
    visitMenu bar key r e =
      ({ r with buffer := bar.live r e, hasFocus := false },
        { e with world := (bar.beginMenu key e.world).2, clicked := false }) := by
  rw [visitMenu, if_neg h]
  exact if_neg (Bool.eq_false_iff.1 hopens)

/-- A menu without hooks is passed by. -/
theorem visitMenu_of_nil (h : r.buffer = []) : visitMenu bar key r e = (r, e) := if_pos h

/-- What stands behind an index of a filtered list stood behind it before. -/
theorem drop_filter_sublist {α : Type*} (p : α → Bool) (n : Nat) (l : List α) :
    ((l.filter p).drop n).Sublist (l.drop n) := by
  have hfront : ((l.take n).filter p).length ≤ n :=
    Nat.le_trans (List.length_filter_le ..) (List.length_take_le ..)
  rw [← List.take_append_drop n l, List.filter_append, List.drop_append,
    List.drop_of_length_le hfront, List.nil_append, List.take_append_drop]
  exact (List.drop_sublist ..).trans List.filter_sublist

/-- What a visit of a menu changes: hooks of the menu are erased, hooks that stand at its index or
after are called, and hooks are made; and the index is behind all that were called. -/
structure VisitFrame (r : HookRegistry) (e : Env W (LateMenus K)) (r' : HookRegistry)
    (e' : Env W (LateMenus K)) (called : List Nat) : Prop where
  erased : r'.buffer.Sublist r.buffer
  next_le : e.next ≤ e'.next
  invoked : e'.invoked = e.invoked ++ called
  stood : called.Sublist (r.buffer.drop r.offset)
  overflow : (lateHooks e'.overflow).Perm
    (lateHooks e.overflow ++ List.range' e.next (e'.next - e.next))
  fresh : r'.buffer.drop r'.offset = [] ∨
    called = [] ∧ (r'.buffer.drop r'.offset).Sublist (r.buffer.drop r.offset)

/-- What any visit does. -/
theorem visitMenu_frame (bar : MenuBar K W) (key : K) (r : HookRegistry)
    (e : Env W (LateMenus K)) :
    ∃ called, VisitFrame r e (visitMenu bar key r e).1 (visitMenu bar key r e).2 called := by
  by_cases h : r.buffer = []
  · refine ⟨[], ?_⟩
    rw [visitMenu_of_nil h]
    exact ⟨.refl _, Nat.le_refl _, (List.append_nil _).symm, List.nil_sublist _, by simp,
      .inr ⟨rfl, .refl _⟩⟩
  · have hlive : (bar.live r e).Sublist r.buffer := List.filter_sublist
    cases hopens : bar.opens key e with
    | false =>
        refine ⟨[], ?_⟩
        rw [visitMenu_of_not_opens h hopens]
        exact ⟨hlive, Nat.le_refl _, (List.append_nil _).symm, List.nil_sublist _, by simp,
          .inr ⟨rfl, drop_filter_sublist ..⟩⟩
    | true =>
        obtain ⟨hbuffer, hoffset, henv⟩ := visitMenu_of_opens h hopens
        have hkept := kept_sublist bar.toHooks ((bar.live r e).drop r.offset)
          (bar.enter key r e).toScene
        refine ⟨bar.kept ((bar.live r e).drop r.offset) (bar.enter key r e).toScene, ?_⟩
        constructor
        · rw [hbuffer]
          refine (((List.Sublist.refl _).append hkept).trans ?_).trans hlive
          rw [List.take_append_drop]
        · rw [henv]
          exact next_walkIn_le bar.toHooks registerMenu _ (bar.enter key r e)
        · rw [henv, invoked_leave]
        · exact hkept.trans (drop_filter_sublist ..)
        · rw [henv]
          exact lateHooks_walkIn bar.toHooks _ (bar.enter key r e)
        · refine .inl (List.drop_of_length_le ?_)
          rw [hbuffer, hoffset, List.length_append]
          exact Nat.add_le_add_right (List.length_take_le ..) _

/-! ## A merge -/

/-- A merge loses no hook. -/
theorem menuHooks_foldl_mergeMenu (overflow : LateMenus K) (registry : List (K × HookRegistry)) :
    (menuHooks (overflow.foldl mergeMenu registry)).Perm
      (menuHooks registry ++ lateHooks overflow) := by
  induction overflow generalizing registry with
  | nil => simp [lateHooks]
  | cons src overflow ih =>
      have hone : (menuHooks (mergeMenu registry src)).Perm (menuHooks registry ++ src.2) := by
        unfold mergeMenu
        split
        · next hnil => simp [hnil]
        · exact OrderedMap.flatMap_access_perm (g := HookRegistry.buffer) rfl (fun _ => .refl _)
            registry
      have hlate : lateHooks (src :: overflow) = src.2 ++ lateHooks overflow := List.flatMap_cons
      rw [List.foldl_cons, hlate, ← List.append_assoc]
      exact (ih _).trans (hone.append_right _)

/-- After a merge a menu has the hooks it had, if it was there, and then hooks of the overflow. -/
theorem mem_foldl_mergeMenu {overflow : LateMenus K} {registry : List (K × HookRegistry)}
    {r' : HookRegistry} (h : (key, r') ∈ overflow.foldl mergeMenu registry) :
    ∃ r late, ((key, r) ∈ registry ∨ r = HookRegistry.empty) ∧
      r' = { r with buffer := r.buffer ++ late } ∧ late ⊆ lateHooks overflow := by
  induction overflow generalizing registry with
  | nil =>
      refine ⟨r', [], .inl h, ?_, List.nil_subset _⟩
      rw [List.append_nil]
  | cons src overflow ih =>
      have hlate : lateHooks (src :: overflow) = src.2 ++ lateHooks overflow := List.flatMap_cons
      obtain ⟨r, late, hr, rfl, hsub⟩ := ih h
      rw [hlate]
      have hrest : late ⊆ src.2 ++ lateHooks overflow := by
        exact fun hook hhook => List.mem_append_right _ (hsub hhook)
      rcases hr with hr | hr
      · unfold mergeMenu at hr
        split at hr
        · exact ⟨r, late, .inl hr, rfl, hrest⟩
        · rcases OrderedMap.mem_access hr with hr | ⟨rfl, dst, hdst, rfl⟩
          · exact ⟨r, late, .inl hr, rfl, hrest⟩
          · refine ⟨dst, src.2 ++ late, hdst, ?_, ?_⟩
            · rw [← List.append_assoc]
            · exact List.append_subset.2 ⟨List.subset_append_left .., hrest⟩
      · exact ⟨r, late, .inr hr, rfl, hrest⟩

/-! ## A pass -/

/-- The hooks of the menus and of the overflow are distinct and were given numbers; those called so
far are distinct, and none of them stands at an index or after, or is in the overflow. -/
structure Base (m : Menus K W) : Prop where
  nodup : (menuHooks m.registry ++ lateHooks m.env.overflow).Nodup
  lt : ∀ hook ∈ menuHooks m.registry ++ lateHooks m.env.overflow, hook < m.env.next
  called_nodup : m.env.invoked.Nodup
  called_lt : ∀ hook ∈ m.env.invoked, hook < m.env.next
  called_late : ∀ hook ∈ m.env.invoked, hook ∉ lateHooks m.env.overflow
  fresh : ∀ menu ∈ m.registry, ∀ hook ∈ menu.2.buffer.drop menu.2.offset, hook ∉ m.env.invoked

variable {m : Menus K W} {before after : List (K × HookRegistry)} {r' : HookRegistry}
  {e' : Env W (LateMenus K)} {called : List Nat} {cursor : Nat}

omit [LinearOrder K] in
/-- The hooks of the menus before, at and behind one. -/
theorem menuHooks_split (before after : List (K × HookRegistry)) (key : K) (r : HookRegistry) :
    menuHooks (before ++ (key, r) :: after) =
      menuHooks before ++ (r.buffer ++ menuHooks after) := by
  simp [menuHooks]

omit [LinearOrder K] in
/-- No hook is twice in a buffer. -/
theorem Base.buffer_nodup (h : Base m) (hsplit : m.registry = before ++ (key, r) :: after) :
    r.buffer.Nodup := by
  have hmenus := (List.nodup_append.1 h.nodup).1
  rw [hsplit, menuHooks_split] at hmenus
  exact (List.nodup_append.1 (List.nodup_append.1 hmenus).2.1).1

omit [LinearOrder K] in
/-- The hooks of another menu are not those of one. -/
theorem Base.not_mem_other (h : Base m) (hsplit : m.registry = before ++ (key, r) :: after)
    {menu : K × HookRegistry} (hmenu : menu ∈ before ++ after) {hook : Nat}
    (hhook : hook ∈ menu.2.buffer) : hook ∉ r.buffer := by
  have hnodup := (List.nodup_append.1 h.nodup).1
  rw [hsplit, menuHooks_split] at hnodup
  obtain ⟨_, hrest, hbefore⟩ := List.nodup_append.1 hnodup
  obtain ⟨_, _, hafter⟩ := List.nodup_append.1 hrest
  intro hr
  rcases List.mem_append.1 hmenu with hmenu | hmenu
  · exact hbefore hook (List.mem_flatMap.2 ⟨menu, hmenu, hhook⟩) hook
      (List.mem_append_left _ hr) rfl
  · exact hafter hook hr hook (List.mem_flatMap.2 ⟨menu, hmenu, hhook⟩) rfl

omit [LinearOrder K] in
/-- The hooks of a menu are among those of the menus. -/
theorem mem_menuHooks (hsplit : m.registry = before ++ (key, r) :: after) {hook : Nat}
    (h : hook ∈ r.buffer) : hook ∈ menuHooks m.registry ++ lateHooks m.env.overflow := by
  rw [hsplit, menuHooks_split]
  exact List.mem_append_left _ (List.mem_append_right _ (List.mem_append_left _ h))

omit [LinearOrder K] in
/-- The menus and the overflow after a visit have hooks they had, and those made on the way. -/
theorem VisitFrame.mem_hooks (hframe : VisitFrame r m.env r' e' called)
    (hsplit : m.registry = before ++ (key, r) :: after) :
    (menuHooks (before ++ (key, r') :: after)).Sublist (menuHooks m.registry) ∧
    (menuHooks (before ++ (key, r') :: after) ++ lateHooks e'.overflow).Perm
      (menuHooks (before ++ (key, r') :: after) ++ lateHooks m.env.overflow ++
        List.range' m.env.next (e'.next - m.env.next)) := by
  constructor
  · rw [hsplit, menuHooks_split, menuHooks_split]
    exact (List.Sublist.refl _).append (hframe.erased.append (.refl _))
  · rw [List.append_assoc]
    exact hframe.overflow.append_left _

omit [LinearOrder K] in
/-- Nor anywhere, after a visit. -/
theorem Base.nodup_visit (h : Base m) (hsplit : m.registry = before ++ (key, r) :: after)
    (hframe : VisitFrame r m.env r' e' called) :
    (menuHooks (before ++ (key, r') :: after) ++ lateHooks e'.overflow).Nodup := by
  obtain ⟨herased, hperm⟩ := hframe.mem_hooks hsplit
  have hold := herased.append (.refl (lateHooks m.env.overflow))
  refine hperm.nodup_iff.2 ((h.nodup.sublist hold).append List.nodup_range' ?_)
  intro hook hbefore hmade
  have hlt := h.lt hook (hold.subset hbefore)
  have hge := (List.mem_range'_1.1 hmade).1
  omega

omit [LinearOrder K] in
/-- Hooks are numbered as they are made. -/
theorem Base.lt_visit (h : Base m) (hsplit : m.registry = before ++ (key, r) :: after)
    (hframe : VisitFrame r m.env r' e' called) :
    ∀ hook ∈ menuHooks (before ++ (key, r') :: after) ++ lateHooks e'.overflow,
      hook < e'.next := by
  obtain ⟨herased, hperm⟩ := hframe.mem_hooks hsplit
  have hle := hframe.next_le
  intro hook hhook
  rcases List.mem_append.1 (hperm.subset hhook) with hold | hmade
  · have hlt := h.lt hook ((herased.append (.refl _)).subset hold)
    omega
  · have hlt := (List.mem_range'_1.1 hmade).2
    omega

omit [LinearOrder K] in
/-- A hook called by now was called before the visit, or is one of the menu. -/
theorem VisitFrame.mem_invoked (hframe : VisitFrame r m.env r' e' called) {hook : Nat}
    (h : hook ∈ e'.invoked) :
    hook ∈ m.env.invoked ∨ hook ∈ called ∧ hook ∈ r.buffer := by
  rw [hframe.invoked] at h
  rcases List.mem_append.1 h with h | h
  · exact .inl h
  · exact .inr ⟨h, List.mem_of_mem_drop (hframe.stood.subset h)⟩

omit [LinearOrder K] in
/-- A hook called was made before. -/
theorem Base.called_lt_visit (h : Base m) (hsplit : m.registry = before ++ (key, r) :: after)
    (hframe : VisitFrame r m.env r' e' called) : ∀ hook ∈ e'.invoked, hook < m.env.next := by
  intro hook hhook
  rcases hframe.mem_invoked hhook with hhook | ⟨_, hhook⟩
  · exact h.called_lt hook hhook
  · exact h.lt hook (mem_menuHooks hsplit hhook)

omit [LinearOrder K] in
/-- No hook is called twice. -/
theorem Base.called_nodup_visit (h : Base m) (hsplit : m.registry = before ++ (key, r) :: after)
    (hframe : VisitFrame r m.env r' e' called) : e'.invoked.Nodup := by
  have hcalled := (h.buffer_nodup hsplit).sublist (hframe.stood.trans (List.drop_sublist ..))
  rw [hframe.invoked]
  refine h.called_nodup.append hcalled ?_
  intro hook hhook hcalled
  exact h.fresh (key, r) (by simp [hsplit]) hook (hframe.stood.subset hcalled) hhook

omit [LinearOrder K] in
/-- A hook called does not wait in the overflow. -/
theorem Base.called_late_visit (h : Base m) (hsplit : m.registry = before ++ (key, r) :: after)
    (hframe : VisitFrame r m.env r' e' called) :
    ∀ hook ∈ e'.invoked, hook ∉ lateHooks e'.overflow := by
  intro hook hhook hlate
  rcases List.mem_append.1 (hframe.overflow.subset hlate) with hlate | hmade
  · rcases hframe.mem_invoked hhook with hhook | ⟨_, hhook⟩
    · exact h.called_late hook hhook hlate
    · have hmenu : hook ∈ menuHooks m.registry := by
        rw [hsplit, menuHooks_split]
        simp [hhook]
      exact (List.nodup_append.1 h.nodup).2.2 hook hmenu hook hlate rfl
  · have hge := (List.mem_range'_1.1 hmade).1
    have hlt := h.called_lt_visit hsplit hframe hook hhook
    omega

omit [LinearOrder K] in
/-- The hooks behind an index were not called. -/
theorem Base.fresh_visit (h : Base m) (hsplit : m.registry = before ++ (key, r) :: after)
    (hframe : VisitFrame r m.env r' e' called) :
    ∀ menu ∈ before ++ (key, r') :: after, ∀ hook ∈ menu.2.buffer.drop menu.2.offset,
      hook ∉ e'.invoked := by
  intro menu hmenu hook hhook hin
  have hcases : menu = (key, r') ∨ menu ∈ before ++ after := by
    simp only [List.mem_append, List.mem_cons] at hmenu ⊢
    tauto
  rcases hcases with rfl | hother
  · -- either nothing stands behind the index, or nothing was called
    rcases hframe.fresh with hnil | ⟨rfl, hsub⟩
    · rw [hnil] at hhook
      cases hhook
    · rw [hframe.invoked, List.append_nil] at hin
      exact h.fresh (key, r) (by simp [hsplit]) hook (hsub.subset hhook) hin
  · have hmem : menu ∈ m.registry := by
      rw [hsplit]
      simp only [List.mem_append, List.mem_cons] at hother ⊢
      tauto
    rcases hframe.mem_invoked hin with hin | ⟨_, hin⟩
    · exact h.fresh menu hmem hook hhook hin
    · exact h.not_mem_other hsplit hother (List.mem_of_mem_drop hhook) hin

omit [LinearOrder K] in
/-- A visit keeps the hooks apart. -/
theorem Base.visit (h : Base m) (hsplit : m.registry = before ++ (key, r) :: after)
    (hframe : VisitFrame r m.env r' e' called) :
    Base { registry := before ++ (key, r') :: after, env := e', cursor } where
  nodup := h.nodup_visit hsplit hframe
  lt := h.lt_visit hsplit hframe
  called_nodup := h.called_nodup_visit hsplit hframe
  called_lt := by
    intro hook hhook
    exact Nat.lt_of_lt_of_le (h.called_lt_visit hsplit hframe hook hhook) hframe.next_le
  called_late := h.called_late_visit hsplit hframe
  fresh := h.fresh_visit hsplit hframe

/-- A merge keeps the hooks apart. -/
theorem Base.merge (h : Base m) : Base {
    registry := m.env.overflow.foldl mergeMenu m.registry
    env := { m.env with overflow := m.env.overflow.map fun src => (src.1, []) }
    cursor } := by
  have hcleared : lateHooks (m.env.overflow.map fun src => (src.1, ([] : List Nat))) = [] := by
    simp [lateHooks]
  have hperm := menuHooks_foldl_mergeMenu m.env.overflow m.registry
  constructor
  · rw [hcleared, List.append_nil]
    exact hperm.nodup_iff.2 h.nodup
  · rw [hcleared, List.append_nil]
    exact fun hook hhook => h.lt hook (hperm.subset hhook)
  · exact h.called_nodup
  · exact h.called_lt
  · rw [hcleared]
    exact fun hook _ => List.not_mem_nil
  · rintro ⟨key, r'⟩ hmenu hook hhook
    obtain ⟨r, late, hr, rfl, hsub⟩ := mem_foldl_mergeMenu hmenu
    rw [List.drop_append] at hhook
    rcases List.mem_append.1 hhook with hhook | hhook
    · rcases hr with hr | rfl
      · exact h.fresh (key, r) hr hook hhook
      · cases hhook
    · intro hin
      exact h.called_late hook hin (hsub (List.mem_of_mem_drop hhook))

/-- A step that visits a menu. -/
theorem menusStep_visit (bar : MenuBar K W) (h : m.registry[m.cursor]? = some (key, r)) :
    m.registry = m.registry.take m.cursor ++ (key, r) :: m.registry.drop (m.cursor + 1) ∧
    menusStep bar m =
      { registry := m.registry.take m.cursor ++
          (key, (visitMenu bar key r m.env).1) :: m.registry.drop (m.cursor + 1)
        env := (visitMenu bar key r m.env).2
        cursor := m.cursor + 1 } := by
  obtain ⟨hlt, hr⟩ := List.getElem?_eq_some_iff.1 h
  constructor
  · rw [← hr, ← List.drop_eq_getElem_cons hlt, List.take_append_drop]
  · have hset := List.set_eq_take_append_cons_drop (l := m.registry) (i := m.cursor)
      (a := (key, (visitMenu bar key r m.env).1))
    rw [if_pos hlt] at hset
    rw [← hset, menusStep, h]

/-- A step behind the last menu. -/
theorem menusStep_merge (bar : MenuBar K W) (h : m.registry[m.cursor]? = none) :
    menusStep bar m = m ∨ menusStep bar m = { (mergeOverflowingMenus m).2 with cursor := 0 } := by
  have hstep : menusStep bar m = if (mergeOverflowingMenus m).1 then
      { (mergeOverflowingMenus m).2 with cursor := 0 } else m := by
    rw [menusStep, h]
  rw [hstep]
  split
  · exact .inr rfl
  · exact .inl rfl

/-- One step. -/
theorem Base.step (h : Base m) (bar : MenuBar K W) : Base (menusStep bar m) := by
  cases hat : m.registry[m.cursor]? with
  | some menu =>
      obtain ⟨key, r⟩ := menu
      obtain ⟨hsplit, hstep⟩ := menusStep_visit bar hat
      obtain ⟨called, hframe⟩ := visitMenu_frame bar key r m.env
      rw [hstep]
      exact h.visit hsplit hframe
  | none =>
      rcases menusStep_merge bar hat with hstep | hstep
      · rwa [hstep]
      · rw [hstep]
        exact h.merge

/-- The menus and the overflow are in the order of their keys. -/
structure Menus.Sorted (m : Menus K W) : Prop where
  registry : OrderedMap.Sorted m.registry
  overflow : OrderedMap.Sorted m.env.overflow

/-- Between two passes: the loops stand at the first hooks, none was called, the hooks are
distinct and were given numbers, and the maps are in order. -/
structure Menus.Ready (m : Menus K W) : Prop where
  offset : ∀ menu ∈ m.registry, menu.2.offset = 0
  invoked : m.env.invoked = []
  nodup : (menuHooks m.registry ++ lateHooks m.env.overflow).Nodup
  lt : ∀ hook ∈ menuHooks m.registry ++ lateHooks m.env.overflow, hook < m.env.next
  sorted : m.Sorted

/-- The menus after `n` steps of a pass. -/
def menusAfter (bar : MenuBar K W) (n : Nat) (m : Menus K W) : Menus K W :=
  (menusStep bar)^[n] m.start

/-- What a call of the pass begins with. -/
theorem base_of_ready (h : m.Ready) : Base m where
  nodup := h.nodup
  lt := h.lt
  called_nodup := by rw [h.invoked]; exact List.nodup_nil
  called_lt := by simp [h.invoked]
  called_late := by simp [h.invoked]
  fresh := by simp [h.invoked]

/-- **The hooks stay apart** through a pass. -/
theorem base_after (bar : MenuBar K W) (h : m.Ready) (n : Nat) : Base (menusAfter bar n m) := by
  induction n with
  | zero => exact (base_of_ready h).merge
  | succ n ih =>
      rw [menusAfter, Function.iterate_succ_apply']
      exact ih.step bar

end CubeChip.UserInterface
