import CubeChip.Frontend.UserInterface.Registered
import CubeChip.Frontend.UserInterface.Windows

/-!
# Every hook has one turn

What a pass is for: a hook that is alive when its turn comes is called, once, in the order of
registration. Windows always do it (`windowsOnce`). A menu that stays open does it as long as none
of its hooks that were called has expired while another waits: the clean-up before each visit
erases in front of the index without moving it, and the index then stands behind hooks that never
had their turn (`noneSkipped_of_visit`). What was registered is not lost, whether menus open or not
(`kept_after`). `hooks_once_iff` is the whole.
-/

namespace CubeChip.UserInterface

variable {K W : Type*} [LinearOrder K] {bar : MenuBar K W} {m : Menus K W} {key : K}
  {r : HookRegistry} {e : Env W (LateMenus K)}

/-! ## What is asked for -/

/-- The menu with this key is the next one visited, and has hooks. -/
def Visits (m : Menus K W) (key : K) (r : HookRegistry) : Prop :=
  m.registry[m.cursor]? = some (key, r) ∧ r.buffer ≠ []

/-- A menu is opened whenever it is visited in a pass. -/
def StaysOpen (bar : MenuBar K W) (m : Menus K W) (key : K) : Prop :=
  ∀ n r, Visits (menusAfter bar n m) key r → bar.opens key (menusAfter bar n m).env = true

/-- A visit of a menu is a turn for each of its hooks that had none in this pass, in order. -/
def InTurn (bar : MenuBar K W) (m : Menus K W) (key : K) : Prop :=
  ∀ r, Visits m key r → (menusStep bar m).env =
    bar.leave (bar.walkIn registerMenu (r.buffer.filter fun hook => hook ∉ m.env.invoked)
      (bar.enter key r m.env))

/-- The hooks of a menu have their turn in a pass: at every visit, and those it has in the end. -/
structure MenuOnce (bar : MenuBar K W) (m : Menus K W) (key : K) : Prop where
  inTurn : ∀ n, InTurn bar (menusAfter bar n m) key
  all : ∀ n, (menusAfter bar n m).Finished → ∀ r, (key, r) ∈ (menusAfter bar n m).registry →
    ∀ hook ∈ r.buffer, hook ∈ (menusAfter bar n m).env.invoked

/-- What a pass over the menus is for: no hook is called twice, none that was registered is lost,
each menu that stays open gives its hooks their turn, and when it returns the loops stand at the
first hooks and no hook waits in the overflow. -/
structure MenusOnce (bar : MenuBar K W) (m : Menus K W) : Prop where
  distinct : ∀ n, (menusAfter bar n m).env.invoked.Nodup
  registered : ∀ n key, Kept bar (registeredAt bar m n key) (menusAfter bar n m) key
  menus : ∀ key, StaysOpen bar m key → MenuOnce bar m key
  returned : ∀ n invoked m', invokeRegisteredMenus bar n m = some (invoked, m') →
    (∀ menu ∈ m'.registry, menu.2.offset = 0) ∧
    ∀ key, (OrderedMap.lookup HookRegistry.empty key m'.registry).buffer =
      hooksAt (menusAfter bar n m) key

/-- At a visit of a menu, all its hooks that were called in this pass are alive, or none that is
alive waits. -/
def NoneSkipped (bar : MenuBar K W) (m : Menus K W) (key : K) : Prop :=
  ∀ r, Visits m key r →
    ((bar.live r m.env).filter fun hook => hook ∈ m.env.invoked).length = r.offset ∨
    ((bar.live r m.env).filter fun hook => hook ∉ m.env.invoked) = []

/-! ## One visit -/

/-- The hooks a menu called in this pass come before those that wait, and are no more than its
index. -/
def Split (r : HookRegistry) (e : Env W (LateMenus K)) : Prop :=
  ∃ called waiting, r.buffer = called ++ waiting ∧ (∀ hook ∈ called, hook ∈ e.invoked) ∧
    (∀ hook ∈ waiting, hook ∉ e.invoked) ∧ called.length ≤ r.offset

theorem filter_split {called waiting invoked : List Nat}
    (hcalled : ∀ hook ∈ called, hook ∈ invoked) (hwaiting : ∀ hook ∈ waiting, hook ∉ invoked) :
    ((called ++ waiting).filter fun hook => hook ∈ invoked) = called ∧
    ((called ++ waiting).filter fun hook => hook ∉ invoked) = waiting := by
  have hkept : ∀ {l : List Nat} {p : Nat → Bool}, (∀ hook ∈ l, p hook = true) → l.filter p = l :=
    fun h => List.filter_eq_self.2 h
  have hleft : ∀ {l : List Nat} {p : Nat → Bool}, (∀ hook ∈ l, ¬ p hook = true) →
      l.filter p = [] := fun h => List.filter_eq_nil_iff.2 h
  rw [List.filter_append, List.filter_append]
  constructor
  · rw [hkept fun hook h => decide_eq_true (hcalled hook h),
      hleft fun hook h => mt of_decide_eq_true (hwaiting hook h), List.append_nil]
  · rw [hleft fun hook h => by simpa using hcalled hook h,
      hkept fun hook h => decide_eq_true (hwaiting hook h), List.nil_append]

omit [LinearOrder K] in
/-- The clean-up leaves a menu split. -/
theorem live_split (bar : MenuBar K W) (h : Split r e) : ∃ called waiting,
    bar.live r e = called ++ waiting ∧
    ((bar.live r e).filter fun hook => hook ∈ e.invoked) = called ∧
    ((bar.live r e).filter fun hook => hook ∉ e.invoked) = waiting ∧
    waiting = (r.buffer.filter fun hook => hook ∉ e.invoked).filter
      (fun hook => !bar.expired e.world hook) ∧
    (∀ hook ∈ called, hook ∈ e.invoked) ∧ (∀ hook ∈ waiting, hook ∉ e.invoked) ∧
    called.length ≤ r.offset := by
  obtain ⟨called, waiting, hbuffer, hcalled, hwaiting, hle⟩ := h
  have hcalled' : ∀ hook ∈ called.filter fun hook => !bar.expired e.world hook,
      hook ∈ e.invoked := fun hook hhook => hcalled hook (List.mem_of_mem_filter hhook)
  have hwaiting' : ∀ hook ∈ waiting.filter fun hook => !bar.expired e.world hook,
      hook ∉ e.invoked := fun hook hhook => hwaiting hook (List.mem_of_mem_filter hhook)
  have hlive : bar.live r e = (called.filter fun hook => !bar.expired e.world hook) ++
      waiting.filter fun hook => !bar.expired e.world hook := by
    rw [MenuBar.live, hbuffer, List.filter_append]
  refine ⟨_, _, hlive, ?_, ?_, ?_, hcalled', hwaiting',
    Nat.le_trans (List.length_filter_le ..) hle⟩
  · rw [hlive, (filter_split hcalled' hwaiting').1]
  · rw [hlive, (filter_split hcalled' hwaiting').2]
  · rw [hbuffer, (filter_split hcalled hwaiting).2]

/-- A hook that has expired before the menu is opened may as well have no turn. -/
theorem walkIn_live (turns : List Nat) :
    bar.walkIn registerMenu (turns.filter fun hook => !bar.expired e.world hook)
        (bar.enter key r e) =
      bar.walkIn registerMenu turns (bar.enter key r e) := by
  have hentered : ∀ hook, bar.expired (bar.enter key r e).world hook = bar.expired e.world hook :=
    fun hook => bar.expired_beginMenu hook key e.world
  have hfilter := walkIn_filter bar.toHooks registerMenu turns (bar.enter key r e)
  simpa only [hentered] using hfilter

/-- A visit is a turn for each that waits, if what stands at the index is the first of them. -/
theorem visit_eq (hne : r.buffer ≠ []) (hopens : bar.opens key e = true)
    (hturns : (bar.live r e).drop r.offset = (r.buffer.filter fun hook => hook ∉ e.invoked).filter
      (fun hook => !bar.expired e.world hook)) :
    (visitMenu bar key r e).2 = bar.leave (bar.walkIn registerMenu
      (r.buffer.filter fun hook => hook ∉ e.invoked) (bar.enter key r e)) := by
  obtain ⟨_, _, henv⟩ := visitMenu_of_opens hne hopens
  rw [henv, hturns, walkIn_live]

/-- While none is skipped, a visit is a turn for each that waits, after which all that are left were
called, and the index is behind them. -/
theorem visit_of_noneSkipped (hne : r.buffer ≠ []) (hopens : bar.opens key e = true)
    (hsplit : Split r e)
    (hnone : ((bar.live r e).filter fun hook => hook ∈ e.invoked).length = r.offset ∨
      ((bar.live r e).filter fun hook => hook ∉ e.invoked) = []) :
    (visitMenu bar key r e).2 = bar.leave (bar.walkIn registerMenu
        (r.buffer.filter fun hook => hook ∉ e.invoked) (bar.enter key r e)) ∧
    (∀ hook ∈ (visitMenu bar key r e).1.buffer, hook ∈ (visitMenu bar key r e).2.invoked) ∧
    (visitMenu bar key r e).1.buffer.length ≤ (visitMenu bar key r e).1.offset := by
  obtain ⟨called, waiting, hlive, hisCalled, hisWaiting, hfilter, hcalled, _, hle⟩ :=
    live_split bar hsplit
  rw [hisCalled, hisWaiting] at hnone
  have hcut : (bar.live r e).take r.offset = called ∧ (bar.live r e).drop r.offset = waiting := by
    rw [hlive]
    rcases hnone with hlen | rfl
    · rw [← hlen]
      exact ⟨List.take_left .., List.drop_left ..⟩
    · rw [List.append_nil]
      exact ⟨List.take_of_length_le hle, List.drop_of_length_le hle⟩
  obtain ⟨htake, hdrop⟩ := hcut
  obtain ⟨hbuffer, hoffset, henv⟩ := visitMenu_of_opens hne hopens
  refine ⟨visit_eq hne hopens (hdrop.trans hfilter), ?_, ?_⟩
  · rw [hbuffer, henv, invoked_leave, htake]
    intro hook hhook
    rw [List.mem_append] at hhook ⊢
    exact hhook.imp_left (hcalled hook)
  · rw [hbuffer, hoffset, htake, List.length_append]
    exact Nat.add_le_add_right hle _

/-- What stands behind an index that is past the front does not have the first of the rest. -/
theorem not_mem_drop_of_lt {front rest : List Nat} {first n : Nat}
    (hnodup : (front ++ first :: rest).Nodup) (hlt : front.length < n) :
    first ∉ (front ++ first :: rest).drop n := by
  obtain ⟨k, rfl⟩ := Nat.exists_eq_add_of_lt hlt
  rw [List.drop_append, List.drop_of_length_le (by omega), List.nil_append,
    show front.length + k + 1 - front.length = k + 1 by omega, List.drop_succ_cons]
  intro hmem
  exact (List.nodup_cons.1 (List.nodup_append.1 hnodup).2.1).1 (List.mem_of_mem_drop hmem)

/-- A menu whose visit is a turn for each that waits skips none: the first that is alive would be
called, and it stands in front of the index. -/
theorem noneSkipped_of_visit (hne : r.buffer ≠ []) (hopens : bar.opens key e = true)
    (hsplit : Split r e) (hnodup : r.buffer.Nodup)
    (hturn : (visitMenu bar key r e).2 = bar.leave (bar.walkIn registerMenu
      (r.buffer.filter fun hook => hook ∉ e.invoked) (bar.enter key r e))) :
    ((bar.live r e).filter fun hook => hook ∈ e.invoked).length = r.offset ∨
      ((bar.live r e).filter fun hook => hook ∉ e.invoked) = [] := by
  obtain ⟨called, waiting, hlive, hisCalled, hisWaiting, hfilter, _, hwaiting, hle⟩ :=
    live_split bar hsplit
  rw [hisCalled, hisWaiting]
  cases waiting with
  | nil => exact .inr rfl
  | cons first rest =>
      refine .inl (Nat.le_antisymm hle (Nat.le_of_not_lt fun hlt => ?_))
      obtain ⟨_, _, henv⟩ := visitMenu_of_opens hne hopens
      rw [hturn, ← walkIn_live, ← hfilter] at henv
      have hsame := congrArg (fun e : Env W (LateMenus K) => e.invoked) henv
      simp only [invoked_leave] at hsame
      have hkept := List.append_cancel_left hsame
      have halive : bar.expired e.world first = false := by
        have hmem : first ∈ bar.live r e := by simp [hlive]
        simpa using (List.mem_filter.1 hmem).2
      have hentered : bar.expired (bar.enter key r e).world first = false :=
        (bar.expired_beginMenu first key e.world).trans halive
      have hfirst : first ∈ bar.kept (first :: rest) (bar.enter key r e).toScene := by
        rw [Hooks.kept, Turns.kept, hentered, if_neg Bool.false_ne_true]
        exact List.mem_cons_self
      rw [hkept] at hfirst
      have hlive_nodup : (bar.live r e).Nodup := hnodup.sublist List.filter_sublist
      rw [hlive] at hfirst hlive_nodup
      exact not_mem_drop_of_lt hlive_nodup hlt ((kept_sublist bar.toHooks _ _).subset hfirst)

/-! ## A pass -/

/-- The menus with this key are split, and those in front of the cursor have no hook that waits. -/
structure Tidy (m : Menus K W) (key : K) : Prop where
  split : ∀ r, (key, r) ∈ m.registry → Split r m.env
  done : ∀ r, (key, r) ∈ m.registry.take m.cursor → ∀ hook ∈ r.buffer, hook ∈ m.env.invoked

omit [LinearOrder K] in
/-- A menu stays split while hooks are called that are not among those of it. -/
theorem Split.mono {e' : Env W (LateMenus K)} {called : List Nat} (h : Split r e)
    (hinvoked : e'.invoked = e.invoked ++ called) (hother : ∀ hook ∈ r.buffer, hook ∉ called) :
    Split r e' := by
  obtain ⟨front, waiting, hbuffer, hfront, hwaiting, hle⟩ := h
  refine ⟨front, waiting, hbuffer, ?_, ?_, hle⟩
  · intro hook hhook
    rw [hinvoked]
    exact List.mem_append_left _ (hfront hook hhook)
  · intro hook hhook
    rw [hinvoked, List.mem_append]
    rintro (hin | hin)
    · exact hwaiting hook hhook hin
    · exact hother hook (by simp [hbuffer, hhook]) hin

omit [LinearOrder K] in
/-- A merge keeps a menu split. -/
theorem Split.append {late : List Nat} {o : LateMenus K} (h : Split r e)
    (hlate : ∀ hook ∈ late, hook ∉ e.invoked) :
    Split { r with buffer := r.buffer ++ late } { e with overflow := o } := by
  obtain ⟨front, waiting, hbuffer, hfront, hwaiting, hle⟩ := h
  refine ⟨front, waiting ++ late, ?_, hfront, ?_, hle⟩
  · rw [hbuffer, List.append_assoc]
  · intro hook hhook
    rcases List.mem_append.1 hhook with hhook | hhook
    · exact hwaiting hook hhook
    · exact hlate hook hhook

/-- After its visit a menu is split and has no hook that waits. -/
theorem Tidy.visited (h : Tidy m key) (hat : m.registry[m.cursor]? = some (key, r))
    (hopen : ∀ r, Visits m key r → bar.opens key m.env = true) (hnone : NoneSkipped bar m key) :
    Split (visitMenu bar key r m.env).1 (visitMenu bar key r m.env).2 ∧
    ∀ hook ∈ (visitMenu bar key r m.env).1.buffer,
      hook ∈ (visitMenu bar key r m.env).2.invoked := by
  have hsplit := h.split r (List.mem_of_getElem? hat)
  by_cases hnil : r.buffer = []
  · rw [visitMenu_of_nil hnil, hnil]
    exact ⟨hsplit, fun hook hhook => absurd hhook List.not_mem_nil⟩
  · obtain ⟨_, hall, hlen⟩ :=
      visit_of_noneSkipped hnil (hopen r ⟨hat, hnil⟩) hsplit (hnone r ⟨hat, hnil⟩)
    refine ⟨⟨_, [], (List.append_nil _).symm, hall, ?_, hlen⟩, hall⟩
    exact fun hook hhook => absurd hhook List.not_mem_nil

/-- A visit, of this menu or of another: the hooks that are called are of the menu visited. -/
theorem Tidy.visit {visited : K} {r₀ : HookRegistry} (h : Tidy m key) (hbase : Base m)
    (hat : m.registry[m.cursor]? = some (visited, r₀))
    (hopen : ∀ r, Visits m key r → bar.opens key m.env = true) (hnone : NoneSkipped bar m key) :
    Tidy (menusStep bar m) key := by
  obtain ⟨hsplit, hstep⟩ := menusStep_visit bar hat
  obtain ⟨called, hframe⟩ := visitMenu_frame bar visited r₀ m.env
  have hlen : (m.registry.take m.cursor).length = m.cursor :=
    List.length_take_of_le (Nat.le_of_lt (List.getElem?_eq_some_iff.1 hat).1)
  have hself : ∀ {r}, (key, r) = (visited, (visitMenu bar visited r₀ m.env).1) →
      Split r (visitMenu bar visited r₀ m.env).2 ∧
      ∀ hook ∈ r.buffer, hook ∈ (visitMenu bar visited r₀ m.env).2.invoked := by
    intro r heq
    cases heq
    exact h.visited hat hopen hnone
  rw [hstep]
  constructor
  · intro r hr
    have hcases : (key, r) = (visited, (visitMenu bar visited r₀ m.env).1) ∨
        (key, r) ∈ m.registry.take m.cursor ++ m.registry.drop (m.cursor + 1) := by
      simp only [List.mem_append, List.mem_cons] at hr ⊢
      tauto
    rcases hcases with heq | hother
    · exact (hself heq).1
    · have hmem : (key, r) ∈ m.registry := by
        rw [hsplit]
        simp only [List.mem_append, List.mem_cons] at hother ⊢
        tauto
      refine (h.split r hmem).mono hframe.invoked fun hook hhook hcalled => ?_
      exact hbase.not_mem_other hsplit hother hhook
        (List.mem_of_mem_drop (hframe.stood.subset hcalled))
  · intro r hr hook hhook
    have hfront : (m.registry.take m.cursor ++ (visited, (visitMenu bar visited r₀ m.env).1) ::
          m.registry.drop (m.cursor + 1)).take (m.cursor + 1) =
        m.registry.take m.cursor ++ [(visited, (visitMenu bar visited r₀ m.env).1)] := by
      rw [List.take_append, hlen, Nat.add_sub_cancel_left, List.take_take,
        Nat.min_eq_right (Nat.le_succ _)]
      rfl
    have htake : (key, r) ∈ m.registry.take m.cursor ++
        [(visited, (visitMenu bar visited r₀ m.env).1)] := hfront ▸ hr
    rcases List.mem_append.1 htake with hr | hr
    · show hook ∈ (visitMenu bar visited r₀ m.env).2.invoked
      rw [hframe.invoked]
      exact List.mem_append_left _ (h.done r hr hook hhook)
    · exact (hself (List.mem_singleton.1 hr)).2 hook hhook

/-- A merge: what is appended waits, and the cursor is in front of all menus. -/
theorem Tidy.merge (h : Tidy m key) (hbase : Base m) :
    Tidy { (mergeOverflowingMenus m).2 with cursor := 0 } key := by
  constructor
  · intro r' hr'
    obtain ⟨r, late, hr, rfl, hsub⟩ := mem_foldl_mergeMenu hr'
    have hlate : ∀ hook ∈ late, hook ∉ m.env.invoked :=
      fun hook hhook hin => hbase.called_late hook hin (hsub hhook)
    rcases hr with hr | rfl
    · exact (h.split r hr).append hlate
    · have hempty : Split HookRegistry.empty m.env :=
        ⟨[], [], rfl, by simp, by simp, Nat.zero_le _⟩
      exact hempty.append hlate
  · intro r hr
    cases hr

/-- One step, while the menu stays open and none of its hooks is skipped. -/
theorem Tidy.step (h : Tidy m key) (hbase : Base m)
    (hopen : ∀ r, Visits m key r → bar.opens key m.env = true) (hnone : NoneSkipped bar m key) :
    Tidy (menusStep bar m) key := by
  cases hat : m.registry[m.cursor]? with
  | some menu => exact h.visit hbase hat hopen hnone
  | none =>
      rcases menusStep_merge bar hat with hstep | hstep
      · rwa [hstep]
      · rw [hstep]
        exact h.merge hbase

theorem tidy_start (h : m.Ready) : Tidy m.start key where
  split := by
    intro r' hr'
    obtain ⟨r, late, hr, rfl, hsub⟩ := mem_foldl_mergeMenu hr'
    refine ⟨[], r.buffer ++ late, rfl, ?_, ?_, Nat.zero_le _⟩
    · exact fun hook hhook => absurd hhook List.not_mem_nil
    · intro hook _ hin
      have hcalled : hook ∈ m.env.invoked := hin
      rw [h.invoked] at hcalled
      cases hcalled
  done := by
    intro r hr
    cases hr

theorem tidy_after (h : m.Ready) (hopen : StaysOpen bar m key) (n : Nat)
    (hnone : ∀ i < n, NoneSkipped bar (menusAfter bar i m) key) :
    Tidy (menusAfter bar n m) key := by
  induction n with
  | zero => exact tidy_start h
  | succ n ih =>
      have htidy := ih fun i hi => hnone i (Nat.lt_succ_of_lt hi)
      rw [menusAfter, Function.iterate_succ_apply']
      exact htidy.step (base_after bar h n) (hopen n) (hnone n (Nat.lt_succ_self n))

/-- At a visit of a split menu, every hook that waits has its turn precisely when none is
skipped. -/
theorem inTurn_iff (htidy : Tidy m key) (hbase : Base m)
    (hopen : ∀ r, Visits m key r → bar.opens key m.env = true) :
    InTurn bar m key ↔ NoneSkipped bar m key := by
  have hvisit : ∀ {r}, Visits m key r → (menusStep bar m).env = (visitMenu bar key r m.env).2 := by
    intro r hr
    rw [(menusStep_visit bar hr.1).2]
  constructor
  · intro hturn r hr
    have hsplit := htidy.split r (List.mem_of_getElem? hr.1)
    have hnodup := hbase.buffer_nodup (menusStep_visit bar hr.1).1
    exact noneSkipped_of_visit hr.2 (hopen r hr) hsplit hnodup ((hvisit hr).symm.trans (hturn r hr))
  · intro hnone r hr
    have hsplit := htidy.split r (List.mem_of_getElem? hr.1)
    exact (hvisit hr).trans (visit_of_noneSkipped hr.2 (hopen r hr) hsplit (hnone r hr)).1

/-- A menu that stays open gives every hook its turn precisely when it never skips one. -/
theorem menuOnce_iff (h : m.Ready) (hopen : StaysOpen bar m key) :
    MenuOnce bar m key ↔ ∀ n, NoneSkipped bar (menusAfter bar n m) key := by
  constructor
  · intro honce n
    induction n using Nat.strong_induction_on with
    | _ n ih =>
        exact (inTurn_iff (tidy_after h hopen n ih) (base_after bar h n) (hopen n)).1
          (honce.inTurn n)
  · intro hnone
    have htidy : ∀ n, Tidy (menusAfter bar n m) key :=
      fun n => tidy_after h hopen n fun i _ => hnone i
    refine ⟨fun n => ?_, fun n hfinished r hr => ?_⟩
    · exact (inTurn_iff (htidy n) (base_after bar h n) (hopen n)).2 (hnone n)
    · refine (htidy n).done r ?_
      rwa [List.take_of_length_le hfinished.1]

/-- **Every hook has one turn**, in the order of registration, those registered on the way included:
in every pass over the windows, and at every menu that stays open in a pass over the menus precisely
when at no visit of it a hook that is alive waits while one that was called has expired. -/
theorem hooks_once_iff {W' : Type*} (hooks : Hooks Unit W') {w : Windows W'} (hw : w.Ready)
    (bar : MenuBar K W) {m : Menus K W} (hm : m.Ready) :
    WindowsOnce hooks w ∧ MenusOnce bar m ↔
      ∀ key, StaysOpen bar m key → ∀ n, NoneSkipped bar (menusAfter bar n m) key := by
  constructor
  · rintro ⟨_, hmenus⟩ key hopen
    exact (menuOnce_iff hm hopen).1 (hmenus.menus key hopen)
  · intro hnone
    refine ⟨windowsOnce hooks hw, ?_, ?_, ?_, ?_⟩
    · exact fun n => (base_after bar hm n).called_nodup
    · exact fun n key => kept_after hm n key
    · exact fun key hopen => (menuOnce_iff hm hopen).2 (hnone key hopen)
    · exact fun n invoked m' hret => ⟨(ready_of_returned hm hret).offset, buffer_of_returned hret⟩

/-! ## A hook for one time -/

/-- The first hook registers another at the same menu and is done: its owner lets go of it. Menus
are open. -/
def oneShot : MenuBar Nat Bool where
  expired := fun done hook => done && hook == 0
  invoke := fun called _ _ done => if called = 0 then (true, [0]) else (done, [])
  expired_invoke := by
    intro hook called next clicked done h
    split
    · simpa using (Bool.and_eq_true_iff.1 h).2
    · exact h
  beginMenu := fun _ done => (true, done)
  endMenu := fun done => done
  expired_beginMenu := fun _ _ _ => rfl
  expired_endMenu := fun _ _ => rfl

/-- It is registered. -/
def oneShotMenus : Menus Nat Bool where
  registry := [(0, { buffer := [0], offset := 0, hasFocus := false, firstHit := false })]
  env := { world := false, next := 1, clicked := false, invoked := [], overflow := [] }
  cursor := 0

/-- The same hooks in windows. -/
def oneShotHooks : Hooks Unit Bool where
  expired := fun done hook => done && hook == 0
  invoke := fun called _ _ done => if called = 0 then (true, [()]) else (done, [])
  expired_invoke := by
    intro hook called next clicked done h
    split
    · simpa using (Bool.and_eq_true_iff.1 h).2
    · exact h

def oneShotWindows : Windows Bool where
  registry := { buffer := [0], offset := 0, hasFocus := false, firstHit := false }
  env := { world := false, next := 1, clicked := false, invoked := [], overflow := [] }

theorem hooks_once_iff_oneShot :
    WindowsOnce oneShotHooks oneShotWindows ∧ MenusOnce oneShot oneShotMenus ↔
      ∀ key, StaysOpen oneShot oneShotMenus key →
        ∀ n, NoneSkipped oneShot (menusAfter oneShot n oneShotMenus) key :=
  hooks_once_iff oneShotHooks ⟨rfl, rfl, by simp [oneShotWindows], by simp [oneShotWindows]⟩ oneShot
    ⟨by simp [oneShotMenus], rfl, by simp [oneShotMenus, menuHooks, lateHooks],
      by simp [oneShotMenus, menuHooks, lateHooks],
      ⟨by simp [oneShotMenus, OrderedMap.Sorted], by simp [oneShotMenus, OrderedMap.Sorted]⟩⟩

/-- The second hook is alive and has no turn: the index stands behind it once the first is
erased. -/
theorem not_menusOnce_oneShot : ¬ MenusOnce oneShot oneShotMenus := by
  intro h
  have hopen : StaysOpen oneShot oneShotMenus 0 := fun _ _ _ => rfl
  have hturn := (h.menus 0 hopen).inTurn 2
    { buffer := [0, 1], offset := 1, hasFocus := true, firstHit := true } ⟨rfl, by decide⟩
  have hcalled := congrArg (fun e => e.invoked) hturn
  revert hcalled
  decide

end CubeChip.UserInterface
