import CubeChip.Frontend.UserInterface.Walk

/-!
# Windows: every hook has one turn

What a pass over the windows comes to: the hooks that were registered, those in the overflow and
those made on the way have a turn each, in this order. `windowsRound_spec` is one round,
`walked_after` any number of them and `windowsOnce` the whole pass.
-/

namespace CubeChip.UserInterface

variable {W : Type*} (hooks : Hooks Unit W) {w₀ w : Windows W}

/-! ## One round -/

/-- Windows registered late wait in order. -/
theorem foldl_registerWindow (made : List (Unit × Nat)) (overflow : List Nat) :
    made.foldl (fun o hook => registerWindow hook.1 hook.2 o) overflow =
      overflow ++ made.map Prod.snd := by
  induction made generalizing overflow with
  | nil => exact (List.append_nil _).symm
  | cons hook made ih =>
      rw [List.foldl_cons, ih, List.map_cons, registerWindow, List.append_assoc]
      rfl

/-- The hooks of a pass: those registered before it, those in the overflow, and those made since. -/
def Windows.registered (w₀ w : Windows W) : List Nat :=
  w₀.registry.buffer ++ w₀.env.overflow ++ List.range' w₀.env.next (w.env.next - w₀.env.next)

/-- The hooks made in a step come behind those registered before. -/
theorem registered_append {n : Nat} {e : Env W (List Nat)} (hle : w₀.env.next ≤ w.env.next)
    (hle' : w.env.next ≤ n) {registry : HookRegistry} (hn : e.next = n) :
    w₀.registered w ++ List.range' w.env.next (n - w.env.next) =
      w₀.registered { registry, env := e } := by
  have hlen : n - w₀.env.next = (w.env.next - w₀.env.next) + (n - w.env.next) := by omega
  have hat : w₀.env.next + (w.env.next - w₀.env.next) = w.env.next := by omega
  show w₀.registered w ++ List.range' w.env.next (n - w.env.next) =
    w₀.registry.buffer ++ w₀.env.overflow ++ List.range' w₀.env.next (e.next - w₀.env.next)
  rw [hn, hlen, ← List.range'_append_1, hat, Windows.registered, List.append_assoc]

/-- In a pass from `w₀`, some hooks had their turn, which the loop is past, and the others wait in
the registry and then in the overflow. -/
structure Walked (hooks : Hooks Unit W) (w₀ : Windows W) (turns : List Nat) (w : Windows W) :
    Prop where
  scene : w.env.toScene = hooks.walk turns w₀.env.toScene
  kept : w.registry.buffer.take w.registry.offset = hooks.kept turns w₀.env.toScene
  offset : w.registry.offset = (hooks.kept turns w₀.env.toScene).length
  next : w₀.env.next ≤ w.env.next
  all : turns ++ w.registry.buffer.drop w.registry.offset ++ w.env.overflow = w₀.registered w

/-- Whether or not there is something to merge, the overflow goes to the end of the registry. -/
theorem merge_eq (w : Windows W) :
    mergeOverflowingWindows w =
      (!w.env.overflow.isEmpty,
        { registry := { w.registry with buffer := w.registry.buffer ++ w.env.overflow }
          env := { w.env with overflow := [] } }) := by
  obtain ⟨registry, env⟩ := w
  obtain ⟨scene, overflow⟩ := env
  unfold mergeOverflowingWindows
  cases overflow with
  | nil => simp
  | cons hook overflow => simp

/-- **One round**: the hooks that wait in the registry have their turn, and those of the overflow
wait in the registry. It is the last if there are none. -/
theorem windowsRound_spec {turns : List Nat} (h : Walked hooks w₀ turns w) :
    Walked hooks w₀ (turns ++ w.registry.buffer.drop w.registry.offset) (windowsRound hooks w).2 ∧
    (windowsRound hooks w).2.env.overflow = [] ∧
    ((windowsRound hooks w).1 = false → (windowsRound hooks w).2.registry.buffer.drop
      (windowsRound hooks w).2.registry.offset = []) := by
  have hround : windowsRound hooks w = mergeOverflowingWindows
      { registry := (invokeHooks hooks registerWindow w.registry w.env).1
        env := (invokeHooks hooks registerWindow w.registry w.env).2 } := rfl
  rw [invokeHooks_eq, merge_eq] at hround
  generalize hwaiting : w.registry.buffer.drop w.registry.offset = waiting at hround ⊢
  have hscene := (toScene_walkIn hooks registerWindow waiting w.env).1
  have hoverflow := overflow_walkIn hooks registerWindow waiting w.env
  rw [foldl_registerWindow, map_snd_made hooks registerWindow waiting w.env] at hoverflow
  have hle := next_walkIn_le hooks registerWindow waiting w.env
  have hkept := kept_append hooks turns waiting w₀.env.toScene
  rw [← h.scene] at hkept
  have hbuffer : w.registry.buffer.take w.registry.offset ++ hooks.kept waiting w.env.toScene =
      hooks.kept (turns ++ waiting) w₀.env.toScene := by rw [hkept, h.kept]
  have hoffset : w.registry.offset + (hooks.kept waiting w.env.toScene).length =
      (hooks.kept (turns ++ waiting) w₀.env.toScene).length := by
    rw [hkept, h.offset, List.length_append]
  rw [hbuffer, hoffset] at hround
  rw [hround]
  refine ⟨⟨?_, List.take_left .., rfl, Nat.le_trans h.next hle, ?_⟩, rfl, ?_⟩
  · show (hooks.walkIn registerWindow waiting w.env).toScene = _
    rw [hscene, walk_append, h.scene]
  · have hall := h.all
    rw [hwaiting] at hall
    show turns ++ waiting ++ (hooks.kept (turns ++ waiting) w₀.env.toScene ++
      (hooks.walkIn registerWindow waiting w.env).overflow).drop _ ++ [] = _
    rw [List.drop_left, List.append_nil, hoverflow, ← List.append_assoc, hall]
    exact registered_append h.next hle rfl
  · intro hlast
    have hnil : (hooks.walkIn registerWindow waiting w.env).overflow = [] := by
      simpa using hlast
    show (hooks.kept (turns ++ waiting) w₀.env.toScene ++
      (hooks.walkIn registerWindow waiting w.env).overflow).drop _ = []
    rw [List.drop_left, hnil]

/-! ## A pass -/

/-- Between two passes: the loop stands at the first hook, none was called, and the hooks are
distinct and were given numbers. -/
structure Windows.Ready (w : Windows W) : Prop where
  offset : w.registry.offset = 0
  invoked : w.env.invoked = []
  nodup : (w.registry.buffer ++ w.env.overflow).Nodup
  lt : ∀ hook ∈ w.registry.buffer ++ w.env.overflow, hook < w.env.next

/-- The windows after `n` rounds. -/
def windowsAfter (n : Nat) (w : Windows W) : Windows W := (fun w => (windowsRound hooks w).2)^[n] w

/-- What a pass over the windows is for: at any time, some of the hooks of the pass had one turn
each, in order, and the others wait; when it returns, all of them had, and the loop stands at the
first again. -/
structure WindowsOnce (w : Windows W) : Prop where
  distinct : ∀ n, (w.registered (windowsAfter hooks n w)).Nodup
  turns : ∀ n, ∃ turns rest, w.registered (windowsAfter hooks n w) = turns ++ rest ∧
    (windowsAfter hooks n w).env.toScene = hooks.walk turns w.env.toScene
  returned : ∀ n invoked w', invokeRegisteredWindows hooks n w = some (invoked, w') →
    w'.registry.offset = 0 ∧ w'.env.toScene = hooks.walk (w.registered w') w.env.toScene

/-- Before the first step no hook had its turn. -/
theorem walked_start (h : w.Ready) : Walked hooks w [] w where
  scene := rfl
  kept := by rw [h.offset]; rfl
  offset := h.offset
  next := Nat.le_refl _
  all := by rw [h.offset, Windows.registered, Nat.sub_self]; simp

/-- After any number of steps some had it. -/
theorem walked_after (h : w.Ready) (n : Nat) :
    ∃ turns, Walked hooks w turns (windowsAfter hooks n w) := by
  induction n with
  | zero => exact ⟨[], walked_start hooks h⟩
  | succ n ih =>
      obtain ⟨turns, hwalked⟩ := ih
      rw [windowsAfter, Function.iterate_succ_apply']
      exact ⟨_, (windowsRound_spec hooks hwalked).1⟩

/-- When the call returns all had it. -/
theorem invokeRegisteredWindows_walked {turns : List Nat} (h : Walked hooks w₀ turns w) {n : Nat}
    {invoked : Bool} {w' : Windows W}
    (hret : invokeRegisteredWindows hooks n w = some (invoked, w')) :
    w'.registry.offset = 0 ∧ w'.env.toScene = hooks.walk (w₀.registered w') w₀.env.toScene := by
  induction n generalizing w turns with
  | zero => cases hret
  | succ n ih =>
      obtain ⟨hwalked, hoverflow, hlast⟩ := windowsRound_spec hooks h
      have hstep : invokeRegisteredWindows hooks (n + 1) w =
          if (windowsRound hooks w).1 then invokeRegisteredWindows hooks n (windowsRound hooks w).2
          else some ((windowsRound hooks w).2.registry.offset != 0,
            { (windowsRound hooks w).2 with
              registry := { (windowsRound hooks w).2.registry with offset := 0 } }) := rfl
      rw [hstep] at hret
      cases hmerged : (windowsRound hooks w).1 with
      | true =>
          rw [hmerged, if_pos rfl] at hret
          exact ih hwalked hret
      | false =>
          rw [hmerged, if_neg Bool.false_ne_true] at hret
          cases hret
          have hall := hwalked.all
          rw [hlast hmerged, hoverflow, List.append_nil, List.append_nil] at hall
          refine ⟨rfl, hwalked.scene.trans ?_⟩
          rw [hall]
          rfl

/-- No hook is registered twice. -/
theorem nodup_registered (h : w.Ready) (w' : Windows W) : (w.registered w').Nodup := by
  refine h.nodup.append List.nodup_range' ?_
  intro hook hold hnew
  have hlt := h.lt hook hold
  have hge := (List.mem_range'_1.1 hnew).1
  omega

/-- At any time in a pass the windows could be left for another one: the hooks are distinct still,
and were given numbers. -/
theorem ready_of_walked {turns : List Nat} (h : w₀.Ready) (hwalked : Walked hooks w₀ turns w) :
    Windows.Ready
      { registry := { w.registry with offset := 0 }, env := { w.env with invoked := [] } } := by
  have hbuffer : w.registry.buffer.Sublist
      (turns ++ w.registry.buffer.drop w.registry.offset) := by
    have hkept := (kept_sublist hooks turns w₀.env.toScene).append_right
      (w.registry.buffer.drop w.registry.offset)
    rwa [← hwalked.kept, List.take_append_drop] at hkept
  have hall := hbuffer.append_right w.env.overflow
  rw [hwalked.all] at hall
  refine ⟨rfl, rfl, (nodup_registered h w).sublist hall, ?_⟩
  intro hook hhook
  show hook < w.env.next
  have hle := hwalked.next
  rcases List.mem_append.1 (hall.subset hhook) with hold | hmade
  · exact Nat.lt_of_lt_of_le (h.lt hook hold) hle
  · have hlt := (List.mem_range'_1.1 hmade).2
    omega

/-- So the windows need no condition. -/
theorem windowsOnce (h : w.Ready) : WindowsOnce hooks w where
  distinct := fun n => nodup_registered h (windowsAfter hooks n w)
  turns := by
    intro n
    obtain ⟨turns, hwalked⟩ := walked_after hooks h n
    exact ⟨turns, _, by rw [← hwalked.all, List.append_assoc], hwalked.scene⟩
  returned := by
    intro n invoked w' hret
    exact invokeRegisteredWindows_walked hooks (walked_start hooks h) hret

end CubeChip.UserInterface
