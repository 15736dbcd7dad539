import Mathlib.Data.List.Nodup
import Mathlib.Data.List.Range
import CubeChip.Frontend.UserInterface

/-!
# A turn for each hook

What the loop over a registry comes to (`invokeHooks_eq`): the hooks at its index and after have a
turn each, in order (`Hooks.walk`), and those called stay. What is registered meanwhile are the
hooks made on the way (`overflow_walkIn`).
-/

namespace CubeChip.UserInterface

variable {K W O : Type*} (hooks : Hooks K W) (register : K → Nat → O → O)

/-- A turn for each of some hooks, in order: one that has not expired is called. -/
def Hooks.walk (turns : List Nat) (s : Scene W) : Scene W :=
  Turns.walk (fun s hook => hooks.expired s.world hook) (fun hook s => (hooks.call hook s).1)
    turns s

/-- The hooks called on the way. -/
def Hooks.kept (turns : List Nat) (s : Scene W) : List Nat :=
  Turns.kept (fun s hook => hooks.expired s.world hook) (fun hook s => (hooks.call hook s).1)
    turns s

/-- The walk, with what it registers in the overflow. -/
def Hooks.walkIn (turns : List Nat) (e : Env W O) : Env W O :=
  Turns.walk (fun e hook => hooks.expired e.world hook) (hooks.callIn register) turns e

theorem walk_append (turns turns' : List Nat) (s : Scene W) :
    hooks.walk (turns ++ turns') s = hooks.walk turns' (hooks.walk turns s) :=
  Turns.walk_append ..

theorem kept_append (turns turns' : List Nat) (s : Scene W) :
    hooks.kept (turns ++ turns') s =
      hooks.kept turns s ++ hooks.kept turns' (hooks.walk turns s) :=
  Turns.kept_append ..

theorem kept_sublist (turns : List Nat) (s : Scene W) : (hooks.kept turns s).Sublist turns :=
  Turns.kept_sublist ..

/-- The scene of a walk and the hooks it calls do not depend on the overflow. -/
theorem toScene_walkIn (turns : List Nat) (e : Env W O) :
    (hooks.walkIn register turns e).toScene = hooks.walk turns e.toScene ∧
      Turns.kept (fun e hook => hooks.expired e.world hook) (hooks.callIn register) turns e =
        hooks.kept turns e.toScene := by
  unfold Hooks.walkIn Hooks.walk Hooks.kept
  refine Turns.walk_map (π := fun e : Env W O => e.toScene) ?_ ?_ turns e
  · exact fun _ _ => rfl
  · exact fun _ _ => rfl

/-- The loop walks over the hooks at the index and after, and keeps the ones it calls. -/
theorem invokeHooks_eq (r : HookRegistry) (e : Env W O) :
    invokeHooks hooks register r e =
      ({ r with
          buffer := r.buffer.take r.offset ++ hooks.kept (r.buffer.drop r.offset) e.toScene
          offset := r.offset + (hooks.kept (r.buffer.drop r.offset) e.toScene).length },
        hooks.walkIn register (r.buffer.drop r.offset) e) := by
  have hkept := (toScene_walkIn hooks register (r.buffer.drop r.offset) e).2
  rw [invokeHooks, Turns.serve_eq (by omega), hkept]
  rfl

/-- A hook that has expired before a walk may as well have no turn. -/
theorem walkIn_filter (turns : List Nat) (e : Env W O) :
    hooks.walkIn register (turns.filter fun hook => !hooks.expired e.world hook) e =
      hooks.walkIn register turns e := by
  unfold Hooks.walkIn
  refine Turns.walk_filter ?_ turns e
  exact fun hook called e h => hooks.expired_invoke hook called e.next e.clicked e.world h

/-- Numbers are given out in order. -/
theorem next_walkIn_le (turns : List Nat) (e : Env W O) :
    e.next ≤ (hooks.walkIn register turns e).next := by
  unfold Hooks.walkIn
  refine Turns.walk_invariant (I := fun e' : Env W O => e.next ≤ e'.next) ?_ (Nat.le_refl _)
  intro hook _ e' h _
  exact Nat.le_trans h (Nat.le_add_right ..)

/-- The hooks made on the way, in order, each with where it is registered. -/
def Hooks.made : List Nat → Scene W → List (K × Nat)
  | [], _ => []
  | hook :: turns, s =>
      if hooks.expired s.world hook then Hooks.made turns s
      else (hooks.call hook s).2.zipIdx s.next ++ Hooks.made turns (hooks.call hook s).1

/-- What a walk adds to the overflow are the hooks made on the way. -/
theorem overflow_walkIn (turns : List Nat) (e : Env W O) :
    (hooks.walkIn register turns e).overflow =
      (hooks.made turns e.toScene).foldl (fun o hook => register hook.1 hook.2 o) e.overflow := by
  induction turns generalizing e with
  | nil => rfl
  | cons hook turns ih =>
      unfold Hooks.walkIn at ih ⊢
      rw [Turns.walk_cons, ih, Hooks.made, Turns.turn]
      split
      · rfl
      · rw [List.foldl_append]
        rfl

/-- They have the numbers given out. -/
theorem map_snd_made (turns : List Nat) (e : Env W O) :
    (hooks.made turns e.toScene).map Prod.snd =
      List.range' e.next ((hooks.walkIn register turns e).next - e.next) := by
  induction turns generalizing e with
  | nil =>
      have hnone : (hooks.walkIn register [] e).next - e.next = 0 := Nat.sub_self e.next
      rw [hnone]
      rfl
  | cons hook turns ih =>
      have hstep : hooks.walkIn register (hook :: turns) e = hooks.walkIn register turns
          (if hooks.expired e.world hook then e else hooks.callIn register hook e) := rfl
      rw [hstep, Hooks.made]
      split
      · exact ih e
      · have hcall := ih (hooks.callIn register hook e)
        have hle := next_walkIn_le hooks register turns (hooks.callIn register hook e)
        have hnext : (hooks.callIn register hook e).next =
            e.next + (hooks.call hook e.toScene).2.length := rfl
        have hscene : (hooks.callIn register hook e).toScene = (hooks.call hook e.toScene).1 := rfl
        generalize (hooks.walkIn register turns (hooks.callIn register hook e)).next = last at *
        have hlen : last - e.next = (hooks.call hook e.toScene).2.length +
            (last - (e.next + (hooks.call hook e.toScene).2.length)) := by omega
        rw [List.map_append, List.zipIdx_map_snd, ← hscene, hcall, hlen, ← List.range'_append_1,
          hnext]

/-- The hooks called are those of the scene before, and those kept. -/
theorem invoked_walk (turns : List Nat) (s : Scene W) :
    (hooks.walk turns s).invoked = s.invoked ++ hooks.kept turns s := by
  induction turns generalizing s with
  | nil => exact (List.append_nil _).symm
  | cons hook turns ih =>
      unfold Hooks.walk Hooks.kept at ih ⊢
      rw [Turns.walk_cons, ih, Turns.kept, Turns.turn]
      split
      · rfl
      · exact List.append_assoc ..

/-- Those called in a walk over the overflow as well. -/
theorem invoked_walkIn (turns : List Nat) (e : Env W O) :
    (hooks.walkIn register turns e).invoked = e.invoked ++ hooks.kept turns e.toScene := by
  rw [(toScene_walkIn hooks register turns e).1]
  exact invoked_walk hooks turns e.toScene

end CubeChip.UserInterface
