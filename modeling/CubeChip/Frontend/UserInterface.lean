import Mathlib.Algebra.GroupWithZero.Nat
import Mathlib.Logic.Function.Iterate
import CubeChip.Lib.OrderedMap
import CubeChip.Lib.Turns

/-!
# `UserInterface`: the hooks

Windows and menus of `frontend/UserInterface.cpp` are drawn by hooks, which anyone may register and
which expire when the owner lets go of them. A pass calls them with the lock of the registry held,
so what a hook registers meanwhile lands in the overflow, and is merged at the end of each round.
What the hooks do is a parameter: any change of the world, any registrations. A hook is known by a
number, given in the order they are made.
-/

namespace CubeChip.UserInterface

/-- What the hooks do on the UI thread: which have expired, and what calling one changes, given the
number of the next hook and `was_menu_clicked`; with where it registers hooks, in order. A weak
pointer that has expired stays so. -/
structure Hooks (K W : Type*) where
  expired : W → Nat → Bool
  invoke : Nat → Nat → Bool → W → W × List K
  expired_invoke : ∀ hook called next clicked w,
    expired w hook = true → expired (invoke called next clicked w).1 hook = true

/-- What the hooks act on, with the hooks called so far in a pass. -/
structure Scene (W : Type*) where
  world : W
  next : Nat
  clicked : Bool
  invoked : List Nat

/-- A scene and an overflow. -/
structure Env (W O : Type*) extends Scene W where
  overflow : O

/-- A `HookRegistry`. -/
structure HookRegistry where
  buffer : List Nat
  offset : Nat
  hasFocus : Bool
  firstHit : Bool
deriving DecidableEq

/-- A registry without hooks. -/
def HookRegistry.empty : HookRegistry where
  buffer := []
  offset := 0
  hasFocus := false
  firstHit := false

section
variable {K W O : Type*} (hooks : Hooks K W) (register : K → Nat → O → O)

/-- A call of a hook, with where it registered hooks. -/
def Hooks.call (hook : Nat) (s : Scene W) : Scene W × List K :=
  let (world, keys) := hooks.invoke hook s.next s.clicked s.world
  ({ s with world, next := s.next + keys.length, invoked := s.invoked ++ [hook] }, keys)

/-- The hooks it registered are in the overflow. -/
def Hooks.callIn (hook : Nat) (e : Env W O) : Env W O :=
  let (scene, keys) := hooks.call hook e.toScene
  { toScene := scene
    overflow := (keys.zipIdx e.next).foldl (fun o key => register key.1 key.2 o) e.overflow }

/-- The loop over a registry that windows and menus have in common. -/
def invokeHooks (r : HookRegistry) (e : Env W O) : HookRegistry × Env W O :=
  let (buffer, offset, e) :=
    Turns.serve (fun e hook => hooks.expired e.world hook) (hooks.callIn register)
      r.buffer.length r.buffer r.offset e
  ({ r with buffer, offset }, e)

end

/-! ## Windows -/

/-- `register_window_impl` while the lock is held. -/
def registerWindow (_ : Unit) (hook : Nat) (overflow : List Nat) : List Nat := overflow ++ [hook]

/-- The windows in a pass. -/
structure Windows (W : Type*) where
  registry : HookRegistry
  env : Env W (List Nat)

section
variable {W : Type*} (hooks : Hooks Unit W)

/-- `merge_overflowing_windows`. -/
def mergeOverflowingWindows (w : Windows W) : Bool × Windows W :=
  if w.env.overflow = [] then (false, w)
  else
    (true,
      { registry := { w.registry with buffer := w.registry.buffer ++ w.env.overflow }
        env := { w.env with overflow := [] } })

/-- One round of the outer loop. -/
def windowsRound (w : Windows W) : Bool × Windows W :=
  let (registry, env) := invokeHooks hooks registerWindow w.registry w.env
  mergeOverflowingWindows { registry, env }

/-- The rounds of `invoke_registered_windows`, and what it returns; `none` where that takes more
than `n` of them. -/
def invokeRegisteredWindows : Nat → Windows W → Option (Bool × Windows W)
  | 0, _ => none
  | n + 1, w =>
      let (merged, w) := windowsRound hooks w
      if merged then invokeRegisteredWindows n w
      else some (w.registry.offset != 0, { w with registry := { w.registry with offset := 0 } })

end

/-! ## Menus -/

/-- The hooks of a menu bar and what ImGui does about its menus, which no hook expires of. A menu is
opened or not by its key. -/
structure MenuBar (K W : Type*) extends Hooks K W where
  beginMenu : K → W → Bool × W
  endMenu : W → W
  expired_beginMenu : ∀ hook key w, expired (beginMenu key w).2 hook = expired w hook
  expired_endMenu : ∀ hook w, expired (endMenu w) hook = expired w hook

/-- The menus of a window in the overflow, each with its hooks. -/
abbrev LateMenus (K : Type*) := List (K × List Nat)

/-- The menus of a window in a pass. A window that has none has an empty list. -/
structure Menus (K W : Type*) where
  registry : List (K × HookRegistry)
  env : Env W (LateMenus K)
  cursor : Nat

section
variable {K W : Type*} [LinearOrder K] (bar : MenuBar K W)

/-- `register_menu_impl` while the lock is held. -/
def registerMenu (key : K) (hook : Nat) (overflow : LateMenus K) : LateMenus K :=
  OrderedMap.access [] key (fun buffer => buffer ++ [hook]) overflow

/-- One turn of the loop of `merge_overflowing_menus`. -/
def mergeMenu (registry : List (K × HookRegistry)) (src : K × List Nat) : List (K × HookRegistry) :=
  if src.2 = [] then registry
  else
    OrderedMap.access HookRegistry.empty src.1
      (fun dst => { dst with buffer := dst.buffer ++ src.2 }) registry

/-- `merge_overflowing_menus`. -/
def mergeOverflowingMenus (m : Menus K W) : Bool × Menus K W :=
  (m.env.overflow.any fun src => !src.2.isEmpty,
    { m with
      registry := m.env.overflow.foldl mergeMenu m.registry
      env := { m.env with overflow := m.env.overflow.map fun src => (src.1, []) } })

/-- What the loop over the menus does with one of them. -/
def visitMenu (key : K) (r : HookRegistry) (e : Env W (LateMenus K)) :
    HookRegistry × Env W (LateMenus K) :=
  if r.buffer = [] then (r, e)
  else
    let buffer := r.buffer.filter fun hook => !bar.expired e.world hook
    let (opened, world) := bar.beginMenu key e.world
    if opened then
      let r := { r with buffer, firstHit := !r.hasFocus, hasFocus := true }
      let (r, e) := invokeHooks bar.toHooks registerMenu r { e with world, clicked := r.firstHit }
      (r, { e with world := bar.endMenu e.world })
    else
      ({ r with buffer, hasFocus := false }, { e with world, clicked := false })

/-- One step of the two loops: the menu at the cursor or, after the last, a merge. Where there is
nothing to merge they are left. -/
def menusStep (m : Menus K W) : Menus K W :=
  match m.registry[m.cursor]? with
  | some (key, r) =>
      let (r, env) := visitMenu bar key r m.env
      { registry := m.registry.set m.cursor (key, r), env, cursor := m.cursor + 1 }
  | none =>
      let (merged, m') := mergeOverflowingMenus m
      if merged then { m' with cursor := 0 } else m

/-- The loops are left. -/
def Menus.Finished (m : Menus K W) : Prop :=
  m.registry.length ≤ m.cursor ∧ (mergeOverflowingMenus m).1 = false

instance (m : Menus K W) : Decidable m.Finished := inferInstanceAs (Decidable (_ ∧ _))

/-- The loops are entered after a merge, at the first menu. -/
def Menus.start (m : Menus K W) : Menus K W := { (mergeOverflowingMenus m).2 with cursor := 0 }

/-- The steps of `invoke_registered_menus`, and what it returns; `none` where that takes more than
`n` of them. -/
def invokeRegisteredMenus (n : Nat) (m : Menus K W) : Option (Bool × Menus K W) :=
  let m := (menusStep bar)^[n] m.start
  if m.Finished then
    let invokeCount := (m.registry.map fun menu => menu.2.offset).sum
    some (invokeCount != 0,
      { m with registry := m.registry.map fun menu => (menu.1, { menu.2 with offset := 0 }) })
  else none

end

end CubeChip.UserInterface
