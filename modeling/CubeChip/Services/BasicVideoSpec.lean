import CubeChip.Lib.FirstBest
import CubeChip.Utilities.EzMaths

/-!
# `BasicVideoSpec`: placing the window

`normalize_rect_to_display` of `services/BasicVideoSpec.cpp`, over what SDL says of the displays.
Which display the window is given is settled by an index. On a first run it is the index of the
primary display in the list of all displays, and it is used in the list of the bounds that were
reported; the two agree while the displays in front of the primary one report theirs
(`getElem?_displayBounds`). On later runs both lists are the bounds.
-/

namespace CubeChip

open EzMaths Checked FirstBest

namespace BasicVideoSpec

/-- `SDL_Rect`. -/
structure SdlRect where
  x : Int
  y : Int
  w : Int
  h : Int

/-- What SDL says of the displays: `SDL_GetDisplays`, `SDL_GetPrimaryDisplay` and
`SDL_GetDisplayUsableBounds`, which may fail. -/
structure Displays (DisplayID : Type*) where
  displays : List DisplayID
  primary : DisplayID
  usableBounds : DisplayID → Option SdlRect

/-- `Settings::defaults`. -/
def defaults : Rect := Rect.of 0 0 640 480

section
variable {DisplayID : Type*} [DecidableEq DisplayID]

/-- One turn of the loop over the displays, with the index of the primary one so far and the bounds
so far. -/
def visit (d : Displays DisplayID) (found : Int × List Rect) (display : DisplayID × Nat) :
    Int × List Rect :=
  let bestDisplay : Int := if display.1 = d.primary then display.2 else found.1
  match d.usableBounds display.1 with
  | some b => (bestDisplay, found.2 ++ [Rect.of b.x b.y b.w b.h])
  | none => (bestDisplay, found.2)

/-- `best_display` and `display_bounds` after step 2. -/
def eligible (d : Displays DisplayID) : Int × List Rect :=
  d.displays.zipIdx.foldl (visit d) (-1, [])

end

/-- Step 3. -/
def validate (rect : Rect) : Rect :=
  { rect with w := max rect.w defaults.w, h := max rect.h defaults.h }

/-- One turn of step 4. -/
def compareOverlap (rect : Rect) (best : Nat × Int) (display : Rect × Nat) :
    Option (Nat × Int) := do
  let overlapArea ← (← intersect rect display.1).area
  return if overlapArea > best.1 then (overlapArea, (display.2 : Int)) else best

/-- One turn of step 5. -/
def compareDistance (rect : Rect) (best : Nat × Int) (display : Rect × Nat) :
    Option (Nat × Int) := do
  let squared ← do distance (← rect.center) (← display.1.center)
  return if squared < best.1 then (squared, (display.2 : Int)) else best

/-- Steps 4 and 5: `best_display`, and `rect_intersects_display`. -/
def search (rect : Rect) (bounds : List Rect) (bestDisplay : Int) : Option (Int × Bool) := do
  let (bestOverlap, bestDisplay) ← bounds.zipIdx.foldlM (compareOverlap rect) (0, bestDisplay)
  if bestOverlap ≠ 0 then
    return (bestDisplay, true)
  else
    let (_, bestDisplay) ←
      bounds.zipIdx.foldlM (compareDistance rect) (2 ^ 64 - 1, bestDisplay)
    return (bestDisplay, false)

/-- `display_bounds[best_display]`. -/
def index (bounds : List Rect) (bestDisplay : Int) : Option Rect :=
  if 0 ≤ bestDisplay then bounds[bestDisplay.toNat]? else none

/-- `std::clamp`, which asks that the bounds do not cross. -/
def clamp (v lo hi : Int) : Option Int :=
  checked (lo ≤ hi) (if v < lo then lo else if hi < v then hi else v)

/-- Steps 6 and 7 along one axis: the origin and the length of a window on a display that starts
at `start` and is `extent` long, with so much decoration in front and behind. The steps are the same
for both. -/
def placeAxis (intersects : Bool) (start extent front behind origin length : Int) :
    Option (Int × Int) := do
  let room ← s32 ((← s32 (extent - front)) - behind)
  let length := min length room
  if intersects then
    let lowest ← s32 (start + front)
    let highest ← s32 ((← s32 ((← s32 (start + extent)) - behind)) - length)
    let origin ← clamp origin lowest highest
    return (origin, length)
  else
    let spare ← s32 (room - length)
    let origin ← s32 ((← s32 (start + spare.tdiv 2)) + front)
    return (origin, length)

/-- Steps 6 and 7. The decorations are up, left, down and right. -/
def place (rect deco target : Rect) (intersects : Bool) : Option Rect := do
  let (x, w) ← placeAxis intersects target.x target.w deco.y deco.h rect.x rect.w
  let (y, h) ← placeAxis intersects target.y target.h deco.x deco.w rect.y rect.h
  return { x, y, w, h }

section
variable {DisplayID : Type*} [DecidableEq DisplayID]

/-- The bounds step 6 takes for a validated window, and whether the window intersects them. -/
def target (d : Displays DisplayID) (rect : Rect) (firstRun : Bool) : Option (Rect × Bool) := do
  let found := eligible d
  let best ← if firstRun then some (found.1, false) else search rect found.2 found.1
  let target ← index found.2 best.1
  return (target, best.2)

/-- `normalize_rect_to_display`. -/
def normalizeRectToDisplay (d : Displays DisplayID) (rect deco : Rect) (firstRun : Bool) :
    Option Rect :=
  if d.displays = [] then some defaults
  else if (eligible d).2 = [] then some defaults
  else do
    let rect := validate rect
    let (target, intersects) ← target d rect firstRun
    place rect deco target intersects

end

end BasicVideoSpec

end CubeChip
