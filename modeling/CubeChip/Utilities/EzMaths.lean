import Mathlib.Tactic.Linarith
import CubeChip.Lib.Checked

/-!
# Rectangles

Points, frames and rectangles of `utilities/EzMaths.hpp`. Their coordinates are 32-bit, and what
leaves that range is undefined; what `intersect`, `area`, `center` and `distance` compute where they
are defined is stated in integers (`overlap`, `centre`, `squaredDistance`).
-/

namespace CubeChip.EzMaths

open Checked

/-- In the range of an `s32`. -/
def InS32 (z : Int) : Prop := -2 ^ 31 ≤ z ∧ z < 2 ^ 31

instance (z : Int) : Decidable (InS32 z) := inferInstanceAs (Decidable (_ ∧ _))

/-- The result of an operation on `s32` operands. -/
def s32 (z : Int) : Option Int := checked (InS32 z) z

/-- The conversion to a `u64`. -/
def u64 (z : Int) : Nat := (z % 2 ^ 64).toNat

structure Point where
  x : Int
  y : Int
deriving DecidableEq

structure Frame where
  w : Int
  h : Int
deriving DecidableEq

structure Rect extends Point, Frame
deriving DecidableEq

/-- `Frame(w, h)`: a side is not negative. -/
def Frame.of (w h : Int) : Frame where
  w := if w < 0 then 0 else w
  h := if h < 0 then 0 else h

/-- `Rect(x, y, w, h)`. -/
def Rect.of (x y w h : Int) : Rect := { x, y, toFrame := Frame.of w h }

/-- `Point::operator+`. -/
def Point.add (p q : Point) : Option Point := do
  let x ← s32 (p.x + q.x)
  let y ← s32 (p.y + q.y)
  return { x, y }

/-- `Frame::area`. -/
def Frame.area (f : Frame) : Option Nat := do
  let product ← s32 (f.w * f.h)
  return u64 product

/-- `Frame::half`. -/
def Frame.half (f : Frame) : Point := { x := f.w.tdiv 2, y := f.h.tdiv 2 }

/-- `Rect::center`. -/
def Rect.center (r : Rect) : Option Point := r.half.add r.toPoint

/-- `intersect`. -/
def intersect (lhs rhs : Rect) : Option Rect := do
  let x1 := max lhs.x rhs.x
  let y1 := max lhs.y rhs.y
  let x2 := min (← s32 (lhs.x + lhs.w)) (← s32 (rhs.x + rhs.w))
  let y2 := min (← s32 (lhs.y + lhs.h)) (← s32 (rhs.y + rhs.h))
  let w := max 0 (← s32 (x2 - x1))
  let h := max 0 (← s32 (y2 - y1))
  let x := if w > 0 then x1 else 0
  let y := if h > 0 then y1 else 0
  return Rect.of x y w h

/-- `distance`: the square of it. The differences are 32-bit, and the products are not. -/
def distance (lhs rhs : Point) : Option Nat := do
  let dx ← s32 (lhs.x - rhs.x)
  let dy ← s32 (lhs.y - rhs.y)
  return (u64 (dx * dx) + u64 (dy * dy)) % 2 ^ 64

/-! ## In integers -/

/-- The length two intervals share. -/
def shared (a m b n : Int) : Int := max 0 (min (a + m) (b + n) - max a b)

/-- The area two rectangles share. -/
def overlap (l r : Rect) : Nat := (shared l.x l.w r.x r.w * shared l.y l.h r.y r.h).toNat

/-- The centre of a rectangle, to the pixel. -/
def centre (r : Rect) : Point := { x := r.w.tdiv 2 + r.x, y := r.h.tdiv 2 + r.y }

def squaredDistance (p q : Point) : Nat := ((p.x - q.x) ^ 2 + (p.y - q.y) ^ 2).toNat

/-- The sums, differences and the product on the way to the area two rectangles share are in
range. -/
def OverlapFits (l r : Rect) : Prop :=
  InS32 (l.x + l.w) ∧ InS32 (r.x + r.w) ∧ InS32 (l.y + l.h) ∧ InS32 (r.y + r.h) ∧
  InS32 (min (l.x + l.w) (r.x + r.w) - max l.x r.x) ∧
  InS32 (min (l.y + l.h) (r.y + r.h) - max l.y r.y) ∧
  InS32 (shared l.x l.w r.x r.w * shared l.y l.h r.y r.h)

def CentreFits (r : Rect) : Prop := InS32 (centre r).x ∧ InS32 (centre r).y

/-- The centres of two rectangles and their differences are in range. -/
def DistanceFits (l r : Rect) : Prop :=
  CentreFits l ∧ CentreFits r ∧
  InS32 ((centre l).x - (centre r).x) ∧ InS32 ((centre l).y - (centre r).y)

instance (l r : Rect) : Decidable (OverlapFits l r) := inferInstanceAs (Decidable (_ ∧ _))

instance (r : Rect) : Decidable (CentreFits r) := inferInstanceAs (Decidable (_ ∧ _))

instance (l r : Rect) : Decidable (DistanceFits l r) := inferInstanceAs (Decidable (_ ∧ _))

theorem shared_nonneg (a m b n : Int) : 0 ≤ shared a m b n := Int.le_max_left ..

theorem u64_of_nonneg {z : Int} (h : 0 ≤ z) (hlt : z < 2 ^ 64) : u64 z = z.toNat := by
  rw [u64, Int.emod_eq_of_lt h hlt]

theorem Frame.of_nonneg {w h : Int} (hw : 0 ≤ w) (hh : 0 ≤ h) : Frame.of w h = ⟨w, h⟩ := by
  rw [Frame.of, if_neg (Int.not_lt.2 hw), if_neg (Int.not_lt.2 hh)]

theorem area_eq (f : Frame) : f.area = checked (InS32 (f.w * f.h)) (u64 (f.w * f.h)) := by
  simp only [Frame.area, s32, Option.pure_def, bind_some_checked]

/-- The area of the intersection is the area two rectangles share. -/
theorem area_intersect (l r : Rect) :
    (do (← intersect l r).area) = checked (OverlapFits l r) (overlap l r) := by
  have hframe : ∀ x y, (Rect.of x y (shared l.x l.w r.x r.w) (shared l.y l.h r.y r.h)).toFrame =
      ⟨shared l.x l.w r.x r.w, shared l.y l.h r.y r.h⟩ := by
    intro x y
    exact Frame.of_nonneg (shared_nonneg ..) (shared_nonneg ..)
  have hnonneg := Int.mul_nonneg (shared_nonneg l.x l.w r.x r.w) (shared_nonneg l.y l.h r.y r.h)
  have hshared : ∀ a m b n, max 0 (min (a + m) (b + n) - max a b) = shared a m b n := by
    intro a m b n
    rfl
  simp only [intersect, s32, Option.pure_def, bind_checked, bind_some_checked, area_eq, hshared,
    hframe, and_assoc]
  refine checked_congr Iff.rfl fun hfits => ?_
  obtain ⟨_, _, _, _, _, _, _, harea⟩ := hfits
  exact u64_of_nonneg hnonneg (Int.lt_trans harea (by decide))

theorem center_eq (r : Rect) : r.center = checked (CentreFits r) (centre r) := by
  simp only [Rect.center, Point.add, s32, Option.pure_def, bind_some_checked, bind_checked]
  rfl

/-- The square of a 32-bit number leaves room for another in 64 bits. -/
theorem sq_lt_of_inS32 {z : Int} (h : InS32 z) : z ^ 2 < 2 ^ 63 := by
  obtain ⟨hlo, hhi⟩ := h
  nlinarith

/-- The distance of two centres. -/
theorem distance_center (l r : Rect) :
    (do distance (← l.center) (← r.center)) =
      checked (DistanceFits l r) (squaredDistance (centre l) (centre r)) := by
  simp only [center_eq, distance, s32, Option.pure_def, bind_some_checked, bind_checked]
  refine checked_congr Iff.rfl fun hfits => ?_
  obtain ⟨_, _, hx, hy⟩ := hfits
  have hdx := sq_lt_of_inS32 hx
  have hdy := sq_lt_of_inS32 hy
  have hdx0 := sq_nonneg ((centre l).x - (centre r).x)
  have hdy0 := sq_nonneg ((centre l).y - (centre r).y)
  rw [← sq, ← sq, u64_of_nonneg hdx0 (by omega), u64_of_nonneg hdy0 (by omega), squaredDistance,
    Int.toNat_add hdx0 hdy0]
  exact Nat.mod_eq_of_lt (by omega)

end CubeChip.EzMaths
