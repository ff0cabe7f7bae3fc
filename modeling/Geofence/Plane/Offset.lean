/-
Offsets in the plane.

Main definitions:

* `Geofence.Offset` — a point of the plane, or the way from one to another;
* `Geofence.Offset.cross` — the signed area of the parallelogram of two offsets.
-/

import Geofence.Plane.Sign

set_option relaxedAutoImplicit false
set_option autoImplicit false

namespace Geofence

/-- An offset from the origin of a frame: `x` runs with the latitude and `y` with the longitude. -/
structure Offset (α : Type) where
  x : α
  y : α
  deriving DecidableEq

namespace Offset

variable {α : Type} [Sub α]

/-- The way from `b` to `a`. -/
def sub (a b : Offset α) : Offset α := ⟨a.x - b.x, a.y - b.y⟩

instance : Sub (Offset α) := ⟨sub⟩

variable [Mul α]

/-- The cross product of two offsets: positive when `b` is to the left of `a`. -/
def cross (a b : Offset α) : α := a.x * b.y - a.y * b.x

end Offset

end Geofence
