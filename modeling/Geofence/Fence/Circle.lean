/-
Circles round a location.

Main definitions:

* `Geofence.Circle` — a center and a radius in metres that is at least zero;
* `Geofence.Circle.contains` — whether a location is no farther from the center.
-/

import Geofence.Fence.Sphere

set_option relaxedAutoImplicit false
set_option autoImplicit false

namespace Geofence

/-- A center and a radius in metres.  In binary64 arithmetic the condition also says that the radius
is a number; it may be infinite. -/
structure Circle (α : Type) [LE α] [OfNat α 0] where
  center : Location α
  radius : α
  radius_nonneg : 0 ≤ radius

namespace Circle

variable {α : Type} [LE α] [OfNat α 0]

/-- Two circles are equal when their centers and radii are. -/
instance [BEq α] : BEq (Circle α) := ⟨fun a b => a.center == b.center && a.radius == b.radius⟩

variable [DecidableLE α]

/-- The circle with the given radius, if that is at least zero. -/
def ofRadius? (center : Location α) (radius : α) : Option (Circle α) :=
  if h : 0 ≤ radius then some ⟨center, radius, h⟩ else none

variable [Add α] [Sub α] [Mul α] [Div α] [Elementary α]

/-- Whether `p` lies inside the circle or on its boundary. -/
def contains (c : Circle α) (p : Location α) : Except DomainError Bool := do
  let d ← c.center.distance p
  pure (decide (d ≤ c.radius))

end Circle

end Geofence
