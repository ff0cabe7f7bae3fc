/-
Locations, and the plane round one of them.

A location is a latitude and a longitude in degrees.  The frame of an origin takes the differences
of both to the origin and scales them.  When origin and location lie on different sides of the
prime meridian and the way over the 180th meridian is the shorter one, the difference of longitudes
is taken that way: from -178 to 175 it is -7, and not 353.

Main definitions:

* `Geofence.Location` — a latitude and a longitude;
* `Geofence.eastward` — the difference of two longitudes, the shorter way;
* `Geofence.project` — a location in the frame of another.
-/

import Geofence.Plane.Offset

set_option relaxedAutoImplicit false
set_option autoImplicit false

namespace Geofence

/-- A latitude and a longitude in degrees. -/
structure Location (α : Type) where
  lat : α
  lng : α
  deriving DecidableEq

instance {α : Type} [BEq α] : BEq (Location α) := ⟨fun a b => a.lat == b.lat && a.lng == b.lng⟩

variable {α : Type} [Add α] [Sub α] [Mul α] [Neg α] [LT α] [DecidableLT α] [Gauge α]

/-- The absolute value. -/
def magnitude (v : α) : α := if v < -v then -v else v

/-- The difference from the longitude `origin` to `lng`: over the 180th meridian when the two have
different signs and this is the shorter way, and straight otherwise.  An origin within the
tolerance of the prime meridian has no sign. -/
def eastward (origin lng : α) : α :=
  let side := sign Gauge.tolerance origin
  let across := magnitude origin + magnitude lng
  if side = .zero ∨ side = sign Gauge.tolerance lng then lng - origin
  else if sign Gauge.tolerance (across * Gauge.two - Gauge.fullTurn) = .plus then
    if side = .plus then Gauge.fullTurn - across else -(Gauge.fullTurn - across)
  else lng - origin

/-- The location `p` in the frame of `origin`, with `scale` units to the degree. -/
def project (scale : α) (origin p : Location α) : Offset α :=
  ⟨(p.lat - origin.lat) * scale, eastward origin.lng p.lng * scale⟩

end Geofence
