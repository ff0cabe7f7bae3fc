/-
Distances on the sphere.

The distance of two locations is worked out with the haversine formula.  It is written over a
number type with elementary functions that may refuse an argument, so that the same formula runs in
binary64 arithmetic and is read over the reals.

Main definitions:

* `Geofence.Elementary` — the elementary functions of a number type;
* `Geofence.haversine` — the distance of two positions in metres;
* `Geofence.Location.distance` — the distance of two locations.
-/

import Geofence.Plane.Location

set_option relaxedAutoImplicit false
set_option autoImplicit false

namespace Geofence

/-- An elementary function was applied outside its domain. -/
inductive DomainError where
  | outside
  deriving DecidableEq

/-- The wording of the refusal. -/
def DomainError.message : DomainError → String
  | .outside => "math domain error"

/-- The elementary functions of a number type, and the constants of the sphere in it. -/
class Elementary (α : Type) where
  one : α
  two : α
  /-- The mean radius of the earth in metres. -/
  earthRadius : α
  /-- The factor from degrees to radians. -/
  radian : α
  sine : α → Except DomainError α
  cosine : α → Except DomainError α
  squareRoot : α → Except DomainError α
  /-- The second power. -/
  square : α → α
  /-- The angle of the point with the second number as abscissa and the first one as ordinate. -/
  angle : α → α → α

/-- In binary64 arithmetic no function refuses an argument that is no number, and all give it
back; sine and cosine refuse the infinite numbers, and the square root the negative ones.  The second
power is that of the power function, whose last bit is not always the one of a product; only sines
are raised to it, so it does not overflow. -/
instance : Elementary Float where
  one := 1
  two := 2
  earthRadius := 6371000
  radian := 3.141592653589793 / 180
  sine x := if x.isNaN then .ok x else if x.isInf then .error .outside else .ok x.sin
  cosine x := if x.isNaN then .ok x else if x.isInf then .error .outside else .ok x.cos
  squareRoot x := if x.isNaN then .ok x else if x < 0 then .error .outside else .ok x.sqrt
  square x := if x.isNaN then x else x.pow 2
  angle y x := if y.isNaN then y else if x.isNaN then x else Float.atan2 y x

variable {α : Type} [Add α] [Sub α] [Mul α] [Div α] [Elementary α]

open Elementary

/-- The square of the half chord between two positions on the unit sphere, given in degrees. -/
def halfChordSquared (lat lng lat' lng' : α) : Except DomainError α := do
  let north ← sine ((lat' - lat) * radian / two)
  let level ← cosine (lat * radian)
  let level' ← cosine (lat' * radian)
  let east ← sine ((lng' - lng) * radian / two)
  pure (square north + level * level' * square east)

/-- **The distance** of two positions, given in degrees, along the sphere in metres. -/
def haversine (lat lng lat' lng' : α) : Except DomainError α := do
  let a ← halfChordSquared lat lng lat' lng'
  let near ← squareRoot a
  let far ← squareRoot (one - a)
  pure (earthRadius * (two * angle near far))

/-- The distance of two locations in metres. -/
def Location.distance (p q : Location α) : Except DomainError α :=
  haversine p.lat p.lng q.lat q.lng

end Geofence
