/-
The sign of a quantity, with a tolerance.

Every definition of this library about the plane is written over a number type with the usual
operations and comparisons, so that the same definition runs in binary64 arithmetic and is read in
exact rational arithmetic.  Comparisons are used in both directions as they stand: in binary64
arithmetic each of them fails on a value that is no number.

Main definitions:

* `Geofence.Gauge` — the constants that go with a number type;
* `Geofence.Sign` and `Geofence.sign` — minus, zero or plus, with a tolerance;
* `Geofence.between` — lying between two values in any order.
-/

set_option relaxedAutoImplicit false
set_option autoImplicit false

namespace Geofence

/-- The constants of the plane in a number type. -/
class Gauge (α : Type) where
  /-- Values no farther than this from zero count as zero. -/
  tolerance : α
  /-- How many units of the plane make a degree. -/
  scale : α
  /-- The degrees of a full turn. -/
  fullTurn : α
  /-- The number two. -/
  two : α

/-- With a tolerance of `1e-7` and a thousand units to the degree, the plane tells points about one
metre apart. -/
instance : Gauge Float := ⟨1e-7, 1000, 360, 2⟩

/-- The same constants, exactly. -/
instance : Gauge Rat := ⟨1 / (10 : Rat) ^ (7 : Nat), 1000, 360, 2⟩

/-- The sign of a quantity. -/
inductive Sign where
  | minus
  | zero
  | plus
  deriving DecidableEq

/-- A sign as an integer. -/
def Sign.toInt : Sign → Int
  | .minus => -1
  | .zero => 0
  | .plus => 1

variable {α : Type} [Neg α] [LT α] [DecidableLT α]

/-- The sign of `value`, where everything within `tolerance` of zero is zero. -/
def sign (tolerance value : α) : Sign :=
  if tolerance < value then .plus
  else if value < -tolerance then .minus
  else .zero

variable [LE α] [DecidableLE α]

/-- Whether `value` lies between `a` and `b`, ends included, whichever of the two is smaller. -/
def between (a b value : α) : Bool :=
  decide ((if b < a then b else a) ≤ value) && decide (value ≤ (if a < b then b else a))

end Geofence
