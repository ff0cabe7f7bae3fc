/-
The elements of a broadcast message about a warning area, and their numbers.
-/

set_option relaxedAutoImplicit false
set_option autoImplicit false

namespace Geofence

/-- The kinds of elements of the coordinates of a warning area. -/
inductive Tag where
  /-- How long a device may look for its position. -/
  | maximumWaitTime
  | polygon
  | circle
  deriving DecidableEq

/-- The number that marks an element. -/
def Tag.code : Tag → Nat
  | maximumWaitTime => 1
  | polygon => 2
  | circle => 3

end Geofence
