/-
Fences and lists of fences.

A broadcast is meant for the union of its fences.  A circle may fail to answer for a location, since
the distance may be undefined; then the answer of a list of fences depends on whether a fence before
it already contains the location.

Main definitions:

* `Geofence.Fence` — a circle or a polygon;
* `Geofence.Fence.contains` — whether a fence contains a location;
* `Geofence.anyContains` — whether some fence does, the first one deciding;
* `Geofence.matching` — the positions of all fences that do.
-/

import Geofence.Fence.Circle
import Geofence.Fence.Polygon

set_option relaxedAutoImplicit false
set_option autoImplicit false

namespace Geofence

/-- A circle or a polygon. -/
inductive Fence (α : Type) [LE α] [OfNat α 0] where
  | circle (c : Circle α)
  | polygon (g : Polygon α)

namespace Fence

variable {α : Type} [LE α] [OfNat α 0]

/-- A circle is never equal to a polygon. -/
instance [BEq α] : BEq (Fence α) where
  beq
    | .circle a, .circle b => a == b
    | .polygon a, .polygon b => a == b
    | _, _ => false

variable [DecidableLE α] [LT α] [DecidableLT α]
  [Add α] [Sub α] [Mul α] [Div α] [Neg α] [Gauge α] [Elementary α]

/-- Whether a fence contains a location. -/
def contains (f : Fence α) (p : Location α) : Except DomainError Bool :=
  match f with
  | .circle c => c.contains p
  | .polygon g => .ok (g.contains p)

end Fence

variable {α : Type} [LE α] [OfNat α 0] [DecidableLE α] [LT α] [DecidableLT α]
  [Add α] [Sub α] [Mul α] [Div α] [Neg α] [Gauge α] [Elementary α]

/-- Whether some fence contains `p`: the fences are asked in order up to the first that does, so a
fence after it cannot fail. -/
def anyContains : List (Fence α) → Location α → Except DomainError Bool
  | [], _ => .ok false
  | f :: rest, p => do
    if ← f.contains p then pure true else anyContains rest p

/-- The positions of the fences that contain `p`, in order; all fences are asked. -/
def matching (fences : List (Fence α)) (p : Location α) : Except DomainError (List Nat) := do
  let hits ← fences.mapM (·.contains p)
  pure (hits.zipIdx.filterMap fun hit => if hit.1 then some hit.2 else none)

end Geofence
