/-
What can be wrong with an encoded fence.

Main definitions:

* `Geofence.Malformed` — the causes, and `Geofence.Malformed.message` for their wording;
* `Geofence.SegmentFault` — a malformed fence, or a kind of fence that is not known.
-/

import Geofence.Number.Render
import Geofence.Text.Quoted

set_option relaxedAutoImplicit false
set_option autoImplicit false

namespace Geofence

open Text

/-- Why a text is no location or no fence. -/
inductive Malformed where
  /-- A coordinate or radius is no numeral. -/
  | notANumber (text : Text)
  /-- A coordinate or radius is infinite or no number. -/
  | notFinite (text : Text)
  /-- A location does not have exactly two parts. -/
  | notALocation (text : Text)
  /-- A circle does not have exactly a center and a radius. -/
  | circleParts (segment : Text)
  /-- A radius is below zero, or no number. -/
  | radius (value : Float)
  /-- A polygon has fewer than three vertices. -/
  | vertices (count : Nat)
  deriving DecidableEq

namespace Malformed

/-- The wording of a cause. -/
def message : Malformed → String
  | notANumber text => s!"not a number: {quoted text}"
  | notFinite text => s!"not a finite number: {quoted text}"
  | notALocation text => s!"expected 'lat,lng', got {quoted text}"
  | circleParts segment => s!"circle needs a center and a radius: {quoted segment}"
  | radius value => s!"circle radius must be >= 0, got {String.ofList (renderNumber value)}"
  | vertices count => s!"polygon needs at least 3 vertices, got {count}"

/-- The wording of a refusal for a cause. -/
def refusal (cause : Malformed) : String := s!"围栏编码错误：{cause.message}"

end Malformed

/-- Why a segment of an encoded list of fences gives no fence. -/
inductive SegmentFault where
  /-- The kind is neither of the two known ones. -/
  | unknownKind (kind : Text)
  /-- The kind is known and the rest is wrong. -/
  | malformed (cause : Malformed)
  deriving DecidableEq

end Geofence
