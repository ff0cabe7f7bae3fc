/-
Writing a list of fences.

Main definitions:

* `Geofence.writeLocation`, `Geofence.Fence.write` — the text of a location and of a fence;
* `Geofence.Listed` — a fence, or an object that is none;
* `Geofence.writeFences` — the text of the fences of a list.
-/

import Geofence.Encoding.Reader

set_option relaxedAutoImplicit false
set_option autoImplicit false

namespace Geofence

/-- A location: the latitude, a comma and the longitude. -/
def writeLocation (p : Location Float) : Text :=
  renderNumber p.lat ++ ',' :: renderNumber p.lng

namespace Fence

/-- The kind of a fence. -/
def kind : Fence Float → Text
  | .circle _ => circleKind
  | .polygon _ => polygonKind

/-- The parts of a fence after its kind. -/
def parts : Fence Float → List Text
  | .circle c => [writeLocation c.center, renderNumber c.radius]
  | .polygon g => g.vertices.map writeLocation

/-- **The text of a fence**: its kind and its parts between bars. -/
def write (f : Fence Float) : Text := Text.join '|' (f.kind :: f.parts)

end Fence

/-- What a list to be written holds: fences, and objects that are none, known by a text. -/
inductive Listed where
  | fence (f : Fence Float)
  | object (text : Text)

namespace Listed

/-- The fence of an entry that is one. -/
def fence? : Listed → Option (Fence Float)
  | .fence f => some f
  | .object _ => none

/-- The notice of an entry that is no fence. -/
def notice? : Listed → Option Notice
  | .fence _ => none
  | .object text => some (.unsupported text)

/-- The text of an entry, if it is a fence. -/
def write? (e : Listed) : Option Text := e.fence?.map Fence.write

end Listed

/-- The notices of writing a list: one for each entry that is no fence. -/
def writeNotices (entries : List Listed) : List Notice := entries.filterMap Listed.notice?

/-- **The text of a list**: the fences in order between semicolons, all else left out. -/
def writeListed (entries : List Listed) : Text := Text.join ';' (entries.filterMap Listed.write?)

/-- The text of a list of fences. -/
def writeFences (fences : List (Fence Float)) : Text := Text.join ';' (fences.map Fence.write)

end Geofence
