/-
Reading an encoded list of fences.

A list of fences is written as segments between semicolons.  A segment is cut at its bars into a
kind and parts: a circle has a location and a radius, a polygon a location for each vertex.  A
location is a latitude and a longitude round a comma.  White space round any separator does not
count, and empty segments are passed over.

Main definitions:

* `Geofence.readCoordinate` — a finite number;
* `Geofence.readLocation` — a location;
* `Geofence.readFence` — a fence from the parts of a segment;
* `Geofence.Reading` — fences, or why there are none, and the notices of the segments skipped;
* `Geofence.readFences` — a whole list, with or without tolerance for malformed segments.
-/

import Geofence.Fence.Basic
import Geofence.Log

set_option relaxedAutoImplicit false
set_option autoImplicit false

namespace Geofence

open Text

/-! ### Numbers and locations -/

/-- A finite number. -/
def readCoordinate (t : Text) : Except Malformed Float :=
  match readNumber? t with
  | none => .error (.notANumber t)
  | some x => if x.isFinite then .ok x else .error (.notFinite t)

/-- A latitude and a longitude round a comma. -/
def readLocation (t : Text) : Except Malformed (Location Float) :=
  match fields ',' t with
  | [lat, lng] => do
    let lat ← readCoordinate lat
    let lng ← readCoordinate lng
    pure ⟨lat, lng⟩
  | _ => .error (.notALocation t)

/-! ### Fences -/

/-- A circle with a radius that has to be at least zero. -/
def makeCircle (center : Location Float) (radius : Float) : Except Malformed (Circle Float) :=
  match Circle.ofRadius? center radius with
  | some c => .ok c
  | none => .error (.radius radius)

/-- A polygon with vertices of which there have to be three. -/
def makePolygon (vertices : List (Location Float)) : Except Malformed (Polygon Float) :=
  match Polygon.ofVertices? vertices with
  | some g => .ok g
  | none => .error (.vertices vertices.length)

/-- The kind of a circle. -/
def circleKind : Text := ['c', 'i', 'r', 'c', 'l', 'e']

/-- The kind of a polygon. -/
def polygonKind : Text := ['p', 'o', 'l', 'y', 'g', 'o', 'n']

/-- The circle of a center and a radius that are read from `parts`, the center first. -/
def readCircle (segment : Text) (parts : List Text) : Except Malformed (Circle Float) :=
  match parts with
  | [center, radius] => do
    let center ← readLocation center
    let radius ← readCoordinate radius
    makeCircle center radius
  | _ => .error (.circleParts segment)

/-- The polygon of the vertices that are read from `parts` in order. -/
def readPolygon (parts : List Text) : Except Malformed (Polygon Float) := do
  let vertices ← parts.mapM readLocation
  makePolygon vertices

/-- **The fence of a segment**: its first part is the kind. -/
def readFence (segment : Text) : Except SegmentFault (Fence Float) :=
  match fields '|' segment with
  | [] => .error (.unknownKind [])
  | kind :: parts =>
    if kind = circleKind then
      ((readCircle segment parts).map Fence.circle).mapError .malformed
    else if kind = polygonKind then
      ((readPolygon parts).map Fence.polygon).mapError .malformed
    else .error (.unknownKind kind)

/-! ### Lists of fences -/

/-- The result of reading a list of fences, and the notices made on the way. -/
structure Reading where
  result : Except Malformed (List (Fence Float))
  notices : List Notice

namespace Reading

/-- A fence in front of what else is read. -/
def consFence (f : Fence Float) (r : Reading) : Reading := ⟨r.result.map (f :: ·), r.notices⟩

/-- A notice in front of what else is reported. -/
def consNotice (n : Notice) (r : Reading) : Reading := ⟨r.result, n :: r.notices⟩

end Reading

/-- What one segment contributes: nothing when it is empty, its fence, or a notice; in a strict
reading a malformed segment ends the list. -/
def readSegment (strict : Bool) (segment : Text) (rest : Reading) : Reading :=
  if segment.isEmpty then rest
  else
    match readFence segment with
    | .ok f => rest.consFence f
    | .error (.unknownKind kind) => rest.consNotice (.unknownKind segment kind)
    | .error (.malformed cause) =>
      if strict then ⟨.error cause, []⟩ else rest.consNotice (.malformed segment cause)

/-- **Reading a list of fences.** -/
def readFences (strict : Bool) (t : Text) : Reading :=
  (fields ';' t).foldr (readSegment strict) ⟨.ok [], []⟩

end Geofence
