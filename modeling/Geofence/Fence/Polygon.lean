/-
Polygons and the winding number.

A polygon is judged in the frame of its westmost vertex.  The winding number round a point counts
the sides that cross the level of the point upwards with the point on their left, less the sides
that cross it downwards with the point on their right; a vertex on the level counts as below it.  A
point on a side is inside, whatever the count.

Main definitions:

* `Geofence.Polygon` — at least three vertices;
* `Geofence.Polygon.origin`, `Geofence.Polygon.ring` — the frame, and the vertices in it;
* `Geofence.edges` — the sides of a closed chain of points;
* `Geofence.edgeTurn` — what one side adds to the winding number;
* `Geofence.encloses` — whether a closed chain winds round a point;
* `Geofence.Polygon.contains` — whether a location is inside a polygon.
-/

import Geofence.Plane.Location

set_option relaxedAutoImplicit false
set_option autoImplicit false

namespace Geofence

/-! ### Closed chains of points -/

/-- The sides of a closed chain: each point with the next one, and the last with the first. -/
def edges {β : Type} (chain : List β) : List (β × β) :=
  chain.zip (chain.drop 1 ++ chain.take 1)

@[simp] theorem length_edges {β : Type} (chain : List β) :
    (edges chain).length = chain.length := by
  simp [edges]
  omega

section Winding

variable {α : Type} [Sub α] [Mul α] [Neg α] [LT α] [DecidableLT α] [LE α] [DecidableLE α]

/-- What the side from `a` to `b` adds to the winding number round `s`; nothing is returned when
`s` lies on the side. -/
def edgeTurn (tolerance : α) (s a b : Offset α) : Option Int :=
  match sign tolerance ((b - a).cross (s - a)) with
  | .zero => if between a.x b.x s.x && between a.y b.y s.y then none else some 0
  | .plus =>
    if sign tolerance (a.y - s.y) ≠ .plus ∧ sign tolerance (b.y - s.y) = .plus then some 1
    else some 0
  | .minus =>
    if sign tolerance (a.y - s.y) = .plus ∧ sign tolerance (b.y - s.y) ≠ .plus then some (-1)
    else some 0

/-- Whether a closed chain goes through `s` or winds round it. -/
def encloses (tolerance : α) (chain : List (Offset α)) (s : Offset α) : Bool :=
  let turns := (edges chain).map fun side => edgeTurn tolerance s side.1 side.2
  turns.contains none || (turns.filterMap id).foldr (· + ·) 0 != 0

end Winding

/-! ### Polygons -/

/-- At least three vertices in order; the last one is joined to the first. -/
structure Polygon (α : Type) where
  vertices : List (Location α)
  three_le : 3 ≤ vertices.length

namespace Polygon

variable {α : Type}

/-- Two polygons are equal when their vertices are. -/
instance [BEq α] : BEq (Polygon α) := ⟨fun a b => a.vertices == b.vertices⟩

/-- The polygon with the given vertices, if there are enough of them. -/
def ofVertices? (vertices : List (Location α)) : Option (Polygon α) :=
  if h : 3 ≤ vertices.length then some ⟨vertices, h⟩ else none

variable [LT α] [DecidableLT α]

/-- The location with the least longitude of a list with `first` in front; the first one of
several. -/
def westmost (first : Location α) (rest : List (Location α)) : Location α :=
  rest.foldl (fun best v => if v.lng < best.lng then v else best) first

/-- The origin of the polygon's frame: the vertex with the least longitude. -/
def origin (g : Polygon α) : Location α :=
  match g.vertices, g.three_le with
  | first :: rest, _ => westmost first rest

variable [Add α] [Sub α] [Mul α] [Neg α] [Gauge α]

/-- The vertices in the polygon's frame. -/
def ring (g : Polygon α) : List (Offset α) := g.vertices.map (project Gauge.scale g.origin)

variable [LE α] [DecidableLE α]

/-- **Whether `p` is inside the polygon**, or on its boundary. -/
def contains (g : Polygon α) (p : Location α) : Bool :=
  encloses Gauge.tolerance g.ring (project Gauge.scale g.origin p)

end Polygon

end Geofence
