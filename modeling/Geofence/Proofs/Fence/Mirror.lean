/-
The mirror image in the equator.

Negating all latitudes turns left into right and leaves the longitudes, and with them the heights in
the frame of a polygon, as they are.  So the mirrored chain counts the sides that rise above the
level of the point with the point on the other hand.  A side that keeps clear of the point and
crosses the level is counted in one of the two chains and not in the other, and since a closed
chain comes back to where it starts, it rises above the level as often as it falls below it: the
two winding numbers are opposite.

Main definitions:

* `Geofence.Offset.mirrored`, `Geofence.Location.mirrored`, `Geofence.Polygon.mirrored` — the mirror
  images.

Main results:

* `Geofence.turn_mirrored` — what a side and its mirror image add up to;
* `Geofence.winding_mirrored` — the winding number of the mirror image;
* `Geofence.Polygon.contains_mirrored` — the mirror image contains the mirrored locations.
-/

import Geofence.Proofs.Fence.Winding

set_option relaxedAutoImplicit false
set_option autoImplicit false

namespace Geofence

/-! ### Mirror images in the plane -/

/-- The mirror image of an offset: its height stays. -/
def Offset.mirrored (v : Offset ℚ) : Offset ℚ := ⟨-v.x, v.y⟩

theorem area_mirrored (s a b : Offset ℚ) :
    area s.mirrored a.mirrored b.mirrored = -area s a b := by
  simp only [area_eq, Offset.mirrored]
  ring

theorem above_mirrored {tolerance : ℚ} {s v : Offset ℚ} :
    Above tolerance s.mirrored v.mirrored ↔ Above tolerance s v := Iff.rfl

/-- Being above the level of `s`, as a number. -/
def aboveCount (tolerance : ℚ) (s v : Offset ℚ) : ℤ := if Above tolerance s v then 1 else 0

section Chains

variable {tolerance : ℚ} {s : Offset ℚ}

theorem not_meets_of_lt_area {e : Offset ℚ × Offset ℚ} (h : tolerance < |area s e.1 e.2|) :
    ¬Meets tolerance s e := fun hm => (meets_iff.1 hm).1.not_gt h

/-- **A side clear of the point and its mirror image** add up to whether the side rises above the
level or falls below it, on whichever hand the point is. -/
theorem turn_mirrored (hτ : 0 ≤ tolerance) {a b : Offset ℚ} (h : tolerance < |area s a b|) :
    turn tolerance s.mirrored (a.mirrored, b.mirrored) + turn tolerance s (a, b) =
      aboveCount tolerance s b - aboveCount tolerance s a := by
  simp only [turn_eq hτ, area_mirrored, neg_lt_neg_iff, lt_neg (a := tolerance), above_mirrored,
    aboveCount]
  -- the area has a sign, and one of the two chains counts the sides of that sign
  rcases lt_abs.1 h with harea | harea
  · have hright : ¬area s a b < -tolerance := by linarith
    by_cases ha : Above tolerance s a <;> by_cases hb : Above tolerance s b <;>
      simp [harea, hright, ha, hb]
  · have hright : area s a b < -tolerance := lt_neg.1 harea
    have hleft : ¬tolerance < area s a b := by linarith
    by_cases ha : Above tolerance s a <;> by_cases hb : Above tolerance s b <;>
      simp [hleft, hright, ha, hb]

/-- **The mirror image of a closed chain** has the opposite winding number round the mirrored point,
if no side comes near the point. -/
theorem winding_mirrored (hτ : 0 ≤ tolerance) {chain : List (Offset ℚ)}
    (h : ∀ e ∈ edges chain, tolerance < |area s e.1 e.2|) :
    winding tolerance (chain.map Offset.mirrored) s.mirrored = -winding tolerance chain s := by
  rw [eq_neg_iff_add_eq_zero, winding, winding, edges_map, List.map_map, ← List.sum_map_add,
    ← sum_edges_sub (aboveCount tolerance s) chain]
  exact congrArg List.sum (List.map_congr_left fun e he => turn_mirrored hτ (h e he))

theorem encloses_mirrored (hτ : 0 ≤ tolerance) {chain : List (Offset ℚ)}
    (h : ∀ e ∈ edges chain, tolerance < |area s e.1 e.2|) :
    encloses tolerance (chain.map Offset.mirrored) s.mirrored = encloses tolerance chain s := by
  have hmirrored : ∀ e ∈ edges (chain.map Offset.mirrored), ¬Meets tolerance s.mirrored e := by
    intro e he
    rw [edges_map] at he
    obtain ⟨side, hside, rfl⟩ := List.mem_map.1 he
    refine not_meets_of_lt_area ?_
    rw [Prod.map_fst, Prod.map_snd, area_mirrored, abs_neg]
    exact h side hside
  rw [Bool.eq_iff_iff, encloses_iff_of_not_meets hmirrored,
    encloses_iff_of_not_meets fun e he => not_meets_of_lt_area (h e he), winding_mirrored hτ h,
    neg_ne_zero]

end Chains

/-! ### Mirror images on the globe -/

/-- The mirror image of a location in the equator. -/
def Location.mirrored (p : Location ℚ) : Location ℚ := ⟨-p.lat, p.lng⟩

/-- The mirror image of a polygon in the equator. -/
def Polygon.mirrored (g : Polygon ℚ) : Polygon ℚ :=
  ⟨g.vertices.map Location.mirrored, (List.length_map ..).symm ▸ g.three_le⟩

theorem project_mirrored (scale : ℚ) (o p : Location ℚ) :
    project scale o.mirrored p.mirrored = (project scale o p).mirrored := by
  simp only [project, Location.mirrored, Offset.mirrored, Offset.mk.injEq, and_true]
  ring

theorem Polygon.westmost_mirrored (first : Location ℚ) (rest : List (Location ℚ)) :
    westmost first.mirrored (rest.map Location.mirrored) = (westmost first rest).mirrored := by
  induction rest generalizing first with
  | nil => rfl
  | cons v rest ih =>
      have hbest : (if v.mirrored.lng < first.mirrored.lng then v.mirrored else first.mirrored) =
          (if v.lng < first.lng then v else first).mirrored :=
        (apply_ite Location.mirrored (v.lng < first.lng) v first).symm
      rw [List.map_cons, westmost, List.foldl_cons, ← westmost, hbest, ih, westmost, westmost,
        List.foldl_cons]

/-- The westmost vertex stays the westmost one. -/
theorem Polygon.origin_mirrored (g : Polygon ℚ) : g.mirrored.origin = g.origin.mirrored := by
  obtain ⟨vs, hvs⟩ := g
  cases vs with
  | nil => simp at hvs
  | cons first rest => exact Polygon.westmost_mirrored first rest

theorem Polygon.ring_mirrored (g : Polygon ℚ) :
    g.mirrored.ring = g.ring.map Offset.mirrored := by
  rw [Polygon.ring, Polygon.ring, Polygon.mirrored, List.map_map, List.map_map]
  refine List.map_congr_left fun v _ => ?_
  exact (congrArg (project Gauge.scale · v.mirrored) g.origin_mirrored).trans
    (project_mirrored Gauge.scale g.origin v)

/-- **The mirror image of a polygon contains the mirror images of its locations**: where no side
comes within the tolerance of the location, negating the latitudes of all vertices and of the
location does not change the answer. -/
theorem Polygon.contains_mirrored (g : Polygon ℚ) (p : Location ℚ)
    (h : ∀ e ∈ edges g.ring,
      ¬|(e.2 - e.1).cross (project Gauge.scale g.origin p - e.1)| ≤ Gauge.tolerance) :
    g.mirrored.contains p.mirrored = g.contains p := by
  rw [Polygon.contains, Polygon.contains, Polygon.ring_mirrored, Polygon.origin_mirrored,
    project_mirrored]
  exact encloses_mirrored tolerance_nonneg fun e he => not_le.1 (h e he)

/-- A bent polygon across the 180th meridian, with the notch on its northern side. -/
def datelineBracket : Polygon ℚ :=
  ⟨[⟨0, 178⟩, ⟨8, 178⟩, ⟨3, -180⟩, ⟨8, -178⟩, ⟨0, -178⟩], by decide⟩

/-- South of the notch the bent polygon contains a location, and in the notch it does not. -/
theorem datelineBracket_contains_mirrored :
    (∀ e ∈ edges datelineBracket.ring,
      ¬|(e.2 - e.1).cross (project Gauge.scale datelineBracket.origin ⟨2, -179⟩ - e.1)| ≤
        Gauge.tolerance) ∧
    (∀ e ∈ edges datelineBracket.ring,
      ¬|(e.2 - e.1).cross (project Gauge.scale datelineBracket.origin ⟨6, -179⟩ - e.1)| ≤
        Gauge.tolerance) ∧
    datelineBracket.mirrored.contains ⟨-2, -179⟩ = datelineBracket.contains ⟨2, -179⟩ ∧
    datelineBracket.contains ⟨2, -179⟩ = true ∧
    datelineBracket.mirrored.contains ⟨-6, -179⟩ = datelineBracket.contains ⟨6, -179⟩ ∧
    datelineBracket.contains ⟨6, -179⟩ = false := by
  have hinside : ∀ e ∈ edges datelineBracket.ring,
      ¬|(e.2 - e.1).cross (project Gauge.scale datelineBracket.origin ⟨2, -179⟩ - e.1)| ≤
        Gauge.tolerance := by decide +kernel
  have hnotch : ∀ e ∈ edges datelineBracket.ring,
      ¬|(e.2 - e.1).cross (project Gauge.scale datelineBracket.origin ⟨6, -179⟩ - e.1)| ≤
        Gauge.tolerance := by decide +kernel
  exact ⟨hinside, hnotch, Polygon.contains_mirrored datelineBracket ⟨2, -179⟩ hinside,
    by decide +kernel, Polygon.contains_mirrored datelineBracket ⟨6, -179⟩ hnotch,
    by decide +kernel⟩

end Geofence
