/-
The boundary of a polygon.

A point of a side is met by the side, so that a closed chain encloses it whatever its other sides
are.  On the globe a side goes from one vertex to the next the shorter way round, and a point on it
may be written with any longitude of its meridian.  Where the polygon lies on an arc somewhat shorter
than a half turn, the map of the arc shows the sides as the globe has them: the longitudes of the two
vertices, lifted into the map, differ by the shorter way, and a point at a part of the way is lifted
to that part of the side.

Main definitions:

* `Geofence.OnWay` — a location at a part of the shorter way between two others.

Main results:

* `Geofence.encloses_along` — a closed chain encloses the points of its sides;
* `Geofence.flat_of_onWay` — a location on the way is on the side in the map;
* `Geofence.Polygon.contains_onWay` — a polygon contains its boundary.
-/

import Geofence.Proofs.Fence.Rotation
import Geofence.Proofs.Fence.Tolerance

set_option relaxedAutoImplicit false
set_option autoImplicit false

namespace Geofence

/-! ### Points of a side -/

section Sides

variable {tolerance t : ℚ} {a b : Offset ℚ}

theorem area_of_along (a b : Offset ℚ) (t : ℚ) : area (along a b t) a b = 0 := by
  simp only [area_eq, along]
  ring

/-- A side meets its points. -/
theorem meets_along (hτ : 0 ≤ tolerance) (h₀ : 0 ≤ t) (h₁ : t ≤ 1) :
    Meets tolerance (along a b t) (a, b) := by
  rw [meets_iff, area_of_along, abs_zero]
  exact ⟨hτ, part_between h₀ h₁ a.x b.x, part_between h₀ h₁ a.y b.y⟩

/-- **A closed chain encloses the points of its sides.** -/
theorem encloses_along (hτ : 0 ≤ tolerance) (h₀ : 0 ≤ t) (h₁ : t ≤ 1)
    {chain : List (Offset ℚ)} (h : (a, b) ∈ edges chain) :
    encloses tolerance chain (along a b t) = true :=
  encloses_iff.2 (.inl ⟨_, h, meets_along hτ h₀ h₁⟩)

end Sides

/-! ### Ways on the globe -/

/-- `m` lies at the part `t` of the way from `u` to `v`, which goes the shorter way round: to the
east by `e` degrees, or to the west when `e` is negative. -/
structure OnWay (t : ℚ) (u v m : Location ℚ) : Prop where
  lat : m.lat = (1 - t) * u.lat + t * v.lat
  lng : ∃ e : ℚ, |e| ≤ 180 ∧ (∃ j : ℤ, e = v.lng - u.lng + 360 * j) ∧
    ∃ k : ℤ, m.lng = u.lng + t * e + 360 * k

/-- There is only one shorter way, unless it is a half turn. -/
theorem eq_of_short {e d : ℚ} {k : ℤ} (he : |e| ≤ 180) (hd : |d| ≤ 179) (h : e = d + 360 * k) :
    e = d := by
  obtain ⟨he₀, he₁⟩ := abs_le.1 he
  obtain ⟨hd₀, hd₁⟩ := abs_le.1 hd
  have hlow : (-1 : ℚ) < k := by linarith
  have hhigh : (k : ℚ) < 1 := by linarith
  have hzero : k = 0 := by
    have hlow' : -1 < k := by exact_mod_cast hlow
    have hhigh' : k < 1 := by exact_mod_cast hhigh
    omega
  rw [h, hzero, Int.cast_zero, mul_zero, add_zero]

section Map

variable {west t : ℚ} {u v m : Location ℚ}

/-- On the map of an arc, a location on the way is lifted to the same part of the side. -/
theorem lifted_of_onWay (h : OnWay t u v m) (h₀ : 0 ≤ t) (h₁ : t ≤ 1)
    (hu : lifted west u.lng ≤ west + 179) (hv : lifted west v.lng ≤ west + 179) :
    lifted (west - 90) m.lng =
      lifted west u.lng + t * (lifted west v.lng - lifted west u.lng) := by
  obtain ⟨e, he, ⟨j, hj⟩, k, hk⟩ := h.lng
  obtain ⟨i, hi⟩ := exists_lifted_eq west u.lng
  obtain ⟨i', hi'⟩ := exists_lifted_eq west v.lng
  have hu₀ := le_lifted west u.lng
  have hv₀ := le_lifted west v.lng
  have hway : e = lifted west v.lng - lifted west u.lng := by
    refine eq_of_short (k := j + i - i') he (abs_le.2 ⟨by linarith, by linarith⟩) ?_
    rw [hj, hi, hi']
    push_cast
    ring
  have hpart : m.lng + 360 * ((i - k : ℤ) : ℚ) =
      lifted west u.lng + t * (lifted west v.lng - lifted west u.lng) := by
    rw [hk, ← hway, hi]
    push_cast
    ring
  obtain ⟨hlow, hhigh⟩ := part_between h₀ h₁ (lifted west u.lng) (lifted west v.lng)
  have hwest : west ≤ min (lifted west u.lng) (lifted west v.lng) := le_min hu₀ hv₀
  have heast : max (lifted west u.lng) (lifted west v.lng) ≤ west + 179 := max_le hu hv
  rw [lifted_eq_of_mem (k := i - k), hpart]
  · rw [hpart]
    linarith
  · rw [hpart]
    linarith

/-- **A location on the way is on the side** in the map of an arc. -/
theorem flat_of_onWay (h : OnWay t u v m) (h₀ : 0 ≤ t) (h₁ : t ≤ 1)
    (hu : lifted west u.lng ≤ west + 179) (hv : lifted west v.lng ≤ west + 179) :
    flat (west - 90) m = along (flat west u) (flat west v) t := by
  simp only [flat, along, lifted_of_onWay h h₀ h₁ hu hv, h.lat, Offset.mk.injEq]
  constructor <;> ring

end Map

/-! ### Polygons -/

/-- **A polygon contains its boundary.**  The polygon lies on an arc of at most 179 degrees, which
may go across the 180th meridian, and the location is on the way from one vertex to the next or from
the last one back to the first, however its longitude is written. -/
theorem Polygon.contains_onWay (g : Polygon ℚ) {u v m : Location ℚ} {t : ℚ}
    (hg : ∀ w ∈ g.vertices, |w.lng| ≤ 180) (harc : WithinArc 179 g.vertices)
    (hside : (u, v) ∈ edges g.vertices) (h₀ : 0 ≤ t) (h₁ : t ≤ 1) (hm : OnWay t u v m)
    (hlng : |m.lng| ≤ 180) : g.contains m = true := by
  obtain ⟨west, hwest⟩ := harc.lifted_le (by norm_num)
  obtain ⟨hu, hv⟩ : u ∈ g.vertices ∧ v ∈ g.vertices := mem_of_mem_edges hside
  have hflat : (flat west u, flat west v) ∈ edges (g.vertices.map (flat west)) := by
    rw [edges_map]
    exact List.mem_map_of_mem hside
  rw [Polygon.contains_eq_flat hg hwest hlng,
    flat_of_onWay hm h₀ h₁ (hwest u hu) (hwest v hv)]
  exact encloses_along tolerance_nonneg h₀ h₁ hflat

/-- A third of the way along the side that crosses the 180th meridian, and in the middle of the one
that closes the triangle, which goes across it, too. -/
theorem dateline_contains_boundary :
    WithinArc 179 datelineTriangle.vertices ∧
      OnWay (1 / 3) ⟨10, 180⟩ ⟨0, -170⟩ ⟨20 / 3, -530 / 3⟩ ∧
      datelineTriangle.contains ⟨20 / 3, -530 / 3⟩ = true ∧
      OnWay (1 / 2) ⟨0, -170⟩ ⟨0, 170⟩ ⟨0, -180⟩ ∧ datelineTriangle.contains ⟨0, -180⟩ = true := by
  have hlng : ∀ w ∈ datelineTriangle.vertices, |w.lng| ≤ 180 := by decide +kernel
  have hthird : OnWay (1 / 3) ⟨10, 180⟩ ⟨0, -170⟩ ⟨20 / 3, -530 / 3⟩ :=
    ⟨by norm_num, 10, by norm_num, ⟨1, by norm_num⟩, -1, by norm_num⟩
  have hmiddle : OnWay (1 / 2) ⟨0, -170⟩ ⟨0, 170⟩ ⟨0, -180⟩ :=
    ⟨by norm_num, -20, by norm_num, ⟨-1, by norm_num⟩, 0, by norm_num⟩
  refine ⟨dateline_withinArc, hthird, ?_, hmiddle, ?_⟩
  · exact Polygon.contains_onWay _ hlng dateline_withinArc (by simp [edges, datelineTriangle])
      (by norm_num) (by norm_num) hthird (by decide +kernel)
  · exact Polygon.contains_onWay _ hlng dateline_withinArc (by simp [edges, datelineTriangle])
      (by norm_num) (by norm_num) hmiddle (by decide +kernel)

end Geofence
