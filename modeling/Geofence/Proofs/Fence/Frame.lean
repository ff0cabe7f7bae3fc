/-
The frame of a polygon.

A polygon is judged in the frame of its westmost vertex.  Which of several westmost vertices that is
depends on the order of the vertices, but not their longitude, and of the origin of a frame only the
longitude matters: another latitude moves all points alike.  So a polygon may be judged in the frame
of any location on the meridian of its western end.

Main results:

* `Geofence.Polygon.origin_mem`, `Geofence.Polygon.origin_lng_le` — the origin is a vertex, and no
  vertex lies to the west of it;
* `Geofence.Polygon.contains_eq_encloses` — judging a polygon in another frame.
-/

import Geofence.Proofs.Fence.Winding

set_option relaxedAutoImplicit false
set_option autoImplicit false

namespace Geofence

/-! ### The origin -/

theorem Polygon.westmost_mem {α : Type} [LT α] [DecidableLT α] (first : Location α)
    (rest : List (Location α)) : westmost first rest ∈ first :: rest := by
  induction rest generalizing first with
  | nil => exact List.mem_cons_self ..
  | cons v rest ih =>
      have h := ih (if v.lng < first.lng then v else first)
      rw [westmost, List.foldl_cons, ← westmost]
      rcases List.mem_cons.1 h with h | h
      · rw [h]
        split_ifs <;> simp
      · exact List.mem_cons_of_mem _ (List.mem_cons_of_mem _ h)

/-- The origin of a polygon's frame is one of its vertices. -/
theorem Polygon.origin_mem {α : Type} [LT α] [DecidableLT α] (g : Polygon α) :
    g.origin ∈ g.vertices := by
  obtain ⟨vs, hvs⟩ := g
  cases vs with
  | nil => simp at hvs
  | cons first rest => exact Polygon.westmost_mem first rest

theorem Polygon.westmost_lng_le (first : Location ℚ) (rest : List (Location ℚ)) :
    ∀ v ∈ first :: rest, (westmost first rest).lng ≤ v.lng := by
  induction rest generalizing first with
  | nil => simp [westmost]
  | cons w rest ih =>
      intro v hv
      have hbest := ih (if w.lng < first.lng then w else first)
      rw [westmost, List.foldl_cons, ← westmost]
      have hle := hbest _ (List.mem_cons_self ..)
      rcases List.mem_cons.1 hv with rfl | hv
      · split_ifs at hle ⊢ with h
        · exact hle.trans h.le
        · exact hle
      · rcases List.mem_cons.1 hv with rfl | hv
        · split_ifs at hle ⊢ with h
          · exact hle
          · exact hle.trans (not_lt.1 h)
        · exact hbest v (List.mem_cons_of_mem _ hv)

/-- No vertex lies to the west of the origin. -/
theorem Polygon.origin_lng_le (g : Polygon ℚ) {v : Location ℚ} (hv : v ∈ g.vertices) :
    g.origin.lng ≤ v.lng := by
  obtain ⟨vs, hvs⟩ := g
  cases vs with
  | nil => simp at hvs
  | cons first rest => exact Polygon.westmost_lng_le first rest v hv

/-! ### Frames of one meridian -/

/-- The frames of two origins on one meridian differ by a translation. -/
theorem project_of_lng_eq {o o' : Location ℚ} (h : o.lng = o'.lng) (p : Location ℚ) :
    project Gauge.scale o p =
      (project Gauge.scale o' p).moved ⟨(o'.lat - o.lat) * Gauge.scale, 0⟩ := by
  simp only [project, h, Offset.moved, Offset.mk.injEq, add_zero, and_true]
  ring

/-- **Judging a polygon in another frame**: the origin may be any location on the meridian of the
westmost vertex. -/
theorem Polygon.contains_eq_encloses (g : Polygon ℚ) {o : Location ℚ} (h : o.lng = g.origin.lng)
    (p : Location ℚ) :
    g.contains p = encloses Gauge.tolerance (g.vertices.map (project Gauge.scale o))
      (project Gauge.scale o p) := by
  have hring : g.ring = (g.vertices.map (project Gauge.scale o)).map
      (·.moved ⟨(o.lat - g.origin.lat) * Gauge.scale, 0⟩) := by
    rw [List.map_map]
    exact List.map_congr_left fun v _ => project_of_lng_eq h.symm v
  rw [Polygon.contains, hring, project_of_lng_eq h.symm, encloses_moved]

end Geofence
