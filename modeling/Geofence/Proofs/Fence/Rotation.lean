/-
Turning the globe.

A polygon on an arc somewhat shorter than a half turn looks the same from any of its vertices:
lifted into the full turn that starts at the western end of the arc, its longitudes differ as they
do in the frame of its origin.  A point is lifted likewise, into the turn with the arc in its
middle.  When it comes to lie near the arc, it is in the frame where it is lifted to; when it does
not, it is in the frame on one side of the polygon or the other, and not contained either way.  So
the answer only depends on lifted longitudes, and these go along when the globe is turned.

Main definitions:

* `Geofence.flat` — a location on the map that starts at a meridian;
* `Geofence.Turned` — a location and where a turn of the globe takes it.

Main results:

* `Geofence.Polygon.contains_eq_flat` — a polygon on an arc is judged on the map;
* `Geofence.Polygon.contains_turned` — turning the globe does not change the answer.
-/

import Geofence.Proofs.Fence.Frame
import Geofence.Proofs.Plane.Longitude

set_option relaxedAutoImplicit false
set_option autoImplicit false

namespace Geofence

/-! ### The map -/

/-- A location on the map that starts at the meridian `west`. -/
noncomputable def flat (west : ℚ) (v : Location ℚ) : Offset ℚ :=
  ⟨v.lat * Gauge.scale, lifted west v.lng * Gauge.scale⟩

/-- The way back to an origin. -/
def Offset.back (o : Offset ℚ) : Offset ℚ := ⟨-o.x, -o.y⟩

/-- Locations that are lifted to less than a half turn of each other lie in the frame as they do on
the map. -/
theorem project_eq_flat {west west' : ℚ} {o v : Location ℚ} (ho : |o.lng| ≤ 180)
    (hv : |v.lng| ≤ 180) (h : |lifted west' v.lng - lifted west o.lng| ≤ 359 / 2) :
    project Gauge.scale o v = (flat west' v).moved (flat west o).back := by
  obtain ⟨j, hj⟩ := exists_lifted_eq west o.lng
  obtain ⟨k, hk⟩ := exists_lifted_eq west' v.lng
  have hdiff : lifted west' v.lng - lifted west o.lng =
      v.lng - o.lng + 360 * ((k - j : ℤ) : ℚ) := by
    rw [hj, hk]
    push_cast
    ring
  have heast : eastward o.lng v.lng = lifted west' v.lng - lifted west o.lng := by
    rw [hdiff] at h ⊢
    exact eastward_eq_of_short ho hv h
  simp only [project, heast, flat, Offset.moved, Offset.back, Offset.mk.injEq]
  constructor <;> ring

/-! ### Polygons on an arc -/

section Arc

variable {g : Polygon ℚ} {west : ℚ}

/-- In the frame of its origin, a polygon on an arc looks as on the map. -/
theorem Polygon.ring_eq_flat (hg : ∀ v ∈ g.vertices, |v.lng| ≤ 180)
    (harc : ∀ v ∈ g.vertices, lifted west v.lng ≤ west + 179) :
    g.ring = (g.vertices.map (flat west)).map (·.moved (flat west g.origin).back) := by
  rw [List.map_map]
  refine List.map_congr_left fun v hv => ?_
  refine project_eq_flat (hg _ g.origin_mem) (hg v hv) (abs_le.2 ⟨?_, ?_⟩)
  · linarith [harc _ g.origin_mem, le_lifted west v.lng]
  · linarith [harc v hv, le_lifted west g.origin.lng]

/-- A location whose longitude, lifted into the turn with the arc in its middle, is not near the
arc lies beyond all vertices of the polygon in its frame. -/
theorem Polygon.contains_eq_false_of_far (hg : ∀ v ∈ g.vertices, |v.lng| ≤ 180)
    (harc : ∀ v ∈ g.vertices, lifted west v.lng ≤ west + 179) {p : Location ℚ}
    (hfar : lifted (west - 90) p.lng < west - 1 / 2 ∨
      west + 359 / 2 < lifted (west - 90) p.lng) : g.contains p = false := by
  obtain ⟨i, hi⟩ := eastward_near g.origin.lng p.lng
  obtain ⟨j, hj⟩ := exists_lifted_eq west g.origin.lng
  obtain ⟨k, hk⟩ := exists_lifted_eq (west - 90) p.lng
  -- the longitude that the frame puts the location at, on the map
  obtain ⟨E, hE⟩ : ∃ E, E = lifted west g.origin.lng + eastward g.origin.lng p.lng := ⟨_, rfl⟩
  have hnear : |E - (lifted (west - 90) p.lng + 360 * ((i + j - k : ℤ) : ℚ))| ≤
      2 * Gauge.tolerance := by
    convert! hi using 2
    rw [hE, hj, hk]
    push_cast
    ring
  have hτ : (Gauge.tolerance : ℚ) ≤ 1 / 10 := by norm_num
  obtain ⟨hlow, hhigh⟩ := abs_le.1 hnear
  have hp₀ := le_lifted (west - 90) p.lng
  have hp₁ := lifted_lt (west - 90) p.lng
  have hbeyond : E < west - 1 / 4 ∨ west + 179 < E := by
    rcases lt_trichotomy (i + j - k) 0 with hz | hz | hz
    · have hz' : ((i + j - k : ℤ) : ℚ) ≤ -1 := by exact_mod_cast Int.le_sub_one_of_lt hz
      left
      linarith
    · rw [hz, Int.cast_zero, mul_zero, add_zero] at hlow hhigh
      rcases hfar with hf | hf
      · left
        linarith
      · right
        linarith
    · have hz' : (1 : ℚ) ≤ ((i + j - k : ℤ) : ℚ) := by exact_mod_cast hz
      right
      linarith
  rw [Polygon.contains, Polygon.ring_eq_flat hg harc]
  refine encloses_eq_false_of_beyond tolerance_nonneg (hbeyond.imp ?_ ?_)
  · intro hE' w hw
    obtain ⟨u, hu, rfl⟩ := List.mem_map.1 hw
    obtain ⟨v, hv, rfl⟩ := List.mem_map.1 hu
    have hv₀ := le_lifted west v.lng
    simp only [Above, project, flat, Offset.moved, Offset.back, scale_rat]
    linarith
  · intro hE' w hw
    obtain ⟨u, hu, rfl⟩ := List.mem_map.1 hw
    obtain ⟨v, hv, rfl⟩ := List.mem_map.1 hu
    have hv₁ := harc v hv
    simp only [project, flat, Offset.moved, Offset.back, scale_rat]
    linarith

/-- **A polygon on an arc is judged on the map** that starts at the western end of the arc, with
the location lifted into the turn that has the arc in its middle. -/
theorem Polygon.contains_eq_flat (hg : ∀ v ∈ g.vertices, |v.lng| ≤ 180)
    (harc : ∀ v ∈ g.vertices, lifted west v.lng ≤ west + 179) {p : Location ℚ}
    (hp : |p.lng| ≤ 180) :
    g.contains p =
      encloses Gauge.tolerance (g.vertices.map (flat west)) (flat (west - 90) p) := by
  by_cases hfar : lifted (west - 90) p.lng < west - 1 / 2 ∨
      west + 359 / 2 < lifted (west - 90) p.lng
  · -- far from the arc it lies beyond all vertices on the map, too
    rw [Polygon.contains_eq_false_of_far hg harc hfar]
    refine (encloses_eq_false_of_beyond tolerance_nonneg (hfar.imp ?_ ?_)).symm
    · intro hf w hw
      obtain ⟨v, hv, rfl⟩ := List.mem_map.1 hw
      have hτ : (Gauge.tolerance : ℚ) ≤ 1 / 10 := by norm_num
      have hv₀ := le_lifted west v.lng
      simp only [Above, flat, scale_rat]
      linarith
    · intro hf w hw
      obtain ⟨v, hv, rfl⟩ := List.mem_map.1 hw
      have hv₁ := harc v hv
      simp only [flat, scale_rat]
      linarith
  · rw [not_or, not_lt, not_lt] at hfar
    have hclose : |lifted (west - 90) p.lng - lifted west g.origin.lng| ≤ 359 / 2 := by
      refine abs_le.2 ⟨?_, ?_⟩
      · linarith [harc _ g.origin_mem]
      · linarith [le_lifted west g.origin.lng]
    rw [Polygon.contains, Polygon.ring_eq_flat hg harc,
      project_eq_flat (hg _ g.origin_mem) hp hclose, encloses_moved]

end Arc

/-! ### Turning the globe -/

/-- A turn of the globe by `d` degrees to the east takes `p` to `q`: the latitude stays, and the
longitude grows by `d` up to full turns. -/
structure Turned (d : ℚ) (p q : Location ℚ) : Prop where
  lat : q.lat = p.lat
  lng : ∃ k : ℤ, q.lng = p.lng + d + 360 * k

theorem flat_of_turned {west d : ℚ} {p q : Location ℚ} (h : Turned d p q) :
    flat (west + d) q = (flat west p).moved ⟨0, d * Gauge.scale⟩ := by
  obtain ⟨k, hk⟩ := h.lng
  simp only [flat, Offset.moved, h.lat, lifted_turn hk, Offset.mk.injEq]
  constructor <;> ring

/-- The map of a turned list of locations is the map of the list, moved. -/
theorem map_flat_of_turned {west d : ℚ} {ps qs : List (Location ℚ)}
    (h : List.Forall₂ (Turned d) ps qs) :
    qs.map (flat (west + d)) = (ps.map (flat west)).map (·.moved ⟨0, d * Gauge.scale⟩) := by
  induction h with
  | nil => rfl
  | cons hpq _ ih => rw [List.map_cons, List.map_cons, List.map_cons, ih, flat_of_turned hpq]

/-- What a turn takes an arc to, lifted from the turned meridian, is as long as the arc. -/
theorem lifted_le_of_turned {west d width : ℚ} {ps qs : List (Location ℚ)}
    (h : List.Forall₂ (Turned d) ps qs) (harc : ∀ v ∈ ps, lifted west v.lng ≤ west + width) :
    ∀ w ∈ qs, lifted (west + d) w.lng ≤ west + d + width := by
  induction h with
  | nil => simp
  | @cons p q _ _ hpq _ ih =>
      obtain ⟨k, hk⟩ := hpq.lng
      intro w hw
      rcases List.mem_cons.1 hw with rfl | hw
      · rw [lifted_turn hk]
        linarith [harc p (List.mem_cons_self ..)]
      · exact ih (fun v hv => harc v (List.mem_cons_of_mem _ hv)) w hw

/-- **Turning the globe does not change the answer** of a polygon on an arc of at most 179 degrees,
wherever on the circle of longitudes the arc is taken to and however a longitude on the 180th
meridian is written. -/
theorem Polygon.contains_turned (d : ℚ) (g g' : Polygon ℚ) (p p' : Location ℚ)
    (hg : ∀ v ∈ g.vertices, |v.lng| ≤ 180) (hg' : ∀ v ∈ g'.vertices, |v.lng| ≤ 180)
    (hp : |p.lng| ≤ 180) (hp' : |p'.lng| ≤ 180) (harc : WithinArc 179 g.vertices)
    (hturn : List.Forall₂ (Turned d) g.vertices g'.vertices) (hturnp : Turned d p p') :
    g.contains p = g'.contains p' := by
  obtain ⟨west, hwest⟩ := harc.lifted_le (by norm_num)
  have hwest' := lifted_le_of_turned hturn hwest
  have hback : west + d - 90 = west - 90 + d := by ring
  rw [Polygon.contains_eq_flat hg hwest hp, Polygon.contains_eq_flat hg' hwest' hp',
    map_flat_of_turned hturn, hback, flat_of_turned hturnp, encloses_moved]

/-- A triangle across the 180th meridian. -/
def datelineTriangle : Polygon ℚ := ⟨[⟨0, 170⟩, ⟨10, 180⟩, ⟨0, -170⟩], by decide⟩

/-- The same triangle, turned to the prime meridian. -/
def primeTriangle : Polygon ℚ := ⟨[⟨0, -10⟩, ⟨10, 0⟩, ⟨0, 10⟩], by decide⟩

theorem dateline_withinArc : WithinArc 179 datelineTriangle.vertices := by
  refine ⟨170, ?_⟩
  simp only [datelineTriangle, List.forall_mem_cons, List.not_mem_nil, false_imp_iff, implies_true,
    and_true]
  exact ⟨⟨0, by norm_num⟩, ⟨0, by norm_num⟩, ⟨1, by norm_num⟩⟩

theorem dateline_turned :
    List.Forall₂ (Turned 180) datelineTriangle.vertices primeTriangle.vertices :=
  .cons ⟨rfl, -1, by norm_num⟩ (.cons ⟨rfl, -1, by norm_num⟩ (.cons ⟨rfl, 0, by norm_num⟩ .nil))

/-- A half turn takes the one triangle to the other, with a location inside. -/
theorem dateline_contains_turned :
    WithinArc 179 datelineTriangle.vertices ∧
      List.Forall₂ (Turned 180) datelineTriangle.vertices primeTriangle.vertices ∧
      Turned 180 ⟨1, -179⟩ ⟨1, 1⟩ ∧
      datelineTriangle.contains ⟨1, -179⟩ = primeTriangle.contains ⟨1, 1⟩ ∧
      primeTriangle.contains ⟨1, 1⟩ = true := by
  have hp : Turned 180 ⟨1, -179⟩ ⟨1, 1⟩ := ⟨rfl, 0, by norm_num⟩
  refine ⟨dateline_withinArc, dateline_turned, hp, ?_, by decide +kernel⟩
  exact Polygon.contains_turned 180 _ _ _ _ (by decide +kernel) (by decide +kernel)
    (by decide +kernel) (by decide +kernel) dateline_withinArc dateline_turned hp

end Geofence
