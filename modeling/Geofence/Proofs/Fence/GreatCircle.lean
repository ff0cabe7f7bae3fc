/-
Distances in exact arithmetic.

Read over the real numbers, the haversine formula is about two places on the unit sphere.  What it
calls the square of half the chord is half of one less the inner product of the two, and therefore
lies between zero and one whatever the latitudes are; the two square roots are the sine and the
cosine of half the angle between the places, so that the formula gives the angle times the radius of
the earth.  That distances are symmetric, bounded by half a great circle, unchanged by full turns
and zero for one place only is what angles between unit vectors are like.

Main definitions:

* the elementary functions of the real numbers;
* `Geofence.Location.place` — the place of a location on the unit sphere.

Main results:

* `Geofence.Location.halfChordSquared_eq` — the chord of two places;
* `Geofence.Location.distance_eq` — **the distance is the length of the great circle between them**;
* `Geofence.Location.distance_real` — what follows from this.
-/

import Geofence.Fence.Sphere
import Geofence.Proofs.Success

set_option relaxedAutoImplicit false
set_option autoImplicit false

namespace Geofence

open Elementary

/-- The functions of the real numbers.  Only the square root refuses an argument; the angle is that
of a complex number. -/
noncomputable instance : Elementary ℝ where
  one := 1
  two := 2
  earthRadius := 6371000
  radian := Real.pi / 180
  sine x := .ok (Real.sin x)
  cosine x := .ok (Real.cos x)
  squareRoot x := if x < 0 then .error .outside else .ok (Real.sqrt x)
  square x := x ^ 2
  angle y x := Complex.arg ⟨x, y⟩

theorem squareRoot_of_nonneg {x : ℝ} (h : 0 ≤ x) : squareRoot x = .ok (Real.sqrt x) :=
  if_neg (not_lt.mpr h)

namespace Location

/-! ### Places -/

/-- The place of a location on the unit sphere: the first axis goes through latitude and longitude
zero, the third one through the north pole. -/
noncomputable def place (p : Location ℝ) : EuclideanSpace ℝ (Fin 3) :=
  !₂[Real.cos (p.lat * radian) * Real.cos (p.lng * radian),
    Real.cos (p.lat * radian) * Real.sin (p.lng * radian), Real.sin (p.lat * radian)]

theorem inner_place (p q : Location ℝ) :
    inner ℝ p.place q.place =
      Real.cos (p.lat * radian) * Real.cos (q.lat * radian) *
          Real.cos (q.lng * radian - p.lng * radian) +
        Real.sin (p.lat * radian) * Real.sin (q.lat * radian) := by
  simp only [place, EuclideanSpace.inner_eq_star_dotProduct, dotProduct, Fin.sum_univ_three]
  simp [Real.cos_sub]
  ring

theorem norm_place (p : Location ℝ) : ‖p.place‖ = 1 := by
  have hinner : inner ℝ p.place p.place = 1 := by
    rw [inner_place, sub_self, Real.cos_zero, mul_one, ← sq, ← sq, Real.cos_sq_add_sin_sq]
  rw [← sq_eq_sq₀ (norm_nonneg _) zero_le_one, ← real_inner_self_eq_norm_sq, hinner, one_pow]

/-- Full turns do not change a place. -/
theorem place_turned (lat lng : ℝ) (k : ℤ) : place ⟨lat, lng + 360 * k⟩ = place ⟨lat, lng⟩ := by
  have hturn : (lng + 360 * k) * radian = lng * radian + k * (2 * Real.pi) := by
    simp only [radian]
    ring
  simp only [place, hturn, Real.cos_add_int_mul_two_pi, Real.sin_add_int_mul_two_pi]

/-! ### Chords -/

/-- **The square of half the chord** of two places. -/
theorem halfChordSquared_eq (p q : Location ℝ) :
    halfChordSquared p.lat p.lng q.lat q.lng = .ok ((1 - inner ℝ p.place q.place) / 2) := by
  have hsquare : ∀ x : ℝ, Real.sin (x / 2) ^ 2 = 1 / 2 - Real.cos x / 2 := by
    intro x
    rw [Real.sin_sq_eq_half_sub, mul_div_cancel₀ x two_ne_zero]
  have hvalue : halfChordSquared p.lat p.lng q.lat q.lng =
      .ok (Real.sin ((q.lat - p.lat) * radian / 2) ^ 2 +
        Real.cos (p.lat * radian) * Real.cos (q.lat * radian) *
          Real.sin ((q.lng - p.lng) * radian / 2) ^ 2) := rfl
  rw [hvalue, hsquare, hsquare, inner_place, sub_mul, sub_mul, Real.cos_sub (q.lat * radian)]
  congr 1
  ring

/-! ### Angles -/

/-- The angle between two places. -/
noncomputable def angleTo (p q : Location ℝ) : ℝ := InnerProductGeometry.angle p.place q.place

theorem inner_place_eq_cos (p q : Location ℝ) :
    inner ℝ p.place q.place = Real.cos (p.angleTo q) :=
  InnerProductGeometry.inner_eq_cos_angle_of_norm_eq_one p.norm_place q.norm_place

theorem angleTo_nonneg (p q : Location ℝ) : 0 ≤ p.angleTo q :=
  InnerProductGeometry.angle_nonneg _ _

theorem angleTo_le_pi (p q : Location ℝ) : p.angleTo q ≤ Real.pi :=
  InnerProductGeometry.angle_le_pi _ _

theorem angleTo_comm (p q : Location ℝ) : p.angleTo q = q.angleTo p :=
  InnerProductGeometry.angle_comm _ _

theorem angleTo_eq_zero_iff {p q : Location ℝ} : p.angleTo q = 0 ↔ p.place = q.place := by
  constructor
  · intro h
    apply InnerProductGeometry.eq_of_angle_eq_zero_of_norm_eq h
    rw [norm_place, norm_place]
  · intro h
    have hne : q.place ≠ 0 := by
      intro hzero
      have hnorm := q.norm_place
      rw [hzero, norm_zero] at hnorm
      exact zero_ne_one hnorm
    rw [angleTo, h, InnerProductGeometry.angle_self hne]

/-- The two square roots are the sine and the cosine of half the angle. -/
theorem sqrt_halfChord {θ : ℝ} (h₀ : 0 ≤ θ) (hπ : θ ≤ Real.pi) :
    Real.sqrt ((1 - Real.cos θ) / 2) = Real.sin (θ / 2) ∧
      Real.sqrt (1 - (1 - Real.cos θ) / 2) = Real.cos (θ / 2) := by
  have hpi := Real.pi_pos
  constructor
  · rw [Real.sin_half_eq_sqrt h₀ (by linarith)]
  · rw [Real.cos_half (by linarith) hπ]
    congr 1
    ring

/-- The angle of the two square roots is half the angle. -/
theorem angle_sqrt_halfChord {θ : ℝ} (h₀ : 0 ≤ θ) (hπ : θ ≤ Real.pi) :
    angle (Real.sin (θ / 2)) (Real.cos (θ / 2)) = θ / 2 := by
  have hpi := Real.pi_pos
  have hpoint : (⟨Real.cos (θ / 2), Real.sin (θ / 2)⟩ : ℂ) =
      Complex.cos (θ / 2 : ℝ) + Complex.sin (θ / 2 : ℝ) * Complex.I := by
    rw [← Complex.ofReal_cos, ← Complex.ofReal_sin]
    exact Complex.mk_eq_add_mul_I _ _
  have harg : angle (Real.sin (θ / 2)) (Real.cos (θ / 2)) =
      Complex.arg ⟨Real.cos (θ / 2), Real.sin (θ / 2)⟩ := rfl
  rw [harg, hpoint, Complex.arg_cos_add_sin_mul_I ⟨by linarith, by linarith⟩]

/-! ### Distances -/

/-- **The distance is the length of the great circle** between two places. -/
theorem distance_eq (p q : Location ℝ) : p.distance q = .ok (earthRadius * p.angleTo q) := by
  set θ := p.angleTo q with hθ
  have h₀ : 0 ≤ θ := p.angleTo_nonneg q
  have hπ : θ ≤ Real.pi := p.angleTo_le_pi q
  have hcos := Real.neg_one_le_cos θ
  have hcos' := Real.cos_le_one θ
  have ha : halfChordSquared p.lat p.lng q.lat q.lng = .ok ((1 - Real.cos θ) / 2) := by
    rw [halfChordSquared_eq, inner_place_eq_cos]
  have hnear : squareRoot ((1 - Real.cos θ) / 2) = .ok (Real.sin (θ / 2)) := by
    rw [squareRoot_of_nonneg (by linarith), (sqrt_halfChord h₀ hπ).1]
  have hfar : squareRoot (one - (1 - Real.cos θ) / 2) = .ok (Real.cos (θ / 2)) := by
    have hone : (one : ℝ) = 1 := rfl
    rw [hone, squareRoot_of_nonneg (by linarith), (sqrt_halfChord h₀ hπ).2]
  have htwice : two * angle (Real.sin (θ / 2)) (Real.cos (θ / 2)) = θ := by
    rw [angle_sqrt_halfChord h₀ hπ]
    exact mul_div_cancel₀ θ two_ne_zero
  rw [distance, haversine]
  refine bind_eq_ok_iff.mpr ⟨_, ha, bind_eq_ok_iff.mpr ⟨_, hnear, bind_eq_ok_iff.mpr ⟨_, hfar, ?_⟩⟩⟩
  rw [htwice]
  rfl

/-- **Distances over the real numbers.**  Whatever the coordinates are, the square of half the chord
lies between zero and one, so that both square roots are taken, and a distance is given.  It is
symmetric, at least zero and at most half a great circle, does not change when either longitude
does by full turns, and is zero exactly if the two locations are the same place. -/
theorem distance_real (p q : Location ℝ) :
    (∃ a, halfChordSquared p.lat p.lng q.lat q.lng = .ok a ∧ 0 ≤ a ∧ a ≤ 1) ∧
      ∃ d, p.distance q = .ok d ∧ q.distance p = .ok d ∧ 0 ≤ d ∧ d ≤ Real.pi * 6371000 ∧
        (∀ j k : ℤ,
          distance ⟨p.lat, p.lng + 360 * j⟩ ⟨q.lat, q.lng + 360 * k⟩ = .ok d) ∧
        (d = 0 ↔ p.place = q.place) := by
  have hradius : (earthRadius : ℝ) = 6371000 := rfl
  refine ⟨⟨_, halfChordSquared_eq p q, ?_, ?_⟩, _, distance_eq p q, ?_, ?_, ?_, ?_, ?_⟩
  · rw [inner_place_eq_cos]
    linarith [Real.cos_le_one (p.angleTo q)]
  · rw [inner_place_eq_cos]
    linarith [Real.neg_one_le_cos (p.angleTo q)]
  · rw [distance_eq, angleTo_comm]
  · rw [hradius]
    exact mul_nonneg (by norm_num) (p.angleTo_nonneg q)
  · rw [hradius, mul_comm]
    exact mul_le_mul_of_nonneg_right (p.angleTo_le_pi q) (by norm_num)
  · intro j k
    rw [distance_eq, angleTo, place_turned, place_turned, angleTo]
  · rw [hradius, mul_eq_zero, angleTo_eq_zero_iff]
    exact or_iff_right (by norm_num)

end Location

end Geofence
