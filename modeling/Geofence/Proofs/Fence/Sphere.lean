/-
Locations without a distance.

The haversine formula asks for the sines and cosines of four angles and for two square roots.  An
angle is a difference of coordinates or a coordinate, brought to radians; with a finite center it is
infinite exactly if a difference is, which takes an infinite coordinate or one near the end of the
range.  The square roots are those of the computed square of half the chord and of its complement
to one: both are at least zero in exact arithmetic, and rounding may take either below.

Main definitions:

* `Geofence.Location.NoDistance` — no distance is computed between two locations.

Main results:

* `Geofence.Location.exists_distance_iff` — it covers all failures of the formula;
* `Geofence.Location.noDistance_iff_of_isModerate` — for coordinates away from the end of the range,
  only the square roots fail.
-/

import Geofence.Fence.Circle
import Geofence.Proofs.Encoding.RoundTrip
import Geofence.Proofs.Number.Range
import Geofence.Proofs.Success

set_option relaxedAutoImplicit false
set_option autoImplicit false

namespace Geofence

open Elementary

/-! ### Elementary functions -/

/-- A function that gives back what is no number and refuses the infinite numbers. -/
theorem exists_guarded_iff (f : Float → Float) {x : Float} :
    (∃ y, (if x.isNaN then .ok x else if x.isInf then .error DomainError.outside else .ok (f x)) =
      Except.ok y) ↔ x.isInf = false := by
  split_ifs with hnan hinf
  · exact iff_of_true ⟨x, rfl⟩ (Binary64.isInf_of_isNaN hnan)
  · simp [hinf]
  · simp [hinf]

theorem exists_sine_iff {x : Float} : (∃ y, sine x = .ok y) ↔ x.isInf = false :=
  exists_guarded_iff Float.sin

theorem exists_cosine_iff {x : Float} : (∃ y, cosine x = .ok y) ↔ x.isInf = false :=
  exists_guarded_iff Float.cos

theorem exists_squareRoot_iff {x : Float} : (∃ y, squareRoot x = .ok y) ↔ ¬x < 0 := by
  simp only [squareRoot]
  split_ifs with hnan hneg
  · exact iff_of_true ⟨x, rfl⟩ (Binary64.not_lt_of_isNaN hnan 0)
  · simp [hneg]
  · simp [hneg]

/-! ### Angles -/

/-- The factor from degrees to radians is `5030569068109113 * 2 ^ (-58)`. -/
theorem isInf_mul_radian (x : Float) : (x * radian).isInf = x.isInf := by
  have hradian : (radian : Float).toModel.unpack =
      .finite .positive 5030569068109113 (-58) (by decide) := by rfl
  exact Binary64.isInf_mul x hradian (by decide) (by decide +kernel)

theorem isInf_div_two (x : Float) : (x / two).isInf = x.isInf := by
  have htwo : (two : Float).toModel.unpack = .finite .positive (2 ^ 52) (-51) (by decide) := by
    rfl
  exact Binary64.isInf_div x htwo (by decide +kernel)

/-- The square of half the chord is computed unless one of its angles is infinite. -/
theorem exists_halfChordSquared_iff {lat lng lat' lng' : Float} :
    (∃ a, halfChordSquared lat lng lat' lng' = .ok a) ↔
      (lat' - lat).isInf = false ∧ lat.isInf = false ∧ lat'.isInf = false ∧
        (lng' - lng).isInf = false := by
  have hnorth := exists_sine_iff (x := (lat' - lat) * radian / two)
  have hlevel := exists_cosine_iff (x := lat * radian)
  have hlevel' := exists_cosine_iff (x := lat' * radian)
  have heast := exists_sine_iff (x := (lng' - lng) * radian / two)
  simp only [isInf_div_two, isInf_mul_radian] at hnorth hlevel hlevel' heast
  rw [← hnorth, ← hlevel, ← hlevel', ← heast, halfChordSquared]
  constructor
  · rintro ⟨a, ha⟩
    obtain ⟨north, hn, ha⟩ := bind_eq_ok_iff.mp ha
    obtain ⟨level, hl, ha⟩ := bind_eq_ok_iff.mp ha
    obtain ⟨level', hl', ha⟩ := bind_eq_ok_iff.mp ha
    obtain ⟨east, he, -⟩ := bind_eq_ok_iff.mp ha
    exact ⟨⟨north, hn⟩, ⟨level, hl⟩, ⟨level', hl'⟩, ⟨east, he⟩⟩
  · rintro ⟨⟨north, hn⟩, ⟨level, hl⟩, ⟨level', hl'⟩, ⟨east, he⟩⟩
    rw [hn, hl, hl', he]
    exact ⟨_, rfl⟩

/-! ### Distances -/

namespace Location

/-- No distance from `c` to `p` is computed: a difference of coordinates is infinite, or rounding
takes the square of half the chord or its complement to one below zero. -/
def NoDistance (c p : Location Float) : Prop :=
  (p.lat - c.lat).isInf = true ∨ (p.lng - c.lng).isInf = true ∨
    ∃ a, halfChordSquared c.lat c.lng p.lat p.lng = .ok a ∧ (a < 0 ∨ one - a < 0)

theorem exists_distance_iff_halfChordSquared {c p : Location Float} :
    (∃ d, c.distance p = .ok d) ↔
      ∃ a, halfChordSquared c.lat c.lng p.lat p.lng = .ok a ∧ ¬a < 0 ∧ ¬one - a < 0 := by
  simp only [← exists_squareRoot_iff]
  constructor
  · rintro ⟨d, hd⟩
    obtain ⟨a, ha, hd⟩ := bind_eq_ok_iff.mp hd
    obtain ⟨near, hnear, hd⟩ := bind_eq_ok_iff.mp hd
    obtain ⟨far, hfar, -⟩ := bind_eq_ok_iff.mp hd
    exact ⟨a, ha, ⟨near, hnear⟩, far, hfar⟩
  · rintro ⟨a, ha, ⟨near, hnear⟩, far, hfar⟩
    exact ⟨_, bind_eq_ok_iff.mpr ⟨a, ha, bind_eq_ok_iff.mpr ⟨near, hnear,
      bind_eq_ok_iff.mpr ⟨far, hfar, rfl⟩⟩⟩⟩

/-- **All failures of the distance** from a finite location. -/
theorem exists_distance_iff {c : Location Float} (hc : c.IsFinite) (p : Location Float) :
    (∃ d, c.distance p = .ok d) ↔ ¬c.NoDistance p := by
  rw [exists_distance_iff_halfChordSquared]
  constructor
  · rintro ⟨a, ha, hnear, hfar⟩ (hlat | hlng | ⟨b, hb, hneg⟩)
    · have := exists_halfChordSquared_iff.mp ⟨a, ha⟩
      rw [hlat] at this
      exact Bool.false_ne_true this.1.symm
    · have := exists_halfChordSquared_iff.mp ⟨a, ha⟩
      rw [hlng] at this
      exact Bool.false_ne_true this.2.2.2.symm
    · obtain rfl := Except.ok.inj (ha.symm.trans hb)
      exact hneg.elim hnear hfar
  · intro h
    have hlat : (p.lat - c.lat).isInf = false := Bool.eq_false_iff.mpr fun h' => h (.inl h')
    have hlng : (p.lng - c.lng).isInf = false :=
      Bool.eq_false_iff.mpr fun h' => h (.inr (.inl h'))
    -- an infinite latitude would make the difference infinite
    have hp : p.lat.isInf = false := by
      by_contra hinf
      rw [Binary64.isInf_sub (Bool.eq_true_of_not_eq_false hinf) hc.1] at hlat
      cases hlat
    obtain ⟨a, ha⟩ := exists_halfChordSquared_iff.mpr
      ⟨hlat, Binary64.isInf_eq_false hc.1, hp, hlng⟩
    exact ⟨a, ha, fun hneg => h (.inr (.inr ⟨a, ha, .inl hneg⟩)),
      fun hneg => h (.inr (.inr ⟨a, ha, .inr hneg⟩))⟩

/-- There is no distance to a location with an infinite coordinate. -/
theorem noDistance_of_isInf {c p : Location Float} (hc : c.IsFinite)
    (hp : p.lat.isInf = true ∨ p.lng.isInf = true) : c.NoDistance p := by
  obtain hlat | hlng := hp
  · exact .inl (Binary64.isInf_sub hlat hc.1)
  · exact .inr (.inl (Binary64.isInf_sub hlng hc.2))

/-- Both coordinates keep away from the end of the range. -/
def IsModerate (p : Location Float) : Prop :=
  Binary64.magnitude p.lat < 2 ^ 1022 ∧ Binary64.magnitude p.lng < 2 ^ 1022

/-- For coordinates away from the end of the range, only the square roots fail. -/
theorem noDistance_iff_of_isModerate {c p : Location Float} (hc : c.IsModerate)
    (hp : p.IsModerate) :
    c.NoDistance p ↔
      ∃ a, halfChordSquared c.lat c.lng p.lat p.lng = .ok a ∧ (a < 0 ∨ one - a < 0) := by
  have hlat : (p.lat - c.lat).isInf = false := Binary64.isInf_sub_of_magnitude_lt hp.1 hc.1
  have hlng : (p.lng - c.lng).isInf = false := Binary64.isInf_sub_of_magnitude_lt hp.2 hc.2
  rw [NoDistance, hlat, hlng]
  simp only [Bool.false_eq_true, false_or]

end Location

end Geofence
