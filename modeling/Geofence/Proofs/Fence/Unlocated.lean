/-
Locations that are not finite.

A table may hold coordinates that are infinite or no numbers.  They are projected to points of the
plane that are not finite either, and such points are in no polygon with vertices on the globe: its
own points are finite and stay away from the end of the range.  A side goes through no such point,
for what lies between finite values is finite.  As to the turns: if the height of the point is not
finite, all points of the polygon lie above its level or none does, and no side crosses it; if the
other coordinate is no number, neither is any product, which leaves its sign zero; and if it is
infinite, a side that crosses the level has an infinite product, with a sign that its direction
tells.  Then from far to the north no side counts, and from far to the south every side counts that
crosses the level, upwards as often as downwards.

For a circle no number goes all the way through the distance formula, unless the other difference of
coordinates is infinite, which the sine refuses.

Main definitions:

* `Geofence.Offset.IsBounded` — points in the reach of a polygon on the globe;
* `Geofence.Location.OnGlobe` — latitudes and longitudes in their usual ranges.

Main results:

* `Geofence.turn_of_infinite`, `Geofence.exists_turn_eq_sub` — what a side adds;
* `Geofence.encloses_of_not_finite` — a point that is not finite is not enclosed;
* `Geofence.isBounded_project`, `Geofence.isFinite_of_project` — the projection;
* `Geofence.Circle.contains_of_isNaN` — circles and coordinates that are no numbers;
* `Geofence.fence_contains_of_not_finite` — locations that are not finite are in no fence.
-/

import Geofence.Fence.Basic
import Geofence.Proofs.Fence.Frame
import Geofence.Proofs.Fence.Sphere
import Geofence.Proofs.Number.Special
import Geofence.Track.Load

set_option relaxedAutoImplicit false
set_option autoImplicit false

namespace Geofence

open Binary64

/-! ### Signs -/

theorem sign_of_isNaN {v : Float} (h : v.isNaN = true) : sign Gauge.tolerance v = .zero := by
  rw [eq_notANumber h]
  decide +kernel

theorem sign_infinity (negative : Bool) :
    sign Gauge.tolerance (infinity negative) = if negative then .minus else .plus := by
  cases negative <;> decide +kernel

/-- Only a finite value lies between finite ones. -/
theorem isFinite_of_between_eq {a b v : Float} (ha : a.isFinite = true) (hb : b.isFinite = true)
    (h : between a b v = true) : v.isFinite = true := by
  simp only [between, Bool.and_eq_true, decide_eq_true_eq] at h
  refine isFinite_of_between ?_ ?_ h.1 h.2
  · split_ifs <;> assumption
  · split_ifs <;> assumption

/-! ### Bounded chains -/

/-- A point in the reach of a polygon on the globe. -/
structure Offset.IsBounded (v : Offset Float) : Prop where
  x : Bounded 20 v.x
  y : Bounded 20 v.y

section Bounded

variable {s a b : Offset Float}

/-- Between points of a bounded chain there are only finite points. -/
theorem isFinite_of_meets (ha : a.IsBounded) (hb : b.IsBounded)
    (h : Meets Gauge.tolerance s (a, b)) : s.x.isFinite = true ∧ s.y.isFinite = true := by
  rw [Meets, edgeTurn] at h
  split at h
  next =>
    split_ifs at h with hbox
    rw [Bool.and_eq_true] at hbox
    exact ⟨isFinite_of_between_eq ha.x.isFinite hb.x.isFinite hbox.1,
      isFinite_of_between_eq ha.y.isFinite hb.y.isFinite hbox.2⟩
  next => split_ifs at h
  next => split_ifs at h

/-! ### Heights that are not finite -/

/-- Of a point whose height is not finite, all points of a bounded chain lie above the level or
none. -/
theorem tops_iff_of_not_finite (hs : ¬s.y.isFinite = true) (ha : a.IsBounded) :
    Tops Gauge.tolerance s a ↔ s.y = infinity true := by
  rw [Tops]
  obtain hnan | ⟨negative, hinf⟩ := eq_of_not_finite hs
  · rw [hnan, sign_of_isNaN (isNaN_sub_right _ rfl)]
    decide +kernel
  · rw [hinf, sub_infinity ha.y.isFinite, sign_infinity]
    cases negative <;> decide +kernel

/-! ### Latitudes that are no number -/

theorem turn_of_isNaN (h : s.x.isNaN = true) : turn Gauge.tolerance s (a, b) = 0 :=
  turn_eq_zero_of_sign (sign_of_isNaN (isNaN_sub_right _ (isNaN_mul_right _ (isNaN_sub_left h _))))

/-! ### Latitudes that are infinite -/

/-- A side that rises above the level of a point does so in values. -/
theorem value_lt_of_rises (hs : s.y.isFinite = true) (ha : a.IsBounded) (hb : b.IsBounded)
    (hlow : ¬Tops Gauge.tolerance s a) (hhigh : Tops Gauge.tolerance s b) :
    value a.y < value b.y := by
  have hround := rounds_sub ha.y.isFinite hs
  have hround' := rounds_sub hb.y.isFinite hs
  rw [tops_iff, not_lt_iff_le (by decide +kernel) hround.isNaN] at hlow
  rw [tops_iff] at hhigh
  have hlt := hround.lt_of_lt hround' (float_lt_of_le_of_lt hlow hhigh)
  linarith

/-- A point is not far below the sides that cross its level, and not above them. -/
theorem bounded_of_rises (hs : s.y.isFinite = true) (ha : a.IsBounded) (hb : b.IsBounded)
    (hlow : ¬Tops Gauge.tolerance s a) (hhigh : Tops Gauge.tolerance s b) : Bounded 21 s.y := by
  have hone : (1 : Float).isFinite = true ∧ value 1 = 1 := by decide +kernel
  have hzero : (0 : Float).isFinite = true ∧ value 0 = 0 := by decide +kernel
  have htolerance : (0 : Float) ≤ Gauge.tolerance ∧ (Gauge.tolerance : Float) < 1 := by
    decide +kernel
  have hround := rounds_sub ha.y.isFinite hs
  have hround' := rounds_sub hb.y.isFinite hs
  rw [tops_iff, not_lt_iff_le (by decide +kernel) hround.isNaN] at hlow
  rw [tops_iff] at hhigh
  have hbelow := hround.lt_of_lt (rounds_value hone.1) (float_lt_of_le_of_lt hlow htolerance.2)
  have habove := (rounds_value hzero.1).lt_of_lt hround' (float_lt_of_le_of_lt htolerance.1 hhigh)
  rw [hone.2] at hbelow
  rw [hzero.2] at habove
  have hlowest := (abs_le.1 ha.y.abs_value_le).1
  have hhighest := (abs_le.1 hb.y.abs_value_le).2
  exact ⟨hs, abs_le.2 ⟨by linarith, by linarith⟩⟩

/-- The product for a side that is not level and a point at an infinite latitude. -/
theorem cross_of_infinite {negative : Bool} (hx : s.x = infinity negative) (hy : Bounded 21 s.y)
    (ha : a.IsBounded) (hb : b.IsBounded) (hne : value a.y ≠ value b.y) :
    (b - a).cross (s - a) = infinity (negative ^^ decide (value a.y < value b.y)) := by
  change (b.x - a.x) * (s.y - a.y) - (b.y - a.y) * (s.x - a.x) = _
  have hrise : Bounded 21 (b.y - a.y) := hb.y.sub ha.y (by decide)
  have hrun : Bounded 21 (b.x - a.x) := hb.x.sub ha.x (by decide)
  have hlevel : Bounded 22 (s.y - a.y) := hy.sub (ha.y.mono (by decide)) (by decide)
  have hproduct : Bounded 43 ((b.x - a.x) * (s.y - a.y)) := hrun.mul hlevel (by decide)
  rw [hx, infinity_sub negative ha.x.isFinite]
  obtain hlt | hgt := lt_or_gt_of_ne hne
  · have hpos := value_sub_pos hb.y.isFinite ha.y.isFinite hrise.isFinite hlt
    rw [mul_infinity hrise.isFinite hpos.ne', sub_infinity hproduct.isFinite,
      decide_eq_false hpos.not_gt, decide_eq_true hlt, Bool.xor_false, Bool.xor_true]
  · have hneg := value_sub_neg hb.y.isFinite ha.y.isFinite hrise.isFinite hgt
    rw [mul_infinity hrise.isFinite hneg.ne, sub_infinity hproduct.isFinite,
      decide_eq_true hneg, decide_eq_false hgt.not_gt, Bool.xor_true, Bool.xor_false, Bool.not_not]

/-- **What a side adds at an infinite latitude**: far to the south all sides that cross the level
count, and far to the north none does. -/
theorem turn_of_infinite {negative : Bool} (hx : s.x = infinity negative)
    (hs : s.y.isFinite = true) (ha : a.IsBounded) (hb : b.IsBounded) :
    turn Gauge.tolerance s (a, b) =
      if negative then topCount Gauge.tolerance s b - topCount Gauge.tolerance s a else 0 := by
  by_cases hlow : Tops Gauge.tolerance s a <;> by_cases hhigh : Tops Gauge.tolerance s b
  · rw [turn_eq_zero_of_tops_iff (iff_of_true hlow hhigh), topCount, topCount, if_pos hlow,
      if_pos hhigh, sub_self, ite_self]
  · have hfalls := value_lt_of_rises hs hb ha hhigh hlow
    have hcross := cross_of_infinite hx (bounded_of_rises hs hb ha hhigh hlow) ha hb hfalls.ne'
    rw [turn_eq_of_tops, hcross, sign_infinity, topCount, topCount, decide_eq_false hfalls.not_gt]
    cases negative <;> simp [hlow, hhigh]
  · have hrises := value_lt_of_rises hs ha hb hlow hhigh
    have hcross := cross_of_infinite hx (bounded_of_rises hs ha hb hlow hhigh) ha hb hrises.ne
    rw [turn_eq_of_tops, hcross, sign_infinity, topCount, topCount, decide_eq_true hrises]
    cases negative <;> simp [hlow, hhigh]
  · rw [turn_eq_zero_of_tops_iff (iff_of_false hlow hhigh), topCount, topCount, if_neg hlow,
      if_neg hhigh, sub_self, ite_self]

/-- **What a side adds** for a point that is not finite depends on its ends, and the same way on
both. -/
theorem exists_turn_eq_sub (hs : ¬(s.x.isFinite = true ∧ s.y.isFinite = true)) :
    ∃ f : Offset Float → ℤ, ∀ a b : Offset Float, a.IsBounded → b.IsBounded →
      turn Gauge.tolerance s (a, b) = f b - f a := by
  by_cases hy : s.y.isFinite = true
  · obtain hnan | ⟨negative, hinf⟩ := eq_of_not_finite fun hx => hs ⟨hx, hy⟩
    · exact ⟨fun _ => 0, fun _ _ _ _ => turn_of_isNaN (hnan ▸ rfl)⟩
    · cases negative with
      | false => exact ⟨fun _ => 0, fun _ _ ha hb => turn_of_infinite hinf hy ha hb⟩
      | true =>
        exact ⟨topCount Gauge.tolerance s, fun _ _ ha hb => turn_of_infinite hinf hy ha hb⟩
  · refine ⟨fun _ => 0, fun a b ha hb => turn_eq_zero_of_tops_iff ?_⟩
    rw [tops_iff_of_not_finite hy ha, tops_iff_of_not_finite hy hb]

end Bounded

/-- **A point that is not finite** is not enclosed by a bounded chain. -/
theorem encloses_of_not_finite {chain : List (Offset Float)} (hchain : ∀ v ∈ chain, v.IsBounded)
    {s : Offset Float} (hs : ¬(s.x.isFinite = true ∧ s.y.isFinite = true)) :
    encloses Gauge.tolerance chain s = false := by
  have hmeets : ∀ e ∈ edges chain, ¬Meets Gauge.tolerance s e := by
    rintro ⟨a, b⟩ he hm
    obtain ⟨ha, hb⟩ : a ∈ chain ∧ b ∈ chain := mem_of_mem_edges he
    exact hs (isFinite_of_meets (hchain a ha) (hchain b hb) hm)
  obtain ⟨f, hf⟩ := exists_turn_eq_sub hs
  have hturns : ∀ e ∈ edges chain, turn Gauge.tolerance s e = f e.2 - f e.1 := by
    rintro ⟨a, b⟩ he
    obtain ⟨ha, hb⟩ : a ∈ chain ∧ b ∈ chain := mem_of_mem_edges he
    exact hf a b (hchain a ha) (hchain b hb)
  rw [← Bool.not_eq_true, encloses_iff_of_not_meets hmeets, not_not, winding,
    List.map_congr_left hturns, sum_edges_sub]

/-! ### Projection -/

/-- A latitude from -90 to 90 and a longitude from -180 to 180. -/
structure Location.OnGlobe (p : Location Float) : Prop where
  lat : -90 ≤ p.lat ∧ p.lat ≤ 90
  lng : -180 ≤ p.lng ∧ p.lng ≤ 180

instance (p : Location Float) : Decidable p.OnGlobe :=
  decidable_of_iff ((-90 ≤ p.lat ∧ p.lat ≤ 90) ∧ -180 ≤ p.lng ∧ p.lng ≤ 180)
    ⟨fun h => ⟨h.1, h.2⟩, fun h => ⟨h.lat, h.lng⟩⟩

section Projection

variable {o p v : Location Float}

theorem Location.OnGlobe.bounded (h : v.OnGlobe) : Bounded 7 v.lat ∧ Bounded 8 v.lng := by
  have hpole : Bounded 7 (-90) ∧ Bounded 7 90 :=
    ⟨⟨by decide +kernel, by decide +kernel⟩, by decide +kernel, by decide +kernel⟩
  have hmeridian : Bounded 8 (-180) ∧ Bounded 8 180 :=
    ⟨⟨by decide +kernel, by decide +kernel⟩, by decide +kernel, by decide +kernel⟩
  exact ⟨.of_between hpole.1 hpole.2 h.lat.1 h.lat.2,
    .of_between hmeridian.1 hmeridian.2 h.lng.1 h.lng.2⟩

theorem bounded_magnitude {k : ℕ} {x : Float} (h : Bounded k x) (hk : k ≤ 1023) :
    Bounded k (Geofence.magnitude x) := by
  rw [Geofence.magnitude]
  split_ifs
  · exact h.neg hk
  · exact h

theorem isFinite_of_magnitude {x : Float} (h : (Geofence.magnitude x).isFinite = true) :
    x.isFinite = true := by
  rw [Geofence.magnitude] at h
  split_ifs at h
  · exact isFinite_of_neg h
  · exact h

theorem bounded_eastward {x y : Float} (hx : Bounded 8 x) (hy : Bounded 8 y) :
    Bounded 10 (eastward x y) := by
  have hstraight : Bounded 10 (y - x) := (hy.sub hx (by decide)).mono (by decide)
  have hturn : Bounded 9 (Gauge.fullTurn : Float) := ⟨by decide +kernel, by decide +kernel⟩
  have hsum : Bounded 9 (Geofence.magnitude x + Geofence.magnitude y) :=
    (bounded_magnitude hx (by decide)).add (bounded_magnitude hy (by decide)) (by decide)
  have hacross := hturn.sub hsum (by decide)
  rw [eastward]
  split_ifs
  · exact hstraight
  · exact hacross
  · exact hacross.neg (by decide)
  · exact hstraight

/-- **Vertices on the globe** are projected into the reach of a polygon. -/
theorem isBounded_project (ho : o.OnGlobe) (hv : v.OnGlobe) :
    (project Gauge.scale o v).IsBounded := by
  have hscale : Bounded 10 (Gauge.scale : Float) := ⟨by decide +kernel, by decide +kernel⟩
  have hnorth : Bounded 8 (v.lat - o.lat) := hv.bounded.1.sub ho.bounded.1 (by decide)
  exact
    { x := (hnorth.mul hscale (by decide)).mono (by decide)
      y := (bounded_eastward ho.bounded.2 hv.bounded.2).mul hscale (by decide) }

theorem isFinite_of_eastward {x y : Float} (h : (eastward x y).isFinite = true) :
    y.isFinite = true := by
  have hacross (h : (Gauge.fullTurn - (Geofence.magnitude x + Geofence.magnitude y)).isFinite =
      true) : y.isFinite = true :=
    isFinite_of_magnitude (isFinite_of_add (isFinite_of_sub h).2).2
  rw [eastward] at h
  split_ifs at h
  · exact (isFinite_of_sub h).1
  · exact hacross h
  · exact hacross (isFinite_of_neg h)
  · exact (isFinite_of_sub h).1

/-- **Only finite locations** are projected to finite points. -/
theorem isFinite_of_project {scale : Float} (hx : (project scale o p).x.isFinite = true)
    (hy : (project scale o p).y.isFinite = true) : p.IsFinite :=
  ⟨(isFinite_of_sub (isFinite_of_mul hx).1).1, isFinite_of_eastward (isFinite_of_mul hy).1⟩

end Projection

/-! ### Polygons -/

theorem Polygon.contains_of_not_finite (g : Polygon Float) (hg : ∀ v ∈ g.vertices, v.OnGlobe)
    {p : Location Float} (hp : ¬p.IsFinite) : g.contains p = false := by
  refine encloses_of_not_finite (fun v hv => ?_) fun h => hp (isFinite_of_project h.1 h.2)
  obtain ⟨w, hw, rfl⟩ := List.mem_map.1 hv
  exact isBounded_project (hg _ g.origin_mem) (hg w hw)

/-! ### Circles -/

section Circles

open Elementary

theorem sine_of_isNaN {x : Float} (h : x.isNaN = true) : sine x = .ok x := if_pos h

theorem squareRoot_of_isNaN {x : Float} (h : x.isNaN = true) : squareRoot x = .ok x := if_pos h

theorem isNaN_square {x : Float} (h : x.isNaN = true) : (square x).isNaN = true := by
  have hsquare : square x = x := if_pos h
  rwa [hsquare]

theorem angle_of_isNaN {y x : Float} (h : y.isNaN = true) : angle y x = y := if_pos h

/-- An angle from a coordinate that is no number is none. -/
theorem isNaN_halfAngle (origin : Float) {v : Float} (h : v.isNaN = true) :
    ((v - origin) * radian / two).isNaN = true :=
  isNaN_div_left (isNaN_mul_left (isNaN_sub_left h _) _) _

theorem isNaN_halfChordSquared {lat lng lat' lng' a : Float}
    (h : lat'.isNaN = true ∨ lng'.isNaN = true)
    (ha : halfChordSquared lat lng lat' lng' = .ok a) : a.isNaN = true := by
  obtain ⟨north, hn, ha⟩ := bind_eq_ok_iff.mp ha
  obtain ⟨level, -, ha⟩ := bind_eq_ok_iff.mp ha
  obtain ⟨level', -, ha⟩ := bind_eq_ok_iff.mp ha
  obtain ⟨east, he, ha⟩ := bind_eq_ok_iff.mp ha
  obtain rfl := Except.ok.inj ha
  rcases h with hlat | hlng
  · have hnorth := isNaN_halfAngle lat hlat
    obtain rfl := Except.ok.inj ((sine_of_isNaN hnorth).symm.trans hn)
    exact isNaN_add_left (isNaN_square hnorth) _
  · have heast := isNaN_halfAngle lng hlng
    obtain rfl := Except.ok.inj ((sine_of_isNaN heast).symm.trans he)
    exact isNaN_add_right _ (isNaN_mul_right _ (isNaN_square heast))

theorem isNaN_distance {c p : Location Float} {d : Float}
    (h : p.lat.isNaN = true ∨ p.lng.isNaN = true) (hd : c.distance p = .ok d) :
    d.isNaN = true := by
  obtain ⟨a, ha, hd⟩ := bind_eq_ok_iff.mp hd
  have hchord := isNaN_halfChordSquared h ha
  obtain ⟨near, hnear, hd⟩ := bind_eq_ok_iff.mp hd
  obtain ⟨far, -, hd⟩ := bind_eq_ok_iff.mp hd
  obtain rfl := Except.ok.inj ((squareRoot_of_isNaN hchord).symm.trans hnear)
  obtain rfl := Except.ok.inj hd
  rw [angle_of_isNaN hchord]
  exact isNaN_mul_right _ (isNaN_mul_right _ hchord)

/-- The square roots take what is no number. -/
theorem noDistance_iff_of_isNaN {c p : Location Float}
    (h : p.lat.isNaN = true ∨ p.lng.isNaN = true) :
    c.NoDistance p ↔ (p.lat - c.lat).isInf = true ∨ (p.lng - c.lng).isInf = true := by
  rw [Location.NoDistance, ← or_assoc]
  refine or_iff_left ?_
  rintro ⟨a, ha, hneg⟩
  have hchord := isNaN_halfChordSquared h ha
  rcases hneg with hneg | hneg
  · exact not_lt_of_isNaN hchord _ hneg
  · exact not_lt_of_isNaN (isNaN_sub_right _ hchord) _ hneg

/-- **A circle and a location with a coordinate that is no number**: the answer is no, unless the
other difference of coordinates is infinite. -/
theorem Circle.contains_of_isNaN (c : Circle Float) (hc : c.center.IsFinite) {p : Location Float}
    (h : p.lat.isNaN = true ∨ p.lng.isNaN = true) :
    c.contains p =
      if (p.lat - c.center.lat).isInf || (p.lng - c.center.lng).isInf then .error .outside
      else .ok false := by
  have hanswer := (Location.exists_distance_iff hc p).trans (not_congr (noDistance_iff_of_isNaN h))
  rw [← Bool.or_eq_true] at hanswer
  rw [Circle.contains]
  cases hd : c.center.distance p with
  | error e =>
    have hinf : ((p.lat - c.center.lat).isInf || (p.lng - c.center.lng).isInf) = true := by
      by_contra hinf
      obtain ⟨d, hok⟩ := hanswer.mpr hinf
      rw [hd] at hok
      cases hok
    rw [if_pos hinf]
    cases e
    rfl
  | ok d =>
    have hfar : ¬d ≤ c.radius := fun hle => by
      have hnan := isNaN_distance h hd
      rw [(isNaN_of_le hle).1] at hnan
      cases hnan
    rw [if_neg (hanswer.mp ⟨d, hd⟩)]
    exact congrArg Except.ok (decide_eq_false hfar)

end Circles

/-! ### Fences -/

/-- **A location that is not finite** is in no polygon with vertices on the globe, which always has
an answer; and if it has no infinite coordinate, it is in no circle with a finite center, which has
an answer unless a difference of coordinates is infinite. -/
theorem fence_contains_of_not_finite (p : Location Float) (hp : ¬p.IsFinite) :
    (∀ g : Polygon Float, (∀ v ∈ g.vertices, v.OnGlobe) →
      (Fence.polygon g).contains p = .ok false) ∧
    ∀ c : Circle Float, c.center.IsFinite → p.lat.isInf = false → p.lng.isInf = false →
      (Fence.circle c).contains p ≠ .ok true ∧
      (Fence.circle c).contains p =
        if (p.lat - c.center.lat).isInf || (p.lng - c.center.lng).isInf then .error .outside
        else .ok false := by
  refine ⟨fun g hg => congrArg Except.ok (g.contains_of_not_finite hg hp),
    fun c hc hlat hlng => ?_⟩
  have hnan : p.lat.isNaN = true ∨ p.lng.isNaN = true := by
    by_contra hnan
    rw [not_or, Bool.not_eq_true, Bool.not_eq_true] at hnan
    exact hp ⟨isFinite_eq_true hnan.1 hlat, isFinite_eq_true hnan.2 hlng⟩
  have hanswer := c.contains_of_isNaN hc hnan
  refine ⟨?_, hanswer⟩
  change c.contains p ≠ .ok true
  rw [hanswer]
  split_ifs <;> simp

/-- A strait across the 180th meridian. -/
def strait : Polygon Float := ⟨[⟨-2, 178⟩, ⟨-2, -178⟩, ⟨3, -178⟩, ⟨3, 178⟩], by decide⟩

/-- A buoy in the strait, with the waters around it. -/
def buoy : Circle Float := ⟨⟨0.5, -179⟩, 40000, by decide +kernel⟩

/-- Rows of a table that are loaded: one infinitely far to the south on a meridian of the strait,
and one at no latitude on the meridian of the buoy. -/
theorem strait_contains_nowhere :
    (loadText "latitude,longitude\n-inf,179.5\nnan,-179\n".toList).toOption.map
        (·.fixes.map Fix.location) =
          some [⟨infinity true, 179.5⟩, ⟨notANumber, -179⟩] ∧
      (∀ v ∈ strait.vertices, v.OnGlobe) ∧ buoy.center.IsFinite ∧
      (Fence.polygon strait).contains ⟨infinity true, 179.5⟩ = .ok false ∧
      (Fence.polygon strait).contains ⟨notANumber, -179⟩ = .ok false ∧
      (Fence.circle buoy).contains ⟨notANumber, -179⟩ = .ok false := by
  have hstrait : ∀ v ∈ strait.vertices, v.OnGlobe := by decide +kernel
  have hbuoy : buoy.center.IsFinite := by decide +kernel
  have hsouth := fence_contains_of_not_finite ⟨infinity true, 179.5⟩ (by decide +kernel)
  have hnowhere := fence_contains_of_not_finite ⟨notANumber, -179⟩ (by decide +kernel)
  have hcircle := (hnowhere.2 buoy hbuoy (by decide +kernel) (by decide +kernel)).2
  have hnear : ((notANumber - buoy.center.lat).isInf || (-179 - buoy.center.lng).isInf) =
      false := by
    decide +kernel
  rw [hnear] at hcircle
  exact ⟨by decide +kernel, hstrait, hbuoy, hsouth.1 strait hstrait,
    hnowhere.1 strait hstrait, hcircle⟩

end Geofence
