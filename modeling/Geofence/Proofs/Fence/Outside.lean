/-
Points outside the bounding box.

A point beyond the bounding box of a polygon should not be contained.  To the east or the west of
the box it is not.  To the north or the south of it the exact count of crossings at the level of the
point is zero as well: to the north every side passes to the south, and to the south the sides that
rise over the level and those that fall below it cancel.  But the ends of a side are compared with
the level while its area is taken at the point itself, and there the point may lie on the other side
of the line through a side that is nearly parallel to the ray, whose backward extension passes
beyond the point.  So what a point outside the box is counted for is what its sides are misjudged
by, and a point may be contained however far outside it lies.

Main definitions:

* `Geofence.BeyondX`, `Geofence.BeyondY`, `Geofence.Outside` — lying outside the bounding box.

Main results:

* `Geofence.winding_raised_of_outside` — the exact count outside the box is zero;
* `Geofence.misjudged_eq_zero_of_outside` — steep sides are not misjudged;
* `Geofence.Polygon.contains_iff_misjudged_of_outside` — when a point outside the box is contained;
* `Geofence.wedge_contains_outside` — a point kilometres outside the box for which it is so.
-/

import Geofence.Proofs.Fence.Tolerance

set_option relaxedAutoImplicit false
set_option autoImplicit false

namespace Geofence

/-! ### Outside the bounding box -/

/-- Lying more than `r` to the north or to the south of all points of a chain. -/
def BeyondX (r : ℚ) (chain : List (Offset ℚ)) (s : Offset ℚ) : Prop :=
  (∀ v ∈ chain, v.x + r < s.x) ∨ ∀ v ∈ chain, s.x + r < v.x

/-- Lying more than `r` to the east or to the west of all points of a chain. -/
def BeyondY (r : ℚ) (chain : List (Offset ℚ)) (s : Offset ℚ) : Prop :=
  (∀ v ∈ chain, v.y + r < s.y) ∨ ∀ v ∈ chain, s.y + r < v.y

/-- Lying more than `r` outside the bounding box of a chain. -/
def Outside (r : ℚ) (chain : List (Offset ℚ)) (s : Offset ℚ) : Prop :=
  BeyondX r chain s ∨ BeyondY r chain s

variable {r tolerance : ℚ} {s a b : Offset ℚ} {chain : List (Offset ℚ)}

/-- No side of the chain goes through a point outside its box. -/
theorem not_meets_of_outside (hr : 0 ≤ r) (h : Outside r chain s) {e : Offset ℚ × Offset ℚ}
    (he : e ∈ edges chain) : ¬Meets tolerance s e := by
  obtain ⟨a, b⟩ := e
  obtain ⟨ha, hb⟩ : a ∈ chain ∧ b ∈ chain := mem_of_mem_edges he
  intro hm
  obtain ⟨-, ⟨hx₀, hx₁⟩, hy₀, hy₁⟩ := meets_iff.1 hm
  rcases h with (h | h) | (h | h)
  · exact hx₁.not_gt (max_lt (by linarith [h a ha]) (by linarith [h b hb]))
  · exact hx₀.not_gt (lt_min (by linarith [h a ha]) (by linarith [h b hb]))
  · exact hy₁.not_gt (max_lt (by linarith [h a ha]) (by linarith [h b hb]))
  · exact hy₀.not_gt (lt_min (by linarith [h a ha]) (by linarith [h b hb]))

/-! ### The exact count -/

/-- One for a point above the height of `s`, and zero for one that is not. -/
def rank (s v : Offset ℚ) : ℤ := if Above 0 s v then 1 else 0

theorem area_pos_of_rises (ha : s.x < a.x) (hb : s.x < b.x) (hlow : ¬Above 0 s a)
    (hhigh : Above 0 s b) : 0 < area s a b := by
  rw [above_zero_iff, not_lt] at hlow
  rw [above_zero_iff] at hhigh
  rw [area_eq]
  have hrise := mul_pos (sub_pos.2 ha) (sub_pos.2 hhigh)
  have hfall := mul_nonpos_of_nonpos_of_nonneg (sub_nonpos.2 hlow) (sub_pos.2 hb).le
  linarith

theorem area_neg_of_rises (ha : a.x < s.x) (hb : b.x < s.x) (hlow : ¬Above 0 s a)
    (hhigh : Above 0 s b) : area s a b < 0 := by
  rw [above_zero_iff, not_lt] at hlow
  rw [above_zero_iff] at hhigh
  rw [area_eq]
  have hrise := mul_neg_of_neg_of_pos (sub_neg.2 ha) (sub_pos.2 hhigh)
  have hfall := mul_nonneg_of_nonpos_of_nonpos (sub_nonpos.2 hlow) (sub_neg.2 hb).le
  linarith

/-- Seen from the south, every side that crosses the height of the point counts. -/
theorem turn_of_south (ha : s.x < a.x) (hb : s.x < b.x) :
    turn 0 s (a, b) = rank s b - rank s a := by
  rw [turn_eq le_rfl, rank, rank, neg_zero]
  by_cases hlow : Above 0 s a <;> by_cases hhigh : Above 0 s b
  · simp [hlow, hhigh]
  · have harea : area s a b < 0 := by
      rw [area_swap, neg_lt_zero]
      exact area_pos_of_rises hb ha hhigh hlow
    simp [hlow, hhigh, harea]
  · simp [hlow, hhigh, area_pos_of_rises ha hb hlow hhigh]
  · simp [hlow, hhigh]

/-- Seen from the north, no side counts. -/
theorem turn_of_north (ha : a.x < s.x) (hb : b.x < s.x) : turn 0 s (a, b) = 0 := by
  rw [turn_eq le_rfl, neg_zero]
  by_cases hlow : Above 0 s a <;> by_cases hhigh : Above 0 s b
  · simp [hlow, hhigh]
  · have harea : 0 < area s a b := by
      rw [area_swap, neg_pos]
      exact area_neg_of_rises hb ha hhigh hlow
    simp [hlow, hhigh, harea.le]
  · simp [hlow, hhigh, (area_neg_of_rises ha hb hlow hhigh).le]
  · simp [hlow, hhigh]

theorem winding_of_south (h : ∀ v ∈ chain, s.x < v.x) : winding 0 chain s = 0 := by
  have hturns : ∀ e ∈ edges chain, turn 0 s e = rank s e.2 - rank s e.1 := by
    rintro ⟨a, b⟩ he
    obtain ⟨ha, hb⟩ : a ∈ chain ∧ b ∈ chain := mem_of_mem_edges he
    exact turn_of_south (h a ha) (h b hb)
  rw [winding, List.map_congr_left hturns, sum_edges_sub]

theorem winding_of_north (h : ∀ v ∈ chain, v.x < s.x) : winding 0 chain s = 0 := by
  refine List.sum_eq_zero fun m hm => ?_
  obtain ⟨⟨a, b⟩, he, rfl⟩ := List.mem_map.1 hm
  obtain ⟨ha, hb⟩ : a ∈ chain ∧ b ∈ chain := mem_of_mem_edges he
  exact turn_of_north (h a ha) (h b hb)

/-- To the east or the west of the box, all points of the chain or none lie above the level. -/
theorem above_iff_above_of_beyondY (hτ : 0 ≤ tolerance) (hr : tolerance ≤ r)
    (h : BeyondY r chain s) (ha : a ∈ chain) (hb : b ∈ chain) :
    Above tolerance s a ↔ Above tolerance s b := by
  rcases h with h | h
  · have hlow : ∀ v ∈ chain, ¬Above tolerance s v := by
      intro v hv
      rw [Above, not_lt]
      linarith [h v hv]
    exact iff_of_false (hlow a ha) (hlow b hb)
  · have hhigh : ∀ v ∈ chain, Above tolerance s v := by
      intro v hv
      rw [Above]
      linarith [h v hv]
    exact iff_of_true (hhigh a ha) (hhigh b hb)

/-- **The exact count at the level of a point outside the box** is zero. -/
theorem winding_raised_of_outside (hτ : 0 ≤ tolerance) (hr : tolerance ≤ r)
    (h : Outside r chain s) : winding 0 chain (raised tolerance s) = 0 := by
  rcases h with (h | h) | h
  · refine winding_of_north fun v hv => ?_
    rw [raised]
    linarith [h v hv]
  · refine winding_of_south fun v hv => ?_
    rw [raised]
    linarith [h v hv]
  · refine List.sum_eq_zero fun m hm => ?_
    obtain ⟨⟨a, b⟩, he, rfl⟩ := List.mem_map.1 hm
    obtain ⟨ha, hb⟩ : a ∈ chain ∧ b ∈ chain := mem_of_mem_edges he
    refine turn_eq_zero_of_above_iff le_rfl ?_
    rw [above_raised_iff, above_raised_iff]
    exact above_iff_above_of_beyondY hτ hr h ha hb

/-! ### What is misjudged -/

theorem misjudged_of_above_iff (h : Above tolerance s a ↔ Above tolerance s b) :
    misjudged tolerance s (a, b) = 0 := by
  by_cases hb : Above tolerance s b <;> simp [misjudged, h, hb]

/-- The area at the level of a side that rises over it, seen from outside the box: by `r` for each
unit that the side rises it is off zero. -/
theorem area_level_of_rises_north (ha : a.x + r < s.x) (hb : b.x + r < s.x)
    (hlow : ¬Above tolerance s a) (hhigh : Above tolerance s b) :
    area s a b + tolerance * (b.x - a.x) < -(r * (b.y - a.y)) := by
  rw [Above, not_lt] at hlow
  rw [Above] at hhigh
  rw [← area_raised, area_eq, raised]
  have hrise := mul_lt_mul_of_pos_right (sub_neg.2 ha) (sub_pos.2 hhigh)
  have hfall := mul_nonneg (sub_nonneg.2 hlow) (sub_pos.2 hb).le
  linarith

theorem area_level_of_rises_south (ha : s.x + r < a.x) (hb : s.x + r < b.x)
    (hlow : ¬Above tolerance s a) (hhigh : Above tolerance s b) :
    r * (b.y - a.y) < area s a b + tolerance * (b.x - a.x) := by
  rw [Above, not_lt] at hlow
  rw [Above] at hhigh
  rw [← area_raised, area_eq, raised]
  have hrise := mul_lt_mul_of_pos_right (sub_pos.2 ha) (sub_pos.2 hhigh)
  have hfall := mul_nonneg (sub_nonneg.2 hlow) (sub_pos.2 hb).le
  linarith

/-- A steep side that rises over the level is judged alike at the point and at the level. -/
theorem misjudged_eq_zero_of_rises_outside (hτ : 0 ≤ tolerance)
    (h : a.x + r < s.x ∧ b.x + r < s.x ∨ s.x + r < a.x ∧ s.x + r < b.x)
    (hs : Steep (2 * r) tolerance a b) (hlow : ¬Above tolerance s a) (hhigh : Above tolerance s b) :
    misjudged tolerance s (a, b) = 0 := by
  have hrise : 0 < b.y - a.y := sub_pos.2 ((not_lt.1 hlow).trans_lt hhigh)
  rw [Steep, abs_of_pos hrise] at hs
  have hrun := abs_le.1 (le_refl |b.x - a.x|)
  have hτrun := mul_le_mul_of_nonneg_left hrun.1 hτ
  have hτrun' := mul_le_mul_of_nonneg_left hrun.2 hτ
  rcases h with ⟨ha, hb⟩ | ⟨ha, hb⟩
  · have hlevel := area_level_of_rises_north ha hb hlow hhigh
    have hpoint : ¬tolerance < area s a b := by linarith
    have hlevel₀ : ¬0 < area s a b + tolerance * (b.x - a.x) := by linarith
    simp only [misjudged, hlow, hhigh, hpoint, hlevel₀, not_false_eq_true, and_true, if_true,
      if_false, sub_self]
  · have hlevel := area_level_of_rises_south ha hb hlow hhigh
    have hpoint : tolerance < area s a b := by linarith
    have hlevel₀ : 0 < area s a b + tolerance * (b.x - a.x) := by linarith
    simp only [misjudged, hlow, hhigh, hpoint, hlevel₀, not_false_eq_true, and_true, if_true,
      sub_self]

/-- **No steep side is misjudged** from outside the box. -/
theorem misjudged_eq_zero_of_outside (hτ : 0 ≤ tolerance) (hr : tolerance ≤ r)
    (h : Outside r chain s) (he : (a, b) ∈ edges chain)
    (hs : ¬(Above tolerance s a ↔ Above tolerance s b) → Steep (2 * r) tolerance a b) :
    misjudged tolerance s (a, b) = 0 := by
  obtain ⟨ha, hb⟩ : a ∈ chain ∧ b ∈ chain := mem_of_mem_edges he
  by_cases hab : Above tolerance s a ↔ Above tolerance s b
  · exact misjudged_of_above_iff hab
  have hsteep := hs hab
  have hbeyond : a.x + r < s.x ∧ b.x + r < s.x ∨ s.x + r < a.x ∧ s.x + r < b.x := by
    rcases h with (h | h) | h
    · exact .inl ⟨h a ha, h b hb⟩
    · exact .inr ⟨h a ha, h b hb⟩
    · exact absurd (above_iff_above_of_beyondY hτ hr h ha hb) hab
  by_cases hlow : Above tolerance s a
  · have hhigh : ¬Above tolerance s b := fun hb' => hab (iff_of_true hlow hb')
    have hback := misjudged_eq_zero_of_rises_outside hτ (hbeyond.imp And.symm And.symm)
      hsteep.swap hhigh hlow
    rw [misjudged_swap hτ] at hback
    omega
  · have hhigh : Above tolerance s b := by
      by_contra hb'
      exact hab (iff_of_false hlow hb')
    exact misjudged_eq_zero_of_rises_outside hτ hbeyond hsteep hlow hhigh

/-! ### Polygons -/

/-- **When a point outside the bounding box is contained.**  A point farther outside the box of a
polygon than the tolerance is contained if and only if what its sides are misjudged by does not
cancel.  This never is so to the east or the west of the box, and to the north or the south of it
only when some side across the level of the point is not steep. -/
theorem Polygon.contains_iff_misjudged_of_outside (g : Polygon ℚ) (p : Location ℚ) {r : ℚ}
    (hr : Gauge.tolerance ≤ r) (h : Outside r g.ring (project Gauge.scale g.origin p)) :
    let s := project Gauge.scale g.origin p
    (g.contains p = true ↔ ((edges g.ring).map (misjudged Gauge.tolerance s)).sum ≠ 0) ∧
    (BeyondY r g.ring s → g.contains p = false) ∧
    ((∀ e ∈ edges g.ring, ¬(Above Gauge.tolerance s e.1 ↔ Above Gauge.tolerance s e.2) →
        Steep (2 * r) Gauge.tolerance e.1 e.2) →
      g.contains p = false) := by
  intro s
  have hτ : (0 : ℚ) ≤ Gauge.tolerance := tolerance_nonneg
  have hcount : g.contains p = true ↔ winding Gauge.tolerance g.ring s ≠ 0 :=
    encloses_iff_of_not_meets fun e he => not_meets_of_outside (hτ.trans hr) h he
  have hsum := winding_raised_eq_add_misjudged (s := s) hτ g.ring
  rw [winding_raised_of_outside hτ hr h] at hsum
  have hiff : g.contains p = true ↔
      ((edges g.ring).map (misjudged Gauge.tolerance s)).sum ≠ 0 := by
    rw [hcount]
    omega
  have hsteep : (∀ e ∈ edges g.ring,
      ¬(Above Gauge.tolerance s e.1 ↔ Above Gauge.tolerance s e.2) →
        Steep (2 * r) Gauge.tolerance e.1 e.2) → g.contains p = false := by
    intro hs
    rw [← Bool.not_eq_true, hiff, not_not]
    refine List.sum_eq_zero fun m hm => ?_
    obtain ⟨e, he, rfl⟩ := List.mem_map.1 hm
    exact misjudged_eq_zero_of_outside hτ hr h he (hs e he)
  refine ⟨hiff, fun hy => hsteep fun e he hne => absurd ?_ hne, hsteep⟩
  obtain ⟨ha, hb⟩ := mem_of_mem_edges he
  exact above_iff_above_of_beyondY hτ hr hy ha hb

/-- A triangle whose longest side lies almost on a meridian. -/
def wedge : Polygon ℚ := ⟨[⟨1 / 2, 0⟩, ⟨1, 1 + 5 / 10 ^ 11⟩, ⟨0, 1 + 2 / 10 ^ 10⟩], by decide⟩

/-- A location eleven kilometres to the north of the triangle. -/
def northOfWedge : Location ℚ := ⟨11 / 10, 1⟩

theorem wedge_outside :
    Outside Gauge.tolerance wedge.ring (project Gauge.scale wedge.origin northOfWedge) := by
  refine .inl (.inl ?_)
  decide +kernel

theorem wedge_contains_iff :
    Outside Gauge.tolerance wedge.ring (project Gauge.scale wedge.origin northOfWedge) ∧
      (wedge.contains northOfWedge = true ↔
        ((edges wedge.ring).map (misjudged Gauge.tolerance
          (project Gauge.scale wedge.origin northOfWedge))).sum ≠ 0) ∧
      ((edges wedge.ring).map (misjudged Gauge.tolerance
        (project Gauge.scale wedge.origin northOfWedge))).sum = -1 :=
  ⟨wedge_outside, (Polygon.contains_iff_misjudged_of_outside _ _ le_rfl wedge_outside).1,
    by decide +kernel⟩

/-- **The long side is counted from far outside**: the point lies kilometres beyond the box, and
the polygon is said to contain it. -/
theorem wedge_contains_outside :
    Outside Gauge.tolerance wedge.ring (project Gauge.scale wedge.origin northOfWedge) ∧
      wedge.contains northOfWedge = true :=
  ⟨wedge_outside, by decide +kernel⟩

end Geofence
