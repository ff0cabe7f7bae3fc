/-
What the tolerance costs.

The tolerance is meant to decide only for points close to the boundary: elsewhere the count of
crossings with the tolerance should tell the same as the exact count.  It does not.  The tolerance
is compared with an area, so a side that is short, or nearly parallel to the ray, is taken for one
in line with the point however far away it is; and the ends of a side are compared with the raised
level, while its area is taken at the point itself.  A crossing may be missed, or one too many
counted, for points of any distance.

Moving a point up to its level does not change the exact count as long as no side is in the way, so
the two counts differ exactly by what is misjudged on the sides across the level.  This gives the
exact condition for the two answers to agree, and a condition on the sides alone that is enough for
it: the sides across the level have to be steep.

Main definitions:

* `Geofence.ClearOfSides` — keeping a distance from all sides;
* `Geofence.misjudged` — what a side counts for at the level less what it counts for at the point;
* `Geofence.Steep` — sides that rise enough for their length.

Main results:

* `Geofence.winding_raised` — the exact count does not change up to the level;
* `Geofence.winding_eq_add_misjudged` — the two counts differ by what is misjudged;
* `Geofence.Polygon.contains_eq_exact_iff` — when the two answers agree;
* `Geofence.sliver_loses_crossing` — a point kilometres from the boundary for which they do not.
-/

import Geofence.Proofs.Fence.Winding

set_option relaxedAutoImplicit false
set_option autoImplicit false

namespace Geofence

/-! ### Distances from sides -/

/-- The point of the side from `a` to `b` that lies at the part `t` of the way. -/
def along (a b : Offset ℚ) (t : ℚ) : Offset ℚ := ⟨a.x + t * (b.x - a.x), a.y + t * (b.y - a.y)⟩

def distSq (u v : Offset ℚ) : ℚ := (u.x - v.x) ^ 2 + (u.y - v.y) ^ 2

/-- Being farther than `r` from every point of the side from `a` to `b`. -/
def ClearOfSide (r : ℚ) (s a b : Offset ℚ) : Prop :=
  ∀ t, 0 ≤ t → t ≤ 1 → r ^ 2 < distSq s (along a b t)

/-- Being farther than `r` from every side of a closed chain. -/
def ClearOfSides (r : ℚ) (chain : List (Offset ℚ)) (s : Offset ℚ) : Prop :=
  ∀ e ∈ edges chain, ClearOfSide r s e.1 e.2

variable {r tolerance : ℚ} {s a b : Offset ℚ}

@[simp] theorem along_zero (a b : Offset ℚ) : along a b 0 = a := by simp [along]

@[simp] theorem along_one (a b : Offset ℚ) : along a b 1 = b := by simp [along]

theorem along_swap (a b : Offset ℚ) (t : ℚ) : along b a t = along a b (1 - t) := by
  simp only [along, Offset.mk.injEq]
  constructor <;> ring

theorem ClearOfSide.swap (h : ClearOfSide r s a b) : ClearOfSide r s b a := by
  intro t h₀ h₁
  rw [along_swap]
  exact h (1 - t) (by linarith) (by linarith)

/-- How far a point of a side is off in `x`, at the height of `s`, is its area over its rise. -/
theorem along_x_mul_rise {t : ℚ} (ht : (along a b t).y = s.y) :
    ((along a b t).x - s.x) * (b.y - a.y) = area s a b := by
  simp only [along] at ht ⊢
  rw [area_eq, ← ht]
  ring

/-- How far a point of a side is off in `y`, right over `s`, is its area over its run. -/
theorem along_y_mul_run {t : ℚ} (ht : (along a b t).x = s.x) :
    (s.y - (along a b t).y) * (b.x - a.x) = area s a b := by
  simp only [along] at ht ⊢
  rw [area_eq, ← ht]
  ring

/-- A value between two others is that at some part of the way from one to the other. -/
theorem exists_part {u v y : ℚ} (hmin : min u v ≤ y) (hmax : y ≤ max u v) :
    ∃ t, 0 ≤ t ∧ t ≤ 1 ∧ u + t * (v - u) = y := by
  rcases lt_trichotomy u v with h | h | h
  · rw [min_eq_left h.le] at hmin
    rw [max_eq_right h.le] at hmax
    have hd : 0 < v - u := sub_pos.2 h
    refine ⟨(y - u) / (v - u), div_nonneg (by linarith) hd.le, ?_, ?_⟩
    · rw [div_le_one hd]
      linarith
    · rw [div_mul_cancel₀ _ hd.ne', add_sub_cancel]
  · subst h
    rw [min_self] at hmin
    rw [max_self] at hmax
    exact ⟨0, le_rfl, zero_le_one, by linarith⟩
  · rw [min_eq_right h.le] at hmin
    rw [max_eq_left h.le] at hmax
    have hd : 0 < u - v := sub_pos.2 h
    refine ⟨(u - y) / (u - v), div_nonneg (by linarith) hd.le, ?_, ?_⟩
    · rw [div_le_one hd]
      linarith
    · rw [← neg_sub u v, mul_neg, div_mul_cancel₀ _ hd.ne']
      ring

/-- What lies at a part of the way between two values lies between them. -/
theorem part_between {t : ℚ} (h₀ : 0 ≤ t) (h₁ : t ≤ 1) (u v : ℚ) :
    min u v ≤ u + t * (v - u) ∧ u + t * (v - u) ≤ max u v := by
  rcases le_total u v with h | h
  · rw [min_eq_left h, max_eq_right h]
    constructor <;> nlinarith
  · rw [min_eq_right h, max_eq_left h]
    constructor <;> nlinarith

theorem sq_part_le {t : ℚ} (h₀ : 0 ≤ t) (h₁ : t ≤ 1) (d : ℚ) : (t * d) ^ 2 ≤ d ^ 2 := by
  rw [mul_pow]
  exact mul_le_of_le_one_left (sq_nonneg d) (pow_le_one₀ h₀ h₁)

/-! ### No side goes through a point that is clear of it -/

/-- **A point clear of a side is not met by it**, whichever tolerance is used up to half the square
of the distance.  Of a point in the box of the side, the area would bound both the rise and the run
of the side, and the box would be too small to keep the distance. -/
theorem not_meets_of_clear (hr : 0 < r) (hτ : 0 ≤ tolerance) (hτr : 2 * tolerance ≤ r ^ 2)
    (hc : ClearOfSide r s a b) : ¬Meets tolerance s (a, b) := by
  intro hm
  obtain ⟨harea, ⟨hx₀, hx₁⟩, hy₀, hy₁⟩ := meets_iff.1 hm
  obtain ⟨t, ht₀, ht₁, ht⟩ := exists_part hx₀ hx₁
  obtain ⟨u, hu₀, hu₁, hu⟩ := exists_part hy₀ hy₁
  have harea₂ : area s a b ^ 2 ≤ tolerance ^ 2 := sq_le_sq.2 (by rwa [abs_of_nonneg hτ])
  have hrise : r ^ 2 * (b.y - a.y) ^ 2 ≤ tolerance ^ 2 := by
    have hdist := hc u hu₀ hu₁
    rw [distSq, show (along a b u).y = s.y from hu, sub_self] at hdist
    rw [← along_x_mul_rise hu, mul_pow] at harea₂
    nlinarith [sq_nonneg (b.y - a.y)]
  have hrun : r ^ 2 * (b.x - a.x) ^ 2 ≤ tolerance ^ 2 := by
    have hdist := hc t ht₀ ht₁
    rw [distSq, show (along a b t).x = s.x from ht, sub_self] at hdist
    rw [← along_y_mul_run ht, mul_pow] at harea₂
    nlinarith [sq_nonneg (b.x - a.x)]
  have hbox : r ^ 2 < (b.x - a.x) ^ 2 + (b.y - a.y) ^ 2 := by
    have hdist := hc 0 le_rfl zero_le_one
    rw [along_zero, distSq, ← ht, ← hu, add_sub_cancel_left, add_sub_cancel_left] at hdist
    linarith [sq_part_le ht₀ ht₁ (b.x - a.x), sq_part_le hu₀ hu₁ (b.y - a.y)]
  have hτ₂ : (2 * tolerance) ^ 2 ≤ (r ^ 2) ^ 2 := pow_le_pow_left₀ (by linarith) hτr 2
  have hr₂ : 0 < r ^ 2 := pow_pos hr 2
  have hr₄ := mul_lt_mul_of_pos_left hbox hr₂
  nlinarith

/-! ### Up to the level -/

/-- The point at the level of `s`, right over it. -/
def raised (tolerance : ℚ) (s : Offset ℚ) : Offset ℚ := ⟨s.x, s.y + tolerance⟩

theorem above_zero_iff {v : Offset ℚ} : Above 0 s v ↔ s.y < v.y := by rw [Above, add_zero]

theorem above_raised_iff {v : Offset ℚ} :
    Above 0 (raised tolerance s) v ↔ Above tolerance s v := above_zero_iff

theorem area_raised (tolerance : ℚ) (s a b : Offset ℚ) :
    area (raised tolerance s) a b = area s a b + tolerance * (b.x - a.x) := by
  simp only [area_eq, raised]
  ring

/-- The points between the heights of `s` and of its level that have `s` on their left. -/
def besides (tolerance : ℚ) (s v : Offset ℚ) : ℤ :=
  if s.x < v.x ∧ s.y < v.y ∧ v.y ≤ s.y + tolerance then 1 else 0

/-- All points of a clear side between the two heights lie on one side of the way up. -/
theorem lt_along_x (hτ : 0 ≤ tolerance) (hτr : tolerance < r) (hc : ClearOfSide r s a b)
    {t u : ℚ} (ht : 0 ≤ t ∧ t ≤ 1) (hu : 0 ≤ u ∧ u ≤ 1)
    (hty : s.y ≤ (along a b t).y ∧ (along a b t).y ≤ s.y + tolerance)
    (huy : s.y ≤ (along a b u).y ∧ (along a b u).y ≤ s.y + tolerance)
    (hx : s.x < (along a b t).x) : s.x < (along a b u).x := by
  by_contra hle
  rw [not_lt] at hle
  -- otherwise the side would go through the way up somewhere between the two points
  obtain ⟨l, hl₀, hl₁, hl⟩ := exists_part ((min_le_left _ _).trans hle)
    (hx.le.trans (le_max_right _ _))
  have hpoint : along a b (u + l * (t - u)) =
      ⟨s.x, (along a b u).y + l * ((along a b t).y - (along a b u).y)⟩ := by
    rw [← hl]
    simp only [along, Offset.mk.injEq]
    constructor <;> ring
  have hdist := hc (u + l * (t - u)) (by nlinarith) (by nlinarith)
  rw [hpoint, distSq, sub_self] at hdist
  have hlow : s.y ≤ (along a b u).y + l * ((along a b t).y - (along a b u).y) := by nlinarith
  have hhigh : (along a b u).y + l * ((along a b t).y - (along a b u).y) ≤ s.y + tolerance := by
    nlinarith
  nlinarith

theorem lt_along_x_iff (hτ : 0 ≤ tolerance) (hτr : tolerance < r) (hc : ClearOfSide r s a b)
    {t u : ℚ} (ht : 0 ≤ t ∧ t ≤ 1) (hu : 0 ≤ u ∧ u ≤ 1)
    (hty : s.y ≤ (along a b t).y ∧ (along a b t).y ≤ s.y + tolerance)
    (huy : s.y ≤ (along a b u).y ∧ (along a b u).y ≤ s.y + tolerance) :
    s.x < (along a b t).x ↔ s.x < (along a b u).x :=
  ⟨lt_along_x hτ hτr hc ht hu hty huy, lt_along_x hτ hτr hc hu ht huy hty⟩

theorem turn_zero_of_le (hab : a.y ≤ b.y) :
    turn 0 s (a, b) = if 0 < area s a b ∧ a.y ≤ s.y ∧ s.y < b.y then 1 else 0 := by
  have hfall : ¬(area s a b < -0 ∧ Above 0 s a ∧ ¬Above 0 s b) := by
    rw [above_zero_iff, above_zero_iff]
    rintro ⟨-, ha, hb⟩
    exact hb (ha.trans_le hab)
  rw [turn_eq le_rfl, if_neg hfall, sub_zero]
  simp only [above_zero_iff, not_lt]

/-- A side that rises over the height of `s` has it on its left when it passes to the right. -/
theorem area_pos_iff (ha : a.y ≤ s.y) (hb : s.y < b.y) {t : ℚ} (ht : (along a b t).y = s.y) :
    0 < area s a b ↔ s.x < (along a b t).x := by
  rw [← along_x_mul_rise ht, mul_pos_iff_of_pos_right (by linarith), sub_pos]

/-- Where a side that does not fall comes into the band between the two heights: its start, or its
crossing of the lower one. -/
theorem exists_enter (hτ : 0 ≤ tolerance) (hab : a.y ≤ b.y) (ha : a.y ≤ s.y + tolerance)
    (hb : s.y < b.y) :
    ∃ t, (0 ≤ t ∧ t ≤ 1) ∧ (s.y ≤ (along a b t).y ∧ (along a b t).y ≤ s.y + tolerance) ∧
      turn 0 s (a, b) + besides tolerance s a = if s.x < (along a b t).x then 1 else 0 := by
  rw [turn_zero_of_le hab, besides]
  rcases le_or_gt a.y s.y with hlow | hlow
  · obtain ⟨t, ht₀, ht₁, ht⟩ := exists_part ((min_le_left a.y b.y).trans hlow)
      (hb.le.trans (le_max_right a.y b.y))
    refine ⟨t, ⟨ht₀, ht₁⟩, ⟨ht.ge, ht.le.trans (by linarith)⟩, ?_⟩
    simp only [hlow, hb, hlow.not_gt, and_true, and_false, false_and, if_false, add_zero,
      area_pos_iff hlow hb ht]
  · refine ⟨0, ⟨le_rfl, zero_le_one⟩, ?_, ?_⟩
    · rw [along_zero]
      exact ⟨hlow.le, ha⟩
    · simp only [along_zero, hlow, ha, hlow.not_ge, and_true, and_false, false_and, if_false,
        zero_add]

/-- Where a side that does not fall goes out of the band between the two heights: its crossing of
the upper one, or its end. -/
theorem exists_leave (hab : a.y ≤ b.y) (ha : a.y ≤ s.y + tolerance) (hb : s.y < b.y)
    (hτ : 0 ≤ tolerance) :
    ∃ t, (0 ≤ t ∧ t ≤ 1) ∧ (s.y ≤ (along a b t).y ∧ (along a b t).y ≤ s.y + tolerance) ∧
      turn 0 (raised tolerance s) (a, b) + besides tolerance s b =
        if s.x < (along a b t).x then 1 else 0 := by
  rw [turn_zero_of_le hab, besides]
  rcases le_or_gt b.y (s.y + tolerance) with hhigh | hhigh
  · refine ⟨1, ⟨zero_le_one, le_rfl⟩, ?_, ?_⟩
    · rw [along_one]
      exact ⟨hb.le, hhigh⟩
    · have hlevel : ¬(raised tolerance s).y < b.y := not_lt.2 hhigh
      simp only [along_one, hb, hhigh, hlevel, and_true, and_false, if_false, zero_add]
  · obtain ⟨t, ht₀, ht₁, ht⟩ := exists_part ((min_le_left a.y b.y).trans ha)
      (hhigh.le.trans (le_max_right a.y b.y))
    have harea : 0 < area (raised tolerance s) a b ↔ s.x < (along a b t).x :=
      area_pos_iff (s := raised tolerance s) ha hhigh ht
    have hlow : a.y ≤ (raised tolerance s).y := ha
    have hlevel : (raised tolerance s).y < b.y := hhigh
    refine ⟨t, ⟨ht₀, ht₁⟩, ⟨(by linarith : s.y ≤ s.y + tolerance).trans ht.ge, ht.le⟩, ?_⟩
    simp only [harea, hlow, hlevel, hhigh.not_ge, and_true, and_false, if_false, add_zero]

theorem turn_raised_of_le (hτ : 0 ≤ tolerance) (hτr : tolerance < r) (hc : ClearOfSide r s a b)
    (hab : a.y ≤ b.y) :
    turn 0 s (a, b) + besides tolerance s a =
      turn 0 (raised tolerance s) (a, b) + besides tolerance s b := by
  by_cases hin : a.y ≤ s.y + tolerance ∧ s.y < b.y
  · obtain ⟨t, ht, hty, henter⟩ := exists_enter hτ hab hin.1 hin.2
    obtain ⟨u, hu, huy, hleave⟩ := exists_leave hab hin.1 hin.2 hτ
    rw [henter, hleave]
    exact if_congr (lt_along_x_iff hτ hτr hc ht hu hty huy) rfl rfl
  · -- a side outside the band turns nothing and has no end in it
    rw [turn_zero_of_le hab, turn_zero_of_le hab, besides, besides, if_neg, if_neg, if_neg, if_neg]
    · exact fun h => hin ⟨hab.trans h.2.2, h.2.1⟩
    · exact fun h => hin ⟨h.2.1, (by linarith : s.y ≤ s.y + tolerance).trans_lt h.2.2⟩
    · exact fun h => hin ⟨h.2.2, h.2.1.trans_le hab⟩
    · exact fun h => hin ⟨h.2.1.trans (by linarith), h.2.2⟩

/-- **A clear side on the way up**: what its turn changes by is a difference of its ends. -/
theorem turn_raised (hτ : 0 ≤ tolerance) (hτr : tolerance < r) (hc : ClearOfSide r s a b) :
    turn 0 s (a, b) =
      turn 0 (raised tolerance s) (a, b) + (besides tolerance s b - besides tolerance s a) := by
  rcases le_total a.y b.y with hab | hab
  · have h := turn_raised_of_le hτ hτr hc hab
    omega
  · have h := turn_raised_of_le hτ hτr hc.swap hab
    have hpoint := turn_swap (s := s) le_rfl a b
    have hlevel := turn_swap (s := raised tolerance s) le_rfl a b
    omega

/-- **The exact count does not change up to the level** of a point that is clear of the sides. -/
theorem winding_raised (hτ : 0 ≤ tolerance) (hτr : tolerance < r) {chain : List (Offset ℚ)}
    (hc : ClearOfSides r chain s) : winding 0 chain s = winding 0 chain (raised tolerance s) :=
  sum_edges_congr (besides tolerance s) fun e he => turn_raised hτ hτr (hc e he)

/-! ### What is misjudged -/

/-- What a side counts for at the level of `s`, exactly, less what it counts for at `s` with the
tolerance.  A side that rises over the level counts when its area is positive, and exceeds the
tolerance; one that falls below the level counts down when its area is negative, and exceeds the
tolerance.  At the level the area of a side is larger than at `s` by the tolerance for each unit of
its run. -/
def misjudged (tolerance : ℚ) (s : Offset ℚ) (e : Offset ℚ × Offset ℚ) : ℤ :=
  let atPoint := area s e.1 e.2
  let atLevel := atPoint + tolerance * (e.2.x - e.1.x)
  if ¬Above tolerance s e.1 ∧ Above tolerance s e.2 then
    (if 0 < atLevel then 1 else 0) - (if tolerance < atPoint then 1 else 0)
  else if Above tolerance s e.1 ∧ ¬Above tolerance s e.2 then
    (if atPoint < -tolerance then 1 else 0) - (if atLevel < 0 then 1 else 0)
  else 0

theorem turn_raised_eq_add_misjudged (hτ : 0 ≤ tolerance) (a b : Offset ℚ) :
    turn 0 (raised tolerance s) (a, b) =
      turn tolerance s (a, b) + misjudged tolerance s (a, b) := by
  simp only [turn_eq le_rfl, turn_eq hτ, misjudged, above_raised_iff, area_raised, neg_zero]
  by_cases ha : Above tolerance s a <;> by_cases hb : Above tolerance s b <;>
    simp only [ha, hb, not_true_eq_false, not_false_eq_true, and_true, and_false, if_true,
      if_false, sub_zero, zero_sub, add_zero] <;> omega

/-- The exact count at the level and the count at the point differ by what is misjudged. -/
theorem winding_raised_eq_add_misjudged (hτ : 0 ≤ tolerance) (chain : List (Offset ℚ)) :
    winding 0 chain (raised tolerance s) =
      winding tolerance chain s + ((edges chain).map (misjudged tolerance s)).sum := by
  rw [winding, winding, ← List.sum_map_add]
  exact congrArg List.sum
    (List.map_congr_left fun e _ => turn_raised_eq_add_misjudged hτ e.1 e.2)

/-- **The two counts differ by what is misjudged.** -/
theorem winding_eq_add_misjudged (hτ : 0 ≤ tolerance) (hτr : tolerance < r)
    {chain : List (Offset ℚ)} (hc : ClearOfSides r chain s) :
    winding 0 chain s =
      winding tolerance chain s + ((edges chain).map (misjudged tolerance s)).sum := by
  rw [winding_raised hτ hτr hc]
  exact winding_raised_eq_add_misjudged hτ chain

/-- A side misjudged one way is misjudged the other way when it is walked back. -/
theorem misjudged_swap (hτ : 0 ≤ tolerance) (a b : Offset ℚ) :
    misjudged tolerance s (b, a) = -misjudged tolerance s (a, b) := by
  have hab := turn_raised_eq_add_misjudged (s := s) hτ a b
  have hba := turn_raised_eq_add_misjudged (s := s) hτ b a
  rw [turn_swap le_rfl, turn_swap hτ] at hba
  omega

/-! ### Steep sides -/

/-- A side is steep when it rises or falls enough for its run: with the tolerance and the distance
of a polygon by at least a fifty-thousandth of a unit, and by as much again for each unit. -/
def Steep (r tolerance : ℚ) (a b : Offset ℚ) : Prop :=
  2 * tolerance * (1 + |b.x - a.x|) ≤ r * |b.y - a.y|

theorem Steep.swap (h : Steep r tolerance a b) : Steep r tolerance b a := by
  rw [Steep, abs_sub_comm a.x, abs_sub_comm a.y]
  exact h

/-- A steep side that rises over the level passes a clear point so far off that its areas at the
point and at the level agree. -/
theorem misjudged_eq_zero_of_rises (hr : 0 < r) (hτ : 0 ≤ tolerance) (hτr : 2 * tolerance ≤ r)
    (hc : ClearOfSide r s a b) (hs : Steep r tolerance a b) (ha : ¬Above tolerance s a)
    (hb : Above tolerance s b) : misjudged tolerance s (a, b) = 0 := by
  have hlow : a.y ≤ s.y + tolerance := not_lt.1 ha
  have hrise : 0 < b.y - a.y := sub_pos.2 (hlow.trans_lt hb)
  obtain ⟨t, ht₀, ht₁, ht⟩ := exists_part ((min_le_left a.y b.y).trans hlow)
    (hb.le.trans (le_max_right a.y b.y))
  have hlevel : ((along a b t).x - s.x) * (b.y - a.y) =
      area s a b + tolerance * (b.x - a.x) := by
    rw [← area_raised]
    exact along_x_mul_rise (s := raised tolerance s) ht
  have hdist := hc t ht₀ ht₁
  rw [distSq, show (along a b t).y = s.y + tolerance from ht] at hdist
  rw [Steep, abs_of_pos hrise] at hs
  have hrun := abs_le.1 (le_refl |b.x - a.x|)
  have hτrun := mul_le_mul_of_nonneg_left hrun.1 hτ
  have hτrun' := mul_le_mul_of_nonneg_left hrun.2 hτ
  rcases le_total (along a b t).x s.x with hx | hx
  · have hfar : r / 2 < s.x - (along a b t).x := by nlinarith
    have hm := mul_lt_mul_of_pos_right hfar hrise
    have hpoint : ¬tolerance < area s a b := by nlinarith
    have hlevel₀ : ¬0 < area s a b + tolerance * (b.x - a.x) := by nlinarith
    simp only [misjudged, ha, hb, hpoint, hlevel₀, not_false_eq_true, and_true, if_true, if_false,
      sub_self]
  · have hfar : r / 2 < (along a b t).x - s.x := by nlinarith
    have hm := mul_lt_mul_of_pos_right hfar hrise
    have hpoint : tolerance < area s a b := by nlinarith
    have hlevel₀ : 0 < area s a b + tolerance * (b.x - a.x) := by nlinarith
    simp only [misjudged, ha, hb, hpoint, hlevel₀, not_false_eq_true, and_true, if_true, sub_self]

/-- **No steep side is misjudged** from a point clear of it. -/
theorem misjudged_eq_zero_of_steep (hr : 0 < r) (hτ : 0 ≤ tolerance) (hτr : 2 * tolerance ≤ r)
    (hc : ClearOfSide r s a b)
    (hs : ¬(Above tolerance s a ↔ Above tolerance s b) → Steep r tolerance a b) :
    misjudged tolerance s (a, b) = 0 := by
  by_cases ha : Above tolerance s a <;> by_cases hb : Above tolerance s b
  · simp [misjudged, ha, hb]
  · have hs := hs (by simp [ha, hb])
    have hback := misjudged_eq_zero_of_rises hr hτ hτr hc.swap hs.swap hb ha
    rw [misjudged_swap hτ] at hback
    omega
  · exact misjudged_eq_zero_of_rises hr hτ hτr hc (hs (by simp [ha, hb])) ha hb
  · simp [misjudged, ha, hb]

/-! ### Polygons -/

/-- The distance that the tolerance is meant to cost at most, in units of the plane: about one
metre. -/
def meterAway : ℚ := 1 / 100

/-- **When the tolerance tells the truth.**  For a point more than a metre from every side of a
polygon, the answer is that of the exact count if and only if subtracting what is misjudged from the
exact count does not take it to zero or away from it.  This is so whenever the sides across the
level of the point are steep. -/
theorem Polygon.contains_eq_exact_iff (g : Polygon ℚ) (p : Location ℚ)
    (hc : ClearOfSides meterAway g.ring (project Gauge.scale g.origin p)) :
    let s := project Gauge.scale g.origin p
    let exact := winding 0 g.ring s
    (g.contains p = encloses 0 g.ring s ↔
      (exact = ((edges g.ring).map (misjudged Gauge.tolerance s)).sum ↔ exact = 0)) ∧
    ((∀ e ∈ edges g.ring, ¬(Above Gauge.tolerance s e.1 ↔ Above Gauge.tolerance s e.2) →
        Steep meterAway Gauge.tolerance e.1 e.2) →
      g.contains p = encloses 0 g.ring s) := by
  intro s exact
  have hr : 0 < meterAway := by norm_num [meterAway]
  have hτ : (0 : ℚ) ≤ Gauge.tolerance := tolerance_nonneg
  have hτr : Gauge.tolerance < meterAway := by norm_num [meterAway]
  have htolerant : g.contains p = true ↔ winding Gauge.tolerance g.ring s ≠ 0 :=
    encloses_iff_of_not_meets fun e he =>
      not_meets_of_clear hr hτ (by norm_num [meterAway]) (hc e he)
  have hexact : encloses 0 g.ring s = true ↔ exact ≠ 0 :=
    encloses_iff_of_not_meets fun e he =>
      not_meets_of_clear hr le_rfl (by norm_num [meterAway]) (hc e he)
  have hsum : exact = winding Gauge.tolerance g.ring s +
      ((edges g.ring).map (misjudged Gauge.tolerance s)).sum :=
    winding_eq_add_misjudged hτ hτr hc
  have hiff : g.contains p = encloses 0 g.ring s ↔
      (exact = ((edges g.ring).map (misjudged Gauge.tolerance s)).sum ↔ exact = 0) := by
    rw [Bool.eq_iff_iff, htolerant, hexact, not_iff_not]
    refine iff_congr ?_ Iff.rfl
    omega
  refine ⟨hiff, fun hsteep => hiff.2 ?_⟩
  have hnone : ((edges g.ring).map (misjudged Gauge.tolerance s)).sum = 0 := by
    refine List.sum_eq_zero fun m hm => ?_
    obtain ⟨e, he, rfl⟩ := List.mem_map.1 hm
    exact misjudged_eq_zero_of_steep hr hτ (by norm_num [meterAway]) (hc e he) (hsteep e he)
  rw [hnone]

/-! ### A crossing that is lost -/

theorem clearOfSide_of_area
    (h : r ^ 2 * ((b.x - a.x) ^ 2 + (b.y - a.y) ^ 2) < area s a b ^ 2) : ClearOfSide r s a b := by
  intro t _ _
  have harea : area s a b = (b.x - a.x) * (s.y - (along a b t).y) -
      (b.y - a.y) * (s.x - (along a b t).x) := by
    simp only [area_eq, along]
    ring
  have hlen : 0 ≤ (b.x - a.x) ^ 2 + (b.y - a.y) ^ 2 := by positivity
  have hcauchy : area s a b ^ 2 ≤
      ((b.x - a.x) ^ 2 + (b.y - a.y) ^ 2) * distSq s (along a b t) := by
    rw [harea, distSq]
    linarith [sq_nonneg ((b.x - a.x) * (s.x - (along a b t).x) +
      (b.y - a.y) * (s.y - (along a b t).y))]
  by_contra hle
  have hmul := mul_le_mul_of_nonneg_left (not_lt.1 hle) hlen
  linarith

/-- A quadrilateral one of whose sides is a hundred nanometres long. -/
def sliver : Polygon ℚ :=
  ⟨[⟨0, 0⟩, ⟨1, 1 / 2⟩, ⟨1, 1 / 2 + 1 / 10 ^ 12⟩, ⟨0, 1⟩], by decide⟩

/-- A location five kilometres south of the short side of the quadrilateral. -/
def besideSliver : Location ℚ := ⟨95 / 100, 1 / 2 - 995 / 10 ^ 13⟩

theorem sliver_clear :
    ClearOfSides meterAway sliver.ring (project Gauge.scale sliver.origin besideSliver) := by
  have h : ∀ e ∈ edges sliver.ring, meterAway ^ 2 *
      ((e.2.x - e.1.x) ^ 2 + (e.2.y - e.1.y) ^ 2) <
        area (project Gauge.scale sliver.origin besideSliver) e.1 e.2 ^ 2 := by
    decide +kernel
  exact fun e he => clearOfSide_of_area (h e he)

theorem sliver_agrees_iff :
    ClearOfSides meterAway sliver.ring (project Gauge.scale sliver.origin besideSliver) ∧
      (sliver.contains besideSliver =
          encloses 0 sliver.ring (project Gauge.scale sliver.origin besideSliver) ↔
        (winding 0 sliver.ring (project Gauge.scale sliver.origin besideSliver) =
            ((edges sliver.ring).map (misjudged Gauge.tolerance
              (project Gauge.scale sliver.origin besideSliver))).sum ↔
          winding 0 sliver.ring (project Gauge.scale sliver.origin besideSliver) = 0)) :=
  ⟨sliver_clear, (Polygon.contains_eq_exact_iff _ _ sliver_clear).1⟩

/-- **The crossing of the short side is lost**: the point lies inside, kilometres from every side,
and the polygon is said not to contain it. -/
theorem sliver_loses_crossing :
    ClearOfSides meterAway sliver.ring (project Gauge.scale sliver.origin besideSliver) ∧
      sliver.contains besideSliver = false ∧
      encloses 0 sliver.ring (project Gauge.scale sliver.origin besideSliver) = true :=
  ⟨sliver_clear, by decide +kernel, by decide +kernel⟩

end Geofence
