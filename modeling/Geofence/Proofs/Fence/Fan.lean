/-
The count of crossings is the winding number.

The first point of a closed chain forms a triangle with every side it is not an end of.  Counting
the triangles round a point, those walked to the left less those walked to the right, is one way to
say how often the chain winds round it, and no ray occurs in it.  It agrees with the count of
crossings for a point that is clear of all the lines involved and has no point of the chain in the
band between its height and its level: crossings are antisymmetric, so those of the spokes cancel,
and round one triangle the crossings count it.

Main definitions:

* `Geofence.triangleTurn` — how often a triangle winds round a point.

Main results:

* `Geofence.turn_triangle` — the crossings of the sides of a triangle;
* `Geofence.winding_eq_sum_fan` — the crossings of a chain are the turns of its fan;
* `Geofence.Polygon.contains_iff_sum_fan` — a polygon contains the points its fan winds round.
-/

import Geofence.Proofs.Fence.Winding

set_option relaxedAutoImplicit false
set_option autoImplicit false

namespace Geofence

/-! ### Triangles -/

/-- One when all three areas are positive, minus one when all are negative, and zero otherwise. -/
def orientation (α β γ : ℚ) : ℤ :=
  if 0 < α ∧ 0 < β ∧ 0 < γ then 1 else if α < 0 ∧ β < 0 ∧ γ < 0 then -1 else 0

/-- How often a triangle winds round `s`: once to the left when `s` is strictly to the left of all
three sides, once to the right when it is strictly to the right of them, and not at all
otherwise. -/
def triangleTurn (s a b c : Offset ℚ) : ℤ :=
  orientation (area s a b) (area s b c) (area s c a)

/-- The heights of three points over `s`, weighted with the areas of the opposite sides, balance. -/
theorem area_mul_height_balance (s a b c : Offset ℚ) :
    area s a b * (c.y - s.y) + area s b c * (a.y - s.y) + area s c a * (b.y - s.y) = 0 := by
  simp only [area_eq]
  ring

/-- What a side with the area `α` adds that goes from the height `u` to the height `v`. -/
def crossing (α u v : ℚ) : ℤ :=
  (if 0 < α ∧ ¬0 < u ∧ 0 < v then 1 else 0) - (if α < 0 ∧ 0 < u ∧ ¬0 < v then 1 else 0)

section Heights

variable {α β γ u v w : ℚ}

/-- Weighting the balance once more makes the weight of one side a square. -/
theorem balance_mul (hbal : α * w + β * u + γ * v = 0) :
    α * α * w + α * β * u + α * γ * v = 0 := by
  linear_combination α * hbal

/-- When the two sides that meet in a corner agree against the third one, the corner is not alone
on its side of the height of the point, and the crossings cancel. -/
theorem crossing_sum_of_disagree (hbal : α * w + β * u + γ * v = 0) (hαγ : 0 < α * γ)
    (hαβ : α * β < 0) : crossing α u v + crossing β v w + crossing γ w u = 0 := by
  have hα : 0 < α * α := mul_self_pos.2 (left_ne_zero_of_mul hαγ.ne')
  have hsum := balance_mul hbal
  have hbelow : ¬(¬0 < u ∧ 0 < v ∧ 0 < w) := by
    rintro ⟨hu, hv, hw⟩
    have h₁ := mul_pos hα hw
    have h₂ := mul_nonneg_of_nonpos_of_nonpos hαβ.le (not_lt.1 hu)
    have h₃ := mul_pos hαγ hv
    linarith
  have habove : ¬(0 < u ∧ ¬0 < v ∧ ¬0 < w) := by
    rintro ⟨hu, hv, hw⟩
    have h₁ := mul_nonpos_of_nonneg_of_nonpos hα.le (not_lt.1 hw)
    have h₂ := mul_neg_of_neg_of_pos hαβ hu
    have h₃ := mul_nonpos_of_nonneg_of_nonpos hαγ.le (not_lt.1 hv)
    linarith
  -- the two crossings, if there are any, are of one rising and one falling side that disagree
  have hsigns : (0 < α ∧ β < 0 ∧ 0 < γ) ∨ (α < 0 ∧ 0 < β ∧ γ < 0) := by
    rcases pos_and_pos_or_neg_and_neg_of_mul_pos hαγ with ⟨h, h'⟩ | ⟨h, h'⟩
    · exact .inl ⟨h, (mul_neg_iff.1 hαβ).elim (·.2) fun hn => absurd h hn.1.not_gt, h'⟩
    · exact .inr ⟨h, (mul_neg_iff.1 hαβ).elim (fun hn => absurd h hn.1.not_gt) (·.2), h'⟩
  unfold crossing
  rcases hsigns with ⟨h₁, h₂, h₃⟩ | ⟨h₁, h₂, h₃⟩ <;>
    by_cases hu : 0 < u <;> by_cases hv : 0 < v <;> by_cases hw : 0 < w <;>
      simp_all [lt_asymm]

/-- When all three sides agree, the corners lie on both sides of the height of the point, and one
crossing counts. -/
theorem crossing_sum_of_agree (hbal : α * w + β * u + γ * v = 0) (hαβ : 0 < α * β)
    (hαγ : 0 < α * γ) (huv : u = 0 → v = 0 → α = 0) :
    crossing α u v + crossing β v w + crossing γ w u = if 0 < α then 1 else -1 := by
  have hα : 0 < α * α := mul_self_pos.2 (left_ne_zero_of_mul hαγ.ne')
  have hsum := balance_mul hbal
  have habove : ¬(0 < u ∧ 0 < v ∧ 0 < w) := by
    rintro ⟨hu, hv, hw⟩
    have h₁ := mul_pos hα hw
    have h₂ := mul_pos hαβ hu
    have h₃ := mul_pos hαγ hv
    linarith
  have hbelow : ¬(¬0 < u ∧ ¬0 < v ∧ ¬0 < w) := by
    rintro ⟨hu, hv, hw⟩
    have h₁ := mul_nonpos_of_nonneg_of_nonpos hα.le (not_lt.1 hw)
    have h₂ := mul_nonpos_of_nonneg_of_nonpos hαβ.le (not_lt.1 hu)
    have h₃ := mul_nonpos_of_nonneg_of_nonpos hαγ.le (not_lt.1 hv)
    have hu₀ := (mul_eq_zero.1 (by linarith : α * β * u = 0)).resolve_left hαβ.ne'
    have hv₀ := (mul_eq_zero.1 (by linarith : α * γ * v = 0)).resolve_left hαγ.ne'
    exact hα.ne' (by rw [huv hu₀ hv₀, zero_mul])
  have hsigns : (0 < α ∧ 0 < β ∧ 0 < γ) ∨ (α < 0 ∧ β < 0 ∧ γ < 0) := by
    rcases pos_and_pos_or_neg_and_neg_of_mul_pos hαβ with ⟨h, h'⟩ | ⟨h, h'⟩
    · exact .inl ⟨h, h', (mul_pos_iff_of_pos_left h).1 hαγ⟩
    · exact .inr ⟨h, h', (mul_pos_iff.1 hαγ).elim (fun hp => absurd h hp.1.not_gt) (·.2)⟩
  unfold crossing
  rcases hsigns with ⟨h₁, h₂, h₃⟩ | ⟨h₁, h₂, h₃⟩ <;>
    by_cases hu : 0 < u <;> by_cases hv : 0 < v <;> by_cases hw : 0 < w <;>
      simp_all [lt_asymm]

theorem orientation_of_disagree (h : α * β < 0 ∨ α * γ < 0) : orientation α β γ = 0 := by
  rw [orientation, if_neg, if_neg]
  · rintro ⟨hα, hβ, hγ⟩
    have h₁ := mul_pos_of_neg_of_neg hα hβ
    have h₂ := mul_pos_of_neg_of_neg hα hγ
    exact h.elim (lt_asymm h₁) (lt_asymm h₂)
  · rintro ⟨hα, hβ, hγ⟩
    exact h.elim (lt_asymm (mul_pos hα hβ)) (lt_asymm (mul_pos hα hγ))

/-- Sides that all agree wind once, to the side that the first one says. -/
theorem orientation_of_agree (hαβ : 0 < α * β) (hαγ : 0 < α * γ) :
    orientation α β γ = if 0 < α then 1 else -1 := by
  rw [orientation]
  rcases pos_and_pos_or_neg_and_neg_of_mul_pos hαβ with ⟨hα, hβ⟩ | ⟨hα, hβ⟩
  · have hγ := (mul_pos_iff_of_pos_left hα).1 hαγ
    rw [if_pos ⟨hα, hβ, hγ⟩, if_pos hα]
  · have hγ := neg_of_mul_pos_right hαγ hα.le
    rw [if_neg fun h => h.1.not_gt hα, if_pos ⟨hα, hβ, hγ⟩, if_neg hα.not_gt]

end Heights

variable {tolerance : ℚ} {s a b c : Offset ℚ}

theorem turn_eq_crossing (h : 0 ≤ tolerance) (hab : tolerance < |area s a b|)
    (ha : Above tolerance s a ↔ s.y < a.y) (hb : Above tolerance s b ↔ s.y < b.y) :
    turn tolerance s (a, b) = crossing (area s a b) (a.y - s.y) (b.y - s.y) := by
  have hp : tolerance < area s a b ↔ 0 < area s a b := by
    rcases lt_abs.1 hab with hc | hc
    · exact iff_of_true hc (h.trans_lt hc)
    · exact iff_of_false (by linarith) (by linarith)
  have hm : area s a b < -tolerance ↔ area s a b < 0 := by
    rcases lt_abs.1 hab with hc | hc
    · exact iff_of_false (by linarith) (by linarith)
    · exact iff_of_true (by linarith) (by linarith)
  simp only [turn_eq h, crossing, hp, hm, ha, hb, sub_pos]

/-- **The crossings of a triangle count it**, clear of its sides and with no corner in the band
between the height of the point and its level. -/
theorem turn_triangle (h : 0 ≤ tolerance) (hab : tolerance < |area s a b|)
    (hbc : tolerance < |area s b c|) (hca : tolerance < |area s c a|)
    (ha : Above tolerance s a ↔ s.y < a.y) (hb : Above tolerance s b ↔ s.y < b.y)
    (hc : Above tolerance s c ↔ s.y < c.y) :
    turn tolerance s (a, b) + turn tolerance s (b, c) + turn tolerance s (c, a) =
      triangleTurn s a b c := by
  have hbal := area_mul_height_balance s a b c
  have hα := abs_pos.1 (h.trans_lt hab)
  have hβ := abs_pos.1 (h.trans_lt hbc)
  have hγ := abs_pos.1 (h.trans_lt hca)
  have hflat : a.y - s.y = 0 → b.y - s.y = 0 → area s a b = 0 := by
    intro ha₀ hb₀
    rw [area_eq, ha₀, hb₀]
    ring
  rw [turn_eq_crossing h hab ha hb, turn_eq_crossing h hbc hb hc, turn_eq_crossing h hca hc ha,
    triangleTurn]
  generalize area s a b = α at *
  generalize area s b c = β at *
  generalize area s c a = γ at *
  have hαα : 0 < α * α := mul_self_pos.2 hα
  -- the corner whose two sides agree is `a`, `b` or `c`, or all three sides agree
  rcases (mul_ne_zero hα hβ).lt_or_gt with hαβ | hαβ <;>
    rcases (mul_ne_zero hα hγ).lt_or_gt with hαγ | hαγ
  · have hγβ : 0 < γ * β := by
      have hprod := mul_pos_of_neg_of_neg hαβ hαγ
      rw [mul_mul_mul_comm, mul_comm β γ] at hprod
      exact (mul_pos_iff_of_pos_left hαα).1 hprod
    have hsum := crossing_sum_of_disagree (by linarith) hγβ (by linarith : γ * α < 0)
      (w := b.y - s.y) (u := c.y - s.y) (v := a.y - s.y)
    rw [orientation_of_disagree (.inl hαβ)]
    linarith
  · have hsum := crossing_sum_of_disagree hbal hαγ hαβ
    rw [orientation_of_disagree (.inl hαβ)]
    exact hsum
  · have hβγ : β * γ < 0 := by
      have hprod := mul_neg_of_pos_of_neg hαβ hαγ
      rw [mul_mul_mul_comm] at hprod
      exact (pos_iff_neg_of_mul_neg hprod).1 hαα
    have hsum := crossing_sum_of_disagree (by linarith) (by linarith : 0 < β * α) hβγ
      (w := a.y - s.y) (u := b.y - s.y) (v := c.y - s.y)
    rw [orientation_of_disagree (.inr hαγ)]
    linarith
  · rw [crossing_sum_of_agree hbal hαβ hαγ hflat, orientation_of_agree hαβ hαγ]

/-! ### Chains and polygons -/

/-- A point is clear of the fan of a chain when it is farther than the tolerance, in area, from the
line of every side and of every spoke, and no point of the chain lies in the band between its
height and its level. -/
structure ClearOfFan (tolerance : ℚ) (chain : List (Offset ℚ)) (s : Offset ℚ) : Prop where
  sides : ∀ e ∈ edges chain, tolerance < |area s e.1 e.2|
  spokes : ∀ e ∈ spokes chain, tolerance < |area s e.1 e.2|
  band : ∀ v ∈ chain, ¬(s.y < v.y ∧ v.y ≤ s.y + tolerance)

variable {chain : List (Offset ℚ)}

theorem ClearOfFan.above_iff (h : 0 ≤ tolerance) (hc : ClearOfFan tolerance chain s)
    {v : Offset ℚ} (hv : v ∈ chain) : Above tolerance s v ↔ s.y < v.y := by
  rw [Above]
  constructor
  · intro hlt
    linarith
  · intro hlt
    exact not_le.1 fun hle => hc.band v hv ⟨hlt, hle⟩

theorem ClearOfFan.not_meets (hc : ClearOfFan tolerance chain s) {e : Offset ℚ × Offset ℚ}
    (he : e ∈ edges chain) : ¬Meets tolerance s e := by
  intro hm
  exact (meets_iff.1 hm).1.not_gt (hc.sides e he)

/-- **The crossings of a chain are the turns of its fan.** -/
theorem winding_eq_sum_fan (h : 0 ≤ tolerance) (hc : ClearOfFan tolerance chain s) :
    winding tolerance chain s =
      ((fan chain).map fun t => triangleTurn s t.1 t.2.1 t.2.2).sum := by
  rw [winding, sum_edges_eq_sum_fan (fun a b => turn_swap h a b)]
  refine congrArg List.sum (List.map_congr_left ?_)
  rintro ⟨v, a, b⟩ ht
  obtain ⟨hfirst, hside, hlast⟩ := mem_of_mem_fan ht
  have hv : v ∈ chain := (mem_of_mem_spokes hfirst).1
  obtain ⟨ha, hb⟩ : a ∈ chain ∧ b ∈ chain := mem_of_mem_edges hside
  have hva : tolerance < |area s v a| := hc.spokes (v, a) hfirst
  have hab : tolerance < |area s a b| := hc.sides (a, b) hside
  have hbv : tolerance < |area s b v| := by
    rw [area_swap, abs_neg]
    exact hc.spokes (v, b) hlast
  exact turn_triangle h hva hab hbv (hc.above_iff h hv) (hc.above_iff h ha) (hc.above_iff h hb)

/-- **A polygon contains the points its fan winds round**, among those clear of the fan: the
crossings that are counted along a ray are the winding number. -/
theorem Polygon.contains_iff_sum_fan (g : Polygon ℚ) (p : Location ℚ)
    (hc : ClearOfFan Gauge.tolerance g.ring (project Gauge.scale g.origin p)) :
    g.contains p = true ↔
      ((fan g.ring).map fun t =>
        triangleTurn (project Gauge.scale g.origin p) t.1 t.2.1 t.2.2).sum ≠ 0 := by
  rw [← winding_eq_sum_fan tolerance_nonneg hc]
  exact encloses_iff_of_not_meets fun e he => hc.not_meets he

/-- A five-pointed star, drawn in one line. -/
def pentagram : Polygon ℚ := ⟨[⟨0, 10⟩, ⟨6, -8⟩, ⟨-10, 3⟩, ⟨10, 3⟩, ⟨-6, -8⟩], by decide⟩

theorem pentagram_clear :
    ClearOfFan Gauge.tolerance pentagram.ring
      (project Gauge.scale pentagram.origin ⟨0, 0⟩) where
  sides := by decide +kernel
  spokes := by decide +kernel
  band := by decide +kernel

/-- The star winds twice round its middle. -/
theorem pentagram_contains_middle :
    ClearOfFan Gauge.tolerance pentagram.ring (project Gauge.scale pentagram.origin ⟨0, 0⟩) ∧
      (pentagram.contains ⟨0, 0⟩ = true ↔
        ((fan pentagram.ring).map fun t =>
          triangleTurn (project Gauge.scale pentagram.origin ⟨0, 0⟩) t.1 t.2.1 t.2.2).sum ≠ 0) ∧
      (((fan pentagram.ring).map fun t =>
        triangleTurn (project Gauge.scale pentagram.origin ⟨0, 0⟩) t.1 t.2.1 t.2.2).sum).natAbs
          = 2 :=
  ⟨pentagram_clear, Polygon.contains_iff_sum_fan _ _ pentagram_clear, by decide +kernel⟩

end Geofence
