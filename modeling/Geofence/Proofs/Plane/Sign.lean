/-
Signs of rational quantities.

In exact arithmetic the sign with a tolerance is given by comparisons with the tolerance and its
negative, and lying between two values by their minimum and maximum.

Main results:

* `Geofence.sign_eq_plus_iff`, `Geofence.sign_eq_minus_iff`, `Geofence.sign_eq_zero_iff` — the three
  signs;
* `Geofence.between_iff` — lying between two values.
-/

import Mathlib
import Geofence.Plane.Offset

set_option relaxedAutoImplicit false
set_option autoImplicit false

namespace Geofence

/-! ### The constants -/

@[simp] theorem tolerance_rat : (Gauge.tolerance : ℚ) = 1 / 10 ^ 7 := rfl

@[simp] theorem scale_rat : (Gauge.scale : ℚ) = 1000 := rfl

@[simp] theorem fullTurn_rat : (Gauge.fullTurn : ℚ) = 360 := rfl

@[simp] theorem two_rat : (Gauge.two : ℚ) = 2 := rfl

theorem tolerance_nonneg : (0 : ℚ) ≤ Gauge.tolerance := by norm_num

/-! ### Signs -/

theorem sign_eq_plus_iff {tolerance v : ℚ} : sign tolerance v = .plus ↔ tolerance < v := by
  unfold sign
  split_ifs <;> simp_all

theorem sign_eq_minus_iff {tolerance v : ℚ} (h : 0 ≤ tolerance) :
    sign tolerance v = .minus ↔ v < -tolerance := by
  unfold sign
  split_ifs with h₁ h₂
  · simp only [false_iff]
    linarith
  · simpa using h₂
  · simpa using h₂

theorem sign_eq_zero_iff {tolerance v : ℚ} : sign tolerance v = .zero ↔ |v| ≤ tolerance := by
  rw [abs_le]
  unfold sign
  split_ifs with h₁ h₂
  · simp only [false_iff]
    intro h
    linarith [h.2]
  · simp only [false_iff]
    intro h
    linarith [h.1]
  · simp only [true_iff]
    exact ⟨not_lt.1 h₂, not_lt.1 h₁⟩

/-! ### Between two values -/

theorem between_iff {a b v : ℚ} : between a b v = true ↔ min a b ≤ v ∧ v ≤ max a b := by
  unfold between
  rw [Bool.and_eq_true, decide_eq_true_eq, decide_eq_true_eq]
  refine and_congr ?_ ?_
  · rcases lt_or_ge b a with h | h
    · rw [if_pos h, min_eq_right h.le]
    · rw [if_neg (not_lt.2 h), min_eq_left h]
  · rcases lt_or_ge a b with h | h
    · rw [if_pos h, max_eq_right h.le]
    · rw [if_neg (not_lt.2 h), max_eq_left h]

/-! ### Offsets -/

@[simp] theorem Offset.sub_x (a b : Offset ℚ) : (a - b).x = a.x - b.x := rfl

@[simp] theorem Offset.sub_y (a b : Offset ℚ) : (a - b).y = a.y - b.y := rfl

end Geofence
