/-
Differences of longitudes, the shorter way round.

The difference of two longitudes is taken straight or over the 180th meridian, as three signs with a
tolerance say.  For longitudes within a half turn to either side of the prime meridian it always is
the difference up to full turns, but for twice the tolerance, and it is exactly the difference the
shorter way when that is half a degree less than a half turn.  Near the half turn either way may be
taken.

Longitudes are compared on a stretch of the circle by lifting them into the full turn that starts at
its western end; turning the globe moves what is lifted along.

Main definitions:

* `Geofence.lifted` — a longitude in the full turn from a meridian on;
* `Geofence.WithinArc` — locations whose longitudes lie on an arc.

Main results:

* `Geofence.eastward_eq` — the difference in closed form;
* `Geofence.eastward_eq_sub_of_side` — it is straight on one side of the prime meridian;
* `Geofence.eastward_near` — it is the difference up to full turns, nearly;
* `Geofence.eastward_eq_of_short` — it is the shorter way, exactly;
* `Geofence.lifted_turn` — lifting goes along with a turn.
-/

import Geofence.Plane.Location
import Geofence.Proofs.Plane.Sign

set_option relaxedAutoImplicit false
set_option autoImplicit false

namespace Geofence

/-! ### The difference in closed form -/

@[simp] theorem magnitude_eq_abs (v : ℚ) : magnitude v = |v| := by
  unfold magnitude
  split_ifs with h
  · rw [abs_of_neg (by linarith)]
  · rw [abs_of_nonneg (by linarith)]

/-- Whether the way over the 180th meridian is the shorter one, by more than the tolerance. -/
def Wraps (o l : ℚ) : Prop := 360 + Gauge.tolerance < (|o| + |l|) * 2

instance (o l : ℚ) : Decidable (Wraps o l) :=
  inferInstanceAs (Decidable (360 + Gauge.tolerance < (|o| + |l|) * 2))

theorem sign_across_eq_plus_iff (o l : ℚ) :
    sign Gauge.tolerance ((magnitude o + magnitude l) * Gauge.two - Gauge.fullTurn) = .plus ↔
      Wraps o l := by
  rw [sign_eq_plus_iff, lt_sub_iff_add_lt', magnitude_eq_abs, magnitude_eq_abs, fullTurn_rat,
    two_rat, Wraps]

/-- **The difference in closed form**: over the 180th meridian from the east or from the west, or
straight. -/
theorem eastward_eq (o l : ℚ) :
    eastward o l =
      if Gauge.tolerance < o ∧ l ≤ Gauge.tolerance ∧ Wraps o l then 360 - (|o| + |l|)
      else if o < -Gauge.tolerance ∧ -Gauge.tolerance ≤ l ∧ Wraps o l then |o| + |l| - 360
      else l - o := by
  have hτ := tolerance_nonneg
  simp only [eastward, sign_across_eq_plus_iff]
  cases ho : sign Gauge.tolerance o with
  | zero =>
      have habs := abs_le.1 (sign_eq_zero_iff.1 ho)
      rw [if_pos (.inl rfl), if_neg fun h => habs.2.not_gt h.1, if_neg fun h => habs.1.not_gt h.1]
  | plus =>
      have hpos := sign_eq_plus_iff.1 ho
      have hneg : ¬o < -Gauge.tolerance := by linarith
      by_cases hl : Gauge.tolerance < l
      · rw [if_pos (.inr (sign_eq_plus_iff.2 hl).symm), if_neg fun h => h.2.1.not_gt hl,
          if_neg fun h => hneg h.1]
      · have hside : ¬(Sign.plus = .zero ∨ Sign.plus = sign Gauge.tolerance l) := by
          rintro (h | h)
          · cases h
          · exact hl (sign_eq_plus_iff.1 h.symm)
        rw [if_neg hside]
        simp only [hpos, not_lt.1 hl, hneg, if_false, if_true, true_and, false_and,
          fullTurn_rat, magnitude_eq_abs]
  | minus =>
      have hneg := (sign_eq_minus_iff hτ).1 ho
      have hpos : ¬Gauge.tolerance < o := by linarith
      by_cases hl : l < -Gauge.tolerance
      · rw [if_pos (.inr ((sign_eq_minus_iff hτ).2 hl).symm), if_neg fun h => hpos h.1,
          if_neg fun h => h.2.1.not_gt hl]
      · have hside : ¬(Sign.minus = .zero ∨ Sign.minus = sign Gauge.tolerance l) := by
          rintro (h | h)
          · cases h
          · exact hl ((sign_eq_minus_iff hτ).1 h.symm)
        rw [if_neg hside]
        simp only [hpos, not_lt.1 hl, hneg, if_false, true_and, false_and, reduceCtorEq,
          fullTurn_rat, magnitude_eq_abs, neg_sub]

/-- **The difference is straight** for an origin to the west on the same side of the prime meridian,
if it does not lie on the 180th one. -/
theorem eastward_eq_sub_of_side {o l : ℚ}
    (h : 0 ≤ o ∧ o ≤ l ∨ -180 + Gauge.tolerance / 2 ≤ o ∧ o ≤ l ∧ l ≤ 0) :
    eastward o l = l - o := by
  have hτ := tolerance_nonneg
  rw [eastward_eq, if_neg, if_neg]
  · rintro ⟨ho, hl, hw⟩
    rcases h with ⟨ho', -⟩ | ⟨ho', -, hl'⟩
    · linarith
    · rw [Wraps, abs_of_neg (by linarith : o < 0), abs_of_nonpos hl'] at hw
      linarith
  · rintro ⟨ho, hl, -⟩
    rcases h with ⟨-, hol⟩ | ⟨-, hol, hl'⟩ <;> linarith

/-! ### The shorter way -/

/-- **The difference up to full turns**, but for twice the tolerance. -/
theorem eastward_near (o l : ℚ) :
    ∃ k : ℤ, |eastward o l - (l - o + 360 * k)| ≤ 2 * Gauge.tolerance := by
  have hτ := tolerance_nonneg
  rw [eastward_eq]
  split_ifs with hplus hminus
  · obtain ⟨ho, hl, -⟩ := hplus
    refine ⟨1, ?_⟩
    rw [abs_of_pos (hτ.trans_lt ho), abs_le]
    rcases abs_cases l with ⟨h, _⟩ | ⟨h, _⟩ <;> rw [h] <;> push_cast <;> constructor <;> linarith
  · obtain ⟨ho, hl, -⟩ := hminus
    refine ⟨-1, ?_⟩
    rw [abs_of_neg (by linarith : o < 0), abs_le]
    rcases abs_cases l with ⟨h, _⟩ | ⟨h, _⟩ <;> rw [h] <;> push_cast <;> constructor <;> linarith
  · refine ⟨0, ?_⟩
    rw [Int.cast_zero, mul_zero, add_zero, sub_self, abs_zero]
    linarith

/-- **The shorter way, exactly**, when it is half a degree less than a half turn. -/
theorem eastward_eq_of_short {o l : ℚ} {k : ℤ} (ho : |o| ≤ 180) (hl : |l| ≤ 180)
    (hk : |l - o + 360 * k| ≤ 359 / 2) : eastward o l = l - o + 360 * k := by
  obtain ⟨ho₀, ho₁⟩ := abs_le.1 ho
  obtain ⟨hl₀, hl₁⟩ := abs_le.1 hl
  obtain ⟨hk₀, hk₁⟩ := abs_le.1 hk
  have hτ : (Gauge.tolerance : ℚ) ≤ 1 / 10 := by norm_num
  have hτ₀ := tolerance_nonneg
  have hk_lt : k < 2 := by
    have hlt : (k : ℚ) < 2 := by linarith
    exact_mod_cast hlt
  have hk_gt : -2 < k := by
    have hlt : (-2 : ℚ) < k := by linarith
    exact_mod_cast hlt
  rw [eastward_eq]
  -- the way over the 180th meridian is taken exactly when `k` is not zero
  obtain rfl | rfl | rfl : k = -1 ∨ k = 0 ∨ k = 1 := by omega
  · push_cast at hk₀ hk₁ ⊢
    have ho_neg : o < -Gauge.tolerance := by linarith
    have hl_pos : -Gauge.tolerance ≤ l := by linarith
    have habs : |o| + |l| = l - o := by
      rw [abs_of_neg (by linarith : o < 0), abs_of_pos (by linarith : 0 < l)]
      ring
    have hw : Wraps o l := by
      rw [Wraps, habs]
      linarith
    rw [if_neg (fun h => h.1.not_gt (by linarith)), if_pos ⟨ho_neg, hl_pos, hw⟩, habs]
    ring
  · rw [Int.cast_zero, mul_zero, add_zero] at hk₀ hk₁ ⊢
    rw [if_neg, if_neg]
    · rintro ⟨ho_neg, hl_pos, hw⟩
      rw [Wraps, abs_of_neg (by linarith : o < 0)] at hw
      rcases abs_cases l with ⟨h, _⟩ | ⟨h, _⟩ <;> rw [h] at hw <;> linarith
    · rintro ⟨ho_pos, hl_neg, hw⟩
      rw [Wraps, abs_of_pos (by linarith : 0 < o)] at hw
      rcases abs_cases l with ⟨h, _⟩ | ⟨h, _⟩ <;> rw [h] at hw <;> linarith
  · push_cast at hk₀ hk₁ ⊢
    have ho_pos : Gauge.tolerance < o := by linarith
    have hl_neg : l ≤ Gauge.tolerance := by linarith
    have habs : |o| + |l| = o - l := by
      rw [abs_of_pos (by linarith : 0 < o), abs_of_neg (by linarith : l < 0)]
      ring
    have hw : Wraps o l := by
      rw [Wraps, habs]
      linarith
    rw [if_pos ⟨ho_pos, hl_neg, hw⟩, habs]
    ring

/-! ### Lifting a longitude -/

/-- The longitude `l` in the full turn that starts at the meridian `west`. -/
noncomputable def lifted (west l : ℚ) : ℚ := toIcoMod (by norm_num : (0 : ℚ) < 360) west l

theorem le_lifted (west l : ℚ) : west ≤ lifted west l := left_le_toIcoMod _ west l

theorem lifted_lt (west l : ℚ) : lifted west l < west + 360 := toIcoMod_lt_right _ west l

theorem exists_lifted_eq (west l : ℚ) : ∃ k : ℤ, lifted west l = l + 360 * k := by
  refine ⟨-toIcoDiv (by norm_num : (0 : ℚ) < 360) west l, ?_⟩
  rw [lifted, toIcoMod, zsmul_eq_mul]
  push_cast
  ring

theorem lifted_eq_of_mem {west l : ℚ} {k : ℤ} (h₀ : west ≤ l + 360 * k)
    (h₁ : l + 360 * k < west + 360) : lifted west l = l + 360 * k := by
  refine (toIcoMod_eq_iff _).2 ⟨⟨h₀, h₁⟩, -k, ?_⟩
  rw [zsmul_eq_mul]
  push_cast
  ring

/-- **Lifting goes along with a turn** of the globe. -/
theorem lifted_turn {west d l l' : ℚ} {k : ℤ} (h : l' = l + d + 360 * k) :
    lifted (west + d) l' = lifted west l + d := by
  obtain ⟨j, hj⟩ := exists_lifted_eq west l
  have h₀ := le_lifted west l
  have h₁ := lifted_lt west l
  have hshift : l' + 360 * ((j - k : ℤ) : ℚ) = lifted west l + d := by
    rw [h, hj]
    push_cast
    ring
  rw [lifted_eq_of_mem (k := j - k), hshift]
  · rw [hshift]
    linarith
  · rw [hshift]
    linarith

/-! ### Arcs -/

/-- All locations lie on an arc of `width` degrees to the east of some meridian. -/
def WithinArc (width : ℚ) (vs : List (Location ℚ)) : Prop :=
  ∃ west : ℚ, ∀ v ∈ vs, ∃ k : ℤ, west ≤ v.lng + 360 * k ∧ v.lng + 360 * k ≤ west + width

/-- Lifted from the meridian at its western end, an arc stays an arc. -/
theorem WithinArc.lifted_le {width : ℚ} {vs : List (Location ℚ)} (h : WithinArc width vs)
    (hw : width < 360) : ∃ west, ∀ v ∈ vs, lifted west v.lng ≤ west + width := by
  obtain ⟨west, hwest⟩ := h
  refine ⟨west, fun v hv => ?_⟩
  obtain ⟨k, h₀, h₁⟩ := hwest v hv
  rw [lifted_eq_of_mem h₀ (by linarith)]
  exact h₁

end Geofence
