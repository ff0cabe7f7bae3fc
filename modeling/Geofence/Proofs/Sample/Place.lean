/-
The places of sample fixes.

A cluster without spread puts all its fixes on its middle: adding a zero changes no value.  A longitude
beyond the 180th meridian, but not more than a full turn beyond it, is taken back by a full turn.
What is left is no farther from zero than the longitude was and than the full turn is, so that the
difference is exact, and lies within the half turns to either side.

Main results:

* `Geofence.isFinite_wrapLongitude` — a finite longitude stays finite;
* `Geofence.value_wrapLongitude` — a full turn is taken off exactly;
* `Geofence.isPlaced_sampleFix` — the fixes of a cluster without spread.
-/

import Geofence.Proofs.Sample.Draw
import Geofence.Sample.Cluster

set_option relaxedAutoImplicit false
set_option autoImplicit false

namespace Geofence

open Binary64

/-! ### Longitudes beyond the antimeridian -/

theorem value_halfTurn : value 180 = 180 ∧ value (-180) = -180 := by decide +kernel

theorem value_turn : value 360 = 360 ∧ value (-360) = -360 := by decide +kernel

section Longitudes

variable {lng : Float}

/-- What becomes of a longitude is told by its value. -/
theorem wrapLongitude_cases (h : lng.isFinite = true) :
    (180 < value lng ∧ wrapLongitude lng = lng - 360) ∨
      (value lng < -180 ∧ wrapLongitude lng = lng + 360) ∨
        (|value lng| ≤ 180 ∧ wrapLongitude lng = lng) := by
  have heast : lng > 180 ↔ 180 < value lng := by
    rw [gt_iff_lt, lt_iff_value (by decide +kernel) h, value_halfTurn.1]
  have hwest : lng < -180 ↔ value lng < -180 := by
    rw [lt_iff_value h (by decide +kernel), value_halfTurn.2]
  rw [wrapLongitude]
  by_cases h₁ : 180 < value lng
  · exact .inl ⟨h₁, if_pos (heast.2 h₁)⟩
  · by_cases h₂ : value lng < -180
    · refine .inr (.inl ⟨h₂, ?_⟩)
      rw [if_neg (mt heast.1 h₁), if_pos (hwest.2 h₂)]
    · refine .inr (.inr ⟨abs_le.2 ⟨not_lt.1 h₂, not_lt.1 h₁⟩, ?_⟩)
      rw [if_neg (mt heast.1 h₁), if_neg (mt hwest.1 h₂)]

/-- **A finite longitude stays finite**, however large it is: what it becomes lies between itself
and a full turn to the other side. -/
theorem isFinite_wrapLongitude (h : lng.isFinite = true) :
    (wrapLongitude lng).isFinite = true := by
  have hturn : (360 : Float).isFinite = true := by decide +kernel
  have hback : (-360 : Float).isFinite = true := by decide +kernel
  obtain ⟨hv, hw⟩ | ⟨hv, hw⟩ | ⟨-, hw⟩ := wrapLongitude_cases h
  · rw [hw]
    have hround := rounds_sub h hturn
    refine isFinite_of_between hback h ((rounds_value hback).le hround ?_)
      (hround.le (rounds_value h) ?_)
    · rw [value_turn.1, value_turn.2]
      linarith
    · rw [value_turn.1]
      linarith
  · rw [hw]
    have hround := rounds_add h hturn
    refine isFinite_of_between h hturn ((rounds_value h).le hround ?_)
      (hround.le (rounds_value hturn) ?_)
    · rw [value_turn.1]
      linarith
    · rw [value_turn.1]
      linarith
  · rwa [hw]

/-- A full turn is taken off a longitude in the east exactly: what is left is at most a half turn,
so no farther from zero than the longitude was. -/
theorem value_sub_turn (h : lng.isFinite = true) (hlow : 180 ≤ value lng)
    (hhigh : value lng ≤ 540) : value (lng - 360) = value lng - 360 := by
  have hturn : |(360 : ℚ)| = 360 := abs_of_pos (by norm_num)
  have hmiddle : |value lng - 360| ≤ 180 := abs_le.2 ⟨by linarith, by linarith⟩
  rw [(value_sub_of_le h (y := 360) (by decide +kernel) ?_ ?_).2, value_turn.1]
  · rw [value_turn.1]
    exact hmiddle.trans (hlow.trans (le_abs_self _))
  · rw [value_turn.1, hturn]
    exact hmiddle.trans (by norm_num)

/-- A full turn is added to a longitude in the west exactly. -/
theorem value_add_turn (h : lng.isFinite = true) (hhigh : value lng ≤ -180)
    (hlow : -540 ≤ value lng) : value (lng + 360) = value lng + 360 := by
  have hturn : |(360 : ℚ)| = 360 := abs_of_pos (by norm_num)
  have hmiddle : |value lng + 360| ≤ 180 := abs_le.2 ⟨by linarith, by linarith⟩
  rw [(value_add_of_le h (y := 360) (by decide +kernel) ?_ ?_).2, value_turn.1]
  · rw [value_turn.1]
    exact hmiddle.trans ((le_neg_of_le_neg hhigh).trans (neg_le_abs _))
  · rw [value_turn.1, hturn]
    exact hmiddle.trans (by norm_num)

/-- **A full turn is taken off exactly**, and what is left is at most a half turn. -/
theorem value_wrapLongitude (h : lng.isFinite = true) (hlng : |value lng| ≤ 540) :
    |value (wrapLongitude lng)| ≤ 180 ∧
      ∃ k : ℤ, value (wrapLongitude lng) = value lng + 360 * k := by
  obtain ⟨hlow, hhigh⟩ := abs_le.1 hlng
  obtain ⟨hv, hw⟩ | ⟨hv, hw⟩ | ⟨hv, hw⟩ := wrapLongitude_cases h
  · rw [hw, value_sub_turn h hv.le hhigh, abs_le]
    exact ⟨⟨by linarith, by linarith⟩, -1, by push_cast; ring⟩
  · rw [hw, value_add_turn h hv.le hlow, abs_le]
    exact ⟨⟨by linarith, by linarith⟩, 1, by push_cast; ring⟩
  · rw [hw]
    exact ⟨hv, 0, by push_cast; ring⟩

end Longitudes

/-! ### Clusters without spread -/

/-- The identifier of the fix with a number. -/
def sampleId (name : Text) (number : ℕ) : Text := name ++ '-' :: Nat.toDigits 10 number

/-- The fix has the number `index + 1` in its identifier and lies on the middle of the cluster, with
its longitude taken to the other side of the antimeridian from beyond it. -/
structure Cluster.IsPlaced (c : Cluster) (index : ℕ) (f : Fix) : Prop where
  id : f.id = sampleId c.name (index + 1)
  latitude : f.latitude.isFinite = true ∧ value f.latitude = value c.lat
  longitude : ∃ lng : Float, lng.isFinite = true ∧ value lng = value c.lng ∧
    f.longitude = wrapLongitude lng

/-- A fix is made of three draws, each from the state that the one before it leaves. -/
theorem exists_draws_of_sampleFix (g : Generator) (first : Cluster) (others : List Cluster)
    (index : ℕ) (s : g.State) :
    ∃ c s₁ north s₂ east s₃, (g.pick first others).run s = (c, s₁) ∧
      (g.between (-c.spread) c.spread).run s₁ = (north, s₂) ∧
      (g.between (-c.spread) c.spread).run s₂ = (east, s₃) ∧
      (sampleFix g first others index).run s =
        (⟨sampleId c.name (index + 1), c.lat + north, wrapLongitude (c.lng + east)⟩, s₃) :=
  ⟨_, _, _, _, _, _, rfl, rfl, rfl, rfl⟩

/-- **The fixes of a cluster without spread** lie on its middle, whatever is drawn. -/
theorem isPlaced_sampleFix {g : Generator} {c : Cluster} (hg : g.IsSound) (hspread : c.spread == 0)
    (hlat : c.lat.isFinite = true) (hlng : c.lng.isFinite = true) (index : ℕ) (s : g.State) :
    c.IsPlaced index ((sampleFix g c [] index).run s).1 := by
  obtain ⟨hfinite, hzero⟩ := value_of_beq (by decide +kernel) hspread
  rw [value_zero] at hzero
  obtain ⟨d, s₁, north, s₂, east, s₃, hpick, hnorth, heast, hfix⟩ :=
    exists_draws_of_sampleFix g c [] index s
  obtain rfl : d = c := by rw [← Generator.pick_single hg c s, hpick]
  have hnorth₀ := Generator.between_of_no_spread hg hfinite hzero s₁
  have heast₀ := Generator.between_of_no_spread hg hfinite hzero s₂
  rw [hnorth] at hnorth₀
  rw [heast] at heast₀
  rw [hfix]
  obtain ⟨hsum, hvalue⟩ := value_add_of_zero hlng heast₀.1 heast₀.2
  exact ⟨rfl, value_add_of_zero hlat hnorth₀.1 hnorth₀.2, _, hsum, hvalue, rfl⟩

end Geofence
