/-
The frame of a location.

A location in the frame of another has the difference of latitudes for one coordinate, and for the
other a difference of longitudes that is never more than the tolerance beyond a half turn.  The
shorter way from one meridian to another is the one difference up to full turns that lies in the
half turns to either side.  The frame shows this difference when it is a degree less than a half
turn.  Closer to the half turn the frame may show the way round the other side, and a longitude
within the tolerance of the prime meridian is then taken for its mirror image.

Main definitions:

* `Geofence.shortWay` — the shorter way from one meridian to another.

Main results:

* `Geofence.abs_eastward_le` — the frame reaches hardly farther than a half turn;
* `Geofence.eastward_eq_shortWay` — the frame shows the shorter way;
* `Geofence.project_short_way` — a location in the frame of another.
-/

import Geofence.Proofs.Plane.Longitude

set_option relaxedAutoImplicit false
set_option autoImplicit false

namespace Geofence

/-! ### The shorter way -/

/-- The shorter way from the meridian `o` to the meridian `l`, in degrees to the east: the
difference up to full turns that is greater than -180 and at most 180. -/
noncomputable def shortWay (o l : ℚ) : ℚ := toIocMod (Nat.ofNat_pos : (0 : ℚ) < 360) (-180) (l - o)

theorem exists_shortWay_eq (o l : ℚ) : ∃ k : ℤ, shortWay o l = l - o + 360 * k := by
  refine ⟨-toIocDiv (Nat.ofNat_pos : (0 : ℚ) < 360) (-180) (l - o), ?_⟩
  rw [shortWay, toIocMod, zsmul_eq_mul]
  push_cast
  ring

theorem shortWay_eq_of_mem {o l : ℚ} {k : ℤ} (h₀ : -180 < l - o + 360 * k)
    (h₁ : l - o + 360 * k ≤ 180) : shortWay o l = l - o + 360 * k := by
  refine (toIocMod_eq_iff _).2 ⟨⟨h₀, by linarith⟩, -k, ?_⟩
  rw [zsmul_eq_mul]
  push_cast
  ring

/-- **The frame shows the shorter way** when it is a degree less than a half turn. -/
theorem eastward_eq_shortWay {o l : ℚ} (ho : |o| ≤ 180) (hl : |l| ≤ 180)
    (h : |shortWay o l| ≤ 179) : eastward o l = shortWay o l := by
  obtain ⟨k, hk⟩ := exists_shortWay_eq o l
  rw [hk] at h ⊢
  exact eastward_eq_of_short ho hl (h.trans (by norm_num))

/-! ### The reach of a frame -/

/-- **The frame reaches hardly farther than a half turn.**  The way over the 180th meridian is taken
when it is less than a half turn.  The straight way is more than a half turn only from an origin
without a sign. -/
theorem abs_eastward_le {o l : ℚ} (ho : |o| ≤ 180) (hl : |l| ≤ 180) :
    |eastward o l| ≤ 180 + Gauge.tolerance := by
  have hτ := tolerance_nonneg
  rw [eastward_eq]
  split_ifs with hplus hminus
  · have hw : 360 + Gauge.tolerance < (|o| + |l|) * 2 := hplus.2.2
    rw [abs_le]
    constructor <;> linarith
  · have hw : 360 + Gauge.tolerance < (|o| + |l|) * 2 := hminus.2.2
    rw [abs_le]
    constructor <;> linarith
  · by_cases hw : Wraps o l
    · have heast : o ≤ Gauge.tolerance ∨ Gauge.tolerance < l := by
        by_contra h
        rw [not_or, not_le, not_lt] at h
        exact hplus ⟨h.1, h.2, hw⟩
      have hwest : -Gauge.tolerance ≤ o ∨ l < -Gauge.tolerance := by
        by_contra h
        rw [not_or, not_le, not_lt] at h
        exact hminus ⟨h.1, h.2, hw⟩
      obtain ⟨ho₀, ho₁⟩ := abs_le.1 ho
      obtain ⟨hl₀, hl₁⟩ := abs_le.1 hl
      rw [abs_le]
      rcases heast with heast | heast <;> rcases hwest with hwest | hwest <;>
        constructor <;> linarith
    · have hstraight : (|o| + |l|) * 2 ≤ 360 + Gauge.tolerance := not_lt.1 hw
      have hsum : |l - o| ≤ |l| + |o| := abs_sub l o
      linarith

/-- Both bounds of the reach and of the distance from a difference up to full turns are attained:
from a meridian that has just no sign to the 180th one, and from that one back. -/
example : eastward (-Gauge.tolerance) (180 : ℚ) = 180 + Gauge.tolerance ∧
    eastward 180 (Gauge.tolerance : ℚ) = Gauge.tolerance - 180 + 360 - 2 * Gauge.tolerance := by
  decide +kernel

/-! ### Locations -/

/-- **A location in the frame of another.**  The first coordinate is the difference of latitudes.
The second one is a difference of longitudes, the same in every scale: it is at most the tolerance
beyond a half turn, it differs from the difference up to full turns by at most twice the tolerance,
and it is the shorter way when that is a degree less than a half turn. -/
theorem project_short_way {o p : Location ℚ} (ho : |o.lng| ≤ 180) (hp : |p.lng| ≤ 180) :
    ∃ k : ℚ,
      (∀ scale : ℚ, project scale o p = ⟨scale * (p.lat - o.lat), scale * k⟩) ∧
        |k| ≤ 180 + Gauge.tolerance ∧
        (∃ j : ℤ, |k - (p.lng - o.lng + 360 * j)| ≤ 2 * Gauge.tolerance) ∧
        (|shortWay o.lng p.lng| ≤ 179 → k = shortWay o.lng p.lng) := by
  refine ⟨eastward o.lng p.lng, fun scale => ?_, abs_eastward_le ho hp,
    eastward_near o.lng p.lng, eastward_eq_shortWay ho hp⟩
  simp only [project, Offset.mk.injEq]
  exact ⟨mul_comm _ _, mul_comm _ _⟩

/-- From the 178th meridian in the west to the 175th one in the east it is seven degrees to the
west, and from the 180th one to a meridian that is almost the prime one it is a half turn at most,
whichever way it is taken. -/
theorem dateline_short_way :
    project 1000 (⟨2, -178⟩ : Location ℚ) ⟨5, 175⟩ = ⟨3000, -7000⟩ ∧
      ∃ k : ℚ, project 1 (⟨0, 180⟩ : Location ℚ) ⟨0, 1 / 10 ^ 7⟩ = ⟨0, k⟩ ∧
        |k| ≤ 180 + 1 / 10 ^ 7 := by
  have hseven : shortWay (-178) 175 = -7 := by
    rw [shortWay_eq_of_mem (k := -1) (by norm_num) (by norm_num)]
    norm_num
  constructor
  · obtain ⟨k, hproject, -, -, hshort⟩ :=
      project_short_way (o := ⟨2, -178⟩) (p := ⟨5, 175⟩) (by decide +kernel) (by decide +kernel)
    rw [hproject, hshort (by rw [hseven]; norm_num), hseven]
    norm_num
  · obtain ⟨k, hproject, hk, -, -⟩ :=
      project_short_way (o := ⟨0, 180⟩) (p := ⟨0, 1 / 10 ^ 7⟩) (by decide +kernel)
        (by decide +kernel)
    refine ⟨k, ?_, hk⟩
    rw [hproject]
    norm_num

end Geofence
