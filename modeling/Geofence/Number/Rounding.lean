/-
Rounding a rational to an integer.

Main definitions:

* `Geofence.roundHalfEven` — the nearest integer, the even one of two.

Main results:

* `Geofence.roundHalfEven_intCast` — an integer is its own rounding.
-/

set_option relaxedAutoImplicit false
set_option autoImplicit false

namespace Geofence

/-- The integer nearest to `q`; when `q` lies halfway between two of them, the even one. -/
def roundHalfEven (q : Rat) : Int :=
  let below := q.floor
  let rest := q - below
  if rest < 1 / 2 then below
  else if 1 / 2 < rest then below + 1
  else if below % 2 = 0 then below
  else below + 1

/-- An integer is its own rounding. -/
theorem roundHalfEven_intCast (n : Int) : roundHalfEven (n : Rat) = n := by
  have h : (n : Rat) - n = 0 := Rat.sub_self
  have hlt : (0 : Rat) < 1 / 2 := by decide +kernel
  rw [roundHalfEven, Rat.floor_intCast, h]
  exact if_pos hlt

end Geofence
