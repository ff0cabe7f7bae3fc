/-
The values of binary64 numbers.

A finite number is `m * 2 ^ e` with `m < 2 ^ 53` and `-1074 ≤ e`, and its bit pattern without the
sign counts the magnitudes in increasing order: the pattern of `m * 2 ^ e` is
`(e + 1074) * 2 ^ 52 + m`, subnormal numbers and the step from one binade to the next included.
Rounding a rational therefore is one rounding to an integer in the scale of its binade.  Below,
`0x10000000000000` is `2 ^ 52` and `0x8000000000000000` is `2 ^ 63`.

Main definitions:

* `Geofence.Binary64.valueOfBits` — the value of a magnitude's bit pattern;
* `Geofence.Binary64.magnitude`, `Geofence.Binary64.isNegative` — the parts of a number;
* `Geofence.Binary64.nearestBits` — the bit pattern of the magnitude nearest to a rational;
* `Geofence.Binary64.nearest` — the number nearest to a rational with a sign.
-/

import Geofence.Number.Rounding

set_option relaxedAutoImplicit false
set_option autoImplicit false

namespace Geofence.Binary64

/-! ### Parts of a number -/

/-- The bit pattern of the infinite magnitude. -/
def infinityBits : Nat := 0x7ff0000000000000

/-- The sign bit. -/
def isNegative (x : Float) : Bool := 0x8000000000000000 ≤ x.toBits.toNat

/-- The bit pattern of the magnitude. -/
def magnitudeBits (x : Float) : Nat := x.toBits.toNat % 0x8000000000000000

/-- The number with a given sign and a given bit pattern of its magnitude. -/
def ofMagnitudeBits (negative : Bool) (bits : Nat) : Float :=
  Float.ofBits (UInt64.ofNat (if negative then bits + 0x8000000000000000 else bits))

/-- The value of the bit pattern of a finite magnitude. -/
def valueOfBits (bits : Nat) : Rat :=
  let exponent : Nat := bits / 0x10000000000000
  let fraction : Nat := bits % 0x10000000000000
  if exponent = 0 then (fraction : Rat) * (2 : Rat) ^ (-1074 : Int)
  else ((0x10000000000000 + fraction : Nat) : Rat) * (2 : Rat) ^ ((exponent : Int) - 1075)

/-- The magnitude of a finite number. -/
def magnitude (x : Float) : Rat := valueOfBits (magnitudeBits x)

/-- The value of a finite number. -/
def value (x : Float) : Rat := if isNegative x then -magnitude x else magnitude x

/-! ### Rounding to a number -/

/-- The binade of a positive rational: the exponent `e` with `2 ^ e ≤ q < 2 ^ (e + 1)`. -/
def binade (q : Rat) : Int :=
  let guess : Int := (q.num.natAbs.log2 : Int) - (q.den.log2 : Int)
  if (2 : Rat) ^ guess ≤ q then guess else guess - 1

/-- The bit pattern of the magnitude nearest to `q`, for `0 ≤ q`; halfway between two magnitudes,
the one whose last bit is zero, and above the largest finite magnitude the infinite one. -/
def nearestBits (q : Rat) : Nat :=
  if q = 0 then 0
  else
    let e : Int := max (binade q - 52) (-1074)
    let m := roundHalfEven (q / (2 : Rat) ^ e)
    min ((e + 1074).toNat * 0x10000000000000 + m.toNat) infinityBits

/-- The number nearest to the magnitude `q` with the given sign. -/
def nearest (negative : Bool) (q : Rat) : Float := ofMagnitudeBits negative (nearestBits q)

/-- The infinite number with the given sign. -/
def infinity (negative : Bool) : Float := ofMagnitudeBits negative infinityBits

/-- The number that is no number. -/
def notANumber : Float := Float.ofBits 0x7ff8000000000000

end Geofence.Binary64
