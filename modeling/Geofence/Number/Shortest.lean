/-
The shortest decimal that reads back.

Among the decimals that round to a given magnitude, the shortest one is found by trying the decimal
grids from coarse to fine.  On each grid only the two neighbours of the magnitude can round to it;
the nearer one is preferred, and the even one of two equally near.  When no grid up to seventeen
digits has such a neighbour, which does not happen, the exact decimal of the magnitude is taken, so
that what is found reads back for every magnitude.

Main definitions:

* `Geofence.Decimal` — a coefficient and an exponent of ten;
* `Geofence.Decimal.shortest` — the shortest decimal of a magnitude given by its bit pattern.
-/

import Geofence.Number.Numeral

set_option relaxedAutoImplicit false
set_option autoImplicit false

namespace Geofence

/-- The decimal `coefficient * 10 ^ exponent`. -/
structure Decimal where
  coefficient : Nat
  exponent : Int
  deriving DecidableEq

namespace Decimal

/-- The value of a decimal. -/
def value (d : Decimal) : Rat := d.coefficient * (10 : Rat) ^ d.exponent

/-- Whether a decimal rounds to the magnitude with the given bit pattern. -/
def roundsTo (bits : Nat) (d : Decimal) : Bool := Binary64.nearestBits d.value = bits

/-- On the grid of the multiples of `10 ^ exponent`: the neighbour of the magnitude that rounds to
it, the nearer one before the farther one. -/
def onGrid? (bits : Nat) (exponent : Int) : Option Decimal :=
  let steps := Binary64.valueOfBits bits / (10 : Rat) ^ exponent
  let below := steps.floor
  let near := roundHalfEven steps
  let far := if near = below then below + 1 else below
  [Decimal.mk near.toNat exponent, Decimal.mk far.toNat exponent].find? (roundsTo bits)

/-- The first grid with a neighbour that rounds to the magnitude, out of `count` grids from
`10 ^ exponent` on to finer ones. -/
def onGrids? (bits : Nat) : Nat → Int → Option Decimal
  | 0, _ => none
  | count + 1, exponent => (onGrid? bits exponent).or (onGrids? bits count (exponent - 1))

/-- The number of decimal digits of `n`. -/
def digitCount (n : Nat) : Nat := (Nat.toDigits 10 n).length

/-- The exact decimal of a magnitude: its denominator is a power of two, so as many factors five
make it a power of ten. -/
def exact (bits : Nat) : Decimal :=
  let v := Binary64.valueOfBits bits
  let places := v.den.log2
  ⟨v.num.toNat * Nat.pow 5 places, -(places : Int)⟩

/-- **The shortest decimal** of the magnitude with the given bit pattern.  A coefficient that has
`a` digits more than the denominator lies below `10 ^ (a + 1)` times it, and eighteen grids below
that are fine enough for seventeen digits. -/
def shortest (bits : Nat) : Decimal :=
  let v := Binary64.valueOfBits bits
  let top : Int := (digitCount v.num.toNat : Int) - digitCount v.den
  (onGrids? bits 18 top).getD (exact bits)

end Decimal

end Geofence
