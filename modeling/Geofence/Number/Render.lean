/-
Writing numbers.

The general form writes the shortest decimal that reads back, positionally in a middle range of
sizes and with an exponent outside it, and always with a mark that it is no integer: a point or an
exponent.  The fixed form rounds the exact value to a number of places.

Main definitions:

* `Geofence.Layout` — where the positional form ends;
* `Geofence.Layout.coordinate` — the layout of every number this library writes;
* `Geofence.renderNumber` — the general form;
* `Geofence.renderFixed` — the fixed form.
-/

import Geofence.Number.Shortest

set_option relaxedAutoImplicit false
set_option autoImplicit false

namespace Geofence

/-- How the digits of a decimal are laid out: positionally when the place of the point, counted
from before the first digit, lies between the two bounds, and otherwise with an exponent of at
least the given number of digits. -/
structure Layout where
  lowest : Int
  highest : Int
  exponentDigits : Nat

namespace Layout

/-- Coordinates and radii are written positionally from `10 ^ -4` up to below `10 ^ 16`; an exponent
has a sign and at least two digits. -/
def coordinate : Layout := ⟨-3, 16, 2⟩

/-- An exponent of ten with its letter and its sign. -/
def exponentText (l : Layout) (e : Int) : Text :=
  let digits := Nat.toDigits 10 e.natAbs
  'e' :: (if e < 0 then '-' else '+') ::
    (List.replicate (l.exponentDigits - digits.length) '0' ++ digits)

/-- Digits with the point after the first `point` of them, filled up with zeros where there are no
digits. -/
def positional (digits : Text) (point : Int) : Text :=
  if point ≤ 0 then '0' :: '.' :: (List.replicate (-point).toNat '0' ++ digits)
  else
    let whole := point.toNat
    if digits.length ≤ whole then
      digits ++ List.replicate (whole - digits.length) '0' ++ ['.', '0']
    else digits.take whole ++ '.' :: digits.drop whole

/-- Digits with the point after the first one, if there are more, and an exponent. -/
def exponential (l : Layout) (digits : Text) (point : Int) : Text :=
  let tail := match digits with
    | [] => []
    | [d] => [d]
    | d :: rest => d :: '.' :: rest
  tail ++ l.exponentText (point - 1)

/-- A decimal that is not zero, without its trailing zeros. -/
def text (l : Layout) (d : Decimal) : Text :=
  let digits := Nat.toDigits 10 d.coefficient
  let point : Int := digits.length + d.exponent
  let significant := (digits.reverse.dropWhile (· = '0')).reverse
  if l.lowest ≤ point ∧ point ≤ l.highest then positional significant point
  else l.exponential significant point

end Layout

/-- The sign of a number that has one. -/
def signText (x : Float) : Text := if Binary64.isNegative x then ['-'] else []

/-- **The general form** of a number: the shortest decimal that reads back. -/
def renderNumber (x : Float) : Text :=
  if x.isNaN then ['n', 'a', 'n']
  else
    signText x ++
      if x.isInf then ['i', 'n', 'f']
      else if Binary64.magnitudeBits x = 0 then ['0', '.', '0']
      else Layout.coordinate.text (Decimal.shortest (Binary64.magnitudeBits x))

/-- The fixed form of a number: its exact value rounded to `places` places, at least one, the even
one of two equally near. -/
def renderFixed (places : Nat) (x : Float) : Text :=
  if x.isNaN then ['n', 'a', 'n']
  else
    signText x ++
      if x.isInf then ['i', 'n', 'f']
      else
        let units := roundHalfEven (Binary64.magnitude x * (10 : Rat) ^ places)
        let digits := Nat.toDigits 10 units.toNat
        let padded := List.replicate (places + 1 - digits.length) '0' ++ digits
        padded.take (padded.length - places) ++ '.' :: padded.drop (padded.length - places)

end Geofence
