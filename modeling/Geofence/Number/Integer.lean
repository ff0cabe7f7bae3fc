/-
Integers in arguments.

An integer is an optional sign and decimal digits of any script, with single low lines allowed
between digits and white space at the two ends; the four information separators do not count as
white space here.  An integer with too many digits is refused.

Main definitions:

* `Geofence.readInteger?` — reading an integer.
-/

import Geofence.Number.Numeral

set_option relaxedAutoImplicit false
set_option autoImplicit false

namespace Geofence

open Text Numeral

/-- White space round an integer: all of it but the information separators. -/
def isBlankAroundInteger (c : Char) : Bool := isBlank c && !(0x1c ≤ c.toNat && c.toNat ≤ 0x1f)

/-- The greatest number of digits of an integer. -/
def integerDigitLimit : Nat := 4300

/-- Reading an integer. -/
def readInteger? (t : Text) : Option Int :=
  (withoutLines? (trimBy isBlankAroundInteger t)).bind fun t =>
    let (negative, digits) := takeSign t
    if digits.isEmpty || !digits.all isDigit || integerDigitLimit < digits.length then none
    else some (if negative then -(ofDigits digits : Int) else ofDigits digits)

end Geofence
