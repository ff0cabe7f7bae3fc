/-
Numerals: the texts that stand for a number.

A numeral is an optional sign followed by decimal digits of any script, at most one point among
them and at least one digit beside it, and an optional exponent of ten; or, after the sign, one of
the words for infinity and for no number.  Between two digits one low line may stand, and white
space at the two ends does not count.

Main definitions:

* `Geofence.Numeral` — what a numeral says;
* `Geofence.Numeral.ofText?` — reading a numeral;
* `Geofence.Numeral.toFloat` — the binary64 number nearest to it;
* `Geofence.readNumber?` — both steps.
-/

import Geofence.Number.Binary64
import Geofence.Number.Positional
import Geofence.Text.Blank
import Geofence.Text.Digit

set_option relaxedAutoImplicit false
set_option autoImplicit false

namespace Geofence

/-- What a numeral says: `coefficient * 10 ^ exponent` with a sign, infinity with a sign, or that
there is no number. -/
inductive Numeral where
  | finite (negative : Bool) (coefficient : Nat) (exponent : Int)
  | infinite (negative : Bool)
  | notANumber
  deriving DecidableEq

namespace Numeral

open Text

/-! ### Low lines between digits -/

/-- Whether every low line of `t` stands between two digits, when `before` stands before `t`. -/
def linesBetweenDigits (before : Char) : Text → Bool
  | [] => before ≠ '_'
  | c :: t =>
    (if c = '_' then isDigit before else before ≠ '_' || isDigit c) && linesBetweenDigits c t

/-- A text without its low lines, if each of them stands between two digits. -/
def withoutLines? (t : Text) : Option Text :=
  if linesBetweenDigits ' ' t then some (t.filter (· ≠ '_')) else none

/-! ### The parts of a numeral -/

/-- A leading sign, and the rest. -/
def takeSign : Text → Bool × Text
  | '-' :: t => (true, t)
  | '+' :: t => (false, t)
  | t => (false, t)

/-- The number that decimal digits write; other characters do not count. -/
def ofDigits (t : Text) : Nat := Positional.number 10 (t.filterMap digit?).reverse

/-- The number of a text of digits, digit by digit from the first. -/
theorem ofDigits_eq_foldl (t : Text) :
    ofDigits t = (t.filterMap digit?).foldl (fun n d => d + 10 * n) 0 := by
  rw [ofDigits, Positional.number_eq_value, Positional.value, List.foldr_reverse]

/-- An exponent: nothing, or a letter `e`, a sign and digits. -/
def exponent? : Text → Option Int
  | [] => some 0
  | c :: t =>
    if c = 'e' ∨ c = 'E' then
      let (negative, digits) := takeSign t
      if digits.isEmpty || !digits.all isDigit then none
      else some (if negative then -(ofDigits digits : Int) else ofDigits digits)
    else none

/-- The digits before and after the point, and the rest. -/
def takeMantissa (t : Text) : Text × Text × Text :=
  let (whole, rest) := t.span isDigit
  match rest with
  | '.' :: rest => let (fraction, rest) := rest.span isDigit; (whole, fraction, rest)
  | rest => (whole, [], rest)

/-- A number without its sign. -/
def unsigned? (negative : Bool) (t : Text) : Option Numeral :=
  let (whole, fraction, rest) := takeMantissa t
  if whole.isEmpty && fraction.isEmpty then none
  else
    (exponent? rest).map fun e =>
      .finite negative (ofDigits (whole ++ fraction)) (e - fraction.length)

/-- The words for numbers without digits, in lower case. -/
def word? (negative : Bool) (t : Text) : Option Numeral :=
  if t = ['i', 'n', 'f'] ∨ t = ['i', 'n', 'f', 'i', 'n', 'i', 't', 'y'] then
    some (.infinite negative)
  else if t = ['n', 'a', 'n'] then some .notANumber
  else none

/-- **Reading a numeral**: the sign, then a word in capital or small letters, or a number. -/
def ofText? (t : Text) : Option Numeral :=
  (withoutLines? (trim t)).bind fun t =>
    let (negative, body) := takeSign t
    (word? negative (body.map Char.toLower)).or (unsigned? negative body)

/-! ### The number -/

/-- The scale of `coefficient * 10 ^ exponent` in powers of two, with three of them for each power
of ten: the value is at least `2 ^ scale` for an `exponent` that is not negative, and below
`2 ^ (scale + 1)` for a negative one. -/
def scale (coefficient : Nat) (exponent : Int) : Int := coefficient.log2 + 3 * exponent

/-- The binary64 number nearest to a numeral.  A value of a scale beyond every finite magnitude, or
below half of the least one, is not worked out. -/
def toFloat : Numeral → Float
  | .finite negative coefficient exponent =>
    if coefficient = 0 ∨ scale coefficient exponent < -1100 then Binary64.nearest negative 0
    else if 0 ≤ exponent ∧ 1100 < scale coefficient exponent then Binary64.infinity negative
    else Binary64.nearest negative (coefficient * (10 : Rat) ^ exponent)
  | .infinite negative => Binary64.infinity negative
  | .notANumber => Binary64.notANumber

end Numeral

/-- The binary64 number nearest to what a text says, if it is a numeral. -/
def readNumber? (t : Text) : Option Float := (Numeral.ofText? t).map Numeral.toFloat

end Geofence
