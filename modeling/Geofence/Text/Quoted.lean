/-
Quoting a text inside a message.

A quoted text stands between single quotes, or between double quotes when it holds a single quote
and no double one.  The quote in use and the backslash are escaped, and so is every character that
is not printable, by the shortest of the hexadecimal forms that fits.

Main definitions:

* `Geofence.Text.quoted` — a text in quotes;
* `Geofence.Text.quotedList` — a list of texts in quotes.
-/

import Geofence.Text.Printable

set_option relaxedAutoImplicit false
set_option autoImplicit false

namespace Geofence.Text

/-- The single quote. -/
def singleQuote : Char := '\x27'

/-- The double quote. -/
def doubleQuote : Char := '\x22'

/-- The quote that stands round `t`. -/
def quoteFor (t : Text) : Char :=
  if t.contains singleQuote && !t.contains doubleQuote then doubleQuote else singleQuote

/-- A number in hexadecimal, in lower case and with at least `width` digits. -/
def hexadecimal (width n : Nat) : Text :=
  let digits := Nat.toDigits 16 n
  List.replicate (width - digits.length) '0' ++ digits

/-- What stands for `c` between quotes `q`. -/
def escaped (q c : Char) : Text :=
  if c = q ∨ c = '\\' then ['\\', c]
  else if c = '\t' then ['\\', 't']
  else if c = '\n' then ['\\', 'n']
  else if c = '\r' then ['\\', 'r']
  else if isPrintable c then [c]
  else if c.toNat < 0x100 then '\\' :: 'x' :: hexadecimal 2 c.toNat
  else if c.toNat < 0x10000 then '\\' :: 'u' :: hexadecimal 4 c.toNat
  else '\\' :: 'U' :: hexadecimal 8 c.toNat

/-- A text in quotes. -/
def quoted (t : Text) : String :=
  let q := quoteFor t
  String.ofList (q :: t.flatMap (escaped q) ++ [q])

/-- A list of texts in quotes, in brackets. -/
def quotedList (ts : List Text) : String :=
  "[" ++ ", ".intercalate (ts.map quoted) ++ "]"

end Geofence.Text
