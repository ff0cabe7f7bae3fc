/-
White space, and trimming it.

Main definitions:

* `Geofence.Text.isBlank` — the white space characters;
* `Geofence.Text.trim` — a text without the white space at its two ends.
-/

import Geofence.Text.Basic

set_option relaxedAutoImplicit false
set_option autoImplicit false

namespace Geofence.Text

/-- The ranges of the white space characters: the characters of bidirectional class white space,
segment or paragraph separator, and the space separators. -/
def blankRanges : List (Nat × Nat) :=
  [(0x0009, 0x000d), (0x001c, 0x0020), (0x0085, 0x0085), (0x00a0, 0x00a0), (0x1680, 0x1680),
    (0x2000, 0x200a), (0x2028, 0x2029), (0x202f, 0x202f), (0x205f, 0x205f), (0x3000, 0x3000)]

/-- White space. -/
def isBlank (c : Char) : Bool := within blankRanges c

/-- A text without the characters of the class `p` at its two ends. -/
def trimBy (p : Char → Bool) (t : Text) : Text :=
  ((t.dropWhile p).reverse.dropWhile p).reverse

/-- A text without the white space at its two ends. -/
def trim (t : Text) : Text := trimBy isBlank t

/-- The pieces of a text between the occurrences of `sep`, each without the white space at its
ends. -/
def fields (sep : Char) (t : Text) : List Text := (cut sep t).map trim

/-- Cutting into fields is compositional. -/
theorem fields_append (sep : Char) (t u : Text) :
    fields sep (t ++ sep :: u) = fields sep t ++ fields sep u := by
  simp [fields, cut_append]

end Geofence.Text
