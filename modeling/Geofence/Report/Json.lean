/-
Data as indented JSON.

The members of an object and the items of a list stand on lines of their own, two blanks further in
than what holds them; an object or list without any is written as its two brackets.

Main definitions:

* `Geofence.Json` — data;
* `Geofence.Json.write` — the text of data.
-/

import Geofence.Number.Render
import Geofence.Text.Quoted

set_option relaxedAutoImplicit false
set_option autoImplicit false

namespace Geofence

/-- Data: texts, numbers, truth values, lists, and objects with their members in order. -/
inductive Json where
  | text (t : Text)
  | number (x : Float)
  | count (n : Nat)
  | truth (b : Bool)
  | list (items : List Json)
  | object (members : List (Text × Json))

namespace Json

/-- What stands for a character in a text: the quote, the backslash and the control characters are
escaped. -/
def escaped (c : Char) : Text :=
  if c = '"' ∨ c = '\\' then ['\\', c]
  else if c = '\n' then ['\\', 'n']
  else if c = '\r' then ['\\', 'r']
  else if c = '\t' then ['\\', 't']
  else if c = '\x08' then ['\\', 'b']
  else if c = '\x0c' then ['\\', 'f']
  else if c.toNat < 0x20 then '\\' :: 'u' :: Text.hexadecimal 4 c.toNat
  else [c]

/-- A text between quotes. -/
def quotedText (t : Text) : Text := '"' :: t.flatMap escaped ++ ['"']

/-- A line end and the blanks before what stands `depth` levels in. -/
def newLine (depth : Nat) : Text := '\n' :: List.replicate (2 * depth) ' '

/-- Entries between brackets, each on a line of its own. -/
def bracketed (opening closing : Char) (depth : Nat) : List Text → Text
  | [] => [opening, closing]
  | entries =>
    opening :: List.intercalate [','] (entries.map (newLine (depth + 1) ++ ·)) ++
      newLine depth ++ [closing]

mutual

/-- The text of data that stands `depth` levels in. -/
def writeAt (depth : Nat) : Json → Text
  | text t => quotedText t
  | number x => renderNumber x
  | count n => Nat.toDigits 10 n
  | truth b => if b then ['t', 'r', 'u', 'e'] else ['f', 'a', 'l', 's', 'e']
  | list items => bracketed '[' ']' depth (writeItems (depth + 1) items)
  | object members => bracketed '\x7b' '\x7d' depth (writeMembers (depth + 1) members)

/-- The texts of the items of a list. -/
def writeItems (depth : Nat) : List Json → List Text
  | [] => []
  | item :: rest => writeAt depth item :: writeItems depth rest

/-- The texts of the members of an object. -/
def writeMembers (depth : Nat) : List (Text × Json) → List Text
  | [] => []
  | (name, value) :: rest =>
    (quotedText name ++ ':' :: ' ' :: writeAt depth value) :: writeMembers depth rest

end

/-- **The text of data.** -/
def write (j : Json) : Text := writeAt 0 j

end Json

end Geofence
