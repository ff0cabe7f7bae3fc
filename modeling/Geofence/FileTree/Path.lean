/-
Paths.

A path is written with slashes between the names.  A doubled slash counts once, a name that is a
single dot does not count at all, and two leading slashes are kept apart from one.  The empty path
is the folder where paths begin, written as a dot.

Main definitions:

* `Geofence.Path` — leading slashes and names;
* `Geofence.Path.ofText`, `Geofence.Path.toText` — reading and writing a path.
-/

import Geofence.Text.Basic

set_option relaxedAutoImplicit false
set_option autoImplicit false

namespace Geofence

/-- Leading slashes and names. -/
structure Path where
  lead : Text
  names : List Text
  deriving DecidableEq

namespace Path

open Text

/-- The name that stands for a folder itself. -/
def here : Text := ['.']

/-- The name that stands for the folder above. -/
def above : Text := ['.', '.']

/-- The path a text stands for. -/
def ofText (t : Text) : Path :=
  let slashes := t.takeWhile (· = '/')
  let lead := if slashes.length ≤ 2 then slashes else ['/']
  ⟨lead, (cut '/' t).filter fun name => name ≠ [] ∧ name ≠ here⟩

/-- The text of a path. -/
def toText (p : Path) : Text :=
  if p.lead = [] ∧ p.names = [] then here else p.lead ++ join '/' p.names

/-- The path without its last name. -/
def parent (p : Path) : Path := ⟨p.lead, p.names.dropLast⟩

/-- A path with names has more of them than its parent. -/
theorem length_parent_lt {p : Path} (h : p.names ≠ []) :
    p.parent.names.length < p.names.length := by
  have := List.length_pos_iff.2 h
  simp only [parent, List.length_dropLast]
  omega

/-- Whether a path holds the character that ends a path. -/
def hasNul (p : Path) : Bool := p.names.any (·.contains '\x00')

end Path

end Geofence
