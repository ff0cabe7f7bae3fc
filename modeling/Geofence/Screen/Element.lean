/-
What stands on the screen.

Main definitions:

* `Geofence.Widget` — the kinds of elements, each with what it shows;
* `Geofence.Area`, `Geofence.Element` — the parts of the screen, and a widget in one of them;
* `Geofence.Entry.cells`, `Geofence.Verdict.cells` — the rows of the two tables.
-/

import Geofence.Failure
import Geofence.Report.Check
import Geofence.Track.Verdict

set_option relaxedAutoImplicit false
set_option autoImplicit false

namespace Geofence

/-! ### Rows of tables -/

/-- A row of a table: cells with the names of their columns, in order. -/
abbrev Cells := List (Text × Json)

/-- The row of a fence in the table of a location. -/
def Entry.cells (e : Entry) : Cells :=
  [("index".toList, .count e.index), ("kind".toList, .text e.fence.kind),
    ("contains".toList, .truth e.contains), ("encoded".toList, .text e.fence.write)]

/-- The row of a fix in the table of verdicts. -/
def Verdict.cells (v : Verdict) : Cells :=
  [(idColumn, .text v.fix.id), (latitudeColumn, .number v.fix.latitude),
    (longitudeColumn, .number v.fix.longitude), (insideColumn, .truth v.inside),
    (matchedColumn, .text v.matchedText)]

/-! ### Elements -/

/-- The kinds of elements.  An entry field carries the value it has before anything is entered. -/
inductive Widget where
  /-- The title of the window, and how wide the page is. -/
  | window (title layout : String)
  | title (words : String)
  | heading (words : String)
  | textArea (label : String) (value : Text)
  | checkBox (label : String) (value : Bool)
  /-- A number with the format it is shown in. -/
  | numberField (label : String) (value : Float) (format : String)
  | textField (label : String) (value : Text)
  /-- The refusal of what was entered. -/
  | refusal (words : String)
  | warning (words : String)
  | code (t : Text)
  /-- Columns side by side for the elements that follow. -/
  | columns (count : Nat)
  /-- A value with the name of what it measures. -/
  | metric (label : String) (value : String)
  /-- A table, as wide as its place, with its height if that is fixed. -/
  | table (rows : List Cells) (height : Option Nat)
  | caption (words : String)
  | failure (cause : Failure)
  /-- A button that hands out a file with a name and a kind. -/
  | download (label : String) (content : Text) (name kind : String)

/-- The parts of the screen. -/
inductive Area where
  | main
  | sidebar
  | column (index : Nat)
  deriving DecidableEq

/-- A widget in a part of the screen. -/
structure Element where
  area : Area
  widget : Widget

end Geofence
