/-
Writing tables of comma separated cells.

A cell is written between quotes, with its own quotes doubled, when it holds a comma, a quote or a
line end.  A row ends with a carriage return and a line feed; a row of one empty cell is written as
two quotes, since an empty row has no cells.

Main definitions:

* `Geofence.Csv.writeCell`, `Geofence.Csv.writeRow`, `Geofence.Csv.write` — the text of a cell, of a
  row and of a table.
-/

import Geofence.Csv.Reader

set_option relaxedAutoImplicit false
set_option autoImplicit false

namespace Geofence.Csv

/-- Whether a cell has to be written between quotes. -/
def needsQuotes (cell : Text) : Bool := cell.any fun c => c = ',' || c = '"' || isLineEnd c

/-- A cell between quotes. -/
def quotedCell (cell : Text) : Text :=
  '"' :: cell.flatMap (fun c => if c = '"' then ['"', '"'] else [c]) ++ ['"']

/-- The text of a cell. -/
def writeCell (cell : Text) : Text := if needsQuotes cell then quotedCell cell else cell

/-- The text of a row with its line end. -/
def writeRow (row : Row) : Text :=
  (if row = [[]] then quotedCell [] else Text.join ',' (row.map writeCell)) ++ ['\r', '\n']

/-- **The text of a table.** -/
def write (rows : List Row) : Text := rows.flatMap writeRow

end Geofence.Csv
