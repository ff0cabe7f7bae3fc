/-
Reading tables of comma separated cells.

A table is read in one pass over its characters.  Rows end at a line feed, a carriage return or the
two together; an empty row has no cells.  A cell that begins with a quote goes on to the next quote
that stands alone, line ends and commas included, and a doubled quote in it is a single one.  What
follows the closing quote belongs to the cell as it is, and a quote inside any other cell is an
ordinary character.  A row that the text ends in counts, whether it is finished or not.

A file is read line by line.  Where its bytes cannot be decoded, the lines before are read all the
same, and their rows are those of the table.

Main definitions:

* `Geofence.Csv.Scan` and `Geofence.Csv.step` — the state of the pass, and one character;
* `Geofence.Csv.rows` — the rows of a text;
* `Geofence.Csv.Sheet` — the rows up to one with a cell that is too long;
* `Geofence.Csv.Sheet.ofExtract` — the rows in what is read of a file.

Main results:

* `Geofence.Csv.scan_append` — the pass over two texts is the pass over one and then the other.
-/

import Geofence.Text.Decoder

set_option relaxedAutoImplicit false
set_option autoImplicit false

namespace Geofence.Csv

open Text

/-- The cells of a row. -/
abbrev Row := List Text

/-- Where the pass stands. -/
inductive Mode where
  /-- Before the first cell of a row. -/
  | rowStart
  /-- Before the first cell of a row, after a carriage return. -/
  | afterReturn
  /-- Before a later cell of a row. -/
  | cellStart
  /-- In a cell without quotes, or after its quotes. -/
  | bare
  /-- Between quotes. -/
  | quoted
  /-- After a quote between quotes. -/
  | quoteSeen
  deriving DecidableEq

/-- The state of the pass: the mode, and the cell, the row and the rows read so far, each with the
last item in front. -/
structure Scan where
  mode : Mode
  cell : Text
  row : Row
  rows : List Row

namespace Scan

/-- Nothing is read yet. -/
def start : Scan := ⟨.rowStart, [], [], []⟩

/-- One more character of the cell. -/
def push (s : Scan) (mode : Mode) (c : Char) : Scan := { s with mode := mode, cell := c :: s.cell }

/-- The cell is complete. -/
def endCell (s : Scan) : Scan :=
  { s with mode := .cellStart, cell := [], row := s.cell.reverse :: s.row }

/-- The mode after a line end. -/
def modeAfter (c : Char) : Mode := if c = '\r' then .afterReturn else .rowStart

/-- The row is complete, and its line end begins with `c`. -/
def endRow (s : Scan) (c : Char) : Scan :=
  { s with mode := modeAfter c, row := [], rows := s.row.reverse :: s.rows }

end Scan

/-- Line feed and carriage return. -/
def isLineEnd (c : Char) : Bool := c = '\n' || c = '\r'

/-- A character outside quotes that opens no quotes. -/
def stepBare (s : Scan) (c : Char) : Scan :=
  if isLineEnd c then s.endCell.endRow c
  else if c = ',' then s.endCell
  else s.push .bare c

/-- A character at the start of a cell. -/
def stepCell (s : Scan) (c : Char) : Scan :=
  if c = '"' then { s with mode := .quoted } else stepBare s c

/-- A character at the start of a row: a line end makes the row empty. -/
def stepRow (s : Scan) (c : Char) : Scan :=
  if isLineEnd c then s.endRow c else stepCell s c

/-- One character of the pass. -/
def step (s : Scan) (c : Char) : Scan :=
  match s.mode with
  | .rowStart => stepRow s c
  | .afterReturn => if c = '\n' then { s with mode := .rowStart } else stepRow s c
  | .cellStart => stepCell s c
  | .bare => stepBare s c
  | .quoted => if c = '"' then { s with mode := .quoteSeen } else s.push .quoted c
  | .quoteSeen => if c = '"' then s.push .quoted c else stepBare s c

/-- The pass over a text. -/
def scan (s : Scan) (t : Text) : Scan := t.foldl step s

@[simp] theorem scan_nil (s : Scan) : scan s [] = s := rfl

@[simp] theorem scan_cons (s : Scan) (c : Char) (t : Text) :
    scan s (c :: t) = scan (step s c) t := rfl

/-- The pass over two texts is the pass over one and then the other. -/
theorem scan_append (s : Scan) (t u : Text) : scan s (t ++ u) = scan (scan s t) u := by
  simp [scan, List.foldl_append]

/-- The rows at the end of the text, the one it ends in included. -/
def Scan.finish (s : Scan) : List Row :=
  match s.mode with
  | .rowStart | .afterReturn => s.rows.reverse
  | _ => (s.endCell.endRow '\n').rows.reverse

/-- **The rows of a text.** -/
def rows (t : Text) : List Row := (scan .start t).finish

/-! ### Cells that are too long -/

/-- The greatest length of a cell. -/
def cellLimit : Nat := 131072

/-- Whether all cells of a row are of allowed length. -/
def rowFits (r : Row) : Bool := r.all (·.length ≤ cellLimit)

/-- The rows of a table that can be read, and whether it goes on with a cell that is too long. -/
structure Sheet where
  rows : List Row
  overlong : Bool

/-- The rows of a text before the first one with a cell that is too long. -/
def Sheet.ofText (t : Text) : Sheet :=
  let all := Csv.rows t
  ⟨all.takeWhile rowFits, !all.all rowFits⟩

/-! ### Files that are read in part -/

/-- The text up to its last line end. -/
def wholeLines (t : Text) : Text := (t.reverse.dropWhile (!isLineEnd ·)).reverse

/-- The lines that are read before the reading of a file breaks off behind some text.  A carriage
return at the end of the text ends no line yet, since a line feed might follow. -/
def linesBefore (t : Text) : Text :=
  wholeLines (if t.getLast? = some '\r' then t.dropLast else t)

/-- The rows of a text that the reading of a file breaks off behind.  One that the text ends in does
not count, but is not read on when it has a cell that is too long. -/
def Sheet.ofLines (t : Text) : Sheet :=
  let s := scan .start t
  ⟨s.rows.reverse.takeWhile rowFits, !s.finish.all rowFits⟩

/-- The lines in what is read of a file. -/
def linesOf (e : Extract) : Text := if e.whole then e.text else linesBefore e.text

/-- **The rows in what is read of a file.** -/
def Sheet.ofExtract (e : Extract) : Sheet :=
  if e.whole then .ofText (linesOf e) else .ofLines (linesOf e)

end Geofence.Csv
