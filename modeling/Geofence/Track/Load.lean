/-
Loading fixes from a table.

The first row names the columns.  A column of latitudes and one of longitudes are needed, and one of
identifiers may be there; of several columns with one name the last one counts.  A row gives a fix
when it has both numbers, and is skipped otherwise.  A fix without an identifier is known by the
number of its row among the rows with a cell.

Main definitions:

* `Geofence.LoadFault` — why a table gives nothing, with its wording;
* `Geofence.cellOf?` — the cell of a row under a name;
* `Geofence.fixOfRow?` — the fix of a row;
* `Geofence.loadSheet`, `Geofence.loadText`, `Geofence.loadBytes` — the fixes of a table;
* `Geofence.Intake.notices` — the notice of the rows skipped.
-/

import Geofence.Csv.Reader
import Geofence.Log
import Geofence.Track.Fix

set_option relaxedAutoImplicit false
set_option autoImplicit false

namespace Geofence

open Text

/-! ### Faults -/

/-- Why a table gives nothing. -/
inductive LoadFault where
  /-- The first row names columns, and needed ones are missing among them. -/
  | missingColumns (missing header : List Text)
  /-- The first row is empty, and a later one looks for a column. -/
  | noColumn (name : Text)
  /-- A cell is too long. -/
  | overlongCell
  /-- The bytes behind the rows are not the encoding of a text. -/
  | notEncoded
  deriving DecidableEq

/-- The wording of a fault. -/
def LoadFault.message : LoadFault → String
  | missingColumns missing header =>
    s!"CSV缺少必要字段：{quotedList missing}. 实际字段：{quotedList header}"
  | noColumn name => String.ofList name
  | overlongCell => s!"field larger than field limit ({Csv.cellLimit})"
  | notEncoded => "invalid text encoding"

/-! ### Columns -/

/-- The position of the last column with a name. -/
def columnOf? (header : List Text) (name : Text) : Option Nat :=
  (header.zipIdx.filter (·.1 = name)).getLast?.map (·.2)

/-- The cell of a row under a name, if the row reaches so far. -/
def cellOf? (header : List Text) (row : Csv.Row) (name : Text) : Option Text :=
  (columnOf? header name).bind (row[·]?)

/-! ### Rows -/

/-- The identifier of the fix in row `number`. -/
def fixId (header : List Text) (number : Nat) (row : Csv.Row) : Text :=
  let id := trim ((cellOf? header row idColumn).getD [])
  if id.isEmpty then Nat.toDigits 10 number else id

/-- The fix of row `number`, if it has both coordinates. -/
def fixOfRow? (header : List Text) (number : Nat) (row : Csv.Row) : Option Fix := do
  let latitude ← (cellOf? header row latitudeColumn).bind readNumber?
  let longitude ← (cellOf? header row longitudeColumn).bind readNumber?
  some ⟨fixId header number row, latitude, longitude⟩

/-! ### Tables -/

/-- The needed columns that are not named. -/
def missingColumns (header : List Text) : List Text :=
  [latitudeColumn, longitudeColumn].filter (· ∉ header)

/-- The fixes of rows under a header. -/
def intakeOf (header : List Text) (rows : List Csv.Row) : Intake :=
  let filled := rows.filter (· ≠ [])
  ⟨(filled.zipIdx 1).filterMap fun r => fixOfRow? header r.2 r.1, filled.length, header⟩

/-- The fixes of a table.  The header is checked before any later row is looked at; an empty header
is found out at the first row with a cell. -/
def loadSheet (sheet : Csv.Sheet) : Except LoadFault Intake :=
  let header := sheet.rows.head?.getD []
  let rows := sheet.rows.drop 1
  let missing := missingColumns header
  if header ≠ [] ∧ missing ≠ [] then .error (.missingColumns missing header)
  else if header = [] ∧ rows.any (· ≠ []) then .error (.noColumn latitudeColumn)
  else if sheet.overlong then .error .overlongCell
  else .ok (intakeOf header rows)

/-- The fixes of the text of a table. -/
def loadText (t : Text) : Except LoadFault Intake := loadSheet (.ofText t)

/-- The fixes of what is read of a file.  That it could not be read to its end shows when nothing is
wrong with the rows before. -/
def loadExtract (e : Extract) : Except LoadFault Intake := do
  let intake ← loadSheet (.ofExtract e)
  if e.whole then pure intake else .error .notEncoded

/-- **The fixes of an encoded table.** -/
def loadBytes (bytes : ByteArray) : Except LoadFault Intake := loadExtract (.ofBytes bytes)

/-- The notice of a table of which rows were skipped. -/
def Intake.notices (i : Intake) : List Notice :=
  if i.skipped = 0 then [] else [.rowsSkipped i.skipped]

end Geofence
