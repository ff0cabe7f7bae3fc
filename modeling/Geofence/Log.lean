/-
Notices: what the library reports beside its results.

Main definitions:

* `Geofence.Notice` — the occasions of a notice;
* `Geofence.Notice.message` — their wording;
* `Geofence.Notice.line` — a notice as a line of the log.
-/

import Geofence.Encoding.Malformed

set_option relaxedAutoImplicit false
set_option autoImplicit false

namespace Geofence

open Text

/-- The occasions of a notice. -/
inductive Notice where
  /-- A segment of an unknown kind was skipped. -/
  | unknownKind (segment kind : Text)
  /-- A malformed segment was skipped. -/
  | malformed (segment : Text) (cause : Malformed)
  /-- An object that is no fence was left out of an encoded list. -/
  | unsupported (object : Text)
  /-- Rows of a table were skipped. -/
  | rowsSkipped (count : Nat)
  deriving DecidableEq

namespace Notice

/-- The weight of a notice: only an object that cannot be encoded is an error. -/
def level : Notice → String
  | unsupported _ => "ERROR"
  | _ => "WARNING"

/-- The name under which a notice is logged. -/
def source : Notice → String
  | rowsSkipped _ => "cb_geofence.csv_io"
  | _ => "cb_geofence.codec"

/-- The wording of a notice. -/
def message : Notice → String
  | unknownKind segment kind =>
    s!"Invalid geometry format {quoted segment}: unrecognized geometry kind: {quoted kind}"
  | malformed segment cause =>
    s!"Skipping malformed geometry {quoted segment}: {cause.message}"
  | unsupported object => s!"Unsupported geometry object {quoted object}"
  | rowsSkipped count => s!"CSV中有 {count} 行解析失败已跳过"

/-- A notice with its weight and the name it is logged under. -/
def fullLine (n : Notice) : String := s!"{n.level} {n.source}: {n.message}"

/-- What the log shows of a notice: all of it in a verbose run, and the wording alone otherwise. -/
def line (verbose : Bool) (n : Notice) : String := if verbose then n.fullLine else n.message

end Notice

/-- The lines of a log, each with its line end. -/
def logText (verbose : Bool) (notices : List Notice) : String :=
  String.join (notices.map fun n => n.line verbose ++ "\n")

end Geofence
