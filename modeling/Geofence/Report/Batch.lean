/-
The report on a table of fixes.

Main definitions:

* `Geofence.defaultSource`, `Geofence.defaultTarget` — the paths of the two tables when none are
  given;
* `Geofence.loadFile` — the fixes of a table in a file;
* `Geofence.Batch` — the fixes taken from a table, and the verdicts on them;
* `Geofence.Batch.table` — the table of the verdicts as it is written to a file;
* `Geofence.Batch.text` — the plain report.
-/

import Geofence.Failure
import Geofence.Track.Verdict

set_option relaxedAutoImplicit false
set_option autoImplicit false

namespace Geofence

/-- The path of the table of fixes when none is given. -/
def defaultSource : Text := "points.csv".toList

/-- The path of the table of verdicts when none is given. -/
def defaultTarget : Text := "results.csv".toList

/-- The fixes of the table in the file at a path. -/
def loadFile (tree : FileTree) (path : Text) : Except Failure Intake := do
  let bytes ← (tree.read (.ofText path)).mapError .file
  (loadBytes bytes).mapError .load

/-- The fixes taken from a table, and the verdicts on them. -/
structure Batch where
  intake : Intake
  verdicts : List Verdict

namespace Batch

/-- The number of the fixes in some fence. -/
def inside (b : Batch) : Nat := insideCount b.verdicts

/-- The number of the fixes in none. -/
def outside (b : Batch) : Nat := b.verdicts.length - b.inside

/-- The verdicts on the fixes of a table. -/
def ofIntake (fences : List (Fence Float)) (intake : Intake) : Except DomainError Batch :=
  (classify fences intake.fixes).map fun verdicts => ⟨intake, verdicts⟩

/-- The table of the verdicts, encoded. -/
def table (b : Batch) : ByteArray := (String.ofList (verdictTable b.verdicts)).toUTF8

/-- **The plain report** on a batch that was checked against a number of fences and written to a
file. -/
def text (b : Batch) (fences : Nat) (target : Text) : String :=
  s!"total_rows={b.intake.total}, parsed={b.intake.parsed}, skipped={b.intake.skipped}\n" ++
    s!"围栏={fences}，围栏内={b.inside}，围栏外={b.outside}\n" ++
    s!"已导出：{String.ofList target}\n"

end Batch

end Geofence
