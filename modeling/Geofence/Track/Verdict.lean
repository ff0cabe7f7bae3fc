/-
Verdicts: the fences that contain a fix.

Main definitions:

* `Geofence.Verdict` — a fix and the positions of the fences that contain it;
* `Geofence.classify` — the verdicts on a list of fixes;
* `Geofence.verdictTable` — the verdicts as the text of a table.
-/

import Geofence.Csv.Writer
import Geofence.Fence.Basic
import Geofence.Number.Render
import Geofence.Track.Fix

set_option relaxedAutoImplicit false
set_option autoImplicit false

namespace Geofence

/-- A fix and the positions, in order, of the fences that contain it. -/
structure Verdict where
  fix : Fix
  matched : List Nat

namespace Verdict

/-- Whether some fence contains the fix. -/
def inside (v : Verdict) : Bool := !v.matched.isEmpty

/-- The positions between bars. -/
def matchedText (v : Verdict) : Text := Text.join '|' (v.matched.map (Nat.toDigits 10))

/-- The row of a verdict. -/
def row (v : Verdict) : Csv.Row :=
  [v.fix.id, renderNumber v.fix.latitude, renderNumber v.fix.longitude,
    if v.inside then ['1'] else ['0'], v.matchedText]

end Verdict

/-- The verdict on a fix; all fences are asked. -/
def judge (fences : List (Fence Float)) (f : Fix) : Except DomainError Verdict :=
  (matching fences f.location).map fun matched => ⟨f, matched⟩

/-- **The verdicts on a list of fixes**, in order; one fence that fails to answer for one fix is
enough that there are none. -/
def classify (fences : List (Fence Float)) (fixes : List Fix) :
    Except DomainError (List Verdict) :=
  fixes.mapM (judge fences)

/-- The number of the verdicts with a fence. -/
def insideCount (vs : List Verdict) : Nat := vs.countP Verdict.inside

/-- The name of the column that tells whether some fence contains the fix. -/
def insideColumn : Text := "inside".toList

/-- The name of the column of positions. -/
def matchedColumn : Text := "matched_geometries".toList

/-- The names of the columns of a table of verdicts. -/
def verdictHeader : Csv.Row := fixColumns ++ [insideColumn, matchedColumn]

/-- **The text of a table of verdicts.** -/
def verdictTable (vs : List Verdict) : Text := Csv.write (verdictHeader :: vs.map Verdict.row)

end Geofence
