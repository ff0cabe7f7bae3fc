/-
Running the fence program.

The fences are read first, and what was passed over is logged.  A malformed location, or in a strict
reading a malformed fence, refuses the run.  An option without a value breaks the run off where its
value is needed.

Main definitions:

* `Geofence.runCheck`, `Geofence.runCheckTable`, `Geofence.runNormalize` — the three commands;
* `Geofence.run` — a run with arguments.
-/

import Geofence.Command.Arguments
import Geofence.Command.Outcome
import Geofence.Report.Batch
import Geofence.Report.Check

set_option relaxedAutoImplicit false
set_option autoImplicit false

namespace Geofence

/-- The name of the program. -/
def programName : String := "cb_geofence"

/-! ### Commands -/

section Commands

variable (verbose : Bool) (tree : FileTree)

/-- A run that goes on with the fences that are read. -/
def withFences (strict : Bool) (geometries : Supplied Text)
    (next : List (Fence Float) → Outcome) : Outcome :=
  .withSupplied tree .text geometries fun encoded =>
    let reading := readFences strict encoded
    .afterLog (logText verbose reading.notices) <|
      match reading.result with
      | .error cause => .refusal tree (cause.refusal ++ "\n")
      | .ok fences => next fences

/-- The report on a location, plain or as data.  A plain report shows the entries before a fence
that fails to answer. -/
def report (fences : List (Fence Float)) (p : Location Float) (json : Bool) : Outcome :=
  match anyContains fences p with
  | .error e => .broken tree (.domain e) ""
  | .ok inside =>
    match entriesFor fences p with
    | (entries, none) =>
      let r : CheckReport := ⟨p, inside, entries⟩
      .success tree (if json then String.ofList r.data.write ++ "\n" else r.text)
    | (entries, some e) =>
      .broken tree (.domain e) <|
        if json then ""
        else CheckReport.heading fences.length ++ String.join (entries.map Entry.line)

/-- **Checking one location.** -/
def runCheck (strict : Bool) (geometries point : Supplied Text) (json : Bool) : Outcome :=
  withFences verbose tree strict geometries fun fences =>
    .withSupplied tree .text point fun encoded =>
      match readLocation encoded with
      | .error cause => .refusal tree (cause.refusal ++ "\n")
      | .ok p => report tree fences p json

/-- The verdicts on an intake, written to a file. -/
def exportBatch (fences : List (Fence Float)) (target : Supplied Text) (intake : Intake) :
    Outcome :=
  match Batch.ofIntake fences intake with
  | .error e => .broken tree (.domain e) ""
  | .ok batch =>
    .withSupplied tree .path target fun target =>
      match tree.write (.ofText target) batch.table with
      | .error cause => .broken tree (.file cause) ""
      | .ok after => .success after (batch.text fences.length target)

/-- **Checking a table of fixes.** -/
def runCheckTable (strict : Bool) (geometries source target : Supplied Text) : Outcome :=
  withFences verbose tree strict geometries fun fences =>
    .withSupplied tree .path source fun source =>
      match loadFile tree source with
      | .error cause => .broken tree cause ""
      | .ok intake =>
        .afterLog (logText verbose intake.notices) (exportBatch tree fences target intake)

/-- **Writing fences anew.** -/
def runNormalize (strict : Bool) (geometries : Supplied Text) : Outcome :=
  withFences verbose tree strict geometries fun fences =>
    .success tree (String.ofList (writeFences fences) ++ "\n")

end Commands

/-! ### Whole runs -/

/-- A run of a command. -/
def Command.run (verbose : Bool) (tree : FileTree) : Command → Outcome
  | check geometries strict point json => runCheck verbose tree strict geometries point json
  | checkTable geometries strict source target =>
    runCheckTable verbose tree strict geometries source target
  | normalize geometries strict => runNormalize verbose tree strict geometries

/-- **A run with arguments.**  Dashes that are attached to options leave them without a value, unless
they are to be kept. -/
def run (tree : FileTree) (arguments : List Text) (rule : AttachedDashes := .dropped) : Outcome :=
  match Request.ofArguments rule arguments with
  | .error .help => .help tree
  | .error (.fault verb cause) =>
    .refusal tree (faultLine programName (verb.map Verb.name) cause)
  | .ok request => request.command.run (request.verbosity ≠ 0) tree

end Geofence
