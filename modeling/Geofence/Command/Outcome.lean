/-
The outcome of a run.

Main definitions:

* `Geofence.Ending` — how a run ends: with a code, or broken off;
* `Geofence.Outcome` — the ending, the files after the run and what was written on the way;
* `Geofence.faultLine` — the line about a fault in the arguments.
-/

import Geofence.Failure
import Geofence.Options.Basic

set_option relaxedAutoImplicit false
set_option autoImplicit false

namespace Geofence

/-- How a run ends. -/
inductive Ending where
  | exit (code : Nat)
  | failure (cause : Failure)
  deriving DecidableEq

/-- What a run leaves behind: its ending, the file tree, and the texts on its two outputs. -/
structure Outcome where
  ending : Ending
  tree : FileTree
  stdout : String
  stderr : String

namespace Outcome

variable (tree : FileTree)

/-- A run that does what it was asked for. -/
def success (stdout : String) : Outcome := ⟨.exit 0, tree, stdout, ""⟩

/-- A run that refuses what it was given. -/
def refusal (stderr : String) : Outcome := ⟨.exit 2, tree, "", stderr⟩

/-- A run that breaks off. -/
def broken (cause : Failure) (stdout : String) : Outcome := ⟨.failure cause, tree, stdout, ""⟩

/-- A run that answers a request for help. -/
def help : Outcome := success tree "usage"

/-- A run that goes on with what was supplied, or breaks off. -/
def withSupplied {α : Type} (need : Need) (supplied : Supplied α) (next : α → Outcome) : Outcome :=
  match supplied.forNeed need with
  | .error need => broken tree (.noValue need) ""
  | .ok a => next a

/-- A run after some lines of the log. -/
def afterLog (log : String) (o : Outcome) : Outcome := { o with stderr := log ++ o.stderr }

end Outcome

/-- The wording of a fault in the arguments of a program or of one of its commands. -/
def faultLine (program : String) (command : Option Text) (cause : ArgumentFault) : String :=
  let place := match command with
    | none => program
    | some name => s!"{program} {String.ofList name}"
  s!"{place}: error: {cause.message}\n"

end Geofence
