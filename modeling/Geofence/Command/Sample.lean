/-
The arguments of the sample program, and running it.

Main definitions:

* `Geofence.SampleRequest` — where the sample goes, how many rows it has, and its seed;
* `Geofence.SampleRequest.ofArguments` — the request that arguments make;
* `Geofence.runSample` — a run with arguments.
-/

import Geofence.Command.Outcome
import Geofence.Options.Settings

set_option relaxedAutoImplicit false
set_option autoImplicit false

namespace Geofence

/-! ### Arguments -/

/-- What the options of the sample program are about. -/
inductive SampleTopic where
  | help
  | target
  | rows
  | seed
  deriving DecidableEq

/-- The options of the sample program. -/
def sampleOptions : List (Opt SampleTopic) :=
  [⟨.help, ["-h".toList, "--help".toList], .help⟩, ⟨.target, ["--out".toList], .text⟩,
    ⟨.rows, ["--rows".toList], .integer⟩, ⟨.seed, ["--seed".toList], .integer⟩]

/-- Where a sample goes, how many rows it has, and the seed it is drawn from. -/
structure SampleRequest where
  target : Supplied Text
  rows : Supplied Int
  seed : Supplied Int
  deriving DecidableEq

namespace SampleRequest

/-- The request that is made when nothing is given. -/
def default : SampleRequest :=
  ⟨.value "sample_data/points.csv".toList, .value 500, .value 42⟩

/-- **The request that arguments make.**  No argument may be left over. -/
def ofArguments (rule : AttachedDashes) (arguments : List Text) : Except Stop SampleRequest := do
  let scanned ← scanArguments rule sampleOptions false arguments
  if scanned.strays = [] then
    pure
      { target := (textOf? scanned.settings .target).getD default.target
        rows := (integerOf? scanned.settings .rows).getD default.rows
        seed := (integerOf? scanned.settings .seed).getD default.seed }
  else .error (.fault (.unrecognized scanned.strays))

end SampleRequest

/-- The paths of the files that a run with arguments writes. -/
def samplePaths (rule : AttachedDashes) (arguments : List Text) : List Text :=
  match SampleRequest.ofArguments rule arguments with
  | .ok r => r.target.value?.toList
  | .error _ => []

/-! ### Running -/

/-- The name of the sample program. -/
def sampleProgramName : String := "generate_sample_points_csv.py"

/-- The line about a sample that was written. -/
def sampleLine (p : Path) (rows : Nat) (seed : Int) : String :=
  s!"Generated: {String.ofList p.toText} (rows={rows}, seed={seed})\n"

/-- A sample in its file: the folders above the file are made first. -/
def exportSample (tree : FileTree) (p : Path) (seed : Int) (fixes : List Fix) : Outcome :=
  match tree.makeFolders p.parent with
  | .error cause => .broken tree (.file cause) ""
  | .ok tree =>
    match tree.write p (String.ofList (sampleTable fixes)).toUTF8 with
    | .error cause => .broken tree (.file cause) ""
    | .ok tree => .success tree (sampleLine p fixes.length seed)

/-- A run of the sample program on a request: the seed is needed first, then the number of rows, and
the path when there are fixes to write. -/
def SampleRequest.run (tree : FileTree) (r : SampleRequest) : Outcome :=
  .withSupplied tree .seed r.seed fun seed =>
    .withSupplied tree .count r.rows fun rows =>
      match sampleFixes rows seed sampleClusters with
      | .error cause => .broken tree (.sample cause) ""
      | .ok fixes =>
        .withSupplied tree .path r.target fun target =>
          exportSample tree (.ofText target) seed fixes

/-- **A run of the sample program with arguments.**  Dashes that are attached to options leave them
without a value, unless they are to be kept. -/
def runSample (tree : FileTree) (arguments : List Text) (rule : AttachedDashes := .dropped) :
    Outcome :=
  match SampleRequest.ofArguments rule arguments with
  | .error .help => .help tree
  | .error (.fault cause) => .refusal tree (faultLine sampleProgramName none cause)
  | .ok r => r.run tree

end Geofence
