/-
The programs among real files.

A run is worked out on the files and folders on the way to the paths that it names; then what it
changed is written, and its outputs are printed.  The program is the one it is called by: under the
name of the sample program it makes a sample, and under any other it checks fences.
-/

import Geofence.Command.Run
import Geofence.Command.Sample

set_option relaxedAutoImplicit false
set_option autoImplicit false

namespace Geofence

/-- Names as a path from the root. -/
def placeOf (names : List Text) : String := String.ofList ('/' :: Text.join '/' names)

/-- The tree with what stands under some names. -/
def observePlace (tree : FileTree) (names : List Text) : IO FileTree := do
  let place := (← IO.currentDir) / placeOf names
  if ← place.isDir then return { tree with folders := names :: tree.folders }
  else if ← place.pathExists then return tree.put names (← IO.FS.readBinFile place)
  else return tree

/-- The files and folders on the way along some paths. -/
def observe (paths : List Path) : IO FileTree := do
  let here := (Path.ofText (← IO.currentDir).toString.toList).names
  let tree : FileTree := ⟨[], [], here⟩
  (paths.flatMap tree.along).eraseDups.foldlM observePlace tree

/-- Writing what a run has changed. -/
def commit (before after : FileTree) : IO Unit := do
  for names in after.folders do
    unless before.hasFolder names do IO.FS.createDirAll (placeOf names)
  for (names, bytes) in before.changes after do
    IO.FS.writeBinFile (placeOf names) bytes

/-- Running in the current directory. -/
def runHere (paths : List Text) (program : FileTree → Outcome) : IO UInt32 := do
  let before ← observe (paths.map Path.ofText)
  let outcome := program before
  commit before outcome.tree
  IO.print outcome.stdout
  IO.eprint outcome.stderr
  match outcome.ending with
  | .exit code => return UInt32.ofNat code
  | .failure cause =>
    IO.eprintln cause.message
    return 1

end Geofence

open Geofence

/-- The command line. -/
def main (arguments : List String) : IO UInt32 := do
  let texts := arguments.map String.toList
  if (← IO.appPath).fileName = some sampleProgramName then
    runHere (samplePaths .kept texts) (runSample · texts .kept)
  else runHere (pathsNamed .kept texts) (run · texts .kept)
