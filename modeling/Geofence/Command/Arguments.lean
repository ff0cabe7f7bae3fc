/-
The arguments of the fence program.

An option before the command makes the log verbose.  A command has options of its own; some of them
have to be given.  Arguments that are left over, before the command or after it, are refused at the
end, when nothing else is wrong.

Main definitions:

* `Geofence.Verb` — the commands, with their names and options;
* `Geofence.Command`, `Geofence.Request` — a command with what was supplied for it, and a
  whole request;
* `Geofence.Refusal` — help, or a fault in the arguments of the program or of a command;
* `Geofence.Request.ofArguments` — the request that arguments make;
* `Geofence.pathsNamed` — the paths of the files that it reads or writes.
-/

import Geofence.Options.Settings
import Geofence.Report.Batch

set_option relaxedAutoImplicit false
set_option autoImplicit false

namespace Geofence

/-! ### Options -/

/-- What the options of the program are about. -/
inductive Topic where
  | help
  | verbose
  | geometries
  | point
  | source
  | target
  | strict
  | json
  deriving DecidableEq

/-- The option that asks for help. -/
def helpOption : Opt Topic := ⟨.help, ["-h".toList, "--help".toList], .help⟩

/-- The option that makes the log verbose. -/
def verboseOption : Opt Topic := ⟨.verbose, ["-v".toList, "--verbose".toList], .mark⟩

/-- The option with the encoded fences. -/
def geometriesOption : Opt Topic := ⟨.geometries, ["--geometries".toList], .text⟩

/-- The option with a location. -/
def pointOption : Opt Topic := ⟨.point, ["--point".toList], .text⟩

/-- The option with the path of a table of fixes. -/
def sourceOption : Opt Topic := ⟨.source, ["--csv".toList], .text⟩

/-- The option with the path of a table of verdicts. -/
def targetOption : Opt Topic := ⟨.target, ["--out".toList], .text⟩

/-- The option that makes the reading of fences strict. -/
def strictOption : Opt Topic := ⟨.strict, ["--strict".toList], .mark⟩

/-- The option that asks for data. -/
def jsonOption : Opt Topic := ⟨.json, ["--json".toList], .mark⟩

/-- The options before the command. -/
def programOptions : List (Opt Topic) := [helpOption, verboseOption]

/-! ### Commands -/

/-- The commands: checking one location, checking a table of fixes, and writing fences anew. -/
inductive Verb where
  | check
  | checkTable
  | normalize
  deriving DecidableEq

namespace Verb

/-- All commands. -/
def all : List Verb := [check, checkTable, normalize]

/-- The name of a command. -/
def name : Verb → Text
  | check => "check".toList
  | checkTable => "check-csv".toList
  | normalize => "normalize".toList

/-- The command with a name. -/
def ofName? (t : Text) : Option Verb := all.find? (·.name = t)

/-- The options of a command that have to be given. -/
def neededOptions : Verb → List (Opt Topic)
  | check => [geometriesOption, pointOption]
  | checkTable => [geometriesOption]
  | normalize => [geometriesOption]

/-- The other options of a command but the one for help. -/
def freeOptions : Verb → List (Opt Topic)
  | check => [strictOption, jsonOption]
  | checkTable => [sourceOption, targetOption, strictOption]
  | normalize => [strictOption]

/-- The options of a command. -/
def options (v : Verb) : List (Opt Topic) := helpOption :: v.neededOptions ++ v.freeOptions

end Verb

/-- A command with what was supplied for it. -/
inductive Command where
  | check (geometries : Supplied Text) (strict : Bool) (point : Supplied Text) (json : Bool)
  | checkTable (geometries : Supplied Text) (strict : Bool) (source target : Supplied Text)
  | normalize (geometries : Supplied Text) (strict : Bool)
  deriving DecidableEq

/-- The paths of the files that a command reads or writes. -/
def Command.paths : Command → List Text
  | .checkTable _ _ source target => [source, target].filterMap Supplied.value?
  | _ => []

/-- The command that settings make, if none that it needs is missing. -/
def Verb.command? (settings : List (Setting Topic)) (v : Verb) : Option Command := do
  let encoded ← textOf? settings .geometries
  let tight := isMarked settings .strict
  match v with
  | check => do
    let location ← textOf? settings .point
    some (.check encoded tight location (isMarked settings .json))
  | checkTable =>
    some (.checkTable encoded tight ((textOf? settings .source).getD (.value defaultSource))
      ((textOf? settings .target).getD (.value defaultTarget)))
  | normalize => some (.normalize encoded tight)

/-! ### Requests -/

/-- What arguments ask for: how verbose the log is to be, and the command. -/
structure Request where
  verbosity : Nat
  command : Command
  deriving DecidableEq

/-- Why arguments make no request: they ask for help, or there is a fault in the arguments of the
program or of a command. -/
inductive Refusal where
  | help
  | fault (verb : Option Verb) (cause : ArgumentFault)
  deriving DecidableEq

/-- The refusal that ends the reading of the arguments of the program or of a command. -/
def Refusal.ofStop (verb : Option Verb) : Stop → Refusal
  | .help => .help
  | .fault cause => .fault verb cause

/-- The name under which the place of the command is known. -/
def commandLabel : Text := "cmd".toList

/-- The command that the arguments after its name make, with the arguments left over. -/
def Verb.read (rule : AttachedDashes) (v : Verb) (arguments : List Text) :
    Except Refusal (Command × List Text) := do
  let scanned ← (scanArguments rule v.options false arguments).mapError (.ofStop (some v))
  match v.command? scanned.settings with
  | some command => pure (command, scanned.strays)
  | none =>
    .error (.fault (some v) (.required (missingLabels scanned.settings v.neededOptions)))

/-- **The request that arguments make.** -/
def Request.ofArguments (rule : AttachedDashes) (arguments : List Text) :
    Except Refusal Request := do
  let scanned ← (scanArguments rule programOptions true arguments).mapError (.ofStop none)
  match scanned.command with
  | none => .error (.fault none (.required [commandLabel]))
  | some (name, rest) =>
    match Verb.ofName? name with
    | none =>
      .error (.fault none (.unknownCommand commandLabel name (Verb.all.map Verb.name)))
    | some v => do
      let (command, strays) ← v.read rule rest
      let strays := scanned.strays ++ strays
      if strays = [] then pure ⟨markCount scanned.settings .verbose, command⟩
      else .error (.fault none (.unrecognized strays))

/-- The paths of the files that a run with arguments reads or writes. -/
def pathsNamed (rule : AttachedDashes) (arguments : List Text) : List Text :=
  match Request.ofArguments rule arguments with
  | .ok request => request.command.paths
  | .error _ => []

end Geofence
