/-
Reading the options of a command line.

The arguments are judged first, each by itself; two dashes alone end the options, and every argument
after them is an operand.  Then they are taken in order.  A mark may carry further short options in
the letters behind it.  A value is attached to its option or is the next argument, which must be an
operand; two dashes that are attached are a value or stand for none, by the release.  Where a command
is expected, it is the first operand, and it takes all arguments after it; operands are stray
otherwise.

Main definitions:

* `Geofence.Token` — an argument as it was judged;
* `Geofence.Setting` — an option with what was supplied for it;
* `Geofence.Stop` — help, or a fault;
* `Geofence.Scanned` and `Geofence.scanArguments` — the settings, the stray arguments and the
  command with its arguments.
-/

import Geofence.Number.Integer
import Geofence.Options.Basic
import Geofence.Options.Supplied

set_option relaxedAutoImplicit false
set_option autoImplicit false

namespace Geofence

open Text

/-- The two dashes that end the options. -/
def dashes : Text := ['-', '-']

/-- An argument as it was judged. -/
inductive Token (κ : Type) where
  /-- The two dashes that end the options. -/
  | separator
  | argument (text : Text) (shape : Shape κ)

namespace Token

variable {κ : Type}

/-- The argument itself. -/
def text : Token κ → Text
  | separator => dashes
  | argument text _ => text

/-- Judging the arguments, up to the two dashes that end the options. -/
def ofArguments (os : List (Opt κ)) : List Text → Except ArgumentFault (List (Token κ))
  | [] => .ok []
  | t :: rest =>
    if t = dashes then .ok (separator :: rest.map (argument · .operand))
    else do
      let shape ← shapeOf os t
      let tokens ← ofArguments os rest
      pure (argument t shape :: tokens)

end Token

/-- An option with what was supplied for it. -/
inductive Setting (κ : Type) where
  | mark (key : κ)
  | text (key : κ) (supplied : Supplied Text)
  | integer (key : κ) (supplied : Supplied Int)

/-- Why the arguments are not taken to their end. -/
inductive Stop where
  | help
  | fault (f : ArgumentFault)
  deriving DecidableEq

/-- What the arguments say: the settings in order, the stray arguments in order, and the command
with its arguments. -/
structure Scanned (κ : Type) where
  settings : List (Setting κ)
  strays : List Text
  command : Option (Text × List Text)

namespace Scanned

variable {κ : Type}

/-- Nothing is said. -/
def empty : Scanned κ := ⟨[], [], none⟩

/-- Settings in front of the others. -/
def addSettings (settings : List (Setting κ)) (s : Scanned κ) : Scanned κ :=
  { s with settings := settings ++ s.settings }

/-- A stray argument in front of the others. -/
def addStray (t : Text) (s : Scanned κ) : Scanned κ := { s with strays := t :: s.strays }

end Scanned

section Options

variable {κ : Type} (rule : AttachedDashes)

/-- What a value supplies, when it is read in some way. -/
def suppliedBy {α : Type} (read : Text → Except Stop α) (value : Text) :
    Except Stop (Supplied α) :=
  if rule = .dropped ∧ value = dashes then .ok .nothing else (read value).map .value

/-- The value of an option that takes an integer. -/
def integerValue (o : Opt κ) (value : Text) : Except Stop Int :=
  match readInteger? value with
  | some n => .ok n
  | none => .error (.fault (.notAnInteger o.label value))

/-- The setting of an option with a value. -/
def valueSetting (o : Opt κ) (value : Text) : Except Stop (Setting κ) :=
  if o.kind = .integer then (suppliedBy rule (integerValue o) value).map (.integer o.key)
  else (suppliedBy rule .ok value).map (.text o.key)

/-- The setting of an option without a value. -/
def markSetting (o : Opt κ) : Except Stop (Setting κ) :=
  if o.kind = .help then .error .help else .ok (.mark o.key)

/-- The options in an argument: marks, and a last one with what is attached to it.  The letters
behind a short mark are short options themselves. -/
def cluster (os : List (Opt κ)) (o : Opt κ) (name : Text) :
    Text → Except ArgumentFault (List (Opt κ) × Opt κ × Option Text)
  | [] => if o.takesValue then .ok ([], o, some []) else .error (.valueIgnored o.label [])
  | c :: letters =>
    if o.takesValue then .ok ([], o, some (c :: letters))
    else if isLong name then .error (.valueIgnored o.label (c :: letters))
    else
      match optionNamed? os ['-', c] with
      | none => .error (.valueIgnored o.label (c :: letters))
      | some next =>
        if letters.isEmpty then .ok ([o], next, none)
        else (cluster os next ['-', c] letters).map fun (marks, last) => (o :: marks, last)

/-- The options in an argument, with or without something attached. -/
def optionsIn (os : List (Opt κ)) (o : Opt κ) (name : Text) (attached : Option Text) :
    Except ArgumentFault (List (Opt κ) × Opt κ × Option Text) :=
  match attached with
  | none => .ok ([], o, none)
  | some letters => cluster os o name letters

/-- The settings of the marks and the last option of an argument. -/
def settingsOf (marks : List (Opt κ)) (last : Except Stop (Setting κ)) :
    Except Stop (List (Setting κ)) := do
  let marks ← marks.mapM markSetting
  let last ← last
  pure (marks ++ [last])

/-- Taking the arguments in order. -/
def scanTokens (os : List (Opt κ)) (commands : Bool) :
    List (Token κ) → Except Stop (Scanned κ)
  | [] => .ok .empty
  | .separator :: rest =>
    if commands && !rest.isEmpty then .ok ⟨[], [], some (dashes, rest.map Token.text)⟩
    else (scanTokens os commands rest).map (.addStray dashes)
  | .argument t .operand :: rest =>
    if commands then .ok ⟨[], [], some (t, rest.map Token.text)⟩
    else (scanTokens os commands rest).map (.addStray t)
  | .argument t .stray :: rest => (scanTokens os commands rest).map (.addStray t)
  | .argument _ (.option o name attached) :: rest => do
    let (marks, last, value) ← (optionsIn os o name attached).mapError .fault
    match value with
    | some value => do
      let settings ← settingsOf marks (valueSetting rule last value)
      (scanTokens os commands rest).map (.addSettings settings)
    | none =>
      if last.takesValue then
        match rest with
        | .argument value .operand :: rest => do
          let settings ← settingsOf marks (valueSetting rule last value)
          (scanTokens os commands rest).map (.addSettings settings)
        | _ => .error (.fault (.valueExpected last.label))
      else do
        let settings ← settingsOf marks (markSetting last)
        (scanTokens os commands rest).map (.addSettings settings)

/-- **Reading arguments**: all are judged before the first one is taken. -/
def scanArguments (os : List (Opt κ)) (commands : Bool) (arguments : List Text) :
    Except Stop (Scanned κ) := do
  let tokens ← (Token.ofArguments os arguments).mapError .fault
  scanTokens rule os commands tokens

end Options

end Geofence
