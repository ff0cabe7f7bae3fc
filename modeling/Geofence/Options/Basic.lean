/-
Options of a command line.

An option has one or more names, each with its leading dashes: one dash before a single letter, two
before a word.  It is a mark, or it takes a text or an integer, or it asks for help.

An argument is judged by itself.  It names an option when it is one of the names, or the beginning
of exactly one long name, or a short name with letters behind it; a value may be attached to a name
by an equals sign, or to a short name directly.  An argument that begins with a dash and names no
option is a stray one, unless it is a dash alone or a negative number or holds a space.

Main definitions:

* `Geofence.Kind`, `Geofence.Opt` — what an option takes, and an option;
* `Geofence.ArgumentFault` — why arguments are refused, with its wording;
* `Geofence.Shape` and `Geofence.shapeOf` — what an argument is by itself.
-/

import Geofence.Text.Digit
import Geofence.Text.Quoted

set_option relaxedAutoImplicit false
set_option autoImplicit false

namespace Geofence

open Text

/-- What an option does or takes. -/
inductive Kind where
  | help
  | mark
  | text
  | integer
  deriving DecidableEq

/-- An option: what it is known by, its names and its kind. -/
structure Opt (κ : Type) where
  key : κ
  names : List Text
  kind : Kind

namespace Opt

variable {κ : Type}

/-- Whether an option takes a value. -/
def takesValue (o : Opt κ) : Bool := o.kind = .text || o.kind = .integer

/-- All names of an option, with slashes between them. -/
def label (o : Opt κ) : Text := join '/' o.names

end Opt

/-! ### Faults -/

/-- Why arguments are refused. -/
inductive ArgumentFault where
  /-- An argument is the beginning of several names. -/
  | ambiguous (argument : Text) (names : List Text)
  /-- An option has no value. -/
  | valueExpected (label : Text)
  /-- An option has a value and takes none. -/
  | valueIgnored (label value : Text)
  /-- The value of an option is no integer. -/
  | notAnInteger (label value : Text)
  /-- Options or a command are missing. -/
  | required (labels : List Text)
  /-- The command is none of those there are. -/
  | unknownCommand (label command : Text) (commands : List Text)
  /-- Arguments are left over. -/
  | unrecognized (arguments : List Text)
  deriving DecidableEq

/-- The wording of a fault. -/
def ArgumentFault.message : ArgumentFault → String
  | ambiguous argument names =>
    s!"ambiguous option: {plain argument} could match {listed names}"
  | valueExpected label => s!"argument {plain label}: expected one argument"
  | valueIgnored label value =>
    s!"argument {plain label}: ignored explicit argument {quoted value}"
  | notAnInteger label value => s!"argument {plain label}: invalid int value: {quoted value}"
  | required labels => s!"the following arguments are required: {listed labels}"
  | unknownCommand label command commands =>
    let choices := ", ".intercalate (commands.map quoted)
    s!"argument {plain label}: invalid choice: {quoted command} (choose from {choices})"
  | unrecognized arguments =>
    "unrecognized arguments: " ++ " ".intercalate (arguments.map plain)
where
  /-- A text as it is. -/
  plain (t : Text) : String := String.ofList t
  /-- Texts as they are, with commas between them. -/
  listed (ts : List Text) : String := ", ".intercalate (ts.map String.ofList)

/-! ### Arguments by themselves -/

/-- What an argument is by itself. -/
inductive Shape (κ : Type) where
  /-- No option. -/
  | operand
  /-- An option under one of its names, perhaps with a value attached. -/
  | option (o : Opt κ) (name : Text) (attached : Option Text)
  /-- It looks like an option and is none. -/
  | stray

/-- Whether a text is a dash and a number without exponent; a line feed may follow. -/
def isNegativeNumber : Text → Bool
  | '-' :: t =>
    let t := if t.getLast? = some '\n' then t.dropLast else t
    let (whole, rest) := t.span isDigit
    match rest with
    | [] => !whole.isEmpty
    | '.' :: fraction => !fraction.isEmpty && fraction.all isDigit
    | _ => false
  | _ => false

section Shapes

variable {κ : Type}

/-- Every name with its option, in order. -/
def namedOptions (os : List (Opt κ)) : List (Text × Opt κ) :=
  os.flatMap fun o => o.names.map fun name => (name, o)

/-- The option with a name. -/
def optionNamed? (os : List (Opt κ)) (name : Text) : Option (Opt κ) :=
  (namedOptions os).find? (·.1 = name) |>.map (·.2)

/-- The part before the first equals sign, and the part after it if there is one. -/
def splitValue (t : Text) : Text × Option Text :=
  let (name, rest) := t.span (· ≠ '=')
  (name, match rest with
    | [] => none
    | _ :: value => some value)

/-- Whether a name begins with two dashes. -/
def isLong : Text → Bool
  | '-' :: '-' :: _ => true
  | _ => false

/-- The options that an argument may mean without being one of their names, each with the name and
the attached value. -/
def candidates (os : List (Opt κ)) (argument : Text) : List (Opt κ × Text × Option Text) :=
  if isLong argument then
    let (stem, attached) := splitValue argument
    (namedOptions os).filterMap fun (name, o) =>
      if stem.isPrefixOf name then some (o, name, attached) else none
  else
    (namedOptions os).filterMap fun (name, o) =>
      if name = argument.take 2 then some (o, name, some (argument.drop 2))
      else if argument.isPrefixOf name then some (o, name, none)
      else none

/-- What an argument is that begins with a dash and is not one of the names. -/
def shapeOfUnnamed (os : List (Opt κ)) (argument : Text) : Except ArgumentFault (Shape κ) :=
  match candidates os argument with
  | [] =>
    if isNegativeNumber argument || argument.contains ' ' then .ok .operand else .ok .stray
  | [(o, name, attached)] => .ok (.option o name attached)
  | several => .error (.ambiguous argument (several.map (·.2.1)))

/-- **What an argument is by itself.** -/
def shapeOf (os : List (Opt κ)) (argument : Text) : Except ArgumentFault (Shape κ) :=
  if argument.head? ≠ some '-' then .ok .operand
  else
    match optionNamed? os argument with
    | some o => .ok (.option o argument none)
    | none =>
      if argument.length = 1 then .ok .operand
      else
        match splitValue argument with
        | (name, some value) =>
          match optionNamed? os name with
          | some o => .ok (.option o name (some value))
          | none => shapeOfUnnamed os argument
        | (_, none) => shapeOfUnnamed os argument

end Shapes

end Geofence
