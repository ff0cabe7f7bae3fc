/-
What the settings of a command line say on an option.

Of several settings of one option the last one counts; marks are counted.

Main definitions:

* `Geofence.textOf?`, `Geofence.integerOf?` — what was supplied for an option;
* `Geofence.markCount`, `Geofence.isMarked` — how often an option was given, and whether it was;
* `Geofence.missingLabels` — the options not given among those that have to be.
-/

import Geofence.Options.Scan

set_option relaxedAutoImplicit false
set_option autoImplicit false

namespace Geofence

variable {κ : Type} [DecidableEq κ]

/-- What a setting supplies, if it is one of a text for the option `key`. -/
def Setting.textFor? (key : κ) : Setting κ → Option (Supplied Text)
  | .text k supplied => if k = key then some supplied else none
  | _ => none

/-- What a setting supplies, if it is one of an integer for the option `key`. -/
def Setting.integerFor? (key : κ) : Setting κ → Option (Supplied Int)
  | .integer k supplied => if k = key then some supplied else none
  | _ => none

/-- Whether a setting is a mark for the option `key`. -/
def Setting.marks (key : κ) : Setting κ → Bool
  | .mark k => k = key
  | _ => false

/-- What was supplied last for an option that takes a text. -/
def textOf? (settings : List (Setting κ)) (key : κ) : Option (Supplied Text) :=
  (settings.filterMap (·.textFor? key)).getLast?

/-- What was supplied last for an option that takes an integer. -/
def integerOf? (settings : List (Setting κ)) (key : κ) : Option (Supplied Int) :=
  (settings.filterMap (·.integerFor? key)).getLast?

/-- How often an option was given. -/
def markCount (settings : List (Setting κ)) (key : κ) : Nat := settings.countP (·.marks key)

/-- Whether an option was given. -/
def isMarked (settings : List (Setting κ)) (key : κ) : Bool := settings.any (·.marks key)

/-- The labels of those options of `needed` that were not given. -/
def missingLabels (settings : List (Setting κ)) (needed : List (Opt κ)) : List Text :=
  (needed.filter fun o => (textOf? settings o.key).isNone).map Opt.label

end Geofence
