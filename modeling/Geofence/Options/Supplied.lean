/-
Options that are given without a value.

Releases of the reader of options differ in what they make of two dashes that are attached to a name.
To the later ones they are a value like any other.  The earlier ones take them off, which leaves the
option given and without a value; that is no fault in the arguments, and shows when the value is
needed.

Main definitions:

* `Geofence.AttachedDashes` — what becomes of attached dashes;
* `Geofence.Supplied` — what was supplied for an option;
* `Geofence.Need` — what a value is needed for, with the wording of its lack;
* `Geofence.Supplied.forNeed` — the value, or the need that it leaves.
-/

import Geofence.Text.Basic

set_option relaxedAutoImplicit false
set_option autoImplicit false

namespace Geofence

/-- What becomes of two dashes that are attached to the name of an option. -/
inductive AttachedDashes where
  /-- They are the value. -/
  | kept
  /-- They leave the option without a value. -/
  | dropped
  deriving DecidableEq

/-- What was supplied for an option. -/
inductive Supplied (α : Type) where
  | value (a : α)
  | nothing
  deriving DecidableEq

/-- What a value is needed for. -/
inductive Need where
  /-- A text to be read. -/
  | text
  /-- The path of a file. -/
  | path
  /-- A number of rows. -/
  | count
  /-- The seed of a sample. -/
  | seed
  deriving DecidableEq

/-- The wording of the lack of a value. -/
def Need.message : Need → String
  | text => "'list' object has no attribute 'strip'"
  | path => "expected str, bytes or os.PathLike object, not list"
  | count => "'list' object cannot be interpreted as an integer"
  | seed =>
    "The only supported seed types are: None,\nint, float, str, bytes, and bytearray."

namespace Supplied

variable {α : Type}

/-- The value, if there is one. -/
def value? : Supplied α → Option α
  | value a => some a
  | nothing => none

/-- The value, or the need that it leaves. -/
def forNeed (need : Need) : Supplied α → Except Need α
  | value a => .ok a
  | nothing => .error need

/-- A supplied value meets every need. -/
@[simp]
theorem forNeed_value (need : Need) (a : α) : (value a).forNeed need = .ok a := rfl

end Supplied

end Geofence
