/-
Fixes: where devices were seen.

Main definitions:

* `Geofence.Fix` — an identifier with a latitude and a longitude;
* `Geofence.fixColumns` — the names of the columns of fixes in a table;
* `Geofence.Intake` — the fixes of a table, with the number of its rows.
-/

import Geofence.Plane.Location
import Geofence.Text.Basic

set_option relaxedAutoImplicit false
set_option autoImplicit false

namespace Geofence

/-- A place where a device was seen. -/
structure Fix where
  id : Text
  latitude : Float
  longitude : Float
  deriving DecidableEq

/-- The location of a fix. -/
def Fix.location (f : Fix) : Location Float := ⟨f.latitude, f.longitude⟩

/-! ### Tables of fixes -/

/-- The name of the column of identifiers. -/
def idColumn : Text := ['i', 'd']

/-- The name of the column of latitudes. -/
def latitudeColumn : Text := ['l', 'a', 't', 'i', 't', 'u', 'd', 'e']

/-- The name of the column of longitudes. -/
def longitudeColumn : Text := ['l', 'o', 'n', 'g', 'i', 't', 'u', 'd', 'e']

/-- The names of the columns of fixes. -/
def fixColumns : List Text := [idColumn, latitudeColumn, longitudeColumn]

/-- What is taken from a table: the fixes of the rows that have one, the number of all rows with a
cell, and the names of the columns. -/
structure Intake where
  fixes : List Fix
  total : Nat
  header : List Text

namespace Intake

/-- The number of the rows with a fix. -/
def parsed (i : Intake) : Nat := i.fixes.length

/-- The number of the rows without one. -/
def skipped (i : Intake) : Nat := i.total - i.parsed

end Intake

end Geofence
