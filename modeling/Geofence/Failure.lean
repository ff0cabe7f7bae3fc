/-
Why a run breaks off.

Main definitions:

* `Geofence.Failure` — the causes, and `Geofence.Failure.message` for their wording.
-/

import Geofence.Fence.Sphere
import Geofence.FileTree.Basic
import Geofence.Options.Supplied
import Geofence.Sample.Cluster
import Geofence.Track.Load

set_option relaxedAutoImplicit false
set_option autoImplicit false

namespace Geofence

/-- Why a run breaks off. -/
inductive Failure where
  /-- The distance of two locations is undefined. -/
  | domain (cause : DomainError)
  /-- A file or folder cannot be used. -/
  | file (cause : FileFault)
  /-- A table gives nothing. -/
  | load (cause : LoadFault)
  /-- There are no sample fixes. -/
  | sample (cause : SampleFault)
  /-- An option was given without a value. -/
  | noValue (need : Need)
  deriving DecidableEq

/-- The wording of a failure. -/
def Failure.message : Failure → String
  | domain cause => cause.message
  | file cause => cause.message
  | load cause => cause.message
  | sample cause => cause.message
  | noValue need => need.message

end Geofence
