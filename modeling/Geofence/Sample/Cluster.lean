/-
Sample fixes round the middles of clusters.

The fixes are numbered from one.  Each belongs to a cluster drawn at random, lies near its middle,
and is known by the name of the cluster and its own number.  Which generator the draws come from is
left open; it is the one of the program unless another is named.

Main definitions:

* `Geofence.Cluster` — a name, a middle and a spread;
* `Geofence.SampleFault` — why there are no sample fixes, with its wording;
* `Geofence.sampleFixes` — sample fixes;
* `Geofence.sampleTable` — fixes as the text of a table.
-/

import Geofence.Csv.Writer
import Geofence.Number.Render
import Geofence.Sample.Draw
import Geofence.Track.Fix

set_option relaxedAutoImplicit false
set_option autoImplicit false

namespace Geofence

/-- A group of devices: its name, the middle of it in degrees, and how far north, south, east and
west of the middle its devices may be. -/
structure Cluster where
  name : Text
  lat : Float
  lng : Float
  spread : Float

/-- Why there are no sample fixes. -/
inductive SampleFault where
  /-- Fixes are wanted, and there is no cluster. -/
  | noCluster
  deriving DecidableEq

/-- The wording of a fault. -/
def SampleFault.message : SampleFault → String
  | noCluster => "Cannot choose from an empty sequence"

/-! ### One fix -/

/-- A longitude a little beyond the antimeridian, taken to the other side of it. -/
def wrapLongitude (lng : Float) : Float :=
  if lng > 180 then lng - 360 else if lng < -180 then lng + 360 else lng

/-- Sample fix number `index + 1`: the cluster is drawn first, then the distance to the north of its
middle, and then the one to the east. -/
def sampleFix (g : Generator) (first : Cluster) (others : List Cluster) (index : Nat) :
    StateM g.State Fix := do
  let c ← g.pick first others
  let north ← g.between (-c.spread) c.spread
  let east ← g.between (-c.spread) c.spread
  pure ⟨c.name ++ '-' :: Nat.toDigits 10 (index + 1), c.lat + north, wrapLongitude (c.lng + east)⟩

/-! ### Tables of fixes -/

/-- **Sample fixes**: `rows` of them, or none for a negative number, drawn one after another. -/
def sampleFixes (rows seed : Int) (clusters : List Cluster) (g : Generator := twister) :
    Except SampleFault (List Fix) :=
  match clusters with
  | [] => if rows ≤ 0 then .ok [] else .error .noCluster
  | first :: others =>
    let draw := (List.range rows.toNat).mapM (sampleFix g first others)
    .ok (draw.run (g.seeded seed)).1

/-- The row of a sample fix: coordinates have seven places. -/
def sampleRow (f : Fix) : Csv.Row := [f.id, renderFixed 7 f.latitude, renderFixed 7 f.longitude]

/-- **Sample fixes as the text of a table.** -/
def sampleTable (fixes : List Fix) : Text := Csv.write (fixColumns :: fixes.map sampleRow)

/-- The clusters of the sample that is made when none are given. -/
def sampleClusters : List Cluster :=
  [⟨"chengdu_lab".toList, 30.7456421, 103.9284974, 0.002⟩,
    ⟨"shanghai".toList, 31.2304, 121.4737, 0.01⟩,
    ⟨"fiji_dateline".toList, -16.5, 179.95, 0.1⟩]

end Geofence
