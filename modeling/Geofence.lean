import Geofence.Encoding.Tag
import Geofence.Main
import Geofence.Proofs.Command.Agreement
import Geofence.Proofs.Command.Normal
import Geofence.Proofs.Encoding.Strict
import Geofence.Proofs.Fence.Boundary
import Geofence.Proofs.Fence.Cut
import Geofence.Proofs.Fence.Fan
import Geofence.Proofs.Fence.GreatCircle
import Geofence.Proofs.Fence.Mirror
import Geofence.Proofs.Fence.Order
import Geofence.Proofs.Fence.Outside
import Geofence.Proofs.Fence.Rotation
import Geofence.Proofs.Fence.Tolerance
import Geofence.Proofs.Fence.Unlocated
import Geofence.Proofs.Screen.Page
import Geofence.Proofs.Track.Columns
import Geofence.Proofs.Track.Reload
import Geofence.Proofs.Track.Union
import Geofence.Screen.Page
import Geofence.Proofs.Number.Exact
import Geofence.Proofs.Plane.Projection
import Geofence.Proofs.Number.Fixed
import Geofence.Proofs.Report.Told
import Geofence.Proofs.Sample.Place
import Geofence.Proofs.Sample.Table
import Geofence.Proofs.Sample.Draw
