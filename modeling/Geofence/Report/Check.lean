/-
The report on one location.

Every fence is asked for itself, also after one that contains the location; the verdict on the list
as a whole is worked out before.  The plain report has a line for each fence and is made as the
fences answer; the data hold the same facts and are made only when all have answered.

Main definitions:

* `Geofence.Entry` — a fence, its position and its answer;
* `Geofence.entriesFor` — the entries up to the first fence that fails to answer;
* `Geofence.CheckReport` — the location, the verdict and the entries;
* `Geofence.CheckReport.text`, `Geofence.CheckReport.data` — the two forms of a report.
-/

import Geofence.Encoding.Writer
import Geofence.Report.Json

set_option relaxedAutoImplicit false
set_option autoImplicit false

namespace Geofence

/-! ### Entries -/

/-- A fence, its position in the list, and whether it contains the location. -/
structure Entry where
  index : Nat
  fence : Fence Float
  contains : Bool

/-- The entries of the fences at the positions from `index` on, up to the first fence that fails to
answer, with its failure. -/
def entriesFrom (p : Location Float) (index : Nat) :
    List (Fence Float) → List Entry × Option DomainError
  | [] => ([], none)
  | f :: rest =>
    match f.contains p with
    | .error e => ([], some e)
    | .ok b =>
      let (entries, failure) := entriesFrom p (index + 1) rest
      (⟨index, f, b⟩ :: entries, failure)

/-- The entries of a list of fences up to the first one that fails to answer. -/
def entriesFor (fences : List (Fence Float)) (p : Location Float) :
    List Entry × Option DomainError :=
  entriesFrom p 0 fences

/-! ### Reports -/

/-- The report on one location. -/
structure CheckReport where
  point : Location Float
  inside : Bool
  entries : List Entry

/-- A truth value in the plain report. -/
def truthWord (b : Bool) : String := if b then "True" else "False"

/-- The plain line of an entry. -/
def Entry.line (e : Entry) : String :=
  s!"{e.index}\t{String.ofList e.fence.kind}\tcontains={truthWord e.contains}\n"

/-- The data of an entry. -/
def Entry.data (e : Entry) : Json :=
  .object
    [("index".toList, .count e.index), ("kind".toList, .text e.fence.kind),
      ("encoded".toList, .text e.fence.write), ("contains".toList, .truth e.contains)]

namespace CheckReport

/-- The first line of a plain report: the number of fences. -/
def heading (count : Nat) : String := s!"### 围栏数量：{count}\n"

/-- The last line of a plain report: the location and the verdict. -/
def closing (r : CheckReport) : String :=
  s!"point={String.ofList (writeLocation r.point)} inside={truthWord r.inside}\n"

/-- **The plain report.** -/
def text (r : CheckReport) : String :=
  heading r.entries.length ++ String.join (r.entries.map Entry.line) ++ "\n" ++ r.closing

/-- **The report as data.** -/
def data (r : CheckReport) : Json :=
  .object
    [("point".toList,
        .object [("lat".toList, .number r.point.lat), ("lng".toList, .number r.point.lng)]),
      ("inside".toList, .truth r.inside), ("geometries".toList, .list (r.entries.map Entry.data))]

end CheckReport

end Geofence
