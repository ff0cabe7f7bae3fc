/-
Files and folders.

A file tree holds files and folders under the names on the way to them from the root, and one of its
folders is the place where paths without a leading slash begin.  Every tree has a null device, which
is empty and takes whatever is written to it.  Names and paths have a greatest length.

Main definitions:

* `Geofence.FileTree` — files with their contents, folders, and the folder where paths begin;
* `Geofence.FileFault` — why a file cannot be used, with its wording;
* `Geofence.FileTree.find` — what a path leads to;
* `Geofence.FileTree.read`, `Geofence.FileTree.write`, `Geofence.FileTree.makeFolders` — reading
  a file, writing one, and making a folder with all folders above it;
* `Geofence.FileTree.changes` — the files that are new or changed.
-/

import Geofence.FileTree.Path
import Geofence.Text.Quoted

set_option relaxedAutoImplicit false
set_option autoImplicit false

namespace Geofence

open Text

/-- Files with their contents, folders, and the folder where paths without a leading slash begin.
Each is known by the names on the way to it from the root; the folders on the way to a file or
folder are there without being listed. -/
structure FileTree where
  files : List (List Text × ByteArray)
  folders : List (List Text)
  here : List Text

/-! ### Faults -/

/-- Why a path cannot be used. -/
inductive PathFault where
  | missing
  | present
  | notFolder
  | isFolder
  | tooLong
  deriving DecidableEq

namespace PathFault

/-- The number of a fault. -/
def code : PathFault → Nat
  | missing => 2
  | present => 17
  | notFolder => 20
  | isFolder => 21
  | tooLong => 36

/-- The wording of a fault. -/
def reason : PathFault → String
  | missing => "No such file or directory"
  | present => "File exists"
  | notFolder => "Not a directory"
  | isFolder => "Is a directory"
  | tooLong => "File name too long"

end PathFault

/-- Why a file or folder cannot be used. -/
inductive FileFault where
  /-- The path leads to something else than is needed. -/
  | path (fault : PathFault) (path : Path)
  /-- The path holds the character that ends a path. -/
  | nul
  deriving DecidableEq

/-- The wording of a fault. -/
def FileFault.message : FileFault → String
  | path fault p => s!"[Errno {fault.code}] {fault.reason}: {quoted p.toText}"
  | nul => "embedded null byte"

namespace FileTree

/-! ### Walking along a path -/

/-- What a path leads to. -/
inductive Place where
  | folder (names : List Text)
  | file (names : List Text) (content : ByteArray)
  /-- The null device. -/
  | device
  /-- Nothing, in a folder that is there. -/
  | vacant (names : List Text)

/-- The names on the way to the null device. -/
def nullDevice : List Text := [['d', 'e', 'v'], ['n', 'u', 'l', 'l']]

/-- Whether `names` is on the way to the longer `longer`. -/
def leadsTo (names longer : List Text) : Bool := names.isPrefixOf longer && names ≠ longer

/-- Whether a folder is there. -/
def hasFolder (tree : FileTree) (names : List Text) : Bool :=
  names.isPrefixOf tree.here || leadsTo names nullDevice ||
    tree.folders.any (names.isPrefixOf ·) || tree.files.any fun file => leadsTo names file.1

/-- The content of a file. -/
def content? (tree : FileTree) (names : List Text) : Option ByteArray := tree.files.lookup names

/-- The greatest length of a name, in bytes. -/
def nameLimit : Nat := 255

/-- The greatest length of a path, in bytes. -/
def pathLimit : Nat := 4095

/-- The length of a text in bytes. -/
def byteLength (t : Text) : Nat := (String.ofList t).utf8ByteSize

/-- What is under some names. -/
def look (tree : FileTree) (names : List Text) : Place :=
  if names = nullDevice then .device
  else
    match tree.content? names with
    | some content => .file names content
    | none => if tree.hasFolder names then .folder names else .vacant names

/-- The names after one step along a path; above the root there is the root. -/
def step (names : List Text) (name : Text) : List Text :=
  if name = Path.above then names.dropLast else names ++ [name]

/-- One step along a path from a place. -/
def enter (tree : FileTree) (name : Text) : Place → Except PathFault Place
  | .vacant _ => .error .missing
  | .file _ _ | .device => .error .notFolder
  | .folder names =>
    if name = Path.above then .ok (.folder (step names name))
    else if nameLimit < byteLength name then .error .tooLong
    else .ok (tree.look (step names name))

/-- The folder where a path begins. -/
def start (tree : FileTree) (p : Path) : List Text := if p.lead = [] then tree.here else []

/-- The names that a path passes by, from the folder where it begins. -/
def along (tree : FileTree) (p : Path) : List (List Text) :=
  (List.range (p.names.length + 1)).map fun count =>
    (p.names.take count).foldl step (tree.start p)

/-- What a path leads to. -/
def find (tree : FileTree) (p : Path) : Except PathFault Place :=
  if pathLimit < byteLength p.toText then .error .tooLong
  else p.names.foldlM (fun place name => tree.enter name place) (.folder (tree.start p))

/-! ### Files -/

/-- The content of the file at a path. -/
def read (tree : FileTree) (p : Path) : Except FileFault ByteArray :=
  if p.hasNul then .error .nul
  else
    match tree.find p with
    | .ok (.file _ content) => .ok content
    | .ok .device => .ok .empty
    | .ok (.vacant _) => .error (.path .missing p)
    | .ok _ => .error (.path .isFolder p)
    | .error fault => .error (.path fault p)

/-- The tree with a file of the given content. -/
def put (tree : FileTree) (names : List Text) (content : ByteArray) : FileTree :=
  { tree with files := (names, content) :: tree.files.filter (·.1 ≠ names) }

/-- The tree after a file is written. -/
def write (tree : FileTree) (p : Path) (content : ByteArray) : Except FileFault FileTree :=
  if p.hasNul then .error .nul
  else
    match tree.find p with
    | .ok (.file names _) => .ok (tree.put names content)
    | .ok (.vacant names) => .ok (tree.put names content)
    | .ok .device => .ok tree
    | .ok _ => .error (.path .isFolder p)
    | .error fault => .error (.path fault p)

/-! ### Folders -/

/-- Whether a path leads to something. -/
def contains (tree : FileTree) (p : Path) : Except FileFault Bool :=
  if p.hasNul then .ok false
  else
    match tree.find p with
    | .ok (.vacant _) => .ok false
    | .ok _ => .ok true
    | .error .tooLong => .error (.path .tooLong p)
    | .error _ => .ok false

/-- The tree after a folder is made. -/
def makeFolder (tree : FileTree) (p : Path) : Except PathFault FileTree :=
  match tree.find p with
  | .ok (.vacant names) =>
    .ok { tree with folders := names :: tree.folders.filter fun folder => !folder.isPrefixOf names }
  | .ok _ => .error .present
  | .error fault => .error fault

/-- Whether a path leads to a folder. -/
def isFolder (tree : FileTree) (p : Path) : Bool :=
  match tree.find p with
  | .ok (.folder _) => true
  | _ => false

/-- The tree after a folder is made where there may be one already. -/
def ensureFolder (tree : FileTree) (p : Path) : Except PathFault FileTree :=
  match tree.makeFolder p with
  | .ok tree => .ok tree
  | .error .missing => .error .missing
  | .error fault => if tree.isFolder p then .ok tree else .error fault

/-- The tree after a folder is made, and first all folders above it that are missing. -/
def ensureFolders (tree : FileTree) (p : Path) : Except FileFault FileTree :=
  match tree.ensureFolder p with
  | .ok tree => .ok tree
  | .error .missing =>
    if _h : p.names = [] then .error (.path .missing p)
    else do
      let tree ← tree.ensureFolders p.parent
      (tree.ensureFolder p).mapError (.path · p)
  | .error fault => .error (.path fault p)
termination_by p.names.length
decreasing_by exact Path.length_parent_lt _h

/-- The tree after a folder is made, with all folders above it. -/
def makeFolders (tree : FileTree) (p : Path) : Except FileFault FileTree :=
  if p.hasNul then .error .nul else tree.ensureFolders p

/-! ### Changes -/

/-- The names from the folder where paths begin to what stands in it. -/
def fromHere? (tree : FileTree) (names : List Text) : Option (List Text) :=
  if tree.here.isPrefixOf names then some (names.drop tree.here.length) else none

/-- The files of `tree` that are not in `before` with the same content. -/
def changes (before tree : FileTree) : List (List Text × ByteArray) :=
  tree.files.filter fun file => before.content? file.1 != some file.2

end FileTree

end Geofence
