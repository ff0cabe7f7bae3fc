/-
Files that are written.

A path is walked along from folder to folder, and what a step leads to depends only on what is under
the names that it passes.  A file that is put into a folder changes this for its own names and for no
others, and the folders stay the same, since those on the way to the file were folders before.  So a
path that led to the file, or to the place for it, leads to the new content, and every other path
leads to what it led to before, or still to nothing.

Main definitions:

* `Geofence.FileTree.walk` — going on along some names from a place;
* `Geofence.FileTree.Reaches` — a path leads to a file or to the place for one;
* `Geofence.FileTree.Rewritten` — a file is written, and nothing else is changed;
* `Geofence.FileTree.Stored` — the same, or nothing at the null device.

Main results:

* `Geofence.FileTree.hasFolder_put` — no folder comes or goes with a file;
* `Geofence.FileTree.agree_find_put` — where any path leads before and after a file is put;
* `Geofence.FileTree.stored_of_write` — what writing to a path does.
-/

import Geofence.FileTree.Basic
import Geofence.Proofs.Success

set_option relaxedAutoImplicit false
set_option autoImplicit false

namespace Geofence.FileTree

variable {tree : FileTree} {names other : List Text} {content : ByteArray}

/-! ### Folders -/

theorem hasFolder_iff :
    tree.hasFolder names = true ↔
      names <+: tree.here ∨ (names <+: nullDevice ∧ names ≠ nullDevice) ∨
        (∃ folder ∈ tree.folders, names <+: folder) ∨
          ∃ file ∈ tree.files, names <+: file.1 ∧ names ≠ file.1 := by
  simp only [hasFolder, leadsTo, Bool.or_eq_true, Bool.and_eq_true, decide_eq_true_eq,
    List.any_eq_true, List.isPrefixOf_iff_prefix, or_assoc]

/-- What is on the way to something else is not all of it. -/
theorem ne_of_prefix_of_ne {shorter longer file : List Text} (h : shorter <+: longer)
    (hfile : longer <+: file) (hne : longer ≠ file) : shorter ≠ file := by
  rintro rfl
  exact hne (hfile.eq_of_length_le h.length_le)

/-- The names on the way to a folder are those of folders. -/
theorem hasFolder_of_prefix (h : other <+: names) (hnames : tree.hasFolder names = true) :
    tree.hasFolder other = true := by
  rw [hasFolder_iff] at hnames ⊢
  obtain hhere | ⟨hdevice, hne⟩ | ⟨folder, hfolder, hle⟩ | ⟨file, hfile, hle, hne⟩ := hnames
  · exact .inl (h.trans hhere)
  · exact .inr (.inl ⟨h.trans hdevice, ne_of_prefix_of_ne h hdevice hne⟩)
  · exact .inr (.inr (.inl ⟨folder, hfolder, h.trans hle⟩))
  · exact .inr (.inr (.inr ⟨file, hfile, h.trans hle, ne_of_prefix_of_ne h hle hne⟩))

theorem prefix_dropLast_of_ne (h : other <+: names) (hne : other ≠ names) :
    other <+: names.dropLast := by
  obtain ⟨rest, rfl⟩ := h
  have hrest : rest ≠ [] := by
    rintro rfl
    exact hne (List.append_nil other).symm
  rw [List.dropLast_append_of_ne_nil hrest]
  exact List.prefix_append other _

/-- **No folder comes or goes** with a file that is put into one. -/
theorem hasFolder_put (hparent : tree.hasFolder names.dropLast = true) (content : ByteArray)
    (other : List Text) : (tree.put names content).hasFolder other = tree.hasFolder other := by
  rw [Bool.eq_iff_iff]
  constructor
  · intro h
    rw [hasFolder_iff] at h
    obtain hhere | hdevice | hfolder | ⟨file, hfile, hle, hne⟩ := h
    · exact hasFolder_iff.mpr (.inl hhere)
    · exact hasFolder_iff.mpr (.inr (.inl hdevice))
    · exact hasFolder_iff.mpr (.inr (.inr (.inl hfolder)))
    · obtain rfl | hfile := List.mem_cons.mp hfile
      · exact hasFolder_of_prefix (prefix_dropLast_of_ne hle hne) hparent
      · exact hasFolder_iff.mpr (.inr (.inr (.inr ⟨file, List.mem_of_mem_filter hfile, hle, hne⟩)))
  · intro h
    rw [hasFolder_iff] at h ⊢
    obtain hhere | hdevice | hfolder | ⟨file, hfile, hle, hne⟩ := h
    · exact .inl hhere
    · exact .inr (.inl hdevice)
    · exact .inr (.inr (.inl hfolder))
    · -- the file that is replaced is still there under its names
      right; right; right
      by_cases hnames : file.1 = names
      · exact ⟨(names, content), List.mem_cons_self, hnames ▸ hle, hnames ▸ hne⟩
      · refine ⟨file, List.mem_cons_of_mem _ (List.mem_filter.mpr ⟨hfile, ?_⟩), hle, hne⟩
        exact decide_eq_true hnames

/-! ### What is under some names -/

@[simp] theorem content?_put_self : (tree.put names content).content? names = some content := by
  simp [content?, put]

theorem lookup_filter_ne {files : List (List Text × ByteArray)} (h : other ≠ names) :
    (files.filter (·.1 ≠ names)).lookup other = files.lookup other := by
  induction files with
  | nil => rfl
  | cons file files ih =>
    by_cases hfile : file.1 = names
    · rw [List.filter_cons_of_neg (by simpa using hfile), ih, List.lookup_cons, hfile,
        beq_false_of_ne h]
    · rw [List.filter_cons_of_pos (by simpa using hfile), List.lookup_cons, List.lookup_cons, ih]

theorem content?_put_of_ne (h : other ≠ names) :
    (tree.put names content).content? other = tree.content? other := by
  simp only [content?, put, List.lookup_cons, beq_false_of_ne h]
  exact lookup_filter_ne h

theorem look_put_self (h : names ≠ nullDevice) :
    (tree.put names content).look names = .file names content := by
  simp only [look, if_neg h, content?_put_self]

theorem look_put_of_ne (hparent : tree.hasFolder names.dropLast = true) (h : other ≠ names) :
    (tree.put names content).look other = tree.look other := by
  simp only [look, content?_put_of_ne h, hasFolder_put hparent]

/-! ### Walking along a path -/

/-- Going on along some names from a place. -/
def walk (tree : FileTree) (place : Place) (rest : List Text) : Except PathFault Place :=
  rest.foldlM (fun place name => tree.enter name place) place

theorem walk_cons (tree : FileTree) (place : Place) (name : Text) (rest : List Text) :
    tree.walk place (name :: rest) = tree.enter name place >>= (tree.walk · rest) := rfl

theorem find_eq (tree : FileTree) (p : Path) :
    tree.find p =
      if pathLimit < byteLength p.toText then .error .tooLong
      else tree.walk (.folder (tree.start p)) p.names := rfl

/-- What a walk may lead to: a folder that is there, or what is under some names in one. -/
def Found (tree : FileTree) : Place → Prop
  | .folder names => tree.hasFolder names = true
  | .file names content =>
    tree.hasFolder names.dropLast = true ∧ tree.look names = .file names content
  | .vacant names => tree.hasFolder names.dropLast = true ∧ tree.look names = .vacant names
  | .device => True

theorem found_look (h : tree.hasFolder names = true) (name : Text) :
    tree.Found (tree.look (names ++ [name])) := by
  have hparent : tree.hasFolder (names ++ [name]).dropLast = true := by
    rwa [List.dropLast_concat]
  by_cases hdevice : names ++ [name] = nullDevice
  · rw [look, if_pos hdevice]
    trivial
  · rw [look, if_neg hdevice]
    split
    next content hcontent =>
      exact ⟨hparent, by rw [look, if_neg hdevice, hcontent]⟩
    next hcontent =>
      split
      next hfolder => exact hfolder
      next hfolder =>
        exact ⟨hparent, by rw [look, if_neg hdevice, hcontent]; exact if_neg hfolder⟩

/-- One step leads from a place that may be reached to another. -/
theorem found_enter {place place' : Place} {name : Text} (h : tree.Found place)
    (hstep : tree.enter name place = .ok place') : tree.Found place' := by
  cases place with
  | vacant names => cases hstep
  | file names content => cases hstep
  | device => cases hstep
  | folder names =>
    simp only [enter] at hstep
    split_ifs at hstep with habove hlong
    · cases hstep
      rw [step, if_pos habove]
      exact hasFolder_of_prefix (List.dropLast_prefix names) h
    · cases hstep
      rw [step, if_neg habove]
      exact found_look h name

theorem found_walk {place place' : Place} {rest : List Text} (h : tree.Found place)
    (hwalk : tree.walk place rest = .ok place') : tree.Found place' := by
  induction rest generalizing place with
  | nil =>
    cases hwalk
    exact h
  | cons name rest ih =>
    rw [walk_cons] at hwalk
    obtain ⟨next, hstep, hwalk⟩ := bind_eq_ok_iff.mp hwalk
    exact ih (found_enter h hstep) hwalk

/-- Every path begins in a folder. -/
theorem hasFolder_start (tree : FileTree) (p : Path) : tree.hasFolder (tree.start p) = true := by
  rw [hasFolder_iff, start]
  left
  split
  · exact List.prefix_rfl
  · exact List.nil_prefix

/-- What a path leads to can be reached. -/
theorem found_find {p : Path} {place : Place} (h : tree.find p = .ok place) :
    tree.Found place := by
  rw [find_eq] at h
  split_ifs at h
  have hstart : tree.Found (.folder (tree.start p)) := hasFolder_start tree p
  exact found_walk hstart h

/-! ### Walking after a file is put -/

/-- The place is a file with these names, or the place for one. -/
def Place.IsAt (names : List Text) : Place → Prop
  | .file names' _ => names' = names
  | .vacant names' => names' = names
  | _ => False

/-- Looking under some names finds nothing under others. -/
theorem eq_of_isAt_look (h : (tree.look other).IsAt names) : other = names := by
  by_cases hdevice : other = nullDevice
  · rw [look, if_pos hdevice] at h
    exact h.elim
  · rw [look, if_neg hdevice] at h
    split at h
    · exact h
    · split at h
      · exact h.elim
      · exact h

/-- What a walk leads to before and after a file is put under some names: the file with its content
if it led there, the same if it led elsewhere, and nothing both times otherwise. -/
def Agree (names : List Text) (content : ByteArray) :
    Except PathFault Place → Except PathFault Place → Prop
  | .ok before, .ok after =>
    before.IsAt names ∧ after = .file names content ∨ ¬before.IsAt names ∧ after = before
  | .error _, .error _ => True
  | _, _ => False

/-- A walk does not go on from a file. -/
theorem agree_walk_of_isAt {before : Place} (h : before.IsAt names) (rest : List Text) :
    Agree names content (tree.walk before rest)
      ((tree.put names content).walk (.file names content) rest) := by
  cases rest with
  | nil => exact .inl ⟨h, rfl⟩
  | cons name rest =>
    cases before with
    | folder _ => exact h.elim
    | device => exact h.elim
    | file _ _ => trivial
    | vacant _ => trivial

/-- **Walking on from one place** before and after a file is put. -/
theorem agree_walk_put (hparent : tree.hasFolder names.dropLast = true)
    (hat : (tree.look names).IsAt names) (hdevice : names ≠ nullDevice) {place : Place}
    (hplace : ¬place.IsAt names) (rest : List Text) :
    Agree names content (tree.walk place rest) ((tree.put names content).walk place rest) := by
  induction rest generalizing place with
  | nil => exact .inr ⟨hplace, rfl⟩
  | cons name rest ih =>
    rw [walk_cons, walk_cons]
    cases place with
    | vacant _ => trivial
    | file _ _ => trivial
    | device => trivial
    | folder here =>
      simp only [enter]
      split_ifs with habove hlong
      · have hfolder : ¬(Place.folder (step here name)).IsAt names := not_false
        exact ih hfolder
      · trivial
      · -- only a step to the names of the file is another one than before
        by_cases hstep : step here name = names
        · rw [hstep, look_put_self hdevice]
          exact agree_walk_of_isAt hat rest
        · rw [look_put_of_ne hparent hstep]
          exact ih fun h => hstep (eq_of_isAt_look h)

/-- **Where a path leads** before and after a file is put. -/
theorem agree_find_put (hparent : tree.hasFolder names.dropLast = true)
    (hat : (tree.look names).IsAt names) (hdevice : names ≠ nullDevice) (p : Path) :
    Agree names content (tree.find p) ((tree.put names content).find p) := by
  rw [find_eq, find_eq]
  split
  next => trivial
  next =>
    have hstart : ¬(Place.folder (tree.start p)).IsAt names := not_false
    exact agree_walk_put hparent hat hdevice hstart p.names

/-! ### Writing to a path -/

/-- The path leads to the file with these names, or to the place for it. -/
def Reaches (tree : FileTree) (p : Path) (names : List Text) : Prop :=
  ∃ place, tree.find p = .ok place ∧ place.IsAt names

/-- The file at the path has the content, no other file has changed, and neither has any folder. -/
structure Rewritten (before after : FileTree) (p : Path) (content : ByteArray) : Prop where
  /-- The content is read at the path. -/
  written : after.read p = .ok content
  /-- A path to something else gives what it gave before. -/
  kept : ∀ q, (∀ names, before.Reaches p names → ¬before.Reaches q names) → ∀ bytes,
    after.read q = .ok bytes ↔ before.read q = .ok bytes
  /-- The files under all other names have the content that they had. -/
  files : ∀ names, ¬before.Reaches p names → after.content? names = before.content? names
  /-- Folders are where they were. -/
  folders : ∀ names, after.hasFolder names = before.hasFolder names

/-- The content is stored at the path: the file there is rewritten, unless the path leads to the null
device, where nothing changes. -/
def Stored (before after : FileTree) (p : Path) (content : ByteArray) : Prop :=
  before.Rewritten after p content ∨ before.find p = .ok .device ∧ after = before

/-- What is found at some names is a file that may be put there again. -/
theorem Found.look_isAt {place : Place} (h : tree.Found place) (hat : place.IsAt names) :
    tree.hasFolder names.dropLast = true ∧ (tree.look names).IsAt names ∧ names ≠ nullDevice := by
  have hlook : tree.hasFolder names.dropLast = true ∧ tree.look names = place := by
    cases place with
    | folder _ => exact hat.elim
    | device => exact hat.elim
    | file names' _ =>
      cases hat
      exact h
    | vacant names' =>
      cases hat
      exact h
  refine ⟨hlook.1, hlook.2 ▸ hat, ?_⟩
  rintro rfl
  rw [look, if_pos rfl] at hlook
  rw [← hlook.2] at hat
  exact hat

/-- What can be read is the content of a file; the null device is empty. -/
theorem read_eq_ok_iff {p : Path} {bytes : ByteArray} :
    tree.read p = .ok bytes ↔
      p.hasNul = false ∧
        ((∃ names, tree.find p = .ok (.file names bytes)) ∨
          tree.find p = .ok .device ∧ bytes = .empty) := by
  rw [read]
  by_cases hnul : p.hasNul = true
  · simp [hnul]
  · simp only [hnul, if_false, Bool.false_eq_true, true_and]
    cases tree.find p with
    | error fault => simp
    | ok place =>
      cases place with
      | folder names => simp
      | vacant names => simp
      | device => simp [eq_comm]
      | file names content => simp

/-- What can be read at a path that does not lead to the file is the same before and after. -/
theorem read_put_of_not_reaches {p : Path} (hagree : Agree names content (tree.find p)
    ((tree.put names content).find p)) (h : ¬tree.Reaches p names) (bytes : ByteArray) :
    (tree.put names content).read p = .ok bytes ↔ tree.read p = .ok bytes := by
  rw [read_eq_ok_iff, read_eq_ok_iff]
  cases hbefore : tree.find p with
  | error fault =>
    cases hafter : (tree.put names content).find p with
    | error fault' => simp
    | ok place => rw [hbefore, hafter] at hagree; exact hagree.elim
  | ok before =>
    cases hafter : (tree.put names content).find p with
    | error fault' => rw [hbefore, hafter] at hagree; exact hagree.elim
    | ok after =>
      rw [hbefore, hafter] at hagree
      obtain ⟨hat, -⟩ | ⟨-, rfl⟩ := hagree
      · exact absurd ⟨before, hbefore, hat⟩ h
      · rfl

/-- A file that is put where a path leads to is what is changed. -/
theorem rewritten_put {p : Path} {place : Place} (hnul : p.hasNul = false)
    (hfind : tree.find p = .ok place) (hat : place.IsAt names) (content : ByteArray) :
    Rewritten tree (tree.put names content) p content := by
  obtain ⟨hparent, hlook, hdevice⟩ := (found_find hfind).look_isAt hat
  have hreach : tree.Reaches p names := ⟨place, hfind, hat⟩
  refine ⟨?_, fun q hq bytes => ?_, fun other hother => ?_, ?_⟩
  · have hagree : Agree names content _ _ := agree_find_put hparent hlook hdevice p
    rw [hfind] at hagree
    cases hafter : (tree.put names content).find p with
    | error fault => rw [hafter] at hagree; exact hagree.elim
    | ok after =>
      rw [hafter] at hagree
      obtain ⟨-, rfl⟩ | ⟨hnot, -⟩ := hagree
      · exact read_eq_ok_iff.mpr ⟨hnul, .inl ⟨names, hafter⟩⟩
      · exact absurd hat hnot
  · exact read_put_of_not_reaches (agree_find_put hparent hlook hdevice q) (hq names hreach) bytes
  · apply content?_put_of_ne
    rintro rfl
    exact hother hreach
  · exact hasFolder_put hparent content

/-- What is stored at a path is read there, unless the path leads to the null device. -/
theorem Stored.read {after : FileTree} {p : Path} (h : Stored tree after p content)
    (hdevice : tree.find p ≠ .ok .device) : after.read p = .ok content := by
  obtain hrewritten | ⟨hfind, -⟩ := h
  · exact hrewritten.written
  · exact absurd hfind hdevice

/-- **What is written to a path** is stored there. -/
theorem stored_of_write {after : FileTree} {p : Path} (h : tree.write p content = .ok after) :
    Stored tree after p content := by
  rw [write] at h
  split_ifs at h with hnul
  have hnul : p.hasNul = false := Bool.eq_false_iff.mpr hnul
  split at h
  next names _ hfind =>
    cases h
    exact .inl (rewritten_put hnul hfind rfl content)
  next names hfind =>
    cases h
    exact .inl (rewritten_put hnul hfind rfl content)
  next hfind =>
    cases h
    exact .inr ⟨hfind, rfl⟩
  next => cases h
  next => cases h

/-- Whether a path can be written to does not depend on what is written. -/
theorem exists_write_iff {p : Path} {content' : ByteArray} :
    (∃ after, tree.write p content = .ok after) ↔ ∃ after, tree.write p content' = .ok after := by
  simp only [write]
  split
  · simp
  · split <;> simp

end Geofence.FileTree
