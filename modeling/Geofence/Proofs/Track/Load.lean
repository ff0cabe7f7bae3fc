/-
The fixes of a table in the dialect.

What the fixes of a table are is said here of its rows alone.  The cell of a name is the one under
the last column with that name, if the row reaches so far; a row is located when the cells of both
coordinates are there and are numerals; its fix has these numbers, and the identifier that stands in
its cell or, when that is missing or blank, the number of the row among the rows with a cell.
Loading any text of the table in the dialect gives the fixes of the located rows and counts the
others.

Main definitions:

* `Geofence.IsCellOf` — the cell of a row under a name;
* `Geofence.IsFix`, `Geofence.Located` — the fix of a row, and having one;
* `Geofence.numbered` — the rows with a cell, with their numbers.

Main results:

* `Geofence.cellOf?_eq_some_iff`, `Geofence.fixOfRow?_eq_some_iff` — cells and fixes of a row;
* `Geofence.loadBytes_written` — the fixes of a table.
-/

import Geofence.Proofs.Csv.Dialect
import Geofence.Proofs.Text.Decoder
import Geofence.Track.Load

set_option relaxedAutoImplicit false
set_option autoImplicit false

namespace Geofence

open Text

/-! ### Cells under names -/

/-- The column `i` is the last one with the name. -/
def IsLastColumn (header : List Text) (name : Text) (i : ℕ) : Prop :=
  header[i]? = some name ∧ ∀ j, i < j → header[j]? ≠ some name

/-- The cell stands in the row under the last column with the name. -/
def IsCellOf (header : List Text) (row : Csv.Row) (name cell : Text) : Prop :=
  ∃ i, IsLastColumn header name i ∧ row[i]? = some cell

theorem columnOf?_append_singleton (header : List Text) (title name : Text) :
    columnOf? (header ++ [title]) name =
      if title = name then some header.length else columnOf? header name := by
  rw [columnOf?, columnOf?, List.zipIdx_append, List.filter_append, List.getLast?_append]
  by_cases h : title = name <;> simp [h]

theorem columnOf?_eq_some_iff {header : List Text} {name : Text} {i : ℕ} :
    columnOf? header name = some i ↔ IsLastColumn header name i := by
  -- the last column comes first when the header is taken apart from its end
  induction header using List.reverseRecOn with
  | nil => simp [columnOf?, IsLastColumn]
  | append_singleton header title ih =>
    rw [columnOf?_append_singleton]
    by_cases h : title = name
    · rw [if_pos h, Option.some.injEq]
      subst h
      constructor
      · rintro rfl
        refine ⟨List.getElem?_concat_length, fun j hj => ?_⟩
        rw [List.getElem?_eq_none (by simpa using hj)]
        exact Option.some_ne_none title ∘ Eq.symm
      · rintro ⟨hi, hlast⟩
        have hlt : i < header.length + 1 := by
          simpa using (List.getElem?_eq_some_iff.mp hi).1
        by_contra hne
        exact hlast header.length (by omega) List.getElem?_concat_length
    · rw [if_neg h, ih]
      have hget : ∀ j : ℕ, (header ++ [title])[j]? = some name ↔ header[j]? = some name := by
        intro j
        rw [List.getElem?_append]
        split
        next => rfl
        next hj =>
          rw [List.getElem?_eq_none (Nat.not_lt.mp hj), List.getElem?_singleton]
          split <;> simp [h]
      simp only [IsLastColumn, ne_eq, hget]

theorem cellOf?_eq_some_iff {header : List Text} {row : Csv.Row} {name cell : Text} :
    cellOf? header row name = some cell ↔ IsCellOf header row name cell := by
  simp only [cellOf?, IsCellOf, Option.bind_eq_some_iff, columnOf?_eq_some_iff]

/-! ### Fixes of rows -/

/-- The identifier of the row with a number: what stands in its cell, without white space at its
ends, or the number when there is no cell or nothing in it. -/
def IsId (header : List Text) (number : ℕ) (row : Csv.Row) (id : Text) : Prop :=
  (∃ cell, IsCellOf header row idColumn cell ∧ trim cell ≠ [] ∧ id = trim cell) ∨
    (∀ cell, IsCellOf header row idColumn cell → trim cell = []) ∧ id = Nat.toDigits 10 number

/-- The cell of the row under the name is there and stands for the number. -/
def IsCoordinate (header : List Text) (row : Csv.Row) (name : Text) (x : Float) : Prop :=
  ∃ cell, IsCellOf header row name cell ∧ readNumber? cell = some x

/-- The fix belongs to a row with its number. -/
structure IsFix (header : List Text) (row : Csv.Row × ℕ) (f : Fix) : Prop where
  latitude : IsCoordinate header row.1 latitudeColumn f.latitude
  longitude : IsCoordinate header row.1 longitudeColumn f.longitude
  id : IsId header row.2 row.1 f.id

/-- Both coordinates of the row are there. -/
def Located (header : List Text) (row : Csv.Row) : Prop :=
  (∃ x, IsCoordinate header row latitudeColumn x) ∧
    ∃ x, IsCoordinate header row longitudeColumn x

theorem coordinate_eq_some_iff {header : List Text} {row : Csv.Row} {name : Text} {x : Float} :
    (cellOf? header row name).bind readNumber? = some x ↔ IsCoordinate header row name x := by
  simp only [IsCoordinate, Option.bind_eq_some_iff, cellOf?_eq_some_iff]

theorem isId_fixId (header : List Text) (number : ℕ) (row : Csv.Row) :
    IsId header number row (fixId header number row) := by
  simp only [IsId, ← cellOf?_eq_some_iff, fixId]
  cases hcell : cellOf? header row idColumn with
  | none => exact .inr ⟨by simp, rfl⟩
  | some cell =>
    rw [Option.getD_some]
    by_cases hblank : trim cell = []
    · right
      simp [hblank]
    · left
      exact ⟨cell, rfl, hblank, if_neg (by simpa using hblank)⟩

/-- A row has one identifier only. -/
theorem IsId.eq_fixId {header : List Text} {number : ℕ} {row : Csv.Row} {id : Text}
    (h : IsId header number row id) : id = fixId header number row := by
  simp only [IsId, ← cellOf?_eq_some_iff] at h
  obtain ⟨cell, hcell, hne, rfl⟩ | ⟨hblank, rfl⟩ := h
  · rw [fixId, hcell, Option.getD_some, if_neg (by simpa using hne)]
  · have hid : trim ((cellOf? header row idColumn).getD []) = [] := by
      cases hcell : cellOf? header row idColumn with
      | none => rfl
      | some cell => exact hblank cell hcell
    simp only [fixId, hid, List.isEmpty_nil, if_true]

/-- **The fix of a row** is the one that belongs to it. -/
theorem fixOfRow?_eq_some_iff {header : List Text} {row : Csv.Row × ℕ} {f : Fix} :
    fixOfRow? header row.2 row.1 = some f ↔ IsFix header row f := by
  constructor
  · intro h
    obtain ⟨lat, hlat, h⟩ := Option.bind_eq_some_iff.mp h
    obtain ⟨lng, hlng, h⟩ := Option.bind_eq_some_iff.mp h
    cases h
    exact ⟨coordinate_eq_some_iff.mp hlat, coordinate_eq_some_iff.mp hlng, isId_fixId _ _ _⟩
  · intro h
    rw [fixOfRow?, coordinate_eq_some_iff.mpr h.latitude, coordinate_eq_some_iff.mpr h.longitude,
      ← h.id.eq_fixId]
    rfl

theorem located_iff {header : List Text} {row : Csv.Row × ℕ} :
    Located header row.1 ↔ (fixOfRow? header row.2 row.1).isSome = true := by
  rw [Option.isSome_iff_exists]
  simp only [fixOfRow?_eq_some_iff]
  constructor
  · rintro ⟨⟨lat, hlat⟩, lng, hlng⟩
    exact ⟨⟨fixId header row.2 row.1, lat, lng⟩, hlat, hlng, isId_fixId _ _ _⟩
  · rintro ⟨f, hf⟩
    exact ⟨⟨f.latitude, hf.latitude⟩, f.longitude, hf.longitude⟩

instance (header : List Text) : DecidablePred (Located header) := fun row =>
  decidable_of_iff _ (@located_iff header (row, 0)).symm

/-! ### Tables -/

/-- The rows with a cell, with their numbers from one on. -/
def numbered (rows : List Csv.Row) : List (Csv.Row × ℕ) := (rows.filter (· ≠ [])).zipIdx 1

/-- The fixes that are taken from numbered rows are those of the located ones. -/
theorem forall₂_filterMap_fixOfRow? (header : List Text) (rows : List (Csv.Row × ℕ)) :
    List.Forall₂ (IsFix header) (rows.filter (Located header ·.1))
      (rows.filterMap fun r => fixOfRow? header r.2 r.1) := by
  induction rows with
  | nil => exact .nil
  | cons row rows ih =>
    cases h : fixOfRow? header row.2 row.1 with
    | none =>
      have hnot : ¬Located header row.1 := by
        rw [located_iff, h]
        exact Bool.false_ne_true
      rw [List.filter_cons_of_neg (by simpa using hnot),
        List.filterMap_cons_none (f := fun r : Csv.Row × ℕ => fixOfRow? header r.2 r.1) h]
      exact ih
    | some f =>
      have hrow : Located header row.1 := by
        rw [located_iff, h]
        rfl
      rw [List.filter_cons_of_pos (by simpa using hrow),
        List.filterMap_cons_some (f := fun r : Csv.Row × ℕ => fixOfRow? header r.2 r.1) h]
      exact .cons (fixOfRow?_eq_some_iff.mp h) ih

theorem fixOfRow?_nil (header : List Text) (number : ℕ) : fixOfRow? header number [] = none := by
  have hcell : ∀ name, cellOf? header [] name = none := by
    intro name
    rw [cellOf?]
    cases columnOf? header name <;> rfl
  rw [fixOfRow?, hcell]
  rfl

section Rows

variable {α : Type} {header : List Text} {row : α → Csv.Row} {fix : α → Fix} {xs : List α}

/-- Rows that give a fix under any number give all their fixes. -/
theorem filterMap_zipIdx_map
    (h : ∀ x ∈ xs, ∀ number, fixOfRow? header number (row x) = some (fix x)) (first : ℕ) :
    (((xs.map row).zipIdx first).filterMap fun r => fixOfRow? header r.2 r.1) = xs.map fix := by
  induction xs generalizing first with
  | nil => rfl
  | cons x xs ih =>
    obtain ⟨hx, hrest⟩ := List.forall_mem_cons.mp h
    rw [List.map_cons, List.zipIdx_cons, List.filterMap_cons, hx, ih hrest, List.map_cons]

/-- **A table of which every row gives a fix** gives the fixes, and no row is skipped. -/
theorem intakeOf_map (h : ∀ x ∈ xs, ∀ number, fixOfRow? header number (row x) = some (fix x)) :
    intakeOf header (xs.map row) = ⟨xs.map fix, xs.length, header⟩ := by
  have hfilled : (xs.map row).filter (· ≠ []) = xs.map row := by
    rw [List.filter_eq_self]
    intro r hr
    obtain ⟨x, hx, rfl⟩ := List.mem_map.mp hr
    refine decide_eq_true fun hnil => ?_
    have hfix := h x hx 0
    rw [hnil, fixOfRow?_nil] at hfix
    cases hfix
  simp only [intakeOf, hfilled, filterMap_zipIdx_map h 1, List.length_map]

end Rows

theorem missingColumns_eq_nil {header : List Text} (hlat : latitudeColumn ∈ header)
    (hlng : longitudeColumn ∈ header) : missingColumns header = [] := by
  simp [missingColumns, hlat, hlng]

/-- A table with both columns is loaded. -/
theorem loadSheet_eq_ok {header : List Text} {rows : List Csv.Row}
    (hlat : latitudeColumn ∈ header) (hlng : longitudeColumn ∈ header) :
    loadSheet ⟨header :: rows, false⟩ = .ok (intakeOf header rows) := by
  have hne : header ≠ [] := List.ne_nil_of_mem hlat
  simp [loadSheet, missingColumns_eq_nil hlat hlng, hne]

/-- A file that is read as a whole is loaded as its text. -/
theorem loadExtract_whole (t : Text) : loadExtract ⟨t, true⟩ = loadText t := by
  have hsheet : Csv.Sheet.ofExtract ⟨t, true⟩ = .ofText t := rfl
  rw [loadExtract, hsheet, loadText]
  cases loadSheet (.ofText t) with
  | error fault => rfl
  | ok intake => rfl

/-- The bytes of a text are loaded as the text. -/
theorem loadBytes_toUTF8 (t : Text) : loadBytes (String.ofList t).toUTF8 = loadText t := by
  rw [loadBytes, Extract.ofBytes_eq_iff.mpr rfl, loadExtract_whole]

/-- Only files that are read as a whole are loaded. -/
theorem exists_text_of_loadBytes {bytes : ByteArray} {intake : Intake}
    (h : loadBytes bytes = .ok intake) :
    ∃ t, bytes = (String.ofList t).toUTF8 ∧ loadText t = .ok intake := by
  cases hextract : Extract.ofBytes bytes with
  | mk t whole =>
    cases whole with
    | true =>
      have hbytes := Extract.ofBytes_eq_iff.mp hextract
      exact ⟨t, hbytes, by rw [← loadBytes_toUTF8, ← hbytes, h]⟩
    | false =>
      rw [loadBytes, hextract, loadExtract] at h
      cases hsheet : loadSheet (.ofExtract ⟨t, false⟩) with
      | error fault =>
        rw [hsheet] at h
        cases h
      | ok intake =>
        rw [hsheet] at h
        cases h

theorem parsed_intakeOf_le (header : List Text) (rows : List Csv.Row) :
    (intakeOf header rows).parsed ≤ (intakeOf header rows).total :=
  (List.length_filterMap_le _ _).trans_eq List.length_zipIdx

/-- The rows without a fix are those that are not located. -/
theorem skipped_intakeOf (header : List Text) (rows : List Csv.Row) :
    (intakeOf header rows).skipped = (numbered rows).countP (¬Located header ·.1) := by
  have hparsed : (intakeOf header rows).parsed = (numbered rows).countP (Located header ·.1) := by
    rw [List.countP_eq_length_filter]
    exact (forall₂_filterMap_fixOfRow? header (numbered rows)).length_eq.symm
  have htotal : (intakeOf header rows).total = (numbered rows).length :=
    (List.length_zipIdx ..).symm
  have hsum := List.length_eq_countP_add_countP (Located header ·.1) (l := numbered rows)
  rw [Intake.skipped, hparsed, htotal, hsum]
  simp

/-- **The fixes of a table.**  Whichever text of the dialect a table with both columns is given by,
loading its bytes succeeds: there is a fix for every located row, in order, and the other rows with
a cell are counted, with one warning if there are any. -/
theorem loadBytes_written {e : Csv.LineEnd} {header : List Text} {rows : List Csv.Row} {t : Text}
    (hlat : latitudeColumn ∈ header) (hlng : longitudeColumn ∈ header)
    (hfit : ∀ row ∈ header :: rows, ∀ cell ∈ row, cell.length ≤ Csv.cellLimit)
    (hw : Csv.Written e (header :: rows) t) :
    ∃ intake, loadBytes (String.ofList t).toUTF8 = .ok intake ∧ intake.header = header ∧
      intake.total = rows.countP (· ≠ []) ∧
      List.Forall₂ (IsFix header) ((numbered rows).filter (Located header ·.1)) intake.fixes ∧
      intake.skipped = (numbered rows).countP (¬Located header ·.1) ∧
      (intake.skipped = 0 → intake.notices = []) ∧
      (intake.skipped ≠ 0 → ∃ n, intake.notices = [n] ∧ n.level = "WARNING") := by
  refine ⟨intakeOf header rows, ?_, rfl, ?_, ?_, ?_, ?_, ?_⟩
  · rw [loadBytes_toUTF8, loadText, Csv.sheet_of_written hw hfit]
    exact loadSheet_eq_ok hlat hlng
  · exact (List.countP_eq_length_filter ..).symm
  · exact forall₂_filterMap_fixOfRow? header (numbered rows)
  · exact skipped_intakeOf header rows
  · intro h
    exact if_pos h
  · intro h
    exact ⟨.rowsSkipped (intakeOf header rows).skipped, if_neg h, rfl⟩

/-- A header with two columns of latitudes. -/
def driftHeader : Csv.Row := [longitudeColumn, idColumn, latitudeColumn, latitudeColumn]

/-- An identifier with quotes, a comma and a line end. -/
def driftId : Text := "buoy \"7\",\r\nadrift ".toList

/-- A row with that identifier, an empty row, one that is too short, and one without an
identifier. -/
def driftRows : List Csv.Row :=
  [["7.5".toList, driftId, ['?'], " 1_0.5".toList], [], [['1']], [['0'], [], [], "-inf".toList]]

/-- A text of the table, with rows that end in a carriage return. -/
def driftText : Text :=
  join ',' driftHeader ++ ['\r'] ++
    join ',' ["7.5".toList, Csv.quotedCell driftId, ['?'], " 1_0.5".toList] ++ ['\r'] ++
    ['\r'] ++ Csv.quotedCell ['1'] ++ ['\r'] ++ join ',' [['0'], [], [], "-inf".toList] ++ ['\r']

theorem drift_written : Csv.Written .carriageReturn (driftHeader :: driftRows) driftText := by
  have hbare : ∀ {cell : Text}, Csv.needsQuotes cell = false → Csv.WrittenCell cell cell := .bare
  refine ⟨[join ',' driftHeader,
    join ',' ["7.5".toList, Csv.quotedCell driftId, ['?'], " 1_0.5".toList], [],
    join ',' [Csv.quotedCell ['1']], join ',' [['0'], [], [], "-inf".toList]], ?_, ?_⟩
  · refine .cons (.cells (by decide) (by decide) ?_) (.cons (.cells (by decide) (by decide) ?_)
      (.cons .blank (.cons (.cells (by decide) (by decide) ?_)
        (.cons (.cells (by decide) (by decide) ?_) .nil))))
    · exact .cons (hbare rfl) (.cons (hbare rfl) (.cons (hbare rfl) (.cons (hbare rfl) .nil)))
    · exact .cons (hbare rfl) (.cons .quoted (.cons (hbare rfl) (.cons (hbare rfl) .nil)))
    · exact .cons .quoted .nil
    · exact .cons (hbare rfl) (.cons (hbare rfl) (.cons (hbare rfl) (.cons (hbare rfl) .nil)))
  · rfl

/-- Of the three rows with a cell, the second has no fix. -/
theorem drift_loaded :
    latitudeColumn ∈ driftHeader ∧ longitudeColumn ∈ driftHeader ∧
      (∀ row ∈ driftHeader :: driftRows, ∀ cell ∈ row, cell.length ≤ Csv.cellLimit) ∧
      Csv.Written .carriageReturn (driftHeader :: driftRows) driftText ∧
      ∃ intake, loadBytes (String.ofList driftText).toUTF8 = .ok intake ∧ intake.total = 3 ∧
        intake.skipped = 1 ∧
        List.Forall₂ (IsFix driftHeader) ((numbered driftRows).filter (Located driftHeader ·.1))
          intake.fixes := by
  have hlat : latitudeColumn ∈ driftHeader := by decide
  have hlng : longitudeColumn ∈ driftHeader := by decide
  have hfit : ∀ row ∈ driftHeader :: driftRows, ∀ cell ∈ row, cell.length ≤ Csv.cellLimit := by
    decide +kernel
  obtain ⟨intake, hload, -, htotal, hfixes, hskipped, -⟩ :=
    loadBytes_written hlat hlng hfit drift_written
  refine ⟨hlat, hlng, hfit, drift_written, intake, hload, ?_, ?_, hfixes⟩
  · rw [htotal]
    decide +kernel
  · rw [hskipped]
    decide +kernel

end Geofence
