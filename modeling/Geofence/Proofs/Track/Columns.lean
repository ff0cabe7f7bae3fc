/-
Looking up columns.

A table may be loaded row by row.  Each row then becomes a record of its cells under the names of
the header, in which a later column takes the place of an earlier one of the same name, and a name
that the header has not is looked up in vain.  Cells that are missing or no numerals only cost the
row its fix.  So a name is looked up in vain for any row or for none, whatever its cells are, and
the report of missing columns settles it beforehand, with one exception: no report is made of a
header without any cell, which an empty table has, but also one that opens with a blank line.  In
the latter the first row with a cell looks for its latitude in vain.

A file whose bytes cannot all be decoded is loaded up to the lines before the portion with the first
one that cannot, so that a fault about a name in them comes first.

Main definitions:

* `Geofence.lookUp?` — what the record of a row has under a name;
* `Geofence.readRow`, `Geofence.readRows`, `Geofence.loadByRows` — loading row by row;
* `Geofence.LoadFault.IsLookup` — a name is missing or was looked up in vain.

Main results:

* `Geofence.loadSheet_eq_loadByRows` — loading row by row comes to the same;
* `Geofence.readRow_of_columns`, `Geofence.readRow_of_no_columns` — a row under a header with both
  columns, and under one without any;
* `Geofence.loadBytes_lookup` — which names are looked up in vain, and what else becomes of rows.
-/

import Geofence.Proofs.Csv.FirstRow
import Geofence.Proofs.Track.Load

set_option relaxedAutoImplicit false
set_option autoImplicit false

namespace Geofence

open Text

/-! ### Records -/

/-- The record of a row: every column of the header by its name, with the cell of the row if the row
reaches so far. -/
def record (header : List Text) (row : Csv.Row) : List (Text × Option Text) :=
  header.zipIdx.map fun column => (column.1, row[column.2]?)

/-- The entry under a name, the last one of several. -/
def lookUp? (header : List Text) (row : Csv.Row) (name : Text) : Option (Option Text) :=
  (record header row).reverse.lookup name

theorem lookUp?_append_singleton (header : List Text) (title : Text) (row : Csv.Row) (name : Text) :
    lookUp? (header ++ [title]) row name =
      if title = name then some row[header.length]? else lookUp? header row name := by
  rw [lookUp?, record, List.zipIdx_append, List.map_append, List.reverse_append]
  by_cases h : title = name
  · subst h
    simp
  · have hname : (name == title) = false := by simpa using Ne.symm h
    simp [h, hname, lookUp?, record, List.lookup_cons]

/-- An entry is found for the columns of the header, and holds the cell of the last one. -/
theorem lookUp?_eq (header : List Text) (row : Csv.Row) (name : Text) :
    lookUp? header row name = (columnOf? header name).map (row[·]?) := by
  induction header using List.reverseRecOn with
  | nil => rfl
  | append_singleton header title ih =>
    rw [lookUp?_append_singleton, columnOf?_append_singleton, ih]
    split_ifs
    · rfl
    · rfl

theorem lookUp?_eq_none_iff {header : List Text} {row : Csv.Row} {name : Text} :
    lookUp? header row name = none ↔ name ∉ header := by
  induction header using List.reverseRecOn with
  | nil => simp [lookUp?, record]
  | append_singleton header title ih =>
    rw [lookUp?_append_singleton]
    by_cases h : title = name
    · simp [h]
    · simp [h, Ne.symm h, ih]

/-! ### Rows -/

/-- The coordinate of a row under a name.  The name has to be one of the header; when the cell is
missing or no numeral, there is no coordinate. -/
def readColumn (header : List Text) (row : Csv.Row) (name : Text) :
    Except LoadFault (Option Float) :=
  match lookUp? header row name with
  | none => .error (.noColumn name)
  | some cell => .ok (cell.bind readNumber?)

/-- The fix of row `number`; the longitude is not looked up when there is no latitude. -/
def readRow (header : List Text) (number : ℕ) (row : Csv.Row) : Except LoadFault (Option Fix) := do
  match ← readColumn header row latitudeColumn with
  | none => pure none
  | some latitude =>
    match ← readColumn header row longitudeColumn with
    | none => pure none
    | some longitude => pure (some ⟨fixId header number row, latitude, longitude⟩)

theorem readColumn_of_mem {header : List Text} {name : Text} (h : name ∈ header) (row : Csv.Row) :
    readColumn header row name = .ok ((cellOf? header row name).bind readNumber?) := by
  have hfound : lookUp? header row name ≠ none := fun hnone => lookUp?_eq_none_iff.mp hnone h
  rw [readColumn, cellOf?]
  rw [lookUp?_eq] at hfound ⊢
  cases hcolumn : columnOf? header name with
  | none =>
    rw [hcolumn] at hfound
    exact absurd rfl hfound
  | some i => rfl

theorem readColumn_of_not_mem {header : List Text} {name : Text} (h : name ∉ header)
    (row : Csv.Row) : readColumn header row name = .error (.noColumn name) := by
  rw [readColumn, lookUp?_eq_none_iff.mpr h]

/-- **A row under a header with both columns** gives its fix, or none, whatever its cells are. -/
theorem readRow_of_columns {header : List Text} (hlat : latitudeColumn ∈ header)
    (hlng : longitudeColumn ∈ header) (number : ℕ) (row : Csv.Row) :
    readRow header number row = .ok (fixOfRow? header number row) := by
  rw [readRow, readColumn_of_mem hlat, readColumn_of_mem hlng, fixOfRow?]
  cases (cellOf? header row latitudeColumn).bind readNumber? with
  | none => rfl
  | some latitude =>
    cases (cellOf? header row longitudeColumn).bind readNumber? with
    | none => rfl
    | some longitude => rfl

/-- A row under a header without columns looks for its latitude in vain. -/
theorem readRow_of_no_columns (number : ℕ) (row : Csv.Row) :
    readRow [] number row = .error (.noColumn latitudeColumn) := by
  rw [readRow, readColumn_of_not_mem List.not_mem_nil]
  rfl

/-! ### Tables -/

/-- The fixes of rows, and the number of rows with a cell; `seen` of these came before. -/
def readRows (header : List Text) : ℕ → List Csv.Row → Except LoadFault (List Fix × ℕ)
  | seen, [] => .ok ([], seen)
  | seen, row :: rows =>
    if row = [] then readRows header seen rows
    else do
      let fix ← readRow header (seen + 1) row
      let later ← readRows header (seen + 1) rows
      pure (fix.toList ++ later.1, later.2)

/-- The fixes of a table, row by row. -/
def loadByRows (sheet : Csv.Sheet) : Except LoadFault Intake :=
  let header := sheet.rows.head?.getD []
  let missing := missingColumns header
  if header ≠ [] ∧ missing ≠ [] then .error (.missingColumns missing header)
  else do
    let read ← readRows header 0 (sheet.rows.drop 1)
    if sheet.overlong then .error .overlongCell else pure ⟨read.1, read.2, header⟩

theorem readRows_of_columns {header : List Text} (hlat : latitudeColumn ∈ header)
    (hlng : longitudeColumn ∈ header) (seen : ℕ) (rows : List Csv.Row) :
    readRows header seen rows =
      .ok (((rows.filter (· ≠ [])).zipIdx (seen + 1)).filterMap fun r => fixOfRow? header r.2 r.1,
        seen + (rows.filter (· ≠ [])).length) := by
  induction rows generalizing seen with
  | nil => rfl
  | cons row rows ih =>
    by_cases hrow : row = []
    · rw [readRows, if_pos hrow, ih, List.filter_cons_of_neg (by simpa using hrow)]
    · have hcount : seen + ((rows.filter (· ≠ [])).length + 1) =
          seen + 1 + (rows.filter (· ≠ [])).length := by omega
      rw [readRows, if_neg hrow, readRow_of_columns hlat hlng, ih,
        List.filter_cons_of_pos (by simpa using hrow), List.zipIdx_cons, List.length_cons, hcount,
        List.filterMap_cons]
      cases fixOfRow? header (seen + 1) row with
      | none => rfl
      | some fix => rfl

/-- Without columns, the first row with a cell is the last one looked at. -/
theorem readRows_of_no_columns (seen : ℕ) (rows : List Csv.Row) :
    readRows [] seen rows =
      if rows.any (· ≠ []) then .error (.noColumn latitudeColumn) else .ok ([], seen) := by
  induction rows with
  | nil => rfl
  | cons row rows ih =>
    by_cases hrow : row = []
    · rw [readRows, if_pos hrow, ih, List.any_cons]
      simp [hrow]
    · rw [readRows, if_neg hrow, readRow_of_no_columns, List.any_cons]
      simp only [hrow, ne_eq, not_false_eq_true, decide_true, Bool.true_or, if_true]
      rfl

theorem mem_columns_of_missingColumns {header : List Text} (h : missingColumns header = []) :
    latitudeColumn ∈ header ∧ longitudeColumn ∈ header := by
  simpa [missingColumns, List.filter_cons, ite_eq_iff] using h

theorem intakeOf_of_blank (header : List Text) {rows : List Csv.Row}
    (h : rows.any (· ≠ []) = false) : intakeOf header rows = ⟨[], 0, header⟩ := by
  have hfilled : rows.filter (· ≠ []) = [] := by
    rw [List.filter_eq_nil_iff]
    exact List.any_eq_false.mp h
  simp only [intakeOf, hfilled, List.zipIdx_nil, List.filterMap_nil, List.length_nil]

/-- **Loading row by row** comes to the same. -/
theorem loadSheet_eq_loadByRows (sheet : Csv.Sheet) : loadSheet sheet = loadByRows sheet := by
  simp only [loadSheet, loadByRows]
  generalize sheet.rows.head?.getD [] = header
  generalize sheet.rows.drop 1 = rows
  by_cases hreport : header ≠ [] ∧ missingColumns header ≠ []
  · rw [if_pos hreport, if_pos hreport]
  · rw [if_neg hreport, if_neg hreport]
    -- without a report the header has no cell at all, or else it has both columns
    by_cases hheader : header = []
    · subst hheader
      rw [readRows_of_no_columns]
      cases hrows : rows.any (· ≠ []) with
      | true =>
        rw [if_pos ⟨rfl, rfl⟩]
        rfl
      | false =>
        rw [if_neg (fun h => Bool.false_ne_true h.2), intakeOf_of_blank [] hrows]
        rfl
    · have hmissing : missingColumns header = [] := by
        by_contra hne
        exact hreport ⟨hheader, hne⟩
      obtain ⟨hlat, hlng⟩ := mem_columns_of_missingColumns hmissing
      rw [if_neg (fun h => hheader h.1), readRows_of_columns hlat hlng, Nat.zero_add, Nat.zero_add]
      rfl

/-! ### Faults -/

/-- The fault is about a name: it is missing from the header, or was looked up in vain. -/
def LoadFault.IsLookup : LoadFault → Prop
  | missingColumns _ _ | noColumn _ => True
  | overlongCell | notEncoded => False

theorem LoadFault.message_missingColumns (missing header : List Text) :
    (LoadFault.missingColumns missing header).message =
      "CSV缺少必要字段：" ++ quotedList missing ++ ". 实际字段：" ++ quotedList header := rfl

theorem head?_takeWhile_eq_nil_iff (rows : List Csv.Row) :
    (rows.takeWhile Csv.rowFits).head? = some [] ↔ rows.head? = some [] := by
  cases rows with
  | nil => rfl
  | cons row rows =>
    by_cases hfit : Csv.rowFits row = true
    · rw [List.takeWhile_cons_of_pos hfit]
      rfl
    · rw [List.takeWhile_cons_of_neg hfit]
      refine iff_of_false (Option.some_ne_none _ ∘ Eq.symm) ?_
      rintro ⟨⟩
      exact hfit rfl

/-- The rows of allowed length begin with an empty one if the lines open with a blank one. -/
theorem head?_sheet_eq_nil_iff {e : Extract} :
    (Csv.Sheet.ofExtract e).rows.head? = some [] ↔ Csv.OpensBlank (Csv.linesOf e) := by
  rw [Csv.Sheet.ofExtract]
  split
  next => exact (head?_takeWhile_eq_nil_iff _).trans Csv.head?_rows_eq_nil_iff
  next => exact (head?_takeWhile_eq_nil_iff _).trans Csv.head?_complete_eq_nil_iff

/-- **The faults about names**: the report of a header with some columns, and the look-up of the
latitude of the first row with a cell under a header without any. -/
theorem loadSheet_lookup {sheet : Csv.Sheet} {fault : LoadFault}
    (h : loadSheet sheet = .error fault) (hlookup : fault.IsLookup) :
    (∃ header rest, sheet.rows = header :: rest ∧ header ≠ [] ∧ missingColumns header ≠ [] ∧
        fault = .missingColumns (missingColumns header) header) ∨
      sheet.rows.head? = some [] ∧ (∃ row ∈ sheet.rows, row ≠ []) ∧
        fault = .noColumn latitudeColumn := by
  obtain ⟨rows, overlong⟩ := sheet
  simp only [loadSheet] at h
  split_ifs at h with hreport hblank
  · cases h
    cases rows with
    | nil => exact absurd rfl hreport.1
    | cons header rest => exact .inl ⟨header, rest, rfl, hreport.1, hreport.2, rfl⟩
  · cases h
    obtain ⟨row, hrow, hne⟩ := List.any_eq_true.mp hblank.2
    cases rows with
    | nil => cases hrow
    | cons header rest =>
      have hheader : header = [] := hblank.1
      exact .inr ⟨by rw [hheader]; rfl, ⟨row, List.mem_cons_of_mem header hrow, by simpa using hne⟩,
        rfl⟩
  · cases h
    exact hlookup.elim

/-- Under an empty header, a row with a cell looks for its latitude in vain. -/
theorem loadSheet_of_blank {sheet : Csv.Sheet} (h : sheet.rows.head? = some [])
    (hrows : ∃ row ∈ sheet.rows, row ≠ []) :
    loadSheet sheet = .error (.noColumn latitudeColumn) := by
  obtain ⟨rows, overlong⟩ := sheet
  obtain ⟨rest, rfl⟩ : ∃ rest, rows = [] :: rest := ⟨rows.tail, List.eq_cons_of_mem_head? h⟩
  obtain ⟨row, hrow, hne⟩ := hrows
  have hmem : row ∈ rest := (List.mem_cons.mp hrow).resolve_left hne
  have hany : rest.any (· ≠ []) = true := List.any_eq_true.mpr ⟨row, hmem, by simpa using hne⟩
  simp only [loadSheet]
  rw [if_neg (fun h => h.1 rfl), if_pos ⟨rfl, hany⟩]

/-- Where no fault is about a name and no cell is too long, there is no fault. -/
theorem loadSheet_of_no_lookup {sheet : Csv.Sheet}
    (h : ∀ fault, loadSheet sheet = .error fault → ¬fault.IsLookup)
    (hfit : sheet.overlong = false) :
    loadSheet sheet = .ok (intakeOf (sheet.rows.head?.getD []) (sheet.rows.drop 1)) := by
  simp only [loadSheet] at h ⊢
  split_ifs at h ⊢ with hreport hblank hoverlong
  · exact absurd trivial (h _ rfl)
  · exact absurd trivial (h _ rfl)
  · rw [hfit] at hoverlong
    cases hoverlong
  · rfl

/-- What is known of the loading of what is read of a file, row by row or as a whole. -/
structure LooksUp (e : Extract) (outcome : Except LoadFault Intake) : Prop where
  /-- The rows may be taken one by one, and before the reading breaks off. -/
  by_rows : outcome = do
    let intake ← loadByRows (.ofExtract e)
    if e.whole then pure intake else .error .notEncoded
  /-- Under a header that names both columns no row looks for a name in vain. -/
  row : ∀ header, header ≠ [] → missingColumns header = [] → ∀ number row,
    readRow header number row = .ok (fixOfRow? header number row)
  /-- A fault about a name is the report of a header, unless the lines open with a blank one. -/
  report : ¬Csv.OpensBlank (Csv.linesOf e) → ∀ fault, outcome = .error fault → fault.IsLookup →
    ∃ header rest, (Csv.Sheet.ofExtract e).rows = header :: rest ∧ missingColumns header ≠ [] ∧
      fault = .missingColumns (missingColumns header) header ∧
      fault.message =
        "CSV缺少必要字段：" ++ quotedList (missingColumns header) ++ ". 实际字段：" ++
          quotedList header
  /-- In a file that does, it is the latitude of a row, and there is a row with a cell. -/
  blank : Csv.OpensBlank (Csv.linesOf e) → ∀ fault, fault.IsLookup →
    (outcome = .error fault ↔
      fault = .noColumn latitudeColumn ∧ ∃ row ∈ (Csv.Sheet.ofExtract e).rows, row ≠ [])
  /-- Without a fault about a name, and without a cell that is too long, every row with a cell of a
  file that is read as a whole gives its fix or is counted. -/
  counted : (∀ fault, outcome = .error fault → ¬fault.IsLookup) →
    (Csv.Sheet.ofExtract e).overlong = false → e.whole = true → ∃ intake, outcome = .ok intake ∧
      List.Forall₂ (IsFix intake.header)
        ((numbered ((Csv.Sheet.ofExtract e).rows.drop 1)).filter (Located intake.header ·.1))
        intake.fixes ∧
      intake.skipped =
        (numbered ((Csv.Sheet.ofExtract e).rows.drop 1)).countP (¬Located intake.header ·.1) ∧
      intake.parsed + intake.skipped = intake.total
  /-- One that is not is refused for its bytes. -/
  undecoded : (∀ fault, outcome = .error fault → ¬fault.IsLookup) →
    (Csv.Sheet.ofExtract e).overlong = false → e.whole = false → outcome = .error .notEncoded

/-- The faults of the rows come before the one of the bytes. -/
theorem loadExtract_of_error {e : Extract} {fault : LoadFault}
    (h : loadSheet (.ofExtract e) = .error fault) : loadExtract e = .error fault := by
  rw [loadExtract, h]
  rfl

/-- A fault about a name is found in the rows. -/
theorem loadSheet_of_lookup {e : Extract} {fault : LoadFault}
    (h : loadExtract e = .error fault) (hlookup : fault.IsLookup) :
    loadSheet (.ofExtract e) = .error fault := by
  cases hsheet : loadSheet (.ofExtract e) with
  | error found => rwa [loadExtract_of_error hsheet] at h
  | ok intake =>
    rw [loadExtract, hsheet] at h
    cases hwhole : e.whole with
    | true =>
      rw [hwhole] at h
      cases h
    | false =>
      rw [hwhole] at h
      cases h
      exact hlookup.elim

theorem looksUp_loadExtract (e : Extract) : LooksUp e (loadExtract e) where
  by_rows := by rw [loadExtract, loadSheet_eq_loadByRows]
  row := by
    intro header _ hmissing number row
    obtain ⟨hlat, hlng⟩ := mem_columns_of_missingColumns hmissing
    exact readRow_of_columns hlat hlng number row
  report := by
    intro hblank fault hfault hlookup
    obtain ⟨header, rest, hrows, -, hmissing, rfl⟩ | ⟨hrows, -⟩ :=
      loadSheet_lookup (loadSheet_of_lookup hfault hlookup) hlookup
    · exact ⟨header, rest, hrows, hmissing, rfl, LoadFault.message_missingColumns _ _⟩
    · exact absurd (head?_sheet_eq_nil_iff.mp hrows) hblank
  blank := by
    intro hblank fault hlookup
    have hhead := head?_sheet_eq_nil_iff.mpr hblank
    constructor
    · intro hfault
      obtain ⟨header, rest, hrows, hheader, -⟩ | ⟨-, hrow, hfault⟩ :=
        loadSheet_lookup (loadSheet_of_lookup hfault hlookup) hlookup
      · rw [hrows] at hhead
        exact absurd (Option.some.inj hhead) hheader
      · exact ⟨hfault, hrow⟩
    · rintro ⟨rfl, hrow⟩
      exact loadExtract_of_error (loadSheet_of_blank hhead hrow)
  counted := by
    intro hfaults hfit hwhole
    have hsheet := loadSheet_of_no_lookup
      (fun fault hfault => hfaults fault (loadExtract_of_error hfault)) hfit
    have hload : loadExtract e = loadSheet (.ofExtract e) := by
      rw [loadExtract, hsheet, hwhole]
      rfl
    refine ⟨_, hload.trans hsheet, ?_, ?_, ?_⟩
    · exact forall₂_filterMap_fixOfRow? _ _
    · exact skipped_intakeOf _ _
    · rw [Intake.skipped]
      exact Nat.add_sub_cancel' (parsed_intakeOf_le _ _)
  undecoded := by
    intro hfaults hfit hwhole
    have hsheet := loadSheet_of_no_lookup
      (fun fault hfault => hfaults fault (loadExtract_of_error hfault)) hfit
    rw [loadExtract, hsheet, hwhole]
    rfl

/-- **Which names are looked up in vain.**  A file is read as a whole if its bytes encode a text, and
otherwise up to a portion of it that cannot be decoded.  In lines that do not open with a blank one,
the one fault about a name is the report of their header; ones that do have no report and fail for
their first row with a cell instead, if there is any, even before bytes that cannot be decoded.
Otherwise each row with a cell gives its fix or is counted. -/
theorem loadBytes_lookup (bytes : ByteArray) :
    (∀ t, Extract.ofBytes bytes = ⟨t, true⟩ ↔ bytes = (String.ofList t).toUTF8) ∧
      LooksUp (.ofBytes bytes) (loadBytes bytes) :=
  ⟨fun _ => Extract.ofBytes_eq_iff, looksUp_loadExtract _⟩

/-- A table that opens with a blank line and goes on with a row of two numbers. -/
def gapText : Text := "\n1,2\n".toList

/-- There is no report of its header, and its row is not counted. -/
theorem gap_fails_for_row :
    loadBytes (String.ofList gapText).toUTF8 = .error (.noColumn latitudeColumn) ∧
      (LoadFault.noColumn latitudeColumn).IsLookup ∧
      (LoadFault.noColumn latitudeColumn).message = "latitude" ∧
      ∀ missing header, LoadFault.noColumn latitudeColumn ≠ .missingColumns missing header := by
  refine ⟨?_, trivial, rfl, ?_⟩
  · rw [loadBytes_toUTF8]
    rfl
  · intro missing header h
    cases h

end Geofence
