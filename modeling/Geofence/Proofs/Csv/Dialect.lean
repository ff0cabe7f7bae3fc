/-
The dialect of tables of comma separated cells.

A table is not written in one way only: a cell may stand between quotes whether or not it needs
them, and rows may end in one of three ways, as long as they all end alike.  Every way is read back
as the rows that were written.  The pass over a cell ends with the cell collected, in a mode that
tells how it was written; the comma or the line end that follows closes it whichever mode that is.
Only an empty cell without quotes leaves no trace, which makes it necessary to quote the one cell of
a row that has no other.

Main definitions:

* `Geofence.Csv.LineEnd` — the ways to end a row;
* `Geofence.Csv.WrittenCell`, `Geofence.Csv.WrittenRow`, `Geofence.Csv.Written` — the texts of a
  cell, of a row and of a table.

Main results:

* `Geofence.Csv.scan_quotedCell`, `Geofence.Csv.scan_bare` — the pass over a cell;
* `Geofence.Csv.scan_written_row` — the pass over a row and its line end;
* `Geofence.Csv.rows_of_written` — every text of a table is read back;
* `Geofence.Csv.written_write` — the writer keeps to the dialect.
-/

import Geofence.Csv.Writer
import Geofence.Proofs.Text.Join

set_option relaxedAutoImplicit false
set_option autoImplicit false

namespace Geofence.Csv

/-! ### The dialect -/

/-- How the rows of a table end. -/
inductive LineEnd where
  | lineFeed
  | carriageReturn
  | both
  deriving DecidableEq

/-- The characters of a line end. -/
def LineEnd.text : LineEnd → Text
  | lineFeed => ['\n']
  | carriageReturn => ['\r']
  | both => ['\r', '\n']

/-- The texts of a cell: any cell between quotes, with its own quotes doubled, and a cell as it is
unless it holds a comma, a quote or a line end. -/
inductive WrittenCell (cell : Text) : Text → Prop
  | quoted : WrittenCell cell (quotedCell cell)
  | bare (h : needsQuotes cell = false) : WrittenCell cell cell

/-- The texts of a row: nothing for a row without cells, quotes for the one empty cell of a row, and
the cells between commas for any other row. -/
inductive WrittenRow : Row → Text → Prop
  | blank : WrittenRow [] []
  | lone : WrittenRow [[]] (quotedCell [])
  | cells {row : Row} {ts : List Text} (hne : row ≠ []) (hlone : row ≠ [[]])
      (hcells : List.Forall₂ WrittenCell row ts) : WrittenRow row (Text.join ',' ts)

/-- The texts of a table: those of its rows, each followed by the same line end. -/
def Written (e : LineEnd) (rows : List Row) (t : Text) : Prop :=
  ∃ lines, List.Forall₂ WrittenRow rows lines ∧ t = lines.flatMap (· ++ e.text)

/-! ### Cells -/

/-- The modes before a cell. -/
def Mode.Starts : Mode → Prop
  | .rowStart | .afterReturn | .cellStart => True
  | _ => False

/-- A character that stands in a cell without quotes. -/
theorem isBare_of_mem {cell : Text} (h : needsQuotes cell = false) {c : Char} (hc : c ∈ cell) :
    c ≠ ',' ∧ c ≠ '"' ∧ isLineEnd c = false := by
  rw [needsQuotes, List.any_eq_false] at h
  simpa [and_assoc] using h c hc

theorem scan_bare_rest {cell : Text} (h : needsQuotes cell = false) (done : Text) (row : Row)
    (rows : List Row) :
    scan ⟨.bare, done, row, rows⟩ cell = ⟨.bare, cell.reverse ++ done, row, rows⟩ := by
  induction cell generalizing done with
  | nil => rfl
  | cons c cell ih =>
    obtain ⟨hcomma, -, hend⟩ := isBare_of_mem h List.mem_cons_self
    have hrest : needsQuotes cell = false := by
      rw [needsQuotes, List.any_cons, Bool.or_eq_false_iff] at h
      exact h.2
    have hstep : step ⟨.bare, done, row, rows⟩ c = ⟨.bare, c :: done, row, rows⟩ := by
      simp [step, stepBare, hcomma, hend, Scan.push]
    rw [scan_cons, hstep, ih hrest, List.reverse_cons, List.append_assoc, List.singleton_append]

/-- A cell without quotes is collected; when it is empty, the mode stays. -/
theorem scan_bare {cell : Text} (h : needsQuotes cell = false) {m : Mode} (hm : m.Starts)
    (row : Row) (rows : List Row) :
    scan ⟨m, [], row, rows⟩ cell = ⟨if cell = [] then m else .bare, cell.reverse, row, rows⟩ := by
  cases cell with
  | nil => rfl
  | cons c cell =>
    obtain ⟨hcomma, hquote, hend⟩ := isBare_of_mem h List.mem_cons_self
    have hfeed : c ≠ '\n' := by
      rintro rfl
      exact Bool.noConfusion hend
    have hrest : needsQuotes cell = false := by
      rw [needsQuotes, List.any_cons, Bool.or_eq_false_iff] at h
      exact h.2
    have hstep : step ⟨m, [], row, rows⟩ c = ⟨.bare, [c], row, rows⟩ := by
      cases m with
      | rowStart => simp [step, stepRow, stepCell, stepBare, hcomma, hquote, hend, Scan.push]
      | afterReturn =>
        simp [step, stepRow, stepCell, stepBare, hcomma, hquote, hend, hfeed, Scan.push]
      | cellStart => simp [step, stepCell, stepBare, hcomma, hquote, hend, Scan.push]
      | bare => exact hm.elim
      | quoted => exact hm.elim
      | quoteSeen => exact hm.elim
    rw [scan_cons, hstep, scan_bare_rest hrest, if_neg (List.cons_ne_nil c cell),
      List.reverse_cons]

/-- Between quotes, doubled quotes and all other characters are collected. -/
theorem scan_doubled (cell done : Text) (row : Row) (rows : List Row) :
    scan ⟨.quoted, done, row, rows⟩ (cell.flatMap fun c => if c = '"' then ['"', '"'] else [c]) =
      ⟨.quoted, cell.reverse ++ done, row, rows⟩ := by
  induction cell generalizing done with
  | nil => rfl
  | cons c cell ih =>
    rw [List.flatMap_cons, scan_append, List.reverse_cons, List.append_assoc,
      List.singleton_append, ← ih (c :: done)]
    by_cases hc : c = '"'
    · subst hc
      rfl
    · congr 1
      simp [hc, step, Scan.push]

/-- A cell between quotes is collected. -/
theorem scan_quotedCell (cell : Text) {m : Mode} (hm : m.Starts) (row : Row) (rows : List Row) :
    scan ⟨m, [], row, rows⟩ (quotedCell cell) = ⟨.quoteSeen, cell.reverse, row, rows⟩ := by
  have hopen : step ⟨m, [], row, rows⟩ '"' = ⟨.quoted, [], row, rows⟩ := by
    cases m with
    | rowStart => rfl
    | afterReturn => rfl
    | cellStart => rfl
    | bare => exact hm.elim
    | quoted => exact hm.elim
    | quoteSeen => exact hm.elim
  rw [quotedCell, List.cons_append, scan_cons, hopen, scan_append, scan_doubled, List.append_nil]
  rfl

/-- **The pass over a cell** collects it, and is then in a mode outside quotes; the mode is the same
as before only if there was nothing to pass over. -/
theorem scan_written_cell {cell t : Text} (h : WrittenCell cell t) {m : Mode} (hm : m.Starts)
    (row : Row) (rows : List Row) :
    ∃ m', scan ⟨m, [], row, rows⟩ t = ⟨m', cell.reverse, row, rows⟩ ∧
      (m' = .bare ∨ m' = .quoteSeen ∨ m' = m ∧ t = []) := by
  cases h with
  | quoted => exact ⟨.quoteSeen, scan_quotedCell cell hm row rows, .inr (.inl rfl)⟩
  | bare h =>
    refine ⟨_, scan_bare h hm row rows, ?_⟩
    by_cases hnil : cell = []
    · exact .inr (.inr ⟨if_pos hnil, hnil⟩)
    · exact .inl (if_neg hnil)

/-! ### Rows -/

/-- A comma closes the cell that was collected. -/
theorem step_comma {m : Mode} (h : m ≠ .quoted) (cell : Text) (row : Row) (rows : List Row) :
    step ⟨m, cell.reverse, row, rows⟩ ',' = ⟨.cellStart, [], cell :: row, rows⟩ := by
  cases m with
  | quoted => exact absurd rfl h
  | rowStart | afterReturn | cellStart | bare | quoteSeen =>
    simp [step, stepRow, stepCell, stepBare, isLineEnd, Scan.endCell]

/-- A line end closes the cell that was collected, and the row with it, unless nothing was seen of
the row. -/
theorem step_lineEnd {m : Mode} (h : m = .cellStart ∨ m = .bare ∨ m = .quoteSeen) {c : Char}
    (hc : isLineEnd c = true) (cell : Text) (row : Row) (rows : List Row) :
    step ⟨m, cell.reverse, row, rows⟩ c =
      ⟨Scan.modeAfter c, [], [], (cell :: row).reverse :: rows⟩ := by
  have hquote : c ≠ '"' := by
    rintro rfl
    exact Bool.noConfusion hc
  obtain rfl | rfl | rfl := h <;>
    simp [step, stepCell, stepBare, hc, hquote, Scan.endCell, Scan.endRow]

/-- **The pass over the cells of a row** up to the line end gives the row. -/
theorem scan_cells {cells : Row} {ts : List Text} (h : List.Forall₂ WrittenCell cells ts)
    (hne : cells ≠ []) {m : Mode} (hm : m.Starts)
    (hseen : m = .cellStart ∨ Text.join ',' ts ≠ []) {c : Char} (hc : isLineEnd c = true)
    (done : Row) (rows : List Row) :
    scan ⟨m, [], done, rows⟩ (Text.join ',' ts ++ [c]) =
      ⟨Scan.modeAfter c, [], [], (done.reverse ++ cells) :: rows⟩ := by
  induction h generalizing m done with
  | nil => exact absurd rfl hne
  | @cons cell t cells ts hcell hcells ih =>
    obtain ⟨m', hscan, hm'⟩ := scan_written_cell hcell hm done rows
    cases hcells with
    | nil =>
      rw [Text.join_singleton] at hseen ⊢
      have hmode : m' = .cellStart ∨ m' = .bare ∨ m' = .quoteSeen := by
        obtain rfl | rfl | ⟨rfl, ht⟩ := hm'
        · exact .inr (.inl rfl)
        · exact .inr (.inr rfl)
        · exact .inl (hseen.resolve_right (not_not.mpr ht))
      rw [scan_append, hscan, scan_cons, scan_nil, step_lineEnd hmode hc, List.reverse_cons]
    | @cons cell' t' cells ts hcell' hcells =>
      have hmode : m' ≠ .quoted := by
        obtain rfl | rfl | ⟨rfl, -⟩ := hm'
        · decide
        · decide
        · rintro rfl
          exact hm
      rw [Text.join_cons_cons, List.append_assoc, List.cons_append, scan_append, hscan, scan_cons,
        step_comma hmode, ih (m := .cellStart) (List.cons_ne_nil cell' cells) trivial (.inl rfl),
        List.reverse_cons, List.append_assoc, List.singleton_append]

/-- The modes in which a row may begin when rows end in this way. -/
def LineEnd.Ready (e : LineEnd) (m : Mode) : Prop :=
  m = .rowStart ∨ m = .afterReturn ∧ e = .carriageReturn

theorem LineEnd.Ready.starts {e : LineEnd} {m : Mode} (h : e.Ready m) : m.Starts := by
  obtain rfl | ⟨rfl, -⟩ := h <;> trivial

/-- When a row is complete after the first character of its line end, it is so after all of it, and
the next one may begin. -/
theorem scan_lineEnd {e : LineEnd} {s : Scan} {t : Text} {row : Row} {rows : List Row}
    (h : ∀ c, isLineEnd c = true → e.text.head? = some c →
      scan s (t ++ [c]) = ⟨Scan.modeAfter c, [], [], row :: rows⟩) :
    ∃ m, e.Ready m ∧ scan s (t ++ e.text) = ⟨m, [], [], row :: rows⟩ := by
  cases e with
  | lineFeed => exact ⟨.rowStart, .inl rfl, h '\n' rfl rfl⟩
  | carriageReturn => exact ⟨.afterReturn, .inr ⟨rfl, rfl⟩, h '\r' rfl rfl⟩
  | both =>
    refine ⟨.rowStart, .inl rfl, ?_⟩
    have hr := h '\r' rfl rfl
    rw [show LineEnd.both.text = ['\r'] ++ ['\n'] from rfl, ← List.append_assoc, scan_append, hr]
    rfl

theorem join_ne_nil_of_written {row : Row} {ts : List Text} (hne : row ≠ []) (hlone : row ≠ [[]])
    (h : List.Forall₂ WrittenCell row ts) : Text.join ',' ts ≠ [] := by
  cases h with
  | nil => exact absurd rfl hne
  | @cons cell t cells ts hcell hcells =>
    cases hcells with
    | nil =>
      rw [Text.join_singleton]
      cases hcell with
      | quoted => exact List.cons_ne_nil _ _
      | bare _ =>
        rintro rfl
        exact hlone rfl
    | cons _ _ =>
      rw [Text.join_cons_cons]
      exact List.append_ne_nil_of_right_ne_nil _ (List.cons_ne_nil _ _)

/-- **The pass over a row** and its line end gives the row. -/
theorem scan_written_row {e : LineEnd} {row : Row} {t : Text} (h : WrittenRow row t) {m : Mode}
    (hm : e.Ready m) (rows : List Row) :
    ∃ m', e.Ready m' ∧ scan ⟨m, [], [], rows⟩ (t ++ e.text) = ⟨m', [], [], row :: rows⟩ := by
  apply scan_lineEnd
  intro c hc hhead
  cases h with
  | blank =>
    rw [List.nil_append, scan_cons, scan_nil]
    obtain rfl | ⟨rfl, rfl⟩ := hm
    · simp [step, stepRow, hc, Scan.endRow]
    · -- after a carriage return no line feed can follow, since rows do not end in one
      cases hhead
      rfl
  | lone =>
    rw [scan_append, scan_quotedCell [] hm.starts, scan_cons, scan_nil,
      step_lineEnd (.inr (.inr rfl)) hc]
    rfl
  | cells hne hlone hcells =>
    exact scan_cells hcells hne hm.starts (.inr (join_ne_nil_of_written hne hlone hcells)) hc []
      rows

/-! ### Tables -/

theorem scan_written {e : LineEnd} {rows : List Row} {lines : List Text}
    (h : List.Forall₂ WrittenRow rows lines) {m : Mode} (hm : e.Ready m) (done : List Row) :
    ∃ m', e.Ready m' ∧ scan ⟨m, [], [], done⟩ (lines.flatMap (· ++ e.text)) =
      ⟨m', [], [], rows.reverse ++ done⟩ := by
  induction h generalizing m done with
  | nil => exact ⟨m, hm, rfl⟩
  | @cons row line rows lines hrow _ ih =>
    obtain ⟨m₁, hm₁, hline⟩ := scan_written_row hrow hm done
    obtain ⟨m₂, hm₂, hrest⟩ := ih hm₁ (row :: done)
    refine ⟨m₂, hm₂, ?_⟩
    rw [List.flatMap_cons, scan_append, hline, hrest, List.reverse_cons, List.append_assoc,
      List.singleton_append]

/-- **Every text of a table is read back** as its rows. -/
theorem rows_of_written {e : LineEnd} {table : List Row} {t : Text} (h : Written e table t) :
    rows t = table := by
  obtain ⟨lines, hlines, rfl⟩ := h
  obtain ⟨m, hm, hscan⟩ := scan_written hlines (.inl rfl) (m := .rowStart) []
  rw [rows, Scan.start, hscan, List.append_nil]
  obtain rfl | ⟨rfl, -⟩ := hm <;> exact List.reverse_reverse table

theorem rowFits_iff {row : Row} :
    rowFits row = true ↔ ∀ cell ∈ row, cell.length ≤ cellLimit := by
  rw [rowFits, List.all_eq_true]
  exact forall₂_congr fun _ _ => decide_eq_true_iff

/-- A table whose cells are of allowed length is read back as a whole. -/
theorem sheet_of_written {e : LineEnd} {table : List Row} {t : Text} (h : Written e table t)
    (hfit : ∀ row ∈ table, ∀ cell ∈ row, cell.length ≤ cellLimit) :
    Sheet.ofText t = ⟨table, false⟩ := by
  have hall : ∀ row ∈ table, rowFits row = true := fun row hrow => rowFits_iff.mpr (hfit row hrow)
  have hwhole : table.takeWhile rowFits = table := List.takeWhile_eq_self_iff.mpr hall
  have hnone : table.all rowFits = true := List.all_eq_true.mpr hall
  simp only [Sheet.ofText, rows_of_written h, hwhole, hnone, Bool.not_true]

/-! ### The writer -/

theorem writtenCell_writeCell (cell : Text) : WrittenCell cell (writeCell cell) := by
  rw [writeCell]
  split
  next => exact .quoted
  next h => exact .bare (Bool.eq_false_iff.mpr h)

theorem writtenCell_map_writeCell (row : Row) :
    List.Forall₂ WrittenCell row (row.map writeCell) := by
  rw [List.forall₂_map_right_iff, List.forall₂_same]
  intro cell _
  exact writtenCell_writeCell cell

theorem exists_writeRow_eq (row : Row) :
    ∃ line, WrittenRow row line ∧ writeRow row = line ++ LineEnd.both.text := by
  by_cases hlone : row = [[]]
  · subst hlone
    exact ⟨quotedCell [], .lone, rfl⟩
  · refine ⟨Text.join ',' (row.map writeCell), ?_, by rw [writeRow, if_neg hlone]; rfl⟩
    by_cases hne : row = []
    · subst hne
      exact .blank
    · exact .cells hne hlone (writtenCell_map_writeCell row)

/-- **The writer keeps to the dialect**, with both characters at the end of each row. -/
theorem written_write (table : List Row) : Written .both table (write table) := by
  induction table with
  | nil => exact ⟨[], .nil, rfl⟩
  | cons row table ih =>
    obtain ⟨line, hline, hrow⟩ := exists_writeRow_eq row
    obtain ⟨lines, hlines, htable⟩ := ih
    refine ⟨line :: lines, .cons hline hlines, ?_⟩
    rw [write, List.flatMap_cons, hrow, List.flatMap_cons, ← htable, write]

end Geofence.Csv
