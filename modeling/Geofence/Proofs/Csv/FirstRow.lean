/-
The first row of a table.

Rows are only ever added behind those there are, so that the first row of a table is settled at its
first line end.  It has no cells when the text opens with a line end.  In every other text the first
character already belongs to a cell, and this cell, whatever becomes of it, is part of the first
row.

Main definitions:

* `Geofence.Csv.OpensBlank` — the text opens with a blank line;
* `Geofence.Csv.Scan.Opened` — the first row has a cell.

Main results:

* `Geofence.Csv.Scan.exists_rows_scan` — the pass over a text keeps the rows there are;
* `Geofence.Csv.Scan.Opened.step`, `Geofence.Csv.Scan.Opened.scan` — a first row with a cell stays;
* `Geofence.Csv.head?_rows_eq_nil_iff`, `Geofence.Csv.head?_complete_eq_nil_iff` — the texts with an
  empty first row.
-/

import Geofence.Csv.Reader
import Mathlib

set_option relaxedAutoImplicit false
set_option autoImplicit false

namespace Geofence.Csv

/-- The text opens with a blank line. -/
def OpensBlank (t : Text) : Prop := ∃ c ∈ t.head?, isLineEnd c = true

namespace Scan

/-! ### Rows are added behind -/

theorem exists_rows_step (s : Scan) (c : Char) : ∃ new, (step s c).rows = new ++ s.rows := by
  have hbare : ∃ new, (stepBare s c).rows = new ++ s.rows := by
    rw [stepBare]
    split_ifs
    · exact ⟨[_], rfl⟩
    · exact ⟨[], rfl⟩
    · exact ⟨[], rfl⟩
  have hcell : ∃ new, (stepCell s c).rows = new ++ s.rows := by
    rw [stepCell]
    split_ifs
    · exact ⟨[], rfl⟩
    · exact hbare
  have hrow : ∃ new, (stepRow s c).rows = new ++ s.rows := by
    rw [stepRow]
    split_ifs
    · exact ⟨[_], rfl⟩
    · exact hcell
  rw [step]
  cases s.mode with
  | rowStart => exact hrow
  | afterReturn =>
    dsimp only
    split_ifs
    · exact ⟨[], rfl⟩
    · exact hrow
  | cellStart => exact hcell
  | bare => exact hbare
  | quoted =>
    dsimp only
    split_ifs
    · exact ⟨[], rfl⟩
    · exact ⟨[], rfl⟩
  | quoteSeen =>
    dsimp only
    split_ifs
    · exact ⟨[], rfl⟩
    · exact hbare

/-- **The pass over a text keeps the rows there are.** -/
theorem exists_rows_scan (s : Scan) (t : Text) : ∃ new, (scan s t).rows = new ++ s.rows := by
  induction t generalizing s with
  | nil => exact ⟨[], rfl⟩
  | cons c t ih =>
    obtain ⟨new, hstep⟩ := exists_rows_step s c
    obtain ⟨new', hscan⟩ := ih (step s c)
    exact ⟨new' ++ new, by rw [scan_cons, hscan, hstep, List.append_assoc]⟩

theorem exists_finish_eq (s : Scan) : ∃ rest, s.finish = s.rows.reverse ++ rest := by
  rw [finish]
  split
  next => exact ⟨[], (List.append_nil _).symm⟩
  next => exact ⟨[], (List.append_nil _).symm⟩
  next => exact ⟨[_], List.reverse_cons⟩

/-! ### First rows with a cell -/

/-- The first row has a cell: it is complete and not empty, or the pass is at one of its cells. -/
def Opened (s : Scan) : Prop :=
  (∃ row ∈ s.rows.getLast?, row ≠ []) ∨ s.rows = [] ∧ s.mode ≠ .rowStart ∧ s.mode ≠ .afterReturn

/-- What the pass does at a cell leaves the first row with one. -/
theorem opened_stepBare {s : Scan} (h : s.rows = []) (c : Char) : (stepBare s c).Opened := by
  rw [stepBare]
  split_ifs
  · left
    refine ⟨(s.cell.reverse :: s.row).reverse, ?_, by simp⟩
    simp [endCell, endRow, h]
  · exact .inr ⟨h, by simp [endCell], by simp [endCell]⟩
  · exact .inr ⟨h, by simp [push], by simp [push]⟩

theorem opened_stepCell {s : Scan} (h : s.rows = []) (c : Char) : (stepCell s c).Opened := by
  rw [stepCell]
  split_ifs
  · exact .inr ⟨h, Mode.noConfusion, Mode.noConfusion⟩
  · exact opened_stepBare h c

/-- A first row with a cell stays when one more character is read. -/
theorem Opened.step {s : Scan} (h : s.Opened) (c : Char) : (Csv.step s c).Opened := by
  obtain ⟨row, hrow, hne⟩ | ⟨hrows, hstart, hreturn⟩ := h
  · left
    obtain ⟨new, hnew⟩ := exists_rows_step s c
    exact ⟨row, by rw [hnew]; exact List.mem_getLast?_append_of_mem_getLast? hrow, hne⟩
  · rw [Csv.step]
    cases hmode : s.mode with
    | rowStart => exact absurd hmode hstart
    | afterReturn => exact absurd hmode hreturn
    | cellStart => exact opened_stepCell hrows c
    | bare => exact opened_stepBare hrows c
    | quoted =>
      dsimp only
      split_ifs
      · exact .inr ⟨hrows, Mode.noConfusion, Mode.noConfusion⟩
      · exact .inr ⟨hrows, Mode.noConfusion, Mode.noConfusion⟩
    | quoteSeen =>
      dsimp only
      split_ifs
      · exact .inr ⟨hrows, Mode.noConfusion, Mode.noConfusion⟩
      · exact opened_stepBare hrows c

theorem Opened.scan {s : Scan} (h : s.Opened) (t : Text) : (Csv.scan s t).Opened := by
  induction t generalizing s with
  | nil => exact h
  | cons c t ih => exact ih (h.step c)

theorem Opened.head?_finish {s : Scan} (h : s.Opened) : ∃ row ∈ s.finish.head?, row ≠ [] := by
  obtain ⟨row, hrow, hne⟩ | ⟨hrows, hstart, hreturn⟩ := h
  · obtain ⟨rest, hfinish⟩ := exists_finish_eq s
    refine ⟨row, ?_, hne⟩
    rw [hfinish]
    apply List.mem_head?_append_of_mem_head?
    rwa [List.head?_reverse]
  · refine ⟨(s.cell.reverse :: s.row).reverse, ?_, by simp⟩
    rw [finish]
    split
    next h => exact absurd h hstart
    next h => exact absurd h hreturn
    next => simp [endCell, endRow, hrows]

end Scan

open Scan

/-! ### First rows of texts -/

theorem getLast?_rows_of_lineEnd {c : Char} (h : isLineEnd c = true) (t : Text) :
    (scan start (c :: t)).rows.getLast? = some [] := by
  have hstep : step start c = ⟨modeAfter c, [], [], [[]]⟩ := by
    simp [step, start, stepRow, h, endRow]
  obtain ⟨new, hscan⟩ := exists_rows_scan (step start c) t
  rw [scan_cons, hscan, hstep, List.getLast?_concat]

theorem opened_scan_of_not_lineEnd {c : Char} (h : isLineEnd c = false) (t : Text) :
    (scan start (c :: t)).Opened := by
  have hstep : (step start c).Opened := by
    have hcell : step start c = stepCell start c := by
      simp [step, start, stepRow, h]
    rw [hcell]
    exact opened_stepCell rfl c
  exact hstep.scan t

theorem opensBlank_cons_iff {c : Char} {t : Text} : OpensBlank (c :: t) ↔ isLineEnd c = true := by
  constructor
  · rintro ⟨d, hd, hend⟩
    cases hd
    exact hend
  · intro h
    exact ⟨c, rfl, h⟩

/-- **The first row is empty** exactly in the texts that open with a blank line. -/
theorem head?_rows_eq_nil_iff {t : Text} : (rows t).head? = some [] ↔ OpensBlank t := by
  cases t with
  | nil => simp [rows, start, finish, OpensBlank]
  | cons c t =>
    rw [opensBlank_cons_iff]
    cases h : isLineEnd c with
    | true =>
      refine iff_of_true ?_ rfl
      obtain ⟨rest, hfinish⟩ := exists_finish_eq (scan start (c :: t))
      rw [rows, hfinish]
      apply List.mem_head?_append_of_mem_head?
      rw [List.head?_reverse, getLast?_rows_of_lineEnd h]
      rfl
    | false =>
      refine iff_of_false ?_ Bool.false_ne_true
      obtain ⟨row, hrow, hne⟩ := (opened_scan_of_not_lineEnd h t).head?_finish
      intro hnil
      rw [rows] at hnil
      rw [hnil] at hrow
      cases hrow
      exact hne rfl

/-- The same holds of the rows that have come to an end. -/
theorem head?_complete_eq_nil_iff {t : Text} :
    (scan start t).rows.reverse.head? = some [] ↔ OpensBlank t := by
  rw [List.head?_reverse]
  cases t with
  | nil => simp [start, OpensBlank]
  | cons c t =>
    rw [opensBlank_cons_iff]
    cases h : isLineEnd c with
    | true => exact iff_of_true (getLast?_rows_of_lineEnd h t) rfl
    | false =>
      refine iff_of_false (fun hnil => ?_) Bool.false_ne_true
      obtain ⟨row, hrow, hne⟩ | ⟨hrows, -, -⟩ := opened_scan_of_not_lineEnd h t
      · rw [hnil] at hrow
        cases hrow
        exact hne rfl
      · rw [hrows] at hnil
        cases hnil

end Geofence.Csv
