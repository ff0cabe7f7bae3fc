/-
Fixes that are loaded again.

A table of verdicts is a table of fixes with two more columns, and the fixes it gives are the ones
that were judged.  The numbers in it are read back because rendering them loses nothing.  The
identifiers are, because they come from a table themselves: what loading makes of a cell or of the
number of a row is never empty and has no white space at its ends, so that trimming it once more
changes nothing and the number of a row is not needed again.

Main definitions:

* `Geofence.IsKept` — an identifier that a table gives back;
* `Geofence.Verdict.IsToldBy` — a row tells a verdict.

Main results:

* `Geofence.isKept_of_loadBytes` — the identifiers of a table;
* `Geofence.fixOfRow?_row`, `Geofence.Verdict.isToldBy_row` — what the row of a verdict holds;
* `Geofence.loadBytes_verdictTable` — a table of verdicts is loaded as the fixes judged.
-/

import Geofence.Proofs.Number.Length
import Geofence.Proofs.Text.Fields
import Geofence.Proofs.Track.Verdict

set_option relaxedAutoImplicit false
set_option autoImplicit false

namespace Geofence

open Text

/-! ### Identifiers -/

/-- The identifier is not empty, is its own trimming, and fits in a cell. -/
structure IsKept (id : Text) : Prop where
  ne_nil : id ≠ []
  trimmed : trim id = id
  fits : id.length ≤ Csv.cellLimit

theorem isKept_toDigits {n : ℕ} (h : n < 10 ^ Csv.cellLimit) : IsKept (Nat.toDigits 10 n) where
  ne_nil := Nat.toDigits_ne_nil
  trimmed := by
    apply trim_eq_self
    intro c hc
    exact Numeral.isBlank_of_isPlain (Numeral.isPlain_of_digits (Digits.toDigits n) c hc)
  fits := (Nat.length_toDigits_le_iff (by decide) (by decide)).mpr h

/-- The identifier of a row is kept. -/
theorem isKept_fixId {header : List Text} {number : ℕ} {row : Csv.Row}
    (hfit : Csv.rowFits row = true) (hnumber : number < 10 ^ Csv.cellLimit) :
    IsKept (fixId header number row) := by
  obtain ⟨cell, ⟨i, -, hcell⟩, hne, hid⟩ | ⟨-, hid⟩ := isId_fixId header number row
  · rw [hid]
    have hle : cell.length ≤ Csv.cellLimit :=
      Csv.rowFits_iff.mp hfit cell (List.mem_of_getElem? hcell)
    exact ⟨hne, trim_trim cell, (length_trim_le cell).trans hle⟩
  · rw [hid]
    exact isKept_toDigits hnumber

/-- What is loaded comes from rows whose cells are of allowed length. -/
theorem exists_intakeOf_of_loadBytes {bytes : ByteArray} {intake : Intake}
    (h : loadBytes bytes = .ok intake) :
    ∃ header rows, (∀ row ∈ rows, Csv.rowFits row = true) ∧ intake = intakeOf header rows := by
  obtain ⟨t, -, h⟩ := exists_text_of_loadBytes h
  simp only [loadText, loadSheet] at h
  split_ifs at h
  cases h
  refine ⟨_, _, fun row hrow => ?_, rfl⟩
  exact List.mem_takeWhile_imp (List.mem_of_mem_drop hrow)

/-- **The identifiers of a table** are kept, as long as the number of its last row is. -/
theorem isKept_of_loadBytes {bytes : ByteArray} {intake : Intake}
    (h : loadBytes bytes = .ok intake) (htotal : intake.total < 10 ^ Csv.cellLimit) :
    ∀ x ∈ intake.fixes, IsKept x.id := by
  obtain ⟨header, rows, hfit, rfl⟩ := exists_intakeOf_of_loadBytes h
  intro x hx
  obtain ⟨⟨row, number⟩, hrow, hfix⟩ := List.mem_filterMap.mp hx
  have hmem : row ∈ rows := List.mem_of_mem_filter (List.fst_mem_of_mem_zipIdx hrow)
  have hnumber : number ≤ (intakeOf header rows).total :=
    Nat.le_of_lt_succ (List.snd_lt_of_mem_zipIdx hrow)
  have hx : IsFix header (row, number) x := fixOfRow?_eq_some_iff.mp hfix
  rw [hx.id.eq_fixId]
  exact isKept_fixId (hfit row hmem) (hnumber.trans_lt htotal)

/-! ### Rows of verdicts -/

/-- **The fix of the row of a verdict** is the one judged, whatever the number of the row. -/
theorem fixOfRow?_row {v : Verdict} (h : IsKept v.fix.id) (number : ℕ) :
    fixOfRow? verdictHeader number v.row = some v.fix := by
  have hfix : IsFix verdictHeader (v.row, number) v.fix := by
    refine ⟨?_, ?_, .inl ⟨v.fix.id, ?_, ?_, ?_⟩⟩
    · exact coordinate_eq_some_iff.mp (readNumber?_rendered v.fix.latitude)
    · exact coordinate_eq_some_iff.mp (readNumber?_rendered v.fix.longitude)
    · exact cellOf?_eq_some_iff.mp rfl
    · rw [h.trimmed]
      exact h.ne_nil
    · exact h.trimmed.symm
  exact fixOfRow?_eq_some_iff.mpr hfix

theorem intakeOf_verdicts {verdicts : List Verdict} (h : ∀ v ∈ verdicts, IsKept v.fix.id) :
    intakeOf verdictHeader (verdicts.map Verdict.row) =
      ⟨verdicts.map Verdict.fix, verdicts.length, verdictHeader⟩ :=
  intakeOf_map fun v hv number => fixOfRow?_row (h v hv) number

theorem rowFits_row {v : Verdict} (h : IsKept v.fix.id)
    (hmatched : v.matchedText.length ≤ Csv.cellLimit) : Csv.rowFits v.row = true := by
  have hnumber : ∀ x, (renderNumber x).length ≤ Csv.cellLimit := fun x =>
    (length_renderNumber_le x).trans (by decide)
  rw [Csv.rowFits_iff]
  simp only [Verdict.row, List.forall_mem_cons]
  refine ⟨h.fits, hnumber _, hnumber _, ?_, hmatched, List.forall_mem_nil _⟩
  split <;> decide

namespace Verdict

/-- The row tells the verdict: its cell for the answer holds a one if some fence contains the fix,
and nothing else otherwise, and its cell for the positions is empty if there are none and falls into
them at its bars otherwise. -/
structure IsToldBy (v : Verdict) (row : Csv.Row) : Prop where
  inside : ∃ cell, IsCellOf verdictHeader row insideColumn cell ∧
    (cell = ['1'] ↔ v.inside = true) ∧ (cell = ['0'] ↔ v.inside = false)
  matched : ∃ cell, IsCellOf verdictHeader row matchedColumn cell ∧
    (cell = [] ↔ v.matched = []) ∧
      (v.matched ≠ [] → cell.splitOn '|' = v.matched.map (Nat.toDigits 10))

theorem splitOn_matchedText {v : Verdict} (h : v.matched ≠ []) :
    v.matchedText.splitOn '|' = v.matched.map (Nat.toDigits 10) := by
  rw [← cut_eq_splitOn, matchedText]
  apply cut_join
  · simpa using h
  · intro t ht hbar
    obtain ⟨n, -, rfl⟩ := List.mem_map.mp ht
    exact absurd (Digits.toDigits n '|' hbar) (by decide)

theorem matchedText_eq_nil_iff {v : Verdict} : v.matchedText = [] ↔ v.matched = [] := by
  constructor
  · intro h
    cases hm : v.matched with
    | nil => rfl
    | cons n rest =>
      rw [matchedText, hm, List.map_cons] at h
      exact absurd h (join_cons_ne_nil '|' Nat.toDigits_ne_nil _)
  · intro h
    rw [matchedText, h]
    rfl

/-- **The row of a verdict** tells it. -/
theorem isToldBy_row (v : Verdict) : v.IsToldBy v.row where
  inside := by
    refine ⟨_, cellOf?_eq_some_iff.mp rfl, ?_⟩
    cases v.inside <;> decide
  matched := ⟨_, cellOf?_eq_some_iff.mp rfl, matchedText_eq_nil_iff, splitOn_matchedText⟩

end Verdict

/-! ### Tables of verdicts -/

/-- The verdicts are on the fixes, in order. -/
theorem map_fix_of_classify {fences : List (Fence Float)} {fixes : List Fix}
    {verdicts : List Verdict} (h : classify fences fixes = .ok verdicts) :
    verdicts.map Verdict.fix = fixes := by
  have hjudged := mapM_eq_ok_iff.mp h
  clear h
  induction hjudged with
  | nil => rfl
  | cons hv _ ih =>
    obtain ⟨matched, -, rfl⟩ := map_eq_ok_iff.mp hv
    rw [List.map_cons, ih]

/-- **A table of verdicts is loaded as the fixes that were judged.**  The verdicts are on fixes that
were loaded from any bytes, of a table whose row numbers fit in a cell, and their lists of positions
fit in one too.  Then loading the table gives the same fixes in the same order, skips no row and has
nothing to report; and its rows tell the verdicts, one for each, below the header. -/
theorem loadBytes_verdictTable {bytes : ByteArray} {intake : Intake} {fences : List (Fence Float)}
    {verdicts : List Verdict} (hload : loadBytes bytes = .ok intake)
    (htotal : intake.total < 10 ^ Csv.cellLimit)
    (hverdicts : classify fences intake.fixes = .ok verdicts)
    (hmatched : ∀ v ∈ verdicts, v.matchedText.length ≤ Csv.cellLimit) :
    (∃ again, loadBytes (String.ofList (verdictTable verdicts)).toUTF8 = .ok again ∧
        again.fixes = intake.fixes ∧ again.total = intake.fixes.length ∧ again.skipped = 0 ∧
        again.notices = []) ∧
      ∃ rows, Csv.Sheet.ofText (verdictTable verdicts) = ⟨verdictHeader :: rows, false⟩ ∧
        List.Forall₂ Verdict.IsToldBy verdicts rows := by
  have hfixes := map_fix_of_classify hverdicts
  have hkept : ∀ v ∈ verdicts, IsKept v.fix.id := by
    intro v hv
    apply isKept_of_loadBytes hload htotal
    rw [← hfixes]
    exact List.mem_map_of_mem hv
  have hfit : ∀ row ∈ verdictHeader :: verdicts.map Verdict.row,
      ∀ cell ∈ row, cell.length ≤ Csv.cellLimit := by
    intro row hrow
    rw [← Csv.rowFits_iff]
    obtain rfl | hrow := List.mem_cons.mp hrow
    · decide +kernel
    · obtain ⟨v, hv, rfl⟩ := List.mem_map.mp hrow
      exact rowFits_row (hkept v hv) (hmatched v hv)
  have hsheet : Csv.Sheet.ofText (verdictTable verdicts) =
      ⟨verdictHeader :: verdicts.map Verdict.row, false⟩ :=
    Csv.sheet_of_written (Csv.written_write _) hfit
  constructor
  · refine ⟨intakeOf verdictHeader (verdicts.map Verdict.row), ?_, ?_⟩
    · rw [loadBytes_toUTF8, loadText, hsheet]
      exact loadSheet_eq_ok (by decide) (by decide)
    · have hlength : intake.fixes.length = verdicts.length := by rw [← hfixes, List.length_map]
      rw [intakeOf_verdicts hkept, hlength]
      have hskipped : (Intake.mk (verdicts.map Verdict.fix) verdicts.length verdictHeader).skipped
          = 0 := by
        simp [Intake.skipped, Intake.parsed]
      exact ⟨hfixes, rfl, hskipped, if_pos hskipped⟩
  · refine ⟨_, hsheet, ?_⟩
    rw [List.forall₂_map_right_iff, List.forall₂_same]
    exact fun v _ => v.isToldBy_row

/-- A triangle round the first fix of the drifting devices. -/
def bay : Polygon Float := ⟨[⟨0, 0⟩, ⟨0, 20⟩, ⟨20, 0⟩], by decide⟩

/-- The triangle twice, and one beside it in between. -/
def driftFences : List (Fence Float) := [.polygon bay, .polygon yard, .polygon bay]

/-- The verdicts on the drifting devices: one that is known by a text with quotes, a comma and a
line end, in two fences, and one that is known by its number, in none. -/
def driftVerdicts : List Verdict :=
  [⟨⟨trim driftId, 10.5, 7.5⟩, [0, 2]⟩, ⟨⟨['3'], Binary64.infinity true, 0⟩, []⟩]

theorem classify_driftFences :
    classify driftFences (driftVerdicts.map Verdict.fix) = .ok driftVerdicts := by
  have hnear : matching driftFences ⟨10.5, 7.5⟩ = .ok [0, 2] := by decide +kernel
  have hfar : matching driftFences ⟨Binary64.infinity true, 0⟩ = .ok [] := by decide +kernel
  rw [classify, mapM_eq_ok_iff]
  exact .cons (map_eq_ok_iff.mpr ⟨_, hnear, rfl⟩) (.cons (map_eq_ok_iff.mpr ⟨_, hfar, rfl⟩) .nil)

/-- The fixes of the drifting devices are loaded again. -/
theorem drift_loaded_again :
    (∃ intake, loadBytes (String.ofList driftText).toUTF8 = .ok intake ∧
      intake.total < 10 ^ Csv.cellLimit ∧
      classify driftFences intake.fixes = .ok driftVerdicts) ∧
    (∀ v ∈ driftVerdicts, v.matchedText.length ≤ Csv.cellLimit) ∧
    (∃ again, loadBytes (String.ofList (verdictTable driftVerdicts)).toUTF8 = .ok again ∧
      again.fixes = driftVerdicts.map Verdict.fix ∧ again.skipped = 0) ∧
    ∃ rows, Csv.Sheet.ofText (verdictTable driftVerdicts) = ⟨verdictHeader :: rows, false⟩ ∧
      List.Forall₂ Verdict.IsToldBy driftVerdicts rows := by
  obtain ⟨intake, hload, hloaded, hrows⟩ :
      ∃ intake, loadBytes (String.ofList driftText).toUTF8 = .ok intake ∧
        intake.fixes = driftVerdicts.map Verdict.fix ∧ intake.total = 3 := by
    have hsheet : Csv.Sheet.ofText driftText = ⟨driftHeader :: driftRows, false⟩ :=
      Csv.sheet_of_written drift_written (by decide +kernel)
    refine ⟨intakeOf driftHeader driftRows, ?_, by decide +kernel, by decide +kernel⟩
    rw [loadBytes_toUTF8, loadText, hsheet]
    exact loadSheet_eq_ok (by decide) (by decide)
  have htotal : intake.total < 10 ^ Csv.cellLimit := by
    rw [hrows]
    calc 3 < 10 ^ 1 := by decide
      _ ≤ 10 ^ Csv.cellLimit := Nat.pow_le_pow_right (by decide) (by decide)
  have hverdicts : classify driftFences intake.fixes = .ok driftVerdicts := by
    rw [hloaded]
    exact classify_driftFences
  have hmatched : ∀ v ∈ driftVerdicts, v.matchedText.length ≤ Csv.cellLimit := by
    decide +kernel
  obtain ⟨⟨again, hagain, hfixes, -, hskipped, -⟩, htold⟩ :=
    loadBytes_verdictTable hload htotal hverdicts hmatched
  rw [hloaded] at hfixes
  exact ⟨⟨intake, hload, htotal, hverdicts⟩, hmatched, ⟨again, hagain, hfixes, hskipped⟩, htold⟩

end Geofence
