/-
Encoded lists put together.

A semicolon between two texts ends the last segment of the first and opens the first segment of the
second, so that the segments of the whole are those of the two.  Cutting and trimming sees this at
once.  A scan for separators does not: it takes the white space on both sides of the seam with the
semicolon, while in the two texts by themselves the same white space is trimmed off their ends; but
the pieces are the fields either way.

Readings are put together like lists, except that a strict reading that breaks off does not get to
what comes after it.  What a segment adds does not depend on what is behind it, and therefore the
reading of the whole is the reading of the one text with that of the other behind it.

Main definitions:

* `Geofence.Reading.empty`, `Geofence.Reading.append` — reading nothing, and one reading after
  another.

Main results:

* `Geofence.Text.scan_trim_append` — the pieces of two texts with a separator between them;
* `Geofence.readFences_append` — the reading of such a text, in either mode;
* `Geofence.readFences_lenient_append`, `Geofence.result_readFences_append_eq_error_iff` — the
  fences, and the cause when there are none;
* `Geofence.readFences_joined` — all of it together.
-/

import Geofence.Proofs.Encoding.Grammar

set_option relaxedAutoImplicit false
set_option autoImplicit false

namespace Geofence

open Text

/-- **The pieces of two texts** round a separator are those of the one and those of the other,
whatever white space there is at the seam. -/
theorem Text.scan_trim_append {sep : Char} (hsep : isBlank sep = false) (t u : Text) :
    scan sep (trim (t ++ sep :: u)) = scan sep (trim t) ++ scan sep (trim u) := by
  rw [scan_trim hsep, scan_trim hsep, scan_trim hsep, fields_append]

/-! ### One reading after another -/

namespace Reading

/-- Nothing is read and nothing reported. -/
def empty : Reading := ⟨.ok [], []⟩

/-- The reading `s` after the reading `r`, unless `r` breaks off. -/
def append (r s : Reading) : Reading :=
  match r.result with
  | .error _ => r
  | .ok fences => ⟨s.result.map (fences ++ ·), r.notices ++ s.notices⟩

instance : Append Reading := ⟨append⟩

theorem ok_append (fences : List (Fence Float)) (notices : List Notice) (s : Reading) :
    (⟨.ok fences, notices⟩ : Reading) ++ s =
      ⟨s.result.map (fences ++ ·), notices ++ s.notices⟩ := rfl

/-- A reading that does not break off goes on with the next one. -/
theorem append_of_ok {r : Reading} {fences : List (Fence Float)} (h : r.result = .ok fences)
    (s : Reading) : r ++ s = ⟨s.result.map (fences ++ ·), r.notices ++ s.notices⟩ := by
  obtain ⟨result, notices⟩ := r
  cases h
  exact ok_append fences notices s

/-- Nothing comes after a reading that breaks off. -/
theorem append_of_error {r : Reading} {cause : Malformed} (h : r.result = .error cause)
    (s : Reading) : r ++ s = r := by
  obtain ⟨result, notices⟩ := r
  cases h
  rfl

@[simp] theorem empty_append (s : Reading) : empty ++ s = s := by
  obtain ⟨result, notices⟩ := s
  rw [empty, ok_append]
  cases result <;> rfl

theorem consFence_append (f : Fence Float) (r s : Reading) :
    (r ++ s).consFence f = r.consFence f ++ s := by
  obtain ⟨result, notices⟩ := r
  obtain ⟨result', notices'⟩ := s
  cases result with
  | error cause => rfl
  | ok fences => cases result' <;> rfl

theorem consNotice_append (n : Notice) (r s : Reading) :
    (r ++ s).consNotice n = r.consNotice n ++ s := by
  obtain ⟨result, notices⟩ := r
  cases result <;> rfl

end Reading

open Reading

/-! ### Segments -/

/-- What a segment adds does not depend on what is behind it. -/
theorem readSegment_append (strict : Bool) (segment : Text) (r s : Reading) :
    readSegment strict segment (r ++ s) = readSegment strict segment r ++ s := by
  simp only [readSegment]
  by_cases hempty : segment.isEmpty = true
  · rw [if_pos hempty, if_pos hempty]
  · rw [if_neg hempty, if_neg hempty]
    cases readFence segment with
    | ok f => exact consFence_append f r s
    | error fault =>
      cases fault with
      | unknownKind kind => exact consNotice_append _ r s
      | malformed cause =>
        cases strict with
        | true => rfl
        | false => exact consNotice_append _ r s

/-- Segments in front of a reading are read by themselves. -/
theorem foldr_readSegment_eq_append (strict : Bool) (ts : List Text) (r : Reading) :
    ts.foldr (readSegment strict) r = ts.foldr (readSegment strict) empty ++ r := by
  induction ts with
  | nil => rw [List.foldr_nil, List.foldr_nil, empty_append]
  | cons t ts ih => rw [List.foldr_cons, List.foldr_cons, ih, readSegment_append]

/-! ### Lists -/

/-- **The reading of two texts** with a semicolon between them. -/
theorem readFences_append (strict : Bool) (t u : Text) :
    readFences strict (t ++ ';' :: u) = readFences strict t ++ readFences strict u := by
  have hu : readFences strict u = (fields ';' u).foldr (readSegment strict) empty := rfl
  rw [readFences, fields_append, List.foldr_append, foldr_readSegment_eq_append, hu]
  rfl

/-- A reading that breaks off in the first text is the reading of the first text. -/
theorem readFences_append_of_error {strict : Bool} {t : Text} {cause : Malformed}
    (h : (readFences strict t).result = .error cause) (u : Text) :
    readFences strict (t ++ ';' :: u) = readFences strict t := by
  rw [readFences_append, append_of_error h]

/-- A reading that gets through the first text goes on with the second. -/
theorem readFences_append_of_ok {strict : Bool} {t : Text} {fences : List (Fence Float)}
    (h : (readFences strict t).result = .ok fences) (u : Text) :
    readFences strict (t ++ ';' :: u) =
      ⟨(readFences strict u).result.map (fences ++ ·),
        (readFences strict t).notices ++ (readFences strict u).notices⟩ := by
  rw [readFences_append, append_of_ok h]

/-- A tolerant reading gives the fences of both and reports the notices of both. -/
theorem readFences_lenient_append (t u : Text) :
    ∃ fences fences', (readFences false t).result = .ok fences ∧
      (readFences false u).result = .ok fences' ∧
      readFences false (t ++ ';' :: u) =
        ⟨.ok (fences ++ fences'),
          (readFences false t).notices ++ (readFences false u).notices⟩ := by
  obtain ⟨fences, notices, ht, -⟩ := readFences_lenient t
  obtain ⟨fences', notices', hu, -⟩ := readFences_lenient u
  have ht : (readFences false t).result = .ok fences := by rw [ht]
  have hu : (readFences false u).result = .ok fences' := by rw [hu]
  refine ⟨fences, fences', ht, hu, ?_⟩
  rw [readFences_append_of_ok ht, hu]
  rfl

/-- What breaks off the reading of two texts is in the first, or in the second and not in the
first. -/
theorem result_readFences_append_eq_error_iff {strict : Bool} {t u : Text} {cause : Malformed} :
    (readFences strict (t ++ ';' :: u)).result = .error cause ↔
      (readFences strict t).result = .error cause ∨
        (∃ fences, (readFences strict t).result = .ok fences) ∧
          (readFences strict u).result = .error cause := by
  cases ht : (readFences strict t).result with
  | error cause' =>
    rw [readFences_append_of_error ht, ht]
    simp
  | ok fences =>
    rw [readFences_append_of_ok ht]
    cases (readFences strict u).result with
    | error cause' => simp [Except.map]
    | ok fences' => simp [Except.map]

/-- **Reading is compositional.**  Scanning two texts with a semicolon between them finds the pieces
of both.  A tolerant reading gives the fences of the first and then those of the second, and reports
likewise; a strict one breaks off for the cause in the first text if there is one, and otherwise for
the one in the second, and puts both together if there is none. -/
theorem readFences_joined (t u : Text) :
    scan ';' (trim (t ++ ';' :: u)) = scan ';' (trim t) ++ scan ';' (trim u) ∧
      (∃ fences fences', (readFences false t).result = .ok fences ∧
        (readFences false u).result = .ok fences' ∧
        readFences false (t ++ ';' :: u) =
          ⟨.ok (fences ++ fences'),
            (readFences false t).notices ++ (readFences false u).notices⟩) ∧
      (∀ cause, (readFences true (t ++ ';' :: u)).result = .error cause ↔
        (readFences true t).result = .error cause ∨
          (∃ fences, (readFences true t).result = .ok fences) ∧
            (readFences true u).result = .error cause) ∧
      (∀ cause, (readFences true t).result = .error cause →
        readFences true (t ++ ';' :: u) = readFences true t) ∧
      ∀ fences, (readFences true t).result = .ok fences →
        readFences true (t ++ ';' :: u) =
          ⟨(readFences true u).result.map (fences ++ ·),
            (readFences true t).notices ++ (readFences true u).notices⟩ := by
  refine ⟨scan_trim_append (by decide) t u, readFences_lenient_append t u, ?_, ?_, ?_⟩
  · intro cause
    exact result_readFences_append_eq_error_iff
  · intro cause h
    exact readFences_append_of_error h u
  · intro fences h
    exact readFences_append_of_ok h u

example :
    (readFences true " square|0\t ; \npolygon|0,0".toList).notices =
      [.unknownKind "square|0".toList "square".toList] := by
  decide +kernel

end Geofence
