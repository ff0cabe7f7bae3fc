/-
Separators with white space round them.

A text may be cut by looking, at each place from the left, for a separator with all the white space
on both of its sides, and keeping what stands between these matches.  A match begins at the first
blank of its white space, so no piece in the middle ends or begins with a blank; and a text trimmed
before has none at its two ends either.  So the pieces of a trimmed text are its fields.

Main definitions:

* `Geofence.Text.behind?` — what stands behind a separator at the front of a text;
* `Geofence.Text.scan` — the pieces between separators with white space round them.

Main results:

* `Geofence.Text.scan_eq` — the pieces of a text that does not end with a blank;
* `Geofence.Text.fields_trim` — trimming a text leaves its fields as they are;
* `Geofence.Text.scan_trim` — the pieces of a trimmed text are its fields.
-/

import Geofence.Proofs.Text.Fields

set_option relaxedAutoImplicit false
set_option autoImplicit false

namespace Geofence.Text

/-! ### Scanning for separators -/

/-- If the text begins with a separator, apart from white space, what follows the separator and the
white space behind it. -/
def behind? (sep : Char) (t : Text) : Option Text :=
  match t.dropWhile isBlank with
  | [] => none
  | c :: rest => if c = sep then some (rest.dropWhile isBlank) else none

theorem length_lt_of_behind? {sep : Char} {t rest : Text} (h : behind? sep t = some rest) :
    rest.length < t.length := by
  have hle : (t.dropWhile isBlank).length ≤ t.length := List.length_dropWhile_le ..
  rw [behind?] at h
  split at h
  next => cases h
  next c u hu =>
    split_ifs at h
    cases h
    rw [hu, List.length_cons] at hle
    exact (Nat.lt_succ_of_le (List.length_dropWhile_le ..)).trans_le hle

/-- **The pieces** of a text between separators, each taken as far to the left as it can be and with
all the white space round it. -/
def scan (sep : Char) (t : Text) : List Text :=
  match t with
  | [] => [[]]
  | c :: u =>
    match _h : behind? sep (c :: u) with
    | some rest => [] :: scan sep rest
    | none => (scan sep u).modifyHead (c :: ·)
termination_by t.length
decreasing_by
  · exact length_lt_of_behind? ‹_›
  · exact Nat.lt_succ_self _

variable {sep : Char}

theorem behind?_eq_some_iff (hsep : isBlank sep = false) {t rest : Text} :
    behind? sep t = some rest ↔
      ∃ u v, (∀ c ∈ u, isBlank c = true) ∧ t = u ++ sep :: v ∧ rest = v.dropWhile isBlank := by
  constructor
  · intro h
    rw [behind?] at h
    split at h
    next => cases h
    next c v hv =>
      split_ifs at h with hc
      cases h
      refine ⟨t.takeWhile isBlank, v, fun c hc => List.mem_takeWhile_imp hc, ?_, rfl⟩
      rw [← hc, ← hv, List.takeWhile_append_dropWhile]
  · rintro ⟨u, v, hu, rfl, rfl⟩
    have hdrop : (u ++ sep :: v).dropWhile isBlank = sep :: v := by
      rw [List.dropWhile_append_of_pos hu, List.dropWhile_cons_of_neg (by simp [hsep])]
    simp only [behind?, hdrop, if_true]

theorem scan_nil : scan sep [] = [[]] := by
  rw [scan]

theorem scan_of_behind? {t rest : Text} (h : behind? sep t = some rest) :
    scan sep t = [] :: scan sep rest := by
  cases t with
  | nil => cases h
  | cons c u =>
    rw [scan]
    split
    next rest' h' => rw [h] at h'; cases h'; rfl
    next h' => rw [h] at h'; cases h'

theorem scan_cons_of_none {c : Char} {t : Text} (h : behind? sep (c :: t) = none) :
    scan sep (c :: t) = (scan sep t).modifyHead (c :: ·) := by
  rw [scan]
  split
  next rest h' => rw [h] at h'; cases h'
  next => rfl

/-! ### Cutting and white space -/

/-- White space in front of a text stands in front of its first piece. -/
theorem cut_append_of_not_mem {t u piece : Text} {rest : List Text} (hu : sep ∉ u)
    (ht : cut sep t = piece :: rest) : cut sep (u ++ t) = (u ++ piece) :: rest := by
  induction u with
  | nil => exact ht
  | cons c u ih =>
    rw [List.mem_cons, not_or] at hu
    obtain ⟨p, ps, hp, hc⟩ := cut_cons_of_ne (Ne.symm hu.1) (u ++ t)
    rw [ih hu.2] at hp
    cases hp
    exact hc

/-- The first piece begins like the text. -/
theorem mem_head?_of_cut {t piece : Text} {rest : List Text} (ht : cut sep t = piece :: rest)
    {c : Char} (hc : c ∈ piece.head?) : c ∈ t.head? := by
  cases t with
  | nil =>
    rw [cut_nil] at ht
    cases ht
    exact hc
  | cons d t =>
    by_cases hd : d = sep
    · subst hd
      rw [cut_cons_self] at ht
      cases ht
      cases hc
    · obtain ⟨p, ps, -, hcut⟩ := cut_cons_of_ne hd t
      rw [hcut] at ht
      cases ht
      exact hc

theorem not_mem_of_blank (hsep : isBlank sep = false) {u : Text}
    (hu : ∀ c ∈ u, isBlank c = true) : sep ∉ u := by
  intro h
  rw [hu sep h] at hsep
  cases hsep

theorem trim_eq_rdropWhile (t : Text) :
    trim t = (t.dropWhile isBlank).rdropWhile isBlank := rfl

theorem trim_append_of_blank {u : Text} (hu : ∀ c ∈ u, isBlank c = true) (t : Text) :
    trim (u ++ t) = trim t := by
  rw [trim_eq_rdropWhile, trim_eq_rdropWhile, List.dropWhile_append_of_pos hu]

/-- A blank before a text that is not white space throughout is kept when the end is trimmed. -/
theorem rdropWhile_cons {c : Char} {t : Text}
    (h : ¬(isBlank c = true ∧ ∀ d ∈ t, isBlank d = true)) :
    (c :: t).rdropWhile isBlank = c :: t.rdropWhile isBlank := by
  have hnil : (t.reverse.dropWhile isBlank).isEmpty = true ↔ ∀ d ∈ t, isBlank d = true := by
    rw [List.isEmpty_iff, List.dropWhile_eq_nil_iff]
    simp
  rw [List.rdropWhile, List.rdropWhile, List.reverse_cons, List.dropWhile_append]
  split_ifs with hall
  · have hc : isBlank c = false := by
      by_contra hc
      exact h ⟨by simpa using hc, hnil.mp hall⟩
    rw [List.isEmpty_iff.mp hall, List.dropWhile_cons_of_neg (by simp [hc])]
    rfl
  · rw [List.reverse_append]
    rfl

/-! ### The pieces of a scan -/

/-- A separator with white space round it, cut out. -/
theorem cut_of_behind? (hsep : isBlank sep = false) {t rest piece : Text} {pieces : List Text}
    (h : behind? sep t = some rest) (hrest : cut sep rest = piece :: pieces) :
    ∃ u v, (∀ c ∈ u, isBlank c = true) ∧ (∀ c ∈ v, isBlank c = true) ∧
      t = u ++ sep :: (v ++ rest) ∧ cut sep t = u :: (v ++ piece) :: pieces := by
  obtain ⟨u, v, hu, rfl, rfl⟩ := (behind?_eq_some_iff hsep).mp h
  have hv : ∀ c ∈ v.takeWhile isBlank, isBlank c = true := fun c hc => List.mem_takeWhile_imp hc
  refine ⟨u, v.takeWhile isBlank, hu, hv, by rw [List.takeWhile_append_dropWhile], ?_⟩
  have hcut := cut_append_of_not_mem (not_mem_of_blank hsep hv) hrest
  rw [List.takeWhile_append_dropWhile] at hcut
  rw [cut_append, hcut, cut_of_not_mem (not_mem_of_blank hsep hu), List.singleton_append]

theorem head?_of_behind? (hsep : isBlank sep = false) {t rest : Text}
    (h : behind? sep t = some rest) : ∀ c ∈ rest.head?, isBlank c = false := by
  obtain ⟨u, v, -, -, rfl⟩ := (behind?_eq_some_iff hsep).mp h
  exact head?_dropWhile v

/-- Where no separator begins, the piece goes on behind the white space. -/
theorem not_blank_of_behind?_eq_none (hsep : isBlank sep = false) {c : Char} {t : Text}
    (h : behind? sep (c :: t) = none) (hback : ∀ d ∈ (c :: t).getLast?, isBlank d = false)
    {piece : Text} {rest : List Text} (hcut : cut sep (c :: t) = (c :: piece) :: rest) :
    ¬(isBlank c = true ∧ ∀ d ∈ piece, isBlank d = true) := by
  intro hblank
  have hblank : ∀ d ∈ c :: piece, isBlank d = true := List.forall_mem_cons.mpr hblank
  have hjoin := join_cut sep (c :: t)
  rw [hcut] at hjoin
  cases rest with
  | nil =>
    -- the text is white space throughout, its end included
    rw [join_singleton] at hjoin
    have hlast := List.getLast?_eq_some_getLast (List.cons_ne_nil c t)
    have hmem : (c :: t).getLast (List.cons_ne_nil c t) ∈ c :: piece := by
      rw [hjoin]
      exact List.getLast_mem _
    have := hback _ hlast
    rw [hblank _ hmem] at this
    cases this
  | cons piece' rest =>
    -- the white space reaches up to a separator
    rw [join_cons_cons] at hjoin
    have hsome := (behind?_eq_some_iff hsep).mpr ⟨c :: piece, _, hblank, hjoin.symm, rfl⟩
    rw [h] at hsome
    cases hsome

/-- **The pieces of a scan** are those of cutting, the first one trimmed at its end and the others
at both ends, if the text does not end with a blank. -/
theorem scan_eq (hsep : isBlank sep = false) {t : Text}
    (hback : ∀ c ∈ t.getLast?, isBlank c = false) {piece : Text} {rest : List Text}
    (hcut : cut sep t = piece :: rest) :
    scan sep t = piece.rdropWhile isBlank :: rest.map trim := by
  induction t using scan.induct sep generalizing piece rest with
  | case1 =>
    rw [cut_nil] at hcut
    cases hcut
    rw [scan_nil]
    rfl
  | case2 c u behind h ih =>
    obtain ⟨p, ps, hp⟩ := List.exists_cons_of_ne_nil (cut_ne_nil sep behind)
    obtain ⟨u', v, hu', hv, ht, hcut'⟩ := cut_of_behind? hsep h hp
    rw [hcut'] at hcut
    cases hcut
    have hback' : ∀ d ∈ behind.getLast?, isBlank d = false := by
      intro d hd
      apply hback d
      rw [ht, ← List.cons_append, ← List.append_assoc]
      exact List.mem_getLast?_append_of_mem_getLast? hd
    have hfront : trim (v ++ p) = p.rdropWhile isBlank := by
      have hp' : p.dropWhile isBlank = p :=
        dropWhile_eq_self fun d hd => head?_of_behind? hsep h d (mem_head?_of_cut hp hd)
      rw [trim_append_of_blank hv, trim_eq_rdropWhile, hp']
    rw [scan_of_behind? h, ih hback' hp, List.rdropWhile_eq_nil_iff.mpr hu', List.map_cons,
      hfront]
  | case3 c u h ih =>
    have hne : c ≠ sep := by
      rintro rfl
      have hsome : behind? c (c :: u) = some (u.dropWhile isBlank) :=
        (behind?_eq_some_iff hsep).mpr ⟨[], u, List.forall_mem_nil _, rfl, rfl⟩
      rw [h] at hsome
      cases hsome
    obtain ⟨p, ps, hp, hcut'⟩ := cut_cons_of_ne hne u
    rw [hcut'] at hcut
    cases hcut
    have hback' : ∀ d ∈ u.getLast?, isBlank d = false := by
      intro d hd
      have hmem : d ∈ ([c] ++ u).getLast? := List.mem_getLast?_append_of_mem_getLast? hd
      exact hback d hmem
    have hblank := not_blank_of_behind?_eq_none hsep h hback hcut'
    rw [scan_cons_of_none h, ih hback' hp, rdropWhile_cons hblank, List.modifyHead_cons]

/-! ### Scanning a trimmed text -/

/-- White space behind a text stands behind its last piece. -/
theorem cut_append_of_not_mem_right {u : Text} (hu : sep ∉ u) (t : Text) :
    ∃ pieces piece, cut sep t = pieces ++ [piece] ∧
      cut sep (t ++ u) = pieces ++ [piece ++ u] := by
  induction t with
  | nil => exact ⟨[], [], rfl, cut_of_not_mem hu⟩
  | cons c t ih =>
    obtain ⟨pieces, piece, ht, htu⟩ := ih
    by_cases hc : c = sep
    · subst hc
      refine ⟨[] :: pieces, piece, ?_, ?_⟩
      · rw [cut_cons_self, ht, List.cons_append]
      · rw [List.cons_append, cut_cons_self, htu, List.cons_append]
    · obtain ⟨p, ps, hp, hcut⟩ := cut_cons_of_ne hc t
      obtain ⟨q, qs, hq, hcut'⟩ := cut_cons_of_ne hc (t ++ u)
      rw [List.cons_append, hcut, hcut']
      rw [ht] at hp
      rw [htu] at hq
      cases pieces with
      | nil =>
        cases hp
        cases hq
        exact ⟨[], c :: piece, rfl, rfl⟩
      | cons p' pieces =>
        cases hp
        cases hq
        exact ⟨(c :: p) :: pieces, piece, rfl, rfl⟩

theorem rdropWhile_append_of_blank {u : Text} (hu : ∀ c ∈ u, isBlank c = true) (t : Text) :
    (t ++ u).rdropWhile isBlank = t.rdropWhile isBlank := by
  have hrev : ∀ c ∈ u.reverse, isBlank c = true := fun c hc => hu c (List.mem_reverse.mp hc)
  rw [List.rdropWhile, List.reverse_append, List.dropWhile_append_of_pos hrev, List.rdropWhile]

theorem trim_append_of_blank_right {u : Text} (hu : ∀ c ∈ u, isBlank c = true) (t : Text) :
    trim (t ++ u) = trim t := by
  rw [trim_eq_rdropWhile, trim_eq_rdropWhile, List.dropWhile_append]
  split_ifs with hnil
  · have hu' : u.dropWhile isBlank = [] := List.dropWhile_eq_nil_iff.mpr hu
    rw [hu', List.isEmpty_iff.mp hnil]
  · exact rdropWhile_append_of_blank hu _

/-- **Trimming a text** leaves its fields as they are. -/
theorem fields_trim (hsep : isBlank sep = false) (t : Text) :
    fields sep (trim t) = fields sep t := by
  have hfront : fields sep (t.dropWhile isBlank) = fields sep t := by
    have hu : ∀ c ∈ t.takeWhile isBlank, isBlank c = true := fun c hc => List.mem_takeWhile_imp hc
    obtain ⟨p, ps, hp⟩ := List.exists_cons_of_ne_nil (cut_ne_nil sep (t.dropWhile isBlank))
    have hcut := cut_append_of_not_mem (not_mem_of_blank hsep hu) hp
    rw [List.takeWhile_append_dropWhile] at hcut
    rw [fields, fields, hp, hcut, List.map_cons, List.map_cons, trim_append_of_blank hu]
  have hback (u : Text) : fields sep (u.rdropWhile isBlank) = fields sep u := by
    have hu : ∀ c ∈ u.rtakeWhile isBlank, isBlank c = true :=
      fun c hc => List.mem_rtakeWhile_imp hc
    obtain ⟨ps, p, hp, hcut⟩ :=
      cut_append_of_not_mem_right (not_mem_of_blank hsep hu) (u.rdropWhile isBlank)
    rw [List.rdropWhile_append_rtakeWhile] at hcut
    rw [fields, fields, hp, hcut, List.map_append, List.map_append, List.map_singleton,
      List.map_singleton, trim_append_of_blank_right hu]
  rw [trim_eq_rdropWhile, hback, hfront]

/-- **The pieces of a trimmed text are its fields.** -/
theorem scan_trim (hsep : isBlank sep = false) (t : Text) :
    scan sep (trim t) = fields sep t := by
  obtain ⟨p, ps, hp⟩ := List.exists_cons_of_ne_nil (cut_ne_nil sep (trim t))
  have hfront : p.dropWhile isBlank = p :=
    dropWhile_eq_self fun c hc => head?_trim t c (mem_head?_of_cut hp hc)
  rw [scan_eq hsep (getLast?_trim t) hp, ← fields_trim hsep t, fields, hp, List.map_cons,
    trim_eq_rdropWhile p, hfront]

end Geofence.Text
