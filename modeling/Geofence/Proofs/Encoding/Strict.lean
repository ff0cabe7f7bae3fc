/-
Strict and tolerant readings.

A segment is malformed when its kind is one of the two known ones and what follows the kind is not
as the grammar has it.  A tolerant reading skips a malformed segment with a notice, and a strict
reading ends there; all other segments are treated alike, those of an unknown kind included.  So up
to the first malformed segment the two readings are one and the same, and that segment is where the
strict one ends: with the cause that the tolerant one puts in its notice, and with the notices that
the tolerant one has made so far.

Main definitions:

* `Geofence.kindOf`, `Geofence.HasKnownKind` — what a segment begins with;
* `Geofence.IsMalformed` — a known kind outside the grammar;
* `Geofence.Notice.IsSkip` — the wording of a notice about a malformed segment.

Main results:

* `Geofence.readFence_eq_unknownKind_iff`, `Geofence.exists_readFence_eq_malformed_iff` — the two
  reasons why a segment gives no fence;
* `Geofence.exists_isSkip_iff` — a tolerant reading tells whether there is a malformed segment;
* `Geofence.foldr_readSegment_first` — both readings at the first malformed segment;
* `Geofence.readFences_strict_iff` — how strict and tolerant readings of a text are related.
-/

import Geofence.Proofs.Encoding.Compose

set_option relaxedAutoImplicit false
set_option autoImplicit false

namespace Geofence

open Text Reading

/-! ### Kinds -/

/-- The kind of a segment: what stands before its first bar, without white space at its ends. -/
def kindOf (segment : Text) : Text := trim (segment.takeWhile (· ≠ '|'))

/-- The kind is that of circles or that of polygons. -/
def HasKnownKind (segment : Text) : Prop :=
  kindOf segment = circleKind ∨ kindOf segment = polygonKind

instance : DecidablePred HasKnownKind := fun segment =>
  inferInstanceAs (Decidable (kindOf segment = circleKind ∨ kindOf segment = polygonKind))

/-- The kind is known, and still the segment stands for no fence. -/
def IsMalformed (segment : Text) : Prop := HasKnownKind segment ∧ ¬InGrammar segment

instance : DecidablePred IsMalformed := fun segment =>
  inferInstanceAs (Decidable (HasKnownKind segment ∧ ¬InGrammar segment))

/-- The first piece of a text is what stands before the first separator. -/
theorem Text.exists_cut_eq_takeWhile (sep : Char) (t : Text) :
    ∃ rest, cut sep t = t.takeWhile (· ≠ sep) :: rest := by
  induction t with
  | nil => exact ⟨[], rfl⟩
  | cons c t ih =>
    by_cases hc : c = sep
    · subst hc
      exact ⟨cut c t, by rw [cut_cons_self, List.takeWhile_cons_of_neg (by simp)]⟩
    · obtain ⟨rest, ht⟩ := ih
      obtain ⟨piece, rest', hp, hcut⟩ := cut_cons_of_ne hc t
      rw [ht] at hp
      cases hp
      exact ⟨rest, by rw [hcut, List.takeWhile_cons_of_pos (by simpa using hc)]⟩

theorem exists_fields_eq_kindOf (segment : Text) :
    ∃ parts, fields '|' segment = kindOf segment :: parts := by
  obtain ⟨rest, hcut⟩ := Text.exists_cut_eq_takeWhile '|' segment
  exact ⟨rest.map trim, by rw [fields, hcut, List.map_cons, kindOf]⟩

theorem mapError_malformed_ne_unknownKind {α : Type} (r : Except Malformed α) (kind : Text) :
    r.mapError SegmentFault.malformed ≠ .error (.unknownKind kind) := by
  cases r with
  | ok a => exact fun h => by cases h
  | error cause => exact fun h => by cases h

/-- A segment is found to be of an unknown kind exactly if it is. -/
theorem readFence_eq_unknownKind_iff {segment kind : Text} :
    readFence segment = .error (.unknownKind kind) ↔
      ¬HasKnownKind segment ∧ kind = kindOf segment := by
  obtain ⟨parts, hparts⟩ := exists_fields_eq_kindOf segment
  simp only [readFence, hparts, HasKnownKind]
  by_cases hcircle : kindOf segment = circleKind
  · rw [if_pos hcircle]
    exact iff_of_false (mapError_malformed_ne_unknownKind _ kind) fun h => h.1 (.inl hcircle)
  · rw [if_neg hcircle]
    by_cases hpolygon : kindOf segment = polygonKind
    · rw [if_pos hpolygon]
      exact iff_of_false (mapError_malformed_ne_unknownKind _ kind) fun h => h.1 (.inr hpolygon)
    · rw [if_neg hpolygon, Except.error.injEq, SegmentFault.unknownKind.injEq]
      exact ⟨fun h => ⟨not_or.mpr ⟨hcircle, hpolygon⟩, h.symm⟩, fun h => h.2.symm⟩

/-- A known kind is found wrong exactly in the malformed segments. -/
theorem exists_readFence_eq_malformed_iff {segment : Text} :
    (∃ cause, readFence segment = .error (.malformed cause)) ↔ IsMalformed segment := by
  rw [IsMalformed, inGrammar_iff]
  cases h : readFence segment with
  | ok f => simp [Except.toOption]
  | error fault =>
    cases fault with
    | unknownKind kind =>
      have hkind := (readFence_eq_unknownKind_iff.mp h).1
      simp [hkind]
    | malformed cause =>
      have hkind : HasKnownKind segment := by
        by_contra hkind
        rw [readFence_eq_unknownKind_iff.mpr ⟨hkind, rfl⟩] at h
        cases h
      simp [hkind, Except.toOption]

/-! ### The wording of notices -/

theorem Notice.message_malformed (segment : Text) (cause : Malformed) :
    (Notice.malformed segment cause).message =
      "Skipping malformed geometry " ++ quoted segment ++ ": " ++ cause.message := rfl

theorem Notice.message_unknownKind (segment kind : Text) :
    (Notice.unknownKind segment kind).message =
      "Invalid geometry format " ++ quoted segment ++ ": unrecognized geometry kind: " ++
        quoted kind := rfl

/-- The notice is worded as one about a malformed segment. -/
def Notice.IsSkip (n : Notice) : Prop :=
  "Skipping malformed geometry ".toList <+: n.message.toList

theorem Notice.isSkip_malformed (segment : Text) (cause : Malformed) :
    (Notice.malformed segment cause).IsSkip := by
  rw [IsSkip, message_malformed, String.append_assoc, String.append_assoc, String.toList_append]
  exact List.prefix_append _ _

theorem Notice.not_isSkip_unknownKind (segment kind : Text) :
    ¬(Notice.unknownKind segment kind).IsSkip := by
  intro h
  rw [IsSkip, message_unknownKind, String.append_assoc, String.append_assoc,
    String.toList_append] at h
  obtain ⟨rest, h⟩ := h
  -- the two wordings differ in their first letter
  have hhead := congrArg List.head? h
  cases hhead

/-! ### One segment in both modes -/

theorem not_isMalformed_nil : ¬IsMalformed [] := by decide

/-- A strict reading treats a segment that is not malformed like a tolerant one. -/
theorem readSegment_strict_of_not_isMalformed {segment : Text} (h : ¬IsMalformed segment)
    (rest : Reading) : readSegment true segment rest = readSegment false segment rest := by
  simp only [readSegment]
  split
  next => rfl
  next =>
    cases hfence : readFence segment with
    | ok f => rfl
    | error fault =>
      cases fault with
      | unknownKind kind => rfl
      | malformed cause => exact absurd (exists_readFence_eq_malformed_iff.mp ⟨cause, hfence⟩) h

/-- At a malformed segment a strict reading ends, and a tolerant one makes a notice. -/
theorem readSegment_of_malformed {segment : Text} {cause : Malformed}
    (h : readFence segment = .error (.malformed cause)) (rest : Reading) :
    readSegment true segment rest = ⟨.error cause, []⟩ ∧
      readSegment false segment rest = rest.consNotice (.malformed segment cause) := by
  have hempty : segment.isEmpty = false := by
    rw [List.isEmpty_eq_false_iff]
    rintro rfl
    exact not_isMalformed_nil (exists_readFence_eq_malformed_iff.mp ⟨cause, h⟩)
  constructor
  · simp [readSegment, hempty, h]
  · simp [readSegment, hempty, h]

/-- One segment more is one skip more exactly if it is malformed. -/
theorem exists_isSkip_readSegment_iff {segment : Text} {rest : Reading} :
    (∃ n ∈ (readSegment false segment rest).notices, n.IsSkip) ↔
      IsMalformed segment ∨ ∃ n ∈ rest.notices, n.IsSkip := by
  by_cases hmalformed : IsMalformed segment
  · obtain ⟨cause, h⟩ := exists_readFence_eq_malformed_iff.mpr hmalformed
    rw [(readSegment_of_malformed h rest).2]
    refine iff_of_true ⟨_, List.mem_cons_self, ?_⟩ (.inl hmalformed)
    exact Notice.isSkip_malformed segment cause
  · rw [or_iff_right hmalformed, readSegment]
    split
    next => rfl
    next =>
      cases hfence : readFence segment with
      | ok f => rfl
      | error fault =>
        cases fault with
        | unknownKind kind =>
          simp only [consNotice, List.exists_mem_cons_iff]
          exact or_iff_right (Notice.not_isSkip_unknownKind segment kind)
        | malformed cause =>
          exact absurd (exists_readFence_eq_malformed_iff.mp ⟨cause, hfence⟩) hmalformed

/-! ### Lists of segments -/

/-- **A tolerant reading tells** by its notices whether there is a malformed segment. -/
theorem exists_isSkip_iff {ts : List Text} :
    (∃ n ∈ (ts.foldr (readSegment false) empty).notices, n.IsSkip) ↔ ∃ t ∈ ts, IsMalformed t := by
  induction ts with
  | nil => simp [empty]
  | cons t ts ih =>
    rw [List.foldr_cons, exists_isSkip_readSegment_iff, ih, List.exists_mem_cons_iff]

/-- Without a malformed segment the two readings are the same. -/
theorem foldr_readSegment_strict_eq {ts : List Text} (h : ∀ t ∈ ts, ¬IsMalformed t) :
    ts.foldr (readSegment true) empty = ts.foldr (readSegment false) empty := by
  induction ts with
  | nil => rfl
  | cons t ts ih =>
    obtain ⟨ht, hts⟩ := List.forall_mem_cons.mp h
    rw [List.foldr_cons, List.foldr_cons, ih hts, readSegment_strict_of_not_isMalformed ht]

/-- The first malformed segment of a list, if there is any. -/
theorem exists_first_isMalformed {ts : List Text} (h : ∃ t ∈ ts, IsMalformed t) :
    ∃ front segment back, ts = front ++ segment :: back ∧ (∀ t ∈ front, ¬IsMalformed t) ∧
      IsMalformed segment := by
  have hsome : (ts.find? (IsMalformed ·)).isSome = true := by simpa using h
  obtain ⟨segment, hfind⟩ := Option.isSome_iff_exists.mp hsome
  obtain ⟨hsegment, front, back, hts, hfront⟩ := List.find?_eq_some_iff_append.mp hfind
  exact ⟨front, segment, back, hts, by simpa using hfront, by simpa using hsegment⟩

/-- **Both readings at the first malformed segment.**  The strict one ends there with the notices of
what stands before it, and the tolerant one goes on with one more notice. -/
theorem foldr_readSegment_first {front : List Text} {segment : Text} {cause : Malformed}
    (hfront : ∀ t ∈ front, ¬IsMalformed t)
    (hsegment : readFence segment = .error (.malformed cause)) (back : List Text) :
    ∃ earlier later,
      (front ++ segment :: back).foldr (readSegment true) empty = ⟨.error cause, earlier⟩ ∧
        ((front ++ segment :: back).foldr (readSegment false) empty).notices =
          earlier ++ .malformed segment cause :: later ∧
        ∀ n ∈ earlier, ¬n.IsSkip := by
  obtain ⟨hstrict, hlenient⟩ := readSegment_of_malformed hsegment
    (back.foldr (readSegment false) empty)
  obtain ⟨fences, earlier, hread, -⟩ := foldr_readSegment_lenient front
  have hread : front.foldr (readSegment false) empty = ⟨.ok fences, earlier⟩ := hread
  refine ⟨earlier, (back.foldr (readSegment false) empty).notices, ?_, ?_, ?_⟩
  · rw [List.foldr_append, foldr_readSegment_eq_append, foldr_readSegment_strict_eq hfront, hread,
      List.foldr_cons, (readSegment_of_malformed hsegment _).1, ok_append, List.append_nil]
    rfl
  · rw [List.foldr_append, foldr_readSegment_eq_append, hread, List.foldr_cons, hlenient, ok_append]
    rfl
  · intro n hn hskip
    have hmem : n ∈ (front.foldr (readSegment false) empty).notices := by rwa [hread]
    obtain ⟨t, ht, hmalformed⟩ := exists_isSkip_iff.mp ⟨n, hmem, hskip⟩
    exact hfront t ht hmalformed

/-! ### Texts -/

theorem mem_segments_iff {t segment : Text} :
    segment ∈ segments t ↔ segment ∈ fields ';' t ∧ segment ≠ [] := by
  rw [segments, ← cut_eq_splitOn, ← fields, List.mem_filter, decide_eq_true_eq]

/-- A malformed piece between semicolons is a segment, since a malformed text is not empty. -/
theorem mem_segments_of_isMalformed {t segment : Text} (hmem : segment ∈ fields ';' t)
    (h : IsMalformed segment) : segment ∈ segments t := by
  refine mem_segments_iff.mpr ⟨hmem, ?_⟩
  rintro rfl
  exact not_isMalformed_nil h

theorem exists_mem_segments_iff {t : Text} :
    (∃ segment ∈ segments t, IsMalformed segment) ↔
      ∃ segment ∈ fields ';' t, IsMalformed segment := by
  constructor
  · rintro ⟨segment, hmem, h⟩
    exact ⟨segment, (mem_segments_iff.mp hmem).1, h⟩
  · rintro ⟨segment, hmem, h⟩
    exact ⟨segment, mem_segments_of_isMalformed hmem h, h⟩

/-- With a malformed segment, the two readings of a text part at the first one. -/
theorem readFences_of_isMalformed {t : Text} (h : ∃ segment ∈ fields ';' t, IsMalformed segment) :
    ∃ segment cause earlier later, segment ∈ segments t ∧ IsMalformed segment ∧
      readFences true t = ⟨.error cause, earlier⟩ ∧
      (readFences false t).notices = earlier ++ .malformed segment cause :: later ∧
      ∀ n ∈ earlier, ¬n.IsSkip := by
  obtain ⟨front, segment, back, hts, hfront, hsegment⟩ := exists_first_isMalformed h
  obtain ⟨cause, hcause⟩ := exists_readFence_eq_malformed_iff.mpr hsegment
  obtain ⟨earlier, later, hstrict, hlenient, hearlier⟩ :=
    foldr_readSegment_first hfront hcause back
  have hmem : segment ∈ fields ';' t := by
    rw [hts]
    exact List.mem_append_right front List.mem_cons_self
  refine ⟨segment, cause, earlier, later, mem_segments_of_isMalformed hmem hsegment, hsegment, ?_,
    ?_, hearlier⟩
  · rw [readFences, hts]
    exact hstrict
  · rw [readFences, hts]
    exact hlenient

/-- Without one, they are the same, and the tolerant one skips nothing. -/
theorem readFences_of_not_isMalformed {t : Text}
    (h : ∀ segment ∈ fields ';' t, ¬IsMalformed segment) :
    readFences true t = readFences false t ∧
      (∃ fences, (readFences true t).result = .ok fences) ∧
      ∀ n ∈ (readFences false t).notices, ¬n.IsSkip := by
  have heq : readFences true t = readFences false t := foldr_readSegment_strict_eq h
  obtain ⟨fences, notices, hread, -⟩ := readFences_lenient t
  refine ⟨heq, ⟨fences, by rw [heq, hread]⟩, ?_⟩
  intro n hn hskip
  obtain ⟨segment, hmem, hmalformed⟩ := exists_isSkip_iff.mp ⟨n, hn, hskip⟩
  exact h segment hmem hmalformed

/-- **Strict and tolerant readings differ in the failure only.**  A strict reading breaks off
exactly if the tolerant one reports a malformed segment.  It then has made the notices before the
first such report, and its cause is the one that the report ends with; the segment is malformed and
so of a known kind.  When it does not break off, the two readings are the same.  All of this hangs
on there being a malformed segment: one of an unknown kind never breaks a reading off. -/
theorem readFences_strict_iff (t : Text) :
    ((∃ cause, (readFences true t).result = .error cause) ↔
        ∃ n ∈ (readFences false t).notices, n.IsSkip) ∧
      (∀ cause, (readFences true t).result = .error cause →
        ∃ segment later, segment ∈ segments t ∧ IsMalformed segment ∧
          (readFences false t).notices =
            (readFences true t).notices ++ .malformed segment cause :: later ∧
          (∀ n ∈ (readFences true t).notices, ¬n.IsSkip) ∧
          (Notice.malformed segment cause).message =
            "Skipping malformed geometry " ++ quoted segment ++ ": " ++ cause.message) ∧
      ((∀ cause, (readFences true t).result ≠ .error cause) →
        readFences true t = readFences false t) ∧
      ((∃ cause, (readFences true t).result = .error cause) ↔
        ∃ segment ∈ segments t, IsMalformed segment) := by
  rw [exists_mem_segments_iff]
  by_cases h : ∃ segment ∈ fields ';' t, IsMalformed segment
  · obtain ⟨segment, cause, earlier, later, hmem, hsegment, hstrict, hlenient, hearlier⟩ :=
      readFences_of_isMalformed h
    have hskip : ∃ n ∈ (readFences false t).notices, n.IsSkip := by
      refine ⟨.malformed segment cause, ?_, Notice.isSkip_malformed segment cause⟩
      rw [hlenient]
      exact List.mem_append_right earlier List.mem_cons_self
    rw [hstrict]
    refine ⟨iff_of_true ⟨cause, rfl⟩ hskip, ?_, ?_, iff_of_true ⟨cause, rfl⟩ h⟩
    · intro cause' hcause
      cases hcause
      exact ⟨segment, later, hmem, hsegment, hlenient, hearlier, Notice.message_malformed _ _⟩
    · intro hnone
      exact absurd rfl (hnone cause)
  · have hno : ∀ segment ∈ fields ';' t, ¬IsMalformed segment := by
      intro segment hmem hsegment
      exact h ⟨segment, hmem, hsegment⟩
    obtain ⟨heq, ⟨fences, hok⟩, hnotices⟩ := readFences_of_not_isMalformed hno
    have hnone : ¬∃ cause, (readFences true t).result = .error cause := by
      rintro ⟨cause, hcause⟩
      rw [hok] at hcause
      cases hcause
    refine ⟨iff_of_false hnone ?_, ?_, fun _ => heq, iff_of_false hnone h⟩
    · rintro ⟨n, hn, hskip⟩
      exact hnotices n hn hskip
    · intro cause hcause
      exact absurd ⟨cause, hcause⟩ hnone

example :
    (readFences true "square|0; circle|1 ;polygon|0,0".toList).notices =
        [.unknownKind "square|0".toList "square".toList] ∧
      (readFences false "square|0; circle|1 ;polygon|0,0".toList).notices =
        [.unknownKind "square|0".toList "square".toList,
          .malformed "circle|1".toList (.circleParts "circle|1".toList),
          .malformed "polygon|0,0".toList (.vertices 1)] := by
  decide +kernel

end Geofence
