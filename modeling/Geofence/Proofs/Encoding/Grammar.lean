/-
The grammar of encoded fences.

A list of fences is cut at its semicolons into segments, and a segment at its bars into parts, with
the white space round each taken off.  What the parts of a circle and of a polygon have to be is said
here without the reader: a number is a numeral of a finite value, and a location two numbers with a
single comma between them.  The reader accepts exactly these segments, and the fence it gives has
exactly these numbers.

Main definitions:

* `Geofence.IsNumber`, `Geofence.IsLocation`, `Geofence.IsFence` — what a text has to be to stand for
  a number, a location or a fence;
* `Geofence.InGrammar` — being a segment that stands for some fence;
* `Geofence.segments` — the segments of a list;
* `Geofence.Warns` — a warning about a segment.

Main results:

* `Geofence.readFence_eq_ok_iff` — the segments that are accepted, with their fences;
* `Geofence.IsFence.isFinite` — a fence of a segment has finite numbers only;
* `Geofence.readFences_lenient` — a whole list, read with tolerance;
* `Geofence.isFinite_of_mem_readFences` — whatever is read has finite numbers only;
* `Geofence.readFences_eq_scan`, `Geofence.fields_eq_scan_of_mem` — the same by scanning for
  separators with the white space round them.
-/

import Geofence.Proofs.Encoding.RoundTrip
import Geofence.Proofs.Success
import Geofence.Proofs.Text.Separators

set_option relaxedAutoImplicit false
set_option autoImplicit false

namespace Geofence

open Text

/-! ### Numbers and locations -/

/-- The text `t`, white space at its ends apart, is a numeral of the finite number `x`. -/
def IsNumber (t : Text) (x : Float) : Prop :=
  readNumber? (trim t) = some x ∧ x.isFinite = true

/-- The text `t` is two numbers with a comma between them, and holds no other comma. -/
def IsLocation (t : Text) (p : Location Float) : Prop :=
  ∃ lat lng, (t = lat ++ ',' :: lng ∧ ',' ∉ lat ∧ ',' ∉ lng) ∧
    IsNumber lat p.lat ∧ IsNumber lng p.lng

theorem readNumber?_trim (t : Text) : readNumber? (trim t) = readNumber? t := by
  rw [readNumber?, readNumber?, Numeral.ofText?, Numeral.ofText?, trim_trim]

theorem isNumber_trim_iff {t : Text} {x : Float} : IsNumber (trim t) x ↔ IsNumber t x := by
  rw [IsNumber, IsNumber, trim_trim]

/-- The numbers that are accepted. -/
theorem readCoordinate_eq_ok_iff {t : Text} {x : Float} :
    readCoordinate t = .ok x ↔ IsNumber t x := by
  rw [IsNumber, readNumber?_trim, readCoordinate]
  cases readNumber? t with
  | none => simp
  | some y =>
    by_cases hy : y.isFinite = true
    · simp only [hy, if_true, Except.ok.injEq, Option.some.injEq]
      exact ⟨fun h => ⟨h, h ▸ hy⟩, And.left⟩
    · simp only [hy, if_false, Option.some.injEq, reduceCtorEq, false_iff, not_and, Bool.false_eq_true]
      rintro rfl
      exact hy

/-- The locations that are accepted. -/
theorem readLocation_eq_ok_iff {t : Text} {p : Location Float} :
    readLocation t = .ok p ↔ IsLocation t p := by
  simp only [IsLocation, ← cut_eq_pair_iff]
  rw [readLocation, fields]
  constructor
  · intro h
    split at h
    next lat' lng' hcut =>
      obtain ⟨lat, rest, hlat, rfl, hrest⟩ := List.map_eq_cons_iff.mp hcut
      obtain ⟨lng, rest, hlng, rfl, hnil⟩ := List.map_eq_cons_iff.mp hrest
      rw [List.map_eq_nil_iff.mp hnil] at hlng
      rw [hlng] at hlat
      obtain ⟨x, hx, h⟩ := bind_eq_ok_iff.mp h
      obtain ⟨y, hy, h⟩ := bind_eq_ok_iff.mp h
      cases h
      rw [readCoordinate_eq_ok_iff, isNumber_trim_iff] at hx hy
      exact ⟨lat, lng, hlat, hx, hy⟩
    next => cases h
  · rintro ⟨lat, lng, hcut, hlat, hlng⟩
    rw [← isNumber_trim_iff, ← readCoordinate_eq_ok_iff] at hlat hlng
    simp only [hcut, List.map_cons, List.map_nil, hlat, hlng]
    rfl

/-! ### Fences -/

/-- The segment stands for the fence: it is the kind of a circle, a location and a number between
bars, or the kind of a polygon and a location for each vertex.  That a radius is not negative and
that the vertices are at least three is part of what circles and polygons are. -/
inductive IsFence (segment : Text) : Fence Float → Prop
  | circle {center radius : Text} {c : Circle Float}
      (hparts : (segment.splitOn '|').map trim = [circleKind, center, radius])
      (hcenter : IsLocation center c.center) (hradius : IsNumber radius c.radius) :
      IsFence segment (.circle c)
  | polygon {parts : List Text} {g : Polygon Float}
      (hparts : (segment.splitOn '|').map trim = polygonKind :: parts)
      (hvertices : List.Forall₂ IsLocation parts g.vertices) : IsFence segment (.polygon g)

theorem makeCircle_eq_ok_iff {center : Location Float} {radius : Float} {c : Circle Float} :
    makeCircle center radius = .ok c ↔ c.center = center ∧ c.radius = radius := by
  obtain ⟨center', radius', hnonneg⟩ := c
  by_cases h : 0 ≤ radius
  · simp only [makeCircle, Circle.ofRadius?, dif_pos h, Except.ok.injEq, Circle.mk.injEq]
    exact and_congr eq_comm eq_comm
  · simp only [makeCircle, Circle.ofRadius?, dif_neg h, reduceCtorEq, false_iff]
    rintro ⟨-, rfl⟩
    exact h hnonneg

theorem makePolygon_eq_ok_iff {vertices : List (Location Float)} {g : Polygon Float} :
    makePolygon vertices = .ok g ↔ g.vertices = vertices := by
  obtain ⟨vertices', hthree⟩ := g
  by_cases h : 3 ≤ vertices.length
  · simp only [makePolygon, Polygon.ofVertices?, dif_pos h, Except.ok.injEq, Polygon.mk.injEq]
    exact eq_comm
  · simp only [makePolygon, Polygon.ofVertices?, dif_neg h, reduceCtorEq, false_iff]
    rintro rfl
    exact h hthree

theorem readCircle_eq_ok_iff {segment : Text} {parts : List Text} {c : Circle Float} :
    readCircle segment parts = .ok c ↔
      ∃ center radius, parts = [center, radius] ∧ IsLocation center c.center ∧
        IsNumber radius c.radius := by
  constructor
  · intro h
    unfold readCircle at h
    split at h
    next center radius =>
      obtain ⟨p, hp, h⟩ := bind_eq_ok_iff.mp h
      obtain ⟨x, hx, h⟩ := bind_eq_ok_iff.mp h
      obtain ⟨rfl, rfl⟩ := makeCircle_eq_ok_iff.mp h
      exact ⟨center, radius, rfl, readLocation_eq_ok_iff.mp hp, readCoordinate_eq_ok_iff.mp hx⟩
    next => cases h
  · rintro ⟨center, radius, rfl, hcenter, hradius⟩
    simp only [readCircle, readLocation_eq_ok_iff.mpr hcenter,
      readCoordinate_eq_ok_iff.mpr hradius]
    exact makeCircle_eq_ok_iff.mpr ⟨rfl, rfl⟩

theorem readPolygon_eq_ok_iff {parts : List Text} {g : Polygon Float} :
    readPolygon parts = .ok g ↔ List.Forall₂ IsLocation parts g.vertices := by
  have hparts : ∀ vs, parts.mapM readLocation = .ok vs ↔ List.Forall₂ IsLocation parts vs := by
    intro vs
    simp only [mapM_eq_ok_iff, readLocation_eq_ok_iff]
  rw [readPolygon, ← hparts, bind_eq_ok_iff]
  constructor
  · rintro ⟨vs, hvs, h⟩
    rw [hvs, makePolygon_eq_ok_iff.mp h]
  · intro h
    exact ⟨g.vertices, h, makePolygon_eq_ok_iff.mpr rfl⟩

/-- **The segments that are accepted**, with their fences. -/
theorem readFence_eq_ok_iff {segment : Text} {f : Fence Float} :
    readFence segment = .ok f ↔ IsFence segment f := by
  have hkinds : polygonKind ≠ circleKind := by decide
  rw [readFence, fields, cut_eq_splitOn]
  constructor
  · intro h
    split at h
    next => cases h
    next kind parts hparts =>
      split_ifs at h with hcircle hpolygon
      · obtain ⟨c, hc, rfl⟩ := map_eq_ok_iff.mp (mapError_eq_ok_iff.mp h)
        obtain ⟨center, radius, rfl, hcenter, hradius⟩ := readCircle_eq_ok_iff.mp hc
        rw [hcircle] at hparts
        exact .circle hparts hcenter hradius
      · obtain ⟨g, hg, rfl⟩ := map_eq_ok_iff.mp (mapError_eq_ok_iff.mp h)
        rw [hpolygon] at hparts
        exact .polygon hparts (readPolygon_eq_ok_iff.mp hg)
  · intro h
    cases h with
    | @circle center radius c hparts hcenter hradius =>
      have hc : readCircle segment [center, radius] = .ok c :=
        readCircle_eq_ok_iff.mpr ⟨center, radius, rfl, hcenter, hradius⟩
      simp only [hparts, if_true, hc]
      rfl
    | @polygon parts g hparts hvertices =>
      simp only [hparts, if_neg hkinds, if_true, readPolygon_eq_ok_iff.mpr hvertices]
      rfl

/-- Standing for some fence. -/
def InGrammar (segment : Text) : Prop := ∃ f, IsFence segment f

theorem inGrammar_iff {segment : Text} :
    InGrammar segment ↔ (readFence segment).toOption.isSome = true := by
  rw [InGrammar]
  simp only [← readFence_eq_ok_iff]
  cases readFence segment with
  | error fault => simp [Except.toOption]
  | ok f => simp [Except.toOption]

instance : DecidablePred InGrammar := fun _ => decidable_of_iff _ inGrammar_iff.symm

/-- A segment stands for one fence only. -/
theorem IsFence.unique {segment : Text} {f g : Fence Float} (hf : IsFence segment f)
    (hg : IsFence segment g) : f = g := by
  have h := (readFence_eq_ok_iff.mpr hf).symm.trans (readFence_eq_ok_iff.mpr hg)
  exact Except.ok.inj h

theorem IsLocation.isFinite {t : Text} {p : Location Float} (h : IsLocation t p) : p.IsFinite := by
  obtain ⟨lat, lng, -, hlat, hlng⟩ := h
  exact ⟨hlat.2, hlng.2⟩

theorem isFinite_of_forall₂ {ts : List Text} {ps : List (Location Float)}
    (h : List.Forall₂ IsLocation ts ps) : ∀ p ∈ ps, p.IsFinite := by
  induction h with
  | nil => exact List.forall_mem_nil _
  | cons hp _ ih => exact List.forall_mem_cons.mpr ⟨hp.isFinite, ih⟩

/-- A fence of a segment has finite numbers only. -/
theorem IsFence.isFinite {segment : Text} {f : Fence Float} (h : IsFence segment f) :
    f.IsFinite := by
  cases h with
  | circle _ hcenter hradius => exact ⟨hcenter.isFinite, hradius.2⟩
  | polygon _ hvertices => exact isFinite_of_forall₂ hvertices

/-! ### Lists of fences -/

/-- The segments of a list: what stands between its semicolons, without the white space at the ends
and without the segments that are nothing else. -/
def segments (t : Text) : List Text := ((t.splitOn ';').map trim).filter (· ≠ [])

/-- The notice is a warning about the segment. -/
def Warns (segment : Text) (n : Notice) : Prop :=
  n.level = "WARNING" ∧
    ((∃ kind, n = .unknownKind segment kind) ∨ ∃ cause, n = .malformed segment cause)

/-- What a tolerant reading makes of one segment that is not empty. -/
theorem readSegment_cases {segment : Text} (hne : segment ≠ []) (rest : Reading) :
    (∃ f, IsFence segment f ∧ readSegment false segment rest = rest.consFence f) ∨
      (¬InGrammar segment ∧
        ∃ n, Warns segment n ∧ readSegment false segment rest = rest.consNotice n) := by
  have hempty : segment.isEmpty = false := List.isEmpty_eq_false_iff.mpr hne
  cases h : readFence segment with
  | ok f =>
    refine .inl ⟨f, readFence_eq_ok_iff.mp h, ?_⟩
    simp [readSegment, hempty, h]
  | error fault =>
    refine .inr ⟨?_, ?_⟩
    · rw [inGrammar_iff, h]
      simp [Except.toOption]
    · cases fault with
      | unknownKind kind =>
        refine ⟨.unknownKind segment kind, ⟨rfl, .inl ⟨kind, rfl⟩⟩, ?_⟩
        simp [readSegment, hempty, h]
      | malformed cause =>
        refine ⟨.malformed segment cause, ⟨rfl, .inr ⟨cause, rfl⟩⟩, ?_⟩
        simp [readSegment, hempty, h]

/-- Segments read one by one with tolerance: fences for those of the grammar, and warnings for the
others. -/
theorem foldr_readSegment_lenient (ts : List Text) :
    ∃ fences notices, ts.foldr (readSegment false) ⟨.ok [], []⟩ = ⟨.ok fences, notices⟩ ∧
      List.Forall₂ IsFence ((ts.filter (· ≠ [])).filter (InGrammar ·)) fences ∧
      List.Forall₂ Warns ((ts.filter (· ≠ [])).filter (¬InGrammar ·)) notices := by
  induction ts with
  | nil => exact ⟨[], [], rfl, .nil, .nil⟩
  | cons t ts ih =>
    obtain ⟨fences, notices, hrest, hfences, hnotices⟩ := ih
    rw [List.foldr_cons, hrest]
    by_cases hne : t = []
    · subst hne
      exact ⟨fences, notices, rfl, by simpa using hfences, by simpa using hnotices⟩
    · have hkept : (t :: ts).filter (· ≠ []) = t :: ts.filter (· ≠ []) :=
        List.filter_cons_of_pos (by simpa using hne)
      rw [hkept]
      obtain ⟨f, hf, hread⟩ | ⟨hnot, n, hn, hread⟩ := readSegment_cases hne ⟨.ok fences, notices⟩
      · have hin : InGrammar t := ⟨f, hf⟩
        refine ⟨f :: fences, notices, hread, ?_, ?_⟩
        · rw [List.filter_cons_of_pos (by simpa using hin)]
          exact .cons hf hfences
        · rw [List.filter_cons_of_neg (by simpa using hin)]
          exact hnotices
      · refine ⟨fences, n :: notices, hread, ?_, ?_⟩
        · rw [List.filter_cons_of_neg (by simpa using hnot)]
          exact hfences
        · rw [List.filter_cons_of_pos (by simpa using hnot)]
          exact .cons hn hnotices

/-- **A tolerant reading accepts exactly the grammar.**  Whatever the text, a list of fences is
given: it has the fence of each segment of the grammar, in order and with the numbers that stand
there, and each other segment gives one warning, in order. -/
theorem readFences_lenient (t : Text) :
    ∃ fences notices, readFences false t = ⟨.ok fences, notices⟩ ∧
      List.Forall₂ IsFence ((segments t).filter (InGrammar ·)) fences ∧
      List.Forall₂ Warns ((segments t).filter (¬InGrammar ·)) notices := by
  have hcut : fields ';' t = (t.splitOn ';').map trim := by rw [fields, cut_eq_splitOn]
  obtain ⟨fences, notices, hread, hfences, hnotices⟩ :=
    foldr_readSegment_lenient ((t.splitOn ';').map trim)
  rw [← hcut] at hread
  exact ⟨fences, notices, hread, hfences, hnotices⟩

example :
    (segments " circle | 1 , 2 | 3 ;; square|0,0 ;polygon|0,0|0,1".toList).filter (InGrammar ·) =
      ["circle | 1 , 2 | 3".toList] := by
  decide +kernel

/-! ### Finite numbers -/

/-- What one more segment adds is its fence. -/
theorem result_readSegment {strict : Bool} {segment : Text} {rest : Reading}
    {fences : List (Fence Float)} (h : (readSegment strict segment rest).result = .ok fences) :
    rest.result = .ok fences ∨
      ∃ f fences', IsFence segment f ∧ rest.result = .ok fences' ∧ fences = f :: fences' := by
  rw [readSegment] at h
  by_cases hempty : segment.isEmpty
  · rw [if_pos hempty] at h
    exact .inl h
  · rw [if_neg hempty] at h
    split at h
    next f hf =>
      obtain ⟨fences', hrest, rfl⟩ := map_eq_ok_iff.mp h
      exact .inr ⟨f, fences', readFence_eq_ok_iff.mp hf, hrest, rfl⟩
    next => exact .inl h
    next =>
      cases strict with
      | true => cases h
      | false => exact .inl h

/-- **Whatever is read has finite numbers only**, also when the reading is strict. -/
theorem isFinite_of_mem_readFences {strict : Bool} {t : Text} {fences : List (Fence Float)}
    (h : (readFences strict t).result = .ok fences) : ∀ f ∈ fences, f.IsFinite := by
  rw [readFences] at h
  generalize fields ';' t = ts at h
  induction ts generalizing fences with
  | nil =>
    cases h
    exact List.forall_mem_nil _
  | cons segment rest ih =>
    rw [List.foldr_cons] at h
    obtain hrest | ⟨f, fences', hf, hrest, rfl⟩ := result_readSegment h
    · exact ih hrest
    · exact List.forall_mem_cons.mpr ⟨hf.isFinite, ih hrest⟩

/-! ### Reading by scanning -/

/-- The segments may be found by one scan of the trimmed text. -/
theorem readFences_eq_scan (strict : Bool) (t : Text) :
    readFences strict t = (scan ';' (trim t)).foldr (readSegment strict) ⟨.ok [], []⟩ := by
  rw [scan_trim (by decide), readFences]

theorem trim_eq_self_of_mem_scan {sep : Char} (hsep : isBlank sep = false) {t piece : Text}
    (h : piece ∈ scan sep (trim t)) : trim piece = piece := by
  rw [scan_trim hsep, fields] at h
  obtain ⟨u, -, rfl⟩ := List.mem_map.mp h
  exact trim_trim u

/-- The parts of a segment may be found by scanning it as it is, and those of a location by scanning
a part as it is. -/
theorem fields_eq_scan_of_mem {t segment part : Text} (hsegment : segment ∈ scan ';' (trim t))
    (hpart : part ∈ fields '|' segment) :
    fields '|' segment = scan '|' segment ∧ fields ',' part = scan ',' part := by
  have htrim := trim_eq_self_of_mem_scan (by decide) hsegment
  have hparts : fields '|' segment = scan '|' segment := by
    rw [← scan_trim (by decide), htrim]
  rw [← scan_trim (by decide)] at hpart
  have htrim' := trim_eq_self_of_mem_scan (by decide) hpart
  refine ⟨hparts, ?_⟩
  rw [← scan_trim (by decide), htrim']

end Geofence
