/-
Lists of fences written and read back.

A number has neither white space nor a separator in it.  So the parts of a location, of a fence and
of a list are the fields that reading finds, one kind of separator at a time, and what is read from
each part is what was written there.  Objects that are no fences leave nothing in the text, and a
list of nothing else is an empty text, whose only segment is passed over.

Main definitions:

* `Geofence.Location.IsFinite`, `Geofence.Fence.IsFinite` — all numbers are finite;
* `Geofence.Listed.object?` — the text of an entry that is no fence.

Main results:

* `Geofence.readLocation_writeLocation`, `Geofence.readFence_write` — locations and fences are read
  back;
* `Geofence.readFences_writeListed` — a list is read back without its objects, and each object makes
  one notice.
-/

import Geofence.Encoding.Writer
import Geofence.Proofs.Number.RoundTrip

set_option relaxedAutoImplicit false
set_option autoImplicit false

namespace Geofence

open Text Numeral

/-! ### Finite numbers only -/

/-- Both coordinates are finite. -/
def Location.IsFinite (p : Location Float) : Prop := p.lat.isFinite = true ∧ p.lng.isFinite = true

instance (p : Location Float) : Decidable p.IsFinite :=
  inferInstanceAs (Decidable (p.lat.isFinite = true ∧ p.lng.isFinite = true))

/-- All coordinates, and the radius of a circle, are finite. -/
def Fence.IsFinite : Fence Float → Prop
  | .circle c => c.center.IsFinite ∧ c.radius.isFinite = true
  | .polygon g => ∀ v ∈ g.vertices, v.IsFinite

instance : ∀ f : Fence Float, Decidable f.IsFinite
  | .circle c => inferInstanceAs (Decidable (c.center.IsFinite ∧ c.radius.isFinite = true))
  | .polygon g => inferInstanceAs (Decidable (∀ v ∈ g.vertices, v.IsFinite))

/-! ### Numbers and locations -/

theorem readCoordinate_renderNumber {x : Float} (h : x.isFinite = true) :
    readCoordinate (renderNumber x) = .ok x := by
  simp only [readCoordinate, readNumber?_renderNumber h, h]
  rfl

/-- A number is free of white space and of every separator that is no plain character. -/
theorem clear_renderNumber {x : Float} (h : x.isFinite = true) {sep : Char}
    (hsep : isPlain sep = false) : ∀ c ∈ renderNumber x, c ≠ sep ∧ isBlank c = false := by
  intro c hc
  have hplain := isPlain_of_mem_renderNumber h c hc
  refine ⟨?_, isBlank_of_isPlain hplain⟩
  rintro rfl
  rw [hsep] at hplain
  cases hplain

theorem writeLocation_eq_join (p : Location Float) :
    writeLocation p = join ',' [renderNumber p.lat, renderNumber p.lng] := by
  rw [join_cons_cons, join_singleton, writeLocation]

theorem clear_writeLocation {p : Location Float} (h : p.IsFinite) {sep : Char}
    (hsep : isPlain sep = false) (hcomma : ',' ≠ sep) :
    ∀ c ∈ writeLocation p, c ≠ sep ∧ isBlank c = false := by
  intro c hc
  rw [writeLocation, List.mem_append, List.mem_cons] at hc
  obtain hc | rfl | hc := hc
  · exact clear_renderNumber h.1 hsep c hc
  · exact ⟨hcomma, by decide⟩
  · exact clear_renderNumber h.2 hsep c hc

/-- A location is read back from its text. -/
theorem readLocation_writeLocation {p : Location Float} (h : p.IsFinite) :
    readLocation (writeLocation p) = .ok p := by
  have hfields : fields ',' (writeLocation p) = [renderNumber p.lat, renderNumber p.lng] := by
    rw [writeLocation_eq_join]
    apply fields_join (List.cons_ne_nil _ _)
    intro t ht
    simp only [List.mem_cons, List.not_mem_nil, or_false] at ht
    obtain rfl | rfl := ht
    · exact clear_renderNumber h.1 (by decide)
    · exact clear_renderNumber h.2 (by decide)
  simp only [readLocation, hfields, readCoordinate_renderNumber h.1,
    readCoordinate_renderNumber h.2]
  rfl

theorem mapM_readLocation {ps : List (Location Float)} (h : ∀ p ∈ ps, p.IsFinite) :
    (ps.map writeLocation).mapM readLocation = .ok ps := by
  induction ps with
  | nil => rfl
  | cons p ps ih =>
    have hp := readLocation_writeLocation (h p List.mem_cons_self)
    have hps := ih fun q hq => h q (List.mem_cons_of_mem p hq)
    rw [List.map_cons, List.mapM_cons, hp, hps]
    rfl

/-! ### Fences -/

theorem makeCircle_eq (c : Circle Float) : makeCircle c.center c.radius = .ok c := by
  simp only [makeCircle, Circle.ofRadius?, dif_pos c.radius_nonneg]

theorem makePolygon_eq (g : Polygon Float) : makePolygon g.vertices = .ok g := by
  simp only [makePolygon, Polygon.ofVertices?, dif_pos g.three_le]

namespace Fence

theorem clear_kind (f : Fence Float) :
    ∀ c ∈ f.kind, (c ≠ '|' ∧ c ≠ ';') ∧ isBlank c = false := by
  have hall : f.kind.all (fun c => (c != '|' && c != ';') && !isBlank c) = true := by
    cases f with
    | circle _ => rfl
    | polygon _ => rfl
  intro c hc
  simpa using List.all_eq_true.mp hall c hc

theorem clear_parts {f : Fence Float} (h : f.IsFinite) {sep : Char} (hsep : isPlain sep = false)
    (hcomma : ',' ≠ sep) : ∀ t ∈ f.parts, ∀ c ∈ t, c ≠ sep ∧ isBlank c = false := by
  intro t ht
  cases f with
  | circle c =>
    simp only [parts, List.mem_cons, List.not_mem_nil, or_false] at ht
    obtain rfl | rfl := ht
    · exact clear_writeLocation h.1 hsep hcomma
    · exact clear_renderNumber h.2 hsep
  | polygon g =>
    obtain ⟨v, hv, rfl⟩ := List.mem_map.mp ht
    exact clear_writeLocation (h v hv) hsep hcomma

theorem fields_write {f : Fence Float} (h : f.IsFinite) :
    fields '|' f.write = f.kind :: f.parts := by
  apply fields_join (List.cons_ne_nil _ _)
  intro t ht
  obtain rfl | ht := List.mem_cons.mp ht
  · intro c hc
    exact ⟨(f.clear_kind c hc).1.1, (f.clear_kind c hc).2⟩
  · exact clear_parts h (by decide) (by decide) t ht

theorem clear_write {f : Fence Float} (h : f.IsFinite) :
    ∀ c ∈ f.write, c ≠ ';' ∧ isBlank c = false := by
  intro c hc
  obtain rfl | ⟨t, ht, hct⟩ := mem_of_mem_join hc
  · decide
  · obtain rfl | ht := List.mem_cons.mp ht
    · exact ⟨(f.clear_kind c hct).1.2, (f.clear_kind c hct).2⟩
    · exact clear_parts h (by decide) (by decide) t ht c hct

theorem write_ne_nil (f : Fence Float) : f.write ≠ [] := by
  have hkind : f.kind ≠ [] := by cases f <;> exact List.cons_ne_nil _ _
  exact join_cons_ne_nil '|' hkind f.parts

end Fence

theorem readCircle_parts {c : Circle Float} (h : (Fence.circle c).IsFinite) (segment : Text) :
    readCircle segment (Fence.circle c).parts = .ok c := by
  simp only [Fence.parts, readCircle, readLocation_writeLocation h.1,
    readCoordinate_renderNumber h.2]
  exact makeCircle_eq c

theorem readPolygon_parts {g : Polygon Float} (h : (Fence.polygon g).IsFinite) :
    readPolygon (Fence.polygon g).parts = .ok g := by
  simp only [Fence.parts, readPolygon, mapM_readLocation h]
  exact makePolygon_eq g

/-- **A fence is read back from its text.** -/
theorem readFence_write {f : Fence Float} (h : f.IsFinite) : readFence f.write = .ok f := by
  simp only [readFence, Fence.fields_write h]
  cases f with
  | circle c =>
    have hkind : (Fence.circle c).kind = circleKind := rfl
    rw [if_pos hkind, readCircle_parts h]
    rfl
  | polygon g =>
    have hkind : (Fence.polygon g).kind = polygonKind := rfl
    have hother : polygonKind ≠ circleKind := by decide
    rw [hkind, if_neg hother, if_pos rfl, readPolygon_parts h]
    rfl

/-! ### Lists -/

/-- Reading the texts of fences in front of other segments puts the fences in front. -/
theorem foldr_readSegment (strict : Bool) {fs : List (Fence Float)} (h : ∀ f ∈ fs, f.IsFinite) :
    (fs.map Fence.write).foldr (readSegment strict) ⟨.ok [], []⟩ = ⟨.ok fs, []⟩ := by
  induction fs with
  | nil => rfl
  | cons f fs ih =>
    -- no segment is empty or malformed, so a strict reading goes on as well
    have hf := readFence_write (h f List.mem_cons_self)
    have hempty : f.write.isEmpty = false := List.isEmpty_eq_false_iff.mpr f.write_ne_nil
    rw [List.map_cons, List.foldr_cons, ih fun g hg => h g (List.mem_cons_of_mem f hg)]
    simp only [readSegment, hempty, hf]
    rfl

theorem fields_writeFences {fs : List (Fence Float)} (hne : fs ≠ []) (h : ∀ f ∈ fs, f.IsFinite) :
    fields ';' (writeFences fs) = fs.map Fence.write := by
  apply fields_join
  · simpa using hne
  · intro t ht
    obtain ⟨f, hf, rfl⟩ := List.mem_map.mp ht
    exact Fence.clear_write (h f hf)

theorem readFences_writeFences (strict : Bool) {fs : List (Fence Float)}
    (h : ∀ f ∈ fs, f.IsFinite) : readFences strict (writeFences fs) = ⟨.ok fs, []⟩ := by
  by_cases hne : fs = []
  · -- the empty text has one segment, and that one is empty
    subst hne
    rfl
  · rw [readFences, fields_writeFences hne h, foldr_readSegment strict h]

/-! ### Lists with other objects -/

/-- The text of an entry that is no fence. -/
def Listed.object? : Listed → Option Text
  | .fence _ => none
  | .object text => some text

/-- A list is written like its fences alone. -/
theorem writeListed_eq (entries : List Listed) :
    writeListed entries = writeFences (entries.filterMap Listed.fence?) := by
  rw [writeListed, writeFences, List.map_filterMap]
  rfl

/-- Each object makes one notice, in order. -/
theorem writeNotices_eq (entries : List Listed) :
    writeNotices entries = (entries.filterMap Listed.object?).map .unsupported := by
  rw [writeNotices, List.map_filterMap]
  congr 1
  funext e
  cases e <;> rfl

theorem level_of_mem_writeNotices {entries : List Listed} {n : Notice}
    (h : n ∈ writeNotices entries) : n.level = "ERROR" := by
  rw [writeNotices_eq] at h
  obtain ⟨text, -, rfl⟩ := List.mem_map.mp h
  rfl

/-- **A list of fences and other objects is read back as its fences**, in order and bit by bit, and
without a notice, whether or not the reading is strict.  Writing it makes one error for each of the
other objects and none besides. -/
theorem readFences_writeListed (strict : Bool) {entries : List Listed}
    (h : ∀ f ∈ entries.filterMap Listed.fence?, f.IsFinite) :
    readFences strict (writeListed entries) = ⟨.ok (entries.filterMap Listed.fence?), []⟩ ∧
      writeNotices entries = (entries.filterMap Listed.object?).map .unsupported ∧
      ∀ n ∈ writeNotices entries, n.level = "ERROR" := by
  refine ⟨?_, writeNotices_eq entries, fun n hn => level_of_mem_writeNotices hn⟩
  rw [writeListed_eq]
  exact readFences_writeFences strict h

/-- A circle of the least positive radius round a location with a negative zero. -/
def speck : Fence Float := .circle ⟨⟨-0.0, 179.9⟩, 5e-324, by decide +kernel⟩

/-- A polygon with the coordinates of all layouts. -/
def shard : Fence Float :=
  .polygon ⟨[⟨-0.0, 0.1⟩, ⟨1.7976931348623157e308, -77.03653⟩, ⟨120, 2.5e-7⟩], by decide⟩

theorem speck_and_shard_read_back :
    (∀ f ∈ [Listed.object ['7'], .fence speck, .object [], .fence shard].filterMap Listed.fence?,
        f.IsFinite) ∧
      readFences true
          (writeListed [.object ['7'], .fence speck, .object [], .fence shard]) =
        ⟨.ok [speck, shard], []⟩ ∧
      writeNotices [.object ['7'], .fence speck, .object [], .fence shard] =
        [.unsupported ['7'], .unsupported []] := by
  have h : ∀ f ∈ [Listed.object ['7'], .fence speck, .object [], .fence shard].filterMap
      Listed.fence?, f.IsFinite := by
    decide +kernel
  have hread := readFences_writeListed true h
  exact ⟨h, hread.1, hread.2.1⟩

end Geofence
