/-
Tables of sample fixes.

The identifier of a sample fix is the name of its cluster and its number, with a dash between them,
and the name may be any text.  Loading the table takes white space off both ends of an identifier.
That takes off something of the name at most, since neither the dash nor the number has any; so an
identifier still ends with the dash and the number, and is told by them from all others with the
same name.  The coordinates are in fixed form, and every row of the table gives a fix.

Main definitions:

* `Geofence.Fix.reread` — the fix that is loaded from the row of a fix;
* `Geofence.Cluster.IsShownBy` — a row shows the middle of a cluster.

Main results:

* `Geofence.trim_sampleId` — the identifier that is loaded;
* `Geofence.loadBytes_sampleTable` — a table of fixes is loaded;
* `Geofence.loadBytes_sampleTable_overlong` — or refused, if an identifier is too long for a cell;
* `Geofence.loadBytes_sample` — the sample of a cluster without spread.
-/

import Geofence.Proofs.Number.Fixed
import Geofence.Proofs.Sample.Place
import Geofence.Proofs.Text.Fields
import Geofence.Proofs.Track.Load

set_option relaxedAutoImplicit false
set_option autoImplicit false

namespace Geofence

open Text Numeral

/-! ### Identifiers -/

theorem isBlank_of_mem_dashed {number : ℕ} {c : Char} (h : c ∈ '-' :: Nat.toDigits 10 number) :
    isBlank c = false := by
  obtain rfl | h := List.mem_cons.mp h
  · decide
  · exact isBlank_of_isPlain (isPlain_of_digits (Digits.toDigits number) c h)

/-- **The identifier that is loaded** has lost white space at the front of the name only. -/
theorem trim_sampleId (name : Text) (number : ℕ) :
    trim (sampleId name number) = name.dropWhile isBlank ++ '-' :: Nat.toDigits 10 number := by
  have hfront : (sampleId name number).dropWhile isBlank =
      name.dropWhile isBlank ++ '-' :: Nat.toDigits 10 number := by
    rw [sampleId, List.dropWhile_append]
    split
    next hempty =>
      rw [List.isEmpty_iff.mp hempty, List.nil_append]
      exact List.dropWhile_cons_of_neg (by decide)
    next => rfl
  rw [trim, trimBy, hfront, dropWhile_eq_self, List.reverse_reverse]
  intro c hc
  rw [List.head?_reverse, List.getLast?_append_cons] at hc
  exact isBlank_of_mem_dashed (List.mem_of_getLast? hc)

theorem toDigits_injective : Function.Injective (Nat.toDigits 10) :=
  Function.LeftInverse.injective ofDigits_toDigits

/-- The identifiers that are loaded tell the numbers. -/
theorem trim_sampleId_injective (name : Text) :
    Function.Injective fun number => trim (sampleId name number) := by
  intro m n h
  simp only [trim_sampleId, List.append_cancel_left_eq, List.cons.injEq, true_and] at h
  exact toDigits_injective h

theorem length_sampleId_le {name : Text} {number k : ℕ} (hk : 0 < k) (h : number < 10 ^ k) :
    (sampleId name number).length ≤ name.length + 1 + k := by
  have hdigits := (Nat.length_toDigits_le_iff (by decide) hk).mpr h
  simp only [sampleId, List.length_append, List.length_cons]
  omega

/-! ### Rows -/

/-- A fix that can be loaded from its row: it has finite coordinates, and an identifier that is not
blank and fits in a cell. -/
structure Fix.IsSound (f : Fix) : Prop where
  latitude : f.latitude.isFinite = true
  longitude : f.longitude.isFinite = true
  id_ne_nil : trim f.id ≠ []
  fits : f.id.length ≤ Csv.cellLimit

/-- The fix that is loaded from the row of a fix: its identifier without white space at its ends,
and the numbers that its coordinates are rounded to. -/
def Fix.reread (f : Fix) : Fix := ⟨trim f.id, rounded 7 f.latitude, rounded 7 f.longitude⟩

theorem fixOfRow?_sampleRow {f : Fix} (h : f.IsSound) (number : ℕ) :
    fixOfRow? fixColumns number (sampleRow f) = some f.reread := by
  have hfix : IsFix fixColumns (sampleRow f, number) f.reread := by
    refine ⟨?_, ?_, .inl ⟨f.id, cellOf?_eq_some_iff.mp rfl, h.id_ne_nil, rfl⟩⟩
    · exact coordinate_eq_some_iff.mp (readNumber?_renderFixed (by decide) h.latitude)
    · exact coordinate_eq_some_iff.mp (readNumber?_renderFixed (by decide) h.longitude)
  exact fixOfRow?_eq_some_iff.mpr hfix

theorem rowFits_sampleRow {f : Fix} (h : f.IsSound) : Csv.rowFits (sampleRow f) = true := by
  have hnumber : ∀ x : Float, x.isFinite = true → (renderFixed 7 x).length ≤ Csv.cellLimit :=
    fun x hx => (length_renderFixed_le hx).trans (by decide)
  rw [Csv.rowFits_iff]
  simp only [sampleRow, List.forall_mem_cons]
  exact ⟨h.fits, hnumber _ h.latitude, hnumber _ h.longitude, List.forall_mem_nil _⟩

/-- **A table of fixes is loaded**: every row gives its fix, and none is skipped. -/
theorem loadBytes_sampleTable {fixes : List Fix} (h : ∀ f ∈ fixes, f.IsSound) :
    loadBytes (String.ofList (sampleTable fixes)).toUTF8 =
      .ok ⟨fixes.map Fix.reread, fixes.length, fixColumns⟩ := by
  have hfit : ∀ row ∈ fixColumns :: fixes.map sampleRow,
      ∀ cell ∈ row, cell.length ≤ Csv.cellLimit := by
    intro row hrow
    rw [← Csv.rowFits_iff]
    obtain rfl | hrow := List.mem_cons.mp hrow
    · decide +kernel
    · obtain ⟨f, hf, rfl⟩ := List.mem_map.mp hrow
      exact rowFits_sampleRow (h f hf)
  have hsheet : Csv.Sheet.ofText (sampleTable fixes) =
      ⟨fixColumns :: fixes.map sampleRow, false⟩ :=
    Csv.sheet_of_written (Csv.written_write _) hfit
  rw [loadBytes_toUTF8, loadText, hsheet, loadSheet_eq_ok (by decide) (by decide),
    intakeOf_map fun f hf number => fixOfRow?_sampleRow (h f hf) number]

/-- An identifier that is too long for a cell makes the table unreadable. -/
theorem loadBytes_sampleTable_overlong {fixes : List Fix} {f : Fix} (hf : f ∈ fixes)
    (h : Csv.cellLimit < f.id.length) :
    loadBytes (String.ofList (sampleTable fixes)).toUTF8 = .error .overlongCell := by
  have hrow : Csv.rowFits (sampleRow f) = false := by
    rw [Bool.eq_false_iff, Ne, Csv.rowFits_iff]
    exact fun hfit => (hfit f.id List.mem_cons_self).not_gt h
  have hall : (fixColumns :: fixes.map sampleRow).all Csv.rowFits = false := by
    rw [List.all_eq_false]
    exact ⟨_, List.mem_cons_of_mem _ (List.mem_map_of_mem hf), Bool.eq_false_iff.mp hrow⟩
  have hsheet : Csv.Sheet.ofText (sampleTable fixes) =
      ⟨fixColumns :: (fixes.map sampleRow).takeWhile Csv.rowFits, true⟩ := by
    rw [Csv.Sheet.ofText, sampleTable, Csv.rows_of_written (Csv.written_write _), hall,
      List.takeWhile_cons_of_pos (by decide +kernel), Bool.not_false]
  rw [loadBytes_toUTF8, loadText, hsheet]
  rfl

/-! ### Samples -/

/-- The row shows the middle of the cluster: the latitude to seven places, and the longitude, up to
full turns, on the globe. -/
structure Cluster.IsShownBy (c : Cluster) (row : Csv.Row) : Prop where
  latitude : ∃ cell, IsCellOf fixColumns row latitudeColumn cell ∧
    ∃ k : ℤ, Denotes cell (k / 10 ^ 7) ∧ |k / 10 ^ 7 - Binary64.value c.lat| ≤ 5 / 10 ^ 8
  longitude : |Binary64.value c.lng| ≤ 540 →
    ∃ cell, IsCellOf fixColumns row longitudeColumn cell ∧
      ∃ q : ℚ, Denotes cell q ∧ |q| ≤ 180 ∧
        ∃ k : ℤ, |q - (Binary64.value c.lng + 360 * k)| ≤ 5 / 10 ^ 8

/-- What holds of every draw holds of each of several, one after another. -/
theorem forall₂_run_mapM {σ α β : Type} {R : α → β → Prop} {draw : α → StateM σ β}
    (h : ∀ x s, R x ((draw x).run s).1) (xs : List α) (s : σ) :
    List.Forall₂ R xs ((xs.mapM draw).run s).1 := by
  induction xs generalizing s with
  | nil => exact .nil
  | cons x xs ih =>
    rw [List.mapM_cons]
    exact .cons (h x s) (ih ((draw x).run s).2)

section NoSpread

variable {g : Generator} {c : Cluster}

/-- **The sample of a cluster without spread** has its fixes on the middle of the cluster. -/
theorem exists_placed_sample (hg : g.IsSound) (hspread : c.spread == 0)
    (hlat : c.lat.isFinite = true) (hlng : c.lng.isFinite = true) (rows : ℕ) (seed : ℤ) :
    ∃ fixes, sampleFixes rows seed [c] g = .ok fixes ∧ fixes.length = rows ∧
      ∀ index, ∀ h : index < fixes.length, c.IsPlaced index fixes[index] := by
  have hplaced := forall₂_run_mapM (isPlaced_sampleFix hg hspread hlat hlng) (List.range rows)
    (g.seeded seed)
  have hlength := hplaced.length_eq.symm.trans List.length_range
  refine ⟨_, rfl, hlength, fun index h => ?_⟩
  have hget := hplaced.get (hplaced.length_eq ▸ h) h
  rwa [List.get_eq_getElem, List.get_eq_getElem, List.getElem_range] at hget

section Placed

variable {index : ℕ} {f : Fix}

theorem Cluster.IsPlaced.isFinite_longitude (h : c.IsPlaced index f) :
    f.longitude.isFinite = true := by
  obtain ⟨lng, hlng, -, hwrap⟩ := h.longitude
  rw [hwrap]
  exact isFinite_wrapLongitude hlng

theorem Cluster.IsPlaced.isShownBy (h : c.IsPlaced index f) : c.IsShownBy (sampleRow f) := by
  have hhalf : (1 / 2 / 10 ^ 7 : ℚ) = 5 / 10 ^ 8 := by norm_num
  constructor
  · refine ⟨_, cellOf?_eq_some_iff.mp rfl, ?_⟩
    obtain ⟨k, hk⟩ := exists_fixedValue_eq 7 f.latitude
    have hnear := abs_fixedValue_sub_le 7 f.latitude
    rw [hk, h.latitude.2, hhalf] at hnear
    exact ⟨k, hk ▸ denotes_renderFixed (by decide) h.latitude.1, hnear⟩
  · intro hwide
    refine ⟨_, cellOf?_eq_some_iff.mp rfl, _,
      denotes_renderFixed (by decide) h.isFinite_longitude, ?_⟩
    obtain ⟨lng, hlng, hvalue, hwrap⟩ := h.longitude
    rw [← hvalue] at hwide
    obtain ⟨hglobe, k, hk⟩ := value_wrapLongitude hlng hwide
    rw [← hwrap] at hglobe hk
    have hnear := abs_fixedValue_sub_le 7 f.longitude
    rw [hk, hvalue, hhalf] at hnear
    exact ⟨by exact_mod_cast abs_fixedValue_le (n := 180) (by exact_mod_cast hglobe), k, hnear⟩

theorem Cluster.IsPlaced.isSound (h : c.IsPlaced index f) {k : ℕ} (hk : 0 < k)
    (hname : c.name.length + 1 + k ≤ Csv.cellLimit) (hindex : index + 1 < 10 ^ k) :
    f.IsSound := by
  refine ⟨h.latitude.1, h.isFinite_longitude, ?_, ?_⟩
  · rw [h.id, trim_sampleId]
    exact List.append_ne_nil_of_right_ne_nil _ (List.cons_ne_nil _ _)
  · rw [h.id]
    exact (length_sampleId_le hk hindex).trans hname

end Placed

/-- The identifiers that are loaded from a sample are all different. -/
theorem nodup_id_reread_of_placed {fixes : List Fix}
    (h : ∀ index, ∀ hindex : index < fixes.length, c.IsPlaced index fixes[index]) :
    ((fixes.map Fix.reread).map Fix.id).Nodup := by
  have hids : (fixes.map Fix.reread).map Fix.id =
      (List.range fixes.length).map fun index => trim (sampleId c.name (index + 1)) := by
    refine List.ext_getElem (by simp) fun index hindex _ => ?_
    have hlt : index < fixes.length := by simpa using hindex
    simp only [List.getElem_map, List.getElem_range, Fix.reread, (h index hlt).id]
  rw [hids]
  exact List.nodup_range.map ((trim_sampleId_injective c.name).comp (add_left_injective 1))

/-- A sample that is too large is refused: where the name leaves room for `k` digits in a cell, some
number has more. -/
theorem loadBytes_sample_overlong (hg : g.IsSound) (hspread : c.spread == 0)
    (hlat : c.lat.isFinite = true) (hlng : c.lng.isFinite = true) {rows k : ℕ} (hk : 0 < k)
    (hname : Csv.cellLimit ≤ c.name.length + 1 + k) (hrows : 10 ^ k ≤ rows) (seed : ℤ) :
    ∃ fixes, sampleFixes rows seed [c] g = .ok fixes ∧
      loadBytes (String.ofList (sampleTable fixes)).toUTF8 = .error .overlongCell := by
  obtain ⟨last, rfl⟩ : ∃ last, rows = last + 1 :=
    Nat.exists_eq_add_one.mpr ((Nat.pow_pos (by decide)).trans_le hrows)
  have hdigits : k < (Nat.toDigits 10 (last + 1)).length := by
    rw [← not_le, Nat.length_toDigits_le_iff (by decide) hk]
    exact hrows.not_gt
  obtain ⟨fixes, hfixes, hlength, hplaced⟩ :=
    exists_placed_sample hg hspread hlat hlng (last + 1) seed
  have hlast : last < fixes.length := hlength ▸ last.lt_succ_self
  refine ⟨fixes, hfixes, loadBytes_sampleTable_overlong (List.getElem_mem hlast) ?_⟩
  rw [(hplaced last hlast).id, sampleId, List.length_append, List.length_cons]
  omega

/-- **The sample of a cluster without spread is loaded.**  Whatever the seed, and whatever a generator
draws that keeps to its bounds, the sample has the number of fixes asked for, and the row of each
shows the middle of the cluster.  A table of them is loaded as so many fixes in the same order, each
from its own row, with no two identifiers the same.  The bound on their number leaves room for it in
a cell, behind a name of a hundred thousand characters and the dash; behind such a name,
`loadBytes_sample_overlong` allows no larger one. -/
theorem loadBytes_sample (hg : g.IsSound) (hspread : c.spread == 0) (hlat : c.lat.isFinite = true)
    (hlng : c.lng.isFinite = true) (hname : c.name.length ≤ 100000) (rows : ℕ) (seed : ℤ) :
    ∃ fixes, sampleFixes rows seed [c] g = .ok fixes ∧ fixes.length = rows ∧
      (∀ f ∈ fixes, c.IsShownBy (sampleRow f)) ∧
      (rows < 10 ^ (Csv.cellLimit - 100001) →
        ∃ intake, loadBytes (String.ofList (sampleTable fixes)).toUTF8 = .ok intake ∧
          intake.fixes = fixes.map Fix.reread ∧ intake.total = rows ∧ intake.skipped = 0 ∧
          (intake.fixes.map Fix.id).Nodup) := by
  generalize hk : Csv.cellLimit - 100001 = k
  have hpos : 0 < k := by
    rw [← hk]
    decide
  have hroom : c.name.length + 1 + k ≤ Csv.cellLimit := by
    have hlimit : 100001 ≤ Csv.cellLimit := by decide
    omega
  obtain ⟨fixes, hfixes, hlength, hplaced⟩ := exists_placed_sample hg hspread hlat hlng rows seed
  refine ⟨fixes, hfixes, hlength, ?_, ?_⟩
  · intro f hf
    obtain ⟨index, hindex, rfl⟩ := List.getElem_of_mem hf
    exact (hplaced index hindex).isShownBy
  · intro hrows
    have hsound : ∀ f ∈ fixes, f.IsSound := by
      intro f hf
      obtain ⟨index, hindex, rfl⟩ := List.getElem_of_mem hf
      have hnumber : index + 1 ≤ rows := hlength ▸ hindex
      exact (hplaced index hindex).isSound hpos hroom (hnumber.trans_lt hrows)
    refine ⟨_, loadBytes_sampleTable hsound, rfl, hlength, ?_, nodup_id_reread_of_placed hplaced⟩
    simp only [Intake.skipped, Intake.parsed, List.length_map, Nat.sub_self]

end NoSpread

/-- A cluster three half turns east of Greenwich, under a name with white space, a dash, a comma,
quotes and a line end. -/
def gate : Cluster := ⟨" 1-1,\"gate\"\n-".toList, -0.00000005, 540, -0.0⟩

/-- A sample of a dozen fixes that the generator of the program draws is loaded, and shows where the
cluster is. -/
theorem gate_loaded :
    (twister.IsSound ∧ (gate.spread == 0) = true ∧ gate.lat.isFinite = true ∧ gate.lng.isFinite = true ∧
      gate.name.length ≤ 100000 ∧ |Binary64.value gate.lng| ≤ 540 ∧
      12 < 10 ^ (Csv.cellLimit - 100001)) ∧
    ∃ fixes, sampleFixes 12 7 [gate] twister = .ok fixes ∧ fixes.length = 12 ∧
      (∀ f ∈ fixes, gate.IsShownBy (sampleRow f)) ∧
      ∃ intake, loadBytes (String.ofList (sampleTable fixes)).toUTF8 = .ok intake ∧
        intake.fixes = fixes.map Fix.reread ∧ intake.total = 12 ∧ intake.skipped = 0 ∧
        (intake.fixes.map Fix.id).Nodup := by
  have hspread : (gate.spread == 0) = true := by decide +kernel
  have hlat : gate.lat.isFinite = true := by decide +kernel
  have hlng : gate.lng.isFinite = true := by decide +kernel
  have hname : gate.name.length ≤ 100000 := by decide +kernel
  have hwide : |Binary64.value gate.lng| ≤ 540 := by decide +kernel
  have hrows : 12 < 10 ^ (Csv.cellLimit - 100001) := by
    calc 12 < 10 ^ 2 := by decide
      _ ≤ 10 ^ (Csv.cellLimit - 100001) := Nat.pow_le_pow_right (by decide) (by decide)
  obtain ⟨fixes, hfixes, hlength, hshown, hload⟩ :=
    loadBytes_sample twister_isSound hspread hlat hlng hname 12 7
  exact ⟨⟨twister_isSound, hspread, hlat, hlng, hname, hwide, hrows⟩, fixes, hfixes, hlength, hshown,
    hload hrows⟩

end Geofence
