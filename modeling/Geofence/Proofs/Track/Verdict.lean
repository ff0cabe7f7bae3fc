/-
Fixes with a verdict.

A polygon answers for every location, and a circle for those to which a distance is computed.  The
verdicts on a table of fixes need the answer of every fence for every fix, so that one fix without a
distance from the center of some circle leaves the whole table without verdicts.

Main definitions:

* `Geofence.Fence.Refuses` — a fence does not answer for a location.

Main results:

* `Geofence.Fence.exists_contains_iff` — what else is answered for;
* `Geofence.exists_classify_iff` — verdicts are given exactly if every fence answers for every fix;
* `Geofence.answers_of_readFences` — the answers and the verdicts of fences read from a text.
-/

import Geofence.Proofs.Encoding.Grammar
import Geofence.Proofs.Fence.Sphere
import Geofence.Proofs.Track.Load
import Geofence.Track.Verdict

set_option relaxedAutoImplicit false
set_option autoImplicit false

namespace Geofence

open Elementary

/-! ### Fences -/

/-- The fence is a circle to whose center the location has no distance. -/
def Fence.Refuses : Fence Float → Location Float → Prop
  | .circle c, p => c.center.NoDistance p
  | .polygon _, _ => False

theorem Circle.exists_contains_iff {c : Circle Float} {p : Location Float} :
    (∃ inside, c.contains p = .ok inside) ↔ ∃ d, c.center.distance p = .ok d := by
  constructor
  · rintro ⟨inside, h⟩
    obtain ⟨d, hd, -⟩ := bind_eq_ok_iff.mp h
    exact ⟨d, hd⟩
  · rintro ⟨d, hd⟩
    exact ⟨_, bind_eq_ok_iff.mpr ⟨d, hd, rfl⟩⟩

/-- **A fence answers** for the locations that it does not refuse. -/
theorem Fence.exists_contains_iff {f : Fence Float} (hf : f.IsFinite) (p : Location Float) :
    (∃ inside, f.contains p = .ok inside) ↔ ¬f.Refuses p := by
  cases f with
  | circle c => exact Circle.exists_contains_iff.trans (Location.exists_distance_iff hf.1 p)
  | polygon g => exact iff_of_true ⟨g.contains p, rfl⟩ not_false

/-! ### Verdicts -/

theorem exists_judge_iff {fences : List (Fence Float)} {x : Fix} :
    (∃ v, judge fences x = .ok v) ↔
      ∀ f ∈ fences, ∃ inside, f.contains x.location = .ok inside := by
  rw [← exists_mapM_eq_ok_iff]
  constructor
  · rintro ⟨v, hv⟩
    obtain ⟨matched, hmatched, -⟩ := map_eq_ok_iff.mp hv
    obtain ⟨hits, hhits, -⟩ := bind_eq_ok_iff.mp hmatched
    exact ⟨hits, hhits⟩
  · rintro ⟨hits, hhits⟩
    exact ⟨_, map_eq_ok_iff.mpr ⟨_, bind_eq_ok_iff.mpr ⟨hits, hhits, rfl⟩, rfl⟩⟩

/-- **Verdicts are given** exactly if every fence answers for every fix. -/
theorem exists_classify_iff {fences : List (Fence Float)} {fixes : List Fix} :
    (∃ verdicts, classify fences fixes = .ok verdicts) ↔
      ∀ x ∈ fixes, ∀ f ∈ fences, ∃ inside, f.contains x.location = .ok inside := by
  rw [classify, exists_mapM_eq_ok_iff]
  simp only [exists_judge_iff]

/-- **The answers of fences read from a text.**  Every fence answers for every location that it does
not refuse, and a table gets its verdicts exactly if no fence refuses a fix.  A circle refuses all
locations with an infinite coordinate; away from the end of the range of numbers, it refuses only for
the sake of its square roots. -/
theorem answers_of_readFences {strict : Bool} {t : Text} {fences : List (Fence Float)}
    (hread : (readFences strict t).result = .ok fences) :
    (∀ f ∈ fences, ∀ p, (∃ inside, f.contains p = .ok inside) ↔ ¬f.Refuses p) ∧
      (∀ fixes, (∃ verdicts, classify fences fixes = .ok verdicts) ↔
        ∀ x ∈ fixes, ∀ f ∈ fences, ¬f.Refuses x.location) ∧
      ∀ c, Fence.circle c ∈ fences → ∀ p : Location Float,
        (p.lat.isInf = true ∨ p.lng.isInf = true → (Fence.circle c).Refuses p) ∧
          (c.center.IsModerate → p.IsModerate → ((Fence.circle c).Refuses p ↔
            ∃ a, halfChordSquared c.center.lat c.center.lng p.lat p.lng = .ok a ∧
              (a < 0 ∨ one - a < 0))) := by
  have hfinite := isFinite_of_mem_readFences hread
  have hanswers : ∀ f ∈ fences, ∀ p, (∃ inside, f.contains p = .ok inside) ↔ ¬f.Refuses p :=
    fun f hf p => Fence.exists_contains_iff (hfinite f hf) p
  refine ⟨hanswers, fun fixes => ?_, fun c hc p => ⟨fun hp => ?_, fun hcenter hp => ?_⟩⟩
  · rw [exists_classify_iff]
    exact forall₂_congr fun x _ => forall₂_congr fun f hf => hanswers f hf x.location
  · exact Location.noDistance_of_isInf (hfinite _ hc).1 hp
  · exact Location.noDistance_iff_of_isModerate hcenter hp

/-- A circle of a kilometre. -/
def plaza : Circle Float := ⟨⟨0, 0⟩, 1000, by decide +kernel⟩

/-- A triangle beside it. -/
def yard : Polygon Float := ⟨[⟨0, 0⟩, ⟨0, 1⟩, ⟨1, 0⟩], by decide⟩

/-- The two in a list. -/
def plazaText : Text := "circle|0.0,0.0|1000.0;polygon|0.0,0.0|0.0,1.0|1.0,0.0".toList

/-- A table whose first fix has an infinite latitude. -/
def strayText : Text := "latitude,longitude\ninf,0\n0,0\n".toList

/-- The fixes of the table. -/
def strayFixes : List Fix := [⟨['1'], Binary64.infinity false, 0⟩, ⟨['2'], 0, 0⟩]

theorem readFences_plazaText (strict : Bool) :
    readFences strict plazaText = ⟨.ok [.circle plaza, .polygon yard], []⟩ := by
  have hwrite : plazaText = writeFences [.circle plaza, .polygon yard] := by decide +kernel
  rw [hwrite]
  exact readFences_writeFences strict (by decide +kernel)

/-- The circle refuses the first fix and spoils the table, though the triangle answers. -/
theorem plaza_refuses_stray :
    (readFences false plazaText).result = .ok [.circle plaza, .polygon yard] ∧
      (Fence.circle plaza).Refuses ⟨Binary64.infinity false, 0⟩ ∧
      (∃ inside, (Fence.polygon yard).contains ⟨Binary64.infinity false, 0⟩ = .ok inside) ∧
      ¬∃ verdicts, classify [.circle plaza, .polygon yard] strayFixes = .ok verdicts := by
  have hread : (readFences false plazaText).result = .ok [.circle plaza, .polygon yard] := by
    rw [readFences_plazaText]
  obtain ⟨hanswers, hverdicts, hcircles⟩ := answers_of_readFences hread
  have hrefuses : (Fence.circle plaza).Refuses ⟨Binary64.infinity false, 0⟩ :=
    (hcircles plaza List.mem_cons_self _).1 (.inl (by decide +kernel))
  refine ⟨hread, hrefuses, ?_, ?_⟩
  · exact (hanswers (.polygon yard) (by simp) _).mpr not_false
  · rw [hverdicts]
    intro h
    exact h _ List.mem_cons_self _ List.mem_cons_self hrefuses

/-- The fixes are those of a table, and the failure is the one of an elementary function. -/
theorem stray_fix_stops_verdicts :
    readFences false plazaText = ⟨.ok [.circle plaza, .polygon yard], []⟩ ∧
      (∃ intake, loadBytes (String.ofList strayText).toUTF8 = .ok intake ∧
        intake.fixes = strayFixes) ∧
      plaza.contains ⟨Binary64.infinity false, 0⟩ = .error .outside ∧
      classify [.circle plaza, .polygon yard] strayFixes = .error .outside := by
  refine ⟨readFences_plazaText false, ?_, rfl, rfl⟩
  rw [loadBytes_toUTF8]
  exact ⟨_, rfl, by decide +kernel⟩

end Geofence
