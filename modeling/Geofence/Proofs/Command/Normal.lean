/-
Fences written anew.

Whatever a text holds, reading it with tolerance gives fences, and all their numbers are finite.  On
such fences writing and reading undo each other, so the line that is printed for them stands for the
same fences, has nothing in it to be passed over or refused, and is printed again for itself.

Main definitions:

* `Geofence.Fence.IsSound` — a fence with finite numbers only, and within the bounds of its kind.

Main results:

* `Geofence.isSound_of_readFences` — the fences that are read;
* `Geofence.isBlank_of_mem_writeFences` — the line that is written;
* `Geofence.runNormalize_of_ok` — what is printed;
* `Geofence.normalize_prints_normal_form` — the line that is printed for any text.
-/

import Geofence.Proofs.Command.Files
import Geofence.Proofs.Encoding.Grammar

set_option relaxedAutoImplicit false
set_option autoImplicit false

namespace Geofence

open Text

/-! ### Fences that are read -/

/-- All coordinates are finite, and so is the radius of a circle, which is not below zero; a polygon
has at least three vertices. -/
def Fence.IsSound : Fence Float → Prop
  | .circle c => c.center.IsFinite ∧ c.radius.isFinite = true ∧ 0 ≤ c.radius
  | .polygon g => (∀ v ∈ g.vertices, v.IsFinite) ∧ 3 ≤ g.vertices.length

theorem Fence.IsFinite.isSound {f : Fence Float} (h : f.IsFinite) : f.IsSound := by
  cases f with
  | circle c => exact ⟨h.1, h.2, c.radius_nonneg⟩
  | polygon g => exact ⟨h, g.three_le⟩

/-- **The fences that are read** from any text are sound. -/
theorem isSound_of_readFences {strict : Bool} {t : Text} {fences : List (Fence Float)}
    (h : (readFences strict t).result = .ok fences) : ∀ f ∈ fences, f.IsSound :=
  fun f hf => (isFinite_of_mem_readFences h f hf).isSound

/-- A tolerant reading gives fences. -/
theorem exists_readFences_lenient (t : Text) :
    ∃ fences, (readFences false t).result = .ok fences := by
  obtain ⟨fences, notices, hread, -, -⟩ := foldr_readSegment_lenient (fields ';' t)
  exact ⟨fences, by rw [readFences, hread]⟩

/-! ### The line that is written -/

/-- The text of fences has no white space in it, and so no line end. -/
theorem isBlank_of_mem_writeFences {fences : List (Fence Float)}
    (h : ∀ f ∈ fences, f.IsFinite) : ∀ c ∈ writeFences fences, isBlank c = false := by
  intro c hc
  obtain rfl | ⟨t, ht, hct⟩ := mem_of_mem_join hc
  · decide
  · obtain ⟨f, hf, rfl⟩ := List.mem_map.mp ht
    exact (Fence.clear_write (h f hf) c hct).2

/-- **What is printed** is the text of the fences that are read. -/
theorem runNormalize_of_ok {strict : Bool} {encoded : Text} {fences : List (Fence Float)}
    {notices : List Notice} (h : readFences strict encoded = ⟨.ok fences, notices⟩) (verbose : Bool)
    (tree : FileTree) :
    (Command.normalize (.value encoded) strict).run verbose tree =
      ⟨.exit 0, tree, String.ofList (writeFences fences) ++ "\n", logText verbose notices⟩ := by
  have hresult : (readFences strict encoded).result = .ok fences := by rw [h]
  rw [Command.run, runNormalize, withFences_of_ok hresult, h]
  simp only [Outcome.afterLog, Outcome.success, String.append_empty]

/-- **The line that is printed is a normal form.**  For any text, writing its fences anew ends well
and prints one line.  A strict reading of the line gives the fences that were read from the text, and
no notice, and writing them anew prints the line again.  The fences of any text, strictly read or
not, are sound. -/
theorem normalize_prints_normal_form (t : Text) :
    ∃ fences line, (readFences false t).result = .ok fences ∧
      (∀ verbose tree, ∃ log, (Command.normalize (.value t) false).run verbose tree =
        ⟨.exit 0, tree, String.ofList line ++ "\n", log⟩) ∧
      (∀ c ∈ line, isBlank c = false) ∧
      readFences true line = ⟨.ok fences, []⟩ ∧
      (∀ verbose tree, (Command.normalize (.value line) true).run verbose tree =
        ⟨.exit 0, tree, String.ofList line ++ "\n", ""⟩) ∧
      ∀ strict fences', (readFences strict t).result = .ok fences' → ∀ f ∈ fences', f.IsSound := by
  obtain ⟨fences, hresult⟩ := exists_readFences_lenient t
  have hread : readFences false t = ⟨.ok fences, (readFences false t).notices⟩ := by
    rw [← hresult]
  have hfinite := isFinite_of_mem_readFences hresult
  have hback : readFences true (writeFences fences) = ⟨.ok fences, []⟩ :=
    readFences_writeFences true hfinite
  refine ⟨fences, writeFences fences, hresult, fun verbose tree => ?_,
    isBlank_of_mem_writeFences hfinite, hback, fun verbose tree => ?_,
    fun _ _ h => isSound_of_readFences h⟩
  · exact ⟨_, runNormalize_of_ok hread verbose tree⟩
  · rw [runNormalize_of_ok hback]
    rfl

/-- A text with white space, numerals of all kinds, segments to be skipped and others. -/
def motleyText : Text :=
  ";; circle | ٣ , -0 | .5e1 ;circle|0,0|1e400;ring|0,0;polygon|0,0| 0 , 1_0\n|1e-7,+1e22".toList

/-- Its fences. -/
def motleyFences : List (Fence Float) :=
  [.circle ⟨⟨3, -0.0⟩, 5, by decide +kernel⟩, .polygon ⟨[⟨0, 0⟩, ⟨0, 10⟩, ⟨1e-7, 1e22⟩], by decide⟩]

/-- Their normal form. -/
def motleyLine : Text := "circle|3.0,-0.0|5.0;polygon|0.0,0.0|0.0,10.0|1e-07,1e+22".toList

/-- The text has a circle and a polygon in it, which the line that is printed for it stands for. -/
theorem motley_normal_form :
    (readFences false motleyText).result = .ok motleyFences ∧
      ((Command.normalize (.value motleyText) false).run false ⟨[], [], []⟩).stdout =
        String.ofList motleyLine ++ "\n" ∧
      readFences true motleyLine = ⟨.ok motleyFences, []⟩ ∧
      (Command.normalize (.value motleyLine) true).run false ⟨[], [], []⟩ =
        ⟨.exit 0, ⟨[], [], []⟩, String.ofList motleyLine ++ "\n", ""⟩ ∧
      ∀ f ∈ motleyFences, f.IsSound := by
  have hstdout : ((Command.normalize (.value motleyText) false).run false ⟨[], [], []⟩).stdout =
      String.ofList motleyLine ++ "\n" := by
    decide +kernel
  have hwrite : motleyLine = writeFences motleyFences := by decide +kernel
  have hback : readFences true motleyLine = ⟨.ok motleyFences, []⟩ := by
    rw [hwrite]
    exact readFences_writeFences true (by decide +kernel)
  obtain ⟨fences, line, hread, hprint, -, hline, hagain, hsound⟩ :=
    normalize_prints_normal_form motleyText
  obtain ⟨log, hrun⟩ := hprint false ⟨[], [], []⟩
  -- the line is the one that is printed, and so its fences are those of the text
  obtain rfl : line = motleyLine := by
    rw [hrun] at hstdout
    have hchars := congrArg String.toList hstdout
    simpa only [String.toList_append, String.toList_ofList, List.append_cancel_right_eq] using hchars
  obtain rfl : fences = motleyFences := by
    rw [hback] at hline
    cases hline
    rfl
  exact ⟨hread, hstdout, hback, hagain false ⟨[], [], []⟩, hsound false _ hread⟩

end Geofence
