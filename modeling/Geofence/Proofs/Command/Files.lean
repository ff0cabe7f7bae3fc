/-
Files after a run.

A run reads what it is asked about, works out all it has to say, and only then writes.  So a run that
stops at any of its stages, for whatever reason, leaves every file as it was; and the one command that
writes a file has read its table by then, even if that is the file it writes.  A run is said to settle
for a tree when it is of the first kind, or ends well with a tree of which something holds; a stage
hands this on from what comes after it.

Main definitions:

* `Geofence.Outcome.Fruitless` — a run that does not end well and changes nothing;
* `Geofence.Outcome.Settles` — a run that is fruitless, or ends well with such a tree;
* `Geofence.Exported` — the verdicts on a table are in the file for them, and all else is as before.

Main results:

* `Geofence.Outcome.settles_withSupplied`, `Geofence.settles_withFences`,
  `Geofence.settles_exportBatch` — the stages of a run;
* `Geofence.settles_runCheck`, `Geofence.settles_runNormalize`, `Geofence.settles_runCheckTable` —
  the commands;
* `Geofence.files_after_run` — the files after a run with any arguments.
-/

import Geofence.Command.Run
import Geofence.Proofs.FileTree.Write
import Geofence.Proofs.Success

set_option relaxedAutoImplicit false
set_option autoImplicit false

namespace Geofence

/-! ### Runs that settle -/

namespace Outcome

variable {tree : FileTree} {Q : FileTree → Prop} {o : Outcome}

/-- The run does not end well, and leaves the tree as it was. -/
def Fruitless (tree : FileTree) (o : Outcome) : Prop := o.ending ≠ .exit 0 ∧ o.tree = tree

/-- The run is fruitless, or it ends well with a tree for which `Q` holds. -/
def Settles (tree : FileTree) (Q : FileTree → Prop) (o : Outcome) : Prop :=
  o.Fruitless tree ∨ o.ending = .exit 0 ∧ Q o.tree

theorem settles_refusal (stderr : String) : (refusal tree stderr).Settles tree Q := by
  refine .inl ⟨fun h => ?_, rfl⟩
  cases h

theorem settles_broken (cause : Failure) (stdout : String) :
    (broken tree cause stdout).Settles tree Q := by
  refine .inl ⟨fun h => ?_, rfl⟩
  cases h

theorem settles_success {after : FileTree} (h : Q after) (stdout : String) :
    (success after stdout).Settles tree Q :=
  .inr ⟨rfl, h⟩

theorem Settles.afterLog (h : o.Settles tree Q) (log : String) :
    (o.afterLog log).Settles tree Q := h

/-- A value that is needed is there, or the run is fruitless. -/
theorem settles_withSupplied {α : Type} {need : Need} {supplied : Supplied α}
    {next : α → Outcome} (h : ∀ a, supplied = .value a → (next a).Settles tree Q) :
    (withSupplied tree need supplied next).Settles tree Q := by
  cases supplied with
  | nothing => exact settles_broken _ _
  | value a => exact h a rfl

end Outcome

open Outcome

/-! ### Stages -/

section Stages

variable {verbose strict : Bool} {tree : FileTree} {encoded : Text} {fences : List (Fence Float)}
  {next : List (Fence Float) → Outcome}

theorem withFences_of_ok (h : (readFences strict encoded).result = .ok fences) :
    withFences verbose tree strict (.value encoded) next =
      (next fences).afterLog (logText verbose (readFences strict encoded).notices) := by
  simp only [withFences, withSupplied, Supplied.forNeed_value, h]

theorem withFences_of_error {cause : Malformed}
    (h : (readFences strict encoded).result = .error cause) :
    withFences verbose tree strict (.value encoded) next =
      (refusal tree (cause.refusal ++ "\n")).afterLog
        (logText verbose (readFences strict encoded).notices) := by
  simp only [withFences, withSupplied, Supplied.forNeed_value, h]

/-- The fences are read, or the run is fruitless. -/
theorem settles_withFences {Q : FileTree → Prop} {geometries : Supplied Text}
    (h : ∀ encoded fences, geometries = .value encoded →
      (readFences strict encoded).result = .ok fences → (next fences).Settles tree Q) :
    (withFences verbose tree strict geometries next).Settles tree Q := by
  cases geometries with
  | nothing => exact settles_broken _ _
  | value encoded =>
    cases hresult : (readFences strict encoded).result with
    | error cause =>
      rw [withFences_of_error hresult]
      exact (settles_refusal _).afterLog _
    | ok fences =>
      rw [withFences_of_ok hresult]
      exact (h encoded fences rfl hresult).afterLog _

/-- The verdicts are given and written, or the run is fruitless. -/
theorem settles_exportBatch {Q : FileTree → Prop} {target : Supplied Text} {intake : Intake}
    (h : ∀ verdicts path after, classify fences intake.fixes = .ok verdicts →
      target = .value path →
        tree.write (.ofText path) (String.ofList (verdictTable verdicts)).toUTF8 = .ok after →
          Q after) :
    (exportBatch tree fences target intake).Settles tree Q := by
  rw [exportBatch]
  split
  next => exact settles_broken _ _
  next batch hbatch =>
    obtain ⟨verdicts, hverdicts, rfl⟩ := map_eq_ok_iff.mp hbatch
    apply settles_withSupplied
    rintro path rfl
    split
    next => exact settles_broken _ _
    next after hwrite => exact settles_success (h verdicts path after hverdicts rfl hwrite) _

end Stages

/-! ### Commands -/

section Commands

variable (verbose : Bool) (tree : FileTree) (strict : Bool)

theorem settles_report (fences : List (Fence Float)) (p : Location Float) (json : Bool) :
    (report tree fences p json).Settles tree (· = tree) := by
  rw [report]
  split
  next => exact settles_broken _ _
  next =>
    split
    next => exact settles_success rfl _
    next => exact settles_broken _ _

/-- A check of a location changes nothing. -/
theorem settles_runCheck (geometries point : Supplied Text) (json : Bool) :
    (runCheck verbose tree strict geometries point json).Settles tree (· = tree) := by
  apply settles_withFences
  intro _ fences _ _
  apply settles_withSupplied
  intro encoded _
  split
  next => exact settles_refusal _
  next p _ => exact settles_report tree fences p json

/-- Writing fences anew changes nothing. -/
theorem settles_runNormalize (geometries : Supplied Text) :
    (runNormalize verbose tree strict geometries).Settles tree (· = tree) := by
  apply settles_withFences
  intro _ fences _ _
  exact settles_success rfl _

/-- The verdicts on the table in the file `source`, as it was before, are in the file `target`, and
nothing else has changed; when `target` is the null device, nothing at all has. -/
def Exported (before : FileTree) (strict : Bool) (encoded source target : Text)
    (after : FileTree) : Prop :=
  ∃ fences intake verdicts, (readFences strict encoded).result = .ok fences ∧
    loadFile before source = .ok intake ∧ classify fences intake.fixes = .ok verdicts ∧
      before.Stored after (.ofText target) (String.ofList (verdictTable verdicts)).toUTF8

/-- **A check of a table** exports its verdicts. -/
theorem settles_runCheckTable (geometries source target : Supplied Text) :
    (runCheckTable verbose tree strict geometries source target).Settles tree fun after =>
      ∃ encoded path path', geometries = .value encoded ∧ source = .value path ∧
        target = .value path' ∧ Exported tree strict encoded path path' after := by
  apply settles_withFences
  rintro encoded fences rfl hfences
  apply settles_withSupplied
  rintro path rfl
  split
  next => exact settles_broken _ _
  next intake hload =>
    apply Settles.afterLog
    apply settles_exportBatch
    rintro verdicts path' after hverdicts rfl hwrite
    exact ⟨encoded, path, path', rfl, rfl, rfl, fences, intake, verdicts, hfences, hload,
      hverdicts, FileTree.stored_of_write hwrite⟩

/-- What a command may have done to the files when it ends well. -/
def Command.Effect (before : FileTree) (after : FileTree) : Command → Prop
  | .checkTable geometries strict source target =>
    ∃ encoded path path', geometries = .value encoded ∧ source = .value path ∧
      target = .value path' ∧ Exported before strict encoded path path' after
  | _ => after = before

theorem settles_commandRun (command : Command) :
    (command.run verbose tree).Settles tree fun after => command.Effect tree after := by
  cases command with
  | check geometries strict point json => exact settles_runCheck _ _ _ _ _ _
  | checkTable geometries strict source target => exact settles_runCheckTable _ _ _ _ _ _
  | normalize geometries strict => exact settles_runNormalize _ _ _ _

end Commands

/-! ### Whole runs -/

/-- **The files after a run** with any arguments.  Unless the run ends with code zero, nothing has
changed.  Unless the arguments ask for a check of a table, nothing has changed either.  If they do and
the run ends with code zero, the verdicts on the fixes of the source, as it was before the run, are in
the target, and nothing else has changed.  What attached dashes stand for does not matter. -/
theorem files_after_run (rule : AttachedDashes) (tree : FileTree) (arguments : List Text) :
    ((run tree arguments rule).ending ≠ .exit 0 → (run tree arguments rule).tree = tree) ∧
      ((¬∃ verbosity geometries strict source target, Request.ofArguments rule arguments =
          .ok ⟨verbosity, .checkTable geometries strict source target⟩) →
        (run tree arguments rule).tree = tree) ∧
      ∀ verbosity geometries strict source target,
        Request.ofArguments rule arguments =
            .ok ⟨verbosity, .checkTable geometries strict source target⟩ →
          (run tree arguments rule).ending = .exit 0 →
            ∃ encoded path path', geometries = .value encoded ∧ source = .value path ∧
              target = .value path' ∧
                Exported tree strict encoded path path' (run tree arguments rule).tree := by
  cases hrequest : Request.ofArguments rule arguments with
  | error refusal =>
    have hrun : (run tree arguments rule).tree = tree := by
      rw [run, hrequest]
      cases refusal <;> rfl
    exact ⟨fun _ => hrun, fun _ => hrun, fun _ _ _ _ _ h => by cases h⟩
  | ok request =>
    obtain ⟨verbosity, command⟩ := request
    have hrun : run tree arguments rule = command.run (verbosity ≠ 0) tree := by
      rw [run, hrequest]
    rw [hrun]
    obtain ⟨hending, htree⟩ | ⟨hending, heffect⟩ :=
      settles_commandRun (verbosity ≠ 0) tree command
    · exact ⟨fun _ => htree, fun _ => htree, fun _ _ _ _ _ _ h => absurd h hending⟩
    · refine ⟨fun h => absurd hending h, fun hother => ?_, ?_⟩
      · cases command with
        | check _ _ _ _ => exact heffect
        | checkTable _ _ _ _ => exact absurd ⟨_, _, _, _, _, rfl⟩ hother
        | normalize _ _ => exact heffect
      · rintro _ _ _ _ _ ⟨⟩ _
        exact heffect

/-- A folder with one table. -/
def inPlaceTree : FileTree :=
  ⟨[([['w'], "a.csv".toList], "latitude,longitude\n10.5,7.5\n".toUTF8)], [], [['w']]⟩

/-- A triangle. -/
def inPlaceFences : Text := "polygon|0,0|0,20|20,0".toList

/-- The arguments that ask for a check of a table whose verdicts go to a path. -/
def inPlaceArguments (source target : Text) : List Text :=
  ["check-csv".toList, "--geometries".toList, inPlaceFences, "--csv".toList, source,
    "--out".toList, target]

/-- The arguments that ask for the fences to be written anew. -/
def anewArguments : List Text := ["normalize".toList, "--geometries".toList, inPlaceFences]

/-- The verdicts take the place of the table; a table that is missing or fences to be written anew
leave it as it is. -/
theorem inPlace_files :
    ((run inPlaceTree (inPlaceArguments "a.csv".toList "a.csv".toList) .kept).ending = .exit 0 ∧
      Exported inPlaceTree false inPlaceFences "a.csv".toList "a.csv".toList
        (run inPlaceTree (inPlaceArguments "a.csv".toList "a.csv".toList) .kept).tree) ∧
    ((run inPlaceTree (inPlaceArguments "b.csv".toList "a.csv".toList) .kept).ending ≠ .exit 0 ∧
      (run inPlaceTree (inPlaceArguments "b.csv".toList "a.csv".toList) .kept).tree = inPlaceTree) ∧
    ((run inPlaceTree anewArguments .kept).ending = .exit 0 ∧
      (run inPlaceTree anewArguments .kept).tree =
        inPlaceTree) := by
  have hrequest : Request.ofArguments .kept (inPlaceArguments "a.csv".toList "a.csv".toList) =
      .ok ⟨0, .checkTable (.value inPlaceFences) false (.value "a.csv".toList)
        (.value "a.csv".toList)⟩ := by
    decide +kernel
  have hdone : (run inPlaceTree (inPlaceArguments "a.csv".toList "a.csv".toList) .kept).ending =
      .exit 0 := by
    decide +kernel
  have hmissing : (run inPlaceTree (inPlaceArguments "b.csv".toList "a.csv".toList) .kept).ending ≠
      .exit 0 := by
    decide +kernel
  have hanew : Request.ofArguments .kept anewArguments =
      .ok ⟨0, .normalize (.value inPlaceFences) false⟩ := by
    decide +kernel
  refine ⟨⟨hdone, ?_⟩, ⟨hmissing, (files_after_run _ _ _).1 hmissing⟩, by decide +kernel, ?_⟩
  · obtain ⟨_, _, _, ⟨⟩, ⟨⟩, ⟨⟩, hexported⟩ :=
      (files_after_run _ inPlaceTree _).2.2 _ _ _ _ _ hrequest hdone
    exact hexported
  · apply (files_after_run _ _ _).2.1
    rintro ⟨_, _, _, _, _, h⟩
    rw [hanew] at h
    cases h

end Geofence
