/-
The page and the check of a table.

The page for a form and the check of a table work with the same parts, each in its own order.  The
page asks for a location too, leaves off where there is no fence or some fence does not answer for
it, and looks whether there is a file before it reads it; the check goes straight to the table.  The
widgets that tell of a batch stand at the end of the page, and no other widget on it is like them; so
the file is handed out exactly when every stage before gives something.  Then the check comes through
as well, as far as its file can be written, with the same numbers and the same verdicts.  If it does
come through, only the fences and the location can keep the page from handing out the file.

Main definitions:

* `Geofence.Page.offered`, `Geofence.Page.metrics`, `Geofence.Page.results` — the files that a page
  hands out, the values that it shows under a name, and its tables of verdicts;
* `Geofence.Form.LeadsTo` — the fences and the batch that a form leads to;
* `Geofence.TellAlike` — rows of the two tables with the same verdict.

Main results:

* `Geofence.pick_ofForm`, `Geofence.exists_leadsTo` — what a page shows of a batch, and when;
* `Geofence.run_of_leadsTo` — the check of the table;
* `Geofence.page_agrees` — the page and the check.
-/

import Geofence.Proofs.Command.Agreement
import Geofence.Proofs.Options.Attached
import Geofence.Proofs.Track.Reload
import Geofence.Screen.Page

set_option relaxedAutoImplicit false
set_option autoImplicit false

namespace Geofence

/-! ### What a page shows -/

namespace Widget

/-- The file that a widget hands out. -/
def content? : Widget → Option Text
  | download _ content _ _ => some content
  | _ => none

/-- The value that a widget shows under a name. -/
def value? (name : String) : Widget → Option String
  | metric label value => if label = name then some value else none
  | _ => none

/-- The rows of a table of fixed height. -/
def results? : Widget → Option (List Cells)
  | table rows (some _) => some rows
  | _ => none

/-- The names of the numbers of a batch. -/
def batchLabels : List String := ["解析行数", "围栏内", "围栏外"]

/-- Whether a widget is of a kind that only tells of a batch. -/
def ofBatch : Widget → Bool
  | metric label _ => label ∈ batchLabels
  | table _ height => height.isSome
  | download _ _ _ _ => true
  | _ => false

theorem ofBatch_metric {label : String} (h : label ∉ batchLabels) (value : String) :
    (metric label value).ofBatch = false :=
  decide_eq_false h

end Widget

open Widget

/-- Only the widgets that tell of a batch are of the kind. -/
def OfBatchOnly {α : Type} (kind? : Widget → Option α) : Prop :=
  ∀ w, w.ofBatch = false → kind? w = none

theorem ofBatchOnly_content? : OfBatchOnly Widget.content? := by
  intro w hw
  cases w <;> first | rfl | cases hw

theorem ofBatchOnly_results? : OfBatchOnly Widget.results? := by
  intro w hw
  cases w with
  | table rows height =>
    cases height with
    | none => rfl
    | some height => cases hw
  | _ => rfl

theorem ofBatchOnly_value? {name : String} (h : name ∈ Widget.batchLabels) :
    OfBatchOnly (Widget.value? name) := by
  intro w hw
  cases w with
  | metric label value =>
    rw [Widget.value?, if_neg]
    rintro rfl
    exact absurd h (of_decide_eq_false hw)
  | _ => rfl

namespace Page

variable {α : Type}

/-- What the widgets of a page hold of a kind, in order. -/
def pick (kind? : Widget → Option α) (p : Page) : List α :=
  p.elements.filterMap fun e => kind? e.widget

/-- The files that a page hands out. -/
def offered (p : Page) : List Text := p.pick Widget.content?

/-- The values that a page shows under a name. -/
def metrics (p : Page) (name : String) : List String := p.pick (Widget.value? name)

/-- The tables of verdicts on a page. -/
def results (p : Page) : List (List Cells) := p.pick Widget.results?

@[simp] theorem pick_afterNotices (kind? : Widget → Option α) (notices : List Notice) (p : Page) :
    (afterNotices notices p).pick kind? = p.pick kind? := rfl

@[simp] theorem pick_broken (kind? : Widget → Option α) (cause : Failure) :
    (broken cause).pick kind? = [] := rfl

theorem pick_below (kind? : Widget → Option α) (es : List Element) (p : Page) :
    (below es p).pick kind? = (es.filterMap fun e => kind? e.widget) ++ p.pick kind? :=
  List.filterMap_append

variable {kind? : Widget → Option α}

/-- Widgets that do not tell of a batch show nothing of it. -/
theorem pick_ofElements (hkind : OfBatchOnly kind?) {es : List Element}
    (h : ∀ e ∈ es, e.widget.ofBatch = false) : (ofElements es).pick kind? = [] :=
  List.filterMap_eq_nil_iff.mpr fun e he => hkind _ (h e he)

theorem pick_below_of_other (hkind : OfBatchOnly kind?) {es : List Element}
    (h : ∀ e ∈ es, e.widget.ofBatch = false) (p : Page) :
    (below es p).pick kind? = p.pick kind? := by
  rw [pick_below]
  exact congrArg (· ++ p.pick kind?) (pick_ofElements hkind h)

end Page

open Page

/-! ### Stages of a page -/

section Stages

variable {α : Type} {kind? : Widget → Option α} {tree : FileTree} {fences : List (Fence Float)}
  {p : Location Float} {source : Text}

theorem pick_pointPage (hkind : OfBatchOnly kind?)
    (h : ∀ f ∈ fences, ∃ inside, f.contains p = .ok inside) (rest : Page) :
    (pointPage fences p rest).pick kind? = rest.pick kind? := by
  obtain ⟨answers, hanswers⟩ := exists_mapM_eq_ok_iff.mpr h
  obtain ⟨entries, hentries, -, hany, -⟩ := exists_entriesFrom (mapM_eq_ok_iff.mp hanswers) 0
  simp only [pointPage, hany, entriesFor, hentries]
  rw [pick_below_of_other hkind (List.forall_mem_singleton.mpr (ofBatch_metric (by decide) _)),
    pick_below_of_other hkind (List.forall_mem_singleton.mpr rfl)]

theorem answers_of_pick_pointPage (hkind : OfBatchOnly kind?) {rest : Page}
    (h : (pointPage fences p rest).pick kind? ≠ []) :
    ∀ f ∈ fences, ∃ inside, f.contains p = .ok inside := by
  rw [← exists_mapM_eq_ok_iff]
  cases hanswers : fences.mapM (·.contains p) with
  | ok answers => exact ⟨answers, rfl⟩
  | error e =>
    obtain ⟨hentries, hany⟩ := failure_entriesFrom hanswers 0
    have hpair : entriesFor fences p = ((entriesFor fences p).1, some e) :=
      Prod.ext rfl hentries
    refine absurd ?_ h
    -- the page breaks off at the verdict, or at the table if a fence before says yes
    obtain hany | hany := hany
    · simp only [pointPage, hany, pick_broken]
    · simp only [pointPage, hany]
      rw [hpair, pick_below_of_other hkind (List.forall_mem_singleton.mpr (ofBatch_metric (by decide) _)),
        pick_broken]

theorem contains_of_read {q : Path} {bytes : ByteArray} (h : tree.read q = .ok bytes) :
    tree.contains q = .ok true := by
  obtain ⟨hnul, ⟨names, hfind⟩ | ⟨hfind, -⟩⟩ := FileTree.read_eq_ok_iff.mp h
  · simp [FileTree.contains, hnul, hfind]
  · simp [FileTree.contains, hnul, hfind]

theorem pick_batchPage {b : Batch} (hload : loadFile tree source = .ok b.intake)
    (hverdicts : classify fences b.intake.fixes = .ok b.verdicts) :
    (batchPage tree fences source).pick kind? = (ofElements (batchElements b)).pick kind? := by
  obtain ⟨bytes, hread, -⟩ := bind_eq_ok_iff.mp hload
  have hthere := contains_of_read (mapError_eq_ok_iff.mp hread)
  simp only [batchPage, hthere, tablePage, hload, Batch.ofIntake, hverdicts, Except.map,
    pick_afterNotices]

theorem exists_of_pick_batchPage (hkind : OfBatchOnly kind?)
    (h : (batchPage tree fences source).pick kind? ≠ []) :
    ∃ b : Batch, loadFile tree source = .ok b.intake ∧
      classify fences b.intake.fixes = .ok b.verdicts := by
  rw [batchPage] at h
  split at h
  next => exact absurd rfl h
  next => exact absurd (pick_ofElements hkind (List.forall_mem_singleton.mpr rfl)) h
  next =>
    rw [tablePage] at h
    split at h
    next =>
      split at h
      next => exact absurd (pick_ofElements hkind (List.forall_mem_singleton.mpr rfl)) h
      next => exact absurd rfl h
    next intake hload =>
      rw [pick_afterNotices] at h
      split at h
      next => exact absurd rfl h
      next b hbatch =>
        obtain ⟨verdicts, hverdicts, rfl⟩ := map_eq_ok_iff.mp hbatch
        exact ⟨⟨intake, verdicts⟩, hload, hverdicts⟩

end Stages

/-! ### Whole pages -/

/-- The form leads to the verdicts of some fences on a batch: the fences are read and there are some,
they all answer for the location, and the batch is that of the table. -/
structure Form.LeadsTo (tree : FileTree) (form : Form) (fences : List (Fence Float)) (b : Batch) :
    Prop where
  read : (readFences form.strict form.geometries).result = .ok fences
  ne_nil : fences ≠ []
  answers : ∀ f ∈ fences, ∃ inside, f.contains form.point = .ok inside
  load : loadFile tree form.source = .ok b.intake
  verdicts : classify fences b.intake.fixes = .ok b.verdicts

section Pages

variable {α : Type} {kind? : Widget → Option α} {tree : FileTree} {form : Form}
  {fences : List (Fence Float)} {b : Batch}

theorem ofBatch_formElements : ∀ e ∈ formElements, e.widget.ofBatch = false := by
  simp only [formElements, List.forall_mem_cons]
  decide

theorem ofBatch_fenceElements (fences : List (Fence Float)) :
    ∀ e ∈ fenceElements fences, e.widget.ofBatch = false := by
  simp only [fenceElements, List.forall_mem_cons]
  exact ⟨rfl, rfl, rfl, ofBatch_metric (by decide) _, List.forall_mem_nil _⟩

/-- **What a page shows of a batch** that its form leads to. -/
theorem pick_ofForm (hkind : OfBatchOnly kind?) (h : form.LeadsTo tree fences b) :
    (Page.ofForm tree form).pick kind? = (ofElements (batchElements b)).pick kind? := by
  rw [Page.ofForm, pick_below_of_other hkind ofBatch_formElements, answerPage, pick_afterNotices]
  split
  next hread => cases h.read.symm.trans hread
  next hread =>
    cases h.read.symm.trans hread
    exact absurd rfl h.ne_nil
  next hread =>
    cases h.read.symm.trans hread
    rw [pick_below_of_other hkind (ofBatch_fenceElements fences), pick_pointPage hkind h.answers,
      pick_batchPage h.load h.verdicts]

/-- **What a page shows is of a batch** that its form leads to. -/
theorem exists_leadsTo (hkind : OfBatchOnly kind?) (h : (Page.ofForm tree form).pick kind? ≠ []) :
    ∃ fences b, form.LeadsTo tree fences b := by
  rw [Page.ofForm, pick_below_of_other hkind ofBatch_formElements, answerPage,
    pick_afterNotices] at h
  split at h
  next => exact absurd (pick_ofElements hkind (List.forall_mem_singleton.mpr rfl)) h
  next => exact absurd (pick_ofElements hkind (List.forall_mem_singleton.mpr rfl)) h
  next fences hne hread =>
    rw [pick_below_of_other hkind (ofBatch_fenceElements fences)] at h
    have hanswers := answers_of_pick_pointPage hkind h
    rw [pick_pointPage hkind hanswers] at h
    obtain ⟨b, hload, hverdicts⟩ := exists_of_pick_batchPage hkind h
    exact ⟨fences, b, hread, fun h => hne (by rw [h]), hanswers, hload, hverdicts⟩

end Pages

/-! ### The page and the check -/

/-- A row of the table on the screen and one of the file tell the same verdict on the same fix. -/
structure TellAlike (cells : Cells) (row : Csv.Row) : Prop where
  id : ∃ id, cells.lookup idColumn = some (.text id) ∧ IsCellOf verdictHeader row idColumn id
  latitude : ∃ x, cells.lookup latitudeColumn = some (.number x) ∧
    IsCellOf verdictHeader row latitudeColumn (renderNumber x)
  longitude : ∃ x, cells.lookup longitudeColumn = some (.number x) ∧
    IsCellOf verdictHeader row longitudeColumn (renderNumber x)
  inside : ∃ inside, cells.lookup insideColumn = some (.truth inside) ∧
    IsCellOf verdictHeader row insideColumn (if inside then ['1'] else ['0'])
  matched : ∃ matched, cells.lookup matchedColumn = some (.text matched) ∧
    IsCellOf verdictHeader row matchedColumn matched

theorem tellAlike_row (v : Verdict) : TellAlike v.cells v.row where
  id := ⟨_, rfl, cellOf?_eq_some_iff.mp rfl⟩
  latitude := ⟨_, rfl, cellOf?_eq_some_iff.mp rfl⟩
  longitude := ⟨_, rfl, cellOf?_eq_some_iff.mp rfl⟩
  inside := ⟨_, rfl, cellOf?_eq_some_iff.mp rfl⟩
  matched := ⟨_, rfl, cellOf?_eq_some_iff.mp rfl⟩

theorem parsed_le_total {tree : FileTree} {source : Text} {intake : Intake}
    (h : loadFile tree source = .ok intake) : intake.parsed ≤ intake.total := by
  obtain ⟨bytes, -, hload⟩ := bind_eq_ok_iff.mp h
  obtain ⟨header, rows, -, rfl⟩ := exists_intakeOf_of_loadBytes (mapError_eq_ok_iff.mp hload)
  exact parsed_intakeOf_le header rows

section Runs

variable {tree : FileTree} {form : Form} {fences : List (Fence Float)} {b : Batch}

/-- The fixes inside and those outside are all. -/
theorem Form.LeadsTo.inside_add_outside (h : form.LeadsTo tree fences b) :
    b.inside + b.outside = b.intake.parsed := by
  have hlength : b.verdicts.length = b.intake.parsed := by
    rw [Intake.parsed, ← map_fix_of_classify h.verdicts, List.length_map]
  have hle : b.inside ≤ b.verdicts.length := List.countP_le_length
  rw [← hlength, Batch.outside]
  omega

theorem run_eq {rule : AttachedDashes} {arguments : List Text} {request : Request}
    (h : Request.ofArguments rule arguments = .ok request) :
    run tree arguments rule = request.command.run (request.verbosity ≠ 0) tree := by
  rw [run, h]

/-- **The check of the table** that a form leads to. -/
theorem run_of_leadsTo (h : form.LeadsTo tree fences b) {rule : AttachedDashes}
    {arguments : List Text} {target : Text} {verbosity : ℕ}
    (hrequest : Request.ofArguments rule arguments = .ok ⟨verbosity,
      .checkTable (.value form.geometries) form.strict (.value form.source) (.value target)⟩)
    (htarget : ∃ content after, tree.write (.ofText target) content = .ok after) :
    (run tree arguments rule).ending = .exit 0 ∧
      tree.Stored (run tree arguments rule).tree (.ofText target)
        (String.ofList (verdictTable b.verdicts)).toUTF8 ∧
      (run tree arguments rule).stdout = b.text fences.length target := by
  obtain ⟨log, hrun⟩ := runCheckTable_of_load h.read h.load (verbosity ≠ 0) (.value target)
  obtain ⟨after, hafter, hexport⟩ := exportBatch_of_ok b.intake h.verdicts htarget
  rw [run_eq hrequest, Command.run, hrun, hexport]
  exact ⟨rfl, FileTree.stored_of_write hafter, rfl⟩

/-- A check that comes through has a batch. -/
theorem exists_leadsTo_of_run (hread : (readFences form.strict form.geometries).result = .ok fences)
    (hne : fences ≠ []) (hanswers : ∀ f ∈ fences, ∃ inside, f.contains form.point = .ok inside)
    {rule : AttachedDashes} {arguments : List Text} {target : Text} {verbosity : ℕ}
    (hrequest : Request.ofArguments rule arguments = .ok ⟨verbosity,
      .checkTable (.value form.geometries) form.strict (.value form.source) (.value target)⟩)
    (hdone : (run tree arguments rule).ending = .exit 0) : ∃ b, form.LeadsTo tree fences b := by
  rw [run_eq hrequest, Command.run] at hdone
  obtain ⟨hbad, -⟩ | ⟨-, _, _, _, ⟨⟩, ⟨⟩, ⟨⟩, _, intake, verdicts, hread', hload, hverdicts, -⟩ :=
    settles_runCheckTable (verbosity ≠ 0) tree form.strict (.value form.geometries)
      (.value form.source) (.value target)
  · exact absurd hdone hbad
  · cases hread.symm.trans hread'
    exact ⟨⟨intake, verdicts⟩, hread, hne, hanswers, hload, hverdicts⟩

/-- **The page and the check of the table agree.**  When the page hands out a file, the check comes
through and that very file is stored where it writes; the page shows the numbers that the check prints, and has a table
with one row for each row of the file below the header, in order, that tells the same.  And when the
check comes through, there is a fence and all fences answer for the location, the page hands out a
file. -/
theorem page_agrees (tree : FileTree) (form : Form) {rule : AttachedDashes}
    {arguments : List Text} {target : Text} {verbosity : ℕ}
    (hrequest : Request.ofArguments rule arguments = .ok ⟨verbosity,
      .checkTable (.value form.geometries) form.strict (.value form.source) (.value target)⟩)
    (htarget : ∃ content after, tree.write (.ofText target) content = .ok after) :
    let page := Page.ofForm tree form
    let outcome := run tree arguments rule
    (∀ content ∈ page.offered,
      outcome.ending = .exit 0 ∧
      tree.Stored outcome.tree (.ofText target) (String.ofList content).toUTF8 ∧
      ∃ (total parsed inside outside count : ℕ) (table : List Cells) (rows : List Csv.Row),
        outcome.stdout = s!"total_rows={total}, parsed={parsed}, skipped={total - parsed}\n" ++
          s!"围栏={count}，围栏内={inside}，围栏外={outside}\n" ++
          s!"已导出：{String.ofList target}\n" ∧
        page.metrics "解析行数" = [s!"{parsed}/{total}"] ∧
        page.metrics "围栏内" = [toString inside] ∧ page.metrics "围栏外" = [toString outside] ∧
        inside + outside = parsed ∧ parsed ≤ total ∧
        page.results = [table] ∧ Csv.rows content = verdictHeader :: rows ∧
          List.Forall₂ TellAlike table rows) ∧
    (outcome.ending = .exit 0 →
      ∀ fences, (readFences form.strict form.geometries).result = .ok fences → fences ≠ [] →
        (∀ f ∈ fences, ∃ inside, f.contains form.point = .ok inside) →
          ∃ content, page.offered = [content]) := by
  intro page outcome
  refine ⟨fun content hcontent => ?_, fun hdone fences hread hne hanswers => ?_⟩
  · obtain ⟨fences, b, h⟩ := exists_leadsTo ofBatchOnly_content? (List.ne_nil_of_mem hcontent)
    rw [Page.offered, pick_ofForm ofBatchOnly_content? h] at hcontent
    -- the button is the only one
    obtain rfl : content = verdictTable b.verdicts := List.mem_singleton.mp hcontent
    obtain ⟨hdone, hstored, hstdout⟩ := run_of_leadsTo h hrequest htarget
    refine ⟨hdone, hstored, b.intake.total, b.intake.parsed, b.inside, b.outside, fences.length,
      b.verdicts.map Verdict.cells, b.verdicts.map Verdict.row, hstdout,
      pick_ofForm (ofBatchOnly_value? (by decide)) h, pick_ofForm (ofBatchOnly_value? (by decide)) h,
      pick_ofForm (ofBatchOnly_value? (by decide)) h, h.inside_add_outside, parsed_le_total h.load,
      pick_ofForm ofBatchOnly_results? h, Csv.rows_of_written (Csv.written_write _), ?_⟩
    rw [List.forall₂_map_left_iff, List.forall₂_map_right_iff, List.forall₂_same]
    exact fun v _ => tellAlike_row v
  · obtain ⟨b, h⟩ := exists_leadsTo_of_run hread hne hanswers hrequest hdone
    exact ⟨verdictTable b.verdicts, pick_ofForm ofBatchOnly_content? h⟩

end Runs

/-- A folder with a table of three fixes, one of them without a latitude. -/
def quayTree : FileTree :=
  ⟨[([['w'], "a.csv".toList], "id,latitude,longitude\nx,10.5,7.5\n,-1,0\nz,?,0\n".toUTF8)], [],
    [['w']]⟩

/-- A form with a triangle and the path of the table. -/
def quayForm : Form := ⟨writeFences [.polygon bay], true, ⟨1, 1⟩, "a.csv".toList⟩

/-- The arguments with the same texts. -/
def quayArguments : List Text :=
  tableArguments quayForm.geometries quayForm.strict quayForm.source "b.csv".toList

/-- The file is handed out and written, with the verdicts on two of the three fixes. -/
theorem quay_agrees :
    (run quayTree quayArguments .kept).ending = .exit 0 ∧
      (Page.ofForm quayTree quayForm).metrics "解析行数" = ["2/3"] ∧
      ∃ content, (Page.ofForm quayTree quayForm).offered = [content] ∧
        (run quayTree quayArguments .kept).tree.read (.ofText "b.csv".toList) =
          .ok (String.ofList content).toUTF8 ∧
        ∃ table rows, (Page.ofForm quayTree quayForm).results = [table] ∧
          Csv.rows content = verdictHeader :: rows ∧ List.Forall₂ TellAlike table rows := by
  have hrequest : Request.ofArguments .kept quayArguments = .ok ⟨0, .checkTable
      (.value quayForm.geometries) quayForm.strict (.value quayForm.source)
      (.value "b.csv".toList)⟩ :=
    ofArguments_tableArguments (isDelivered_of_kept _) (isDelivered_of_kept _)
      (isDelivered_of_kept _) _
  have htarget : ∃ content after, quayTree.write (.ofText "b.csv".toList) content = .ok after :=
    ⟨.empty, _, rfl⟩
  have hdone : (run quayTree quayArguments .kept).ending = .exit 0 := by decide +kernel
  have hshown : (Page.ofForm quayTree quayForm).metrics "解析行数" = ["2/3"] := by decide +kernel
  have hread : (readFences quayForm.strict quayForm.geometries).result = .ok [.polygon bay] := by
    rw [quayForm, readFences_writeFences true (by decide +kernel)]
  have hanswers : ∀ f ∈ [Fence.polygon bay], ∃ inside, f.contains quayForm.point = .ok inside :=
    List.forall_mem_singleton.mpr ⟨_, rfl⟩
  obtain ⟨content, hoffered⟩ := (page_agrees quayTree quayForm hrequest htarget).2 hdone
    _ hread (List.cons_ne_nil _ _) hanswers
  have hmem : content ∈ (Page.ofForm quayTree quayForm).offered := by
    rw [hoffered]
    exact List.mem_singleton_self _
  have hfind : quayTree.find (.ofText "b.csv".toList) = .ok (.vacant [['w'], "b.csv".toList]) := rfl
  obtain ⟨-, hstored, _, _, _, _, _, table, rows, -, -, -, -, -, -, hresults, hrows, halike⟩ :=
    (page_agrees quayTree quayForm hrequest htarget).1 content hmem
  refine ⟨hdone, hshown, content, hoffered, hstored.read ?_, table, rows, hresults, hrows, halike⟩
  rw [hfind]
  rintro ⟨⟩

end Geofence
