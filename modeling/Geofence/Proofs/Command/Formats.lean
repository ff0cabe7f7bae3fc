/-
The check of a location in its two formats.

The report on a location is written as plain lines or as data.  Both formats read the fences and the
location, and settle whether the union of the fences contains it, before anything is written; then
every fence is asked again for its entry.  They part ways when a fence fails to answer behind one
that contains the location: the data are put together first and never written, while the plain lines
are written as the fences answer, so that those before the failure are out.  In all other cases the
two formats stop alike with nothing written, or report the same entries.

Main definitions:

* `Geofence.Asked` — the entries of the fences that were asked, and the fences that were not;
* `Geofence.CheckReport.IsOn` — a report on a location tells what all fences answer;
* `Geofence.ReadAs` — the fences and the location that the texts of a check stand for;
* `Geofence.CutShort` — a fence fails behind one that contains the location.

Main results:

* `Geofence.asked_entriesFrom` — the entries up to the first fence that fails;
* `Geofence.exists_entriesFrom`, `Geofence.failure_entriesFrom` — the answers of a list of fences;
* `Geofence.exists_report_of_answers`, `Geofence.report_of_failure` — the report in both formats;
* `Geofence.check_in_both_formats` — the check in both formats.
-/

import Geofence.Proofs.Command.Files
import Geofence.Proofs.Encoding.Grammar
import Geofence.Proofs.Fence.Answers

set_option relaxedAutoImplicit false
set_option autoImplicit false

namespace Geofence

/-! ### Entries -/

section Entries

variable {fences rest : List (Fence Float)} {p : Location Float}

/-- The entries are those of the fences at the positions from `index` on, up to the fences `rest`
that were not asked or did not answer. -/
structure Asked (p : Location Float) (index : ℕ) (fences rest : List (Fence Float))
    (entries : List Entry) : Prop where
  fences_eq : fences = entries.map Entry.fence ++ rest
  index_eq : entries.map Entry.index = List.range' index entries.length
  contains_eq : ∀ e ∈ entries, e.fence.contains p = .ok e.contains

theorem Asked.cons {f : Fence Float} {b : Bool} {index : ℕ} {entries : List Entry}
    (hf : f.contains p = .ok b) (h : Asked p (index + 1) fences rest entries) :
    Asked p index (f :: fences) rest (⟨index, f, b⟩ :: entries) where
  fences_eq := congrArg (f :: ·) h.fences_eq
  index_eq := congrArg (index :: ·) h.index_eq
  contains_eq := List.forall_mem_cons.2 ⟨hf, h.contains_eq⟩

/-- **The entries end** with the last fence, or before the first one that fails. -/
theorem asked_entriesFrom (p : Location Float) (index : ℕ) (fences : List (Fence Float)) :
    (∃ entries, entriesFrom p index fences = (entries, none) ∧ Asked p index fences [] entries) ∨
      ∃ entries f rest e, entriesFrom p index fences = (entries, some e) ∧
        Asked p index fences (f :: rest) entries ∧ f.contains p = .error e := by
  induction fences generalizing index with
  | nil => exact .inl ⟨[], rfl, rfl, rfl, List.forall_mem_nil _⟩
  | cons f fences ih =>
      cases hf : f.contains p with
      | error e =>
          refine .inr ⟨[], f, fences, e, ?_, ⟨rfl, rfl, List.forall_mem_nil _⟩, hf⟩
          simp only [entriesFrom, hf]
      | ok b =>
          rcases ih (index + 1) with ⟨entries, hentries, hasked⟩ |
            ⟨entries, g, rest, e, hentries, hasked, hg⟩
          · refine .inl ⟨_, ?_, hasked.cons hf⟩
            simp only [entriesFrom, hf, hentries]
          · refine .inr ⟨_, g, rest, e, ?_, hasked.cons hf, hg⟩
            simp only [entriesFrom, hf, hentries]

/-- **When all fences answer**, there is an entry for each, and the entries tell what asking for the
first yes and asking for all of them give. -/
theorem exists_entriesFrom {answers : List Bool}
    (h : List.Forall₂ (fun f b => f.contains p = .ok b) fences answers) (index : ℕ) :
    ∃ entries, entriesFrom p index fences = (entries, none) ∧
      entries.map Entry.index = List.range' index fences.length ∧
      anyContains fences p = .ok (entries.any Entry.contains) ∧
      hitPositions index answers = (entries.filter Entry.contains).map Entry.index := by
  induction h generalizing index with
  | nil => exact ⟨[], rfl, rfl, rfl, rfl⟩
  | @cons f b fences answers hf _ ih =>
    obtain ⟨entries, hentries, hindex, hany, hhits⟩ := ih (index + 1)
    refine ⟨⟨index, f, b⟩ :: entries, ?_, ?_, ?_, ?_⟩
    · simp only [entriesFrom, hf, hentries]
    · rw [List.map_cons, hindex, List.length_cons, List.range'_succ]
    · rw [anyContains, hf]
      cases b with
      | true => rfl
      | false => exact hany
    · rw [hitPositions, List.zipIdx_cons, List.filterMap_cons]
      cases b with
      | true =>
        rw [List.filter_cons_of_pos rfl, List.map_cons, ← hhits]
        rfl
      | false =>
        rw [List.filter_cons_of_neg Bool.false_ne_true, ← hhits]
        rfl

/-- **When some fence does not answer**, the entries end with its failure, and asking for the first
yes gives the failure too, unless a fence before says yes. -/
theorem failure_entriesFrom {e : DomainError} (h : fences.mapM (·.contains p) = .error e)
    (index : ℕ) :
    (entriesFrom p index fences).2 = some e ∧
      (anyContains fences p = .error e ∨ anyContains fences p = .ok true) := by
  induction fences generalizing index with
  | nil => cases h
  | cons f fences ih =>
    rw [List.mapM_cons] at h
    obtain hf | ⟨b, hf, hrest⟩ := bind_eq_error_iff.mp h
    · refine ⟨by simp only [entriesFrom, hf], .inl ?_⟩
      rw [anyContains, hf]
      rfl
    · obtain hrest | ⟨answers, -, hpure⟩ := bind_eq_error_iff.mp hrest
      · obtain ⟨hentries, hany⟩ := ih hrest (index + 1)
        refine ⟨by simp only [entriesFrom, hf, hentries], ?_⟩
        rw [anyContains, hf]
        cases b with
        | true => exact .inr rfl
        | false => exact hany
      · cases hpure

end Entries

/-! ### Reports -/

/-- The report tells of the location, and of every fence in order whether it contains it; and its
verdict is that some fence does. -/
structure CheckReport.IsOn (r : CheckReport) (fences : List (Fence Float)) (p : Location Float) :
    Prop where
  point_eq : r.point = p
  fences_eq : r.entries.map Entry.fence = fences
  index_eq : r.entries.map Entry.index = List.range r.entries.length
  contains_eq : ∀ e ∈ r.entries, e.fence.contains p = .ok e.contains
  inside_eq : r.inside = r.entries.any Entry.contains

/-- The verdict is that some fence contains the location, and a fence fails all the same. -/
def CutShort (fences : List (Fence Float)) (p : Location Float) : Prop :=
  anyContains fences p = .ok true ∧ ∃ f ∈ fences, ∃ e, f.contains p = .error e

section Reports

variable (tree : FileTree) {fences : List (Fence Float)} {p : Location Float} (json : Bool)

theorem report_tree (fences : List (Fence Float)) (p : Location Float) :
    (report tree fences p json).tree = tree := by
  obtain ⟨-, h⟩ | ⟨-, h⟩ := settles_report tree fences p json <;> exact h

theorem report_stderr (fences : List (Fence Float)) (p : Location Float) :
    (report tree fences p json).stderr = "" := by
  rw [report]
  split
  next => rfl
  next => split <;> rfl

/-- **The report when all fences answer** is one and the same in both formats. -/
theorem exists_report_of_answers {answers : List Bool}
    (h : List.Forall₂ (fun f b => f.contains p = .ok b) fences answers) :
    ∃ r : CheckReport, r.IsOn fences p ∧
      matching fences p = .ok ((r.entries.filter Entry.contains).map Entry.index) ∧
      ∀ json, report tree fences p json =
        .success tree (if json then String.ofList r.data.write ++ "\n" else r.text) := by
  obtain ⟨entries, hentries, -, hany, hhits⟩ := exists_entriesFrom h 0
  rcases asked_entriesFrom p 0 fences with ⟨entries', hentries', hasked⟩ |
    ⟨entries', f, rest, e, hentries', -, -⟩
  · obtain rfl : entries = entries' := congrArg Prod.fst (hentries.symm.trans hentries')
    refine ⟨⟨p, entries.any Entry.contains, entries⟩, ?_, ?_, fun json => ?_⟩
    · exact
        { point_eq := rfl
          fences_eq := (List.append_nil _).symm.trans hasked.fences_eq.symm
          index_eq := hasked.index_eq.trans List.range_eq_range'.symm
          contains_eq := hasked.contains_eq
          inside_eq := rfl }
    · rw [matching_of_answers h, hhits]
    · simp only [report, hany, entriesFor, hentries]
  · cases hentries.symm.trans hentries'

/-- The report breaks off when some fence does not answer. -/
theorem report_of_failure {e : DomainError} (h : fences.mapM (·.contains p) = .error e) :
    (report tree fences p json).ending = .failure (.domain e) := by
  obtain ⟨hentries, hany⟩ := failure_entriesFrom h 0
  have hpair : entriesFor fences p = ((entriesFor fences p).1, some e) :=
    Prod.ext rfl hentries
  obtain hany | hany := hany
  · simp only [report, hany]
    rfl
  · simp only [report, hany]
    rw [hpair]
    rfl

/-- The data are not written when some fence does not answer. -/
theorem stdout_report_of_failure {e : DomainError} (h : fences.mapM (·.contains p) = .error e) :
    (report tree fences p true).stdout = "" := by
  rw [report]
  split
  next => rfl
  next =>
    split
    next hentries =>
      have hfailure := (failure_entriesFrom h 0).1
      rw [show entriesFrom p 0 fences = _ from hentries] at hfailure
      cases hfailure
    next => rfl

/-- The plain report when some fence does not answer: the lines of the fences before it if the
verdict is that some fence contains the location, and nothing if there is no verdict. -/
theorem stdout_plain_report_of_failure {e : DomainError}
    (h : fences.mapM (·.contains p) = .error e) :
    (anyContains fences p ≠ .ok true → (report tree fences p false).stdout = "") ∧
      (anyContains fences p = .ok true → ∃ entries f rest, Asked p 0 fences (f :: rest) entries ∧
        f.contains p = .error e ∧ (report tree fences p false).stdout =
          CheckReport.heading fences.length ++ String.join (entries.map Entry.line)) := by
  obtain ⟨hfailure, hany⟩ := failure_entriesFrom h 0
  constructor
  · intro hnot
    simp only [report, hany.resolve_right hnot]
    rfl
  · intro hyes
    rcases asked_entriesFrom p 0 fences with ⟨entries, hentries, -⟩ |
      ⟨entries, f, rest, e', hentries, hasked, hf⟩
    · rw [hentries] at hfailure
      cases hfailure
    · rw [hentries] at hfailure
      cases hfailure
      refine ⟨entries, f, rest, hasked, hf, ?_⟩
      simp only [report, hyes, entriesFor, hentries]
      rfl

/-- **The report in both formats**, when all fences answer and when some fence fails. -/
theorem report_in_both_formats (tree : FileTree) (fences : List (Fence Float))
    (p : Location Float) :
    (∃ r : CheckReport, r.IsOn fences p ∧ ¬CutShort fences p ∧
        report tree fences p false = .success tree r.text ∧
        report tree fences p true = .success tree (String.ofList r.data.write ++ "\n")) ∨
      ∃ e, (∀ json, (report tree fences p json).ending = .failure (.domain e)) ∧
        (report tree fences p true).stdout = "" ∧
        (¬CutShort fences p → (report tree fences p false).stdout = "") ∧
        (CutShort fences p → ∃ entries f rest, Asked p 0 fences (f :: rest) entries ∧
          f.contains p = .error e ∧ (report tree fences p false).stdout =
            CheckReport.heading fences.length ++ String.join (entries.map Entry.line)) := by
  cases hanswers : fences.mapM (·.contains p) with
  | ok answers =>
      obtain ⟨r, hr, -, hreport⟩ := exists_report_of_answers tree (mapM_eq_ok_iff.mp hanswers)
      refine .inl ⟨r, hr, ?_, hreport false, hreport true⟩
      rintro ⟨-, f, hf, e, hfails⟩
      obtain ⟨b, hb⟩ := exists_mapM_eq_ok_iff.mp ⟨answers, hanswers⟩ f hf
      cases hb.symm.trans hfails
  | error e =>
      obtain ⟨hnothing, hlines⟩ := stdout_plain_report_of_failure tree hanswers
      refine .inr ⟨e, fun json => report_of_failure tree json hanswers,
        stdout_report_of_failure tree hanswers, fun hcut => ?_, fun hcut => hlines hcut.1⟩
      refine hnothing fun hyes => hcut ⟨hyes, ?_⟩
      obtain ⟨_, f, _, hasked, hf, -⟩ := hlines hyes
      exact ⟨f, by rw [hasked.fences_eq]; simp, e, hf⟩

end Reports

/-! ### Whole checks -/

/-- The two texts of a check are there, and stand for the fences and the location. -/
structure ReadAs (strict : Bool) (geometries point : Supplied Text) (fences : List (Fence Float))
    (p : Location Float) : Prop where
  fences_read : ∃ encoded, geometries = .value encoded ∧
    (readFences strict encoded).result = .ok fences
  point_read : ∃ encoded, point = .value encoded ∧ readLocation encoded = .ok p

section Checks

variable {strict : Bool} {geometries point : Supplied Text} {fences fences' : List (Fence Float)}
  {p p' : Location Float}

theorem ReadAs.unique (h : ReadAs strict geometries point fences p)
    (h' : ReadAs strict geometries point fences' p') : fences = fences' ∧ p = p' := by
  obtain ⟨⟨encoded, rfl, hfences⟩, text, rfl, hp⟩ := h
  obtain ⟨⟨_, ⟨⟩, hfences'⟩, _, ⟨⟩, hp'⟩ := h'
  exact ⟨Except.ok.inj (hfences.symm.trans hfences'), Except.ok.inj (hp.symm.trans hp')⟩

/-- Each fence of a report on what was read is read back from its text. -/
theorem readFences_write_of_isOn (h : ReadAs strict geometries point fences p) {r : CheckReport}
    (hr : r.IsOn fences p) :
    ∀ e ∈ r.entries, readFences true e.fence.write = ⟨.ok [e.fence], []⟩ := by
  obtain ⟨⟨encoded, -, hfences⟩, -⟩ := h
  intro e he
  have hmem : e.fence ∈ fences := hr.fences_eq ▸ List.mem_map_of_mem he
  rw [← Text.join_singleton ';' e.fence.write]
  exact readFences_writeFences true
    (List.forall_mem_singleton.2 (isFinite_of_mem_readFences hfences _ hmem))

/-- The run stops with nothing changed and nothing written. -/
def Outcome.Silent (tree : FileTree) (o : Outcome) : Prop := o.Fruitless tree ∧ o.stdout = ""

theorem Outcome.silent_refusal (tree : FileTree) (stderr : String) :
    (refusal tree stderr).Silent tree := by
  refine ⟨⟨fun h => ?_, rfl⟩, rfl⟩
  cases h

theorem Outcome.silent_broken (tree : FileTree) (cause : Failure) :
    (broken tree cause "").Silent tree := by
  refine ⟨⟨fun h => ?_, rfl⟩, rfl⟩
  cases h

theorem Outcome.Silent.afterLog {tree : FileTree} {o : Outcome} (h : o.Silent tree)
    (log : String) : (o.afterLog log).Silent tree := h

/-- **The two formats part at the report**: before it the check stops in both formats alike, with
nothing written. -/
theorem runCheck_cases (verbose : Bool) (tree : FileTree) (strict : Bool)
    (geometries point : Supplied Text) :
    ((∀ fences p, ¬ReadAs strict geometries point fences p) ∧
      ∃ o : Outcome, o.Silent tree ∧
        ∀ json, runCheck verbose tree strict geometries point json = o) ∨
    ∃ fences p log, ReadAs strict geometries point fences p ∧
      ∀ json, runCheck verbose tree strict geometries point json =
        (report tree fences p json).afterLog log := by
  cases geometries with
  | nothing =>
      refine .inl ⟨?_, _, Outcome.silent_broken _ _, fun _ => rfl⟩
      rintro fences p ⟨⟨_, ⟨⟩, _⟩, _⟩
  | value encoded =>
      cases hfences : (readFences strict encoded).result with
      | error cause =>
          refine .inl ⟨?_, _, (Outcome.silent_refusal _ _).afterLog _,
            fun _ => withFences_of_error hfences⟩
          rintro fences p ⟨⟨_, ⟨⟩, h⟩, _⟩
          cases hfences.symm.trans h
      | ok fences =>
          simp only [runCheck, withFences_of_ok hfences]
          cases point with
          | nothing =>
              refine .inl ⟨?_, _, (Outcome.silent_broken _ _).afterLog _, fun _ => rfl⟩
              rintro fences p ⟨_, _, ⟨⟩, _⟩
          | value text =>
              simp only [Outcome.withSupplied, Supplied.forNeed_value]
              cases hp : readLocation text with
              | error cause =>
                  refine .inl ⟨?_, _, (Outcome.silent_refusal _ _).afterLog _, fun _ => rfl⟩
                  rintro fences p ⟨_, _, ⟨⟩, h⟩
                  cases hp.symm.trans h
              | ok p => exact .inr ⟨fences, p, _, ⟨⟨encoded, rfl, hfences⟩, text, rfl, hp⟩, fun _ => rfl⟩

/-- **The check in both formats** ends alike, with the same log and with no file changed.  If it ends
well, both formats report the same entries, those of all fences in order, and the same verdict, that
some entry contains the location; and the fence of each entry is read back from its text.  If it does
not, no data are written, and no plain lines either, unless a fence fails behind one that contains the
location.  Then the plain lines of the fences before it are out. -/
theorem check_in_both_formats (verbose : Bool) (tree : FileTree) (strict : Bool)
    (geometries point : Supplied Text) :
    let check (json : Bool) := (Command.check geometries strict point json).run verbose tree
    (check false).ending = (check true).ending ∧ (check false).stderr = (check true).stderr ∧
      (∀ json, (check json).tree = tree) ∧
      ((check true).ending = .exit 0 → ∃ fences p r, ReadAs strict geometries point fences p ∧
        CheckReport.IsOn r fences p ∧
        (∀ e ∈ r.entries, readFences true e.fence.write = ⟨.ok [e.fence], []⟩) ∧
        (check false).stdout = r.text ∧
        (check true).stdout = String.ofList r.data.write ++ "\n") ∧
      ((check true).ending ≠ .exit 0 → (check true).stdout = "") ∧
      ((check false).ending ≠ .exit 0 →
        (¬∃ fences p, ReadAs strict geometries point fences p ∧ CutShort fences p) →
          (check false).stdout = "") ∧
      ∀ fences p, ReadAs strict geometries point fences p → CutShort fences p →
        ∃ entries f rest e, Asked p 0 fences (f :: rest) entries ∧ f.contains p = .error e ∧
          (check false).ending = .failure (.domain e) ∧
          (check false).stdout = CheckReport.heading fences.length ++
            String.join (entries.map Entry.line) := by
  intro check
  rcases runCheck_cases verbose tree strict geometries point with
    ⟨hread, o, ⟨hfruitless, hstdout⟩, hruns⟩ | ⟨fences, p, log, hread, hruns⟩
  · have hcheck : ∀ json, check json = o := hruns
    simp only [hcheck]
    exact ⟨trivial, trivial, fun _ => hfruitless.2, fun h => absurd h hfruitless.1,
      fun _ => hstdout, fun _ _ => hstdout, fun fences p h => absurd h (hread fences p)⟩
  · have hcheck : ∀ json, check json = (report tree fences p json).afterLog log := hruns
    simp only [hcheck, Outcome.afterLog, report_tree, report_stderr, implies_true, true_and]
    rcases report_in_both_formats tree fences p with
      ⟨r, hr, hwhole, hplain, hdata⟩ | ⟨e, hending, hstdout, hwhole, hcut⟩
    · simp only [hplain, hdata, Outcome.success, ne_eq, not_true_eq_false, false_imp_iff, true_and,
        forall_const]
      refine ⟨⟨fences, p, r, hread, hr, readFences_write_of_isOn hread hr, rfl, rfl⟩, ?_⟩
      intro fences' p' hread' hcut
      obtain ⟨rfl, rfl⟩ := hread.unique hread'
      exact absurd hcut hwhole
    · simp only [hending, hstdout, true_and, implies_true]
      refine ⟨fun h => Ending.noConfusion h, ?_, fun fences' p' hread' h => ?_⟩
      · exact fun _ hnot => hwhole fun h => hnot ⟨fences, p, hread, h⟩
      · obtain ⟨rfl, rfl⟩ := hread.unique hread'
        obtain ⟨entries, f, rest, hasked, hf, hlines⟩ := hcut h
        exact ⟨entries, f, rest, e, hasked, hf, hlines⟩

end Checks

/-- A triangle at the end of the range of numbers. -/
def rim : Polygon Float := ⟨[⟨1e308, 0⟩, ⟨1e308, 1⟩, ⟨1e308, 1⟩], by decide⟩

/-- A circle at the other end. -/
def farCircle : Circle Float := ⟨⟨-1e308, 0⟩, 500, by decide +kernel⟩

/-- The check of the first vertex of the triangle. -/
def rimCheck (fences : List (Fence Float)) (json : Bool) : Outcome :=
  (Command.check (.value (writeFences fences)) true (.value (writeLocation ⟨1e308, 0⟩)) json).run
    false ⟨[], [], []⟩

theorem rim_readAs :
    ReadAs true (.value (writeFences [.polygon rim, .circle farCircle]))
      (.value (writeLocation ⟨1e308, 0⟩)) [.polygon rim, .circle farCircle] ⟨1e308, 0⟩ where
  fences_read := ⟨_, rfl, by rw [readFences_writeFences true (by decide +kernel)]⟩
  point_read := ⟨_, rfl, readLocation_writeLocation (by decide +kernel)⟩

theorem rim_cutShort : CutShort [.polygon rim, .circle farCircle] ⟨1e308, 0⟩ := by
  have hrim : (Fence.polygon rim).contains ⟨1e308, 0⟩ = .ok true :=
    congrArg Except.ok (by decide +kernel)
  exact ⟨anyContains_cons_of_true hrim, .circle farCircle, by simp, .outside, by decide +kernel⟩

/-- Against the triangle alone, both formats report.  Against both, the line of the triangle is out
when the circle fails, and no data are. -/
theorem rim_in_both_formats :
    ((rimCheck [.polygon rim] true).ending = .exit 0 ∧ ∃ r : CheckReport,
      (rimCheck [.polygon rim] false).stdout = r.text ∧
        (rimCheck [.polygon rim] true).stdout = String.ofList r.data.write ++ "\n" ∧
        ∀ e ∈ r.entries, readFences true e.fence.write = ⟨.ok [e.fence], []⟩) ∧
    (rimCheck [.polygon rim, .circle farCircle] true).ending ≠ .exit 0 ∧
      (rimCheck [.polygon rim, .circle farCircle] true).stdout = "" ∧
      ∃ entries f rest e, Asked ⟨1e308, 0⟩ 0 [.polygon rim, .circle farCircle] (f :: rest) entries ∧
        f.contains ⟨1e308, 0⟩ = .error e ∧
        (rimCheck [.polygon rim, .circle farCircle] false).ending = .failure (.domain e) ∧
        (rimCheck [.polygon rim, .circle farCircle] false).stdout =
          CheckReport.heading 2 ++ String.join (entries.map Entry.line) := by
  have hwell : (rimCheck [.polygon rim] true).ending = .exit 0 := by decide +kernel
  have hbroken : (rimCheck [.polygon rim, .circle farCircle] true).ending ≠ .exit 0 := by
    decide +kernel
  refine ⟨⟨hwell, ?_⟩, hbroken, ?_, ?_⟩
  · obtain ⟨-, -, -, hreport, -⟩ := check_in_both_formats false ⟨[], [], []⟩ true
      (.value (writeFences [.polygon rim])) (.value (writeLocation ⟨1e308, 0⟩))
    obtain ⟨_, _, r, -, -, hencoded, hplain, hdata⟩ := hreport hwell
    exact ⟨r, hplain, hdata, hencoded⟩
  · obtain ⟨-, -, -, -, hnothing, -⟩ := check_in_both_formats false ⟨[], [], []⟩ true
      (.value (writeFences [.polygon rim, .circle farCircle])) (.value (writeLocation ⟨1e308, 0⟩))
    exact hnothing hbroken
  · obtain ⟨-, -, -, -, -, -, hcut⟩ := check_in_both_formats false ⟨[], [], []⟩ true
      (.value (writeFences [.polygon rim, .circle farCircle])) (.value (writeLocation ⟨1e308, 0⟩))
    exact hcut _ _ rim_readAs rim_cutShort

/-- The arguments of a check of the first vertex of the triangle against both. -/
def rimArguments : List Text :=
  ["check".toList, "--geometries".toList,
    "polygon|1e308,0|1e308,1|1e308,1;circle|-1e308,0|500".toList, "--point".toList,
    "1e308,0".toList]

/-- A check that breaks off has written two lines. -/
theorem rim_check_writes_before_failure :
    (run ⟨[], [], []⟩ rimArguments).ending = .failure (.domain .outside) ∧
      (run ⟨[], [], []⟩ rimArguments).stdout = "### 围栏数量：2\n0\tpolygon\tcontains=True\n" ∧
      (run ⟨[], [], []⟩ (rimArguments ++ ["--json".toList])).ending =
        .failure (.domain .outside) ∧
      (run ⟨[], [], []⟩ (rimArguments ++ ["--json".toList])).stdout = "" := by
  decide +kernel

end Geofence
