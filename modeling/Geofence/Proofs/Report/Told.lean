/-
What a report tells.

The plain lines of a report and its data are read back here, each by a reader of its own that knows
the format and nothing of the report.  The lines fall apart at their line ends, and the line of an
entry at its tabs, since neither stands in the name of a kind or among the characters of a number.
Both readers find the same: how many fences there are, the position, the kind and the answer of each,
the location, and the verdict on it.  The data have the text of each fence besides.

Main definitions:

* `Geofence.Told` — what a report tells;
* `Geofence.Told.ofPlain?`, `Geofence.Told.ofData?` — what plain lines and data tell.

Main results:

* `Geofence.CheckReport.ofPlain?_text`, `Geofence.CheckReport.ofData?_data` — what the two formats of
  a report tell;
* `Geofence.told_alike` — the two formats of a check tell the same.
-/

import Geofence.Proofs.Command.Formats

set_option relaxedAutoImplicit false
set_option autoImplicit false

namespace Geofence

open Text Numeral

/-! ### Two readers -/

/-- What is told of a fence: its position, its kind, and whether it contains the location. -/
structure EntryTold where
  index : ℕ
  kind : Text
  contains : Bool

/-- What a report tells. -/
structure Told where
  count : ℕ
  entries : List EntryTold
  point : Location Float
  inside : Bool

/-- The truth value of a word. -/
def truth? (t : Text) : Option Bool :=
  if t = "True".toList then some true else if t = "False".toList then some false else none

/-- What stands behind a name and an equals sign. -/
def named? (name t : Text) : Option Text :=
  match cut '=' t with
  | [front, value] => if front = name then some value else none
  | _ => none

/-- What the line of an entry tells. -/
def EntryTold.ofLine? (line : Text) : Option EntryTold :=
  match cut '\t' line with
  | [index, kind, flag] =>
    ((named? "contains".toList flag).bind truth?).map (⟨ofDigits index, kind, ·⟩)
  | _ => none

/-- What plain lines tell: the first one of the number of fences, and the last one, behind an empty
one, of the location. -/
def Told.ofPlain? (t : Text) : Option Told :=
  match (cut '\n' t).reverse with
  | [] :: closing :: [] :: lines =>
    match lines.reverse, cut ' ' closing with
    | heading :: lines, [point, inside] => do
      let count ← (cut '：' heading)[1]?
      let entries ← lines.mapM EntryTold.ofLine?
      let encoded ← named? "point".toList point
      let p ← (readLocation encoded).toOption
      let b ← (named? "inside".toList inside).bind truth?
      some ⟨ofDigits count, entries, p, b⟩
    | _, _ => none
  | _ => none

namespace Json

/-- The member of an object with a name. -/
def member? (name : String) : Json → Option Json
  | object members => members.lookup name.toList
  | _ => none

/-- The value of a text. -/
def text? : Json → Option Text
  | text t => some t
  | _ => none

/-- The value of a number. -/
def number? : Json → Option Float
  | number x => some x
  | _ => none

/-- The value of a natural number. -/
def count? : Json → Option ℕ
  | count n => some n
  | _ => none

/-- A truth value. -/
def truth? : Json → Option Bool
  | truth b => some b
  | _ => none

/-- The items of a list. -/
def items? : Json → Option (List Json)
  | list items => some items
  | _ => none

end Json

/-- What the data of an entry tell. -/
def EntryTold.ofData? (j : Json) : Option EntryTold := do
  let index ← (j.member? "index").bind Json.count?
  let kind ← (j.member? "kind").bind Json.text?
  let contains ← (j.member? "contains").bind Json.truth?
  some ⟨index, kind, contains⟩

/-- What data tell. -/
def Told.ofData? (j : Json) : Option Told := do
  let point ← j.member? "point"
  let lat ← (point.member? "lat").bind Json.number?
  let lng ← (point.member? "lng").bind Json.number?
  let inside ← (j.member? "inside").bind Json.truth?
  let items ← (j.member? "geometries").bind Json.items?
  let entries ← items.mapM EntryTold.ofData?
  some ⟨items.length, entries, ⟨lat, lng⟩, inside⟩

/-! ### Entries -/

/-- What is told of an entry. -/
def Entry.told (e : Entry) : EntryTold := ⟨e.index, e.fence.kind, e.contains⟩

/-- What is told by a report. -/
def CheckReport.told (r : CheckReport) : Told :=
  ⟨r.entries.length, r.entries.map Entry.told, r.point, r.inside⟩

theorem truth?_truthWord (b : Bool) : truth? (truthWord b).toList = some b := by
  cases b <;> decide

theorem named?_eq {name value : Text} (hname : '=' ∉ name) (hvalue : '=' ∉ value) :
    named? name (name ++ '=' :: value) = some value := by
  rw [named?, cut_eq_pair_iff.mpr ⟨rfl, hname, hvalue⟩]
  exact if_pos rfl

theorem not_mem_truthWord {c : Char} (h : c ∉ "TrueFalse".toList) (b : Bool) :
    c ∉ (truthWord b).toList := by
  have hwords : "TrueFalse".toList = (truthWord true).toList ++ (truthWord false).toList := by decide
  rw [hwords, List.mem_append, not_or] at h
  cases b with
  | true => exact h.1
  | false => exact h.2

/-- A character stands in a named value only if it stands in the name, in the value or between. -/
theorem not_mem_named {c sep : Char} {name value : Text} (hname : c ∉ name) (hsep : c ≠ sep)
    (hvalue : c ∉ value) : c ∉ name ++ sep :: value := by
  rw [List.mem_append, List.mem_cons]
  rintro (hc | hc | hc)
  · exact hname hc
  · exact hsep hc
  · exact hvalue hc

/-- A character that no number is written with does not stand in digits. -/
theorem not_mem_toDigits {c : Char} (h : isPlain c = false) (n : ℕ) : c ∉ Nat.toDigits 10 n := by
  intro hc
  rw [isPlain_of_digits (Digits.toDigits n) c hc] at h
  cases h

theorem not_mem_kind {c : Char} (h : isBlank c = true) (f : Fence Float) : c ∉ f.kind := by
  intro hc
  rw [(Fence.clear_kind f c hc).2] at h
  cases h

/-! ### Lines -/

/-- The line of an entry, without its end. -/
def Entry.lineText (e : Entry) : Text :=
  join '\t' [Nat.toDigits 10 e.index, e.fence.kind,
    "contains".toList ++ '=' :: (truthWord e.contains).toList]

/-- A character stands in none of the parts of the line of an entry. -/
theorem forall_not_mem_line (e : Entry) {c : Char} (hplain : isPlain c = false)
    (hblank : isBlank c = true) (hname : c ∉ "contains".toList) (heq : c ≠ '=')
    (hword : c ∉ "TrueFalse".toList) :
    ∀ t ∈ [Nat.toDigits 10 e.index, e.fence.kind,
      "contains".toList ++ '=' :: (truthWord e.contains).toList], c ∉ t := by
  simp only [List.forall_mem_cons]
  exact ⟨not_mem_toDigits hplain _, not_mem_kind hblank _,
    not_mem_named hname heq (not_mem_truthWord hword _), List.forall_mem_nil _⟩

theorem toList_line (e : Entry) : e.line.toList = e.lineText ++ ['\n'] := by
  have hline : e.line = toString e.index ++ "\t" ++ String.ofList e.fence.kind ++ "\tcontains=" ++
      truthWord e.contains ++ "\n" := rfl
  have hindex : (toString e.index).toList = Nat.toDigits 10 e.index := Nat.toList_repr
  have hbetween : "\tcontains=".toList = '\t' :: "contains".toList ++ ['='] := by decide
  have htab : "\t".toList = ['\t'] := by decide
  have hend : "\n".toList = ['\n'] := by decide
  rw [hline]
  simp only [String.toList_append, String.toList_ofList, hindex, hbetween, htab, hend, Entry.lineText,
    join_cons_cons, join_singleton, List.append_assoc, List.cons_append, List.nil_append]

/-- **The line of an entry** tells of it. -/
theorem ofLine?_lineText (e : Entry) : EntryTold.ofLine? e.lineText = some e.told := by
  have hcut : cut '\t' e.lineText = [Nat.toDigits 10 e.index, e.fence.kind,
      "contains".toList ++ '=' :: (truthWord e.contains).toList] :=
    cut_join (List.cons_ne_nil _ _)
      (forall_not_mem_line e (by decide) (by decide) (by decide) (by decide) (by decide))
  have hflag : named? "contains".toList ("contains".toList ++ '=' :: (truthWord e.contains).toList) =
      some (truthWord e.contains).toList :=
    named?_eq (by decide) (not_mem_truthWord (by decide) _)
  rw [EntryTold.ofLine?, hcut]
  simp only [hflag, Option.bind_some, truth?_truthWord, Option.map_some, ofDigits_toDigits, Entry.told]

theorem not_mem_lineText (e : Entry) : '\n' ∉ e.lineText := by
  intro hmem
  obtain h | ⟨t, ht, hmem⟩ := mem_of_mem_join hmem
  · exact absurd h (by decide)
  · exact forall_not_mem_line e (by decide) (by decide) (by decide) (by decide) (by decide) t ht hmem

/-- The name of the number of fences. -/
def headingName : Text := ['#', '#', '#', ' ', '围', '栏', '数', '量']

/-- The first line, without its end. -/
def headingText (count : ℕ) : Text := headingName ++ '：' :: Nat.toDigits 10 count

theorem toList_heading (count : ℕ) :
    (CheckReport.heading count).toList = headingText count ++ ['\n'] := by
  have hheading : CheckReport.heading count = "### 围栏数量：" ++ toString count ++ "\n" := rfl
  have hcount : (toString count).toList = Nat.toDigits 10 count := Nat.toList_repr
  have hname : "### 围栏数量：".toList = headingName ++ ['：'] := by decide +kernel
  have hend : "\n".toList = ['\n'] := by decide
  rw [hheading, String.toList_append, String.toList_append, hcount, hname, hend, headingText,
    List.append_assoc, List.append_assoc, List.append_assoc]
  rfl

theorem not_mem_headingText (count : ℕ) : '\n' ∉ headingText count :=
  not_mem_named (by decide) (by decide) (not_mem_toDigits (by decide) count)

theorem cut_headingText (count : ℕ) :
    cut '：' (headingText count) = [headingName, Nat.toDigits 10 count] :=
  cut_eq_pair_iff.mpr ⟨rfl, by decide, not_mem_toDigits (by decide) count⟩

/-- The last line, without its end. -/
def CheckReport.closingText (r : CheckReport) : Text :=
  ("point".toList ++ '=' :: writeLocation r.point) ++
    ' ' :: ("inside".toList ++ '=' :: (truthWord r.inside).toList)

theorem toList_closing (r : CheckReport) : r.closing.toList = r.closingText ++ ['\n'] := by
  have hclosing : r.closing = "point=" ++ String.ofList (writeLocation r.point) ++ " inside=" ++
      truthWord r.inside ++ "\n" := rfl
  have hpoint : "point=".toList = "point".toList ++ ['='] := by decide
  have hinside : " inside=".toList = ' ' :: "inside".toList ++ ['='] := by decide
  have hend : "\n".toList = ['\n'] := by decide
  rw [hclosing]
  simp only [String.toList_append, String.toList_ofList, hpoint, hinside, hend,
    CheckReport.closingText, List.append_assoc, List.cons_append, List.nil_append]

section Finite

variable {r : CheckReport}

theorem not_mem_writeLocation (h : r.point.IsFinite) {c : Char} (hc : isPlain c = false)
    (hcomma : ',' ≠ c) : c ∉ writeLocation r.point :=
  fun hmem => (clear_writeLocation h hc hcomma c hmem).1 rfl

theorem not_mem_closingText (h : r.point.IsFinite) : '\n' ∉ r.closingText := by
  rw [CheckReport.closingText]
  refine not_mem_named ?_ (by decide) ?_
  · exact not_mem_named (by decide) (by decide) (not_mem_writeLocation h (by decide) (by decide))
  · exact not_mem_named (by decide) (by decide) (not_mem_truthWord (by decide) _)

theorem cut_closingText (h : r.point.IsFinite) :
    cut ' ' r.closingText = ["point".toList ++ '=' :: writeLocation r.point,
      "inside".toList ++ '=' :: (truthWord r.inside).toList] :=
  cut_eq_pair_iff.mpr ⟨rfl,
    not_mem_named (by decide) (by decide) (not_mem_writeLocation h (by decide) (by decide)),
    not_mem_named (by decide) (by decide) (not_mem_truthWord (by decide) _)⟩

end Finite

/-- Lines fall apart at their ends. -/
theorem cut_lines {lines : List Text} (h : ∀ t ∈ lines, '\n' ∉ t) :
    cut '\n' (lines.flatMap (· ++ ['\n'])) = lines ++ [[]] := by
  induction lines with
  | nil => rfl
  | cons t lines ih =>
    obtain ⟨ht, hlines⟩ := List.forall_mem_cons.mp h
    rw [List.flatMap_cons, List.append_assoc, List.singleton_append, cut_append, cut_of_not_mem ht,
      ih hlines]
    rfl

/-! ### Reports -/

theorem mapM_eq_some {α β γ : Type} {f : β → Option γ} {g : α → β} {k : α → γ}
    (h : ∀ a, f (g a) = some (k a)) (xs : List α) : (xs.map g).mapM f = some (xs.map k) := by
  induction xs with
  | nil => rfl
  | cons a xs ih =>
    rw [List.map_cons, List.mapM_cons, h, ih]
    rfl

theorem toList_text (r : CheckReport) : r.text.toList =
    (headingText r.entries.length :: r.entries.map Entry.lineText ++ [[], r.closingText]).flatMap
      (· ++ ['\n']) := by
  have hend : "\n".toList = ['\n'] := by decide
  have hlines : (String.join (r.entries.map Entry.line)).toList =
      (r.entries.map Entry.lineText).flatMap (· ++ ['\n']) := by
    rw [String.toList_join, List.flatMap_map, List.flatMap_map]
    exact List.flatMap_congr fun e _ => toList_line e
  rw [CheckReport.text]
  simp only [String.toList_append, toList_heading, hlines, hend, toList_closing, List.cons_append,
    List.flatMap_cons, List.flatMap_append, List.flatMap_nil, List.append_assoc, List.nil_append,
    List.append_nil]

/-- **What plain lines tell** of a location with finite coordinates. -/
theorem CheckReport.ofPlain?_text {r : CheckReport} (h : r.point.IsFinite) :
    Told.ofPlain? r.text.toList = some r.told := by
  have hcut : cut '\n' r.text.toList = headingText r.entries.length :: r.entries.map Entry.lineText ++
      [[], r.closingText] ++ [[]] := by
    rw [toList_text]
    apply cut_lines
    simp only [List.cons_append, List.forall_mem_cons, List.forall_mem_append, List.forall_mem_map]
    exact ⟨not_mem_headingText _, fun e _ => not_mem_lineText e, List.not_mem_nil,
      not_mem_closingText h, List.forall_mem_nil _⟩
  have hpoint : named? "point".toList ("point".toList ++ '=' :: writeLocation r.point) =
      some (writeLocation r.point) :=
    named?_eq (by decide) (not_mem_writeLocation h (by decide) (by decide))
  have hinside : named? "inside".toList ("inside".toList ++ '=' :: (truthWord r.inside).toList) =
      some (truthWord r.inside).toList :=
    named?_eq (by decide) (not_mem_truthWord (by decide) _)
  have hentries : (r.entries.map Entry.lineText).mapM EntryTold.ofLine? =
      some (r.entries.map Entry.told) :=
    mapM_eq_some ofLine?_lineText r.entries
  have hverdict : (some (truthWord r.inside).toList).bind truth? = some r.inside :=
    truth?_truthWord r.inside
  rw [Told.ofPlain?, hcut]
  simp only [List.reverse_append, List.reverse_cons, List.reverse_nil, List.nil_append,
    List.cons_append, List.reverse_reverse, cut_closingText h, cut_headingText, hentries, hpoint,
    hinside, hverdict, List.getElem?_cons_succ, List.getElem?_cons_zero, Option.bind_eq_bind,
    Option.bind_some, readLocation_writeLocation h, Except.toOption, ofDigits_toDigits]
  rfl

theorem ofData?_data_entry (e : Entry) : EntryTold.ofData? e.data = some e.told := rfl

/-- **What data tell.** -/
theorem CheckReport.ofData?_data (r : CheckReport) : Told.ofData? r.data = some r.told := by
  have hentries : (r.entries.map Entry.data).mapM EntryTold.ofData? =
      some (r.entries.map Entry.told) :=
    mapM_eq_some ofData?_data_entry r.entries
  -- the members are found by their names
  have hmembers : Told.ofData? r.data =
      ((r.entries.map Entry.data).mapM EntryTold.ofData?).bind fun entries =>
        some ⟨(r.entries.map Entry.data).length, entries, r.point, r.inside⟩ := rfl
  rw [hmembers, hentries, List.length_map]
  rfl

/-- **The two formats of a check tell the same**: as many fences, the same positions, kinds and
answers, the location and the verdict. -/
theorem told_alike {strict : Bool} {geometries point : Supplied Text} {fences : List (Fence Float)}
    {p : Location Float} (hread : ReadAs strict geometries point fences p) {r : CheckReport}
    (hr : r.IsOn fences p) :
    ∃ told : Told, Told.ofPlain? r.text.toList = some told ∧ Told.ofData? r.data = some told ∧
      told.count = fences.length ∧ told.entries.map EntryTold.kind = fences.map Fence.kind ∧
      told.point = p ∧ told.inside = told.entries.any EntryTold.contains := by
  obtain ⟨-, encoded, -, hpoint⟩ := hread
  have hfinite : r.point.IsFinite := by
    rw [hr.point_eq]
    exact (readLocation_eq_ok_iff.mp hpoint).isFinite
  refine ⟨r.told, r.ofPlain?_text hfinite, r.ofData?_data, ?_, ?_, hr.point_eq, ?_⟩
  · rw [← hr.fences_eq, List.length_map]
    rfl
  · rw [← hr.fences_eq, CheckReport.told, List.map_map, List.map_map]
    rfl
  · rw [CheckReport.told, List.any_map]
    exact hr.inside_eq

end Geofence
