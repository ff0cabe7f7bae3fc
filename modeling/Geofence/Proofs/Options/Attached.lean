/-
Values that are attached to the names of options.

A value that is attached to a long name by an equals sign is not judged: only what stands before the
first equals sign is compared with the names there are, so dashes and spaces in the value do not
matter.  Nor do they where the option is not known, as among the options before a command.  Thus a
table can be checked with any texts, where two dashes alone are kept as a value, and otherwise with
any but these.

Main definitions:

* `Geofence.attached` — a name with a value;
* `Geofence.IsDelivered` — a text that is the value it is attached as;
* `Geofence.tableArguments` — arguments that ask for a check of a table.

Main results:

* `Geofence.shapeOf_attached`, `Geofence.exists_shapeOf_attached` — an option that is known, and one
  that is not;
* `Geofence.scanTokens_attached` — the setting that it makes;
* `Geofence.ofArguments_tableArguments` — the request.
-/

import Geofence.Command.Arguments
import Geofence.Proofs.Success

set_option relaxedAutoImplicit false
set_option autoImplicit false

namespace Geofence

/-- A name with a value attached by an equals sign. -/
def attached (name value : Text) : Text := name ++ '=' :: value

section Attached

variable {κ : Type} {os : List (Opt κ)} {o : Opt κ} {name value : Text}

theorem mem_attached : '=' ∈ attached name value := by simp [attached]

theorem attached_ne_dashes : attached name value ≠ dashes := by
  intro h
  have hmem : '=' ∈ dashes := h ▸ mem_attached
  exact absurd hmem (by decide)

theorem splitValue_attached (h : '=' ∉ name) :
    splitValue (attached name value) = (name, some value) := by
  have hname : ∀ c ∈ name, decide (c ≠ '=') = true := by
    intro c hc
    exact decide_eq_true (ne_of_mem_of_not_mem hc h)
  rw [splitValue, attached, List.span_eq_takeWhile_dropWhile,
    List.takeWhile_append_of_pos hname, List.dropWhile_append_of_pos hname]
  simp

theorem mem_of_optionNamed? (h : optionNamed? os name = some o) : (name, o) ∈ namedOptions os := by
  obtain ⟨⟨name', o'⟩, hfind, rfl⟩ := Option.map_eq_some_iff.mp h
  have hname : name' = name := by simpa using List.find?_some hfind
  subst hname
  exact List.mem_of_find?_eq_some hfind

theorem optionNamed?_eq_none (h : ∀ named ∈ namedOptions os, named.1 ≠ name) :
    optionNamed? os name = none := by
  rw [optionNamed?, List.find?_eq_none.mpr]
  · rfl
  · simpa using h

/-! ### Shapes -/

/-- **A value attached to the name of an option**, whatever the value is. -/
theorem shapeOf_attached (hos : ∀ named ∈ namedOptions os, '=' ∉ named.1)
    (hname : optionNamed? os name = some o) (hdash : name.head? = some '-') :
    shapeOf os (attached name value) = .ok (.option o name (some value)) := by
  have hplain : '=' ∉ name := hos _ (mem_of_optionNamed? hname)
  have hother : optionNamed? os (attached name value) = none := by
    refine optionNamed?_eq_none fun named hnamed h => hos named hnamed ?_
    rw [h]
    exact mem_attached
  cases name with
  | nil => cases hdash
  | cons c rest =>
    have hhead : (attached (c :: rest) value).head? = some '-' := hdash
    have hlength : (attached (c :: rest) value).length ≠ 1 := by
      simp only [attached, List.cons_append, List.length_cons, List.length_append]
      omega
    simp only [shapeOf, hhead, ne_eq, not_true_eq_false, if_false, hother, hlength,
      splitValue_attached hplain, hname]

/-- A value attached to a long name that is not the beginning of any there are leaves no doubt
either. -/
theorem exists_shapeOf_attached (hplain : '=' ∉ name) (hlong : dashes <+: name)
    (hforeign : ∀ named ∈ namedOptions os, ¬name <+: named.1) :
    ∃ shape, shapeOf os (attached name value) = .ok shape := by
  obtain ⟨rest, rfl⟩ := hlong
  have hother : ∀ other, dashes ++ rest <+: other → optionNamed? os other = none :=
    fun other hother => optionNamed?_eq_none fun named hnamed h => hforeign named hnamed (h ▸ hother)
  have hnone : candidates os (attached (dashes ++ rest) value) = [] := by
    have hisLong : isLong (attached (dashes ++ rest) value) = true := rfl
    simp only [candidates, hisLong, if_true, splitValue_attached hplain]
    rw [List.filterMap_eq_nil_iff]
    intro named hnamed
    rw [if_neg]
    rw [List.isPrefixOf_iff_prefix]
    exact hforeign named hnamed
  have hhead : (attached (dashes ++ rest) value).head? = some '-' := rfl
  have hlength : (attached (dashes ++ rest) value).length ≠ 1 := by
    simp only [attached, dashes, List.cons_append, List.length_cons]
    omega
  simp only [shapeOf, hhead, ne_eq, not_true_eq_false, if_false, hlength,
    splitValue_attached hplain, hother (attached (dashes ++ rest) value) (List.prefix_append _ _),
    hother _ List.prefix_rfl, shapeOfUnnamed, hnone]
  split_ifs
  · exact ⟨_, rfl⟩
  · exact ⟨_, rfl⟩

/-! ### Settings -/

/-- The text is delivered as the value of the option it is attached to: it is not two dashes, unless
these are kept. -/
def IsDelivered (rule : AttachedDashes) (value : Text) : Prop := ¬(rule = .dropped ∧ value = dashes)

/-- Every text is delivered where dashes are kept. -/
theorem isDelivered_of_kept (value : Text) : IsDelivered .kept value :=
  fun h => AttachedDashes.noConfusion h.1

section Rule

variable {rule : AttachedDashes}

theorem scanTokens_attached (hkind : o.kind = .text) (hvalue : IsDelivered rule value)
    (commands : Bool) (t : Text) (rest : List (Token κ)) :
    scanTokens rule os commands (.argument t (.option o name (some value)) :: rest) =
      (scanTokens rule os commands rest).map (.addSettings [.text o.key (.value value)]) := by
  have htakes : o.takesValue = true := by simp [Opt.takesValue, hkind]
  have hcluster : cluster os o name value = .ok ([], o, some value) := by
    cases value <;> simp only [cluster, htakes, if_true]
  have hsetting : settingsOf [] (valueSetting rule o value) =
      .ok [.text o.key (.value value)] := by
    rw [valueSetting, hkind, if_neg (by decide), suppliedBy, if_neg hvalue]
    rfl
  rw [scanTokens, optionsIn, hcluster]
  -- no marks stand in front of the option
  change (settingsOf [] (valueSetting rule o value) >>= fun settings =>
    (scanTokens rule os commands rest).map (Scanned.addSettings settings)) = _
  rw [hsetting]
  rfl

/-- **The setting that an attached text makes**, in front of the others. -/
theorem scanArguments_attached (hos : ∀ named ∈ namedOptions os, '=' ∉ named.1)
    (hname : optionNamed? os name = some o) (hdash : name.head? = some '-')
    (hkind : o.kind = .text) (hvalue : IsDelivered rule value) (commands : Bool)
    (rest : List Text) :
    scanArguments rule os commands (attached name value :: rest) =
      (scanArguments rule os commands rest).map (.addSettings [.text o.key (.value value)]) := by
  have hshape : shapeOf os (attached name value) = .ok (.option o name (some value)) :=
    shapeOf_attached hos hname hdash
  rw [scanArguments, scanArguments, Token.ofArguments, if_neg attached_ne_dashes, hshape]
  cases Token.ofArguments os rest with
  | error fault => rfl
  | ok tokens => exact scanTokens_attached hkind hvalue commands _ tokens

end Rule

/-! ### Commands -/

/-- Arguments that leave no doubt are judged. -/
theorem exists_ofArguments {arguments : List Text}
    (h : ∀ t ∈ arguments, ∃ shape, shapeOf os t = .ok shape) :
    ∃ tokens, Token.ofArguments os arguments = .ok tokens := by
  induction arguments with
  | nil => exact ⟨[], rfl⟩
  | cons t rest ih =>
    obtain ⟨⟨shape, hshape⟩, hrest⟩ := List.forall_mem_cons.mp h
    obtain ⟨tokens, htokens⟩ := ih hrest
    rw [Token.ofArguments]
    split
    next => exact ⟨_, rfl⟩
    next => exact ⟨.argument t shape :: tokens, by rw [hshape, htokens]; rfl⟩

/-- Judging keeps the arguments. -/
theorem map_text_of_ofArguments {arguments : List Text} {tokens : List (Token κ)}
    (h : Token.ofArguments os arguments = .ok tokens) : tokens.map Token.text = arguments := by
  induction arguments generalizing tokens with
  | nil =>
    cases h
    rfl
  | cons t rest ih =>
    rw [Token.ofArguments] at h
    split at h
    next ht =>
      cases h
      simp [ht, Token.text, Function.comp_def]
    next =>
      obtain ⟨shape, -, h⟩ := bind_eq_ok_iff.mp h
      obtain ⟨others, hothers, h⟩ := bind_eq_ok_iff.mp h
      cases h
      rw [List.map_cons, ih hothers]
      rfl

/-- A command takes all arguments behind it. -/
theorem scanArguments_command (rule : AttachedDashes) {command : Text} {rest : List Text}
    (hne : command ≠ dashes) (hcommand : shapeOf os command = .ok .operand)
    (hrest : ∀ t ∈ rest, ∃ shape, shapeOf os t = .ok shape) :
    scanArguments rule os true (command :: rest) = .ok ⟨[], [], some (command, rest)⟩ := by
  obtain ⟨tokens, htokens⟩ := exists_ofArguments hrest
  have hall : Token.ofArguments os (command :: rest) =
      .ok (.argument command .operand :: tokens) := by
    rw [Token.ofArguments, if_neg hne, hcommand, htokens]
    rfl
  rw [scanArguments, hall, ← map_text_of_ofArguments htokens]
  rfl

end Attached

/-! ### Checking a table -/

/-- Arguments behind the name of the command that checks a table. -/
def tableOptions (geometries : Text) (strict : Bool) (source target : Text) : List Text :=
  attached "--geometries".toList geometries :: attached "--csv".toList source ::
    attached "--out".toList target :: if strict then ["--strict".toList] else []

/-- Arguments that ask for a check of a table. -/
def tableArguments (geometries : Text) (strict : Bool) (source target : Text) : List Text :=
  "check-csv".toList :: tableOptions geometries strict source target

variable {rule : AttachedDashes} {geometries source target : Text}

/-- The options of the command leave no doubt before it, where none of them is known. -/
theorem exists_shapeOf_tableOptions (strict : Bool) :
    ∀ t ∈ tableOptions geometries strict source target,
      ∃ shape, shapeOf programOptions t = .ok shape := by
  simp only [tableOptions, List.forall_mem_cons]
  refine ⟨exists_shapeOf_attached (by decide) (by decide) (by decide),
    exists_shapeOf_attached (by decide) (by decide) (by decide),
    exists_shapeOf_attached (by decide) (by decide) (by decide), ?_⟩
  cases strict with
  | false => exact List.forall_mem_nil _
  | true => exact List.forall_mem_singleton.mpr ⟨.stray, rfl⟩

theorem scanArguments_tableOptions (hgeometries : IsDelivered rule geometries)
    (hsource : IsDelivered rule source) (htarget : IsDelivered rule target) (strict : Bool) :
    scanArguments rule Verb.checkTable.options false
        (tableOptions geometries strict source target) =
      .ok ⟨[.text .geometries (.value geometries), .text .source (.value source),
        .text .target (.value target)] ++ if strict then [.mark .strict] else [], [], none⟩ := by
  have hos : ∀ named ∈ namedOptions Verb.checkTable.options, '=' ∉ named.1 := by decide
  have hstrict : scanArguments rule Verb.checkTable.options false ["--strict".toList] =
      .ok ⟨[.mark .strict], [], none⟩ := by
    change scanTokens rule _ _ [.argument _ (.option strictOption "--strict".toList none)] = _
    rw [scanTokens]
    rfl
  rw [tableOptions, scanArguments_attached hos rfl rfl rfl hgeometries,
    scanArguments_attached hos rfl rfl rfl hsource, scanArguments_attached hos rfl rfl rfl htarget]
  cases strict with
  | false => rfl
  | true =>
    rw [if_pos rfl, hstrict]
    rfl

/-- **A table can be checked with any texts** that are delivered. -/
theorem ofArguments_tableArguments (hgeometries : IsDelivered rule geometries)
    (hsource : IsDelivered rule source) (htarget : IsDelivered rule target) (strict : Bool) :
    Request.ofArguments rule (tableArguments geometries strict source target) =
      .ok ⟨0, .checkTable (.value geometries) strict (.value source) (.value target)⟩ := by
  have hread : Verb.checkTable.read rule (tableOptions geometries strict source target) =
      .ok (.checkTable (.value geometries) strict (.value source) (.value target), []) := by
    rw [Verb.read, scanArguments_tableOptions hgeometries hsource htarget]
    cases strict <;> rfl
  rw [Request.ofArguments, tableArguments,
    scanArguments_command rule (by decide) rfl (exists_shapeOf_tableOptions strict)]
  change (Verb.checkTable.read rule (tableOptions geometries strict source target) >>= _) = _
  rw [hread]
  rfl

end Geofence
