/-
Texts, and cutting a text at a separator.

A text is the list of its characters, so that readers and writers are functions on lists.  Every text
can be encoded: half of a surrogate pair is no character, and a string with one, which no file can be
written from, is no text.  A class of characters is given by the ranges of code points it holds.

Main definitions:

* `Geofence.Text` — a text;
* `Geofence.Text.within` — membership in a class of characters given by ranges;
* `Geofence.Text.cut` — the pieces of a text between the occurrences of a separator;
* `Geofence.Text.join` — pieces put together with a separator between them.

Main results:

* `Geofence.Text.cut_of_not_mem` — a text without the separator is its own only piece;
* `Geofence.Text.cut_append` — cutting a text put together round a separator gives the pieces of
  the two parts.
-/

set_option relaxedAutoImplicit false
set_option autoImplicit false

namespace Geofence

/-- A text is the list of its characters. -/
abbrev Text := List Char

namespace Text

/-- Whether the code point of `c` lies in one of the ranges, both ends of a range included. -/
def within (ranges : List (Nat × Nat)) (c : Char) : Bool :=
  ranges.any fun r => r.1 ≤ c.toNat && c.toNat ≤ r.2

/-! ### Cutting at a separator -/

/-- Puts one character in front of a list of pieces: a separator opens a new piece, any other
character joins the first one. -/
def cutStep (sep : Char) (c : Char) (pieces : List Text) : List Text :=
  if c = sep then [] :: pieces
  else
    match pieces with
    | [] => [[c]]
    | piece :: rest => (c :: piece) :: rest

/-- The pieces of a text between the occurrences of `sep`; a text always has at least one piece. -/
def cut (sep : Char) (t : Text) : List Text := t.foldr (cutStep sep) [[]]

@[simp] theorem cut_nil (sep : Char) : cut sep [] = [[]] := rfl

@[simp] theorem cut_cons_self (sep : Char) (t : Text) : cut sep (sep :: t) = [] :: cut sep t := by
  simp [cut, cutStep]

theorem cut_ne_nil (sep : Char) (t : Text) : cut sep t ≠ [] := by
  cases t with
  | nil => simp
  | cons c t =>
      simp only [cut, List.foldr_cons, cutStep]
      split
      · simp
      · split <;> simp

theorem cut_cons_of_ne {sep c : Char} (h : c ≠ sep) (t : Text) :
    ∃ piece rest, cut sep t = piece :: rest ∧ cut sep (c :: t) = (c :: piece) :: rest := by
  cases hp : cut sep t with
  | nil => exact absurd hp (cut_ne_nil sep t)
  | cons piece rest =>
      refine ⟨piece, rest, rfl, ?_⟩
      simp only [cut] at hp
      simp [cut, cutStep, h, hp]

/-- A text without the separator is its own only piece. -/
theorem cut_of_not_mem {sep : Char} {t : Text} (h : sep ∉ t) : cut sep t = [t] := by
  induction t with
  | nil => rfl
  | cons c t ih =>
      rw [List.mem_cons, not_or] at h
      obtain ⟨piece, rest, hp, hc⟩ := cut_cons_of_ne (Ne.symm h.1) t
      rw [ih h.2] at hp
      cases hp
      exact hc

/-- **Cutting is compositional**: the pieces of two texts put together round a separator are the
pieces of the first followed by the pieces of the second. -/
theorem cut_append (sep : Char) (t u : Text) :
    cut sep (t ++ sep :: u) = cut sep t ++ cut sep u := by
  induction t with
  | nil => simp
  | cons c t ih =>
      by_cases h : c = sep
      · subst h
        simp [ih]
      · obtain ⟨piece, rest, hp, hc⟩ := cut_cons_of_ne h t
        obtain ⟨piece', rest', hp', hc'⟩ := cut_cons_of_ne h (t ++ sep :: u)
        rw [List.cons_append, hc', hc]
        rw [ih, hp] at hp'
        cases hp'
        rfl

/-! ### Putting pieces together -/

/-- Texts in order with a separator between them. -/
def join (sep : Char) (ts : List Text) : Text := [sep].intercalate ts

end Text

end Geofence
