/-
Fields of a text.

Cutting at a separator is splitting a list at an element: the pieces hold no separator, and joining
them gives the text back.  So a text has two pieces exactly when the separator stands in it once.
Trimming takes white space off both ends, and a trimmed text has none there to be taken off.

Main results:

* `Geofence.Text.cut_eq_splitOn` — the pieces are those of the list library;
* `Geofence.Text.cut_eq_pair_iff` — having two pieces;
* `Geofence.Text.trim_trim` — trimming a trimmed text changes nothing.
-/

import Geofence.Proofs.Text.Join

set_option relaxedAutoImplicit false
set_option autoImplicit false

namespace Geofence.Text

/-! ### Cutting -/

/-- **Cutting is splitting a list** at an element. -/
theorem cut_eq_splitOn (sep : Char) (t : Text) : cut sep t = t.splitOn sep := by
  induction t with
  | nil => rfl
  | cons c t ih =>
    by_cases h : c = sep
    · subst h
      rw [cut_cons_self, ih, List.splitOn_cons_eq_if_modifyHead, if_pos (beq_self_eq_true c)]
    · obtain ⟨piece, rest, hp, hc⟩ := cut_cons_of_ne h t
      rw [ih] at hp
      rw [hc, List.splitOn_cons_eq_if_modifyHead, if_neg (by simpa using h), hp,
        List.modifyHead_cons]

theorem join_cut (sep : Char) (t : Text) : join sep (cut sep t) = t := by
  rw [cut_eq_splitOn, join, List.intercalate_splitOn]

theorem not_mem_of_mem_cut {sep : Char} {t u : Text} (h : u ∈ cut sep t) : sep ∉ u := by
  induction t generalizing u with
  | nil =>
    rw [cut_nil, List.mem_singleton] at h
    rw [h]
    exact List.not_mem_nil
  | cons c t ih =>
    by_cases hc : c = sep
    · subst hc
      rw [cut_cons_self, List.mem_cons] at h
      obtain rfl | h := h
      · exact List.not_mem_nil
      · exact ih h
    · obtain ⟨piece, rest, hp, hcut⟩ := cut_cons_of_ne hc t
      rw [hcut, List.mem_cons] at h
      obtain rfl | h := h
      · have hpiece : sep ∉ piece := ih (by rw [hp]; exact List.mem_cons_self)
        rw [List.mem_cons, not_or]
        exact ⟨Ne.symm hc, hpiece⟩
      · exact ih (by rw [hp]; exact List.mem_cons_of_mem piece h)

/-- **A text has two pieces** exactly when the separator stands in it once, between the two. -/
theorem cut_eq_pair_iff {sep : Char} {t a b : Text} :
    cut sep t = [a, b] ↔ t = a ++ sep :: b ∧ sep ∉ a ∧ sep ∉ b := by
  constructor
  · intro h
    have ht := join_cut sep t
    rw [h, join_cons_cons, join_singleton] at ht
    have ha : a ∈ cut sep t := by rw [h]; exact List.mem_cons_self
    have hb : b ∈ cut sep t := by rw [h]; exact List.mem_cons_of_mem a List.mem_cons_self
    exact ⟨ht.symm, not_mem_of_mem_cut ha, not_mem_of_mem_cut hb⟩
  · rintro ⟨rfl, ha, hb⟩
    rw [cut_append, cut_of_not_mem ha, cut_of_not_mem hb, List.singleton_append]

/-! ### Trimming -/

theorem head?_dropWhile {p : Char → Bool} (t : Text) :
    ∀ c ∈ (t.dropWhile p).head?, p c = false := by
  intro c hc
  have h := List.head?_dropWhile_not p t
  rw [Option.mem_def.mp hc] at h
  simpa using h

/-- A text that neither begins nor ends with white space is its own trimming. -/
theorem trim_eq_self_of_ends {t : Text} (hfront : ∀ c ∈ t.head?, isBlank c = false)
    (hback : ∀ c ∈ t.getLast?, isBlank c = false) : trim t = t := by
  rw [← List.head?_reverse] at hback
  rw [trim, trimBy, dropWhile_eq_self hfront, dropWhile_eq_self hback, List.reverse_reverse]

theorem getLast?_trim (t : Text) : ∀ c ∈ (trim t).getLast?, isBlank c = false := by
  rw [trim, trimBy, List.getLast?_reverse]
  exact head?_dropWhile _

theorem head?_trim (t : Text) : ∀ c ∈ (trim t).head?, isBlank c = false := by
  intro c hc
  -- what is left after the white space in front is a beginning of that
  have hle : (trim t) <+: t.dropWhile isBlank := by
    rw [trim, trimBy, ← List.reverse_suffix, List.reverse_reverse]
    exact List.dropWhile_suffix _
  obtain ⟨u, hu⟩ := hle
  apply head?_dropWhile t c
  rw [← hu, List.head?_append, Option.mem_def.mp hc]
  rfl

theorem length_trim_le (t : Text) : (trim t).length ≤ t.length := by
  rw [trim, trimBy, List.length_reverse]
  calc (((t.dropWhile isBlank).reverse).dropWhile isBlank).length
      ≤ ((t.dropWhile isBlank).reverse).length := List.length_dropWhile_le ..
    _ = (t.dropWhile isBlank).length := List.length_reverse
    _ ≤ t.length := List.length_dropWhile_le ..

/-- **Trimming a trimmed text** changes nothing. -/
theorem trim_trim (t : Text) : trim (trim t) = trim t :=
  trim_eq_self_of_ends (head?_trim t) (getLast?_trim t)

end Geofence.Text
