/-
Joined pieces and their fields.

Pieces without the separator are what cutting finds in the text that joins them, and a text without
white space is its own trimming.  So pieces without both are the fields of the text that joins them.

Main results:

* `Geofence.Text.cut_join` — cutting undoes joining;
* `Geofence.Text.fields_join` — and so does taking the fields;
* `Geofence.Text.mem_of_mem_join` — joining adds only separators.
-/

import Mathlib
import Geofence.Text.Blank

set_option relaxedAutoImplicit false
set_option autoImplicit false

namespace Geofence.Text

/-! ### Joining -/

@[simp] theorem join_singleton (sep : Char) (t : Text) : join sep [t] = t :=
  List.intercalate_singleton

theorem join_cons_cons (sep : Char) (t u : Text) (ts : List Text) :
    join sep (t :: u :: ts) = t ++ sep :: join sep (u :: ts) := by
  rw [join, List.intercalate_cons_cons, List.append_assoc, List.singleton_append, join]

theorem join_cons_ne_nil (sep : Char) {t : Text} (h : t ≠ []) (ts : List Text) :
    join sep (t :: ts) ≠ [] := by
  cases ts with
  | nil => rwa [join_singleton]
  | cons u ts =>
    rw [join_cons_cons]
    exact List.append_ne_nil_of_left_ne_nil h _

theorem mem_of_mem_join {sep c : Char} {ts : List Text} (h : c ∈ join sep ts) :
    c = sep ∨ ∃ t ∈ ts, c ∈ t := by
  induction ts with
  | nil => cases h
  | cons t ts ih =>
    cases ts with
    | nil =>
      rw [join_singleton] at h
      exact .inr ⟨t, List.mem_cons_self, h⟩
    | cons u ts =>
      rw [join_cons_cons, List.mem_append, List.mem_cons] at h
      obtain h | h | h := h
      · exact .inr ⟨t, List.mem_cons_self, h⟩
      · exact .inl h
      · obtain h | ⟨v, hv, hc⟩ := ih h
        · exact .inl h
        · exact .inr ⟨v, List.mem_cons_of_mem t hv, hc⟩

/-- Cutting undoes joining. -/
theorem cut_join {sep : Char} {ts : List Text} (hne : ts ≠ []) (h : ∀ t ∈ ts, sep ∉ t) :
    cut sep (join sep ts) = ts := by
  induction ts with
  | nil => exact absurd rfl hne
  | cons t ts ih =>
    have ht : cut sep t = [t] := cut_of_not_mem (h t List.mem_cons_self)
    cases ts with
    | nil => rw [join_singleton, ht]
    | cons u ts =>
      have hrest := ih (List.cons_ne_nil u ts) fun v hv => h v (List.mem_cons_of_mem t hv)
      rw [join_cons_cons, cut_append, ht, hrest, List.singleton_append]

/-! ### Texts without white space -/

theorem dropWhile_eq_self {p : Char → Bool} {t : Text} (h : ∀ c ∈ t.head?, p c = false) :
    t.dropWhile p = t := by
  cases t with
  | nil => rfl
  | cons c t => exact List.dropWhile_cons_of_neg (by simp [h c rfl])

theorem trim_eq_self {t : Text} (h : ∀ c ∈ t, isBlank c = false) : trim t = t := by
  have hfront : t.dropWhile isBlank = t := by
    apply dropWhile_eq_self
    intro c hc
    exact h c (List.mem_of_mem_head? hc)
  have hback : t.reverse.dropWhile isBlank = t.reverse := by
    apply dropWhile_eq_self
    intro c hc
    exact h c (List.mem_reverse.mp (List.mem_of_mem_head? hc))
  rw [trim, trimBy, hfront, hback, List.reverse_reverse]

/-- **Taking the fields undoes joining.** -/
theorem fields_join {sep : Char} {ts : List Text} (hne : ts ≠ [])
    (h : ∀ t ∈ ts, ∀ c ∈ t, c ≠ sep ∧ isBlank c = false) : fields sep (join sep ts) = ts := by
  have hsep : ∀ t ∈ ts, sep ∉ t := by
    intro t ht hc
    exact (h t ht sep hc).1 rfl
  have htrim : ∀ t ∈ ts, trim t = t := by
    intro t ht
    exact trim_eq_self fun c hc => (h t ht c hc).2
  rw [fields, cut_join hne hsep, List.map_congr_left htrim, List.map_id']

end Geofence.Text
