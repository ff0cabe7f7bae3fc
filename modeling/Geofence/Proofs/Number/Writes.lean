/-
What a text writes.

A text that writes a magnitude starts with a digit, has only the characters of numbers and is read
as a numeral with this value, whichever of the forms it has: digits with or without a point, and an
exponent or none.  A sign in front of it is read as a sign, and nothing of it is lost as white
space, as a low line or as a word.

Main definitions:

* `Geofence.Numeral.isPlain` — the characters of numbers;
* `Geofence.Numeral.Closes` — what stands behind the digits;
* `Geofence.Numeral.Writes` — what magnitude a text writes.

Main results:

* `Geofence.Numeral.Writes.pointed`, `Geofence.Numeral.Writes.unpointed` — the two forms;
* `Geofence.Numeral.ofText?_sign` — reading such a text behind a sign.
-/

import Geofence.Proofs.Number.Digits

set_option relaxedAutoImplicit false
set_option autoImplicit false

namespace Geofence.Numeral

open Text

/-! ### The characters of numbers -/

/-- The characters of numbers: ASCII digits, the point, the letter of an exponent and the signs. -/
def isPlain (c : Char) : Bool := c.isDigit || ['.', 'e', '+', '-'].contains c

theorem isPlain_of_digits {t : Text} (h : Digits t) : ∀ c ∈ t, isPlain c = true := by
  intro c hc
  rw [isPlain, h c hc, Bool.true_or]

theorem isBlank_of_isPlain {c : Char} (h : isPlain c = true) : isBlank c = false := by
  rw [isPlain, Bool.or_eq_true, List.contains_iff_mem] at h
  obtain h | h := h
  · have hlow : 48 ≤ c.toNat := (Char.isDigit_iff_toNat.mp h).1
    have hhigh : c.toNat ≤ 57 := (Char.isDigit_iff_toNat.mp h).2
    simp [isBlank, within, blankRanges]
    omega
  · simp only [List.mem_cons, List.not_mem_nil, or_false] at h
    obtain rfl | rfl | rfl | rfl := h <;> decide

theorem ne_line_of_isPlain {c : Char} (h : isPlain c = true) : c ≠ '_' := by
  rintro rfl
  revert h
  decide

theorem linesBetweenDigits_of_isPlain {t : Text} (h : ∀ c ∈ t, isPlain c = true) {before : Char}
    (hbefore : before ≠ '_') : linesBetweenDigits before t = true := by
  induction t generalizing before with
  | nil => simpa [linesBetweenDigits] using hbefore
  | cons c t ih =>
    have hc := ne_line_of_isPlain (h c List.mem_cons_self)
    have hrest := ih (fun d hd => h d (List.mem_cons_of_mem c hd)) hc
    rw [linesBetweenDigits, if_neg hc, hrest]
    simp [hbefore]

theorem withoutLines?_of_isPlain {t : Text} (h : ∀ c ∈ t, isPlain c = true) :
    withoutLines? t = some t := by
  have hfilter : t.filter (· ≠ '_') = t := by
    rw [List.filter_eq_self]
    intro c hc
    simpa using ne_line_of_isPlain (h c hc)
  rw [withoutLines?, if_pos (linesBetweenDigits_of_isPlain h (by decide)), hfilter]

/-! ### What a text writes -/

/-- What may stand behind the digits: the rest of a numeral, with the exponent that it says. -/
structure Closes (rest : Text) (e : ℤ) : Prop where
  plain : ∀ c ∈ rest, isPlain c = true
  stops : ∀ c ∈ rest.head?, isDigit c = false ∧ c ≠ '.'
  reads : exponent? rest = some e

theorem Closes.nil : Closes [] 0 := ⟨by rintro c ⟨⟩, by rintro c ⟨⟩, rfl⟩

/-- The magnitude that a text without a sign writes. -/
structure Writes (t : Text) (q : ℚ) : Prop where
  plain : ∀ c ∈ t, isPlain c = true
  starts : ∃ c ∈ t.head?, c.isDigit = true
  reads : ∀ negative, ∃ (c : ℕ) (e : ℤ),
    unsigned? negative t = some (.finite negative c e) ∧ (c : ℚ) * (10 : ℚ) ^ e = q

namespace Writes

variable {whole fraction rest : Text} {e : ℤ} {q : ℚ}

theorem starts_of_digits (hw : Digits whole) (hne : whole ≠ []) :
    ∃ c ∈ (whole ++ rest).head?, c.isDigit = true := by
  cases whole with
  | nil => exact absurd rfl hne
  | cons c whole => exact ⟨c, rfl, hw c List.mem_cons_self⟩

/-- Digits round a point. -/
theorem pointed (hw : Digits whole) (hne : whole ≠ []) (hf : Digits fraction)
    (hr : Closes rest e)
    (hq : (ofDigits (whole ++ fraction) : ℚ) * 10 ^ (e - fraction.length) = q) :
    Writes (whole ++ '.' :: (fraction ++ rest)) q where
  plain := by
    intro c hc
    simp only [List.mem_append, List.mem_cons] at hc
    obtain hc | rfl | hc | hc := hc
    · exact isPlain_of_digits hw c hc
    · rfl
    · exact isPlain_of_digits hf c hc
    · exact hr.plain c hc
  starts := starts_of_digits hw hne
  reads := by
    intro negative
    have ht := takeMantissa_pointed hw hf fun c hc => (hr.stops c hc).1
    refine ⟨_, _, ?_, hq⟩
    simp only [unsigned?, ht, hr.reads, Option.map_some]
    rw [if_neg (by simp [hne])]

/-- Digits without a point. -/
theorem unpointed (hw : Digits whole) (hne : whole ≠ []) (hr : Closes rest e)
    (hq : (ofDigits whole : ℚ) * 10 ^ e = q) : Writes (whole ++ rest) q where
  plain := by
    intro c hc
    obtain hc | hc := List.mem_append.mp hc
    · exact isPlain_of_digits hw c hc
    · exact hr.plain c hc
  starts := starts_of_digits hw hne
  reads := by
    intro negative
    have ht := takeMantissa_unpointed hw hr.stops
    refine ⟨ofDigits whole, e, ?_, hq⟩
    simp only [unsigned?, ht, hr.reads, Option.map_some]
    rw [if_neg (by simp [hne])]
    simp

end Writes

/-! ### The sign and the words -/

theorem isPlain_of_signed {t : Text} (h : ∀ c ∈ t, isPlain c = true) (negative : Bool) :
    ∀ c ∈ (if negative then ['-'] else []) ++ t, isPlain c = true := by
  intro c hc
  obtain hc | hc := List.mem_append.mp hc
  · split at hc
    · rw [List.mem_singleton.mp hc]; rfl
    · cases hc
  · exact h c hc

theorem takeSign_of_starts {t : Text} (h : ∃ c ∈ t.head?, c.isDigit = true) :
    takeSign t = (false, t) := by
  obtain ⟨c, hc, hd⟩ := h
  unfold takeSign
  split
  next => cases hc; cases hd
  next => cases hc; cases hd
  next => rfl

theorem word?_of_starts {t : Text} (h : ∃ c ∈ t.head?, c.isDigit = true) (negative : Bool) :
    word? negative (t.map Char.toLower) = none := by
  obtain ⟨c, hc, hd⟩ := h
  cases t with
  | nil => cases hc
  | cons d t =>
    cases hc
    -- a digit is its own small letter, and no word starts with one
    have hlower : c.toLower = c := by
      have hhigh : c.toNat ≤ 57 := (Char.isDigit_iff_toNat.mp hd).2
      apply Char.toLower_eq_of_not_isUpper
      intro hupper
      rw [Char.isUpper, decide_eq_true_eq] at hupper
      have hlow : 65 ≤ c.toNat := hupper.1
      omega
    rw [List.map_cons, hlower, word?, if_neg, if_neg]
    · simp only [List.cons.injEq]
      rintro ⟨rfl, -⟩
      cases hd
    · simp only [List.cons.injEq]
      rintro (⟨rfl, -⟩ | ⟨rfl, -⟩)
      · cases hd
      · cases hd

/-- A text that writes a magnitude is read with the sign in front of it. -/
theorem ofText?_sign {t : Text} {q : ℚ} (h : Writes t q) (negative : Bool) :
    ofText? ((if negative then ['-'] else []) ++ t) = unsigned? negative t := by
  have hplain := isPlain_of_signed h.plain negative
  have hsign : takeSign ((if negative then ['-'] else []) ++ t) = (negative, t) := by
    cases negative with
    | false => exact takeSign_of_starts h.starts
    | true => rfl
  have htrim := trim_eq_self fun c hc => isBlank_of_isPlain (hplain c hc)
  rw [ofText?, htrim, withoutLines?_of_isPlain hplain, Option.bind_some]
  simp only [hsign, word?_of_starts h.starts, Option.none_or]

end Geofence.Numeral
