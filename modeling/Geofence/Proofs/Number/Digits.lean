/-
Texts of digits.

A text of ASCII digits is a number by its places, and reading takes it off the front of a numeral as
a whole, up to the point or to what stands behind all digits.

Main definitions:

* `Geofence.Digits` — texts of ASCII digits.

Main results:

* `Geofence.Numeral.ofDigits_append` — the number of digits behind others;
* `Geofence.Numeral.ofDigits_toDigits` — the digits of a number have the number;
* `Geofence.Numeral.takeMantissa_pointed`, `Geofence.Numeral.takeMantissa_unpointed` — digits are
  taken off a numeral.
-/

import Geofence.Number.Numeral
import Geofence.Proofs.Text.Join

set_option relaxedAutoImplicit false
set_option autoImplicit false

namespace Geofence

/-! ### Digits -/

/-- A text of ASCII digits. -/
def Digits (t : Text) : Prop := ∀ c ∈ t, c.isDigit = true

namespace Digits

variable {t u : Text}

theorem append (ht : Digits t) (hu : Digits u) : Digits (t ++ u) := by
  intro c hc
  rcases List.mem_append.mp hc with hc | hc
  · exact ht c hc
  · exact hu c hc

theorem of_sublist (hu : Digits u) (h : t.Sublist u) : Digits t := fun c hc => hu c (h.subset hc)

theorem replicate_zero (n : ℕ) : Digits (List.replicate n '0') := by
  intro c hc
  rw [List.eq_of_mem_replicate hc]
  rfl

theorem toDigits (n : ℕ) : Digits (Nat.toDigits 10 n) := fun _ hc =>
  Nat.isDigit_of_mem_toDigits (by decide) (by decide) hc

end Digits

namespace Text

theorem digit?_of_isDigit {c : Char} (h : c.isDigit = true) :
    digit? c = some (c.toNat - '0'.toNat) := by
  have hlow : 48 ≤ c.toNat := (Char.isDigit_iff_toNat.mp h).1
  have hhigh : c.toNat ≤ 57 := (Char.isDigit_iff_toNat.mp h).2
  rw [digit?, zeros, List.find?_cons_of_pos (by simp; omega)]
  rfl

theorem isDigit_of_isDigit {c : Char} (h : c.isDigit = true) : isDigit c = true := by
  rw [isDigit, digit?_of_isDigit h]
  rfl

end Text

namespace Numeral

open Text

/-! ### The number of a text of digits -/

theorem ofDigits_eq_ofDigitChars {t : Text} (h : Digits t) :
    ofDigits t = Nat.ofDigitChars 10 t 0 := by
  rw [ofDigits_eq_foldl, Nat.ofDigitChars_eq_foldl]
  -- for any number of the digits already read
  generalize 0 = n
  induction t generalizing n with
  | nil => rfl
  | cons c t ih =>
    rw [List.filterMap_cons_some (digit?_of_isDigit (h c List.mem_cons_self)), List.foldl_cons,
      List.foldl_cons, ih fun d hd => h d (List.mem_cons_of_mem c hd), Nat.add_comm]

/-- Digits behind others move these up by their number of places. -/
theorem ofDigits_append {t u : Text} (ht : Digits t) (hu : Digits u) :
    ofDigits (t ++ u) = ofDigits t * 10 ^ u.length + ofDigits u := by
  rw [ofDigits_eq_ofDigitChars (ht.append hu), ofDigits_eq_ofDigitChars ht,
    ofDigits_eq_ofDigitChars hu, Nat.ofDigitChars_append, Nat.ofDigitChars_eq_ofDigitChars_zero,
    Nat.mul_comm]

theorem ofDigits_replicate_zero (n : ℕ) : ofDigits (List.replicate n '0') = 0 := by
  rw [ofDigits_eq_ofDigitChars (Digits.replicate_zero n), Nat.ofDigitChars_replicate_zero,
    Nat.mul_zero]

theorem ofDigits_toDigits (n : ℕ) : ofDigits (Nat.toDigits 10 n) = n := by
  rw [ofDigits_eq_ofDigitChars (Digits.toDigits n), Nat.ofDigitChars_ten_toDigits]

/-- Zeros in front of digits add nothing. -/
theorem ofDigits_zeros_append (n : ℕ) {t : Text} (h : Digits t) :
    ofDigits (List.replicate n '0' ++ t) = ofDigits t := by
  rw [ofDigits_append (Digits.replicate_zero n) h, ofDigits_replicate_zero, Nat.zero_mul,
    Nat.zero_add]

/-- Each zero behind digits multiplies by ten. -/
theorem ofDigits_append_zeros (n : ℕ) {t : Text} (h : Digits t) :
    ofDigits (t ++ List.replicate n '0') = ofDigits t * 10 ^ n := by
  rw [ofDigits_append h (Digits.replicate_zero n), ofDigits_replicate_zero, List.length_replicate,
    Nat.add_zero]

/-! ### Taking digits off the front -/

theorem span_digits {t rest : Text} (h : Digits t)
    (hrest : ∀ c ∈ rest.head?, isDigit c = false) : (t ++ rest).span isDigit = (t, rest) := by
  have hall : ∀ c ∈ t, isDigit c = true := fun c hc => isDigit_of_isDigit (h c hc)
  have htake : rest.takeWhile isDigit = [] := by
    cases rest with
    | nil => rfl
    | cons c rest => exact List.takeWhile_cons_of_neg (by simp [hrest c rfl])
  rw [List.span_eq_takeWhile_dropWhile, List.takeWhile_append_of_pos hall,
    List.dropWhile_append_of_pos hall, htake, dropWhile_eq_self hrest, List.append_nil]

theorem takeMantissa_pointed {whole fraction rest : Text} (hw : Digits whole)
    (hf : Digits fraction) (hrest : ∀ c ∈ rest.head?, isDigit c = false) :
    takeMantissa (whole ++ '.' :: (fraction ++ rest)) = (whole, fraction, rest) := by
  simp only [takeMantissa]
  rw [span_digits hw (by rintro c ⟨⟩; decide)]
  simp only [span_digits hf hrest]

theorem takeMantissa_unpointed {whole : Text} {rest : Text} (hw : Digits whole)
    (hrest : ∀ c ∈ rest.head?, isDigit c = false ∧ c ≠ '.') :
    takeMantissa (whole ++ rest) = (whole, [], rest) := by
  simp only [takeMantissa]
  rw [span_digits hw fun c hc => (hrest c hc).1]
  split
  next heq => exact absurd rfl (hrest '.' (by simp_all)).2
  next heq => rfl

end Numeral

end Geofence
