/-
The layouts of a decimal.

The digits of a decimal are laid out with the point before, behind or between them, or behind the
first one with an exponent.  In all four places the text writes the value that the digits have with
the point there, and cutting off the zeros at the end does not change it.

Main definitions:

* `Geofence.Numeral.placed` — the value of digits with a point.

Main results:

* `Geofence.Numeral.writes_positional`, `Geofence.Numeral.writes_exponential` — the layouts;
* `Geofence.Numeral.writes_text` — the text of a decimal writes its value.
-/

import Geofence.Number.Render
import Geofence.Proofs.Number.Writes

set_option relaxedAutoImplicit false
set_option autoImplicit false

namespace Geofence.Numeral

open Text

/-! ### Positional layouts -/

/-- The value of digits with the point after the first `point` of them. -/
def placed (digits : Text) (point : ℤ) : ℚ :=
  (ofDigits digits : ℚ) * 10 ^ (point - digits.length)

/-- The point stands before all digits. -/
theorem writes_below {digits : Text} (h : Digits digits) {point : ℤ} (hpoint : point ≤ 0) :
    Writes ('0' :: '.' :: (List.replicate (-point).toNat '0' ++ digits))
      (placed digits point) := by
  have hzero : Digits ['0'] := Digits.replicate_zero 1
  have hfraction := (Digits.replicate_zero (-point).toNat).append h
  have hvalue : ofDigits (['0'] ++ (List.replicate (-point).toNat '0' ++ digits)) =
      ofDigits digits :=
    (ofDigits_zeros_append 1 hfraction).trans (ofDigits_zeros_append _ h)
  have hexp : 0 - ((List.replicate (-point).toNat '0' ++ digits).length : ℤ) =
      point - digits.length := by
    rw [List.length_append, List.length_replicate]
    omega
  have hw := Writes.pointed hzero (List.cons_ne_nil _ _) hfraction Closes.nil rfl
  rw [hvalue, hexp, List.append_nil] at hw
  exact hw

/-- The point stands behind all digits. -/
theorem writes_above {digits : Text} (h : Digits digits) (hne : digits ≠ []) {whole : ℕ}
    (hwhole : digits.length ≤ whole) :
    Writes (digits ++ List.replicate (whole - digits.length) '0' ++ ['.', '0'])
      (placed digits whole) := by
  have hzero : Digits ['0'] := Digits.replicate_zero 1
  have hpadded := h.append (Digits.replicate_zero (whole - digits.length))
  have hvalue : ofDigits (digits ++ List.replicate (whole - digits.length) '0' ++ ['0']) =
      ofDigits digits * 10 ^ (whole - digits.length) * 10 := by
    rw [← ofDigits_append_zeros _ h]
    exact ofDigits_append_zeros 1 hpadded
  have hexp : ((whole - digits.length : ℕ) : ℤ) = whole - digits.length := by omega
  refine Writes.pointed hpadded (List.append_ne_nil_of_left_ne_nil hne _) hzero Closes.nil ?_
  rw [hvalue, placed, ← hexp, zpow_natCast]
  push_cast
  rw [zero_sub, zpow_neg, List.length_singleton, Nat.cast_one, zpow_one]
  exact mul_inv_cancel_right₀ (by norm_num) _

/-- The point stands between digits. -/
theorem writes_between {digits : Text} (h : Digits digits) {whole : ℕ} (hpos : 0 < whole)
    (hwhole : whole < digits.length) :
    Writes (digits.take whole ++ '.' :: digits.drop whole) (placed digits whole) := by
  have hfront := h.of_sublist (List.take_sublist whole digits)
  have hback := h.of_sublist (List.drop_sublist whole digits)
  have hne : digits.take whole ≠ [] := by
    rw [← List.length_pos_iff_ne_nil, List.length_take]
    omega
  have hexp : 0 - ((digits.drop whole).length : ℤ) = whole - digits.length := by
    rw [List.length_drop]
    omega
  have hw := Writes.pointed hfront hne hback Closes.nil rfl
  rw [List.take_append_drop, hexp, List.append_nil] at hw
  exact hw

theorem writes_positional {digits : Text} (h : Digits digits) (hne : digits ≠ []) (point : ℤ) :
    Writes (Layout.positional digits point) (placed digits point) := by
  simp only [Layout.positional]
  split
  next hpoint => exact writes_below h hpoint
  next hpoint =>
    obtain ⟨whole, rfl⟩ := Int.eq_ofNat_of_zero_le (not_le.mp hpoint).le
    split
    next hlength => exact writes_above h hne hlength
    next hlength => exact writes_between h (by omega) (not_le.mp hlength)

/-! ### Layouts with an exponent -/

theorem exponent?_signed {digits : Text} (h : Digits digits) (hne : digits ≠ []) (minus : Bool) :
    exponent? ('e' :: (if minus then '-' else '+') :: digits) =
      some (if minus then -(ofDigits digits : ℤ) else ofDigits digits) := by
  have hall : digits.all isDigit = true :=
    List.all_eq_true.mpr fun c hc => isDigit_of_isDigit (h c hc)
  have hguard : (digits.isEmpty || !digits.all isDigit) = false := by
    rw [hall, List.isEmpty_eq_false_iff.mpr hne]
    rfl
  have hsign : takeSign ((if minus then '-' else '+') :: digits) = (minus, digits) := by
    cases minus <;> rfl
  simp only [exponent?, hsign, hguard]
  rfl

theorem closes_exponentText (l : Layout) (e : ℤ) : Closes (l.exponentText e) e := by
  have hd := (Digits.replicate_zero (l.exponentDigits - (Nat.toDigits 10 e.natAbs).length)).append
    (Digits.toDigits e.natAbs)
  have hvalue := (ofDigits_zeros_append (l.exponentDigits - (Nat.toDigits 10 e.natAbs).length)
    (Digits.toDigits e.natAbs)).trans (ofDigits_toDigits _)
  have hne := List.append_ne_nil_of_right_ne_nil
    (List.replicate (l.exponentDigits - (Nat.toDigits 10 e.natAbs).length) '0')
    (Nat.toDigits_ne_nil (n := e.natAbs) (b := 10))
  refine ⟨?_, ?_, ?_⟩
  · intro c hc
    simp only [Layout.exponentText, List.mem_cons] at hc
    obtain rfl | rfl | hc := hc
    · rfl
    · split <;> rfl
    · exact isPlain_of_digits hd c hc
  · rintro c ⟨⟩
    decide
  · have hr := exponent?_signed hd hne (decide (e < 0))
    simp only [decide_eq_true_eq, hvalue] at hr
    refine hr.trans (congrArg some ?_)
    split <;> omega

theorem writes_exponential (l : Layout) {digits : Text} (h : Digits digits) (hne : digits ≠ [])
    (point : ℤ) : Writes (l.exponential digits point) (placed digits point) := by
  have hclose := closes_exponentText l (point - 1)
  match digits, hne, h with
  | [d], _, h => exact Writes.unpointed h (List.cons_ne_nil _ _) hclose rfl
  | d :: d' :: rest, _, h =>
    have hd : Digits [d] := h.of_sublist (by simp)
    have hrest : Digits (d' :: rest) := h.of_sublist (by simp)
    have hexp : point - 1 - ((d' :: rest).length : ℤ) = point - (d :: d' :: rest).length := by
      simp only [List.length_cons]
      omega
    have hw := Writes.pointed hd (List.cons_ne_nil _ _) hrest hclose rfl
    rw [hexp] at hw
    exact hw

/-! ### Decimals -/

/-- Cutting off the zeros at the end leaves digits to which they can be added again. -/
theorem exists_zeros (t : Text) :
    ∃ n, t = (t.reverse.dropWhile (· = '0')).reverse ++ List.replicate n '0' := by
  have hall : ∀ c ∈ (t.reverse.takeWhile (· = '0')).reverse, c = '0' := by
    intro c hc
    simpa using List.mem_takeWhile_imp (List.mem_reverse.mp hc)
  -- the zeros at the end stand in front of the reversed text
  refine ⟨(t.reverse.takeWhile (· = '0')).reverse.length, ?_⟩
  rw [← List.eq_replicate_of_mem hall, ← List.reverse_append, List.takeWhile_append_dropWhile,
    List.reverse_reverse]

theorem placed_of_zeros {digits : Text} (h : Digits digits) (n : ℕ) (e : ℤ) :
    placed digits ((digits ++ List.replicate n '0').length + e) =
      (ofDigits (digits ++ List.replicate n '0') : ℚ) * 10 ^ e := by
  have hexp : ((digits ++ List.replicate n '0').length : ℤ) + e - digits.length = n + e := by
    rw [List.length_append, List.length_replicate]
    omega
  rw [placed, hexp, ofDigits_append_zeros n h, zpow_add₀ (by norm_num), zpow_natCast]
  push_cast
  rw [mul_assoc]

/-- **The text of a decimal writes its value.** -/
theorem writes_text (l : Layout) {d : Decimal} (h : d.coefficient ≠ 0) :
    Writes (l.text d) d.value := by
  obtain ⟨n, hn⟩ := exists_zeros (Nat.toDigits 10 d.coefficient)
  simp only [Layout.text]
  generalize ((Nat.toDigits 10 d.coefficient).reverse.dropWhile (· = '0')).reverse = digits at hn ⊢
  have hd : Digits digits := by
    refine (Digits.toDigits d.coefficient).of_sublist ?_
    rw [hn]
    exact List.sublist_append_left _ _
  have hcoefficient : ofDigits (digits ++ List.replicate n '0') = d.coefficient := by
    rw [← hn, ofDigits_toDigits]
  have hne : digits ≠ [] := by
    intro hnil
    rw [hnil, List.nil_append, ofDigits_replicate_zero] at hcoefficient
    exact h hcoefficient.symm
  have hvalue := placed_of_zeros hd n d.exponent
  rw [hcoefficient, ← hn] at hvalue
  rw [Decimal.value, ← hvalue]
  split
  · exact writes_positional hd hne _
  · exact writes_exponential l hd hne _

end Geofence.Numeral
