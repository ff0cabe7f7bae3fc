/-
The fixed form of a number.

The fixed form of a finite number shows its magnitude in units of the last place, rounded to an
integer, behind its sign.  The digits of the integer are filled up with zeros in front, so that at
least one digit stands before the point.  So the form says a multiple of the unit that is at most
half a unit away from the number, and a number between two integers is still between them when it is
rounded.

Main definitions:

* `Geofence.Numeral.Denotes` — the number that a text says exactly;
* `Geofence.fixedValue` — the number that the fixed form says;
* `Geofence.rounded` — the number that is read from it.

Main results:

* `Geofence.writes_pointedUnits` — what digits with a point write;
* `Geofence.denotes_renderFixed` — what the fixed form says;
* `Geofence.abs_fixedValue_sub_le`, `Geofence.abs_fixedValue_le` — how far that is from the number
  and from zero;
* `Geofence.length_renderFixed_le` — the length of the fixed form.
-/

import Geofence.Proofs.Number.Length
import Geofence.Proofs.Number.Arithmetic

set_option relaxedAutoImplicit false
set_option autoImplicit false

namespace Geofence

/-! ### Rounding to an integer -/

/-- The nearest integer is at most one half away. -/
theorem abs_roundHalfEven_sub_le (q : ℚ) : |(roundHalfEven q : ℚ) - q| ≤ 1 / 2 := by
  have hlow : (q.floor : ℚ) ≤ q := Int.floor_le q
  have hhigh : q < q.floor + 1 := Int.lt_floor_add_one q
  rw [abs_le]
  simp only [roundHalfEven]
  split_ifs <;> push_cast <;> constructor <;> linarith

/-- Between integers, a rational is rounded to one of them or to one between them. -/
theorem roundHalfEven_mem {q : ℚ} {n : ℕ} (h₀ : 0 ≤ q) (h₁ : q ≤ n) :
    0 ≤ roundHalfEven q ∧ roundHalfEven q ≤ n := by
  have hlow := roundHalfEven_mono h₀
  have hhigh := roundHalfEven_mono (h₁.trans_eq (Int.cast_natCast n).symm)
  rw [← Int.cast_zero, roundHalfEven_intCast] at hlow
  rw [roundHalfEven_intCast] at hhigh
  exact ⟨hlow, hhigh⟩

/-! ### What a text says -/

namespace Numeral

/-- The text is a numeral for the number `q`, which need not be one of binary64. -/
def Denotes (t : Text) (q : ℚ) : Prop :=
  ∃ (negative : Bool) (c : ℕ) (e : ℤ), ofText? t = some (.finite negative c e) ∧
    q = (if negative then -1 else 1) * (c * 10 ^ e)

/-- A magnitude behind a sign. -/
theorem Writes.denotes {t : Text} {q : ℚ} (h : Writes t q) (negative : Bool) :
    Denotes ((if negative then ['-'] else []) ++ t) ((if negative then -1 else 1) * q) := by
  obtain ⟨c, e, hread, hq⟩ := h.reads negative
  exact ⟨negative, c, e, (ofText?_sign h negative).trans hread, by rw [hq]⟩

end Numeral

open Numeral

/-! ### Units of the last place -/

/-- The magnitude of a finite number in units of the last of `places` places, rounded. -/
def fixedUnits (places : ℕ) (x : Float) : ℕ :=
  (roundHalfEven (Binary64.magnitude x * (10 : ℚ) ^ places)).toNat

/-- The digits of a number of units, with the point before the last `places` of them. -/
def pointedUnits (places units : ℕ) : Text :=
  let digits := Nat.toDigits 10 units
  let padded := List.replicate (places + 1 - digits.length) '0' ++ digits
  padded.take (padded.length - places) ++ '.' :: padded.drop (padded.length - places)

theorem renderFixed_of_isFinite (places : ℕ) {x : Float} (h : x.isFinite = true) :
    renderFixed places x = signText x ++ pointedUnits places (fixedUnits places x) := by
  simp only [renderFixed, Binary64.isNaN_eq_false h, Binary64.isInf_eq_false h, Bool.false_eq_true,
    if_false]
  rfl

theorem length_pointedUnits (places units : ℕ) :
    (pointedUnits places units).length = max (places + 1) (Nat.toDigits 10 units).length + 1 := by
  simp only [pointedUnits, List.length_append, List.length_cons, List.length_take,
    List.length_drop, List.length_replicate]
  omega

/-- **What digits with a point write**: that many units of the last place. -/
theorem writes_pointedUnits {places : ℕ} (hpos : 0 < places) (units : ℕ) :
    Writes (pointedUnits places units) (units / 10 ^ places) := by
  have hdigits := Digits.toDigits units
  have hpadded := (Digits.replicate_zero (places + 1 - (Nat.toDigits 10 units).length)).append
    hdigits
  have hvalue := ofDigits_zeros_append (places + 1 - (Nat.toDigits 10 units).length) hdigits
  have hlength : places + 1 ≤ (List.replicate (places + 1 - (Nat.toDigits 10 units).length) '0' ++
      Nat.toDigits 10 units).length := by
    rw [List.length_append, List.length_replicate]
    omega
  simp only [pointedUnits]
  generalize List.replicate (places + 1 - (Nat.toDigits 10 units).length) '0' ++
    Nat.toDigits 10 units = padded at hpadded hvalue hlength ⊢
  have hplace : ((padded.length - places : ℕ) : ℤ) - padded.length = -places := by omega
  have hfront : 0 < padded.length - places := by omega
  have hback : padded.length - places < padded.length := by omega
  have hw := writes_between hpadded hfront hback
  rwa [placed, hvalue, ofDigits_toDigits, hplace, zpow_neg, zpow_natCast, ← div_eq_mul_inv] at hw

/-! ### Numbers -/

/-- The number that the fixed form of a finite number says. -/
def fixedValue (places : ℕ) (x : Float) : ℚ :=
  (if Binary64.isNegative x then -1 else 1) * (fixedUnits places x / 10 ^ places)

/-- **What the fixed form says.** -/
theorem denotes_renderFixed {places : ℕ} (hpos : 0 < places) {x : Float} (h : x.isFinite = true) :
    Denotes (renderFixed places x) (fixedValue places x) := by
  rw [renderFixed_of_isFinite places h, signText, fixedValue]
  exact (writes_pointedUnits hpos _).denotes (Binary64.isNegative x)

/-- The number that is read from the fixed form of a finite number: the one nearest to what the form
says. -/
def rounded (places : ℕ) (x : Float) : Float :=
  Binary64.nearest (Binary64.isNegative x) (fixedUnits places x / 10 ^ places)

theorem readNumber?_renderFixed {places : ℕ} (hpos : 0 < places) {x : Float}
    (h : x.isFinite = true) : readNumber? (renderFixed places x) = some (rounded places x) := by
  have hw := writes_pointedUnits hpos (fixedUnits places x)
  obtain ⟨c, e, hread, hq⟩ := hw.reads (Binary64.isNegative x)
  rw [renderFixed_of_isFinite places h, readNumber?, signText, ofText?_sign hw, hread,
    Option.map_some, toFloat_finite, hq, rounded]

theorem abs_sign (negative : Bool) : |(if negative then -1 else 1 : ℚ)| = 1 := by
  cases negative with
  | false => exact abs_one
  | true => exact (abs_neg 1).trans abs_one

/-- The fixed form says a whole number of units of the last place. -/
theorem exists_fixedValue_eq (places : ℕ) (x : Float) :
    ∃ k : ℤ, fixedValue places x = k / 10 ^ places := by
  rw [fixedValue]
  split
  · exact ⟨-fixedUnits places x, by push_cast; ring⟩
  · exact ⟨fixedUnits places x, by push_cast; ring⟩

theorem value_eq_mul_magnitude (x : Float) :
    Binary64.value x = (if Binary64.isNegative x then -1 else 1) * Binary64.magnitude x := by
  rw [Binary64.value]
  split
  · rw [neg_one_mul]
  · rw [one_mul]

section Rounded

variable (places : ℕ) (x : Float)

theorem scaledMagnitude_nonneg : 0 ≤ Binary64.magnitude x * (10 : ℚ) ^ places :=
  mul_nonneg (Binary64.valueOfBits_nonneg _) (by positivity)

theorem cast_fixedUnits :
    ((fixedUnits places x : ℕ) : ℚ) = roundHalfEven (Binary64.magnitude x * (10 : ℚ) ^ places) := by
  have hnonneg := roundHalfEven_mono (scaledMagnitude_nonneg places x)
  rw [← Int.cast_zero, roundHalfEven_intCast] at hnonneg
  rw [fixedUnits, ← Int.cast_natCast, Int.toNat_of_nonneg hnonneg]

/-- **The fixed form is at most half a unit away** from the number. -/
theorem abs_fixedValue_sub_le :
    |fixedValue places x - Binary64.value x| ≤ 1 / 2 / 10 ^ places := by
  have hpos : (0 : ℚ) < 10 ^ places := by positivity
  have hscaled : (fixedUnits places x : ℚ) / 10 ^ places - Binary64.magnitude x =
      (roundHalfEven (Binary64.magnitude x * (10 : ℚ) ^ places) -
        Binary64.magnitude x * (10 : ℚ) ^ places) / 10 ^ places := by
    rw [cast_fixedUnits]
    field_simp
  rw [fixedValue, value_eq_mul_magnitude, ← mul_sub, abs_mul, abs_sign, one_mul, hscaled, abs_div,
    abs_of_pos hpos]
  gcongr
  exact abs_roundHalfEven_sub_le _

variable {places x}

/-- The number of units is bounded as the number is. -/
theorem fixedUnits_le {n : ℕ} (h : |Binary64.value x| ≤ n) :
    fixedUnits places x ≤ n * 10 ^ places := by
  have hscaled : Binary64.magnitude x * (10 : ℚ) ^ places ≤ ((n * 10 ^ places : ℕ) : ℚ) := by
    rw [← Binary64.abs_value]
    push_cast
    gcongr
  have hmem := roundHalfEven_mem (scaledMagnitude_nonneg places x) hscaled
  rw [fixedUnits]
  omega

/-- **Rounding does not pass an integer.** -/
theorem abs_fixedValue_le {n : ℕ} (h : |Binary64.value x| ≤ n) : |fixedValue places x| ≤ n := by
  have hpos : (0 : ℚ) < 10 ^ places := by positivity
  have hunits : (fixedUnits places x : ℚ) ≤ n * 10 ^ places := by exact_mod_cast fixedUnits_le h
  rw [fixedValue, abs_mul, abs_sign, one_mul, abs_of_nonneg (by positivity), div_le_iff₀ hpos]
  exact hunits

/-- **The length of the fixed form** is bounded. -/
theorem length_renderFixed_le (h : x.isFinite = true) :
    (renderFixed places x).length ≤ Binary64.places + places + 3 := by
  have hvalue : |Binary64.value x| ≤ ((10 ^ Binary64.places : ℕ) : ℚ) := by
    rw [Binary64.abs_value]
    exact_mod_cast (Binary64.valueOfBits_lt (Binary64.magnitudeBits_lt h)).le
  have hunits : fixedUnits places x < 10 ^ (Binary64.places + places + 1) := by
    refine (fixedUnits_le hvalue).trans_lt ?_
    rw [← pow_add]
    exact Nat.pow_lt_pow_right (by decide) (Nat.lt_succ_self _)
  have hdigits := Decimal.digitCount_le (Nat.succ_pos _) hunits
  have hsign : (signText x).length ≤ 1 := by
    rw [signText]
    split <;> simp
  rw [renderFixed_of_isFinite places h, List.length_append, length_pointedUnits]
  rw [Decimal.digitCount] at hdigits
  omega

end Rounded

end Geofence
