/-
Numbers that are not finite.

An operation with a number that is none gives no number, and no operation on a number that is not
finite gives a finite one.  The infinite numbers follow the rule of signs, and a finite number less
or more makes no difference to them.

Main results:

* `Geofence.Binary64.isFinite_of_add`, `Geofence.Binary64.isFinite_of_sub`,
  `Geofence.Binary64.isFinite_of_mul` — only finite numbers have finite results;
* `Geofence.Binary64.infinity_sub`, `Geofence.Binary64.sub_infinity`,
  `Geofence.Binary64.mul_infinity` — operations with the infinite numbers.
-/

import Geofence.Proofs.Number.Arithmetic

set_option relaxedAutoImplicit false
set_option autoImplicit false

namespace Geofence.Binary64

open Float.Model Float.Model.UnpackedFloat

/-- What is not finite is no number or infinite. -/
theorem eq_of_not_finite {x : Float} (h : ¬x.isFinite = true) :
    x = notANumber ∨ ∃ negative, x = infinity negative := by
  by_cases hnan : x.isNaN = true
  · exact .inl (eq_notANumber hnan)
  · refine .inr (eq_infinity ?_)
    by_contra hinf
    exact h (isFinite_eq_true (Bool.eq_false_iff.mpr hnan) (Bool.eq_false_iff.mpr hinf))

/-! ### No number -/

section NoNumber

variable {x y : Float}

theorem isNaN_packed {u : UnpackedFloat} (h : u = .notANumber) : (packed u).isNaN = true :=
  h ▸ rfl

theorem isNaN_add_left (h : x.isNaN = true) (y : Float) : (x + y).isNaN = true := by
  have hadd : UnpackedFloat.add .binary64 x.toModel.unpack y.toModel.unpack = .notANumber := by
    rw [unpack_of_isNaN h]
    rfl
  exact isNaN_packed hadd

theorem isNaN_add_right (x : Float) (h : y.isNaN = true) : (x + y).isNaN = true := by
  have hadd : UnpackedFloat.add .binary64 x.toModel.unpack y.toModel.unpack = .notANumber := by
    rw [unpack_of_isNaN h]
    cases x.toModel.unpack <;> rfl
  exact isNaN_packed hadd

theorem isNaN_sub_left (h : x.isNaN = true) (y : Float) : (x - y).isNaN = true := by
  have hsub : UnpackedFloat.sub .binary64 x.toModel.unpack y.toModel.unpack = .notANumber := by
    rw [unpack_of_isNaN h]
    rfl
  exact isNaN_packed hsub

theorem isNaN_sub_right (x : Float) (h : y.isNaN = true) : (x - y).isNaN = true := by
  have hsub : UnpackedFloat.sub .binary64 x.toModel.unpack y.toModel.unpack = .notANumber := by
    rw [unpack_of_isNaN h]
    cases x.toModel.unpack <;> rfl
  exact isNaN_packed hsub

theorem isNaN_mul_left (h : x.isNaN = true) (y : Float) : (x * y).isNaN = true := by
  have hmul : UnpackedFloat.mul .binary64 x.toModel.unpack y.toModel.unpack = .notANumber := by
    rw [unpack_of_isNaN h]
    rfl
  exact isNaN_packed hmul

theorem isNaN_mul_right (x : Float) (h : y.isNaN = true) : (x * y).isNaN = true := by
  have hmul : UnpackedFloat.mul .binary64 x.toModel.unpack y.toModel.unpack = .notANumber := by
    rw [unpack_of_isNaN h]
    cases x.toModel.unpack <;> rfl
  exact isNaN_packed hmul

theorem isNaN_div_left (h : x.isNaN = true) (y : Float) : (x / y).isNaN = true := by
  have hdiv : UnpackedFloat.div .binary64 x.toModel.unpack y.toModel.unpack = .notANumber := by
    rw [unpack_of_isNaN h]
    rfl
  exact isNaN_packed hdiv

end NoNumber

/-! ### Finite results -/

section Finite

variable {u v : UnpackedFloat}

theorem isFinite_of_packed (h : (packed u).isFinite = true) : u.isFinite = true := by
  cases u with
  | notANumber => exact absurd h (by decide +kernel)
  | infinity s => cases s <;> exact absurd h (by decide +kernel)
  | zero s => rfl
  | finite s m e hm => rfl

theorem isFinite_of_unpacked_neg (h : u.neg.isFinite = true) : u.isFinite = true := by
  cases u with
  | notANumber | infinity => cases h
  | zero | finite => rfl

theorem isFinite_of_unpacked_add (h : (UnpackedFloat.add .binary64 u v).isFinite = true) :
    u.isFinite = true ∧ v.isFinite = true := by
  cases u with
  | notANumber => cases h
  | infinity s =>
    cases v with
    | infinity t => cases s <;> cases t <;> cases h
    | notANumber | zero | finite => cases h
  | zero | finite =>
    cases v with
    | notANumber | infinity => cases h
    | zero | finite => exact ⟨rfl, rfl⟩

theorem isFinite_of_unpacked_mul (h : (UnpackedFloat.mul .binary64 u v).isFinite = true) :
    u.isFinite = true ∧ v.isFinite = true := by
  cases u with
  | notANumber => cases h
  | infinity s => cases v <;> cases h
  | zero | finite =>
    cases v with
    | notANumber | infinity => cases h
    | zero | finite => exact ⟨rfl, rfl⟩

variable {x y : Float}

theorem isFinite_of_neg (h : (-x).isFinite = true) : x.isFinite = true :=
  isFinite_of_unpacked_neg (u := x.toModel.unpack) (isFinite_of_packed h)

/-- **Only finite numbers have a finite sum.** -/
theorem isFinite_of_add (h : (x + y).isFinite = true) : x.isFinite = true ∧ y.isFinite = true :=
  isFinite_of_unpacked_add (u := x.toModel.unpack) (isFinite_of_packed h)

/-- **Only finite numbers have a finite difference.** -/
theorem isFinite_of_sub (h : (x - y).isFinite = true) :
    x.isFinite = true ∧ y.isFinite = true := by
  have hsub : (UnpackedFloat.sub .binary64 x.toModel.unpack y.toModel.unpack).isFinite = true :=
    isFinite_of_packed h
  rw [sub_eq_add_neg_unpacked] at hsub
  obtain ⟨hx, hy⟩ := isFinite_of_unpacked_add hsub
  exact ⟨hx, isFinite_of_unpacked_neg hy⟩

/-- **Only finite numbers have a finite product.** -/
theorem isFinite_of_mul (h : (x * y).isFinite = true) : x.isFinite = true ∧ y.isFinite = true :=
  isFinite_of_unpacked_mul (u := x.toModel.unpack) (isFinite_of_packed h)

end Finite

/-! ### The infinite numbers -/

section Infinite

variable {x : Float}

/-- An infinite number less a finite one is the infinite number. -/
theorem infinity_sub (negative : Bool) (hx : x.isFinite = true) :
    infinity negative - x = infinity negative := by
  change packed (UnpackedFloat.sub .binary64 (infinity negative).toModel.unpack x.toModel.unpack) =
    _
  change x.toModel.unpack.isFinite = true at hx
  generalize x.toModel.unpack = u at hx ⊢
  cases u with
  | notANumber | infinity => cases hx
  | zero | finite => cases negative <;> rfl

/-- A finite number less an infinite one is the opposite infinite number. -/
theorem sub_infinity (hx : x.isFinite = true) (negative : Bool) :
    x - infinity negative = infinity !negative := by
  change packed (UnpackedFloat.sub .binary64 x.toModel.unpack (infinity negative).toModel.unpack) =
    _
  change x.toModel.unpack.isFinite = true at hx
  generalize x.toModel.unpack = u at hx ⊢
  cases u with
  | notANumber | infinity => cases hx
  | zero | finite => cases negative <;> rfl

/-- A finite number other than zero times an infinite one is infinite, with the rule of signs. -/
theorem mul_infinity (hx : x.isFinite = true) (h : value x ≠ 0) (negative : Bool) :
    x * infinity negative = infinity (negative ^^ decide (value x < 0)) := by
  have hvalue := hasValue_unpack hx
  generalize value x = q at h hvalue ⊢
  change packed (UnpackedFloat.mul .binary64 x.toModel.unpack (infinity negative).toModel.unpack) =
    _
  generalize x.toModel.unpack = u at hvalue ⊢
  cases hvalue with
  | zero s => exact absurd rfl h
  | @finite s m e hm hlt he hlead =>
    have hpos : 0 < (m : ℚ) * 2 ^ e := by positivity
    cases s with
    | negative =>
      have hneg : ((UnpackedFloat.Sign.negative.apply m : ℤ) : ℚ) * 2 ^ e < 0 := by
        rw [Sign.apply, Int.cast_neg, Int.cast_natCast, neg_mul]
        exact neg_lt_zero.mpr hpos
      rw [decide_eq_true hneg]
      cases negative <;> rfl
    | positive =>
      have hnonneg : ¬((UnpackedFloat.Sign.positive.apply m : ℤ) : ℚ) * 2 ^ e < 0 := by
        rw [Sign.apply, Int.cast_natCast]
        exact hpos.not_gt
      rw [decide_eq_false hnonneg]
      cases negative <;> rfl

end Infinite

end Geofence.Binary64
