/-
Numbers written and read back.

The shortest decimal of a magnitude rounds to it, since only such decimals are taken off the grids
and the exact decimal, taken when they have none, has the value of the magnitude.  Its text writes
its value, reading rounds this value, and the sign is kept apart: so every finite number is read
back from its text, zeros with their signs included.  The other three numbers are written as words
that are read as them.

Main results:

* `Geofence.Decimal.nearestBits_shortest` — the shortest decimal rounds to its magnitude;
* `Geofence.Numeral.toFloat_finite` — a numeral stands for the number nearest to its exact value;
* `Geofence.isPlain_of_mem_renderNumber` — a number is written with the characters of numbers;
* `Geofence.readNumber?_renderNumber` — a finite number is read back from its text;
* `Geofence.readNumber?_rendered` — and so is every other number.
-/

import Geofence.Proofs.Number.Layout
import Geofence.Proofs.Number.Nearest
import Geofence.Proofs.Number.Range

set_option relaxedAutoImplicit false
set_option autoImplicit false

namespace Geofence

/-! ### The shortest decimal -/

namespace Decimal

theorem onGrid?_roundsTo {bits : ℕ} {exponent : ℤ} {d : Decimal}
    (h : onGrid? bits exponent = some d) : roundsTo bits d = true :=
  List.find?_some h

theorem onGrids?_roundsTo {bits count : ℕ} {exponent : ℤ} {d : Decimal}
    (h : onGrids? bits count exponent = some d) : roundsTo bits d = true := by
  induction count generalizing exponent with
  | zero => cases h
  | succ count ih =>
    rw [onGrids?, Option.or_eq_some_iff] at h
    obtain h | ⟨-, h⟩ := h
    · exact onGrid?_roundsTo h
    · exact ih h

theorem value_exact (bits : ℕ) : (exact bits).value = Binary64.valueOfBits bits := by
  set v := Binary64.valueOfBits bits with hv
  have hden : (v.den : ℚ) = 2 ^ v.den.log2 := by exact_mod_cast Binary64.den_valueOfBits bits
  have hnum : ((v.num.toNat : ℕ) : ℚ) = v.num := by
    have : ((v.num.toNat : ℕ) : ℤ) = v.num :=
      Int.toNat_of_nonneg (Rat.num_nonneg.mpr (Binary64.valueOfBits_nonneg bits))
    exact_mod_cast this
  have hten : (10 : ℚ) ^ v.den.log2 = 2 ^ v.den.log2 * 5 ^ v.den.log2 := by
    rw [← mul_pow]; norm_num
  rw [value, exact]
  simp only [← hv, Nat.pow_eq]
  push_cast
  rw [hnum, zpow_neg, zpow_natCast, hten]
  calc (v.num : ℚ) * 5 ^ v.den.log2 * (2 ^ v.den.log2 * 5 ^ v.den.log2)⁻¹
      = v.num / 2 ^ v.den.log2 := by field_simp
    _ = v := by rw [← hden, Rat.num_div_den]

/-- **What is found reads back.** -/
theorem nearestBits_shortest {bits : ℕ} (h : bits < Binary64.infinityBits) :
    Binary64.nearestBits (shortest bits).value = bits := by
  rw [shortest]
  generalize hgrids : onGrids? bits 18 _ = found
  cases found with
  | none =>
    rw [Option.getD_none, value_exact, Binary64.nearestBits_valueOfBits h]
  | some d =>
    have := onGrids?_roundsTo hgrids
    simpa [roundsTo] using this

end Decimal

namespace Numeral

/-! ### The number of a numeral -/

/-- The scale bounds a numeral with a negative exponent from above. -/
theorem lt_of_scale {c : ℕ} {e : ℤ} (he : e ≤ 0) :
    (c : ℚ) * 10 ^ e < 2 ^ (scale c e + 1) := by
  have hc : (c : ℚ) < 2 ^ ((c.log2 : ℤ) + 1) := by
    exact_mod_cast Nat.lt_log2_self (n := c)
  have hten : (10 : ℚ) ^ e ≤ 2 ^ (3 * e) := by
    obtain ⟨k, rfl⟩ : ∃ k : ℕ, e = -(k : ℤ) := ⟨e.natAbs, by omega⟩
    rw [zpow_mul]
    simp only [zpow_neg, zpow_natCast]
    gcongr
    norm_num
  rw [scale, add_right_comm, zpow_add₀ two_ne_zero]
  exact mul_lt_mul_of_lt_of_le_of_nonneg_of_pos hc hten (by positivity) (by positivity)

theorem le_of_scale {c : ℕ} {e : ℤ} (hc : c ≠ 0) (he : 0 ≤ e) :
    (2 : ℚ) ^ scale c e ≤ c * 10 ^ e := by
  have hc : (2 : ℚ) ^ (c.log2 : ℤ) ≤ c := by
    exact_mod_cast Nat.log2_self_le hc
  have hten : (2 : ℚ) ^ (3 * e) ≤ 10 ^ e := by
    obtain ⟨k, rfl⟩ := Int.eq_ofNat_of_zero_le he
    rw [zpow_mul]
    simp only [zpow_natCast]
    gcongr
    norm_num
  rw [scale, zpow_add₀ two_ne_zero]
  gcongr

/-- **The cut-offs never change the number**: a numeral always stands for the number nearest to
its exact value. -/
theorem toFloat_finite (negative : Bool) (c : ℕ) (e : ℤ) :
    toFloat (.finite negative c e) = Binary64.nearest negative ((c : ℚ) * 10 ^ e) := by
  simp only [toFloat]
  split
  next h =>
    obtain rfl | h := h
    · rw [Nat.cast_zero, zero_mul]
    · have hlt : (c : ℚ) * 10 ^ e < 2 ^ (-1075 : ℤ) := by
        refine (lt_of_scale (by simp only [scale] at h; omega)).trans_le ?_
        exact zpow_le_zpow_right₀ one_le_two (by omega)
      rw [Binary64.nearest, Binary64.nearest, Binary64.nearestBits_of_small (by positivity) hlt]
      rfl
  next h =>
    split
    next hlarge =>
      have hle : (2 : ℚ) ^ (1025 : ℤ) ≤ c * 10 ^ e :=
        (zpow_le_zpow_right₀ one_le_two (by omega)).trans
          (le_of_scale (fun h0 => h (.inl h0)) hlarge.1)
      rw [Binary64.nearest, Binary64.nearestBits_of_large hle]
      rfl
    next => rfl

end Numeral

/-! ### Numbers -/

open Text Numeral

/-- What is written behind the sign of a finite number. -/
theorem exists_renderNumber_eq {x : Float} (h : x.isFinite = true) :
    ∃ t q, renderNumber x = signText x ++ t ∧ Writes t q ∧
      Binary64.nearestBits q = Binary64.magnitudeBits x := by
  simp only [renderNumber, Binary64.isNaN_eq_false h, Binary64.isInf_eq_false h]
  by_cases hzero : Binary64.magnitudeBits x = 0
  · have hdigit : Digits ['0'] := Digits.replicate_zero 1
    have hvalue : ofDigits (['0'] ++ ['0']) = 0 := ofDigits_replicate_zero 2
    refine ⟨['0', '.', '0'], 0, by simp [hzero], ?_, by rw [hzero]; rfl⟩
    refine Writes.pointed hdigit (List.cons_ne_nil _ _) hdigit Closes.nil ?_
    rw [hvalue, Nat.cast_zero, zero_mul]
  · have hshortest := Decimal.nearestBits_shortest (Binary64.magnitudeBits_lt h)
    refine ⟨_, _, by simp [hzero], writes_text Layout.coordinate ?_, hshortest⟩
    -- a decimal without digits would round to zero
    intro hcoefficient
    rw [Decimal.value, hcoefficient, Nat.cast_zero, zero_mul] at hshortest
    exact hzero hshortest.symm

/-- A finite number is written with the characters of numbers only. -/
theorem isPlain_of_mem_renderNumber {x : Float} (h : x.isFinite = true) :
    ∀ c ∈ renderNumber x, isPlain c = true := by
  obtain ⟨t, q, ht, hw, -⟩ := exists_renderNumber_eq h
  rw [ht, signText]
  exact isPlain_of_signed hw.plain (Binary64.isNegative x)

/-- **A finite number is read back from its text**, the sign of a zero included. -/
theorem readNumber?_renderNumber {x : Float} (h : x.isFinite = true) :
    readNumber? (renderNumber x) = some x := by
  obtain ⟨t, q, ht, hw, hq⟩ := exists_renderNumber_eq h
  obtain ⟨c, e, hread, hvalue⟩ := hw.reads (Binary64.isNegative x)
  rw [readNumber?, ht, signText, ofText?_sign hw, hread, Option.map_some, toFloat_finite, hvalue,
    Binary64.nearest, hq, Binary64.ofMagnitudeBits_magnitudeBits]

/-- **Every number is read back from its text**, whether or not it is finite. -/
theorem readNumber?_rendered (x : Float) : readNumber? (renderNumber x) = some x := by
  by_cases hnan : x.isNaN = true
  · rw [Binary64.eq_notANumber hnan]
    decide +kernel
  · by_cases hinf : x.isInf = true
    · obtain ⟨negative, rfl⟩ := Binary64.eq_infinity hinf
      cases negative with
      | false => decide +kernel
      | true => decide +kernel
    · apply readNumber?_renderNumber
      exact Binary64.isFinite_eq_true (Bool.eq_false_iff.mpr hnan) (Bool.eq_false_iff.mpr hinf)

end Geofence
