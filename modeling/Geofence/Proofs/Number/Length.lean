/-
The length of numbers in texts.

A number is written with the digits of its decimal, a few zeros to fill a place, and perhaps an
exponent.  How many digits the shortest decimal has depends on where it was found: on a grid it is a
neighbour of the magnitude in steps of a bounded size, and the exact decimal has the bits of the
magnitude, each of them worth less than a digit.  The bounds are not sharp; they do not have to be,
since the cells of a table are far longer.

Main results:

* `Geofence.Decimal.modest_shortest` — the size of the shortest decimal;
* `Geofence.Layout.length_text_le` — the length of the text of a decimal;
* `Geofence.length_renderNumber_le` — the length of the text of a number.
-/

import Geofence.Proofs.Number.RoundTrip

set_option relaxedAutoImplicit false
set_option autoImplicit false

namespace Geofence

/-! ### Magnitudes -/

namespace Binary64

/-- More decimal places than a magnitude has on either side of the point. -/
def places : ℕ := 1100

theorem two_pow_le_ten_pow {j k : ℕ} (h : j ≤ k) : 2 ^ j ≤ 10 ^ k :=
  (Nat.pow_le_pow_left (by decide) j).trans (Nat.pow_le_pow_right (by decide) h)

theorem valueOfBits_lt {bits : ℕ} (h : bits < infinityBits) : valueOfBits bits < 10 ^ places := by
  have hplace := place_le h
  have hsignificand : (significand bits : ℚ) < 2 ^ (53 : ℤ) := by
    exact_mod_cast significand_lt bits
  have hsum : (53 : ℤ) + place bits ≤ places := by
    simp only [places]
    omega
  rw [valueOfBits_eq]
  calc (significand bits : ℚ) * 2 ^ place bits
      < 2 ^ (53 : ℤ) * 2 ^ place bits := by gcongr
    _ = 2 ^ (53 + place bits) := by rw [zpow_add₀ two_ne_zero]
    _ ≤ 2 ^ (places : ℤ) := zpow_le_zpow_right₀ one_le_two hsum
    _ ≤ 10 ^ places := by exact_mod_cast two_pow_le_ten_pow (le_refl places)

theorem log2_den_valueOfBits_le (bits : ℕ) : (valueOfBits bits).den.log2 ≤ places := by
  have hdvd := den_valueOfBits_dvd bits
  rw [den_valueOfBits, Nat.pow_dvd_pow_iff_le_right (by decide)] at hdvd
  have := le_place bits
  simp only [places]
  omega

theorem den_valueOfBits_le (bits : ℕ) : (valueOfBits bits).den ≤ 10 ^ places := by
  rw [den_valueOfBits]
  exact two_pow_le_ten_pow (log2_den_valueOfBits_le bits)

theorem num_valueOfBits_lt {bits : ℕ} (h : bits < infinityBits) :
    (valueOfBits bits).num.toNat < 10 ^ (2 * places) := by
  have hnonneg : 0 ≤ (valueOfBits bits).num := Rat.num_nonneg.mpr (valueOfBits_nonneg bits)
  have hden : ((valueOfBits bits).den : ℚ) ≤ 10 ^ places := by
    exact_mod_cast den_valueOfBits_le bits
  have hnum : ((valueOfBits bits).num : ℚ) < 10 ^ (2 * places) := by
    calc ((valueOfBits bits).num : ℚ)
        = valueOfBits bits * (valueOfBits bits).den := (Rat.mul_den_eq_num _).symm
      _ < 10 ^ places * 10 ^ places := by
        apply mul_lt_mul_of_lt_of_le_of_nonneg_of_pos (valueOfBits_lt h) hden
        · exact valueOfBits_nonneg bits
        · positivity
      _ = 10 ^ (2 * places) := by rw [← pow_add, two_mul]
  have hcast : (valueOfBits bits).num < ((10 ^ (2 * places) : ℕ) : ℤ) := by exact_mod_cast hnum
  exact (Int.toNat_lt hnonneg).mpr hcast

end Binary64

/-! ### Decimals -/

namespace Decimal

/-- Neither the coefficient nor the exponent is enormous. -/
structure Modest (d : Decimal) : Prop where
  coefficient_lt : d.coefficient < 10 ^ (3 * Binary64.places)
  exponent_le : d.exponent.natAbs ≤ 3 * Binary64.places

theorem exponent_of_onGrid? {bits : ℕ} {exponent : ℤ} {d : Decimal}
    (h : onGrid? bits exponent = some d) : d.exponent = exponent := by
  have hmem := List.mem_of_find?_eq_some h
  simp only [List.mem_cons, List.not_mem_nil, or_false] at hmem
  obtain rfl | rfl := hmem <;> rfl

/-- On a grid the coefficient counts the steps up to the magnitude. -/
theorem coefficient_of_onGrid? {bits : ℕ} {exponent : ℤ} {d : Decimal}
    (h : onGrid? bits exponent = some d) :
    d.coefficient ≤ (Binary64.valueOfBits bits / (10 : ℚ) ^ exponent).floor.toNat + 1 := by
  have hmem := List.mem_of_find?_eq_some h
  simp only [List.mem_cons, List.not_mem_nil, or_false] at hmem
  have hlow := floor_le_roundHalfEven (Binary64.valueOfBits bits / (10 : ℚ) ^ exponent)
  have hhigh := roundHalfEven_le (Binary64.valueOfBits bits / (10 : ℚ) ^ exponent)
  obtain rfl | rfl := hmem
  · dsimp only
    omega
  · dsimp only
    split <;> omega

theorem onGrids?_eq_some {bits count : ℕ} {exponent : ℤ} {d : Decimal}
    (h : onGrids? bits count exponent = some d) :
    ∃ e, exponent - count < e ∧ e ≤ exponent ∧ onGrid? bits e = some d := by
  induction count generalizing exponent with
  | zero => cases h
  | succ count ih =>
    rw [onGrids?, Option.or_eq_some_iff] at h
    obtain h | ⟨-, h⟩ := h
    · exact ⟨exponent, by omega, le_rfl, h⟩
    · obtain ⟨e, hlow, hhigh, he⟩ := ih h
      exact ⟨e, by omega, by omega, he⟩

theorem digitCount_le {n k : ℕ} (hk : 0 < k) (h : n < 10 ^ k) : digitCount n ≤ k :=
  (Nat.length_toDigits_le_iff (by decide) hk).mpr h

/-- A decimal on a grid that is neither too fine nor too coarse. -/
theorem modest_of_onGrid? {bits : ℕ} (hbits : bits < Binary64.infinityBits) {e : ℤ}
    (hlow : -(2 * Binary64.places - 1 : ℤ) ≤ e) (hhigh : e ≤ 3 * Binary64.places) {d : Decimal}
    (h : onGrid? bits e = some d) : d.Modest := by
  have hsteps : Binary64.valueOfBits bits / (10 : ℚ) ^ e <
      ((10 ^ (3 * Binary64.places - 1) : ℕ) : ℚ) := by
    have hpos : 1 ≤ 3 * Binary64.places := by decide
    rw [div_lt_iff₀ (by positivity)]
    calc Binary64.valueOfBits bits
        < 10 ^ (Binary64.places : ℤ) := Binary64.valueOfBits_lt hbits
      _ ≤ 10 ^ (((3 * Binary64.places - 1 : ℕ) : ℤ) + e) := by
        apply zpow_le_zpow_right₀ (by norm_num)
        push_cast [hpos]
        omega
      _ = ((10 ^ (3 * Binary64.places - 1) : ℕ) : ℚ) * 10 ^ e := by
        rw [zpow_add₀ (by norm_num), zpow_natCast]
        push_cast
        rfl
  have hfloor : (Binary64.valueOfBits bits / (10 : ℚ) ^ e).floor <
      ((10 ^ (3 * Binary64.places - 1) : ℕ) : ℤ) :=
    Int.floor_lt.mpr (by exact_mod_cast hsteps)
  have hcoefficient := coefficient_of_onGrid? h
  have hpos : 0 < 10 ^ (3 * Binary64.places - 1) := by positivity
  have hwide : 10 ^ (3 * Binary64.places - 1) < 10 ^ (3 * Binary64.places) :=
    Nat.pow_lt_pow_right (by decide) (by decide)
  refine ⟨?_, ?_⟩
  · omega
  · rw [exponent_of_onGrid? h]
    omega

/-- The exact decimal has a digit for each bit at most. -/
theorem modest_exact {bits : ℕ} (hbits : bits < Binary64.infinityBits) : (exact bits).Modest := by
  have hplaces := Binary64.log2_den_valueOfBits_le bits
  refine ⟨?_, ?_⟩
  · simp only [exact, Nat.pow_eq]
    calc (Binary64.valueOfBits bits).num.toNat * 5 ^ (Binary64.valueOfBits bits).den.log2
        < 10 ^ (2 * Binary64.places) * 10 ^ Binary64.places := by
          apply Nat.mul_lt_mul_of_lt_of_le (Binary64.num_valueOfBits_lt hbits)
          · exact (Nat.pow_le_pow_left (by decide) _).trans
              (Nat.pow_le_pow_right (by decide) hplaces)
          · positivity
      _ = 10 ^ (3 * Binary64.places) := by rw [← pow_add, ← Nat.succ_mul]
  · simp only [exact]
    omega

/-- **The shortest decimal** of a finite magnitude is modest. -/
theorem modest_shortest {bits : ℕ} (hbits : bits < Binary64.infinityBits) :
    (shortest bits).Modest := by
  have hnum : digitCount (Binary64.valueOfBits bits).num.toNat ≤ 2 * Binary64.places :=
    digitCount_le (by decide) (Binary64.num_valueOfBits_lt hbits)
  have hden : digitCount (Binary64.valueOfBits bits).den ≤ Binary64.places + 1 := by
    apply digitCount_le (Nat.succ_pos _)
    exact (Binary64.den_valueOfBits_le bits).trans_lt
      (Nat.pow_lt_pow_right (by decide) (Nat.lt_succ_self _))
  have hwide : 20 ≤ Binary64.places := by decide
  rw [shortest]
  generalize hgrids : onGrids? bits 18 _ = found
  cases found with
  | none => exact modest_exact hbits
  | some d =>
    obtain ⟨e, hlow, hhigh, he⟩ := onGrids?_eq_some hgrids
    exact modest_of_onGrid? hbits (by omega) (by omega) he

end Decimal

/-! ### Layouts -/

namespace Layout

theorem length_toDigits_le (n : ℕ) : (Nat.toDigits 10 n).length ≤ n + 1 :=
  (Nat.length_toDigits_le_iff (by decide) n.succ_pos).mpr
    (n.lt_succ_self.trans (Nat.lt_pow_self (by decide)))

/-- Between the bounds of coordinates, a positional layout fills up few places. -/
theorem length_positional_le (digits : Text) {point : ℤ} (hlow : coordinate.lowest ≤ point)
    (hhigh : point ≤ coordinate.highest) :
    (positional digits point).length ≤ digits.length + 18 := by
  simp only [coordinate] at hlow hhigh
  simp only [positional]
  split_ifs with hbelow habove
  · simp only [List.length_cons, List.length_append, List.length_replicate]
    omega
  · simp only [List.length_append, List.length_replicate, List.length_cons, List.length_nil]
    omega
  · simp only [List.length_append, List.length_cons, List.length_take, List.length_drop]
    omega

theorem length_exponentText_le (e : ℤ) : (coordinate.exponentText e).length ≤ e.natAbs + 5 := by
  have := length_toDigits_le e.natAbs
  simp only [exponentText, coordinate, List.length_cons, List.length_append, List.length_replicate]
  omega

theorem length_exponential_le (digits : Text) (point : ℤ) :
    (coordinate.exponential digits point).length ≤ digits.length + point.natAbs + 7 := by
  have := length_exponentText_le (point - 1)
  match digits with
  | [] | [_] | _ :: _ :: _ =>
    simp only [exponential, List.length_append, List.length_cons, List.length_nil]
    omega

/-- **The length of the text of a decimal** is bounded by its digits and its exponent. -/
theorem length_text_le (d : Decimal) :
    (coordinate.text d).length ≤
      2 * (Nat.toDigits 10 d.coefficient).length + d.exponent.natAbs + 18 := by
  have hsignificant :
      (((Nat.toDigits 10 d.coefficient).reverse.dropWhile (· = '0')).reverse).length ≤
        (Nat.toDigits 10 d.coefficient).length := by
    rw [List.length_reverse]
    exact (List.length_dropWhile_le ..).trans_eq List.length_reverse
  simp only [text]
  split
  next hbounds =>
    have := length_positional_le
      ((Nat.toDigits 10 d.coefficient).reverse.dropWhile (· = '0')).reverse hbounds.1 hbounds.2
    omega
  next =>
    have := length_exponential_le
      ((Nat.toDigits 10 d.coefficient).reverse.dropWhile (· = '0')).reverse
      ((Nat.toDigits 10 d.coefficient).length + d.exponent)
    omega

end Layout

/-! ### Numbers -/

/-- **The length of the text of a number** is bounded. -/
theorem length_renderNumber_le (x : Float) :
    (renderNumber x).length ≤ 10 * Binary64.places := by
  have hwide : 20 ≤ Binary64.places := by decide
  have hsign : (signText x).length ≤ 1 := by
    rw [signText]
    split <;> simp
  rw [renderNumber]
  split_ifs with hnan hinf hzero
  · simp only [List.length_cons, List.length_nil]
    omega
  · simp only [List.length_append, List.length_cons, List.length_nil]
    omega
  · simp only [List.length_append, List.length_cons, List.length_nil]
    omega
  · have hfinite : x.isFinite = true :=
      Binary64.isFinite_eq_true (Bool.eq_false_iff.mpr hnan) (Bool.eq_false_iff.mpr hinf)
    obtain ⟨hcoefficient, hexponent⟩ := Decimal.modest_shortest (Binary64.magnitudeBits_lt hfinite)
    have htext := Layout.length_text_le (Decimal.shortest (Binary64.magnitudeBits x))
    have hdigits := Decimal.digitCount_le (by decide) hcoefficient
    rw [Decimal.digitCount] at hdigits
    rw [List.length_append]
    omega

end Geofence
