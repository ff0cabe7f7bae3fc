/-
Rounding to the nearest number.

A magnitude is a significand below `2 ^ 53` at a place of at least `-1074`, with its leading bit
unless the place is the least one.  This is how rounding finds it: the binade gives the place, and
the significand, an integer, is its own rounding.

Main definitions:

* `Geofence.Binary64.significand`, `Geofence.Binary64.place` — the two parts of a magnitude.

Main results:

* `Geofence.Binary64.binade_bounds` — a rational lies in its binade;
* `Geofence.Binary64.nearestBits_mono` — rounding keeps the order;
* `Geofence.Binary64.nearestBits_valueOfBits` — a magnitude is its own rounding;
* `Geofence.Binary64.den_valueOfBits` — the denominator of a magnitude is a power of two.
-/

import Mathlib
import Geofence.Number.Binary64

set_option relaxedAutoImplicit false
set_option autoImplicit false

namespace Geofence

/-! ### Rounding to an integer -/

theorem floor_le_roundHalfEven (q : ℚ) : q.floor ≤ roundHalfEven q := by
  simp only [roundHalfEven]
  split_ifs <;> omega

theorem roundHalfEven_le (q : ℚ) : roundHalfEven q ≤ q.floor + 1 := by
  simp only [roundHalfEven]
  split_ifs <;> omega

/-- Rounding keeps the order. -/
theorem roundHalfEven_mono {p q : ℚ} (h : p ≤ q) : roundHalfEven p ≤ roundHalfEven q := by
  obtain hlt | heq := (Int.floor_mono h).lt_or_eq
  · exact (roundHalfEven_le p).trans (hlt.trans_le (floor_le_roundHalfEven q))
  · -- between the same integers, the larger one is no farther from the upper one
    have hfloor : p.floor = q.floor := heq
    simp only [roundHalfEven, hfloor]
    have hrest : p - q.floor ≤ q - q.floor := by linarith
    split_ifs <;> first | omega | linarith

namespace Binary64

/-! ### Significand and place -/

/-- The significand of the bit pattern of a finite magnitude. -/
def significand (bits : ℕ) : ℕ :=
  if bits / 0x10000000000000 = 0 then bits else 0x10000000000000 + bits % 0x10000000000000

/-- The exponent of two that goes with the significand. -/
def place (bits : ℕ) : ℤ := max ((bits / 0x10000000000000 : ℕ) : ℤ) 1 - 1075

theorem valueOfBits_eq (bits : ℕ) :
    valueOfBits bits = (significand bits : ℚ) * (2 : ℚ) ^ place bits := by
  simp only [valueOfBits, significand, place]
  split
  next h =>
    have hmod : bits % 0x10000000000000 = bits := by omega
    rw [h, hmod]; rfl
  next h =>
    have hmax : max ((bits / 0x10000000000000 : ℕ) : ℤ) 1 =
        ((bits / 0x10000000000000 : ℕ) : ℤ) := by
      omega
    rw [hmax]

theorem le_place (bits : ℕ) : -1074 ≤ place bits := by
  simp only [place]; omega

theorem place_le {bits : ℕ} (h : bits < infinityBits) : place bits ≤ 971 := by
  simp only [place, infinityBits] at h ⊢
  omega

theorem significand_lt (bits : ℕ) : significand bits < 2 ^ 53 := by
  simp only [significand]; split <;> omega

/-- Above the least place a significand has its leading bit. -/
theorem le_significand_or (bits : ℕ) : 2 ^ 52 ≤ significand bits ∨ place bits = -1074 := by
  simp only [significand, place]; split <;> omega

/-- The bit pattern counts the significands of each place in turn. -/
theorem place_mul_add_significand (bits : ℕ) :
    (place bits + 1074).toNat * 0x10000000000000 + significand bits = bits := by
  simp only [significand, place]; split <;> omega

/-- The value of the bit pattern that counts a significand at its place. -/
theorem valueOfBits_count {m : ℕ} {e : ℤ} (hlt : m < 2 ^ 53) (he : -1074 ≤ e)
    (hlead : 2 ^ 52 ≤ m ∨ e = -1074) :
    valueOfBits ((e + 1074).toNat * 0x10000000000000 + m) = m * (2 : ℚ) ^ e := by
  have hsignificand : significand ((e + 1074).toNat * 0x10000000000000 + m) = m := by
    simp only [significand]
    split_ifs <;> omega
  have hplace : place ((e + 1074).toNat * 0x10000000000000 + m) = e := by
    simp only [place]
    omega
  rw [valueOfBits_eq, hsignificand, hplace]

theorem significand_pos {bits : ℕ} (h : 0 < bits) : 0 < significand bits := by
  simp only [significand]; split <;> omega

theorem valueOfBits_nonneg (bits : ℕ) : 0 ≤ valueOfBits bits := by
  rw [valueOfBits_eq]
  positivity

theorem den_valueOfBits_dvd (bits : ℕ) : (valueOfBits bits).den ∣ 2 ^ (-place bits).toNat := by
  have hvalue : valueOfBits bits =
      Rat.divInt ((significand bits * 2 ^ (place bits).toNat : ℕ) : ℤ)
        ((2 ^ (-place bits).toNat : ℕ) : ℤ) := by
    rw [valueOfBits_eq, Rat.divInt_eq_div]
    push_cast
    rw [mul_div_assoc, ← zpow_natCast, ← zpow_natCast, ← zpow_sub₀ two_ne_zero]
    congr 2
    omega
  rw [hvalue]
  exact Int.natCast_dvd_natCast.mp (Rat.den_dvd _ _)

/-- The denominator of a magnitude is a power of two. -/
theorem den_valueOfBits (bits : ℕ) : (valueOfBits bits).den = 2 ^ (valueOfBits bits).den.log2 := by
  obtain ⟨k, -, hk⟩ := (Nat.dvd_prime_pow Nat.prime_two).mp (den_valueOfBits_dvd bits)
  rw [hk, Nat.log2_two_pow]

/-! ### Binades -/

/-- A positive rational lies in its binade. -/
theorem binade_bounds {q : ℚ} (h : 0 < q) : (2 : ℚ) ^ binade q ≤ q ∧ q < 2 ^ (binade q + 1) := by
  have hnum : 0 < q.num := Rat.num_pos.mpr h
  have hn : q.num.natAbs ≠ 0 := by omega
  have hcast : ((q.num.natAbs : ℕ) : ℚ) = q.num := by
    rw [Nat.cast_natAbs, abs_of_pos hnum]
  have hq : q = (q.num.natAbs : ℚ) / q.den := by rw [hcast, Rat.num_div_den]
  have hden : (0 : ℚ) < q.den := by exact_mod_cast q.den_pos
  have hn1 : (2 : ℚ) ^ (q.num.natAbs.log2 : ℤ) ≤ q.num.natAbs := by
    exact_mod_cast Nat.log2_self_le hn
  have hn2 : (q.num.natAbs : ℚ) < 2 ^ ((q.num.natAbs.log2 : ℤ) + 1) := by
    exact_mod_cast Nat.lt_log2_self (n := q.num.natAbs)
  have hd1 : (2 : ℚ) ^ (q.den.log2 : ℤ) ≤ q.den := by
    exact_mod_cast Nat.log2_self_le q.den_ne_zero
  have hd2 : (q.den : ℚ) < 2 ^ ((q.den.log2 : ℤ) + 1) := by
    exact_mod_cast Nat.lt_log2_self (n := q.den)
  have hlow : (2 : ℚ) ^ ((q.num.natAbs.log2 : ℤ) - q.den.log2 - 1) ≤ q := by
    rw [sub_sub, zpow_sub₀ two_ne_zero]
    conv_rhs => rw [hq]
    gcongr
  have hhigh : q < (2 : ℚ) ^ ((q.num.natAbs.log2 : ℤ) - q.den.log2 + 1) := by
    rw [sub_add_eq_add_sub, zpow_sub₀ two_ne_zero]
    conv_lhs => rw [hq]
    gcongr
  simp only [binade]
  split
  next hle => exact ⟨hle, hhigh⟩
  next hgt => exact ⟨hlow, by rw [sub_add_cancel]; exact not_le.mp hgt⟩

theorem binade_lt {q : ℚ} {e : ℤ} (hpos : 0 < q) (h : q < 2 ^ e) : binade q < e :=
  (zpow_lt_zpow_iff_right₀ one_lt_two).mp ((binade_bounds hpos).1.trans_lt h)

theorem le_binade {q : ℚ} {e : ℤ} (h : (2 : ℚ) ^ e ≤ q) : e ≤ binade q := by
  have hpos : 0 < q := lt_of_lt_of_le (by positivity) h
  have : e < binade q + 1 :=
    (zpow_lt_zpow_iff_right₀ one_lt_two).mp (h.trans_lt (binade_bounds hpos).2)
  omega

/-! ### Rounding -/

/-- **Rounding keeps the order** of magnitudes: in one binade it is the rounding of the significand
that does, and between two binades lies a power of two. -/
theorem nearestBits_mono {p q : ℚ} (hp : 0 ≤ p) (h : p ≤ q) : nearestBits p ≤ nearestBits q := by
  obtain rfl | hpos := hp.eq_or_lt
  · simp [nearestBits]
  have hbinade : binade p ≤ binade q := le_binade ((binade_bounds hpos).1.trans h)
  simp only [nearestBits]
  rw [if_neg hpos.ne', if_neg (hpos.trans_le h).ne']
  refine min_le_min_right _ ?_
  generalize hd : max (binade p - 52) (-1074) = d
  generalize he : max (binade q - 52) (-1074) = e
  have hde : d ≤ e := by omega
  obtain rfl | hlt := hde.eq_or_lt
  · have hscaled : p / 2 ^ d ≤ q / 2 ^ d := by gcongr
    have := roundHalfEven_mono hscaled
    omega
  · -- the smaller one is at most the power of two, and the larger one at least
    have hlow : p / 2 ^ d ≤ ((2 ^ 53 : ℤ) : ℚ) := by
      rw [div_le_iff₀ (by positivity)]
      refine (binade_bounds hpos).2.le.trans ?_
      calc (2 : ℚ) ^ (binade p + 1) ≤ 2 ^ (53 + d) := zpow_le_zpow_right₀ one_le_two (by omega)
        _ = ((2 ^ 53 : ℤ) : ℚ) * 2 ^ d := by rw [zpow_add₀ two_ne_zero]; norm_num
    have hhigh : ((2 ^ 52 : ℤ) : ℚ) ≤ q / 2 ^ e := by
      rw [le_div_iff₀ (by positivity)]
      refine le_trans ?_ (binade_bounds (hpos.trans_le h)).1
      calc ((2 ^ 52 : ℤ) : ℚ) * 2 ^ e = 2 ^ (52 + e) := by rw [zpow_add₀ two_ne_zero]; norm_num
        _ ≤ 2 ^ binade q := zpow_le_zpow_right₀ one_le_two (by omega)
    have hlow := roundHalfEven_mono hlow
    have hhigh := roundHalfEven_mono hhigh
    rw [roundHalfEven_intCast] at hlow hhigh
    omega

/-- A significand at its place is its own rounding. -/
theorem nearestBits_mul_zpow {m : ℕ} {e : ℤ} (hm : 0 < m) (hlt : m < 2 ^ 53) (he : -1074 ≤ e)
    (hlead : 2 ^ 52 ≤ m ∨ e = -1074) :
    nearestBits (m * (2 : ℚ) ^ e) =
      min ((e + 1074).toNat * 0x10000000000000 + m) infinityBits := by
  have hmq : (0 : ℚ) < m := by exact_mod_cast hm
  have hpow : (0 : ℚ) < 2 ^ e := by positivity
  have hhigh : (m : ℚ) * 2 ^ e < 2 ^ (e + 53) := by
    rw [zpow_add₀ two_ne_zero, mul_comm]
    have : (m : ℚ) < 2 ^ 53 := by exact_mod_cast hlt
    exact mul_lt_mul_of_pos_left this hpow
  have hupper := binade_lt (mul_pos hmq hpow) hhigh
  -- the leading bit fixes the binade, and without it the place is the least one anyway
  have hplace : max (binade (m * (2 : ℚ) ^ e) - 52) (-1074) = e := by
    obtain hlead | hlead := hlead
    · have hlow : (2 : ℚ) ^ (e + 52) ≤ m * 2 ^ e := by
        rw [zpow_add₀ two_ne_zero, mul_comm]
        have : (2 : ℚ) ^ 52 ≤ m := by exact_mod_cast hlead
        exact mul_le_mul_of_nonneg_right this hpow.le
      have := le_binade hlow
      omega
    · omega
  have hround : roundHalfEven ((m : ℚ) * 2 ^ e / 2 ^ e) = m := by
    rw [mul_div_cancel_right₀ _ hpow.ne']
    exact roundHalfEven_intCast m
  simp only [nearestBits]
  rw [if_neg (mul_pos hmq hpow).ne', hplace, hround, Int.toNat_natCast]

/-- **The value of a finite magnitude rounds to the magnitude.** -/
theorem nearestBits_valueOfBits {bits : ℕ} (h : bits < infinityBits) :
    nearestBits (valueOfBits bits) = bits := by
  obtain rfl | hpos := Nat.eq_zero_or_pos bits
  · decide +kernel
  · rw [valueOfBits_eq, nearestBits_mul_zpow (significand_pos hpos) (significand_lt bits)
      (le_place bits) (le_significand_or bits), place_mul_add_significand, min_eq_left h.le]

theorem valueOfBits_mono {b c : ℕ} (hc : c < infinityBits) (h : b ≤ c) :
    valueOfBits b ≤ valueOfBits c := by
  by_contra hlt
  have hback := nearestBits_mono (valueOfBits_nonneg c) (not_le.mp hlt).le
  rw [nearestBits_valueOfBits hc, nearestBits_valueOfBits (h.trans_lt hc)] at hback
  exact hlt (congrArg valueOfBits (h.antisymm hback)).le

/-- Magnitudes from `2 ^ 1025` on round to the infinite one. -/
theorem nearestBits_of_large {q : ℚ} (h : (2 : ℚ) ^ (1025 : ℤ) ≤ q) :
    nearestBits q = infinityBits := by
  have hne : q ≠ 0 := (lt_of_lt_of_le (by positivity) h).ne'
  have := le_binade h
  simp only [nearestBits]
  rw [if_neg hne]
  apply min_eq_right
  rw [infinityBits]
  omega

/-- Magnitudes below half of the least positive one round to zero. -/
theorem nearestBits_of_small {q : ℚ} (hpos : 0 ≤ q) (h : q < (2 : ℚ) ^ (-1075 : ℤ)) :
    nearestBits q = 0 := by
  obtain rfl | hpos := hpos.eq_or_lt
  · rfl
  have hplace : max (binade q - 52) (-1074) = -1074 := by
    have := binade_lt hpos h
    omega
  have hscaled : q / (2 : ℚ) ^ (-1074 : ℤ) < 1 / 2 := by
    rw [div_lt_iff₀ (by positivity)]
    refine h.trans_eq ?_
    rw [show (-1075 : ℤ) = -1 + -1074 by norm_num, zpow_add₀ two_ne_zero]
    norm_num
  have hfloor : (q / (2 : ℚ) ^ (-1074 : ℤ)).floor = 0 := by
    exact Int.floor_eq_zero_iff.mpr ⟨by positivity, hscaled.trans (by norm_num)⟩
  have hround : roundHalfEven (q / (2 : ℚ) ^ (-1074 : ℤ)) = 0 := by
    simp only [roundHalfEven, hfloor]
    rw [Int.cast_zero, sub_zero, if_pos hscaled]
  simp only [nearestBits]
  rw [if_neg hpos.ne', hplace, hround]
  rfl

end Binary64

end Geofence
