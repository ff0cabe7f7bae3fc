/-
Rounding by shifts.

A result is rounded by shifting its significand to the place that 53 bits need, while two more bits
keep what is shifted out: whether it is at least one half, and whether there is more to it.  They
tell enough to round the significand as the rational is rounded.  The rounded significand may have
one bit more; then a second shift, which loses nothing, gives the power of two at the next place.
So what comes out has the bit pattern of the nearest magnitude, in the count that goes on beyond the
finite ones.

Main definitions:

* `Geofence.Binary64.cut` — a significand with the two bits for a rest;
* `Geofence.Binary64.Canonical` — results in the form that is packed, with their bit patterns.

Main results:

* `Geofence.Binary64.roundedMantissa_cut` — the two bits round as the rest does;
* `Geofence.Binary64.shiftToTargetExponent_exact`,
  `Geofence.Binary64.shiftToTargetExponent_carry` — the two shifts;
* `Geofence.Binary64.canonical_roundWithAccuracy`, `Geofence.Binary64.canonical_round` — what is
  rounded has the bit pattern of the nearest magnitude.
-/

import Geofence.Proofs.Number.Nearest
import Geofence.Proofs.Number.Range

set_option relaxedAutoImplicit false
set_option autoImplicit false

namespace Geofence.Binary64

open Float.Model Float.Model.UnpackedFloat

/-! ### Integer parts with two more bits -/

/-- The integer part `n` of `n + a / d`, whether the rest is at least one half, and whether there is
more to it. -/
def cut (n a d : ℕ) : ExtendedMantissa where
  mantissa := n
  roundBit := decide (d ≤ 2 * a)
  stickyBit := decide (a ≠ 0 ∧ 2 * a ≠ d)

/-- A shift halves the rational: the last bit of the integer part goes to the rest. -/
theorem shiftRightOne_cut (n : ℕ) {a d : ℕ} (h : a < d) :
    (cut n a d).shiftRightOne = cut (n / 2) (n % 2 * d + a) (2 * d) := by
  have hbit : (n % 2 != 0) = decide (n % 2 ≠ 0) := by
    rw [Bool.eq_iff_iff, bne_iff_ne, decide_eq_true_eq]
  simp only [cut, ExtendedMantissa.shiftRightOne, ExtendedMantissa.mk.injEq, true_and, hbit,
    ← Bool.decide_or, decide_eq_decide]
  obtain hn | hn : n % 2 = 0 ∨ n % 2 = 1 := by omega
  · rw [hn]
    omega
  · rw [hn]
    omega

theorem cut_shiftRight (m k : ℕ) :
    ExtendedMantissa.ofMantissaAndAccuracy m .exact >>> k =
      cut (m / 2 ^ k) (m % 2 ^ k) (2 ^ k) := by
  induction k with
  | zero =>
      simp only [pow_zero, Nat.div_one, Nat.mod_one]
      rfl
  | succ k ih =>
      have hstep : ExtendedMantissa.ofMantissaAndAccuracy m .exact >>> (k + 1) =
          (ExtendedMantissa.ofMantissaAndAccuracy m .exact >>> k).shiftRightOne := rfl
      have hrest : m % 2 ^ (k + 1) = m / 2 ^ k % 2 * 2 ^ k + m % 2 ^ k := by
        rw [pow_succ, Nat.mod_mul]
        ring
      rw [hstep, ih, shiftRightOne_cut _ (Nat.mod_lt _ (Nat.two_pow_pos k)),
        Nat.div_div_eq_div_mul, ← pow_succ, hrest, pow_succ']

/-- Rounding a rational with its integer part and its rest. -/
theorem roundHalfEven_add_div (n : ℕ) {a d : ℕ} (h : a < d) :
    roundHalfEven (((n * d + a : ℕ) : ℚ) / d) =
      if 2 * a < d then (n : ℤ)
      else if d < 2 * a then n + 1
      else if (n : ℤ) % 2 = 0 then n
      else n + 1 := by
  have hd : (0 : ℚ) < d := by exact_mod_cast (Nat.zero_le a).trans_lt h
  have hfloor : (((n * d + a : ℕ) : ℚ) / d).floor = n := by
    change ⌊((n * d + a : ℕ) : ℚ) / d⌋ = (n : ℤ)
    refine Int.floor_eq_iff.mpr ⟨?_, ?_⟩
    · rw [le_div_iff₀ hd]
      push_cast
      exact le_add_of_nonneg_right (Nat.cast_nonneg a)
    · rw [div_lt_iff₀ hd]
      have : (a : ℚ) < d := by exact_mod_cast h
      push_cast
      linarith
  have hrest : ((n * d + a : ℕ) : ℚ) / d - (n : ℤ) = a / d := by
    push_cast
    field_simp
    ring
  have hlow : (a : ℚ) / d < 1 / 2 ↔ 2 * a < d := by
    rw [div_lt_div_iff₀ hd two_pos]
    norm_cast
    rw [mul_comm, one_mul]
  have hhigh : 1 / 2 < (a : ℚ) / d ↔ d < 2 * a := by
    rw [div_lt_div_iff₀ two_pos hd]
    norm_cast
    rw [mul_comm a, one_mul]
  simp only [roundHalfEven, hfloor, hrest, hlow, hhigh]

/-- What the two bits are kept for: the significand is rounded as the rational is. -/
theorem roundedMantissa_cut (n : ℕ) {a d : ℕ} (h : a < d) :
    ((cut n a d).roundedMantissa : ℤ) = roundHalfEven (((n * d + a : ℕ) : ℚ) / d) := by
  rw [roundHalfEven_add_div n h, cut]
  obtain hlt | heq | hgt := lt_trichotomy (2 * a) d
  · rw [if_pos hlt, decide_eq_false hlt.not_ge]
    by_cases hzero : a = 0
    · rw [decide_eq_false fun hsticky => hsticky.1 hzero]
      rfl
    · rw [decide_eq_true ⟨hzero, hlt.ne⟩]
      rfl
  · -- halfway the even one of the two integers is taken
    rw [if_neg heq.not_lt, if_neg heq.not_gt, decide_eq_true heq.ge,
      decide_eq_false fun hsticky => hsticky.2 heq]
    change ((n + n % 2 : ℕ) : ℤ) = _
    split_ifs <;> omega
  · rw [if_neg hgt.not_gt, if_pos hgt, decide_eq_true hgt.le, decide_eq_true ⟨by omega, hgt.ne'⟩]
    rfl

/-! ### Shifts -/

theorem binade_mul_zpow {m : ℕ} (hm : 0 < m) (e : ℤ) :
    binade (m * (2 : ℚ) ^ e) = m.log2 + e := by
  have hpow : (0 : ℚ) < 2 ^ e := by positivity
  have hlow : (2 : ℚ) ^ ((m.log2 : ℤ) + e) ≤ m * 2 ^ e := by
    rw [zpow_add₀ two_ne_zero]
    have : (2 : ℚ) ^ (m.log2 : ℤ) ≤ m := by exact_mod_cast Nat.log2_self_le hm.ne'
    exact mul_le_mul_of_nonneg_right this hpow.le
  have hhigh : m * (2 : ℚ) ^ e < 2 ^ ((m.log2 : ℤ) + 1 + e) := by
    rw [zpow_add₀ two_ne_zero]
    have : (m : ℚ) < 2 ^ ((m.log2 : ℤ) + 1) := by exact_mod_cast Nat.lt_log2_self (n := m)
    exact mul_lt_mul_of_pos_right this hpow
  have := le_binade hlow
  have := binade_lt (by positivity) hhigh
  omega

/-- The place at which the significand of a magnitude stands. -/
theorem targetExponent_totalExponent {m : ℕ} (hm : 0 < m) (e : ℤ) :
    Format.binary64.targetExponent (totalExponent m e) =
      max (binade (m * (2 : ℚ) ^ e) - 52) (-1074) := by
  rw [targetExponent_eq, totalExponent, binade_mul_zpow hm]
  congr 1
  ring

/-- **The first shift**, to the place of the nearest magnitude, rounds as the rational is. -/
theorem shiftToTargetExponent_exact {m : ℕ} (hm : 0 < m) {e t : ℤ}
    (ht : max (binade (m * (2 : ℚ) ^ e) - 52) (-1074) = t) (he : e ≤ t) :
    (shiftToTargetExponent .binary64 m e .exact).2 = t ∧
      ((shiftToTargetExponent .binary64 m e .exact).1.roundedMantissa : ℤ) =
        roundHalfEven (m * (2 : ℚ) ^ e / 2 ^ t) := by
  simp only [shiftToTargetExponent, shiftToExponent, targetExponent_totalExponent hm, ht]
  refine ⟨by omega, ?_⟩
  obtain ⟨k, rfl⟩ : ∃ k : ℕ, t = e + k := ⟨(t - e).toNat, by omega⟩
  have hscaled : (m : ℚ) * 2 ^ e / 2 ^ (e + k) = m / (2 ^ k : ℕ) := by
    rw [zpow_add₀ two_ne_zero, mul_comm ((2 : ℚ) ^ e), zpow_natCast,
      mul_div_mul_right _ _ (by positivity)]
    push_cast
    rfl
  rw [show (e + k - e).toNat = k by omega, cut_shiftRight,
    roundedMantissa_cut _ (Nat.mod_lt _ (Nat.two_pow_pos k)), Nat.div_add_mod', hscaled]

/-- **The second shift** only takes back a carry. -/
theorem shiftToTargetExponent_carry {r : ℕ} {t : ℤ} (hr : r ≤ 2 ^ 53) (ht : -1074 ≤ t) :
    shiftToTargetExponent .binary64 r t .exact =
      if r = 2 ^ 53 then (⟨2 ^ 52, false, false⟩, t + 1) else (⟨r, false, false⟩, t) := by
  simp only [shiftToTargetExponent, shiftToExponent, targetExponent_eq, totalExponent]
  split_ifs with hcarry
  · rw [hcarry, Nat.log2_two_pow, show (max (((53 : ℕ) : ℤ) + 1 + t - 53) (-1074) - t).toNat = 1 by
      omega]
    rfl
  · have hlog : r.log2 ≤ 52 := log2_le (by omega)
    rw [show (max ((r.log2 : ℤ) + 1 + t - 53) (-1074) - t).toNat = 0 by omega, Nat.cast_zero,
      add_zero]
    rfl

/-! ### Canonical results -/

/-- A result with a sign whose magnitude has the given bit pattern: a significand of at most 53 bits
has its leading bit unless it stands at the least place, and the pattern counts the significands of
each place in turn, also beyond the finite numbers. -/
inductive Canonical (s : UnpackedFloat.Sign) : ℕ → UnpackedFloat → Prop
  | zero : Canonical s 0 (.zero s)
  | finite {m : ℕ} {e : ℤ} (hm : 0 < m) (hlt : m < 2 ^ 53) (he : -1074 ≤ e)
      (hlead : 2 ^ 52 ≤ m ∨ e = -1074) :
      Canonical s ((e + 1074).toNat * 0x10000000000000 + m) (.finite s m e hm)
  | infinity : Canonical s infinityBits (.infinity s)

/-- **What is rounded is canonical**, and has the bit pattern of the nearest magnitude. -/
theorem canonical_roundWithAccuracy (s : UnpackedFloat.Sign) {m : ℕ} (hm : 0 < m) {e : ℤ}
    (he : e ≤ max (binade (m * (2 : ℚ) ^ e) - 52) (-1074)) :
    ∃ bits, Canonical s bits (roundWithAccuracy .binary64 s m e .exact) ∧
      min bits infinityBits = nearestBits (m * (2 : ℚ) ^ e) := by
  have hpos : 0 < (m : ℚ) * 2 ^ e := by positivity
  obtain ⟨hlow, hhigh⟩ := binade_bounds hpos
  generalize ht : max (binade (m * (2 : ℚ) ^ e) - 52) (-1074) = t at he
  obtain ⟨hplace, hround⟩ := shiftToTargetExponent_exact hm ht he
  simp only [roundWithAccuracy, hplace]
  generalize (shiftToTargetExponent .binary64 m e .exact).1.roundedMantissa = r at hround ⊢
  have hnearest : nearestBits (m * (2 : ℚ) ^ e) =
      min ((t + 1074).toNat * 0x10000000000000 + r) infinityBits := by
    simp only [nearestBits, if_neg hpos.ne', ht, ← hround, Int.toNat_natCast]
  have hr : r ≤ 2 ^ 53 := by
    have hscaled : m * (2 : ℚ) ^ e / 2 ^ t ≤ ((2 ^ 53 : ℤ) : ℚ) := by
      rw [div_le_iff₀ (by positivity)]
      refine hhigh.le.trans ?_
      calc (2 : ℚ) ^ (binade (m * (2 : ℚ) ^ e) + 1) ≤ 2 ^ (53 + t) :=
            zpow_le_zpow_right₀ one_le_two (by omega)
        _ = ((2 ^ 53 : ℤ) : ℚ) * 2 ^ t := by rw [zpow_add₀ two_ne_zero]; norm_num
    have := roundHalfEven_mono hscaled
    rw [roundHalfEven_intCast, ← hround] at this
    omega
  have hlead : 2 ^ 52 ≤ r ∨ t = -1074 := by
    by_cases hleast : t = -1074
    · exact .inr hleast
    have hscaled : ((2 ^ 52 : ℤ) : ℚ) ≤ m * (2 : ℚ) ^ e / 2 ^ t := by
      rw [le_div_iff₀ (by positivity)]
      refine le_trans ?_ hlow
      calc ((2 ^ 52 : ℤ) : ℚ) * 2 ^ t = 2 ^ (52 + t) := by rw [zpow_add₀ two_ne_zero]; norm_num
        _ ≤ 2 ^ binade (m * (2 : ℚ) ^ e) := zpow_le_zpow_right₀ one_le_two (by omega)
    have := roundHalfEven_mono hscaled
    rw [roundHalfEven_intCast, ← hround] at this
    exact .inl (by omega)
  rw [hnearest]
  obtain rfl | hlt := hr.eq_or_lt
  · -- the carry is a significand of one bit at the next place, with the same count
    have hcount : (t + 1 + 1074).toNat * 0x10000000000000 + 2 ^ 52 =
        (t + 1074).toNat * 0x10000000000000 + 2 ^ 53 := by
      omega
    simp only [shiftToTargetExponent_carry hr (t := t) (by omega), if_true]
    exact ⟨_, .finite (by decide) (by decide) (by omega) (.inl le_rfl), by rw [hcount]⟩
  · simp only [shiftToTargetExponent_carry hr (t := t) (by omega), if_neg hlt.ne]
    split
    next hzero =>
      have hleast : t = -1074 := hlead.resolve_left (by omega)
      refine ⟨0, .zero, ?_⟩
      rw [hzero, hleast]
      rfl
    next hne => exact ⟨_, .finite (Nat.pos_of_ne_zero hne) hlt (by omega) hlead, rfl⟩

/-- **Rounding a significand at any place.** -/
theorem canonical_round (s : UnpackedFloat.Sign) {m : ℕ} (hm : 0 < m) (e : ℤ) :
    ∃ bits, Canonical s bits (UnpackedFloat.round .binary64 s m e) ∧
      min bits infinityBits = nearestBits (m * (2 : ℚ) ^ e) := by
  simp only [UnpackedFloat.round, decreaseExponent, targetExponent_totalExponent hm]
  generalize hk : (e - max (binade (m * (2 : ℚ) ^ e) - 52) (-1074)).toNat = k
  have hshift : ((m <<< k : ℕ) : ℚ) * 2 ^ (e - k) = m * 2 ^ e := by
    rw [Nat.shiftLeft_eq, zpow_sub₀ two_ne_zero, zpow_natCast]
    push_cast
    field_simp
  have hpos : 0 < m <<< k := by
    rw [Nat.shiftLeft_eq]
    positivity
  rw [← hshift] at hk ⊢
  exact canonical_roundWithAccuracy s hpos (by omega)

end Geofence.Binary64
