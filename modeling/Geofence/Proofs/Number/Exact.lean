/-
Sums without rounding.

A rational that has at most 53 bits and whose last bit stands at a place of the finite numbers is
the value of one, and the number nearest to it has this value.  All finite values are such
rationals.  Their sum is a multiple of the smaller one of their two places, so that it is such a
rational as well whenever it is no farther from zero than either of the two: then nothing is
rounded.  A difference of numbers of which neither is more than twice the other is of this kind, and
so is a longitude less the full turn it is at most half a turn away from.

Main definitions:

* `Geofence.Binary64.IsValue` — rationals that are the value of a finite number.

Main results:

* `Geofence.Binary64.exists_valueOfBits_eq` — at most 53 bits are a magnitude;
* `Geofence.Binary64.Rounds.value_eq` — a value is not rounded;
* `Geofence.Binary64.value_add_of_le`, `Geofence.Binary64.value_sub_of_le` — exact sums and
  differences.
-/

import Geofence.Proofs.Number.Arithmetic

set_option relaxedAutoImplicit false
set_option autoImplicit false

namespace Geofence.Binary64

/-! ### Values of finite numbers -/

/-- At most 53 bits at a place of the finite numbers are a magnitude: without the leading bit, the
place below holds twice the significand. -/
theorem exists_valueOfBits_eq {m : ℕ} {e : ℤ} (hlt : m < 2 ^ 53) (he : -1074 ≤ e) (he' : e ≤ 971) :
    ∃ bits < infinityBits, valueOfBits bits = m * (2 : ℚ) ^ e := by
  obtain ⟨k, rfl⟩ : ∃ k : ℕ, e = -1074 + k := ⟨(e + 1074).toNat, by omega⟩
  induction k generalizing m with
  | zero =>
    refine ⟨_, ?_, valueOfBits_count hlt he (.inr (by simp))⟩
    rw [infinityBits]
    omega
  | succ k ih =>
    by_cases hlead : 2 ^ 52 ≤ m
    · refine ⟨_, ?_, valueOfBits_count hlt he (.inl hlead)⟩
      rw [infinityBits]
      omega
    · obtain ⟨bits, hbits, hvalue⟩ := ih (m := 2 * m) (by omega) (by omega) (by omega)
      refine ⟨bits, hbits, ?_⟩
      rw [hvalue, Nat.cast_succ, ← add_assoc, zpow_add_one₀ two_ne_zero]
      push_cast
      ring

/-- The value of a finite number: an integer of at most 53 bits at one of the places. -/
def IsValue (q : ℚ) : Prop :=
  ∃ k e : ℤ, k.natAbs < 2 ^ 53 ∧ -1074 ≤ e ∧ e ≤ 971 ∧ q = k * (2 : ℚ) ^ e

theorem isValue_value {x : Float} (h : x.isFinite = true) : IsValue (value x) := by
  have hplace := place_le (magnitudeBits_lt h)
  have hmagnitude : magnitude x =
      ((significand (magnitudeBits x) : ℤ) : ℚ) * (2 : ℚ) ^ place (magnitudeBits x) := by
    rw [magnitude, valueOfBits_eq, Int.cast_natCast]
  have hlt := significand_lt (magnitudeBits x)
  rw [value]
  split
  · refine ⟨-significand (magnitudeBits x), _, by omega, le_place _, hplace, ?_⟩
    rw [hmagnitude, Int.cast_neg, neg_mul]
  · exact ⟨significand (magnitudeBits x), _, by omega, le_place _, hplace, hmagnitude⟩

namespace IsValue

variable {p q : ℚ}

theorem neg (h : IsValue q) : IsValue (-q) := by
  obtain ⟨k, e, hk, he, he', rfl⟩ := h
  exact ⟨-k, e, by rwa [Int.natAbs_neg], he, he', by rw [Int.cast_neg, neg_mul]⟩

theorem exists_valueOfBits (h : IsValue q) : ∃ bits < infinityBits, valueOfBits bits = |q| := by
  obtain ⟨k, e, hk, he, he', rfl⟩ := h
  obtain ⟨bits, hbits, hvalue⟩ := exists_valueOfBits_eq hk he he'
  refine ⟨bits, hbits, ?_⟩
  rw [hvalue, abs_mul, abs_of_pos (by positivity : (0 : ℚ) < 2 ^ e), Nat.cast_natAbs, Int.cast_abs]

/-- The sum is a multiple of the smaller place `d`, and has no more bits than the number there. -/
theorem add_of_place_le {k l d e : ℤ} (hk : k.natAbs < 2 ^ 53) (hd : -1074 ≤ d) (hde : d ≤ e)
    (he : e ≤ 971) (h : |(k : ℚ) * 2 ^ d + l * 2 ^ e| ≤ |(k : ℚ) * 2 ^ d|) :
    IsValue ((k : ℚ) * 2 ^ d + l * 2 ^ e) := by
  obtain ⟨j, rfl⟩ : ∃ j : ℕ, e = d + j := ⟨(e - d).toNat, by omega⟩
  have hpos : (0 : ℚ) < 2 ^ d := by positivity
  have hsum : (k : ℚ) * 2 ^ d + l * 2 ^ (d + j) = ((k + l * 2 ^ j : ℤ) : ℚ) * 2 ^ d := by
    rw [zpow_add₀ two_ne_zero, zpow_natCast]
    push_cast
    ring
  rw [hsum] at h ⊢
  rw [abs_mul, abs_mul] at h
  have hle : |((k + l * 2 ^ j : ℤ) : ℚ)| ≤ |(k : ℚ)| := le_of_mul_le_mul_right h (abs_pos.2 hpos.ne')
  have hint : (k + l * 2 ^ j).natAbs ≤ k.natAbs := by
    rw [Int.natAbs_le_iff_sq_le, sq_le_sq]
    exact_mod_cast hle
  exact ⟨_, d, hint.trans_lt hk, hd, by omega, rfl⟩

/-- **A sum is a value** when it is no farther from zero than either of the two values. -/
theorem add (hp : IsValue p) (hq : IsValue q) (h : |p + q| ≤ |p|) (h' : |p + q| ≤ |q|) :
    IsValue (p + q) := by
  obtain ⟨k, d, hk, hd, hd', rfl⟩ := hp
  obtain ⟨l, e, hl, he, he', rfl⟩ := hq
  obtain hde | hed := le_total d e
  · exact add_of_place_le hk hd hde he' h
  · rw [add_comm] at h' ⊢
    exact add_of_place_le hl he hed hd' h'

end IsValue

/-! ### Results that are not rounded -/

theorem value_zero : value 0 = 0 := by decide +kernel

theorem rounds_zero : Rounds 0 0 := ⟨by decide +kernel, by decide +kernel⟩

theorem Rounds.value_nonneg {q : ℚ} {x : Float} (h : Rounds q x) (hx : x.isFinite = true)
    (hq : 0 ≤ q) : 0 ≤ value x := by
  have hle := rounds_zero.le h hq
  rwa [le_iff_value (by decide +kernel) hx, value_zero] at hle

theorem Rounds.value_nonpos {q : ℚ} {x : Float} (h : Rounds q x) (hx : x.isFinite = true)
    (hq : q ≤ 0) : value x ≤ 0 := by
  have hle := h.le rounds_zero hq
  rwa [le_iff_value hx (by decide +kernel), value_zero] at hle

/-- **A value is not rounded.** -/
theorem Rounds.value_eq {q : ℚ} {x : Float} (h : Rounds q x) (hq : IsValue q) :
    x.isFinite = true ∧ value x = q := by
  obtain ⟨bits, hbits, hvalue⟩ := hq.exists_valueOfBits
  have hmagnitude : Binary64.magnitudeBits x = bits := by
    rw [h.magnitudeBits, ← hvalue, nearestBits_valueOfBits hbits]
  have hx : x.isFinite = true := isFinite_of_magnitudeBits_lt h.isNaN (hmagnitude ▸ hbits)
  have habs : |value x| = |q| := by rw [abs_value, magnitude, hmagnitude, hvalue]
  refine ⟨hx, ?_⟩
  -- the magnitudes agree, and rounding keeps the side of zero
  obtain hside | hside := le_total 0 q
  · rwa [abs_of_nonneg hside, abs_of_nonneg (h.value_nonneg hx hside)] at habs
  · rwa [abs_of_nonpos hside, abs_of_nonpos (h.value_nonpos hx hside), neg_inj] at habs

section Patterns

open Float.Model Float.Model.UnpackedFloat

/-- A pattern below the infinite one is that of a finite number. -/
theorem ofMagnitudeBits_of_lt {bits : ℕ} (h : bits < infinityBits) :
    (ofMagnitudeBits false bits).isFinite = true ∧
      (ofMagnitudeBits false bits).toBits.toNat = bits := by
  rw [infinityBits] at h
  have hnat : (UInt64.ofNat bits).toNat = bits := by
    rw [UInt64.toNat_ofNat', Nat.mod_eq_of_lt (by omega)]
  have hexp : ¬@unpackExponent .binary64 (UInt64.ofNat bits).toBitVec = -1#_ := by
    intro hexp
    have hfull : (UInt64.ofNat bits).toNat / 2 ^ 52 % 2 ^ 11 = 2047 :=
      (toNat_unpackExponent _).symm.trans (congrArg BitVec.toNat hexp)
    omega
  have hpack := pack_unpack (b := (UInt64.ofNat bits).toBitVec) ⟨fun hfull => absurd hfull hexp⟩
  have hbits : (ofMagnitudeBits false bits).toBits = UInt64.ofNat bits :=
    congrArg UInt64.ofBitVec hpack
  refine ⟨?_, by rw [hbits, hnat]⟩
  change (UnpackedFloat.unpack .binary64 (ofMagnitudeBits false bits).toBits.toBitVec).isFinite = true
  rw [hbits, UnpackedFloat.unpack]
  simp only [if_neg hexp]
  split_ifs <;> rfl

end Patterns

/-- **The number nearest to a value** that is not negative has this value. -/
theorem value_nearest {q : ℚ} (hq : IsValue q) (hside : 0 ≤ q) :
    (nearest false q).isFinite = true ∧ value (nearest false q) = q := by
  obtain ⟨bits, hbits, hvalue⟩ := hq.exists_valueOfBits
  rw [abs_of_nonneg hside] at hvalue
  obtain ⟨hfinite, hnat⟩ := ofMagnitudeBits_of_lt hbits
  rw [nearest, ← hvalue, nearestBits_valueOfBits hbits]
  refine ⟨hfinite, ?_⟩
  rw [infinityBits] at hbits
  rw [value, isNegative, magnitude, magnitudeBits, hnat, Nat.mod_eq_of_lt (by omega),
    if_neg (by rw [decide_eq_true_iff]; omega)]

section Numbers

variable {x y : Float}

/-- Numbers that compare as equal have the same value. -/
theorem value_of_beq (hy : y.isFinite = true) (h : x == y) :
    x.isFinite = true ∧ value x = value y := by
  have hcompare : x.toModel.unpack.compare y.toModel.unpack = some .eq := eq_of_beq h
  have hle : x ≤ y := by
    have hle : x.toModel.unpack.le y.toModel.unpack = true := by
      rw [Float.Model.UnpackedFloat.le, hcompare]
      rfl
    exact decide_eq_true hle
  obtain ⟨hnan, hnan'⟩ := isNaN_of_le hle
  rw [compare_unpack hnan hnan', Option.some_inj] at hcompare
  have hbits : signedBits x = signedBits y := compare_eq_iff_eq.mp hcompare
  refine ⟨isFinite_of_magnitudeBits_lt hnan ?_, value_eq_of_signedBits_eq hbits⟩
  rw [← natAbs_signedBits, hbits, natAbs_signedBits]
  exact magnitudeBits_lt hy

/-- A product with zero is zero. -/
theorem value_mul_of_zero (hx : x.isFinite = true) (hzero : value x = 0) (hy : y.isFinite = true) :
    (x * y).isFinite = true ∧ value (x * y) = 0 := by
  have hround := rounds_mul hx hy
  rw [hzero, zero_mul] at hround
  exact hround.value_eq ⟨0, 0, by decide, by decide, by decide, by simp⟩

/-- Adding zero changes no value. -/
theorem value_add_of_zero (hx : x.isFinite = true) (hy : y.isFinite = true) (hzero : value y = 0) :
    (x + y).isFinite = true ∧ value (x + y) = value x := by
  have hround := rounds_add hx hy
  rw [hzero, add_zero] at hround
  exact hround.value_eq (isValue_value hx)

/-- **A sum is exact** when it is no farther from zero than either of the two numbers. -/
theorem value_add_of_le (hx : x.isFinite = true) (hy : y.isFinite = true)
    (h : |value x + value y| ≤ |value x|) (h' : |value x + value y| ≤ |value y|) :
    (x + y).isFinite = true ∧ value (x + y) = value x + value y :=
  (rounds_add hx hy).value_eq ((isValue_value hx).add (isValue_value hy) h h')

/-- **A difference is exact** when it is no farther from zero than either of the two numbers. -/
theorem value_sub_of_le (hx : x.isFinite = true) (hy : y.isFinite = true)
    (h : |value x - value y| ≤ |value x|) (h' : |value x - value y| ≤ |value y|) :
    (x - y).isFinite = true ∧ value (x - y) = value x - value y := by
  refine (rounds_sub hx hy).value_eq ?_
  rw [sub_eq_add_neg] at h h' ⊢
  exact (isValue_value hx).add (isValue_value hy).neg h (by rwa [abs_neg])

end Numbers

end Geofence.Binary64
