/-
The range of binary64 numbers.

An operation takes its operands apart, works out a significand with an exponent, rounds and packs.
What it packs becomes infinite only if the exponent is too large, and rounding raises the exponent
that 53 bits need by at most one.  So a product with a small factor and a quotient by a large divisor
are infinite only if the other operand is, and the difference of two numbers that keep away from the
end of the range never is.

Main definitions:

* `Geofence.Binary64.Within` — a result that is not infinite, with a bound for its exponent.

Main results:

* `Geofence.Binary64.within_roundWithAccuracy` — what rounding keeps in the range;
* `Geofence.Binary64.isInf_mul`, `Geofence.Binary64.isInf_div` — infinite products and quotients;
* `Geofence.Binary64.isInf_sub`, `Geofence.Binary64.isInf_sub_of_magnitude_lt` — infinite
  differences.
-/

import Geofence.Proofs.Number.Bits

set_option relaxedAutoImplicit false
set_option autoImplicit false

namespace Geofence.Binary64

open Float.Model Float.Model.UnpackedFloat

/-! ### Numbers that are not finite -/

theorem unpack_of_isNaN {x : Float} (h : x.isNaN = true) : x.toModel.unpack = .notANumber := by
  change x.toModel.unpack.isNaN = true at h
  cases hx : x.toModel.unpack with
  | notANumber => rfl
  | infinity s => rw [hx] at h; cases h
  | zero s => rw [hx] at h; cases h
  | finite s m e hm => rw [hx] at h; cases h

theorem unpack_of_isInf {x : Float} (h : x.isInf = true) : ∃ s, x.toModel.unpack = .infinity s := by
  change x.toModel.unpack.isInf = true at h
  cases hx : x.toModel.unpack with
  | notANumber => rw [hx] at h; cases h
  | infinity s => exact ⟨s, rfl⟩
  | zero s => rw [hx] at h; cases h
  | finite s m e hm => rw [hx] at h; cases h

/-- There is one number that is no number. -/
theorem eq_notANumber {x : Float} (h : x.isNaN = true) : x = notANumber :=
  eq_of_unpack (unpack_of_isNaN h)

/-- There are two infinite numbers. -/
theorem eq_infinity {x : Float} (h : x.isInf = true) : ∃ negative, x = infinity negative := by
  obtain ⟨s, hs⟩ := unpack_of_isInf h
  cases s with
  | negative => exact ⟨true, eq_of_unpack hs⟩
  | positive => exact ⟨false, eq_of_unpack hs⟩

theorem isInf_of_isNaN {x : Float} (h : x.isNaN = true) : x.isInf = false := by
  change x.toModel.unpack.isInf = false
  rw [unpack_of_isNaN h]
  rfl

theorem not_lt_of_isNaN {x : Float} (h : x.isNaN = true) (y : Float) : ¬x < y := by
  intro hlt
  have hlt : x.toModel.unpack.lt y.toModel.unpack = true := of_decide_eq_true hlt
  rw [unpack_of_isNaN h] at hlt
  cases hlt

/-! ### Packing a result -/

/-- The result is not infinite, and a finite one has an exponent of at most `n`. -/
def Within (n : ℤ) : UnpackedFloat → Prop
  | .infinity _ => False
  | .finite _ _ e _ => e ≤ n
  | _ => True

theorem isInf_unpack_packComponents {s : UnpackedFloat.Sign}
    {k : BitVec Format.binary64.exponentBits} (hk : k ≠ -1#_)
    (m : BitVec Format.binary64.mantissaBitsWithoutImplicit) :
    (UnpackedFloat.unpack .binary64 (packComponents .binary64 s k m)).isInf = false := by
  simp only [UnpackedFloat.unpack, unpackExponent_packComponents, unpackMantissa_packComponents,
    if_neg hk]
  split
  · split <;> rfl
  · rfl

/-- The largest exponent that is not packed as infinity is 971. -/
theorem isInf_pack_of_within {u : UnpackedFloat} (h : Within 971 u) :
    (Float.Model.pack u).isInf = false := by
  change (UnpackedFloat.unpack .binary64 (UnpackedFloat.pack .binary64 u)).isInf = false
  cases u with
  | notANumber => rfl
  | infinity s => exact h.elim
  | zero s => cases s <;> rfl
  | finite s m e hm =>
    have he : e ≤ 971 := h
    have hbiased : (e + (Format.binary64.exponentBias : ℕ) + ((52 : ℕ) : ℤ)).toNat < 2047 := by
      rw [exponentBias_eq]
      omega
    simp only [UnpackedFloat.pack]
    rw [if_neg (by omega)]
    split
    · apply isInf_unpack_packComponents
      intro hfull
      have := congrArg BitVec.toNat hfull
      rw [BitVec.toNat_ofNat, Nat.mod_eq_of_lt (by omega)] at this
      exact absurd this hbiased.ne
    · exact isInf_unpack_packComponents (by decide) _

theorem isInf_pack_infinity (s : UnpackedFloat.Sign) :
    (Float.Model.pack (.infinity s)).isInf = true := by
  cases s <;> rfl

/-! ### Finite operands -/

theorem log2_le {n j : ℕ} (h : n < 2 ^ (j + 1)) : n.log2 ≤ j := by
  by_cases hzero : n = 0
  · rw [hzero, Nat.log2_zero]
    exact Nat.zero_le j
  · exact Nat.lt_succ_iff.mp ((Nat.log2_lt hzero).mpr h)

/-- A finite number has at most 53 bits, and an exponent that its bit pattern tells. -/
theorem unpack_finite {b : BitVec Format.binary64.numBits} {s : UnpackedFloat.Sign} {m : ℕ} {e : ℤ}
    {hm : 0 < m} (h : UnpackedFloat.unpack .binary64 b = .finite s m e hm) :
    m.log2 ≤ 52 ∧ (unpackExponent b).toNat < 2047 ∧
      (e = -1074 ∨ e + 1075 = (unpackExponent b).toNat) := by
  have hfraction : (unpackMantissa b).toNat < 2 ^ 52 := (unpackMantissa b).isLt
  simp only [UnpackedFloat.unpack, exponentBias_eq] at h
  split at h
  next => split at h <;> cases h
  next hfull =>
    have hk := toNat_unpackExponent_lt hfull
    split at h
    next hsub =>
      split at h <;> cases h
      refine ⟨log2_le (by omega), hk, .inl ?_⟩
      rw [hsub]
      rfl
    next hnormal =>
      cases h
      refine ⟨log2_le ?_, hk, .inr (by omega)⟩
      rw [toNat_leading]
      omega

theorem unpack_infinity {b : BitVec Format.binary64.numBits} {s : UnpackedFloat.Sign}
    (h : UnpackedFloat.unpack .binary64 b = .infinity s) : (unpackExponent b).toNat = 2047 := by
  simp only [UnpackedFloat.unpack] at h
  split at h
  next hfull => rw [hfull]; rfl
  next =>
    split at h
    · split at h <;> cases h
    · cases h

theorem unpack_finite_le {b : BitVec Format.binary64.numBits} {s : UnpackedFloat.Sign} {m : ℕ}
    {e : ℤ} {hm : 0 < m} (h : UnpackedFloat.unpack .binary64 b = .finite s m e hm) :
    m.log2 ≤ 52 ∧ e ≤ 971 := by
  obtain ⟨hlog, hk, he⟩ := unpack_finite h
  omega

/-! ### Rounding -/

theorem mantissa_shiftRight (em : ExtendedMantissa) (k : ℕ) :
    (em >>> k).mantissa = em.mantissa / 2 ^ k := by
  induction k with
  | zero => exact (Nat.div_one _).symm
  | succ k ih =>
    have hstep : (em >>> (k + 1)).mantissa = (em >>> k).mantissa / 2 := rfl
    rw [hstep, ih, Nat.div_div_eq_div_mul, ← Nat.pow_succ]

theorem mantissa_ofMantissaAndAccuracy (m : ℕ) (a : Accuracy) :
    (ExtendedMantissa.ofMantissaAndAccuracy m a).mantissa = m := by
  cases a with
  | exact => rfl
  | inexact o => cases o <;> rfl

/-- Rounding goes at most to the next significand. -/
theorem roundedMantissa_le (em : ExtendedMantissa) : em.roundedMantissa ≤ em.mantissa + 1 := by
  rw [ExtendedMantissa.roundedMantissa]
  cases em.accuracy with
  | exact => exact Nat.le_succ _
  | inexact o =>
    cases o with
    | lt => exact Nat.le_succ _
    | eq =>
      have : em.mantissa % 2 < 2 := Nat.mod_lt _ two_pos
      simp only [Accuracy.roundToNearestEven]
      omega
    | gt => exact le_rfl

theorem targetExponent_eq (t : ℤ) :
    Format.binary64.targetExponent t = max (t - 53) (-1074) := by
  have hbits : (Format.binary64.mantissaBits : ℤ) = 53 := by decide
  have hmin : Format.binary64.minExponent = -1074 := by decide
  rw [Format.targetExponent, hbits, hmin]

/-- A shift to the exponent that 53 bits need leaves at most 53 bits. -/
theorem shiftToTargetExponent_spec (m : ℕ) (e : ℤ) (a : Accuracy) :
    (shiftToTargetExponent .binary64 m e a).1.mantissa < 2 ^ 53 ∧
      (shiftToTargetExponent .binary64 m e a).2 = max e (max (m.log2 + e - 52) (-1074)) := by
  simp only [shiftToTargetExponent, shiftToExponent, targetExponent_eq, totalExponent,
    mantissa_shiftRight, mantissa_ofMantissaAndAccuracy]
  refine ⟨?_, by omega⟩
  generalize hk : (max ((m.log2 : ℤ) + 1 + e - 53) (-1074) - e).toNat = k
  rw [Nat.div_lt_iff_lt_mul (Nat.two_pow_pos k), ← Nat.pow_add]
  exact Nat.lt_log2_self.trans_le (Nat.pow_le_pow_right two_pos (by omega))

/-- **What rounding keeps in the range**: the significand it rounds may fill up, which raises the
exponent once more. -/
theorem within_roundWithAccuracy (s : UnpackedFloat.Sign) {m : ℕ} {e : ℤ} (a : Accuracy)
    (he : e ≤ 970) (hm : m.log2 + e ≤ 1022) :
    Within 971 (roundWithAccuracy .binary64 s m e a) := by
  simp only [roundWithAccuracy]
  obtain ⟨hbits, hexp⟩ := shiftToTargetExponent_spec m e a
  generalize shiftToTargetExponent .binary64 m e a = shifted at hbits hexp
  obtain ⟨em, e'⟩ := shifted
  have hround : em.roundedMantissa < 2 ^ 54 := by
    have := roundedMantissa_le em
    simp only at hbits
    omega
  have hlog := log2_le hround
  obtain ⟨-, hfinal⟩ := shiftToTargetExponent_spec em.roundedMantissa e' .exact
  split
  · trivial
  · change (shiftToTargetExponent .binary64 em.roundedMantissa e' .exact).2 ≤ 971
    simp only at hexp
    omega

/-! ### Products and quotients -/

theorem log2_mul_le (m n : ℕ) : (m * n).log2 ≤ m.log2 + n.log2 + 1 := by
  apply log2_le
  calc m * n < 2 ^ (m.log2 + 1) * 2 ^ (n.log2 + 1) :=
        Nat.mul_lt_mul'' Nat.lt_log2_self Nat.lt_log2_self
    _ = 2 ^ (m.log2 + n.log2 + 1 + 1) := by rw [← Nat.pow_add]; congr 1; omega

/-- A product with a factor of less than one half is infinite exactly if the other factor is. -/
theorem isInf_mul (x : Float) {y : Float} {s : UnpackedFloat.Sign} {m : ℕ} {e : ℤ} {hm : 0 < m}
    (hy : y.toModel.unpack = .finite s m e hm) (he : e < 0) (hsmall : m.log2 + e < -1) :
    (x * y).isInf = x.isInf := by
  change (Float.Model.pack (UnpackedFloat.mul .binary64 x.toModel.unpack y.toModel.unpack)).isInf =
    x.toModel.unpack.isInf
  rw [hy]
  cases hx : x.toModel.unpack with
  | notANumber => exact isInf_pack_of_within trivial
  | infinity t => exact isInf_pack_infinity _
  | zero t => exact isInf_pack_of_within trivial
  | finite t n d hn =>
    have hrange := unpack_finite_le hx
    have hlog := log2_mul_le n m
    exact isInf_pack_of_within (within_roundWithAccuracy _ _ (by omega) (by omega))

/-- The quotient of significands that is rounded, with its exponent. -/
theorem divCore_le {m n : ℕ} {d e : ℤ} (hn : n.log2 ≤ 52) (hd : d ≤ 971) (hm : 0 < m)
    (hlarge : 0 < m.log2 + e) :
    (divCore .binary64 n d m e).2.1 ≤ 970 ∧
      (divCore .binary64 n d m e).1.log2 + (divCore .binary64 n d m e).2.1 ≤ 1022 := by
  simp only [divCore, targetExponent_eq, totalExponent, Nat.shiftLeft_eq]
  generalize ht : min (d - e)
    (max ((n.log2 : ℤ) + 1 + d - ((m.log2 : ℤ) + 1 + e) - 53) (-1074)) = t
  have hle : t ≤ 969 := by omega
  refine ⟨by omega, ?_⟩
  obtain ⟨k, hk⟩ : ∃ k : ℕ, (k : ℤ) = d - e - t := ⟨(d - e - t).toNat, by omega⟩
  rw [← hk, Int.toNat_natCast]
  by_cases hzero : n * 2 ^ k / m = 0
  · rw [hzero, Nat.log2_zero]
    omega
  -- the logarithm of a quotient is at most the difference of the logarithms
  have hpow : 2 ^ ((n * 2 ^ k / m).log2 + m.log2) < 2 ^ (n.log2 + 1 + k) := by
    calc 2 ^ ((n * 2 ^ k / m).log2 + m.log2)
        = 2 ^ (n * 2 ^ k / m).log2 * 2 ^ m.log2 := Nat.pow_add ..
      _ ≤ n * 2 ^ k / m * m :=
          Nat.mul_le_mul (Nat.log2_self_le hzero) (Nat.log2_self_le hm.ne')
      _ ≤ n * 2 ^ k := Nat.div_mul_le_self ..
      _ < 2 ^ (n.log2 + 1) * 2 ^ k :=
          Nat.mul_lt_mul_of_pos_right Nat.lt_log2_self (Nat.two_pow_pos k)
      _ = 2 ^ (n.log2 + 1 + k) := (Nat.pow_add ..).symm
  have := (Nat.pow_lt_pow_iff_right one_lt_two).mp hpow
  omega

/-- A quotient by a divisor of at least two is infinite exactly if the dividend is. -/
theorem isInf_div (x : Float) {y : Float} {s : UnpackedFloat.Sign} {m : ℕ} {e : ℤ} {hm : 0 < m}
    (hy : y.toModel.unpack = .finite s m e hm) (hlarge : 0 < m.log2 + e) :
    (x / y).isInf = x.isInf := by
  change (Float.Model.pack (UnpackedFloat.div .binary64 x.toModel.unpack y.toModel.unpack)).isInf =
    x.toModel.unpack.isInf
  rw [hy]
  cases hx : x.toModel.unpack with
  | notANumber => exact isInf_pack_of_within trivial
  | infinity t => exact isInf_pack_infinity _
  | zero t => exact isInf_pack_of_within trivial
  | finite t n d hn =>
    have hrange := unpack_finite_le hx
    have hquotient := divCore_le hrange.1 hrange.2 hm hlarge
    exact isInf_pack_of_within (within_roundWithAccuracy _ _ hquotient.1 hquotient.2)

/-! ### Differences -/

/-- An infinite number less a finite one is infinite. -/
theorem isInf_sub {x y : Float} (hx : x.isInf = true) (hy : y.isFinite = true) :
    (x - y).isInf = true := by
  obtain ⟨s, hs⟩ := unpack_of_isInf hx
  change y.toModel.unpack.isFinite = true at hy
  change (Float.Model.pack (UnpackedFloat.sub .binary64 x.toModel.unpack y.toModel.unpack)).isInf =
    true
  rw [hs]
  cases hv : y.toModel.unpack with
  | notANumber => rw [hv] at hy; cases hy
  | infinity t => rw [hv] at hy; cases hy
  | zero t => exact isInf_pack_infinity s
  | finite t m e hm => exact isInf_pack_infinity s

theorem shiftLeft_lt (m k : ℕ) : m <<< k < 2 ^ (m.log2 + k + 1) := by
  rw [Nat.shiftLeft_eq, Nat.add_right_comm, Nat.pow_add]
  exact Nat.mul_lt_mul_of_pos_right Nat.lt_log2_self (Nat.two_pow_pos k)

theorem within_round (s : UnpackedFloat.Sign) {m : ℕ} {e : ℤ} (he : e ≤ 970)
    (hm : m.log2 + e ≤ 1022) : Within 971 (UnpackedFloat.round .binary64 s m e) := by
  simp only [UnpackedFloat.round, decreaseExponent]
  generalize (e - Format.binary64.targetExponent (totalExponent m e)).toNat = k
  have hlog := log2_le (shiftLeft_lt m k)
  exact within_roundWithAccuracy _ _ (by omega) (by omega)

theorem within_normalize {m : ℤ} {e : ℤ} (zero : UnpackedFloat.Sign) (he : e ≤ 970)
    (hm : m.natAbs.log2 + e ≤ 1022) :
    Within 971 (UnpackedFloat.normalize .binary64 m e zero) := by
  rw [UnpackedFloat.normalize]
  split
  next hlt =>
    have : (-m).toNat = m.natAbs := by
      have := compare_lt_iff_lt.mp hlt
      omega
    rw [this]
    exact within_round _ he hm
  next => trivial
  next hgt =>
    have : m.toNat = m.natAbs := by
      have := compare_gt_iff_gt.mp hgt
      omega
    rw [this]
    exact within_round _ he hm

theorem natAbs_apply (s : UnpackedFloat.Sign) (n : ℕ) : (s.apply n).natAbs = n := by
  cases s with
  | negative => exact (Int.natAbs_neg n).trans (Int.natAbs_natCast n)
  | positive => exact Int.natAbs_natCast n

/-- The exponent field of a magnitude below `2 ^ 1022`. -/
theorem div_lt_of_valueOfBits_lt {bits : ℕ} (h : valueOfBits bits < 2 ^ 1022) :
    bits / 0x10000000000000 < 2045 := by
  by_contra hge
  have hle : (2 : ℚ) ^ (1022 : ℤ) ≤ valueOfBits bits := by
    rw [valueOfBits, if_neg (by omega)]
    calc (2 : ℚ) ^ (1022 : ℤ) = 2 ^ (52 : ℕ) * 2 ^ (970 : ℤ) := by
          rw [← zpow_natCast, ← zpow_add₀ two_ne_zero]; rfl
      _ ≤ _ := by
          gcongr
          · push_cast; norm_num
          · exact one_le_two
          · omega
  exact absurd h hle.not_gt

/-- A magnitude below `2 ^ 1022` is not infinite, and keeps away from the end of the range. -/
theorem within_of_magnitude_lt {x : Float} (h : magnitude x < 2 ^ 1022) :
    Within 969 x.toModel.unpack := by
  have hfield : (@unpackExponent .binary64 x.toModel.toBits.toBitVec).toNat < 2045 := by
    have := div_lt_of_valueOfBits_lt h
    rw [toNat_unpackExponent]
    simp only [magnitudeBits, Float.toBits, UInt64.toNat_toBitVec] at *
    omega
  cases hx : x.toModel.unpack with
  | notANumber => trivial
  | zero s => trivial
  | infinity s =>
    have := unpack_infinity hx
    omega
  | finite s m e hm =>
    obtain ⟨-, -, he⟩ := unpack_finite hx
    change e ≤ 969
    omega

theorem within_sub_finite {s t : UnpackedFloat.Sign} {m n : ℕ} {d e : ℤ} {hm : 0 < m} {hn : 0 < n}
    (hlogm : m.log2 ≤ 52) (hlogn : n.log2 ≤ 52) (hd : d ≤ 969) (he : e ≤ 969) :
    Within 971 (UnpackedFloat.sub .binary64 (.finite s m d hm) (.finite t n e hn)) := by
  simp only [UnpackedFloat.sub, decreaseExponent]
  have hm' := shiftLeft_lt m (d - min d e).toNat
  have hn' := shiftLeft_lt n (e - min d e).toNat
  generalize m <<< (d - min d e).toNat = m' at hm' ⊢
  generalize n <<< (e - min d e).toNat = n' at hn' ⊢
  obtain ⟨k, hk⟩ : ∃ k : ℕ, (k : ℤ) = 1021 - min d e := ⟨(1021 - min d e).toNat, by omega⟩
  have hm' : m' < 2 ^ (k + 1) := hm'.trans_le (Nat.pow_le_pow_right two_pos (by omega))
  have hn' : n' < 2 ^ (k + 1) := hn'.trans_le (Nat.pow_le_pow_right two_pos (by omega))
  have habs : (s.apply m' - t.apply n').natAbs < 2 ^ (k + 1 + 1) := by
    have hs := natAbs_apply s m'
    have ht := natAbs_apply t n'
    rw [Nat.pow_succ]
    omega
  have hlog := log2_le habs
  exact within_normalize _ (by omega) (by omega)

/-- The difference of numbers that keep away from the end of the range is not infinite. -/
theorem isInf_sub_of_magnitude_lt {x y : Float} (hx : magnitude x < 2 ^ 1022)
    (hy : magnitude y < 2 ^ 1022) : (x - y).isInf = false := by
  change (Float.Model.pack (UnpackedFloat.sub .binary64 x.toModel.unpack y.toModel.unpack)).isInf =
    false
  apply isInf_pack_of_within
  have hx := within_of_magnitude_lt hx
  have hy := within_of_magnitude_lt hy
  cases hu : x.toModel.unpack with
  | infinity s => rw [hu] at hx; exact hx.elim
  | notANumber => trivial
  | zero s =>
    rw [hu] at hx
    cases hv : y.toModel.unpack with
    | infinity t => rw [hv] at hy; exact hy.elim
    | notANumber => trivial
    | zero t => simp only [UnpackedFloat.sub]; split <;> trivial
    | finite t n e hn => rw [hv] at hy; exact hy.trans (by decide)
  | finite s m d hm =>
    rw [hu] at hx
    cases hv : y.toModel.unpack with
    | infinity t => rw [hv] at hy; exact hy.elim
    | notANumber => trivial
    | zero t => exact hx.trans (by decide)
    | finite t n e hn =>
      rw [hv] at hy
      exact within_sub_finite (unpack_finite hu).1 (unpack_finite hv).1 hx hy

end Geofence.Binary64
