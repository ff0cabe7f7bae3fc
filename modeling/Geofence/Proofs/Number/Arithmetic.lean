/-
Rounded arithmetic.

The sum, the difference and the product of two finite numbers are the numbers nearest to the sum,
the difference and the product of their values.  Since rounding keeps the order, what holds of exact
results passes to computed ones: a power of two that bounds the exact result bounds the computed
one, which therefore is finite, and computed results are compared the way exact ones are, or are
equal.  A difference moreover keeps its sign, since all values are multiples of the least positive
one.

Main definitions:

* `Geofence.Binary64.Rounds` — a number is the one nearest to a rational;
* `Geofence.Binary64.Bounded` — a finite number that a power of two bounds;
* `Geofence.Binary64.HasValue` — a finite result in canonical form, with its value.

Main results:

* `Geofence.Binary64.Rounds.le` — rounding keeps the order;
* `Geofence.Binary64.le_iff_value` — finite numbers are compared as their values;
* `Geofence.Binary64.rounds_add`, `Geofence.Binary64.rounds_sub`, `Geofence.Binary64.rounds_mul` —
  the operations;
* `Geofence.Binary64.Bounded.add`, `Geofence.Binary64.Bounded.sub`,
  `Geofence.Binary64.Bounded.mul` — the operations stay away from the end of the range;
* `Geofence.Binary64.value_sub_pos`, `Geofence.Binary64.value_sub_neg` — differences keep their
  signs.
-/

import Geofence.Proofs.Number.Order

set_option relaxedAutoImplicit false
set_option autoImplicit false

namespace Geofence.Binary64

open Float.Model Float.Model.UnpackedFloat

/-! ### The nearest number -/

/-- The bit pattern with the sign of the number nearest to a rational. -/
def nearestSigned (q : ℚ) : ℤ := if q < 0 then -(nearestBits (-q) : ℤ) else nearestBits q

theorem nearestSigned_of_nonneg {q : ℚ} (h : 0 ≤ q) : nearestSigned q = nearestBits q :=
  if_neg h.not_gt

theorem nearestSigned_neg {q : ℚ} (h : 0 ≤ q) : nearestSigned (-q) = -nearestBits q := by
  obtain rfl | hpos := h.eq_or_lt
  · rw [neg_zero]
    rfl
  · rw [nearestSigned, if_pos (neg_lt_zero.mpr hpos), neg_neg]

theorem nearestSigned_mono {p q : ℚ} (h : p ≤ q) : nearestSigned p ≤ nearestSigned q := by
  obtain hp | hp := le_total 0 p
  · rw [nearestSigned_of_nonneg hp, nearestSigned_of_nonneg (hp.trans h)]
    exact_mod_cast nearestBits_mono hp h
  · obtain hq | hq := le_total 0 q
    · rw [nearestSigned_of_nonneg hq, ← neg_neg p, nearestSigned_neg (neg_nonneg.mpr hp)]
      omega
    · rw [← neg_neg p, ← neg_neg q, nearestSigned_neg (neg_nonneg.mpr hp),
        nearestSigned_neg (neg_nonneg.mpr hq)]
      have := nearestBits_mono (neg_nonneg.mpr hq) (neg_le_neg h)
      omega

theorem natAbs_nearestSigned (q : ℚ) : (nearestSigned q).natAbs = nearestBits |q| := by
  obtain h | h := le_total 0 q
  · rw [nearestSigned_of_nonneg h, abs_of_nonneg h, Int.natAbs_natCast]
  · rw [← neg_neg q, nearestSigned_neg (neg_nonneg.mpr h), abs_neg,
      abs_of_nonneg (neg_nonneg.mpr h), Int.natAbs_neg, Int.natAbs_natCast]

/-- **`x` is the number nearest to `q`**, or the infinite one that `q` overflows to. -/
structure Rounds (q : ℚ) (x : Float) : Prop where
  isNaN : x.isNaN = false
  signedBits : Binary64.signedBits x = nearestSigned q

namespace Rounds

variable {p q : ℚ} {x y : Float}

/-- **Rounding keeps the order.** -/
theorem le (hx : Rounds p x) (hy : Rounds q y) (h : p ≤ q) : x ≤ y := by
  rw [le_iff_signedBits hx.isNaN hy.isNaN, hx.signedBits, hy.signedBits]
  exact nearestSigned_mono h

theorem lt_of_lt (hx : Rounds p x) (hy : Rounds q y) (h : x < y) : p < q := by
  by_contra hle
  have hback := hy.le hx (not_lt.mp hle)
  rw [le_iff_signedBits hy.isNaN hx.isNaN] at hback
  rw [lt_iff_signedBits hx.isNaN hy.isNaN] at h
  omega

theorem magnitudeBits (h : Rounds q x) : Binary64.magnitudeBits x = nearestBits |q| := by
  rw [← natAbs_nearestSigned, ← h.signedBits, natAbs_signedBits]

end Rounds

/-! ### Values -/

theorem abs_value (x : Float) : |value x| = magnitude x := by
  have hnonneg : 0 ≤ magnitude x := valueOfBits_nonneg _
  rw [value]
  split
  · rw [abs_neg, abs_of_nonneg hnonneg]
  · exact abs_of_nonneg hnonneg

/-- A finite number is the one nearest to its value. -/
theorem rounds_value {x : Float} (h : x.isFinite = true) : Rounds (value x) x := by
  refine ⟨isNaN_eq_false h, ?_⟩
  have hnearest : nearestBits (magnitude x) = magnitudeBits x :=
    nearestBits_valueOfBits (magnitudeBits_lt h)
  have hnonneg : 0 ≤ magnitude x := valueOfBits_nonneg _
  rw [signedBits, signOf, value]
  split
  · rw [nearestSigned_neg hnonneg, hnearest]
    rfl
  · rw [nearestSigned_of_nonneg hnonneg, hnearest]
    rfl

/-- The two zeros have the same value. -/
theorem value_eq_of_signedBits_eq {x y : Float} (h : signedBits x = signedBits y) :
    value x = value y := by
  have hzero : valueOfBits 0 = 0 := by decide +kernel
  simp only [signedBits, signOf] at h
  simp only [value, magnitude]
  cases hx : isNegative x <;> cases hy : isNegative y <;>
    simp only [hx, hy, Sign.apply, if_true, if_false, Bool.false_eq_true] at h ⊢
  · rw [Int.natCast_inj.mp h]
  · rw [show magnitudeBits x = 0 by omega, show magnitudeBits y = 0 by omega, hzero, neg_zero]
  · rw [show magnitudeBits x = 0 by omega, show magnitudeBits y = 0 by omega, hzero, neg_zero]
  · rw [Int.natCast_inj.mp (neg_inj.mp h)]

/-- Finite numbers are compared as their values. -/
theorem le_iff_value {x y : Float} (hx : x.isFinite = true) (hy : y.isFinite = true) :
    x ≤ y ↔ value x ≤ value y := by
  refine ⟨fun h => ?_, (rounds_value hx).le (rounds_value hy)⟩
  by_contra hlt
  have hback := (rounds_value hy).le (rounds_value hx) (not_le.mp hlt).le
  rw [le_iff_signedBits (isNaN_eq_false hx) (isNaN_eq_false hy)] at h
  rw [le_iff_signedBits (isNaN_eq_false hy) (isNaN_eq_false hx)] at hback
  exact hlt (value_eq_of_signedBits_eq (h.antisymm hback)).le

theorem lt_iff_value {x y : Float} (hx : x.isFinite = true) (hy : y.isFinite = true) :
    x < y ↔ value x < value y := by
  rw [← not_le, ← le_iff_value hy hx, ← not_lt_iff_le (isNaN_eq_false hx) (isNaN_eq_false hy),
    not_not]

/-! ### Bounds -/

/-- A finite number that a power of two bounds. -/
structure Bounded (k : ℕ) (x : Float) : Prop where
  isFinite : x.isFinite = true
  abs_value_le : |value x| ≤ 2 ^ k

namespace Rounds

variable {q : ℚ} {x : Float}

/-- **A power of two that bounds a rational** bounds the number nearest to it. -/
theorem bounded (h : Rounds q x) {k : ℕ} (hk : k ≤ 1023) (hq : |q| ≤ 2 ^ k) : Bounded k x := by
  have hpow : ((2 ^ 52 : ℕ) : ℚ) * 2 ^ ((k : ℤ) - 52) = 2 ^ k := by
    rw [Nat.cast_pow, Nat.cast_ofNat, ← zpow_natCast, ← zpow_natCast, ← zpow_add₀ two_ne_zero]
    congr 1
    omega
  have hvalue := valueOfBits_count (m := 2 ^ 52) (e := (k : ℤ) - 52) (by decide) (by omega)
    (.inl le_rfl)
  generalize hc : ((k : ℤ) - 52 + 1074).toNat * 0x10000000000000 + 2 ^ 52 = c at hvalue
  have hc : c < infinityBits := by
    rw [infinityBits]
    omega
  have hbits : nearestBits |q| ≤ c := by
    rw [← nearestBits_valueOfBits hc, hvalue, hpow]
    exact nearestBits_mono (abs_nonneg q) hq
  rw [← h.magnitudeBits] at hbits
  refine ⟨isFinite_of_magnitudeBits_lt h.isNaN (hbits.trans_lt hc), ?_⟩
  rw [abs_value, ← hpow, ← hvalue]
  exact valueOfBits_mono hc hbits

end Rounds

/-! ### Operations -/

/-- A finite result in canonical form, with its value. -/
inductive HasValue : ℚ → UnpackedFloat → Prop
  | zero (s : UnpackedFloat.Sign) : HasValue 0 (.zero s)
  | finite (s : UnpackedFloat.Sign) {m : ℕ} {e : ℤ} (hm : 0 < m) (hlt : m < 2 ^ 53)
      (he : -1074 ≤ e) (hlead : 2 ^ 52 ≤ m ∨ e = -1074) :
      HasValue ((s.apply m : ℤ) * 2 ^ e) (.finite s m e hm)

theorem hasValue_unpack {x : Float} (h : x.isFinite = true) :
    HasValue (value x) x.toModel.unpack := by
  have hcanonical := canonical_unpack (isNaN_eq_false h)
  have hvalue : value x = ((signOf x).apply 1 : ℤ) * valueOfBits (magnitudeBits x) := by
    rw [value, signOf, magnitude]
    split <;> simp [Sign.apply]
  rw [hvalue]
  change x.toModel.unpack.isFinite = true at h
  generalize x.toModel.unpack = u at hcanonical h
  generalize signOf x = s at hcanonical ⊢
  generalize magnitudeBits x = bits at hcanonical ⊢
  cases hcanonical with
  | zero =>
    rw [show valueOfBits 0 = 0 by decide +kernel, mul_zero]
    exact .zero s
  | @finite m e hm hlt he hlead =>
    have hsign : ((s.apply 1 : ℤ) : ℚ) * (m * 2 ^ e) = (s.apply m : ℤ) * 2 ^ e := by
      cases s <;> simp [Sign.apply]
    rw [valueOfBits_count hlt he hlead, hsign]
    exact .finite s hm hlt he hlead
  | infinity => cases h

/-- A canonical result packs into the number nearest to a rational if its bit pattern is that of
the nearest magnitude. -/
theorem rounds_packed {s : UnpackedFloat.Sign} {bits : ℕ} {u : UnpackedFloat} {m : ℕ} {e : ℤ}
    (h : Canonical s bits u) (hbits : min bits infinityBits = nearestBits (m * (2 : ℚ) ^ e)) :
    Rounds ((s.apply m : ℤ) * 2 ^ e) (packed u) := by
  obtain ⟨hnan, hsign, hmagnitude⟩ := packed_of_canonical h
  have hnonneg : 0 ≤ (m : ℚ) * 2 ^ e := by positivity
  refine ⟨hnan, ?_⟩
  rw [signedBits, hsign, hmagnitude, hbits]
  cases s with
  | negative =>
    rw [Sign.apply, Sign.apply, Int.cast_neg, Int.cast_natCast, neg_mul, nearestSigned_neg hnonneg]
  | positive =>
    rw [Sign.apply, Sign.apply, Int.cast_natCast, nearestSigned_of_nonneg hnonneg]

theorem HasValue.rounds {q : ℚ} {u : UnpackedFloat} (h : HasValue q u) : Rounds q (packed u) := by
  cases h with
  | zero s =>
    have := rounds_packed (m := 0) (e := 0) (Canonical.zero (s := s)) (by decide +kernel)
    cases s <;> simpa [Sign.apply] using this
  | finite s hm hlt he hlead =>
    exact rounds_packed (.finite hm hlt he hlead) (nearestBits_mul_zpow hm hlt he hlead).symm

theorem rounds_normalize (m e : ℤ) (zero : UnpackedFloat.Sign) :
    Rounds (m * 2 ^ e) (packed (UnpackedFloat.normalize .binary64 m e zero)) := by
  rw [UnpackedFloat.normalize]
  split
  next hlt =>
    have hneg := compare_lt_iff_lt.mp hlt
    obtain ⟨bits, hcanonical, hbits⟩ :=
      canonical_round .negative (m := (-m).toNat) (by omega) e
    have hround := rounds_packed hcanonical hbits
    rwa [Sign.apply, Int.toNat_of_nonneg (by omega), neg_neg] at hround
  next heq =>
    rw [compare_eq_iff_eq.mp heq, Int.cast_zero, zero_mul]
    exact (HasValue.zero zero).rounds
  next hgt =>
    have hpos := compare_gt_iff_gt.mp hgt
    obtain ⟨bits, hcanonical, hbits⟩ := canonical_round .positive (m := m.toNat) (by omega) e
    have hround := rounds_packed hcanonical hbits
    rwa [Sign.apply, Int.toNat_of_nonneg (by omega)] at hround

theorem apply_shiftLeft (s : UnpackedFloat.Sign) (m : ℕ) {d e : ℤ} (h : d ≤ e) :
    ((s.apply (m <<< (e - d).toNat : ℕ) : ℤ) : ℚ) * 2 ^ d = (s.apply m : ℤ) * 2 ^ e := by
  obtain ⟨k, rfl⟩ : ∃ k : ℕ, e = d + k := ⟨(e - d).toNat, by omega⟩
  rw [show (d + k - d).toNat = k by omega, Nat.shiftLeft_eq, zpow_add₀ two_ne_zero, zpow_natCast]
  cases s <;> simp only [Sign.apply] <;> push_cast <;> ring

theorem apply_neg (s : UnpackedFloat.Sign) (i : ℤ) : (-s).apply i = -s.apply i := by
  cases s with
  | negative => exact (neg_neg i).symm
  | positive => rfl

theorem apply_mul (s t : UnpackedFloat.Sign) (i j : ℤ) :
    (s * t).apply (i * j) = s.apply i * t.apply j := by
  cases s with
  | negative =>
    cases t with
    | negative => exact (neg_mul_neg i j).symm
    | positive => exact (neg_mul i j).symm
  | positive =>
    cases t with
    | negative => exact (mul_neg i j).symm
    | positive => rfl

section Operations

variable {q r : ℚ} {u v : UnpackedFloat}

theorem HasValue.neg (h : HasValue q u) : HasValue (-q) u.neg := by
  cases h with
  | zero s => rw [neg_zero]; exact .zero _
  | @finite s m e hm hlt he hlead =>
    rw [← neg_mul, ← Int.cast_neg, ← apply_neg]
    exact .finite _ hm hlt he hlead

theorem HasValue.add (hu : HasValue q u) (hv : HasValue r v) :
    Rounds (q + r) (packed (UnpackedFloat.add .binary64 u v)) := by
  cases hu with
  | zero s =>
    rw [zero_add]
    cases hv with
    | zero t =>
      simp only [UnpackedFloat.add]
      split <;> exact (HasValue.zero _).rounds
    | finite t hn hlt he hlead => exact (HasValue.finite t hn hlt he hlead).rounds
  | @finite s m d hm hltm hd hleadm =>
    cases hv with
    | zero t =>
      rw [add_zero]
      exact (HasValue.finite s hm hltm hd hleadm).rounds
    | @finite t n e hn hltn he hleadn =>
      rw [← apply_shiftLeft s m (min_le_left d e), ← apply_shiftLeft t n (min_le_right d e),
        ← add_mul, ← Int.cast_add]
      exact rounds_normalize _ _ _

/-- A product of 53 bits is shifted, and one of fewer has both factors at the least place. -/
theorem add_le_place_mul {m n : ℕ} {d e : ℤ} (hm : 0 < m) (hn : 0 < n)
    (hleadm : 2 ^ 52 ≤ m ∨ d = -1074) (hleadn : 2 ^ 52 ≤ n ∨ e = -1074) :
    d + e ≤ max (binade ((m * n : ℕ) * (2 : ℚ) ^ (d + e)) - 52) (-1074) := by
  rw [binade_mul_zpow (Nat.mul_pos hm hn)]
  by_cases hlarge : 2 ^ 52 ≤ m * n
  · have := (Nat.le_log2 (Nat.mul_pos hm hn).ne').mpr hlarge
    omega
  · have hmn : m ≤ m * n := Nat.le_mul_of_pos_right m hn
    have hnm : n ≤ m * n := Nat.le_mul_of_pos_left n hm
    have := hleadm.resolve_left (by omega)
    have := hleadn.resolve_left (by omega)
    omega

theorem HasValue.mul (hu : HasValue q u) (hv : HasValue r v) :
    Rounds (q * r) (packed (UnpackedFloat.mul .binary64 u v)) := by
  cases hu with
  | zero s =>
    rw [zero_mul]
    cases hv with
    | zero t => exact (HasValue.zero _).rounds
    | finite t hn hlt he hlead => exact (HasValue.zero _).rounds
  | @finite s m d hm hltm hd hleadm =>
    cases hv with
    | zero t =>
      rw [mul_zero]
      exact (HasValue.zero _).rounds
    | @finite t n e hn hltn he hleadn =>
      have hsign : ((s.apply m : ℤ) : ℚ) * 2 ^ d * ((t.apply n : ℤ) * 2 ^ e) =
          (((s * t).apply (m * n : ℕ) : ℤ) : ℚ) * 2 ^ (d + e) := by
        rw [zpow_add₀ two_ne_zero, Nat.cast_mul, apply_mul]
        push_cast
        ring
      obtain ⟨bits, hcanonical, hbits⟩ :=
        canonical_roundWithAccuracy (s * t) (Nat.mul_pos hm hn)
          (add_le_place_mul hm hn hleadm hleadn)
      rw [hsign]
      exact rounds_packed hcanonical hbits

end Operations

section Numbers

variable {x y : Float}

/-- **The sum** of finite numbers is the number nearest to the sum of their values. -/
theorem rounds_add (hx : x.isFinite = true) (hy : y.isFinite = true) :
    Rounds (value x + value y) (x + y) :=
  (hasValue_unpack hx).add (hasValue_unpack hy)

/-- **The product** of finite numbers is the number nearest to the product of their values. -/
theorem rounds_mul (hx : x.isFinite = true) (hy : y.isFinite = true) :
    Rounds (value x * value y) (x * y) :=
  (hasValue_unpack hx).mul (hasValue_unpack hy)

theorem rounds_neg (hx : x.isFinite = true) : Rounds (-value x) (-x) :=
  (hasValue_unpack hx).neg.rounds

/-- A difference is the sum with the negative. -/
theorem sub_eq_add_neg_unpacked (u v : UnpackedFloat) :
    UnpackedFloat.sub .binary64 u v = UnpackedFloat.add .binary64 u v.neg := by
  cases u with
  | notANumber => cases v <;> rfl
  | infinity s => cases v <;> rfl
  | zero s => cases v <;> rfl
  | finite s m d hm =>
    cases v with
    | notANumber => rfl
    | infinity t => rfl
    | zero t => rfl
    | finite t n e hn =>
      simp only [UnpackedFloat.sub, UnpackedFloat.add, UnpackedFloat.neg]
      rw [apply_neg, sub_eq_add_neg]

/-- **The difference** of finite numbers is the number nearest to the difference of their
values. -/
theorem rounds_sub (hx : x.isFinite = true) (hy : y.isFinite = true) :
    Rounds (value x - value y) (x - y) := by
  have h := (hasValue_unpack hx).add (hasValue_unpack hy).neg
  rw [← sub_eq_add_neg_unpacked, ← sub_eq_add_neg] at h
  exact h

end Numbers

/-! ### Bounded numbers -/

namespace Bounded

variable {j k : ℕ} {x y : Float}

theorem mono (h : Bounded j x) (hjk : j ≤ k) : Bounded k x :=
  ⟨h.isFinite, h.abs_value_le.trans (pow_le_pow_right₀ one_le_two hjk)⟩

theorem of_between {a b : Float} (ha : Bounded k a) (hb : Bounded k b) (hax : a ≤ x)
    (hxb : x ≤ b) : Bounded k x := by
  have hx := isFinite_of_between ha.isFinite hb.isFinite hax hxb
  rw [le_iff_value ha.isFinite hx] at hax
  rw [le_iff_value hx hb.isFinite] at hxb
  have hlow := (abs_le.mp ha.abs_value_le).1
  have hhigh := (abs_le.mp hb.abs_value_le).2
  exact ⟨hx, abs_le.mpr ⟨hlow.trans hax, hxb.trans hhigh⟩⟩

theorem neg (h : Bounded k x) (hk : k ≤ 1023) : Bounded k (-x) :=
  (rounds_neg h.isFinite).bounded hk ((abs_neg _).trans_le h.abs_value_le)

theorem add (hx : Bounded k x) (hy : Bounded k y) (hk : k < 1023) : Bounded (k + 1) (x + y) := by
  have hsum : |value x + value y| ≤ 2 ^ (k + 1) := by
    rw [pow_succ, mul_two]
    exact (abs_add_le _ _).trans (add_le_add hx.abs_value_le hy.abs_value_le)
  exact (rounds_add hx.isFinite hy.isFinite).bounded hk hsum

theorem sub (hx : Bounded k x) (hy : Bounded k y) (hk : k < 1023) : Bounded (k + 1) (x - y) := by
  have hdifference : |value x - value y| ≤ 2 ^ (k + 1) := by
    rw [pow_succ, mul_two]
    exact (abs_sub _ _).trans (add_le_add hx.abs_value_le hy.abs_value_le)
  exact (rounds_sub hx.isFinite hy.isFinite).bounded hk hdifference

theorem mul (hx : Bounded j x) (hy : Bounded k y) (hk : j + k ≤ 1023) :
    Bounded (j + k) (x * y) := by
  have hproduct : |value x * value y| ≤ 2 ^ (j + k) := by
    rw [abs_mul, pow_add]
    exact mul_le_mul hx.abs_value_le hy.abs_value_le (abs_nonneg _) (by positivity)
  exact (rounds_mul hx.isFinite hy.isFinite).bounded hk hproduct

end Bounded

/-! ### Signs of differences -/

section Numbers

variable {x y : Float}

/-- Values are multiples of the least positive one. -/
theorem exists_value_eq (x : Float) : ∃ k : ℤ, value x = k * (2 : ℚ) ^ (-1074 : ℤ) := by
  obtain ⟨j, hj⟩ : ∃ j : ℕ, place (magnitudeBits x) = j + -1074 :=
    ⟨(place (magnitudeBits x) + 1074).toNat, by have := le_place (magnitudeBits x); omega⟩
  have hmagnitude : magnitude x =
      ((significand (magnitudeBits x) * 2 ^ j : ℕ) : ℤ) * (2 : ℚ) ^ (-1074 : ℤ) := by
    rw [magnitude, valueOfBits_eq, hj, zpow_add₀ two_ne_zero, zpow_natCast, Int.cast_natCast,
      Nat.cast_mul, Nat.cast_pow, Nat.cast_ofNat, mul_assoc]
  rw [value]
  split
  · exact ⟨-_, by rw [hmagnitude, Int.cast_neg, neg_mul]⟩
  · exact ⟨_, hmagnitude⟩

/-- What is nearest to a rational that is at least the least positive value is positive. -/
theorem Rounds.value_pos {q : ℚ} (h : Rounds q x) (hx : x.isFinite = true)
    (hq : 2 ^ (-1074 : ℤ) ≤ q) : 0 < value x := by
  have hfinite : (ofMagnitudeBits false 1).isFinite = true := by decide +kernel
  have hleast : value (ofMagnitudeBits false 1) = 2 ^ (-1074 : ℤ) := by decide +kernel
  have hle := (rounds_value hfinite).le h (hleast.trans_le hq)
  rw [le_iff_value hfinite hx, hleast] at hle
  exact lt_of_lt_of_le (by positivity) hle

theorem Rounds.value_neg {q : ℚ} (h : Rounds q x) (hx : x.isFinite = true)
    (hq : q ≤ -2 ^ (-1074 : ℤ)) : value x < 0 := by
  have hfinite : (ofMagnitudeBits true 1).isFinite = true := by decide +kernel
  have hleast : value (ofMagnitudeBits true 1) = -2 ^ (-1074 : ℤ) := by decide +kernel
  have hle := h.le (rounds_value hfinite) (hq.trans_eq hleast.symm)
  rw [le_iff_value hx hfinite, hleast] at hle
  exact hle.trans_lt (neg_lt_zero.mpr (by positivity))

theorem add_least_le_value (h : value x < value y) : value x + 2 ^ (-1074 : ℤ) ≤ value y := by
  obtain ⟨j, hj⟩ := exists_value_eq x
  obtain ⟨k, hk⟩ := exists_value_eq y
  have hpos : (0 : ℚ) < 2 ^ (-1074 : ℤ) := by positivity
  rw [hj, hk] at h ⊢
  have hjk : j < k := by exact_mod_cast lt_of_mul_lt_mul_right h hpos.le
  have hstep : (j : ℚ) + 1 ≤ k := by exact_mod_cast Int.add_one_le_of_lt hjk
  rw [← add_one_mul]
  exact mul_le_mul_of_nonneg_right hstep hpos.le

/-- **A difference keeps its sign**: it is never rounded to zero. -/
theorem value_sub_pos (hx : x.isFinite = true) (hy : y.isFinite = true)
    (hsub : (x - y).isFinite = true) (h : value y < value x) : 0 < value (x - y) :=
  (rounds_sub hx hy).value_pos hsub (le_sub_iff_add_le'.mpr (add_least_le_value h))

theorem value_sub_neg (hx : x.isFinite = true) (hy : y.isFinite = true)
    (hsub : (x - y).isFinite = true) (h : value x < value y) : value (x - y) < 0 := by
  refine (rounds_sub hx hy).value_neg hsub ?_
  have := add_least_le_value h
  linarith

end Numbers

end Geofence.Binary64
