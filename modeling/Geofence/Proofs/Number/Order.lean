/-
The order of binary64 numbers.

Numbers are compared by their parts: signs first, then places, then significands.  The bit pattern
of a magnitude counts the significands of each place in turn, so that all this is the comparison of
two integers, the bit patterns with their signs.  Packing a canonical result keeps its bit pattern,
or takes the one of the infinite magnitude when it lies beyond.

Main definitions:

* `Geofence.Binary64.signedBits` — the bit pattern of the magnitude with the sign;
* `Geofence.Binary64.packed` — the number that a result is packed into.

Main results:

* `Geofence.Binary64.canonical_unpack` — the parts of a number are canonical;
* `Geofence.Binary64.packed_of_canonical` — the number of a canonical result;
* `Geofence.Binary64.lt_iff_signedBits`, `Geofence.Binary64.le_iff_signedBits` — comparisons;
* `Geofence.Binary64.isFinite_of_between` — what lies between finite numbers is finite.
-/

import Geofence.Proofs.Number.Rounded

set_option relaxedAutoImplicit false
set_option autoImplicit false

namespace Geofence.Binary64

open Float.Model Float.Model.UnpackedFloat

/-! ### Fields -/

theorem toNat_packComponents (s : UnpackedFloat.Sign) (k : BitVec Format.binary64.exponentBits)
    (f : BitVec Format.binary64.mantissaBitsWithoutImplicit) :
    (packComponents .binary64 s k f).toNat =
      s.toBitVec.toNat * 0x8000000000000000 + k.toNat * 0x10000000000000 + f.toNat := by
  have hk : k.toNat < 2 ^ 11 := k.isLt
  have hf : f.toNat < 2 ^ 52 := f.isLt
  rw [packComponents, BitVec.toNat_append, ← Nat.shiftLeft_add_eq_or_of_lt f.isLt,
    BitVec.toNat_append, ← Nat.shiftLeft_add_eq_or_of_lt k.isLt, Nat.shiftLeft_eq, Nat.shiftLeft_eq]
  change (s.toBitVec.toNat * 2 ^ 11 + k.toNat) * 2 ^ 52 + f.toNat = _
  ring

/-- A bit pattern counts its fields. -/
theorem toNat_fields (b : BitVec Format.binary64.numBits) :
    b.toNat = (UnpackedFloat.Sign.ofBitVec (unpackSign b)).toBitVec.toNat * 0x8000000000000000 +
      (unpackExponent b).toNat * 0x10000000000000 + (unpackMantissa b).toNat := by
  rw [← toNat_packComponents, packComponents_fields]

theorem Canonical.finite_of_count {s : UnpackedFloat.Sign} {m bits : ℕ} {e : ℤ} (hm : 0 < m)
    (hlt : m < 2 ^ 53) (he : -1074 ≤ e) (hlead : 2 ^ 52 ≤ m ∨ e = -1074)
    (h : (e + 1074).toNat * 0x10000000000000 + m = bits) : Canonical s bits (.finite s m e hm) :=
  h ▸ .finite hm hlt he hlead

/-- What a bit pattern other than those of no number stands for. -/
theorem canonical_unpackBits {b : BitVec Format.binary64.numBits}
    (h : (UnpackedFloat.unpack .binary64 b).isNaN = false) :
    Canonical (UnpackedFloat.Sign.ofBitVec (unpackSign b)) (b.toNat % 0x8000000000000000)
      (UnpackedFloat.unpack .binary64 b) := by
  have hk : (unpackExponent b).toNat < 2 ^ 11 := (unpackExponent b).isLt
  have hf : (unpackMantissa b).toNat < 2 ^ 52 := (unpackMantissa b).isLt
  have hbits : b.toNat % 0x8000000000000000 =
      (unpackExponent b).toNat * 0x10000000000000 + (unpackMantissa b).toNat := by
    have := toNat_fields b
    omega
  rw [hbits]
  simp only [UnpackedFloat.unpack, exponentBias_eq] at h ⊢
  split at h
  next hfull =>
    rw [if_pos hfull]
    split at h
    next hzero =>
      rw [if_pos hzero, hfull, hzero]
      exact .infinity
    next => cases h
  next hfull =>
    rw [if_neg hfull]
    split
    next hsub =>
      rw [hsub]
      split
      next hzero =>
        rw [hzero]
        exact .zero
      next hne =>
        have he : ((0 : ℕ) : ℤ) - (1023 + ((52 : ℕ) : ℤ)) + 1 = -1074 := by rfl
        exact .finite_of_count _ (by omega) he.ge (.inr he) rfl
    next hnormal =>
      have hpos : 0 < (unpackExponent b).toNat :=
        Nat.pos_of_ne_zero fun hzero => hnormal (BitVec.eq_of_toNat_eq hzero)
      have hone := toNat_leading b
      exact .finite_of_count _ (by omega) (by omega) (.inl (by omega)) (by omega)

theorem toNat_packedInfinity (s : UnpackedFloat.Sign) :
    (packedInfinity .binary64 s).toNat = s.toBitVec.toNat * 0x8000000000000000 + infinityBits := by
  cases s <;> rfl

/-- **Packing a canonical result** keeps its bit pattern, cut off at the infinite magnitude. -/
theorem toNat_pack {s : UnpackedFloat.Sign} {bits : ℕ} {u : UnpackedFloat}
    (h : Canonical s bits u) :
    (UnpackedFloat.pack .binary64 u).toNat =
      s.toBitVec.toNat * 0x8000000000000000 + min bits infinityBits := by
  cases h with
  | zero => cases s <;> rfl
  | infinity => rw [min_self]; exact toNat_packedInfinity s
  | @finite m e hm hlt he hlead =>
    by_cases hrange : 971 < e
    · have hover : 2 ^ Format.binary64.exponentBits ≤
          (e + (Format.binary64.exponentBias : ℕ) + ((52 : ℕ) : ℤ)).toNat + 1 := by
        rw [exponentBias_eq]
        change 2048 ≤ _
        omega
      simp only [UnpackedFloat.pack, if_pos hover]
      rw [toNat_packedInfinity, min_eq_right (by rw [infinityBits]; omega)]
    · obtain ⟨k, hk⟩ : ∃ k : ℕ, e + 1075 = k := ⟨(e + 1075).toNat, by omega⟩
      rw [min_eq_left (by rw [infinityBits]; omega)]
      by_cases hnormal : 2 ^ 52 ≤ m
      · rw [pack_normal s hm hnormal hlt hk (by omega), toNat_packComponents, BitVec.toNat_ofNat,
          BitVec.toNat_ofNat]
        change _ + k % 2 ^ 11 * _ + m % 2 ^ 52 = _
        omega
      · have hleast := hlead.resolve_left hnormal
        rw [pack_subnormal s hm (not_le.mp hnormal) hleast, toNat_packComponents,
          BitVec.toNat_ofNat]
        change _ + 0 * _ + m % 2 ^ 52 = _
        omega

/-! ### Numbers with a sign -/

/-- The sign of a number. -/
def signOf (x : Float) : UnpackedFloat.Sign := if isNegative x then .negative else .positive

/-- The bit pattern of the magnitude with the sign: it counts the numbers away from zero. -/
def signedBits (x : Float) : ℤ := (signOf x).apply (magnitudeBits x)

theorem natAbs_signedBits (x : Float) : (signedBits x).natAbs = magnitudeBits x :=
  natAbs_apply _ _

/-- The number that a result is packed into. -/
def packed (u : UnpackedFloat) : Float := .ofModel (Float.Model.pack u)

theorem signOf_and_magnitudeBits_of_toNat {x : Float} {s : UnpackedFloat.Sign} {bits : ℕ}
    (hlt : bits < 0x8000000000000000)
    (h : x.toBits.toNat = s.toBitVec.toNat * 0x8000000000000000 + bits) :
    signOf x = s ∧ magnitudeBits x = bits := by
  cases s with
  | negative =>
    have h : x.toBits.toNat = 1 * 0x8000000000000000 + bits := h
    refine ⟨if_pos (decide_eq_true ?_), ?_⟩
    · omega
    · simp only [magnitudeBits]
      omega
  | positive =>
    have h : x.toBits.toNat = 0 * 0x8000000000000000 + bits := h
    refine ⟨if_neg ?_, ?_⟩
    · simp only [isNegative, decide_eq_true_eq]
      omega
    · simp only [magnitudeBits]
      omega

/-- A number that is not the one of no number has canonical parts. -/
theorem canonical_unpack {x : Float} (h : x.isNaN = false) :
    Canonical (signOf x) (magnitudeBits x) x.toModel.unpack := by
  have hfields := toNat_fields x.toModel.toBits.toBitVec
  have hk : (@unpackExponent .binary64 x.toModel.toBits.toBitVec).toNat < 2 ^ 11 := BitVec.isLt _
  have hf : (@unpackMantissa .binary64 x.toModel.toBits.toBitVec).toNat < 2 ^ 52 := BitVec.isLt _
  obtain ⟨hsign, -⟩ := signOf_and_magnitudeBits_of_toNat (x := x) (by omega)
    (hfields.trans (Nat.add_assoc ..))
  rw [hsign]
  exact canonical_unpackBits h

/-- The number packed from a canonical result has its sign and its bit pattern. -/
theorem packed_of_canonical {s : UnpackedFloat.Sign} {bits : ℕ} {u : UnpackedFloat}
    (h : Canonical s bits u) :
    (packed u).isNaN = false ∧ signOf (packed u) = s ∧
      magnitudeBits (packed u) = min bits infinityBits := by
  have hparts := signOf_and_magnitudeBits_of_toNat (x := packed u)
    (by rw [infinityBits]; omega) (toNat_pack h)
  refine ⟨?_, hparts⟩
  by_contra hnan
  have hbits : magnitudeBits (packed u) = 0x7ff8000000000000 := by
    rw [eq_notANumber (Bool.eq_true_of_not_eq_false hnan)]
    decide +kernel
  rw [hparts.2, infinityBits] at hbits
  omega

/-! ### Comparisons -/

theorem compare_significands {m n : ℕ} {d e : ℤ} (hm : m < 2 ^ 53) (hn : n < 2 ^ 53)
    (hd : -1074 ≤ d) (he : -1074 ≤ e) (hleadm : 2 ^ 52 ≤ m ∨ d = -1074)
    (hleadn : 2 ^ 52 ≤ n ∨ e = -1074) :
    (compare d e).then (compare m n) =
      compare ((d + 1074).toNat * 0x10000000000000 + m) ((e + 1074).toNat * 0x10000000000000 + n)
    := by
  obtain hlt | rfl | hgt := lt_trichotomy d e
  · rw [Int.compare_eq_lt.mpr hlt, Ordering.lt_then]
    exact (Nat.compare_eq_lt.mpr (by omega)).symm
  · rw [Int.compare_eq_eq.mpr rfl, Ordering.eq_then]
    obtain hlt | rfl | hgt := lt_trichotomy m n
    · rw [Nat.compare_eq_lt.mpr hlt, Nat.compare_eq_lt.mpr (by omega)]
    · rw [Nat.compare_eq_eq.mpr rfl, Nat.compare_eq_eq.mpr rfl]
    · rw [Nat.compare_eq_gt.mpr hgt, Nat.compare_eq_gt.mpr (by omega)]
  · rw [Int.compare_eq_gt.mpr hgt, Ordering.gt_then]
    exact (Nat.compare_eq_gt.mpr (by omega)).symm

theorem compare_neg_neg (i j : ℤ) : compare (-i) (-j) = (compare i j).swap := by
  obtain hlt | rfl | hgt := lt_trichotomy i j
  · rw [Int.compare_eq_lt.mpr hlt, Int.compare_eq_gt.mpr (by omega), Ordering.swap_lt]
  · rw [Int.compare_eq_eq.mpr rfl, Int.compare_eq_eq.mpr rfl, Ordering.swap_eq]
  · rw [Int.compare_eq_gt.mpr hgt, Int.compare_eq_lt.mpr (by omega), Ordering.swap_gt]

theorem compare_natCast (m n : ℕ) : compare (m : ℤ) (n : ℤ) = compare m n := by
  obtain hlt | rfl | hgt := lt_trichotomy m n
  · rw [Nat.compare_eq_lt.mpr hlt, Int.compare_eq_lt.mpr (by omega)]
  · rw [Nat.compare_eq_eq.mpr rfl, Int.compare_eq_eq.mpr rfl]
  · rw [Nat.compare_eq_gt.mpr hgt, Int.compare_eq_gt.mpr (by omega)]

/-- Of two magnitudes the larger one decides, as a positive number. -/
theorem compare_apply_positive (s : UnpackedFloat.Sign) {b c : ℕ} (h : b < c) :
    compare (s.apply b) (UnpackedFloat.Sign.positive.apply c) = .lt ∧
      compare (UnpackedFloat.Sign.positive.apply c) (s.apply b) = .gt := by
  rw [Int.compare_eq_lt, Int.compare_eq_gt, and_self]
  cases s <;> simp only [Sign.apply] <;> omega

/-- Of two magnitudes the larger one decides, as a negative number. -/
theorem compare_apply_negative (s : UnpackedFloat.Sign) {b c : ℕ} (h : b < c) :
    compare (s.apply b) (UnpackedFloat.Sign.negative.apply c) = .gt ∧
      compare (UnpackedFloat.Sign.negative.apply c) (s.apply b) = .lt := by
  rw [Int.compare_eq_lt, Int.compare_eq_gt, and_self]
  cases s <;> simp only [Sign.apply] <;> omega

/-- Canonical parts are compared as their bit patterns with the sign. -/
theorem compare_of_canonical {s t : UnpackedFloat.Sign} {b c : ℕ} {u v : UnpackedFloat}
    (hu : Canonical s b u) (hv : Canonical t c v) (hb : u.isFinite = true → b < infinityBits)
    (hc : v.isFinite = true → c < infinityBits) :
    u.compare v = some (compare (s.apply b) (t.apply c)) := by
  cases hu with
  | zero =>
    cases hv with
    | zero => cases s <;> cases t <;> rfl
    | finite hn =>
      cases t with
      | negative => rw [(compare_apply_negative s (by omega)).1]; rfl
      | positive => rw [(compare_apply_positive s (by omega)).1]; rfl
    | infinity =>
      cases t with
      | negative => rw [(compare_apply_negative s (by decide)).1]; rfl
      | positive => rw [(compare_apply_positive s (by decide)).1]; rfl
  | finite hm hltm hd hleadm =>
    cases hv with
    | zero =>
      cases s with
      | negative => rw [(compare_apply_negative t (by omega)).2]; rfl
      | positive => rw [(compare_apply_positive t (by omega)).2]; rfl
    | finite hn hltn he hleadn =>
      have hsame := compare_significands hltm hltn hd he hleadm hleadn
      cases s with
      | negative =>
        cases t with
        | negative =>
          rw [Sign.apply, Sign.apply, compare_neg_neg, compare_natCast, ← hsame]
          rfl
        | positive =>
          rw [Int.compare_eq_lt.mpr (by simp only [Sign.apply]; omega)]
          rfl
      | positive =>
        cases t with
        | negative =>
          rw [Int.compare_eq_gt.mpr (by simp only [Sign.apply]; omega)]
          rfl
        | positive =>
          rw [Sign.apply, Sign.apply, compare_natCast, ← hsame]
          rfl
    | infinity =>
      cases t with
      | negative => rw [(compare_apply_negative s (hb rfl)).1]; rfl
      | positive => rw [(compare_apply_positive s (hb rfl)).1]; rfl
  | infinity =>
    cases hv with
    | zero =>
      cases s with
      | negative => rw [(compare_apply_negative t (by decide)).2]; rfl
      | positive => rw [(compare_apply_positive t (by decide)).2]; rfl
    | finite hn =>
      cases s with
      | negative => rw [(compare_apply_negative t (hc rfl)).2]; rfl
      | positive => rw [(compare_apply_positive t (hc rfl)).2]; rfl
    | infinity => cases s <;> cases t <;> rfl

/-- **Numbers are compared as their bit patterns with the sign**, unless one is no number. -/
theorem compare_unpack {x y : Float} (hx : x.isNaN = false) (hy : y.isNaN = false) :
    x.toModel.unpack.compare y.toModel.unpack = some (compare (signedBits x) (signedBits y)) :=
  compare_of_canonical (canonical_unpack hx) (canonical_unpack hy) magnitudeBits_lt
    magnitudeBits_lt

theorem lt_iff_signedBits {x y : Float} (hx : x.isNaN = false) (hy : y.isNaN = false) :
    x < y ↔ signedBits x < signedBits y := by
  have hlt : x < y ↔ x.toModel.unpack.lt y.toModel.unpack = true := decide_eq_true_iff
  rw [hlt, UnpackedFloat.lt, compare_unpack hx hy, beq_iff_eq, Option.some_inj,
    Int.compare_eq_lt]

theorem le_iff_signedBits {x y : Float} (hx : x.isNaN = false) (hy : y.isNaN = false) :
    x ≤ y ↔ signedBits x ≤ signedBits y := by
  have hle : x ≤ y ↔ x.toModel.unpack.le y.toModel.unpack = true := decide_eq_true_iff
  rw [hle, UnpackedFloat.le, compare_unpack hx hy, Option.any_some, Int.isLE_compare]

/-- What is compared is a number. -/
theorem isNaN_of_le {x y : Float} (h : x ≤ y) : x.isNaN = false ∧ y.isNaN = false := by
  have hle : x.toModel.unpack.le y.toModel.unpack = true := of_decide_eq_true h
  constructor
  · by_contra hnan
    rw [unpack_of_isNaN (Bool.eq_true_of_not_eq_false hnan)] at hle
    cases hle
  · by_contra hnan
    rw [unpack_of_isNaN (Bool.eq_true_of_not_eq_false hnan)] at hle
    generalize x.toModel.unpack = u at hle
    cases u <;> cases hle

theorem float_le_of_lt {x y : Float} (h : x < y) : x ≤ y := by
  have hlt : x.toModel.unpack.lt y.toModel.unpack = true := of_decide_eq_true h
  have hle : x.toModel.unpack.le y.toModel.unpack = true := by
    rw [UnpackedFloat.lt, beq_iff_eq] at hlt
    rw [UnpackedFloat.le, hlt]
    rfl
  exact decide_eq_true hle

theorem float_lt_of_le_of_lt {x y z : Float} (hxy : x ≤ y) (hyz : y < z) : x < z := by
  obtain ⟨hx, hy⟩ := isNaN_of_le hxy
  obtain ⟨-, hz⟩ := isNaN_of_le (float_le_of_lt hyz)
  rw [le_iff_signedBits hx hy] at hxy
  rw [lt_iff_signedBits hy hz] at hyz
  rw [lt_iff_signedBits hx hz]
  omega

theorem not_lt_iff_le {x y : Float} (hx : x.isNaN = false) (hy : y.isNaN = false) :
    ¬x < y ↔ y ≤ x := by
  rw [lt_iff_signedBits hx hy, le_iff_signedBits hy hx, not_lt]

/-- What lies below the infinite magnitude is finite. -/
theorem isFinite_of_magnitudeBits_lt {x : Float} (hnan : x.isNaN = false)
    (h : magnitudeBits x < infinityBits) : x.isFinite = true := by
  refine isFinite_eq_true hnan (Bool.eq_false_iff.mpr fun hinf => ?_)
  have hbits : magnitudeBits x = infinityBits := by
    obtain ⟨negative, rfl⟩ := eq_infinity hinf
    cases negative <;> decide +kernel
  exact h.ne hbits

/-- **What lies between finite numbers** is finite. -/
theorem isFinite_of_between {a b x : Float} (ha : a.isFinite = true) (hb : b.isFinite = true)
    (hax : a ≤ x) (hxb : x ≤ b) : x.isFinite = true := by
  obtain ⟨hnana, hnan⟩ := isNaN_of_le hax
  have hlow := natAbs_signedBits a ▸ magnitudeBits_lt ha
  have hhigh := natAbs_signedBits b ▸ magnitudeBits_lt hb
  rw [le_iff_signedBits hnana hnan] at hax
  rw [le_iff_signedBits hnan (isNaN_eq_false hb)] at hxb
  refine isFinite_of_magnitudeBits_lt hnan ?_
  rw [← natAbs_signedBits]
  omega

end Geofence.Binary64
