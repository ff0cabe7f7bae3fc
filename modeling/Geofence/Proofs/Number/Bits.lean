/-
Numbers and their bit patterns.

A number is given by its bits, all of which the sign and the magnitude's bit pattern say.  The only
pattern that stands for several is the one of no number, so that a number is the one its bits make.

Main results:

* `Geofence.Binary64.ofBits_toBits` — a number is the one of its bits;
* `Geofence.Binary64.ofMagnitudeBits_magnitudeBits` — and the one of its sign and magnitude;
* `Geofence.Binary64.magnitudeBits_lt` — a finite magnitude lies below the infinite one.
-/

import Mathlib
import Geofence.Number.Binary64

set_option relaxedAutoImplicit false
set_option autoImplicit false

namespace Geofence.Binary64

open Float.Model Float.Model.UnpackedFloat

/-! ### The fields of a bit pattern -/

theorem toBitVec_ofBitVec (v : BitVec 1) : (UnpackedFloat.Sign.ofBitVec v).toBitVec = v := by
  revert v
  decide

/-- A bit pattern is made of its three fields. -/
theorem packComponents_fields (b : BitVec Format.binary64.numBits) :
    packComponents .binary64 (UnpackedFloat.Sign.ofBitVec (unpackSign b)) (unpackExponent b)
        (unpackMantissa b) = b := by
  rw [packComponents, toBitVec_ofBitVec, unpackSign, unpackExponent, unpackMantissa]
  apply BitVec.eq_of_getLsbD_eq
  intro i hi
  simp only [BitVec.extractLsb]
  grind

theorem toNat_unpackExponent (b : BitVec Format.binary64.numBits) :
    (unpackExponent b).toNat = b.toNat / 2 ^ 52 % 2 ^ 11 := by
  simp [unpackExponent, Nat.shiftRight_eq_div_pow]

/-- The exponent field of a pattern that stands for a finite number. -/
theorem toNat_unpackExponent_lt {b : BitVec Format.binary64.numBits}
    (h : unpackExponent b ≠ -1#_) : (unpackExponent b).toNat < 2047 := by
  have hlt : (unpackExponent b).toNat < 2048 := (unpackExponent b).isLt
  have hne : (unpackExponent b).toNat ≠ 2047 := fun hfull => h (BitVec.eq_of_toNat_eq hfull)
  omega

/-- The significand with its leading bit. -/
theorem toNat_leading (b : BitVec Format.binary64.numBits) :
    (1#1 ++ unpackMantissa b).toNat = 2 ^ 52 + (unpackMantissa b).toNat := by
  have hf : (unpackMantissa b).toNat < 2 ^ 52 := (unpackMantissa b).isLt
  rw [BitVec.toNat_append, ← Nat.shiftLeft_add_eq_or_of_lt hf]
  simp [Nat.shiftLeft_eq]

/-! ### Packing what was unpacked -/

theorem exponentBias_eq : ((Format.binary64.exponentBias : ℕ) : ℤ) = 1023 := by decide

/-- A significand with its leading bit keeps its exponent. -/
theorem pack_normal (s : UnpackedFloat.Sign) {m : ℕ} {e : ℤ} (hm : 0 < m) (hlow : 2 ^ 52 ≤ m)
    (hhigh : m < 2 ^ 53) {k : ℕ} (he : e + 1075 = k) (hk : k < 2047) :
    UnpackedFloat.pack .binary64 (.finite s m e hm) =
      packComponents .binary64 s (BitVec.ofNat _ k) (BitVec.ofNat _ m) := by
  have hlog : m.log2 = 52 := (Nat.log2_eq_iff hm.ne').mpr ⟨hlow, hhigh⟩
  have hbiased : (e + (Format.binary64.exponentBias : ℕ) + ((52 : ℕ) : ℤ)).toNat = k := by
    rw [exponentBias_eq]
    omega
  simp only [UnpackedFloat.pack, hbiased, hlog]
  rw [if_neg (by omega), if_pos (by decide)]

/-- A significand without its leading bit has the exponent field zero. -/
theorem pack_subnormal (s : UnpackedFloat.Sign) {m : ℕ} {e : ℤ} (hm : 0 < m) (hhigh : m < 2 ^ 52)
    (he : e = -1074) :
    UnpackedFloat.pack .binary64 (.finite s m e hm) =
      packComponents .binary64 s 0#_ (BitVec.ofNat _ m) := by
  have hlog : m.log2 < 52 := (Nat.log2_lt hm.ne').mpr hhigh
  have hbiased : (e + (Format.binary64.exponentBias : ℕ) + ((52 : ℕ) : ℤ)).toNat = 1 := by
    rw [exponentBias_eq]
    omega
  have hbits : Format.binary64.mantissaBits = 53 := by decide
  simp only [UnpackedFloat.pack, hbiased]
  rw [if_neg (by decide), if_neg (by omega)]

/-- Packing what was unpacked from a valid bit pattern gives the pattern back. -/
theorem pack_unpack {b : BitVec Format.binary64.numBits} (h : Format.binary64.Valid b) :
    UnpackedFloat.pack .binary64 (UnpackedFloat.unpack .binary64 b) = b := by
  have hparts := packComponents_fields b
  have hm : (unpackMantissa b).toNat < 2 ^ 52 := (unpackMantissa b).isLt
  simp only [UnpackedFloat.unpack]
  split
  next hexp =>
    -- infinity, or the one pattern of no number that is valid
    split
    next hzero => rw [hexp, hzero] at hparts; exact hparts
    next hne => exact (h.eq_packedNaN hexp hne).symm
  next hexp =>
    split
    next hsub =>
      rw [hsub] at hparts
      split
      next hzero => rw [hzero] at hparts; exact hparts
      next hne =>
        have he : ((unpackExponent b).toNat : ℤ) -
            ((Format.binary64.exponentBias : ℕ) + ((52 : ℕ) : ℤ)) + 1 = -1074 := by
          rw [hsub, exponentBias_eq]; rfl
        rw [pack_subnormal _ _ hm he, BitVec.ofNat_toNat, BitVec.setWidth_eq]
        exact hparts
    next hnormal =>
      have hone := toNat_leading b
      have hk := toNat_unpackExponent_lt hexp
      have he : ((unpackExponent b).toNat : ℤ) -
          ((Format.binary64.exponentBias : ℕ) + ((52 : ℕ) : ℤ)) + 1075 =
            (unpackExponent b).toNat := by
        rw [exponentBias_eq]
        omega
      -- the leading bit is cut off again
      have hofNat : BitVec.ofNat 52 (1#1 ++ unpackMantissa b).toNat = unpackMantissa b := by
        apply BitVec.eq_of_toNat_eq
        rw [hone, BitVec.toNat_ofNat, Nat.add_mod_left, Nat.mod_eq_of_lt hm]
      rw [pack_normal _ _ (by omega) (by omega) he hk, BitVec.ofNat_toNat, BitVec.setWidth_eq]
      exact (congrArg _ hofNat).trans hparts

/-! ### Numbers -/

/-- A number is the one of its bits. -/
theorem ofBits_toBits (x : Float) : Float.ofBits x.toBits = x := by
  obtain ⟨⟨bits, valid⟩⟩ := x
  have h := pack_unpack valid
  simp only [Float.ofBits, Float.toBits, Float.Model.ofBits, Float.Model.pack, h]

/-- Numbers with the same parts are the same. -/
theorem eq_of_unpack {x y : Float} (h : x.toModel.unpack = y.toModel.unpack) : x = y := by
  obtain ⟨⟨bits, valid⟩⟩ := x
  obtain ⟨⟨bits', valid'⟩⟩ := y
  have hbits : bits.toBitVec = bits'.toBitVec := by
    rw [← pack_unpack valid, ← pack_unpack valid']
    exact congrArg _ h
  obtain rfl := UInt64.toBitVec_inj.mp hbits
  rfl

/-- **A number is the one of its sign and the bit pattern of its magnitude.** -/
theorem ofMagnitudeBits_magnitudeBits (x : Float) :
    ofMagnitudeBits (isNegative x) (magnitudeBits x) = x := by
  have hlt : x.toBits.toNat < 2 ^ 64 := x.toBits.toNat_lt
  have hbits : (if isNegative x then magnitudeBits x + 0x8000000000000000 else magnitudeBits x) =
      x.toBits.toNat := by
    simp only [isNegative, magnitudeBits, decide_eq_true_eq]
    split <;> omega
  rw [ofMagnitudeBits, hbits, UInt64.ofNat_toNat, ofBits_toBits]

/-! ### Finite numbers -/

theorem isNaN_eq_false {x : Float} (h : x.isFinite = true) : x.isNaN = false := by
  simp only [Float.isFinite, Float.Model.isFinite] at h
  simp only [Float.isNaN, Float.Model.isNaN]
  cases hu : x.toModel.unpack with
  | notANumber => rw [hu] at h; cases h
  | infinity s => rfl
  | zero s => rfl
  | finite s m e hm => rfl

theorem isInf_eq_false {x : Float} (h : x.isFinite = true) : x.isInf = false := by
  simp only [Float.isFinite, Float.Model.isFinite] at h
  simp only [Float.isInf, Float.Model.isInf]
  cases hu : x.toModel.unpack with
  | notANumber => rfl
  | infinity s => rw [hu] at h; cases h
  | zero s => rfl
  | finite s m e hm => rfl

/-- What is a number and not infinite is finite. -/
theorem isFinite_eq_true {x : Float} (hnan : x.isNaN = false) (hinf : x.isInf = false) :
    x.isFinite = true := by
  change x.toModel.unpack.isNaN = false at hnan
  change x.toModel.unpack.isInf = false at hinf
  change x.toModel.unpack.isFinite = true
  cases hu : x.toModel.unpack with
  | notANumber => rw [hu] at hnan; cases hnan
  | infinity s => rw [hu] at hinf; cases hinf
  | zero s => rfl
  | finite s m e hm => rfl

/-- A pattern whose exponent field is full stands for infinity or for no number. -/
theorem isFinite_unpack_of_full {b : BitVec Format.binary64.numBits}
    (h : b.toNat / 2 ^ 52 % 2 ^ 11 = 2047) :
    (UnpackedFloat.unpack .binary64 b).isFinite = false := by
  have hexp : unpackExponent b = -1#_ :=
    BitVec.eq_of_toNat_eq ((toNat_unpackExponent b).trans h)
  simp only [UnpackedFloat.unpack, if_pos hexp]
  split <;> rfl

/-- A finite magnitude lies below the infinite one. -/
theorem magnitudeBits_lt {x : Float} (h : x.isFinite = true) :
    magnitudeBits x < infinityBits := by
  by_contra hge
  have hlt : x.toBits.toNat < 2 ^ 64 := x.toBits.toNat_lt
  have hfull : x.toBits.toBitVec.toNat / 2 ^ 52 % 2 ^ 11 = 2047 := by
    rw [UInt64.toNat_toBitVec]
    simp only [magnitudeBits, infinityBits] at hge
    omega
  have hnot : x.isFinite = false := isFinite_unpack_of_full hfull
  rw [hnot] at h
  cases h

end Geofence.Binary64
