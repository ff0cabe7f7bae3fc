/-
Draws without spread.

A sample is the same for all generators when its cluster has no spread: a number between a zero and
its negative is a zero, since nothing but a product with zero is added to a zero.  This needs no more
of the generator than that its fractions are finite.  The twister's are: they have 53 bits, which are
not rounded.

Main definitions:

* `Geofence.Generator.IsSound` — a generator that keeps to its bounds.

Main results:

* `Geofence.Generator.getElem?_pick` — one of several things is drawn by its number;
* `Geofence.Generator.between_of_no_spread` — a draw from a range without spread;
* `Geofence.twister_isSound` — the generator of the program keeps to its bounds.
-/

import Geofence.Proofs.Number.Exact
import Geofence.Sample.Draw

set_option relaxedAutoImplicit false
set_option autoImplicit false

namespace Geofence

open Binary64

/-- The generator keeps to its bounds: whole numbers are below the one asked for, and fractions from
zero up to below one. -/
structure Generator.IsSound (g : Generator) : Prop where
  below_lt : ∀ {bound : ℕ}, 0 < bound → ∀ s, ((g.below bound).run s).1 < bound
  unit_isFinite : ∀ s, (g.unit.run s).1.isFinite = true
  unit_nonneg : ∀ s, 0 ≤ value (g.unit.run s).1
  unit_lt_one : ∀ s, value (g.unit.run s).1 < 1

namespace Generator

variable {g : Generator}

/-- **One of several things** is drawn by its number. -/
theorem getElem?_pick (hg : g.IsSound) {α : Type} (first : α) (others : List α) (s : g.State) :
    (first :: others)[((g.below (others.length + 1)).run s).1]? =
      some ((g.pick first others).run s).1 := by
  have hlt : ((g.below (others.length + 1)).run s).1 < (first :: others).length :=
    hg.below_lt (Nat.succ_pos _) s
  have hpick : ((g.pick first others).run s).1 =
      (first :: others).getD ((g.below (others.length + 1)).run s).1 first := rfl
  rw [hpick, List.getD_eq_getElem _ first hlt, List.getElem?_eq_getElem hlt]

/-- There is nothing to choose from a single thing. -/
theorem pick_single (hg : g.IsSound) {α : Type} (first : α) (s : g.State) :
    ((g.pick first []).run s).1 = first :=
  List.mem_singleton.mp (List.mem_of_getElem? (getElem?_pick hg first [] s))

/-- **A draw from a range without spread** is a zero. -/
theorem between_of_no_spread (hg : g.IsSound) {spread : Float} (hfinite : spread.isFinite = true)
    (hzero : value spread = 0) (s : g.State) :
    ((g.between (-spread) spread).run s).1.isFinite = true ∧
      value ((g.between (-spread) spread).run s).1 = 0 := by
  have hnil : IsValue 0 := ⟨0, 0, by decide, by decide, by decide, by simp⟩
  obtain ⟨hlow, hlow₀⟩ : (-spread).isFinite = true ∧ value (-spread) = 0 := by
    have hround := rounds_neg hfinite
    rw [hzero, neg_zero] at hround
    exact hround.value_eq hnil
  obtain ⟨hwidth, hwidth₀⟩ : (spread - -spread).isFinite = true ∧ value (spread - -spread) = 0 := by
    have hround := rounds_sub hfinite hlow
    rw [hzero, hlow₀, sub_zero] at hround
    exact hround.value_eq hnil
  obtain ⟨hstep, hstep₀⟩ := value_mul_of_zero hwidth hwidth₀ (hg.unit_isFinite s)
  obtain ⟨hsum, hsum₀⟩ := value_add_of_zero hlow hstep hstep₀
  exact ⟨hsum, hsum₀.trans hlow₀⟩

end Generator

/-! ### The generator of the program -/

namespace Twister

theorem tryBelow_lt {bound : ℕ} (h : 0 < bound) (tries : ℕ) (s : Twister) :
    ((tryBelow bound tries).run s).1 < bound := by
  induction tries generalizing s with
  | zero => exact h
  | succ tries ih =>
    have hstep : (tryBelow bound (tries + 1)).run s =
        (if ((bits (bound.log2 + 1)).run s).1 < bound
          then pure ((bits (bound.log2 + 1)).run s).1 else tryBelow bound tries).run
            ((bits (bound.log2 + 1)).run s).2 := rfl
    rw [hstep]
    split
    next hlt => exact hlt
    next => exact ih _

/-- A fraction has 53 bits. -/
theorem exists_unit_eq (s : Twister) :
    ∃ k < 2 ^ 53, (unit.run s).1 = nearest false ((k : ℕ) / 2 ^ 53) := by
  have hlt : ∀ upper lower : UInt32,
      (upper >>> 5).toNat * 0x4000000 + (lower >>> 6).toNat < 2 ^ 53 := by
    intro upper lower
    have hupper : (upper >>> 5).toNat = upper.toNat / 2 ^ 5 := by
      rw [UInt32.toNat_shiftRight, Nat.shiftRight_eq_div_pow]
      rfl
    have hlower : (lower >>> 6).toNat = lower.toNat / 2 ^ 6 := by
      rw [UInt32.toNat_shiftRight, Nat.shiftRight_eq_div_pow]
      rfl
    have := upper.toNat_lt
    have := lower.toNat_lt
    omega
  have hpow : (2 : ℚ) ^ 53 = 0x20000000000000 := by norm_num
  refine ⟨_, hlt (next s).1 (next (next s).2).1, ?_⟩
  rw [hpow]
  rfl

theorem unit_bounds (s : Twister) :
    (unit.run s).1.isFinite = true ∧ 0 ≤ value (unit.run s).1 ∧ value (unit.run s).1 < 1 := by
  obtain ⟨k, hk, hunit⟩ := exists_unit_eq s
  have hvalue : IsValue ((k : ℚ) / 2 ^ 53) := by
    refine ⟨k, -53, by omega, by decide, by decide, ?_⟩
    rw [zpow_neg, div_eq_mul_inv]
    norm_cast
  have hnonneg : (0 : ℚ) ≤ k / 2 ^ 53 := by positivity
  obtain ⟨hfinite, heq⟩ := value_nearest hvalue hnonneg
  rw [hunit, heq, div_lt_one (by positivity)]
  exact ⟨hfinite, hnonneg, by exact_mod_cast hk⟩

end Twister

/-- **The generator of the program keeps to its bounds.** -/
theorem twister_isSound : twister.IsSound where
  below_lt h s := Twister.tryBelow_lt h _ s
  unit_isFinite s := (Twister.unit_bounds s).1
  unit_nonneg s := (Twister.unit_bounds s).2.1
  unit_lt_one s := (Twister.unit_bounds s).2.2

end Geofence
