/-
The winding number as a sum over sides.

Whether a closed chain encloses a point is decided by a list of turns with a mark for a side that
goes through the point.  Here the two are taken apart: a chain encloses a point exactly when some
side meets it or the turns of all sides have a sum other than zero.  In exact arithmetic a side
meets a point when the point lies in the box of its ends and the parallelogram of the two has an
area within the tolerance; and a turn is a plain function of that area and of which ends lie above
the level, the height of the point raised by the tolerance.

Main definitions:

* `Geofence.Meets` — a side that goes through a point;
* `Geofence.turn`, `Geofence.winding` — what a side adds, and the sum round the chain;
* `Geofence.Tops`, `Geofence.topCount` — ends of sides above the level of a point;
* `Geofence.area` — twice the signed area of a side with a point, positive to the left of the side;
* `Geofence.Above` — lying above the level of a point.

Main results:

* `Geofence.encloses_iff` — enclosing is being met or having a winding number;
* `Geofence.turn_eq_of_tops` — a turn in terms of the sign and of the ends above the level;
* `Geofence.meets_iff`, `Geofence.turn_eq` — both in terms of areas and levels;
* `Geofence.turn_swap` — a side walked back adds the opposite;
* `Geofence.encloses_eq_false_of_beyond` — a point beyond all heights is not enclosed;
* `Geofence.encloses_moved` — a translation changes nothing.
-/

import Geofence.Proofs.Fence.Chain
import Geofence.Proofs.Plane.Sign

set_option relaxedAutoImplicit false
set_option autoImplicit false

namespace Geofence

/-! ### Sides that meet the point, and turns -/

section Generic

variable {α : Type} [Sub α] [Mul α] [Neg α] [LT α] [DecidableLT α] [LE α] [DecidableLE α]

/-- Whether the side goes through `s`. -/
def Meets (tolerance : α) (s : Offset α) (e : Offset α × Offset α) : Prop :=
  edgeTurn tolerance s e.1 e.2 = none

/-- What the side adds to the winding number; nothing when it goes through `s`. -/
def turn (tolerance : α) (s : Offset α) (e : Offset α × Offset α) : ℤ :=
  (edgeTurn tolerance s e.1 e.2).getD 0

/-- The sum of the turns round a closed chain. -/
def winding (tolerance : α) (chain : List (Offset α)) (s : Offset α) : ℤ :=
  ((edges chain).map (turn tolerance s)).sum

theorem sum_filterMap_id (l : List (Option ℤ)) :
    (l.filterMap id).sum = (l.map (·.getD 0)).sum := by
  induction l with
  | nil => rfl
  | cons o l ih =>
      rw [List.map_cons, List.sum_cons, ← ih]
      cases o with
      | none => rw [List.filterMap_cons_none (f := id) rfl, Option.getD_none, zero_add]
      | some v => rw [List.filterMap_cons_some (f := id) rfl, List.sum_cons, Option.getD_some]

/-- **Enclosing a point** is having a side through it or a winding number round it. -/
theorem encloses_iff {tolerance : α} {chain : List (Offset α)} {s : Offset α} :
    encloses tolerance chain s = true ↔
      (∃ e ∈ edges chain, Meets tolerance s e) ∨ winding tolerance chain s ≠ 0 := by
  simp only [encloses, Bool.or_eq_true, List.contains_iff_mem, List.mem_map, bne_iff_ne]
  rw [← List.sum_eq_foldr, sum_filterMap_id, List.map_map]
  rfl

theorem encloses_iff_of_not_meets {tolerance : α} {chain : List (Offset α)} {s : Offset α}
    (h : ∀ e ∈ edges chain, ¬Meets tolerance s e) :
    encloses tolerance chain s = true ↔ winding tolerance chain s ≠ 0 := by
  rw [encloses_iff]
  refine or_iff_right ?_
  rintro ⟨e, he, hm⟩
  exact h e he hm

/-- The end `v` of a side counts as above the level of `s`. -/
def Tops (tolerance : α) (s v : Offset α) : Prop := sign tolerance (v.y - s.y) = .plus

instance (tolerance : α) (s v : Offset α) : Decidable (Tops tolerance s v) :=
  inferInstanceAs (Decidable (_ = _))

/-- The number of ends above the level. -/
def topCount (tolerance : α) (s v : Offset α) : ℤ := if Tops tolerance s v then 1 else 0

variable {tolerance : α} {s a b : Offset α}

omit [Mul α] [LE α] [DecidableLE α] in
theorem tops_iff {v : Offset α} : Tops tolerance s v ↔ tolerance < v.y - s.y := by
  unfold Tops sign
  split_ifs <;> simp_all

theorem turn_eq_of_tops (tolerance : α) (s a b : Offset α) :
    turn tolerance s (a, b) =
      match sign tolerance ((b - a).cross (s - a)) with
      | .zero => 0
      | .plus => if ¬Tops tolerance s a ∧ Tops tolerance s b then 1 else 0
      | .minus => if Tops tolerance s a ∧ ¬Tops tolerance s b then -1 else 0 := by
  simp only [turn, edgeTurn, Tops, Ne]
  cases sign tolerance ((b - a).cross (s - a)) with
  | zero => dsimp only; split_ifs <;> rfl
  | plus => dsimp only; split_ifs with h <;> simp only [h] <;> rfl
  | minus => dsimp only; split_ifs with h <;> simp only [h] <;> rfl

theorem turn_eq_zero_of_sign (h : sign tolerance ((b - a).cross (s - a)) = .zero) :
    turn tolerance s (a, b) = 0 := by
  rw [turn_eq_of_tops, h]

/-- A side that does not cross the level adds nothing. -/
theorem turn_eq_zero_of_tops_iff (h : Tops tolerance s a ↔ Tops tolerance s b) :
    turn tolerance s (a, b) = 0 := by
  rw [turn_eq_of_tops]
  simp only [h, not_and_self_iff, and_not_self_iff, if_false]
  split <;> rfl

end Generic

/-! ### Areas and levels -/

/-- Twice the signed area of the triangle of `a`, `b` and `s`: positive when `s` is to the left of
the way from `a` to `b`. -/
def area (s a b : Offset ℚ) : ℚ := (b - a).cross (s - a)

/-- Lying above the level of `s`, raised by the tolerance. -/
def Above (tolerance : ℚ) (s v : Offset ℚ) : Prop := s.y + tolerance < v.y

instance (tolerance : ℚ) (s v : Offset ℚ) : Decidable (Above tolerance s v) :=
  inferInstanceAs (Decidable (s.y + tolerance < v.y))

theorem area_eq (s a b : Offset ℚ) :
    area s a b = (a.x - s.x) * (b.y - s.y) - (a.y - s.y) * (b.x - s.x) := by
  simp only [area, Offset.cross, Offset.sub_x, Offset.sub_y]
  ring

theorem area_swap (s a b : Offset ℚ) : area s b a = -area s a b := by
  rw [area_eq, area_eq]
  ring

theorem tops_iff_above {tolerance : ℚ} {s v : Offset ℚ} :
    Tops tolerance s v ↔ Above tolerance s v := by
  rw [tops_iff, Above, lt_sub_iff_add_lt']

variable {tolerance : ℚ} {s a b : Offset ℚ}

theorem meets_iff :
    Meets tolerance s (a, b) ↔
      |area s a b| ≤ tolerance ∧ (min a.x b.x ≤ s.x ∧ s.x ≤ max a.x b.x) ∧
        (min a.y b.y ≤ s.y ∧ s.y ≤ max a.y b.y) := by
  rw [← sign_eq_zero_iff, ← between_iff, ← between_iff, ← Bool.and_eq_true, Meets, edgeTurn, area]
  cases sign tolerance ((b - a).cross (s - a)) with
  | zero => by_cases h : (between a.x b.x s.x && between a.y b.y s.y) = true <;> simp [h]
  | plus => simp only [reduceCtorEq, false_and, iff_false]; split_ifs <;> simp
  | minus => simp only [reduceCtorEq, false_and, iff_false]; split_ifs <;> simp

/-- **A turn in terms of the area and the levels**: one more for a side that rises above the level
with the point on its left, and one less for a side that falls below it with the point on its
right. -/
theorem turn_eq (h : 0 ≤ tolerance) :
    turn tolerance s (a, b) =
      (if tolerance < area s a b ∧ ¬Above tolerance s a ∧ Above tolerance s b then 1 else 0) -
        (if area s a b < -tolerance ∧ Above tolerance s a ∧ ¬Above tolerance s b then 1 else 0)
    := by
  simp only [turn_eq_of_tops, area, ← sign_eq_plus_iff, ← sign_eq_minus_iff h, tops_iff_above]
  cases sign tolerance ((b - a).cross (s - a)) with
  | zero => simp only [reduceCtorEq, false_and, if_false, sub_self]
  | plus => simp only [reduceCtorEq, false_and, true_and, if_false, sub_zero]
  | minus =>
    simp only [reduceCtorEq, false_and, true_and, if_false, zero_sub]
    split_ifs <;> rfl

/-- **A side walked back** adds the opposite. -/
theorem turn_swap (h : 0 ≤ tolerance) (a b : Offset ℚ) :
    turn tolerance s (b, a) = -turn tolerance s (a, b) := by
  simp only [turn_eq h, area_swap s a b, neg_lt_neg_iff, lt_neg (a := tolerance), neg_sub]
  simp only [and_comm (a := Above tolerance s a), and_comm (a := ¬Above tolerance s a)]

theorem turn_eq_zero_of_above_iff (h : 0 ≤ tolerance)
    (hab : Above tolerance s a ↔ Above tolerance s b) : turn tolerance s (a, b) = 0 := by
  simp only [turn_eq h, hab, not_and_self_iff, and_not_self_iff, and_false, if_false, sub_self]

/-! ### Points beyond all heights -/

/-- **A point whose level all points of a chain lie above, or whose height all lie below**, is not
enclosed: no side reaches it and none crosses. -/
theorem encloses_eq_false_of_beyond (h : 0 ≤ tolerance) {chain : List (Offset ℚ)}
    (hb : (∀ v ∈ chain, Above tolerance s v) ∨ ∀ v ∈ chain, v.y < s.y) :
    encloses tolerance chain s = false := by
  have hmeets : ∀ e ∈ edges chain, ¬Meets tolerance s e := by
    rintro ⟨a, b⟩ he hm
    obtain ⟨ha, hb'⟩ : a ∈ chain ∧ b ∈ chain := mem_of_mem_edges he
    obtain ⟨-, -, hlow, hhigh⟩ := meets_iff.1 hm
    rcases hb with hall | hall
    · have hlt : s.y < min a.y b.y :=
        lt_min (by linarith [show _ < _ from hall a ha]) (by linarith [show _ < _ from hall b hb'])
      exact hlow.not_gt hlt
    · exact hhigh.not_gt (max_lt (hall a ha) (hall b hb'))
  have hturns : winding tolerance chain s = 0 := by
    refine List.sum_eq_zero fun m hm => ?_
    obtain ⟨⟨a, b⟩, he, rfl⟩ := List.mem_map.1 hm
    obtain ⟨ha, hb'⟩ : a ∈ chain ∧ b ∈ chain := mem_of_mem_edges he
    refine turn_eq_zero_of_above_iff h ?_
    rcases hb with hall | hall
    · exact iff_of_true (hall a ha) (hall b hb')
    · refine iff_of_false (fun hab => ?_) fun hab => ?_
      · linarith [hall a ha, show _ < _ from hab]
      · linarith [hall b hb', show _ < _ from hab]
  rw [← Bool.not_eq_true, encloses_iff_of_not_meets hmeets, not_not]
  exact hturns

/-! ### Translations -/

/-- A point moved by `d`. -/
def Offset.moved (v d : Offset ℚ) : Offset ℚ := ⟨v.x + d.x, v.y + d.y⟩

@[simp] theorem Offset.moved_x (v d : Offset ℚ) : (v.moved d).x = v.x + d.x := rfl

@[simp] theorem Offset.moved_y (v d : Offset ℚ) : (v.moved d).y = v.y + d.y := rfl

theorem Offset.moved_sub_moved (a b d : Offset ℚ) : a.moved d - b.moved d = a - b := by
  change Offset.mk _ _ = Offset.mk _ _
  simp only [Offset.moved_x, Offset.moved_y, add_sub_add_right_eq_sub]

theorem between_add_right (a b v d : ℚ) : between (a + d) (b + d) (v + d) = between a b v := by
  rw [Bool.eq_iff_iff, between_iff, between_iff, min_add_add_right, max_add_add_right,
    add_le_add_iff_right, add_le_add_iff_right]

theorem edgeTurn_moved (tolerance : ℚ) (s a b d : Offset ℚ) :
    edgeTurn tolerance (s.moved d) (a.moved d) (b.moved d) = edgeTurn tolerance s a b := by
  simp only [edgeTurn, Offset.moved_sub_moved, Offset.moved_x, Offset.moved_y, between_add_right,
    add_sub_add_right_eq_sub]

/-- **A translation** of the chain and the point changes nothing. -/
theorem encloses_moved (tolerance : ℚ) (s d : Offset ℚ) (chain : List (Offset ℚ)) :
    encloses tolerance (chain.map (·.moved d)) (s.moved d) = encloses tolerance chain s := by
  simp only [encloses, edges_map, List.map_map, Function.comp_def, Prod.map, edgeTurn_moved]

end Geofence
