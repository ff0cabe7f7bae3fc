/-
A further vertex on a side.

A vertex put on a side cuts it into two pieces and leaves the polygon the same.  The answer of the
polygon may change all the same.  The area of a piece with the point is a part of that of the side,
and it is the area that is compared with the tolerance.  So a short piece may be in line with a point
that is far away, and when it is the piece across the level of the point, the crossing of the side is
lost.  Close to the side the box of the whole may hold the point and those of the pieces not, or the
box of a piece in line with it may, when the whole side is not in line.  Nothing else happens: this
gives the exact condition for the answer to change, and it never does when neither piece is in line
with the point.

Main definitions:

* `Geofence.Location.along`, `Geofence.Polygon.insertVertex` — a location on a side, and the polygon
  with it as a further vertex;
* `Geofence.InLine`, `Geofence.Unseen` — sides in line with a point, and those that should count but
  do not;
* `Geofence.CutAlters` — what cutting a side may change.

Main results:

* `Geofence.edges_insertIdx` — the sides after a point is put into a closed chain;
* `Geofence.turn_cut` — the turns of the two pieces;
* `Geofence.Polygon.contains_insertVertex` — when a further vertex changes the answer;
* `Geofence.slab_loses_middle` — a further vertex that does.
-/

import Geofence.Proofs.Fence.Frame
import Geofence.Proofs.Fence.Tolerance
import Geofence.Proofs.Plane.Longitude

set_option relaxedAutoImplicit false
set_option autoImplicit false

namespace Geofence

/-! ### Points put into a closed chain -/

section Chains

variable {β : Type}

theorem steps_insertIdx {last a u v : β} {rest : List β} {i : ℕ}
    (h : (steps last a rest)[i]? = some (u, v)) (m : β) :
    ∃ front back, front.length = i ∧ steps last a rest = front ++ (u, v) :: back ∧
      steps last a (rest.insertIdx i m) = front ++ (u, m) :: (m, v) :: back := by
  induction rest generalizing a i with
  | nil =>
      cases i with
      | zero =>
          simp only [steps, List.getElem?_cons_zero, Option.some.injEq, Prod.mk.injEq] at h
          obtain ⟨rfl, rfl⟩ := h
          exact ⟨[], [], rfl, rfl, rfl⟩
      | succ i => simp [steps] at h
  | cons b rest ih =>
      cases i with
      | zero =>
          simp only [steps, List.getElem?_cons_zero, Option.some.injEq, Prod.mk.injEq] at h
          obtain ⟨rfl, rfl⟩ := h
          exact ⟨[], steps last b rest, rfl, rfl, rfl⟩
      | succ i =>
          rw [steps, List.getElem?_cons_succ] at h
          obtain ⟨front, back, hlength, hsteps, hcut⟩ := ih h
          refine ⟨(a, b) :: front, back, ?_, ?_, ?_⟩
          · rw [List.length_cons, hlength]
          · rw [steps, hsteps, List.cons_append]
          · rw [List.insertIdx_succ_cons, steps, hcut, List.cons_append]

/-- **The sides after a point is put into a closed chain**: the one between its neighbours gives way
to two. -/
theorem edges_insertIdx {chain : List β} {i : ℕ} {u v : β} (h : (edges chain)[i]? = some (u, v))
    (m : β) :
    (edges chain).Perm ((u, v) :: (edges chain).eraseIdx i) ∧
      (edges (chain.insertIdx (i + 1) m)).Perm
        ((u, m) :: (m, v) :: (edges chain).eraseIdx i) := by
  cases chain with
  | nil => simp [edges] at h
  | cons a rest =>
      rw [edges_cons] at h ⊢
      obtain ⟨front, back, hlength, hsteps, hcut⟩ := steps_insertIdx h m
      have hothers : (steps a a rest).eraseIdx i = front ++ back := by
        rw [hsteps, ← hlength, List.eraseIdx_append_of_length_le le_rfl, Nat.sub_self,
          List.eraseIdx_cons_zero]
      rw [hothers, List.insertIdx_succ_cons, edges_cons, hsteps, hcut]
      exact ⟨List.perm_middle, List.perm_middle.trans (List.perm_middle.cons _)⟩

end Chains

/-! ### Sides in line with a point -/

/-- The side is in line with `s`, as far as the tolerance tells. -/
def InLine (tolerance : ℚ) (s : Offset ℚ) (e : Offset ℚ × Offset ℚ) : Prop :=
  |area s e.1 e.2| ≤ tolerance

/-- The side crosses the level of `s`, and is in line with `s` so that this does not count. -/
def Unseen (tolerance : ℚ) (s : Offset ℚ) (e : Offset ℚ × Offset ℚ) : Prop :=
  InLine tolerance s e ∧ ¬(Above tolerance s e.1 ↔ Above tolerance s e.2)

variable {tolerance t : ℚ} {s a b c d : Offset ℚ}

theorem Meets.inLine (h : Meets tolerance s (a, b)) : InLine tolerance s (a, b) := (meets_iff.1 h).1

instance (tolerance : ℚ) (s : Offset ℚ) (e : Offset ℚ × Offset ℚ) :
    Decidable (Unseen tolerance s e) :=
  inferInstanceAs (Decidable (|area s e.1 e.2| ≤ tolerance ∧ _))

/-- A side in line with the point adds nothing. -/
theorem turn_of_inLine (hτ : 0 ≤ tolerance) (h : InLine tolerance s (a, b)) :
    turn tolerance s (a, b) = 0 := by
  obtain ⟨hlow, hhigh⟩ := abs_le.1 (show |area s a b| ≤ tolerance from h)
  rw [turn_eq hτ, if_neg fun h => h.1.not_ge hhigh, if_neg fun h => h.1.not_ge hlow, sub_self]

/-- A point is met by the side from itself to itself, and by no other such side. -/
theorem eq_of_meets_self (h : Meets tolerance s (a, a)) : s = a := by
  obtain ⟨-, ⟨hx₀, hx₁⟩, hy₀, hy₁⟩ := meets_iff.1 h
  rw [min_self] at hx₀ hy₀
  rw [max_self] at hx₁ hy₁
  obtain ⟨x, y⟩ := s
  obtain ⟨x', y'⟩ := a
  rw [Offset.mk.injEq]
  exact ⟨le_antisymm hx₁ hx₀, le_antisymm hy₁ hy₀⟩

theorem meets_left (hτ : 0 ≤ tolerance) : Meets tolerance a (a, b) := by
  rw [meets_iff, area_eq]
  simp [hτ]

theorem meets_right (hτ : 0 ≤ tolerance) : Meets tolerance b (a, b) := by
  rw [meets_iff, area_eq]
  simp [hτ]

/-! ### Pieces of a side -/

theorem area_along_left (s a b : Offset ℚ) (t : ℚ) :
    area s a (along a b t) = t * area s a b := by
  simp only [area_eq, along]
  ring

theorem area_along_right (s a b : Offset ℚ) (t : ℚ) :
    area s (along a b t) b = (1 - t) * area s a b := by
  simp only [area_eq, along]
  ring

theorem abs_part_le (h₀ : 0 ≤ t) (h₁ : t ≤ 1) (x : ℚ) : |t * x| ≤ |x| := by
  rw [abs_mul, abs_of_nonneg h₀]
  exact mul_le_of_le_one_left (abs_nonneg x) h₁

/-- A piece in line with the point as long as the side is. -/
theorem inLine_of_part {k : ℚ} (h₀ : 0 ≤ k) (h₁ : k ≤ 1) (hpart : area s c d = k * area s a b)
    (h : InLine tolerance s (a, b)) : InLine tolerance s (c, d) := by
  have hle : |area s c d| ≤ |area s a b| := by
    rw [hpart]
    exact abs_part_le h₀ h₁ _
  exact hle.trans h

/-- A piece that is not in line with the point has it on the same side as the whole. -/
theorem lt_part_iff {k x : ℚ} (hτ : 0 ≤ tolerance) (h₀ : 0 ≤ k) (h₁ : k ≤ 1)
    (h : tolerance < |k * x|) : tolerance < k * x ↔ tolerance < x := by
  have hx : tolerance < |x| := h.trans_le (abs_part_le h₀ h₁ x)
  rcases le_total 0 x with hpos | hneg
  · rw [abs_of_nonneg (mul_nonneg h₀ hpos)] at h
    rw [abs_of_nonneg hpos] at hx
    exact iff_of_true h hx
  · have hpart := mul_nonpos_of_nonneg_of_nonpos h₀ hneg
    exact iff_of_false (by linarith) (by linarith)

/-- A piece with its ends on the same sides of the level as those of the whole turns like it, unless
it is in line with the point. -/
theorem turn_of_part {k : ℚ} (hτ : 0 ≤ tolerance) (h₀ : 0 ≤ k) (h₁ : k ≤ 1)
    (hpart : area s c d = k * area s a b) (h : ¬InLine tolerance s (c, d))
    (hc : Above tolerance s c ↔ Above tolerance s a)
    (hd : Above tolerance s d ↔ Above tolerance s b) :
    turn tolerance s (c, d) = turn tolerance s (a, b) := by
  have hfar : tolerance < |k * area s a b| := by
    rw [← hpart]
    exact not_le.1 h
  have hleft := lt_part_iff hτ h₀ h₁ hfar
  have hright : k * area s a b < -tolerance ↔ area s a b < -tolerance := by
    rw [lt_neg, ← mul_neg, lt_neg (b := tolerance)]
    refine lt_part_iff hτ h₀ h₁ ?_
    rw [mul_neg, abs_neg]
    exact hfar
  rw [turn_eq hτ, turn_eq hτ, hpart]
  simp only [hleft, hright, hc, hd]

/-- A point of a side with both ends above the level is above it, and one of a side with both ends
not above it is not. -/
theorem above_along_iff (h₀ : 0 ≤ t) (h₁ : t ≤ 1)
    (h : Above tolerance s a ↔ Above tolerance s b) :
    Above tolerance s (along a b t) ↔ Above tolerance s a := by
  obtain ⟨hlow, hhigh⟩ := part_between h₀ h₁ a.y b.y
  by_cases ha : Above tolerance s a
  · refine iff_of_true ?_ ha
    have hb := h.1 ha
    exact (lt_min ha hb).trans_le hlow
  · refine iff_of_false ?_ ha
    have hb := mt h.2 ha
    exact (hhigh.trans (max_le (not_lt.1 ha) (not_lt.1 hb))).not_gt

/-- **The turns of the two pieces** make that of the side, unless the piece across the level is in
line with the point; then they make nothing. -/
theorem turn_cut (hτ : 0 ≤ tolerance) (h₀ : 0 ≤ t) (h₁ : t ≤ 1) :
    turn tolerance s (a, along a b t) + turn tolerance s (along a b t, b) =
      if Unseen tolerance s (a, along a b t) ∨ Unseen tolerance s (along a b t, b) then 0
      else turn tolerance s (a, b) := by
  have hleft := area_along_left s a b t
  have hright := area_along_right s a b t
  by_cases hab : Above tolerance s a ↔ Above tolerance s b
  · -- no piece crosses the level
    have hac := above_along_iff h₀ h₁ hab
    have hcb := hac.trans hab
    rw [turn_eq_zero_of_above_iff hτ hac.symm, turn_eq_zero_of_above_iff hτ hcb,
      turn_eq_zero_of_above_iff hτ hab, ite_self, add_zero]
  generalize along a b t = c at *
  by_cases hac : Above tolerance s c ↔ Above tolerance s a
  · -- the second piece does
    have hcb : ¬(Above tolerance s c ↔ Above tolerance s b) := fun h => hab (hac.symm.trans h)
    rw [turn_eq_zero_of_above_iff hτ hac.symm, zero_add]
    by_cases hin : InLine tolerance s (c, b)
    · rw [turn_of_inLine hτ hin, if_pos (.inr ⟨hin, hcb⟩)]
    · rw [if_neg, turn_of_part hτ (by linarith) (by linarith) hright hin hac Iff.rfl]
      rintro (h | h)
      · exact h.2 hac.symm
      · exact hin h.1
  · -- the first piece does
    have hcb : Above tolerance s c ↔ Above tolerance s b := by
      by_cases hc : Above tolerance s c <;> by_cases ha : Above tolerance s a <;>
        by_cases hb : Above tolerance s b <;> simp_all
    rw [turn_eq_zero_of_above_iff hτ hcb, add_zero]
    by_cases hin : InLine tolerance s (a, c)
    · rw [turn_of_inLine hτ hin, if_pos (.inl ⟨hin, fun h => hac h.symm⟩)]
    · rw [if_neg, turn_of_part hτ h₀ h₁ hleft hin Iff.rfl hcb]
      rintro (h | h)
      · exact hin h.1
      · exact h.2 hcb

/-! ### What a cut changes -/

/-- Cutting the side from `a` to `b` at `c` alters the answer for `s`, which `n` counts the turns
round, as far as this side decides it.  Either the side and its pieces differ in meeting the point,
and there is nothing else to count; or none of them meets it, the piece across the level goes unseen,
and it matters whether the turn of the side is counted. -/
def CutAlters (tolerance : ℚ) (s a b c : Offset ℚ) (n : ℤ) : Prop :=
  ¬(Meets tolerance s (a, b) ↔ Meets tolerance s (a, c) ∨ Meets tolerance s (c, b)) ∧ n = 0 ∨
    (¬Meets tolerance s (a, b) ∧ ¬(Meets tolerance s (a, c) ∨ Meets tolerance s (c, b))) ∧
      (Unseen tolerance s (a, c) ∨ Unseen tolerance s (c, b)) ∧
        ¬(n = 0 ↔ n = turn tolerance s (a, b))

/-- When two answers differ: the first counts `n`, the second counts a turn `k` less of it if that is
lost, and either is yes at once when it is met. -/
theorem answers_differ_iff {other met met' lost : Prop} [Decidable lost] {n k : ℤ}
    (hk : met → k = 0) :
    ¬((met' ∨ other) ∨ n - k + (if lost then 0 else k) ≠ 0 ↔ (met ∨ other) ∨ n ≠ 0) ↔
      ¬other ∧ (¬(met ↔ met') ∧ n = 0 ∨ (¬met ∧ ¬met') ∧ lost ∧ ¬(n = 0 ↔ n = k)) := by
  by_cases hother : other
  · simp [hother]
  by_cases hmet : met
  · by_cases hmet' : met' <;> simp [hother, hmet, hmet', hk hmet]
  by_cases hmet' : met'
  · simp [hother, hmet, hmet']
  by_cases hlost : lost
  · simp only [hother, hmet, hmet', hlost, if_true, false_or, not_false_eq_true, iff_self,
      not_true_eq_false, true_and, false_and, and_self]
    omega
  · simp [hother, hmet, hmet', hlost]

/-- **The answer changes** exactly when no other side meets the point and the cut alters what this
side decides. -/
theorem encloses_cut_ne_iff (hτ : 0 ≤ tolerance) (h₀ : 0 ≤ t) (h₁ : t ≤ 1)
    {chain chain' : List (Offset ℚ)} {others : List (Offset ℚ × Offset ℚ)}
    (hchain : (edges chain).Perm ((a, b) :: others))
    (hchain' : (edges chain').Perm ((a, along a b t) :: (along a b t, b) :: others)) :
    encloses tolerance chain' s ≠ encloses tolerance chain s ↔
      (∀ e ∈ others, ¬Meets tolerance s e) ∧
        CutAlters tolerance s a b (along a b t) (winding tolerance chain s) := by
  have hcut := turn_cut (s := s) (a := a) (b := b) hτ h₀ h₁
  have hmeets : Meets tolerance s (a, b) → turn tolerance s (a, b) = 0 := fun h =>
    turn_of_inLine hτ h.inLine
  generalize along a b t = c at *
  have hwinding : winding tolerance chain' s = winding tolerance chain s -
      turn tolerance s (a, b) + (turn tolerance s (a, c) + turn tolerance s (c, b)) := by
    rw [winding, winding, (hchain.map _).sum_eq, (hchain'.map _).sum_eq]
    simp only [List.map_cons, List.sum_cons]
    ring
  have hmet : (∃ e ∈ edges chain, Meets tolerance s e) ↔
      Meets tolerance s (a, b) ∨ ∃ e ∈ others, Meets tolerance s e := by
    simp only [hchain.mem_iff, List.exists_mem_cons_iff]
  have hmet' : (∃ e ∈ edges chain', Meets tolerance s e) ↔
      (Meets tolerance s (a, c) ∨ Meets tolerance s (c, b)) ∨
        ∃ e ∈ others, Meets tolerance s e := by
    simp only [hchain'.mem_iff, List.exists_mem_cons_iff, or_assoc]
  have hothers : (∀ e ∈ others, ¬Meets tolerance s e) ↔ ¬∃ e ∈ others, Meets tolerance s e := by
    simp only [not_exists, not_and]
  rw [Ne, Bool.eq_iff_iff, encloses_iff, encloses_iff, hmet, hmet', hothers, CutAlters, hwinding,
    hcut]
  exact answers_differ_iff hmeets

/-- A cut at an end of the side, or into pieces that are not in line with the point, alters
nothing. -/
theorem not_cutAlters (hτ : 0 ≤ tolerance) (h₀ : 0 ≤ t) (h₁ : t ≤ 1) {n : ℤ}
    (h : along a b t = a ∨ along a b t = b ∨
      ¬InLine tolerance s (a, along a b t) ∧ ¬InLine tolerance s (along a b t, b)) :
    ¬CutAlters tolerance s a b (along a b t) n := by
  have hpart : InLine tolerance s (a, b) → InLine tolerance s (a, along a b t) :=
    inLine_of_part h₀ h₁ (area_along_left s a b t)
  have hturn : InLine tolerance s (a, b) → turn tolerance s (a, b) = 0 := turn_of_inLine hτ
  generalize along a b t = c at *
  rintro (⟨hmeets, -⟩ | ⟨-, hun, hn⟩)
  · -- a piece without length meets its end only, which the side meets as well
    apply hmeets
    rcases h with rfl | rfl | ⟨hac, hcb⟩
    · refine ⟨.inr, ?_⟩
      rintro (h | h)
      · rw [eq_of_meets_self h]
        exact meets_left hτ
      · exact h
    · refine ⟨.inl, ?_⟩
      rintro (h | h)
      · exact h
      · rw [eq_of_meets_self h]
        exact meets_right hτ
    · exact iff_of_false (fun h => hac (hpart h.inLine))
        (not_or.2 ⟨fun h => hac h.inLine, fun h => hcb h.inLine⟩)
  · have hin : InLine tolerance s (a, b) := by
      rcases h with rfl | rfl | ⟨hac, hcb⟩
      · exact hun.elim (fun h => absurd Iff.rfl h.2) And.left
      · exact hun.elim And.left fun h => absurd Iff.rfl h.2
      · exact hun.elim (fun h => absurd h.1 hac) fun h => absurd h.1 hcb
    rw [hturn hin] at hn
    exact hn Iff.rfl

/-! ### Polygons -/

/-- The location at the part `t` of the straight way from `u` to `v`. -/
def Location.along (u v : Location ℚ) (t : ℚ) : Location ℚ :=
  ⟨u.lat + t * (v.lat - u.lat), u.lng + t * (v.lng - u.lng)⟩

/-- The frame of `o` takes the way to `w` as it is, and not over the 180th meridian. -/
def Straight (o w : Location ℚ) : Prop := eastward o.lng w.lng = w.lng - o.lng

/-- What is on a straight way stays there in a frame that takes it as it is. -/
theorem project_along {o u v : Location ℚ} (hu : Straight o u) (hv : Straight o v)
    (hm : Straight o (u.along v t)) :
    project Gauge.scale o (u.along v t) =
      along (project Gauge.scale o u) (project Gauge.scale o v) t := by
  rw [Straight] at hu hv hm
  simp only [project, hu, hv, hm]
  simp only [Geofence.along, Location.along, Offset.mk.injEq]
  constructor <;> ring

namespace Polygon

/-- The polygon with a further vertex behind the one at position `i`. -/
def insertVertex {α : Type} (g : Polygon α) (i : ℕ) (m : Location α) : Polygon α :=
  ⟨g.vertices.insertIdx (i + 1) m, g.three_le.trans List.length_le_length_insertIdx⟩

variable {g : Polygon ℚ} {i : ℕ} {u v m : Location ℚ}

/-- The vertices lie to one side of the prime meridian or on it, and no farther to the west than half
the tolerance from the 180th one. -/
def OneSided (g : Polygon ℚ) : Prop :=
  (∀ w ∈ g.vertices, 0 ≤ w.lng) ∨
    ∀ w ∈ g.vertices, -180 + Gauge.tolerance / 2 ≤ w.lng ∧ w.lng ≤ 0

/-- The frame of a polygon to one side of the prime meridian takes all ways as they are. -/
theorem straight_of_oneSided (h : g.OneSided) (hu : u ∈ g.vertices) (hv : v ∈ g.vertices)
    (h₀ : 0 ≤ t) (h₁ : t ≤ 1) : Straight g.origin (u.along v t) := by
  obtain ⟨hlow, hhigh⟩ := part_between h₀ h₁ u.lng v.lng
  have hwest : g.origin.lng ≤ (u.along v t).lng :=
    (le_min (g.origin_lng_le hu) (g.origin_lng_le hv)).trans hlow
  refine eastward_eq_sub_of_side ?_
  rcases h with h | h
  · exact .inl ⟨h _ g.origin_mem, hwest⟩
  · exact .inr ⟨(h _ g.origin_mem).1, hwest, hhigh.trans (max_le (h u hu).2 (h v hv).2)⟩

theorem mem_insertVertex (hi : i < g.vertices.length) {w : Location ℚ} :
    w ∈ (g.insertVertex i m).vertices ↔ w = m ∨ w ∈ g.vertices :=
  List.mem_insertIdx hi

/-- Without the bound to the east of the 180th meridian a location of a way may be taken over it,
though the ends are not. -/
example :
    let o : Location ℚ := ⟨0, -180⟩
    Straight o ⟨1, -1⟩ ∧ Straight o ⟨1 / 2 ^ 26, -1 / 2 ^ 26⟩ ∧
      ¬Straight o ⟨1 / 2 ^ 24, -1 / 2 ^ 24⟩ := by
  simp only [Straight]
  decide +kernel

/-- A further vertex on a side does not lie to the west of the others. -/
theorem insertVertex_origin_lng (hi : i < g.vertices.length) (hu : u ∈ g.vertices)
    (hv : v ∈ g.vertices) (h₀ : 0 ≤ t) (h₁ : t ≤ 1) :
    (g.insertVertex i (u.along v t)).origin.lng = g.origin.lng := by
  refine le_antisymm (origin_lng_le _ ((mem_insertVertex hi).2 (.inr g.origin_mem))) ?_
  rcases (mem_insertVertex hi).1 (origin_mem (g.insertVertex i (u.along v t))) with h | h
  · rw [h]
    exact (le_min (g.origin_lng_le hu) (g.origin_lng_le hv)).trans
      (part_between h₀ h₁ u.lng v.lng).1
  · exact g.origin_lng_le h

/-- **When a further vertex on a side changes the answer.**  The frame of the polygon takes the side
as it is.  Then the answer for a location changes if and only if no other side meets the location and
the cut alters what the side decides.  It never does so when the vertex is one of the ends of the
side, or when neither piece is in line with the location, which is when the length of each piece
times the distance of the location from the line through the side is more than the tolerance. -/
theorem contains_insertVertex (g : Polygon ℚ) (p : Location ℚ) {i : ℕ} {u v m : Location ℚ} {t : ℚ}
    (hside : (edges g.vertices)[i]? = some (u, v)) (h₀ : 0 ≤ t) (h₁ : t ≤ 1)
    (hm : m = u.along v t) (hstraight : ∀ w ∈ [u, v, m], Straight g.origin w) :
    let frame := project Gauge.scale g.origin
    let s := frame p
    ((g.insertVertex i m).contains p ≠ g.contains p ↔
      (∀ e ∈ (edges g.ring).eraseIdx i, ¬Meets Gauge.tolerance s e) ∧
        CutAlters Gauge.tolerance s (frame u) (frame v) (frame m)
          (winding Gauge.tolerance g.ring s)) ∧
    (m = u ∨ m = v ∨ ¬InLine Gauge.tolerance s (frame u, frame m) ∧
        ¬InLine Gauge.tolerance s (frame m, frame v) →
      (g.insertVertex i m).contains p = g.contains p) := by
  intro frame s
  subst hm
  obtain ⟨hu, hv⟩ : u ∈ g.vertices ∧ v ∈ g.vertices :=
    mem_of_mem_edges (List.mem_of_getElem? hside)
  have hi : i < g.vertices.length := by
    rw [← length_edges]
    exact (List.getElem?_eq_some_iff.1 hside).1
  have hframe : frame (u.along v t) = along (frame u) (frame v) t :=
    project_along (hstraight _ (by simp)) (hstraight _ (by simp)) (hstraight _ (by simp))
  have hring : (edges g.ring)[i]? = some (frame u, frame v) := by
    rw [Polygon.ring, edges_map, List.getElem?_map, hside]
    rfl
  have hcut : (g.insertVertex i (u.along v t)).contains p =
      encloses Gauge.tolerance (g.ring.insertIdx (i + 1) (along (frame u) (frame v) t)) s := by
    rw [contains_eq_encloses _ (insertVertex_origin_lng hi hu hv h₀ h₁).symm, insertVertex,
      List.map_insertIdx, ← hframe]
    rfl
  obtain ⟨hedges, hedges'⟩ := edges_insertIdx hring (along (frame u) (frame v) t)
  have hiff : (g.insertVertex i (u.along v t)).contains p ≠ g.contains p ↔
      (∀ e ∈ (edges g.ring).eraseIdx i, ¬Meets Gauge.tolerance s e) ∧
        CutAlters Gauge.tolerance s (frame u) (frame v) (along (frame u) (frame v) t)
          (winding Gauge.tolerance g.ring s) := by
    rw [hcut]
    exact encloses_cut_ne_iff tolerance_nonneg h₀ h₁ hedges hedges'
  rw [hframe]
  refine ⟨hiff, fun hends => ?_⟩
  -- a vertex at an end of the side is at the same end in the frame
  have hend : ∀ w, u.along v t = w → along (frame u) (frame v) t = frame w := by
    rintro _ rfl
    exact hframe.symm
  by_contra hne
  exact not_cutAlters tolerance_nonneg h₀ h₁ (hends.imp (hend u) (Or.imp_left (hend v)))
    (hiff.1 hne).2

end Polygon

/-! ### Vertices that change the answer -/

/-- A quadrilateral with one of its sides on a parallel. -/
def slab : Polygon ℚ := ⟨[⟨0, 0⟩, ⟨1, 1 / 2⟩, ⟨1, 6 / 10⟩, ⟨0, 1⟩], by decide⟩

/-- A location on that side, a hundred nanometres from its end. -/
def slabCut : Location ℚ := ⟨1, 1 / 2 + 1 / 10 ^ 12⟩

/-- A location five kilometres to the south of the end of that side. -/
def besideSlabCut : Location ℚ := ⟨95 / 100, 1 / 2 - 995 / 10 ^ 13⟩

theorem slab_straight :
    ∀ w ∈ [⟨1, 1 / 2⟩, ⟨1, 6 / 10⟩, slabCut], Straight slab.origin w := by
  have hside : slab.OneSided := .inl (by decide +kernel)
  have hparts : [⟨1, 1 / 2⟩, ⟨1, 6 / 10⟩, slabCut] =
      [0, 1, 1 / 10 ^ 11].map (Location.along ⟨1, 1 / 2⟩ ⟨1, 6 / 10⟩) := by
    decide +kernel
  have hbetween : ∀ t ∈ [0, 1, (1 / 10 ^ 11 : ℚ)], 0 ≤ t ∧ t ≤ 1 := by decide +kernel
  intro w hw
  rw [hparts] at hw
  obtain ⟨t, ht, rfl⟩ := List.mem_map.1 hw
  exact Polygon.straight_of_oneSided hside (by simp [slab]) (by simp [slab]) (hbetween t ht).1
    (hbetween t ht).2

/-- Neither piece is in line with a location in the middle. -/
theorem slab_middle_clear :
    let frame := project Gauge.scale slab.origin
    ¬InLine Gauge.tolerance (frame ⟨1 / 2, 1 / 2⟩) (frame ⟨1, 1 / 2⟩, frame slabCut) ∧
      ¬InLine Gauge.tolerance (frame ⟨1 / 2, 1 / 2⟩) (frame slabCut, frame ⟨1, 6 / 10⟩) := by
  simp only [InLine]
  decide +kernel

/-- At the end of the side the condition decides, and in the middle the answer stays. -/
theorem slab_keeps_middle :
    let frame := project Gauge.scale slab.origin
    ((slab.insertVertex 1 slabCut).contains besideSlabCut ≠ slab.contains besideSlabCut ↔
      (∀ e ∈ (edges slab.ring).eraseIdx 1, ¬Meets Gauge.tolerance (frame besideSlabCut) e) ∧
        CutAlters Gauge.tolerance (frame besideSlabCut) (frame ⟨1, 1 / 2⟩) (frame ⟨1, 6 / 10⟩)
          (frame slabCut) (winding Gauge.tolerance slab.ring (frame besideSlabCut))) ∧
      (slab.insertVertex 1 slabCut).contains ⟨1 / 2, 1 / 2⟩ = slab.contains ⟨1 / 2, 1 / 2⟩ := by
  have hside : (edges slab.vertices)[1]? = some (⟨1, 1 / 2⟩, ⟨1, 6 / 10⟩) := rfl
  have hcut : slabCut = Location.along ⟨1, 1 / 2⟩ ⟨1, 6 / 10⟩ (1 / 10 ^ 11) := by decide +kernel
  have hpart : (0 : ℚ) ≤ 1 / 10 ^ 11 ∧ (1 / 10 ^ 11 : ℚ) ≤ 1 := by decide +kernel
  refine ⟨?_, ?_⟩
  · exact (slab.contains_insertVertex _ hside hpart.1 hpart.2 hcut slab_straight).1
  · exact (slab.contains_insertVertex _ hside hpart.1 hpart.2 hcut slab_straight).2
      (.inr (.inr slab_middle_clear))

/-- **The crossing of the side is lost**: the location lies inside, kilometres from every side, and
with the further vertex the polygon is said not to contain it. -/
theorem slab_loses_middle :
    (∀ w ∈ slab.vertices, 0 ≤ w.lng) ∧
      (edges slab.vertices)[1]? = some (⟨1, 1 / 2⟩, ⟨1, 6 / 10⟩) ∧
      slabCut = Location.along ⟨1, 1 / 2⟩ ⟨1, 6 / 10⟩ (1 / 10 ^ 11) ∧
      slab.contains besideSlabCut = true ∧
      (slab.insertVertex 1 slabCut).contains besideSlabCut = false :=
  ⟨by decide +kernel, rfl, by decide +kernel, by decide +kernel, by decide +kernel⟩

end Geofence
