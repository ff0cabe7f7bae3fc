/-
The order of the vertices.

A closed chain may be started at any of its points and walked in either direction.  Another start
only changes the order in which the sides come, and the other direction turns every side round; then
the point meets the same sides, and every turn is the opposite one, whatever the tolerance.  So
enclosing a point depends on neither.  A polygon with its vertices in such an order may have another
one of its westmost vertices as its origin, which makes no difference, either.

Main results:

* `Geofence.edges_isRotated`, `Geofence.edges_reverse_perm` — the sides of a chain started elsewhere,
  and of one walked back;
* `Geofence.encloses_of_perm`, `Geofence.encloses_of_perm_swap` — the order and the directions of
  the sides;
* `Geofence.Polygon.contains_reordered` — a polygon does not depend on the order of its vertices.
-/

import Geofence.Proofs.Fence.Frame

set_option relaxedAutoImplicit false
set_option autoImplicit false

namespace Geofence

/-! ### Closed chains started elsewhere or walked back -/

section Chains

variable {β : Type}

theorem steps_append_singleton (last a b : β) (rest : List β) :
    steps last a (rest ++ [b]) = steps b a rest ++ [(b, last)] := by
  induction rest generalizing a with
  | nil => rfl
  | cons c rest ih => rw [List.cons_append, steps, ih, steps, List.cons_append]

/-- A walk back takes the steps in the opposite order, each one turned round. -/
theorem steps_reverse (last a : β) (rest : List β) :
    steps last a rest.reverse = ((steps a last rest).map Prod.swap).reverse := by
  induction rest generalizing last with
  | nil => rfl
  | cons b rest ih =>
      rw [List.reverse_cons, steps_append_singleton, ih b, steps, List.map_cons, List.reverse_cons,
        Prod.swap_prod_mk]

theorem edges_append_singleton (a : β) (rest : List β) :
    edges (rest ++ [a]) ~r edges (a :: rest) := by
  cases rest with
  | nil => exact .refl _
  | cons b rest =>
      rw [List.cons_append, edges_cons, edges_cons, steps_append_singleton, steps]
      exact List.isRotated_concat _ _

theorem edges_rotate (chain : List β) (k : ℕ) : edges (chain.rotate k) ~r edges chain := by
  induction k generalizing chain with
  | zero => rw [List.rotate_zero]
  | succ k ih =>
      cases chain with
      | nil => rw [List.rotate_nil]
      | cons a rest =>
          rw [List.rotate_cons_succ]
          exact (ih _).trans (edges_append_singleton a rest)

/-- **The sides of a chain that is started elsewhere** come in another order. -/
theorem edges_isRotated {chain chain' : List β} (h : chain ~r chain') :
    edges chain ~r edges chain' := by
  obtain ⟨k, rfl⟩ := h
  exact (edges_rotate chain k).symm

/-- **The sides of a chain that is walked back** are turned round. -/
theorem edges_reverse_perm (chain : List β) :
    (edges chain.reverse).Perm ((edges chain).map Prod.swap) := by
  cases chain with
  | nil => rfl
  | cons a rest =>
      have hback : edges (a :: rest.reverse) = ((edges (a :: rest)).map Prod.swap).reverse := by
        rw [edges_cons, edges_cons, steps_reverse]
      rw [List.reverse_cons]
      refine (edges_append_singleton a rest.reverse).perm.trans ?_
      rw [hback]
      exact List.reverse_perm _

end Chains

/-! ### Enclosing -/

section Enclosing

variable {tolerance : ℚ} {s a b : Offset ℚ} {chain chain' : List (Offset ℚ)}

theorem meets_swap : Meets tolerance s (b, a) ↔ Meets tolerance s (a, b) := by
  rw [meets_iff, meets_iff, area_swap s a b, abs_neg, min_comm, max_comm, min_comm b.y, max_comm b.y]

/-- **The order of the sides** makes no difference. -/
theorem encloses_of_perm (h : (edges chain).Perm (edges chain')) :
    encloses tolerance chain s = encloses tolerance chain' s := by
  have hwinding : winding tolerance chain s = winding tolerance chain' s := (h.map _).sum_eq
  rw [Bool.eq_iff_iff, encloses_iff, encloses_iff, hwinding]
  simp only [h.mem_iff]

/-- **The directions of the sides** make no difference when all are turned round. -/
theorem encloses_of_perm_swap (hτ : 0 ≤ tolerance)
    (h : (edges chain).Perm ((edges chain').map Prod.swap)) :
    encloses tolerance chain s = encloses tolerance chain' s := by
  have hturn : ∀ e : Offset ℚ × Offset ℚ, turn tolerance s e.swap = -turn tolerance s e :=
    fun e => turn_swap hτ e.1 e.2
  have hwinding : winding tolerance chain s = -winding tolerance chain' s := by
    rw [winding, (h.map _).sum_eq, List.map_map, winding, List.sum_neg, List.map_map]
    exact congrArg List.sum (List.map_congr_left fun e _ => hturn e)
  have hmet : (∃ e ∈ edges chain, Meets tolerance s e) ↔
      ∃ e ∈ edges chain', Meets tolerance s e := by
    simp only [h.mem_iff, List.mem_map]
    constructor
    · rintro ⟨_, ⟨e, he, rfl⟩, hm⟩
      exact ⟨e, he, meets_swap.1 hm⟩
    · rintro ⟨e, he, hm⟩
      exact ⟨e.swap, ⟨e, he, rfl⟩, meets_swap.1 hm⟩
  rw [Bool.eq_iff_iff, encloses_iff, encloses_iff, hmet, hwinding, neg_ne_zero]

end Enclosing

/-! ### Polygons -/

/-- The westmost meridian of a polygon depends on the set of its vertices only. -/
theorem Polygon.origin_lng_eq {g g' : Polygon ℚ} (h : ∀ v, v ∈ g.vertices ↔ v ∈ g'.vertices) :
    g.origin.lng = g'.origin.lng :=
  le_antisymm (g.origin_lng_le ((h _).2 g'.origin_mem)) (g'.origin_lng_le ((h _).1 g.origin_mem))

/-- **A polygon does not depend on the order of its vertices**, as long as the same ones are joined:
starting elsewhere, or going round the other way from anywhere, gives the same answer for every
location, those on the boundary and within the tolerance included. -/
theorem Polygon.contains_reordered (g g' : Polygon ℚ) (p : Location ℚ)
    (h : g.vertices ~r g'.vertices ∨ g.vertices.reverse ~r g'.vertices) :
    g.contains p = g'.contains p := by
  have hmem : ∀ v, v ∈ g.vertices ↔ v ∈ g'.vertices := by
    intro v
    rcases h with h | h
    · exact h.mem_iff
    · rw [← h.mem_iff, List.mem_reverse]
  rw [Polygon.contains, g'.contains_eq_encloses (Polygon.origin_lng_eq hmem)]
  rcases h with h | h
  · exact encloses_of_perm (edges_isRotated (h.map _)).perm
  · have hback := edges_isRotated (h.map (project Gauge.scale g.origin))
    rw [List.map_reverse] at hback
    refine (encloses_of_perm_swap tolerance_nonneg ?_).symm
    exact hback.perm.symm.trans (edges_reverse_perm _)

/-- A quadrilateral with two westmost vertices, one of which comes twice. -/
def kite : Polygon ℚ := ⟨[⟨2, -1⟩, ⟨0, 0⟩, ⟨-1, -1⟩, ⟨-1, -1⟩, ⟨0, 3⟩], by decide⟩

/-- The same vertices, backwards from another one. -/
def kiteBack : Polygon ℚ := ⟨[⟨-1, -1⟩, ⟨-1, -1⟩, ⟨0, 0⟩, ⟨2, -1⟩, ⟨0, 3⟩], by decide⟩

/-- The two have different origins, and both contain a location that is within the tolerance of a
side but beside it. -/
theorem kite_contains_back :
    kite.vertices.reverse ~r kiteBack.vertices ∧ kite.origin ≠ kiteBack.origin ∧
      kite.contains ⟨1, 1 + 1 / 10 ^ 15⟩ = kiteBack.contains ⟨1, 1 + 1 / 10 ^ 15⟩ ∧
      kite.contains ⟨1, 1 + 1 / 10 ^ 15⟩ = true := by
  have hback : kite.vertices.reverse ~r kiteBack.vertices := ⟨1, by decide⟩
  exact ⟨hback, by decide, Polygon.contains_reordered kite kiteBack _ (.inr hback),
    by decide +kernel⟩

end Geofence
