/-
Sums along a closed chain.

A closed chain is walked from its first point through the others and back.  Written as a walk, the
sides are given by recursion on the points, and what is shown of sums over sides follows by
induction on them.  Two facts carry everything about winding numbers: a sum of differences vanishes,
and a sum of an antisymmetric quantity is the sum over the triangles of a fan.

Main definitions:

* `Geofence.steps` — the steps of a walk;
* `Geofence.fan`, `Geofence.spokes` — the triangles from the first point, and the lines to it.

Main results:

* `Geofence.edges_cons` — the sides of a closed chain are the steps of a walk;
* `Geofence.sum_edges_sub` — differences add up to nothing round a closed chain;
* `Geofence.sum_edges_eq_sum_fan` — an antisymmetric quantity adds up over the fan.
-/

import Mathlib
import Geofence.Fence.Polygon

set_option relaxedAutoImplicit false
set_option autoImplicit false

namespace Geofence

variable {β γ : Type}

/-! ### Walks -/

/-- The steps of a walk from a point through some others to `last`. -/
def steps (last : β) : β → List β → List (β × β)
  | a, [] => [(a, last)]
  | a, b :: rest => (a, b) :: steps last b rest

theorem zip_append_singleton_eq_steps (last a : β) (rest : List β) :
    (a :: rest).zip (rest ++ [last]) = steps last a rest := by
  induction rest generalizing a with
  | nil => rfl
  | cons b rest ih => rw [List.cons_append, List.zip_cons_cons, ih, steps]

/-- The sides of a closed chain are the steps of the walk back to its first point. -/
theorem edges_cons (v : β) (rest : List β) : edges (v :: rest) = steps v v rest :=
  zip_append_singleton_eq_steps v v rest

theorem mem_of_mem_edges {chain : List β} {e : β × β} (h : e ∈ edges chain) :
    e.1 ∈ chain ∧ e.2 ∈ chain := by
  have hz := List.of_mem_zip (show (e.1, e.2) ∈ chain.zip (chain.drop 1 ++ chain.take 1) from h)
  refine ⟨hz.1, ?_⟩
  rcases List.mem_append.1 hz.2 with hd | ht
  · exact List.mem_of_mem_drop hd
  · exact List.mem_of_mem_take ht

theorem edges_map (f : β → γ) (chain : List β) :
    edges (chain.map f) = (edges chain).map (Prod.map f f) := by
  rw [edges, edges, ← List.map_drop, ← List.map_take, ← List.map_append, List.zip_map]

/-! ### Sums of differences -/

theorem sum_steps_sub (f : β → ℤ) (last a : β) (rest : List β) :
    ((steps last a rest).map fun e => f e.2 - f e.1).sum = f last - f a := by
  induction rest generalizing a with
  | nil => simp [steps]
  | cons b rest ih =>
      rw [steps, List.map_cons, List.sum_cons, ih b]
      ring

/-- **Differences add up to nothing** round a closed chain. -/
theorem sum_edges_sub (f : β → ℤ) (chain : List β) :
    ((edges chain).map fun e => f e.2 - f e.1).sum = 0 := by
  cases chain with
  | nil => rfl
  | cons v rest => rw [edges_cons, sum_steps_sub, sub_self]

/-- Quantities that differ by a difference of their ends on every side have the same sum. -/
theorem sum_edges_congr {f g : β × β → ℤ} (h : β → ℤ) {chain : List β}
    (hfg : ∀ e ∈ edges chain, f e = g e + (h e.2 - h e.1)) :
    ((edges chain).map f).sum = ((edges chain).map g).sum := by
  rw [List.map_congr_left hfg, List.sum_map_add, sum_edges_sub, add_zero]

/-! ### Fans -/

/-- The triangles that the first point of a chain forms with the sides it is not an end of. -/
def fan : List β → List (β × β × β)
  | [] => []
  | v :: rest => (rest.zip (rest.drop 1)).map fun e => (v, e.1, e.2)

/-- The lines from the first point of a chain to the other ones: its first and last side, and the
diagonals between them. -/
def spokes : List β → List (β × β)
  | [] => []
  | v :: rest => rest.map fun w => (v, w)

theorem fan_cons_cons_cons (v a b : β) (rest : List β) :
    fan (v :: a :: b :: rest) = (v, a, b) :: fan (v :: b :: rest) := rfl

theorem mem_of_mem_spokes {chain : List β} {e : β × β} (h : e ∈ spokes chain) :
    e.1 ∈ chain ∧ e.2 ∈ chain := by
  cases chain with
  | nil => simp [spokes] at h
  | cons v rest =>
      obtain ⟨w, hw, rfl⟩ := List.mem_map.1 h
      exact ⟨List.mem_cons_self .., List.mem_cons_of_mem _ hw⟩

theorem mem_steps_of_mem_zip {last a : β} {rest : List β} {e : β × β}
    (h : e ∈ rest.zip (rest.drop 1)) : e ∈ steps last a rest := by
  induction rest generalizing a with
  | nil => simp at h
  | cons b rest ih =>
      cases rest with
      | nil => simp at h
      | cons c rest =>
          rcases List.mem_cons.1 h with rfl | h
          · simp [steps]
          · exact List.mem_cons_of_mem _ (ih h)

/-- The sides of the triangles of a fan are spokes and sides of the chain. -/
theorem mem_of_mem_fan {chain : List β} {t : β × β × β} (h : t ∈ fan chain) :
    (t.1, t.2.1) ∈ spokes chain ∧ (t.2.1, t.2.2) ∈ edges chain ∧ (t.1, t.2.2) ∈ spokes chain := by
  cases chain with
  | nil => simp [fan] at h
  | cons v rest =>
      obtain ⟨e, he, rfl⟩ := List.mem_map.1 h
      have hz := List.of_mem_zip (show (e.1, e.2) ∈ rest.zip (rest.drop 1) from he)
      refine ⟨List.mem_map.2 ⟨e.1, hz.1, rfl⟩, ?_,
        List.mem_map.2 ⟨e.2, List.mem_of_mem_drop hz.2, rfl⟩⟩
      rw [edges_cons]
      exact mem_steps_of_mem_zip he

/-- What a walk back to the first point adds up to, in terms of the triangles on the way. -/
theorem sum_steps_eq_sum_fan {f : β × β → ℤ} (hf : ∀ a b, f (b, a) = -f (a, b)) (v a : β)
    (rest : List β) :
    f (v, a) + ((steps v a rest).map f).sum =
      ((fan (v :: a :: rest)).map fun t => f (t.1, t.2.1) + f (t.2.1, t.2.2) + f (t.2.2, t.1)).sum
    := by
  induction rest generalizing a with
  | nil => simp [steps, fan, hf v a]
  | cons b rest ih =>
      rw [fan_cons_cons_cons, List.map_cons, List.sum_cons, ← ih b, steps, List.map_cons,
        List.sum_cons, hf v b]
      ring

/-- **An antisymmetric quantity adds up over the fan**: the spokes inside it cancel. -/
theorem sum_edges_eq_sum_fan {f : β × β → ℤ} (hf : ∀ a b, f (b, a) = -f (a, b))
    (chain : List β) :
    ((edges chain).map f).sum =
      ((fan chain).map fun t => f (t.1, t.2.1) + f (t.2.1, t.2.2) + f (t.2.2, t.1)).sum := by
  cases chain with
  | nil => rfl
  | cons v rest =>
      cases rest with
      | nil =>
          have hv := hf v v
          simp only [edges_cons, steps, fan, List.map_cons, List.map_nil, List.sum_cons,
            List.sum_nil, List.drop_nil, List.zip_nil_left]
          omega
      | cons a rest =>
          rw [← sum_steps_eq_sum_fan hf, edges_cons, steps, List.map_cons, List.sum_cons]

end Geofence
