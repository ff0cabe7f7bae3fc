/-
The answers of a list of fences.

Asking all fences gives the positions of those that contain the location, or fails if one of them
does.  Asking for the first that contains it stops there, so that only the failures before it count.

Main definitions:

* `Geofence.hitPositions` — the positions of the fences that answered with yes.

Main results:

* `Geofence.mem_matching_iff`, `Geofence.pairwise_matching` — the positions when all are asked;
* `Geofence.anyContains_eq_true_iff`, `Geofence.anyContains_eq_false_iff` — the answer when the
  first one decides.
-/

import Geofence.Fence.Basic
import Geofence.Proofs.Success

set_option relaxedAutoImplicit false
set_option autoImplicit false

namespace Geofence

/-! ### Positions -/

/-- The positions of the fences that answered with yes. -/
def hitPositions (index : ℕ) (answers : List Bool) : List ℕ :=
  (answers.zipIdx index).filterMap fun hit => if hit.1 then some hit.2 else none

theorem mem_hitPositions_iff {index i : ℕ} {answers : List Bool} :
    i ∈ hitPositions index answers ↔ index ≤ i ∧ answers[i - index]? = some true := by
  simp [hitPositions, List.mem_filterMap, List.mk_mem_zipIdx_iff_le_and_getElem?_sub]

theorem pairwise_hitPositions (index : ℕ) (answers : List Bool) :
    (hitPositions index answers).Pairwise (· < ·) := by
  induction answers generalizing index with
  | nil => exact .nil
  | cons b answers ih =>
      cases b with
      | false => exact ih (index + 1)
      | true => exact .cons (fun i hi => (mem_hitPositions_iff.1 hi).1) (ih (index + 1))

section Answers

variable {fences : List (Fence Float)} {p : Location Float}

theorem getElem?_answers_iff {answers : List Bool}
    (h : List.Forall₂ (fun f b => f.contains p = .ok b) fences answers) {i : ℕ} {b : Bool} :
    answers[i]? = some b ↔ ∃ f, fences[i]? = some f ∧ f.contains p = .ok b := by
  induction h generalizing i with
  | nil => simp
  | @cons f c fences answers hf _ ih =>
      cases i with
      | zero => simp [hf]
      | succ i => simpa using ih

theorem matching_of_answers {answers : List Bool}
    (h : List.Forall₂ (fun f b => f.contains p = .ok b) fences answers) :
    matching fences p = .ok (hitPositions 0 answers) := by
  rw [matching, mapM_eq_ok_iff.mpr h]
  rfl

theorem exists_answers_of_matching {matched : List ℕ} (h : matching fences p = .ok matched) :
    ∃ answers, List.Forall₂ (fun f b => f.contains p = .ok b) fences answers ∧
      matched = hitPositions 0 answers := by
  obtain ⟨answers, hanswers, hmatched⟩ := bind_eq_ok_iff.mp h
  cases hmatched
  exact ⟨answers, mapM_eq_ok_iff.mp hanswers, rfl⟩

/-- **When all are asked**, the positions are those of the fences that contain the location. -/
theorem mem_matching_iff {matched : List ℕ} (h : matching fences p = .ok matched) {i : ℕ} :
    i ∈ matched ↔ ∃ f, fences[i]? = some f ∧ f.contains p = .ok true := by
  obtain ⟨answers, hanswers, rfl⟩ := exists_answers_of_matching h
  rw [mem_hitPositions_iff, getElem?_answers_iff hanswers]
  exact and_iff_right i.zero_le

theorem pairwise_matching {matched : List ℕ} (h : matching fences p = .ok matched) :
    matched.Pairwise (· < ·) := by
  obtain ⟨answers, -, rfl⟩ := exists_answers_of_matching h
  exact pairwise_hitPositions 0 answers

/-! ### The first one deciding -/

theorem anyContains_cons_of_true {f : Fence Float} (hf : f.contains p = .ok true) :
    anyContains (f :: fences) p = .ok true := by
  rw [anyContains, hf]
  rfl

theorem anyContains_cons_of_false {f : Fence Float} (hf : f.contains p = .ok false) :
    anyContains (f :: fences) p = anyContains fences p := by
  rw [anyContains, hf]
  rfl

theorem anyContains_cons_of_error {f : Fence Float} {e : DomainError}
    (hf : f.contains p = .error e) : anyContains (f :: fences) p = .error e := by
  rw [anyContains, hf]
  rfl

/-- **The answer is yes** exactly if some fence that contains the location comes before all fences
that fail. -/
theorem anyContains_eq_true_iff :
    anyContains fences p = .ok true ↔
      ∃ (i : ℕ) (f : Fence Float), fences[i]? = some f ∧ f.contains p = .ok true ∧
        ∀ (j : ℕ) (g : Fence Float) (e : DomainError), fences[j]? = some g →
          g.contains p = .error e → i < j := by
  induction fences with
  | nil => simp [anyContains]
  | cons f fences ih =>
      cases hf : f.contains p with
      | error e =>
          rw [anyContains_cons_of_error hf]
          refine iff_of_false (by simp) ?_
          rintro ⟨i, -, -, -, hbefore⟩
          exact Nat.not_lt_zero i (hbefore 0 f e rfl hf)
      | ok b =>
          cases b with
          | true =>
              rw [anyContains_cons_of_true hf]
              refine iff_of_true rfl ⟨0, f, rfl, hf, ?_⟩
              rintro (- | j) g e hg hfails
              · cases hg
                cases hf.symm.trans hfails
              · exact j.succ_pos
          | false =>
              rw [anyContains_cons_of_false hf, ih]
              -- the position is one less in the rest of the list
              constructor
              · rintro ⟨i, g, hg, hyes, hbefore⟩
                refine ⟨i + 1, g, hg, hyes, ?_⟩
                rintro (- | j) k e hk hfails
                · cases hk
                  cases hf.symm.trans hfails
                · exact Nat.succ_lt_succ (hbefore j k e hk hfails)
              · rintro ⟨- | i, g, hg, hyes, hbefore⟩
                · cases hg
                  cases hf.symm.trans hyes
                · exact ⟨i, g, hg, hyes, fun j k e hk hfails =>
                    Nat.lt_of_succ_lt_succ (hbefore (j + 1) k e hk hfails)⟩

/-- **The answer is no** exactly if all fences answer with no. -/
theorem anyContains_eq_false_iff :
    anyContains fences p = .ok false ↔ ∀ f ∈ fences, f.contains p = .ok false := by
  induction fences with
  | nil => simp [anyContains]
  | cons f fences ih =>
      rw [List.forall_mem_cons, ← ih]
      cases hf : f.contains p with
      | error e => simp [anyContains_cons_of_error hf]
      | ok b =>
          cases b with
          | true => simp [anyContains_cons_of_true hf]
          | false => simp [anyContains_cons_of_false hf]

/-- When all fences answer, the answer is yes exactly if one of them is. -/
theorem anyContains_eq_true_iff_of_matching {matched : List ℕ}
    (h : matching fences p = .ok matched) :
    anyContains fences p = .ok true ↔ matched ≠ [] := by
  obtain ⟨answers, hanswers, -⟩ := exists_answers_of_matching h
  rw [anyContains_eq_true_iff, ← List.length_pos_iff, List.length_pos_iff_exists_mem]
  refine exists_congr fun i => ?_
  rw [mem_matching_iff h]
  refine exists_congr fun f => and_congr_right fun _ => and_iff_left ?_
  intro j g e hg hfails
  obtain ⟨b, hb⟩ : ∃ b, g.contains p = .ok b :=
    exists_mapM_eq_ok_iff.mp ⟨answers, mapM_eq_ok_iff.mpr hanswers⟩ g (List.mem_of_getElem? hg)
  cases hb.symm.trans hfails

end Answers

end Geofence
