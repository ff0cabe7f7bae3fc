/-
The union of the fences.

The verdicts on a table ask every fence for every fix, while the question whether a location is in
the union of the fences is settled by the first fence that contains it.  The two agree where both
answer: a fix is inside exactly if the union contains it.  They fail differently: one failing fence
anywhere in the list leaves the table without verdicts, whereas the union has an answer as soon as a
fence before it contains the location.  So the order of the fences matters for whether the union has
an answer, but not for the verdicts, which are those on any other order with the fences renumbered.

Main definitions:

* `Geofence.Verdict.Tells` — a verdict tells which fences contain a fix;
* `Geofence.Verdict.Renumbered` — two verdicts that differ in the numbers of the fences only.

Main results:

* `Geofence.tells_of_judge` — a verdict tells what the fences answer;
* `Geofence.classify_renumbered` — the verdicts on the fences in another order;
* `Geofence.classify_and_anyContains` — the verdicts and the union, with their failures.
-/

import Geofence.Proofs.Fence.Answers
import Geofence.Proofs.Track.Verdict

set_option relaxedAutoImplicit false
set_option autoImplicit false

namespace Geofence

/-! ### What a verdict tells -/

/-- The verdict is one on the fix `x`: it has the positions of the fences that contain the location
of `x`, in order, and is inside exactly if the union of the fences contains it. -/
structure Verdict.Tells (fences : List (Fence Float)) (x : Fix) (v : Verdict) : Prop where
  fix_eq : v.fix = x
  increasing : v.matched.Pairwise (· < ·)
  mem_matched_iff : ∀ i, i ∈ v.matched ↔
    ∃ f, fences[i]? = some f ∧ f.contains x.location = .ok true
  inside_iff : v.inside = true ↔ anyContains fences x.location = .ok true

section Fences

variable {fences fences' : List (Fence Float)} {x : Fix} {v : Verdict}

theorem Verdict.inside_eq_true_iff : v.inside = true ↔ v.matched ≠ [] := by
  rw [Verdict.inside, Bool.not_eq_true', List.isEmpty_eq_false_iff]

/-- **A verdict tells** what the fences answer. -/
theorem tells_of_judge (h : judge fences x = .ok v) : v.Tells fences x := by
  obtain ⟨matched, hmatched, rfl⟩ := map_eq_ok_iff.mp h
  exact
    { fix_eq := rfl
      increasing := pairwise_matching hmatched
      mem_matched_iff := fun _ => mem_matching_iff hmatched
      inside_iff :=
        Verdict.inside_eq_true_iff.trans (anyContains_eq_true_iff_of_matching hmatched).symm }

theorem Verdict.Tells.inside_iff_exists (h : v.Tells fences x) :
    v.inside = true ↔ ∃ f ∈ fences, f.contains x.location = .ok true := by
  rw [Verdict.inside_eq_true_iff, ← List.length_pos_iff, List.length_pos_iff_exists_mem]
  constructor
  · rintro ⟨i, hi⟩
    obtain ⟨f, hf, hyes⟩ := (h.mem_matched_iff i).1 hi
    exact ⟨f, List.mem_of_getElem? hf, hyes⟩
  · rintro ⟨f, hf, hyes⟩
    obtain ⟨i, hi⟩ := List.mem_iff_getElem?.1 hf
    exact ⟨i, (h.mem_matched_iff i).2 ⟨f, hi, hyes⟩⟩

theorem Verdict.Tells.mem_matched_iff_of_lt (h : v.Tells fences x) (i : Fin fences.length) :
    (i : ℕ) ∈ v.matched ↔ (fences.get i).contains x.location = .ok true := by
  rw [h.mem_matched_iff, List.getElem?_eq_getElem i.isLt]
  simp

theorem classify_eq_error_iff {fixes : List Fix} :
    (∃ e, classify fences fixes = .error e) ↔
      ∃ x ∈ fixes, ∃ f ∈ fences, ∃ e, f.contains x.location = .error e := by
  simp only [exists_eq_error_iff, exists_classify_iff, not_forall, exists_prop]

/-! ### Renumbered fences -/

/-- The verdict `w` is the verdict `v` with other numbers for the fences: the number `i` in `w`
stands for `σ i` in `v`. -/
structure Verdict.Renumbered {m n : ℕ} (σ : Fin m ≃ Fin n) (v w : Verdict) : Prop where
  fix_eq : w.fix = v.fix
  inside_eq : w.inside = v.inside
  mem_iff : ∀ i : Fin m, (i : ℕ) ∈ w.matched ↔ (σ i : ℕ) ∈ v.matched

section Renumbering

variable (σ : Fin fences'.length ≃ Fin fences.length)

theorem mem_of_renumbered (h : ∀ i, fences'.get i = fences.get (σ i)) (f : Fence Float) :
    f ∈ fences' ↔ f ∈ fences := by
  rw [List.mem_iff_get, List.mem_iff_get]
  constructor
  · rintro ⟨i, rfl⟩
    exact ⟨σ i, (h i).symm⟩
  · rintro ⟨i, rfl⟩
    exact ⟨σ.symm i, by rw [h, Equiv.apply_symm_apply]⟩

theorem judge_renumbered (h : ∀ i, fences'.get i = fences.get (σ i)) (hv : judge fences x = .ok v) :
    ∃ w, judge fences' x = .ok w ∧ v.Renumbered σ w := by
  have hanswers := exists_judge_iff.mp ⟨v, hv⟩
  obtain ⟨w, hw⟩ := exists_judge_iff.mpr fun f hf => hanswers f ((mem_of_renumbered σ h f).1 hf)
  have htells := tells_of_judge hv
  have htells' := tells_of_judge hw
  refine ⟨w, hw, htells'.fix_eq.trans htells.fix_eq.symm, ?_, fun i => ?_⟩
  · rw [Bool.eq_iff_iff, htells'.inside_iff_exists, htells.inside_iff_exists]
    exact exists_congr fun f => and_congr_left' (mem_of_renumbered σ h f)
  · rw [htells'.mem_matched_iff_of_lt, htells.mem_matched_iff_of_lt, h]

/-- **The fences in another order** give the same verdicts with the fences renumbered. -/
theorem classify_renumbered (h : ∀ i, fences'.get i = fences.get (σ i)) {fixes : List Fix}
    {verdicts : List Verdict} (hverdicts : classify fences fixes = .ok verdicts) :
    ∃ verdicts', classify fences' fixes = .ok verdicts' ∧
      List.Forall₂ (Verdict.Renumbered σ) verdicts verdicts' := by
  simp only [classify, mapM_eq_ok_iff] at hverdicts ⊢
  induction hverdicts with
  | nil => exact ⟨[], .nil, .nil⟩
  | cons hv _ ih =>
      obtain ⟨w, hw, hrenumbered⟩ := judge_renumbered σ h hv
      obtain ⟨rest, hrest, hall⟩ := ih
      exact ⟨w :: rest, .cons hw hrest, .cons hrenumbered hall⟩

end Renumbering

end Fences

/-! ### Verdicts and the union -/

/-- **The verdicts and the union of the fences.**  There are no verdicts exactly if some fence fails
for some fix; else there is one for each fix, in order, and it tells which fences contain the fix and
whether their union does.  On the fences in any other order, there are the same verdicts with the
fences renumbered.  The union contains a location exactly if some fence that contains it comes before
all fences that fail, and does not contain it exactly if no fence does and none fails. -/
theorem classify_and_anyContains (fences : List (Fence Float)) (fixes : List Fix) :
    ((∃ e, classify fences fixes = .error e) ↔
        ∃ x ∈ fixes, ∃ f ∈ fences, ∃ e, f.contains x.location = .error e) ∧
      (∀ verdicts, classify fences fixes = .ok verdicts →
        List.Forall₂ (fun x v => Verdict.Tells fences x v) fixes verdicts ∧
          ∀ (fences' : List (Fence Float)) (σ : Fin fences'.length ≃ Fin fences.length),
            (∀ i, fences'.get i = fences.get (σ i)) →
              ∃ verdicts', classify fences' fixes = .ok verdicts' ∧
                List.Forall₂ (Verdict.Renumbered σ) verdicts verdicts') ∧
      ∀ p : Location Float,
        (anyContains fences p = .ok true ↔
            ∃ (i : ℕ) (f : Fence Float), fences[i]? = some f ∧ f.contains p = .ok true ∧
              ∀ (j : ℕ) (g : Fence Float) (e : DomainError), fences[j]? = some g →
                g.contains p = .error e → i < j) ∧
          (anyContains fences p = .ok false ↔ ∀ f ∈ fences, f.contains p = .ok false) := by
  refine ⟨classify_eq_error_iff, fun verdicts hverdicts => ⟨?_, ?_⟩, fun p => ?_⟩
  · exact (mapM_eq_ok_iff.mp hverdicts).imp fun _ _ => tells_of_judge
  · exact fun fences' σ h => classify_renumbered σ h hverdicts
  · exact ⟨anyContains_eq_true_iff, anyContains_eq_false_iff⟩

/-- A triangle round the yard. -/
def court : Polygon Float := ⟨[⟨0, 0⟩, ⟨0, 2⟩, ⟨2, 0⟩], by decide⟩

/-- Two fixes in the court, the second one in the yard. -/
def courtFixes : List Fix := [⟨['1'], 0.75, 0.75⟩, ⟨['2'], 0.25, 0.25⟩]

/-- The verdicts on the court and the yard tell of the same fences as those on the yard and the
court, where the numbers are the other way round. -/
theorem court_union :
    classify [.polygon yard, .polygon court] courtFixes =
        .ok [⟨⟨['1'], 0.75, 0.75⟩, [1]⟩, ⟨⟨['2'], 0.25, 0.25⟩, [0, 1]⟩] ∧
      ∃ v w, classify [.polygon court, .polygon yard] courtFixes = .ok [v, w] ∧
        0 ∈ v.matched ∧ 1 ∉ v.matched ∧ 0 ∈ w.matched ∧ 1 ∈ w.matched := by
  have hverdicts : classify [.polygon yard, .polygon court] courtFixes =
      .ok [⟨⟨['1'], 0.75, 0.75⟩, [1]⟩, ⟨⟨['2'], 0.25, 0.25⟩, [0, 1]⟩] := by
    have hyard : yard.contains ⟨0.75, 0.75⟩ = false ∧ yard.contains ⟨0.25, 0.25⟩ = true := by
      decide +kernel
    have hcourt : court.contains ⟨0.75, 0.75⟩ = true ∧ court.contains ⟨0.25, 0.25⟩ = true := by
      decide +kernel
    have hfirst : List.Forall₂ (fun (f : Fence Float) b => f.contains ⟨0.75, 0.75⟩ = .ok b)
        [.polygon yard, .polygon court] [false, true] :=
      .cons (congrArg Except.ok hyard.1) (.cons (congrArg Except.ok hcourt.1) .nil)
    have hsecond : List.Forall₂ (fun (f : Fence Float) b => f.contains ⟨0.25, 0.25⟩ = .ok b)
        [.polygon yard, .polygon court] [true, true] :=
      .cons (congrArg Except.ok hyard.2) (.cons (congrArg Except.ok hcourt.2) .nil)
    refine mapM_eq_ok_iff.mpr (.cons ?_ (.cons ?_ .nil))
    · exact map_eq_ok_iff.mpr ⟨_, matching_of_answers hfirst, rfl⟩
    · exact map_eq_ok_iff.mpr ⟨_, matching_of_answers hsecond, rfl⟩
  refine ⟨hverdicts, ?_⟩
  have hswap : ∀ (f g : Fence Float) (i : Fin 2), [g, f].get i = [f, g].get (Fin.revPerm i) :=
    fun f g => Fin.forall_fin_two.2 ⟨rfl, rfl⟩
  obtain ⟨-, hrenumbered⟩ := (classify_and_anyContains _ courtFixes).2.1 _ hverdicts
  obtain ⟨_, hverdicts', _ | ⟨hv, _ | ⟨hw, _ | _⟩⟩⟩ :=
    hrenumbered [.polygon court, .polygon yard] (Fin.revPerm : Equiv.Perm (Fin 2)) (hswap _ _)
  refine ⟨_, _, hverdicts', ?_, ?_, ?_, ?_⟩
  · exact (hv.mem_iff 0).2 (by decide)
  · exact fun h => absurd ((hv.mem_iff 1).1 h) (by decide)
  · exact (hw.mem_iff 0).2 (by decide)
  · exact (hw.mem_iff 1).2 (by decide)

end Geofence
