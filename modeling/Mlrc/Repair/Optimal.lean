import Mlrc.Repair.Solve

/-!
# What the planner optimises

Each policy of the planner stands for an order of the equation sets it may select.  Two of them scan
all combinations of candidate equations; an equation set with an invertible system consists of
candidates, so the scan sees every such set.

* `helperSet`, `unionHelpers_length`   the helpers of a selection as a set;
* `solveByScan_best`   no increasing selection is better than what a scan returns;
* `glrcSolveRepairIlp_minimal`   the minimum-helper policy has the fewest helpers;
* `glrcSolveRepairLocalFirst_optimal`   the local-first policy is best in four comparisons, one after
  the other.
-/

namespace Mlrc

open Finset

section
variable {k r z : ℕ} {failed selected : List ℕ}

/-! ## Helpers -/

/-- the surviving blocks that the equations of a selection involve -/
def helperSet (k r z : ℕ) (failed selected : List ℕ) : Finset ℕ :=
  selected.toFinset.biUnion fun e => (involvedBlocks (allEquations k r z) e).toFinset \ failed.toFinset

theorem mem_helperSet {b : ℕ} : b ∈ helperSet k r z failed selected ↔
    (∃ e ∈ selected, b ∈ involvedBlocks (allEquations k r z) e) ∧ b ∉ failed := by
  simp only [helperSet, mem_biUnion, List.mem_toFinset, mem_sdiff, ← and_assoc, exists_and_right]

theorem unionHelpers_nodup : (unionHelpers selected (allEquations k r z) failed).Nodup :=
  (List.perm_insertionSort _ _).nodup_iff.mpr (List.nodup_dedup _)

theorem unionHelpers_increasing :
    (unionHelpers selected (allEquations k r z) failed).Pairwise (· < ·) := by
  have hle : (unionHelpers selected (allEquations k r z) failed).Pairwise (· ≤ ·) :=
    List.pairwise_insertionSort (· ≤ ·) _
  exact (hle.and unionHelpers_nodup).imp fun h => lt_of_le_of_ne h.1 h.2

theorem unionHelpers_length :
    (unionHelpers selected (allEquations k r z) failed).length = (helperSet k r z failed selected).card := by
  rw [← List.toFinset_card_of_nodup unionHelpers_nodup]
  congr 1
  ext b
  rw [List.mem_toFinset, mem_unionHelpers, mem_helperSet]

/-! ## Exhaustive scans -/

theorem selectedOf_increasing {cand pos : List ℕ} {f : ℕ} (hcand : cand.Pairwise (· < ·))
    (hpos : pos ∈ enumerateCombinations cand.length f) : (selectedOf cand pos).Pairwise (· < ·) := by
  obtain ⟨-, hinc, hlt⟩ := (mem_enumerateCombinations _ _ _).mp hpos
  rw [selectedOf, List.pairwise_map]
  refine hinc.imp_of_mem fun {a b} ha hb hab => ?_
  rw [List.getD_eq_getElem _ _ (hlt a ha), List.getD_eq_getElem _ _ (hlt b hb)]
  exact List.pairwise_iff_getElem.mp hcand a b (hlt a ha) (hlt b hb) hab

theorem solveByScan_best (better : List GlrcEquation → List ℕ → List ℕ → List ℕ → Bool)
    (message : String) (hbetter : StrictWeak (better (allEquations k r z) failed))
    {p : GlrcIlpRepairPlan} (h : solveByScan better message k r z failed = (true, p)) :
    p.selectedEquationIndices.Pairwise (· < ·) ∧ p.helperBlockCount = p.helperBlockIds.length ∧
      ∀ sel : List ℕ, sel.Pairwise (· < ·) → Solves k r z failed sel →
        better (allEquations k r z) failed sel p.selectedEquationIndices = false := by
  have h := (withCandidates_true h).2
  simp only at h
  split at h
  · cases h
  next best hbest =>
  cases h
  obtain ⟨hmem, -⟩ := scanBest_some _ _ hbest
  obtain ⟨pos, hpos, rfl⟩ := List.mem_map.mp hmem
  refine ⟨selectedOf_increasing candidates_increasing hpos, rfl, fun sel hinc hsel => ?_⟩
  obtain ⟨pos', hpos', rfl⟩ := exists_combo hinc hsel
  exact scanBest_best hbetter hbest (List.mem_map_of_mem hpos') ((selectionOk_iff hsel.1).mpr hsel)

theorem fewerHelpers_eq_false_iff {sel best : List ℕ} :
    fewerHelpers (allEquations k r z) failed sel best = false ↔
      (helperSet k r z failed best).card ≤ (helperSet k r z failed sel).card := by
  rw [fewerHelpers, decide_eq_false_iff_not, not_lt, unionHelpers_length, unionHelpers_length]

/-- **Main result.**  The equations that the minimum-helper policy selects form an invertible system of
the failed blocks, its helpers are the surviving blocks of these equations in increasing order, and no
set of equations with an invertible system has fewer. -/
theorem glrcSolveRepairIlp_minimal {plan : GlrcIlpRepairPlan}
    (h : glrcSolveRepairIlp k r z failed = (true, plan)) :
    (plan.selectedEquationIndices.Nodup ∧
      plan.selectedEquationIndices.length = failed.length ∧
      (∀ e ∈ plan.selectedEquationIndices, e < z + r) ∧
      IsUnit (toMatrix failed.length (toGf (failedMatrix k r z failed plan.selectedEquationIndices)))) ∧
    (plan.helperBlockIds.Pairwise (· < ·) ∧
      plan.helperBlockCount = plan.helperBlockIds.length ∧
      ∀ b, b ∈ plan.helperBlockIds ↔ b ∉ failed ∧
        ∃ e ∈ plan.selectedEquationIndices, b ∈ involvedBlocks (allEquations k r z) e) ∧
    ∀ T : Finset ℕ, T.card = failed.length → (∀ e ∈ T, e < z + r) →
      IsUnit (toMatrix failed.length (toGf (failedMatrix k r z failed T.sort))) →
      plan.helperBlockIds.length ≤ (T.biUnion fun e =>
        (involvedBlocks (allEquations k r z) e).toFinset \ failed.toFinset).card := by
  have hok := solveByScan_ok _ _ h
  obtain ⟨hne, hlen, hlt, hunit⟩ := solves_iff.mp hok.solves
  obtain ⟨-, hcount, hbest⟩ := solveByScan_best _ _ (strictWeak_of_lt _) h
  refine ⟨⟨hok.solves.nodup, hlen, hlt, hunit⟩, ⟨?_, hcount, fun b => ?_⟩, fun T hcard hT hunitT => ?_⟩
  · rw [hok.helpers]
    exact unionHelpers_increasing
  · rw [hok.helpers, mem_unionHelpers]
    exact and_comm
  · have hsel : Solves k r z failed T.sort := by
      refine solves_iff.mpr ⟨hne, ?_, fun e he => hT e ((mem_sort _).mp he), hunitT⟩
      rw [length_sort, hcard]
    have hnot := fewerHelpers_eq_false_iff.mp (hbest T.sort T.sortedLT_sort.pairwise hsel)
    rw [hok.helpers, unionHelpers_length]
    rwa [helperSet, helperSet, sort_toFinset] at hnot

theorem fewest_helpers_four_two_two : (glrcSolveRepairIlp 4 2 2 [0, 3]).1 = true ∧
    ∀ T : Finset ℕ, T.card = 2 → (∀ e ∈ T, e < 4) →
      IsUnit (toMatrix 2 (toGf (failedMatrix 4 2 2 [0, 3] T.sort))) →
      (glrcSolveRepairIlp 4 2 2 [0, 3]).2.helperBlockIds.length ≤ (T.biUnion fun e =>
        (involvedBlocks (allEquations 4 2 2) e).toFinset \ [0, 3].toFinset).card := by
  have hok : (glrcSolveRepairIlp 4 2 2 [0, 3]).1 = true := by decide +kernel
  exact ⟨hok, (glrcSolveRepairIlp_minimal (Prod.ext hok rfl)).2.2⟩

/-! ## Local equations first -/

theorem LocalScore.better_eq_false_iff {c b : LocalScore} : c.better b = false ↔
    c.localCount < b.localCount ∨ c.localCount = b.localCount ∧
      (c.localFailedCover < b.localFailedCover ∨ c.localFailedCover = b.localFailedCover ∧
        (b.helperCount < c.helperCount ∨ b.helperCount = c.helperCount ∧ b.selected ≤ c.selected)) := by
  rw [show b.selected ≤ c.selected ↔ ¬ c.selected < b.selected from not_lt.symm]
  simp only [LocalScore.better, Bool.or_eq_false_iff, Bool.and_eq_false_iff, decide_eq_false_iff_not,
    beq_eq_false_iff_ne]
  by_cases hlist : c.selected < b.selected
  · simp only [hlist, not_true_eq_false, and_false, or_false]
    omega
  · simp only [hlist, not_false_eq_true, and_true, or_true]
    omega

theorem localBetter_strictWeak (z : ℕ) (equations : List GlrcEquation) (failed : List ℕ) :
    StrictWeak fun x b => (localScore z equations failed x).better (localScore z equations failed b) where
  asymm a b h := by
    by_contra hba
    have hlist : ¬ ((localScore z equations failed a).selected < (localScore z equations failed b).selected ∧
        (localScore z equations failed b).selected < (localScore z equations failed a).selected) :=
      fun hlt => lt_asymm hlt.1 hlt.2
    rw [Bool.not_eq_false] at hba
    simp only [LocalScore.better, Bool.or_eq_true, Bool.and_eq_true, decide_eq_true_eq, beq_iff_eq] at h hba
    grind
  neg_trans a b c hab hbc := by
    rw [LocalScore.better_eq_false_iff] at *
    have hlist : (localScore z equations failed b).selected ≤ (localScore z equations failed a).selected →
        (localScore z equations failed c).selected ≤ (localScore z equations failed b).selected →
        (localScore z equations failed c).selected ≤ (localScore z equations failed a).selected :=
      fun h1 h2 => le_trans h2 h1
    grind

/-- the failed blocks that the local equations of a selection involve -/
def localCovered (k r z : ℕ) (failed selected : List ℕ) : Finset ℕ :=
  failed.toFinset.filter fun b => ∃ e ∈ selected, e < z ∧ b ∈ involvedBlocks (allEquations k r z) e

theorem equationFailedCoverCount_eq {e : ℕ} (he : e < z + r) :
    equationFailedCoverCount (allEquations k r z) failed e =
      (failed.toFinset.filter (· ∈ involvedBlocks (allEquations k r z) e)).card := by
  rw [equationFailedCoverCount, ← List.toFinset_card_of_nodup ((involved_nodup he).filter _)]
  congr 1
  ext b
  simp only [List.mem_toFinset, List.mem_filter, mem_filter, decide_eq_true_eq]
  exact and_comm

theorem localFailedCover_eq (hnd : selected.Nodup) :
    (localScore z (allEquations k r z) failed selected).localFailedCover =
      (localCovered k r z failed selected).card := by
  have hcov : localCovered k r z failed selected = (selected.filter (· < z)).toFinset.biUnion fun e =>
      failed.toFinset.filter (· ∈ involvedBlocks (allEquations k r z) e) := by
    ext b
    simp only [localCovered, mem_filter, mem_biUnion, List.mem_toFinset, List.mem_filter,
      decide_eq_true_eq]
    constructor
    · rintro ⟨hb, e, he, hez, hin⟩
      exact ⟨e, ⟨he, hez⟩, hb, hin⟩
    · rintro ⟨e, ⟨he, hez⟩, hb, hin⟩
      exact ⟨hb, e, he, hez, hin⟩
  have hlocal : ∀ e ∈ selected.filter (· < z), e < z := fun e he =>
    of_decide_eq_true (List.mem_filter.mp he).2
  rw [hcov, card_biUnion, List.sum_toFinset _ (hnd.filter _)]
  · refine congrArg List.sum (List.map_congr_left fun e he => ?_)
    exact equationFailedCoverCount_eq (lt_of_lt_of_le (hlocal e he) (Nat.le_add_right z r))
  · intro e he e' he' hne
    refine disjoint_left.mpr fun b hb hb' => ?_
    exact hne (local_unique (hlocal e (List.mem_toFinset.mp he)) (hlocal e' (List.mem_toFinset.mp he'))
      (mem_filter.mp hb).2 (mem_filter.mp hb').2)

/-- **Main result.**  The selection of the local-first policy is an increasing list of equations with an
invertible system; among all of these it has the most local equations, then the most failed blocks in
local equations, then the fewest helpers, and of what is left it comes first. -/
theorem glrcSolveRepairLocalFirst_optimal {plan : GlrcIlpRepairPlan}
    (h : glrcSolveRepairLocalFirst k r z failed = (true, plan)) :
    let best := plan.selectedEquationIndices
    (best.Pairwise (· < ·) ∧ best.length = failed.length ∧ (∀ e ∈ best, e < z + r) ∧
      IsUnit (toMatrix failed.length (toGf (failedMatrix k r z failed best)))) ∧
    ∀ sel : List ℕ, sel.Pairwise (· < ·) → sel.length = failed.length → (∀ e ∈ sel, e < z + r) →
      IsUnit (toMatrix failed.length (toGf (failedMatrix k r z failed sel))) →
      (sel.filter (· < z)).length < (best.filter (· < z)).length ∨
      (sel.filter (· < z)).length = (best.filter (· < z)).length ∧
        ((localCovered k r z failed sel).card < (localCovered k r z failed best).card ∨
        (localCovered k r z failed sel).card = (localCovered k r z failed best).card ∧
          ((helperSet k r z failed best).card < (helperSet k r z failed sel).card ∨
          (helperSet k r z failed best).card = (helperSet k r z failed sel).card ∧ best ≤ sel)) := by
  intro best
  have hok := solveByScan_ok _ _ h
  obtain ⟨hne, hlen, hlt, hunit⟩ := solves_iff.mp hok.solves
  obtain ⟨hinc, -, hscan⟩ := solveByScan_best _ _ (localBetter_strictWeak z _ _) h
  refine ⟨⟨hinc, hlen, hlt, hunit⟩, fun sel hsinc hslen hslt hsunit => ?_⟩
  have hnot := hscan sel hsinc (solves_iff.mpr ⟨hne, hslen, hslt, hsunit⟩)
  rw [LocalScore.better_eq_false_iff, localFailedCover_eq (hsinc.imp ne_of_lt),
    localFailedCover_eq (hinc.imp ne_of_lt)] at hnot
  have hhelp : ∀ l : List ℕ, (localScore z (allEquations k r z) failed l).helperCount =
      (helperSet k r z failed l).card := fun l => unionHelpers_length
  rwa [hhelp, hhelp] at hnot

/-- the plan for blocks 0 and 3 of a (4, 2, 2) stripe takes both local equations -/
theorem local_equations_four_two_two :
    (glrcSolveRepairLocalFirst 4 2 2 [0, 3]).2.selectedEquationIndices = [0, 1] ∧
    ∀ sel : List ℕ, sel.Pairwise (· < ·) → sel.length = 2 → (∀ e ∈ sel, e < 4) →
      IsUnit (toMatrix 2 (toGf (failedMatrix 4 2 2 [0, 3] sel))) → (sel.filter (· < 2)).length ≤ 2 := by
  have hok : (glrcSolveRepairLocalFirst 4 2 2 [0, 3]).1 = true := by decide +kernel
  have hsel : (glrcSolveRepairLocalFirst 4 2 2 [0, 3]).2.selectedEquationIndices = [0, 1] := by
    decide +kernel
  refine ⟨hsel, fun sel hinc hlen hlt hunit => ?_⟩
  have hplan : glrcSolveRepairLocalFirst 4 2 2 [0, 3] =
      (true, (glrcSolveRepairLocalFirst 4 2 2 [0, 3]).2) := by rw [← hok]
  have h := (glrcSolveRepairLocalFirst_optimal hplan).2 sel hinc hlen hlt hunit
  rw [hsel] at h
  have htwo : (([0, 1] : List ℕ).filter (· < 2)).length = 2 := rfl
  omega

end

end Mlrc
