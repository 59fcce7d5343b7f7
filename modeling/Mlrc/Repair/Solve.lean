import Mlrc.Repair.Combos

/-!
# What the planner finds

* `glrcSolveRepairPlan_ok`   a plan of any policy is an invertible selection with its helpers;
* `Solves.indepCols`, `exists_solves_of_indepCols`   some selection is invertible exactly when the
  failed columns are independent;
* `planners_complete`   the four policies succeed exactly on independent columns.
-/

namespace Mlrc

open List Option Bool Nat

variable {selected l sel : List ℕ} {p : GlrcIlpRepairPlan} {f e b : ℕ}

section
variable {k r z : ℕ} {failed : List ℕ}

/-- what holds of a plan that a policy returns with success -/
structure PlanOk (k r z : ℕ) (failed : List ℕ) (plan : GlrcIlpRepairPlan) : Prop where
  success : plan.success = true
  failed_eq : plan.failedBlockIds = failed
  solves : Solves k r z failed plan.selectedEquationIndices
  helpers : plan.helperBlockIds =
    unionHelpers plan.selectedEquationIndices (allEquations k r z) failed

/-- an empty plan for `failed` -/
abbrev emptyPlan (failed : List ℕ) : GlrcIlpRepairPlan := { failedBlockIds := failed }

theorem planOf_ok (h : Solves k r z failed selected) :
    PlanOk k r z failed (planOf (allEquations k r z) selected
      (unionHelpers selected (allEquations k r z) failed) (emptyPlan failed)) where
  success := rfl
  failed_eq := rfl
  solves := h
  helpers := rfl

theorem fillPlan_ok (hsel : ∀ e ∈ selected, e < z + r)
    (h : fillPlanFromSelection k r z (allEquations k r z) failed (emptyPlan failed) selected = some p) :
    PlanOk k r z failed p := by
  unfold fillPlanFromSelection at h
  split at h
  · next hok =>
    cases h
    exact planOf_ok ((selectionOk_iff hsel).mp hok)
  · cases h

theorem fillPlan_eq_some
    (h : fillPlanFromSelection k r z (allEquations k r z) failed (emptyPlan failed) selected = some p) :
    p.selectedEquationIndices = selected ∧ p.success = true ∧
      glrcIlpDecodeMatrixInvertible k r z failed selected = true := by
  unfold fillPlanFromSelection at h
  split at h
  · next hok =>
    cases h
    exact ⟨rfl, rfl, (and_eq_true_iff.mp hok).2⟩
  · cases h

theorem fillPlan_of_solves (h : Solves k r z failed selected) (plan : GlrcIlpRepairPlan) :
    (fillPlanFromSelection k r z (allEquations k r z) failed plan selected).isSome := by
  rw [fillPlanFromSelection, if_pos ((selectionOk_iff h.1).mpr h), isSome_some]

/-! ## Independent columns -/

/-- the failed blocks' columns of the matrix of all coefficient rows -/
def failedColumns (k r z : ℕ) (failed : List ℕ) : Fin failed.length → Fin (z + r) → Gf :=
  fun t e => Gf.mk (coef k r z e (failed.get t))

theorem failedColumns_eq (k r z : ℕ) (failed : List ℕ) :
    failedColumns k r z failed = colVecs (z + r) failed.length (failedCols k r z failed) := by
  funext t e
  show Gf.mk (coef k r z e (failed.get t)) = Gf.mk (coef k r z e (failed.getD t 0))
  rw [getD_eq_getElem _ _ t.isLt]
  rfl

theorem Solves.indepCols (h : Solves k r z failed selected) :
    LinearIndependent Gf (failedColumns k r z failed) := by
  rw [failedColumns_eq]
  exact indepCols_of_rows h.length_eq h.1 h.nonsing

theorem exists_solves_of_indepCols (hne : failed ≠ [])
    (h : LinearIndependent Gf (failedColumns k r z failed)) :
    ∃ selected : List ℕ, selected.Pairwise (· < ·) ∧ Solves k r z failed selected := by
  rw [failedColumns_eq] at h
  obtain ⟨sel, hinc, hlen, hlt, hns⟩ := exists_rows_of_indepCols h
  exact ⟨sel, hinc, hlt, glrcIlpDecodeMatrixInvertible_iff.mpr ⟨hne, hlen, hns⟩⟩

/-! ## Exhaustive policies -/

theorem withCandidates_true
    {select : List GlrcEquation → List ℕ → GlrcIlpRepairPlan → Bool × GlrcIlpRepairPlan}
    (h : withCandidates select k r z failed = (true, p)) : failed ≠ [] ∧ select (allEquations k r z)
      (candidateEquations (allEquations k r z) failed) (emptyPlan failed) = (true, p) := by
  unfold withCandidates at h
  simp only at h
  split at h
  · cases h
  · next hne =>
    split at h
    · cases h
    · exact ⟨hne, h⟩

theorem length_le_of_combo {n : ℕ} {pos : List ℕ} (h : pos ∈ enumerateCombinations n f) :
    f ≤ n := by
  rw [mem_enumerateCombinations] at h
  obtain ⟨rfl, hinc, hb⟩ := h
  by_cases hnil : pos = []
  · rw [hnil]
    exact zero_le n
  · have := le_of_increasing pos 0 hinc (fun x hx => ⟨zero_le x, hb x hx⟩) hnil
    omega

theorem Solves.length_le (hinc : selected.Pairwise (· < ·)) (h : Solves k r z failed selected) :
    failed.length ≤ (candidateEquations (allEquations k r z) failed).length := by
  obtain ⟨pos, hpos, -⟩ := exists_combo hinc h
  exact length_le_of_combo hpos

theorem withCandidates_of_solves (hinc : selected.Pairwise (· < ·))
    (h : Solves k r z failed selected)
    (select : List GlrcEquation → List ℕ → GlrcIlpRepairPlan → Bool × GlrcIlpRepairPlan) :
    withCandidates select k r z failed = select (allEquations k r z)
      (candidateEquations (allEquations k r z) failed) (emptyPlan failed) := by
  rw [withCandidates, if_neg (solves_iff.mp h).1]
  exact if_neg (Nat.not_lt.mpr (h.length_le hinc))

theorem solveByScan_ok (better : List GlrcEquation → List ℕ → List ℕ → List ℕ → Bool)
    (message : String)
    (h : solveByScan better message k r z failed = (true, p)) : PlanOk k r z failed p := by
  have h := (withCandidates_true h).2
  simp only at h
  split at h
  · cases h
  · next best hbest =>
    cases h
    obtain ⟨hmem, hok⟩ := scanBest_some _ _ hbest
    obtain ⟨pos, hpos, rfl⟩ := mem_map.mp hmem
    refine planOf_ok ((selectionOk_iff fun e he => ?_).mp hok)
    exact (mem_candidates.mp (mem_of_mem_selectedOf hpos he)).1

theorem solveByScan_complete (better : List GlrcEquation → List ℕ → List ℕ → List ℕ → Bool)
    (message : String) (hinc : selected.Pairwise (· < ·))
    (h : Solves k r z failed selected) : (solveByScan better message k r z failed).1 = true := by
  obtain ⟨pos, hpos, hsel⟩ := exists_combo hinc h
  rw [solveByScan, withCandidates_of_solves hinc h]
  have hsome := (scanBest_isSome_iff (selectionOk k r z (allEquations k r z) failed)
    (better (allEquations k r z) failed) _).mpr
    ⟨selected, mem_map.mpr ⟨pos, hpos, hsel⟩, (selectionOk_iff h.1).mpr h⟩
  obtain ⟨best, hbest⟩ := isSome_iff_exists.mp hsome
  simp only
  rw [hbest]

/-! ## Local variants -/

theorem mem_replaceFirstLocal {lg : ℕ} {v : List ℕ} (h : replaceFirstLocal z lg l = some v)
    (he : e ∈ v) : e = lg ∨ e ∈ l := by
  induction l generalizing v with
  | nil => cases h
  | cons a l ih =>
    rw [replaceFirstLocal] at h
    split at h
    · cases h
      rcases mem_cons.mp he with h1 | h1
      · exact .inl h1
      · exact .inr (mem_cons_of_mem _ h1)
    · obtain ⟨w, hw, rfl⟩ := map_eq_some_iff.mp h
      rcases mem_cons.mp he with h1 | h1
      · exact .inr (h1 ▸ mem_cons_self)
      · exact (ih hw h1).imp_right (mem_cons_of_mem _)

theorem mem_localVariant {base : List ℕ} {lg : ℕ} (he : e ∈ localVariant z base lg) :
    e = lg ∨ e ∈ base := by
  unfold localVariant at he
  split at he
  · next v hv =>
    exact (mem_replaceFirstLocal hv (mem_reverse.mp he)).imp_right mem_reverse.mp
  · split at he
    · exact .inr he
    · rcases mem_append.mp he with h1 | h1
      · exact .inr (dropLast_subset base h1)
      · exact .inl (mem_singleton.mp h1)

theorem primaryEquation_lt (hz : 0 < z) (hb : b < k + r + z) :
    localThenGlobalPrimaryEquationIndex b k r z < z := by
  unfold localThenGlobalPrimaryEquationIndex
  split
  · next h => exact glrcPayloadGroupId_lt hz h
  · omega

theorem primaryEquation_lt_of_fill (hz : 0 < z)
    (h : fillPlanFromSelection k r z (allEquations k r z) failed (emptyPlan failed) selected = some p) :
    localThenGlobalPrimaryEquationIndex (failed.getD 0 0) k r z < z := by
  obtain ⟨-, -, hinv⟩ := fillPlan_eq_some h
  have hne := (glrcIlpDecodeMatrixInvertible_iff.mp hinv).1
  exact primaryEquation_lt hz (lt_of_invertible hinv (getD_mem (length_pos_of_ne_nil hne)))

theorem tryLocalVariants_ok (hz : 0 < z) {base : List ℕ} (hbase : ∀ e ∈ base, e < z + r)
    (h : tryLocalVariants base k r z failed (allEquations k r z) (emptyPlan failed) = some p) :
    PlanOk k r z failed p := by
  obtain ⟨sel, hsel, hfill⟩ := exists_of_findSome?_eq_some h
  refine fillPlan_ok (fun e he => ?_) hfill
  have hanchor := primaryEquation_lt_of_fill hz hfill
  rcases mem_cons.mp hsel with rfl | hsel
  · exact hbase e he
  · obtain ⟨lg, hlg, rfl⟩ := mem_map.mp hsel
    have hlgz : lg < z := by
      rcases mem_cons.mp (mem_filter.mp hlg).1 with rfl | h1
      · exact hanchor
      · exact mem_range.mp (mem_filter.mp h1).1
    rcases mem_localVariant he with rfl | h1
    · omega
    · exact hbase e h1

/-! ## The fallback -/

theorem comboLt_strictWeak (z : ℕ) (cand : List ℕ) : StrictWeak (comboLt z cand) where
  asymm a b h := by
    simp only [comboLt, or_eq_true, and_eq_true, decide_eq_true_eq, beq_iff_eq,
      or_eq_false_iff, and_eq_false_iff, decide_eq_false_iff_not, beq_eq_false_iff_ne] at *
    omega
  neg_trans a b c hab hbc := by
    simp only [comboLt, or_eq_false_iff, and_eq_false_iff, decide_eq_false_iff_not,
      beq_eq_false_iff_ne] at *
    omega

theorem mem_buildGlobalPrefixSelection (he : e ∈ buildGlobalPrefixSelection f r z) : e < z + r := by
  rcases mem_append.mp (mem_of_mem_take he) with h | h
  · obtain ⟨j, hj, rfl⟩ := mem_map.mp h
    have := mem_range.mp hj
    omega
  · have := mem_range.mp h
    omega

theorem tryGlobalFirstFallback_ok (S : StdSort) (hz : 0 < z)
    (h : tryGlobalFirstFallback S failed.length k r z failed (allEquations k r z)
      (candidateEquations (allEquations k r z) failed) (emptyPlan failed) = some p) :
    PlanOk k r z failed p := by
  unfold tryGlobalFirstFallback at h
  simp only at h
  split at h
  · next q hq =>
    cases h
    split at hq
    · exact tryLocalVariants_ok hz (fun e he => mem_buildGlobalPrefixSelection he) hq
    · cases hq
  · obtain ⟨pos, hpos, hfill⟩ := exists_of_findSome?_eq_some h
    have hmem := (S.perm _ _ (comboLt_strictWeak z _)).mem_iff.mp hpos
    refine fillPlan_ok (fun e he => ?_) hfill
    exact (mem_candidates.mp (mem_of_mem_selectedOf hmem he)).1

theorem tryGlobalFirstFallback_complete (S : StdSort) (hinc : selected.Pairwise (· < ·))
    (h : Solves k r z failed selected) :
    (tryGlobalFirstFallback S failed.length k r z failed (allEquations k r z)
      (candidateEquations (allEquations k r z) failed) (emptyPlan failed)).isSome := by
  unfold tryGlobalFirstFallback
  simp only
  split
  · rfl
  · obtain ⟨pos, hpos, hsel⟩ := exists_combo hinc h
    rw [findSome?_isSome_iff]
    refine ⟨pos, (S.perm _ _ (comboLt_strictWeak z _)).mem_iff.mpr hpos, ?_⟩
    rw [hsel]
    exact fillPlan_of_solves h _

theorem orError_true {plan : GlrcIlpRepairPlan} {message : String} {o : Option GlrcIlpRepairPlan}
    (hplan : plan.success = false) (h : orError plan message o = (true, p)) : o = some p := by
  cases o with
  | none =>
    rw [orError, hplan] at h
    cases h
  | some q =>
    rw [orError, Prod.mk.injEq] at h
    rw [h.2]

theorem glrcSolveRepairGlobalFirst_ok (S : StdSort) (hz : 0 < z)
    (h : glrcSolveRepairGlobalFirst S k r z failed = (true, p)) : PlanOk k r z failed p :=
  tryGlobalFirstFallback_ok S hz (orError_true rfl (withCandidates_true h).2)

theorem glrcSolveRepairGlobalFirst_complete (S : StdSort) (hz : 0 < z)
    (hinc : selected.Pairwise (· < ·)) (h : Solves k r z failed selected) :
    (glrcSolveRepairGlobalFirst S k r z failed).1 = true := by
  obtain ⟨q, hq⟩ := isSome_iff_exists.mp (tryGlobalFirstFallback_complete S hinc h)
  rw [glrcSolveRepairGlobalFirst, withCandidates_of_solves hinc h, hq]
  exact (tryGlobalFirstFallback_ok S hz hq).success

/-! ## Local-then-global -/

theorem mem_pushStep {p : List ℕ → ℕ → Bool} {a : ℕ}
    (he : e ∈ pushStep f p sel a) : e ∈ sel ∨ e = a := by
  unfold pushStep at he
  split at he
  · exact (mem_append.mp he).imp_right mem_singleton.mp
  · exact .inl he

theorem isPrefix_pushStep (f : ℕ) (p : List ℕ → ℕ → Bool) (sel : List ℕ) (a : ℕ) :
    sel <+: pushStep f p sel a := by
  unfold pushStep
  split
  · exact prefix_append sel [a]
  · exact prefix_refl sel

theorem mem_pushWhile {p : List ℕ → ℕ → Bool} (he : e ∈ pushWhile f p l sel) : e ∈ sel ∨ e ∈ l := by
  induction l generalizing sel with
  | nil => exact .inl he
  | cons a l ih =>
    rcases ih he with h | h
    · rcases mem_pushStep h with h | rfl
      · exact .inl h
      · exact .inr mem_cons_self
    · exact .inr (mem_cons_of_mem _ h)

theorem isPrefix_pushWhile (f : ℕ) (p : List ℕ → ℕ → Bool) (l sel : List ℕ) :
    sel <+: pushWhile f p l sel := by
  induction l generalizing sel with
  | nil => exact prefix_refl sel
  | cons a l ih => exact (isPrefix_pushStep f p sel a).trans (ih _)

theorem subset_pushWhile_of_short (h : (pushWhile f (fun sel e => e ∉ sel) l sel).length < f) :
    l ⊆ pushWhile f (fun sel e => e ∉ sel) l sel := by
  induction l generalizing sel with
  | nil => exact nil_subset _
  | cons a l ih =>
    refine cons_subset.mpr ⟨?_, ih h⟩
    refine (isPrefix_pushWhile f _ l _).subset ?_
    have hlen := (isPrefix_pushWhile f (fun sel e => e ∉ sel) (a :: l) sel).length_le
    unfold pushStep
    split
    · exact mem_append_right sel mem_cons_self
    · next hno =>
      by_contra hmem
      exact hno ⟨by omega, by simpa using hmem⟩

theorem mem_localEquationsByFailedCover {equations : List GlrcEquation} :
    e ∈ localEquationsByFailedCover z equations failed ↔ e < z := by
  rw [localEquationsByFailedCover, mem_insertionSort, mem_range]

theorem mem_baseSelection {equations : List GlrcEquation}
    (he : e ∈ buildLocalThenGlobalBaseSelection f k r z equations failed) : e < z + r := by
  have hglobal : ∀ e ∈ (range r).map (z + ·), e < z + r := by
    intro e he
    obtain ⟨j, hj, rfl⟩ := mem_map.mp he
    have := mem_range.mp hj
    omega
  have hlocal : ∀ e ∈ localEquationsByFailedCover z equations failed, e < z + r := by
    intro e he
    have := mem_localEquationsByFailedCover.mp he
    omega
  rcases mem_pushWhile (mem_of_mem_take he) with h | h
  · rcases mem_pushWhile h with h | h
    · rcases mem_pushWhile h with h | h
      · rcases mem_pushWhile h with h | h
        · cases h
        · exact hglobal e h
      · exact hlocal e h
    · exact hglobal e h
  · exact hlocal e h

theorem baseSelection_length (k : ℕ) (failed : List ℕ) (equations : List GlrcEquation)
    (hf : f ≤ z + r) : f ≤ (buildLocalThenGlobalBaseSelection f k r z equations failed).length := by
  unfold buildLocalThenGlobalBaseSelection
  simp only
  rw [length_take]
  set s2 := pushWhile f (fun _ lg => decide (k + r + lg ∉ failed))
    (localEquationsByFailedCover z equations failed)
    (pushWhile f (fun _ e => decide (k + (e - z) ∉ failed)) ((range r).map (z + ·)) [])
  set s3 := pushWhile f (fun sel e => decide (e ∉ sel)) ((range r).map (z + ·)) s2 with hs3
  set s4 := pushWhile f (fun sel e => decide (e ∉ sel))
    (localEquationsByFailedCover z equations failed) s3 with hs4
  by_contra hshort
  have h4 : s4.length < f := by omega
  have h3 : s3.length < f := lt_of_le_of_lt (isPrefix_pushWhile f _ _ s3).length_le h4
  -- short of `f`, the last two loops have taken all equations
  have hall : range (z + r) ⊆ s4 := by
    intro e he
    have he := mem_range.mp he
    by_cases hez : e < z
    · exact subset_pushWhile_of_short h4 (mem_localEquationsByFailedCover.mpr hez)
    · refine (isPrefix_pushWhile f _ _ s3).subset (subset_pushWhile_of_short h3 ?_)
      exact mem_map.mpr ⟨e - z, mem_range.mpr (by omega), by omega⟩
  have := (subperm_of_subset nodup_range hall).length_le
  rw [length_range] at this
  omega

theorem glrcSolveRepairLocalThenGlobal_ok (S : StdSort) (hz : 0 < z)
    (h : glrcSolveRepairLocalThenGlobal S k r z failed = (true, p)) : PlanOk k r z failed p := by
  unfold glrcSolveRepairLocalThenGlobal at h
  simp only at h
  split at h
  · cases h
  split at h
  · have hfill := orError_true rfl h
    refine fillPlan_ok (fun e he => ?_) hfill
    rw [mem_singleton.mp he]
    have := primaryEquation_lt_of_fill hz hfill
    omega
  split at h
  · cases h
  rcases or_eq_some_iff.mp (orError_true rfl h) with h1 | ⟨-, h1⟩
  · exact tryLocalVariants_ok hz (fun e he => mem_baseSelection he) h1
  · exact tryGlobalFirstFallback_ok S hz h1

theorem ofNat_xor_ne_zero {a : ℕ} (ha : a < 256) (hb : b < 256) (h : a ≠ b) :
    UInt8.ofNat (a ^^^ b) ≠ 0 := by
  intro h0
  have hlt : a ^^^ b < 2 ^ 8 := xor_lt_two_pow ha hb
  have h1 := congrArg UInt8.toNat h0
  rw [UInt8.toNat_ofNat', mod_eq_of_lt hlt] at h1
  have hab : a ^^^ b ^^^ b = 0 ^^^ b := congrArg (· ^^^ b) h1
  rw [Nat.xor_assoc, Nat.xor_self, Nat.xor_zero, Nat.zero_xor] at hab
  exact h hab

theorem primary_coef_ne_zero (hz : 0 < z) (hbyte : k + r ≤ 255) (hb : b < k + r + z) :
    coef k r z (localThenGlobalPrimaryEquationIndex b k r z) b ≠ 0 := by
  have hg := primaryEquation_lt (r := r) hz hb
  unfold localThenGlobalPrimaryEquationIndex at hg ⊢
  by_cases hpay : b < k + r
  · rw [if_pos hpay] at hg ⊢
    by_cases hdata : b < k
    · rw [coef_local_data hg hdata, if_pos rfl]
      exact gfInv_ne_zero (ofNat_xor_ne_zero (by omega) (by omega) (by omega))
    · obtain ⟨l, rfl⟩ := Nat.exists_eq_add_of_le (Nat.le_of_not_lt hdata)
      rw [coef_local_global hg (by omega), if_pos rfl]
      decide
  · obtain ⟨g, rfl⟩ := Nat.exists_eq_add_of_le (Nat.le_of_not_lt hpay)
    rw [if_neg hpay] at hg ⊢
    rw [coef_local_parity hg (by omega), if_pos (by omega)]
    decide

theorem solves_single (hz : 0 < z) (hbyte : k + r ≤ 255) (hb : b < k + r + z) :
    Solves k r z [b] [localThenGlobalPrimaryEquationIndex b k r z] := by
  refine ⟨fun e he => ?_, glrcIlpDecodeMatrixInvertible_iff.mpr ⟨by simp, rfl, fun x hx c hc => ?_⟩⟩
  · rw [mem_singleton.mp he]
    have := primaryEquation_lt (r := r) hz hb
    omega
  · obtain rfl : c = 0 := by simpa using hc
    have h0 := hx 0 (by simp)
    rw [rowVal, length_singleton, Finset.sum_range_one] at h0
    refine (mul_eq_zero.mp h0).resolve_left fun h1 => ?_
    exact primary_coef_ne_zero hz hbyte hb (Gf.mk_eq_zero.mp h1)

theorem glrcSolveRepairLocalThenGlobal_complete (S : StdSort) (hz : 0 < z) (hbyte : k + r ≤ 255)
    (hlt : ∀ b ∈ failed, b < k + r + z)
    (hinc : selected.Pairwise (· < ·)) (h : Solves k r z failed selected) :
    (glrcSolveRepairLocalThenGlobal S k r z failed).1 = true := by
  unfold glrcSolveRepairLocalThenGlobal
  simp only
  rw [if_neg (solves_iff.mp h).1]
  by_cases hone : failed.length = 1
  · obtain ⟨b, rfl⟩ := length_eq_one_iff.mp hone
    rw [if_pos hone]
    have hs := solves_single hz hbyte (hlt b mem_cons_self)
    obtain ⟨q, hq⟩ := isSome_iff_exists.mp (fillPlan_of_solves hs (emptyPlan [b]))
    show (orError _ _ (fillPlanFromSelection k r z (allEquations k r z) [b] (emptyPlan [b])
      [localThenGlobalPrimaryEquationIndex b k r z])).1 = true
    rw [hq]
    exact (fillPlan_ok hs.1 hq).success
  · rw [if_neg hone]
    have hcand : (candidateEquations (allEquations k r z) failed).length ≤ z + r := by
      rw [← allEquations_length k r z, ← length_range (n := (allEquations k r z).length)]
      exact length_filter_le _ _
    have hbase := baseSelection_length k failed (allEquations k r z)
      (le_trans (h.length_le hinc) hcand)
    obtain ⟨q, hq⟩ := isSome_iff_exists.mp (tryGlobalFirstFallback_complete S hinc h)
    show (if (buildLocalThenGlobalBaseSelection failed.length k r z (allEquations k r z)
        failed).length < failed.length then _ else
      orError _ _ ((tryLocalVariants (buildLocalThenGlobalBaseSelection failed.length k r z
        (allEquations k r z) failed) k r z failed (allEquations k r z) (emptyPlan failed)).or
        (tryGlobalFirstFallback S failed.length k r z failed (allEquations k r z)
          (candidateEquations (allEquations k r z) failed) (emptyPlan failed)))).1 = true
    rw [if_neg (by omega), hq]
    cases hv : tryLocalVariants (buildLocalThenGlobalBaseSelection failed.length k r z
        (allEquations k r z) failed) k r z failed (allEquations k r z) (emptyPlan failed) with
    | none => exact (tryGlobalFirstFallback_ok S hz hq).success
    | some q' => exact (tryLocalVariants_ok hz (fun e he => mem_baseSelection he) hv).success

/-! ## All policies -/

theorem glrcSolveRepairPlan_ok (S : StdSort) (hz : 0 < z) {policy : String}
    (h : glrcSolveRepairPlan S k r z failed policy = (true, p)) : PlanOk k r z failed p := by
  unfold glrcSolveRepairPlan at h
  simp only at h
  split at h
  · exact glrcSolveRepairLocalThenGlobal_ok S hz h
  split at h
  · exact solveByScan_ok _ _ h
  split at h
  · exact glrcSolveRepairGlobalFirst_ok S hz h
  split at h
  · exact solveByScan_ok _ _ h
  · cases h

/-- a policy that only returns invertible selections and finds one when there is an increasing one
succeeds exactly on independent columns -/
theorem success_iff_indepCols {res : Bool × GlrcIlpRepairPlan} (hne : failed ≠ [])
    (hok : ∀ p, res = (true, p) → PlanOk k r z failed p)
    (hcomplete : ∀ selected : List ℕ, selected.Pairwise (· < ·) → Solves k r z failed selected →
      res.1 = true) : res.1 = true ↔ LinearIndependent Gf (failedColumns k r z failed) := by
  constructor
  · intro h
    exact (hok res.2 (Prod.ext h rfl)).solves.indepCols
  · intro h
    obtain ⟨sel, hinc, hsel⟩ := exists_solves_of_indepCols hne h
    exact hcomplete sel hinc hsel

/-- **Completeness of the planner.**  Each of the four policies succeeds exactly when the failed
blocks' columns are independent, so they never disagree on what can be repaired. -/
theorem planners_complete (S : StdSort) {k r z : ℕ} (hz : 1 ≤ z) (hbyte : k + r ≤ 255)
    {failed : List ℕ} (hne : failed ≠ []) (hlt : ∀ b ∈ failed, b < k + r + z) :
    ((glrcSolveRepairIlp k r z failed).1 = true ↔
      LinearIndependent Gf (failedColumns k r z failed)) ∧
    ((glrcSolveRepairLocalFirst k r z failed).1 = true ↔
      LinearIndependent Gf (failedColumns k r z failed)) ∧
    ((glrcSolveRepairLocalThenGlobal S k r z failed).1 = true ↔
      LinearIndependent Gf (failedColumns k r z failed)) ∧
    ((glrcSolveRepairGlobalFirst S k r z failed).1 = true ↔
      LinearIndependent Gf (failedColumns k r z failed)) := by
  refine ⟨?_, ?_, ?_, ?_⟩
  · exact success_iff_indepCols hne (fun p h => solveByScan_ok _ _ h)
      fun sel hinc h => solveByScan_complete _ _ hinc h
  · exact success_iff_indepCols hne (fun p h => solveByScan_ok _ _ h)
      fun sel hinc h => solveByScan_complete _ _ hinc h
  · exact success_iff_indepCols hne (fun p h => glrcSolveRepairLocalThenGlobal_ok S hz h)
      fun sel hinc h => glrcSolveRepairLocalThenGlobal_complete S hz hbyte hlt hinc h
  · exact success_iff_indepCols hne (fun p h => glrcSolveRepairGlobalFirst_ok S hz h)
      fun sel hinc h => glrcSolveRepairGlobalFirst_complete S hz hinc h

theorem planners_complete_four_two_two :
    (glrcSolveRepairIlp 4 2 2 [0, 3]).1 = true ∧
      LinearIndependent Gf (failedColumns 4 2 2 [0, 3]) ∧
      (glrcSolveRepairGlobalFirst StdSort.insertion 4 2 2 [0, 3]).1 = true := by
  have h := planners_complete StdSort.insertion (k := 4) (r := 2) (z := 2) (by decide) (by decide)
    (show [0, 3] ≠ [] by decide) (by decide)
  have hilp : (glrcSolveRepairIlp 4 2 2 [0, 3]).1 = true := by decide +kernel
  exact ⟨hilp, h.1.mp hilp, h.2.2.2.mpr (h.1.mp hilp)⟩

end

end Mlrc
