import Mlrc.Repair.Tolerance
import Mlrc.Repair.Optimal

/-!
# Global equations first

The global-first policy tries the first global equations, then variants with one local equation, and
only then the combinations in the order of their global equations.

* `glrcSolveRepairGlobalFirst_cases`   the three ways to a plan;
* `LocalShortcut`   a variant is taken where other global equations would do;
* `LateGlobal`   the failed sets for which this happens, within the byte limit;
* `globalFirst_maximal_iff`   a plan has the most global equations unless the shortcut is open.
-/

namespace Mlrc

open Finset Function

variable {e b : ℕ} {p : GlrcIlpRepairPlan}

/-- the equations of the first `m` global parities -/
def firstGlobals (z m : ℕ) : List ℕ := (List.range m).map (z + ·)

/-- the number of global equations of a selection -/
def globalCount (z : ℕ) (selected : List ℕ) : ℕ := (selected.filter (z ≤ ·)).length

section
variable {k r z f : ℕ} {failed selected : List ℕ}

theorem mem_firstGlobals {m : ℕ} : e ∈ firstGlobals z m ↔ z ≤ e ∧ e < z + m := by
  unfold firstGlobals
  rw [List.mem_map]
  constructor
  · rintro ⟨j, hj, rfl⟩
    have := List.mem_range.mp hj
    omega
  · intro h
    exact ⟨e - z, List.mem_range.mpr (by omega), by omega⟩

theorem firstGlobals_length (z m : ℕ) : (firstGlobals z m).length = m := by
  rw [firstGlobals, List.length_map, List.length_range]

theorem firstGlobals_succ (z m : ℕ) : firstGlobals z (m + 1) = firstGlobals z m ++ [z + m] := by
  unfold firstGlobals
  rw [List.range_succ, List.map_append]
  rfl

theorem globalCount_append (z : ℕ) (a b : List ℕ) :
    globalCount z (a ++ b) = globalCount z a + globalCount z b := by
  unfold globalCount
  rw [List.filter_append, List.length_append]

theorem globalCount_firstGlobals (z m : ℕ) : globalCount z (firstGlobals z m) = m := by
  unfold globalCount
  rw [List.filter_eq_self.mpr, firstGlobals_length]
  intro e he
  exact decide_eq_true (mem_firstGlobals.mp he).1

theorem globalCount_singleton (h : e < z) : globalCount z [e] = 0 := by
  unfold globalCount
  rw [List.filter_eq_nil_iff.mpr, List.length_nil]
  simpa using h

/-! ## The first selections -/

theorem buildGlobalPrefixSelection_few (hf : f ≤ r) :
    buildGlobalPrefixSelection f r z = firstGlobals z f := by
  unfold buildGlobalPrefixSelection firstGlobals
  rw [List.take_append_of_le_length (by simpa using hf), ← List.map_take, List.take_range,
    min_eq_left hf]

theorem buildGlobalPrefixSelection_many (hf : r ≤ f) :
    buildGlobalPrefixSelection f r z = firstGlobals z r ++ List.range (min (f - r) z) := by
  unfold buildGlobalPrefixSelection firstGlobals
  rw [List.take_append, List.take_of_length_le (by simpa using hf), List.length_map, List.length_range,
    List.take_range]

theorem localVariant_of_globals (lg m : ℕ) :
    localVariant z (firstGlobals z (m + 1)) lg = firstGlobals z m ++ [lg] := by
  have hnone : ∀ l : List ℕ, (∀ e ∈ l, z ≤ e) → replaceFirstLocal z lg l = none := by
    intro l hl
    induction l with
    | nil => rfl
    | cons a l ih =>
      have ha := hl a List.mem_cons_self
      rw [replaceFirstLocal, if_neg (by omega), ih fun e he => hl e (List.mem_cons_of_mem _ he)]
      rfl
  unfold localVariant
  rw [hnone _ fun e he => (mem_firstGlobals.mp (List.mem_reverse.mp he)).1]
  simp only
  rw [firstGlobals_succ, if_neg (by simp), List.dropLast_concat]

theorem localVariant_of_local {a lg : ℕ} (base : List ℕ) (ha : a < z) :
    localVariant z (base ++ [a]) lg = base ++ [lg] := by
  unfold localVariant
  rw [List.reverse_append, List.reverse_singleton, List.singleton_append, replaceFirstLocal, if_pos ha]
  simp

/-! ## Where a plan comes from -/

theorem tryLocalVariants_cases (hz : 0 < z ∨ 0 ∈ selected)
    (h : tryLocalVariants selected k r z failed (allEquations k r z) (emptyPlan failed) = some p) :
    p.success = true ∧ glrcIlpDecodeMatrixInvertible k r z failed p.selectedEquationIndices = true ∧
    (p.selectedEquationIndices = selected ∨
      fillPlanFromSelection k r z (allEquations k r z) failed (emptyPlan failed) selected = none ∧
      ∃ lg < z, p.selectedEquationIndices = localVariant z selected lg) := by
  unfold tryLocalVariants at h
  simp only at h
  rw [List.findSome?_cons] at h
  cases hbase : fillPlanFromSelection k r z (allEquations k r z) failed (emptyPlan failed) selected with
  | some q =>
    rw [hbase] at h
    cases h
    obtain ⟨hsel, hsucc, hinv⟩ := fillPlan_eq_some hbase
    exact ⟨hsucc, hsel ▸ hinv, .inl hsel⟩
  | none =>
    rw [hbase] at h
    obtain ⟨sel, hmem, hfill⟩ := List.exists_of_findSome?_eq_some h
    obtain ⟨hsel, hsucc, hinv⟩ := fillPlan_eq_some hfill
    obtain ⟨lg, hlg, rfl⟩ := List.mem_map.mp hmem
    refine ⟨hsucc, hsel ▸ hinv, .inr ⟨rfl, lg, ?_, hsel⟩⟩
    obtain ⟨htry, hnot⟩ := List.mem_filter.mp hlg
    rcases List.mem_cons.mp htry with rfl | hrange
    · have hne := (glrcIlpDecodeMatrixInvertible_iff.mp hinv).1
      have hlt := lt_of_invertible hinv (getD_mem (l := failed) (List.length_pos_of_ne_nil hne))
      rcases Nat.eq_zero_or_pos z with rfl | hpos
      · -- without local groups the index is that of an equation in the base
        have hzero : localThenGlobalPrimaryEquationIndex (failed.getD 0 0) k r 0 = 0 := by
          rw [localThenGlobalPrimaryEquationIndex, if_pos (by omega)]
          rfl
        rw [hzero] at hnot
        exact absurd (hz.resolve_left (lt_irrefl 0)) (of_decide_eq_true hnot)
      · exact primaryEquation_lt hpos hlt
    · exact List.mem_range.mp (List.mem_filter.mp hrange).1

theorem Solves.globalCount_le (h : Solves k r z failed selected) :
    globalCount z selected ≤ failed.length ∧ globalCount z selected ≤ r := by
  constructor
  · rw [← h.length_eq]
    exact List.length_filter_le _ _
  · have hsub : selected.filter (z ≤ ·) ⊆ firstGlobals z r := by
      intro e he
      obtain ⟨hmem, hge⟩ := List.mem_filter.mp he
      exact mem_firstGlobals.mpr ⟨of_decide_eq_true hge, h.1 e hmem⟩
    have hle := (List.subperm_of_subset (h.nodup.filter _) hsub).length_le
    rwa [firstGlobals_length] at hle

theorem comboLt_eq_false {cand a b : List ℕ} (h : comboLt z cand a b = false) :
    globalCount z (selectedOf cand a) ≤ globalCount z (selectedOf cand b) := by
  rw [comboLt, Bool.or_eq_false_iff, decide_eq_false_iff_not] at h
  have hfirst : ¬ -(globalCount z (selectedOf cand a) : ℤ) < -(globalCount z (selectedOf cand b) : ℤ) := h.1
  omega

theorem tryLocalVariants_few (hne : failed ≠ [])
    (h : tryLocalVariants (firstGlobals z failed.length) k r z failed (allEquations k r z)
      (emptyPlan failed) = some p) : failed.length ≤ globalCount z p.selectedEquationIndices ∨
    ¬ Solves k r z failed (firstGlobals z failed.length) ∧
      ∃ lg < z, p.selectedEquationIndices = firstGlobals z (failed.length - 1) ++ [lg] ∧
        glrcIlpDecodeMatrixInvertible k r z failed p.selectedEquationIndices = true := by
  have hpos := List.length_pos_of_ne_nil hne
  have hz : 0 < z ∨ 0 ∈ firstGlobals z failed.length := by
    rcases Nat.eq_zero_or_pos z with rfl | hz
    · exact .inr (mem_firstGlobals.mpr (by omega))
    · exact .inl hz
  obtain ⟨-, hinv, hsel | ⟨hbase, lg, hlg, hsel⟩⟩ := tryLocalVariants_cases hz h
  · rw [hsel, globalCount_firstGlobals]
    exact .inl le_rfl
  · refine .inr ⟨fun hs => ?_, lg, hlg, ?_, hinv⟩
    · have := fillPlan_of_solves hs (emptyPlan failed)
      rw [hbase] at this
      cases this
    · obtain ⟨m, hm⟩ := Nat.exists_eq_succ_of_ne_zero (ne_of_gt hpos)
      rw [hsel, hm, localVariant_of_globals]
      rfl

theorem tryLocalVariants_many (hlen : r < failed.length)
    (hfull : (buildGlobalPrefixSelection failed.length r z).length = failed.length)
    (h : tryLocalVariants (buildGlobalPrefixSelection failed.length r z) k r z failed
      (allEquations k r z) (emptyPlan failed) = some p) :
    r ≤ globalCount z p.selectedEquationIndices := by
  rw [buildGlobalPrefixSelection_many (le_of_lt hlen)] at h hfull
  rw [List.length_append, firstGlobals_length, List.length_range] at hfull
  obtain ⟨m, hm⟩ : ∃ m, min (failed.length - r) z = m + 1 :=
    Nat.exists_eq_succ_of_ne_zero (by omega)
  obtain ⟨-, -, hsel | ⟨-, lg, -, hsel⟩⟩ := tryLocalVariants_cases (.inl (by omega)) h
  · rw [hsel, globalCount_append, globalCount_firstGlobals]
    exact Nat.le_add_right r _
  · rw [hsel, hm, List.range_succ, ← List.append_assoc, localVariant_of_local _ (by omega),
      List.append_assoc, globalCount_append, globalCount_firstGlobals]
    exact Nat.le_add_right r _

theorem glrcSolveRepairGlobalFirst_cases (S : StdSort) {plan : GlrcIlpRepairPlan}
    (h : glrcSolveRepairGlobalFirst S k r z failed = (true, plan)) :
    (failed.length ≤ globalCount z plan.selectedEquationIndices ∨
      r ≤ globalCount z plan.selectedEquationIndices) ∨
    (failed.length ≤ r ∧ ¬ Solves k r z failed (firstGlobals z failed.length) ∧
      ∃ lg < z, plan.selectedEquationIndices = firstGlobals z (failed.length - 1) ++ [lg] ∧
        glrcIlpDecodeMatrixInvertible k r z failed plan.selectedEquationIndices = true) ∨
    ∀ sel : List ℕ, sel.Pairwise (· < ·) → Solves k r z failed sel →
      globalCount z sel ≤ globalCount z plan.selectedEquationIndices := by
  obtain ⟨hne, h⟩ := withCandidates_true h
  have hsome := orError_true rfl h
  unfold tryGlobalFirstFallback at hsome
  simp only at hsome
  split at hsome
  · next q hq =>
    cases hsome
    split at hq
    · next hfull =>
      rcases lt_or_ge r failed.length with hmany | hfew
      · exact .inl (.inr (tryLocalVariants_many hmany hfull hq))
      · rw [buildGlobalPrefixSelection_few hfew] at hq
        rcases tryLocalVariants_few hne hq with hall | hvar
        · exact .inl (.inl hall)
        · exact .inr (.inl ⟨hfew, hvar⟩)
    · cases hq
  · refine .inr (.inr fun sel hinc hsel => ?_)
    have hweak := comboLt_strictWeak z (candidateEquations (allEquations k r z) failed)
    obtain ⟨pos, -, hfill, hfirst⟩ := findSome?_sorted hweak (S.sorted _ _ hweak) hsome
    obtain ⟨pos', hpos', rfl⟩ := exists_combo hinc hsel
    rw [(fillPlan_eq_some hfill).1]
    refine comboLt_eq_false (hfirst pos' ((S.perm _ _ hweak).mem_iff.mpr hpos') ?_)
    exact fillPlan_of_solves hsel _

/-! ## When a global equation is given up -/

/-- the first global equations are not invertible, a local one in place of the last of them makes them
so, and other global equations would do as well -/
structure LocalShortcut (k r z : ℕ) (failed : List ℕ) : Prop where
  few : failed.length ≤ r
  first : glrcIlpDecodeMatrixInvertible k r z failed (firstGlobals z failed.length) = false
  withLocal : ∃ lg < z, glrcIlpDecodeMatrixInvertible k r z failed
    (firstGlobals z (failed.length - 1) ++ [lg]) = true
  otherGlobals : ∃ T : Finset ℕ, (∀ e ∈ T, z ≤ e ∧ e < z + r) ∧
    glrcIlpDecodeMatrixInvertible k r z failed T.sort = true

theorem globalCount_sort (z : ℕ) (T : Finset ℕ) : globalCount z T.sort = (T.filter (z ≤ ·)).card := by
  unfold globalCount
  rw [← List.toFinset_card_of_nodup ((T.sort_nodup _).filter _)]
  congr 1
  ext e
  simp only [List.mem_toFinset, List.mem_filter, mem_sort, mem_filter, decide_eq_true_eq]

theorem LocalShortcut.plan (S : StdSort) (h : LocalShortcut k r z failed) :
    ∃ plan, glrcSolveRepairGlobalFirst S k r z failed = (true, plan) ∧
      globalCount z plan.selectedEquationIndices < failed.length := by
  obtain ⟨T, hT, hTinv⟩ := h.otherGlobals
  obtain ⟨lg, hlg, hinv⟩ := h.withLocal
  have hne := (glrcIlpDecodeMatrixInvertible_iff.mp hTinv).1
  have hpos := List.length_pos_of_ne_nil hne
  have hTsol : Solves k r z failed T.sort := ⟨fun e he => (hT e ((mem_sort _).mp he)).2, hTinv⟩
  have hvar : Solves k r z failed (firstGlobals z (failed.length - 1) ++ [lg]) := by
    refine ⟨fun e he => ?_, hinv⟩
    have hfew := h.few
    rw [List.mem_append, mem_firstGlobals, List.mem_singleton] at he
    omega
  -- the variant is tried, so the search ends with some variant
  have hsome : (tryLocalVariants (firstGlobals z failed.length) k r z failed (allEquations k r z)
      (emptyPlan failed)).isSome := by
    unfold tryLocalVariants
    simp only
    rw [List.findSome?_isSome_iff]
    refine ⟨_, List.mem_cons_of_mem _ (List.mem_map.mpr ⟨lg, List.mem_filter.mpr ⟨?_, ?_⟩, rfl⟩), ?_⟩
    · rw [List.mem_cons, List.mem_filter, List.mem_range, decide_eq_true_eq]
      by_cases ha : lg = localThenGlobalPrimaryEquationIndex (failed.getD 0 0) k r z
      · exact .inl ha
      · exact .inr ⟨hlg, ha⟩
    · rw [decide_eq_true_eq, mem_firstGlobals]
      omega
    · obtain ⟨m, hm⟩ := Nat.exists_eq_succ_of_ne_zero (ne_of_gt hpos)
      rw [hm] at hvar ⊢
      rw [localVariant_of_globals]
      exact fillPlan_of_solves hvar _
  obtain ⟨p, hp⟩ := Option.isSome_iff_exists.mp hsome
  have hplan : glrcSolveRepairGlobalFirst S k r z failed = (true, p) := by
    have htry : tryGlobalFirstFallback S failed.length k r z failed (allEquations k r z)
        (candidateEquations (allEquations k r z) failed) (emptyPlan failed) = some p := by
      unfold tryGlobalFirstFallback
      simp only
      rw [buildGlobalPrefixSelection_few h.few, if_pos (firstGlobals_length z _), hp]
    rw [glrcSolveRepairGlobalFirst, withCandidates_of_solves T.sortedLT_sort.pairwise hTsol, htry]
    exact Prod.ext (tryLocalVariants_cases (.inl (by omega)) hp).1 rfl
  refine ⟨p, hplan, ?_⟩
  obtain ⟨-, hpinv, hsel | ⟨-, lg', hlg', hsel⟩⟩ := tryLocalVariants_cases (.inl (by omega)) hp
  · rw [hsel, h.first] at hpinv
    cases hpinv
  · obtain ⟨m, hm⟩ := Nat.exists_eq_succ_of_ne_zero (ne_of_gt hpos)
    rw [hsel, hm, localVariant_of_globals, globalCount_append, globalCount_firstGlobals,
      globalCount_singleton hlg']
    omega

theorem globalFirst_maximal_iff_not_shortcut (S : StdSort) :
    (∀ plan, glrcSolveRepairGlobalFirst S k r z failed = (true, plan) →
      ∀ T : Finset ℕ, (∀ e ∈ T, e < z + r) → Solves k r z failed T.sort →
        (T.filter (z ≤ ·)).card ≤ globalCount z plan.selectedEquationIndices) ↔
    ¬ LocalShortcut k r z failed := by
  constructor
  · intro hmax h
    obtain ⟨plan, hplan, hless⟩ := h.plan S
    obtain ⟨T, hT, hTinv⟩ := h.otherGlobals
    have hTsol : Solves k r z failed T.sort := ⟨fun e he => (hT e ((mem_sort _).mp he)).2, hTinv⟩
    have hle := hmax plan hplan T (fun e he => (hT e he).2) hTsol
    rw [filter_true_of_mem fun e he => (hT e he).1, ← length_sort (· ≤ ·), hTsol.length_eq] at hle
    omega
  · intro hno plan hplan T hT hTsol
    have hle := hTsol.globalCount_le
    rw [← globalCount_sort]
    rcases glrcSolveRepairGlobalFirst_cases S hplan with
      hall | ⟨hfew, hbase, lg, hlg, hsel, hinv⟩ | hbest
    · omega
    · -- one global equation short of all; a set of more has global equations only
      rw [hsel, globalCount_append, globalCount_firstGlobals, globalCount_singleton hlg]
      by_contra hmore
      refine hno ⟨hfew, ?_, ⟨lg, hlg, hsel ▸ hinv⟩, T, fun e he => ⟨?_, hT e he⟩, hTsol.2⟩
      · refine Bool.eq_false_iff.mpr fun htrue => hbase ⟨fun e he => ?_, htrue⟩
        have := mem_firstGlobals.mp he
        omega
      · have hcount : globalCount z T.sort = T.sort.length := by
          rw [hTsol.length_eq]
          omega
        exact of_decide_eq_true (List.length_filter_eq_length_iff.mp hcount e ((mem_sort _).mpr he))
    · exact hbest T.sort T.sortedLT_sort.pairwise hTsol

/-! ## The same for stripes within the byte limit -/

/-- errors on the data and the first `m` global parities, no more than `m` of them, are seen by the
first `m` global equations -/
theorem eq_zero_of_firstGlobals {m : ℕ} (hm : m ≤ r) (hbyte : k + r ≤ 256) {x : ℕ → Gf} {F : Finset ℕ}
    (hF : ∀ b ∉ F, x b = 0) (hcard : F.card ≤ m) (hlt : ∀ b ∈ F, b < k + m)
    (heq : ∀ e ∈ firstGlobals z m, eqValue k r z e x = 0) (b : ℕ) : x b = 0 := by
  have hout : ∀ b, k + m ≤ b → x b = 0 := by
    intro b hb
    refine hF b fun hmem => ?_
    have := hlt b hmem
    omega
  have hrow : ∀ j < m, ∑ b ∈ range k, (gfOfNat (k + j) - gfOfNat b)⁻¹ * x b + x (k + j) = 0 := by
    intro j hj
    have hj' : j < r := lt_of_lt_of_le hj hm
    exact (globalRow hj' x).symm.trans (heq _ (mem_firstGlobals.mpr (by omega)))
  -- the errors are data blocks or global parities
  have hsplit : ((range k).filter (x · ≠ 0)).card + ((range m).filter fun l => x (k + l) ≠ 0).card ≤ m := by
    have hsub : (range (k + m)).filter (x · ≠ 0) ⊆ F := by
      intro b hb
      by_contra hno
      exact (mem_filter.mp hb).2 (hF b hno)
    have hle := (card_le_card hsub).trans hcard
    rwa [card_filter, sum_range_add, ← card_filter, ← card_filter] at hle
  have hrest : ((range m).filter (fun l => x (k + l) = 0)).card +
      ((range m).filter fun l => x (k + l) ≠ 0).card = m := by
    rw [card_filter_add_card_filter_not, card_range]
  have hdata : ∀ b < k, x b = 0 := by
    intro b hb
    rcases Nat.eq_zero_or_pos m with rfl | hpos
    · exact hF b fun hmem => absurd (card_pos.mpr ⟨b, hmem⟩) (by omega)
    · refine data_eq_zero_of_rows (r := r - 1) (by omega) ((range m).filter fun l => x (k + l) = 0)
        (fun j hj => ?_) (by omega) (fun j hj => ?_) hb
      · have := mem_range.mp (mem_filter.mp hj).1
        omega
      · obtain ⟨hj, h0⟩ := mem_filter.mp hj
        have := hrow j (mem_range.mp hj)
        rwa [h0, add_zero] at this
  rcases lt_or_ge b k with hbk | hbk
  · exact hdata b hbk
  rcases lt_or_ge b (k + m) with hbm | hbm
  · obtain ⟨j, rfl⟩ := exists_add_of_le hbk
    have := hrow j (by omega)
    rwa [sum_eq_zero fun b hb => by rw [hdata b (mem_range.mp hb), mul_zero], zero_add] at this
  · exact hout b hbm

/-- a failed global parity behind the others, which are data or among the first global parities -/
structure LateGlobal (k r : ℕ) (failed : List ℕ) (b : ℕ) : Prop where
  mem : b ∈ failed
  late : k + failed.length ≤ b
  lt : b < k + r
  others : ∀ c ∈ failed, c ≠ b → c + 1 < k + failed.length

theorem coef_global_of_ne {j : ℕ} (hj : j < r) (hk : k ≤ b) (hb : b < k + r + z) (hne : b ≠ k + j) :
    coef k r z (z + j) b = 0 := by
  rw [coef_global_eq hj hb, if_neg hne, if_neg (by omega)]

theorem LateGlobal.solves (h : LateGlobal k r failed b) (hbyte : k + r ≤ 256)
    (hnd : failed.Nodup) (he : e < z + r) (hcoef : coef k r z e b ≠ 0) :
    Solves k r z failed (firstGlobals z (failed.length - 1) ++ [e]) := by
  have hpos := List.length_pos_of_mem h.mem
  have hlate := h.late
  have hb := h.lt
  have hlt : ∀ c ∈ failed, c < k + r + z := by
    intro c hc
    by_cases hcb : c = b
    · omega
    · have := h.others c hc hcb
      omega
  have hsel : ∀ e' ∈ firstGlobals z (failed.length - 1) ++ [e], e' < z + r := by
    intro e' he'
    rw [List.mem_append, mem_firstGlobals, List.mem_singleton] at he'
    omega
  have hlen : (firstGlobals z (failed.length - 1) ++ [e]).length = failed.length := by
    rw [List.length_append, firstGlobals_length, List.length_singleton]
    omega
  refine (solves_iff_errors hnd hlt (List.ne_nil_of_mem h.mem) hlen hsel).mpr fun x hx heq => ?_
  -- the first global equations do not see the error of the late parity
  have hrest : ∀ c, c ≠ b → x c = 0 := by
    intro c hcb
    have hzero := eq_zero_of_firstGlobals (z := z) (m := failed.length - 1) (by omega) hbyte
      (x := update x b 0) (F := failed.toFinset.erase b) ?_ ?_ ?_ ?_ c
    · rwa [update_of_ne hcb] at hzero
    · intro c hc
      by_cases hcb : c = b
      · rw [hcb, update_self]
      · rw [update_of_ne hcb]
        exact hx c fun hmem => hc (mem_erase.mpr ⟨hcb, List.mem_toFinset.mpr hmem⟩)
    · rw [card_erase_of_mem (List.mem_toFinset.mpr h.mem), List.toFinset_card_of_nodup hnd]
    · intro c hc
      obtain ⟨hcb, hmem⟩ := mem_erase.mp hc
      have := h.others c (List.mem_toFinset.mp hmem) hcb
      omega
    · intro e' he'
      rw [← heq e' (List.mem_append_left _ he')]
      refine sum_congr rfl fun c hc => ?_
      by_cases hcb : c = b
      · obtain ⟨hge, hlt'⟩ := mem_firstGlobals.mp he'
        obtain ⟨j, rfl⟩ := exists_add_of_le hge
        rw [hcb, coef_global_of_ne (by omega) (by omega) (by omega) (by omega), Gf.mk_zero, zero_mul,
          zero_mul]
      · rw [update_of_ne hcb]
  intro c hc
  by_cases hcb : c = b
  · have hlast := heq e (List.mem_append_right _ (List.mem_singleton_self e))
    rw [eqValue, sum_eq_single b (fun c _ hne => by rw [hrest c hne, mul_zero])
      (fun hno => absurd (mem_range.mpr (by omega)) hno)] at hlast
    rw [hcb]
    exact (mul_eq_zero.mp hlast).resolve_left fun h0 => hcoef (Gf.mk_eq_zero.mp h0)
  · exact hrest c hcb

theorem LateGlobal.shortcut (h : LateGlobal k r failed b) (hz : 0 < z) (hbyte : k + r ≤ 256)
    (hnd : failed.Nodup) : LocalShortcut k r z failed := by
  have hlate := h.late
  have hb := h.lt
  have hpos := List.length_pos_of_mem h.mem
  obtain ⟨l, rfl⟩ := exists_add_of_le (show k ≤ b by omega)
  refine ⟨by omega, ?_, ?_, ?_⟩
  · refine Bool.eq_false_iff.mpr fun hinv => ?_
    have hsol : Solves k r z failed (firstGlobals z failed.length) :=
      ⟨fun e he => by have := mem_firstGlobals.mp he; omega, hinv⟩
    obtain ⟨e, he, hin⟩ := hsol.covers h.mem
    obtain ⟨hge, hlt⟩ := mem_firstGlobals.mp he
    obtain ⟨j, rfl⟩ := exists_add_of_le hge
    rw [involvedBlocks_global (by omega), List.mem_append, List.mem_range, List.mem_singleton] at hin
    omega
  · have hg := glrcPayloadGroupId_lt hz hb
    refine ⟨glrcPayloadGroupId (k + l) k r z, hg, (h.solves hbyte hnd (by omega) ?_).2⟩
    rw [coef_local_global hg (by omega), if_pos rfl]
    decide
  · have hsol := h.solves (z := z) hbyte hnd (e := z + l) (by omega) (by
      rw [coef_global_eq (by omega) (by omega), if_pos rfl]
      decide)
    have hsort : (firstGlobals z (failed.length - 1) ++ [z + l]).toFinset.sort =
        firstGlobals z (failed.length - 1) ++ [z + l] := by
      refine (List.toFinset_sort _ hsol.nodup).mpr (List.pairwise_append.mpr ⟨?_, by simp, ?_⟩)
      · exact List.pairwise_map.mpr (List.pairwise_le_range.imp fun hle => Nat.add_le_add_left hle z)
      · intro e he e' he'
        rw [List.mem_singleton.mp he']
        have := mem_firstGlobals.mp he
        omega
    refine ⟨(firstGlobals z (failed.length - 1) ++ [z + l]).toFinset, fun e he => ?_, ?_⟩
    · rw [List.mem_toFinset, List.mem_append, mem_firstGlobals, List.mem_singleton] at he
      omega
    · rw [hsort]
      exact hsol.2

theorem Solves.not_both_in_one {c : ℕ} (h : Solves k r z failed selected) (hnd : failed.Nodup)
    (hb : b ∈ failed) (hc : c ∈ failed) (hbc : b ≠ c)
    (hb0 : ∀ e' ∈ selected, e' ≠ e → coef k r z e' b = 0)
    (hc0 : ∀ e' ∈ selected, e' ≠ e → coef k r z e' c = 0) : False := by
  have hlt : ∀ b ∈ failed, b < k + r + z := fun b hb => h.lt hb
  have herr := (solves_iff_errors hnd hlt (List.ne_nil_of_mem hb) h.length_eq h.1).mp h
  have hbn := mem_range.mpr (hlt b hb)
  have hcn := mem_range.mpr (hlt c hc)
  -- errors that cancel each other in equation `e`, unless it has no coefficient for `b` at all
  let x : ℕ → Gf := fun a => if a = b then Gf.mk (coef k r z e c) else
    if a = c then Gf.mk (coef k r z e b) else 0
  have hxb : x b = Gf.mk (coef k r z e c) := if_pos rfl
  have hxc : x c = Gf.mk (coef k r z e b) := by
    show (if c = b then _ else if c = c then _ else _) = _
    rw [if_neg (Ne.symm hbc), if_pos rfl]
  have hx0 : ∀ a, a ≠ b ∧ a ≠ c → x a = 0 := by
    intro a ha
    show (if a = b then _ else if a = c then _ else _) = _
    rw [if_neg ha.1, if_neg ha.2]
  have hval : ∀ e', eqValue k r z e' x =
      Gf.mk (coef k r z e' b) * x b + Gf.mk (coef k r z e' c) * x c := by
    intro e'
    exact sum_eq_add b c hbc (fun a _ ha => by rw [hx0 a ha, mul_zero]) (fun hno => absurd hbn hno)
      (fun hno => absurd hcn hno)
  have hzero := herr x (fun a ha => hx0 a ⟨fun hab => ha (hab ▸ hb), fun hac => ha (hac ▸ hc)⟩)
    (fun e' he' => ?_)
  · have hcoef : ∀ e' ∈ selected, coef k r z e' b = 0 := by
      intro e' he'
      by_cases hee : e' = e
      · rw [hee]
        exact Gf.mk_eq_zero.mp (hxc.symm.trans (hzero c hc))
      · exact hb0 e' he' hee
    -- a column of zeros
    have hone := herr (fun a => if a = b then 1 else 0)
      (fun a ha => if_neg fun hab : a = b => ha (hab ▸ hb))
      (fun e' he' => ?_) b hb
    · rw [if_pos rfl] at hone
      exact one_ne_zero hone
    · rw [eqValue, sum_eq_single b (fun a _ hne => by rw [if_neg hne, mul_zero])
        (fun hno => absurd hbn hno), hcoef e' he', Gf.mk_zero, zero_mul]
  · rw [hval]
    by_cases hee : e' = e
    · rw [hee, hxb, hxc, mul_comm, CharTwo.add_self_eq_zero]
    · rw [hb0 e' he' hee, hc0 e' he' hee, Gf.mk_zero, zero_mul, zero_mul, add_zero]

theorem LocalShortcut.exists_lateGlobal (h : LocalShortcut k r z failed) (hbyte : k + r ≤ 256)
    (hnd : failed.Nodup) : ∃ b, LateGlobal k r failed b := by
  have hfew := h.few
  obtain ⟨T, hT, hTinv⟩ := h.otherGlobals
  have hTsol : Solves k r z failed T.sort := ⟨fun e he => (hT e ((mem_sort _).mp he)).2, hTinv⟩
  have hne := (solves_iff.mp hTsol).1
  have hlt : ∀ b ∈ failed, b < k + r + z := fun b hb => hTsol.lt hb
  -- global equations alone cannot repair a local parity
  have hglobal : ∀ b ∈ failed, b < k + r := by
    intro b hb
    obtain ⟨e, he, hin⟩ := hTsol.covers hb
    obtain ⟨hge, he⟩ := hT e ((mem_sort _).mp he)
    obtain ⟨j, rfl⟩ := exists_add_of_le hge
    rw [involvedBlocks_global (by omega), List.mem_append, List.mem_range, List.mem_singleton] at hin
    omega
  obtain ⟨b, hb, hlate⟩ : ∃ b ∈ failed, k + failed.length ≤ b := by
    by_contra hnone
    push Not at hnone
    have hsel : ∀ e ∈ firstGlobals z failed.length, e < z + r := by
      intro e he
      have := mem_firstGlobals.mp he
      omega
    have hsol := (solves_iff_errors hnd hlt hne (firstGlobals_length z _) hsel).mpr fun x hx heq b _ =>
      eq_zero_of_firstGlobals hfew hbyte (F := failed.toFinset)
        (fun b hb => hx b fun hmem => hb (List.mem_toFinset.mpr hmem)) failed.toFinset_card_le
        (fun b hb => hnone b (List.mem_toFinset.mp hb)) heq b
    exact absurd (hsol.2.symm.trans h.first) (by decide)
  refine ⟨b, hb, hlate, hglobal b hb, fun c hc hcb => ?_⟩
  by_contra hge
  obtain ⟨lg, hlg, hinv⟩ := h.withLocal
  have hsel : ∀ e ∈ firstGlobals z (failed.length - 1) ++ [lg],
      e = lg ∨ ∃ j, e = z + j ∧ k + j < c ∧ k + j < b ∧ j < r := by
    intro e he
    rw [List.mem_append, mem_firstGlobals, List.mem_singleton] at he
    rcases he with he | he
    · exact .inr ⟨e - z, by omega⟩
    · exact .inl he
  have hsol : Solves k r z failed (firstGlobals z (failed.length - 1) ++ [lg]) := by
    refine ⟨fun e he => ?_, hinv⟩
    rcases hsel e he with rfl | ⟨j, rfl, -, -, hj⟩ <;> omega
  refine hsol.not_both_in_one (e := lg) hnd hb hc (Ne.symm hcb) (fun e he hne => ?_) fun e he hne => ?_
  · obtain ⟨j, rfl, hjc, hjb, hj⟩ := (hsel e he).resolve_left hne
    exact coef_global_of_ne hj (by omega) (hlt b hb) (by omega)
  · obtain ⟨j, rfl, hjc, hjb, hj⟩ := (hsel e he).resolve_left hne
    exact coef_global_of_ne hj (by omega) (hlt c hc) (by omega)

end

/-- **Main result.**  A plan of the global-first policy has the most global equations of all invertible
equation sets, unless the shortcut is open: a local equation takes the place of a global one where other
global equations would do.  Within the byte limit that is when one failed global parity lies behind the
first ones and all other failed blocks before these. -/
theorem globalFirst_maximal_iff (S : StdSort) (k r z : ℕ) (failed : List ℕ) :
    ((∀ plan, glrcSolveRepairGlobalFirst S k r z failed = (true, plan) →
        ∀ T : Finset ℕ, T.card = failed.length → (∀ e ∈ T, e < z + r) →
          IsUnit (toMatrix failed.length (toGf (failedMatrix k r z failed T.sort))) →
          (T.filter (z ≤ ·)).card ≤ (plan.selectedEquationIndices.filter (z ≤ ·)).length) ↔
      ¬ LocalShortcut k r z failed) ∧
    (1 ≤ z → k + r ≤ 256 → failed.Nodup →
      (LocalShortcut k r z failed ↔ ∃ b, LateGlobal k r failed b)) := by
  refine ⟨?_, fun hz hbyte hnd => ⟨fun h => h.exists_lateGlobal hbyte hnd, fun ⟨b, h⟩ =>
    h.shortcut hz hbyte hnd⟩⟩
  rw [← globalFirst_maximal_iff_not_shortcut S]
  refine forall₂_congr fun plan hplan => forall_congr' fun T => ?_
  have hne : failed ≠ [] := by
    rintro rfl
    cases hplan
  constructor
  · intro h hT hsol
    obtain ⟨-, hlen, -, hunit⟩ := solves_iff.mp hsol
    exact h (by rw [← hlen, length_sort]) hT hunit
  · intro h hcard hT hunit
    refine h hT (solves_iff.mpr ⟨hne, ?_, fun e he => hT e ((mem_sort _).mp he), hunit⟩)
    rw [length_sort, hcard]

/-- the second global parity of a (4, 2, 2) stripe is repaired by its local equation, though its own
global equation would do -/
theorem second_global_parity_repaired_locally :
    (glrcSolveRepairGlobalFirst StdSort.insertion 4 2 2 [5]).1 = true ∧
    (glrcSolveRepairGlobalFirst StdSort.insertion 4 2 2 [5]).2.selectedEquationIndices = [1] ∧
    (([1] : List ℕ).filter (2 ≤ ·)).length = 0 ∧
    ({3} : Finset ℕ).card = 1 ∧
    IsUnit (toMatrix 1 (toGf (failedMatrix 4 2 2 [5] ({3} : Finset ℕ).sort))) ∧
    (({3} : Finset ℕ).filter (2 ≤ ·)).card = 1 := by
  have hinv : glrcIlpDecodeMatrixInvertible 4 2 2 [5] [3] = true := by decide +kernel
  have hunit := solves_iff.mp (show Solves 4 2 2 [5] [3] from ⟨by decide, hinv⟩)
  refine ⟨by decide +kernel, by decide +kernel, rfl, rfl, ?_, rfl⟩
  rw [sort_singleton]
  exact hunit.2.2.2

end Mlrc
