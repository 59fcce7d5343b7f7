import Mlrc.Repair.Plan

/-!
# Combinations of candidate equations

The planner enumerates the increasing position lists of its candidate equations and keeps those that
pass two tests.

* `mem_enumerateCombinations`   the enumeration is complete;
* `Solves`   an invertible selection, and what it needs of the failed blocks;
* `selectionOk_iff`   the cover test never rejects an invertible selection;
* `exists_combo`   an invertible selection shows up among the combinations.
-/

namespace Mlrc

open Finset

variable {e b : ℕ}

/-! ## The enumeration -/

theorem le_of_increasing {n : ℕ} (t : List ℕ) (s : ℕ) (ht : t.Pairwise (· < ·))
    (hs : ∀ x ∈ t, s ≤ x ∧ x < n) (hne : t ≠ []) : s + t.length ≤ n := by
  induction t generalizing s with
  | nil => exact absurd rfl hne
  | cons a t ih =>
    have ha := hs a List.mem_cons_self
    rw [List.pairwise_cons] at ht
    rw [List.length_cons]
    by_cases htn : t = []
    · rw [htn, List.length_nil]
      omega
    · have := ih (a + 1) ht.2 (fun x hx => ⟨ht.1 x hx, (hs x (List.mem_cons_of_mem _ hx)).2⟩) htn
      omega

theorem mem_enumerateFrom (n : ℕ) (l : List ℕ) (m start : ℕ) (current : List ℕ) :
    l ∈ enumerateFrom n m start current ↔ ∃ t, l = current ++ t ∧ t.length = m ∧
      t.Pairwise (· < ·) ∧ ∀ x ∈ t, start ≤ x ∧ x < n := by
  induction m generalizing start current with
  | zero =>
    rw [enumerateFrom, List.mem_singleton]
    constructor
    · rintro rfl
      exact ⟨[], by simp, rfl, List.Pairwise.nil, by simp⟩
    · rintro ⟨t, rfl, ht, -⟩
      rw [List.length_eq_zero_iff.mp ht, List.append_nil]
  | succ m ih =>
    simp only [enumerateFrom, List.mem_flatMap, List.mem_range'_1, ih]
    constructor
    · rintro ⟨i, hi, t, rfl, ht, hinc, hb⟩
      refine ⟨i :: t, by simp, by simp [ht], ?_, ?_⟩
      · exact List.pairwise_cons.mpr ⟨fun x hx => (hb x hx).1, hinc⟩
      · intro x hx
        rcases List.mem_cons.mp hx with rfl | hx
        · omega
        · have := hb x hx
          omega
    · rintro ⟨t, rfl, ht, hinc, hb⟩
      cases t with
      | nil => cases ht
      | cons i t =>
        -- the `m` entries behind `i` need room below `n`
        have hroom := le_of_increasing (i :: t) i hinc (fun x hx => ⟨?_, (hb x hx).2⟩) (by simp)
        · have hi := hb i List.mem_cons_self
          rw [ht] at hroom
          rw [List.pairwise_cons] at hinc
          exact ⟨i, by omega, t, by simp, by simpa using ht, hinc.2, fun x hx =>
            ⟨hinc.1 x hx, (hb x (List.mem_cons_of_mem _ hx)).2⟩⟩
        · rcases List.mem_cons.mp hx with rfl | hx
          · exact le_refl _
          · exact le_of_lt ((List.pairwise_cons.mp hinc).1 x hx)

theorem mem_enumerateCombinations (n f : ℕ) (l : List ℕ) :
    l ∈ enumerateCombinations n f ↔ l.length = f ∧ l.Pairwise (· < ·) ∧ ∀ x ∈ l, x < n := by
  rw [enumerateCombinations, mem_enumerateFrom]
  simp

/-! ## Candidate equations -/

section
variable {k r z : ℕ} {failed : List ℕ}

theorem mem_candidates : e ∈ candidateEquations (allEquations k r z) failed ↔
      e < z + r ∧ ∃ b ∈ involvedBlocks (allEquations k r z) e, b ∈ failed := by
  simp [candidateEquations, allEquations_length]

theorem candidates_increasing : (candidateEquations (allEquations k r z) failed).Pairwise (· < ·) :=
  List.Pairwise.filter _ List.pairwise_lt_range

theorem exists_positions {cand sel : List ℕ} (hcand : cand.Pairwise (· < ·))
    (hsel : sel.Pairwise (· < ·)) (hsub : ∀ e ∈ sel, e ∈ cand) :
    ∃ pos ∈ enumerateCombinations cand.length sel.length, selectedOf cand pos = sel := by
  have hperm : List.Subperm sel cand :=
    List.subperm_of_subset (hsel.imp fun h => ne_of_lt h) hsub
  have hsublist : sel.Sublist cand :=
    List.sublist_of_subperm_of_pairwise hperm hsel hcand
  obtain ⟨is, his, hinc⟩ := List.sublist_eq_map_getElem hsublist
  refine ⟨is.map Fin.val, ?_, ?_⟩
  · rw [mem_enumerateCombinations]
    refine ⟨by simp [his], List.pairwise_map.mpr hinc, ?_⟩
    intro x hx
    obtain ⟨i, -, rfl⟩ := List.mem_map.mp hx
    exact i.isLt
  · rw [selectedOf, List.map_map, his]
    refine List.map_congr_left fun i _ => ?_
    simp

theorem mem_of_mem_selectedOf {cand pos : List ℕ} {f : ℕ}
    (hpos : pos ∈ enumerateCombinations cand.length f) (he : e ∈ selectedOf cand pos) :
    e ∈ cand := by
  rw [mem_enumerateCombinations] at hpos
  obtain ⟨p, hp, rfl⟩ := List.mem_map.mp he
  have := hpos.2.2 p hp
  rw [List.getD_eq_getElem _ _ this]
  exact List.getElem_mem _

/-! ## Invertible selections -/

/-- a selection with an invertible matrix of the failed blocks -/
def Solves (k r z : ℕ) (failed selected : List ℕ) : Prop :=
  (∀ e ∈ selected, e < z + r) ∧ glrcIlpDecodeMatrixInvertible k r z failed selected = true

variable {selected : List ℕ}

theorem getD_mem {l : List ℕ} {i : ℕ} (hi : i < l.length) : l.getD i 0 ∈ l := by
  rw [List.getD_eq_getElem _ _ hi]
  exact List.getElem_mem _

theorem exists_getD_of_mem {l : List ℕ} (hb : b ∈ l) : ∃ t < l.length, l.getD t 0 = b := by
  obtain ⟨t, ht, rfl⟩ := List.getElem_of_mem hb
  exact ⟨t, ht, List.getD_eq_getElem _ _ ht⟩

theorem coef_ne_zero_of_failedCols {t : ℕ} (h : failedCols k r z failed e t ≠ 0) :
    coef k r z e (failed.getD t 0) ≠ 0 := fun h0 => h (Gf.mk_eq_zero.mpr h0)

theorem lt_of_invertible (h : glrcIlpDecodeMatrixInvertible k r z failed selected = true)
    (hb : b ∈ failed) : b < k + r + z := by
  obtain ⟨-, -, hns⟩ := glrcIlpDecodeMatrixInvertible_iff.mp h
  obtain ⟨t, ht, rfl⟩ := exists_getD_of_mem hb
  obtain ⟨i, hi, hne⟩ := hns.col_ne_zero ht
  by_contra hge
  refine coef_ne_zero_of_failedCols hne ?_
  exact List.getD_eq_default _ _ (by rw [coefRow_length]; omega)

section
variable (h : Solves k r z failed selected)
include h

theorem Solves.length_eq : selected.length = failed.length :=
  (glrcIlpDecodeMatrixInvertible_iff.mp h.2).2.1

theorem Solves.nonsing : Nonsing failed.length (rowsOf (failedCols k r z failed) selected) :=
  (glrcIlpDecodeMatrixInvertible_iff.mp h.2).2.2

theorem Solves.lt (hb : b ∈ failed) : b < k + r + z :=
  lt_of_invertible h.2 hb

theorem Solves.covers (hb : b ∈ failed) :
    ∃ e ∈ selected, b ∈ involvedBlocks (allEquations k r z) e := by
  obtain ⟨t, ht, rfl⟩ := exists_getD_of_mem hb
  obtain ⟨i, hi, hne⟩ := h.nonsing.col_ne_zero ht
  have hmem : selected.getD i 0 ∈ selected := getD_mem (by rw [h.length_eq]; exact hi)
  exact ⟨_, hmem, mem_involved_of_coef_ne_zero (h.1 _ hmem) (h.lt hb)
    (coef_ne_zero_of_failedCols hne)⟩

theorem Solves.mem_candidates (he : e ∈ selected) :
    e ∈ candidateEquations (allEquations k r z) failed := by
  obtain ⟨i, hi, rfl⟩ := exists_getD_of_mem he
  rw [h.length_eq] at hi
  obtain ⟨t, ht, hne⟩ := h.nonsing.row_ne_zero hi
  have hb := getD_mem ht
  exact Mlrc.mem_candidates.mpr ⟨h.1 _ he, _, mem_involved_of_coef_ne_zero (h.1 _ he) (h.lt hb)
    (coef_ne_zero_of_failedCols hne), hb⟩

theorem Solves.nodup : selected.Nodup := by
  rw [List.nodup_iff_injective_get]
  intro i j hij
  have hlen := h.length_eq
  refine Fin.ext (h.nonsing.row_injective (by omega) (by omega) fun c _ => ?_)
  have hget : selected.getD i 0 = selected.getD j 0 := by
    rw [List.getD_eq_getElem _ _ i.isLt, List.getD_eq_getElem _ _ j.isLt]
    exact hij
  show failedCols k r z failed (selected.getD i 0) c = failedCols k r z failed (selected.getD j 0) c
  rw [hget]

theorem Solves.failed_nodup : failed.Nodup := by
  rw [List.nodup_iff_injective_get]
  intro i j hij
  refine Fin.ext (h.nonsing.col_injective i.isLt j.isLt fun e _ => ?_)
  have hget : failed.getD i 0 = failed.getD j 0 := by
    rw [List.getD_eq_getElem _ _ i.isLt, List.getD_eq_getElem _ _ j.isLt]
    exact hij
  show Gf.mk (coef k r z (selected.getD e 0) (failed.getD i 0)) = _
  rw [hget]
  rfl

end

theorem solves_iff : Solves k r z failed selected ↔ failed ≠ [] ∧ selected.length = failed.length ∧
    (∀ e ∈ selected, e < z + r) ∧
    IsUnit (toMatrix failed.length (toGf (failedMatrix k r z failed selected))) := by
  rw [← nonsing_iff_isUnit, toGf_failedMatrix, Solves, glrcIlpDecodeMatrixInvertible_iff]
  constructor
  · rintro ⟨hlt, hne, hlen, hns⟩
    exact ⟨hne, hlen, hlt, hns⟩
  · rintro ⟨hne, hlen, hlt, hns⟩
    exact ⟨hlt, hne, hlen, hns⟩

section
variable (hnd : failed.Nodup) (hlt : ∀ b ∈ failed, b < k + r + z)
include hnd hlt

theorem rowVal_failedCols_eq_eqValue {x : ℕ → Gf} (hx : ∀ b ∉ failed, x b = 0) (e : ℕ) :
    rowVal failed.length (failedCols k r z failed) (fun t => x (failed.getD t 0)) e =
      eqValue k r z e x := by
  have hsurvivors : survivorSum k r z failed e x = 0 := by
    refine sum_eq_zero fun b hb => ?_
    rw [hx b (mem_filter.mp hb).2, mul_zero]
  rw [← failedSum_add_survivorSum hnd hlt, hsurvivors, add_zero, failedSum,
    sum_map_eq_sum_range failed 0]
  rfl

theorem nonsing_iff_errors (hlen : selected.length = failed.length) :
    Nonsing failed.length (rowsOf (failedCols k r z failed) selected) ↔
      ∀ x : ℕ → Gf, (∀ b ∉ failed, x b = 0) → (∀ e ∈ selected, eqValue k r z e x = 0) →
        ∀ b ∈ failed, x b = 0 := by
  rw [nonsing_rowsOf_iff hlen]
  constructor
  · intro h x hx heq b hb
    obtain ⟨t, ht, rfl⟩ := exists_getD_of_mem hb
    refine h (fun t => x (failed.getD t 0)) (fun e he => ?_) t ht
    rw [rowVal_failedCols_eq_eqValue hnd hlt hx, heq e he]
  · intro h y hy t ht
    -- the entries of `y` as errors of the failed blocks
    let x : ℕ → Gf := fun b => if b ∈ failed then y (failed.idxOf b) else 0
    have hx : ∀ b ∉ failed, x b = 0 := fun b hb => if_neg hb
    have hget : ∀ t < failed.length, x (failed.getD t 0) = y t := by
      intro t ht
      show (if failed.getD t 0 ∈ failed then y (failed.idxOf (failed.getD t 0)) else 0) = y t
      rw [if_pos (getD_mem ht), List.getD_eq_getElem _ _ ht, hnd.idxOf_getElem t ht]
    rw [← hget t ht]
    refine h x hx (fun e he => ?_) _ (getD_mem ht)
    rw [← rowVal_failedCols_eq_eqValue hnd hlt hx, rowVal_congr hget, hy e he]

theorem solves_iff_errors (hne : failed ≠ [])
    (hlen : selected.length = failed.length) (hsel : ∀ e ∈ selected, e < z + r) :
    Solves k r z failed selected ↔ ∀ x : ℕ → Gf, (∀ b ∉ failed, x b = 0) →
      (∀ e ∈ selected, eqValue k r z e x = 0) → ∀ b ∈ failed, x b = 0 := by
  rw [← nonsing_iff_errors hnd hlt hlen]
  exact ⟨Solves.nonsing, fun h => ⟨hsel, glrcIlpDecodeMatrixInvertible_iff.mpr ⟨hne, hlen, h⟩⟩⟩

end

theorem mem_unionHelpers {equations : List GlrcEquation} :
    b ∈ unionHelpers selected equations failed ↔
      (∃ e ∈ selected, b ∈ involvedBlocks equations e) ∧ b ∉ failed := by
  unfold unionHelpers helperBlocksForEquation
  simp only [List.mem_insertionSort, List.mem_dedup, List.mem_flatMap, List.mem_filter,
    decide_eq_true_eq, ← and_assoc, exists_and_right]

theorem combinationCovers_iff {combo : List ℕ} {equations : List GlrcEquation} :
    combinationCovers combo equations failed = true ↔
      ∀ b ∈ failed, ∃ e ∈ combo, b ∈ involvedBlocks equations e := by
  unfold combinationCovers
  set covered := combo.flatMap fun idx => (involvedBlocks equations idx).filter fun b => b ∈ failed
  have hmem : ∀ b, b ∈ covered ↔ (∃ e ∈ combo, b ∈ involvedBlocks equations e) ∧ b ∈ failed := by
    intro b
    simp only [covered, List.mem_flatMap, List.mem_filter, decide_eq_true_eq, ← and_assoc,
      exists_and_right]
  have hsub : covered.dedup ⊆ failed.dedup := by
    intro b hb
    rw [List.mem_dedup] at hb ⊢
    exact ((hmem b).mp hb).2
  have hsubperm := List.subperm_of_subset covered.nodup_dedup hsub
  rw [beq_iff_eq]
  constructor
  · intro hlen b hb
    have hperm := hsubperm.perm_of_length_le (le_of_eq hlen.symm)
    have hb' : b ∈ covered.dedup := hperm.mem_iff.mpr (List.mem_dedup.mpr hb)
    exact ((hmem b).mp (List.mem_dedup.mp hb')).1
  · intro h
    refine le_antisymm hsubperm.length_le ?_
    refine (List.subperm_of_subset failed.nodup_dedup fun b hb => ?_).length_le
    rw [List.mem_dedup] at hb ⊢
    exact (hmem b).mpr ⟨h b hb, hb⟩

theorem selectionOk_iff (hsel : ∀ e ∈ selected, e < z + r) :
    selectionOk k r z (allEquations k r z) failed selected = true ↔ Solves k r z failed selected := by
  unfold selectionOk
  rw [Bool.and_eq_true, combinationCovers_iff]
  exact ⟨fun h => ⟨hsel, h.2⟩, fun h => ⟨fun _ hb => h.covers hb, h.2⟩⟩

theorem exists_combo (hsel : selected.Pairwise (· < ·)) (h : Solves k r z failed selected) :
    ∃ pos ∈ enumerateCombinations (candidateEquations (allEquations k r z) failed).length failed.length,
      selectedOf (candidateEquations (allEquations k r z) failed) pos = selected := by
  rw [← h.length_eq]
  exact exists_positions candidates_increasing hsel fun e he => h.mem_candidates he

end

end Mlrc
