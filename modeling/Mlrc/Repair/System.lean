import Mlrc.Code.Equations

/-!
# The linear system of a repair

For failed blocks and selected equations the decoder inverts the matrix of the failed blocks'
coefficients and applies the inverse to the sums over the surviving blocks.

* `glrcIlpDecodeMatrixInvertible_iff`   the test of the planner is nonsingularity;
* `survivorSum_eq`   on a codeword the survivors of an equation sum to its failed blocks;
* `inverse_survivorSum` the inverse recovers the failed blocks from the survivors.
-/

namespace Mlrc

open Finset

/-- the matrix `A` of `glrc_ilp_build_inverse`: equations by failed blocks -/
def failedMatrix (k r z : ℕ) (failed selected : List ℕ) : Mat UInt8 :=
  fun ei t => coef k r z (selected.getD ei 0) (failed.getD t 0)

def glrcIlpBuildInverse (k r z : ℕ) (failed selected : List ℕ) : Option (Mat UInt8) :=
  (gfInvertMatrix failed.length (failedMatrix k r z failed selected)).map Prod.snd

def glrcIlpPrepareInverse (k r z : ℕ) (failed selected : List ℕ) : Option (Mat UInt8) :=
  if failed.length = 0 ∨ selected.length ≠ failed.length then none
  else glrcIlpBuildInverse k r z failed selected

def glrcIlpDecodeMatrixInvertible (k r z : ℕ) (failed selected : List ℕ) : Bool :=
  if failed.length = 0 ∨ selected.length ≠ failed.length then false
  else (glrcIlpBuildInverse k r z failed selected).isSome

/-- the coefficients of the failed blocks in every equation -/
def failedCols (k r z : ℕ) (failed : List ℕ) : Mat Gf :=
  fun e t => Gf.mk (coef k r z e (failed.getD t 0))

section
variable {k r z : ℕ} {failed selected : List ℕ}

theorem toGf_failedMatrix (k r z : ℕ) (failed selected : List ℕ) :
    toGf (failedMatrix k r z failed selected) = rowsOf (failedCols k r z failed) selected := rfl

theorem glrcIlpBuildInverse_isSome_iff : (glrcIlpBuildInverse k r z failed selected).isSome ↔
      Nonsing failed.length (rowsOf (failedCols k r z failed) selected) := by
  rw [glrcIlpBuildInverse, Option.isSome_map, gfInvertMatrix_isSome_iff, toGf_failedMatrix]

theorem glrcIlpDecodeMatrixInvertible_iff :
    glrcIlpDecodeMatrixInvertible k r z failed selected = true ↔
      failed ≠ [] ∧ selected.length = failed.length ∧
        Nonsing failed.length (rowsOf (failedCols k r z failed) selected) := by
  unfold glrcIlpDecodeMatrixInvertible
  rw [← glrcIlpBuildInverse_isSome_iff]
  split
  · next h =>
    rw [List.length_eq_zero_iff] at h
    constructor
    · intro hf
      cases hf
    · rintro ⟨h1, h2, -⟩
      exact absurd h (by simp [h1, h2])
  · next h =>
    rw [not_or, List.length_eq_zero_iff, not_not] at h
    exact ⟨fun hs => ⟨h.1, h.2, hs⟩, fun hs => hs.2.2⟩

/-! ## Survivors and failed blocks -/

/-- the sum of an equation over the blocks that have not failed -/
def survivorSum (k r z : ℕ) (failed : List ℕ) (e : ℕ) (c : ℕ → Gf) : Gf :=
  ∑ b ∈ (range (k + r + z)).filter (· ∉ failed), Gf.mk (coef k r z e b) * c b

/-- the sum of an equation over the failed blocks -/
def failedSum (k r z : ℕ) (failed : List ℕ) (e : ℕ) (c : ℕ → Gf) : Gf :=
  (failed.map fun b => Gf.mk (coef k r z e b) * c b).sum

theorem failedSum_eq_rowVal (k r z : ℕ) (failed selected : List ℕ) (ei : ℕ) (c : ℕ → Gf) :
    failedSum k r z failed (selected.getD ei 0) c =
      rowVal failed.length (toGf (failedMatrix k r z failed selected))
        (fun t => c (failed.getD t 0)) ei :=
  sum_map_eq_sum_range failed 0 _

theorem failedSum_add_survivorSum (hnd : failed.Nodup) (hlt : ∀ b ∈ failed, b < k + r + z) (e : ℕ)
    (c : ℕ → Gf) :
    failedSum k r z failed e c + survivorSum k r z failed e c = eqValue k r z e c := by
  have hfail : failedSum k r z failed e c =
      ∑ b ∈ (range (k + r + z)).filter (· ∈ failed), Gf.mk (coef k r z e b) * c b := by
    rw [failedSum, ← List.sum_toFinset _ hnd]
    refine sum_congr ?_ fun _ _ => rfl
    ext b
    simp only [List.mem_toFinset, mem_filter, mem_range]
    exact ⟨fun h => ⟨hlt b h, h⟩, fun h => h.2⟩
  rw [hfail]
  exact sum_filter_add_sum_filter_not (range (k + r + z)) (· ∈ failed)
    fun b => Gf.mk (coef k r z e b) * c b

theorem survivorSum_eq {c : ℕ → Gf} (hc : IsCodeword k r z c) {e : ℕ} (he : e < z + r)
    (hnd : failed.Nodup) (hlt : ∀ b ∈ failed, b < k + r + z) :
    survivorSum k r z failed e c = failedSum k r z failed e c := by
  have hzero : failedSum k r z failed e c + survivorSum k r z failed e c = 0 :=
    (failedSum_add_survivorSum hnd hlt e c).trans (parity_check hc he)
  exact (CharTwo.add_eq_zero.mp hzero).symm

theorem inverse_failedSum {B : Mat UInt8} (hB : glrcIlpBuildInverse k r z failed selected = some B)
    (c : ℕ → Gf) {t : ℕ} (ht : t < failed.length) :
    ∑ j ∈ range failed.length, Gf.mk (B t j) * failedSum k r z failed (selected.getD j 0) c =
      c (failed.getD t 0) := by
  rw [glrcIlpBuildInverse, Option.map_eq_some_iff] at hB
  obtain ⟨u, hu, rfl⟩ := hB
  rw [← gfInvertMatrix_left_inv hu (fun t => c (failed.getD t 0)) ht]
  exact sum_congr rfl fun j _ => by rw [failedSum_eq_rowVal]; rfl

theorem inverse_eq_zero_iff {B : Mat UInt8} (hB : glrcIlpBuildInverse k r z failed selected = some B)
    (v : ℕ → Gf) :
    (∀ t < failed.length, rowVal failed.length (toGf B) v t = 0) ↔ ∀ j < failed.length, v j = 0 := by
  refine ⟨fun h => ?_, fun h t _ => ?_⟩
  · have hns : Nonsing failed.length (rowsOf (failedCols k r z failed) selected) :=
      glrcIlpBuildInverse_isSome_iff.mp (by rw [hB]; rfl)
    obtain ⟨x, hx⟩ := hns.exists_sol v
    rw [glrcIlpBuildInverse, Option.map_eq_some_iff] at hB
    obtain ⟨u, hu, rfl⟩ := hB
    have hx0 : ∀ t < failed.length, x t = 0 := by
      intro t ht
      rw [← gfInvertMatrix_left_inv hu x ht, toGf_failedMatrix, ← h t ht]
      exact rowVal_congr hx t
    intro j hj
    rw [← hx j hj, rowVal_congr hx0 j]
    exact rowVal_zero _ _ _
  · rw [rowVal_congr h t]
    exact rowVal_zero _ _ _

theorem inverse_survivorSum {c : ℕ → Gf} (hc : IsCodeword k r z c) (hnd : failed.Nodup)
    (hlt : ∀ b ∈ failed, b < k + r + z) (hsel : ∀ e ∈ selected, e < z + r)
    (hlen : selected.length = failed.length) {B : Mat UInt8}
    (hB : glrcIlpBuildInverse k r z failed selected = some B) {t : ℕ} (ht : t < failed.length) :
    ∑ j ∈ range failed.length, Gf.mk (B t j) * survivorSum k r z failed (selected.getD j 0) c =
      c (failed.getD t 0) := by
  rw [← inverse_failedSum hB c ht]
  refine sum_congr rfl fun j hj => ?_
  have hmem : selected.getD j 0 ∈ selected := by
    rw [List.getD_eq_getElem _ _ (by rw [hlen]; exact mem_range.mp hj)]
    exact List.getElem_mem _
  rw [survivorSum_eq hc (hsel _ hmem) hnd hlt]

end

end Mlrc
