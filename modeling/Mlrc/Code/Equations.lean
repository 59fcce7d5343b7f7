import Mlrc.Code.Generator

/-!
# Recovery equations and their coefficient rows

The `z + r` equations of gLRC: equation `g < z` is the local one of group `g`, equation `z + j` the
global one of parity `j`.  `buildBlockCoefRow` gives the coefficients of an equation, the list
`involvedBlocks` the blocks the planner looks at.

* `coef_local_data`, `coef_local_global`, `coef_local_parity`, `coef_global_eq`   the coefficients in
  closed form;
* `mem_involved_of_coef_ne_zero`   a block with a coefficient is involved;
* `eqValue_global`, `eqValue_local`   what an equation sums up;
* `parity_check`   every coefficient row is a parity check of the code.
-/

namespace Mlrc

open Finset

variable {g j e b : ℕ} {c : ℕ → Gf}

inductive GlrcEquationType where
  | LOCAL
  | GLOBAL
deriving DecidableEq, Repr

structure GlrcEquation where
  type : GlrcEquationType
  /-- local group id or global parity id -/
  index : ℕ
  name : String
  involvedBlocks : List ℕ
deriving DecidableEq, Repr

def buildEquationFromGroup (groupId : ℕ) (groups : List (List ℕ)) : GlrcEquation where
  type := .LOCAL
  index := groupId
  name := "L" ++ toString groupId
  involvedBlocks := groups.getD groupId []

def buildGlobalEquation (k globalId : ℕ) : GlrcEquation where
  type := .GLOBAL
  index := globalId
  name := "G" ++ toString globalId
  involvedBlocks := List.range k ++ [k + globalId]

def allEquations (k r z : ℕ) : List GlrcEquation :=
  let groups := glrcBuildPlacementGroups k r z
  (List.range z).map (fun i => buildEquationFromGroup i groups) ++
    (List.range r).map (fun j => buildGlobalEquation k j)

/-- the blocks of the equation with index `eq` -/
def involvedBlocks (equations : List GlrcEquation) (eq : ℕ) : List ℕ :=
  (equations[eq]?.map GlrcEquation.involvedBlocks).getD []

/-- the indices of the equations with a failed block -/
def candidateEquations (equations : List GlrcEquation) (failedBlockIds : List ℕ) : List ℕ :=
  (List.range equations.length).filter fun idx =>
    (involvedBlocks equations idx).any fun b => decide (b ∈ failedBlockIds)

def glrcBuildRecoveryEquations (k r z : ℕ) (failedBlockIds : List ℕ) : List GlrcEquation × List ℕ :=
  (allEquations k r z, candidateEquations (allEquations k r z) failedBlockIds)

/-- `glrc_local_block_coefficient`; the index is cut to a byte by the call of `gf_inv` -/
def glrcLocalBlockCoefficient (blockId k r : ℕ) : UInt8 :=
  if blockId < k then gfInv (UInt8.ofNat (blockId ^^^ (k + r))) else 1

def buildBlockCoefRow (k r z n eqIndex : ℕ) (encodeMatrix : Mat UInt8) (groups : List (List ℕ)) :
    List UInt8 :=
  if eqIndex < z then
    (groups.getD eqIndex []).foldl (fun row b => row.set b (glrcLocalBlockCoefficient b k r))
      (List.replicate n 0)
  else
    let g := eqIndex - z
    ((List.range k).foldl (fun row i => row.set i (encodeMatrix (k + g) i))
      (List.replicate n 0)).set (k + g) 1

/-- the coefficient row of an equation of the code, as every caller builds it -/
def coefRow (k r z eqIndex : ℕ) : List UInt8 :=
  buildBlockCoefRow k r z (k + r + z) eqIndex (genGlrcMatrix k r z) (glrcBuildPlacementGroups k r z)

/-- the coefficient of a block in an equation -/
def coef (k r z eqIndex b : ℕ) : UInt8 := (coefRow k r z eqIndex).getD b 0

/-! ## Involved blocks -/

section
variable {k r z : ℕ}

theorem allEquations_length (k r z : ℕ) : (allEquations k r z).length = z + r := by
  simp [allEquations]

theorem involvedBlocks_local (hg : g < z) :
    involvedBlocks (allEquations k r z) g = (glrcBuildPlacementGroups k r z).getD g [] := by
  simp [involvedBlocks, allEquations, List.getElem?_append, hg, buildEquationFromGroup]

theorem involvedBlocks_global (hj : j < r) :
    involvedBlocks (allEquations k r z) (z + j) = List.range k ++ [k + j] := by
  simp [involvedBlocks, allEquations, hj, buildGlobalEquation]

theorem involved_nodup (he : e < z + r) : (involvedBlocks (allEquations k r z) e).Nodup := by
  by_cases h : e < z
  · rw [involvedBlocks_local h]
    exact placementGroup_nodup h
  · obtain ⟨j, rfl⟩ := Nat.exists_eq_add_of_le (Nat.le_of_not_lt h)
    rw [involvedBlocks_global (by omega)]
    refine List.nodup_append.mpr ⟨List.nodup_range, by simp, ?_⟩
    intro a ha b hb
    rw [List.mem_range] at ha
    rw [List.mem_singleton] at hb
    omega

theorem lt_of_mem_involved (he : e < z + r)
    (hb : b ∈ involvedBlocks (allEquations k r z) e) : b < k + r + z := by
  by_cases h : e < z
  · rw [involvedBlocks_local h, mem_placementGroup h] at hb
    omega
  · obtain ⟨j, rfl⟩ := Nat.exists_eq_add_of_le (Nat.le_of_not_lt h)
    rw [involvedBlocks_global (by omega), List.mem_append, List.mem_range, List.mem_singleton] at hb
    omega

theorem local_unique {e' : ℕ} (he : e < z) (he' : e' < z)
    (hb : b ∈ involvedBlocks (allEquations k r z) e)
    (hb' : b ∈ involvedBlocks (allEquations k r z) e') : e = e' := by
  rw [involvedBlocks_local he, mem_placementGroup he] at hb
  rw [involvedBlocks_local he', mem_placementGroup he'] at hb'
  omega

/-! ## Coefficients -/

theorem coefRow_length (k r z e : ℕ) : (coefRow k r z e).length = k + r + z := by
  unfold coefRow buildBlockCoefRow
  split <;> simp

theorem coef_local (hg : g < z) (hb : b < k + r + z) :
    coef k r z g b = if b ∈ (glrcBuildPlacementGroups k r z).getD g []
      then glrcLocalBlockCoefficient b k r else 0 := by
  rw [coef, coefRow, buildBlockCoefRow, if_pos hg, getD_foldl_set _ _ _ (by simpa using hb)]
  congr 1
  simp [hb]

theorem coef_global_eq (hj : j < r) (hb : b < k + r + z) :
    coef k r z (z + j) b = if b = k + j then 1
      else if b < k then gfGenCauchyMatrix1 (k + r) k (k + j) b else 0 := by
  rw [coef, coefRow, buildBlockCoefRow, if_neg (by omega), Nat.add_sub_cancel_left]
  by_cases hbj : b = k + j
  · rw [if_pos hbj, List.getD_eq_getElem _ _ (by simpa using hb)]
    simp [hbj]
  · rw [if_neg hbj, List.getD_eq_getElem?_getD, List.getElem?_set_ne (Ne.symm hbj),
      ← List.getD_eq_getElem?_getD, getD_foldl_set _ _ _ (by simpa using hb)]
    simp only [List.mem_range]
    rw [genGlrcMatrix_payload (by omega)]
    congr 1
    simp [hb]

theorem glrcLocalBlockCoefficient_data (hb : b < k) :
    glrcLocalBlockCoefficient b k r = gfGenLocalVector k r b := if_pos hb

theorem glrcLocalBlockCoefficient_parity (hb : k ≤ b) :
    glrcLocalBlockCoefficient b k r = 1 := if_neg (not_lt.mpr hb)

theorem coef_local_data (hg : g < z) (hb : b < k) :
    coef k r z g b = if glrcPayloadGroupId b k r z = g then gfGenLocalVector k r b else 0 := by
  rw [coef_local hg (by omega), glrcLocalBlockCoefficient_data hb]
  simp only [mem_placementGroup_payload hg (by omega : b < k + r)]

theorem coef_local_global {l : ℕ} (hg : g < z) (hl : l < r) :
    coef k r z g (k + l) = if glrcPayloadGroupId (k + l) k r z = g then 1 else 0 := by
  rw [coef_local hg (by omega), glrcLocalBlockCoefficient_parity (by omega)]
  simp only [mem_placementGroup_payload hg (by omega : k + l < k + r)]

theorem coef_local_parity {h : ℕ} (hg : g < z) (hh : h < z) :
    coef k r z g (k + r + h) = if h = g then 1 else 0 := by
  rw [coef_local hg (by omega), glrcLocalBlockCoefficient_parity (by omega)]
  simp only [mem_placementGroup_parity hg]

theorem mem_involved_of_coef_ne_zero (he : e < z + r) (hb : b < k + r + z)
    (h : coef k r z e b ≠ 0) : b ∈ involvedBlocks (allEquations k r z) e := by
  by_cases hez : e < z
  · rw [involvedBlocks_local hez]
    by_contra hmem
    rw [coef_local hez hb, if_neg hmem] at h
    exact h rfl
  · obtain ⟨j, rfl⟩ := Nat.exists_eq_add_of_le (Nat.le_of_not_lt hez)
    rw [involvedBlocks_global (by omega), List.mem_append, List.mem_range, List.mem_singleton]
    by_contra hmem
    rw [coef_global_eq (by omega) hb, if_neg (by omega), if_neg (by omega)] at h
    exact h rfl

/-! ## Parity checks -/

/-- the values of the blocks of a stripe at one byte offset -/
def IsCodeword (k r z : ℕ) (c : ℕ → Gf) : Prop :=
  ∃ d : ℕ → Gf, ∀ b < k + r + z, c b = ∑ j ∈ range k, Gf.mk (genGlrcMatrix k r z b j) * d j

theorem isCodeword_byteAt {blockSize : ℕ} {data : List (List UInt8)}
    (hd : DataBlocks k blockSize data) {i : ℕ} (hi : i < blockSize) :
    IsCodeword k r z fun b => Gf.mk (byteAt (codeword genGlrcMatrix k r z data blockSize) b i) :=
  ⟨fun j => Gf.mk (byteAt data j i), fun _ hb =>
    byteAt_codeword genGlrcMatrix_systematic hd hb hi⟩

/-- the value of equation `e` on the blocks `c` -/
def eqValue (k r z e : ℕ) (c : ℕ → Gf) : Gf :=
  ∑ b ∈ range (k + r + z), Gf.mk (coef k r z e b) * c b

theorem codeword_data {d : ℕ → Gf}
    (h : ∀ b < k + r + z, c b = ∑ j ∈ range k, Gf.mk (genGlrcMatrix k r z b j) * d j)
    (hb : b < k) : c b = d b := by
  rw [h b (by omega), ← rowVal_unitMat hb d, ← toGf_unitMat]
  exact sum_congr rfl fun j _ => by rw [toGf, genGlrcMatrix_systematic k r z b j hb]

theorem eqValue_global (hj : j < r) (c : ℕ → Gf) : eqValue k r z (z + j) c =
      ∑ b ∈ range k, Gf.mk (gfGenCauchyMatrix1 (k + r) k (k + j) b) * c b + c (k + j) := by
  have hsplit : ∀ b ∈ range (k + r + z), Gf.mk (coef k r z (z + j) b) * c b =
      (if b < k then Gf.mk (gfGenCauchyMatrix1 (k + r) k (k + j) b) * c b else 0) +
        if b = k + j then c b else 0 := by
    intro b hb
    rw [coef_global_eq hj (mem_range.mp hb)]
    split_ifs
    · omega
    · rw [Gf.mk_one, one_mul, zero_add]
    · rw [add_zero]
    · rw [Gf.mk_zero, zero_mul, add_zero]
  have hdata : (range (k + r + z)).filter (· < k) = range k := by
    ext b
    simp only [mem_filter, mem_range]
    omega
  rw [eqValue, sum_congr rfl hsplit, sum_add_distrib, ← sum_filter, hdata, sum_ite_eq',
    if_pos (mem_range.mpr (by omega))]

theorem eqValue_local (hg : g < z) (c : ℕ → Gf) : eqValue k r z g c =
      ∑ b ∈ range k, (if glrcPayloadGroupId b k r z = g then Gf.mk (gfGenLocalVector k r b) else 0)
        * c b + ∑ l ∈ range r, (if glrcPayloadGroupId (k + l) k r z = g then 1 else 0) * c (k + l) +
      c (k + r + g) := by
  have h1 : ∀ b ∈ range k, Gf.mk (coef k r z g b) * c b =
      (if glrcPayloadGroupId b k r z = g then Gf.mk (gfGenLocalVector k r b) else 0) * c b := by
    intro b hb
    rw [coef_local_data hg (mem_range.mp hb)]
    split <;> rfl
  have h2 : ∀ l ∈ range r, Gf.mk (coef k r z g (k + l)) * c (k + l) =
      (if glrcPayloadGroupId (k + l) k r z = g then 1 else 0) * c (k + l) := by
    intro l hl
    rw [coef_local_global hg (mem_range.mp hl)]
    split <;> rfl
  have h3 : ∀ h ∈ range z, Gf.mk (coef k r z g (k + r + h)) * c (k + r + h) =
      if h = g then c (k + r + h) else 0 := by
    intro h hh
    rw [coef_local_parity hg (mem_range.mp hh)]
    split
    · rw [Gf.mk_one, one_mul]
    · rw [Gf.mk_zero, zero_mul]
  rw [eqValue, sum_range_add, sum_range_add, sum_congr rfl h1, sum_congr rfl h2, sum_congr rfl h3,
    sum_ite_eq', if_pos (mem_range.mpr hg)]

theorem parity_check_global (hc : IsCodeword k r z c) (hj : j < r) :
    eqValue k r z (z + j) c = 0 := by
  obtain ⟨d, hd⟩ := hc
  have hparity : c (k + j) = ∑ b ∈ range k, Gf.mk (gfGenCauchyMatrix1 (k + r) k (k + j) b) * c b := by
    rw [hd (k + j) (by omega)]
    refine sum_congr rfl fun b hb => ?_
    rw [genGlrcMatrix_payload (by omega), codeword_data hd (mem_range.mp hb)]
  rw [eqValue_global hj, ← hparity, CharTwo.add_self_eq_zero]

theorem parity_check_local (hc : IsCodeword k r z c) (hg : g < z) : eqValue k r z g c = 0 := by
  obtain ⟨d, hd⟩ := hc
  have hparity : c (k + r + g) =
      ∑ b ∈ range k, (if glrcPayloadGroupId b k r z = g then Gf.mk (gfGenLocalVector k r b) else 0)
        * c b +
      ∑ l ∈ range r, (if glrcPayloadGroupId (k + l) k r z = g then 1 else 0) * c (k + l) := by
    rw [hd (k + r + g) (by omega), sum_congr rfl fun j hj =>
      congrArg (· * d j) (genGlrcMatrix_local k r z g (mem_range.mp hj))]
    simp only [add_mul, sum_add_distrib]
    congr 1
    · exact sum_congr rfl fun b hb => by rw [codeword_data hd (mem_range.mp hb)]
    · -- the rows of the global parities of the group, summed the other way round
      simp only [sum_mul]
      rw [sum_comm]
      refine sum_congr rfl fun l hl => ?_
      have hl := mem_range.mp hl
      rw [hd (k + l) (by omega), mul_sum]
      refine sum_congr rfl fun j _ => ?_
      rw [genGlrcMatrix_payload (by omega)]
      split <;> ring
  rw [eqValue_local hg, ← hparity, CharTwo.add_self_eq_zero]

theorem parity_check (hc : IsCodeword k r z c) (he : e < z + r) : eqValue k r z e c = 0 := by
  by_cases hez : e < z
  · exact parity_check_local hc hez
  · obtain ⟨j, rfl⟩ := Nat.exists_eq_add_of_le (Nat.le_of_not_lt hez)
    exact parity_check_global hc (by omega)

end

end Mlrc
