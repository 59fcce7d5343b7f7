import Mlrc.Algebra.Cauchy
import Mlrc.Repair.Solve

/-!
# What gLRC tolerates

Any `r` failed blocks can be repaired, and any `r + 1` failed blocks without a global parity.  The
global equations are rows of a Cauchy matrix over the data blocks, and the sum of all local equations
is one row more of it.

* `globalRow`, `localRows_sum`   the equations as Cauchy rows;
* `Tolerated`   the failed sets the code is made for;
* `Tolerated.data_eq_zero`   errors of such a set that satisfy all equations vanish on the data;
* `tolerated_repairable`   the planner finds a plan for such a set under every policy.
-/

namespace Mlrc

open Finset

variable {x : ℕ → Gf} {b : ℕ} {failed : List ℕ} {policy : String}

/-! ## Cauchy rows -/

/-- a block number as an element of the field -/
def gfOfNat (i : ℕ) : Gf := Gf.mk (UInt8.ofNat i)

theorem gfOfNat_inj {i j : ℕ} (hi : i ≤ 255) (hj : j ≤ 255) (h : gfOfNat i = gfOfNat j) : i = j := by
  have hbyte := congrArg UInt8.toNat (Gf.mk_inj.mp h)
  rwa [UInt8.toNat_ofNat_of_lt' (Nat.lt_succ_of_le hi), UInt8.toNat_ofNat_of_lt' (Nat.lt_succ_of_le hj)]
    at hbyte

theorem mk_gfInv_xor (i j : ℕ) : Gf.mk (gfInv (UInt8.ofNat (i ^^^ j))) = (gfOfNat i - gfOfNat j)⁻¹ := by
  rw [Gf.mk_gfInv, UInt8.ofNat_xor, Gf.mk_xor, CharTwo.sub_eq_add]
  rfl

section
variable {k r z : ℕ}

theorem globalRow {j : ℕ} (hj : j < r) (c : ℕ → Gf) : eqValue k r z (z + j) c =
      ∑ b ∈ range k, (gfOfNat (k + j) - gfOfNat b)⁻¹ * c b + c (k + j) := by
  rw [eqValue_global hj]
  refine congrArg (· + c (k + j)) (sum_congr rfl fun b _ => ?_)
  rw [gfGenCauchyMatrix1, if_neg (by omega), if_pos (by omega), mk_gfInv_xor]

theorem localRows_sum (hz : 0 < z) (c : ℕ → Gf) : ∑ g ∈ range z, eqValue k r z g c =
      ∑ b ∈ range k, (gfOfNat (k + r) - gfOfNat b)⁻¹ * c b + ∑ l ∈ range r, c (k + l) +
        ∑ g ∈ range z, c (k + r + g) := by
  rw [sum_congr rfl fun g hg => eqValue_local (mem_range.mp hg) c, sum_add_distrib, sum_add_distrib,
    sum_comm, sum_comm (s := range z) (t := range r)]
  refine congrArg (· + ∑ g ∈ range z, c (k + r + g)) ?_
  refine congrArg₂ (· + ·) (sum_congr rfl fun b hb => ?_) (sum_congr rfl fun l hl => ?_)
  · have hgroup := glrcPayloadGroupId_lt (r := r) hz (by have := mem_range.mp hb; omega : b < k + r)
    rw [← sum_mul, sum_ite_eq, if_pos (mem_range.mpr hgroup), gfGenLocalVector, mk_gfInv_xor,
      ← neg_sub, CharTwo.neg_eq]
  · have hgroup := glrcPayloadGroupId_lt hz (by have := mem_range.mp hl; omega : k + l < k + r)
    rw [← sum_mul, sum_ite_eq, if_pos (mem_range.mpr hgroup), one_mul]

/-! ## Errors that no equation sees -/

theorem data_eq_zero_of_rows (hbyte : k + r ≤ 255) (rows : Finset ℕ) (hle : ∀ j ∈ rows, j ≤ r)
    (hcard : ((range k).filter (x · ≠ 0)).card ≤ rows.card)
    (hrow : ∀ j ∈ rows, ∑ b ∈ range k, (gfOfNat (k + j) - gfOfNat b)⁻¹ * x b = 0) (hb : b < k) :
    x b = 0 := by
  by_contra hne
  have hmem : b ∈ (range k).filter (x · ≠ 0) := mem_filter.mpr ⟨mem_range.mpr hb, hne⟩
  have hlt : ∀ b ∈ (range k).filter (x · ≠ 0), b < k := fun b hb => mem_range.mp (mem_filter.mp hb).1
  refine hne (cauchy_indep (a := fun j => gfOfNat (k + j)) (b := gfOfNat) ?_ ?_ ?_ hcard ?_ hmem)
  · intro i hi j hj hij
    have hi := hle i hi
    have hj := hle j hj
    have := gfOfNat_inj (by omega) (by omega) hij
    omega
  · intro i hi j hj hij
    have hi := hlt i hi
    have hj := hlt j hj
    exact gfOfNat_inj (by omega) (by omega) hij
  · intro j hj b hb hjb
    have hj := hle j hj
    have hb := hlt b hb
    have := gfOfNat_inj (by omega) (by omega) hjb
    omega
  · intro j hj
    rw [sum_filter]
    refine Eq.trans (sum_congr rfl fun b _ => ?_) (hrow j hj)
    split
    · rfl
    · next h0 => rw [not_not.mp h0, mul_zero]

theorem errors_le (hx : ∀ b ∉ failed, x b = 0) :
    ((range k).filter (x · ≠ 0)).card + ((range r).filter (fun l => x (k + l) ≠ 0)).card +
      ((range z).filter (fun g => x (k + r + g) ≠ 0)).card ≤ failed.length := by
  have hsub : (range (k + r + z)).filter (x · ≠ 0) ⊆ failed.toFinset := by
    intro b hb
    by_contra hno
    exact (mem_filter.mp hb).2 (hx b fun hmem => hno (List.mem_toFinset.mpr hmem))
  have hcard := (card_le_card hsub).trans failed.toFinset_card_le
  rwa [card_filter, sum_range_add, sum_range_add, ← card_filter, ← card_filter, ← card_filter] at hcard

/-- few failed blocks: at most `r`, or `r + 1` without a global parity -/
def Tolerated (k r : ℕ) (failed : List ℕ) : Prop :=
  failed.length ≤ r ∨ failed.length = r + 1 ∧ ∀ b ∈ failed, b < k ∨ k + r ≤ b

section
variable (h : Tolerated k r failed) (hz : 0 < z) (hbyte : k + r ≤ 255) (hx : ∀ b ∉ failed, x b = 0)
  (heq : ∀ e < z + r, eqValue k r z e x = 0)
include h hz hbyte hx heq

theorem Tolerated.data_eq_zero (hb : b < k) : x b = 0 := by
  have herrors := errors_le (k := k) (r := r) (z := z) hx
  have hglobal : ∀ j < r, x (k + j) = 0 →
      ∑ b ∈ range k, (gfOfNat (k + j) - gfOfNat b)⁻¹ * x b = 0 := by
    intro j hj h0
    have hrow := heq (z + j) (by omega)
    rwa [globalRow hj, h0, add_zero] at hrow
  have hsplit : ((range r).filter (fun l => x (k + l) = 0)).card +
      ((range r).filter (fun l => x (k + l) ≠ 0)).card = r := by
    rw [card_filter_add_card_filter_not, card_range]
  rcases lt_or_ge r ((range k).filter (x · ≠ 0)).card with hmany | hfew
  · -- only data blocks have failed, and the sum of the local equations is the last row
    obtain ⟨hlen, hkind⟩ := h.resolve_left (by omega)
    have hnone : ∀ l < r, x (k + l) = 0 := by
      intro l hl
      refine hx _ fun hmem => ?_
      rcases hkind _ hmem with hdata | hlocal <;> omega
    have hlocal : ∀ g < z, x (k + r + g) = 0 := by
      have hempty : (range z).filter (fun g => x (k + r + g) ≠ 0) = ∅ := card_eq_zero.mp (by omega)
      intro g hg
      by_contra hne
      have : g ∈ (range z).filter (fun g => x (k + r + g) ≠ 0) := mem_filter.mpr ⟨mem_range.mpr hg, hne⟩
      rw [hempty] at this
      exact absurd this (notMem_empty g)
    have hsum := localRows_sum (k := k) (r := r) hz x
    rw [sum_eq_zero fun g hg => heq g (by have := mem_range.mp hg; omega),
      sum_eq_zero fun l hl => hnone l (mem_range.mp hl), sum_eq_zero fun g hg => hlocal g (mem_range.mp hg),
      add_zero, add_zero] at hsum
    refine data_eq_zero_of_rows hbyte (range (r + 1)) ?_ ?_ ?_ hb
    · intro j hj
      exact Nat.le_of_lt_succ (mem_range.mp hj)
    · rw [card_range]
      omega
    · intro j hj
      rcases Nat.lt_succ_iff_lt_or_eq.mp (mem_range.mp hj) with hlt | rfl
      · exact hglobal j hlt (hnone j hlt)
      · exact hsum.symm
  · -- the global equations whose parity has no error
    refine data_eq_zero_of_rows hbyte ((range r).filter fun l => x (k + l) = 0) ?_ ?_ ?_ hb
    · intro j hj
      exact (mem_range.mp (mem_filter.mp hj).1).le
    · rcases h with hle | ⟨-, hkind⟩
      · omega
      · have hall : (range r).filter (fun l => x (k + l) ≠ 0) = ∅ := by
          refine filter_eq_empty_iff.mpr fun l hl => not_not.mpr (hx _ fun hmem => ?_)
          have hl := mem_range.mp hl
          rcases hkind _ hmem with hdata | hlocal <;> omega
        rw [hall, card_empty] at hsplit
        omega
    · intro j hj
      obtain ⟨hlt, h0⟩ := mem_filter.mp hj
      exact hglobal j (mem_range.mp hlt) h0

theorem Tolerated.eq_zero (hb : b < k + r + z) : x b = 0 := by
  have hdata : ∀ b ∈ range k, x b = 0 := fun b hb => h.data_eq_zero hz hbyte hx heq (mem_range.mp hb)
  have hglobal : ∀ l < r, x (k + l) = 0 := by
    intro l hl
    have hrow := heq (z + l) (by omega)
    rwa [globalRow hl, sum_eq_zero fun b hb => by rw [hdata b hb, mul_zero], zero_add] at hrow
  have hlocal : ∀ g < z, x (k + r + g) = 0 := by
    intro g hg
    have hrow := heq g (by omega)
    rwa [eqValue_local hg, sum_eq_zero fun b hb => by rw [hdata b hb, mul_zero],
      sum_eq_zero fun l hl => by rw [hglobal l (mem_range.mp hl), mul_zero], zero_add, zero_add] at hrow
  rcases lt_or_ge b k with hbk | hbk
  · exact hdata b (mem_range.mpr hbk)
  rcases lt_or_ge b (k + r) with hbr | hbr
  · obtain ⟨l, rfl⟩ := exists_add_of_le hbk
    exact hglobal l (by omega)
  · obtain ⟨g, rfl⟩ := exists_add_of_le hbr
    exact hlocal g (by omega)

end

/-! ## Repairable sets -/

theorem Tolerated.indepCols (h : Tolerated k r failed) (hz : 0 < z)
    (hbyte : k + r ≤ 255) (hnd : failed.Nodup) (hlt : ∀ b ∈ failed, b < k + r + z) :
    LinearIndependent Gf (failedColumns k r z failed) := by
  rw [Fintype.linearIndependent_iff]
  intro c hc t
  -- the coefficients as errors of the failed blocks
  let x : ℕ → Gf := fun b => if h : b ∈ failed then c ⟨failed.idxOf b, List.idxOf_lt_length_of_mem h⟩ else 0
  have hx : ∀ b ∉ failed, x b = 0 := fun b hb => dif_neg hb
  have hget : ∀ t : Fin failed.length, x (failed.get t) = c t := by
    intro t
    have hmem : failed.get t ∈ failed := List.get_mem failed t
    show (if h : failed.get t ∈ failed then _ else _) = _
    rw [dif_pos hmem]
    exact congrArg c (Fin.ext (hnd.idxOf_getElem t t.isLt))
  have heq : ∀ e < z + r, eqValue k r z e x = 0 := by
    intro e he
    have hfailed : failedSum k r z failed e x = 0 := by
      have hrow := congrFun hc ⟨e, he⟩
      rw [failedSum, sum_map_eq_sum_range failed 0, sum_range]
      rw [Finset.sum_apply] at hrow
      refine Eq.trans (sum_congr rfl fun t _ => ?_) hrow
      rw [List.getD_eq_getElem _ _ t.isLt]
      show Gf.mk (coef k r z e (failed.get t)) * x (failed.get t) = c t * _
      rw [hget, mul_comm]
      rfl
    have hsurvivors : survivorSum k r z failed e x = 0 := by
      refine sum_eq_zero fun b hb => ?_
      rw [hx b (mem_filter.mp hb).2, mul_zero]
    rw [← failedSum_add_survivorSum hnd hlt, hfailed, hsurvivors, add_zero]
  rw [← hget t]
  exact h.eq_zero hz hbyte hx heq (hlt _ (List.get_mem failed t))

end

/-- the policies of `glrc_solve_repair_plan`, under all their names -/
def IsEquationPolicy (policy : String) : Prop :=
  glrcNormalizeEquationPolicy policy ∈
    ["local-then-global", "local-first", "global-first", "ilp-min-helper"]

instance (policy : String) : Decidable (IsEquationPolicy policy) := List.instDecidableMemOfLawfulBEq _ _

section
variable {k r z : ℕ} {failed : List ℕ}

theorem isEquationPolicy_iff :
    IsEquationPolicy policy ↔ glrcNormalizeEquationPolicy policy = "local-then-global" ∨
      glrcNormalizeEquationPolicy policy = "local-first" ∨
      glrcNormalizeEquationPolicy policy = "global-first" ∨
      glrcNormalizeEquationPolicy policy = "ilp-min-helper" := by
  unfold IsEquationPolicy
  simp only [List.mem_cons, List.not_mem_nil, or_false]

theorem glrcSolveRepairPlan_complete (S : StdSort) (hz : 0 < z) (hbyte : k + r ≤ 255)
    (hlt : ∀ b ∈ failed, b < k + r + z) (hne : failed ≠ [])
    (hindep : LinearIndependent Gf (failedColumns k r z failed))
    (hpolicy : IsEquationPolicy policy) : (glrcSolveRepairPlan S k r z failed policy).1 = true := by
  obtain ⟨selected, hinc, hsel⟩ := exists_solves_of_indepCols hne hindep
  rw [isEquationPolicy_iff] at hpolicy
  unfold glrcSolveRepairPlan
  simp only
  split_ifs with hltg hlf hgf hilp
  · exact glrcSolveRepairLocalThenGlobal_complete S hz hbyte hlt hinc hsel
  · exact solveByScan_complete _ _ hinc hsel
  · exact glrcSolveRepairGlobalFirst_complete S hz hinc hsel
  · exact solveByScan_complete _ _ hinc hsel
  · rcases hpolicy with h | h | h | h
    · exact absurd h hltg
    · exact absurd h hlf
    · exact absurd h hgf
    · exact absurd h hilp

theorem glrcSolveRepairPlan_needs (S : StdSort) (hz : 0 < z)
    (h : (glrcSolveRepairPlan S k r z failed policy).1 = true) :
    failed ≠ [] ∧ IsEquationPolicy policy := by
  constructor
  · have hok := glrcSolveRepairPlan_ok S hz (Prod.ext h rfl)
    exact (glrcIlpDecodeMatrixInvertible_iff.mp hok.solves.2).1
  · rw [isEquationPolicy_iff]
    by_contra hno
    push Not at hno
    obtain ⟨hltg, hlf, hgf, hilp⟩ := hno
    unfold glrcSolveRepairPlan at h
    simp only [hltg, hlf, hgf, hilp, if_false] at h
    cases h

/-- **Main result.**  At most `r` failed blocks of any kind, and `r + 1` failed blocks without a global
parity, can be repaired: their columns are independent, and every policy finds a plan for them unless
nothing has failed. -/
theorem tolerated_repairable (S : StdSort) (hz : 1 ≤ z) (hbyte : k + r ≤ 255) (hnd : failed.Nodup)
    (hlt : ∀ b ∈ failed, b < k + r + z)
    (hfew : failed.length ≤ r ∨ failed.length = r + 1 ∧ ∀ b ∈ failed, b < k ∨ k + r ≤ b)
    (policy : String) :
    LinearIndependent Gf (failedColumns k r z failed) ∧
      ((glrcSolveRepairPlan S k r z failed policy).1 = true ↔ failed ≠ [] ∧ IsEquationPolicy policy) := by
  have hindep := Tolerated.indepCols hfew hz hbyte hnd hlt
  refine ⟨hindep, glrcSolveRepairPlan_needs S hz, fun h => ?_⟩
  exact glrcSolveRepairPlan_complete S hz hbyte hlt h.1 hindep h.2

/-- three data blocks of a (4, 2, 2) stripe, one more than there are global parities -/
theorem tolerated_four_two_two :
    (glrcSolveRepairPlan StdSort.insertion 4 2 2 [0, 1, 3] "local-first").1 = true :=
  (tolerated_repairable StdSort.insertion (by decide) (by decide) (by decide) (by decide)
    (.inr (by decide)) "local-first").2.mpr (by decide)

theorem empty_failed_set_rejected :
    ([] : List ℕ).Nodup ∧ ([] : List ℕ).length ≤ 2 ∧
      (glrcSolveRepairPlan StdSort.insertion 4 2 2 [] "ilp-min-helper").1 = false ∧
      (glrcSolveRepairPlan StdSort.insertion 4 2 2 [] "ilp-min-helper").2.errorMessage =
        "empty failure set" := by
  decide +kernel

end

end Mlrc
