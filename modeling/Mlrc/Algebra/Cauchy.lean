import Mathlib.LinearAlgebra.Lagrange

/-!
# Cauchy matrices

The matrix with the entries `1 / (a i - b j)`, for distinct `a i`, distinct `b j` and no `a i` among
the `b j`.

* `cauchyPoly`   the numerator of a combination of the columns, with `a i` as its variable;
* `cauchy_indep`   a combination of columns that vanishes in as many rows has only zero
  coefficients, so that every square submatrix is nonsingular.
-/

namespace Mlrc

open Finset Polynomial Lagrange

section
variable {K ι κ : Type*} [Field K] [DecidableEq ι] {s : Finset ι} {b : ι → K} {x : ι → K}

/-- the numerator of the sum of `x j / (X - b j)` -/
noncomputable def cauchyPoly (s : Finset ι) (b x : ι → K) : K[X] :=
  ∑ j ∈ s, C (x j) * nodal (s.erase j) b

theorem degree_cauchyPoly_lt (s : Finset ι) (b x : ι → K) : (cauchyPoly s b x).degree < s.card := by
  refine (degree_sum_le s _).trans_lt ((Finset.sup_lt_iff (WithBot.bot_lt_coe _)).mpr fun j hj => ?_)
  have hlt : (s.erase j).card < s.card := card_erase_lt_of_mem hj
  calc (C (x j) * nodal (s.erase j) b).degree
      ≤ (C (x j)).degree + (nodal (s.erase j) b).degree := degree_mul_le _ _
    _ ≤ 0 + ((s.erase j).card : WithBot ℕ) := add_le_add degree_C_le (degree_nodal).le
    _ < s.card := by
      rw [zero_add]
      exact_mod_cast hlt

theorem eval_cauchyPoly {p : K} (hp : ∀ j ∈ s, p ≠ b j) :
    (cauchyPoly s b x).eval p = (nodal s b).eval p * ∑ j ∈ s, (p - b j)⁻¹ * x j := by
  unfold cauchyPoly
  rw [eval_finsetSum, mul_sum]
  refine sum_congr rfl fun j hj => ?_
  have hne : p - b j ≠ 0 := sub_ne_zero.mpr (hp j hj)
  rw [nodal_eq_mul_nodal_erase hj, eval_mul, eval_mul, eval_C, eval_sub, eval_X, eval_C]
  field_simp

theorem eval_cauchyPoly_pole {j : ι} (hj : j ∈ s) :
    (cauchyPoly s b x).eval (b j) = x j * (nodal (s.erase j) b).eval (b j) := by
  unfold cauchyPoly
  rw [eval_finsetSum, sum_eq_single j]
  · rw [eval_mul, eval_C]
  · intro i _ hij
    rw [eval_mul, eval_nodal_at_node (mem_erase.mpr ⟨hij.symm, hj⟩), mul_zero]
  · intro hno
    exact absurd hj hno

theorem cauchy_indep {rows : Finset κ} {a : κ → K} (ha : Set.InjOn a rows) (hb : Set.InjOn b s)
    (hab : ∀ i ∈ rows, ∀ j ∈ s, a i ≠ b j) (hcard : s.card ≤ rows.card)
    (hsum : ∀ i ∈ rows, ∑ j ∈ s, (a i - b j)⁻¹ * x j = 0) {j : ι} (hj : j ∈ s) : x j = 0 := by
  classical
  have hzero : cauchyPoly s b x = 0 := by
    refine eq_zero_of_degree_lt_of_eval_finset_eq_zero (rows.image a) ?_ fun p hp => ?_
    · rw [card_image_of_injOn ha]
      exact (degree_cauchyPoly_lt s b x).trans_le (by exact_mod_cast hcard)
    · obtain ⟨i, hi, rfl⟩ := mem_image.mp hp
      rw [eval_cauchyPoly (hab i hi), hsum i hi, mul_zero]
  have hpole := eval_cauchyPoly_pole (b := b) (x := x) hj
  rw [hzero, eval_zero] at hpole
  refine (mul_eq_zero.mp hpole.symm).resolve_right (eval_nodal_not_at_node fun i hi h => ?_)
  obtain ⟨hij, hi⟩ := mem_erase.mp hi
  exact hij (hb hi hj h.symm)

end

end Mlrc
