import Mlrc.Algebra.RowOps

/-!
# Weighted sums of powers

Weights `w b` at the points `x b` are tested with the powers `x b ^ c`.  As many powers as there are
points decide about all functions of the points.

* `sum_map_apply`   weights that act on low powers as a point does, act so on every function;
* `exists_eq_of_sum_map`   such a point is one of theirs;
* `exists_poly_of_nodes`   the coefficients of a polynomial with given roots;
* `coeff_eq_zero_of_nodes` a polynomial with too many roots.
-/

namespace Mlrc

open Finset Polynomial Lagrange

variable {K ι : Type*} [Field K] {nodes : Finset K} {n : ℕ}

theorem sum_map_apply {l : List ι} {w x : ι → K} {y : K} (hx : ∀ b ∈ l, x b ∈ nodes) (hy : y ∈ nodes)
    (hn : nodes.card ≤ n) (h : ∀ c < n, (l.map fun b => w b * x b ^ c).sum = y ^ c) (g : K → K) :
    (l.map fun b => w b * g (x b)).sum = g y := by
  classical
  set p := interpolate nodes id g with hp
  have hdeg : p.degree < n :=
    (degree_interpolate_lt g Function.injective_id.injOn).trans_le (by exact_mod_cast hn)
  have hvalue : ∀ q ∈ nodes, g q = ∑ c ∈ range n, q ^ c * p.coeff c := by
    intro q hq
    rw [← eval_interpolate_at_node g Function.injective_id.injOn hq, id, ← hp, eval_eq_sum]
    refine (sum_subset (fun c hc => ?_) fun c _ hc => ?_).trans (sum_congr rfl fun c _ => mul_comm _ _)
    · have hlt : (c : WithBot ℕ) < n := (le_degree_of_mem_supp c hc).trans_lt hdeg
      exact mem_range.mpr (by exact_mod_cast hlt)
    · show p.coeff c * q ^ c = 0
      rw [notMem_support_iff.mp hc, zero_mul]
  calc (l.map fun b => w b * g (x b)).sum
      = (l.map fun b => w b * ∑ c ∈ range n, x b ^ c * p.coeff c).sum :=
        congrArg List.sum (List.map_congr_left fun b hb => by rw [hvalue _ (hx b hb)])
    _ = ∑ c ∈ range n, (l.map fun b => w b * x b ^ c).sum * p.coeff c :=
        sum_map_rows w (fun b c => x b ^ c) p.coeff n l
    _ = g y := by
        rw [hvalue y hy]
        exact sum_congr rfl fun c hc => by rw [h c (mem_range.mp hc)]

theorem exists_eq_of_sum_map {l : List ι} {w x : ι → K} {y : K} (hn : l.length < n)
    (h : ∀ c < n, (l.map fun b => w b * x b ^ c).sum = y ^ c) : ∃ b ∈ l, x b = y := by
  classical
  by_contra hno
  push Not at hno
  have hcard : (insert y (l.map x).toFinset).card ≤ n := by
    refine (card_insert_le _ _).trans (Nat.succ_le_of_lt ((List.toFinset_card_le _).trans_lt ?_))
    rwa [List.length_map]
  have hpick := sum_map_apply
    (fun b hb => mem_insert_of_mem (List.mem_toFinset.mpr (List.mem_map_of_mem (f := x) hb)))
    (mem_insert_self y _) hcard h fun v => if v = y then 1 else 0
  rw [if_pos rfl] at hpick
  refine one_ne_zero (hpick.symm.trans (List.sum_eq_zero fun v hv => ?_))
  obtain ⟨b, hb, rfl⟩ := List.mem_map.mp hv
  rw [if_neg (hno b hb), mul_zero]

theorem exists_poly_of_nodes (hn : nodes.card < n) :
    ∃ y : ℕ → K, (∃ c < n, y c ≠ 0) ∧ (∀ c, n ≤ c → y c = 0) ∧
      ∀ p ∈ nodes, ∑ c ∈ range n, p ^ c * y c = 0 := by
  have hdeg : (nodal nodes id).natDegree = nodes.card := natDegree_nodal
  refine ⟨(nodal nodes id).coeff, ⟨nodes.card, hn, ?_⟩, fun c hc => ?_, fun p hp => ?_⟩
  · rw [← hdeg, nodal_monic.coeff_natDegree]
    exact one_ne_zero
  · exact coeff_eq_zero_of_natDegree_lt (by omega)
  · have hroot : (nodal nodes id).eval p = 0 := eval_nodal_at_node (v := id) hp
    rw [eval_eq_sum_range' (show (nodal nodes id).natDegree < n by omega)] at hroot
    rw [← hroot]
    exact sum_congr rfl fun c _ => mul_comm _ _

theorem coeff_eq_zero_of_nodes (hn : n ≤ nodes.card) {y : ℕ → K}
    (h : ∀ p ∈ nodes, ∑ c ∈ range n, p ^ c * y c = 0) {c : ℕ} (hc : c < n) : y c = 0 := by
  let q : K[X] := ∑ c ∈ range n, C (y c) * X ^ c
  have hdeg : q.degree < nodes.card := by
    refine (degree_sum_le _ _).trans_lt ((Finset.sup_lt_iff (WithBot.bot_lt_coe _)).mpr fun d hd => ?_)
    refine (degree_C_mul_X_pow_le d (y d)).trans_lt ?_
    exact_mod_cast (mem_range.mp hd).trans_le hn
  have hzero : q = 0 := by
    refine eq_zero_of_degree_lt_of_eval_finset_eq_zero nodes hdeg fun p hp => ?_
    rw [eval_finsetSum, ← h p hp]
    refine sum_congr rfl fun d _ => ?_
    rw [eval_mul, eval_C, eval_pow, eval_X, mul_comm]
  have hcoeff : q.coeff c = y c := by
    rw [finsetSum_coeff]
    simp [coeff_X_pow, hc]
  rw [← hcoeff, hzero, coeff_zero]

end Mlrc
