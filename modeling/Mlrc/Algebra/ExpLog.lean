import Mathlib

/-!
# A field given by an exponential and a logarithm table

An additive commutative group `A` with an additive map `gen`, a table `exp` of the iterates of
`gen` and a table `log` that finds each nonzero element in it.  The product of two nonzero elements
is `exp (log a + log b)`.

* `mul_exp`   multiplying by `exp j` is applying `gen` `j` times;
* `ExpLog.toField`   the tables make `A` a field.

All ring laws come from `mul_exp`: distributivity is the additivity of `gen`.
-/

set_option linter.unusedSectionVars false

namespace Mlrc

open Function

/-- exponential and logarithm tables of an additive map of order `order` -/
structure ExpLog (A : Type*) [AddCommGroup A] where
  gen : A →+ A
  order : ℕ
  exp : ℕ → A
  log : A → ℕ
  exp_succ : ∀ i, exp (i + 1) = gen (exp i)
  exp_order : exp order = exp 0
  exp_ne_zero : ∀ i, exp i ≠ 0
  exp_log : ∀ a, a ≠ 0 → exp (log a) = a
  log_le : ∀ a, log a ≤ order

namespace ExpLog

variable {A : Type*} [AddCommGroup A] [DecidableEq A] (E : ExpLog A)

def mul (a b : A) : A := if a = 0 ∨ b = 0 then 0 else E.exp (E.log a + E.log b)

def inv (a : A) : A := if a = 0 then 0 else E.exp (E.order - E.log a)

theorem exp_add (i j : ℕ) : E.exp (i + j) = E.gen^[j] (E.exp i) := by
  induction j with
  | zero => rfl
  | succ j ih => rw [← Nat.add_assoc, E.exp_succ, ih, iterate_succ_apply']

theorem iterate_gen_zero (j : ℕ) : E.gen^[j] 0 = 0 := by
  induction j with
  | zero => rfl
  | succ j ih => rw [iterate_succ_apply', ih, map_zero]

theorem iterate_gen_add (j : ℕ) (a b : A) : E.gen^[j] (a + b) = E.gen^[j] a + E.gen^[j] b := by
  induction j with
  | zero => rfl
  | succ j ih => simp only [iterate_succ_apply', ih, map_add]

theorem exists_exp {a : A} (ha : a ≠ 0) : ∃ i, a = E.exp i := ⟨E.log a, (E.exp_log a ha).symm⟩

theorem mul_zero' (a : A) : E.mul a 0 = 0 := by simp [mul]

theorem mul_comm' (a b : A) : E.mul a b = E.mul b a := by
  simp only [mul, Nat.add_comm (E.log a), or_comm (a := a = 0)]

theorem mul_exp (a : A) (j : ℕ) : E.mul a (E.exp j) = E.gen^[j] a := by
  by_cases ha : a = 0
  · rw [ha, iterate_gen_zero, mul_comm', mul_zero']
  · have hj := E.exp_ne_zero j
    rw [mul, if_neg (by simp [ha, hj]), Nat.add_comm, exp_add, E.exp_log _ hj, ← exp_add,
      Nat.add_comm, exp_add, E.exp_log a ha]

theorem add_mul' (a b c : A) : E.mul (a + b) c = E.mul a c + E.mul b c := by
  by_cases hc : c = 0
  · simp [hc, mul_zero']
  · obtain ⟨j, rfl⟩ := E.exists_exp hc
    simp only [mul_exp, iterate_gen_add]

theorem mul_assoc' (a b c : A) : E.mul (E.mul a b) c = E.mul a (E.mul b c) := by
  by_cases hb : b = 0
  · rw [hb, E.mul_comm' 0 c, mul_zero', mul_zero', mul_comm', mul_zero', mul_zero']
  by_cases hc : c = 0
  · rw [hc, mul_zero', mul_zero', mul_zero']
  obtain ⟨i, rfl⟩ := E.exists_exp hb
  obtain ⟨j, rfl⟩ := E.exists_exp hc
  rw [mul_exp, mul_exp, mul_exp, ← exp_add, mul_exp, Nat.add_comm, iterate_add_apply]

theorem mul_one' (a : A) : E.mul a (E.exp 0) = a := mul_exp E a 0

theorem mul_inv' {a : A} (ha : a ≠ 0) : E.mul a (E.inv a) = E.exp 0 := by
  rw [inv, if_neg ha, mul_exp]
  conv_lhs => rw [← E.exp_log a ha]
  rw [← exp_add, E.exp_log a ha, Nat.add_sub_cancel' (E.log_le a), E.exp_order]

@[reducible] def toField : Field A where
  mul := E.mul
  one := E.exp 0
  inv := E.inv
  add_comm := add_comm
  left_distrib a b c := by
    show E.mul a (b + c) = E.mul a b + E.mul a c
    rw [mul_comm', add_mul', E.mul_comm' b, E.mul_comm' c]
  right_distrib := E.add_mul'
  zero_mul a := (E.mul_comm' 0 a).trans (E.mul_zero' a)
  mul_zero := E.mul_zero'
  mul_assoc := E.mul_assoc'
  one_mul a := (E.mul_comm' _ a).trans (E.mul_one' a)
  mul_one := E.mul_one'
  mul_comm := E.mul_comm'
  exists_pair_ne := ⟨0, E.exp 0, (E.exp_ne_zero 0).symm⟩
  mul_inv_cancel _ ha := E.mul_inv' ha
  inv_zero := if_pos rfl
  neg_add_cancel := neg_add_cancel
  sub_eq_add_neg := sub_eq_add_neg
  zsmul := (· • ·)
  zsmul_zero' := zero_zsmul
  zsmul_succ' n a := SubNegMonoid.zsmul_succ' n a
  zsmul_neg' n a := SubNegMonoid.zsmul_neg' n a
  nsmul := (· • ·)
  nsmul_zero := zero_nsmul
  nsmul_succ n a := AddMonoid.nsmul_succ n a
  nnqsmul := _
  nnqsmul_def _ _ := rfl
  qsmul := _
  qsmul_def _ _ := rfl

end ExpLog

end Mlrc
