import Mathlib.Data.Nat.Count

/-!
# Dealing bytes out in units

The bytes `0, 1, 2, ..` are dealt out to `k` columns in units of `U` bytes, one unit for each column in
a round.

* `column`, `place`   the column of a byte, and its position in it;
* `count_column_self`   a byte stands after the earlier bytes of its column;
* `count_column_add`   how a column grows within one unit;
* `mem_count_interval`   the positions that an interval of bytes fills.
-/

namespace Mlrc

open Nat

/-- the column of byte `x` -/
def column (U k x : ℕ) : ℕ := x / U % k

/-- the position of byte `x` in its column -/
def place (U k x : ℕ) : ℕ := x % U + U * (x / (k * U))

/-! ## Counting -/

theorem mem_count_interval (P : ℕ → Prop) [DecidablePred P] (o s p : ℕ) :
    count P o ≤ p ∧ p < count P (o + s) ↔
      ∃ x, o ≤ x ∧ x < o + s ∧ P x ∧ count P x = p := by
  induction s with
  | zero =>
    refine iff_of_false (fun h => ?_) (fun ⟨x, hx⟩ => ?_)
    · exact absurd (lt_of_le_of_lt h.1 h.2) (lt_irrefl _)
    · omega
  | succ s ih =>
    rw [← add_assoc, count_succ]
    have hmono : count P o ≤ count P (o + s) := count_monotone P (le_add_right o s)
    constructor
    · rintro ⟨hle, hlt⟩
      by_cases hp : p < count P (o + s)
      · obtain ⟨x, hox, hxs, hx⟩ := ih.mp ⟨hle, hp⟩
        exact ⟨x, hox, by omega, hx⟩
      · -- only the last number is left
        by_cases hP : P (o + s)
        · rw [if_pos hP] at hlt
          exact ⟨o + s, le_add_right o s, by omega, hP, by omega⟩
        · rw [if_neg hP] at hlt
          omega
    · rintro ⟨x, hox, hxs, hx, rfl⟩
      by_cases hlast : x = o + s
      · subst hlast
        rw [if_pos hx]
        exact ⟨hmono, by omega⟩
      · obtain ⟨hle, hlt⟩ := ih.mpr ⟨x, hox, by omega, hx, rfl⟩
        exact ⟨hle, by omega⟩

/-! ## Columns -/

section
variable {U k b : ℕ}

theorem column_lt (U : ℕ) (hk : 0 < k) (x : ℕ) : column U k x < k := mod_lt _ hk

theorem column_unit {m v : ℕ} (hv : v < U) : column U k (m * U + v) = m % k := by
  unfold column
  rw [mul_comm m U, mul_add_div (by omega), div_eq_of_lt hv, add_zero]

theorem count_column_unit (m : ℕ) {v : ℕ} (hv : v ≤ U) : count (column U k · = b) (m * U + v) =
      count (column U k · = b) (m * U) + if m % k = b then v else 0 := by
  induction v with
  | zero => rw [add_zero, ite_self, add_zero]
  | succ v ih =>
    rw [← add_assoc, count_succ, ih (by omega), column_unit (by omega)]
    split <;> rfl

theorem count_column_units (hb : b < k) (m : ℕ) :
    count (column U k · = b) (m * U) = U * (m / k) + if b < m % k then U else 0 := by
  induction m with
  | zero => rw [Nat.zero_mul, count_zero, Nat.zero_div, zero_mod, if_neg (Nat.not_lt_zero b),
      Nat.mul_zero]
  | succ m ih =>
    have hlt : m % k < k := mod_lt _ (by omega)
    rw [succ_mul, count_column_unit m (le_refl U), ih]
    rcases lt_or_ge (m % k + 1) k with hnext | hwrap
    · -- the round goes on
      have hmod : (m + 1) % k = m % k + 1 := by
        rw [add_mod, mod_eq_of_lt (show 1 < k by omega), mod_eq_of_lt hnext]
      have hdiv : (m + 1) / k = m / k := by
        rw [Nat.succ_div, if_neg, add_zero]
        intro hdvd
        rw [dvd_iff_mod_eq_zero, hmod] at hdvd
        cases hdvd
      rw [hmod, hdiv]
      split_ifs <;> omega
    · -- the last column of a round
      have hdvd : k ∣ m + 1 := by
        rw [dvd_iff_mod_eq_zero, add_mod, show m % k = k - 1 by omega]
        rcases lt_or_ge 1 k with h1 | h1
        · rw [mod_eq_of_lt h1, Nat.sub_add_cancel (le_of_lt h1), mod_self]
        · rw [show k = 1 by omega]
      rw [Nat.succ_div, if_pos hdvd, mod_eq_zero_of_dvd hdvd, if_neg (Nat.not_lt_zero b),
        mul_succ]
      split_ifs <;> omega

theorem count_column_self (hU : 0 < U) (hk : 0 < k) (x : ℕ) :
    Nat.count (column U k · = column U k x) x = place U k x := by
  have hx : x / U * U + x % U = x := div_add_mod' x U
  have hunit := count_column_unit (k := k) (b := column U k x) (x / U)
    (le_of_lt (mod_lt x hU))
  rw [hx, count_column_units (column_lt U hk x)] at hunit
  rw [hunit]
  unfold place column
  rw [if_pos rfl, if_neg (lt_irrefl _), add_zero, add_comm, mul_comm k U,
    Nat.div_div_eq_div_mul]

theorem count_column_add (hU : 0 < U) {x s : ℕ} (hs : s ≤ U - x % U) :
    count (column U k · = b) (x + s) =
      count (column U k · = b) x + if column U k x = b then s else 0 := by
  have hx : x / U * U + x % U = x := div_add_mod' x U
  have hlt := mod_lt x hU
  have hleft := count_column_unit (k := k) (b := b) (x / U) (show x % U + s ≤ U by omega)
  have hright := count_column_unit (k := k) (b := b) (x / U) (le_of_lt hlt)
  rw [← add_assoc, hx] at hleft
  rw [hx] at hright
  rw [hleft, hright]
  unfold column
  split_ifs <;> omega

theorem mem_column_interval (hU : 0 < U) (hk : 0 < k) (b o s p : ℕ) :
    count (column U k · = b) o ≤ p ∧ p < count (column U k · = b) (o + s) ↔
      ∃ x, o ≤ x ∧ x < o + s ∧ column U k x = b ∧ place U k x = p := by
  rw [mem_count_interval]
  refine exists_congr fun x => and_congr_right fun _ => and_congr_right fun _ =>
    and_congr_right fun hx => ?_
  rw [← hx, count_column_self hU hk]

theorem place_row (hU : 0 < U) (x : ℕ) :
    U * (x / (k * U)) ≤ place U k x ∧ place U k x < U * (x / (k * U)) + U := by
  have hlt := mod_lt x hU
  unfold place
  omega

end

end Mlrc
