import Mathlib

/-!
# Row operations on square systems

A matrix is a function of a row and a column; only the entries below `n` count.  The two sides of a
system `A x = B y` are changed by the same row operation, and the solutions stay the same.

* `SameSol.swap`, `SameSol.scale`, `SameSol.clear`   the three row operations keep the solutions;
* `Reduced.clear`   clearing with a pivot makes one more unit column;
* `Reduced.vecMul_eq`   a row vector is kept in the reduced columns;
* `Reduced.exists_ker`   a column without pivot gives a nonzero kernel vector;
* `SameSol.left_inv`, `SameSol.right_inv`   a fully reduced system holds the inverse.
-/

set_option linter.unusedSectionVars false

namespace Mlrc

open Finset

variable {i j n r c : ℕ}

abbrev Mat (K : Type*) := ℕ → ℕ → K

def unitMat {K : Type*} [Zero K] [One K] : Mat K := fun i j => if i = j then 1 else 0

theorem unitMat_of_ne {K : Type*} [Zero K] [One K] (h : i ≠ j) :
    unitMat (K := K) i j = 0 := if_neg h

/-- exchange of the rows `i` and `j` -/
def swapRows {K : Type*} (i j : ℕ) (M : Mat K) : Mat K := fun r => M (Equiv.swap i j r)

section
variable {K : Type*} [Field K]

/-- row `i` times `t` -/
def scaleRow (i : ℕ) (t : K) (M : Mat K) : Mat K := fun r c => if r = i then M r c * t else M r c

/-- every row `r` other than `i` minus `f r` times row `i` -/
def clearRows (i : ℕ) (f : ℕ → K) (M : Mat K) : Mat K :=
  fun r c => if r = i then M r c else M r c - f r * M i c

/-- the entry `r` of `M x` -/
def rowVal (n : ℕ) (M : Mat K) (x : ℕ → K) (r : ℕ) : K := ∑ c ∈ range n, M r c * x c

theorem rowVal_swapRows (n i j : ℕ) (M : Mat K) (x : ℕ → K) (r : ℕ) :
    rowVal n (swapRows i j M) x r = rowVal n M x (Equiv.swap i j r) := rfl

theorem rowVal_scaleRow (n i : ℕ) (t : K) (M : Mat K) (x : ℕ → K) (r : ℕ) :
    rowVal n (scaleRow i t M) x r = if r = i then rowVal n M x r * t else rowVal n M x r := by
  unfold rowVal scaleRow
  split
  · rw [sum_mul]
    exact sum_congr rfl fun c _ => by ring
  · rfl

theorem rowVal_clearRows (n i : ℕ) (f : ℕ → K) (M : Mat K) (x : ℕ → K) (r : ℕ) :
    rowVal n (clearRows i f M) x r =
      if r = i then rowVal n M x r else rowVal n M x r - f r * rowVal n M x i := by
  unfold rowVal clearRows
  split
  · rfl
  · rw [mul_sum, ← sum_sub_distrib]
    exact sum_congr rfl fun c _ => by ring

theorem rowVal_unitMat (hr : r < n) (x : ℕ → K) : rowVal n unitMat x r = x r := by
  simp [rowVal, unitMat, hr]

theorem rowVal_congr {M : Mat K} {x y : ℕ → K} (h : ∀ c < n, x c = y c) (r : ℕ) :
    rowVal n M x r = rowVal n M y r :=
  sum_congr rfl fun c hc => by rw [h c (mem_range.mp hc)]

theorem rowVal_zero (n : ℕ) (M : Mat K) (r : ℕ) : rowVal n M (fun _ => 0) r = 0 := by
  simp [rowVal]

/-- the entry `c` of a row vector times `M` -/
def vecMul (n : ℕ) (v : ℕ → K) (M : Mat K) (c : ℕ) : K := ∑ r ∈ range n, v r * M r c

theorem vecMul_vecMul (n : ℕ) (v : ℕ → K) (A B : Mat K) (c : ℕ) :
    vecMul n (vecMul n v B) A c = ∑ r ∈ range n, v r * rowVal n B (fun j => A j c) r := by
  unfold vecMul rowVal
  simp only [sum_mul, mul_sum]
  rw [sum_comm]
  exact sum_congr rfl fun r _ => sum_congr rfl fun j _ => mul_assoc _ _ _

theorem rowVal_unit (hc : c < n) (M : Mat K) (r : ℕ) :
    rowVal n M (fun i => if i = c then 1 else 0) r = M r c := by
  simp [rowVal, hc]

theorem sum_map_rows {ι : Type*} (w : ι → K) (g : ι → ℕ → K) (d : ℕ → K) (n : ℕ) (l : List ι) :
    (l.map fun b => w b * ∑ j ∈ range n, g b j * d j).sum =
      ∑ j ∈ range n, (l.map fun b => w b * g b j).sum * d j := by
  induction l with
  | nil => simp
  | cons b l ih =>
    simp only [List.map_cons, List.sum_cons, add_mul, sum_add_distrib]
    rw [ih, mul_sum]
    congr 1
    exact sum_congr rfl fun j _ => (mul_assoc _ _ _).symm

/-! ## Solutions -/

/-- `x` and `y` solve `A x = B y` -/
def Sol (n : ℕ) (A B : Mat K) (x y : ℕ → K) : Prop := ∀ r < n, rowVal n A x r = rowVal n B y r

/-- the systems `A x = B y` and `A' x = B' y` have the same solutions -/
def SameSol (n : ℕ) (A B A' B' : Mat K) : Prop := ∀ x y, Sol n A' B' x y ↔ Sol n A B x y

namespace SameSol

variable {n : ℕ} {A B A' B' : Mat K}

theorem refl (n : ℕ) (A B : Mat K) : SameSol n A B A B := fun _ _ => Iff.rfl

theorem apply (h : SameSol n A unitMat A' B') (x : ℕ → K) (hr : r < n) :
    rowVal n A' x r = rowVal n B' (rowVal n A x) r :=
  (h x (rowVal n A x)).mpr (fun _ hr => (rowVal_unitMat hr _).symm) r hr

theorem swap (h : SameSol n A B A' B') (hi : i < n) (hj : j < n) :
    SameSol n A B (swapRows i j A') (swapRows i j B') := by
  intro x y
  rw [← h x y]
  have hlt : ∀ r < n, Equiv.swap i j r < n := by
    intro r hr
    rw [Equiv.swap_apply_def]
    split_ifs <;> assumption
  constructor
  · intro hs r hr
    have := hs _ (hlt r hr)
    rwa [rowVal_swapRows, rowVal_swapRows, Equiv.swap_apply_self] at this
  · intro hs r hr
    rw [rowVal_swapRows, rowVal_swapRows]
    exact hs _ (hlt r hr)

theorem scale (h : SameSol n A B A' B') (i : ℕ) {t : K} (ht : t ≠ 0) :
    SameSol n A B (scaleRow i t A') (scaleRow i t B') := by
  intro x y
  rw [← h x y]
  refine forall₂_congr fun r _ => ?_
  rw [rowVal_scaleRow, rowVal_scaleRow]
  split
  · exact mul_left_inj' ht
  · rfl

theorem clear (h : SameSol n A B A' B') (hi : i < n) (f : ℕ → K) :
    SameSol n A B (clearRows i f A') (clearRows i f B') := by
  intro x y
  rw [← h x y]
  -- row `i` itself is kept, so its equation is available in both directions
  constructor
  · intro hs r hr
    have h1 := hs r hr
    have h2 := hs i hi
    rw [rowVal_clearRows, rowVal_clearRows] at h1 h2
    rw [if_pos rfl, if_pos rfl] at h2
    split at h1
    · exact h1
    · rwa [h2, sub_left_inj] at h1
  · intro hs r hr
    rw [rowVal_clearRows, rowVal_clearRows, hs r hr, hs i hi]

end SameSol

/-! ## Reduced columns -/

/-- the first `i` columns are unit columns -/
def Reduced (n i : ℕ) (A : Mat K) : Prop := ∀ c < i, ∀ r < n, A r c = unitMat r c

namespace Reduced

variable {n i : ℕ} {A : Mat K}

theorem zero (n : ℕ) (A : Mat K) : Reduced n 0 A := fun _ hc => absurd hc (Nat.not_lt_zero _)

theorem swap (h : Reduced n i A) (hj : i ≤ j) (hi : i < n) (hjn : j < n) :
    Reduced n i (swapRows i j A) := by
  intro c hc r hr
  unfold swapRows
  rw [Equiv.swap_apply_def]
  split_ifs with h1 h2
  · rw [h c hc j hjn, unitMat_of_ne (by omega), unitMat_of_ne (by omega)]
  · rw [h c hc i hi, unitMat_of_ne (by omega), unitMat_of_ne (by omega)]
  · exact h c hc r hr

theorem clear (h : Reduced n i A) (hi : i < n) (hp : A i i ≠ 0) : Reduced n (i + 1)
      (clearRows i (fun r => scaleRow i (A i i)⁻¹ A r i) (scaleRow i (A i i)⁻¹ A)) := by
  intro c hc r hr
  unfold clearRows scaleRow
  rcases Nat.lt_succ_iff_lt_or_eq.mp hc with hc | rfl
  · have h0 : A i c = 0 := by rw [h c hc i hi, unitMat_of_ne (by omega)]
    by_cases hri : r = i
    · simp only [hri, if_true, h0, zero_mul]
      rw [unitMat_of_ne (by omega)]
    · simp only [hri, if_false, if_true, h0, zero_mul, mul_zero, sub_zero]
      exact h c hc r hr
  · by_cases hrc : r = c
    · simp [hrc, unitMat, hp]
    · simp [hrc, unitMat, hp]

theorem vecMul_eq (h : Reduced n i A) (v : ℕ → K) (hc : c < i) (hn : c < n) :
    vecMul n v A c = v c := by
  unfold vecMul
  rw [sum_congr rfl fun r hr => by rw [h c hc r (mem_range.mp hr)]]
  simp [unitMat, hn]

theorem exists_ker (h : Reduced n i A) (hi : i < n) (hp : ∀ r < n, i ≤ r → A r i = 0) :
    ∃ x : ℕ → K, (∀ r < n, rowVal n A x r = 0) ∧ x i ≠ 0 ∧ ∀ c, i < c → x c = 0 := by
  let x : ℕ → K := fun c => if c < i then - A c i else if c = i then 1 else 0
  have hx0 : ∀ c, ¬ c < i + 1 → x c = 0 := by
    intro c hc
    simp only [x]
    rw [if_neg (by omega), if_neg (by omega)]
  refine ⟨x, fun r hr => ?_, by simp [x], fun c hc => hx0 c (by omega)⟩
  have hsub : range (i + 1) ⊆ range n := range_subset_range.mpr hi
  have hcut : rowVal n A x r = ∑ c ∈ range (i + 1), A r c * x c := by
    refine (sum_subset hsub fun c _ hc => ?_).symm
    rw [hx0 c (by simpa using hc), mul_zero]
  have hleft : ∑ c ∈ range i, A r c * x c = ∑ c ∈ range i, (if r = c then - A c i else 0) := by
    refine sum_congr rfl fun c hc => ?_
    have hci := mem_range.mp hc
    rw [h c hci r hr, unitMat, ite_mul, one_mul, zero_mul]
    simp [x, hci]
  rw [hcut, sum_range_succ, hleft, sum_ite_eq]
  simp only [mem_range, x, lt_irrefl, if_false, if_true, mul_one]
  split
  · ring
  · rw [hp r hr (by omega), add_zero]

end Reduced

/-! ## The inverse -/

def Nonsing (n : ℕ) (A : Mat K) : Prop :=
  ∀ x : ℕ → K, (∀ r < n, rowVal n A x r = 0) → ∀ c < n, x c = 0

section
variable {n : ℕ} {A A' B' : Mat K}

section
variable (h : SameSol n A unitMat A' B')
include h

theorem SameSol.ker {x : ℕ → K} (hx : ∀ r < n, rowVal n A' x r = 0) :
    ∀ r < n, rowVal n A x r = 0 := by
  have hs : Sol n A' B' x (fun _ => 0) := fun r hr => by rw [hx r hr, rowVal_zero]
  intro r hr
  rw [(h x fun _ => 0).mp hs r hr, rowVal_zero]

theorem SameSol.solve (hr : Reduced n n A') (x y : ℕ → K) :
    (∀ r < n, x r = rowVal n B' y r) ↔ ∀ r < n, rowVal n A x r = y r := by
  have hid : ∀ r < n, rowVal n A' x r = x r := by
    intro r hrn
    rw [← rowVal_unitMat hrn x]
    exact sum_congr rfl fun c hc => by rw [hr c (mem_range.mp hc) r hrn]
  have key := h x y
  unfold Sol at key
  constructor
  · intro hx r hrn
    rw [key.mp (fun r hr => (hid r hr).trans (hx r hr)) r hrn, rowVal_unitMat hrn]
  · intro hx r hrn
    rw [← hid r hrn]
    exact key.mpr (fun r hr => (hx r hr).trans (rowVal_unitMat hr y).symm) r hrn

theorem SameSol.nonsing (hr : Reduced n n A') : Nonsing n A := by
  intro x hx c hc
  rw [(h.solve hr x fun _ => 0).mpr hx c hc, rowVal_zero]

theorem SameSol.left_inv (hr : Reduced n n A') (x : ℕ → K)
    (hc : c < n) : rowVal n B' (rowVal n A x) c = x c :=
  ((h.solve hr x (rowVal n A x)).mpr (fun _ _ => rfl) c hc).symm

theorem SameSol.right_inv (hr : Reduced n n A') (y : ℕ → K)
    (hrn : r < n) : rowVal n A (rowVal n B' y) r = y r :=
  (h.solve hr (rowVal n B' y) y).mp (fun _ _ => rfl) r hrn

end

end

end

end Mlrc
