import Mlrc.Algebra.RowOps

/-!
# Independent columns and square subsystems

`M` has `m` rows and `f` columns.  Its columns are independent exactly when some `f` of its rows
form a nonsingular square matrix.

* `nonsing_iff_isUnit`, `toMatrix_mul_eq_one`   systems as square matrices;
* `Nonsing.exists_sol`   a nonsingular system has a solution for every right side;
* `Nonsing.row_ne_zero`, `Nonsing.row_injective`   its rows are nonzero and different;
* `Nonsing.col_ne_zero`, `Nonsing.col_injective`   so are its columns;
* `indepCols_of_rows`, `exists_rows_of_indepCols`   the choice of rows, as an increasing list of row
  numbers.
-/

namespace Mlrc

open Finset

variable {n r : ℕ}

variable {K : Type*} [Field K]

/-- the square matrix of the entries below `n` -/
def toMatrix (n : ℕ) (A : Mat K) : Matrix (Fin n) (Fin n) K := fun i j => A i j

/-- a vector read as a function on all numbers -/
def extendZero {n : ℕ} (x : Fin n → K) (c : ℕ) : K := if h : c < n then x ⟨c, h⟩ else 0

theorem extendZero_val (x : Fin n → K) (c : Fin n) : extendZero x c = x c := by
  rw [extendZero, dif_pos c.isLt]

theorem toMatrix_mulVec (n : ℕ) (A : Mat K) (x : ℕ → K) (r : Fin n) :
    (toMatrix n A).mulVec (fun c => x c) r = rowVal n A x r := by
  rw [rowVal, sum_range]
  rfl

theorem toMatrix_mul_eq_one {A B : Mat K}
    (h : ∀ x : ℕ → K, ∀ r < n, rowVal n B (rowVal n A x) r = x r) :
    toMatrix n B * toMatrix n A = 1 := by
  refine Matrix.ext_of_mulVec_single fun c => ?_
  rw [← Matrix.mulVec_mulVec, Matrix.one_mulVec]
  funext r
  have hA : (toMatrix n A).mulVec (Pi.single c 1) =
      fun i : Fin n => rowVal n A (extendZero (Pi.single c 1)) i := by
    funext i
    rw [← toMatrix_mulVec]
    simp only [extendZero_val]
  rw [hA, toMatrix_mulVec, h _ r r.isLt, extendZero_val]

theorem nonsing_iff_isUnit (n : ℕ) (A : Mat K) : Nonsing n A ↔ IsUnit (toMatrix n A) := by
  rw [← Matrix.mulVec_injective_iff_isUnit]
  refine Iff.trans ?_ (injective_iff_map_eq_zero (toMatrix n A).mulVecLin).symm
  constructor
  · intro h x hx
    funext c
    rw [← extendZero_val x c]
    refine h (extendZero x) (fun r hr => ?_) c c.isLt
    have hr0 : (toMatrix n A).mulVec x ⟨r, hr⟩ = 0 := congrFun hx ⟨r, hr⟩
    rw [← toMatrix_mulVec n A (extendZero x) ⟨r, hr⟩]
    simpa only [extendZero_val] using hr0
  · intro h x hx c hc
    have hzero := h (fun c : Fin n => x c) (funext fun r => by
      show (toMatrix n A).mulVec (fun c : Fin n => x c) r = 0
      rw [toMatrix_mulVec, hx r r.isLt])
    exact congrFun hzero ⟨c, hc⟩

theorem Nonsing.exists_sol {A : Mat K} (h : Nonsing n A) (y : ℕ → K) :
    ∃ x : ℕ → K, ∀ r < n, rowVal n A x r = y r := by
  have hsurj := Matrix.mulVec_surjective_iff_isUnit.mpr ((nonsing_iff_isUnit n A).mp h)
  obtain ⟨x, hx⟩ := hsurj fun r => y r
  refine ⟨extendZero x, fun r hr => ?_⟩
  have := congrFun hx ⟨r, hr⟩
  rw [← toMatrix_mulVec n A (extendZero x) ⟨r, hr⟩]
  simpa only [extendZero_val] using this

theorem Nonsing.row_ne_zero {A : Mat K} (h : Nonsing n A) (hr : r < n) : ∃ c < n, A r c ≠ 0 := by
  by_contra hall
  push Not at hall
  obtain ⟨x, hx⟩ := h.exists_sol fun _ => 1
  have hzero : rowVal n A x r = 0 :=
    sum_eq_zero fun c hc => by rw [hall c (mem_range.mp hc), zero_mul]
  exact one_ne_zero ((hx r hr).symm.trans hzero)

theorem Nonsing.row_injective {A : Mat K} (h : Nonsing n A) {s : ℕ} (hr : r < n)
    (hs : s < n) (heq : ∀ c < n, A r c = A s c) : r = s := by
  by_contra hne
  obtain ⟨x, hx⟩ := h.exists_sol fun i => if i = r then 1 else 0
  have hsame : rowVal n A x r = rowVal n A x s :=
    sum_congr rfl fun c hc => by rw [heq c (mem_range.mp hc)]
  rw [hx r hr, hx s hs, if_pos rfl, if_neg (Ne.symm hne)] at hsame
  exact one_ne_zero hsame

theorem Nonsing.vecMul_injective {A : Mat K} (h : Nonsing n A) {v w : ℕ → K}
    (heq : ∀ c < n, vecMul n v A c = vecMul n w A c) (hr : r < n) : v r = w r := by
  obtain ⟨x, hx⟩ := h.exists_sol fun i => if i = r then 1 else 0
  have hpick : ∀ u : ℕ → K, u r = ∑ c ∈ range n, vecMul n u A c * x c := by
    intro u
    calc u r = ∑ q ∈ range n, u q * rowVal n A x q := by
          rw [sum_congr rfl fun q hq => by rw [hx q (mem_range.mp hq)]]
          simp [hr]
      _ = ∑ c ∈ range n, vecMul n u A c * x c := by
          unfold rowVal vecMul
          simp only [mul_sum, sum_mul]
          rw [sum_comm]
          exact sum_congr rfl fun c _ => sum_congr rfl fun q _ => (mul_assoc _ _ _).symm
  rw [hpick v, hpick w]
  exact sum_congr rfl fun c hc => by rw [heq c (mem_range.mp hc)]

theorem Nonsing.col_ne_zero {A : Mat K} (h : Nonsing n A) {c : ℕ} (hc : c < n) :
    ∃ r < n, A r c ≠ 0 := by
  by_contra hall
  push Not at hall
  have hx := h (fun i => if i = c then 1 else 0) (fun r hr => by
    rw [rowVal, sum_congr rfl fun i _ => mul_ite (i = c) (A r i) 1 0]
    simp [hall r hr]) c hc
  rw [if_pos rfl] at hx
  exact one_ne_zero hx

theorem Nonsing.col_injective {A : Mat K} (h : Nonsing n A) {c d : ℕ} (hc : c < n)
    (hd : d < n) (heq : ∀ r < n, A r c = A r d) : c = d := by
  by_contra hne
  -- the difference of the two unit vectors is a solution
  have hx := h (fun i => (if i = c then 1 else 0) - if i = d then 1 else 0) (fun r hr => by
    simp only [rowVal, mul_sub, mul_ite, mul_one, mul_zero, sum_sub_distrib, sum_ite_eq',
      mem_range, hc, hd, if_true]
    rw [heq r hr, sub_self]) c hc
  rw [if_pos rfl, if_neg hne, sub_zero] at hx
  exact one_ne_zero hx

/-! ## Choosing rows -/

/-- the columns of an `m` by `f` matrix as vectors -/
def colVecs (m f : ℕ) (M : Mat K) : Fin f → Fin m → K := fun t e => M e t

/-- the submatrix of the rows listed in `sel` -/
def rowsOf (M : Mat K) (sel : List ℕ) : Mat K := fun i c => M (sel.getD i 0) c

theorem nonsing_rowsOf_iff {M : Mat K} {sel : List ℕ} (hlen : sel.length = n) :
    Nonsing n (rowsOf M sel) ↔ ∀ x : ℕ → K, (∀ e ∈ sel, rowVal n M x e = 0) → ∀ c < n, x c = 0 := by
  have hrows : ∀ x : ℕ → K, (∀ r < n, rowVal n (rowsOf M sel) x r = 0) ↔
      ∀ e ∈ sel, rowVal n M x e = 0 := by
    intro x
    constructor
    · intro h e he
      obtain ⟨i, hi, rfl⟩ := List.getElem_of_mem he
      have hi' := h i (hlen ▸ hi)
      unfold rowVal rowsOf at hi'
      rw [List.getD_eq_getElem _ _ hi] at hi'
      exact hi'
    · intro h i hi
      unfold rowVal rowsOf
      rw [List.getD_eq_getElem _ _ (hlen.symm ▸ hi)]
      exact h _ (List.getElem_mem _)
  unfold Nonsing
  simp only [hrows]

theorem indepCols_of_rows {m f : ℕ} {M : Mat K} {sel : List ℕ} (hlen : sel.length = f)
    (hlt : ∀ e ∈ sel, e < m) (h : Nonsing f (rowsOf M sel)) : LinearIndependent K (colVecs m f M) := by
  rw [Fintype.linearIndependent_iff]
  intro g hg t
  rw [← extendZero_val g t]
  refine h (extendZero g) (fun r hr => ?_) t t.isLt
  have hmem : sel.getD r 0 ∈ sel := by
    rw [List.getD_eq_getElem _ _ (by omega)]
    exact List.getElem_mem _
  have := congrFun hg ⟨sel.getD r 0, hlt _ hmem⟩
  simp only [Finset.sum_apply, Pi.smul_apply, smul_eq_mul, colVecs, Pi.zero_apply] at this
  rw [rowVal, sum_range, ← this]
  exact sum_congr rfl fun c _ => by rw [extendZero_val, mul_comm]; rfl

theorem exists_rows_of_indepCols {m f : ℕ} {M : Mat K} (h : LinearIndependent K (colVecs m f M)) :
    ∃ sel : List ℕ, sel.Pairwise (· < ·) ∧ sel.length = f ∧ (∀ e ∈ sel, e < m) ∧
      Nonsing f (rowsOf M sel) := by
  let A : Matrix (Fin m) (Fin f) K := fun e t => M e t
  have hrank : A.rank = f := by
    rw [← Matrix.rank_transpose, LinearIndependent.rank_matrix (M := A.transpose) h, Fintype.card_fin]
  rw [Matrix.rank_eq_finrank_span_row] at hrank
  -- a basis of the row space, picked from the rows
  obtain ⟨κ, a, hinj, hspan, hind⟩ := exists_linearIndependent' K A.row
  let _ : Fintype κ := Fintype.ofInjective a hinj
  have hcard : Fintype.card κ = f := by
    rw [← finrank_span_eq_card hind, hspan, hrank]
  let S : Finset ℕ := univ.image fun x : κ => (a x : ℕ)
  have hS : (S.sort).length = f := by
    rw [length_sort, ← hcard, ← card_univ]
    exact card_image_of_injective _ (Fin.val_injective.comp hinj)
  have hpick : ∀ i : Fin f, ∃ x : κ, (a x : ℕ) = (S.sort).getD i 0 := by
    intro i
    have hmem : (S.sort).getD i 0 ∈ S.sort := by
      rw [List.getD_eq_getElem _ _ (by omega)]
      exact List.getElem_mem _
    obtain ⟨x, -, hx⟩ := mem_image.mp ((mem_sort _).mp hmem)
    exact ⟨x, hx⟩
  choose g hg using hpick
  have hginj : Function.Injective g := by
    intro i j hij
    have hval := congrArg (fun x => (a x : ℕ)) hij
    simp only [hg] at hval
    rw [List.getD_eq_getElem _ _ (by omega), List.getD_eq_getElem _ _ (by omega)] at hval
    exact Fin.ext ((S.sort_nodup _).getElem_inj_iff.mp hval)
  refine ⟨S.sort, S.sortedLT_sort.pairwise, hS, fun e he => ?_, ?_⟩
  · obtain ⟨x, -, rfl⟩ := mem_image.mp ((mem_sort _).mp he)
    exact (a x).isLt
  · rw [nonsing_iff_isUnit, ← Matrix.linearIndependent_rows_iff_isUnit]
    have hrows : (toMatrix f (rowsOf M S.sort)).row = (A.row ∘ a) ∘ g := by
      funext i c
      show M ((S.sort).getD i 0) c = M (a (g i)) c
      rw [hg]
    rw [hrows]
    exact hind.comp g hginj

end Mlrc
