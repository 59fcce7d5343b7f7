import Mlrc.Gf.Arith
import Mlrc.Algebra.Independent
import Mlrc.Data.Loop

/-!
# Gauss-Jordan inversion of a byte matrix

`gfInvertMatrix n inMat` is `gf_invert_matrix`: the reduced `in_mat` and the `out_mat` it leaves
behind, `none` for the return value `-1`.  A matrix has entries at all pairs; the source has the flat
`int` index `i * n + j`, which is the same below `n = 46341`.

* `InvertInv.step`   one turn of the outer loop keeps the solutions and reduces a column;
* `InvertInv.exists_ker`   a turn gives up only at a column without pivot;
* `gfInvertMatrix_cases`   what a run leaves behind, whether or not it gives up;
* `gfInvertMatrix_spec`   a result solves the same system and is fully reduced;
* `gfInvertMatrix_isSome_iff`  the inversion succeeds exactly on nonsingular matrices;
* `gfInvertMatrix_left_inv`   the result undoes the matrix;
* `gfInvertMatrix_inverse`   the result is the inverse matrix, and `in_mat` has become the identity;
* `vecMul_gfInvertOut`   what is left behind undoes the independent columns at the front;
* `gfInvertOut_unitColumn`, `gfInvertOut_duplicate`, `gfInvertOut_leading`   entries of what a run that
  gives up leaves behind.
-/

namespace Mlrc

open Option List

variable {n i c : ℕ} {inMat : Mat UInt8} {s : Mat UInt8 × Mat UInt8} {x : ℕ → Gf}

def toGf (M : Mat UInt8) : Mat Gf := fun r c => Gf.mk (M r c)

/-- `*= t` along row `i` -/
def gfScaleRow (i : ℕ) (t : UInt8) (M : Mat UInt8) : Mat UInt8 :=
  fun r c => if r = i then gfMul (M r c) t else M r c

/-- `^= temp * row i` along every other row, with `temp = temps r` -/
def gfClearRows (i : ℕ) (temps : ℕ → UInt8) (M : Mat UInt8) : Mat UInt8 :=
  fun r c => if r = i then M r c else M r c ^^^ gfMul (temps r) (M i c)

/-- the first row below `i` with a nonzero entry in column `i` -/
def findPivot (n i : ℕ) (inMat : Mat UInt8) : Option ℕ :=
  (range' (i + 1) (n - (i + 1))).find? fun j => inMat j i != 0

/-- the exchange for a zero diagonal entry; `none` if the column has no pivot -/
def gfPivotStep (n i : ℕ) (s : Mat UInt8 × Mat UInt8) : Option (Mat UInt8 × Mat UInt8) :=
  if s.1 i i = 0 then
    match findPivot n i s.1 with
    | none => none
    | some j => some (swapRows i j s.1, swapRows i j s.2)
  else some s

/-- scale row `i` by the inverse of the pivot, then clear column `i` in the other rows -/
def gfEliminate (i : ℕ) (s : Mat UInt8 × Mat UInt8) : Mat UInt8 × Mat UInt8 :=
  let temp := gfInv (s.1 i i)
  let inMat := gfScaleRow i temp s.1
  let outMat := gfScaleRow i temp s.2
  let temps := fun r => inMat r i
  (gfClearRows i temps inMat, gfClearRows i temps outMat)

def gfInvertStep (n : ℕ) (s : Mat UInt8 × Mat UInt8) (i : ℕ) : Option (Mat UInt8 × Mat UInt8) :=
  (gfPivotStep n i s).map (gfEliminate i)

/-- `gf_invert_matrix`: the final `in_mat` and `out_mat`, or `none` for `-1` -/
def gfInvertMatrix (n : ℕ) (inMat : Mat UInt8) : Option (Mat UInt8 × Mat UInt8) :=
  (range n).foldlM (gfInvertStep n) (inMat, unitMat)

/-- the `out_mat` that `gf_invert_matrix` leaves behind, whatever it returns -/
def gfInvertOut (n : ℕ) (inMat : Mat UInt8) : Mat UInt8 :=
  (loopState (gfInvertStep n) (range n) (inMat, unitMat)).2

/-! ## The byte operations are the row operations -/

theorem toGf_unitMat : toGf unitMat = unitMat := by
  funext r c
  unfold toGf unitMat
  split <;> rfl

theorem toGf_gfScaleRow (i : ℕ) (t : UInt8) (M : Mat UInt8) :
    toGf (gfScaleRow i t M) = scaleRow i (Gf.mk t) (toGf M) := by
  funext r c
  unfold toGf gfScaleRow scaleRow
  split
  · exact Gf.mk_gfMul _ _
  · rfl

theorem toGf_gfClearRows (i : ℕ) (temps : ℕ → UInt8) (M : Mat UInt8) :
    toGf (gfClearRows i temps M) = clearRows i (fun r => Gf.mk (temps r)) (toGf M) := by
  funext r c
  unfold toGf gfClearRows clearRows
  split
  · rfl
  · rw [Gf.mk_xor, Gf.mk_gfMul, CharTwo.sub_eq_add]

/-! ## One turn -/

theorem findPivot_some {j : ℕ} {M : Mat UInt8} (h : findPivot n i M = some j) :
    i < j ∧ j < n ∧ M j i ≠ 0 := by
  have hmem := mem_of_find?_eq_some h
  have hj := find?_some h
  rw [mem_range'_1] at hmem
  exact ⟨by omega, by omega, by simpa using hj⟩

theorem findPivot_none {M : Mat UInt8} (h : findPivot n i M = none) :
    ∀ j < n, i < j → M j i = 0 := by
  intro j hj hij
  have := find?_eq_none.mp h j (mem_range'_1.mpr (by omega))
  simpa using this

/-- what holds before turn `i` of the inversion of `inMat` -/
structure InvertInv (n : ℕ) (inMat : Mat UInt8) (i : ℕ) (s : Mat UInt8 × Mat UInt8) : Prop where
  sameSol : SameSol n (toGf inMat) unitMat (toGf s.1) (toGf s.2)
  reduced : Reduced n i (toGf s.1)

theorem InvertInv.init (n : ℕ) (inMat : Mat UInt8) : InvertInv n inMat 0 (inMat, unitMat) where
  sameSol := by rw [toGf_unitMat]; exact SameSol.refl n _ _
  reduced := Reduced.zero n _

section
variable (hi : i < n) (h : InvertInv n inMat i s)
include hi h

theorem InvertInv.pivot {s' : Mat UInt8 × Mat UInt8} (hs : gfPivotStep n i s = some s') :
    InvertInv n inMat i s' ∧ s'.1 i i ≠ 0 := by
  unfold gfPivotStep at hs
  split at hs
  · split at hs
    · cases hs
    · next j hj =>
      obtain ⟨hij, hjn, hp⟩ := findPivot_some hj
      cases hs
      refine ⟨⟨?_, ?_⟩, by simpa [swapRows] using hp⟩
      · exact h.sameSol.swap hi hjn
      · exact h.reduced.swap (le_of_lt hij) hi hjn
  · next hp =>
    cases hs
    exact ⟨h, hp⟩

theorem InvertInv.eliminate (hp : s.1 i i ≠ 0) : InvertInv n inMat (i + 1) (gfEliminate i s) := by
  have hp' : toGf s.1 i i ≠ 0 := by simpa [toGf] using hp
  have ht : Gf.mk (gfInv (s.1 i i)) = (toGf s.1 i i)⁻¹ := Gf.mk_gfInv _
  have htemps : (fun r => Gf.mk (gfScaleRow i (gfInv (s.1 i i)) s.1 r i)) =
      fun r => scaleRow i (toGf s.1 i i)⁻¹ (toGf s.1) r i := by
    funext r
    rw [← ht, ← toGf_gfScaleRow]
    rfl
  unfold gfEliminate
  constructor
  · simp only [toGf_gfClearRows, toGf_gfScaleRow, htemps, ht]
    exact (h.sameSol.scale i (inv_ne_zero hp')).clear hi _
  · simp only [toGf_gfClearRows, toGf_gfScaleRow, htemps, ht]
    exact h.reduced.clear hi hp'

theorem InvertInv.step {s' : Mat UInt8 × Mat UInt8} (hs : gfInvertStep n s i = some s') :
    InvertInv n inMat (i + 1) s' := by
  unfold gfInvertStep at hs
  rw [map_eq_some_iff] at hs
  obtain ⟨u, hu, rfl⟩ := hs
  obtain ⟨hinv, hp⟩ := h.pivot hi hu
  exact hinv.eliminate hi hp

theorem InvertInv.exists_ker (hs : gfInvertStep n s i = none) :
    ∃ x : ℕ → Gf, (∀ r < n, rowVal n (toGf inMat) x r = 0) ∧ x i ≠ 0 ∧ ∀ c, i < c → x c = 0 := by
  have hcol : ∀ r < n, i ≤ r → toGf s.1 r i = 0 := by
    unfold gfInvertStep gfPivotStep at hs
    rw [map_eq_none_iff] at hs
    split at hs
    · next hd =>
      split at hs
      · next hnone =>
        intro r hr hir
        refine Gf.mk_eq_zero.mpr ?_
        rcases lt_or_eq_of_le hir with hlt | rfl
        · exact findPivot_none hnone r hr hlt
        · exact hd
      · cases hs
    · cases hs
  obtain ⟨x, hx, hxi⟩ := h.reduced.exists_ker hi hcol
  exact ⟨x, h.sameSol.ker hx, hxi⟩

end

/-! ## The whole loop -/

theorem gfInvertMatrix_cases (n : ℕ) (inMat : Mat UInt8) (P : ℕ → Mat UInt8 × Mat UInt8 → Prop)
    (h0 : P 0 (inMat, unitMat))
    (hstep : ∀ i s s', i < n → InvertInv n inMat i s → P i s → gfInvertStep n s i = some s' →
      P (i + 1) s') : ∃ s, s.2 = gfInvertOut n inMat ∧
      ((gfInvertMatrix n inMat = some s ∧ InvertInv n inMat n s ∧ P n s) ∨
      (gfInvertMatrix n inMat = none ∧ ∃ i < n, InvertInv n inMat i s ∧ P i s ∧
        gfInvertStep n s i = none)) := by
  refine ⟨_, rfl, ?_⟩
  have hcases := loopState_range (fun i s => InvertInv n inMat i s ∧ P i s) n
    ⟨InvertInv.init n inMat, h0⟩
    fun i s s' hi hP hs => ⟨hP.1.step hi hs, hstep i s s' hi hP.1 hP.2 hs⟩
  rcases hcases with ⟨hsome, hinv, hP⟩ | ⟨hnone, i, hi, ⟨hinv, hP⟩, hs⟩
  · exact .inl ⟨hsome, hinv, hP⟩
  · exact .inr ⟨hnone, i, hi, hinv, hP, hs⟩

theorem gfInvertMatrix_spec {t : Mat UInt8 × Mat UInt8}
    (h : gfInvertMatrix n inMat = some t) : InvertInv n inMat n t ∧ t.2 = gfInvertOut n inMat := by
  obtain ⟨s, hout, ⟨hsome, hinv, -⟩ | ⟨hnone, -⟩⟩ :=
    gfInvertMatrix_cases n inMat (fun _ _ => True) trivial fun _ _ _ _ _ _ _ => trivial
  · rw [h, some.injEq] at hsome
    rw [hsome]
    exact ⟨hinv, hout⟩
  · rw [h] at hnone
    cases hnone

theorem gfInvertMatrix_isSome_iff (n : ℕ) (inMat : Mat UInt8) :
    (gfInvertMatrix n inMat).isSome ↔ Nonsing n (toGf inMat) := by
  obtain ⟨s, -, ⟨hsome, hinv, -⟩ | ⟨hnone, i, hi, hinv, -, hs⟩⟩ :=
    gfInvertMatrix_cases n inMat (fun _ _ => True) trivial fun _ _ _ _ _ _ _ => trivial
  · rw [hsome]
    exact iff_of_true rfl (hinv.sameSol.nonsing hinv.reduced)
  · rw [hnone]
    obtain ⟨x, hker, hxi, -⟩ := hinv.exists_ker hi hs
    exact iff_of_false (by decide) fun hns => hxi (hns x hker i hi)

theorem gfInvertMatrix_left_inv {t : Mat UInt8 × Mat UInt8}
    (h : gfInvertMatrix n inMat = some t) (x : ℕ → Gf) (hc : c < n) :
    rowVal n (toGf t.2) (rowVal n (toGf inMat) x) c = x c :=
  (gfInvertMatrix_spec h).1.sameSol.left_inv (gfInvertMatrix_spec h).1.reduced x hc

/-- **Main result.**  The inversion succeeds exactly on matrices with a determinant; it then leaves the
identity in `in_mat` and the two-sided inverse in `out_mat`. -/
theorem gfInvertMatrix_inverse (n : ℕ) (inMat : Mat UInt8) :
    ((gfInvertMatrix n inMat).isSome ↔ (toMatrix n (toGf inMat)).det ≠ 0) ∧
      ∀ t, gfInvertMatrix n inMat = some t →
        (∀ r < n, ∀ c < n, t.1 r c = unitMat r c) ∧
        toMatrix n (toGf t.2) * toMatrix n (toGf inMat) = 1 ∧
        toMatrix n (toGf inMat) * toMatrix n (toGf t.2) = 1 := by
  refine ⟨?_, fun t ht => ?_⟩
  · rw [gfInvertMatrix_isSome_iff, nonsing_iff_isUnit, Matrix.isUnit_iff_isUnit_det, isUnit_iff_ne_zero]
  · obtain ⟨hinv, -⟩ := gfInvertMatrix_spec ht
    refine ⟨fun r hr c hc => ?_, ?_, ?_⟩
    · have hred := hinv.reduced c hc r hr
      rw [← toGf_unitMat] at hred
      exact Gf.mk_inj.mp hred
    · exact toMatrix_mul_eq_one fun x r hr => hinv.sameSol.left_inv hinv.reduced x hr
    · exact toMatrix_mul_eq_one fun x r hr => hinv.sameSol.right_inv hinv.reduced x hr

/-! ## What an inversion leaves behind -/

theorem InvertInv.vecMul_eq (h : InvertInv n inMat i s) (v : ℕ → Gf) (hc : c < n) :
    vecMul n (vecMul n v (toGf s.2)) (toGf inMat) c = vecMul n v (toGf s.1) c := by
  have hcol : ∀ r, rowVal n (toGf inMat) (fun i => if i = c then 1 else 0) r = toGf inMat r c :=
    rowVal_unit hc _
  rw [vecMul_vecMul]
  refine Finset.sum_congr rfl fun r hr => ?_
  rw [← rowVal_unit hc (toGf s.1), h.sameSol.apply _ (Finset.mem_range.mp hr)]
  exact congrArg (v r * ·) (congrArg (rowVal n (toGf s.2) · r) (funext hcol).symm)

theorem InvertInv.row_eq (h : InvertInv n inMat i s) {q : ℕ} (hq : q < n) (hc : c < n) :
    vecMul n (toGf s.2 q) (toGf inMat) c = toGf s.1 q c := by
  have hunit := h.vecMul_eq (fun p => if p = q then 1 else 0) hc
  unfold vecMul at hunit
  simp only [ite_mul, one_mul, zero_mul, Finset.sum_ite_eq', Finset.mem_range, hq, if_true] at hunit
  exact hunit

theorem InvertInv.ker_eq_zero
    (h : InvertInv n inMat i s) (hker : ∀ r < n, rowVal n (toGf inMat) x r = 0)
    (hsupp : ∀ c, i ≤ c → x c = 0) (hc : c < n) : x c = 0 := by
  have hval : rowVal n (toGf s.1) x c = 0 := by
    rw [h.sameSol.apply x hc, rowVal_congr hker, rowVal_zero]
  refine Eq.trans ?_ hval
  rw [← rowVal_unitMat hc x]
  refine Finset.sum_congr rfl fun d _ => ?_
  rcases lt_or_ge d i with hd | hd
  · rw [h.reduced d hd c hc]
  · rw [hsupp d hd, mul_zero, mul_zero]

theorem vecMul_gfInvertOut {m : ℕ} (hm : m ≤ n)
    (h : ∀ x : ℕ → Gf, (∀ r < n, rowVal n (toGf inMat) x r = 0) → (∀ c, m ≤ c → x c = 0) →
      ∀ c < m, x c = 0) (v : ℕ → Gf) (hc : c < m) :
    vecMul n (vecMul n v (toGf (gfInvertOut n inMat))) (toGf inMat) c = v c := by
  obtain ⟨s, hout, ⟨-, hinv, -⟩ | ⟨-, i, hi, hinv, -, hs⟩⟩ :=
    gfInvertMatrix_cases n inMat (fun _ _ => True) trivial fun _ _ _ _ _ _ _ => trivial
  · rw [← hout, hinv.vecMul_eq v (by omega), hinv.reduced.vecMul_eq v (by omega) (by omega)]
  · obtain ⟨x, hker, hxi, hx0⟩ := hinv.exists_ker hi hs
    have hmi : m ≤ i := by
      by_contra hlt
      exact hxi (h x hker (fun c hc => hx0 c (by omega)) i (by omega))
    rw [← hout, hinv.vecMul_eq v (by omega), hinv.reduced.vecMul_eq v (by omega) (by omega)]

/-- column `c₀` of `out_mat` has a single entry, in a row of the matrix without entries in the columns
from `i` below `m` -/
def UnitColumn (n m c₀ i : ℕ) (s : Mat UInt8 × Mat UInt8) : Prop :=
  ∃ p < n, (∀ q < n, s.2 q c₀ = unitMat q p) ∧ ∀ c, i ≤ c → c < m → s.1 p c = 0

section
variable {n m c₀ i : ℕ} {s s' : Mat UInt8 × Mat UInt8}

theorem swap_lt {a b p : ℕ} (ha : a < n) (hb : b < n) (hp : p < n) : Equiv.swap a b p < n := by
  rw [Equiv.swap_apply_def]
  split_ifs
  · exact hb
  · exact ha
  · exact hp

theorem UnitColumn.pivot (hi : i < n) (h : UnitColumn n m c₀ i s) (hs : gfPivotStep n i s = some s') :
    UnitColumn n m c₀ i s' := by
  unfold gfPivotStep at hs
  split at hs
  · split at hs
    · cases hs
    · next j hj =>
      obtain ⟨hij, hjn, -⟩ := findPivot_some hj
      cases hs
      obtain ⟨p, hp, hcol, hrow⟩ := h
      -- the row moves with the exchange
      refine ⟨Equiv.swap i j p, swap_lt hi hjn hp, fun q hq => ?_, fun c hic hcm => ?_⟩
      · show s.2 (Equiv.swap i j q) c₀ = _
        rw [hcol _ (swap_lt hi hjn hq)]
        unfold unitMat
        simp only [Equiv.swap_apply_eq_iff]
      · show s.1 (Equiv.swap i j (Equiv.swap i j p)) c = 0
        rw [Equiv.swap_apply_self]
        exact hrow c hic hcm
  · cases hs
    exact h

theorem UnitColumn.eliminate (hi : i < n) (him : i < m) (h : UnitColumn n m c₀ i s)
    (hp : s.1 i i ≠ 0) : UnitColumn n m c₀ (i + 1) (gfEliminate i s) := by
  obtain ⟨p, hpn, hcol, hrow⟩ := h
  have hpi : p ≠ i := by
    rintro rfl
    exact hp (hrow p le_rfl him)
  have hzero : s.2 i c₀ = 0 := by rw [hcol i hi, unitMat_of_ne hpi.symm]
  have htemp : s.1 p i = 0 := hrow i le_rfl him
  refine ⟨p, hpn, fun q hq => ?_, fun c hic hcm => ?_⟩
  · rw [← hcol q hq]
    unfold gfEliminate gfClearRows gfScaleRow
    by_cases hqi : q = i
    · simp [hqi, hzero]
    · simp [hqi, hzero]
  · have hc := hrow c (by omega) hcm
    unfold gfEliminate gfClearRows gfScaleRow
    simp [hpi, htemp, hc]

theorem UnitColumn.step (hi : i < n) (him : i < m)
    (hinv : InvertInv n inMat i s) (h : UnitColumn n m c₀ i s) (hs : gfInvertStep n s i = some s') :
    UnitColumn n m c₀ (i + 1) s' := by
  unfold gfInvertStep at hs
  obtain ⟨u, hu, rfl⟩ := map_eq_some_iff.mp hs
  exact (h.pivot hi hu).eliminate hi him (hinv.pivot hi hu).2

theorem gfInvertOut_unitColumn (hm : m ≤ n) (hc₀ : c₀ < n)
    (hrow : ∀ c < m, inMat c₀ c = 0) (hker : ∀ r < n, rowVal n (toGf inMat) x r = 0)
    (hsupp : ∀ c, m ≤ c → x c = 0) (hne : ∃ c < m, x c ≠ 0) :
    ∃ p < n, ∀ q < n, gfInvertOut n inMat q c₀ = unitMat q p := by
  obtain ⟨c, hcm, hxc⟩ := hne
  obtain ⟨s, hout, ⟨-, hinv, -⟩ | ⟨-, i, hi, hinv, hcol, -⟩⟩ := gfInvertMatrix_cases n inMat
    (fun i s => i ≤ m → UnitColumn n m c₀ i s)
    (fun _ => ⟨c₀, hc₀, fun _ _ => rfl, fun c _ hc => hrow c hc⟩)
    fun i s s' hi hinv h hs him => (h (by omega)).step hi (by omega) hinv hs
  · exact absurd (hinv.sameSol.nonsing hinv.reduced x hker c (by omega)) hxc
  · have him : i ≤ m := by
      by_contra hlt
      exact hxc (hinv.ker_eq_zero hker (fun d hd => hsupp d (by omega)) (by omega))
    obtain ⟨p, hp, hunit, -⟩ := hcol him
    exact ⟨p, hp, hout ▸ hunit⟩

theorem gfInvertOut_duplicate {a : ℕ} (ha : a < n) (ha0 : a ≠ 0)
    (hpivot : inMat 0 0 ≠ 0) (hdup : ∀ c < n, inMat a c = inMat 0 c) (v : ℕ → Gf) :
    (∃ p < n, ∀ q < n, gfInvertOut n inMat q a = unitMat q p) ∧
      vecMul n (vecMul n v (toGf (gfInvertOut n inMat))) (toGf inMat) 0 = v 0 := by
  have hn : 0 < n := by omega
  have hfirst : gfInvertStep n (inMat, unitMat) 0 = some (gfEliminate 0 (inMat, unitMat)) := by
    unfold gfInvertStep gfPivotStep
    rw [if_neg hpivot]
    rfl
  have hclear : UnitColumn n n a 1 (gfEliminate 0 (inMat, unitMat)) := by
    refine ⟨a, ha, fun q _ => ?_, fun c _ hc => ?_⟩
    · unfold gfEliminate gfClearRows gfScaleRow
      by_cases hq : q = 0
      · simp [hq, unitMat, ha0.symm]
      · simp [hq, unitMat, ha0.symm]
    · refine Gf.mk_eq_zero.mp ?_
      have h00 : Gf.mk (inMat 0 0) ≠ 0 := Gf.mk_eq_zero.not.mpr hpivot
      unfold gfEliminate gfClearRows gfScaleRow
      simp only [ha0, if_false, if_true]
      rw [Gf.mk_xor, Gf.mk_gfMul, Gf.mk_gfMul, Gf.mk_gfInv, hdup c hc, hdup 0 hn, mul_comm (Gf.mk _),
        mul_assoc, inv_mul_cancel₀ h00, mul_one]
      exact CharTwo.add_self_eq_zero _
  have hfinish : ∀ i s, 0 < i → InvertInv n inMat i s → UnitColumn n n a i s →
      s.2 = gfInvertOut n inMat → (∃ p < n, ∀ q < n, gfInvertOut n inMat q a = unitMat q p) ∧
        vecMul n (vecMul n v (toGf (gfInvertOut n inMat))) (toGf inMat) 0 = v 0 := by
    intro i s hi hinv hcol hout
    rw [← hout]
    obtain ⟨p, hp, hunit, -⟩ := hcol
    exact ⟨⟨p, hp, hunit⟩, (hinv.vecMul_eq v hn).trans (hinv.reduced.vecMul_eq v hi hn)⟩
  obtain ⟨s, hout, ⟨-, hinv, -, hcol⟩ | ⟨-, i, hi, hinv, ⟨hstart, hcol⟩, hnone⟩⟩ :=
    gfInvertMatrix_cases n inMat
      (fun i s => (i = 0 → s = (inMat, unitMat)) ∧ (0 < i → UnitColumn n n a i s))
      ⟨fun _ => rfl, fun h => absurd h (lt_irrefl 0)⟩
      fun i s s' hi hinv h hs => by
        refine ⟨fun h => by omega, fun _ => ?_⟩
        rcases Nat.eq_zero_or_pos i with rfl | hpos
        · rw [h.1 rfl, hfirst, some.injEq] at hs
          rw [← hs]
          exact hclear
        · exact (h.2 hpos).step hi hi hinv hs
  · exact hfinish n s hn hinv (hcol hn) hout
  · rcases Nat.eq_zero_or_pos i with rfl | hpos
    · rw [hstart rfl, hfirst] at hnone
      cases hnone
    · exact hfinish i s hpos hinv (hcol hpos) hout

/-- the columns of `out_mat` from `i` on, before turn `i`, if no rows were exchanged -/
def Leading (n i : ℕ) (s : Mat UInt8 × Mat UInt8) : Prop :=
  ∀ q < n, ∀ c, i ≤ c → s.2 q c = if q < i then 0 else unitMat q c

theorem Leading.eliminate (hi : i < n) (h : Leading n i s) : Leading n (i + 1) (gfEliminate i s) := by
  intro q hq c hc
  have hrow : s.2 i c = 0 := by
    rw [h i hi c (by omega), if_neg (lt_irrefl i), unitMat_of_ne (by omega)]
  unfold gfEliminate gfClearRows gfScaleRow
  rcases lt_trichotomy q i with hlt | rfl | hlt
  · have := h q hq c (by omega)
    simp_all [show q ≠ i by omega, show q < i + 1 by omega]
  · simp [hrow]
  · have := h q hq c (by omega)
    simp_all [show q ≠ i by omega, show ¬ q < i by omega, show ¬ q < i + 1 by omega]

/-- the first `m` rows are independent in as many columns as there are rows, each -/
def LeadingRows (n m : ℕ) (A : Mat Gf) : Prop :=
  ∀ i < m, ∀ a : ℕ → Gf, a i = 1 → (∀ c, i < c → a c = 0) → ∃ c ≤ i, vecMul n a A c ≠ 0

theorem Leading.pivot_ne_zero (hi : i < n) (hrows : LeadingRows n m (toGf inMat))
    (him : i < m) (hinv : InvertInv n inMat i s) (h : Leading n i s) : s.1 i i ≠ 0 := by
  intro hzero
  -- row `i` of `out_mat` is a combination of the first rows that vanishes up to the diagonal
  have hdiag : toGf s.2 i i = 1 := by
    show Gf.mk (s.2 i i) = 1
    rw [h i hi i le_rfl, if_neg (lt_irrefl i), unitMat, if_pos rfl]
    rfl
  have hright : ∀ c, i < c → toGf s.2 i c = 0 := by
    intro c hc
    show Gf.mk (s.2 i c) = 0
    rw [h i hi c (by omega), if_neg (lt_irrefl i), unitMat_of_ne (by omega)]
    rfl
  obtain ⟨c, hci, hne⟩ := hrows i him (toGf s.2 i) hdiag hright
  rw [hinv.row_eq hi (by omega)] at hne
  rcases lt_or_eq_of_le hci with hlt | rfl
  · exact hne (by rw [hinv.reduced c hlt i hi, unitMat_of_ne (by omega)])
  · exact hne (Gf.mk_eq_zero.mpr hzero)

theorem gfInvertOut_leading (hm : m < n) (hrows : LeadingRows n m (toGf inMat))
    (hker : ∀ r < n, rowVal n (toGf inMat) x r = 0) (hsupp : ∀ c, m < c → x c = 0)
    (hne : x m ≠ 0) : ∃ s, s.2 = gfInvertOut n inMat ∧ InvertInv n inMat m s ∧ Leading n m s := by
  have hstep : ∀ i s s', i < n → InvertInv n inMat i s → (i ≤ m → Leading n i s) →
      gfInvertStep n s i = some s' → i + 1 ≤ m → Leading n (i + 1) s' := by
    intro i s s' hi hinv h hs him
    have hlead := h (by omega)
    have hp := hlead.pivot_ne_zero hi hrows him hinv
    unfold gfInvertStep gfPivotStep at hs
    rw [if_neg hp, map_some, some.injEq] at hs
    rw [← hs]
    exact hlead.eliminate hi
  have hstop : ∀ i s, InvertInv n inMat i s → i ≤ m := by
    intro i s hinv
    by_contra hlt
    exact hne (hinv.ker_eq_zero hker (fun d hd => hsupp d (by omega)) hm)
  obtain ⟨s, hout, ⟨-, hinv, -⟩ | ⟨-, i, hi, hinv, hlead, hs⟩⟩ := gfInvertMatrix_cases n inMat
    (fun i s => i ≤ m → Leading n i s)
    (fun _ q _ c _ => by rw [if_neg (Nat.not_lt_zero q)]) hstep
  · exact absurd (hstop n s hinv) (by omega)
  · have him : i ≤ m := hstop i s hinv
    rcases lt_or_eq_of_le him with hlt | rfl
    · have hp := (hlead him).pivot_ne_zero hi hrows hlt hinv
      unfold gfInvertStep gfPivotStep at hs
      rw [if_neg hp] at hs
      cases hs
    · exact ⟨s, hout, hinv, hlead him⟩

end

/-- a matrix that needs an exchange of rows, and a singular one -/
example : (gfInvertMatrix 2 fun r c => if r = c then 0 else 2).isSome = true ∧
    (gfInvertMatrix 2 fun _ _ => 1).isSome = false := by decide +kernel

end Mlrc
