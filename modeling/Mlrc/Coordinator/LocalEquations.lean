import Mlrc.Coordinator.Layout
import Mlrc.Code.Equations

/-!
# The local equations of the five codes

A local row of a generator is filled in by loops over the data blocks and the global parities.
`inLocalRow` says which blocks those loops touch, `localCoef` with which coefficient.

* `genMatrix`   the generator of a code type;
* `local_parity_check`   every local row is a parity check of its code;
* `localVector_pair`   two neighbours of a row cannot both have coefficient zero.
-/

namespace Mlrc

open Finset Bool

variable {m i j : ℕ} {codeType : CodeType}

def genOptimalLrcMatrix (k r z : ℕ) : Mat UInt8 :=
  let m := k + r
  let M := (List.range k).foldl (fun M i =>
    setEntry M (m + i / (k / z)) i (gfGenLocalVector k r i)) (gfGenCauchyMatrix1 m k)
  (List.range z).foldl (fun M i =>
    (List.range r).foldl (fun M l => xorRow M (m + i) (k + l)) M) M

def genUniformLrcMatrix := genGlrcMatrix

/-- the generator that the encoder of a code type builds -/
def genMatrix : CodeType → ℕ → ℕ → ℕ → Mat UInt8
  | .UniLRC => genUnilrcMatrix
  | .AzureLRC => genAzureLrcMatrix
  | .OptimalLRC => genOptimalLrcMatrix
  | .UniformLRC => genUniformLrcMatrix
  | .gLRC => genGlrcMatrix

/-- the loops that build local row `l` touch block `b` -/
def inLocalRow (codeType : CodeType) (k r z l b : ℕ) : Bool :=
  match codeType with
  | .AzureLRC => decide (b < k ∧ b / (k / z) = l) || decide (b = k + r + l)
  | .UniLRC => decide (b < k ∧ b / (k / z) = l) ||
      decide (k + l * r / z ≤ b ∧ b < k + l * r / z + r / z) || decide (b = k + r + l)
  | .OptimalLRC => decide (b < k ∧ b / (k / z) = l) || decide (k ≤ b ∧ b < k + r) ||
      decide (b = k + r + l)
  | .UniformLRC | .gLRC =>
      decide (b < k + r ∧ glrcPayloadGroupId b k r z = l) || decide (b = k + r + l)

/-- the coefficient of block `b` in local equation `l` -/
def localCoef (codeType : CodeType) (k r z l b : ℕ) : UInt8 :=
  if inLocalRow codeType k r z l b then
    match codeType with
    | .AzureLRC | .UniLRC => 1
    | .OptimalLRC | .UniformLRC | .gLRC => glrcLocalBlockCoefficient b k r
  else 0

/-! ## Rows added to local rows -/

section
variable {k r z l : ℕ}

theorem foldl_xorRows_of_lt (hi : i < m) (src : ℕ → ℕ → ℕ) (cnt z : ℕ) (M : Mat UInt8) (c : ℕ) :
    (List.range z).foldl (fun M g =>
      (List.range cnt).foldl (fun M l => xorRow M (m + g) (src g l)) M) M i c = M i c := by
  refine foldl_range_induct _ (fun _ (N : Mat UInt8) => N i c = M i c) z rfl fun g N _ hN => ?_
  rw [foldl_xorRow_of_lt hi (fun _ => g) (src g), hN]

theorem foldl_xorRows_row {g : ℕ} (src : ℕ → ℕ → ℕ) (cnt z : ℕ)
    (hsrc : ∀ i < z, ∀ l < cnt, src i l < m) (M : Mat UInt8) (c : ℕ) :
    Gf.mk ((List.range z).foldl (fun M g =>
      (List.range cnt).foldl (fun M l => xorRow M (m + g) (src g l)) M) M (m + g) c) =
      Gf.mk (M (m + g) c) + if g < z then ∑ l ∈ range cnt, Gf.mk (M (src g l) c) else 0 := by
  induction z with
  | zero => simp
  | succ z ih =>
    rw [foldl_range_succ, foldl_xorRow_row (fun _ => z) (src z) cnt
      (fun l hl => hsrc z (Nat.lt_succ_self z) l hl), ih fun i hi => hsrc i (Nat.lt_succ_of_lt hi),
      add_assoc]
    congr 1
    rcases lt_trichotomy g z with h | rfl | h
    · rw [if_pos h, if_pos (Nat.lt_succ_of_lt h)]
      simp [ne_of_gt h]
    · rw [if_neg (lt_irrefl g), if_pos (Nat.lt_succ_self g), zero_add]
      refine sum_congr rfl fun l hl => ?_
      rw [if_pos rfl, foldl_xorRows_of_lt (hsrc g (Nat.lt_succ_self g) l (mem_range.mp hl))]
    · rw [if_neg (by omega), if_neg (by omega)]
      simp [ne_of_lt h]

theorem gfGenRsMatrix1_local {k : ℕ} (hk : k ≤ m) (hi : m ≤ i) (j : ℕ) :
    gfGenRsMatrix1 m k i j = 0 := by
  rw [gfGenRsMatrix1, if_neg (by omega), if_neg (by omega)]

theorem genAzureLrcMatrix_local (hj : j < k) :
    genAzureLrcMatrix k r z (k + r + l) j = if j / (k / z) = l then 1 else 0 := by
  unfold genAzureLrcMatrix
  exact foldl_setEntry_row (fun i => i / (k / z)) (fun _ => 1) _
    (fun c => gfGenRsMatrix1_local (by omega) (by omega) c) hj

theorem genAzureLrcMatrix_payload (hi : i < k + r) (j : ℕ) :
    genAzureLrcMatrix k r z i j = gfGenRsMatrix1 (k + r) k i j := by
  unfold genAzureLrcMatrix
  rw [foldl_setEntry_of_lt hi fun i => i / (k / z)]

theorem genOptimalLrcMatrix_payload (hi : i < k + r) (j : ℕ) :
    genOptimalLrcMatrix k r z i j = gfGenCauchyMatrix1 (k + r) k i j := by
  unfold genOptimalLrcMatrix
  rw [foldl_xorRows_of_lt hi fun _ l => k + l, foldl_setEntry_of_lt hi fun i => i / (k / z)]

theorem genOptimalLrcMatrix_local (hl : l < z) (hj : j < k) :
    Gf.mk (genOptimalLrcMatrix k r z (k + r + l) j) =
      (if j / (k / z) = l then Gf.mk (gfGenLocalVector k r j) else 0) +
      ∑ i ∈ range r, Gf.mk (genOptimalLrcMatrix k r z (k + i) j) := by
  have hrows : ∀ i ∈ range r, Gf.mk (genOptimalLrcMatrix k r z (k + i) j) =
      Gf.mk (gfGenCauchyMatrix1 (k + r) k (k + i) j) := fun i hi => by
    rw [genOptimalLrcMatrix_payload (by have := mem_range.mp hi; omega)]
  rw [sum_congr rfl hrows]
  unfold genOptimalLrcMatrix
  rw [foldl_xorRows_row (fun _ l => k + l) r z (fun i _ l hl => by omega), if_pos hl,
    foldl_setEntry_row (fun i => i / (k / z)) _ _
      (fun c => gfGenCauchyMatrix1_local (by omega) (by omega) c) hj]
  congr 1
  · split <;> rfl
  · refine sum_congr rfl fun i hi => ?_
    rw [foldl_setEntry_of_lt (by have := mem_range.mp hi; omega) fun i => i / (k / z)]

theorem genUnilrcMatrix_payload (hi : i < k + r) (j : ℕ) :
    genUnilrcMatrix k r z i j = gfGenRsMatrix1 (k + r) k i j := by
  unfold genUnilrcMatrix
  rw [foldl_xorRows_of_lt hi fun g l => k + g * r / z + l, genAzureLrcMatrix_payload hi]

theorem genUnilrcMatrix_local (hr : z ∣ r) (hl : l < z) (hj : j < k) :
    Gf.mk (genUnilrcMatrix k r z (k + r + l) j) = (if j / (k / z) = l then 1 else 0) +
      ∑ i ∈ range (r / z), Gf.mk (genUnilrcMatrix k r z (k + l * r / z + i) j) := by
  have hin : ∀ g < z, ∀ i < r / z, k + g * r / z + i < k + r := by
    intro g hg i hi
    have hle : (g + 1) * (r / z) ≤ z * (r / z) := Nat.mul_le_mul_right _ hg
    rw [Nat.mul_div_cancel' hr, add_mul, one_mul] at hle
    rw [Nat.mul_div_assoc _ hr]
    omega
  have hrows : ∀ i ∈ range (r / z), Gf.mk (genUnilrcMatrix k r z (k + l * r / z + i) j) =
      Gf.mk (gfGenRsMatrix1 (k + r) k (k + l * r / z + i) j) := fun i hi => by
    rw [genUnilrcMatrix_payload (hin l hl i (mem_range.mp hi))]
  rw [sum_congr rfl hrows]
  unfold genUnilrcMatrix
  rw [foldl_xorRows_row (fun g l => k + g * r / z + l) (r / z) z hin, if_pos hl,
    genAzureLrcMatrix_local hj]
  congr 1
  · split <;> rfl
  · refine sum_congr rfl fun i hi => ?_
    rw [genAzureLrcMatrix_payload (hin l hl i (mem_range.mp hi))]

theorem genOptimalLrcMatrix_systematic : IsSystematic genOptimalLrcMatrix := by
  intro k r z i j hi
  rw [genOptimalLrcMatrix_payload (by omega), gfGenCauchyMatrix1, if_pos hi]

theorem genMatrix_systematic (codeType : CodeType) : IsSystematic (genMatrix codeType) := by
  cases codeType with
  | UniLRC => exact genUnilrcMatrix_systematic
  | AzureLRC => exact genAzureLrcMatrix_systematic
  | OptimalLRC => exact genOptimalLrcMatrix_systematic
  | UniformLRC => exact genGlrcMatrix_systematic
  | gLRC => exact genGlrcMatrix_systematic

/-! ## Local equations -/

theorem check_of_row (gen : Mat UInt8) (hsys : ∀ i j, i < k → gen i j = unitMat i j) (hl : l < z)
    (coefs : ℕ → Gf) (inG : ℕ → Prop) [DecidablePred inG]
    (hrow : ∀ j < k, Gf.mk (gen (k + r + l) j) =
      coefs j + ∑ i ∈ range r, if inG i then Gf.mk (gen (k + i) j) else 0)
    (hglobal : ∀ i < r, coefs (k + i) = if inG i then 1 else 0)
    (hparity : ∀ h < z, coefs (k + r + h) = if h = l then 1 else 0) {c d : ℕ → Gf}
    (hc : ∀ b < k + r + z, c b = ∑ j ∈ range k, Gf.mk (gen b j) * d j) :
    ∑ b ∈ range (k + r + z), coefs b * c b = 0 := by
  have hdata : ∀ b < k, c b = d b := by
    intro b hb
    rw [hc b (by omega), ← rowVal_unitMat hb d, ← toGf_unitMat]
    exact sum_congr rfl fun j _ => by rw [toGf, hsys b j hb]
  have hval : c (k + r + l) = ∑ b ∈ range k, coefs b * c b +
      ∑ i ∈ range r, coefs (k + i) * c (k + i) := by
    rw [hc (k + r + l) (by omega), sum_congr rfl fun j hj =>
      congrArg (· * d j) (hrow j (mem_range.mp hj))]
    simp only [add_mul, sum_add_distrib]
    congr 1
    · exact sum_congr rfl fun b hb => by rw [hdata b (mem_range.mp hb)]
    · -- the rows of the global parities, summed the other way round
      simp only [sum_mul]
      rw [sum_comm]
      refine sum_congr rfl fun i hi => ?_
      have hi := mem_range.mp hi
      rw [hglobal i hi, hc (k + i) (by omega), mul_sum]
      refine sum_congr rfl fun j _ => ?_
      split <;> ring
  have hlocal : ∀ h ∈ range z, coefs (k + r + h) * c (k + r + h) =
      if h = l then c (k + r + h) else 0 := by
    intro h hh
    rw [hparity h (mem_range.mp hh)]
    split
    · rw [one_mul]
    · rw [zero_mul]
  rw [sum_range_add, sum_range_add, sum_congr rfl hlocal, sum_ite_eq', if_pos (mem_range.mpr hl),
    ← hval, CharTwo.add_self_eq_zero]

theorem inLocalRow_parity (hr : codeType = .UniLRC → z ∣ r) (hl : l < z)
    (h : ℕ) : inLocalRow codeType k r z l (k + r + h) = decide (h = l) := by
  have hend : codeType = .UniLRC → l * r / z + r / z ≤ r := by
    intro hc
    have hle : (l + 1) * (r / z) ≤ z * (r / z) := Nat.mul_le_mul_right _ hl
    rw [Nat.mul_div_cancel' (hr hc), add_mul, one_mul] at hle
    rw [Nat.mul_div_assoc _ (hr hc)]
    exact hle
  cases codeType with
  | UniLRC =>
    have := hend rfl
    unfold inLocalRow
    simp only [or_eq_decide, decide_eq_true_eq, decide_eq_decide]
    omega
  | AzureLRC =>
    unfold inLocalRow
    simp only [or_eq_decide, decide_eq_true_eq, decide_eq_decide]
    omega
  | OptimalLRC =>
    unfold inLocalRow
    simp only [or_eq_decide, decide_eq_true_eq, decide_eq_decide]
    omega
  | UniformLRC =>
    unfold inLocalRow
    simp only [or_eq_decide, decide_eq_true_eq, decide_eq_decide]
    omega
  | gLRC =>
    unfold inLocalRow
    simp only [or_eq_decide, decide_eq_true_eq, decide_eq_decide]
    omega

theorem localCoef_parity (hr : codeType = .UniLRC → z ∣ r) (hl : l < z)
    (h : ℕ) : localCoef codeType k r z l (k + r + h) = if h = l then 1 else 0 := by
  unfold localCoef
  rw [inLocalRow_parity hr hl h]
  by_cases hhl : h = l
  · rw [if_pos (decide_eq_true hhl), if_pos hhl]
    cases codeType with
    | UniLRC => rfl
    | AzureLRC => rfl
    | OptimalLRC => exact glrcLocalBlockCoefficient_parity (by omega)
    | UniformLRC => exact glrcLocalBlockCoefficient_parity (by omega)
    | gLRC => exact glrcLocalBlockCoefficient_parity (by omega)
  · rw [if_neg (by simpa using hhl), if_neg hhl]

theorem localCoef_glrc (hc : codeType = .UniformLRC ∨ codeType = .gLRC)
    (hl : l < z) {b : ℕ} (hb : b < k + r + z) : localCoef codeType k r z l b = coef k r z l b := by
  have hrow : inLocalRow codeType k r z l b =
      decide (b ∈ (glrcBuildPlacementGroups k r z).getD l []) := by
    have hmem := mem_placementGroup (k := k) (r := r) (b := b) hl
    have hval : inLocalRow codeType k r z l b =
        (decide (b < k + r ∧ glrcPayloadGroupId b k r z = l) || decide (b = k + r + l)) := by
      rcases hc with rfl | rfl <;> rfl
    rw [hval, or_eq_decide, decide_eq_decide, hmem, decide_eq_true_eq, decide_eq_true_eq]
  unfold localCoef
  rw [hrow, coef_local hl hb]
  by_cases hmem : b ∈ (glrcBuildPlacementGroups k r z).getD l []
  · rw [if_pos (decide_eq_true hmem), if_pos hmem]
    rcases hc with rfl | rfl <;> rfl
  · rw [if_neg (by simpa using hmem), if_neg hmem]

theorem local_parity_check (codeType : CodeType) (hr : codeType = .UniLRC → z ∣ r) (hl : l < z)
    {c d : ℕ → Gf}
    (hc : ∀ b < k + r + z, c b = ∑ j ∈ range k, Gf.mk (genMatrix codeType k r z b j) * d j) :
    ∑ b ∈ range (k + r + z), Gf.mk (localCoef codeType k r z l b) * c b = 0 := by
  have hpar : ∀ h < z, Gf.mk (localCoef codeType k r z l (k + r + h)) = if h = l then 1 else 0 := by
    intro h _
    rw [localCoef_parity hr hl h]
    split <;> rfl
  cases codeType with
  | UniLRC =>
    have hdvd := hr rfl
    refine check_of_row (genUnilrcMatrix k r z) (fun i j => genUnilrcMatrix_systematic k r z i j)
      hl _ (fun i => l * r / z ≤ i ∧ i < l * r / z + r / z) ?_ ?_ hpar hc
    · intro j hj
      rw [genUnilrcMatrix_local hdvd hl hj]
      congr 1
      · unfold localCoef inLocalRow
        simp only [or_eq_true, decide_eq_true_eq]
        have h0 := Nat.zero_le (l * r / z)
        by_cases hjl : j / (k / z) = l
        · rw [if_pos hjl, if_pos (by omega)]
          rfl
        · rw [if_neg hjl, if_neg (by omega)]
          rfl
      · rw [← sum_filter]
        have hle : l * r / z + r / z ≤ r := by
          have hle : (l + 1) * (r / z) ≤ z * (r / z) := Nat.mul_le_mul_right _ hl
          rw [Nat.mul_div_cancel' hdvd, add_mul, one_mul] at hle
          rw [Nat.mul_div_assoc _ hdvd]
          exact hle
        symm
        refine sum_nbij' (fun i => i - l * r / z) (fun i => l * r / z + i) ?_ ?_ ?_ ?_ ?_
        all_goals
          intro i hi
          simp only [mem_filter, mem_range] at hi ⊢
        · omega
        · omega
        · omega
        · omega
        · rw [show k + l * r / z + (i - l * r / z) = k + i by omega]
    · intro i hi
      unfold localCoef inLocalRow
      simp only [or_eq_true, decide_eq_true_eq]
      by_cases hin : l * r / z ≤ i ∧ i < l * r / z + r / z
      · rw [if_pos hin, if_pos (by omega)]
        rfl
      · rw [if_neg hin, if_neg (by omega)]
        rfl
  | AzureLRC =>
    refine check_of_row (genAzureLrcMatrix k r z)
      (fun i j => genAzureLrcMatrix_systematic k r z i j) hl _ (fun _ => False) ?_ ?_ hpar hc
    · intro j hj
      rw [genAzureLrcMatrix_local hj]
      simp only [if_false, sum_const_zero, add_zero]
      unfold localCoef inLocalRow
      simp only [or_eq_true, decide_eq_true_eq]
      by_cases hjl : j / (k / z) = l
      · rw [if_pos hjl, if_pos (by omega)]
      · rw [if_neg hjl, if_neg (by omega)]
    · intro i hi
      unfold localCoef inLocalRow
      simp only [or_eq_true, decide_eq_true_eq, if_false]
      rw [if_neg (by omega)]
      rfl
  | OptimalLRC =>
    refine check_of_row (genOptimalLrcMatrix k r z)
      (fun i j => genOptimalLrcMatrix_systematic k r z i j) hl _ (fun _ => True) ?_ ?_ hpar hc
    · intro j hj
      rw [genOptimalLrcMatrix_local hl hj]
      simp only [if_true]
      congr 1
      unfold localCoef inLocalRow
      simp only [or_eq_true, decide_eq_true_eq]
      rw [glrcLocalBlockCoefficient_data hj]
      by_cases hjl : j / (k / z) = l
      · rw [if_pos hjl, if_pos (by omega)]
      · rw [if_neg hjl, if_neg (by omega)]
        rfl
    · intro i hi
      unfold localCoef inLocalRow
      simp only [or_eq_true, decide_eq_true_eq, if_true]
      rw [if_pos (by omega), glrcLocalBlockCoefficient_parity (by omega)]
      rfl
  | UniformLRC =>
    rw [sum_congr rfl fun b hb => by rw [localCoef_glrc (.inl rfl) hl (mem_range.mp hb)]]
    exact parity_check_local ⟨d, hc⟩ hl
  | gLRC =>
    rw [sum_congr rfl fun b hb => by rw [localCoef_glrc (.inr rfl) hl (mem_range.mp hb)]]
    exact parity_check_local ⟨d, hc⟩ hl

/-! ## Coefficients that vanish -/

theorem gfGenLocalVector_ne_zero {b : ℕ} (h : b % 256 ≠ (k + r) % 256) :
    gfGenLocalVector k r b ≠ 0 := by
  apply gfInv_ne_zero
  intro h0
  apply h
  have hx : (b ^^^ (k + r)) % 2 ^ 8 = 0 := by
    have := congrArg UInt8.toNat h0
    rwa [UInt8.toNat_ofNat'] at this
  rw [Nat.xor_mod_two_pow] at hx
  exact Nat.eq_of_xor_eq_zero hx

theorem localVector_pair (b : ℕ) :
    glrcLocalBlockCoefficient b k r ≠ 0 ∨ glrcLocalBlockCoefficient (b + 1) k r ≠ 0 := by
  by_cases hb : b + 1 < k
  · rw [glrcLocalBlockCoefficient_data hb, glrcLocalBlockCoefficient_data (by omega)]
    by_cases h : b % 256 = (k + r) % 256
    · exact .inr (gfGenLocalVector_ne_zero (by omega))
    · exact .inl (gfGenLocalVector_ne_zero h)
  · rw [glrcLocalBlockCoefficient_parity (show k ≤ b + 1 by omega)]
    exact .inr (by decide)

end

end Mlrc
