import Mlrc.Decode.Single
import Mlrc.Algebra.PowerSums

/-!
# The weights of a global parity of AzureLRC

To recover a global parity, `decode_azure_lrc` expresses its row of the generator by the rows of the
data blocks outside the first local group and of other global parities.  A global row holds the
powers of a node.

* `usedRows_eq`   the rows it uses;
* `azure_rowsAddUp`   enough rows with different nodes give the weights that are needed;
* `azure_rows_missing`   too few nodes leave a weight on the first data block;
* `azure_many_iff`   with several local groups, when every global parity is recovered.
-/

namespace Mlrc

open Finset

variable {j b a s : ℕ}

/-- the node of global parity `i` -/
def node (i : ℕ) : Gf := Gf.mk 2 ^ (i + 1)

theorem node_inj {i : ℕ} : node i = node j ↔ i % 255 = j % 255 := by
  unfold node
  rw [Gf.two_pow_inj]
  omega

theorem node_ne_zero (i : ℕ) : node i ≠ 0 :=
  pow_ne_zero _ (Gf.mk_eq_zero.not.mpr (by decide))

/-- row `b` of the coding matrix, over the field -/
def rsRow (k r b : ℕ) (j : ℕ) : Gf := Gf.mk (gfGenRsMatrix1 (k + r) k b j)

section
variable {k r z failed : ℕ}

theorem mk_foldl_gfMul (g p : UInt8) (n : ℕ) :
    Gf.mk ((List.range n).foldl (fun p _ => gfMul p g) p) = Gf.mk p * Gf.mk g ^ n := by
  induction n with
  | zero => simp
  | succ n ih => rw [foldl_range_succ, Gf.mk_gfMul, ih, pow_succ, mul_assoc]

theorem rsRow_data (hb : b < k) (j : ℕ) : rsRow k r b j = unitMat b j := by
  unfold rsRow gfGenRsMatrix1
  rw [if_pos hb]
  exact congrFun (congrFun toGf_unitMat b) j

theorem rsRow_global (hb : k ≤ b) (hbr : b < k + r) (j : ℕ) : rsRow k r b j = node (b - k) ^ j := by
  unfold rsRow gfGenRsMatrix1
  rw [if_neg (by omega), if_pos hbr]
  simp only
  rw [mk_foldl_gfMul, mk_foldl_gfMul, Gf.mk_one, one_mul, node, pow_succ']

/-! ## The rows that are used -/

/-- the global parities other than the failed one -/
def otherGlobals (k r failed : ℕ) : List ℕ := (List.range' k r).filter (· ≠ failed)

theorem mem_otherGlobals : b ∈ otherGlobals k r failed ↔ k ≤ b ∧ b < k + r ∧ b ≠ failed := by
  unfold otherGlobals
  rw [List.mem_filter, List.mem_range'_1, decide_eq_true_eq, and_assoc]

theorem otherGlobals_nodup : (otherGlobals k r failed).Nodup := (List.nodup_range' 1).filter _

theorem filter_range'_eq_self {n : ℕ} (h : failed < a ∨ a + n ≤ failed) :
    (List.range' a n).filter (· ≠ failed) = List.range' a n :=
  List.filter_eq_self.mpr fun b hb => decide_eq_true (by
    have := List.mem_range'_1.mp hb
    omega)

theorem otherGlobals_append_of_le (h : failed ≤ k + s) (hs : s < r) : otherGlobals k r failed =
      otherGlobals k (s + 1) failed ++ List.range' (k + s + 1) (r - (s + 1)) := by
  have hsplit := List.range'_append_1 (s := k) (m := s + 1) (n := r - (s + 1))
  rw [Nat.add_sub_cancel' hs, ← add_assoc] at hsplit
  unfold otherGlobals
  rw [← hsplit, List.filter_append, filter_range'_eq_self (a := k + s + 1) (by omega)]

theorem otherGlobals_append_of_ge (h : k + s ≤ failed) (hs : s ≤ r) :
    otherGlobals k r failed = List.range' k s ++ otherGlobals (k + s) (r - s) failed := by
  have hsplit := List.range'_append_1 (s := k) (m := s) (n := r - s)
  rw [Nat.add_sub_cancel' hs] at hsplit
  unfold otherGlobals
  rw [← hsplit, List.filter_append, filter_range'_eq_self (by omega)]

theorem otherGlobals_eq (hf : k ≤ failed) (hfr : failed < k + r) : otherGlobals k r failed =
      List.range' k (failed - k) ++ List.range' (failed + 1) (k + r - (failed + 1)) := by
  rw [otherGlobals_append_of_ge (s := failed - k) (by omega) (by omega), Nat.add_sub_cancel' hf]
  congr 1
  unfold otherGlobals
  rw [show r - (failed - k) = k + r - (failed + 1) + 1 by omega, List.range'_succ,
    List.filter_cons_of_neg (by simp), filter_range'_eq_self (by omega)]

theorem otherGlobals_length (hf : k ≤ failed) (hfr : failed < k + r) :
    (otherGlobals k r failed).length = r - 1 := by
  rw [otherGlobals_eq hf hfr, List.length_append, List.length_range', List.length_range']
  omega

theorem otherGlobals_take_of_le (hf : k ≤ failed) (h : failed ≤ k + s) (hs : s < r) :
    (otherGlobals k r failed).take s = otherGlobals k (s + 1) failed := by
  rw [otherGlobals_append_of_le h hs]
  exact List.take_left' (otherGlobals_length hf (by omega))

theorem otherGlobals_take_of_ge (h : k + s ≤ failed) (hs : s ≤ r) :
    (otherGlobals k r failed).take s = List.range' k s := by
  rw [otherGlobals_append_of_ge h hs]
  exact List.take_left' List.length_range'

theorem le_of_mem_take (hf : k ≤ failed) (hs : s < r)
    (hb : b ∈ (otherGlobals k r failed).take s) : b ≤ k + s := by
  rcases le_total failed (k + s) with h | h
  · rw [otherGlobals_take_of_le hf h hs, mem_otherGlobals] at hb
    omega
  · rw [otherGlobals_take_of_ge h (by omega), List.mem_range'_1] at hb
    omega

theorem usedRows_eq (hf : k ≤ failed) : usedRows k r z failed =
      List.range' (k / z) (k - k / z) ++ (otherGlobals k r failed).take (k / z) := by
  have hs : k / z ≤ k := Nat.div_le_self k z
  have hsplit := List.range'_append_1 (s := k / z) (m := k - k / z) (n := r)
  rw [Nat.add_sub_cancel' hs, show k - k / z + r = k + r - k / z by omega] at hsplit
  have hlen : (List.range' (k / z) (k - k / z)).length ≤ k := by
    rw [List.length_range']
    exact Nat.sub_le _ _
  unfold usedRows
  rw [← hsplit, List.filter_append, filter_range'_eq_self (a := k / z) (by omega), List.take_append,
    List.length_range', List.take_of_length_le hlen, Nat.sub_sub_self hs]
  rfl

theorem mem_usedRows (hf : k ≤ failed) : b ∈ usedRows k r z failed ↔
      (k / z ≤ b ∧ b < k) ∨ b ∈ (otherGlobals k r failed).take (k / z) := by
  have hs : k / z ≤ k := Nat.div_le_self k z
  rw [usedRows_eq hf, List.mem_append, List.mem_range'_1, Nat.add_sub_cancel' hs]

theorem usedRows_nodup : (usedRows k r z failed).Nodup :=
  ((List.nodup_range' 1).filter _).sublist (List.take_sublist _ _)

theorem usedRows_length (hf : k ≤ failed) (hfr : failed < k + r) (h : k / z < r) :
    (usedRows k r z failed).length = k := by
  have hs : k / z ≤ k := Nat.div_le_self k z
  rw [usedRows_eq hf, List.length_append, List.length_range', List.length_take,
    otherGlobals_length hf hfr]
  omega

/-! ## The weights -/

variable {unset : ℕ → ℕ}

/-- the weight of the row in place `q` -/
def azureWeight (unset : ℕ → ℕ) (k r z failed q : ℕ) : Gf := Gf.mk (azureVectAll unset k r z failed q)

/-- the rows of the blocks `ids`, weighed by their coefficients, add up to the row of the failed one -/
def RowsAddUp (unset : ℕ → ℕ) (k r z failed : ℕ) (ids : List ℕ) : Prop :=
  ∀ j < k, (ids.map fun b => Gf.mk (azureCoef unset k r z failed b) * rsRow k r b j).sum =
    rsRow k r failed j

theorem azureWeight_eq (unset : ℕ → ℕ) (k r z failed q : ℕ) : azureWeight unset k r z failed q =
      vecMul k (rsRow k r failed) (toGf (gfInvertOut k (azureTempMatrix unset k r z failed))) q := by
  unfold azureWeight azureVectAll gfMulVectMatrix
  rw [Gf.mk_foldl_xor, Gf.mk_zero, zero_add]
  simp only [Gf.mk_gfMul]
  rfl

theorem usedRow_of_lt (unset : ℕ → ℕ) {q : ℕ} (hq : q < (usedRows k r z failed).length) :
    usedRow unset k r z failed q = (usedRows k r z failed)[q] := by
  unfold usedRow
  rw [List.getElem?_eq_getElem hq, Option.getD_some]

theorem azureCoef_usedRow (unset : ℕ → ℕ) {q : ℕ} (hq : q < (usedRows k r z failed).length) :
    Gf.mk (azureCoef unset k r z failed (usedRow unset k r z failed q)) =
      azureWeight unset k r z failed q := by
  unfold azureCoef azureWeight
  simp only
  rw [usedRow_of_lt unset hq, if_pos (List.getElem_mem hq), usedRows_nodup.idxOf_getElem]

theorem azureCoef_of_notMem (hb : b ∉ usedRows k r z failed) :
    Gf.mk (azureCoef unset k r z failed b) = azureWeight unset k r z failed 0 := by
  unfold azureCoef azureWeight
  simp only
  rw [if_neg hb]

theorem sum_usedRows (g : ℕ → Gf) :
    ((usedRows k r z failed).map fun b => Gf.mk (azureCoef unset k r z failed b) * g b).sum =
      ∑ q ∈ range (usedRows k r z failed).length,
        azureWeight unset k r z failed q * g (usedRow unset k r z failed q) := by
  rw [sum_map_eq_sum_range _ 0]
  refine sum_congr rfl fun q hq => ?_
  have hq := mem_range.mp hq
  rw [List.getD_eq_getElem _ _ hq, ← usedRow_of_lt unset hq, azureCoef_usedRow unset hq]

/-- the nodes of the global parities that are used -/
def usedNodes (k r z failed : ℕ) : Finset Gf :=
  ((otherGlobals k r failed).take (k / z)).toFinset.image fun b => node (b - k)

theorem node_mem_usedNodes (hb : b ∈ (otherGlobals k r failed).take (k / z)) :
    node (b - k) ∈ usedNodes k r z failed :=
  mem_image_of_mem _ (List.mem_toFinset.mpr hb)

section
variable (hf : k ≤ failed) (hfr : failed < k + r) (hs : k / z < r)
include hf hfr hs

theorem used_columns_indep {m : ℕ}
    (hm : m ≤ k) (hn : min m (k / z) ≤ (usedNodes k r z failed).card) {x : ℕ → Gf}
    (hker : ∀ q < k, rowVal k (toGf (azureTempMatrix unset k r z failed)) x q = 0)
    (hsupp : ∀ c, m ≤ c → x c = 0) : ∀ c < m, x c = 0 := by
  have hlen := usedRows_length hf hfr hs
  have hrow : ∀ b ∈ usedRows k r z failed, ∑ c ∈ range k, rsRow k r b c * x c = 0 := by
    intro b hb
    obtain ⟨q, hq, rfl⟩ := List.getElem_of_mem hb
    rw [← usedRow_of_lt unset hq]
    exact hker q (hlen ▸ hq)
  -- the rows of the data blocks are unit rows
  have hdata : ∀ c, k / z ≤ c → x c = 0 := by
    intro c hc
    rcases lt_or_ge c k with hck | hck
    · rw [← rowVal_unitMat hck x, ← hrow c ((mem_usedRows hf).mpr (.inl ⟨hc, hck⟩))]
      exact sum_congr rfl fun d _ => by rw [rsRow_data hck]
    · exact hsupp c (by omega)
  have hzero : ∀ c, min m (k / z) ≤ c → x c = 0 := by
    intro c hc
    rcases le_total m (k / z) with h | h
    · exact hsupp c (by omega)
    · exact hdata c (by omega)
  have hnodes : ∀ p ∈ usedNodes k r z failed, ∑ c ∈ range (min m (k / z)), p ^ c * x c = 0 := by
    intro p hp
    obtain ⟨b, hb, rfl⟩ := mem_image.mp hp
    have hb := List.mem_toFinset.mp hb
    obtain ⟨hkb, hbr, -⟩ := mem_otherGlobals.mp (List.mem_of_mem_take hb)
    rw [← hrow b ((mem_usedRows hf).mpr (.inr hb))]
    refine Eq.trans ?_ (sum_subset (range_subset_range.mpr (show min m (k / z) ≤ k by omega))
      fun c _ hc => ?_)
    · exact sum_congr rfl fun c _ => by rw [rsRow_global hkb hbr]
    · rw [hzero c (Nat.le_of_not_lt fun h => hc (mem_range.mpr h)), mul_zero]
  intro c hc
  rcases lt_or_ge c (k / z) with hlt | hge
  · exact coeff_eq_zero_of_nodes hn hnodes (by omega)
  · exact hdata c hge

theorem usedRows_addUp {m : ℕ}
    (hm : m ≤ k) (hn : min m (k / z) ≤ (usedNodes k r z failed).card) (hj : j < m) :
    ((usedRows k r z failed).map fun b =>
      Gf.mk (azureCoef unset k r z failed b) * rsRow k r b j).sum = rsRow k r failed j := by
  rw [sum_usedRows fun b => rsRow k r b j, usedRows_length hf hfr hs]
  simp only [azureWeight_eq]
  exact vecMul_gfInvertOut hm (fun x hker hsupp => used_columns_indep hf hfr hs hm hn hker hsupp)
    (rsRow k r failed) hj

theorem usedNodes_card (h : k / z ≤ 254) : (usedNodes k r z failed).card = k / z := by
  have hnd : ((otherGlobals k r failed).take (k / z)).Nodup :=
    otherGlobals_nodup.sublist (List.take_sublist _ _)
  unfold usedNodes
  rw [card_image_of_injOn, List.toFinset_card_of_nodup hnd, List.length_take,
    otherGlobals_length hf hfr]
  · omega
  · intro a ha b hb hab
    have ha := List.mem_toFinset.mp ha
    have hb := List.mem_toFinset.mp hb
    have hka := (mem_otherGlobals.mp (List.mem_of_mem_take ha)).1
    have hkb := (mem_otherGlobals.mp (List.mem_of_mem_take hb)).1
    have hla := le_of_mem_take hf hs ha
    have hlb := le_of_mem_take hf hs hb
    have hmod := node_inj.mp hab
    omega

theorem azure_rowsAddUp
    (h : k / z ≤ 254) : RowsAddUp unset k r z failed (usedRows k r z failed) := by
  intro j hj
  refine usedRows_addUp hf hfr hs le_rfl ?_ hj
  rw [usedNodes_card hf hfr hs h]
  exact min_le_right _ _

theorem azureCoef_unset (h : k / z ≤ 254) (unset unset' : ℕ → ℕ) (b : ℕ) :
    azureCoef unset k r z failed b = azureCoef unset' k r z failed b := by
  have hlen := usedRows_length hf hfr hs
  have hcols : ∀ unset : ℕ → ℕ, Nonsing k (toGf (azureTempMatrix unset k r z failed)) := by
    intro unset x hker
    have hker' : ∀ q < k, rowVal k (toGf (azureTempMatrix unset k r z failed))
        (fun c => if c < k then x c else 0) q = 0 := by
      intro q hq
      rw [← hker q hq]
      exact rowVal_congr (fun c hc => if_pos hc) q
    have hcut : ∀ c < k, (if c < k then x c else 0) = 0 := by
      refine used_columns_indep hf hfr hs le_rfl ?_ hker'
        fun c hc => if_neg (not_lt.mpr hc)
      rw [usedNodes_card hf hfr hs h]
      exact min_le_right _ _
    intro c hc
    have hzero := hcut c hc
    rwa [if_pos hc] at hzero
  have hprod : ∀ unset : ℕ → ℕ, ∀ c < k, vecMul k (azureWeight unset k r z failed)
      (toGf (azureTempMatrix unset k r z failed)) c = rsRow k r failed c := by
    intro unset c hc
    have hfun : azureWeight unset k r z failed =
        vecMul k (rsRow k r failed) (toGf (gfInvertOut k (azureTempMatrix unset k r z failed))) :=
      funext (azureWeight_eq unset k r z failed)
    rw [hfun]
    exact vecMul_gfInvertOut le_rfl (fun x hker _ => hcols unset x hker) _ hc
  have hrows : ∀ c < k, vecMul k (azureWeight unset' k r z failed)
      (toGf (azureTempMatrix unset k r z failed)) c = rsRow k r failed c := by
    intro c hc
    rw [← hprod unset' c hc]
    refine sum_congr rfl fun q hq => ?_
    have hq : q < (usedRows k r z failed).length := by
      rw [hlen]
      exact mem_range.mp hq
    show _ * rsRow k r (usedRow unset k r z failed q) c = _ * rsRow k r (usedRow unset' k r z failed q) c
    rw [usedRow_of_lt unset hq, usedRow_of_lt unset' hq]
  have hweight : ∀ q < k, azureVectAll unset k r z failed q = azureVectAll unset' k r z failed q := by
    intro q hq
    exact Gf.mk_inj.mp ((hcols unset).vecMul_injective
      (fun c hc => (hprod unset c hc).trans (hrows c hc).symm) hq)
  unfold azureCoef
  simp only
  split
  · next hb =>
    exact hweight _ ((List.idxOf_lt_length_of_mem hb).trans_eq hlen)
  · by_cases hk : 0 < k
    · exact hweight 0 hk
    · unfold azureVectAll gfMulVectMatrix
      rw [Nat.eq_zero_of_not_pos hk]
      rfl

end

/-! ## Too few nodes -/

theorem sum_data_rows {n : ℕ} (han : a + n ≤ k) (w : ℕ → Gf) :
    ((List.range' a n).map fun b => w b * rsRow k r b j).sum =
      if a ≤ j ∧ j < a + n then w j else 0 := by
  rw [← List.sum_toFinset _ (List.nodup_range' 1)]
  have hterm : ∀ b ∈ (List.range' a n).toFinset, w b * rsRow k r b j = if b = j then w b else 0 := by
    intro b hb
    have hb := List.mem_range'_1.mp (List.mem_toFinset.mp hb)
    rw [rsRow_data (by omega), unitMat, mul_ite, mul_one, mul_zero]
  rw [sum_congr rfl hterm, sum_ite_eq']
  simp only [List.mem_toFinset, List.mem_range'_1]

theorem sum_usedRows_column (hf : k ≤ failed) (hj : j < k) (w : ℕ → Gf) :
    ((usedRows k r z failed).map fun b => w b * rsRow k r b j).sum =
      (if k / z ≤ j then w j else 0) +
        (((otherGlobals k r failed).take (k / z)).map fun b => w b * node (b - k) ^ j).sum := by
  have hs : k / z ≤ k := Nat.div_le_self k z
  rw [usedRows_eq hf, List.map_append, List.sum_append, sum_data_rows (by omega)]
  congr 1
  · exact if_congr (by omega) rfl rfl
  · refine congrArg List.sum (List.map_congr_left fun b hb => ?_)
    obtain ⟨hkb, hbr, -⟩ := mem_otherGlobals.mp (List.mem_of_mem_take hb)
    rw [rsRow_global hkb hbr]

theorem usedRow_zero (hf : k ≤ failed) (hs : k / z < k) : usedRow unset k r z failed 0 = k / z := by
  unfold usedRow
  rw [usedRows_eq hf, show k - k / z = k - k / z - 1 + 1 by omega, List.range'_succ]
  rfl

theorem azureWeight_ne_zero_of_unit (hf : k ≤ failed) (hfr : failed < k + r) {c p : ℕ} (hp : p < k)
    (hcol : ∀ q < k, gfInvertOut k (azureTempMatrix unset k r z failed) q c = unitMat q p) :
    azureWeight unset k r z failed c ≠ 0 := by
  have hweight : azureWeight unset k r z failed c = rsRow k r failed p := by
    rw [azureWeight_eq]
    refine (sum_eq_single p (fun q hq hqp => ?_) fun hno => absurd (mem_range.mpr hp) hno).trans ?_
    · show rsRow k r failed q * Gf.mk (gfInvertOut k _ q c) = 0
      rw [hcol q (mem_range.mp hq), unitMat_of_ne hqp]
      exact mul_zero _
    · show rsRow k r failed p * Gf.mk (gfInvertOut k _ p c) = _
      rw [hcol p hp, unitMat, if_pos rfl]
      exact mul_one _
  rw [hweight, rsRow_global hf hfr]
  exact pow_ne_zero _ (node_ne_zero _)

section
variable (hf : k ≤ failed) (hfr : failed < k + r) (hs : k / z < k)
  (hn : (usedNodes k r z failed).card < k / z)
  (hunset : ∀ q < k, (usedRows k r z failed).length ≤ q → unset q = k / z)
include hf hfr hs hn hunset

theorem azureWeight_zero_ne_zero : azureWeight unset k r z failed 0 ≠ 0 := by
  obtain ⟨x, hne, hsupp, hroot⟩ := exists_poly_of_nodes hn
  have hdata : ∀ b, k / z ≤ b → b < k → ∑ c ∈ range k, rsRow k r b c * x c = 0 := by
    intro b hsb hbk
    refine Eq.trans (sum_congr rfl fun c _ => ?_) ((rowVal_unitMat hbk x).trans (hsupp b hsb))
    rw [rsRow_data hbk]
  have hglobal : ∀ b ∈ (otherGlobals k r failed).take (k / z),
      ∑ c ∈ range k, rsRow k r b c * x c = 0 := by
    intro b hb
    obtain ⟨hkb, hbr, -⟩ := mem_otherGlobals.mp (List.mem_of_mem_take hb)
    rw [← hroot _ (node_mem_usedNodes hb)]
    refine (Eq.trans ?_ (sum_subset (range_subset_range.mpr (le_of_lt hs)) fun c _ hc => ?_)).symm
    · exact sum_congr rfl fun c _ => by rw [rsRow_global hkb hbr]
    · rw [hsupp c (Nat.le_of_not_lt fun h => hc (mem_range.mpr h)), mul_zero]
  have hker : ∀ q < k, rowVal k (toGf (azureTempMatrix unset k r z failed)) x q = 0 := by
    intro q hq
    show ∑ c ∈ range k, rsRow k r (usedRow unset k r z failed q) c * x c = 0
    rcases lt_or_ge q (usedRows k r z failed).length with hlt | hge
    · rw [usedRow_of_lt unset hlt]
      rcases (mem_usedRows hf).mp (List.getElem_mem hlt) with hmem | hmem
      · exact hdata _ hmem.1 hmem.2
      · exact hglobal _ hmem
    · unfold usedRow
      rw [List.getElem?_eq_none hge, Option.getD_none, hunset q hq hge]
      exact hdata _ le_rfl hs
  have hrow : ∀ c < k / z, azureTempMatrix unset k r z failed 0 c = 0 := by
    intro c hc
    refine Gf.mk_eq_zero.mp ?_
    show rsRow k r (usedRow unset k r z failed 0) c = 0
    rw [usedRow_zero hf hs, rsRow_data hs, unitMat_of_ne (by omega)]
  obtain ⟨p, hp, hcol⟩ := gfInvertOut_unitColumn (le_of_lt hs) (by omega) hrow hker hsupp hne
  exact azureWeight_ne_zero_of_unit hf hfr hp hcol

theorem azure_rows_missing : ¬ RowsAddUp unset k r z failed (usedRows k r z failed) := by
  intro h
  let w : ℕ → Gf := fun b => Gf.mk (azureCoef unset k r z failed b)
  have hcolumn : ∀ j < k, (if k / z ≤ j then w j else 0) +
      (((otherGlobals k r failed).take (k / z)).map fun b => w b * node (b - k) ^ j).sum =
        node (failed - k) ^ j := by
    intro j hj
    rw [← sum_usedRows_column hf hj w, ← rsRow_global hf hfr]
    exact h j hj
  -- the columns of the first local group determine the powers of all nodes
  have hlow : ∀ c < k / z,
      (((otherGlobals k r failed).take (k / z)).map fun b => w b * node (b - k) ^ c).sum =
        node (failed - k) ^ c := by
    intro c hc
    have hsum := hcolumn c (by omega)
    rwa [if_neg (by omega), zero_add] at hsum
  have hpow := sum_map_apply (fun b hb => mem_insert_of_mem (node_mem_usedNodes hb))
    (mem_insert_self (node (failed - k)) _) ((card_insert_le _ _).trans hn) hlow (· ^ (k / z))
  have hsum := hcolumn (k / z) hs
  rw [if_pos le_rfl, hpow, add_eq_right] at hsum
  have hzero : 0 < (usedRows k r z failed).length := by
    rw [usedRows_eq hf, List.length_append, List.length_range']
    omega
  have hw := azureCoef_usedRow unset hzero
  rw [usedRow_zero hf hs] at hw
  exact azureWeight_zero_ne_zero hf hfr hs hn hunset (hw.symm.trans hsum)

end

theorem usedNodes_card_lt (ha : a ∈ (otherGlobals k r failed).take (k / z))
    (hb : b ∈ (otherGlobals k r failed).take (k / z)) (hab : a ≠ b)
    (hnode : node (a - k) = node (b - k)) : (usedNodes k r z failed).card < k / z := by
  have hlen : ((otherGlobals k r failed).take (k / z)).toFinset.card ≤ k / z :=
    (List.toFinset_card_le _).trans (List.length_take_le _ _)
  refine lt_of_lt_of_le (lt_of_le_of_ne card_image_le fun heq => hab ?_) hlen
  exact card_image_iff.mp heq (List.mem_toFinset.mpr ha) (List.mem_toFinset.mpr hb) hnode

/-- **Several local groups.**  Every global parity is recovered, whatever is in unset memory, exactly
when there are more global parities than data blocks in a local group and these have different
nodes. -/
theorem azure_many_iff (hs : k / z < k) (hr : 0 < r) :
    (∀ failed, k ≤ failed → failed < k + r → ∀ unset,
      RowsAddUp unset k r z failed (usedRows k r z failed)) ↔ k / z < r ∧ k / z ≤ 254 := by
  refine ⟨fun h => ?_, fun h failed hf hfr unset => azure_rowsAddUp hf hfr h.1 h.2⟩
  have hmore : k / z < r := by
    by_contra hle
    have hcard : (usedNodes k r z k).card < k / z := by
      have hlen : ((otherGlobals k r k).take (k / z)).length ≤ r - 1 := by
        rw [← otherGlobals_length le_rfl (show k < k + r by omega)]
        exact List.length_take_le' _ _
      exact (card_image_le.trans ((List.toFinset_card_le _).trans hlen)).trans_lt (by omega)
    exact azure_rows_missing le_rfl (by omega) hs hcard (fun _ _ _ => rfl)
      (h k le_rfl (by omega) fun _ => k / z)
  refine ⟨hmore, ?_⟩
  by_contra hbig
  have hmem : ∀ b, k ≤ b → b ≤ k + k / z → b ≠ k + 1 →
      b ∈ (otherGlobals k r (k + 1)).take (k / z) := by
    intro b hkb hbs hb
    rw [otherGlobals_take_of_le (by omega) (by omega) hmore, mem_otherGlobals]
    exact ⟨hkb, by omega, hb⟩
  have hcard : (usedNodes k r z (k + 1)).card < k / z :=
    usedNodes_card_lt (hmem k (by omega) (by omega) (by omega))
      (hmem (k + 255) (by omega) (by omega) (by omega)) (by omega) (node_inj.mpr (by omega))
  exact azure_rows_missing (by omega) (by omega) hs hcard (fun _ _ _ => rfl)
    (h (k + 1) (by omega) (by omega) fun _ => k / z)

end

end Mlrc
