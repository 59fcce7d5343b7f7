import Mlrc.Decode.AzureRows

/-!
# AzureLRC with one local group

With a single local group the helpers are all other global parities, but only the first `k` of them
have a row; the others get the weight of the first row.

* `othersAddUp_iff`   what the rows in use and the helpers without a row contribute;
* `azure_one_short`   too few global parities;
* `azureWeight_zero_eq`   the weight of the first row when nodes repeat;
* `azure_one_iff`   for which `k` and `r` every global parity is recovered.
-/

namespace Mlrc

open Finset

/-! ## Runs of nodes -/

/-- a function of the nodes, summed over `n` nodes from `a` on -/
def nodeSum (g : Gf → Gf) (a n : ℕ) : Gf := ∑ i ∈ range n, g (node (a + i))

section
variable {g : Gf → Gf}

theorem nodeSum_succ (a n : ℕ) : nodeSum g a (n + 1) = nodeSum g a n + g (node (a + n)) :=
  sum_range_succ _ n

theorem nodeSum_add (a m n : ℕ) : nodeSum g a (m + n) = nodeSum g a m + nodeSum g (a + m) n := by
  induction n with
  | zero => exact (add_zero _).symm
  | succ n ih => rw [← add_assoc, nodeSum_succ, nodeSum_succ, ih, add_assoc, add_assoc]

theorem nodeSum_one (a : ℕ) : nodeSum g a 1 = g (node a) := by
  rw [nodeSum, sum_range_one, add_zero]

theorem nodeSum_map (k a n : ℕ) :
    ((List.range' (k + a) n).map fun b => g (node (b - k))).sum = nodeSum g a n := by
  induction n with
  | zero => rfl
  | succ n ih =>
    rw [List.range'_1_concat, List.map_append, List.sum_append, ih, nodeSum_succ, List.map_singleton,
      List.sum_singleton, show k + a + n - k = a + n by omega]

theorem nodeSum_two_turns (a : ℕ) : nodeSum g a 510 = 0 := by
  have hturn : nodeSum g (a + 255) 255 = nodeSum g a 255 := by
    unfold nodeSum
    refine sum_congr rfl fun i _ => ?_
    rw [node_inj.mpr (show (a + 255 + i) % 255 = (a + i) % 255 by omega)]
  rw [show 510 = 255 + 255 from rfl, nodeSum_add, hturn]
  exact CharTwo.add_self_eq_zero _

theorem nodeSum_eq_zero {n : ℕ} (h : 510 ∣ n) (a : ℕ) : nodeSum g a n = 0 := by
  obtain ⟨t, rfl⟩ := h
  induction t generalizing a with
  | zero => rfl
  | succ t ih => rw [Nat.mul_succ, nodeSum_add, nodeSum_two_turns, ih, add_zero]

end

theorem nodeSum_pow_zero (a n : ℕ) : nodeSum (· ^ 0) a n = (n : Gf) := by
  unfold nodeSum
  simp

theorem even_of_natCast_eq_zero {n : ℕ} (h : (n : Gf) = 0) : Even n := by
  rw [CharTwo.natCast_eq_ite] at h
  by_contra hodd
  rw [if_neg hodd] at h
  exact one_ne_zero h

theorem dvd_of_nodeSum {a n : ℕ} (h0 : nodeSum (· ^ 0) a n = 0) (h1 : nodeSum (· ^ 1) a n = 0) :
    510 ∣ n := by
  have heven : Even n := even_of_natCast_eq_zero ((nodeSum_pow_zero a n).symm.trans h0)
  have hgeom : ∑ i ∈ range n, Gf.mk 2 ^ i = 0 := by
    have hfactor : nodeSum (· ^ 1) a n = node a * ∑ i ∈ range n, Gf.mk 2 ^ i := by
      unfold nodeSum node
      rw [mul_sum]
      refine sum_congr rfl fun i _ => ?_
      show (Gf.mk 2 ^ (a + i + 1)) ^ 1 = _
      rw [pow_one, ← pow_add]
      congr 1
      omega
    rw [hfactor] at h1
    exact (mul_eq_zero.mp h1).resolve_left (node_ne_zero a)
  have hone : Gf.mk 2 ^ n = Gf.mk 2 ^ 0 := by
    have hmul := geom_sum_mul (Gf.mk 2) n
    rw [hgeom, zero_mul] at hmul
    rw [pow_zero]
    exact sub_eq_zero.mp hmul.symm
  have hmod := Gf.two_pow_inj.mp hone
  obtain ⟨t, rfl⟩ := heven
  omega

def allNodes : Finset Gf := (range 255).image node

theorem node_mem_allNodes (i : ℕ) : node i ∈ allNodes :=
  mem_image.mpr ⟨i % 255, mem_range.mpr (by omega), node_inj.mpr (Nat.mod_mod i 255)⟩

theorem allNodes_card : allNodes.card ≤ 255 := card_image_le.trans (le_of_eq (card_range 255))

/-! ## The rows in use and the other helpers -/

section
variable {k r f : ℕ} {unset : ℕ → ℕ} {g : Gf → Gf}

/-- the node of the row in place `q` when global parity `f` has failed -/
def placeNode (f q : ℕ) : Gf := node (if q < f then q else q + 1)

/-- the other global parities add up to global parity `f` -/
def OthersAddUp (unset : ℕ → ℕ) (k r f : ℕ) : Prop :=
  RowsAddUp unset k r 1 (k + f) (otherGlobals k r (k + f))

/-- the rows in place have the first `m` columns of global parity `f` -/
def PlacesAddUp (unset : ℕ → ℕ) (k r f m : ℕ) : Prop :=
  ∀ j < m, ∑ q ∈ range k, azureWeight unset k r 1 (k + f) q * placeNode f q ^ j = node f ^ j

/-- a function of the nodes, summed over the helpers without a row -/
def extraSum (k r f : ℕ) (g : Gf → Gf) : Gf :=
  (((otherGlobals k r (k + f)).drop k).map fun b => g (node (b - k))).sum

theorem extraSum_of_le (hf : f ≤ k) (hk : k < r) :
    extraSum k r f g = nodeSum g (k + 1) (r - (k + 1)) := by
  have hlen : (otherGlobals k (k + 1) (k + f)).length = k := otherGlobals_length (by omega) (by omega)
  unfold extraSum
  rw [otherGlobals_append_of_le (s := k) (by omega) hk, List.drop_left' hlen, add_assoc,
    nodeSum_map]

theorem extraSum_of_ge (hf : k ≤ f) (hfr : f < r) :
    extraSum k r f g = nodeSum g k (r - k) + g (node f) := by
  have hleft : nodeSum g k (r - k) =
      nodeSum g k (f - k) + (g (node f) + nodeSum g (f + 1) (r - (f + 1))) := by
    rw [show r - k = f - k + (1 + (r - (f + 1))) by omega, nodeSum_add, nodeSum_add,
      Nat.add_sub_cancel' hf, nodeSum_one]
  unfold extraSum
  rw [otherGlobals_append_of_ge (s := k) (by omega) (by omega), List.drop_left' List.length_range',
    otherGlobals_eq (by omega) (by omega), show k + f - (k + k) = f - k by omega, List.map_append,
    List.sum_append, nodeSum_map, show k + f + 1 = k + (f + 1) by omega, nodeSum_map, hleft,
    show k + k + (r - k) - (k + (f + 1)) = r - (f + 1) by omega, add_comm (g (node f)), add_assoc,
    add_assoc, CharTwo.add_self_eq_zero, add_zero]

theorem usedRows_one (k r failed : ℕ) (hf : k ≤ failed) :
    usedRows k r 1 failed = (otherGlobals k r failed).take k := by
  rw [usedRows_eq hf, Nat.div_one, Nat.sub_self]
  rfl

theorem usedRow_one (hk : k < r) (hf : f < r) {q : ℕ} (hq : q < k) :
    usedRow unset k r 1 (k + f) q = k + if q < f then q else q + 1 := by
  unfold usedRow
  rw [usedRows_one _ _ _ (by omega), List.getElem?_take_of_lt hq,
    otherGlobals_eq (by omega) (by omega), List.getElem?_append, List.length_range',
    Nat.add_sub_cancel_left]
  by_cases hqf : q < f
  · rw [if_pos hqf, if_pos hqf, List.getElem?_range' hqf, one_mul, Option.getD_some]
  · rw [if_neg hqf, if_neg hqf, List.getElem?_range' (by omega), Option.getD_some]
    omega

theorem rsRow_usedRow (hk : k < r) (hf : f < r) {q : ℕ} (hq : q < k) (c : ℕ) :
    rsRow k r (usedRow unset k r 1 (k + f) q) c = placeNode f q ^ c := by
  rw [usedRow_one hk hf hq, rsRow_global (by omega) (by split <;> omega), Nat.add_sub_cancel_left]
  rfl

theorem sum_otherGlobals (hk : k < r) (hf : f < r) (g : Gf → Gf) :
    ((otherGlobals k r (k + f)).map fun b =>
      Gf.mk (azureCoef unset k r 1 (k + f) b) * g (node (b - k))).sum =
    ∑ q ∈ range k, azureWeight unset k r 1 (k + f) q * g (placeNode f q) +
      azureWeight unset k r 1 (k + f) 0 * extraSum k r f g := by
  have hused := usedRows_one k r (k + f) (by omega)
  have hlen := usedRows_length (z := 1) (show k ≤ k + f by omega) (by omega)
    (show k / 1 < r by rwa [Nat.div_one])
  conv_lhs => rw [← List.take_append_drop k (otherGlobals k r (k + f)), ← hused]
  rw [List.map_append, List.sum_append, sum_usedRows fun b => g (node (b - k)), hlen]
  congr 1
  · refine sum_congr rfl fun q hq => ?_
    rw [usedRow_one hk hf (mem_range.mp hq), Nat.add_sub_cancel_left]
    rfl
  · unfold extraSum
    rw [← List.sum_map_mul_left]
    refine congrArg List.sum (List.map_congr_left fun b hb => ?_)
    have hno : b ∉ usedRows k r 1 (k + f) := by
      rw [hused]
      exact fun hmem => List.disjoint_take_drop otherGlobals_nodup le_rfl hmem hb
    rw [azureCoef_of_notMem hno]

theorem othersAddUp_iff_nodes (hf : f < r) : OthersAddUp unset k r f ↔ ∀ j < k,
      ((otherGlobals k r (k + f)).map fun b =>
        Gf.mk (azureCoef unset k r 1 (k + f) b) * node (b - k) ^ j).sum = node f ^ j := by
  refine forall₂_congr fun j _ => ?_
  rw [rsRow_global (by omega) (by omega), Nat.add_sub_cancel_left]
  refine Eq.congr_left (congrArg List.sum (List.map_congr_left fun b hb => ?_))
  obtain ⟨hkb, hbr, -⟩ := mem_otherGlobals.mp hb
  rw [rsRow_global hkb hbr]

theorem othersAddUp_iff (hk : k < r) (hf : f < r) : OthersAddUp unset k r f ↔ ∀ j < k,
      ∑ q ∈ range k, azureWeight unset k r 1 (k + f) q * placeNode f q ^ j +
        azureWeight unset k r 1 (k + f) 0 * extraSum k r f (· ^ j) = node f ^ j := by
  rw [othersAddUp_iff_nodes hf]
  exact forall₂_congr fun j _ => by rw [sum_otherGlobals hk hf (· ^ j)]

theorem placesAddUp (unset : ℕ → ℕ) (hk : k < r) (hf : f < r) {m : ℕ} (hm : m ≤ k)
    (hn : m ≤ (usedNodes k r 1 (k + f)).card) : PlacesAddUp unset k r f m := by
  intro j hj
  have hs : k / 1 < r := by rwa [Nat.div_one]
  have hsum : ((usedRows k r 1 (k + f)).map fun b =>
      Gf.mk (azureCoef unset k r 1 (k + f) b) * rsRow k r b j).sum = rsRow k r (k + f) j :=
    usedRows_addUp (by omega) (by omega) hs hm (by rwa [Nat.div_one, min_eq_left hm]) hj
  rw [sum_usedRows fun b => rsRow k r b j, usedRows_length (by omega) (by omega) hs,
    rsRow_global (by omega) (by omega), Nat.add_sub_cancel_left] at hsum
  rw [← hsum]
  exact sum_congr rfl fun q hq => by rw [rsRow_usedRow hk hf (mem_range.mp hq)]

theorem othersAddUp_iff_extra (hk : k < r) (hf : f < r) (hused : PlacesAddUp unset k r f k) :
    OthersAddUp unset k r f ↔ azureWeight unset k r 1 (k + f) 0 = 0 ∨ ∀ j < k, extraSum k r f (· ^ j) = 0 := by
  rw [othersAddUp_iff hk hf]
  constructor
  · intro h
    refine or_iff_not_imp_left.mpr fun hw j hj => ?_
    have hsum := h j hj
    rw [hused j hj, add_eq_left] at hsum
    exact (mul_eq_zero.mp hsum).resolve_left hw
  · rintro (hw | hextra) j hj
    · rw [hused j hj, hw, zero_mul, add_zero]
    · rw [hused j hj, hextra j hj, mul_zero, add_zero]

/-! ## Too few global parities -/

theorem azure_one_short (hr : 0 < r) (hrk : r ≤ k) : ∃ unset, ¬ OthersAddUp unset k r 0 := by
  have hothers : otherGlobals k r k = List.range' (k + 1) (r - 1) := by
    rw [otherGlobals_eq le_rfl (by omega), Nat.sub_self,
      show k + r - (k + 1) = r - 1 by omega]
    rfl
  have hused : usedRows k r 1 k = List.range' (k + 1) (r - 1) := by
    rw [usedRows_one _ _ _ le_rfl, hothers, List.take_of_length_le]
    rw [List.length_range']
    omega
  have hfirst : rsRow k r k 0 = 1 := by rw [rsRow_global le_rfl (by omega), pow_zero]
  -- the last place holds the first row once more, the places before it a data row
  refine ⟨fun q => if q = k - 1 then k + 1 else 1, fun h => ?_⟩
  set unset : ℕ → ℕ := fun q => if q = k - 1 then k + 1 else 1
  have hcolumn := h 0 (by omega)
  rw [add_zero, hfirst, hothers, ← hused, sum_usedRows fun b => rsRow k r b 0, hused, List.length_range']
    at hcolumn
  rcases lt_or_ge r 2 with h1 | h2
  · rw [show r - 1 = 0 by omega, sum_range_zero] at hcolumn
    exact zero_ne_one hcolumn
  have hstored : ∀ q < r - 1, usedRow unset k r 1 k q = k + 1 + q := by
    intro q hq
    unfold usedRow
    rw [hused, List.getElem?_range' hq, one_mul, Option.getD_some]
  have hrest : ∀ q, r - 1 ≤ q → usedRow unset k r 1 k q = unset q := by
    intro q hq
    unfold usedRow
    rw [hused, List.getElem?_eq_none (by rwa [List.length_range']), Option.getD_none]
  have hlast : usedRow unset k r 1 k (k - 1) = k + 1 := by
    rw [hrest _ (by omega)]
    exact if_pos rfl
  have hzero : usedRow unset k r 1 k 0 = k + 1 := hstored 0 (by omega)
  have hone : rsRow k r (k + 1) 0 = 1 := by rw [rsRow_global (by omega) (by omega), pow_zero]
  have hpivot : azureTempMatrix unset k r 1 k 0 0 ≠ 0 := by
    refine Gf.mk_eq_zero.not.mp ?_
    show rsRow k r (usedRow unset k r 1 k 0) 0 ≠ 0
    rw [hzero, hone]
    exact one_ne_zero
  have hdup : ∀ c < k, azureTempMatrix unset k r 1 k (k - 1) c = azureTempMatrix unset k r 1 k 0 c := by
    intro c _
    unfold azureTempMatrix
    rw [hlast, hzero]
  obtain ⟨⟨p, hp, hcol⟩, hval⟩ :=
    gfInvertOut_duplicate (show k - 1 < k by omega) (by omega) hpivot hdup (rsRow k r k)
  refine azureWeight_ne_zero_of_unit le_rfl (by omega) hp hcol ?_
  have htotal : ∑ q ∈ range k, azureWeight unset k r 1 k q * rsRow k r (usedRow unset k r 1 k q) 0 =
      1 := by
    simp only [azureWeight_eq]
    exact hval.trans hfirst
  have hmiddle : ∑ q ∈ range (k - 1), azureWeight unset k r 1 k q *
      rsRow k r (usedRow unset k r 1 k q) 0 = 1 := by
    rw [← hcolumn]
    refine (sum_subset (range_subset_range.mpr (by omega)) fun q hq hqr => ?_).symm
    have hq := mem_range.mp hq
    have hqr : r - 1 ≤ q := Nat.le_of_not_lt fun h => hqr (mem_range.mpr h)
    have hdata : unset q = 1 := if_neg (by omega)
    rw [hrest q hqr, hdata, rsRow_data (by omega), unitMat_of_ne (by omega), mul_zero]
  have hsplit := sum_range_succ
    (fun q => azureWeight unset k r 1 k q * rsRow k r (usedRow unset k r 1 k q) 0) (k - 1)
  rw [Nat.sub_add_cancel (show 1 ≤ k by omega), htotal, hmiddle, hlast, hone, mul_one] at hsplit
  exact add_eq_left.mp hsplit.symm

/-! ## Different nodes -/

theorem azureWeight_zero_ne_zero_one (hk : 0 < k) (hused : PlacesAddUp unset k r f k)
    (hne : ∀ q < k, q ≠ 0 → placeNode f q ≠ node f) : azureWeight unset k r 1 (k + f) 0 ≠ 0 := by
  intro hw
  have hrest : ∀ j < k, ((List.range' 1 (k - 1)).map fun q =>
      azureWeight unset k r 1 (k + f) q * placeNode f q ^ j).sum = node f ^ j := by
    intro j hj
    rw [← hused j hj]
    show _ = ((List.range k).map _).sum
    rw [show k = k - 1 + 1 by omega, List.range_eq_range', List.range'_succ, List.map_cons,
      List.sum_cons, Nat.add_sub_cancel, show k - 1 + 1 = k by omega, hw, zero_mul, zero_add]
  obtain ⟨q, hq, heq⟩ := exists_eq_of_sum_map (by rw [List.length_range']; omega) hrest
  obtain ⟨hq1, hqk⟩ := List.mem_range'_1.mp hq
  exact hne q (by omega) (by omega) heq

theorem placesAddUp_small (unset : ℕ → ℕ) (hk : k < r) (hf : f < r) (h : k ≤ 254) :
    PlacesAddUp unset k r f k := by
  refine placesAddUp unset hk hf le_rfl ?_
  rw [usedNodes_card (by omega) (by omega) (by rwa [Nat.div_one]) (by rwa [Nat.div_one]), Nat.div_one]

theorem extra_of_othersAddUp_small (hk0 : 0 < k) (hk : k < r) (hf : f < r) (h : k ≤ 254)
    (hff : f = 0 ∨ f = k + 1) (hadd : OthersAddUp unset k r f) :
    ∀ j < k, extraSum k r f (· ^ j) = 0 := by
  have hused := placesAddUp_small unset hk hf h
  refine ((othersAddUp_iff_extra hk hf hused).mp hadd).resolve_left
    (azureWeight_zero_ne_zero_one hk0 hused fun q hq hq0 => ?_)
  unfold placeNode
  rw [Ne, node_inj]
  split <;> omega

theorem azure_one_small (hk2 : 2 ≤ k) (hk : k ≤ 254) (hkr : k < r) :
    (∀ f < r, ∀ unset, OthersAddUp unset k r f) ↔ r = k + 1 := by
  constructor
  · intro h
    by_contra hne
    have h0 := extra_of_othersAddUp_small (by omega) hkr (by omega) hk (.inl rfl)
      (h 0 (by omega) fun _ => 0) 1 (by omega)
    have h1 := extra_of_othersAddUp_small (by omega) hkr (by omega) hk (.inr rfl)
      (h (k + 1) (by omega) fun _ => 0) 1 (by omega)
    -- the two sums differ in the nodes `k` and `k + 1`
    rw [extraSum_of_le (by omega) hkr] at h0
    rw [extraSum_of_ge (by omega) (by omega), show r - k = 1 + (r - (k + 1)) by omega, nodeSum_add,
      nodeSum_one, h0, add_zero, CharTwo.add_eq_zero, pow_one, pow_one, node_inj] at h1
    omega
  · rintro rfl f hf unset
    refine (othersAddUp_iff_extra hkr hf (placesAddUp_small unset hkr hf hk)).mpr (.inr fun j _ => ?_)
    rw [extraSum_of_le (by omega) hkr, Nat.sub_self]
    rfl

theorem azure_one_one (hr : 1 < r) :
    (∀ f < r, ∀ unset, OthersAddUp unset 1 r f) ↔ Even r := by
  constructor
  · intro h
    have h0 := extra_of_othersAddUp_small one_pos hr (by omega) (by omega) (.inl rfl)
      (h 0 (by omega) fun _ => 0) 0 (by omega)
    rw [extraSum_of_le (by omega) hr, nodeSum_pow_zero] at h0
    obtain ⟨t, ht⟩ := even_of_natCast_eq_zero h0
    exact ⟨t + 1, by omega⟩
  · intro heven f hf unset
    refine (othersAddUp_iff_extra hr hf (placesAddUp_small unset hr hf (by omega))).mpr
      (.inr fun j hj => ?_)
    obtain rfl : j = 0 := by omega
    rcases Nat.eq_zero_or_pos f with rfl | hpos
    · rw [extraSum_of_le (by omega) hr, nodeSum_pow_zero, CharTwo.natCast_eq_ite, if_pos]
      exact (Nat.even_sub (by omega)).mpr (iff_of_true heven (by decide))
    · rw [extraSum_of_ge hpos hf, nodeSum_pow_zero, pow_zero, CharTwo.natCast_eq_ite, if_neg,
        CharTwo.add_self_eq_zero]
      rw [Nat.even_sub (by omega)]
      exact fun hiff => absurd (hiff.mp heven) (by decide)

/-! ## Repeated nodes -/

theorem mem_take_one (hk : k < r) {i : ℕ} (hi : i ≤ k) (hif : i ≠ f) (hfk : i < k ∨ f ≤ k) :
    k + i ∈ (otherGlobals k r (k + f)).take (k / 1) := by
  rw [Nat.div_one]
  rcases le_total f k with h | h
  · rw [otherGlobals_take_of_le (by omega) (by omega) hk, mem_otherGlobals]
    omega
  · rw [otherGlobals_take_of_ge (by omega) (by omega), List.mem_range'_1]
    omega

theorem le_usedNodes_card {m : ℕ} (hm : m ≤ 255) (h : ∀ i < m, node i ∈ usedNodes k r 1 (k + f)) :
    m ≤ (usedNodes k r 1 (k + f)).card := by
  have hinj : Set.InjOn node (range m) := by
    intro a ha b hb hab
    have ha := mem_range.mp ha
    have hb := mem_range.mp hb
    have hmod := node_inj.mp hab
    omega
  calc m = ((range m).image node).card := by rw [card_image_of_injOn hinj, card_range]
    _ ≤ (usedNodes k r 1 (k + f)).card := card_le_card fun y hy => by
      obtain ⟨i, hi, rfl⟩ := mem_image.mp hy
      exact h i (mem_range.mp hi)

theorem node_mem_usedNodes_one (hk : k < r) {i : ℕ} (hi : i ≤ k) (hif : i ≠ f)
    (hfk : i < k ∨ f ≤ k) : node i ∈ usedNodes k r 1 (k + f) := by
  have hmem := node_mem_usedNodes (mem_take_one hk hi hif hfk)
  rwa [Nat.add_sub_cancel_left] at hmem

theorem azure_one_middle (hk : 255 ≤ k) (hk' : k ≤ 508) (hkr : k < r) :
    ¬ OthersAddUp unset k r 254 := by
  intro h
  have hfr : 254 < r := by omega
  have hcolumn : ∀ j < 254, azureWeight unset k r 1 (k + 254) 0 * extraSum k r 254 (· ^ j) = 0 := by
    intro j hj
    have hsum := (othersAddUp_iff hkr hfr).mp h j (by omega)
    rw [placesAddUp unset hkr hfr (show 254 ≤ k by omega)
      (le_usedNodes_card (by decide) fun i hi =>
        node_mem_usedNodes_one hkr (by omega) (by omega) (.inl (by omega))) j hj] at hsum
    exact add_eq_left.mp hsum
  let g : Gf → Gf := fun y => if y = node 254 then 1 else 0
  have hpick := sum_map_apply (fun b _ => node_mem_allNodes (b - k)) (node_mem_allNodes 254)
    allNodes_card (fun c hc => (othersAddUp_iff_nodes hfr).mp h c (by omega)) g
  rw [sum_otherGlobals hkr hfr g, sum_eq_zero, zero_add] at hpick
  · have hone : g (node 254) = 1 := if_pos rfl
    rw [hone] at hpick
    have hw : azureWeight unset k r 1 (k + 254) 0 ≠ 0 := by
      intro hw
      rw [hw, zero_mul] at hpick
      exact zero_ne_one hpick
    have hturns : 510 ∣ r - (k + 1) := by
      refine dvd_of_nodeSum (a := k + 1) ?_ ?_
      · rw [← extraSum_of_le (show 254 ≤ k by omega) hkr]
        exact (mul_eq_zero.mp (hcolumn 0 (by decide))).resolve_left hw
      · rw [← extraSum_of_le (show 254 ≤ k by omega) hkr]
        exact (mul_eq_zero.mp (hcolumn 1 (by decide))).resolve_left hw
    rw [extraSum_of_le (by omega) hkr, nodeSum_eq_zero hturns, mul_zero] at hpick
    exact zero_ne_one hpick
  · intro q hq
    have hq := mem_range.mp hq
    have hno : placeNode 254 q ≠ node 254 := by
      unfold placeNode
      rw [Ne, node_inj]
      split <;> omega
    show _ * (if placeNode 254 q = node 254 then (1 : Gf) else 0) = 0
    rw [if_neg hno, mul_zero]

theorem node_pow_mod (i j : ℕ) : node i ^ j = node i ^ (j % 255) := by
  refine pow_eq_pow_mod j ?_
  unfold node
  rw [← pow_mul]
  exact (Gf.two_pow_inj.mpr (by omega)).trans (pow_zero _)

theorem placesAddUp_big (unset : ℕ → ℕ) (hk : 509 ≤ k) (hkr : k < r) (hf : f < r) :
    PlacesAddUp unset k r f k := by
  have hn : 255 ≤ (usedNodes k r 1 (k + f)).card := by
    refine le_usedNodes_card (Nat.le_refl 255) fun i hi => ?_
    by_cases hif : i = f
    · rw [node_inj.mpr (show i % 255 = (i + 255) % 255 by omega)]
      exact node_mem_usedNodes_one hkr (by omega) (by omega) (by omega)
    · exact node_mem_usedNodes_one hkr (by omega) hif (.inl (by omega))
  intro j _
  have hlow := placesAddUp unset hkr hf (show 255 ≤ k by omega) hn (j % 255) (by omega)
  rw [node_pow_mod f j, ← hlow]
  refine sum_congr rfl fun q _ => ?_
  unfold placeNode
  rw [node_pow_mod _ j]

theorem pick_node {b : ℕ → Gf} {t : ℕ}
    (h : ∀ c < 255, ∑ q ∈ range 255, b q * node q ^ c = node t ^ c) :
    b 0 = if node t = node 0 then 1 else 0 := by
  have hpick := sum_map_apply (l := List.range 255) (fun q _ => node_mem_allNodes q)
    (node_mem_allNodes t) allNodes_card h fun y => if y = node 0 then 1 else 0
  refine Eq.trans ?_ hpick
  show b 0 = ∑ q ∈ range 255, b q * if node q = node 0 then 1 else 0
  rw [sum_eq_single 0]
  · rw [if_pos rfl, mul_one]
  · intro q hq hq0
    have hq := mem_range.mp hq
    rw [if_neg (by rw [node_inj]; omega), mul_zero]
  · intro hno
    exact absurd (mem_range.mpr (by decide)) hno

theorem toGf_azureTempMatrix_one (hkr : k < r) (hf : f < r) {q : ℕ} (hq : q < k) (c : ℕ) :
    toGf (azureTempMatrix unset k r 1 (k + f)) q c = placeNode f q ^ c :=
  rsRow_usedRow hkr hf hq c

theorem placeNode_of_lt {q : ℕ} (h : q < f) : placeNode f q = node q := by
  unfold placeNode
  rw [if_pos h]

theorem leadingRows_one (hk : 255 < k) (hkr : k < r) (hf : 255 ≤ f) (hfr : f < r) :
    LeadingRows k 255 (toGf (azureTempMatrix unset k r 1 (k + f))) := by
  intro i hi a hai ha
  by_contra hno
  push Not at hno
  have hsum : ∀ c < i + 1, ((List.range i).map fun q => a q * node q ^ c).sum = node i ^ c := by
    intro c hc
    have hzero := hno c (by omega)
    have hcut : vecMul k a (toGf (azureTempMatrix unset k r 1 (k + f))) c =
        ∑ q ∈ range (i + 1), a q * node q ^ c := by
      refine (sum_subset (range_subset_range.mpr (show i + 1 ≤ k by omega)) fun q _ hq => ?_).symm.trans
        (sum_congr rfl fun q hq => ?_)
      · rw [ha q (Nat.le_of_not_lt fun h => hq (mem_range.mpr h)), zero_mul]
      · have hq := mem_range.mp hq
        rw [toGf_azureTempMatrix_one hkr hfr (by omega), placeNode_of_lt (by omega)]
    rw [hcut, sum_range_succ, hai, one_mul, CharTwo.add_eq_zero] at hzero
    exact hzero
  obtain ⟨q, hq, heq⟩ := exists_eq_of_sum_map (by rw [List.length_range]; omega) hsum
  have hq := List.mem_range.mp hq
  have hmod := node_inj.mp heq
  omega

theorem columns_repeat_one (unset : ℕ → ℕ) (hk : 255 < k) (hkr : k < r) (hfr : f < r) :
    ∃ x : ℕ → Gf, (∀ q < k, rowVal k (toGf (azureTempMatrix unset k r 1 (k + f))) x q = 0) ∧
      (∀ c, 255 < c → x c = 0) ∧ x 255 ≠ 0 := by
  refine ⟨fun c => (if c = 0 then 1 else 0) + if c = 255 then 1 else 0, fun q hq => ?_, fun c hc => ?_, ?_⟩
  · set T := toGf (azureTempMatrix unset k r 1 (k + f)) with hT
    have hsplit : rowVal k T (fun c => (if c = 0 then 1 else 0) + if c = 255 then 1 else 0) q =
        T q 0 + T q 255 := by
      rw [← rowVal_unit (show 0 < k by omega) T q, ← rowVal_unit (show 255 < k by omega) T q]
      unfold rowVal
      simp only [mul_add, sum_add_distrib]
    rw [hsplit, hT, toGf_azureTempMatrix_one hkr hfr hq, toGf_azureTempMatrix_one hkr hfr hq, placeNode,
      node_pow_mod _ 255]
    exact CharTwo.add_self_eq_zero _
  · show (if c = 0 then (1 : Gf) else 0) + (if c = 255 then 1 else 0) = 0
    rw [if_neg (by omega), if_neg (by omega), add_zero]
  · show (if 255 = 0 then (1 : Gf) else 0) + (if 255 = 255 then 1 else 0) ≠ 0
    rw [if_neg (by decide), if_pos rfl, zero_add]
    exact one_ne_zero

/-- after 255 turns: the rows at the front are inverted, and each row behind them is cleared by the one
with its node -/
theorem leading_row_one (hk : 255 < k) (hkr : k < r) (hf : 255 ≤ f) (hfr : f < r)
    {s : Mat UInt8 × Mat UInt8} (hinv : InvertInv k (azureTempMatrix unset k r 1 (k + f)) 255 s)
    (hlead : Leading k 255 s) {q : ℕ} (hq : q < k) {c : ℕ} (hc : c < 255) :
    ∑ p ∈ range 255, toGf s.2 q p * node p ^ c =
      if q < 255 then unitMat q c else placeNode f q ^ c := by
  set T := toGf (azureTempMatrix unset k r 1 (k + f)) with hT
  have hval := hinv.row_eq hq (show c < k by omega)
  rw [hinv.reduced c hc q hq, vecMul, ← sum_range_add_sum_Ico _ (show 255 ≤ k by omega)] at hval
  have hfront : ∑ p ∈ range 255, toGf s.2 q p * T p c =
      ∑ p ∈ range 255, toGf s.2 q p * node p ^ c := by
    refine sum_congr rfl fun p hp => ?_
    have hp := mem_range.mp hp
    rw [hT, toGf_azureTempMatrix_one hkr hfr (by omega), placeNode_of_lt (by omega)]
  have hback : ∑ p ∈ Ico 255 k, toGf s.2 q p * T p c = if q < 255 then 0 else placeNode f q ^ c := by
    have hentry : ∀ p ∈ Ico 255 k, toGf s.2 q p * T p c =
        if p = q then (if q < 255 then 0 else placeNode f q ^ c) else 0 := by
      intro p hp
      have hp := mem_Ico.mp hp
      rw [hT, toGf_azureTempMatrix_one hkr hfr hp.2]
      show Gf.mk (s.2 q p) * _ = _
      rw [hlead q hq p hp.1]
      by_cases hqp : p = q
      · subst hqp
        rw [if_neg (by omega), unitMat, if_pos rfl, if_pos rfl, if_neg (by omega)]
        exact one_mul _
      · rw [if_neg hqp, unitMat_of_ne (Ne.symm hqp), ite_self]
        exact zero_mul _
    rw [sum_congr rfl hentry, sum_ite_eq']
    by_cases h : q < 255
    · rw [if_pos h, ite_self]
    · rw [if_neg h, if_pos (mem_Ico.mpr ⟨by omega, hq⟩)]
  rw [hfront, hback] at hval
  by_cases h : q < 255
  · rw [if_pos h, add_zero] at hval
    rw [if_pos h, hval]
  · rw [if_neg h, unitMat_of_ne (by omega), CharTwo.add_eq_zero] at hval
    rw [if_neg h, hval]

theorem azureWeight_zero_eq (unset : ℕ → ℕ) (hk : 255 < k) (hkr : k < r) (hf : 255 ≤ f) (hfr : f < r) :
    azureWeight unset k r 1 (k + f) 0 = (if node f = node 0 then 1 else 0) +
      ∑ q ∈ Ico 255 k, node f ^ q * if placeNode f q = node 0 then 1 else 0 := by
  obtain ⟨x, hker, hsupp, hne⟩ := columns_repeat_one unset hk hkr hfr
  obtain ⟨s, hout, hinv, hlead⟩ :=
    gfInvertOut_leading hk (leadingRows_one hk hkr hf hfr) hker hsupp hne
  have hweight : azureWeight unset k r 1 (k + f) 0 =
      ∑ q ∈ range k, node f ^ q * toGf s.2 q 0 := by
    rw [azureWeight_eq, ← hout]
    refine sum_congr rfl fun q _ => ?_
    rw [rsRow_global (by omega) (by omega), Nat.add_sub_cancel_left]
  have hfront : ∑ q ∈ range 255, node f ^ q * toGf s.2 q 0 = if node f = node 0 then 1 else 0 := by
    refine pick_node (b := fun p => ∑ q ∈ range 255, node f ^ q * toGf s.2 q p) fun c hc => ?_
    have hterm : ∀ q ∈ range 255, ∑ p ∈ range 255, node f ^ q * toGf s.2 q p * node p ^ c =
        if q = c then node f ^ q else 0 := by
      intro q hq
      have hq := mem_range.mp hq
      simp only [mul_assoc]
      rw [← mul_sum, leading_row_one hk hkr hf hfr hinv hlead (by omega) hc, if_pos hq, unitMat,
        mul_ite, mul_one, mul_zero]
    simp only [sum_mul]
    rw [sum_comm, sum_congr rfl hterm, sum_ite_eq', if_pos (mem_range.mpr hc)]
  have hback : ∑ q ∈ Ico 255 k, node f ^ q * toGf s.2 q 0 =
      ∑ q ∈ Ico 255 k, node f ^ q * if placeNode f q = node 0 then 1 else 0 := by
    refine sum_congr rfl fun q hq => ?_
    have hq := mem_Ico.mp hq
    have hentry := pick_node (b := toGf s.2 q) (t := if q < f then q else q + 1) fun c hc => by
      rw [leading_row_one hk hkr hf hfr hinv hlead hq.2 hc, if_neg (by omega)]
      rfl
    rw [hentry]
    rfl
  rw [hweight, ← sum_range_add_sum_Ico _ (show 255 ≤ k by omega), hfront, hback]

theorem azureWeight_zero_tail (unset : ℕ → ℕ) (hk : 255 < k) (hkr : k < r) (hf : k ≤ f) (hfr : f < r) :
    azureWeight unset k r 1 (k + f) 0 =
      (if f % 255 = 0 then 1 else 0) + (((k - 1) / 255 : ℕ) : Gf) := by
  have hfirst : (if node f = node 0 then (1 : Gf) else 0) = if f % 255 = 0 then 1 else 0 :=
    if_congr (by rw [node_inj, Nat.zero_mod]) rfl rfl
  have hterm : ∀ q ∈ Ico 255 k, node f ^ q * (if placeNode f q = node 0 then 1 else 0) =
      if 255 ∣ q then 1 else 0 := by
    intro q hq
    have hq := mem_Ico.mp hq
    rw [placeNode_of_lt (by omega), mul_ite, mul_one, mul_zero]
    by_cases hdvd : 255 ∣ q
    · rw [if_pos hdvd, if_pos (node_inj.mpr (by omega)), node_pow_mod, Nat.mod_eq_zero_of_dvd hdvd,
        pow_zero]
    · rw [if_neg hdvd, if_neg (by rw [node_inj]; omega)]
  have hturns : (Ico 255 k).filter (255 ∣ ·) = (Ioc 0 (k - 1)).filter (255 ∣ ·) := by
    ext q
    simp only [mem_filter, mem_Ico, mem_Ioc]
    omega
  rw [azureWeight_zero_eq unset hk hkr (by omega) hfr, hfirst, sum_congr rfl hterm, sum_boole, hturns,
    Nat.Ioc_filter_dvd_card_eq_div]

theorem azureWeight_zero_dup (unset : ℕ → ℕ) (hk : 255 < k) (hkr : k < r) :
    azureWeight unset k r 1 (k + 255) 0 ≠ 0 := by
  have hnode : node 255 = node 0 := node_inj.mpr rfl
  rw [azureWeight_zero_eq unset hk hkr (Nat.le_refl 255) (by omega), if_pos hnode]
  have hterm : ∀ q ∈ Ico 255 k, node 255 ^ q * (if placeNode 255 q = node 0 then 1 else 0) =
      (if 255 ∣ q + 1 then 1 else 0) * node 0 ^ 254 := by
    intro q hq
    have hq := mem_Ico.mp hq
    have hplace : placeNode 255 q = node (q + 1) := by
      unfold placeNode
      rw [if_neg (by omega)]
    rw [hplace, hnode, mul_comm]
    by_cases hdvd : 255 ∣ q + 1
    · rw [if_pos hdvd, if_pos (node_inj.mpr (by omega)), node_pow_mod _ q,
        show q % 255 = 254 by omega]
    · rw [if_neg hdvd, if_neg (by rw [node_inj]; omega), zero_mul, zero_mul]
  rw [sum_congr rfl hterm, ← sum_mul, sum_boole, CharTwo.natCast_eq_ite]
  split
  · rw [zero_mul, add_zero]
    exact one_ne_zero
  · rw [one_mul]
    intro hzero
    have hpow : Gf.mk 2 ^ 254 = Gf.mk 2 ^ 0 := by
      rw [pow_zero]
      have hone := (CharTwo.add_eq_zero.mp hzero).symm
      unfold node at hone
      rwa [zero_add, pow_one] at hone
    exact absurd (Gf.two_pow_inj.mp hpow) (by decide)

theorem extraSum_of_turns (hturns : 510 ∣ r - (k + 1)) (hf : k ≤ f) (hfr : f < r) (g : Gf → Gf) :
    extraSum k r f g = g (node k) + g (node f) := by
  rw [extraSum_of_ge hf hfr, show r - k = 1 + (r - (k + 1)) by omega, nodeSum_add, nodeSum_one,
    nodeSum_eq_zero hturns, add_zero]

theorem azure_one_big (hk : 509 ≤ k) (hkr : k < r) :
    (∀ f < r, ∀ unset, OthersAddUp unset k r f) ↔
      r = k + 1 ∨ (k % 510 = 255 ∧ r % 510 = 256) := by
  have hiff : ∀ f < r, ∀ unset, OthersAddUp unset k r f ↔
      azureWeight unset k r 1 (k + f) 0 = 0 ∨ ∀ j < k, extraSum k r f (· ^ j) = 0 :=
    fun f hf unset => othersAddUp_iff_extra hkr hf (placesAddUp_big unset hk hkr hf)
  constructor
  · intro h
    by_contra hno
    have hturns : 510 ∣ r - (k + 1) := by
      have hextra := ((hiff 255 (by omega) fun _ => 0).mp (h 255 (by omega) fun _ => 0)).resolve_left
        (azureWeight_zero_dup _ (by omega) hkr)
      refine dvd_of_nodeSum (a := k + 1) ?_ ?_
      · rw [← extraSum_of_le (show 255 ≤ k by omega) hkr]
        exact hextra 0 (by omega)
      · rw [← extraSum_of_le (show 255 ≤ k by omega) hkr]
        exact hextra 1 (by omega)
    -- a failed block behind the rows whose node is not that of block `k` must get no weight
    have hweight : ∀ f, k < f → f < r → f % 255 ≠ k % 255 →
        (if f % 255 = 0 then 1 else 0) + (((k - 1) / 255 : ℕ) : Gf) = 0 := by
      intro f hkf hfr hmod
      rw [← azureWeight_zero_tail (fun _ => 0) (by omega) hkr (by omega) hfr]
      refine ((hiff f hfr _).mp (h f hfr _)).resolve_right fun hextra => hmod ?_
      have hone := hextra 1 (by omega)
      rw [extraSum_of_turns hturns (by omega) hfr, pow_one, pow_one, CharTwo.add_eq_zero] at hone
      exact (node_inj.mp hone).symm
    have heven : Even ((k - 1) / 255) := by
      by_cases hmod : (k + 1) % 255 = 0
      · have hsum := hweight (k + 2) (by omega) (by omega) (by omega)
        rw [if_neg (by omega), zero_add] at hsum
        exact even_of_natCast_eq_zero hsum
      · have hsum := hweight (k + 1) (by omega) (by omega) (by omega)
        rw [if_neg hmod, zero_add] at hsum
        exact even_of_natCast_eq_zero hsum
    have hzero : (((k - 1) / 255 : ℕ) : Gf) = 0 := by rw [CharTwo.natCast_eq_ite, if_pos heven]
    have hk255 : k % 255 = 0 := by
      by_contra hmod
      have hsum := hweight (k - k % 255 + 255) (by omega) (by omega) (by omega)
      rw [if_pos (by omega), hzero, add_zero] at hsum
      exact one_ne_zero hsum
    obtain ⟨t, ht⟩ := heven
    exact hno (.inr ⟨by omega, by omega⟩)
  · rintro hfits f hf unset
    have hturns : 510 ∣ r - (k + 1) := by omega
    rw [hiff f hf]
    rcases lt_or_ge k f with hkf | hkf
    · have heven : (((k - 1) / 255 : ℕ) : Gf) = 0 := by
        rw [CharTwo.natCast_eq_ite, if_pos]
        rw [Nat.even_iff]
        omega
      by_cases hmod : f % 255 = 0
      · refine .inr fun j _ => ?_
        rw [extraSum_of_turns hturns (by omega) hf, node_inj.mpr (show f % 255 = k % 255 by omega)]
        exact CharTwo.add_self_eq_zero _
      · refine .inl ?_
        rw [azureWeight_zero_tail unset (by omega) hkr (by omega) hf, if_neg hmod, heven, add_zero]
    · refine .inr fun j _ => ?_
      rw [extraSum_of_le hkf hkr, nodeSum_eq_zero hturns]

/-- **One local group.**  For which `k` and `r` every global parity is recovered, whatever is in unset
memory: there is exactly one helper for each row, or the others cancel. -/
theorem azure_one_iff (hk : 0 < k) (hr : 0 < r) : (∀ failed, k ≤ failed → failed < k + r → ∀ unset,
      RowsAddUp unset k r 1 failed (otherGlobals k r failed)) ↔
    (k = 1 ∧ Even r) ∨ (r = k + 1 ∧ (k ≤ 254 ∨ 509 ≤ k)) ∨
      (509 ≤ k ∧ k % 510 = 255 ∧ k < r ∧ r % 510 = 256) := by
  have hoffset : (∀ failed, k ≤ failed → failed < k + r → ∀ unset,
      RowsAddUp unset k r 1 failed (otherGlobals k r failed)) ↔
      ∀ f < r, ∀ unset, OthersAddUp unset k r f := by
    refine ⟨fun h f hf => h (k + f) (by omega) (by omega), fun h failed hf hfr unset => ?_⟩
    have := h (failed - k) (by omega) unset
    rwa [OthersAddUp, Nat.add_sub_cancel' hf] at this
  rw [hoffset]
  rcases lt_or_ge k r with hkr | hrk
  · rcases lt_or_ge k 2 with h1 | h2
    · obtain rfl : k = 1 := by omega
      rw [azure_one_one hkr, Nat.even_iff]
      omega
    · rcases lt_or_ge k 255 with hsmall | hbig
      · rw [azure_one_small h2 (by omega) hkr]
        omega
      · rcases lt_or_ge k 509 with hmid | hbig
        · refine iff_of_false (fun h => ?_) (by omega)
          exact azure_one_middle hbig (by omega) hkr (h 254 (by omega) fun _ => 0)
        · rw [azure_one_big hbig hkr]
          omega
  · obtain ⟨unset, hno⟩ := azure_one_short hr hrk
    refine iff_of_false (fun h => hno (h 0 hr unset)) ?_
    rintro (⟨rfl, heven⟩ | h | h)
    · rw [Nat.even_iff] at heven
      omega
    · omega
    · omega

end

end Mlrc
