import Mlrc.Decode.Single

/-!
# Decoding blocks of OptimalLRC

The repair set of a data block or a local parity is its local equation.  It is split along the
placement groups, and `decode_optimal_lrc` chooses the coefficients of a whole list by its first block:
a list that starts with a data block reads `local_vector` at every id.

* `placementSplit`   the lists of a repair set;
* `InRange`   the reads of a call stay inside `local_vector`;
* `splits_inRange_iff`   when no list has a data block in front of the local parity;
* `optimal_decode_iff`   the blocks that are decoded.
-/

namespace Mlrc

open Finset List Nat

variable {b : ℕ} {ids : List ℕ}

/-- the repair set of a block, split along the placement groups that hold it; ids ascend -/
def placementSplit (k r z failed : ℕ) : List (List ℕ) :=
  (collect (optimalLrcGroup k r z) (localRepairSet .OptimalLRC k r z failed)).map Prod.snd

/-- `local_vector` is read only at ids of data blocks -/
def InRange (k : ℕ) (ids : List ℕ) : Prop := k ≤ ids.headD 0 ∨ ∀ b ∈ ids, b < k

section
variable {k r z failed : ℕ}

/-! ## The repair set -/

theorem mem_optimalRepairSet : b ∈ localRepairSet .OptimalLRC k r z failed ↔
    b < k + r + z ∧ b ≠ failed ∧
      ((b < k ∧ b / (k / z) = localGroup .OptimalLRC k r z failed) ∨ (k ≤ b ∧ b < k + r) ∨
        b = k + r + localGroup .OptimalLRC k r z failed) := by
  unfold localRepairSet inLocalRow
  simp only [List.mem_filter, List.mem_range, Bool.or_eq_true, decide_eq_true_eq, or_assoc]

theorem localGroup_optimal_data (hf : failed < k) : localGroup .OptimalLRC k r z failed =
    failed / (k / z) := if_neg (by omega)

theorem localGroup_optimal_parity (hf : k + r ≤ failed) :
    localGroup .OptimalLRC k r z failed = failed - k - r := if_pos hf

theorem localGroup_optimal_lt (hz : 0 < z) (hk : z ∣ k) (hf : failed < k ∨ k + r ≤ failed)
    (hlt : failed < k + r + z) : localGroup .OptimalLRC k r z failed < z := by
  rcases hf with hf | hf
  · rw [localGroup_optimal_data hf]
    exact div_lt_of_dvd hz hk hf
  · rw [localGroup_optimal_parity hf]
    omega

theorem inLocalRow_optimal (hf : failed < k ∨ k + r ≤ failed) :
    inLocalRow .OptimalLRC k r z (localGroup .OptimalLRC k r z failed) failed = true := by
  unfold inLocalRow
  simp only [Bool.or_eq_true, decide_eq_true_eq]
  rcases hf with hf | hf
  · rw [localGroup_optimal_data hf]
    exact .inl (.inl ⟨hf, rfl⟩)
  · rw [localGroup_optimal_parity hf]
    omega

/-! ## The lists -/

theorem mem_placementSplit : ids ∈ placementSplit k r z failed ↔
    ∃ a ∈ localRepairSet .OptimalLRC k r z failed, ids =
      (localRepairSet .OptimalLRC k r z failed).filter fun b =>
        optimalLrcGroup k r z b = optimalLrcGroup k r z a :=
  mem_collect_values _ _ ids

theorem pairwise_placementSplit (h : ids ∈ placementSplit k r z failed) : ids.Pairwise (· < ·) := by
  obtain ⟨a, -, rfl⟩ := mem_placementSplit.mp h
  exact (pairwise_lt_range.filter _).filter _

theorem headD_le_of_pairwise (h : ids.Pairwise (· < ·)) (hb : b ∈ ids) : ids.headD 0 ≤ b := by
  cases ids with
  | nil => cases hb
  | cons a ids =>
    rcases mem_cons.mp hb with rfl | hb
    · exact le_refl _
    · exact le_of_lt ((pairwise_cons.mp h).1 b hb)

theorem optimalGroup_eq_iff (hq : 0 < k / z) {l d : ℕ} (hl : l < z) (hd : d < k)
    (hdl : d / (k / z) = l) : (∀ i < r, optimalLrcGroup k r z d ≠ optimalLrcGroup k r z (k + i)) ∧
      (optimalLrcGroup k r z d = optimalLrcGroup k r z (k + r + l) ↔
        d % (k / z) / (r + 1) = (k / z - 1) / (r + 1)) := by
  set c := groupNumOfOneLocalGroup (k / z) (r + 1) with hc
  have hlast : c = (k / z - 1) / (r + 1) + 1 := by
    rw [hc, show k / z = k / z - 1 + 1 by omega, groupNumOfOneLocalGroup_succ _ (add_one_pos r),
      Nat.add_sub_cancel]
  have hpiece : d % (k / z) / (r + 1) < c :=
    div_lt_groupNumOfOneLocalGroup (add_one_pos r) (mod_lt d hq)
  have hle : (l + 1) * c ≤ z * c := mul_le_mul_right c hl
  rw [succ_mul] at hle
  rw [optimalLrcGroup_data hd, hdl, ← hc]
  generalize d % (k / z) / (r + 1) = piece at hpiece ⊢
  generalize (k / z - 1) / (r + 1) = last at hlast ⊢
  constructor
  · intro i hi
    rw [optimalLrcGroup_global hi, ← hc]
    omega
  · rw [optimalLrcGroup_parity, ← hc, succ_mul]
    omega

/-- the blocks for which the local parity has no data block in front of it: the local parity itself,
and the only data block of a last piece -/
def OptimalDecodes (k r z failed : ℕ) : Prop :=
  k + r ≤ failed ∨ (failed % (k / z) = k / z - 1 ∧ (k / z - 1) % (r + 1) = 0)

instance : Decidable (OptimalDecodes k r z failed) := by
  unfold OptimalDecodes
  infer_instance

theorem exists_last_piece (hq : 0 < k / z) (hz : 0 < z) (hk : z ∣ k) (hf : failed < k)
    (hno : ¬ OptimalDecodes k r z failed) : ∃ d < k, d ≠ failed ∧ d / (k / z) = failed / (k / z) ∧
      d % (k / z) / (r + 1) = (k / z - 1) / (r + 1) := by
  have hl : failed / (k / z) < z := div_lt_of_dvd hz hk hf
  have hend : (failed / (k / z) + 1) * (k / z) ≤ k := by
    calc (failed / (k / z) + 1) * (k / z) ≤ z * (k / z) := mul_le_mul_right _ hl
      _ = k := Nat.mul_div_cancel' hk
  have hplace : ∀ j < k / z, failed / (k / z) * (k / z) + j < k ∧
      (failed / (k / z) * (k / z) + j) / (k / z) = failed / (k / z) ∧
      (failed / (k / z) * (k / z) + j) % (k / z) = j := by
    intro j hj
    rw [succ_mul] at hend
    refine ⟨by omega, ?_, ?_⟩
    · rw [mul_comm, mul_add_div hq, div_eq_of_lt hj, add_zero]
    · rw [mul_add_mod', mod_eq_of_lt hj]
  have hfm : failed / (k / z) * (k / z) + failed % (k / z) = failed := by
    rw [mul_comm]
    exact div_add_mod failed (k / z)
  have hmod := mod_lt failed hq
  by_cases hlast : failed % (k / z) = k / z - 1
  · -- the failed block is the last one: its piece has another
    have hpos : (k / z - 1) % (r + 1) ≠ 0 := fun h => hno (.inr ⟨hlast, h⟩)
    have hone : k / z - 1 ≠ 0 := fun h => hpos (by rw [h, zero_mod])
    obtain ⟨hlt, hdiv, hrem⟩ := hplace (k / z - 2) (by omega)
    refine ⟨_, hlt, by omega, hdiv, ?_⟩
    rw [hrem]
    have hsucc : k / z - 2 + 1 = k / z - 1 := by omega
    rw [← hsucc, succ_div_of_not_dvd]
    rw [hsucc]
    exact fun h => hpos (mod_eq_zero_of_dvd h)
  · obtain ⟨hlt, hdiv, hrem⟩ := hplace (k / z - 1) (by omega)
    exact ⟨_, hlt, by omega, hdiv, by rw [hrem]⟩

theorem mixed_list (hq : 0 < k / z) (hl : localGroup .OptimalLRC k r z failed < z) {d : ℕ}
    (hd : d ∈ localRepairSet .OptimalLRC k r z failed)
    (hb : b ∈ localRepairSet .OptimalLRC k r z failed) (hdk : d < k) (hkb : k ≤ b)
    (hsame : optimalLrcGroup k r z d = optimalLrcGroup k r z b) :
    b = k + r + localGroup .OptimalLRC k r z failed ∧
      d / (k / z) = localGroup .OptimalLRC k r z failed ∧
      d % (k / z) / (r + 1) = (k / z - 1) / (r + 1) := by
  obtain ⟨-, -, hdcase⟩ := mem_optimalRepairSet.mp hd
  obtain ⟨-, -, hbcase⟩ := mem_optimalRepairSet.mp hb
  have hdl : d / (k / z) = localGroup .OptimalLRC k r z failed := by
    rcases hdcase with h | h | h
    · exact h.2
    · omega
    · omega
  obtain ⟨hglobal, hparity⟩ := optimalGroup_eq_iff (r := r) hq hl hdk hdl
  rcases hbcase with h | h | h
  · omega
  · obtain ⟨i, rfl⟩ := exists_add_of_le h.1
    exact absurd hsame (hglobal i (by omega))
  · rw [h] at hsame
    exact ⟨h, hdl, hparity.mp hsame⟩

theorem splits_inRange_iff (hz : 0 < z) (hk0 : 0 < k) (hk : z ∣ k) (hf : failed < k ∨ k + r ≤ failed)
    (hlt : failed < k + r + z) :
    (∀ ids ∈ placementSplit k r z failed, InRange k ids) ↔ OptimalDecodes k r z failed := by
  have hq : 0 < k / z := div_pos (le_of_dvd hk0 hk) hz
  have hl := localGroup_optimal_lt hz hk hf hlt
  constructor
  · intro h
    by_contra hno
    have hfk : failed < k := hf.resolve_right fun hge => hno (.inl hge)
    obtain ⟨d, hdk, hdf, hdl, hpiece⟩ := exists_last_piece hq hz hk hfk hno
    rw [← localGroup_optimal_data (r := r) hfk] at hdl
    set l := localGroup .OptimalLRC k r z failed with hgroup
    have hd : d ∈ localRepairSet .OptimalLRC k r z failed :=
      mem_optimalRepairSet.mpr ⟨by omega, hdf, .inl ⟨hdk, hdl⟩⟩
    have hp : k + r + l ∈ localRepairSet .OptimalLRC k r z failed :=
      mem_optimalRepairSet.mpr ⟨by omega, by omega, .inr (.inr rfl)⟩
    have hids := mem_placementSplit.mpr ⟨d, hd, rfl⟩
    have hmem : ∀ {b}, b ∈ localRepairSet .OptimalLRC k r z failed →
        optimalLrcGroup k r z b = optimalLrcGroup k r z d →
        b ∈ (localRepairSet .OptimalLRC k r z failed).filter fun b =>
          optimalLrcGroup k r z b = optimalLrcGroup k r z d :=
      fun hb hbd => mem_filter.mpr ⟨hb, decide_eq_true hbd⟩
    rcases h _ hids with hhead | hall
    · have := headD_le_of_pairwise (pairwise_placementSplit hids) (hmem hd rfl)
      omega
    · have := hall _ (hmem hp (((optimalGroup_eq_iff hq hl hdk hdl).2.mpr hpiece).symm))
      omega
  · intro hdec ids hids
    by_contra hno
    unfold InRange at hno
    push Not at hno
    obtain ⟨hhead, b, hb, hkb⟩ := hno
    obtain ⟨d, hd, hdk⟩ : ∃ d ∈ ids, d < k := by
      have hne := ne_nil_of_mem hb
      rw [headD_eq_head?_getD, head?_eq_some_head hne, Option.getD_some] at hhead
      exact ⟨_, head_mem hne, hhead⟩
    obtain ⟨a, -, rfl⟩ := mem_placementSplit.mp hids
    obtain ⟨hdr, hda⟩ := mem_filter.mp hd
    obtain ⟨hbr, hba⟩ := mem_filter.mp hb
    obtain ⟨hpar, hdl, hpiece⟩ := mixed_list hq hl hdr hbr hdk hkb
      ((of_decide_eq_true hda).trans (of_decide_eq_true hba).symm)
    obtain ⟨-, hdf, -⟩ := mem_optimalRepairSet.mp hdr
    obtain ⟨-, hbf, -⟩ := mem_optimalRepairSet.mp hbr
    have hfk : failed < k := by
      refine hf.resolve_right fun hge => hbf ?_
      rw [hpar, localGroup_optimal_parity hge]
      omega
    obtain ⟨hfl, hsingle⟩ := hdec.resolve_left (by omega)
    -- the last piece has one block, which has failed
    have hge : k / z - 1 ≤ d % (k / z) := by
      have hmul := div_add_mod (k / z - 1) (r + 1)
      rw [hsingle, add_zero, ← hpiece] at hmul
      rw [← hmul]
      exact mul_div_le _ _
    have hdm := mod_lt d hq
    rw [localGroup_optimal_data hfk] at hdl
    refine hdf ?_
    rw [← div_add_mod d (k / z), ← div_add_mod failed (k / z), hdl, hfl]
    congr 1
    omega

/-! ## Decoding -/

theorem optimalCoef_eq (hf : failed < k ∨ k + r ≤ failed) (call : DecodeCall)
    (hsorted : ids.Pairwise (· < ·)) (hrange : InRange k ids) (hb : b ∈ ids)
    (hrow : inLocalRow .OptimalLRC k r z (localGroup .OptimalLRC k r z failed) b = true) :
    Gf.mk (decodeCoef .OptimalLRC call k r z failed (ids.headD 0) b) =
      Gf.mk (localCoef .OptimalLRC k r z (localGroup .OptimalLRC k r z failed) b) *
        (Gf.mk (localCoef .OptimalLRC k r z (localGroup .OptimalLRC k r z failed) failed))⁻¹ := by
  have hcoef : (if k ≤ ids.headD 0 then 1 else localVectorAt call.pastLocalVector k r b) =
      glrcLocalBlockCoefficient b k r := by
    rcases hrange with hhead | hall
    · have hle := headD_le_of_pairwise hsorted hb
      rw [if_pos hhead, glrcLocalBlockCoefficient_parity (by omega)]
    · have hhead : ¬ k ≤ ids.headD 0 := by
        have hle := headD_le_of_pairwise hsorted hb
        have hlt := hall b hb
        omega
      rw [if_neg hhead, localVectorAt, if_pos (hall b hb), glrcLocalBlockCoefficient_data (hall b hb)]
  unfold localCoef
  rw [if_pos hrow, if_pos (inLocalRow_optimal hf)]
  unfold decodeCoef
  simp only [hcoef]
  by_cases hk : failed < k
  · rw [if_pos hk, Gf.mk_gfMul, Gf.mk_gfInv, glrcLocalBlockCoefficient_data hk]
  · rw [if_neg hk, glrcLocalBlockCoefficient_parity (b := failed) (by omega), Gf.mk_one, inv_one,
      mul_one]

theorem optimal_decodesTo (hz : 0 < z) (hk : z ∣ k) (hkr : k + r ≤ 255)
    (hf : failed < k ∨ k + r ≤ failed) (hlt : failed < k + r + z) {lists : List (List ℕ)}
    (hperm : lists.Perm (placementSplit k r z failed)) (hrange : ∀ ids ∈ lists, InRange k ids)
    (call : List ℕ → DecodeCall) : DecodesTo .OptimalLRC call k r z failed lists := by
  intro blockSize data hd
  let w : ℕ → UInt8 := fun b =>
    (Gf.mk (localCoef .OptimalLRC k r z (localGroup .OptimalLRC k r z failed) b) *
      (Gf.mk (localCoef .OptimalLRC k r z (localGroup .OptimalLRC k r z failed) failed))⁻¹).byte
  have hflat : lists.flatten.Perm (localRepairSet .OptimalLRC k r z failed) :=
    hperm.flatten.trans (collect_flatten_perm _ _)
  have hrow : ∀ b ∈ localRepairSet .OptimalLRC k r z failed,
      inLocalRow .OptimalLRC k r z (localGroup .OptimalLRC k r z failed) b = true :=
    fun b hb => (of_decide_eq_true (mem_filter.mp hb).2).2
  have hcoef : ∀ ids ∈ lists, ∀ b ∈ ids,
      decodeCoef .OptimalLRC (call ids) k r z failed (ids.headD 0) b = w b :=
    fun ids hids b hb => Gf.mk_inj.mp (optimalCoef_eq hf _
      (pairwise_placementSplit (hperm.mem_iff.mp hids)) (hrange ids hids) hb
      (hrow b (hflat.mem_iff.mp (mem_flatten.mpr ⟨ids, hids, hb⟩))))
  have hne : localCoef .OptimalLRC k r z (localGroup .OptimalLRC k r z failed) failed ≠ 0 := by
    unfold localCoef
    rw [if_pos (inLocalRow_optimal hf)]
    exact glrcLocalBlockCoefficient_ne_zero hkr failed
  rw [xorBlocks_decode hcoef, flatMap_addedIds_of_not (by simp [XorDecoded]), combine_perm hflat]
  exact combine_localCoef (fun h => absurd h (by decide))
    (localGroup_optimal_lt hz hk hf hlt) hlt hne (fun _ _ => rfl) hd

/-- **Main result.**  The lists of a repair set, in any order, keep every read inside `local_vector` and
give the block back exactly for a local parity and for a data block that is alone in the last piece of
its local group. -/
theorem optimal_decode_iff (hz : 0 < z) (hk0 : 0 < k) (hk : z ∣ k) (hkr : k + r ≤ 255)
    (hf : failed < k ∨ k + r ≤ failed) (hlt : failed < k + r + z) :
    (∀ lists : List (List ℕ), lists.Perm (placementSplit k r z failed) →
      (∀ ids ∈ lists, InRange k ids) ∧ ∀ call, DecodesTo .OptimalLRC call k r z failed lists) ↔
    OptimalDecodes k r z failed := by
  rw [← splits_inRange_iff hz hk0 hk hf hlt]
  constructor
  · intro h
    exact (h _ (List.Perm.refl _)).1
  · intro h lists hperm
    have hrange : ∀ ids ∈ lists, InRange k ids := fun ids hids => h ids (hperm.mem_iff.mp hids)
    exact ⟨hrange, optimal_decodesTo hz hk hkr hf hlt hperm hrange⟩

/-- three data blocks in pieces of two: block 2 is alone with the local parity -/
theorem optimal_decode_alone :
    (∀ ids ∈ [[4], [0, 1], [3]], InRange 3 ids) ∧
      ∀ call, DecodesTo .OptimalLRC call 3 1 1 2 [[4], [0, 1], [3]] :=
  (optimal_decode_iff (by decide) (by decide) (by decide) (by decide) (.inl (by decide))
    (by decide)).mpr (by decide) [[4], [0, 1], [3]] (by decide)

/-- two data blocks in a local group: block 0 is decoded from the lists `[1, 6]` and `[4, 5]`, the first
call reads `local_vector[6]` of four entries.  With zero there the local parity is left out, and the
data byte 1 comes back as 122. -/
theorem optimal_decode_wrong :
    placementSplit 4 2 2 0 = [[1, 6], [4, 5]] ∧ ¬ InRange 4 [1, 6] ∧
    xorBlocks 1 ([[1, 6], [4, 5]].map fun ids => decodeBlock .OptimalLRC {} 4 2 2 ids
      (ids.map (blockOf (codeword (genMatrix .OptimalLRC) 4 2 2 [[1], [0], [0], [0]] 1))) 1 0) = [122] ∧
    blockOf (codeword (genMatrix .OptimalLRC) 4 2 2 [[1], [0], [0], [0]] 1) 0 = [1] ∧
    ¬ ∀ lists : List (List ℕ), lists.Perm (placementSplit 4 2 2 0) →
      (∀ ids ∈ lists, InRange 4 ids) ∧ ∀ call, DecodesTo .OptimalLRC call 4 2 2 0 lists := by
  have hsplit : placementSplit 4 2 2 0 = [[1, 6], [4, 5]] := by decide
  have hrange : ¬ InRange 4 [1, 6] := by
    unfold InRange
    decide
  refine ⟨hsplit, hrange, by decide +kernel, by decide +kernel, fun h => hrange ?_⟩
  exact (h _ (List.Perm.refl _)).1 [1, 6] (by rw [hsplit]; decide)

end

end Mlrc
