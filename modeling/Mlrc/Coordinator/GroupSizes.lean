import Mlrc.Client.Agree
import Mlrc.Coordinator.Feasible
import Mlrc.Coordinator.RecoveryFits

/-!
# Which accepted configurations can be placed

The configuration check compares numbers of blocks and groups with numbers of nodes and clusters.
Here the sizes of all groups are computed, also when the data blocks do not divide evenly.

* `azurelrc_fits_iff`, `optimal_fits_iff`, `uniform_fits_iff`   when the groups fit;
* `placement_feasible_iff`   which accepted configurations can always place a stripe.
-/

namespace Mlrc

open List Nat

section
variable {cfg : SysConfig} {group : ℕ → ℤ} {g : ℕ}

theorem GroupShape.Of.size {shape : GroupShape} (h : shape.Of cfg group g) :
    (groupBefore group cfg.n g).length = shape.dataNum + shape.globalNum + shape.localNum := by
  have hbucket := h.bucket_eq
  rw [groupToBlocks, bucket_collect] at hbucket
  unfold groupBefore
  rw [hbucket, GroupShape.blocks, length_append, length_append, length_range',
    length_range', length_range']

/-! ## UniLRC -/

theorem unilrc_fits (hk : cfg.z ∣ cfg.k) (hr : cfg.z ∣ cfg.r) (hk0 : 0 < cfg.k / cfg.z)
    (hr0 : 0 < cfg.r / cfg.z) (hsize : cfg.n / cfg.z < cfg.datanodeNumPerCluster)
    (hcount : cfg.z < cfg.clusterNum) :
    GroupsFit cfg (fun i => unilrcAndAzurelrcGroup .UniLRC cfg.k cfg.r cfg.z i) cfg.z := by
  refine ⟨le_of_lt hcount, fun g hg => ?_⟩
  rw [(unilrcShape_of hg hk hr hk0 hr0).size]
  have hdiv : cfg.n / cfg.z = cfg.k / cfg.z + cfg.r / cfg.z + 1 := by
    show (cfg.k + cfg.r + cfg.z) / cfg.z = _
    rw [add_div_right _ (zero_lt_of_lt hg), Nat.add_div_of_dvd_right hk]
  show (g + 1) * (cfg.k / cfg.z) - g * (cfg.k / cfg.z) + (cfg.k + (g + 1) * (cfg.r / cfg.z) -
    (cfg.k + g * (cfg.r / cfg.z))) + (cfg.k + cfg.r + g + 1 - (cfg.k + cfg.r + g)) ≤ _
  rw [add_mul, one_mul, add_mul, one_mul]
  omega

/-! ## AzureLRC -/

theorem azurelrc_groupSize (hk0 : 0 < cfg.k / cfg.z) (g : ℕ) :
    (groupBefore (fun i => unilrcAndAzurelrcGroup .AzureLRC cfg.k cfg.r cfg.z i) cfg.n g).length =
      (min (g * (cfg.k / cfg.z) + cfg.k / cfg.z) cfg.k - g * (cfg.k / cfg.z)) +
        (if g = cfg.z then cfg.r else 0) + if g < cfg.z then 1 else 0 := by
  rw [(azurelrcShape_of hk0 g).size]
  show min ((g + 1) * (cfg.k / cfg.z)) cfg.k - g * (cfg.k / cfg.z) +
    ((if g = cfg.z then cfg.k + cfg.r else cfg.k) - cfg.k) +
    ((if g < cfg.z then cfg.k + cfg.r + g + 1 else cfg.k + cfg.r) -
      if g < cfg.z then cfg.k + cfg.r + g else cfg.k + cfg.r) = _
  rw [add_mul, one_mul]
  split <;> split <;> omega

theorem azurelrc_fits_iff (hk0 : 0 < cfg.k / cfg.z)
    (hsize : cfg.k / cfg.z + 1 < cfg.datanodeNumPerCluster) (hcount : cfg.z + 1 < cfg.clusterNum) :
    GroupsFit cfg (fun i => unilrcAndAzurelrcGroup .AzureLRC cfg.k cfg.r cfg.z i)
      (max (cfg.z + 1) ((cfg.k - 1) / (cfg.k / cfg.z) + 1)) ↔
    cfg.r + min (cfg.k / cfg.z) (cfg.k % cfg.z) ≤ cfg.datanodeNumPerCluster ∧
      (cfg.k - 1) / (cfg.k / cfg.z) + 1 ≤ cfg.clusterNum := by
  have hdm := div_add_mod cfg.k cfg.z
  have h0 := zero_le (cfg.k % cfg.z)
  constructor
  · rintro ⟨hc, hs⟩
    refine ⟨?_, by omega⟩
    have hlast := hs cfg.z (by omega)
    rw [azurelrc_groupSize hk0, if_pos rfl, if_neg (lt_irrefl _)] at hlast
    omega
  · rintro ⟨hs, hc⟩
    refine ⟨by omega, fun g _ => ?_⟩
    rw [azurelrc_groupSize hk0]
    by_cases hg : g = cfg.z
    · rw [hg, if_pos rfl, if_neg (lt_irrefl _)]
      omega
    · rw [if_neg hg]
      split <;> omega

/-! ## OptimalLRC -/

theorem optimal_groupSize_global (hk0 : 0 < cfg.k / cfg.z) :
    (groupBefore (fun i => optimalLrcGroup cfg.k cfg.r cfg.z i) cfg.n
      ((cfg.z * groupNumOfOneLocalGroup (cfg.k / cfg.z) (cfg.r + 1) : ℕ) : ℤ)).length =
    cfg.r + min (min (cfg.k / cfg.z) (cfg.r + 1)) (cfg.k % cfg.z) := by
  have hcpos : 0 < groupNumOfOneLocalGroup (cfg.k / cfg.z) (cfg.r + 1) :=
    groupNumOfOneLocalGroup_pos hk0 (add_one_pos _)
  have hdm := div_add_mod cfg.k cfg.z
  have h0 := zero_le (cfg.k % cfg.z)
  rw [(optimalShape_of hk0 _).size]
  unfold optimalShape GroupShape.dataNum GroupShape.globalNum GroupShape.localNum
  generalize groupNumOfOneLocalGroup (cfg.k / cfg.z) (cfg.r + 1) = c at *
  simp only [Nat.mul_div_cancel _ hcpos, mul_mod_left, lt_irrefl, false_and, if_false,
    if_true, zero_mul, add_mul, one_mul, zero_add]
  omega

theorem optimal_groupSize_le (hk0 : 0 < cfg.k / cfg.z) {g : ℕ}
    (hg : g ≠ cfg.z * groupNumOfOneLocalGroup (cfg.k / cfg.z) (cfg.r + 1)) :
    (groupBefore (fun i => optimalLrcGroup cfg.k cfg.r cfg.z i) cfg.n g).length ≤ cfg.r + 2 := by
  rw [(optimalShape_of hk0 g).size]
  unfold optimalShape GroupShape.dataNum GroupShape.globalNum GroupShape.localNum
  generalize groupNumOfOneLocalGroup (cfg.k / cfg.z) (cfg.r + 1) = c at *
  simp only [if_neg hg, add_mul, one_mul]
  have hg0 := zero_le (g / c)
  split
  · rename_i h
    rw [if_pos h.1]
    omega
  · split <;> omega

theorem pieces_le_of_check (k r z : ℕ) :
    groupNumOfOneLocalGroup (k / z) (r + 1) ≤ groupNumOfOneLocalGroup k (z * (r + 1)) := by
  rw [groupNumOfOneLocalGroup_eq, groupNumOfOneLocalGroup_eq, Nat.div_div_eq_div_mul]
  by_cases h : k % (z * (r + 1)) = 0
  · have hdvd : (r + 1) ∣ k / z := dvd_div_of_mul_dvd (dvd_of_mod_eq_zero h)
    rw [if_pos h, if_pos (mod_eq_zero_of_dvd hdvd)]
  · rw [if_neg h]
    split <;> omega

theorem optimal_fits_iff (hk0 : 0 < cfg.k / cfg.z) (hsize : cfg.r + 1 < cfg.datanodeNumPerCluster)
    (hcount : groupNumOfOneLocalGroup cfg.k (cfg.z * (cfg.r + 1)) * cfg.z + 1 < cfg.clusterNum) :
    GroupsFit cfg (fun i => optimalLrcGroup cfg.k cfg.r cfg.z i)
      (max (cfg.z * groupNumOfOneLocalGroup (cfg.k / cfg.z) (cfg.r + 1) + 1)
        (optimalLrcGroup cfg.k cfg.r cfg.z (cfg.k - 1) + 1)) ↔
    cfg.r + min (min (cfg.k / cfg.z) (cfg.r + 1)) (cfg.k % cfg.z) ≤ cfg.datanodeNumPerCluster ∧
      optimalLrcGroup cfg.k cfg.r cfg.z (cfg.k - 1) + 1 ≤ cfg.clusterNum := by
  have hpieces : cfg.z * groupNumOfOneLocalGroup (cfg.k / cfg.z) (cfg.r + 1) ≤
      groupNumOfOneLocalGroup cfg.k (cfg.z * (cfg.r + 1)) * cfg.z := by
    rw [mul_comm cfg.z]
    exact Nat.mul_le_mul_right _ (pieces_le_of_check cfg.k cfg.r cfg.z)
  constructor
  · rintro ⟨hc, hs⟩
    refine ⟨?_, by omega⟩
    rw [← optimal_groupSize_global hk0]
    exact hs _ (by omega)
  · rintro ⟨hs, hc⟩
    refine ⟨by omega, fun g _ => ?_⟩
    by_cases hg : g = cfg.z * groupNumOfOneLocalGroup (cfg.k / cfg.z) (cfg.r + 1)
    · rw [hg, optimal_groupSize_global hk0]
      exact hs
    · exact le_trans (optimal_groupSize_le hk0 hg) hsize

/-! ## UniformLRC -/

theorem fineStart_inj {k r z l t l' t' : ℕ}
    (ht : t < groupNumOfOneLocalGroup (glrcPayloadBlocksInGroup l k r z) (r + 1))
    (ht' : t' < groupNumOfOneLocalGroup (glrcPayloadBlocksInGroup l' k r z) (r + 1))
    (h : fineStart l k r z + t = fineStart l' k r z + t') : l = l' ∧ t = t' := by
  have hl := fineStart_succ l k r z
  have hl' := fineStart_succ l' k r z
  rcases lt_trichotomy l l' with hlt | rfl | hgt
  · have hmono := fineStart_mono k r z (show l + 1 ≤ l' from hlt)
    omega
  · exact ⟨rfl, add_left_cancel h⟩
  · have hmono := fineStart_mono k r z (show l' + 1 ≤ l from hgt)
    omega

section
variable {l t : ℕ}

/-- the end of the payload of piece `t` of local group `l` -/
def pieceEnd (k r z l t : ℕ) : ℕ :=
  min (payloadStart l k r z + (t + 1) * (r + 1)) (payloadStart (l + 1) k r z)

theorem uniformLrcGroup_payload_iff {k r z i : ℕ} (hl : l < z)
    (ht : t < groupNumOfOneLocalGroup (glrcPayloadBlocksInGroup l k r z) (r + 1)) (hi : i < k + r) :
    uniformLrcGroup k r z i = ((fineStart l k r z + t : ℕ) : ℤ) ↔
      payloadStart l k r z + t * (r + 1) ≤ i ∧ i < pieceEnd k r z l t := by
  unfold pieceEnd
  have hz : 0 < z := zero_lt_of_lt hl
  obtain ⟨hl', hlo, hhi⟩ := groupId_range hz hi
  have hid := glrcPayloadGroupId_eq_iff (g := l) hz hi
  generalize glrcPayloadGroupId i k r z = l' at *
  rw [payloadStart_succ] at hhi
  have hj : i - payloadStart l' k r z < glrcPayloadBlocksInGroup l' k r z := by omega
  have hval := uniformLrcGroup_payload hl' hj
  rw [Nat.add_sub_cancel' hlo] at hval
  rw [hval, Int.ofNat_inj]
  have hinterval := div_eq_iff_interval (i := i - payloadStart l' k r z) (g := t) (add_one_pos r)
  constructor
  · intro h
    obtain ⟨rfl, hq⟩ := fineStart_inj (div_lt_groupNumOfOneLocalGroup (add_one_pos r) hj) ht h
    have := hinterval.mp hq
    have := hid.mp rfl
    omega
  · rintro ⟨h1, h2⟩
    obtain rfl := hid.mpr (by omega)
    rw [hinterval.mpr (by omega)]

theorem uniformLrcGroup_parity_iff {k r z h : ℕ} (hq : 0 < (k + r) / z) (hh : h < z)
    (ht : t < groupNumOfOneLocalGroup (glrcPayloadBlocksInGroup l k r z) (r + 1)) :
    uniformLrcGroup k r z (k + r + h) = ((fineStart l k r z + t : ℕ) : ℤ) ↔
      h = l ∧ t + 1 = groupNumOfOneLocalGroup (glrcPayloadBlocksInGroup l k r z) (r + 1) := by
  have hpos : 0 < groupNumOfOneLocalGroup (glrcPayloadBlocksInGroup h k r z) (r + 1) := by
    refine groupNumOfOneLocalGroup_pos ?_ (add_one_pos r)
    rw [glrcPayloadBlocksInGroup_eq hh]
    exact lt_of_lt_of_le hq le_self_add
  rw [uniformLrcGroup_parity hh, fineStart_succ]
  constructor
  · intro heq
    have hsame := fineStart_inj (sub_lt hpos one_pos) ht
      (show fineStart h k r z + (groupNumOfOneLocalGroup (glrcPayloadBlocksInGroup h k r z) (r + 1) - 1)
        = fineStart l k r z + t by omega)
    obtain ⟨rfl, ht'⟩ := hsame
    exact ⟨rfl, by omega⟩
  · rintro ⟨rfl, ht'⟩
    omega

/-- piece `t` of local group `l` -/
def uniformPieceShape (k r z l t : ℕ) : GroupShape where
  dataStart := payloadStart l k r z + t * (r + 1)
  dataEnd := min (pieceEnd k r z l t) k
  globalStart := max (payloadStart l k r z + t * (r + 1)) k
  globalEnd := pieceEnd k r z l t
  localStart := k + r + l
  localEnd := if t + 1 = groupNumOfOneLocalGroup (glrcPayloadBlocksInGroup l k r z) (r + 1) then
    k + r + l + 1 else k + r + l

section
variable (hq : 0 < (cfg.k + cfg.r) / cfg.z) (hl : l < cfg.z)
  (ht : t < groupNumOfOneLocalGroup (glrcPayloadBlocksInGroup l cfg.k cfg.r cfg.z) (cfg.r + 1))
include hq hl ht

theorem uniformPieceShape_of :
    (uniformPieceShape cfg.k cfg.r cfg.z l t).Of cfg (uniformLrcGroup cfg.k cfg.r cfg.z)
      (fineStart l cfg.k cfg.r cfg.z + t) := by
  have hn : cfg.n = cfg.k + cfg.r + cfg.z := rfl
  have hend := payloadEnd_le cfg.k cfg.r hl
  rw [← payloadStart_succ] at hend
  refine ⟨min_le_right _ _, le_max_right _ _, le_trans (min_le_right _ _) hend,
    le_self_add, ?_, ?_, ?_, ?_⟩
  · unfold uniformPieceShape
    simp only
    split <;> omega
  · intro i hi
    rw [uniformLrcGroup_payload_iff hl ht (by omega)]
    unfold uniformPieceShape
    simp only
    omega
  · intro m hm
    rw [uniformLrcGroup_payload_iff hl ht (by omega)]
    unfold uniformPieceShape
    simp only
    omega
  · intro h hh
    rw [uniformLrcGroup_parity_iff hq hh ht]
    unfold uniformPieceShape
    simp only
    split <;> omega

theorem uniform_groupSize : (groupBefore (uniformLrcGroup cfg.k cfg.r cfg.z) cfg.n
      ((fineStart l cfg.k cfg.r cfg.z + t : ℕ) : ℤ)).length =
    min (cfg.r + 1) (glrcPayloadBlocksInGroup l cfg.k cfg.r cfg.z - t * (cfg.r + 1)) +
      if t + 1 = groupNumOfOneLocalGroup (glrcPayloadBlocksInGroup l cfg.k cfg.r cfg.z) (cfg.r + 1)
      then 1 else 0 := by
  have hend := payloadEnd_le cfg.k cfg.r hl
  have hfirst := (lt_groupNumOfOneLocalGroup (add_one_pos cfg.r)).mp ht
  rw [(uniformPieceShape_of hq hl ht).size]
  unfold uniformPieceShape pieceEnd GroupShape.dataNum GroupShape.globalNum GroupShape.localNum
  simp only
  rw [payloadStart_succ, add_mul t, one_mul]
  split <;> omega

end

theorem exists_piece {k r z m g : ℕ} (h : g < fineStart m k r z) :
    ∃ l < m, ∃ t < groupNumOfOneLocalGroup (glrcPayloadBlocksInGroup l k r z) (r + 1),
      g = fineStart l k r z + t := by
  induction m with
  | zero => exact absurd h (Nat.not_lt_zero g)
  | succ m ih =>
    rw [fineStart_succ] at h
    by_cases hlt : g < fineStart m k r z
    · obtain ⟨l, hl, t, ht, hg⟩ := ih hlt
      exact ⟨l, by omega, t, ht, hg⟩
    · exact ⟨m, by omega, g - fineStart m k r z, by omega, by omega⟩

theorem uniform_fits_iff (hq : 0 < (cfg.k + cfg.r) / cfg.z)
    (hsize : cfg.r < cfg.datanodeNumPerCluster)
    (hcount : fineStart cfg.z cfg.k cfg.r cfg.z ≤ cfg.clusterNum) :
    GroupsFit cfg (uniformLrcGroup cfg.k cfg.r cfg.z) (fineStart cfg.z cfg.k cfg.r cfg.z) ↔
    cfg.r + 2 ≤ cfg.datanodeNumPerCluster ∨
      ∀ l < cfg.z, glrcPayloadBlocksInGroup l cfg.k cfg.r cfg.z % (cfg.r + 1) ≠ 0 := by
  constructor
  · rintro ⟨-, hs⟩
    by_contra hno
    push Not at hno
    obtain ⟨hdn, l, hl, hdvd⟩ := hno
    -- the last piece of a local group without a remainder has `r + 1` payload blocks and the parity
    have hpos : 0 < glrcPayloadBlocksInGroup l cfg.k cfg.r cfg.z := by
      rw [glrcPayloadBlocksInGroup_eq hl]
      exact lt_of_lt_of_le hq le_self_add
    have hc := groupNumOfOneLocalGroup_pos hpos (add_one_pos cfg.r)
    have hpieces := groupNumOfOneLocalGroup_eq (glrcPayloadBlocksInGroup l cfg.k cfg.r cfg.z)
      (cfg.r + 1)
    rw [if_pos hdvd] at hpieces
    have hmul := Nat.div_mul_cancel (dvd_of_mod_eq_zero hdvd)
    rw [← hpieces] at hmul
    have hlast := hs (fineStart l cfg.k cfg.r cfg.z +
      (groupNumOfOneLocalGroup (glrcPayloadBlocksInGroup l cfg.k cfg.r cfg.z) (cfg.r + 1) - 1)) (by
        have := fineStart_mono cfg.k cfg.r cfg.z (show l + 1 ≤ cfg.z from hl)
        rw [fineStart_succ] at this
        omega)
    rw [uniform_groupSize hq hl (sub_lt hc Nat.one_pos), if_pos (Nat.sub_add_cancel hc),
      Nat.sub_one_mul, hmul] at hlast
    have hle := le_of_dvd hpos (dvd_of_mod_eq_zero hdvd)
    omega
  · intro hfit
    refine ⟨hcount, fun g hg => ?_⟩
    obtain ⟨l, hl, t, ht, rfl⟩ := exists_piece hg
    rw [uniform_groupSize hq hl ht]
    split
    · rename_i hlast
      rcases hfit with hdn | hrem
      · omega
      · -- the last piece is not full
        have hfull : glrcPayloadBlocksInGroup l cfg.k cfg.r cfg.z - t * (cfg.r + 1) ≠ cfg.r + 1 := by
          intro heq
          apply hrem l hl
          have : glrcPayloadBlocksInGroup l cfg.k cfg.r cfg.z = (t + 1) * (cfg.r + 1) := by
            rw [add_mul, one_mul]
            omega
          rw [this, mul_mod_left]
        have hle : glrcPayloadBlocksInGroup l cfg.k cfg.r cfg.z ≤ (t + 1) * (cfg.r + 1) := by
          rw [← not_lt, ← lt_groupNumOfOneLocalGroup (add_one_pos cfg.r), ← hlast]
          exact lt_irrefl _
        rw [add_mul, one_mul] at hle
        omega
    · omega

end

theorem uniform_sizes_iff {k r z : ℕ} (hz : 0 < z) (P : ℕ → Prop) :
    (∀ l < z, P (glrcPayloadBlocksInGroup l k r z)) ↔
      P ((k + r) / z) ∧ ((k + r) % z ≠ 0 → P ((k + r) / z + 1)) := by
  have hmod := mod_lt (k + r) hz
  constructor
  · intro h
    refine ⟨?_, fun hrem => ?_⟩
    · have := h 0 hz
      rwa [glrcPayloadBlocksInGroup_eq hz, if_neg (by omega), add_zero] at this
    · have := h (z - 1) (by omega)
      rwa [glrcPayloadBlocksInGroup_eq (by omega), if_pos (by omega)] at this
  · rintro ⟨h1, h2⟩ l hl
    rw [glrcPayloadBlocksInGroup_eq hl]
    split
    · exact h2 (by omega)
    · exact h1

end

/-! ## Accepted configurations -/

/-- the accepted configurations whose stripes can always be placed; the check of UniLRC suffices -/
def PlacementFits (cfg : SysConfig) : Prop :=
  match cfg.codeType with
  | .UniLRC => True
  | .AzureLRC => 0 < cfg.k / cfg.z ∧
      cfg.r + min (cfg.k / cfg.z) (cfg.k % cfg.z) ≤ cfg.datanodeNumPerCluster ∧
      (cfg.k - 1) / (cfg.k / cfg.z) + 1 ≤ cfg.clusterNum
  | .OptimalLRC => 0 < cfg.k / cfg.z ∧
      cfg.r + min (min (cfg.k / cfg.z) (cfg.r + 1)) (cfg.k % cfg.z) ≤ cfg.datanodeNumPerCluster ∧
      optimalLrcGroup cfg.k cfg.r cfg.z (cfg.k - 1) + 1 ≤ cfg.clusterNum
  | .UniformLRC => cfg.z ≤ cfg.k + cfg.r ∧ (cfg.r + 2 ≤ cfg.datanodeNumPerCluster ∨
      (cfg.k + cfg.r) / cfg.z % (cfg.r + 1) ≠ 0 ∧
        ((cfg.k + cfg.r) % cfg.z ≠ 0 → ((cfg.k + cfg.r) / cfg.z + 1) % (cfg.r + 1) ≠ 0))
  | .gLRC => False

instance : (cfg : SysConfig) → Decidable (PlacementFits cfg)
  | { codeType := .UniLRC, .. } => inferInstanceAs (Decidable True)
  | { codeType := .AzureLRC, .. } | { codeType := .OptimalLRC, .. } =>
    inferInstanceAs (Decidable (_ ∧ _ ∧ _))
  | { codeType := .UniformLRC, .. } => inferInstanceAs (Decidable (_ ∧ (_ ∨ _ ∧ (_ → _))))
  | { codeType := .gLRC, .. } => inferInstanceAs (Decidable False)

section
variable {cfg : SysConfig} {topo : Topology} {group : ℕ → ℤ}

theorem fineStart_all (k r z : ℕ) (hz : 0 < z) :
    fineStart z k r z = groupNumOfOneLocalGroup ((k + r) / z + 1) (r + 1) * ((k + r) % z) +
      groupNumOfOneLocalGroup ((k + r) / z) (r + 1) * (z - (k + r) % z) := by
  have hmod := mod_lt (k + r) hz
  rw [fineStart_eq le_rfl, pieceStart]
  split
  · rename_i hlt
    rw [show (k + r) % z = 0 by omega, mul_zero, zero_add, Nat.sub_zero, mul_comm]
  · rw [Nat.sub_sub_self (le_of_lt hmod), add_comm, mul_comm, mul_comm (z - _)]

theorem Feasible.uniform (hc : cfg.codeType = .UniformLRC) (hz : 0 < cfg.z) (hk : 0 < cfg.k)
    (hr : 0 < cfg.r) (hcount : fineStart cfg.z cfg.k cfg.r cfg.z < cfg.clusterNum)
    (h : Feasible cfg topo (uniformLrcGroup cfg.k cfg.r cfg.z) 0) : cfg.z ≤ cfg.k + cfg.r := by
  by_contra hlt
  rw [not_le] at hlt
  have hgroup : map2group cfg = some (uniformLrcGroup cfg.k cfg.r cfg.z) := by
    unfold map2group
    rw [hc]
  obtain ⟨bs, t, hp, hids⟩ := h.exists_run (by rw [hc]; decide) hgroup
  obtain ⟨b, hb, hid⟩ : ∃ b ∈ bs, b.blockId = cfg.k + cfg.r + 0 := by
    apply mem_map.mp
    rw [hids, mem_range]
    exact Nat.add_lt_add_left hz _
  have hcluster := (hp.form b hb).2
  -- each of the `k + r ≥ 2` payload blocks is a piece of its own
  rw [fineStart_all _ _ _ hz, div_eq_of_lt hlt, mod_eq_of_lt hlt,
    groupNumOfOneLocalGroup_succ 0 (add_one_pos cfg.r), groupNumOfOneLocalGroup_zero,
    Nat.zero_div, zero_mul, zero_add, one_mul] at hcount
  unfold clusterOfBlock at hcluster
  rw [hid, uniformLrcGroup_parity hz, fineStart_succ, fineStart_zero, glrcPayloadBlocksInGroup_eq hz,
    div_eq_of_lt hlt, mod_eq_of_lt hlt, if_neg (by omega), groupNumOfOneLocalGroup_zero,
    zero_mod] at hcluster
  have hneg : Int.tmod (((0 : ℕ) : ℤ) + (((0 + 0 : ℕ) : ℤ) - 1)) cfg.clusterNum = -1 := by
    show Int.tmod (-1) cfg.clusterNum = -1
    rw [Int.neg_tmod, Int.tmod_eq_of_lt Int.one_nonneg (by omega)]
  rw [hneg] at hcluster
  omega

theorem map2group_eq_none (hc : cfg.codeType = .AzureLRC ∨ cfg.codeType = .OptimalLRC)
    (h : cfg.k / cfg.z = 0) : map2group cfg = none := by
  unfold map2group
  rcases hc with hc | hc <;> rw [hc] <;> exact if_pos h

theorem feasible_iff_fits (hl : cfg.Loaded) (hv : validateConfig cfg = true)
    (hc : cfg.codeType ≠ .gLRC) (htopo : topo.Uniform cfg)
    (hu : cfg.codeType = .UniformLRC → cfg.z ≤ cfg.k + cfg.r) (hg : map2group cfg = some group) :
    (∃ group, map2group cfg = some group ∧ ∀ stripeId, Feasible cfg topo group stripeId) ↔
      GroupsFit cfg group (groupCount cfg) := by
  have hcov := map2group_covers hl (validateConfig_z hv) hu hg
  have hcn := validateConfig_clusterNum hv
  constructor
  · rintro ⟨group', hg', h⟩
    rw [hg, Option.some.injEq] at hg'
    subst hg'
    exact GroupsFit.of_feasible hc hg hcov hcn htopo (h 0)
  · intro h
    exact ⟨group, hg, fun stripeId => h.feasible hc hg hcov hcn htopo stripeId⟩

end

/-- **Main result.**  With `ClusterNum` clusters of `DatanodeNumPerCluster` nodes, an accepted
configuration can place every new stripe exactly when `PlacementFits`: the check does not compare
the group of the global parities, what is left over when `z` does not divide `k`, and a full last
piece with its local parity. -/
theorem placement_feasible_iff (cfg : SysConfig) (topo : Topology) (hl : cfg.Loaded)
    (hv : validateConfig cfg = true) (hc : cfg.codeType ≠ .gLRC) (htopo : topo.Uniform cfg) :
    (∃ group, map2group cfg = some group ∧ ∀ stripeId, Feasible cfg topo group stripeId) ↔
      PlacementFits cfg := by
  have hz : 0 < cfg.z := validateConfig_z hv
  have hfits := fun group => @feasible_iff_fits cfg topo group hl hv hc htopo
  have hcheck := hv
  unfold validateConfig at hcheck
  unfold PlacementFits
  unfold groupCount at hfits
  cases hcode : cfg.codeType with
  | UniLRC =>
    simp only [hcode, Bool.and_eq_true, decide_eq_true_eq] at hcheck hfits ⊢
    obtain ⟨hzk, hzr⟩ := hl.unilrc_dvd hcode
    have hk0 : 0 < cfg.k / cfg.z := Nat.div_pos (le_of_dvd hl.k_pos hzk) hz
    have hr0 : 0 < cfg.r / cfg.z := Nat.div_pos (le_of_dvd hl.r_pos hzr) hz
    have hg : map2group cfg =
        some fun i => ((unilrcAndAzurelrcGroup .UniLRC cfg.k cfg.r cfg.z i : ℕ) : ℤ) := by
      unfold map2group
      rw [hcode]
      exact if_neg (by omega)
    rw [hfits _ (by simp) hg, iff_true]
    exact unilrc_fits hzk hzr hk0 hr0 hcheck.2.1 hcheck.2.2
  | AzureLRC =>
    simp only [hcode, Bool.and_eq_true, decide_eq_true_eq] at hcheck hfits ⊢
    by_cases hk0 : 0 < cfg.k / cfg.z
    · have hg : map2group cfg =
          some fun i => ((unilrcAndAzurelrcGroup .AzureLRC cfg.k cfg.r cfg.z i : ℕ) : ℤ) := by
        unfold map2group
        rw [hcode]
        exact if_neg (pos_iff_ne_zero.mp hk0)
      rw [hfits _ (by simp) hg, azurelrc_fits_iff hk0 hcheck.2.1 hcheck.2.2, and_iff_right hk0]
    · rw [map2group_eq_none (.inl hcode) (Nat.eq_zero_of_not_pos hk0)]
      simp [hk0]
  | OptimalLRC =>
    simp only [hcode, Bool.and_eq_true, decide_eq_true_eq] at hcheck hfits ⊢
    by_cases hk0 : 0 < cfg.k / cfg.z
    · have hg : map2group cfg = some fun i => ((optimalLrcGroup cfg.k cfg.r cfg.z i : ℕ) : ℤ) := by
        unfold map2group
        rw [hcode]
        exact if_neg (pos_iff_ne_zero.mp hk0)
      rw [hfits _ (by simp) hg, optimal_fits_iff hk0 hcheck.2.1 hcheck.2.2, and_iff_right hk0]
    · rw [map2group_eq_none (.inr hcode) (Nat.eq_zero_of_not_pos hk0)]
      simp [hk0]
  | UniformLRC =>
    simp only [hcode, Bool.and_eq_true, decide_eq_true_eq, ne_eq] at hcheck hfits ⊢
    rw [← fineStart_all _ _ _ hz] at hcheck
    have hg : map2group cfg = some (uniformLrcGroup cfg.k cfg.r cfg.z) := by
      unfold map2group
      rw [hcode]
    by_cases hle : cfg.z ≤ cfg.k + cfg.r
    · rw [hfits _ (fun _ => hle) hg,
        uniform_fits_iff (Nat.div_pos hle hz) hcheck.2.1 (le_of_lt hcheck.2.2),
        uniform_sizes_iff hz fun m => m % (cfg.r + 1) ≠ 0, and_iff_right hle]
    · constructor
      · rintro ⟨group, hg', h⟩
        rw [hg, Option.some.injEq] at hg'
        subst hg'
        exact absurd ((h 0).uniform hcode hz hl.k_pos hl.r_pos hcheck.2.2) hle
      · intro h
        exact absurd h.1 hle
  | gLRC => exact absurd hcode hc

def azureConfig (r : ℕ) : SysConfig where
  codeType := .AzureLRC
  appendMode := .UNILRC_MODE
  k := 4
  r := r
  z := 2
  unitSize := 1
  blockSize := 2
  clusterNum := 4
  datanodeNumPerCluster := 4

def fourClustersOfFour : Topology where
  nodeNum := 16
  nodeCluster := fun node => node / 4

theorem placement_feasible_azure :
    ∃ group, map2group (azureConfig 2) = some group ∧
      ∀ stripeId, Feasible (azureConfig 2) fourClustersOfFour group stripeId :=
  (placement_feasible_iff (azureConfig 2) fourClustersOfFour ⟨by decide, by decide, nofun⟩
    (by decide) (by decide) (by unfold Topology.Uniform; decide)).mpr (by decide)

/-- five global parities and clusters of four nodes: the configuration is accepted, and the last of
the global parities finds no free node -/
theorem placement_stuck :
    validateConfig (azureConfig 5) = true ∧
    ((range 8).foldlM (placeBlock (azureConfig 5) fourClustersOfFour
        (fun i => unilrcAndAzurelrcGroup .AzureLRC 4 5 2 i) 0 "c")
      ({}, [], [0, 1, 0, 1, 0, 1, 2, 3])).map (fun p =>
        (clusterOfBlock (azureConfig 5) (fun i => unilrcAndAzurelrcGroup .AzureLRC 4 5 2 i) 0 8,
          (fourClustersOfFour.nodes 2).map fun node => (p.1.nodeTable node).stripes 0)) =
      some (2, [some 4, some 5, some 6, some 7]) ∧
    ¬ ∃ group, map2group (azureConfig 5) = some group ∧
      ∀ stripeId, Feasible (azureConfig 5) fourClustersOfFour group stripeId := by
  refine ⟨by decide, (and_iff_left_of_imp fun hrun => ?_).mpr (by decide +kernel)⟩
  rintro ⟨group, hg, h⟩
  have hgroup : (fun i => (unilrcAndAzurelrcGroup .AzureLRC 4 5 2 i : ℤ)) = group :=
    Option.some.inj hg
  obtain ⟨p, hp, hnodes⟩ := Option.map_eq_some_iff.mp hrun
  rw [Prod.mk.injEq] at hnodes
  have hsel := (h 0).select {} "c" _ 8 p (fun _ => rfl) (by decide) (by rw [← hgroup]; exact hp)
  rw [← hgroup, hnodes.1] at hsel
  obtain ⟨-, node, hmem, hfree⟩ := hsel
  have hin : none ∈ [some (4 : ℤ), some 5, some 6, some 7] := by
    rw [← hnodes.2, ← hfree]
    exact mem_map_of_mem hmem
  simp at hin

end Mlrc
