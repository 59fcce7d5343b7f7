import Mlrc.Coordinator.Recovery
import Mlrc.Coordinator.RecoveryFits

/-!
# A replacement node for a failed block

The replacement is drawn in the cluster of the failed block's own group.  With all blocks of the
stripe recorded, the failed one included, a node is free there exactly when fewer blocks than nodes
are in that cluster.

* `recoveryGroupIds_single`   a single contacted group is the failed block's own;
* `Placed.recoveryCluster_eq`   so the cluster is that of the failed block;
* `replacement_node_iff`   when `randomly_select_a_node` has a node to find.
-/

namespace Mlrc

open List Option Nat

section
variable {cfg : SysConfig} {failed g : ℕ}

/-! ## The contacted group -/

theorem groupNumOfOneLocalGroup_eq_one {size groupSize : ℕ} (hs : 0 < size) (h : size ≤ groupSize) :
    groupNumOfOneLocalGroup size groupSize = 1 := by
  obtain ⟨j, rfl⟩ := exists_eq_succ_of_ne_zero (pos_iff_ne_zero.mp hs)
  rw [groupNumOfOneLocalGroup_succ j (lt_of_lt_of_le hs h), div_eq_of_lt h]

theorem uniform_single (hr : 0 < cfg.r) (hz : 0 < cfg.z) (hq : 0 < (cfg.k + cfg.r) / cfg.z)
    (hf : failed < cfg.n) (h : getRecoveryGroupIds .UniformLRC cfg.k cfg.r cfg.z failed = [g]) :
    uniformLrcGroup cfg.k cfg.r cfg.z failed = (g : ℤ) := by
  obtain ⟨-, hids⟩ := uniform_ids hr hz hq hf
  rw [h] at hids
  simp only [mem_singleton] at hids
  generalize hl : glrcGroup cfg.k cfg.r cfg.z failed = l at hids
  have hstart := hids (pieceStart cfg.k cfg.r cfg.z cfg.r l)
  have hnum := hids (pieceStart cfg.k cfg.r cfg.z cfg.r l + 1)
  have hg := hids g
  have hlz : l < cfg.z := by
    rw [← hl]
    exact Int.ofNat_lt.mp ((glrc_covers hz).lt failed hf).2
  -- the local group has at most `r` payload blocks, as has every smaller one
  have hsize : glrcPayloadBlocksInGroup l cfg.k cfg.r cfg.z ≤ cfg.r := by
    rw [← not_lt]
    intro hlt
    have htwo : 1 < pieceNum cfg.k cfg.r cfg.z cfg.r l := by
      rw [← pieceNum_eq hlz, lt_groupNumOfOneLocalGroup hr, one_mul]
      exact hlt
    omega
  have hone : pieceStart cfg.k cfg.r cfg.z cfg.r l = pieceStart cfg.k cfg.r cfg.z (cfg.r + 1) l := by
    rw [glrcPayloadBlocksInGroup_eq hlz] at hsize
    unfold pieceStart
    have hq1 : (cfg.k + cfg.r) / cfg.z ≤ cfg.r := le_trans le_self_add hsize
    rw [groupNumOfOneLocalGroup_eq_one hq hq1,
      groupNumOfOneLocalGroup_eq_one hq (le_succ_of_le hq1)]
    split
    · rfl
    · rename_i hsmall
      rw [if_pos (by omega)] at hsize
      rw [groupNumOfOneLocalGroup_eq_one (add_one_pos _) hsize,
        groupNumOfOneLocalGroup_eq_one (add_one_pos _) (le_succ_of_le hsize)]
  -- the only piece starts the local group
  have hgroup : uniformLrcGroup cfg.k cfg.r cfg.z failed =
      ((fineStart l cfg.k cfg.r cfg.z : ℕ) : ℤ) := by
    by_cases hfk : failed < cfg.k + cfg.r
    · obtain ⟨-, hlo, hhi⟩ := groupId_range hz hfk
      rw [glrcGroup_payload hfk] at hl
      rw [hl, payloadStart_succ] at hhi
      rw [hl] at hlo
      obtain ⟨j, rfl⟩ := exists_add_of_le hlo
      have hj : j < glrcPayloadBlocksInGroup l cfg.k cfg.r cfg.z := by omega
      rw [uniformLrcGroup_payload hlz hj, div_eq_of_lt (by omega), add_zero]
    · obtain ⟨h', rfl⟩ := Nat.exists_eq_add_of_le (Nat.le_of_not_lt hfk)
      rw [glrcGroup_parity] at hl
      subst hl
      have hpos : 0 < glrcPayloadBlocksInGroup h' cfg.k cfg.r cfg.z := by
        rw [glrcPayloadBlocksInGroup_eq hlz]
        exact lt_of_lt_of_le hq le_self_add
      rw [uniformLrcGroup_parity hlz, fineStart_succ,
        groupNumOfOneLocalGroup_eq_one hpos (le_succ_of_le hsize)]
      omega
  rw [hgroup, fineStart_eq (le_of_lt hlz), ← hone]
  omega

theorem optimal_not_single (hz : 0 < cfg.z) (hq : 0 < cfg.k / cfg.z) :
    getRecoveryGroupIds .OptimalLRC cfg.k cfg.r cfg.z failed ≠ [g] := by
  intro h
  have hlen := congrArg length h
  unfold getRecoveryGroupIds at hlen
  simp only at hlen
  have hc : 0 < groupNumOfOneLocalGroup (cfg.k / cfg.z) (cfg.r + 1) :=
    groupNumOfOneLocalGroup_pos hq (add_one_pos _)
  split at hlen
  · have hdiv : 0 < (groupNumOfOneLocalGroup (cfg.k / cfg.z) (cfg.r + 1) * cfg.z + 1) / cfg.z := by
      apply div_pos _ hz
      exact le_succ_of_le (Nat.le_mul_of_pos_left _ hc)
    rw [length_cons, length_range, length_singleton] at hlen
    omega
  · split at hlen
    · rw [lastGroupFirst, length_append, length_cons, length_singleton,
        length_singleton] at hlen
      omega
    · rw [ownGroupFirst, length_append, length_cons, length_singleton,
        length_singleton] at hlen
      omega

/-- UniLRC and AzureLRC contact a data block's or a local parity's own group, and differ in what they
contact for a global parity -/
theorem unilrcAndAzurelrc_single {codeType : CodeType} {k r z : ℕ} {globalGroups : List ℕ}
    (hf : failed < k + r + z) (hglobal : ∀ l < r, failed = k + l → globalGroups = [g] →
      unilrcAndAzurelrcGroup codeType k r z (k + l) = g)
    (h : (if k ≤ failed ∧ failed < k + r then globalGroups
      else if k + r ≤ failed then [failed - k - r] else [failed / (k / z)]) = [g]) :
    unilrcAndAzurelrcGroup codeType k r z failed = g := by
  rcases block_cases hf with hk | ⟨l, hl, rfl⟩ | ⟨l, hl, rfl⟩
  · rw [if_neg (by omega), if_neg (by omega), singleton_inj] at h
    rw [unilrcGroup_data hk, h]
  · rw [if_pos (by omega)] at h
    exact hglobal l hl rfl h
  · rw [if_neg (by omega), if_pos (by omega), singleton_inj] at h
    rw [unilrcGroup_parity hl]
    omega

theorem recoveryGroupIds_single {group : ℕ → ℤ} (hr : 0 < cfg.r) (hz : 0 < cfg.z)
    (hg : map2group cfg = some group) (hu : cfg.codeType = .UniformLRC → cfg.z ≤ cfg.k + cfg.r)
    (hf : failed < cfg.n) (h : recoveryGroupIds cfg failed = [g]) : group failed = (g : ℤ) := by
  unfold recoveryGroupIds at h
  unfold map2group at hg
  have hfn : failed < cfg.k + cfg.r + cfg.z := hf
  cases hc : cfg.codeType with
  | UniLRC =>
    simp only [hc, ite_none_left_eq_some, some.injEq] at hg h
    obtain ⟨-, rfl⟩ := hg
    refine congrArg Nat.cast (unilrcAndAzurelrc_single hfn (fun l hl hfl hsingle => ?_) h)
    rw [singleton_inj, hfl, Nat.add_sub_cancel_left] at hsingle
    exact (unilrcGroup_global hl).trans hsingle
  | AzureLRC =>
    simp only [hc, ite_none_left_eq_some, some.injEq] at hg h
    obtain ⟨-, rfl⟩ := hg
    refine congrArg Nat.cast (unilrcAndAzurelrc_single hfn (fun l hl _ hsingle => ?_) h)
    -- a global parity contacts one group only when there is one local group
    have hlen := congrArg length hsingle
    rw [length_range', length_singleton] at hlen
    rw [hlen] at hsingle
    rw [azurelrcGroup_global hl, hlen]
    exact singleton_inj.mp hsingle
  | OptimalLRC =>
    simp only [hc, ite_none_left_eq_some, some.injEq] at hg h
    exact absurd h (optimal_not_single hz (pos_of_ne_zero hg.1))
  | UniformLRC =>
    simp only [hc, some.injEq] at hg h
    subst hg
    exact uniform_single hr hz (div_pos (hu hc) hz) hf h
  | gLRC =>
    simp only [hc, some.injEq] at hg h
    subst hg
    unfold getRecoveryGroupIds at h
    simp only at h
    apply congrArg Nat.cast
    by_cases hfk : failed < cfg.k + cfg.r
    · rw [if_pos hfk, singleton_inj] at h
      rw [glrcGroup_payload hfk, h]
    · rw [if_neg hfk, singleton_inj] at h
      obtain ⟨l, rfl⟩ := Nat.exists_eq_add_of_le (Nat.le_of_not_lt hfk)
      rw [glrcGroup_parity]
      omega

end

/-! ## The cluster -/

section
variable {cfg : SysConfig} {topo : Topology} {group : ℕ → ℤ} {s s' : Coordinator} {stripeId : ℕ}
  {key : String} {bs : List Block} {stripe : Stripe} {clusterId failed : ℕ}

theorem clusterOfBlock_eq_iff {count i j : ℕ} (hcov : Covers cfg.n count group) (hi : i < cfg.n)
    (hj : j < cfg.n) (stripeId : ℕ) :
    clusterOfBlock cfg group stripeId i = clusterOfBlock cfg group stripeId j ↔
      group i % (cfg.clusterNum : ℤ) = group j % (cfg.clusterNum : ℤ) := by
  obtain ⟨gi, hgi⟩ := Int.eq_ofNat_of_zero_le (hcov.lt i hi).1
  obtain ⟨gj, hgj⟩ := Int.eq_ofNat_of_zero_le (hcov.lt j hj).1
  rw [clusterOfBlock_eq hgi, clusterOfBlock_eq hgj, Int.ofNat_inj, hgi, hgj, ← Int.natCast_emod,
    ← Int.natCast_emod, Int.ofNat_inj]
  constructor
  · exact fun h => Nat.ModEq.add_left_cancel' stripeId h
  · exact fun h => Nat.ModEq.add_left stripeId h

/-- the blocks of a stripe in the cluster of the failed block -/
def sameCluster (cfg : SysConfig) (group : ℕ → ℤ) (failed : ℕ) : List ℕ :=
  (range cfg.n).filter fun b =>
    group b % (cfg.clusterNum : ℤ) = group failed % (cfg.clusterNum : ℤ)

/-- fewer blocks of the stripe than nodes are in the cluster of the failed block; gLRC puts a block
on every node -/
def ReplacementExists (cfg : SysConfig) (group : ℕ → ℤ) (failed : ℕ) : Prop :=
  cfg.codeType ≠ .gLRC ∧ (sameCluster cfg group failed).length < cfg.datanodeNumPerCluster

instance (cfg : SysConfig) (group : ℕ → ℤ) (failed : ℕ) :
    Decidable (ReplacementExists cfg group failed) :=
  inferInstanceAs (Decidable (_ ∧ _))

variable (h : Placed cfg topo group s stripeId key bs s' stripe)
include h

theorem Placed.cluster_of_group (hc : cfg.codeType ≠ .gLRC) {i : ℕ}
    (hget : getClusterIdByGroupId stripe (group i) = some clusterId) :
    (clusterId : ℤ) = clusterOfBlock cfg group stripeId i := by
  obtain ⟨b, hhead, hget⟩ := bind_eq_some_iff.mp hget
  obtain ⟨block, hblock, hcluster⟩ := map_eq_some_iff.mp hget
  have hmem := mem_of_head? hhead
  rw [h.stripe_eq] at hmem
  change b ∈ bucket (groupToBlocks cfg.n group) (group i) at hmem
  rw [groupToBlocks, bucket_collect, mem_filter, mem_range, decide_eq_true_eq] at hmem
  obtain ⟨block', hin, hblock', hid⟩ := h.exists_block hmem.1
  rw [hblock', some.injEq] at hblock
  rw [← hcluster, ← hblock, h.cluster hc block' hin, hid]
  unfold clusterOfBlock
  rw [hmem.2]

theorem Placed.recoveryCluster_eq (hc : cfg.codeType ≠ .gLRC) (hr : 0 < cfg.r) (hz : 0 < cfg.z)
    (hg : map2group cfg = some group) (hu : cfg.codeType = .UniformLRC → cfg.z ≤ cfg.k + cfg.r)
    (hf : failed < cfg.n) (hcall : recoveryCluster cfg stripe failed = some clusterId) :
    (clusterId : ℤ) = clusterOfBlock cfg group stripeId failed := by
  unfold recoveryCluster at hcall
  split at hcall
  · rename_i g hsingle
    rw [← recoveryGroupIds_single hr hz hg hu hf hsingle] at hcall
    exact h.cluster_of_group hc hcall
  · obtain ⟨failedBlock, hblock, hcall⟩ := bind_eq_some_iff.mp hcall
    obtain ⟨clusterId', hget, hcall⟩ := bind_eq_some_iff.mp hcall
    obtain ⟨clusters, -, hcall⟩ := bind_eq_some_iff.mp hcall
    cases hcall
    obtain ⟨block, hin, hblock', hid⟩ := h.exists_block hf
    rw [hblock', some.injEq] at hblock
    rw [← hblock, h.map2group_eq hin, hid] at hget
    exact h.cluster_of_group hc hget

theorem Placed.soFar : PlacedSoFar topo s stripeId (fun _ => True) bs s' where
  form _ _ := trivial
  stripe _ hb := h.map2stripe_eq hb
  node_mem := h.node_mem
  nodup := h.nodup
  free := h.free
  state := h.state

theorem Placed.not_freeNode (hc : cfg.codeType = .gLRC) (hfresh : FreshIn s stripeId)
    (clusterId : ℕ) : ¬FreeNode topo s' clusterId stripeId := by
  rintro ⟨node, hnode, hfree⟩
  rw [h.soFar.entry_iff hfresh] at hfree
  have hsub : bs.map Block.map2node ⊆ range topo.nodeNum := by
    intro n hn
    obtain ⟨b, hb, rfl⟩ := mem_map.mp hn
    exact mem_range.mpr (Topology.mem_nodes.mp (h.node_mem b hb)).1
  have hlen : (range topo.nodeNum).length ≤ (bs.map Block.map2node).length := by
    rw [length_range, h.ring hc, length_map, ← h.blocks_perm.length_eq, h.length_blocks]
  have hperm := (subperm_of_subset h.nodup hsub).perm_of_length_le hlen
  have hmem := hperm.mem_iff.mpr (mem_range.mpr (Topology.mem_nodes.mp hnode).1)
  obtain ⟨b, hb, hbn⟩ := mem_map.mp hmem
  exact hfree b hb hbn

end

/-- **Main result.**  In every state that sets and recoveries reach, when the recovery of a block
draws a node of a cluster for its stripe, that cluster has a node without a block of the stripe
exactly when `ReplacementExists`. -/
theorem replacement_node_iff (cfg : SysConfig) (topo : Topology) (hl : cfg.Loaded)
    (hv : validateConfig cfg = true) (htopo : topo.Uniform cfg) (group : ℕ → ℤ)
    (hg : map2group cfg = some group) (es : List StorageEvent) (sys : System)
    (hrun : run (storageStep cfg topo) es {} = some sys) (stripeId : ℕ) (stripe : Stripe)
    (hstripe : sys.coord.stripeTable stripeId = some stripe) (failed : ℕ) (hf : failed < cfg.n)
    (clusterId : ℕ) (hcall : recoveryCluster cfg stripe failed = some clusterId) :
    FreeNode topo sys.coord clusterId stripeId ↔ ReplacementExists cfg group failed := by
  obtain ⟨group', key, bs, s, t, hg', hplaceable, hfresh, hp, hentry⟩ :=
    (Recorded.run hrun).placed stripeId stripe hstripe
  rw [hg, some.injEq] at hg'
  subst hg'
  have hfree : FreeNode topo sys.coord clusterId stripeId ↔ FreeNode topo t clusterId stripeId := by
    unfold FreeNode
    simp only [hentry]
  rw [hfree]
  have hz := validateConfig_z hv
  have hu := fun hc => hplaceable.uniform hz hg hc
  unfold ReplacementExists
  by_cases hc : cfg.codeType = .gLRC
  · simp [hc, hp.not_freeNode hc hfresh clusterId]
  · have hcn := validateConfig_clusterNum hv
    have hcov := map2group_covers hl hz hu hg
    obtain ⟨hpos, hlt⟩ := clusterOfBlock_toNat_lt hcov hcn stripeId hf
    have hcluster := hp.recoveryCluster_eq hc hl.r_pos hz hg hu hf hcall
    obtain rfl : clusterId = (clusterOfBlock cfg group stripeId failed).toNat := by omega
    rw [hp.soFar.freeNode_iff_count hfresh, length_inCluster_eq hpos hp.ids (hp.cluster hc),
      htopo _ hlt, and_iff_right hc]
    have hsame : (range cfg.n).filter (fun b => clusterOfBlock cfg group stripeId b =
        clusterOfBlock cfg group stripeId failed) = sameCluster cfg group failed := by
      apply filter_congr
      intro b hb
      exact decide_eq_decide.mpr
        (clusterOfBlock_eq_iff hcov (mem_range.mp hb) hf stripeId)
    rw [hsame]

theorem replacement_node_after_set :
    ∃ sys stripe, run (storageStep unilrcConfig clustersOfFour)
        [.set "c" 4 [0, 0, 1, 1, 2, 2] fun _ => true] {} = some sys ∧
      sys.coord.stripeTable 0 = some stripe ∧ recoveryCluster unilrcConfig stripe 0 = some 0 ∧
      FreeNode clustersOfFour sys.coord 0 0 := by
  have hrun : (run (storageStep unilrcConfig clustersOfFour)
      [.set "c" 4 [0, 0, 1, 1, 2, 2] fun _ => true] {}).map (fun sys =>
        (sys.coord.stripeTable 0).bind fun stripe => recoveryCluster unilrcConfig stripe 0) =
      some (some 0) := by decide +kernel
  obtain ⟨sys, hsys, hcluster⟩ := map_eq_some_iff.mp hrun
  obtain ⟨stripe, hstripe, hcall⟩ := bind_eq_some_iff.mp hcluster
  refine ⟨sys, stripe, hsys, hstripe, hcall, ?_⟩
  exact (replacement_node_iff unilrcConfig clustersOfFour ⟨by decide, by decide, fun _ => ⟨1, rfl, rfl⟩⟩
    (by decide) (by unfold Topology.Uniform; decide) _ rfl _ sys hsys 0 stripe hstripe 0 (by decide) 0
    hcall).mpr (by decide)

/-- the smallest ring: as many nodes as blocks -/
def ringConfig : SysConfig where
  codeType := .gLRC
  appendMode := .UNILRC_MODE
  k := 2
  r := 1
  z := 1
  unitSize := 1
  blockSize := 2
  clusterNum := 1
  datanodeNumPerCluster := 4

def oneCluster : Topology where
  nodeNum := 4
  nodeCluster := fun _ => 0

/-- gLRC: after a set every node of the cluster has a block of the stripe, and the recovery of block
0 draws for ever -/
theorem replacement_missing :
    validateConfig ringConfig = true ∧ oneCluster.Uniform ringConfig ∧
    (run (storageStep ringConfig oneCluster) [.set "c" 4 [] fun _ => true] {}).map (fun sys =>
        ((sys.coord.stripeTable 0).bind fun stripe => recoveryCluster ringConfig stripe 0,
          (oneCluster.nodes 0).map fun node => (sys.coord.nodeTable node).stripes 0)) =
      some (some 0, [some 0, some 1, some 2, some 3]) ∧
    ∀ sys, run (storageStep ringConfig oneCluster) [.set "c" 4 [] fun _ => true] {} = some sys →
      ¬FreeNode oneCluster sys.coord 0 0 := by
  refine ⟨by decide, by unfold Topology.Uniform; decide,
    (and_iff_left_of_imp fun hrun => ?_).mpr (by decide +kernel)⟩
  rintro sys hsys ⟨node, hmem, hfree⟩
  rw [hsys, map_some, some.injEq, Prod.mk.injEq] at hrun
  have hin : none ∈ [some (0 : ℤ), some 1, some 2, some 3] := by
    rw [← hrun.2, ← hfree]
    exact mem_map_of_mem hmem
  simp at hin

end Mlrc
