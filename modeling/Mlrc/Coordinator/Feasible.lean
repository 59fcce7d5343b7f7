import Mlrc.Coordinator.Placement

/-!
# When the clustered placements complete

A placement can only stop in `randomly_select_a_node`, when every node of a cluster already has a
block of the stripe.

* `freeNode_iff_count`   a node is free while fewer blocks than nodes are in the cluster;
* `Feasible`   the placement of a stripe never gets stuck;
* `GroupsFit.feasible`, `GroupsFit.of_feasible`   it does not exactly when there are at most as many
  groups as clusters, and no group has more blocks than a cluster has nodes.
-/

namespace Mlrc

open List Option Nat

variable {i stripeId : ℕ} {bs : List Block}

def FreshIn (s : Coordinator) (stripeId : ℕ) : Prop :=
  ∀ node, (s.nodeTable node).stripes stripeId = none

/-- the blocks of a list that lie in a cluster -/
def inCluster (bs : List Block) (clusterId : ℕ) : List Block :=
  bs.filter fun b => b.map2cluster = clusterId

section
variable {topo : Topology} {s t : Coordinator} {stripeId clusterId : ℕ} {P : Block → Prop}
  {bs : List Block}

section
variable (h : PlacedSoFar topo s stripeId P bs t)
include h

theorem PlacedSoFar.used_subset (clusterId : ℕ) :
    (inCluster bs clusterId).map Block.map2node ⊆ topo.nodes clusterId := by
  intro node hnode
  obtain ⟨b, hb, rfl⟩ := mem_map.mp hnode
  rw [inCluster, mem_filter, decide_eq_true_eq] at hb
  rw [← hb.2]
  exact h.node_mem b hb.1

theorem PlacedSoFar.used_nodup (clusterId : ℕ) :
    ((inCluster bs clusterId).map Block.map2node).Nodup :=
  h.nodup.sublist (filter_sublist.map _)

theorem PlacedSoFar.entry_iff (hfresh : FreshIn s stripeId)
    (node : ℕ) : (t.nodeTable node).stripes stripeId = none ↔ ∀ b ∈ bs, b.map2node ≠ node := by
  rw [h.state]
  constructor
  · intro hnone b hb hnode
    have hset := Coordinator.recordAll_stripes (s := s) h.nodup hb
    rw [hnode, h.stripe b hb, hnone] at hset
    cases hset
  · intro hne
    rw [Coordinator.recordAll_stripes_of_not fun b hb heq => absurd heq (hne b hb)]
    exact hfresh node

theorem PlacedSoFar.freeNode_iff_count (hfresh : FreshIn s stripeId) (clusterId : ℕ) :
    FreeNode topo t clusterId stripeId ↔
      (inCluster bs clusterId).length < (topo.nodes clusterId).length := by
  have hused := h.used_subset clusterId
  constructor
  · rintro ⟨node, hmem, hfree⟩
    rw [h.entry_iff hfresh] at hfree
    have hnot : node ∉ (inCluster bs clusterId).map Block.map2node := by
      intro hin
      obtain ⟨b, hb, hnode⟩ := mem_map.mp hin
      exact hfree b (mem_filter.mp hb).1 hnode
    have hsub : node :: (inCluster bs clusterId).map Block.map2node ⊆ topo.nodes clusterId :=
      cons_subset.mpr ⟨hmem, hused⟩
    have hle := (subperm_of_subset
      (nodup_cons.mpr ⟨hnot, h.used_nodup clusterId⟩) hsub).length_le
    rwa [length_cons, length_map] at hle
  · intro hlt
    by_contra hno
    -- every node of the cluster occurs among the nodes of the blocks
    have hsub : topo.nodes clusterId ⊆ (inCluster bs clusterId).map Block.map2node := by
      intro node hnode
      have hset : ¬(t.nodeTable node).stripes stripeId = none := fun hfree => hno ⟨node, hnode, hfree⟩
      rw [h.entry_iff hfresh] at hset
      push Not at hset
      obtain ⟨b, hb, hbn⟩ := hset
      refine mem_map.mpr ⟨b, mem_filter.mpr ⟨hb, decide_eq_true ?_⟩, hbn⟩
      have h1 := Topology.mem_nodes.mp (h.node_mem b hb)
      rw [hbn, (Topology.mem_nodes.mp hnode).2] at h1
      exact h1.2.symm
    have hle := (subperm_of_subset (topo.nodes_nodup clusterId) hsub).length_le
    rw [length_map] at hle
    omega

end

end

/-! ## More draws -/

section
variable {cfg : SysConfig} {topo : Topology} {group : ℕ → ℤ} {s : Coordinator} {stripeId : ℕ}
  {key : String}

theorem randomlySelectANode_append {clusterId node : ℕ} {draws rest : List ℕ}
    (h : randomlySelectANode topo s clusterId stripeId draws = some (node, rest)) (more : List ℕ) :
    randomlySelectANode topo s clusterId stripeId (draws ++ more) = some (node, rest ++ more) := by
  induction draws with
  | nil => cases h
  | cons d draws ih =>
    rw [cons_append]
    unfold randomlySelectANode at h ⊢
    cases hd : (topo.nodes clusterId)[d % (topo.nodes clusterId).length]? with
    | none => simp [hd] at h
    | some drawn =>
      simp only [hd] at h ⊢
      by_cases hfree : (s.nodeTable drawn).stripes stripeId = none
      · rw [if_pos hfree, some.injEq, Prod.mk.injEq] at h
        rw [if_pos hfree, h.1, h.2]
      · rw [if_neg hfree] at h ⊢
        exact ih h

theorem placeBlock_append {p q : Coordinator × List Block × List ℕ}
    (h : placeBlock cfg topo group stripeId key p i = some q) (more : List ℕ) :
    placeBlock cfg topo group stripeId key (p.1, p.2.1, p.2.2 ++ more) i =
      some (q.1, q.2.1, q.2.2 ++ more) := by
  unfold placeBlock at h ⊢
  simp only [ite_none_left_eq_some] at h ⊢
  refine ⟨h.1, ?_⟩
  obtain ⟨⟨node, rest⟩, hsel, h⟩ := bind_eq_some_iff.mp h.2
  obtain ⟨u, hup, h⟩ := bind_eq_some_iff.mp h
  rw [some.injEq] at h
  subst h
  refine bind_eq_some_iff.mpr ⟨_, randomlySelectANode_append hsel more, ?_⟩
  exact bind_eq_some_iff.mpr ⟨u, hup, rfl⟩

theorem placeLoop_append {draws : List ℕ} {q : Coordinator × List Block × List ℕ}
    (h : (range i).foldlM (placeBlock cfg topo group stripeId key) (s, [], draws) = some q)
    (more : List ℕ) :
    (range i).foldlM (placeBlock cfg topo group stripeId key) (s, [], draws ++ more) =
      some (q.1, q.2.1, q.2.2 ++ more) := by
  induction i generalizing q with
  | zero =>
    cases h
    rfl
  | succ i ih =>
    rw [foldlM_range_succ] at h ⊢
    obtain ⟨p, hp, hq⟩ := bind_eq_some_iff.mp h
    exact bind_eq_some_iff.mpr ⟨_, ih hp, placeBlock_append hq more⟩

theorem exists_placeBlock (key : String) {p : Coordinator × List Block × List ℕ}
    (hpos : 0 ≤ clusterOfBlock cfg group stripeId i)
    (hfree : FreeNode topo p.1 (clusterOfBlock cfg group stripeId i).toNat stripeId) :
    ∃ d q, placeBlock cfg topo group stripeId key (p.1, p.2.1, [d]) i = some q ∧ q.2.2 = [] := by
  obtain ⟨d, node, hsel⟩ := hfree.draw
  obtain ⟨u, hup⟩ : ∃ u, updateStripeInfoInNode p.1 node stripeId i = some u :=
    ⟨_, if_pos (randomlySelectANode_some hsel).2⟩
  let b := blockInfo cfg group stripeId key i (clusterOfBlock cfg group stripeId i).toNat node
  refine ⟨d, (u.addBlock b, p.2.1 ++ [b], []), ?_, rfl⟩
  unfold placeBlock
  simp only
  rw [if_neg (Int.not_lt.mpr hpos)]
  refine bind_eq_some_iff.mpr ⟨_, hsel, ?_⟩
  exact bind_eq_some_iff.mpr ⟨u, hup, rfl⟩

theorem exists_placeLoop (key : String) {n : ℕ} (hi : i ≤ n) (hfree : ∀ draws j p, j < n →
      (range j).foldlM (placeBlock cfg topo group stripeId key) (s, [], draws) = some p →
      0 ≤ clusterOfBlock cfg group stripeId j ∧
        FreeNode topo p.1 (clusterOfBlock cfg group stripeId j).toNat stripeId) :
    ∃ draws q, (range i).foldlM (placeBlock cfg topo group stripeId key) (s, [], draws) =
      some q ∧ q.2.2 = [] := by
  induction i with
  | zero => exact ⟨[], (s, [], []), rfl, rfl⟩
  | succ i ih =>
    obtain ⟨draws, p, hp, hnil⟩ := ih (by omega)
    obtain ⟨hpos, hnode⟩ := hfree draws i p (by omega) hp
    obtain ⟨d, q, hq, hrest⟩ := exists_placeBlock key hpos hnode
    refine ⟨draws ++ [d], q, ?_, hrest⟩
    have hmore := placeLoop_append hp [d]
    rw [hnil, nil_append] at hmore
    rw [foldlM_range_succ, hmore]
    exact hq

end

/-! ## Feasible placements -/

/-- the placement of a stripe under a new id never gets stuck -/
structure Feasible (cfg : SysConfig) (topo : Topology) (group : ℕ → ℤ) (stripeId : ℕ) : Prop where
  /-- different groups go to different clusters -/
  distinct : ∀ i < cfg.n, ∀ j < cfg.n, group i ≠ group j →
    clusterOfBlock cfg group stripeId i ≠ clusterOfBlock cfg group stripeId j
  /-- every call of `randomly_select_a_node` finds a node -/
  select : ∀ s key draws i p, FreshIn s stripeId → i < cfg.n →
    (range i).foldlM (placeBlock cfg topo group stripeId key) (s, [], draws) = some p →
    0 ≤ clusterOfBlock cfg group stripeId i ∧
      FreeNode topo p.1 (clusterOfBlock cfg group stripeId i).toNat stripeId
  /-- the loop completes -/
  completes : ∀ s key, FreshIn s stripeId →
    ∃ draws result, initializeStripePlacement cfg topo s stripeId key draws = some result
  /-- and every block is on a node of its own -/
  nodes : ∀ s key draws s' stripe rest,
    initializeStripePlacement cfg topo s stripeId key draws = some (s', stripe, rest) →
    (stripe.blocks.map Block.map2node).Nodup ∧ stripe.blocks.length = cfg.n

/-- `ClusterNum` clusters of `DatanodeNumPerCluster` nodes each -/
def Topology.Uniform (topo : Topology) (cfg : SysConfig) : Prop :=
  ∀ c < cfg.clusterNum, (topo.nodes c).length = cfg.datanodeNumPerCluster

section
variable {cfg : SysConfig} {topo : Topology} {group : ℕ → ℤ} {count : ℕ}

theorem Placed.nodes_nodup {s s' : Coordinator} {key : String}
    {stripe : Stripe} (h : Placed cfg topo group s stripeId key bs s' stripe) :
    (stripe.blocks.map Block.map2node).Nodup :=
  (h.blocks_perm.map _).nodup_iff.mpr h.nodup

theorem clusterOfBlock_eq {g : ℕ} (hg : group i = g) :
    clusterOfBlock cfg group stripeId i = (((stripeId + g) % cfg.clusterNum : ℕ) : ℤ) := by
  unfold clusterOfBlock
  rw [hg, ← cast_add, ← Int.ofNat_tmod, mod_add_mod]

theorem clusterOfBlock_inj (hcov : Covers cfg.n count group) (hcount : count ≤ cfg.clusterNum)
    {j : ℕ} (hi : i < cfg.n) (hj : j < cfg.n)
    (h : clusterOfBlock cfg group stripeId i = clusterOfBlock cfg group stripeId j) :
    group i = group j := by
  obtain ⟨gi, hgi⟩ := Int.eq_ofNat_of_zero_le (hcov.lt i hi).1
  obtain ⟨gj, hgj⟩ := Int.eq_ofNat_of_zero_le (hcov.lt j hj).1
  have hi' := (hcov.lt i hi).2
  have hj' := (hcov.lt j hj).2
  rw [clusterOfBlock_eq hgi, clusterOfBlock_eq hgj, Int.ofNat_inj] at h
  rw [hgi] at hi' ⊢
  rw [hgj] at hj' ⊢
  have hmod : Nat.ModEq cfg.clusterNum gi gj := Nat.ModEq.add_left_cancel' stripeId h
  rw [Nat.ModEq, mod_eq_of_lt (by omega), mod_eq_of_lt (by omega)] at hmod
  rw [hmod]

/-- the blocks `0, .., i - 1` of a group -/
def groupBefore (group : ℕ → ℤ) (i : ℕ) (g : ℤ) : List ℕ :=
  (range i).filter fun b => group b = g

theorem length_inCluster_eq {ids : List ℕ}
    (hpos : 0 ≤ clusterOfBlock cfg group stripeId i) (hids : (bs.map Block.blockId).Perm ids)
    (hcl : ∀ b ∈ bs, (b.map2cluster : ℤ) = clusterOfBlock cfg group stripeId b.blockId) :
    (inCluster bs (clusterOfBlock cfg group stripeId i).toNat).length = (ids.filter fun b =>
        clusterOfBlock cfg group stripeId b = clusterOfBlock cfg group stripeId i).length := by
  rw [← (hids.filter _).length_eq, List.filter_map, length_map]
  unfold inCluster
  congr 1
  apply filter_congr
  intro b hb
  have hc := hcl b hb
  apply decide_eq_decide.mpr
  omega

theorem length_inCluster (hcov : Covers cfg.n count group) (hcount : count ≤ cfg.clusterNum)
    {m : ℕ} (hi : i < cfg.n) (hm : m ≤ cfg.n) (hids : bs.map Block.blockId = range m)
    (hcl : ∀ b ∈ bs, (b.map2cluster : ℤ) = clusterOfBlock cfg group stripeId b.blockId) :
    (inCluster bs (clusterOfBlock cfg group stripeId i).toNat).length =
      (groupBefore group m (group i)).length := by
  have hpos : 0 ≤ clusterOfBlock cfg group stripeId i := by
    obtain ⟨g, hg⟩ := Int.eq_ofNat_of_zero_le (hcov.lt i hi).1
    rw [clusterOfBlock_eq hg]
    exact Int.natCast_nonneg _
  rw [length_inCluster_eq hpos (List.Perm.of_eq hids) hcl]
  unfold groupBefore
  congr 1
  apply filter_congr
  intro b hb
  rw [mem_range] at hb
  apply decide_eq_decide.mpr
  constructor
  · exact clusterOfBlock_inj hcov hcount (lt_of_lt_of_le hb hm) hi
  · intro h
    unfold clusterOfBlock
    rw [h]

theorem clusterOfBlock_toNat_lt (hcov : Covers cfg.n count group) (hcn : 0 < cfg.clusterNum)
    (stripeId : ℕ) (hi : i < cfg.n) : 0 ≤ clusterOfBlock cfg group stripeId i ∧
      (clusterOfBlock cfg group stripeId i).toNat < cfg.clusterNum := by
  obtain ⟨g, hg⟩ := Int.eq_ofNat_of_zero_le (hcov.lt i hi).1
  rw [clusterOfBlock_eq hg, Int.toNat_natCast]
  exact ⟨Int.natCast_nonneg _, mod_lt _ hcn⟩

theorem length_groupBefore_lt (group : ℕ → ℤ) {n : ℕ} (hi : i < n) :
    (groupBefore group i (group i)).length < (groupBefore group n (group i)).length := by
  have hle : (groupBefore group (i + 1) (group i)).length ≤ (groupBefore group n (group i)).length :=
    ((range_sublist.mpr (succ_le_of_lt hi)).filter _).length_le
  have hsucc : groupBefore group (i + 1) (group i) = groupBefore group i (group i) ++ [i] := by
    unfold groupBefore
    rw [range_succ, filter_append, filter_singleton]
    simp
  rw [hsucc, length_append, length_singleton] at hle
  omega

/-- the groups fit into the clusters, and each group into its cluster -/
def GroupsFit (cfg : SysConfig) (group : ℕ → ℤ) (count : ℕ) : Prop :=
  count ≤ cfg.clusterNum ∧
    ∀ g : ℕ, g < count → (groupBefore group cfg.n g).length ≤ cfg.datanodeNumPerCluster

section
variable (hc : cfg.codeType ≠ .gLRC) (hg : map2group cfg = some group)
include hc hg

theorem Feasible.exists_run (h : Feasible cfg topo group stripeId) :
    ∃ bs t, PlacedSoFar topo {} stripeId (fun b =>
        b = blockInfo cfg group stripeId "" b.blockId b.map2cluster b.map2node ∧
          (b.map2cluster : ℤ) = clusterOfBlock cfg group stripeId b.blockId) bs t ∧
      bs.map Block.blockId = range cfg.n := by
  obtain ⟨draws, result, hrun⟩ := h.completes {} "" fun _ => rfl
  rw [initializeStripePlacement_eq hc, hg, bind_some] at hrun
  obtain ⟨q, hloop, -⟩ := bind_eq_some_iff.mp hrun
  exact ⟨q.2.1, q.1, placeLoop_inv hloop⟩

theorem GroupsFit.of_feasible
    (hcov : Covers cfg.n count group) (hcn : 0 < cfg.clusterNum) (htopo : topo.Uniform cfg)
    (h : Feasible cfg topo group 0) : GroupsFit cfg group count := by
  have hcount : count ≤ cfg.clusterNum := by
    by_contra hgt
    obtain ⟨i, hi, hgi⟩ := hcov.onto 0 (by omega)
    obtain ⟨j, hj, hgj⟩ := hcov.onto cfg.clusterNum (by omega)
    refine h.distinct i hi j hj (by rw [hgi, hgj]; omega) ?_
    rw [clusterOfBlock_eq hgi, clusterOfBlock_eq hgj, zero_add, zero_add, mod_self,
      zero_mod]
  refine ⟨hcount, fun g hlt => ?_⟩
  obtain ⟨i, hi, hgi⟩ := hcov.onto g hlt
  obtain ⟨bs, t, hp, hids⟩ := h.exists_run hc hg
  -- the blocks of the group occupy different nodes of one cluster
  have hused := (subperm_of_subset (hp.used_nodup (clusterOfBlock cfg group 0 i).toNat)
    (hp.used_subset _)).length_le
  rw [length_map, length_inCluster hcov hcount hi le_rfl hids
    fun b hb => (hp.form b hb).2, hgi,
    htopo _ (clusterOfBlock_toNat_lt hcov hcn 0 hi).2] at hused
  exact hused

theorem GroupsFit.feasible
    (hcov : Covers cfg.n count group) (hcn : 0 < cfg.clusterNum) (htopo : topo.Uniform cfg)
    (h : GroupsFit cfg group count) (stripeId : ℕ) : Feasible cfg topo group stripeId := by
  have hselect : ∀ s key draws i p, FreshIn s stripeId → i < cfg.n →
      (range i).foldlM (placeBlock cfg topo group stripeId key) (s, [], draws) = some p →
      0 ≤ clusterOfBlock cfg group stripeId i ∧
        FreeNode topo p.1 (clusterOfBlock cfg group stripeId i).toNat stripeId := by
    intro s key draws i p hfresh hi hloop
    obtain ⟨hpos, hlt⟩ := clusterOfBlock_toNat_lt hcov hcn stripeId hi
    obtain ⟨hp, hids⟩ := placeLoop_inv hloop
    refine ⟨hpos, (hp.freeNode_iff_count hfresh _).mpr ?_⟩
    rw [length_inCluster hcov h.1 hi (le_of_lt hi) hids fun b hb => (hp.form b hb).2,
      htopo _ hlt]
    obtain ⟨g, hgi⟩ := Int.eq_ofNat_of_zero_le (hcov.lt i hi).1
    have hgc := (hcov.lt i hi).2
    have hsize := h.2 g (by rw [hgi] at hgc; omega)
    have hbefore := length_groupBefore_lt group hi
    rw [hgi] at hbefore ⊢
    exact lt_of_lt_of_le hbefore hsize
  refine ⟨fun i hi j hj hne heq => ?_, hselect, fun s key hfresh => ?_, ?_⟩
  · exact hne (clusterOfBlock_inj hcov h.1 hi hj heq)
  · obtain ⟨draws, q, hloop, -⟩ := exists_placeLoop key (le_refl cfg.n)
      fun draws j p hj hp => hselect s key draws j p hfresh hj hp
    refine ⟨draws, (q.1, stripeOf cfg group stripeId key q.2.1, q.2.2), ?_⟩
    rw [initializeStripePlacement_eq hc, hg, bind_some]
    exact bind_eq_some_iff.mpr ⟨q, hloop, rfl⟩
  · intro s key draws s' stripe rest hrun
    obtain ⟨group', bs, -, hp⟩ := initializeStripePlacement_placed hrun
    exact ⟨hp.nodes_nodup, hp.length_blocks⟩

end

end

end Mlrc
