import Mlrc.Coordinator.Tables

/-!
# Placing a stripe

The clustered codes send group `g` of stripe `s` to cluster `(s + g) mod ClusterNum` and draw a node
of it for each block; gLRC walks once around all nodes, starting at node `s mod n`.

* `initializeStripePlacement`   the placement of each code type;
* `Placed`   what a placement leaves behind;
* `initializeStripePlacement_placed`   every placement that completes is one.
-/

namespace Mlrc

open List Option

variable {b : Block} {i : ℕ} {draws rest : List ℕ} {stripe : Stripe}

/-- the stripe with its blocks in the order of their ids -/
def stripeOf (cfg : SysConfig) (group : ℕ → ℤ) (stripeId : ℕ) (key : String) (blocks : List Block) :
    Stripe where
  stripeId := stripeId
  k := cfg.k
  r := cfg.r
  z := cfg.z
  objectKeys := [key]
  blocks := blocks
  numGroups := numGroups cfg group
  groupToBlocks := groupToBlocks cfg.n group

/-- `(t_cluster_id + map2group) % ClusterNum`, with the remainder of C++ -/
def clusterOfBlock (cfg : SysConfig) (group : ℕ → ℤ) (stripeId i : ℕ) : ℤ :=
  Int.tmod ((stripeId % cfg.clusterNum : ℕ) + group i) cfg.clusterNum

def placeBlock (cfg : SysConfig) (topo : Topology) (group : ℕ → ℤ) (stripeId : ℕ) (key : String)
    (p : Coordinator × List Block × List ℕ) (i : ℕ) :
    Option (Coordinator × List Block × List ℕ) :=
  let clusterId := clusterOfBlock cfg group stripeId i
  -- a negative id is not that of a cluster: its entry has no nodes to draw from
  if clusterId < 0 then none
  else do
    let (node, draws) ← randomlySelectANode topo p.1 clusterId.toNat stripeId p.2.2
    let s ← updateStripeInfoInNode p.1 node stripeId i
    let b := blockInfo cfg group stripeId key i clusterId.toNat node
    some (s.addBlock b, p.2.1 ++ [b], draws)

/-- the loop that the clustered placements share -/
def placeByGroups (cfg : SysConfig) (topo : Topology) (group : ℕ → ℤ) (s : Coordinator)
    (stripeId : ℕ) (key : String) (draws : List ℕ) : Option (Coordinator × Stripe × List ℕ) := do
  let (s, blocks, draws) ←
    (range cfg.n).foldlM (placeBlock cfg topo group stripeId key) (s, [], draws)
  some (s, stripeOf cfg group stripeId key blocks, draws)

/-- `initialize_unilrc_and_azurelrc_stripe_placement`; with another code type the groups of the
global parities stay unset -/
def initializeUnilrcAndAzurelrcStripePlacement (cfg : SysConfig) (topo : Topology) (s : Coordinator)
    (stripeId : ℕ) (key : String) (draws : List ℕ) : Option (Coordinator × Stripe × List ℕ) :=
  match cfg.codeType with
  | .UniLRC | .AzureLRC =>
    (map2group cfg).bind fun group => placeByGroups cfg topo group s stripeId key draws
  | _ => none

def initializeOptimalLrcStripePlacement (cfg : SysConfig) (topo : Topology) (s : Coordinator)
    (stripeId : ℕ) (key : String) (draws : List ℕ) : Option (Coordinator × Stripe × List ℕ) :=
  if cfg.k / cfg.z = 0 then none
  else placeByGroups cfg topo (fun i => optimalLrcGroup cfg.k cfg.r cfg.z i) s stripeId key draws

def initializeUniformLrcStripePlacement (cfg : SysConfig) (topo : Topology) (s : Coordinator)
    (stripeId : ℕ) (key : String) (draws : List ℕ) : Option (Coordinator × Stripe × List ℕ) :=
  placeByGroups cfg topo (uniformLrcGroup cfg.k cfg.r cfg.z) s stripeId key draws

/-- position `j` of the ring -/
def placeGlrcBlock (cfg : SysConfig) (topo : Topology) (group : ℕ → ℤ) (stripeId : ℕ) (key : String)
    (stripeBlocks : List ℕ) (p : Coordinator × (ℕ → Option Block)) (j : ℕ) :
    Option (Coordinator × (ℕ → Option Block)) := do
  let blockId := stripeBlocks.getD j 0
  let node := (j + stripeId) % cfg.n
  let s ← updateStripeInfoInNode p.1 node stripeId blockId
  let b := blockInfo cfg group stripeId key blockId (topo.nodeCluster node) node
  some (s.addBlock b, Function.update p.2 blockId (some b))

/-- `initialize_glrc_stripe_placement`; `none` is a failed assertion -/
def initializeGlrcStripePlacement (cfg : SysConfig) (topo : Topology) (s : Coordinator)
    (stripeId : ℕ) (key : String) : Option (Coordinator × Stripe) :=
  let group : ℕ → ℤ := fun i => glrcGroup cfg.k cfg.r cfg.z i
  let stripeBlocks := (glrcBuildPlacementGroups cfg.k cfg.r cfg.z).flatten
  if stripeBlocks.length = cfg.n ∧ topo.nodeNum = cfg.n then do
    let (s, blocksInfo) ← (range cfg.n).foldlM
      (placeGlrcBlock cfg topo group stripeId key stripeBlocks) (s, fun _ => none)
    let blocks ← (range cfg.n).mapM blocksInfo
    some (s, stripeOf cfg group stripeId key blocks)
  else none

/-- the placement that `uploadSetValue` and `uploadSubsetValue` choose -/
def initializeStripePlacement (cfg : SysConfig) (topo : Topology) (s : Coordinator)
    (stripeId : ℕ) (key : String) (draws : List ℕ) : Option (Coordinator × Stripe × List ℕ) :=
  match cfg.codeType with
  | .UniLRC | .AzureLRC =>
    initializeUnilrcAndAzurelrcStripePlacement cfg topo s stripeId key draws
  | .OptimalLRC => initializeOptimalLrcStripePlacement cfg topo s stripeId key draws
  | .gLRC => (initializeGlrcStripePlacement cfg topo s stripeId key).map fun p => (p.1, p.2, draws)
  | .UniformLRC => initializeUniformLrcStripePlacement cfg topo s stripeId key draws

/-! ## What a placement leaves behind -/

/-- the blocks `bs`, in the order in which they entered the tables -/
structure Placed (cfg : SysConfig) (topo : Topology) (group : ℕ → ℤ) (s : Coordinator)
    (stripeId : ℕ) (key : String) (bs : List Block) (s' : Coordinator) (stripe : Stripe) : Prop where
  ids : (bs.map Block.blockId).Perm (range cfg.n)
  form : ∀ b ∈ bs, b = blockInfo cfg group stripeId key b.blockId b.map2cluster b.map2node
  node_mem : ∀ b ∈ bs, b.map2node ∈ topo.nodes b.map2cluster
  nodup : (bs.map Block.map2node).Nodup
  free : ∀ b ∈ bs, (s.nodeTable b.map2node).stripes stripeId = none
  state : s' = s.recordAll bs
  blocks_perm : stripe.blocks.Perm bs
  blocks_ids : stripe.blocks.map Block.blockId = range cfg.n
  stripe_eq : stripe = stripeOf cfg group stripeId key stripe.blocks
  cluster : cfg.codeType ≠ .gLRC →
    ∀ b ∈ bs, (b.map2cluster : ℤ) = clusterOfBlock cfg group stripeId b.blockId
  ring : cfg.codeType = .gLRC → topo.nodeNum = cfg.n

section
variable {cfg : SysConfig} {topo : Topology} {group : ℕ → ℤ} {s s' : Coordinator} {stripeId : ℕ}
  {key : String}

/-- what holds after the blocks `bs` have been placed one by one -/
structure PlacedSoFar (topo : Topology) (s : Coordinator) (stripeId : ℕ) (P : Block → Prop)
    (bs : List Block) (t : Coordinator) : Prop where
  form : ∀ b ∈ bs, P b
  stripe : ∀ b ∈ bs, b.map2stripe = stripeId
  node_mem : ∀ b ∈ bs, b.map2node ∈ topo.nodes b.map2cluster
  nodup : (bs.map Block.map2node).Nodup
  free : ∀ b ∈ bs, (s.nodeTable b.map2node).stripes stripeId = none
  state : t = s.recordAll bs

theorem PlacedSoFar.nil (P : Block → Prop) : PlacedSoFar topo s stripeId P [] s :=
  ⟨forall_mem_nil _, forall_mem_nil _, forall_mem_nil _, nodup_nil,
    forall_mem_nil _, rfl⟩

theorem PlacedSoFar.append {P : Block → Prop} {bs : List Block} {t u : Coordinator}
    (h : PlacedSoFar topo s stripeId P bs t) (hP : P b) (hs : b.map2stripe = stripeId)
    (hmem : b.map2node ∈ topo.nodes b.map2cluster)
    (hup : updateStripeInfoInNode t b.map2node b.map2stripe b.blockId = some u) :
    PlacedSoFar topo s stripeId P (bs ++ [b]) (u.addBlock b) := by
  obtain ⟨hfree, hrec⟩ := updateStripeInfoInNode_addBlock hup
  rw [h.state] at hfree
  -- an earlier block on the same node would have left its entry there
  have hne : ∀ a ∈ bs, a.map2node ≠ b.map2node := by
    intro a ha heq
    have hset := Coordinator.recordAll_stripes (s := s) h.nodup ha
    rw [heq, h.stripe a ha, ← hs, hfree] at hset
    cases hset
  have hold : (s.nodeTable b.map2node).stripes stripeId = none := by
    rw [hs, Coordinator.recordAll_stripes_of_not fun a ha heq => absurd heq (hne a ha)] at hfree
    exact hfree
  have hall : ∀ {Q : Block → Prop}, (∀ a ∈ bs, Q a) → Q b → ∀ a ∈ bs ++ [b], Q a := by
    intro Q hbs hb a ha
    rcases mem_append.mp ha with ha | ha
    · exact hbs a ha
    · rwa [mem_singleton.mp ha]
  refine ⟨hall h.form hP, hall h.stripe hs, hall h.node_mem hmem, ?_, hall h.free hold, ?_⟩
  · rw [map_append, map_singleton]
    refine nodup_append.mpr ⟨h.nodup, nodup_singleton _, ?_⟩
    intro x hx y hy
    obtain ⟨a, ha, rfl⟩ := List.mem_map.mp hx
    rw [mem_singleton.mp hy]
    exact hne a ha
  · rw [Coordinator.recordAll_append, ← h.state, hrec]

/-! ## The clustered placements -/

theorem placeBlock_some {p q : Coordinator × List Block × List ℕ}
    (h : placeBlock cfg topo group stripeId key p i = some q) :
    0 ≤ clusterOfBlock cfg group stripeId i ∧
      ∃ node ∈ topo.nodes (clusterOfBlock cfg group stripeId i).toNat,
        ∃ u, updateStripeInfoInNode p.1 node stripeId i = some u ∧
          q.1 = u.addBlock (blockInfo cfg group stripeId key i
            (clusterOfBlock cfg group stripeId i).toNat node) ∧
          q.2.1 = p.2.1 ++ [blockInfo cfg group stripeId key i
            (clusterOfBlock cfg group stripeId i).toNat node] := by
  unfold placeBlock at h
  simp only [ite_none_left_eq_some] at h
  obtain ⟨hpos, h⟩ := h
  obtain ⟨⟨node, draws⟩, hsel, h⟩ := bind_eq_some_iff.mp h
  obtain ⟨u, hup, h⟩ := bind_eq_some_iff.mp h
  rw [some.injEq] at h
  subst h
  exact ⟨Int.not_lt.mp hpos, node, (randomlySelectANode_some hsel).1, u, hup, rfl, rfl⟩

theorem placeLoop_inv {q : Coordinator × List Block × List ℕ}
    (h : (range i).foldlM (placeBlock cfg topo group stripeId key) (s, [], draws) = some q) :
    PlacedSoFar topo s stripeId (fun b =>
        b = blockInfo cfg group stripeId key b.blockId b.map2cluster b.map2node ∧
          (b.map2cluster : ℤ) = clusterOfBlock cfg group stripeId b.blockId) q.2.1 q.1 ∧
      q.2.1.map Block.blockId = range i := by
  refine foldlM_range_some (fun i (q : Coordinator × List Block × List ℕ) =>
    PlacedSoFar topo s stripeId (fun b =>
        b = blockInfo cfg group stripeId key b.blockId b.map2cluster b.map2node ∧
          (b.map2cluster : ℤ) = clusterOfBlock cfg group stripeId b.blockId) q.2.1 q.1 ∧
      q.2.1.map Block.blockId = range i) i ⟨PlacedSoFar.nil _, rfl⟩ ?_ h
  intro i p q _ hp hq
  obtain ⟨hpos, node, hmem, u, hup, h1, h2⟩ := placeBlock_some hq
  rw [h1, h2]
  refine ⟨hp.1.append ⟨rfl, Int.toNat_of_nonneg hpos⟩ rfl hmem hup, ?_⟩
  rw [map_append, hp.2, range_succ]
  rfl

theorem placeByGroups_placed (hc : cfg.codeType ≠ .gLRC)
    (h : placeByGroups cfg topo group s stripeId key draws = some (s', stripe, rest)) :
    ∃ bs, Placed cfg topo group s stripeId key bs s' stripe := by
  obtain ⟨⟨t, blocks, draws'⟩, hloop, h⟩ := bind_eq_some_iff.mp h
  simp only [some.injEq, Prod.mk.injEq] at h
  obtain ⟨rfl, rfl, -⟩ := h
  obtain ⟨hp, hids⟩ := placeLoop_inv hloop
  exact ⟨blocks, {
    ids := by rw [hids]
    form := fun b hb => (hp.form b hb).1
    node_mem := hp.node_mem
    nodup := hp.nodup
    free := hp.free
    state := hp.state
    blocks_perm := List.Perm.refl _
    blocks_ids := hids
    stripe_eq := rfl
    cluster := fun _ b hb => (hp.form b hb).2
    ring := fun hg => absurd hg hc }⟩

/-! ## The ring of gLRC -/

theorem placementGroups_perm {k r z : ℕ}
    (hlen : (glrcBuildPlacementGroups k r z).flatten.length = k + r + z) :
    (glrcBuildPlacementGroups k r z).flatten.Perm (range (k + r + z)) := by
  rcases Nat.eq_zero_or_pos z with rfl | hz
  · -- no groups, hence no blocks
    have h0 : (0 : ℕ) = k + r + 0 := hlen
    rw [← h0]
    exact List.Perm.refl _
  · exact flatten_placementGroups_perm hz

theorem placeGlrcBlock_some {stripeBlocks : List ℕ} {p q : Coordinator × (ℕ → Option Block)} {j : ℕ}
    (h : placeGlrcBlock cfg topo group stripeId key stripeBlocks p j = some q) :
    ∃ b, b = blockInfo cfg group stripeId key (stripeBlocks.getD j 0)
        (topo.nodeCluster ((j + stripeId) % cfg.n)) ((j + stripeId) % cfg.n) ∧
      ∃ u, updateStripeInfoInNode p.1 b.map2node b.map2stripe b.blockId = some u ∧
        q = (u.addBlock b, Function.update p.2 b.blockId (some b)) := by
  obtain ⟨u, hup, h⟩ := bind_eq_some_iff.mp h
  rw [some.injEq] at h
  exact ⟨_, rfl, u, hup, h.symm⟩

theorem blocks_of_mapM {n : ℕ} {bs blocks : List Block} {blocksInfo : ℕ → Option Block}
    (hinfo : ∀ i b, blocksInfo i = some b → b ∈ bs ∧ b.blockId = i) (hlen : bs.length = n)
    (h : (range n).mapM blocksInfo = some blocks) :
    blocks.Perm bs ∧ blocks.map Block.blockId = range n := by
  have hall := mapM_option_some h
  have hids : blocks.map Block.blockId = range n := by
    rw [← forall₂_eq_eq_eq, forall₂_map_left_iff]
    exact hall.flip.imp fun b i hb => (hinfo i b hb).2
  have hnd : blocks.Nodup := List.Nodup.of_map Block.blockId (by rw [hids]; exact nodup_range)
  have hsub : blocks ⊆ bs := by
    intro b hb
    obtain ⟨i, -, hi⟩ := forall₂_mem_right hall hb
    exact (hinfo i b hi).1
  refine ⟨(subperm_of_subset hnd hsub).perm_of_length_le ?_, hids⟩
  rw [hlen, ← length_range (n := n), ← hids, length_map]

theorem initializeGlrcStripePlacement_placed (hc : cfg.codeType = .gLRC)
    (h : initializeGlrcStripePlacement cfg topo s stripeId key = some (s', stripe)) :
    ∃ bs, Placed cfg topo (fun i => glrcGroup cfg.k cfg.r cfg.z i) s stripeId key bs s' stripe := by
  unfold initializeGlrcStripePlacement at h
  simp only [ite_none_right_eq_some] at h
  obtain ⟨⟨hlen, hnodes⟩, h⟩ := h
  obtain ⟨⟨t, blocksInfo⟩, hloop, h⟩ := bind_eq_some_iff.mp h
  obtain ⟨blocks, hblocks, h⟩ := bind_eq_some_iff.mp h
  simp only [some.injEq, Prod.mk.injEq] at h
  obtain ⟨rfl, rfl⟩ := h
  set ring := (glrcBuildPlacementGroups cfg.k cfg.r cfg.z).flatten with hring
  -- after position `j` the first `j` blocks of the ring are recorded
  obtain ⟨bs, hp, hids, hinfo⟩ := foldlM_range_some (s := (s, fun _ => none))
    (fun j (q : Coordinator × (ℕ → Option Block)) => ∃ bs,
      PlacedSoFar topo s stripeId (fun b => b = blockInfo cfg
        (fun i => glrcGroup cfg.k cfg.r cfg.z i) stripeId key b.blockId b.map2cluster b.map2node)
        bs q.1 ∧ bs.map Block.blockId = ring.take j ∧
      ∀ i b, q.2 i = some b → b ∈ bs ∧ b.blockId = i) cfg.n
    ⟨[], PlacedSoFar.nil _, rfl, fun i b hb => by cases hb⟩
    (fun j p q hj hp hq => by
      obtain ⟨bs, hp, hids, hinfo⟩ := hp
      obtain ⟨b, hb, u, hup, rfl⟩ := placeGlrcBlock_some hq
      have hlt : j < ring.length := by rwa [hlen]
      refine ⟨bs ++ [b], hp.append (by rw [hb]; rfl) (by rw [hb]; rfl) ?_ hup, ?_, ?_⟩
      · rw [hb]
        refine Topology.mem_nodes.mpr ⟨?_, rfl⟩
        rw [hnodes]
        exact Nat.mod_lt _ (by omega)
      · rw [map_append, hids, take_succ_eq_append_getElem hlt, hb]
        show _ ++ [ring.getD j 0] = _
        rw [getD_eq_getElem _ _ hlt]
      · intro i a ha
        by_cases hi : i = b.blockId
        · simp only [hi, Function.update_self, some.injEq] at ha
          rw [← ha]
          exact ⟨mem_append_right _ mem_cons_self, hi.symm⟩
        · simp only [Function.update_of_ne hi] at ha
          exact ⟨mem_append_left _ (hinfo i a ha).1, (hinfo i a ha).2⟩) hloop
  have hperm : (bs.map Block.blockId).Perm (range cfg.n) := by
    rw [hids, take_of_length_le (le_of_eq hlen)]
    exact placementGroups_perm hlen
  have hbs : bs.length = cfg.n := by
    rw [← length_map Block.blockId, hperm.length_eq, length_range]
  obtain ⟨hblocksPerm, hblocksIds⟩ := blocks_of_mapM hinfo hbs hblocks
  exact ⟨bs, {
    ids := hperm
    form := hp.form
    node_mem := hp.node_mem
    nodup := hp.nodup
    free := hp.free
    state := hp.state
    blocks_perm := hblocksPerm
    blocks_ids := hblocksIds
    stripe_eq := rfl
    cluster := fun hne => absurd hc hne
    ring := fun _ => hnodes }⟩

/-! ## Every code type -/

theorem initializeUnilrcAndAzurelrcStripePlacement_placed
    (h : initializeUnilrcAndAzurelrcStripePlacement cfg topo s stripeId key draws =
      some (s', stripe, rest)) : ∃ group bs, map2group cfg = some group ∧
      Placed cfg topo group s stripeId key bs s' stripe := by
  unfold initializeUnilrcAndAzurelrcStripePlacement at h
  cases hc : cfg.codeType with
  | UniLRC | AzureLRC =>
    rw [hc] at h
    obtain ⟨group, hgroup, h⟩ := bind_eq_some_iff.mp h
    obtain ⟨bs, hbs⟩ := placeByGroups_placed (by rw [hc]; decide) h
    exact ⟨group, bs, hgroup, hbs⟩
  | OptimalLRC | UniformLRC | gLRC =>
    rw [hc] at h
    cases h

theorem initializeStripePlacement_eq (hc : cfg.codeType ≠ .gLRC) (draws : List ℕ) :
    initializeStripePlacement cfg topo s stripeId key draws =
      (map2group cfg).bind fun group => placeByGroups cfg topo group s stripeId key draws := by
  unfold initializeStripePlacement
  cases hcode : cfg.codeType with
  | UniLRC | AzureLRC =>
    unfold initializeUnilrcAndAzurelrcStripePlacement
    rw [hcode]
  | OptimalLRC =>
    unfold initializeOptimalLrcStripePlacement map2group
    simp only [hcode]
    split <;> rfl
  | UniformLRC =>
    unfold initializeUniformLrcStripePlacement map2group
    simp only [hcode]
    rfl
  | gLRC => exact absurd hcode hc

/-- **Main result.** A placement that completes sends every block to a node of its own, in the
cluster of the block, and enters exactly these blocks into the tables. -/
theorem initializeStripePlacement_placed
    (h : initializeStripePlacement cfg topo s stripeId key draws = some (s', stripe, rest)) :
    ∃ group bs, map2group cfg = some group ∧ Placed cfg topo group s stripeId key bs s' stripe := by
  by_cases hc : cfg.codeType = .gLRC
  · unfold initializeStripePlacement at h
    simp only [hc] at h
    obtain ⟨⟨t, stripe'⟩, hp, h⟩ := map_eq_some_iff.mp h
    simp only [Prod.mk.injEq] at h
    obtain ⟨rfl, rfl, -⟩ := h
    obtain ⟨bs, hbs⟩ := initializeGlrcStripePlacement_placed hc hp
    refine ⟨_, bs, ?_, hbs⟩
    unfold map2group
    simp only [hc]
  · rw [initializeStripePlacement_eq hc] at h
    obtain ⟨group, hgroup, h⟩ := bind_eq_some_iff.mp h
    obtain ⟨bs, hbs⟩ := placeByGroups_placed hc h
    exact ⟨group, bs, hgroup, hbs⟩

end

/-! ## Reading a placed stripe -/

section
variable {cfg : SysConfig} {topo : Topology} {group : ℕ → ℤ} {s s' : Coordinator} {stripeId : ℕ}
  {key : String} {bs : List Block} {stripe : Stripe}

section
variable (h : Placed cfg topo group s stripeId key bs s' stripe)
include h

theorem Placed.length_blocks : stripe.blocks.length = cfg.n := by
  rw [← length_map Block.blockId, h.blocks_ids, length_range]

theorem Placed.exists_block
    (hi : i < cfg.n) : ∃ b ∈ bs, stripe.blocks[i]? = some b ∧ b.blockId = i := by
  have hlt : i < stripe.blocks.length := by rwa [h.length_blocks]
  refine ⟨stripe.blocks[i], h.blocks_perm.mem_iff.mp (getElem_mem hlt),
    getElem?_eq_getElem hlt, ?_⟩
  have hid : (stripe.blocks.map Block.blockId)[i]? = some i := by
    rw [h.blocks_ids, getElem?_range hi]
  rw [getElem?_map, getElem?_eq_getElem hlt] at hid
  exact some.inj hid

theorem Placed.blockId_lt (hb : b ∈ bs) : b.blockId < cfg.n :=
  mem_range.mp (h.ids.mem_iff.mp (List.mem_map_of_mem hb))

theorem Placed.eq_of_blockId {a : Block}
    (ha : a ∈ bs) (hb : b ∈ bs) (hid : a.blockId = b.blockId) : a = b :=
  inj_on_of_nodup_map (h.ids.nodup_iff.mpr nodup_range) ha hb hid

theorem Placed.eq_of_node {a : Block}
    (ha : a ∈ bs) (hb : b ∈ bs) (hnode : a.map2node = b.map2node) : a = b :=
  inj_on_of_nodup_map h.nodup ha hb hnode

theorem Placed.map2stripe_eq (hb : b ∈ bs) : b.map2stripe = stripeId :=
  congrArg Block.map2stripe (h.form b hb)

theorem Placed.map2group_eq (hb : b ∈ bs) : b.map2group = group b.blockId :=
  congrArg Block.map2group (h.form b hb)

end

end

end Mlrc
