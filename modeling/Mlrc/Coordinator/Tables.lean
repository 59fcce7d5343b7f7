import Mlrc.Coordinator.Layout

/-!
# The tables of the coordinator

Blocks are recorded in three places: in their stripe, in the cluster that holds them and, as
`stripe id ↦ block id`, in the node that stores them.

* `Coordinator`   the tables; the clusters and nodes themselves are a `Topology`;
* `randomlySelectANode`   drawing until a node has no block of the stripe;
* `recordAll`   a list of blocks entered into the cluster and node tables;
* `recordAll_stripes`, `recordAll_blocks`   what the tables hold afterwards.
-/

namespace Mlrc

open List Function

inductive BlockType where
  | D
  | G
  | L
deriving DecidableEq, Repr

structure Block where
  blockId : ℕ
  blockKey : String
  blockType : BlockType
  blockSize : ℕ
  map2group : ℤ
  map2stripe : ℕ
  map2cluster : ℕ
  map2node : ℕ
  /-- the client that the block belongs to -/
  map2key : String
deriving DecidableEq, Repr

structure Cluster where
  blocks : List Block := []
  stripes : Finset ℕ := ∅
deriving DecidableEq

/-- what changes in a node: the block it stores of each stripe -/
structure Node where
  stripes : ℕ → Option ℤ := fun _ => none

structure Stripe where
  stripeId : ℕ
  k : ℕ
  r : ℕ
  z : ℕ
  objectKeys : List String
  blocks : List Block
  numGroups : ℕ
  groupToBlocks : List (ℤ × List ℕ)
deriving DecidableEq, Repr

structure ObjectInfo where
  objectSize : ℕ := 0
  map2stripe : ℕ := 0
deriving DecidableEq, Repr

structure StripeOffset where
  stripeId : ℕ
  /-- the bytes of the stripe appended so far -/
  offset : ℕ
deriving DecidableEq, Repr

/-- the nodes read by `init_clusterinfo`, numbered from `0` on, and the cluster of each -/
structure Topology where
  nodeNum : ℕ
  nodeCluster : ℕ → ℕ

/-- the `nodes` of a cluster -/
def Topology.nodes (topo : Topology) (clusterId : ℕ) : List ℕ :=
  (range topo.nodeNum).filter fun node => topo.nodeCluster node = clusterId

structure Coordinator where
  curStripeId : ℕ := 0
  clusterTable : ℕ → Cluster := fun _ => {}
  nodeTable : ℕ → Node := fun _ => {}
  stripeTable : ℕ → Option Stripe := fun _ => none
  curOffsetTable : String → Option StripeOffset := fun _ => none
  objectCommitTable : String → Option ObjectInfo := fun _ => none
  objectUpdatingTable : String → Option ObjectInfo := fun _ => none
  stripeDeletingTable : List ℕ := []

/-- the key of the `idx`-th block of a kind; numbers below ten are padded -/
def paddedKey (stripeId : ℕ) (kind : String) (idx : ℕ) : String :=
  toString stripeId ++ kind ++ (if idx < 10 then "0" else "") ++ toString idx

def blockKey (k r stripeId i : ℕ) : String :=
  if i < k then paddedKey stripeId "_D" i
  else if i < k + r then paddedKey stripeId "_G" (i - k)
  else paddedKey stripeId "_L" (i - k - r)

/-- `block_type` of block `i` -/
def blockType (k r i : ℕ) : BlockType :=
  if i < k then .D else if i < k + r then .G else .L

def genAppendKey (stripeId groupId : ℕ) : String := toString stripeId ++ "_" ++ toString groupId

/-- `blocks_info[i]`, once its cluster and node are chosen -/
def blockInfo (cfg : SysConfig) (group : ℕ → ℤ) (stripeId : ℕ) (key : String)
    (i clusterId node : ℕ) : Block where
  blockId := i
  blockKey := blockKey cfg.k cfg.r stripeId i
  blockType := blockType cfg.k cfg.r i
  blockSize := cfg.blockSize
  map2group := group i
  map2stripe := stripeId
  map2cluster := clusterId
  map2node := node
  map2key := key

/-! ## Selecting a node -/

/-- `randomly_select_a_node`: draws until a node of the cluster has no block of the stripe.  `none`
when the draws end before that, or the cluster has no node to draw. -/
def randomlySelectANode (topo : Topology) (s : Coordinator) (clusterId stripeId : ℕ) :
    List ℕ → Option (ℕ × List ℕ)
  | [] => none
  | d :: draws =>
    match (topo.nodes clusterId)[d % (topo.nodes clusterId).length]? with
    | none => none
    | some node =>
      if (s.nodeTable node).stripes stripeId = none then some (node, draws)
      else randomlySelectANode topo s clusterId stripeId draws

/-- a node of the cluster without a block of the stripe: what the rejection loop waits for, and by
`randomlySelectANode_some` all that it returns -/
def FreeNode (topo : Topology) (s : Coordinator) (clusterId stripeId : ℕ) : Prop :=
  ∃ node ∈ topo.nodes clusterId, (s.nodeTable node).stripes stripeId = none

section
variable {topo : Topology} {s : Coordinator} {clusterId stripeId : ℕ}

theorem Topology.mem_nodes {node : ℕ} :
    node ∈ topo.nodes clusterId ↔ node < topo.nodeNum ∧ topo.nodeCluster node = clusterId := by
  unfold Topology.nodes
  rw [mem_filter, mem_range, decide_eq_true_eq]

theorem Topology.nodes_nodup (topo : Topology) (clusterId : ℕ) : (topo.nodes clusterId).Nodup :=
  List.Nodup.filter _ nodup_range

theorem randomlySelectANode_some {draws rest : List ℕ} {node : ℕ}
    (h : randomlySelectANode topo s clusterId stripeId draws = some (node, rest)) :
    node ∈ topo.nodes clusterId ∧ (s.nodeTable node).stripes stripeId = none := by
  induction draws with
  | nil => cases h
  | cons d draws ih =>
    unfold randomlySelectANode at h
    cases hd : (topo.nodes clusterId)[d % (topo.nodes clusterId).length]? with
    | none => simp [hd] at h
    | some drawn =>
      simp only [hd] at h
      by_cases hfree : (s.nodeTable drawn).stripes stripeId = none
      · rw [if_pos hfree, Option.some.injEq, Prod.mk.injEq] at h
        obtain ⟨rfl, -⟩ := h
        exact ⟨mem_of_getElem? hd, hfree⟩
      · rw [if_neg hfree] at h
        exact ih h

theorem FreeNode.draw (h : FreeNode topo s clusterId stripeId) :
    ∃ d node, randomlySelectANode topo s clusterId stripeId [d] = some (node, []) := by
  obtain ⟨node, hmem, hfree⟩ := h
  obtain ⟨d, hd, hnode⟩ := mem_iff_getElem.mp hmem
  refine ⟨d, node, ?_⟩
  unfold randomlySelectANode
  rw [Nat.mod_eq_of_lt hd, getElem?_eq_getElem hd, hnode]
  simp only
  rw [if_pos hfree]

end

/-! ## Recording blocks -/

/-- `stripes[stripe_id] = index` -/
def Node.set (node : Node) (stripeId : ℕ) (index : ℤ) : Node where
  stripes := update node.stripes stripeId (some index)

/-- `blocks.push_back` and `stripes.insert` -/
def Cluster.add (cluster : Cluster) (b : Block) : Cluster where
  blocks := cluster.blocks ++ [b]
  stripes := insert b.map2stripe cluster.stripes

/-- `update_stripe_info_in_node(node, stripe, index)`; `none` is its failed assertion -/
def updateStripeInfoInNode (s : Coordinator) (node stripeId index : ℕ) : Option Coordinator :=
  if (s.nodeTable node).stripes stripeId = none then
    some { s with
      nodeTable := update s.nodeTable node ((s.nodeTable node).set stripeId index) }
  else none

/-- the block enters the tables of its cluster -/
def Coordinator.addBlock (s : Coordinator) (b : Block) : Coordinator :=
  { s with
    clusterTable := update s.clusterTable b.map2cluster
      ((s.clusterTable b.map2cluster).add b) }

/-- one block entered into the node and the cluster table -/
def Coordinator.record (s : Coordinator) (b : Block) : Coordinator :=
  Coordinator.addBlock { s with
    nodeTable := update s.nodeTable b.map2node
      ((s.nodeTable b.map2node).set b.map2stripe b.blockId) } b

theorem Coordinator.record_clusterTable (s : Coordinator) (b : Block) (c : ℕ) :
    (s.record b).clusterTable c =
      if c = b.map2cluster then (s.clusterTable c).add b else s.clusterTable c := by
  show update s.clusterTable b.map2cluster _ c = _
  rw [update_apply]
  split
  · next h => rw [h]
  · rfl

theorem Coordinator.record_nodeTable (s : Coordinator) (b : Block) (node : ℕ) :
    (s.record b).nodeTable node =
      if node = b.map2node then (s.nodeTable node).set b.map2stripe b.blockId
      else s.nodeTable node := by
  show update s.nodeTable b.map2node _ node = _
  rw [update_apply]
  split
  · next h => rw [h]
  · rfl

theorem updateStripeInfoInNode_addBlock {s t : Coordinator} {b : Block}
    (h : updateStripeInfoInNode s b.map2node b.map2stripe b.blockId = some t) :
    (s.nodeTable b.map2node).stripes b.map2stripe = none ∧ t.addBlock b = s.record b := by
  unfold updateStripeInfoInNode at h
  rw [Option.ite_none_right_eq_some, Option.some.injEq] at h
  obtain ⟨hfree, rfl⟩ := h
  exact ⟨hfree, rfl⟩

def Coordinator.recordAll (s : Coordinator) (bs : List Block) : Coordinator := bs.foldl .record s

section
variable {s : Coordinator} {bs : List Block}

theorem Coordinator.recordAll_append (s : Coordinator) (bs : List Block) (b : Block) :
    s.recordAll (bs ++ [b]) = (s.recordAll bs).record b := by
  unfold recordAll
  rw [foldl_append]
  rfl

theorem Coordinator.recordAll_rest (s : Coordinator) (bs : List Block) : s.recordAll bs = { s with
      clusterTable := (s.recordAll bs).clusterTable
      nodeTable := (s.recordAll bs).nodeTable } := by
  induction bs using reverseRecOn with
  | nil => rfl
  | append_singleton bs b ih =>
    rw [recordAll_append, ih]
    rfl

theorem Coordinator.recordAll_blocks (s : Coordinator) (bs : List Block) (c : ℕ) :
    ((s.recordAll bs).clusterTable c).blocks =
      (s.clusterTable c).blocks ++ bs.filter fun b => b.map2cluster = c := by
  induction bs using reverseRecOn with
  | nil => exact (append_nil _).symm
  | append_singleton bs b ih =>
    rw [recordAll_append, record_clusterTable, filter_append, filter_singleton,
      ← append_assoc, ← ih]
    by_cases h : c = b.map2cluster
    · rw [if_pos h, decide_eq_true h.symm]
      rfl
    · rw [if_neg h, decide_eq_false (Ne.symm h)]
      exact (append_nil _).symm

theorem Coordinator.recordAll_stripes_of_not {node t : ℕ}
    (h : ∀ b ∈ bs, b.map2node = node → b.map2stripe ≠ t) :
    ((s.recordAll bs).nodeTable node).stripes t = (s.nodeTable node).stripes t := by
  induction bs using reverseRecOn with
  | nil => rfl
  | append_singleton bs b ih =>
    have hb := h b (mem_append_right _ mem_cons_self)
    rw [recordAll_append, record_nodeTable, ← ih fun b' hb' => h b' (mem_append_left _ hb')]
    by_cases hn : node = b.map2node
    · rw [if_pos hn]
      exact update_of_ne (Ne.symm (hb hn.symm)) ..
    · rw [if_neg hn]

theorem Coordinator.recordAll_stripes {b : Block} (hnd : (bs.map Block.map2node).Nodup)
    (hb : b ∈ bs) :
    ((s.recordAll bs).nodeTable b.map2node).stripes b.map2stripe = some (b.blockId : ℤ) := by
  induction bs using reverseRecOn with
  | nil => cases hb
  | append_singleton bs a ih =>
    rw [map_append, map_singleton, nodup_append] at hnd
    rw [recordAll_append, record_nodeTable]
    rcases mem_append.mp hb with hmem | hmem
    · have hne : b.map2node ≠ a.map2node :=
        hnd.2.2 _ (mem_map_of_mem hmem) _ mem_cons_self
      rw [if_neg hne]
      exact ih hnd.1 hmem
    · rw [mem_singleton] at hmem
      rw [hmem, if_pos rfl]
      exact update_self ..

end

end Mlrc
