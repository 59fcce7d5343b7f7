import Mlrc.Coordinator.Upload
import Mlrc.Coordinator.Feasible
import Mlrc.Coordinator.RecoveryGroups
import Mlrc.Data.Run

/-!
# Recovering single blocks

`recovery_one_block` asks the proxies of the contacted groups for helper blocks and has the failed
block rebuilt on a node that it draws.  The tables of the coordinator are only read.

* `recoveryCluster`   the cluster in which the replacement node is drawn;
* `recoveryOneBlock`   the requests of one recovery;
* `fullNodeRecovery`   every block of a node, one after the other;
* `StorageEvent`, `storageStep`   sets and recoveries, with the node that holds each block;
* `Recorded`, `Recorded.run`   what the tables record in every state reached.
-/

namespace Mlrc

open List Option Function

/-! ## The requests -/

structure Helper where
  node : ℕ
  blockKey : String
  blockId : ℕ
deriving DecidableEq, Repr

def Block.helper (b : Block) : Helper where
  node := b.map2node
  blockKey := b.blockKey
  blockId := b.blockId

/-- `DegradedReadRequest`; proxies are named by their clusters -/
structure DegradedReadRequest where
  proxy : ℕ
  client : ℕ
  failedBlockId : ℕ
  failedBlockKey : String
  helpers : List Helper
deriving DecidableEq, Repr

structure RecoveryRequest where
  proxy : ℕ
  failedBlockId : ℕ
  failedBlockKey : String
  replacedNode : ℕ
  crossRackNum : ℤ
  proxies : List ℕ
  helpers : List Helper
deriving DecidableEq, Repr

/-- `get_cluster_id_by_group_id`; `none` for a group without blocks -/
def getClusterIdByGroupId (stripe : Stripe) (groupId : ℤ) : Option ℕ :=
  (bucket stripe.groupToBlocks groupId).head?.bind fun b =>
    (stripe.blocks[b]?).map Block.map2cluster

/-- `get_recovery_group_ids` with the parameters of the configuration -/
def recoveryGroupIds (cfg : SysConfig) (failed : ℕ) : List ℕ :=
  getRecoveryGroupIds cfg.codeType cfg.k cfg.r cfg.z failed

/-- where the replacement node is drawn: in the cluster of the only contacted group, or else of the
failed block's group, after the proxies of all contacted groups have been looked up -/
def recoveryCluster (cfg : SysConfig) (stripe : Stripe) (failed : ℕ) : Option ℕ :=
  match recoveryGroupIds cfg failed with
  | [groupId] => getClusterIdByGroupId stripe groupId
  | groupIds => do
    let failedBlock ← stripe.blocks[failed]?
    let clusterId ← getClusterIdByGroupId stripe failedBlock.map2group
    let _ ← groupIds.mapM fun g => getClusterIdByGroupId stripe g
    some clusterId

/-- the helpers among `blockIds`; AzureLRC stops after `k / z` of them -/
def helpers (cfg : SysConfig) (stripe : Stripe) (blockIds : List ℕ) : Option (List Helper) :=
  (if cfg.codeType = .AzureLRC then blockIds.take (cfg.k / cfg.z) else blockIds).mapM fun b =>
    (stripe.blocks[b]?).map Block.helper

/-- the request to a contacted group other than the failed block's own -/
def degradedReadRequest (cfg : SysConfig) (stripe : Stripe) (failed : ℕ) (failedBlock : Block)
    (client g : ℕ) : Option DegradedReadRequest := do
  let proxy ← getClusterIdByGroupId stripe g
  let helpers ← helpers cfg stripe <| (stripe.group g).filter fun b =>
    ¬((cfg.codeType = .AzureLRC ∧ cfg.k + cfg.r ≤ b) ∨ b = failed)
  some {
    proxy := proxy
    client := client
    failedBlockId := failed
    failedBlockKey := failedBlock.blockKey
    helpers := helpers }

/-- the requests of one recovery, once the replacement node is drawn in cluster `clusterId`; only
`recovery_one_block` lists the other proxies -/
def recoveryRequests (listProxies : Bool) (cfg : SysConfig) (stripe : Stripe) (failed : ℕ)
    (failedBlock : Block) (clusterId node : ℕ) :
    Option (List DegradedReadRequest × RecoveryRequest) :=
  match recoveryGroupIds cfg failed with
  | [groupId] => do
    let helpers ← ((stripe.group groupId).filter (· ≠ failed)).mapM fun b =>
      (stripe.blocks[b]?).map Block.helper
    some ([], {
      proxy := clusterId
      failedBlockId := failed
      failedBlockKey := failedBlock.blockKey
      replacedNode := node
      crossRackNum := 0
      proxies := []
      helpers := helpers })
  | groupIds => do
    let others := groupIds.filter fun g : ℕ => (g : ℤ) ≠ failedBlock.map2group
    let reads ← others.mapM (degradedReadRequest cfg stripe failed failedBlock clusterId)
    let proxies ← others.mapM fun g => getClusterIdByGroupId stripe g
    let helpers ← helpers cfg stripe <|
      (bucket stripe.groupToBlocks failedBlock.map2group).filter (· ≠ failed)
    some (reads, {
      proxy := clusterId
      failedBlockId := failed
      failedBlockKey := failedBlock.blockKey
      replacedNode := node
      crossRackNum := groupIds.length - 1
      proxies := if listProxies then proxies else []
      helpers := helpers })

/-- the two recoveries of a block: the requests, and the draws that are left -/
def recoverBlock (listProxies : Bool) (cfg : SysConfig) (topo : Topology) (s : Coordinator)
    (stripeId failed : ℕ) (draws : List ℕ) :
    Option (List DegradedReadRequest × RecoveryRequest × List ℕ) := do
  let stripe ← s.stripeTable stripeId
  let failedBlock ← stripe.blocks[failed]?
  let clusterId ← recoveryCluster cfg stripe failed
  let (node, draws) ← randomlySelectANode topo s clusterId stripeId draws
  let (reads, recovery) ← recoveryRequests listProxies cfg stripe failed failedBlock clusterId node
  some (reads, recovery, draws)

def recoveryOneBlock := recoverBlock true

def recoveryOneBlockBreakdown := recoverBlock false

/-! ## Full node recovery -/

/-- the blocks recorded on a node, in the order of the stripe table -/
def blocksOnNode (s : Coordinator) (node : ℕ) : List (ℕ × ℕ) :=
  (range s.curStripeId).flatMap fun stripeId =>
    match s.stripeTable stripeId with
    | none => []
    | some stripe => (stripe.blocks.filter (·.map2node = node)).map fun b => (stripeId, b.blockId)

/-- `fullNodeRecovery`: the recovery requests of the blocks of a node -/
def fullNodeRecovery (cfg : SysConfig) (topo : Topology) (s : Coordinator) (node : ℕ)
    (draws : List ℕ) : Option (List (ℕ × RecoveryRequest) × List ℕ) :=
  (blocksOnNode s node).foldlM (fun p block => do
    let (_, recovery, draws) ← recoveryOneBlock cfg topo s block.1 block.2 p.2
    some (p.1 ++ [(block.1, recovery)], draws)) ([], draws)

/-! ## Sets and recoveries -/

/-- the coordinator, and the node with the valid copy of each block of each stripe -/
@[ext]
structure System where
  coord : Coordinator := {}
  holder : ℕ → ℕ → Option ℕ := fun _ _ => none

/-- sets whose blocks reach their nodes, and recoveries whose blocks are rebuilt on the nodes that
were drawn -/
inductive StorageEvent where
  | set (clientId : String) (sizeBytes : ℕ) (draws : List ℕ) (ready : ℕ → Bool)
  | recoveryOneBlock (stripeId failed : ℕ) (draws : List ℕ)
  | fullNodeRecovery (node : ℕ) (draws : List ℕ)

/-- the blocks of a new stripe are where the coordinator has put them -/
def storeStripe (holder : ℕ → ℕ → Option ℕ) (stripe : Stripe) : ℕ → ℕ → Option ℕ :=
  update holder stripe.stripeId fun i => (stripe.blocks[i]?).map Block.map2node

/-- the failed block is on the replacement node now -/
def moveBlock (holder : ℕ → ℕ → Option ℕ) (stripeId : ℕ) (recovery : RecoveryRequest) :
    ℕ → ℕ → Option ℕ :=
  update holder stripeId
    (update (holder stripeId) recovery.failedBlockId (some recovery.replacedNode))

/-- one event; `none` when it does not end or does not succeed -/
def storageStep (cfg : SysConfig) (topo : Topology) : StorageEvent → System → Option System
  | .set clientId sizeBytes draws ready, sys => do
    let (s, reply) ← uploadSetValue cfg topo sys.coord clientId sizeBytes draws ready
    if reply.status = .OK then
      let stripe ← s.stripeTable sys.coord.curStripeId
      some { coord := s, holder := storeStripe sys.holder stripe }
    else none
  | .recoveryOneBlock stripeId failed draws, sys => do
    let (_, recovery, _) ← recoveryOneBlock cfg topo sys.coord stripeId failed draws
    some { sys with holder := moveBlock sys.holder stripeId recovery }
  | .fullNodeRecovery node draws, sys => do
    let (recoveries, _) ← fullNodeRecovery cfg topo sys.coord node draws
    some { sys with holder := recoveries.foldl (fun h p => moveBlock h p.1 p.2) sys.holder }

/-! ## What a recovery does -/

section
variable {cfg : SysConfig} {topo : Topology} {s s' : Coordinator} {stripeId failed : ℕ}

theorem recoverBlock_some {listProxies : Bool} {draws rest : List ℕ}
    {reads : List DegradedReadRequest} {recovery : RecoveryRequest}
    (h : recoverBlock listProxies cfg topo s stripeId failed draws = some (reads, recovery, rest)) :
    recovery.failedBlockId = failed ∧ s.stripeTable stripeId ≠ none ∧
      (s.nodeTable recovery.replacedNode).stripes stripeId = none := by
  obtain ⟨stripe, hstripe, h⟩ := bind_eq_some_iff.mp h
  obtain ⟨failedBlock, -, h⟩ := bind_eq_some_iff.mp h
  obtain ⟨clusterId, -, h⟩ := bind_eq_some_iff.mp h
  obtain ⟨⟨node, draws'⟩, hsel, h⟩ := bind_eq_some_iff.mp h
  obtain ⟨⟨reads', recovery'⟩, hreq, h⟩ := bind_eq_some_iff.mp h
  simp only [some.injEq, Prod.mk.injEq] at h
  obtain ⟨-, rfl, -⟩ := h
  have hfields : recovery'.failedBlockId = failed ∧ recovery'.replacedNode = node := by
    unfold recoveryRequests at hreq
    split at hreq
    · obtain ⟨helpers, -, hreq⟩ := bind_eq_some_iff.mp hreq
      cases hreq
      exact ⟨rfl, rfl⟩
    · obtain ⟨readList, -, hreq⟩ := bind_eq_some_iff.mp hreq
      obtain ⟨proxies, -, hreq⟩ := bind_eq_some_iff.mp hreq
      obtain ⟨helpers, -, hreq⟩ := bind_eq_some_iff.mp hreq
      cases hreq
      exact ⟨rfl, rfl⟩
  refine ⟨hfields.1, ?_, ?_⟩
  · rw [hstripe]
    exact some_ne_none _
  · rw [hfields.2]
    exact (randomlySelectANode_some hsel).2

theorem fullNodeRecovery_some {node : ℕ} {draws rest : List ℕ}
    {recoveries : List (ℕ × RecoveryRequest)}
    (h : fullNodeRecovery cfg topo s node draws = some (recoveries, rest)) :
    recoveries.map (fun p => (p.1, p.2.failedBlockId)) = blocksOnNode s node ∧
      ∀ p ∈ recoveries, s.stripeTable p.1 ≠ none ∧
        (s.nodeTable p.2.replacedNode).stripes p.1 = none := by
  unfold fullNodeRecovery at h
  generalize blocksOnNode s node = blocks at h ⊢
  -- the induction carries the recoveries made before
  have hloop : ∀ (made : List (ℕ × RecoveryRequest)) (draws : List ℕ),
      blocks.foldlM (fun p block => do
        let (_, recovery, draws) ← recoveryOneBlock cfg topo s block.1 block.2 p.2
        some (p.1 ++ [(block.1, recovery)], draws)) (made, draws) = some (recoveries, rest) →
      ∃ new, recoveries = made ++ new ∧
        new.map (fun p => (p.1, p.2.failedBlockId)) = blocks ∧
        ∀ p ∈ new, s.stripeTable p.1 ≠ none ∧
          (s.nodeTable p.2.replacedNode).stripes p.1 = none := by
    clear h
    induction blocks with
    | nil =>
      intro made draws h
      cases h
      exact ⟨[], (append_nil _).symm, rfl, forall_mem_nil _⟩
    | cons block blocks ih =>
      intro made draws h
      rw [foldlM_cons] at h
      obtain ⟨q, hone, h⟩ := bind_eq_some_iff.mp h
      obtain ⟨⟨reads, recovery, draws'⟩, hrec, hone⟩ := bind_eq_some_iff.mp hone
      cases hone
      obtain ⟨new, hnew, hmap, hfree⟩ := ih _ _ h
      obtain ⟨hfailed, hmoved⟩ := recoverBlock_some hrec
      refine ⟨(block.1, recovery) :: new, ?_, ?_, ?_⟩
      · rw [hnew, append_assoc, singleton_append]
      · rw [map_cons, hmap, hfailed]
      · exact forall_mem_cons.mpr ⟨hmoved, hfree⟩
  obtain ⟨new, hnew, hmap, hfree⟩ := hloop [] draws h
  rw [hnew, nil_append]
  exact ⟨hmap, hfree⟩

end

/-! ## What the tables record -/

section
variable {cfg : SysConfig} {topo : Topology} {sys sys' : System}

structure NewStripe (cfg : SysConfig) (topo : Topology) (clientId : String) (group : ℕ → ℤ)
    (bs : List Block) (t : Coordinator) (stripe : Stripe) (sys sys' : System) : Prop where
  group_eq : map2group cfg = some group
  placeable : Placeable cfg group
  placed : Placed cfg topo group { sys.coord with curStripeId := sys.coord.curStripeId + 1 }
    sys.coord.curStripeId clientId bs t stripe
  node : sys'.coord.nodeTable = t.nodeTable
  next : sys'.coord.curStripeId = sys.coord.curStripeId + 1
  table : sys'.coord.stripeTable =
    update sys.coord.stripeTable sys.coord.curStripeId (some stripe)
  holder : sys'.holder = storeStripe sys.holder stripe

/-- what recoveries have done: blocks have moved to nodes without an entry for their stripe -/
structure Rebuilt (recoveries : List (ℕ × RecoveryRequest)) (sys sys' : System) : Prop where
  coord : sys'.coord = sys.coord
  free : ∀ p ∈ recoveries, sys.coord.stripeTable p.1 ≠ none ∧
    (sys.coord.nodeTable p.2.replacedNode).stripes p.1 = none
  holder : sys'.holder = recoveries.foldl (fun h p => moveBlock h p.1 p.2) sys.holder

theorem storageStep_set {clientId : String} {sizeBytes : ℕ} {draws : List ℕ} {ready : ℕ → Bool}
    (h : storageStep cfg topo (.set clientId sizeBytes draws ready) sys = some sys') :
    ∃ group bs t stripe, NewStripe cfg topo clientId group bs t stripe sys sys' := by
  obtain ⟨⟨s, reply⟩, hset, h⟩ := bind_eq_some_iff.mp h
  simp only [ite_none_right_eq_some] at h
  obtain ⟨hok, h⟩ := h
  obtain ⟨group, bs, t, stripe, plans, hdone⟩ := uploadSetValue_ok hset hok
  rw [hdone.table, update_self, bind_eq_bind, bind_some,
    some.injEq] at h
  subst h
  exact ⟨group, bs, t, stripe, hdone.group_eq, hdone.placed.placeable hdone.plans_eq, hdone.placed,
    hdone.node, hdone.next, hdone.table, rfl⟩

theorem storageStep_recoveryOneBlock {stripeId failed : ℕ} {draws : List ℕ}
    (h : storageStep cfg topo (.recoveryOneBlock stripeId failed draws) sys = some sys') :
    ∃ recovery, Rebuilt [(stripeId, recovery)] sys sys' := by
  obtain ⟨⟨reads, recovery, rest⟩, hrec, h⟩ := bind_eq_some_iff.mp h
  cases h
  refine ⟨recovery, rfl, ?_, rfl⟩
  exact forall_mem_singleton.mpr (recoverBlock_some hrec).2

theorem storageStep_fullNodeRecovery {node : ℕ} {draws : List ℕ}
    (h : storageStep cfg topo (.fullNodeRecovery node draws) sys = some sys') :
    ∃ recoveries, Rebuilt recoveries sys sys' ∧
      recoveries.map (fun p => (p.1, p.2.failedBlockId)) = blocksOnNode sys.coord node := by
  obtain ⟨⟨recoveries, rest⟩, hrec, h⟩ := bind_eq_some_iff.mp h
  cases h
  obtain ⟨hmap, hfree⟩ := fullNodeRecovery_some hrec
  exact ⟨recoveries, ⟨rfl, hfree, rfl⟩, hmap⟩

/-- a stripe is recorded as its placement left it -/
def PlacedIn (cfg : SysConfig) (topo : Topology) (c : Coordinator) (stripeId : ℕ) (stripe : Stripe) :
    Prop :=
  ∃ group key bs s t, map2group cfg = some group ∧ Placeable cfg group ∧ FreshIn s stripeId ∧
    Placed cfg topo group s stripeId key bs t stripe ∧
    ∀ node, (c.nodeTable node).stripes stripeId = (t.nodeTable node).stripes stripeId

/-- what holds in every state that sets and recoveries reach -/
structure Recorded (cfg : SysConfig) (topo : Topology) (c : Coordinator) : Prop where
  fresh : ∀ stripeId, c.curStripeId ≤ stripeId → FreshIn c stripeId
  bound : ∀ stripeId, c.stripeTable stripeId ≠ none → stripeId < c.curStripeId
  placed : ∀ stripeId stripe, c.stripeTable stripeId = some stripe →
    PlacedIn cfg topo c stripeId stripe

section
variable {clientId : String} {group : ℕ → ℤ} {bs : List Block} {t : Coordinator} {stripe : Stripe}

theorem NewStripe.entry_of_ne (h : NewStripe cfg topo clientId group bs t stripe sys sys')
    {stripeId : ℕ} (hne : stripeId ≠ sys.coord.curStripeId) (node : ℕ) :
    (sys'.coord.nodeTable node).stripes stripeId = (sys.coord.nodeTable node).stripes stripeId := by
  rw [h.node, h.placed.state]
  apply Coordinator.recordAll_stripes_of_not
  intro b hb _
  rw [h.placed.map2stripe_eq hb]
  exact Ne.symm hne

theorem NewStripe.recorded (h : NewStripe cfg topo clientId group bs t stripe sys sys')
    (hrec : Recorded cfg topo sys.coord) : Recorded cfg topo sys'.coord := by
  refine ⟨fun stripeId hle => ?_, fun stripeId hsome => ?_, fun stripeId stripe' hstripe => ?_⟩
  · rw [h.next] at hle
    intro node
    rw [h.entry_of_ne (by omega)]
    exact hrec.fresh stripeId (by omega) node
  · rw [h.table] at hsome
    rw [h.next]
    by_cases heq : stripeId = sys.coord.curStripeId
    · omega
    · rw [update_of_ne heq] at hsome
      exact Nat.lt_succ_of_lt (hrec.bound stripeId hsome)
  · rw [h.table] at hstripe
    by_cases heq : stripeId = sys.coord.curStripeId
    · subst heq
      rw [update_self, some.injEq] at hstripe
      subst hstripe
      refine ⟨group, clientId, bs, _, t, h.group_eq, h.placeable, ?_, h.placed, fun node => ?_⟩
      · exact hrec.fresh _ le_rfl
      · rw [h.node]
    · rw [update_of_ne heq] at hstripe
      obtain ⟨group', key, bs', s, t', hg, hplaceable, hfresh, hp, hentry⟩ :=
        hrec.placed stripeId stripe' hstripe
      refine ⟨group', key, bs', s, t', hg, hplaceable, hfresh, hp, fun node => ?_⟩
      rw [h.entry_of_ne heq, hentry]

end

theorem Recorded.init : Recorded cfg topo {} :=
  ⟨fun _ _ _ => rfl, fun _ h => absurd rfl h, fun _ _ h => nomatch h⟩

theorem Recorded.step {e : StorageEvent} (hrec : Recorded cfg topo sys.coord)
    (h : storageStep cfg topo e sys = some sys') : Recorded cfg topo sys'.coord := by
  cases e with
  | set clientId sizeBytes draws ready =>
    obtain ⟨group, bs, t, stripe, hnew⟩ := storageStep_set h
    exact hnew.recorded hrec
  | recoveryOneBlock stripeId failed draws =>
    obtain ⟨recovery, hreb⟩ := storageStep_recoveryOneBlock h
    rw [hreb.coord]
    exact hrec
  | fullNodeRecovery node draws =>
    obtain ⟨recoveries, hreb, -⟩ := storageStep_fullNodeRecovery h
    rw [hreb.coord]
    exact hrec

theorem Recorded.run {es : List StorageEvent} (h : Mlrc.run (storageStep cfg topo) es {} = some sys) :
    Recorded cfg topo sys.coord :=
  run_invariant (I := fun sys => Recorded cfg topo sys.coord)
    (fun _ _ _ hrec h => hrec.step h) Recorded.init h

end

end Mlrc
