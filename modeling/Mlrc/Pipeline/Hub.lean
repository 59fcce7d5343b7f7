import Mlrc.Pipeline.LocalDirect

/-!
# Hub chains

The hub listens once for every hub chain, adds its own block where it ends the chain, and keeps one
right-hand side per equation.

* `hubRequest`   what the coordinator sends to the hub;
* `hubListener`   the right-hand sides a listener stores;
* `hubSystem_nonsing`   the failed blocks and equations left to the hub are a solvable system;
* `hubStart_ok`   the hub finds its inverse.
-/

namespace Mlrc

open Finset List

/-! ## The request -/

/-- the fields of a recovery request that the hub reads -/
structure HubRequest where
  exchangeEpoch : ℕ
  shardCount : ℕ
  shardGlobalBegin : ℕ
  globalShardCount : ℕ
  hubProxyIp : String
  hubProxyPort : ℕ
  hubBlockKey : String
  hubDatanodeIp : String
  hubDatanodePort : ℕ
  failedBlockIds : List ℕ
  failedBlockKeys : List String
  replacedNodeIps : List String
  replacedNodePorts : List ℕ
  selectedEquationIndices : List ℕ
  hubChainEqSlots : List ℕ
  hubIsChainTailFlags : List Bool
  hubChainEquationIsLocal : List Bool
  hubChainLocalOnlyFlags : List Bool
  hubChainHubCoefs : List UInt8
  hubListenerPorts : List ℕ
deriving DecidableEq, Repr

/-- the failed blocks that local-direct chains repair -/
def localDirectFailed (plan : GlrcPipelinePlan) : List ℕ :=
  plan.localDirectChains.filterMap (·.localDirectFailedBlockId)

def hubFailed (plan : GlrcPipelinePlan) (failed : List ℕ) : List ℕ :=
  failed.filter fun b => b ∉ localDirectFailed plan

/-- the coefficient of the hub at the end of a chain, 0 when it is not there -/
def chainHubCoef (chain : GlrcPipelineChainPlan) : UInt8 :=
  if chain.hubIsChainTail then (chain.hops.getLast?.map (·.coef)).getD 0 else 0

/-- the request with the role `HUB`; `lookup` also gives the keys and nodes of the failed blocks -/
def hubRequest (session : PipelineSession) (z : ℕ) (plan : GlrcPipelinePlan) (failed : List ℕ)
    (lookup : List GlrcPipelineNodeLookup) (ports : ℕ → GlrcPipelineChainPorts) : HubRequest where
  exchangeEpoch := plan.exchangeEpoch
  shardCount := session.localShardCount
  shardGlobalBegin := session.globalShardBegin
  globalShardCount := if 0 < session.globalShardBegin ∨
    session.localShardCount ≠ session.globalShardCount then session.globalShardCount else 0
  hubProxyIp := plan.hubProxyIp
  hubProxyPort := plan.hubProxyPort
  hubBlockKey := plan.hubBlockKey
  hubDatanodeIp := plan.hubDatanodeIp
  hubDatanodePort := plan.hubDatanodePort
  failedBlockIds := hubFailed plan failed
  failedBlockKeys := (hubFailed plan failed).map fun b => (lookup.getD b {}).blockKey
  replacedNodeIps := (hubFailed plan failed).map fun b => (lookup.getD b {}).datanodeIp
  replacedNodePorts := (hubFailed plan failed).map fun b => (lookup.getD b {}).datanodePort
  selectedEquationIndices := plan.hubChains.map (·.equationIndex)
  hubChainEqSlots := plan.hubChains.map (·.eqSlot)
  hubIsChainTailFlags := plan.hubChains.map (·.hubIsChainTail)
  hubChainEquationIsLocal := plan.hubChains.map fun c => decide (c.equationIndex < z)
  hubChainLocalOnlyFlags := plan.hubChains.map fun _ => false
  hubChainHubCoefs := plan.hubChains.map chainHubCoef
  hubListenerPorts := plan.hubChains.map fun c => (ports c.chainId).hubListenPort

def resolveHubListenerPort (cfg : Config) (req : HubRequest) (ci eqSlot : ℕ) : ℕ :=
  if 0 < req.hubListenerPorts.getD ci 0 then req.hubListenerPorts.getD ci 0
  else pipelineHubListenPort cfg req.hubProxyPort req.exchangeEpoch eqSlot

def HubRequest.view (cfg : Config) (req : HubRequest) : PipelineShardView :=
  resolvePipelineShardView cfg req.shardCount req.shardGlobalBegin req.globalShardCount

/-- the start of `glrcIlpPipelineHubRecovery`, up to the inverse for its failed blocks and equations -/
def hubStart (cfg : Config) (req : HubRequest) : Except PipelineError (Mat UInt8) :=
  let f := req.failedBlockIds.length
  if f = 0 ∨ !(req.view cfg).validGeometry cfg.blockSize then
    .error (.message "invalid pipeline hub geometry")
  else if req.hubChainEqSlots = [] then .error (.message "pipeline hub missing eq_slot metadata")
  else if req.selectedEquationIndices.length < f then .error .badIndex
  else
    match glrcIlpPrepareInverse cfg.k cfg.r cfg.z req.failedBlockIds
      (req.selectedEquationIndices.take f) with
    | none => .error (.message "pipeline hub inverse prepare failed")
    | some hubDecodeInverse => .ok hubDecodeInverse

/-! ## Listeners -/

structure HubListenCtx where
  eqSlot : ℕ
  hubIsTail : Bool
  localOnly : Bool
  hubCoef : UInt8
  eqCodec : GlrcPipelineEqCodec
deriving DecidableEq, Repr

def HubRequest.ctx (req : HubRequest) (ci : ℕ) : HubListenCtx where
  eqSlot := req.hubChainEqSlots.getD ci 0
  hubIsTail := req.hubIsChainTailFlags.getD ci false
  localOnly := req.hubChainLocalOnlyFlags.getD ci false
  hubCoef := req.hubChainHubCoefs.getD ci 0
  eqCodec := if req.hubChainEquationIsLocal.getD ci false then .LOCAL_LINEAR else .GLOBAL_CAUCHY

def HubListenCtx.needsTailLocal (ctx : HubListenCtx) : Bool := ctx.hubIsTail && ctx.hubCoef != 0

/-- `finalize_hub_shard`: the stored right-hand side of a received shard -/
def finalizeHubShard (ctx : HubListenCtx) (hubStream : Option (List UInt8)) (shardCount stripeLen : ℕ)
    (shard : ℕ) (payload : List UInt8) : Except PipelineError (List UInt8) :=
  if shard < shardCount ∧ payload.length = stripeLen then
    if ctx.needsTailLocal then
      match hubStream.bind fun stream => readDatanodeStreamShard stream shard stripeLen with
      | none => .error (.message "hub tail shared local read failed")
      | some bytes => .ok (glrcPipelineAccumulateRange payload bytes ctx.hubCoef ctx.eqCodec)
    else .ok payload
  else .error (.message "hub shard mismatch")

def hubListenLoop (ctx : HubListenCtx) (hubStream : Option (List UInt8)) (shardCount stripeLen : ℕ) :
    ℕ → List (Option (List UInt8)) → List PipelineFrame →
      Except PipelineError (List (Option (List UInt8)))
  | _, _, [] => .error (.message "hub recv frame failed: ")
  | received, rhs, .END _ count :: _ =>
    if count = received then .ok rhs else .error (.message "hub stream shard count mismatch")
  | received, rhs, .SHARD _ shard payload :: rest => do
    let stored ← finalizeHubShard ctx hubStream shardCount stripeLen shard payload
    hubListenLoop ctx hubStream shardCount stripeLen (received + 1) (rhs.set shard (some stored)) rest

/-- the part of its own block that the hub streams from its datanode -/
def hubStream (cfg : Config) (disk : Datanodes) (req : HubRequest) : Option (List UInt8) :=
  let shards := req.view cfg
  (disk req.hubBlockKey req.hubDatanodeIp req.hubDatanodePort).map fun block =>
    (block.drop (shards.byteOff 0)).take (shards.localCount * shards.stripeLen)

/-- the listener of chain `ci`: its right-hand side, shard by shard -/
def hubListener (cfg : Config) (disk : Datanodes) (req : HubRequest) (ci : ℕ)
    (inbound : List PipelineFrame) : Except PipelineError (List (Option (List UInt8))) :=
  let shards := req.view cfg
  let ctx := req.ctx ci
  if ctx.localOnly then
    (List.range shards.localCount).mapM fun shard =>
      match (hubStream cfg disk req).bind fun s => readDatanodeStreamShard s shard shards.stripeLen with
      | none => .error (.message "hub local_only shared read failed")
      | some bytes => .ok (some (glrcPipelineInitPartialRange bytes ctx.hubCoef ctx.eqCodec))
  else hubListenLoop ctx (hubStream cfg disk req) shards.localCount shards.stripeLen 0
    (replicate shards.localCount none) inbound

/-- a hub chain and its listener at the hub: the hops its stream has passed and the stored right-hand
side -/
def hubChainRun (cfg : Config) (disk : Datanodes) (session : PipelineSession) (plan : GlrcPipelinePlan)
    (failed : List ℕ) (lookup : List GlrcPipelineNodeLookup) (ports : ℕ → GlrcPipelineChainPorts)
    (ci : ℕ) (chain : GlrcPipelineChainPlan) :
    Except PipelineError (List ℕ × List (Option (List UInt8))) := do
  let _ ← hubStart cfg (hubRequest session cfg.z plan failed lookup ports)
  let out ← chainOutput cfg disk
    (launchChainHopsAndHead session cfg.z plan chain (ports chain.chainId))
  let rhs ← hubListener cfg disk (hubRequest session cfg.z plan failed lookup ports) ci out.2
  return (out.1, rhs)

/-! ## The failed blocks and the equations of the hub -/

section
variable {k r z : ℕ} {failed selected : List ℕ} {hub : ℕ} {lookup : List GlrcPipelineNodeLookup}

/-- the failed blocks of the selected local equations that have one failed block -/
def locallyRepaired (equations : List GlrcEquation) (failed selected : List ℕ) : List ℕ :=
  (localDirectSet equations failed selected).flatMap fun e =>
    (involvedBlocks equations e).filter (· ∈ failed)

def hubEquations (equations : List GlrcEquation) (failed selected : List ℕ) : List ℕ :=
  selected.filter fun e => e ∉ localDirectSet equations failed selected

theorem localDirectSet_eq_filter (equations : List GlrcEquation) (failed selected : List ℕ) :
    localDirectSet equations failed selected =
      selected.filter fun e => e ∈ localDirectSet equations failed selected := by
  conv_lhs => rw [localDirectSet]
  refine filter_congr fun e he => ?_
  rw [Bool.eq_iff_iff, decide_eq_true_iff, localDirectSet, mem_filter]
  exact ⟨fun h => ⟨he, h⟩, fun h => h.2⟩

theorem chains_filter_map {xs : List ℕ} {chains : List GlrcPipelineChainPlan}
    (h : Forall₂ (ChainOf k r z failed selected hub lookup) xs chains) :
    (chains.filter fun c => !c.localDirect).map (·.equationIndex) =
        xs.filter (fun e => e ∉ localDirectSet (allEquations k r z) failed selected) ∧
      (chains.filter fun c => c.localDirect).filterMap (·.localDirectFailedBlockId) =
        (xs.filter fun e => e ∈ localDirectSet (allEquations k r z) failed selected).flatMap fun e =>
          (involvedBlocks (allEquations k r z) e).filter (· ∈ failed) := by
  induction h with
  | nil => exact ⟨rfl, rfl⟩
  | @cons e chain xs chains hc _ ih =>
    cases hld : chain.localDirect with
    | true =>
      have hmem := hc.localDirect_iff.mp hld
      obtain ⟨b, node, hchain⟩ := hc.toSink hld
      have hfail := hchain.failed_eq
      rw [hc.index] at hfail
      rw [List.filter_cons_of_neg (by rw [hld]; decide), List.filter_cons_of_neg (by simpa using hmem),
        List.filter_cons_of_pos (by rw [hld]), List.filter_cons_of_pos (by simpa using hmem),
        filterMap_cons_some hchain.failedId, flatMap_cons, hfail, ih.2]
      exact ⟨ih.1, rfl⟩
    | false =>
      have hmem : e ∉ localDirectSet (allEquations k r z) failed selected := by
        intro hin
        rw [hc.localDirect_iff.mpr hin] at hld
        cases hld
      rw [List.filter_cons_of_pos (by rw [hld]; rfl), List.filter_cons_of_pos (by simpa using hmem),
        List.filter_cons_of_neg (by rw [hld]; decide), List.filter_cons_of_neg (by simpa using hmem),
        List.map_cons, hc.index, ih.1]
      exact ⟨rfl, ih.2⟩

theorem plan_split {repairPlan : GlrcIlpRepairPlan} {epoch : ℕ} {plan : GlrcPipelinePlan}
    (h : glrcBuildPipelinePlan k r z failed repairPlan (allEquations k r z) hub lookup epoch =
      .ok plan) : plan.hubChains.map (·.equationIndex) =
        hubEquations (allEquations k r z) failed repairPlan.selectedEquationIndices ∧
      localDirectFailed plan =
        locallyRepaired (allEquations k r z) failed repairPlan.selectedEquationIndices := by
  obtain ⟨hubNode, chains, -, hall, rfl⟩ := glrcBuildPipelinePlan_ok h
  obtain ⟨hhub, hlocal⟩ := chains_filter_map hall
  refine ⟨hhub, ?_⟩
  rw [← localDirectSet_eq_filter] at hlocal
  exact hlocal

theorem mem_locallyRepaired (hsel : ∀ e ∈ selected, e < z + r) {b : ℕ} :
    b ∈ locallyRepaired (allEquations k r z) failed selected ↔
      ∃ e ∈ selected, e < z ∧ (involvedBlocks (allEquations k r z) e).filter (· ∈ failed) = [b] := by
  unfold locallyRepaired
  rw [mem_flatMap]
  refine ⟨fun ⟨e, he, hb⟩ => ?_, fun ⟨e, he, hez, hb⟩ => ⟨e, ?_, by rw [hb]; exact mem_cons_self⟩⟩
  · have hin : e ∈ selected := mem_of_mem_filter he
    obtain ⟨hmem, hez, hone⟩ := (mem_localDirectSet (hsel e hin)).mp he
    obtain ⟨b', hb'⟩ := length_eq_one_iff.mp hone
    rw [hb'] at hb
    rw [List.mem_singleton.mp hb]
    exact ⟨e, hmem, hez, hb'⟩
  · exact (mem_localDirectSet (hsel e he)).mpr ⟨he, hez, by rw [hb]; rfl⟩

theorem locallyRepaired_nodup (hsel : ∀ e ∈ selected, e < z + r) (hnd : selected.Nodup) :
    (locallyRepaired (allEquations k r z) failed selected).Nodup := by
  refine nodup_flatMap.mpr ⟨fun e he => (involved_nodup ?_).filter _, ?_⟩
  · exact hsel e (mem_of_mem_filter he)
  · refine List.Pairwise.imp_of_mem (fun {e e'} he he' hne => ?_) (hnd.filter _)
    intro b hb hb'
    have hz := ((mem_localDirectSet (hsel e (mem_of_mem_filter he))).mp he).2.1
    have hz' := ((mem_localDirectSet (hsel e' (mem_of_mem_filter he'))).mp he').2.1
    exact hne (local_unique hz hz' (mem_of_mem_filter hb) (mem_of_mem_filter hb'))

theorem locallyRepaired_length (hsel : ∀ e ∈ selected, e < z + r) :
    (locallyRepaired (allEquations k r z) failed selected).length =
      (localDirectSet (allEquations k r z) failed selected).length := by
  unfold locallyRepaired
  rw [length_flatMap]
  have hone : ∀ n ∈ (localDirectSet (allEquations k r z) failed selected).map fun e =>
      ((involvedBlocks (allEquations k r z) e).filter (· ∈ failed)).length, n = 1 := by
    intro n hn
    obtain ⟨e, he, rfl⟩ := mem_map.mp hn
    exact ((mem_localDirectSet (hsel e (mem_of_mem_filter he))).mp he).2.2
  rw [sum_eq_card_nsmul _ _ hone, length_map, smul_eq_mul, mul_one]

theorem locallyRepaired_subset : locallyRepaired (allEquations k r z) failed selected ⊆ failed := by
  intro b hb
  obtain ⟨e, _, hmem⟩ := mem_flatMap.mp hb
  exact of_decide_eq_true (mem_filter.mp hmem).2

/-- the failed blocks of the hub, by the selected equations -/
def hubBlocks (equations : List GlrcEquation) (failed selected : List ℕ) : List ℕ :=
  failed.filter fun b => b ∉ locallyRepaired equations failed selected

section
variable (hnd : failed.Nodup) (hsel : ∀ e ∈ selected, e < z + r) (hsnd : selected.Nodup)
include hnd hsel hsnd

theorem hubBlocks_perm : failed.Perm (hubBlocks (allEquations k r z) failed selected ++
    locallyRepaired (allEquations k r z) failed selected) :=
  perm_filter_not_mem_append hnd (locallyRepaired_nodup hsel hsnd) locallyRepaired_subset

theorem failedSum_split (e : ℕ) (c : ℕ → Gf) : failedSum k r z failed e c =
      failedSum k r z (hubBlocks (allEquations k r z) failed selected) e c +
        failedSum k r z (locallyRepaired (allEquations k r z) failed selected) e c := by
  unfold failedSum
  rw [((hubBlocks_perm hnd hsel hsnd).map _).sum_eq, map_append, sum_append]

end

theorem hubBlocks_length (h : Solves k r z failed selected) :
    (hubBlocks (allEquations k r z) failed selected).length =
      (hubEquations (allEquations k r z) failed selected).length := by
  have hblocks := (hubBlocks_perm (k := k) h.failed_nodup h.1 h.nodup).length_eq
  rw [length_append, locallyRepaired_length h.1] at hblocks
  have heqs := length_eq_length_filter_add (l := selected)
    fun e => decide (e ∈ localDirectSet (allEquations k r z) failed selected)
  rw [← localDirectSet_eq_filter] at heqs
  have hhub : hubEquations (allEquations k r z) failed selected = selected.filter fun e =>
      !decide (e ∈ localDirectSet (allEquations k r z) failed selected) := by
    unfold hubEquations
    exact filter_congr fun e _ => by rw [decide_not]
  rw [← hhub] at heqs
  have hlen := h.length_eq
  omega

theorem hubSystem_nonsing (h : Solves k r z failed selected) :
    Nonsing (hubBlocks (allEquations k r z) failed selected).length
      (rowsOf (failedCols k r z (hubBlocks (allEquations k r z) failed selected))
        (hubEquations (allEquations k r z) failed selected)) := by
  have hnd := h.failed_nodup
  have hlt : ∀ b ∈ failed, b < k + r + z := fun b hb => h.lt hb
  have hsub : ∀ b ∈ hubBlocks (allEquations k r z) failed selected, b ∈ failed :=
    fun b hb => mem_of_mem_filter hb
  refine (nonsing_iff_errors (hnd.filter _) (fun b hb => hlt b (hsub b hb))
    (hubBlocks_length h).symm).mpr fun x hx heq b hb => ?_
  -- errors of the hub's blocks are errors of failed blocks, and no local-direct equation sees them
  have hfail : ∀ b ∉ failed, x b = 0 := fun b hb => hx b fun hin => hb (hsub b hin)
  have hlocal : ∀ b ∈ locallyRepaired (allEquations k r z) failed selected, x b = 0 := by
    intro b hb
    exact hx b fun hin => of_decide_eq_true (mem_filter.mp hin).2 hb
  refine (nonsing_iff_errors hnd hlt h.length_eq).mp h.nonsing x hfail (fun e he => ?_) b (hsub b hb)
  by_cases hld : e ∈ localDirectSet (allEquations k r z) failed selected
  · obtain ⟨_, hez, hone⟩ := (mem_localDirectSet (h.1 e he)).mp hld
    obtain ⟨b, hb⟩ := length_eq_one_iff.mp hone
    rw [← rowVal_failedCols_eq_eqValue hnd hlt hfail]
    show ∑ t ∈ range failed.length, Gf.mk (coef k r z e (failed.getD t 0)) * x (failed.getD t 0) = 0
    rw [← sum_map_eq_sum_range failed 0 fun b => Gf.mk (coef k r z e b) * x b]
    show failedSum k r z failed e x = 0
    rw [failedSum_single (h.1 e he) hnd hlt hb,
      hlocal b ((mem_locallyRepaired h.1).mpr ⟨e, he, hez, hb⟩), mul_zero]
  · exact heq e (mem_filter.mpr ⟨he, decide_eq_true hld⟩)

/-! ## The hub starts -/

theorem hubRequest_view {cfg : Config} {session : PipelineSession} (hv : session.Valid cfg)
    (plan : GlrcPipelinePlan) (failed : List ℕ) (lookup : List GlrcPipelineNodeLookup)
    (ports : ℕ → GlrcPipelineChainPorts) :
    (hubRequest session z plan failed lookup ports).view cfg = session.view cfg := by
  show resolvePipelineShardView cfg session.localShardCount session.globalShardBegin
    (if 0 < session.globalShardBegin ∨ session.localShardCount ≠ session.globalShardCount then
      session.globalShardCount else 0) = _
  split
  · exact resolve_eq_view hv
  · next hfull =>
    -- a repair of all shards leaves the global count out; the local one stands for it
    have heq : session.localShardCount = session.globalShardCount := by
      by_contra hne
      exact hfull (.inr hne)
    have hpos := hv.pos
    rw [← resolve_eq_view hv, ← heq]
    unfold resolvePipelineShardView
    simp only [lt_irrefl, if_false, hpos, if_true]

theorem hubStart_ok {cfg : Config} {session : PipelineSession} {repairPlan : GlrcIlpRepairPlan}
    {epoch : ℕ} {plan : GlrcPipelinePlan} (ports : ℕ → GlrcPipelineChainPorts)
    (hok : PlanOk cfg.k cfg.r cfg.z failed repairPlan)
    (hbuild : glrcBuildPipelinePlan cfg.k cfg.r cfg.z failed repairPlan
      (allEquations cfg.k cfg.r cfg.z) hub lookup epoch = .ok plan)
    (hv : session.Valid cfg) (hne : plan.hubChains ≠ []) :
    ∃ B, hubStart cfg (hubRequest session cfg.z plan failed lookup ports) = .ok B ∧
      glrcIlpBuildInverse cfg.k cfg.r cfg.z
        (hubBlocks (allEquations cfg.k cfg.r cfg.z) failed repairPlan.selectedEquationIndices)
        (hubEquations (allEquations cfg.k cfg.r cfg.z) failed repairPlan.selectedEquationIndices) =
      some B := by
  obtain ⟨hchains, hlocal⟩ := plan_split hbuild
  set blocks := hubBlocks (allEquations cfg.k cfg.r cfg.z) failed
    repairPlan.selectedEquationIndices with hblocks
  set eqs := hubEquations (allEquations cfg.k cfg.r cfg.z) failed
    repairPlan.selectedEquationIndices with heqs
  have hlen : blocks.length = eqs.length := hubBlocks_length hok.solves
  have hpos : blocks.length ≠ 0 := by
    rw [hlen, ← hchains, length_map]
    exact fun h0 => hne (length_eq_zero_iff.mp h0)
  obtain ⟨B, hB⟩ := Option.isSome_iff_exists.mp
    (glrcIlpBuildInverse_isSome_iff.mpr (hubSystem_nonsing hok.solves))
  refine ⟨B, ?_, hB⟩
  have hids : (hubRequest session cfg.z plan failed lookup ports).failedBlockIds = blocks := by
    show failed.filter (fun b => b ∉ localDirectFailed plan) = _
    rw [hlocal]
    rfl
  have hsel : (hubRequest session cfg.z plan failed lookup ports).selectedEquationIndices = eqs :=
    hchains
  have hslots : (hubRequest session cfg.z plan failed lookup ports).hubChainEqSlots ≠ [] := by
    intro h0
    exact hne (map_eq_nil_iff.mp h0)
  have hprep : glrcIlpPrepareInverse cfg.k cfg.r cfg.z blocks eqs = some B := by
    rw [glrcIlpPrepareInverse, if_neg (by omega), hB]
  unfold hubStart
  simp only [hids, hsel, hubRequest_view hv]
  rw [if_neg (by rw [hv.geometry]; simpa using hpos), if_neg hslots, if_neg (by omega),
    take_of_length_le (by omega), hprep]

/-! ## The sum of the survivors -/

/-- the XOR over the surviving blocks of an equation of their coefficients times their bytes -/
def equationBytes (k r z : ℕ) (failed : List ℕ) (content : ℕ → List UInt8) (e off len : ℕ) :
    List UInt8 :=
  (List.range len).map fun i =>
    (helperBlocksForEquation (allEquations k r z) failed e).foldl
      (fun acc b => acc ^^^ gfMul (coef k r z e b) ((content b).getD (off + i) 0)) 0

theorem length_equationBytes (k r z : ℕ) (failed : List ℕ) (content : ℕ → List UInt8)
    (e off len : ℕ) : (equationBytes k r z failed content e off len).length = len := by
  simp [equationBytes]

theorem mk_getD_equationBytes (k r z : ℕ) (failed : List ℕ) (content : ℕ → List UInt8) (e off : ℕ)
    {len i : ℕ} (hi : i < len) : Gf.mk ((equationBytes k r z failed content e off len).getD i 0) =
      ((helperBlocksForEquation (allEquations k r z) failed e).map fun b =>
        Gf.mk (coef k r z e b) * Gf.mk ((content b).getD (off + i) 0)).sum := by
  rw [equationBytes, getD_map_range _ hi, Gf.mk_foldl_xor, Gf.mk_zero, zero_add]
  simp only [Gf.mk_gfMul]

end

end Mlrc
