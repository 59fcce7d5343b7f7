import Mlrc.Hmbr.Split
import Mlrc.Pipeline.Deliver
import Mlrc.Repair.HelperDecode

/-!
# The writes of an HMBR repair

The pipeline lane writes from the hub and from the local-direct sinks, the conventional lane from one
proxy.  Every writer first tells the datanode which range of the block will come, under which commit
token and with how many parts in all.

* `hubRanges`, `hmbrConvShardRecovery`   what the writers announce;
* `recoveryGlrcIlpHmbrBreakdown`   the coordinator: plan, split, and the two lanes;
* `pipelineRanges_eq`   the pipeline announces one range for each failed block;
* `hmbr_writes_tile`   both lanes together announce two ranges that make up each block.

The proxies have the stubs of all datanodes, and the clean-up before a repair works.
-/

namespace Mlrc

variable {plan : GlrcPipelinePlan} {b hub epoch : ℕ} {repairPlan : GlrcIlpRepairPlan}

/-! ## The pipeline lane -/

/-- the fields of the hub's request that its writers read besides -/
structure HubWriteRequest extends HubRequest where
  hybridCommitToken : String
  rangeCommitParts : ℕ

/-- `glrcIlpPipelineHubRecovery` up to the opening of its write streams -/
def hubRanges (cfg : Config) (req : HubWriteRequest) : Except PipelineError (List RecoveryRange) := do
  let _ ← hubStart cfg req.toHubRequest
  return (List.range req.failedBlockIds.length).map fun i =>
    pipelineRange (req.view cfg) req.hybridCommitToken
      ("pipeline-hub-" ++ toString req.exchangeEpoch ++ "-" ++
        toString (req.failedBlockIds.getD i 0))
      req.rangeCommitParts (req.failedBlockKeys.getD i "") (some (req.failedBlockIds.getD i 0))
      (req.replacedNodeIps.getD i "") (req.replacedNodePorts.getD i 0)

def hubWriteRequest (session : PipelineSession) (z : ℕ) (plan : GlrcPipelinePlan) (failed : List ℕ)
    (lookup : List GlrcPipelineNodeLookup) (ports : ℕ → GlrcPipelineChainPorts) :
    HubWriteRequest :=
  { hubRequest session z plan failed lookup ports with
    hybridCommitToken := session.hybridCommitToken
    rangeCommitParts := session.rangeCommitParts }

/-- the hub is started when there are hub chains -/
def hubLaneRanges (cfg : Config) (session : PipelineSession) (plan : GlrcPipelinePlan)
    (failed : List ℕ) (lookup : List GlrcPipelineNodeLookup) (ports : ℕ → GlrcPipelineChainPorts) :
    Except PipelineError (List RecoveryRange) :=
  if plan.hubChains = [] then .ok []
  else hubRanges cfg (hubWriteRequest session cfg.z plan failed lookup ports)

/-- the data plane of `recovery_glrc_ilp_pipeline_breakdown_ex`: the hub, and a sink for every
local-direct chain -/
def pipelineRanges (cfg : Config) (session : PipelineSession) (plan : GlrcPipelinePlan)
    (failed : List ℕ) (lookup : List GlrcPipelineNodeLookup) (ports : ℕ → GlrcPipelineChainPorts) :
    Except PipelineError (List RecoveryRange) := do
  let hub ← hubLaneRanges cfg session plan failed lookup ports
  let sinks ← plan.localDirectChains.mapM fun chain => localDirectRange cfg
    (fillPipelineChainFields session cfg.z plan chain (ports chain.chainId) .LOCAL_DIRECT 0)
  return hub ++ sinks

/-! ## The conventional lane -/

/-- the fields of a recovery request that the conventional center reads -/
structure Phase1Request where
  rangeOffset : ℕ
  rangeSize : ℕ
  hybridCommitToken : String
  rangeCommitParts : ℕ
  failedBlockIds : List ℕ
  failedBlockKeys : List String
  replacedNodeIps : List String
  replacedNodePorts : List ℕ
  selectedEquationIndices : List ℕ
  blockIds : List ℕ
deriving DecidableEq, Repr

/-- `recovery_glrc_ilp_phase1_partial_breakdown` up to its call -/
def phase1PartialRequest (cfg : Config) (lookup : List GlrcPipelineNodeLookup) (failed : List ℕ)
    (plan : GlrcIlpRepairPlan) (anchorFailedId rangeOffset rangeSize : ℕ) (commitToken : String)
    (rangeCommitParts : ℕ) : Except String Phase1Request :=
  if !plan.success ∨ failed = [] ∨ rangeSize = 0 ∨ cfg.blockSize < rangeOffset + rangeSize ∨
      commitToken = "" ∨ rangeCommitParts < 2 then
    .error "invalid HMBR-LRC conventional request"
  else
    match failed.find? fun b => lookup.length ≤ b with
    | some b => .error ("invalid failed block id: " ++ toString b)
    | none =>
      if anchorFailedId ∉ failed then .error "HMBR-LRC conventional anchor is not failed"
      else .ok {
        rangeOffset := rangeOffset
        rangeSize := rangeSize
        hybridCommitToken := commitToken
        rangeCommitParts := rangeCommitParts
        failedBlockIds := failed
        failedBlockKeys := failed.map fun b => (lookup.getD b {}).blockKey
        replacedNodeIps := failed.map fun b => (lookup.getD b {}).datanodeIp
        replacedNodePorts := failed.map fun b => (lookup.getD b {}).datanodePort
        selectedEquationIndices := plan.selectedEquationIndices
        blockIds := plan.helperBlockIds }

/-- the checks of `recoveryBreakdown`, and `hmbrConvShardRecovery` up to its write streams -/
def hmbrConvShardRecovery (cfg : Config) (req : Phase1Request) : Except String (List RecoveryRange) :=
  let stripeByteLen := cfg.blockSize / cfg.glrcShardCount
  if req.rangeSize = 0 ∨ cfg.blockSize < req.rangeOffset + req.rangeSize ∨
      req.hybridCommitToken = "" ∨ req.rangeCommitParts < 2 then
    .error "invalid HMBR-LRC conventional range"
  else if cfg.glrcShardCount = 0 ∨ cfg.blockSize % cfg.glrcShardCount ≠ 0 then
    .error "block size is not divisible by GlrcShardCount"
  else if req.blockIds = [] ∨ req.failedBlockIds = [] ∨ req.rangeOffset % stripeByteLen ≠ 0 ∨
      req.rangeSize % stripeByteLen ≠ 0 then
    .error "invalid conventional shard range"
  else if req.selectedEquationIndices.length ≠ req.failedBlockIds.length then
    .error "selected_equation_indices size mismatch"
  else
    match glrcIlpPrepareHelperDecode cfg.k cfg.r cfg.z req.blockIds req.failedBlockIds
      req.selectedEquationIndices with
    | none => .error "prepare helper decode failed"
    | some _ => .ok ((List.range req.failedBlockIds.length).map fun target => {
        blockKey := req.failedBlockKeys.getD target ""
        blockId := some (req.failedBlockIds.getD target 0)
        recoveryOffset := req.rangeOffset
        recoverySize := req.rangeSize
        recoveryDeferFsync := true
        recoveryCommitToken := req.hybridCommitToken
        recoveryCommitParts := req.rangeCommitParts
        nodeIp := req.replacedNodeIps.getD target ""
        nodePort := req.replacedNodePorts.getD target 0 })

/-! ## The coordinator -/

def hmbrCommitToken (stripeId exchangeEpoch : ℕ) : String :=
  "hmbr-stripe-" ++ toString stripeId ++ "-epoch-" ++ toString exchangeEpoch

structure HmbrLanes (δ : Type) where
  split : GlrcHmbrShardSplit δ
  rp : Except PipelineError (List RecoveryRange)
  conv : Except String (List RecoveryRange)

section
variable {δ : Type} [Add δ] [Sub δ] [Mul δ] [Div δ] [IntCast δ] [LE δ] [DecidableLE δ]

/-- the session of the pipeline lane -/
def GlrcHmbrShardSplit.session (split : GlrcHmbrShardSplit δ) (cfg : Config) (commitToken : String) :
    PipelineSession where
  localShardCount := if 0 < split.rpShardCount then split.rpShardCount else cfg.glrcShardCount
  globalShardBegin := split.rpShardBegin
  globalShardCount := cfg.glrcShardCount
  hybridCommitToken := commitToken
  rangeCommitParts := 2

/-- `recovery_glrc_ilp_hmbr_breakdown` up to the writes of its lanes; `keys` is the order of the map
`helper_equation_count`, `ports` are the ports allocated for the chains -/
def recoveryGlrcIlpHmbrBreakdown (S : StdSort) (lround : δ → ℤ) (cfg : Config)
    (equationPolicy : String) (nodeBlockBandwidthMBps : δ) (glrcHmbrP : String)
    (lookup : List GlrcPipelineNodeLookup) (ports : ℕ → GlrcPipelineChainPorts) (keys : List ℕ)
    (stripeId pipelineEpoch : ℕ) (failed : List ℕ) : Except String (HmbrLanes δ) :=
  if failed = [] then .error "empty failure set"
  else
    match failed.find? fun b => lookup.length ≤ b with
    | some b => .error ("invalid failed block id: " ++ toString b)
    | none =>
      match glrcSolveRepairPlan S cfg.k cfg.r cfg.z failed
        (glrcNormalizeEquationPolicy equationPolicy) with
      | (false, plan) => .error plan.errorMessage
      | (true, plan) =>
        (glrcHmbrBuildShardSplit lround cfg.glrcShardCount cfg.blockSize plan.helperBlockCount
          failed.length nodeBlockBandwidthMBps nodeBlockBandwidthMBps glrcHmbrP).bind fun split =>
        match selectHub (allEquations cfg.k cfg.r cfg.z) plan keys with
        | none => .error "HMBR-LRC pipeline hub selection failed"
        | some hub =>
          (glrcBuildPipelinePlan cfg.k cfg.r cfg.z failed plan (allEquations cfg.k cfg.r cfg.z) hub
            lookup pipelineEpoch).map fun pipelinePlan =>
          let commitToken := hmbrCommitToken stripeId pipelinePlan.exchangeEpoch
          { split := split
            rp := pipelineRanges cfg (split.session cfg commitToken) pipelinePlan failed lookup ports
            conv := (phase1PartialRequest cfg lookup failed plan (failed.headD 0)
              split.convByteOffset split.convByteSize commitToken 2).bind
                (hmbrConvShardRecovery cfg) }

end

/-! ## What the writers announce -/

def rangeOf (lookup : List GlrcPipelineNodeLookup) (token : String) (off size b : ℕ) :
    RecoveryRange where
  blockKey := (lookup.getD b {}).blockKey
  blockId := some b
  recoveryOffset := off
  recoverySize := size
  recoveryDeferFsync := true
  recoveryCommitToken := token
  recoveryCommitParts := 2
  nodeIp := (lookup.getD b {}).datanodeIp
  nodePort := (lookup.getD b {}).datanodePort

section
variable {cfg : Config} {session : PipelineSession} {failed : List ℕ}
  {lookup : List GlrcPipelineNodeLookup} {token : String}

/-- a session that repairs a proper prefix of every block, as one of two parts -/
structure PrefixSession (session : PipelineSession) (token : String) : Prop where
  begin_eq : session.globalShardBegin = 0
  lt : session.localShardCount < session.globalShardCount
  token_eq : session.hybridCommitToken = token
  token_ne : token ≠ ""
  parts : session.rangeCommitParts = 2

theorem pipelineRange_eq (h : PrefixSession session token) (fallback : String) (b : ℕ) :
    pipelineRange (session.view cfg) session.hybridCommitToken fallback session.rangeCommitParts
        (lookup.getD b {}).blockKey (some b) (lookup.getD b {}).datanodeIp
        (lookup.getD b {}).datanodePort =
      rangeOf lookup token 0 (session.localShardCount * (session.view cfg).stripeLen) b := by
  have hfull : ¬((session.view cfg).globalBegin = 0 ∧
      (session.view cfg).localCount = (session.view cfg).globalS) := fun hall =>
    ne_of_lt h.lt hall.2
  have hoff : (session.view cfg).byteOff 0 = 0 := by
    show (session.globalShardBegin + 0) * _ = 0
    rw [h.begin_eq, Nat.zero_mul]
  unfold pipelineRange rangeOf
  simp only [decide_eq_false hfull, hoff, h.token_eq, h.parts, if_neg h.token_ne]
  rfl

theorem localDirectRange_prefix (hs : PrefixSession session token) (hv : session.Valid cfg)
    {chain : GlrcPipelineChainPlan} {ports : GlrcPipelineChainPorts} {node : GlrcPipelineNodeLookup}
    (h : LocalDirectChainOf cfg.k cfg.r cfg.z failed lookup chain b node)
    (hkey : node.blockKey ≠ "") (hport : 0 < node.datanodePort) :
    localDirectRange cfg (fillPipelineChainFields session cfg.z plan chain ports .LOCAL_DIRECT 0) =
      .ok (rangeOf lookup token 0 (session.localShardCount * (session.view cfg).stripeLen) b) := by
  have hnode : lookup.getD b {} = node := by
    rw [List.getD_eq_getElem?_getD, h.node_eq]
    rfl
  rw [localDirectRange_eq h hv hkey hport, ← pipelineRange_eq hs _ b, hnode]

structure LookupComplete (lookup : List GlrcPipelineNodeLookup) (n : ℕ) : Prop where
  length_eq : lookup.length = n
  proxyIp : ∀ node ∈ lookup, node.proxyIp ≠ ""
  datanodeIp : ∀ node ∈ lookup, node.datanodeIp ≠ ""
  blockKey : ∀ node ∈ lookup, node.blockKey ≠ ""
  datanodePort : ∀ node ∈ lookup, 0 < node.datanodePort

theorem mem_localDirectChains {k r z : ℕ} (hbuild : glrcBuildPipelinePlan k r z failed repairPlan
      (allEquations k r z) hub lookup epoch = .ok plan) {chain : GlrcPipelineChainPlan}
    (hmem : chain ∈ plan.localDirectChains) :
    ∃ b node, LocalDirectChainOf k r z failed lookup chain b node := by
  obtain ⟨_, chains, -, hall, rfl⟩ := glrcBuildPipelinePlan_ok hbuild
  obtain ⟨hin, hld⟩ := List.mem_filter.mp hmem
  obtain ⟨e, -, hchain⟩ := forall₂_mem_right hall hin
  exact hchain.toSink hld

section
variable (ports : ℕ → GlrcPipelineChainPorts) (hs : PrefixSession session token)
  (hv : session.Valid cfg) (hok : PlanOk cfg.k cfg.r cfg.z failed repairPlan)
  (hbuild : glrcBuildPipelinePlan cfg.k cfg.r cfg.z failed repairPlan
    (allEquations cfg.k cfg.r cfg.z) hub lookup epoch = .ok plan)
include hs hv hok hbuild

theorem hubRanges_eq (hne : plan.hubChains ≠ []) :
    hubRanges cfg (hubWriteRequest session cfg.z plan failed lookup ports) =
      .ok ((hubFailed plan failed).map
        (rangeOf lookup token 0 (session.localShardCount * (session.view cfg).stripeLen))) := by
  obtain ⟨B, hstart, -⟩ := hubStart_ok ports hok hbuild hv hne
  have hview : (hubWriteRequest session cfg.z plan failed lookup ports).view cfg =
    session.view cfg := hubRequest_view hv plan failed lookup ports
  unfold hubRanges
  rw [show hubStart cfg (hubWriteRequest session cfg.z plan failed lookup ports).toHubRequest =
    .ok B from hstart]
  refine congrArg Except.ok (map_range_eq_map 0 fun i hi => ?_)
  have hi : i < (hubFailed plan failed).length := hi
  rw [hview, ← pipelineRange_eq hs ("pipeline-hub-" ++ toString plan.exchangeEpoch ++ "-" ++
    toString ((hubFailed plan failed).getD i 0))]
  show pipelineRange (session.view cfg) session.hybridCommitToken _ session.rangeCommitParts
    (((hubFailed plan failed).map fun b => (lookup.getD b {}).blockKey).getD i "") _
    (((hubFailed plan failed).map fun b => (lookup.getD b {}).datanodeIp).getD i "")
    (((hubFailed plan failed).map fun b => (lookup.getD b {}).datanodePort).getD i 0) = _
  rw [getD_map_of_lt _ _ hi 0, getD_map_of_lt _ _ hi 0, getD_map_of_lt _ _ hi 0]
  rfl

theorem pipelineRanges_eq (hnd : failed.Nodup)
    (hlookup : LookupComplete lookup (cfg.k + cfg.r + cfg.z)) :
    ∃ ids : List ℕ, ids.Perm failed ∧ pipelineRanges cfg session plan failed lookup ports =
      .ok (ids.map (rangeOf lookup token 0
        (session.localShardCount * (session.view cfg).stripeLen))) := by
  obtain ⟨hchains, hlocal⟩ := plan_split hbuild
  set range := rangeOf lookup token 0 (session.localShardCount * (session.view cfg).stripeLen)
  have hperm : failed.Perm (hubFailed plan failed ++ localDirectFailed plan) := by
    rw [hubFailed, hlocal]
    exact hubBlocks_perm hnd hok.solves.1 hok.solves.nodup
  refine ⟨_, hperm.symm, ?_⟩
  have hhub : hubLaneRanges cfg session plan failed lookup ports =
      .ok ((hubFailed plan failed).map range) := by
    unfold hubLaneRanges
    split
    · next hnil =>
      -- without hub chains no failed block is left to the hub
      have hlen := hubBlocks_length hok.solves
      rw [← hchains, hnil, hubBlocks, ← hlocal] at hlen
      rw [show hubFailed plan failed = [] from List.length_eq_zero_iff.mp hlen]
      rfl
    · next hne => exact hubRanges_eq ports hs hv hok hbuild hne
  have hsinks : plan.localDirectChains.mapM (fun chain => localDirectRange cfg
      (fillPipelineChainFields session cfg.z plan chain (ports chain.chainId) .LOCAL_DIRECT 0)) =
      .ok ((localDirectFailed plan).map range) := by
    rw [mapM_eq_ok_map (g := fun chain => range (chain.localDirectFailedBlockId.getD 0)),
      localDirectFailed, List.map_filterMap]
    · refine congrArg Except.ok ((List.filterMap_eq_map_iff_forall_eq_some.mpr ?_).symm)
      intro chain hmem
      obtain ⟨b, node, hchain⟩ := mem_localDirectChains hbuild hmem
      rw [hchain.failedId]
      rfl
    · intro chain hmem
      obtain ⟨b, node, hchain⟩ := mem_localDirectChains hbuild hmem
      have hnode := List.mem_of_getElem? hchain.node_eq
      rw [hchain.failedId]
      exact localDirectRange_prefix hs hv hchain (hlookup.blockKey node hnode)
        (hlookup.datanodePort node hnode)
  unfold pipelineRanges
  rw [hhub, hsinks]
  show Except.ok _ = Except.ok _
  rw [List.map_append]

end

theorem find?_invalid_id (hlt : ∀ b ∈ failed, b < lookup.length) :
    failed.find? (fun b => decide (lookup.length ≤ b)) = none := by
  refine List.find?_eq_none.mpr fun b hb => ?_
  rw [decide_eq_true_eq, not_le]
  exact hlt b hb

theorem conv_ranges_eq {plan : GlrcIlpRepairPlan} {off size anchor : ℕ} (htoken : token ≠ "")
    (hok : PlanOk cfg.k cfg.r cfg.z failed plan) (hhelpers : plan.helperBlockIds ≠ [])
    (hlt : ∀ b ∈ failed, b < lookup.length) (hanchor : anchor ∈ failed)
    (hS : cfg.glrcShardCount ≠ 0) (hdvd : cfg.glrcShardCount ∣ cfg.blockSize)
    (hpos : 0 < size) (hend : off + size ≤ cfg.blockSize)
    (hoff : cfg.blockSize / cfg.glrcShardCount ∣ off)
    (hsize : cfg.blockSize / cfg.glrcShardCount ∣ size) :
    (phase1PartialRequest cfg lookup failed plan anchor off size token 2).bind
        (hmbrConvShardRecovery cfg) = .ok (failed.map (rangeOf lookup token off size)) := by
  obtain ⟨aInv, -, hprepare⟩ := prepareHelperDecode_ok hok.solves hhelpers hok.cover
  have hne : failed ≠ [] := List.ne_nil_of_mem hanchor
  have hsize0 : size ≠ 0 := ne_of_gt hpos
  unfold phase1PartialRequest
  rw [if_neg (by simp [hok.success, hne, hsize0, not_lt.mpr hend, htoken]), find?_invalid_id hlt]
  simp only [hanchor, not_true_eq_false, if_false]
  show hmbrConvShardRecovery cfg _ = _
  unfold hmbrConvShardRecovery
  simp only [hprepare]
  rw [if_neg (by simp [hsize0, not_lt.mpr hend, htoken]),
    if_neg (by simp [hS, Nat.mod_eq_zero_of_dvd hdvd]),
    if_neg (by simp [hne, hhelpers, Nat.mod_eq_zero_of_dvd hoff, Nat.mod_eq_zero_of_dvd hsize]),
    if_neg (by simpa using hok.solves.length_eq)]
  refine congrArg Except.ok (map_range_eq_map 0 fun i hi => ?_)
  rw [getD_map_of_lt _ _ hi 0, getD_map_of_lt _ _ hi 0, getD_map_of_lt _ _ hi 0]
  rfl

/-! ## Pipeline plans can be built -/

theorem LookupComplete.mem {n : ℕ} (h : LookupComplete lookup n) (hb : b < n) :
    lookup.getD b {} ∈ lookup ∧ lookup[b]? = some (lookup.getD b {}) := by
  have hlt : b < lookup.length := by rwa [h.length_eq]
  rw [List.getD_eq_getElem _ _ hlt]
  exact ⟨List.getElem_mem hlt, List.getElem?_eq_getElem hlt⟩

theorem LookupComplete.fillHop_eq {n : ℕ} (h : LookupComplete lookup n) (hb : b < n) (c : UInt8) :
    fillHop b c lookup = .ok ((lookup.getD b {}).hop b c) := by
  obtain ⟨hmem, hget⟩ := h.mem hb
  unfold fillHop
  rw [hget]
  exact if_neg (not_or.mpr ⟨h.proxyIp _ hmem, h.datanodeIp _ hmem⟩)

section
variable {k r z : ℕ}

theorem local_survivor {e : ℕ} (hzle : z ≤ k + r) (he : e < z)
    (h : (involvedBlocks (allEquations k r z) e).filter (· ∈ failed) = [b]) :
    (involvedBlocks (allEquations k r z) e).filter (· ∉ failed) ≠ [] := by
  obtain ⟨b', hb', hmem⟩ := exists_payload_mem hzle he
  rw [← involvedBlocks_local he] at hmem
  have hparity : k + r + e ∈ involvedBlocks (allEquations k r z) e := by
    rw [involvedBlocks_local he]
    exact (mem_placementGroup_parity he).mpr rfl
  have hone : ∀ c ∈ involvedBlocks (allEquations k r z) e, c ∈ failed → c = b := by
    intro c hc hcf
    have : c ∈ (involvedBlocks (allEquations k r z) e).filter (· ∈ failed) :=
      List.mem_filter.mpr ⟨hc, decide_eq_true hcf⟩
    rw [h] at this
    exact List.mem_singleton.mp this
  have hsurvives : ∃ c ∈ involvedBlocks (allEquations k r z) e, c ∉ failed := by
    by_cases hp : k + r + e ∈ failed
    · refine ⟨b', hmem, fun hbf => ?_⟩
      have h1 := hone _ hparity hp
      have h2 := hone _ hmem hbf
      omega
    · exact ⟨_, hparity, hp⟩
  obtain ⟨c, hc, hcf⟩ := hsurvives
  exact List.ne_nil_of_mem (List.mem_filter.mpr ⟨hc, decide_eq_true hcf⟩)

theorem LookupComplete.hops_eq (h : LookupComplete lookup (k + r + z)) {blocks : List ℕ}
    (hlt : ∀ b ∈ blocks, b < k + r + z) (c : ℕ → UInt8) :
    blocks.mapM (fun b => fillHop b (c b) lookup) =
      .ok (blocks.map fun b => (lookup.getD b {}).hop b (c b)) :=
  mapM_eq_ok_map fun b hb => h.fillHop_eq (hlt b hb) (c b)

theorem buildChain_total {selected : List ℕ} {e id : ℕ} (hzle : z ≤ k + r) (he : e < z + r)
    (hub_lt : hub < k + r + z) (h : LookupComplete lookup (k + r + z)) :
    ∃ chain, buildChain k r z failed (allEquations k r z)
      (localDirectSet (allEquations k r z) failed selected) hub lookup e id = .ok chain := by
  obtain ⟨eq, heq, -, hinv⟩ := getElem?_allEquations (k := k) he
  have hsurv : ∀ b ∈ sortChainSurvivors (eq.involvedBlocks.filter fun b => b ∉ failed) hub,
      b < k + r + z := by
    intro b hb
    have hb' := List.mem_of_mem_filter ((sortChainSurvivors_perm _ _).mem_iff.mp hb)
    rw [hinv] at hb'
    exact lt_of_mem_involved he hb'
  unfold buildChain
  rw [heq]
  simp only
  split
  · next hld =>
    obtain ⟨-, hez, hlen⟩ := (mem_localDirectSet he).mp (of_decide_eq_true hld)
    obtain ⟨b, hb⟩ := List.length_eq_one_iff.mp hlen
    have hfind : eq.involvedBlocks.find? (fun b => decide (b ∈ failed)) = some b := by
      rw [hinv]
      exact find?_of_filter_eq_singleton hb
    have hbmem : b ∈ involvedBlocks (allEquations k r z) e := by
      have : b ∈ (involvedBlocks (allEquations k r z) e).filter (· ∈ failed) := by
        rw [hb]
        exact List.mem_cons_self
      exact List.mem_of_mem_filter this
    obtain ⟨hmem, hget⟩ := h.mem (lt_of_mem_involved he hbmem)
    have hne : sortChainSurvivors (eq.involvedBlocks.filter fun b => b ∉ failed) hub ≠ [] := by
      intro hnil
      have hperm := sortChainSurvivors_perm (eq.involvedBlocks.filter fun b => b ∉ failed) hub
      rw [hnil, hinv] at hperm
      exact local_survivor hzle hez hb hperm.nil_eq.symm
    unfold localDirectChain
    simp only [hfind, Option.bind_some, hget, Option.getD_some]
    rw [if_neg (not_or.mpr ⟨h.proxyIp _ hmem, hne⟩), h.hops_eq fun b hb =>
      hsurv b ((List.perm_insertionSort _ _).mem_iff.mp hb)]
    exact ⟨_, rfl⟩
  · unfold hubChain
    rw [h.hops_eq fun b hb => ?_]
    · exact ⟨_, rfl⟩
    · unfold hubChainBlocks at hb
      rcases List.mem_append.mp hb with hb | hb
      · exact hsurv b (List.mem_of_mem_filter hb)
      · split at hb
        · rw [List.mem_singleton.mp hb]
          exact hub_lt
        · cases hb

theorem glrcBuildPipelinePlan_total (epoch : ℕ)
    (hzle : z ≤ k + r) (hsel : ∀ e ∈ repairPlan.selectedEquationIndices, e < z + r)
    (hub_lt : hub < k + r + z) (h : LookupComplete lookup (k + r + z)) :
    ∃ plan, glrcBuildPipelinePlan k r z failed repairPlan (allEquations k r z) hub lookup epoch =
      .ok plan := by
  obtain ⟨-, hget⟩ := h.mem hub_lt
  unfold glrcBuildPipelinePlan
  rw [hget]
  simp only
  obtain ⟨chains, hchains⟩ := exists_mapM_ok (f := fun p : ℕ × ℕ => buildChain k r z failed
    (allEquations k r z) (localDirectSet (allEquations k r z) failed
      repairPlan.selectedEquationIndices) hub lookup p.1 p.2)
    (l := repairPlan.selectedEquationIndices.zipIdx) fun p hp =>
      buildChain_total hzle (hsel p.1 (List.fst_mem_of_mem_zipIdx hp)) hub_lt h
  rw [hchains]
  exact ⟨_, rfl⟩

end

/-! ## Both lanes -/

theorem hmbrCommitToken_ne (stripeId epoch : ℕ) : hmbrCommitToken stripeId epoch ≠ "" := by
  unfold hmbrCommitToken
  simp only [ne_eq, String.append_eq_empty_iff, not_and]
  intro h
  exact absurd h.1 nofun

theorem selectHub_isSome {equations : List GlrcEquation} {plan : GlrcIlpRepairPlan}
    (h : plan.helperBlockIds ≠ []) (keys : List ℕ) : ∃ hub, selectHub equations plan keys = some hub := by
  unfold selectHub
  split
  · exact ⟨_, rfl⟩
  · exact ⟨_, List.head?_eq_some_head h⟩

theorem filter_rangeOf {ids : List ℕ} {off size : ℕ} (hnd : ids.Nodup) (hb : b ∈ ids) :
    (ids.map (rangeOf lookup token off size)).filter (fun w => w.blockId = some b) =
      [rangeOf lookup token off size b] := by
  have hfilter : ids.filter (fun c => decide (c = b)) = [b] := by
    rw [List.filter_eq, List.count_eq_one_of_mem hnd hb]
    rfl
  rw [List.filter_map, ← List.map_singleton, ← hfilter]
  refine congrArg (List.map _) (List.filter_congr fun c _ => ?_)
  simp [rangeOf]

section
variable {δ : Type} {split : GlrcHmbrShardSplit δ}

theorem GlrcHmbrShardSplit.Proper.session_ok (h : split.Proper cfg.glrcShardCount cfg.blockSize)
    (htoken : token ≠ "") :
    PrefixSession (split.session cfg token) token ∧ (split.session cfg token).Valid cfg ∧
      (split.session cfg token).localShardCount * ((split.session cfg token).view cfg).stripeLen =
        split.rpByteSize := by
  have hcount : (split.session cfg token).localShardCount = split.rpShardCount := if_pos h.rp_pos
  refine ⟨⟨h.rpBegin, hcount.trans_lt h.rp_lt, rfl, htoken, rfl⟩,
    ⟨hcount ▸ h.rp_pos, ?_, h.dvd, h.size_pos⟩, ?_⟩
  · show split.rpShardBegin + (split.session cfg token).localShardCount ≤ cfg.glrcShardCount
    rw [hcount, h.rpBegin, zero_add]
    exact le_of_lt h.rp_lt
  · rw [hcount, GlrcHmbrShardSplit.rpByteSize, h.len]
    rfl

variable [Add δ] [Sub δ] [Mul δ] [Div δ] [IntCast δ] [LE δ] [DecidableLE δ]

/-- **Main result.** Whatever the policy, the split and the hub: when the nodes of the stripe are known
and the failed blocks can be repaired, the two lanes together announce for each failed block the
ranges `[0, rp)` and `[rp, BlockSize)`, both non-empty, as the two parts of one commit. -/
theorem hmbr_writes_tile (S : StdSort) (lround : δ → ℤ) (hk : 1 ≤ cfg.k) (hz : 1 ≤ cfg.z)
    (hzle : cfg.z ≤ cfg.k + cfg.r) (hnd : failed.Nodup)
    (hlt : ∀ b ∈ failed, b < cfg.k + cfg.r + cfg.z)
    (hlookup : LookupComplete lookup (cfg.k + cfg.r + cfg.z)) {equationPolicy glrcHmbrP : String}
    {bandwidth : δ} {plan : GlrcIlpRepairPlan}
    (hplan : glrcSolveRepairPlan S cfg.k cfg.r cfg.z failed
      (glrcNormalizeEquationPolicy equationPolicy) = (true, plan))
    (hsplit : glrcHmbrBuildShardSplit lround cfg.glrcShardCount cfg.blockSize plan.helperBlockCount
      failed.length bandwidth bandwidth glrcHmbrP = .ok split)
    {keys : List ℕ} (hkeys : keys.Perm plan.helperBlockIds)
    (ports : ℕ → GlrcPipelineChainPorts) (stripeId epoch : ℕ) :
    ∃ lanes rp conv, recoveryGlrcIlpHmbrBreakdown S lround cfg equationPolicy bandwidth glrcHmbrP
        lookup ports keys stripeId epoch failed = .ok lanes ∧ lanes.split = split ∧
      lanes.rp = .ok rp ∧ lanes.conv = .ok conv ∧
      ∀ b ∈ failed, 0 < split.rpByteSize ∧ split.rpByteSize < cfg.blockSize ∧
        (rp ++ conv).filter (fun w => w.blockId = some b) =
          [rangeOf lookup (hmbrCommitToken stripeId epoch) 0 split.rpByteSize b,
            rangeOf lookup (hmbrCommitToken stripeId epoch) split.rpByteSize
              (cfg.blockSize - split.rpByteSize) b] := by
  obtain ⟨hproper, -, -⟩ := glrcHmbrBuildShardSplit_ok hsplit
  have hok := glrcSolveRepairPlan_ok S hz hplan
  obtain ⟨hne, -, -⟩ := glrcIlpDecodeMatrixInvertible_iff.mp hok.solves.2
  have hhelpers : plan.helperBlockIds ≠ [] := by
    rw [hok.helpers]
    exact unionHelpers_ne_nil hk hzle hok.solves hne
  obtain ⟨hub, hhub⟩ := selectHub_isSome hhelpers keys
  obtain ⟨hub_lt, -⟩ := selectHub_mem hok hkeys hhub
  obtain ⟨pipelinePlan, hbuild⟩ := glrcBuildPipelinePlan_total epoch hzle hok.solves.1 hub_lt hlookup
  have hepoch : pipelinePlan.exchangeEpoch = epoch := by
    obtain ⟨_, _, -, -, rfl⟩ := glrcBuildPipelinePlan_ok hbuild
    rfl
  have hbytes := hproper.bytes_add
  have hconvpos := hproper.convByteSize_pos
  have hlength : ∀ b ∈ failed, b < lookup.length := by
    rw [hlookup.length_eq]
    exact hlt
  -- the pipeline lane
  obtain ⟨hpre, hvalid, hsize⟩ := hproper.session_ok (hmbrCommitToken_ne stripeId epoch)
  obtain ⟨ids, hperm, hrp⟩ := pipelineRanges_eq ports hpre hvalid hok hbuild hnd hlookup
  rw [hsize] at hrp
  -- the conventional lane
  have hconv : (phase1PartialRequest cfg lookup failed plan (failed.headD 0) split.convByteOffset
      split.convByteSize (hmbrCommitToken stripeId epoch) 2).bind (hmbrConvShardRecovery cfg) =
      .ok (failed.map (rangeOf lookup (hmbrCommitToken stripeId epoch) split.convByteOffset
        split.convByteSize)) := by
    refine conv_ranges_eq (hmbrCommitToken_ne _ _) hok hhelpers hlength ?_ ?_ hproper.dvd hconvpos ?_
      ?_ ?_
    · obtain ⟨b, rest, rfl⟩ := List.exists_cons_of_ne_nil hne
      exact List.mem_cons_self
    · have := hproper.rp_lt
      omega
    · rw [hproper.convByteOffset_eq]
      omega
    · rw [← hproper.len]
      exact dvd_mul_left _ _
    · rw [← hproper.len]
      exact dvd_mul_left _ _
  have hrun : recoveryGlrcIlpHmbrBreakdown S lround cfg equationPolicy bandwidth glrcHmbrP lookup
      ports keys stripeId epoch failed = .ok {
        split := split
        rp := .ok (ids.map (rangeOf lookup (hmbrCommitToken stripeId epoch) 0 split.rpByteSize))
        conv := .ok (failed.map (rangeOf lookup (hmbrCommitToken stripeId epoch)
          split.convByteOffset split.convByteSize)) } := by
    unfold recoveryGlrcIlpHmbrBreakdown
    rw [if_neg hne, find?_invalid_id hlength, ← hconv]
    simp only [hplan, hsplit, Except.bind, hhub, hbuild, Except.map, hepoch, hrp]
  refine ⟨_, _, _, hrun, rfl, rfl, rfl, fun b hb => ⟨hproper.rpByteSize_pos, by omega, ?_⟩⟩
  rw [List.filter_append, filter_rangeOf (hperm.nodup_iff.mpr hnd) (hperm.mem_iff.mpr hb),
    filter_rangeOf hnd hb, hproper.convByteOffset_eq]
  have hrest : split.convByteSize = cfg.blockSize - split.rpByteSize := by omega
  rw [hrest]
  rfl

end

end

/-! ## Three failed blocks -/

def hmbrConfig : Config := { k := 4, r := 2, z := 2, blockSize := 4, glrcShardCount := 2 }

def hmbrSplit : GlrcHmbrShardSplit ℚ where
  globalShardCount := 2
  stripeByteLen := 2
  rpShardBegin := 0
  rpShardCount := 1
  convShardBegin := 1
  convShardCount := 1
  rpFraction := 1 / 2
  rpContinuousShards := 4 / 3
  rpEstimatedTime := 1 / 2 * 3 * (4 / (1024 * 1024)) / 100
  convEstimatedTime := 1 / 2 * 6 / 100 * (4 / (1024 * 1024))

theorem hmbr_writes_tile_three :
    ∃ lanes rp conv, recoveryGlrcIlpHmbrBreakdown StdSort.insertion lroundRat hmbrConfig "ilp"
        (100 : ℚ) "auto" (stripeNodes 8) (fun _ => ⟨[], 0⟩) [1, 2, 5, 6] 0 1 [0, 3, 4] = .ok lanes ∧
      lanes.split = hmbrSplit ∧ lanes.rp = .ok rp ∧ lanes.conv = .ok conv ∧
      ∀ b ∈ [0, 3, 4], 0 < hmbrSplit.rpByteSize ∧ hmbrSplit.rpByteSize < 4 ∧
        (rp ++ conv).filter (fun w => w.blockId = some b) =
          [rangeOf (stripeNodes 8) (hmbrCommitToken 0 1) 0 hmbrSplit.rpByteSize b,
            rangeOf (stripeNodes 8) (hmbrCommitToken 0 1) hmbrSplit.rpByteSize
              (4 - hmbrSplit.rpByteSize) b] := by
  have hplan : glrcSolveRepairPlan StdSort.insertion 4 2 2 [0, 3, 4]
      (glrcNormalizeEquationPolicy "ilp") =
      (true, { success := true, failedBlockIds := [0, 3, 4], selectedEquations := ["L0", "G0", "G1"],
               selectedEquationIndices := [0, 2, 3], helperBlockIds := [1, 2, 5, 6],
               helperBlockCount := 4 }) := by decide +kernel
  have hsplit : glrcHmbrBuildShardSplit lroundRat 2 4 4 3 (100 : ℚ) 100 "auto" = .ok hmbrSplit := by
    decide +kernel
  have hlookup : LookupComplete (stripeNodes 8) 8 := by
    constructor <;> decide +kernel
  exact hmbr_writes_tile StdSort.insertion lroundRat (show 1 ≤ hmbrConfig.k by decide) (by decide)
    (by decide) (by decide) (by decide) hlookup hplan hsplit (List.Perm.refl _) _ 0 1

end Mlrc
