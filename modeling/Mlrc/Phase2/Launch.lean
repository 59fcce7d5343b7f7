import Mlrc.Phase2.ShardPlan
import Mlrc.Repair.HelperDecode
import Mlrc.Pipeline.Chain

/-!
# Launching Phase2

The coordinator sends one request for each failed block: first a READY to every partition that will
be connected to, then the recovery.  Every request lists all other partitions as peers.

* `fillPhase2Request`   the request of a partition;
* `phase2Launch`   the requests that are sent;
* `phase2Start`   the checks of a proxy and the block it writes back;
* `phase2Start_fill`   a request from a shard plan passes the checks;
* `phase2_launches_iff`   when all partitions and their peers are started.

The proxies have the stubs of all datanodes, so the lookup of the one that gets the block is left out.
-/

namespace Mlrc

open List

variable {pi i : ℕ} {part : GlrcPartitionShardPlan} {req : Phase2Request}

/-! ## Requests -/

structure Phase2Helper where
  datanodeIp : String
  datanodePort : ℕ
  blockKey : String
  blockId : ℕ
deriving DecidableEq, Repr

structure Phase2Peer where
  proxyIp : String
  proxyPort : ℕ
  partitionId : ℕ
  shardBegin : ℕ
  shardCount : ℕ
deriving DecidableEq, Repr

/-- the fields of a recovery request that Phase2 reads; `helpers` and `peers` stand for the parallel
fields of helper blocks and `phase2_peer_*` -/
structure Phase2Request where
  partitionId : ℕ
  shardCount : ℕ
  stripeByteLen : ℕ
  shardBegin : ℕ
  shardCountLocal : ℕ
  byteOff : ℕ
  byteLen : ℕ
  doWriteBack : Bool
  exchangeEpoch : ℕ
  shareProxyNodeBandwidth : Bool
  readyOnly : Bool
  hybridCommitToken : String
  rangeCommitParts : ℕ := 0
  failedBlockIds : List ℕ
  failedBlockKeys : List String
  replacedNodeIps : List String
  replacedNodePorts : List ℕ
  selectedEquationIndices : List ℕ
  helpers : List Phase2Helper
  peers : List Phase2Peer
deriving DecidableEq, Repr

/-- what the coordinator fixes for one Phase2 recovery -/
structure Phase2Session where
  /-- `GlrcPhase2WriteBack` -/
  writeBack : Bool := true
  exchangeEpoch : ℕ := 0
  shareProxyNodeBandwidth : Bool := false
  hybridCommitToken : String := ""
deriving DecidableEq, Repr

/-- `fill_phase2_request` for partition `pi`, whose entry of the shard plan is `part` -/
def fillPhase2Request (session : Phase2Session) (lookup : List GlrcPipelineNodeLookup) (failed : List ℕ)
    (plan : GlrcIlpRepairPlan) (shardPlan : GlrcPhase2ShardPlan) (pi : ℕ)
    (part : GlrcPartitionShardPlan) (readyOnly : Bool) : Phase2Request where
  partitionId := pi
  shardCount := shardPlan.shardCount
  stripeByteLen := shardPlan.stripeByteLen
  shardBegin := part.shardBegin
  shardCountLocal := part.shardCount
  byteOff := part.byteOff
  byteLen := part.byteLen
  doWriteBack := session.writeBack
  exchangeEpoch := session.exchangeEpoch
  shareProxyNodeBandwidth := session.shareProxyNodeBandwidth
  readyOnly
  hybridCommitToken := session.hybridCommitToken
  failedBlockIds := failed
  failedBlockKeys := failed.map fun b => (lookup.getD b {}).blockKey
  replacedNodeIps := failed.map fun b => (lookup.getD b {}).datanodeIp
  replacedNodePorts := failed.map fun b => (lookup.getD b {}).datanodePort
  selectedEquationIndices := if readyOnly then [] else plan.selectedEquationIndices
  helpers := if readyOnly then [] else plan.helperBlockIds.map fun b =>
    ⟨(lookup.getD b {}).datanodeIp, (lookup.getD b {}).datanodePort, (lookup.getD b {}).blockKey, b⟩
  peers := (shardPlan.partitions.zipIdx.filter fun p => p.2 ≠ pi).map fun p =>
    ⟨p.1.proxyIp, p.1.proxyPort, p.2, p.1.shardBegin, p.1.shardCount⟩

def chosenProxy (part : GlrcPartitionShardPlan) : String :=
  part.proxyIp ++ ":" ++ toString part.proxyPort

/-! ## The launch -/

section
variable (registered : String → Bool) (readyOk : ℕ → Bool) (session : Phase2Session)
  (lookup : List GlrcPipelineNodeLookup) (failed : List ℕ) (plan : GlrcIlpRepairPlan)
  (shardPlan : GlrcPhase2ShardPlan)

/-- `run_partition`: the recovery request it sends, if any -/
def runPartition (pi : ℕ) (part : GlrcPartitionShardPlan) : List Phase2Request :=
  if part.shardCount = 0 then []
  else if registered (chosenProxy part) then
    [fillPhase2Request session lookup failed plan shardPlan pi part false]
  else []

/-- `run_partition_ready`: its result and the READY it sends, if any; `readyOk pi` is the outcome of
that call -/
def runPartitionReady (pi : ℕ) (part : GlrcPartitionShardPlan) : Bool × List Phase2Request :=
  if part.shardCount = 0 then (true, [])
  else if registered (chosenProxy part) then
    (readyOk pi, [fillPhase2Request session lookup failed plan shardPlan pi part true])
  else (false, [])

/-- the READY calls, from the last partition down to 1 -/
def readyCalls : List (Bool × List Phase2Request) :=
  if 2 ≤ failed.length then
    (shardPlan.partitions.zipIdx.filter fun p => 1 ≤ p.2).reverse.map fun p =>
      runPartitionReady registered readyOk session lookup failed plan shardPlan p.2 p.1
  else []

structure Phase2Launch where
  ready : List Phase2Request
  recovery : List Phase2Request
deriving DecidableEq, Repr

/-- the launch loops of `recovery_glrc_ilp_phase2_breakdown_ex`: when every READY succeeds the
recoveries follow -/
def phase2Launch : Phase2Launch where
  ready := (readyCalls registered readyOk session lookup failed plan shardPlan).flatMap (·.2)
  recovery :=
    if (readyCalls registered readyOk session lookup failed plan shardPlan).all (·.1) then
      shardPlan.partitions.zipIdx.flatMap fun p =>
        runPartition registered session lookup failed plan shardPlan p.2 p.1
    else []

end

/-! ## The start of a partition -/

/-- the block a partition writes back, as announced to the datanode -/
structure Phase2WriteTarget where
  blockKey : String
  blockId : ℕ
  nodeIp : String
  nodePort : ℕ
  recoverySize : ℕ
  deferFsync : Bool
  commitToken : String
  commitParts : ℕ
deriving DecidableEq, Repr

/-- what a partition has when its checks have passed -/
structure Phase2Start where
  decodeInverse : Mat UInt8
  eqHelperTerms : List (List (ℕ × UInt8))
  writeTarget : Option Phase2WriteTarget

def phase2WriteTarget (cfg : Config) (req : Phase2Request) : Option Phase2WriteTarget :=
  let writeBytes := req.shardCount * req.stripeByteLen
  let hybridPartialWrite := req.shareProxyNodeBandwidth && decide (writeBytes < cfg.blockSize)
  if 0 < req.shardCount ∧ req.doWriteBack then
    some {
      blockKey := req.failedBlockKeys.getD req.partitionId ""
      blockId := req.failedBlockIds.getD req.partitionId 0
      nodeIp := req.replacedNodeIps.getD req.partitionId ""
      nodePort := req.replacedNodePorts.getD req.partitionId 0
      recoverySize := if hybridPartialWrite then writeBytes else 0
      deferFsync := hybridPartialWrite
      commitToken := if req.hybridCommitToken = "" then
        "phase2-" ++ toString req.exchangeEpoch ++ "-" ++ toString req.partitionId
        else req.hybridCommitToken
      commitParts := if hybridPartialWrite then max 2 req.rangeCommitParts else 0 }
  else none

def phase2GeometryOk (cfg : Config) (req : Phase2Request) : Bool :=
  let writeBytes := req.shardCount * req.stripeByteLen
  decide (1 ≤ req.shardCount ∧ req.shardBegin + req.shardCountLocal ≤ req.shardCount ∧
    req.byteOff = req.shardBegin * req.stripeByteLen ∧
    req.byteLen = req.shardCountLocal * req.stripeByteLen ∧ 0 < writeBytes ∧
    writeBytes ≤ cfg.blockSize ∧ (req.shareProxyNodeBandwidth = false → writeBytes = cfg.blockSize))

/-- `glrcIlpPhase2Recovery` up to its threads, for a request that is not READY -/
def phase2Start (cfg : Config) (req : Phase2Request) : Except String Phase2Start :=
  let f := req.failedBlockIds.length
  if f ≤ req.partitionId then .error "invalid partition_id"
  else if req.helpers.length < 1 ∨ req.stripeByteLen < 1 then
    .error ("bad dims f=" ++ toString f ++ " helpers=" ++ toString req.helpers.length ++ " byte_len=" ++
      toString req.byteLen ++ " stripe_len=" ++ toString req.stripeByteLen)
  else if !phase2GeometryOk cfg req then .error "invalid phase2 shard geometry"
  else if req.selectedEquationIndices.length ≠ f then
    .error "selected_equation_indices size mismatch"
  else
    match glrcIlpPrepareHelperDecode cfg.k cfg.r cfg.z (req.helpers.map (·.blockId))
      req.failedBlockIds req.selectedEquationIndices with
    | none => .error "phase2 prepare helper decode failed"
    | some (decodeInverse, eqHelperTerms) =>
      .ok { decodeInverse, eqHelperTerms, writeTarget := phase2WriteTarget cfg req }

/-! ## Which requests are sent -/

section
variable {registered : String → Bool} {readyOk : ℕ → Bool} {session : Phase2Session}
  {lookup : List GlrcPipelineNodeLookup} {failed : List ℕ} {plan : GlrcIlpRepairPlan}
  {shardPlan : GlrcPhase2ShardPlan} {active blockSize globalS : ℕ} {clusters : List ℕ}
  {ips : List String} {ports : List ℕ}

/-- partition `i` of a shard plan -/
def planPartition (failed clusters : List ℕ) (ips : List String) (ports : List ℕ)
    (shardPlan : GlrcPhase2ShardPlan) (i : ℕ) : GlrcPartitionShardPlan :=
  partitionPlan failed clusters ips ports shardPlan.stripeByteLen
    (shardStart shardPlan.shardCount failed.length i)
    (partitionShardCount shardPlan.shardCount failed.length i) i

theorem mem_runPartition :
    req ∈ runPartition registered session lookup failed plan shardPlan pi part ↔
      part.shardCount ≠ 0 ∧ registered (chosenProxy part) = true ∧
        req = fillPhase2Request session lookup failed plan shardPlan pi part false := by
  unfold runPartition
  split_ifs <;> simp [*]

theorem mem_runPartitionReady :
    req ∈ (runPartitionReady registered readyOk session lookup failed plan shardPlan pi part).2 ↔
      part.shardCount ≠ 0 ∧ registered (chosenProxy part) = true ∧
        req = fillPhase2Request session lookup failed plan shardPlan pi part true := by
  unfold runPartitionReady
  split_ifs <;> simp [*]

theorem runPartitionReady_result :
    (runPartitionReady registered readyOk session lookup failed plan shardPlan pi part).1 = true ↔
      part.shardCount = 0 ∨ registered (chosenProxy part) = true ∧ readyOk pi = true := by
  unfold runPartitionReady
  split_ifs <;> simp [*]

section
variable (h : ShardPlanOf active blockSize globalS failed clusters ips ports shardPlan)
include h

theorem ShardPlanOf.zipIdx : shardPlan.partitions.zipIdx = (range failed.length).map fun i =>
    (planPartition failed clusters ips ports shardPlan i, i) := by
  rw [h.partitions, zipIdx_map_range, ← h.shardCount]
  rfl

theorem mem_readyCalls {call : Bool × List Phase2Request} :
    call ∈ readyCalls registered readyOk session lookup failed plan shardPlan ↔
      ∃ i < failed.length, 1 ≤ i ∧ call = runPartitionReady registered readyOk session lookup failed
        plan shardPlan i (planPartition failed clusters ips ports shardPlan i) := by
  unfold readyCalls
  rw [h.zipIdx]
  split
  · simp only [mem_map, mem_reverse, mem_filter, mem_range, decide_eq_true_eq]
    constructor
    · rintro ⟨_, ⟨⟨i, hi, rfl⟩, h1⟩, rfl⟩
      exact ⟨i, hi, h1, rfl⟩
    · rintro ⟨i, hi, h1, rfl⟩
      exact ⟨_, ⟨⟨i, hi, rfl⟩, h1⟩, rfl⟩
  · next hf =>
    refine ⟨fun hcall => absurd hcall not_mem_nil, fun ⟨i, hi, h1, _⟩ => ?_⟩
    omega

theorem mem_ready :
    req ∈ (phase2Launch registered readyOk session lookup failed plan shardPlan).ready ↔
      ∃ i < failed.length, 1 ≤ i ∧
        (planPartition failed clusters ips ports shardPlan i).shardCount ≠ 0 ∧
        registered (chosenProxy (planPartition failed clusters ips ports shardPlan i)) = true ∧
        req = fillPhase2Request session lookup failed plan shardPlan i
          (planPartition failed clusters ips ports shardPlan i) true := by
  show req ∈ (readyCalls _ _ _ _ _ _ _).flatMap (·.2) ↔ _
  simp only [mem_flatMap, mem_readyCalls h]
  constructor
  · rintro ⟨_, ⟨i, hi, h1, rfl⟩, hreq⟩
    exact ⟨i, hi, h1, mem_runPartitionReady.mp hreq⟩
  · rintro ⟨i, hi, h1, hreq⟩
    exact ⟨_, ⟨i, hi, h1, rfl⟩, mem_runPartitionReady.mpr hreq⟩

theorem readyCalls_all :
    (readyCalls registered readyOk session lookup failed plan shardPlan).all (·.1) = true ↔
      ∀ i < failed.length, 1 ≤ i →
        (planPartition failed clusters ips ports shardPlan i).shardCount = 0 ∨
        registered (chosenProxy (planPartition failed clusters ips ports shardPlan i)) = true ∧
          readyOk i = true := by
  simp only [all_eq_true, mem_readyCalls h]
  constructor
  · intro hres i hi h1
    exact runPartitionReady_result.mp (hres _ ⟨i, hi, h1, rfl⟩)
  · rintro hres _ ⟨i, hi, h1, rfl⟩
    exact runPartitionReady_result.mpr (hres i hi h1)

theorem mem_recovery :
    req ∈ (phase2Launch registered readyOk session lookup failed plan shardPlan).recovery ↔
      (readyCalls registered readyOk session lookup failed plan shardPlan).all (·.1) = true ∧
      ∃ i < failed.length, (planPartition failed clusters ips ports shardPlan i).shardCount ≠ 0 ∧
        registered (chosenProxy (planPartition failed clusters ips ports shardPlan i)) = true ∧
        req = fillPhase2Request session lookup failed plan shardPlan i
          (planPartition failed clusters ips ports shardPlan i) false := by
  unfold phase2Launch
  simp only [h.zipIdx]
  split
  · next hok =>
    simp only [mem_flatMap, mem_map, mem_range]
    constructor
    · rintro ⟨_, ⟨i, hi, rfl⟩, hreq⟩
      exact ⟨hok, i, hi, mem_runPartition.mp hreq⟩
    · rintro ⟨_, i, hi, hreq⟩
      exact ⟨_, ⟨i, hi, rfl⟩, mem_runPartition.mpr hreq⟩
  · next hok => exact ⟨fun hreq => absurd hreq not_mem_nil, fun hreq => absurd hreq.1 hok⟩

/-! ## The checks pass -/

theorem peers_fill (i : ℕ) (part : GlrcPartitionShardPlan) (readyOnly : Bool) :
    (fillPhase2Request session lookup failed plan shardPlan i part readyOnly).peers.map
      (·.partitionId) = (range failed.length).filter fun j => j ≠ i := by
  show ((shardPlan.partitions.zipIdx.filter fun p => p.2 ≠ i).map _).map _ = _
  rw [h.zipIdx, filter_map, map_map, map_map]
  exact map_id _

theorem ShardPlanOf.stripe_mul : globalS * shardPlan.stripeByteLen = blockSize := by
  rw [h.stripeByteLen]
  exact Nat.mul_div_cancel' h.dvd

theorem ShardPlanOf.stripe_pos : 0 < shardPlan.stripeByteLen := by
  refine pos_of_ne_zero fun h0 => ?_
  have hmul := h.stripe_mul
  rw [h0, mul_zero] at hmul
  exact ne_of_lt h.size_pos hmul

end

variable {cfg : Config}

theorem helperIds_fill (i : ℕ) (part : GlrcPartitionShardPlan) :
    (fillPhase2Request session lookup failed plan shardPlan i part false).helpers.map (·.blockId) =
      plan.helperBlockIds := by
  show (plan.helperBlockIds.map _).map _ = _
  rw [map_map]
  exact map_id _

section
variable (h : ShardPlanOf active cfg.blockSize globalS failed clusters ips ports shardPlan)
  (hactive : active ≤ globalS)
  (hshare : session.shareProxyNodeBandwidth = false → active = globalS) (hi : i < failed.length)
include h hactive hshare hi

theorem geometry_fill (readyOnly : Bool) :
    phase2GeometryOk cfg (fillPhase2Request session lookup failed plan shardPlan i
      (planPartition failed clusters ips ports shardPlan i) readyOnly) = true := by
  have hcount := h.shardCount
  have hmul := h.stripe_mul
  refine decide_eq_true ⟨?_, ?_, rfl, rfl, ?_, ?_, ?_⟩
  · show 1 ≤ shardPlan.shardCount
    rw [hcount]
    exact h.active_pos
  · exact shardStart_add_le hi
  · show 0 < shardPlan.shardCount * shardPlan.stripeByteLen
    rw [hcount]
    exact mul_pos h.active_pos h.stripe_pos
  · show shardPlan.shardCount * shardPlan.stripeByteLen ≤ cfg.blockSize
    rw [hcount, ← hmul]
    exact Nat.mul_le_mul_right _ hactive
  · intro hoff
    show shardPlan.shardCount * shardPlan.stripeByteLen = cfg.blockSize
    rw [hcount, hshare hoff, hmul]

variable (lookup) in
theorem phase2Start_fill
    (hok : PlanOk cfg.k cfg.r cfg.z failed plan) (hhelp : plan.helperBlockIds ≠ []) :
    ∃ aInv, glrcIlpBuildInverse cfg.k cfg.r cfg.z failed plan.selectedEquationIndices = some aInv ∧
      phase2Start cfg (fillPhase2Request session lookup failed plan shardPlan i
          (planPartition failed clusters ips ports shardPlan i) false) =
        .ok { decodeInverse := aInv
              eqHelperTerms := plan.selectedEquationIndices.map
                (helperTerms cfg.k cfg.r cfg.z plan.helperBlockIds failed)
              writeTarget := phase2WriteTarget cfg (fillPhase2Request session lookup failed plan
                shardPlan i (planPartition failed clusters ips ports shardPlan i) false) } := by
  obtain ⟨aInv, hinv, hprep⟩ := prepareHelperDecode_ok hok.solves hhelp hok.cover
  refine ⟨aInv, hinv, ?_⟩
  set req := fillPhase2Request session lookup failed plan shardPlan i
    (planPartition failed clusters ips ports shardPlan i) false with hreq
  have hids : req.helpers.map (·.blockId) = plan.helperBlockIds := helperIds_fill i _
  have hlen : req.helpers.length ≠ 0 := by
    rw [← length_map, hids]
    exact fun h0 => hhelp (length_eq_zero_iff.mp h0)
  have hstripe : req.stripeByteLen ≠ 0 := ne_of_gt h.stripe_pos
  have hgeo : phase2GeometryOk cfg req = true := geometry_fill h hactive hshare hi false
  have hpart : ¬ req.failedBlockIds.length ≤ req.partitionId := not_le.mpr hi
  have hsel : ¬ req.selectedEquationIndices.length ≠ req.failedBlockIds.length :=
    not_not.mpr hok.solves.length_eq
  simp only [phase2Start]
  rw [if_neg hpart, if_neg (by omega), if_neg (by rw [hgeo]; decide), if_neg hsel, hids,
    show req.failedBlockIds = failed from rfl,
    show req.selectedEquationIndices = plan.selectedEquationIndices from rfl, hprep]

end

variable (lookup plan) in
theorem writeTarget_fill
    (h : ShardPlanOf active cfg.blockSize globalS failed clusters ips ports shardPlan)
    (hwb : session.writeBack = true) (hi : i < failed.length) (part : GlrcPartitionShardPlan) :
    ∃ target, phase2WriteTarget cfg
        (fillPhase2Request session lookup failed plan shardPlan i part false) = some target ∧
      target.blockId = failed.getD i 0 ∧
      target.blockKey = (lookup.getD (failed.getD i 0) {}).blockKey ∧
      target.nodeIp = (lookup.getD (failed.getD i 0) {}).datanodeIp ∧
      target.nodePort = (lookup.getD (failed.getD i 0) {}).datanodePort := by
  have hwrite : 0 < shardPlan.shardCount ∧ session.writeBack = true := by
    rw [h.shardCount]
    exact ⟨h.active_pos, hwb⟩
  refine ⟨_, if_pos hwrite, rfl, ?_, ?_, ?_⟩
  · exact getD_map_of_lt _ _ hi 0 ""
  · exact getD_map_of_lt _ _ hi 0 ""
  · exact getD_map_of_lt _ _ hi 0 0

theorem helpers_of_start {start : Phase2Start} (h : phase2Start cfg req = .ok start) :
    req.helpers ≠ [] ∧ start.writeTarget = phase2WriteTarget cfg req ∧
      glrcIlpPrepareHelperDecode cfg.k cfg.r cfg.z (req.helpers.map (·.blockId)) req.failedBlockIds
        req.selectedEquationIndices = some (start.decodeInverse, start.eqHelperTerms) := by
  simp only [phase2Start] at h
  split at h
  · cases h
  · split at h
    · cases h
    · next hdims =>
      split at h
      · cases h
      · split at h
        · cases h
        · split at h
          · cases h
          · next hprep =>
            cases h
            refine ⟨fun h0 => hdims (.inl ?_), rfl, hprep⟩
            rw [h0]
            exact zero_lt_one

/-! ## All partitions are started -/

/-- every partition is sent a recovery and every acceptor a READY, the peers of a started partition
are all other partitions and are started themselves, and every failed block is written back -/
structure Phase2LaunchesAll (cfg : Config) (lookup : List GlrcPipelineNodeLookup) (failed : List ℕ)
    (out : Phase2Launch) : Prop where
  recovery : ∀ i < failed.length, ∃ req ∈ out.recovery, req.partitionId = i
  ready : ∀ i < failed.length, 1 ≤ i → ∃ req ∈ out.ready, req.partitionId = i
  peers : ∀ req ∈ out.recovery, req.peers.map (·.partitionId) =
    (range failed.length).filter fun j => j ≠ req.partitionId
  peers_started : ∀ req ∈ out.recovery, ∀ peer ∈ req.peers,
    ∃ req' ∈ out.recovery, req'.partitionId = peer.partitionId
  written : ∀ i < failed.length, ∃ req ∈ out.recovery, ∃ start target,
    phase2Start cfg req = .ok start ∧ start.writeTarget = some target ∧
      target.blockId = failed.getD i 0 ∧
      target.blockKey = (lookup.getD (failed.getD i 0) {}).blockKey ∧
      target.nodeIp = (lookup.getD (failed.getD i 0) {}).datanodeIp ∧
      target.nodePort = (lookup.getD (failed.getD i 0) {}).datanodePort

/-- **Phase2 launches every partition.**  All partitions, acceptors and peers are started and all
failed blocks written back exactly when there are at least as many shards as failed blocks, write-back
is on, the proxies are registered and answer READY, and the plan has a helper. -/
theorem phase2_launches_iff (S : StdSort) {policy : String} (hz : 0 < cfg.z)
    (hplan : glrcSolveRepairPlan S cfg.k cfg.r cfg.z failed policy = (true, plan))
    (hS : 0 < cfg.glrcShardCount) (hactive : active ≤ cfg.glrcShardCount)
    (hshare : session.shareProxyNodeBandwidth = false → active = cfg.glrcShardCount)
    (hbuild : GlrcPhase2ShardPlan.build active cfg.blockSize failed clusters ips ports
      cfg.glrcShardCount = .ok shardPlan) :
    Phase2LaunchesAll cfg lookup failed
        (phase2Launch registered readyOk session lookup failed plan shardPlan) ↔
      failed.length ≤ active ∧ session.writeBack = true ∧
        (∀ part ∈ shardPlan.partitions, registered (chosenProxy part) = true) ∧
        (∀ i < failed.length, 1 ≤ i → readyOk i = true) ∧ plan.helperBlockIds ≠ [] := by
  have h := build_ok hS hbuild
  set part := planPartition failed clusters ips ports shardPlan
  have hok := glrcSolveRepairPlan_ok S hz hplan
  have hparts : ∀ p, p ∈ shardPlan.partitions ↔ ∃ i < failed.length, part i = p := by
    intro p
    rw [h.partitions, ← h.shardCount, mem_map]
    simp only [mem_range]
    rfl
  have hcount : (∀ i < failed.length, (part i).shardCount ≠ 0) ↔ failed.length ≤ active := by
    rw [← forall_partitionShardCount_pos h.failed_pos, ← h.shardCount]
    rfl
  constructor
  · intro hall
    have hsent : ∀ i < failed.length,
        (part i).shardCount ≠ 0 ∧ registered (chosenProxy (part i)) = true := by
      intro i hi
      obtain ⟨req, hreq, hid⟩ := hall.recovery i hi
      obtain ⟨-, j, -, hpos, hreg, rfl⟩ := (mem_recovery h).mp hreq
      obtain rfl : j = i := hid
      exact ⟨hpos, hreg⟩
    obtain ⟨req, hreq, start, target, hstart, htarget, -⟩ := hall.written 0 h.failed_pos
    obtain ⟨hready, j, -, -, -, rfl⟩ := (mem_recovery h).mp hreq
    obtain ⟨hhelp, hwrite, -⟩ := helpers_of_start hstart
    refine ⟨hcount.mp fun i hi => (hsent i hi).1, ?_, ?_, ?_, ?_⟩
    · rw [hwrite] at htarget
      by_contra hoff
      have hnone : phase2WriteTarget cfg (fillPhase2Request session lookup failed plan shardPlan j
          (part j) false) = none :=
        if_neg fun hon => hoff hon.2
      rw [hnone] at htarget
      cases htarget
    · intro p hp
      obtain ⟨i, hi, rfl⟩ := (hparts p).mp hp
      exact (hsent i hi).2
    · intro i hi h1
      rcases (readyCalls_all h).mp hready i hi h1 with h0 | hacc
      · exact absurd h0 (hsent i hi).1
      · exact hacc.2
    · intro h0
      refine hhelp ?_
      show plan.helperBlockIds.map _ = []
      rw [h0]
      rfl
  · rintro ⟨hf, hwb, hreg, hready, hhelp⟩
    have hpos := hcount.mpr hf
    have hreg' : ∀ i < failed.length, registered (chosenProxy (part i)) = true :=
      fun i hi => hreg _ ((hparts _).mpr ⟨i, hi, rfl⟩)
    have hsent : ∀ i < failed.length, fillPhase2Request session lookup failed plan shardPlan i
        (part i) false ∈
          (phase2Launch registered readyOk session lookup failed plan shardPlan).recovery :=
      fun i hi => (mem_recovery h).mpr ⟨(readyCalls_all h).mpr fun i hi h1 =>
        .inr ⟨hreg' i hi, hready i hi h1⟩, i, hi, hpos i hi, hreg' i hi, rfl⟩
    refine ⟨fun i hi => ⟨_, hsent i hi, rfl⟩, fun i hi h1 => ?_, fun req hreq => ?_,
      fun req hreq peer hpeer => ?_, fun i hi => ?_⟩
    · exact ⟨_, (mem_ready h).mpr ⟨i, hi, h1, hpos i hi, hreg' i hi, rfl⟩, rfl⟩
    · obtain ⟨-, i, -, -, -, rfl⟩ := (mem_recovery h).mp hreq
      exact peers_fill h i _ false
    · obtain ⟨-, i, -, -, -, rfl⟩ := (mem_recovery h).mp hreq
      have hmem := mem_map_of_mem (f := fun p : Phase2Peer => p.partitionId) hpeer
      rw [peers_fill h] at hmem
      exact ⟨_, hsent _ (mem_range.mp (mem_of_mem_filter hmem)), rfl⟩
    · obtain ⟨aInv, -, hstart⟩ := phase2Start_fill lookup h hactive hshare hi hok hhelp
      obtain ⟨target, htarget, hto⟩ := writeTarget_fill lookup plan h hwb hi
        (part i)
      exact ⟨_, hsent i hi, _, target, hstart, htarget, hto⟩

end

/-! ## Two failed blocks of a small stripe -/

/-- blocks 0 and 1 of a stripe with 4 data blocks, by the equations L0 and G0 -/
def pairRepair : GlrcIlpRepairPlan :=
  { success := true, failedBlockIds := [0, 1], selectedEquations := ["L0", "G0"]
    selectedEquationIndices := [0, 2], helperBlockIds := [2, 3, 4, 6], helperBlockCount := 4 }

def pairConfig (shards : ℕ) : Config :=
  { k := 4, r := 2, z := 2, blockSize := 2, glrcShardCount := shards }

def pairShards (shards : ℕ) : GlrcPhase2ShardPlan where
  shardCount := shards
  blockSize := 2
  stripeByteLen := 2 / shards
  partitions := (range 2).map fun i => partitionPlan [0, 1] [0, 0] ["10.0.0.1", "10.0.0.2"]
    [50405, 50405] (2 / shards) (shardStart shards 2 i) (partitionShardCount shards 2 i) i

/-- with one shard for two failed blocks the second partition is not started, although the first one
has it as a peer -/
theorem phase2_skips_empty_partition :
    glrcSolveRepairPlan StdSort.insertion 4 2 2 [0, 1] "ilp" = (true, pairRepair) ∧
    GlrcPhase2ShardPlan.build 1 2 [0, 1] [0, 0] ["10.0.0.1", "10.0.0.2"] [50405, 50405] 1 =
      .ok (pairShards 1) ∧
    (phase2Launch (fun _ => true) (fun _ => true) {} [] [0, 1] pairRepair (pairShards 1)).ready = [] ∧
    (phase2Launch (fun _ => true) (fun _ => true) {} [] [0, 1] pairRepair
      (pairShards 1)).recovery.map (fun req => (req.partitionId, req.peers.map (·.partitionId))) =
        [(0, [1])] ∧
    ¬ Phase2LaunchesAll (pairConfig 1) [] [0, 1]
      (phase2Launch (fun _ => true) (fun _ => true) {} [] [0, 1] pairRepair (pairShards 1)) := by
  refine ⟨by decide +kernel, by decide +kernel, by decide +kernel, by decide +kernel, fun hall => ?_⟩
  exact absurd (hall.recovery 1 (by decide)) (by decide +kernel)

theorem phase2_launches_pair :
    Phase2LaunchesAll (pairConfig 2) [] [0, 1]
      (phase2Launch (fun _ => true) (fun _ => true) {} [] [0, 1] pairRepair (pairShards 2)) := by
  have hplan : glrcSolveRepairPlan StdSort.insertion (pairConfig 2).k (pairConfig 2).r (pairConfig 2).z
      [0, 1] "ilp" = (true, pairRepair) := by decide +kernel
  have hbuild : GlrcPhase2ShardPlan.build 2 (pairConfig 2).blockSize [0, 1] [0, 0]
      ["10.0.0.1", "10.0.0.2"] [50405, 50405] (pairConfig 2).glrcShardCount = .ok (pairShards 2) := by
    decide +kernel
  exact (phase2_launches_iff StdSort.insertion (by decide) hplan (by decide) (by decide)
    (fun _ => rfl) hbuild).mpr (by decide)

end Mlrc
