import Mlrc.Phase2.ExchangeInv
import Mlrc.Pipeline.LocalDirect

/-!
# Phase2 writes the failed blocks

The requests of one shard plan divide the active shards of the stripe among the partitions, and every
partition prepares the decoder of the same repair plan.

* `fillPhase2Request_ok`   what the exchange needs of a request;
* `phase2_writes_shards`   what the writers have sent when their partitions return true.
-/

namespace Mlrc

open List Option

variable {blockSize globalS i : ℕ} {req : Phase2Request}

section
variable {cfg : Config} {disk : Datanodes} {session : Phase2Session}
  {lookup : List GlrcPipelineNodeLookup} {failed clusters : List ℕ} {ips : List String}
  {ports : List ℕ} {plan : GlrcIlpRepairPlan} {shardPlan : GlrcPhase2ShardPlan} {active : ℕ}
  {data : List (List UInt8)}

def phase2Requests (session : Phase2Session) (lookup : List GlrcPipelineNodeLookup) (failed : List ℕ)
    (plan : GlrcIlpRepairPlan) (shardPlan : GlrcPhase2ShardPlan) : List Phase2Request :=
  shardPlan.partitions.zipIdx.map fun p =>
    fillPhase2Request session lookup failed plan shardPlan p.2 p.1 false

/-- stripe `shard` of the failed block `t` of a codeword -/
def failedStripe (cw : List (List UInt8)) (failed : List ℕ) (len t shard : ℕ) : List UInt8 :=
  readAt (blockOf cw (failed.getD t 0)) (shard * len) len

section
variable (h : ShardPlanOf active blockSize globalS failed clusters ips ports shardPlan)
include h

theorem getElem?_phase2Requests :
    (phase2Requests session lookup failed plan shardPlan)[i]? = some req ↔
      i < failed.length ∧ req = fillPhase2Request session lookup failed plan shardPlan i
        (planPartition failed clusters ips ports shardPlan i) false := by
  unfold phase2Requests
  rw [h.zipIdx, List.map_map, getElem?_map, map_eq_some_iff]
  constructor
  · rintro ⟨j, hj, rfl⟩
    obtain ⟨hlt, rfl⟩ := List.getElem?_eq_some_iff.mp hj
    rw [length_range] at hlt
    refine ⟨hlt, ?_⟩
    rw [getElem_range]
    rfl
  · rintro ⟨hi, rfl⟩
    exact ⟨i, by rw [getElem?_range hi], rfl⟩

theorem lookupPeerShards_fill {j b c : ℕ} {part : GlrcPartitionShardPlan}
    (hpeer : lookupPeerShards (fillPhase2Request session lookup failed plan shardPlan i part false) j =
      some (b, c)) : b + c ≤ active := by
  obtain ⟨peer, hfind, heq⟩ := map_eq_some_iff.mp hpeer
  have hmem := mem_of_find?_eq_some hfind
  have hmem : peer ∈ (shardPlan.partitions.zipIdx.filter fun p => p.2 ≠ i).map
    fun p => (⟨p.1.proxyIp, p.1.proxyPort, p.2, p.1.shardBegin, p.1.shardCount⟩ : Phase2Peer) := hmem
  rw [h.zipIdx] at hmem
  obtain ⟨_, hp, rfl⟩ := mem_map.mp hmem
  obtain ⟨m, hm, rfl⟩ := mem_map.mp (mem_of_mem_filter hp)
  cases heq
  show shardStart shardPlan.shardCount failed.length m +
    partitionShardCount shardPlan.shardCount failed.length m ≤ active
  rw [h.shardCount]
  exact shardStart_add_le (mem_range.mp hm)

theorem peers_lt_fill {part : GlrcPartitionShardPlan} :
    ∀ peer ∈ (fillPhase2Request session lookup failed plan shardPlan i part false).peers,
      peer.partitionId < failed.length := by
  intro peer hpeer
  have hmem := mem_map_of_mem (f := fun p : Phase2Peer => p.partitionId) hpeer
  rw [peers_fill h] at hmem
  exact mem_range.mp (mem_of_mem_filter hmem)

end

theorem PlanOk.helper_survives {k r z : ℕ} (hok : PlanOk k r z failed plan) {b : ℕ}
    (hb : b ∈ plan.helperBlockIds) : b < k + r + z ∧ b ∉ failed := by
  rw [hok.helpers] at hb
  obtain ⟨⟨e, he, hinv⟩, hbf⟩ := mem_unionHelpers.mp hb
  exact ⟨lt_of_mem_involved (hok.solves.1 e he) hinv, hbf⟩

theorem shard_range_le
    (h : ShardPlanOf active cfg.blockSize cfg.glrcShardCount failed clusters ips ports shardPlan)
    (hactive : active ≤ cfg.glrcShardCount) {shardK : ℕ} (hi : i < failed.length)
    (hk : shardK < partitionShardCount active failed.length i) :
    (shardStart active failed.length i + shardK) * shardPlan.stripeByteLen + shardPlan.stripeByteLen ≤
      cfg.blockSize := by
  have hle := @shardStart_add_le active failed.length i hi
  rw [← Nat.succ_mul, ← h.stripe_mul]
  exact Nat.mul_le_mul_right _ (by omega)

def shardExchange (disk : Datanodes)
    (h : ShardPlanOf active cfg.blockSize cfg.glrcShardCount failed clusters ips ports shardPlan)
    (hactive : active ≤ cfg.glrcShardCount) (hlt : ∀ b ∈ failed, b < cfg.k + cfg.r + cfg.z)
    (hd : DataBlocks cfg.k cfg.blockSize data) : BlockExchange :=
  have hsize : active * shardPlan.stripeByteLen ≤ cfg.blockSize := by
    rw [← h.stripe_mul]
    exact Nat.mul_le_mul_right _ hactive
  { cfg, disk, f := failed.length, len := shardPlan.stripeByteLen, total := active
    want := failedStripe (codeword genGlrcMatrix cfg.k cfg.r cfg.z data cfg.blockSize) failed
      shardPlan.stripeByteLen
    size := hsize
    want_length := fun t ht shard hshard => by
      apply length_readAt
      rw [length_blockOf_codeword hd (hlt _ (getD_mem ht)), ← Nat.succ_mul]
      exact (Nat.mul_le_mul_right _ hshard).trans hsize }

section
variable (h : ShardPlanOf active cfg.blockSize cfg.glrcShardCount failed clusters ips ports shardPlan)
  (hok : PlanOk cfg.k cfg.r cfg.z failed plan)
  (hdisk : ∀ b < cfg.k + cfg.r + cfg.z, b ∉ failed →
    disk (lookup.getD b {}).blockKey (lookup.getD b {}).datanodeIp (lookup.getD b {}).datanodePort =
      some (blockOf (codeword genGlrcMatrix cfg.k cfg.r cfg.z data cfg.blockSize) b))
  (hactive : active ≤ cfg.glrcShardCount) (hnd : failed.Nodup)
  (hlt : ∀ b ∈ failed, b < cfg.k + cfg.r + cfg.z) (hd : DataBlocks cfg.k cfg.blockSize data)
  (hi : i < failed.length)
include h hok hdisk

section
variable (hreq : req = fillPhase2Request session lookup failed plan shardPlan i
    (planPartition failed clusters ips ports shardPlan i) false) {p : Phase2Partition}
  (hbufs : ∀ h helper block, req.helpers[h]? = some helper →
    disk helper.blockKey helper.datanodeIp helper.datanodePort = some block →
    p.getBufs h = readAt block req.byteOff req.byteLen)
include hreq hbufs

theorem byteAt_getBufs {j o : ℕ} (hj : j < plan.helperBlockIds.length)
    (ho : o < partitionShardCount active failed.length i * shardPlan.stripeByteLen) :
    byteAt ((range plan.helperBlockIds.length).map p.getBufs) j o =
      byteAt (codeword genGlrcMatrix cfg.k cfg.r cfg.z data cfg.blockSize)
        (plan.helperBlockIds.getD j 0)
        (shardStart active failed.length i * shardPlan.stripeByteLen + o) := by
  obtain ⟨hb, hbf⟩ := hok.helper_survives (getD_mem hj)
  have hhelper : req.helpers[j]? = some ⟨(lookup.getD (plan.helperBlockIds.getD j 0) {}).datanodeIp,
      (lookup.getD (plan.helperBlockIds.getD j 0) {}).datanodePort,
      (lookup.getD (plan.helperBlockIds.getD j 0) {}).blockKey, plan.helperBlockIds.getD j 0⟩ := by
    rw [hreq]
    show (plan.helperBlockIds.map _)[j]? = _
    rw [getElem?_map, getElem?_eq_getElem hj, getD_eq_getElem _ 0 hj]
    rfl
  have hbuf := hbufs j _ _ hhelper (hdisk _ hb hbf)
  have hoff : req.byteOff = shardStart active failed.length i * shardPlan.stripeByteLen := by
    rw [hreq, ← h.shardCount]
    rfl
  have hlen : req.byteLen = partitionShardCount active failed.length i * shardPlan.stripeByteLen := by
    rw [hreq, ← h.shardCount]
    rfl
  rw [byteAt, getD_map_range _ hj, hbuf, hoff, getD_readAt _ _ (by rw [hlen]; exact ho)]
  rfl

include hactive hnd hlt hd hi

theorem decodeLocalShard_fill {start : Phase2Start} {shardK : ℕ}
    (hstart : phase2Start cfg req = .ok start) (hk : shardK < req.shardCountLocal) :
    decodeLocalShard req start p shardK = some ((range failed.length).map fun t => failedStripe
      (codeword genGlrcMatrix cfg.k cfg.r cfg.z data cfg.blockSize) failed shardPlan.stripeByteLen t
      (req.shardBegin + shardK)) := by
  set cw := codeword genGlrcMatrix cfg.k cfg.r cfg.z data cfg.blockSize with hcw
  set len := shardPlan.stripeByteLen with hlen
  set begin := shardStart active failed.length i with hbegin
  obtain ⟨hhelp, -, hprep⟩ := helpers_of_start hstart
  have hids : req.helpers.map (·.blockId) = plan.helperBlockIds := by
    rw [hreq]
    exact helperIds_fill i _
  have hne : plan.helperBlockIds ≠ [] := by
    rw [← hids]
    exact fun h0 => hhelp (map_eq_nil_iff.mp h0)
  have hfailed : req.failedBlockIds = failed := by rw [hreq]; rfl
  have hsel : req.selectedEquationIndices = plan.selectedEquationIndices := by rw [hreq]; rfl
  have hlen' : req.stripeByteLen = len := by rw [hreq]; rfl
  have hbegin' : req.shardBegin = begin := by rw [hreq, hbegin, ← h.shardCount]; rfl
  have hoff : req.byteOff = begin * len := by rw [hreq, hbegin, ← h.shardCount]; rfl
  have hcount : shardK < partitionShardCount active failed.length i := by
    rw [hreq] at hk
    rw [← h.shardCount]
    exact hk
  -- the prepared decoder is that of the plan
  obtain ⟨aInv, hinv, hprep'⟩ := prepareHelperDecode_ok hok.solves hne hok.cover
  rw [hids, hfailed, hsel] at hprep
  obtain ⟨rfl, hterms⟩ := Prod.mk.inj (some.inj (hprep'.symm.trans hprep))
  have hend := shard_range_le h hactive hi hcount
  rw [add_mul] at hend
  unfold decodeLocalShard
  rw [← length_map (f := fun helper : Phase2Helper => helper.blockId), hids, hfailed, hlen', hoff,
    hbegin', ← hterms, decodeHelperCompact_eq hd hnd hlt hok.solves hinv hok.cover
      le_self_add hend fun j hj o ho => ?_]
  · rw [some.injEq]
    refine ext_getElem (by simp) fun t ht ht' => ?_
    have ht : t < failed.length := by simpa using ht
    rw [getElem_map, getElem_map, getElem_range, failedStripe, add_mul,
      getD_eq_getElem _ 0 ht]
  · have hin : shardK * len + o < partitionShardCount active failed.length i * len := by
      have hmul := Nat.mul_le_mul_right len (show shardK + 1 ≤ _ from hcount)
      rw [Nat.succ_mul] at hmul
      omega
    rw [Nat.add_sub_cancel_left, byteAt_getBufs h hok hdisk hreq hbufs hj hin, add_assoc]

end

include hactive hnd hlt hd hi in
theorem fillPhase2Request_ok : RequestOk (shardExchange disk h hactive hlt hd) i
      (fillPhase2Request session lookup failed plan shardPlan i
        (planPartition failed clusters ips ports shardPlan i) false) where
  id := rfl
  lt := hi
  failed_length := rfl
  len_eq := rfl
  total_eq := h.shardCount
  range_le := by
    show _ ≤ active
    rw [← h.shardCount]
    exact shardStart_add_le hi
  off_eq := rfl
  peer_lt := peers_lt_fill h
  peer_le := fun j b c hpeer => lookupPeerShards_fill h hpeer
  decode := fun start p k hstart hk hbufs =>
    decodeLocalShard_fill h hok hdisk hactive hnd hlt hd hi rfl hbufs hstart hk

end

/-- **The exchange writes the failed blocks.**  In every run of the partitions with the requests of
one shard plan, the writer of a partition that has returned true has sent the shards of its failed
block to the datanode of that block, all active shards in order and each once. -/
theorem phase2_writes_shards (S : StdSort) {policy : String} (hz : 0 < cfg.z) (hnd : failed.Nodup)
    (hlt : ∀ b ∈ failed, b < cfg.k + cfg.r + cfg.z)
    (hplan : glrcSolveRepairPlan S cfg.k cfg.r cfg.z failed policy = (true, plan))
    (hS : 0 < cfg.glrcShardCount) (hactive : active ≤ cfg.glrcShardCount)
    (hbuild : GlrcPhase2ShardPlan.build active cfg.blockSize failed clusters ips ports
      cfg.glrcShardCount = .ok shardPlan)
    (hwb : session.writeBack = true) (hd : DataBlocks cfg.k cfg.blockSize data)
    (hdisk : ∀ b < cfg.k + cfg.r + cfg.z, b ∉ failed →
      disk (lookup.getD b {}).blockKey (lookup.getD b {}).datanodeIp (lookup.getD b {}).datanodePort =
        some (blockOf (codeword genGlrcMatrix cfg.k cfg.r cfg.z data cfg.blockSize) b))
    {es : List Phase2Event} {s : Phase2System}
    (hrun : run (phase2Step cfg disk (phase2Requests session lookup failed plan shardPlan)) es
      (phase2Init cfg (phase2Requests session lookup failed plan shardPlan)) = some s)
    {i : ℕ} (hi : i < failed.length) (hret : (s.part i).main = .returned true) :
    ∃ ws, (s.part i).writeStream = some ws ∧
      ws.target.blockId = failed.getD i 0 ∧
      ws.target.blockKey = (lookup.getD (failed.getD i 0) {}).blockKey ∧
      ws.target.nodeIp = (lookup.getD (failed.getD i 0) {}).datanodeIp ∧
      ws.target.nodePort = (lookup.getD (failed.getD i 0) {}).datanodePort ∧
      ws.sent = (range active).map fun shard => (shard,
        readAt (blockOf (codeword genGlrcMatrix cfg.k cfg.r cfg.z data cfg.blockSize)
          (failed.getD i 0)) (shard * shardPlan.stripeByteLen) shardPlan.stripeByteLen) := by
  have h := build_ok hS hbuild
  have hok := glrcSolveRepairPlan_ok S hz hplan
  obtain ⟨hsome, hnone⟩ := run_sent (x := shardExchange disk h hactive hlt hd) (fun j req hj => by
      obtain ⟨hjf, rfl⟩ := (getElem?_phase2Requests h).mp hj
      exact fillPhase2Request_ok h hok hdisk hactive hnd hlt hd hjf)
    hrun ((getElem?_phase2Requests h).mpr ⟨hi, rfl⟩) hret
  obtain ⟨target, htarget, hto⟩ := writeTarget_fill lookup plan h hwb hi
    (planPartition failed clusters ips ports shardPlan i)
  cases hws : (s.part i).writeStream with
  | none => cases htarget.symm.trans (hnone hws)
  | some ws =>
    obtain ⟨heq, hsent⟩ := hsome ws hws
    obtain rfl := some.inj (htarget.symm.trans heq)
    obtain ⟨hid, hkey, hip, hport⟩ := hto
    exact ⟨ws, rfl, hid, hkey, hip, hport, hsent⟩

end

/-- a run of two partitions with one shard each, in which both return true -/
def pairRun : List Phase2Event :=
  ([0, 1].flatMap fun i => ([.readHelper 0, .readHelper 1, .readHelper 2, .readHelper 3,
    .helperRoundDone, .submitShard, .takeShard, .decodeShard, .copyTarget, .copyTarget, .markDecoded,
    .countDecoded, .releaseShard, .drained] : List LocalEvent).map (.step i)) ++
  [.send 0 1, .send 1 0, .receive 0 1, .receive 1 0] ++
  [0, 1].flatMap fun i => ([.storeReceived (1 - i), .markReceived (1 - i), .exchangeJoined, .pickShard,
    .writeShard, .pickShard, .writeShard, .closeWriter, .finish true] : List LocalEvent).map (.step i)

def pairRequests : List Phase2Request :=
  phase2Requests {} (stripeNodes 8) [0, 1] pairRepair (pairShards 2)

theorem phase2_writes_pair :
    ∃ s, run (phase2Step (pairConfig 2) (stripeDisks smallBlocks) pairRequests) pairRun
        (phase2Init (pairConfig 2) pairRequests) = some s ∧
      ((s.part 0).main = .returned true ∧
        ∃ ws, (s.part 0).writeStream = some ws ∧ ws.sent = [(0, [1]), (1, [2])]) ∧
      (s.part 1).main = .returned true ∧
        ∃ ws, (s.part 1).writeStream = some ws ∧ ws.sent = [(0, [3]), (1, [4])] := by
  have hrun : (run (phase2Step (pairConfig 2) (stripeDisks smallBlocks) pairRequests) pairRun
      (phase2Init (pairConfig 2) pairRequests)).map (fun s => ((s.part 0).main, (s.part 1).main)) =
        some (.returned true, .returned true) := by decide +kernel
  obtain ⟨s, hs, hmain⟩ := map_eq_some_iff.mp hrun
  obtain ⟨h0, h1⟩ := Prod.mk.inj hmain
  have hwrites := fun i hi hret => phase2_writes_shards StdSort.insertion
    (show 0 < (pairConfig 2).z by decide) (by decide) (by decide)
    (show glrcSolveRepairPlan StdSort.insertion 4 2 2 [0, 1] "ilp" = (true, pairRepair) by
      decide +kernel) (by decide) (le_refl 2)
    (show GlrcPhase2ShardPlan.build 2 2 [0, 1] [0, 0] ["10.0.0.1", "10.0.0.2"] [50405, 50405] 2 =
      .ok (pairShards 2) by decide +kernel) rfl (show DataBlocks 4 2 smallData from ⟨by decide, by decide⟩)
    (by decide +kernel) hs (i := i) hi hret
  obtain ⟨ws, hws, -, -, -, -, hsent⟩ := hwrites 0 (by decide) h0
  obtain ⟨ws', hws', -, -, -, -, hsent'⟩ := hwrites 1 (by decide) h1
  refine ⟨s, hs, ⟨h0, ws, hws, hsent.trans ?_⟩, h1, ws', hws', hsent'.trans ?_⟩
  · decide +kernel
  · decide +kernel

end Mlrc
