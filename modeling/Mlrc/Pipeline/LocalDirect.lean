import Mlrc.Pipeline.Stream
import Mlrc.Repair.Decode

/-!
# Local-direct chains

A local equation with a single failed block is repaired by a chain whose last hop sends to a sink,
which writes what arrives to the datanode of the failed block.  What arrives is the failed block
times its coefficient in the equation.

* `localDirectRecovery`   the sink;
* `sinkLoop_stream`   a complete stream is written in order;
* `localDirect_writes_iff`   when the written bytes are those of the failed block.
-/

namespace Mlrc

open Finset List

/-! ## The sink -/

structure SinkState where
  pending : List (ℕ × List UInt8) := []
  nextShard : ℕ := 0
  shardsReceived : ℕ := 0
  written : List UInt8 := []

/-- `flush_ready`; each turn takes an entry of `pending`, whose length bounds the turns -/
def flushReady : ℕ → SinkState → SinkState
  | 0, s => s
  | fuel + 1, s =>
    match s.pending.lookup s.nextShard with
    | none => s
    | some payload => flushReady fuel
        { s with
          pending := s.pending.filter fun p => p.1 ≠ s.nextShard
          nextShard := s.nextShard + 1
          written := s.written ++ payload }

/-- the receive loop of the sink; the bytes it has written when it ends -/
def sinkLoop (shardCount stripeLen : ℕ) :
    SinkState → List PipelineFrame → Except PipelineError (List UInt8)
  | _, [] => .error (.message "pipeline local sink recv failed: ")
  | s, .END _ count :: _ =>
    if count = s.shardsReceived then
      let s := flushReady s.pending.length s
      if s.nextShard = shardCount then .ok s.written
      else .error (.message ("pipeline local sink incomplete write next=" ++ toString s.nextShard))
    else .error (.message "pipeline local sink shard count mismatch")
  | s, .SHARD _ shard payload :: rest =>
    if shard < shardCount ∧ payload.length = stripeLen then
      let s := { s with
        pending := (shard, payload) :: s.pending.filter fun p => p.1 ≠ shard
        shardsReceived := s.shardsReceived + 1 }
      sinkLoop shardCount stripeLen (flushReady s.pending.length s) rest
    else .error (.message "pipeline local sink bad shard payload")

/-- the request with which a recovery write begins -/
structure RecoveryRange where
  blockKey : String
  blockId : Option ℕ
  recoveryOffset : ℕ
  recoverySize : ℕ
  recoveryDeferFsync : Bool
  recoveryCommitToken : String
  recoveryCommitParts : ℕ
  nodeIp : String
  nodePort : ℕ
deriving DecidableEq, Repr

/-- what the sinks and the hub announce for the shards of a session; size 0 stands for a write of the
whole block -/
def pipelineRange (shards : PipelineShardView) (hybridCommitToken fallbackToken : String)
    (rangeCommitParts : ℕ) (blockKey : String) (blockId : Option ℕ) (nodeIp : String)
    (nodePort : ℕ) : RecoveryRange :=
  let fullBlockWrite := decide (shards.globalBegin = 0 ∧ shards.localCount = shards.globalS)
  { blockKey := blockKey
    blockId := blockId
    recoveryOffset := if fullBlockWrite then 0 else shards.byteOff 0
    recoverySize := if fullBlockWrite then 0 else shards.localCount * shards.stripeLen
    recoveryDeferFsync := !fullBlockWrite
    recoveryCommitToken := if hybridCommitToken = "" then fallbackToken else hybridCommitToken
    recoveryCommitParts := if fullBlockWrite then 0 else max 2 rangeCommitParts
    nodeIp := nodeIp
    nodePort := nodePort }

/-- `glrcIlpPipelineLocalDirectRecovery` up to the opening of its write -/
def localDirectRange (cfg : Config) (req : ChainRequest) : Except PipelineError RecoveryRange :=
  let shards := req.view cfg
  if req.hops = [] then .error (.message "pipeline local sink missing survivor hops")
  else if !shards.validGeometry cfg.blockSize then
    .error (.message "invalid pipeline local sink shard geometry")
  else if req.localFailedBlockKey = "" ∨ req.localReplacedNodePort = 0 then
    .error (.message "pipeline local sink missing writeback target")
  else .ok (pipelineRange shards req.hybridCommitToken
    ("pipeline-local-" ++ toString req.exchangeEpoch ++ "-" ++ toString req.chainId)
    req.rangeCommitParts req.localFailedBlockKey req.localFailedBlockId req.localReplacedNodeIp
    req.localReplacedNodePort)

/-- a recovery write: its request, and the bytes streamed to the datanode -/
structure RecoveryWrite extends RecoveryRange where
  bytes : List UInt8
deriving DecidableEq, Repr

/-- `glrcIlpPipelineLocalDirectRecovery` -/
def localDirectRecovery (cfg : Config) (req : ChainRequest) (inbound : List PipelineFrame) :
    Except PipelineError RecoveryWrite := do
  let announced ← localDirectRange cfg req
  let shards := req.view cfg
  let bytes ← sinkLoop shards.localCount shards.stripeLen {} inbound
  return { announced with bytes }

def localDirectRun (cfg : Config) (disk : Datanodes) (session : PipelineSession)
    (plan : GlrcPipelinePlan) (chain : GlrcPipelineChainPlan) (ports : GlrcPipelineChainPorts) :
    Except PipelineError RecoveryWrite := do
  let out ← chainOutput cfg disk (launchChainHopsAndHead session cfg.z plan chain ports)
  localDirectRecovery cfg (fillPipelineChainFields session cfg.z plan chain ports .LOCAL_DIRECT 0)
    out.2

/-! ## A complete stream is written in order -/

theorem flushReady_single (i received : ℕ) (payload written : List UInt8) :
    flushReady 1 ⟨[(i, payload)], i, received, written⟩ =
      ⟨[], i + 1, received, written ++ payload⟩ := by
  simp [flushReady]

theorem sinkLoop_rest {n len slot : ℕ} {payload : ℕ → List UInt8}
    (hlen : ∀ i < n, (payload i).length = len) (m i : ℕ) (him : i + m = n) (written : List UInt8) :
    sinkLoop n len ⟨[], i, i, written⟩
      ((range' i m).map (fun i => .SHARD slot i (payload i)) ++ [.END slot n]) =
    .ok (written ++ (range' i m).flatMap payload) := by
  induction m generalizing i written with
  | zero =>
    obtain rfl : i = n := by omega
    show (if i = i then (if i = i then Except.ok written else _) else _) = _
    rw [if_pos rfl, if_pos rfl, range'_zero, flatMap_nil, append_nil]
  | succ m ih =>
    have hi : i < n := by omega
    rw [range'_succ, List.map_cons, cons_append, sinkLoop, if_pos ⟨hi, hlen i hi⟩]
    show sinkLoop n len (flushReady 1 ⟨[(i, payload i)], i, i + 1, written⟩) _ = _
    rw [flushReady_single, ih (i + 1) (by omega), flatMap_cons, append_assoc]

theorem sinkLoop_stream {n len slot : ℕ} {payload : ℕ → List UInt8}
    (hlen : ∀ i < n, (payload i).length = len) :
    sinkLoop n len {} (fullStream slot n payload) = .ok ((List.range n).flatMap payload) := by
  unfold fullStream
  rw [range_eq_range']
  exact sinkLoop_rest hlen n 0 (zero_add n) []

def PipelineSession.bytesOf (session : PipelineSession) (cfg : Config) (block : List UInt8) :
    List UInt8 :=
  (block.drop ((session.view cfg).byteOff 0)).take
    (session.localShardCount * (session.view cfg).stripeLen)

theorem flatMap_stripe (v : PipelineShardView) (block : List UInt8) (n : ℕ) :
    (List.range n).flatMap (v.stripe block) = (block.drop (v.byteOff 0)).take (n * v.stripeLen) := by
  induction n with
  | zero => simp
  | succ n ih =>
    have hoff : v.byteOff n = v.byteOff 0 + n * v.stripeLen := by
      show (v.globalBegin + n) * v.stripeLen = (v.globalBegin + 0) * v.stripeLen + n * v.stripeLen
      ring
    rw [range_succ, flatMap_append, ih, flatMap_cons, flatMap_nil,
      append_nil, Nat.succ_mul, take_add, drop_drop, PipelineShardView.stripe, hoff]

/-! ## What reaches the sink -/

section
variable {k r z : ℕ} {failed : List ℕ} {lookup : List GlrcPipelineNodeLookup}
  {chain : GlrcPipelineChainPlan} {b : ℕ} {node : GlrcPipelineNodeLookup}

theorem failedSum_single {e : ℕ} (he : e < z + r) (hnd : failed.Nodup)
    (hlt : ∀ b ∈ failed, b < k + r + z)
    (hb : (involvedBlocks (allEquations k r z) e).filter (· ∈ failed) = [b]) (c : ℕ → Gf) :
    failedSum k r z failed e c = Gf.mk (coef k r z e b) * c b := by
  have hmem : b ∈ (involvedBlocks (allEquations k r z) e).filter (· ∈ failed) := by
    rw [hb]
    exact List.mem_cons_self
  have hbf : b ∈ failed := of_decide_eq_true (List.mem_filter.mp hmem).2
  rw [failedSum, ← sum_toFinset _ hnd]
  apply sum_eq_single b
  · intro b' hb' hne
    have hf' : b' ∈ failed := mem_toFinset.mp hb'
    have h0 : coef k r z e b' = 0 := by
      by_contra hcoef
      have hin := mem_involved_of_coef_ne_zero he (hlt b' hf') hcoef
      have hmem' : b' ∈ (involvedBlocks (allEquations k r z) e).filter (· ∈ failed) :=
        List.mem_filter.mpr ⟨hin, decide_eq_true hf'⟩
      rw [hb] at hmem'
      exact hne (List.mem_singleton.mp hmem')
    rw [h0, Gf.mk_zero, zero_mul]
  · intro hb'
    exact absurd (mem_toFinset.mpr hbf) hb'

/-- the coefficient of the failed block of a local equation is 1 exactly for parities and for the
data block whose index has inverse 1 -/
theorem coef_eq_one_iff {e : ℕ} (he : e < z) (hb : b ∈ involvedBlocks (allEquations k r z) e) :
    coef k r z e b = 1 ↔ k ≤ b ∨ (b ^^^ (k + r)) % 256 = 1 := by
  have hlt : b < k + r + z := lt_of_mem_involved (by omega) hb
  rw [involvedBlocks_local he] at hb
  rw [coef_local he hlt, if_pos hb]
  by_cases hk : b < k
  · have hbyte : UInt8.ofNat (b ^^^ (k + r)) = 1 ↔ (b ^^^ (k + r)) % 256 = 1 := by
      rw [← UInt8.toNat_inj, UInt8.toNat_ofNat']
      rfl
    rw [glrcLocalBlockCoefficient, if_pos hk, ← Gf.mk_inj, Gf.mk_gfInv, Gf.mk_one, inv_eq_one,
      ← Gf.mk_one, Gf.mk_inj, hbyte]
    exact ⟨.inr, fun h => h.resolve_left (by omega)⟩
  · rw [glrcLocalBlockCoefficient_parity (Nat.le_of_not_lt hk)]
    exact ⟨fun _ => Or.inl (Nat.le_of_not_lt hk), fun _ => rfl⟩

section
variable (h : LocalDirectChainOf k r z failed lookup chain b node)
include h

theorem LocalDirectChainOf.mem :
    b ∈ (involvedBlocks (allEquations k r z) chain.equationIndex).filter (· ∈ failed) := by
  rw [h.failed_eq]
  exact List.mem_cons_self

theorem LocalDirectChainOf.mem_involved :
    b ∈ involvedBlocks (allEquations k r z) chain.equationIndex := List.mem_of_mem_filter h.mem

theorem LocalDirectChainOf.mem_failed : b ∈ failed := of_decide_eq_true (List.mem_filter.mp h.mem).2

theorem LocalDirectChainOf.survives : ∀ b' ∈ chain.hops.map (·.blockId), b' ∉ failed := by
  intro b' hb'
  exact of_decide_eq_true (List.mem_filter.mp (h.blocks.subset hb')).2

theorem LocalDirectChainOf.routable (hkey : node.blockKey ≠ "") : Routable chain where
  tail := fun ht => absurd (h.tail.symm.trans ht) (by decide)
  sink := fun _ => by
    have hpos := length_pos_iff.mpr h.hops_ne
    rcases lt_or_ge 1 chain.hops.length with h2 | h1
    · exact .inl h2
    · exact .inr ⟨by omega, h.localDirect⟩
  key := fun _ => by rw [h.failedKey]; exact hkey

end

/-- a recovery write that puts the bytes of block `b` where they belong -/
def WritesBlock (cfg : Config) (session : PipelineSession) (lookup : List GlrcPipelineNodeLookup)
    (content : ℕ → List UInt8) (b : ℕ) (result : Except PipelineError RecoveryWrite) : Prop :=
  ∃ w node, result = .ok w ∧ lookup[b]? = some node ∧ w.blockKey = node.blockKey ∧
    w.blockId = some b ∧ w.nodeIp = node.datanodeIp ∧ w.nodePort = node.datanodePort ∧
    w.recoveryOffset = (session.view cfg).byteOff 0 ∧ w.bytes = session.bytesOf cfg (content b)

variable {cfg : Config} {session : PipelineSession} {disk : Datanodes} {content : ℕ → List UInt8}
  {plan : GlrcPipelinePlan} {ports : GlrcPipelineChainPorts}

section
variable (h : LocalDirectChainOf cfg.k cfg.r cfg.z failed lookup chain b node)
  (hv : session.Valid cfg) (hkey : node.blockKey ≠ "") (hport : 0 < node.datanodePort)
include h hv hkey hport

theorem localDirectRange_eq :
    localDirectRange cfg (fillPipelineChainFields session cfg.z plan chain ports .LOCAL_DIRECT 0) =
      .ok (pipelineRange (session.view cfg) session.hybridCommitToken
        ("pipeline-local-" ++ toString plan.exchangeEpoch ++ "-" ++ toString chain.chainId)
        session.rangeCommitParts node.blockKey (some b) node.datanodeIp node.datanodePort) := by
  set req := fillPipelineChainFields session cfg.z plan chain ports .LOCAL_DIRECT 0 with hreq
  have hview : req.view cfg = session.view cfg := resolve_eq_view hv
  have htarget : ¬(req.localFailedBlockKey = "" ∨ req.localReplacedNodePort = 0) := by
    simp only [hreq, fillPipelineChainFields, h.localDirect, if_true, h.failedKey, h.replacedPort]
    exact not_or.mpr ⟨hkey, ne_of_gt hport⟩
  unfold localDirectRange
  simp only [hview]
  rw [if_neg (show ¬req.hops = [] from h.hops_ne), if_neg (by rw [hv.geometry]; decide),
    if_neg htarget]
  simp only [hreq, fillPipelineChainFields, h.localDirect, if_true, h.failedKey, h.failedId,
    h.replacedIp, h.replacedPort]

theorem localDirectRun_eq (hdisk : HoldsSurvivors cfg disk lookup failed content) :
    ∃ w, localDirectRun cfg disk session plan chain ports = .ok w ∧ w.blockKey = node.blockKey ∧
      w.blockId = some b ∧ w.nodeIp = node.datanodeIp ∧ w.nodePort = node.datanodePort ∧
      w.recoveryOffset = (session.view cfg).byteOff 0 ∧
      w.bytes = (List.range session.localShardCount).flatMap
        (payloadAfter cfg session cfg.z content chain chain.hops.length) := by
  have hholds := hdisk.blocks h.hops h.survives (senders chain)
  have hout : chainOutput cfg disk (launchChainHopsAndHead session cfg.z plan chain ports) =
      .ok (List.range (senders chain), fullStream chain.eqSlot session.localShardCount
        (payloadAfter cfg session cfg.z content chain (senders chain))) :=
    chainOutput_eq hv (h.routable hkey) hholds
  rw [senders_sink h.tail] at hout hholds
  have hview : (fillPipelineChainFields session cfg.z plan chain ports .LOCAL_DIRECT 0).view cfg =
    session.view cfg := resolve_eq_view hv
  unfold localDirectRun
  simp only [hout, bind, Except.bind]
  unfold localDirectRecovery
  rw [localDirectRange_eq h hv hkey hport, hview]
  simp only [show (session.view cfg).localCount = session.localShardCount from rfl, bind, Except.bind,
    sinkLoop_stream fun s hs => length_payloadAfter hv hholds (length_pos_iff.mpr h.hops_ne) le_rfl
      le_rfl hs]
  refine ⟨_, rfl, rfl, rfl, rfl, rfl, ?_, rfl⟩
  show (if decide ((session.view cfg).globalBegin = 0 ∧ _) = true then 0 else _) = _
  split
  · next hfull =>
    have hbegin : (session.view cfg).globalBegin = 0 := (of_decide_eq_true hfull).1
    rw [PipelineShardView.byteOff, PipelineShardView.globalShard, hbegin, zero_add, zero_mul]
  · rfl

end

section
variable {data : List (List UInt8)}
  (hc : content = blockOf (codeword genGlrcMatrix cfg.k cfg.r cfg.z data cfg.blockSize))
  (hd : DataBlocks cfg.k cfg.blockSize data) (hnd : failed.Nodup)
  (hlt : ∀ b ∈ failed, b < cfg.k + cfg.r + cfg.z)
  (h : LocalDirectChainOf cfg.k cfg.r cfg.z failed lookup chain b node) (hv : session.Valid cfg)
  (hdisk : HoldsSurvivors cfg disk lookup failed content)
include hc hd hnd hlt h hv hdisk

theorem mk_sinkByte {s i : ℕ} (hs : s < session.localShardCount) (hi : i < (session.view cfg).stripeLen) :
    Gf.mk ((payloadAfter cfg session cfg.z content chain chain.hops.length s).getD i 0) =
      Gf.mk (coef cfg.k cfg.r cfg.z chain.equationIndex b) *
        Gf.mk ((content b).getD ((session.view cfg).byteOff s + i) 0) := by
  subst hc
  set cw := codeword genGlrcMatrix cfg.k cfg.r cfg.z data cfg.blockSize with hcw
  have he : chain.equationIndex < cfg.z + cfg.r := Nat.lt_add_right _ h.eq_lt
  have hholds := hdisk.blocks h.hops h.survives chain.hops.length
  have hpos : (session.view cfg).byteOff s + i < cfg.blockSize := by
    have := hv.byteOff_le hs
    omega
  have hcode : IsCodeword cfg.k cfg.r cfg.z fun b =>
      Gf.mk (byteAt cw b ((session.view cfg).byteOff s + i)) := isCodeword_byteAt hd hpos
  rw [mk_getD_payloadAfter hv hholds h.hops (length_pos_iff.mpr h.hops_ne) le_rfl hs hi,
    take_of_length_le (by rw [length_map]), (h.blocks.map _).sum_eq]
  refine Eq.trans (survivors_sum he fun b =>
    Gf.mk (byteAt cw b ((session.view cfg).byteOff s + i))) ?_
  rw [survivorSum_eq hcode he hnd hlt, failedSum_single he hnd hlt h.failed_eq]
  rfl

theorem sinkBytes_eq_iff : (List.range session.localShardCount).flatMap
        (payloadAfter cfg session cfg.z content chain chain.hops.length) =
      session.bytesOf cfg (content b) ↔
    coef cfg.k cfg.r cfg.z chain.equationIndex b = 1 ∨ ∀ x ∈ session.bytesOf cfg (content b), x = 0 := by
  have hblock : (content b).length = cfg.blockSize := by
    rw [hc]
    exact length_blockOf_codeword hd (hlt b h.mem_failed)
  have hholds := hdisk.blocks h.hops h.survives chain.hops.length
  have hpay : ∀ s < session.localShardCount,
      (payloadAfter cfg session cfg.z content chain chain.hops.length s).length =
        (session.view cfg).stripeLen := fun s hs =>
    length_payloadAfter hv hholds (length_pos_iff.mpr h.hops_ne) le_rfl
      le_rfl hs
  have hstripe : ∀ s < session.localShardCount,
      ((session.view cfg).stripe (content b) s).length = (session.view cfg).stripeLen :=
    fun s hs => hv.length_stripe hblock hs
  have hbyte : ∀ s < session.localShardCount, ∀ i < (session.view cfg).stripeLen,
      ((payloadAfter cfg session cfg.z content chain chain.hops.length s).getD i 0 =
        ((session.view cfg).stripe (content b) s).getD i 0 ↔
      coef cfg.k cfg.r cfg.z chain.equationIndex b = 1 ∨
        ((session.view cfg).stripe (content b) s).getD i 0 = 0) := by
    intro s hs i hi
    rw [← Gf.mk_inj, mk_sinkByte hc hd hnd hlt h hv hdisk hs hi, getD_stripe _ _ hi, mul_left_eq_self₀,
      ← Gf.mk_one, Gf.mk_inj, Gf.mk_eq_zero]
  rw [PipelineSession.bytesOf, ← flatMap_stripe, flatMap_range_eq_iff fun s hs =>
    (hpay s hs).trans (hstripe s hs).symm]
  refine ⟨fun heq => ?_, fun hcond s hs => ?_⟩
  · by_cases hone : coef cfg.k cfg.r cfg.z chain.equationIndex b = 1
    · exact .inl hone
    · refine .inr fun x hx => ?_
      obtain ⟨s, hs, hxs⟩ := mem_flatMap.mp hx
      have hs' : s < session.localShardCount := List.mem_range.mp hs
      obtain ⟨i, hi, rfl⟩ := getElem_of_mem hxs
      have hi' : i < (session.view cfg).stripeLen := by rw [← hstripe s hs']; exact hi
      have hzero := ((hbyte s hs' i hi').mp (by rw [heq s hs'])).resolve_left hone
      rwa [getD_eq_getElem _ _ hi] at hzero
  · refine ext_getD (hpay s hs) (hstripe s hs) fun i hi => (hbyte s hs i hi).mpr ?_
    refine hcond.imp_right fun hzero => hzero _ (mem_flatMap.mpr ⟨s, List.mem_range.mpr hs, ?_⟩)
    have hi' : i < ((session.view cfg).stripe (content b) s).length := by rw [hstripe s hs]; exact hi
    rw [getD_eq_getElem _ _ hi']
    exact getElem_mem hi'

end

/-- **Local-direct repair.**  The sink of a selected local equation with one failed block `b` writes
the bytes of `b` exactly when `b` is a parity, or its coefficient happens to be 1, or the bytes are
all zero. -/
theorem localDirect_writes_iff {data : List (List UInt8)} {repairPlan : GlrcIlpRepairPlan}
    {hub epoch : ℕ} (hnd : failed.Nodup) (hlt : ∀ b ∈ failed, b < cfg.k + cfg.r + cfg.z)
    (hbuild : glrcBuildPipelinePlan cfg.k cfg.r cfg.z failed repairPlan
      (allEquations cfg.k cfg.r cfg.z) hub lookup epoch = .ok plan)
    (hlookup : ∀ node ∈ lookup, node.blockKey ≠ "" ∧ 0 < node.datanodePort)
    (hd : DataBlocks cfg.k cfg.blockSize data)
    (hdisk : HoldsSurvivors cfg disk lookup failed
      (blockOf (codeword genGlrcMatrix cfg.k cfg.r cfg.z data cfg.blockSize)))
    (hv : session.Valid cfg) {e : ℕ} (he : e ∈ repairPlan.selectedEquationIndices) (hez : e < cfg.z)
    (hb : (involvedBlocks (allEquations cfg.k cfg.r cfg.z) e).filter (· ∈ failed) = [b]) :
    ∃ chain ∈ plan.localDirectChains, chain.equationIndex = e ∧
      (WritesBlock cfg session lookup
          (blockOf (codeword genGlrcMatrix cfg.k cfg.r cfg.z data cfg.blockSize)) b
          (localDirectRun cfg disk session plan chain ports) ↔
        cfg.k ≤ b ∨ (b ^^^ (cfg.k + cfg.r)) % 256 = 1 ∨
          ∀ x ∈ session.bytesOf cfg
            (blockOf (codeword genGlrcMatrix cfg.k cfg.r cfg.z data cfg.blockSize) b), x = 0) := by
  obtain ⟨hubNode, chains, -, hall, rfl⟩ := glrcBuildPipelinePlan_ok hbuild
  obtain ⟨chain, hmem, hc⟩ := forall₂_mem_left hall he
  have hld : chain.localDirect = true :=
    hc.localDirect_iff.mpr ((mem_localDirectSet (by omega)).mpr ⟨he, hez, by rw [hb]; rfl⟩)
  obtain ⟨b', node, hchain⟩ := hc.toSink hld
  obtain rfl : b' = b := by
    have hfail := hchain.failed_eq
    rw [hc.index, hb] at hfail
    exact (cons.inj hfail).1.symm
  have hnode : node ∈ lookup := mem_of_getElem? hchain.node_eq
  obtain ⟨w, hrun, hkey, hid, hip, hport, hoff, hbytes⟩ := localDirectRun_eq hchain hv
    (hlookup node hnode).1 (hlookup node hnode).2 hdisk
  refine ⟨chain, List.mem_filter.mpr ⟨hmem, hld⟩, hc.index, ?_⟩
  rw [← or_assoc, ← coef_eq_one_iff hchain.eq_lt hchain.mem_involved,
    ← sinkBytes_eq_iff rfl hd hnd hlt hchain hv hdisk, ← hbytes]
  refine ⟨fun ⟨w', node', hrun', _, _, _, _, _, _, hw'⟩ => ?_, fun hw =>
    ⟨w, node, hrun, hchain.node_eq, hkey, hid, hip, hport, hoff, hw⟩⟩
  obtain rfl := Except.ok.inj (hrun.symm.trans hrun')
  exact hw'

end

/-! ## One lost block of a small stripe -/

/-- the configuration (4, 2, 2) with blocks of two bytes -/
def smallConfig : Config := { k := 4, r := 2, z := 2, blockSize := 2, glrcShardCount := 1 }

def smallSession : PipelineSession :=
  { localShardCount := 1, globalShardBegin := 0, globalShardCount := 1 }

def smallData : List (List UInt8) := [[1, 2], [3, 4], [5, 6], [7, 8]]

def smallBlocks : ℕ → List UInt8 := blockOf (codeword genGlrcMatrix 4 2 2 smallData 2)

/-- the repair of one block of the first group by its local equation -/
def localRepair (b : ℕ) (helpers : List ℕ) : GlrcIlpRepairPlan :=
  { success := true, failedBlockIds := [b], selectedEquations := ["L0"], selectedEquationIndices := [0]
    helperBlockIds := helpers, helperBlockCount := helpers.length }

/-- the local-direct chain of a lost block of the first group -/
def localRepairChain (b : ℕ) (hops : List (ℕ × UInt8)) : GlrcPipelineChainPlan :=
  { chainId := 0, equationIndex := 0, eqSlot := 0, equationName := "L0", localDirect := true
    localDirectFailedBlockId := some b
    localDirectFailedBlockKey := (stripeNode b).blockKey
    localDirectReplacedIp := (stripeNode b).datanodeIp
    localDirectReplacedPort := (stripeNode b).datanodePort
    localDirectSinkProxyIp := (stripeNode b).proxyIp
    localDirectSinkProxyPort := (stripeNode b).proxyPort
    hops := hops.map fun p => (stripeNode p.1).hop p.1 p.2
    hubInEquation := true }

/-- a lost data block comes back multiplied by its coefficient: `[1, 2]` as `[122, 244]` -/
theorem localDirect_scales_data_block :
    glrcSolveRepairPlan StdSort.insertion 4 2 2 [0] "ilp" = (true, localRepair 0 [1, 2, 6]) ∧
    selectHub (allEquations 4 2 2) (localRepair 0 [1, 2, 6]) [1, 2, 6] = some 1 ∧
    glrcBuildPipelinePlan 4 2 2 [0] (localRepair 0 [1, 2, 6]) (allEquations 4 2 2) 1 (stripeNodes 8) 1 =
      .ok (stripePlan 1 [] [localRepairChain 0 [(6, 1), (2, 71), (1, 186)]]) ∧
    HoldsSurvivors smallConfig (stripeDisks smallBlocks) (stripeNodes 8) [0] smallBlocks ∧
    smallBlocks 0 = [1, 2] ∧
    ¬ WritesBlock smallConfig smallSession (stripeNodes 8) smallBlocks 0
      (localDirectRun smallConfig (stripeDisks smallBlocks) smallSession
        (stripePlan 1 [] [localRepairChain 0 [(6, 1), (2, 71), (1, 186)]])
        (localRepairChain 0 [(6, 1), (2, 71), (1, 186)]) ⟨[20000, 20150, 20300], 20075⟩) := by
  refine ⟨by decide +kernel, by decide +kernel, by decide +kernel,
    holdsSurvivors_stripe (by decide +kernel), by decide +kernel, ?_⟩
  intro hwrites
  obtain ⟨w, node, hrun, -, -, -, -, -, -, hbytes⟩ := hwrites
  have hgot : localDirectRun smallConfig (stripeDisks smallBlocks) smallSession
      (stripePlan 1 [] [localRepairChain 0 [(6, 1), (2, 71), (1, 186)]])
      (localRepairChain 0 [(6, 1), (2, 71), (1, 186)]) ⟨[20000, 20150, 20300], 20075⟩ =
      .ok { blockKey := "0_0", blockId := some 0, recoveryOffset := 0, recoverySize := 0
            recoveryDeferFsync := false, recoveryCommitToken := "pipeline-local-1-0"
            recoveryCommitParts := 0, nodeIp := "10.0.0.1", nodePort := 17600
            bytes := [122, 244] } := by decide +kernel
  rw [hgot] at hrun
  cases hrun
  exact absurd hbytes (by decide +kernel)

theorem localDirect_writes_parity :
    ∃ chain ∈ (stripePlan 0 [] [localRepairChain 6 [(2, 71), (1, 186), (0, 122)]]).localDirectChains,
      chain.equationIndex = 0 ∧ (WritesBlock smallConfig smallSession (stripeNodes 8) smallBlocks 6
        (localDirectRun smallConfig (stripeDisks smallBlocks) smallSession
          (stripePlan 0 [] [localRepairChain 6 [(2, 71), (1, 186), (0, 122)]]) chain
          ⟨[20000, 20150, 20300], 20075⟩) ↔
        4 ≤ 6 ∨ (6 ^^^ (4 + 2)) % 256 = 1 ∨
          ∀ x ∈ smallSession.bytesOf smallConfig (smallBlocks 6), x = 0) := by
  have hnd : ([6] : List ℕ).Nodup := by decide
  have hbuild : glrcBuildPipelinePlan smallConfig.k smallConfig.r smallConfig.z [6]
      (localRepair 6 [0, 1, 2]) (allEquations smallConfig.k smallConfig.r smallConfig.z) 0
      (stripeNodes 8) 1 = .ok (stripePlan 0 [] [localRepairChain 6 [(2, 71), (1, 186), (0, 122)]]) := by
    decide +kernel
  have hd : DataBlocks smallConfig.k smallConfig.blockSize smallData := ⟨by decide, by decide⟩
  have hv : smallSession.Valid smallConfig := ⟨by decide, by decide, by decide, by decide⟩
  exact localDirect_writes_iff hnd (by decide) hbuild (by decide +kernel) hd
    (holdsSurvivors_stripe (by decide +kernel)) hv (by decide) (by decide) (by decide +kernel)

end Mlrc
