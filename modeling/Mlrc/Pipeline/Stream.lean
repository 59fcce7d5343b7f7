import Mlrc.Pipeline.Chain

/-!
# What a chain delivers

A chain whose head finds its next hop delivers, shard by shard, the sum of its blocks times their
coefficients, and passes every hop once.

* `hopLoop_stream`   a hop server adds its block to a complete stream;
* `chainOutput_eq`   the stream that reaches the fan-in;
* `mk_getD_chainPayload`   its bytes are the weighted sum over the hops;
* `connect_listen`   every process connects to the address at which the next one listens.
-/

namespace Mlrc

open Finset

variable {k r e i n s : ℕ} {failed : List ℕ} {hops : List GlrcPipelineHopInfo}

theorem survivors_sum {z : ℕ} (he : e < z + r) (c : ℕ → Gf) :
    ((helperBlocksForEquation (allEquations k r z) failed e).map fun b =>
      Gf.mk (coef k r z e b) * c b).sum = survivorSum k r z failed e c := by
  have hnd : (helperBlocksForEquation (allEquations k r z) failed e).Nodup :=
    (involved_nodup he).filter _
  rw [← List.sum_toFinset _ hnd, survivorSum]
  refine sum_subset (fun b hb => ?_) fun b hb hb' => ?_
  · obtain ⟨hinv, hf⟩ := List.mem_filter.mp (List.mem_toFinset.mp hb)
    exact mem_filter.mpr ⟨mem_range.mpr (lt_of_mem_involved he hinv), of_decide_eq_true hf⟩
  · obtain ⟨hlt, hf⟩ := mem_filter.mp hb
    have h0 : coef k r z e b = 0 := by
      by_contra hne
      refine hb' (List.mem_toFinset.mpr (List.mem_filter.mpr ⟨?_, decide_eq_true hf⟩))
      exact mem_involved_of_coef_ne_zero he (mem_range.mp hlt) hne
    rw [h0, Gf.mk_zero, zero_mul]

/-! ## Stripes -/

/-- the range of a session makes sense for the configuration -/
structure PipelineSession.Valid (session : PipelineSession) (cfg : Config) : Prop where
  pos : 0 < session.localShardCount
  le : session.globalShardBegin + session.localShardCount ≤ session.globalShardCount
  dvd : session.globalShardCount ∣ cfg.blockSize
  size_pos : 0 < cfg.blockSize

def PipelineSession.view (session : PipelineSession) (cfg : Config) : PipelineShardView where
  globalBegin := session.globalShardBegin
  localCount := session.localShardCount
  globalS := session.globalShardCount
  stripeLen := cfg.blockSize / session.globalShardCount

/-- the bytes of shard `i` of a block -/
def PipelineShardView.stripe (v : PipelineShardView) (block : List UInt8) (i : ℕ) : List UInt8 :=
  (block.drop (v.byteOff i)).take v.stripeLen

section
variable {cfg : Config} {session : PipelineSession}

section
variable (h : session.Valid cfg)
include h

theorem resolve_eq_view :
    resolvePipelineShardView cfg session.localShardCount session.globalShardBegin
      session.globalShardCount = session.view cfg := by
  have hpos := h.pos
  have hle := h.le
  have hS : 0 < session.globalShardCount := by omega
  have hmod : cfg.blockSize % session.globalShardCount = 0 := Nat.mod_eq_zero_of_dvd h.dvd
  simp only [resolvePipelineShardView, PipelineSession.view, hS, hpos, hmod, if_true, and_self]
  rw [if_neg (by omega)]

theorem PipelineSession.Valid.mul_eq :
    session.globalShardCount * (session.view cfg).stripeLen = cfg.blockSize :=
  Nat.mul_div_cancel' h.dvd

theorem PipelineSession.Valid.stripeLen_pos : 0 < (session.view cfg).stripeLen := by
  refine pos_of_ne_zero fun h0 => ?_
  have hmul := h.mul_eq
  rw [h0, mul_zero] at hmul
  exact ne_of_lt h.size_pos hmul

theorem PipelineSession.Valid.geometry : (session.view cfg).validGeometry cfg.blockSize = true := by
  have hpos := h.pos
  have hle := h.le
  refine decide_eq_true ⟨hpos, ?_, h.stripeLen_pos, hle, h.mul_eq⟩
  show 0 < session.globalShardCount
  omega

theorem PipelineSession.Valid.byteOff_le (hi : i < session.localShardCount) :
    (session.view cfg).byteOff i + (session.view cfg).stripeLen ≤ cfg.blockSize := by
  have hle := h.le
  have hlast : session.globalShardBegin + i + 1 ≤ session.globalShardCount := by omega
  show (session.globalShardBegin + i) * (session.view cfg).stripeLen +
    (session.view cfg).stripeLen ≤ cfg.blockSize
  rw [← Nat.succ_mul, ← h.mul_eq]
  exact Nat.mul_le_mul_right _ hlast

theorem PipelineSession.Valid.length_stripe {block : List UInt8}
    (hblock : block.length = cfg.blockSize) (hi : i < session.localShardCount) :
    ((session.view cfg).stripe block i).length = (session.view cfg).stripeLen := by
  have hend := h.byteOff_le hi
  rw [PipelineShardView.stripe, List.length_take, List.length_drop, hblock]
  omega

theorem PipelineSession.Valid.read_eq {block : List UInt8}
    (hblock : block.length = cfg.blockSize) (hi : i < session.localShardCount) :
    readDatanodeStreamShard ((block.drop ((session.view cfg).byteOff 0)).take
      (session.localShardCount * (session.view cfg).stripeLen)) i (session.view cfg).stripeLen =
      some ((session.view cfg).stripe block i) := by
  set len := (session.view cfg).stripeLen with hlen
  have hroom : len ≤ session.localShardCount * len - i * len := by
    rw [← Nat.sub_mul]
    exact Nat.le_mul_of_pos_left _ (by omega)
  have hoff : (session.view cfg).byteOff 0 + i * len = (session.view cfg).byteOff i := by
    show (session.globalShardBegin + 0) * len + i * len = (session.globalShardBegin + i) * len
    ring
  have hbytes : (((block.drop ((session.view cfg).byteOff 0)).take
      (session.localShardCount * len)).drop (i * len)).take len =
        (session.view cfg).stripe block i := by
    rw [List.drop_take, List.take_take, min_eq_left hroom, List.drop_drop, hoff]
    rfl
  unfold readDatanodeStreamShard
  simp only [hbytes]
  rw [if_pos (h.length_stripe hblock hi)]

end

/-! ## Complete streams -/

/-- shards `0, .., n - 1` and the end of the stream -/
def fullStream (slot n : ℕ) (payload : ℕ → List UInt8) : List PipelineFrame :=
  (List.range n).map (fun i => .SHARD slot i (payload i)) ++ [.END slot n]

theorem hopLoop_rest {req : ChainRequest} {me : GlrcPipelineHopInfo} {stream : List UInt8}
    {len slot : ℕ} {payload src : ℕ → List UInt8} (hlen : ∀ i < n, (payload i).length = len)
    (hread : ∀ i < n, readDatanodeStreamShard stream i len = some (src i)) (m i : ℕ)
    (him : i + m = n) : hopLoop req me stream n len i
      ((List.range' i m).map (fun i => .SHARD slot i (payload i)) ++ [.END slot n]) =
    .ok ((List.range' i m).map (fun i => .SHARD req.eqSlot i (glrcPipelineAccumulateRange (payload i)
      (src i) me.coef (pipelineCodecFromRequest req))) ++ [.END req.eqSlot n]) := by
  induction m generalizing i with
  | zero =>
    show (if n = i then _ else _) = _
    rw [if_pos (by omega)]
    rfl
  | succ m ih =>
    have hi : i < n := by omega
    rw [List.range'_succ, List.map_cons, List.cons_append, hopLoop, if_pos ⟨hi, hlen i hi⟩, hread i hi]
    simp only
    rw [ih (i + 1) (by omega)]
    rfl

theorem hopLoop_stream {req : ChainRequest} {me : GlrcPipelineHopInfo} {stream : List UInt8}
    {len slot : ℕ} {payload src : ℕ → List UInt8} (hlen : ∀ i < n, (payload i).length = len)
    (hread : ∀ i < n, readDatanodeStreamShard stream i len = some (src i)) :
    hopLoop req me stream n len 0 (fullStream slot n payload) =
      .ok (fullStream req.eqSlot n fun i => glrcPipelineAccumulateRange (payload i) (src i) me.coef
        (pipelineCodecFromRequest req)) := by
  unfold fullStream
  rw [List.range_eq_range']
  exact hopLoop_rest hlen hread n 0 (zero_add n)

/-- the payload of a shard after the head and the hops behind it -/
def chainPayload (codec : GlrcPipelineEqCodec) (src : GlrcPipelineHopInfo → List UInt8) :
    List GlrcPipelineHopInfo → List UInt8
  | [] => []
  | head :: hops => hops.foldl (fun acc hop => glrcPipelineAccumulateRange acc (src hop) hop.coef codec)
      (glrcPipelineInitPartialRange (src head) head.coef codec)

theorem chainPayload_concat (codec : GlrcPipelineEqCodec) (src : GlrcPipelineHopInfo → List UInt8)
    (hne : hops ≠ []) (hop : GlrcPipelineHopInfo) :
    chainPayload codec src (hops ++ [hop]) =
      glrcPipelineAccumulateRange (chainPayload codec src hops) (src hop) hop.coef codec := by
  cases hops with
  | nil => exact absurd rfl hne
  | cons head hops => rw [List.cons_append, chainPayload, List.foldl_append]; rfl

/-! ## The value of a payload -/

theorem length_initPartialRange (src : List UInt8) (coef : UInt8) (codec : GlrcPipelineEqCodec) :
    (glrcPipelineInitPartialRange src coef codec).length = src.length := by
  unfold glrcPipelineInitPartialRange
  split_ifs <;> simp

theorem length_accumulateRange {dst src : List UInt8} (h : dst.length = src.length) (coef : UInt8)
    (codec : GlrcPipelineEqCodec) :
    (glrcPipelineAccumulateRange dst src coef codec).length = dst.length := by
  unfold glrcPipelineAccumulateRange
  split_ifs <;> simp [h]

theorem mk_getD_initPartialRange (src : List UInt8) (coef : UInt8) (codec : GlrcPipelineEqCodec)
    (hi : i < src.length) :
    Gf.mk ((glrcPipelineInitPartialRange src coef codec).getD i 0) =
      Gf.mk coef * Gf.mk (src.getD i 0) := by
  have hmul : Gf.mk ((src.map (gfMul coef)).getD i 0) = Gf.mk coef * Gf.mk (src.getD i 0) := by
    rw [getD_map_of_lt _ _ hi 0, Gf.mk_gfMul]
  unfold glrcPipelineInitPartialRange
  split_ifs with hlocal hone
  · rw [hmul]
  · rw [not_not] at hone
    rw [hone, Gf.mk_one, one_mul]
  · rw [hmul]

theorem mk_accumulateByte (dst src coef : UInt8) (codec : GlrcPipelineEqCodec) :
    Gf.mk (glrcPipelineAccumulateByte dst src coef codec) = Gf.mk dst + Gf.mk coef * Gf.mk src := by
  unfold glrcPipelineAccumulateByte
  split_ifs with hzero hlocal hone
  · rw [hzero, Gf.mk_zero, zero_mul, add_zero]
  · rw [Gf.mk_xor, Gf.mk_gfMul]
  · rw [not_not] at hone
    rw [Gf.mk_xor, hone, Gf.mk_one, one_mul]
  · rw [Gf.mk_xor, Gf.mk_gfMul]

theorem mk_getD_accumulateRange {dst src : List UInt8} (coef : UInt8) (codec : GlrcPipelineEqCodec)
    (hdst : i < dst.length) (hsrc : i < src.length) :
    Gf.mk ((glrcPipelineAccumulateRange dst src coef codec).getD i 0) =
      Gf.mk (dst.getD i 0) + Gf.mk coef * Gf.mk (src.getD i 0) := by
  unfold glrcPipelineAccumulateRange
  split_ifs with hzero hone
  · rw [hzero, Gf.mk_zero, zero_mul, add_zero]
  · rw [getD_zipWith _ hdst hsrc 0 0, Gf.mk_xor, hone.2, Gf.mk_one, one_mul]
  · rw [getD_zipWith _ hdst hsrc 0 0, mk_accumulateByte]

section
variable {codec : GlrcPipelineEqCodec} {src : GlrcPipelineHopInfo → List UInt8} {len : ℕ}

theorem length_chainPayload (hne : hops ≠ [])
    (hsrc : ∀ hop ∈ hops, (src hop).length = len) : (chainPayload codec src hops).length = len := by
  induction hops using List.reverseRecOn with
  | nil => exact absurd rfl hne
  | append_singleton hops hop ih =>
    have hlast : (src hop).length = len := hsrc hop (by simp)
    by_cases h0 : hops = []
    · subst h0
      exact (length_initPartialRange _ _ _).trans hlast
    · have hinit := ih h0 fun h hmem => hsrc h (List.mem_append_left _ hmem)
      rw [chainPayload_concat _ _ h0, length_accumulateRange (hinit.trans hlast.symm), hinit]

theorem mk_getD_chainPayload (hne : hops ≠ [])
    (hsrc : ∀ hop ∈ hops, (src hop).length = len) (hi : i < len) :
    Gf.mk ((chainPayload codec src hops).getD i 0) =
      (hops.map fun hop => Gf.mk hop.coef * Gf.mk ((src hop).getD i 0)).sum := by
  induction hops using List.reverseRecOn with
  | nil => exact absurd rfl hne
  | append_singleton hops hop ih =>
    have hlast : i < (src hop).length := by rw [hsrc hop (by simp)]; exact hi
    by_cases h0 : hops = []
    · subst h0
      rw [List.nil_append, List.map_cons, List.map_nil, List.sum_cons, List.sum_nil, add_zero]
      exact mk_getD_initPartialRange _ _ _ hlast
    · have hrest : ∀ h ∈ hops, (src h).length = len := fun h hmem =>
        hsrc h (List.mem_append_left _ hmem)
      have hinit : i < (chainPayload codec src hops).length := by
        rw [length_chainPayload h0 hrest]
        exact hi
      rw [chainPayload_concat _ _ h0, mk_getD_accumulateRange _ _ hinit hlast, ih h0 hrest,
        List.map_append, List.sum_append, List.map_cons, List.map_nil, List.sum_cons, List.sum_nil,
        add_zero]

end

/-! ## Routing -/

/-- the number of processes that send on a chain -/
def senders (chain : GlrcPipelineChainPlan) : ℕ :=
  if chain.hubIsChainTail then chain.hops.length - 1 else chain.hops.length

/-- a chain on which every process finds its next hop -/
structure Routable (chain : GlrcPipelineChainPlan) : Prop where
  tail : chain.hubIsChainTail = true → 2 ≤ chain.hops.length ∧ chain.localDirect = false
  sink : chain.hubIsChainTail = false →
    2 ≤ chain.hops.length ∨ chain.hops.length = 1 ∧ chain.localDirect = true
  key : chain.localDirect = true → chain.localDirectFailedBlockKey ≠ ""

section
variable {z : ℕ} {plan : GlrcPipelinePlan} {chain : GlrcPipelineChainPlan}
  {ports : GlrcPipelineChainPorts}

theorem senders_tail (h : chain.hubIsChainTail = true) : senders chain = chain.hops.length - 1 :=
  if_pos h

theorem senders_sink (h : chain.hubIsChainTail = false) : senders chain = chain.hops.length :=
  if_neg (by rw [h]; decide)

theorem senders_le (chain : GlrcPipelineChainPlan) : senders chain ≤ chain.hops.length := by
  unfold senders
  split_ifs <;> omega

section
variable (h : Routable chain)
include h

theorem Routable.senders_pos : 0 < senders chain := by
  cases htail : chain.hubIsChainTail with
  | true =>
    have := (h.tail htail).1
    rw [senders_tail htail]
    omega
  | false =>
    rw [senders_sink htail]
    rcases h.sink htail with h2 | h1 <;> omega

theorem Routable.lastHopServer : lastHopServer chain + 1 = senders chain := by
  have hpos := h.senders_pos
  unfold senders Mlrc.lastHopServer at *
  split_ifs at * <;> omega

theorem pipelineChainIsLocalDirect_fill (role : GlrcPipelineRole) (i : ℕ) :
    pipelineChainIsLocalDirect (fillPipelineChainFields session z plan chain ports role i) =
      chain.localDirect := by
  show ((if chain.localDirect = true then chain.localDirectFailedBlockKey else "") != "") = _
  cases hld : chain.localDirect with
  | true =>
    rw [if_pos rfl, bne_iff_ne]
    exact h.key hld
  | false => rfl

theorem headNext_fill (role : GlrcPipelineRole) (i : ℕ) :
    headNext (fillPipelineChainFields session z plan chain ports role i) =
      .ok (if 1 < senders chain then .hop 1 else .fanin) := by
  unfold headNext
  simp only [pipelineChainIsLocalDirect_fill h]
  show (if (chain.hubIsChainTail && decide (chain.hops.length ≤ 2) ||
    !chain.hubIsChainTail && chain.hops.length == 1 && chain.localDirect) = true then _
    else if 1 < chain.hops.length then _ else _) = _
  cases htail : chain.hubIsChainTail with
  | true =>
    obtain ⟨h2, -⟩ := h.tail htail
    rw [senders_tail htail]
    by_cases hle : chain.hops.length ≤ 2
    · rw [if_pos (by simp [hle]), if_neg (by omega)]
    · rw [if_neg (by simp [hle]), if_pos (by omega), if_pos (by omega)]
  | false =>
    rw [senders_sink htail]
    rcases h.sink htail with h2 | ⟨h1, hld⟩
    · have hne : chain.hops.length ≠ 1 := by omega
      rw [if_neg (by simp [hne]), if_pos (by omega), if_pos (by omega)]
    · rw [if_pos (by simp [h1, hld]), if_neg (by omega)]

theorem hopNext_fill (role : GlrcPipelineRole) (hi : i < senders chain) :
    hopNext (fillPipelineChainFields session z plan chain ports role i) =
      .ok (if i + 1 < senders chain then .hop (i + 1) else .fanin) := by
  have hconn : pipelineHopConnectsToHub (fillPipelineChainFields session z plan chain ports role i) i
      chain.hops.length = (i + 1 == senders chain) := by
    unfold pipelineHopConnectsToHub
    rw [pipelineChainIsLocalDirect_fill h]
    show (if chain.localDirect = true then _ else if chain.hubIsChainTail = true then _ else _) = _
    cases htail : chain.hubIsChainTail with
    | true =>
      obtain ⟨h2, hld⟩ := h.tail htail
      rw [hld, if_neg (by decide), if_pos rfl, senders_tail htail, Bool.eq_iff_iff, beq_iff_eq,
        beq_iff_eq]
      omega
    | false =>
      rw [senders_sink htail, if_neg (show ¬ (false = true) by decide)]
      exact ite_self _
  have hle := senders_le chain
  unfold hopNext
  show (if pipelineHopConnectsToHub (fillPipelineChainFields session z plan chain ports role i) i
    chain.hops.length = true then _ else if i + 1 < chain.hops.length then _ else _) = _
  rw [hconn]
  by_cases hlast : i + 1 = senders chain
  · rw [if_pos (by simpa using hlast), if_neg (by omega)]
  · rw [if_neg (by simpa using hlast), if_pos (by omega), if_pos (by omega)]
    rfl

/-! ## The stream of a chain -/

theorem hopRequest_launched (hi0 : 0 < i) (hi : i < senders chain) :
    hopRequest (launchChainHopsAndHead session z plan chain ports) i =
      some (fillPipelineChainFields session z plan chain ports .HOP_SERVER i) := by
  have hlast := h.lastHopServer
  refine find?_eq_some_of_unique ?_ (decide_eq_true ⟨rfl, rfl⟩) fun req hreq hp => ?_
  · refine List.mem_append_left _ (List.mem_map_of_mem ?_)
    rw [List.mem_reverse, List.mem_range'_1]
    omega
  · obtain ⟨hrole, hidx⟩ := of_decide_eq_true hp
    rcases List.mem_append.mp hreq with hmem | hmem
    · obtain ⟨j, _, rfl⟩ := List.mem_map.mp hmem
      rw [show j = i from hidx]
    · split at hmem
      · cases hmem
      · rw [List.mem_singleton.mp hmem] at hrole
        cases hrole

end

theorem headRequest_launched (h : chain.hops ≠ []) :
    (launchChainHopsAndHead session z plan chain ports).find?
        (fun req => decide (req.role = .CHAIN_HEAD)) =
      some (fillPipelineChainFields session z plan chain ports .CHAIN_HEAD 0) := by
  refine find?_eq_some_of_unique ?_ (decide_eq_true rfl) fun req hreq hp => ?_
  · rw [launchChainHopsAndHead, if_neg h]
    exact List.mem_append_right _ List.mem_cons_self
  · rw [launchChainHopsAndHead, if_neg h] at hreq
    rcases List.mem_append.mp hreq with hmem | hmem
    · obtain ⟨j, _, rfl⟩ := List.mem_map.mp hmem
      cases of_decide_eq_true hp
    · exact List.mem_singleton.mp hmem

/-- the datanodes hold the blocks of a list of hops -/
def HoldsBlocks (cfg : Config) (disk : Datanodes) (content : ℕ → List UInt8)
    (hops : List GlrcPipelineHopInfo) : Prop :=
  ∀ hop ∈ hops, disk hop.blockKey hop.datanodeIp hop.datanodePort = some (content hop.blockId) ∧
    (content hop.blockId).length = cfg.blockSize

def chainCodec (z : ℕ) (chain : GlrcPipelineChainPlan) : GlrcPipelineEqCodec :=
  if chain.equationIndex < z then .LOCAL_LINEAR else .GLOBAL_CAUCHY

/-- the payload of shard `s` after the first `i` hops of a chain -/
def payloadAfter (cfg : Config) (session : PipelineSession) (z : ℕ) (content : ℕ → List UInt8)
    (chain : GlrcPipelineChainPlan) (i s : ℕ) : List UInt8 :=
  chainPayload (chainCodec z chain)
    (fun hop => (session.view cfg).stripe (content hop.blockId) s) (chain.hops.take i)

theorem codec_fill (role : GlrcPipelineRole) (i : ℕ) :
    pipelineCodecFromRequest (fillPipelineChainFields session z plan chain ports role i) =
      chainCodec z chain := by
  unfold pipelineCodecFromRequest chainCodec
  show (if decide (chain.equationIndex < z) = true then _ else _) = _
  simp only [decide_eq_true_eq]

variable {disk : Datanodes} {content : ℕ → List UInt8}

theorem openStream_eq (hdisk : HoldsBlocks cfg disk content hops)
    {hop : GlrcPipelineHopInfo} (hmem : hop ∈ hops) (off len : ℕ) :
    openDatanodeReadStream disk hop off len = some (((content hop.blockId).drop off).take len) := by
  rw [openDatanodeReadStream, (hdisk hop hmem).1]
  rfl

theorem payloadAfter_succ (hi0 : 0 < i) (hi : i < chain.hops.length) :
    payloadAfter cfg session z content chain (i + 1) s =
      glrcPipelineAccumulateRange (payloadAfter cfg session z content chain i s)
        ((session.view cfg).stripe (content chain.hops[i].blockId) s) chain.hops[i].coef
        (chainCodec z chain) := by
  have hne : chain.hops.take i ≠ [] := by
    intro h0
    have := congrArg List.length h0
    rw [List.length_take, List.length_nil] at this
    omega
  unfold payloadAfter
  rw [List.take_succ_eq_append_getElem hi, chainPayload_concat _ _ hne]

section
variable (hv : session.Valid cfg)
include hv

theorem length_payloadAfter {m : ℕ}
    (hdisk : HoldsBlocks cfg disk content (chain.hops.take m)) (hi0 : 0 < i) (him : i ≤ m)
    (hi : i ≤ chain.hops.length) (hs : s < session.localShardCount) :
    (payloadAfter cfg session z content chain i s).length = (session.view cfg).stripeLen := by
  refine length_chainPayload ?_ fun hop hmem => ?_
  · intro h0
    have := congrArg List.length h0
    rw [List.length_take, List.length_nil] at this
    omega
  · have hmem' : hop ∈ chain.hops.take m := List.take_subset_take_left _ him hmem
    exact hv.length_stripe (hdisk hop hmem').2 hs

variable (h : Routable chain)
  (hdisk : HoldsBlocks cfg disk content (chain.hops.take (senders chain)))
include h hdisk

theorem chainHead_stream :
    chainHead cfg disk (fillPipelineChainFields session z plan chain ports .CHAIN_HEAD 0) =
      .ok (if 1 < senders chain then .hop 1 else .fanin,
        fullStream chain.eqSlot session.localShardCount
          (payloadAfter cfg session z content chain 1)) := by
  have hpos := h.senders_pos
  have hle := senders_le chain
  obtain ⟨head, hops, hcons⟩ := List.exists_cons_of_length_pos (by omega : 0 < chain.hops.length)
  have hmem : head ∈ chain.hops.take (senders chain) := by
    obtain ⟨m, hm⟩ := Nat.exists_eq_succ_of_ne_zero (ne_of_gt hpos)
    rw [hcons, hm]
    exact List.mem_cons_self
  have hframes : (List.range session.localShardCount).mapM (runChainHeadShard
      (fillPipelineChainFields session z plan chain ports .CHAIN_HEAD 0) head
      (((content head.blockId).drop ((session.view cfg).byteOff 0)).take
        (session.localShardCount * (session.view cfg).stripeLen)) (session.view cfg).stripeLen) =
      Except.ok ((List.range session.localShardCount).map fun i =>
        PipelineFrame.SHARD chain.eqSlot i (payloadAfter cfg session z content chain 1 i)) := by
    refine mapM_eq_ok_map fun i hi => ?_
    unfold runChainHeadShard
    rw [hv.read_eq (hdisk head hmem).2 (List.mem_range.mp hi)]
    simp only [codec_fill]
    unfold payloadAfter
    rw [hcons]
    rfl
  unfold chainHead
  have hhops : (fillPipelineChainFields session z plan chain ports .CHAIN_HEAD 0).hops =
    head :: hops := hcons
  have hview : (fillPipelineChainFields session z plan chain ports .CHAIN_HEAD 0).view cfg =
    session.view cfg := resolve_eq_view hv
  split
  · next h0 => exact absurd (h0.symm.trans hhops) (List.cons_ne_nil _ _).symm
  · next head' rest hreq =>
    obtain ⟨rfl, rfl⟩ := List.cons.inj (hreq.symm.trans hhops)
    simp only [hview]
    rw [if_pos hv.geometry, headNext_fill h, openStream_eq hdisk hmem]
    simp only [bind, Except.bind, show (session.view cfg).localCount = session.localShardCount from rfl,
      hframes]
    rfl

theorem hopServer_stream (hi0 : 0 < i) (hi : i < senders chain) :
    hopServer cfg disk (fillPipelineChainFields session z plan chain ports .HOP_SERVER i)
        (fullStream chain.eqSlot session.localShardCount
          (payloadAfter cfg session z content chain i)) =
      .ok (if i + 1 < senders chain then .hop (i + 1) else .fanin,
        fullStream chain.eqSlot session.localShardCount
          (payloadAfter cfg session z content chain (i + 1))) := by
  have hle := senders_le chain
  have hlt : i < chain.hops.length := by omega
  have hmem : chain.hops[i] ∈ chain.hops.take (senders chain) :=
    List.mem_take_iff_getElem.mpr ⟨i, by omega, rfl⟩
  have hnext : ∀ s, glrcPipelineAccumulateRange (payloadAfter cfg session z content chain i s)
      ((session.view cfg).stripe (content chain.hops[i].blockId) s) chain.hops[i].coef
      (chainCodec z chain) = payloadAfter cfg session z content chain (i + 1) s :=
    fun s => (payloadAfter_succ hi0 hlt).symm
  have hloop : hopLoop (fillPipelineChainFields session z plan chain ports .HOP_SERVER i) chain.hops[i]
      (((content chain.hops[i].blockId).drop ((session.view cfg).byteOff 0)).take
        (session.localShardCount * (session.view cfg).stripeLen)) session.localShardCount
      (session.view cfg).stripeLen 0 (fullStream chain.eqSlot session.localShardCount
        (payloadAfter cfg session z content chain i)) =
      .ok (fullStream chain.eqSlot session.localShardCount
        (payloadAfter cfg session z content chain (i + 1))) := by
    rw [hopLoop_stream (fun s hs => length_payloadAfter hv hdisk hi0 (le_of_lt hi)
      (le_of_lt hlt) hs) (fun s hs => hv.read_eq (hdisk _ hmem).2 hs), codec_fill]
    simp only [hnext]
    rfl
  have hview : (fillPipelineChainFields session z plan chain ports .HOP_SERVER i).view cfg =
    session.view cfg := resolve_eq_view hv
  have hme : (fillPipelineChainFields session z plan chain ports .HOP_SERVER i).hops[
      (fillPipelineChainFields session z plan chain ports .HOP_SERVER i).myHopIndex]? =
    some chain.hops[i] := List.getElem?_eq_getElem hlt
  have hidx : ¬((fillPipelineChainFields session z plan chain ports .HOP_SERVER i).hops.length ≤ 1 ∨
      (fillPipelineChainFields session z plan chain ports .HOP_SERVER i).myHopIndex = 0) := by
    show ¬(chain.hops.length ≤ 1 ∨ i = 0)
    omega
  unfold hopServer
  rw [if_neg hidx, hme]
  simp only [hview]
  rw [if_pos hv.geometry, hopNext_fill h _ hi, openStream_eq hdisk hmem]
  simp only [bind, Except.bind, show (session.view cfg).localCount = session.localShardCount from rfl,
    hloop]
  rfl

theorem follow_stream (fuel i : ℕ) (path : List ℕ) (hi0 : 0 < i) (hi : i ≤ senders chain)
    (hfuel : senders chain ≤ i + fuel) :
    follow cfg disk (launchChainHopsAndHead session z plan chain ports) fuel path
        (if i < senders chain then .hop i else .fanin)
        (fullStream chain.eqSlot session.localShardCount
          (payloadAfter cfg session z content chain i)) =
      .ok (path ++ List.range' i (senders chain - i),
        fullStream chain.eqSlot session.localShardCount
          (payloadAfter cfg session z content chain (senders chain))) := by
  induction fuel generalizing i path with
  | zero =>
    obtain rfl : i = senders chain := by omega
    rw [if_neg (lt_irrefl _), Nat.sub_self, List.range'_zero, List.append_nil]
    rfl
  | succ fuel ih =>
    rcases lt_or_eq_of_le hi with hlt | rfl
    · have hsplit : senders chain - i = (senders chain - (i + 1)) + 1 := by omega
      rw [if_pos hlt, follow, hopRequest_launched h hi0 hlt]
      simp only [hopServer_stream hv h hdisk hi0 hlt, bind, Except.bind]
      rw [ih (i + 1) (path ++ [i]) (by omega) hlt (by omega), hsplit, List.range'_succ,
        List.append_assoc]
      rfl
    · rw [if_neg (lt_irrefl _), Nat.sub_self, List.range'_zero, List.append_nil]
      rfl

/-- **A chain delivers its sum.**  The stream passes every hop of a routable chain once, and the
frames that reach the fan-in carry the sum over the senders, shard by shard. -/
theorem chainOutput_eq : chainOutput cfg disk (launchChainHopsAndHead session z plan chain ports) =
      .ok (List.range (senders chain), fullStream chain.eqSlot session.localShardCount
        (payloadAfter cfg session z content chain (senders chain))) := by
  have hpos := h.senders_pos
  have hne : chain.hops ≠ [] := by
    intro h0
    have hle := senders_le chain
    rw [h0, List.length_nil] at hle
    omega
  have hlaunched : (launchChainHopsAndHead session z plan chain ports).length = senders chain := by
    rw [launchChainHopsAndHead, if_neg hne, ← h.lastHopServer]
    simp
  unfold chainOutput
  rw [headRequest_launched hne]
  simp only [chainHead_stream hv h hdisk, bind, Except.bind]
  rw [hlaunched, follow_stream hv h hdisk (senders chain) 1 [0] one_pos hpos (by omega)]
  congr 2
  rw [List.range_eq_range', ← Nat.sub_add_cancel hpos, List.range'_succ]
  rfl

end

/-! ## The value that is delivered -/

theorem getD_stripe (v : PipelineShardView) (block : List UInt8) (hi : i < v.stripeLen) :
    (v.stripe block s).getD i 0 = block.getD (v.byteOff s + i) 0 := by
  simp only [PipelineShardView.stripe, List.getD_eq_getElem?_getD, List.getElem?_take_of_lt hi,
    List.getElem?_drop]

theorem mk_getD_payloadAfter {m : ℕ} {lookup : List GlrcPipelineNodeLookup}
    (hv : session.Valid cfg) (hdisk : HoldsBlocks cfg disk content (chain.hops.take m))
    (hhops : ∀ hop ∈ chain.hops, HopOk k r z lookup e hop) (hm0 : 0 < m)
    (hm : m ≤ chain.hops.length) (hs : s < session.localShardCount)
    (hi : i < (session.view cfg).stripeLen) :
    Gf.mk ((payloadAfter cfg session z content chain m s).getD i 0) =
      (((chain.hops.map (·.blockId)).take m).map fun b => Gf.mk (coef k r z e b) *
        Gf.mk ((content b).getD ((session.view cfg).byteOff s + i) 0)).sum := by
  have hne : chain.hops.take m ≠ [] := by
    intro h0
    have := congrArg List.length h0
    rw [List.length_take, List.length_nil] at this
    omega
  unfold payloadAfter
  rw [mk_getD_chainPayload hne (fun hop hmem => hv.length_stripe (hdisk hop hmem).2 hs) hi,
    ← List.map_take, List.map_map]
  refine congrArg List.sum (List.map_congr_left fun hop hmem => ?_)
  show Gf.mk hop.coef * _ = Gf.mk (coef k r z e hop.blockId) * _
  rw [(hhops hop (List.mem_of_mem_take hmem)).coef_eq, getD_stripe _ _ hi]

/-- the datanodes hold the blocks that have not failed -/
def HoldsSurvivors (cfg : Config) (disk : Datanodes) (lookup : List GlrcPipelineNodeLookup)
    (failed : List ℕ) (content : ℕ → List UInt8) : Prop :=
  ∀ b node, b ∉ failed → lookup[b]? = some node →
    disk node.blockKey node.datanodeIp node.datanodePort = some (content b) ∧
      (content b).length = cfg.blockSize

theorem HoldsSurvivors.blocks {lookup : List GlrcPipelineNodeLookup}
    (h : HoldsSurvivors cfg disk lookup failed content)
    (hhops : ∀ hop ∈ chain.hops, HopOk k r z lookup e hop)
    (hsurv : ∀ b ∈ chain.hops.map (·.blockId), b ∉ failed) (m : ℕ) :
    HoldsBlocks cfg disk content (chain.hops.take m) := by
  intro hop hmem
  have hop_mem : hop ∈ chain.hops := List.mem_of_mem_take hmem
  obtain ⟨node, hnode, heq⟩ := (hhops hop hop_mem).node
  have hheld := h hop.blockId node (hsurv _ (List.mem_map_of_mem hop_mem)) hnode
  have hkey : hop.blockKey = node.blockKey := congrArg GlrcPipelineHopInfo.blockKey heq
  have hip : hop.datanodeIp = node.datanodeIp := congrArg GlrcPipelineHopInfo.datanodeIp heq
  have hport : hop.datanodePort = node.datanodePort := congrArg GlrcPipelineHopInfo.datanodePort heq
  rw [hkey, hip, hport]
  exact hheld

/-! ## Addresses -/

/-- what `allocate_chain_ports` returns for a chain -/
structure PortsOk (chain : GlrcPipelineChainPlan) (ports : GlrcPipelineChainPorts) : Prop where
  length_eq : ports.hopListenPorts.length = chain.hops.length
  hop_pos : ∀ p ∈ ports.hopListenPorts, 0 < p
  hub_pos : 0 < ports.hubListenPort

theorem connect_listen (hp : PortsOk chain ports) {role : GlrcPipelineRole} (i : ℕ) {j : ℕ}
    (hj : j < chain.hops.length) :
    connectEndpoint cfg (fillPipelineChainFields session z plan chain ports role i) (.hop j) =
      listenEndpoint cfg (fillPipelineChainFields session z plan chain ports .HOP_SERVER j) := by
  have hport : 0 < ports.hopListenPorts.getD j 0 := by
    have hj' : j < ports.hopListenPorts.length := by rw [hp.length_eq]; exact hj
    rw [List.getD_eq_getElem _ _ hj']
    exact hp.hop_pos _ (List.getElem_mem hj')
  show chain.hops[j]?.map _ = chain.hops[j]?.map _
  refine congrArg (fun f => chain.hops[j]?.map f) (funext fun hop => ?_)
  have hconnect : resolveHopListenPort cfg (fillPipelineChainFields session z plan chain ports role i) j
      hop.proxyPort = ports.hopListenPorts.getD j 0 := if_pos hport
  have hbind : resolveMyHopBindPort cfg
      (fillPipelineChainFields session z plan chain ports .HOP_SERVER j) hop.proxyPort j =
        ports.hopListenPorts.getD j 0 := if_pos hport
  rw [hconnect]
  exact congrArg _ hbind.symm

end

end

/-! ## A stripe on one host -/

/-- the node of block `i` when every block has a datanode and a proxy of its own on one host -/
def stripeNode (i : ℕ) : GlrcPipelineNodeLookup where
  nodeId := i
  datanodeIp := "10.0.0.1"
  datanodePort := 17600 + i
  proxyIp := "10.0.0.1"
  proxyPort := 50405 + 2 * i
  blockKey := "0_" ++ toString i

def stripeNodes (n : ℕ) : List GlrcPipelineNodeLookup := (List.range n).map stripeNode

def stripeDisks (content : ℕ → List UInt8) : Datanodes := fun key _ port =>
  if key = "0_" ++ toString (port - 17600) then some (content (port - 17600)) else none

def stripePlan (hub : ℕ) (hubChains localDirectChains : List GlrcPipelineChainPlan) :
    GlrcPipelinePlan :=
  { hubBlockId := hub
    hubProxyIp := (stripeNode hub).proxyIp, hubProxyPort := (stripeNode hub).proxyPort
    hubDatanodeIp := (stripeNode hub).datanodeIp, hubDatanodePort := (stripeNode hub).datanodePort
    hubBlockKey := (stripeNode hub).blockKey, exchangeEpoch := 1, hubChains, localDirectChains }

theorem holdsSurvivors_stripe {cfg : Config} {content : ℕ → List UInt8}
    (h : ∀ b < n, (content b).length = cfg.blockSize) :
    HoldsSurvivors cfg (stripeDisks content) (stripeNodes n) failed content := by
  intro b node _ hnode
  have hb : b < n := by
    have := (List.getElem?_eq_some_iff.mp hnode).1
    simpa [stripeNodes] using this
  rw [stripeNodes, List.getElem?_map, List.getElem?_range hb, Option.map_some] at hnode
  cases hnode
  refine ⟨?_, h b hb⟩
  show (if "0_" ++ toString b = "0_" ++ toString (17600 + b - 17600) then
    some (content (17600 + b - 17600)) else none) = _
  rw [Nat.add_sub_cancel_left, if_pos rfl]

end Mlrc
