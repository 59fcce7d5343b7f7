import Mlrc.Pipeline.HubDecode

/-!
# What the hub chains deliver

Where a chain goes is decided in four places: the coordinator's launch loop, the chain head, the hop
servers and the hub's listeners.  They agree on chains with at least two hops and only on these.

* `hubListenLoop_stream`   a listener stores every shard of a complete stream;
* `HubChainDelivers`   every survivor of the equation reaches the hub once;
* `hubChain_delivers_iff`   the chains of a plan deliver when every hub equation has two survivors.
-/

namespace Mlrc

open Finset List

variable {k r z s : ℕ}

/-! ## The listener -/

section
variable {ctx : HubListenCtx} {stream : Option (List UInt8)} {n len slot : ℕ}
  {payload stored : ℕ → List UInt8}

theorem set_replicate_none {done : List (Option (List UInt8))} {i : ℕ} (hi : done.length = i) (m : ℕ)
    (v : Option (List UInt8)) :
    (done ++ replicate (m + 1) none).set i v = (done ++ [v]) ++ replicate m none := by
  subst hi
  rw [set_append_right _ _ le_rfl, Nat.sub_self, replicate_succ, set_cons_zero,
    append_assoc]
  rfl

theorem hubListenLoop_rest
    (hstore : ∀ s < n, finalizeHubShard ctx stream n len s (payload s) = .ok (stored s)) (m i : ℕ)
    (him : i + m = n) {done : List (Option (List UInt8))} (hdone : done.length = i) :
    hubListenLoop ctx stream n len i (done ++ replicate m none)
      ((range' i m).map (fun s => .SHARD slot s (payload s)) ++ [.END slot n]) =
    .ok (done ++ (range' i m).map fun s => some (stored s)) := by
  induction m generalizing i done with
  | zero =>
    show (if n = i then _ else _) = _
    rw [if_pos (by omega)]
    rfl
  | succ m ih =>
    rw [range'_succ, List.map_cons, cons_append, hubListenLoop, hstore i (by omega)]
    show hubListenLoop ctx stream n len (i + 1)
      ((done ++ replicate (m + 1) none).set i (some (stored i))) _ = _
    rw [set_replicate_none hdone, ih (i + 1) (by omega) (by rw [length_append, hdone]; rfl),
      List.map_cons, append_assoc]
    rfl

theorem hubListenLoop_stream
    (hstore : ∀ s < n, finalizeHubShard ctx stream n len s (payload s) = .ok (stored s)) :
    hubListenLoop ctx stream n len 0 (replicate n none) (fullStream slot n payload) =
      .ok ((List.range n).map fun s => some (stored s)) := by
  unfold fullStream
  rw [range_eq_range']
  show hubListenLoop ctx stream n len 0 ([] ++ replicate n none) _ = _
  exact hubListenLoop_rest hstore n 0 (zero_add n) rfl

end

/-! ## Delivery -/

def processNext (req : ChainRequest) : Except PipelineError NextHop :=
  if req.role = .CHAIN_HEAD then headNext req else hopNext req

/-- along a path of hop indices every process connects to the address at which the next one listens,
and the last one to the listener of the chain at the hub -/
def RouteConnects (cfg : Config) (launched : List ChainRequest) (hubListen : Endpoint)
    (path : List ℕ) : Prop :=
  ∀ i < path.length, ∃ req ∈ launched, req.myHopIndex = path.getD i 0 ∧
    if i + 1 < path.length then
      processNext req = .ok (.hop (path.getD (i + 1) 0)) ∧ path.getD (i + 1) 0 < req.hops.length ∧
        ∃ req' ∈ launched, req'.role = .HOP_SERVER ∧ req'.myHopIndex = path.getD (i + 1) 0 ∧
          connectEndpoint cfg req (.hop (path.getD (i + 1) 0)) = listenEndpoint cfg req'
    else processNext req = .ok .fanin ∧ connectEndpoint cfg req .fanin = some hubListen

/-- the blocks that are added up on the way of a stream, the hub's own one at the end -/
def contributors (chain : GlrcPipelineChainPlan) (ctx : HubListenCtx) (hub : ℕ) (path : List ℕ) :
    List ℕ :=
  path.filterMap (fun i => chain.hops[i]?.map (·.blockId)) ++
    if ctx.needsTailLocal then [hub] else []

/-- a hub chain connects its processes up to its listener, adds every survivor of the equation once,
and the hub stores the sum of the survivors, shard by shard -/
def HubChainDelivers (cfg : Config) (disk : Datanodes) (session : PipelineSession)
    (plan : GlrcPipelinePlan) (failed : List ℕ) (lookup : List GlrcPipelineNodeLookup)
    (ports : ℕ → GlrcPipelineChainPorts) (content : ℕ → List UInt8) (ci : ℕ)
    (chain : GlrcPipelineChainPlan) : Prop :=
  let req := hubRequest session cfg.z plan failed lookup ports
  ∃ path rhs, hubChainRun cfg disk session plan failed lookup ports ci chain = .ok (path, rhs) ∧
    RouteConnects cfg (launchChainHopsAndHead session cfg.z plan chain (ports chain.chainId))
      ⟨req.hubProxyIp, resolveHubListenerPort cfg req ci (req.ctx ci).eqSlot⟩ path ∧
    (contributors chain (req.ctx ci) plan.hubBlockId path).Perm
      (helperBlocksForEquation (allEquations cfg.k cfg.r cfg.z) failed chain.equationIndex) ∧
    rhs = (List.range session.localShardCount).map fun s =>
      some (equationBytes cfg.k cfg.r cfg.z failed content chain.equationIndex
        ((session.view cfg).byteOff s) (session.view cfg).stripeLen)

/-! ## The selected hub -/

theorem foldl_hubStep_mem {count : ℕ → ℕ} {keys : List ℕ} {best : Option ℕ} {h : ℕ}
    (hfold : keys.foldl (hubStep count) best = some h) : h ∈ keys ∨ best = some h := by
  induction keys generalizing best with
  | nil => exact .inr hfold
  | cons b keys ih =>
    rcases ih hfold with hmem | hbest
    · exact .inl (List.mem_cons_of_mem _ hmem)
    · unfold hubStep at hbest
      split at hbest
      · cases hbest
        exact .inl List.mem_cons_self
      · split at hbest
        · cases hbest
          exact .inl List.mem_cons_self
        · exact .inr hbest

theorem selectHub_mem {failed : List ℕ} {plan : GlrcIlpRepairPlan} {keys : List ℕ} {hub : ℕ}
    (hok : PlanOk k r z failed plan) (hkeys : keys.Perm plan.helperBlockIds)
    (h : selectHub (allEquations k r z) plan keys = some hub) : hub < k + r + z ∧ hub ∉ failed := by
  have hmem : hub ∈ plan.helperBlockIds := by
    unfold selectHub at h
    split at h
    · next best hbest =>
      cases h
      rcases foldl_hubStep_mem hbest with hin | hno
      · exact hkeys.mem_iff.mp hin
      · cases hno
    · exact mem_of_head? h
  rw [hok.helpers] at hmem
  obtain ⟨⟨e, he, hinv⟩, hf⟩ := mem_unionHelpers.mp hmem
  exact ⟨lt_of_mem_involved (hok.solves.1 e he) hinv, hf⟩

/-! ## The blocks of a hub chain -/

namespace HubChainOf

variable {k r z : ℕ} {failed : List ℕ} {hub : ℕ} {lookup : List GlrcPipelineNodeLookup}
  {chain : GlrcPipelineChainPlan}

section
variable (h : HubChainOf k r z failed hub lookup chain)
include h

theorem perm (hlt : hub < k + r + z) (hhub : hub ∉ failed) : (chain.hops.map (·.blockId)).Perm
      (helperBlocksForEquation (allEquations k r z) failed chain.equationIndex) := by
  have hsort := sortChainSurvivors_perm
    (helperBlocksForEquation (allEquations k r z) failed chain.equationIndex) hub
  have hnd : (helperBlocksForEquation (allEquations k r z) failed chain.equationIndex).Nodup :=
    (involved_nodup h.eq_lt).filter _
  rw [h.blocks]
  refine (hubChainBlocks_perm (hsort.nodup_iff.mpr hnd) fun htail => ?_).trans hsort
  rw [h.tail, bne_iff_ne] at htail
  refine hsort.mem_iff.mpr (List.mem_filter.mpr ⟨?_, decide_eq_true hhub⟩)
  exact mem_involved_of_coef_ne_zero h.eq_lt hlt htail

theorem blocks_eq :
    chain.hops.map (·.blockId) = (chain.hops.map (·.blockId)).take (senders chain) ++
      if chain.hubIsChainTail then [hub] else [] := by
  cases htail : chain.hubIsChainTail with
  | false =>
    rw [senders_sink htail, take_of_length_le (by rw [length_map])]
    exact (append_nil _).symm
  | true =>
    have hblocks := h.blocks
    rw [htail] at hblocks
    set init := (sortChainSurvivors
      (helperBlocksForEquation (allEquations k r z) failed chain.equationIndex) hub).filter
        (fun b => !(true && b == hub)) with hinit
    have heq : chain.hops.map (·.blockId) = init ++ [hub] := hblocks
    have hlen : senders chain = init.length := by
      have := congrArg List.length heq
      rw [length_map, length_append, length_singleton] at this
      rw [senders_tail htail]
      omega
    rw [heq, hlen, take_left]
    rfl

theorem hubCoef_eq
    (htail : chain.hubIsChainTail = true) : chainHubCoef chain = coef k r z chain.equationIndex hub := by
  have hlast : (chain.hops.map (·.blockId)).getLast? = some hub := by
    rw [h.blocks_eq, htail]
    exact getLast?_concat
  rw [getLast?_map] at hlast
  obtain ⟨hop, hop_last, hid⟩ := Option.map_eq_some_iff.mp hlast
  rw [chainHubCoef, if_pos htail, hop_last, ← hid]
  exact (h.hops hop (mem_of_getLast? hop_last)).coef_eq

theorem routable (h2 : 2 ≤ chain.hops.length) : Routable chain where
  tail := fun _ => ⟨h2, h.not_localDirect⟩
  sink := fun _ => .inl h2
  key := fun hld => absurd (h.not_localDirect.symm.trans hld) (by decide)

end

end HubChainOf

/-! ## A chain with two hops delivers -/

section
variable {cfg : Config} {disk : Datanodes} {session : PipelineSession} {plan : GlrcPipelinePlan}
  {failed : List ℕ} {lookup : List GlrcPipelineNodeLookup} {ports : ℕ → GlrcPipelineChainPorts}
  {content : ℕ → List UInt8} {chain : GlrcPipelineChainPlan} {ci : ℕ}

theorem hubRequest_ctx (hci : plan.hubChains[ci]? = some chain) :
    (hubRequest session z plan failed lookup ports).ctx ci =
      { eqSlot := chain.eqSlot, hubIsTail := chain.hubIsChainTail, localOnly := false
        hubCoef := chainHubCoef chain, eqCodec := chainCodec z chain } := by
  have hget : ∀ {α : Type} (f : GlrcPipelineChainPlan → α) (d : α),
      (plan.hubChains.map f).getD ci d = f chain := by
    intro α f d
    rw [getD_eq_getElem?_getD, getElem?_map, hci]
    rfl
  simp only [HubRequest.ctx, hubRequest, hget, decide_eq_true_eq, chainCodec]

theorem hubListenPort_eq (hci : plan.hubChains[ci]? = some chain)
    (hp : PortsOk chain (ports chain.chainId)) (eqSlot : ℕ) :
    resolveHubListenerPort cfg (hubRequest session z plan failed lookup ports) ci eqSlot =
      (ports chain.chainId).hubListenPort := by
  have hget : (hubRequest session z plan failed lookup ports).hubListenerPorts.getD ci 0 =
      (ports chain.chainId).hubListenPort := by
    show (plan.hubChains.map fun c => (ports c.chainId).hubListenPort).getD ci 0 = _
    rw [getD_eq_getElem?_getD, getElem?_map, hci]
    rfl
  rw [resolveHubListenerPort, hget, if_pos hp.hub_pos]

theorem HubChainOf.needsTailLocal {hub : ℕ} (h : HubChainOf k r z failed hub lookup chain)
    (hci : plan.hubChains[ci]? = some chain) :
    ((hubRequest session z plan failed lookup ports).ctx ci).needsTailLocal =
      chain.hubIsChainTail := by
  rw [hubRequest_ctx hci]
  show (chain.hubIsChainTail && chainHubCoef chain != 0) = chain.hubIsChainTail
  cases htail : chain.hubIsChainTail with
  | false => rfl
  | true =>
    rw [h.hubCoef_eq htail, ← h.tail, htail]
    rfl

/-- the right-hand side that a hub stores for a shard -/
def storedShard (cfg : Config) (session : PipelineSession) (content : ℕ → List UInt8) (hub : ℕ)
    (chain : GlrcPipelineChainPlan) (s : ℕ) : List UInt8 :=
  let sent := payloadAfter cfg session cfg.z content chain (senders chain) s
  if chain.hubIsChainTail then
    glrcPipelineAccumulateRange sent ((session.view cfg).stripe (content hub) s) (chainHubCoef chain)
      (chainCodec cfg.z chain)
  else sent

theorem route_connects (h : Routable chain) (hld : chain.localDirect = false)
    (hp : PortsOk chain (ports chain.chainId)) :
    RouteConnects cfg (launchChainHopsAndHead session z plan chain (ports chain.chainId))
      ⟨plan.hubProxyIp, (ports chain.chainId).hubListenPort⟩ (List.range (senders chain)) := by
  have hle := senders_le chain
  have hlast := h.lastHopServer
  -- hop 0 is served by the head, every other hop by its server
  have hserver : ∀ i, 0 < i → i < senders chain →
      fillPipelineChainFields session z plan chain (ports chain.chainId) .HOP_SERVER i ∈
        launchChainHopsAndHead session z plan chain (ports chain.chainId) := by
    intro i hi0 hi
    exact mem_of_find?_eq_some (hopRequest_launched h hi0 hi)
  have hprocess : ∀ i < senders chain, ∃ role,
      fillPipelineChainFields session z plan chain (ports chain.chainId) role i ∈
        launchChainHopsAndHead session z plan chain (ports chain.chainId) ∧
      processNext (fillPipelineChainFields session z plan chain (ports chain.chainId) role i) =
        .ok (if i + 1 < senders chain then .hop (i + 1) else .fanin) := by
    intro i hi
    rcases Nat.eq_zero_or_pos i with rfl | hi0
    · have hne : chain.hops ≠ [] := by
        intro h0
        rw [h0, length_nil] at hle
        omega
      refine ⟨.CHAIN_HEAD, mem_of_find?_eq_some (headRequest_launched hne), ?_⟩
      exact headNext_fill h .CHAIN_HEAD 0
    · exact ⟨.HOP_SERVER, hserver i hi0 hi, hopNext_fill h .HOP_SERVER hi⟩
  have hget : ∀ i < senders chain, (List.range (senders chain)).getD i 0 = i := by
    intro i hi
    rw [getD_eq_getElem?_getD, getElem?_range hi]
    rfl
  intro i hi
  rw [length_range] at hi ⊢
  obtain ⟨role, hmem, hnext⟩ := hprocess i hi
  refine ⟨_, hmem, (hget i hi).symm, ?_⟩
  by_cases hmore : i + 1 < senders chain
  · rw [if_pos hmore] at hnext ⊢
    rw [hget (i + 1) hmore]
    refine ⟨hnext, lt_of_lt_of_le hmore hle, _, hserver (i + 1) (Nat.succ_pos i) hmore, rfl, rfl, ?_⟩
    exact connect_listen hp i (lt_of_lt_of_le hmore hle)
  · rw [if_neg hmore] at hnext ⊢
    refine ⟨hnext, ?_⟩
    have hport : resolveChainHubListenPort cfg
        (fillPipelineChainFields session z plan chain (ports chain.chainId) role i)
        (fillPipelineChainFields session z plan chain (ports chain.chainId) role i).hubProxyPort =
          (ports chain.chainId).hubListenPort := if_pos hp.hub_pos
    have hip : (fillPipelineChainFields session z plan chain (ports chain.chainId) role i).hubProxyIp =
        plan.hubProxyIp := if_neg (by rw [hld]; simp)
    rw [connectEndpoint, hport, hip]

variable {hub : ℕ}

section
variable (hv : session.Valid cfg) (h : HubChainOf cfg.k cfg.r cfg.z failed hub lookup chain)
  (h2 : 2 ≤ chain.hops.length)
  (hblocks : HoldsBlocks cfg disk content (chain.hops.take (senders chain)))
  (hlen : (content hub).length = cfg.blockSize) (hs : s < session.localShardCount)
include hv h h2 hblocks hlen hs

theorem finalize_stored (hci : plan.hubChains[ci]? = some chain)
    (hhub : disk plan.hubBlockKey plan.hubDatanodeIp plan.hubDatanodePort = some (content hub)) :
    finalizeHubShard ((hubRequest session cfg.z plan failed lookup ports).ctx ci)
        (hubStream cfg disk (hubRequest session cfg.z plan failed lookup ports))
        session.localShardCount (session.view cfg).stripeLen s
        (payloadAfter cfg session cfg.z content chain (senders chain) s) =
      .ok (storedShard cfg session content hub chain s) := by
  have hsent := length_payloadAfter (z := cfg.z) hv hblocks (h.routable h2).senders_pos
    le_rfl (senders_le chain) hs
  have hstream : hubStream cfg disk (hubRequest session cfg.z plan failed lookup ports) =
      some (((content hub).drop ((session.view cfg).byteOff 0)).take
        (session.localShardCount * (session.view cfg).stripeLen)) := by
    unfold hubStream
    simp only [hubRequest_view hv]
    show (disk plan.hubBlockKey plan.hubDatanodeIp plan.hubDatanodePort).map _ = _
    rw [hhub]
    rfl
  unfold finalizeHubShard storedShard
  rw [if_pos ⟨hs, hsent⟩, h.needsTailLocal hci, hstream, Option.bind_some, hv.read_eq hlen hs,
    hubRequest_ctx hci]
  cases chain.hubIsChainTail <;> rfl

theorem mk_getD_storedShard {i : ℕ} (hi : i < (session.view cfg).stripeLen) :
    Gf.mk ((storedShard cfg session content hub chain s).getD i 0) =
      ((chain.hops.map (·.blockId)).map fun b => Gf.mk (coef cfg.k cfg.r cfg.z chain.equationIndex b) *
        Gf.mk ((content b).getD ((session.view cfg).byteOff s + i) 0)).sum := by
  have hpos := (h.routable h2).senders_pos
  have hsent := mk_getD_payloadAfter hv hblocks h.hops hpos (senders_le chain) hs hi
  unfold storedShard
  rw [h.blocks_eq, map_append, sum_append, ← hsent]
  cases htail : chain.hubIsChainTail with
  | false => exact (add_zero _).symm
  | true =>
    have hlong : i < (payloadAfter cfg session cfg.z content chain (senders chain) s).length := by
      rw [length_payloadAfter hv hblocks hpos le_rfl (senders_le chain) hs]
      exact hi
    have hstripe : i < ((session.view cfg).stripe (content hub) s).length := by
      rw [hv.length_stripe hlen hs]
      exact hi
    show Gf.mk ((glrcPipelineAccumulateRange _ _ _ _).getD i 0) = _
    rw [mk_getD_accumulateRange _ _ hlong hstripe, h.hubCoef_eq htail, getD_stripe _ _ hi]
    simp only [if_true, List.map_cons, map_nil, List.sum_cons, sum_nil, add_zero]

theorem length_storedShard :
    (storedShard cfg session content hub chain s).length = (session.view cfg).stripeLen := by
  have hsent := length_payloadAfter (z := cfg.z) hv hblocks (h.routable h2).senders_pos
    le_rfl (senders_le chain) hs
  unfold storedShard
  simp only
  split
  · rw [length_accumulateRange (hsent.trans (hv.length_stripe hlen hs).symm), hsent]
  · exact hsent

theorem storedShard_eq (hlt : hub < cfg.k + cfg.r + cfg.z) (hhub : hub ∉ failed) :
    storedShard cfg session content hub chain s =
      equationBytes cfg.k cfg.r cfg.z failed content chain.equationIndex
        ((session.view cfg).byteOff s) (session.view cfg).stripeLen := by
  refine ext_getD (d := 0) (length_storedShard hv h h2 hblocks hlen hs)
    (length_equationBytes cfg.k cfg.r cfg.z failed content _ _ _) fun i hi => Gf.mk_inj.mp ?_
  rw [mk_getD_storedShard hv h h2 hblocks hlen hs hi, mk_getD_equationBytes _ _ _ _ _ _ _ hi]
  exact ((h.perm hlt hhub).map _).sum_eq

end

theorem contributors_range (h : HubChainOf cfg.k cfg.r cfg.z failed hub lookup chain)
    (hci : plan.hubChains[ci]? = some chain) (hub_eq : plan.hubBlockId = hub) :
    contributors chain ((hubRequest session cfg.z plan failed lookup ports).ctx ci) plan.hubBlockId
      (List.range (senders chain)) = chain.hops.map (·.blockId) := by
  have hpath : (List.range (senders chain)).filterMap (fun i => chain.hops[i]?.map (·.blockId)) =
      (chain.hops.map (·.blockId)).take (senders chain) := by
    simp only [← getElem?_map]
    exact filterMap_getElem?_range _ _
  rw [contributors, hpath, h.needsTailLocal hci, hub_eq, ← h.blocks_eq]

theorem delivers_of_two_hops (hv : session.Valid cfg) (hci : plan.hubChains[ci]? = some chain)
    (h : HubChainOf cfg.k cfg.r cfg.z failed hub lookup chain) (h2 : 2 ≤ chain.hops.length)
    (hlt : hub < cfg.k + cfg.r + cfg.z) (hhub : hub ∉ failed) (hub_eq : plan.hubBlockId = hub)
    (hdisk : HoldsSurvivors cfg disk lookup failed content)
    (hheld : disk plan.hubBlockKey plan.hubDatanodeIp plan.hubDatanodePort = some (content hub))
    (hlen : (content hub).length = cfg.blockSize) (hp : PortsOk chain (ports chain.chainId))
    {B : Mat UInt8} (hstart : hubStart cfg (hubRequest session cfg.z plan failed lookup ports) = .ok B) :
    HubChainDelivers cfg disk session plan failed lookup ports content ci chain := by
  have hroute := h.routable h2
  have hsurv : ∀ b ∈ chain.hops.map (·.blockId), b ∉ failed := by
    intro b hb
    exact of_decide_eq_true (List.mem_filter.mp ((h.perm hlt hhub).mem_iff.mp hb)).2
  have hblocks := hdisk.blocks h.hops hsurv (senders chain)
  have hlisten : hubListener cfg disk (hubRequest session cfg.z plan failed lookup ports) ci
      (fullStream chain.eqSlot session.localShardCount
        (payloadAfter cfg session cfg.z content chain (senders chain))) =
      .ok ((List.range session.localShardCount).map fun s =>
        some (storedShard cfg session content hub chain s)) := by
    have hwait : ((hubRequest session cfg.z plan failed lookup ports).ctx ci).localOnly = false := by
      rw [hubRequest_ctx hci]
    unfold hubListener
    simp only [hubRequest_view hv, hwait]
    exact hubListenLoop_stream fun s hs => finalize_stored hv h h2 hblocks hlen hs hci hheld
  refine ⟨List.range (senders chain), (List.range session.localShardCount).map fun s =>
    some (storedShard cfg session content hub chain s), ?_, ?_, ?_, ?_⟩
  · unfold hubChainRun
    simp only [bind, Except.bind, hstart, chainOutput_eq hv hroute hblocks, hlisten]
    rfl
  · rw [hubListenPort_eq hci hp]
    exact route_connects hroute h.not_localDirect hp
  · rw [contributors_range h hci hub_eq]
    exact h.perm hlt hhub
  · refine map_congr_left fun s hs => congrArg some ?_
    exact storedShard_eq hv h h2 hblocks hlen (List.mem_range.mp hs) hlt hhub

/-! ## A shorter chain does not -/

theorem chainHead_next {req : ChainRequest} {out : NextHop × List PipelineFrame}
    (h : chainHead cfg disk req = .ok out) : headNext req = .ok out.1 := by
  unfold chainHead at h
  split at h
  · cases h
  · simp only at h
    split at h
    · cases hnext : headNext req with
      | error e =>
        rw [hnext] at h
        cases h
      | ok next =>
        rw [hnext] at h
        simp only [bind, Except.bind] at h
        split at h
        · cases h
        · split at h
          · cases h
          · cases h
            rfl
    · cases h

theorem chainOutput_short (h : HubChainOf cfg.k cfg.r cfg.z failed hub lookup chain)
    (hshort : chain.hops.length < 2) {chainPorts : GlrcPipelineChainPorts}
    {out : List ℕ × List PipelineFrame}
    (hout : chainOutput cfg disk (launchChainHopsAndHead session cfg.z plan chain chainPorts) =
      .ok out) : chain.hubIsChainTail = true ∧ out.1 = [0] ∧ chain.hops.length = 1 := by
  unfold chainOutput at hout
  by_cases hne : chain.hops = []
  · have hnone : launchChainHopsAndHead session cfg.z plan chain chainPorts = [] := by
      rw [launchChainHopsAndHead, lastHopServer, if_pos hne, hne]
      simp
    rw [hnone] at hout
    cases hout
  · rw [headRequest_launched hne] at hout
    have hone : chain.hops.length = 1 := by
      have := length_pos_iff.mpr hne
      omega
    cases hhead : chainHead cfg disk
        (fillPipelineChainFields session cfg.z plan chain chainPorts .CHAIN_HEAD 0) with
    | error e =>
      simp only [hhead, bind, Except.bind] at hout
      cases hout
    | ok sent =>
      simp only [hhead, bind, Except.bind] at hout
      have hnext := chainHead_next hhead
      have hkey : pipelineChainIsLocalDirect
          (fillPipelineChainFields session cfg.z plan chain chainPorts .CHAIN_HEAD 0) = false := by
        show ((if chain.localDirect = true then chain.localDirectFailedBlockKey else "") != "") = false
        rw [h.not_localDirect]
        rfl
      unfold headNext at hnext
      simp only [hkey] at hnext
      change (if (chain.hubIsChainTail && decide (chain.hops.length ≤ 2) ||
        !chain.hubIsChainTail && chain.hops.length == 1 && false) = true then _
        else if 1 < chain.hops.length then _ else _) = _ at hnext
      rw [hone] at hnext
      cases htail : chain.hubIsChainTail with
      | false =>
        rw [htail] at hnext
        cases hnext
      | true =>
        rw [htail] at hnext
        have hfan : sent.1 = .fanin := (Except.ok.inj hnext).symm
        rw [hfan, follow] at hout
        exact ⟨rfl, congrArg Prod.fst (Except.ok.inj hout).symm, hone⟩

theorem not_delivers_short (hci : plan.hubChains[ci]? = some chain)
    (h : HubChainOf cfg.k cfg.r cfg.z failed hub lookup chain) (hlt : hub < cfg.k + cfg.r + cfg.z)
    (hhub : hub ∉ failed) (hshort : chain.hops.length < 2) :
    ¬ HubChainDelivers cfg disk session plan failed lookup ports content ci chain := by
  rintro ⟨path, rhs, hrun, -, hperm, -⟩
  unfold hubChainRun at hrun
  cases hstart : hubStart cfg (hubRequest session cfg.z plan failed lookup ports) with
  | error e =>
    simp only [hstart, bind, Except.bind] at hrun
    cases hrun
  | ok B =>
    cases hout : chainOutput cfg disk
        (launchChainHopsAndHead session cfg.z plan chain (ports chain.chainId)) with
    | error e =>
      simp only [hstart, hout, bind, Except.bind] at hrun
      cases hrun
    | ok out =>
      obtain ⟨htail, hpath, hone⟩ := chainOutput_short h hshort hout
      simp only [hstart, hout, bind, Except.bind] at hrun
      split at hrun
      · cases hrun
      · obtain ⟨rfl, -⟩ := Prod.mk.inj (Except.ok.inj hrun)
        -- the hub's block is sent by the chain head and added again by the listener
        have hlen := hperm.length_eq
        rw [← (h.perm hlt hhub).length_eq, length_map, hone, contributors, h.needsTailLocal hci,
          htail, hpath] at hlen
        obtain ⟨hop, hhops⟩ := length_eq_one_iff.mp hone
        rw [hhops] at hlen
        cases hlen

/-! ## All hub chains of a plan -/

theorem mem_hubChains {epoch : ℕ} {repairPlan : GlrcIlpRepairPlan}
    (hbuild : glrcBuildPipelinePlan k r z failed repairPlan (allEquations k r z) hub lookup epoch =
      .ok plan) (hmem : chain ∈ plan.hubChains) : HubChainOf k r z failed hub lookup chain := by
  obtain ⟨_, chains, -, hall, rfl⟩ := glrcBuildPipelinePlan_ok hbuild
  obtain ⟨hin, hld⟩ := List.mem_filter.mp hmem
  obtain ⟨e, _, he⟩ := forall₂_mem_right hall hin
  refine he.toHub ?_
  cases hf : chain.localDirect with
  | false => rfl
  | true =>
    rw [hf] at hld
    cases hld

/-- **Hub chains deliver every survivor once.**  For every repair plan of a policy and the hub selected
from it, all hub chains of the pipeline plan deliver exactly when each of their equations has at least
two surviving blocks. -/
theorem hubChain_delivers_iff (S : StdSort) {policy : String} {repairPlan : GlrcIlpRepairPlan}
    {keys : List ℕ} {epoch : ℕ} (hz : 0 < cfg.z)
    (hplan : glrcSolveRepairPlan S cfg.k cfg.r cfg.z failed policy = (true, repairPlan))
    (hkeys : keys.Perm repairPlan.helperBlockIds)
    (hhub : selectHub (allEquations cfg.k cfg.r cfg.z) repairPlan keys = some hub)
    (hbuild : glrcBuildPipelinePlan cfg.k cfg.r cfg.z failed repairPlan
      (allEquations cfg.k cfg.r cfg.z) hub lookup epoch = .ok plan)
    (hports : ∀ chain ∈ plan.hubChains, PortsOk chain (ports chain.chainId))
    (hv : session.Valid cfg) (hdisk : HoldsSurvivors cfg disk lookup failed content) :
    (∀ ci chain, plan.hubChains[ci]? = some chain →
        HubChainDelivers cfg disk session plan failed lookup ports content ci chain) ↔
      ∀ e ∈ repairPlan.selectedEquationIndices,
        e ∉ localDirectSet (allEquations cfg.k cfg.r cfg.z) failed repairPlan.selectedEquationIndices →
        2 ≤ (helperBlocksForEquation (allEquations cfg.k cfg.r cfg.z) failed e).length := by
  have hok := glrcSolveRepairPlan_ok S hz hplan
  obtain ⟨hub_lt, hub_ok⟩ := selectHub_mem hok hkeys hhub
  have hchains := (plan_split hbuild).1
  have hlen : ∀ chain ∈ plan.hubChains, chain.hops.length =
      (helperBlocksForEquation (allEquations cfg.k cfg.r cfg.z) failed chain.equationIndex).length := by
    intro chain hmem
    rw [← ((mem_hubChains hbuild hmem).perm hub_lt hub_ok).length_eq, length_map]
  constructor
  · intro hall e he hnot
    have hin : e ∈ plan.hubChains.map (·.equationIndex) := by
      rw [hchains]
      exact List.mem_filter.mpr ⟨he, decide_eq_true hnot⟩
    obtain ⟨chain, hmem, rfl⟩ := List.mem_map.mp hin
    obtain ⟨ci, hci⟩ := mem_iff_getElem?.mp hmem
    rw [← hlen chain hmem]
    by_contra hshort
    exact not_delivers_short hci (mem_hubChains hbuild hmem) hub_lt hub_ok (Nat.lt_of_not_le hshort)
      (hall ci chain hci)
  · intro hall ci chain hci
    have hmem : chain ∈ plan.hubChains := mem_of_getElem? hci
    have h2 : 2 ≤ chain.hops.length := by
      have hin : chain.equationIndex ∈ plan.hubChains.map (·.equationIndex) :=
        List.mem_map_of_mem hmem
      rw [hchains] at hin
      obtain ⟨he, hnot⟩ := List.mem_filter.mp hin
      rw [hlen chain hmem]
      exact hall _ he (of_decide_eq_true hnot)
    obtain ⟨B, hstart, -⟩ := hubStart_ok ports hok hbuild hv (ne_nil_of_mem hmem)
    have hchain := mem_hubChains hbuild hmem
    obtain ⟨hubNode, _, hnode, -, rfl⟩ := glrcBuildPipelinePlan_ok hbuild
    obtain ⟨hheld, hsize⟩ := hdisk hub hubNode hub_ok hnode
    exact delivers_of_two_hops hv hci hchain h2 hub_lt hub_ok rfl hdisk hheld hsize
      (hports chain hmem) hstart

end

/-- blocks 4, 5 and 7 by the equations L1, G0 and G1 -/
def parityRepair : GlrcIlpRepairPlan :=
  { success := true, failedBlockIds := [4, 5, 7], selectedEquations := ["L1", "G0", "G1"]
    selectedEquationIndices := [1, 2, 3], helperBlockIds := [0, 1, 2, 3], helperBlockCount := 4 }

def parityPlan : GlrcPipelinePlan :=
  stripePlan 3 [smallHubChain 0 1 "L1" true [(3, 167)],
    smallHubChain 1 2 "G0" true [(2, 122), (1, 167), (0, 71), (3, 186)],
    smallHubChain 2 3 "G1" true [(2, 186), (1, 71), (0, 167), (3, 122)]] []

def parityPorts : ℕ → GlrcPipelineChainPorts
  | 0 => ⟨[20450], 20525⟩
  | id => ⟨[20300 + id, 20150 + id, 20000 + id, 20450 + id], 20525 + id⟩

/-- block 3 is the only survivor of L1 and the hub: the chain head sends it to the hub, which adds it
again, and the stored right-hand side is zero -/
theorem hub_cancels_its_own_block :
    glrcSolveRepairPlan StdSort.insertion 4 2 2 [4, 5, 7] "ilp" = (true, parityRepair) ∧
    selectHub (allEquations 4 2 2) parityRepair [0, 1, 2, 3] = some 3 ∧
    glrcBuildPipelinePlan 4 2 2 [4, 5, 7] parityRepair (allEquations 4 2 2) 3 (stripeNodes 8) 1 =
      .ok parityPlan ∧
    hubChainRun smallConfig (stripeDisks smallBlocks) smallSession parityPlan [4, 5, 7] (stripeNodes 8)
        parityPorts 0 (smallHubChain 0 1 "L1" true [(3, 167)]) = .ok ([0], [some [0, 0]]) ∧
    ¬ HubChainDelivers smallConfig (stripeDisks smallBlocks) smallSession parityPlan [4, 5, 7]
        (stripeNodes 8) parityPorts smallBlocks 0 (smallHubChain 0 1 "L1" true [(3, 167)]) := by
  refine ⟨by decide +kernel, by decide +kernel, by decide +kernel,
    (and_iff_left_of_imp fun hrun => ?_).mpr (by decide +kernel)⟩
  rintro ⟨path, rhs, hrun', -, -, hrhs⟩
  obtain ⟨-, rfl⟩ := Prod.mk.inj (Except.ok.inj (hrun.symm.trans hrun'))
  exact absurd hrhs (by decide +kernel)

theorem hubChain_delivers_two_blocks : twoPlan.hubChains.length = 2 ∧
    ∀ ci chain, twoPlan.hubChains[ci]? = some chain →
      HubChainDelivers smallConfig (stripeDisks smallBlocks) smallSession twoPlan [0, 1] (stripeNodes 8)
        (fun id => ⟨(List.range (2 + id)).map (20000 + ·), 20075⟩) smallBlocks ci chain := by
  have hplan : glrcSolveRepairPlan StdSort.insertion smallConfig.k smallConfig.r smallConfig.z [0, 1]
      "ilp" = (true, twoRepair) := by decide +kernel
  have hhub : selectHub (allEquations smallConfig.k smallConfig.r smallConfig.z) twoRepair
      [2, 3, 4, 6] = some 2 := by decide +kernel
  have hbuild : glrcBuildPipelinePlan smallConfig.k smallConfig.r smallConfig.z [0, 1] twoRepair
      (allEquations smallConfig.k smallConfig.r smallConfig.z) 2 (stripeNodes 8) 1 = .ok twoPlan := by
    decide +kernel
  have hports : ∀ chain ∈ twoPlan.hubChains, PortsOk chain
      ⟨(List.range (2 + chain.chainId)).map (20000 + ·), 20075⟩ := by
    intro chain hmem
    have hcount : ∀ c ∈ twoPlan.hubChains, 2 + c.chainId = c.hops.length := by decide
    refine ⟨by simp [hcount chain hmem], fun p hp => ?_, Nat.succ_pos _⟩
    obtain ⟨i, _, rfl⟩ := List.mem_map.mp hp
    exact Nat.add_pos_left (Nat.succ_pos _) i
  have hv : smallSession.Valid smallConfig := ⟨by decide, by decide, by decide, by decide⟩
  have hsize : ∀ b < 8, (smallBlocks b).length = smallConfig.blockSize := by decide +kernel
  refine ⟨by decide, ?_⟩
  exact (hubChain_delivers_iff StdSort.insertion (by decide) hplan (List.Perm.refl _) hhub hbuild hports hv
    (holdsSurvivors_stripe hsize)).mpr (by decide +kernel)

end Mlrc
