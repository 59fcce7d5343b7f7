import Mlrc.Repair.Solve

/-!
# Pipeline plans

A repair plan is turned into one chain for each selected equation.  A local equation with a single
failed block becomes a chain into a sink next to that block, every other equation a chain into the
hub, a surviving block whose proxy decodes.

* `selectHub`   the hub: the survivor in most selected equations, the smallest of these;
* `glrcBuildPipelinePlan`   the chains with the blocks on them and their coefficients;
* `HubChainOf`, `LocalDirectChainOf`   what a chain of a plan holds;
* `glrcBuildPipelinePlan_ok`   a plan that is built has the chains of its equations.

Every failure keeps its message.  The failed block id of a chain that is not local-direct is `none`.
-/

namespace Mlrc

open List

variable {b e : ℕ} {chain : GlrcPipelineChainPlan}

structure GlrcPipelineHopInfo where
  blockId : ℕ
  nodeId : ℤ
  datanodeIp : String
  datanodePort : ℕ
  proxyIp : String
  proxyPort : ℕ
  blockKey : String
  coef : UInt8
deriving DecidableEq, Repr

structure GlrcPipelineNodeLookup where
  nodeId : ℤ := -1
  datanodeIp : String := ""
  datanodePort : ℕ := 0
  proxyIp : String := ""
  proxyPort : ℕ := 0
  blockKey : String := ""
deriving DecidableEq, Repr

structure GlrcPipelineChainPlan where
  chainId : ℕ
  equationIndex : ℕ
  eqSlot : ℕ
  equationName : String
  localDirect : Bool
  localDirectFailedBlockId : Option ℕ := none
  localDirectFailedBlockKey : String := ""
  localDirectReplacedIp : String := ""
  localDirectReplacedPort : ℕ := 0
  localDirectSinkProxyIp : String := ""
  localDirectSinkProxyPort : ℕ := 0
  /-- head to tail -/
  hops : List GlrcPipelineHopInfo := []
  hubIsChainTail : Bool := false
  hubInEquation : Bool
deriving DecidableEq, Repr

structure GlrcPipelinePlan where
  hubBlockId : ℕ
  hubProxyIp : String
  hubProxyPort : ℕ
  hubDatanodeIp : String
  hubDatanodePort : ℕ
  hubBlockKey : String
  hubCoef : UInt8 := 0
  exchangeEpoch : ℕ
  hubChains : List GlrcPipelineChainPlan
  localDirectChains : List GlrcPipelineChainPlan
deriving DecidableEq, Repr

/-! ## The hub -/

/-- the number of selected equations that involve `b` -/
def helperEquationCount (equations : List GlrcEquation) (selected : List ℕ) (b : ℕ) : ℕ :=
  (selected.filter fun e => b ∈ involvedBlocks equations e).length

/-- one turn of the scan for the hub: a larger count wins, then a smaller id -/
def hubStep (count : ℕ → ℕ) (best : Option ℕ) (b : ℕ) : Option ℕ :=
  match best with
  | none => some b
  | some h => if count h < count b ∨ count b = count h ∧ b < h then some b else some h

/-- the hub selection of the coordinator; `keys` are the survivors of the selected equations in the
order in which the unordered map lists them -/
def selectHub (equations : List GlrcEquation) (plan : GlrcIlpRepairPlan) (keys : List ℕ) : Option ℕ :=
  match keys.foldl (hubStep (helperEquationCount equations plan.selectedEquationIndices)) none with
  | some h => some h
  | none => plan.helperBlockIds.head?

/-! ## Chains -/

def GlrcPipelineNodeLookup.hop (node : GlrcPipelineNodeLookup) (blockId : ℕ) (coef : UInt8) :
    GlrcPipelineHopInfo where
  blockId
  nodeId := node.nodeId
  datanodeIp := node.datanodeIp
  datanodePort := node.datanodePort
  proxyIp := node.proxyIp
  proxyPort := node.proxyPort
  blockKey := node.blockKey
  coef

def fillHop (blockId : ℕ) (coef : UInt8) (nodeLookup : List GlrcPipelineNodeLookup) :
    Except String GlrcPipelineHopInfo :=
  match nodeLookup[blockId]? with
  | none => .error ("pipeline node lookup missing block " ++ toString blockId)
  | some node =>
    if node.proxyIp = "" ∨ node.datanodeIp = "" then
      .error ("pipeline node lookup incomplete for block " ++ toString blockId)
    else .ok (node.hop blockId coef)

def sortChainSurvivors (survivors : List ℕ) (hubBlockId : ℕ) : List ℕ :=
  let sorted := survivors.insertionSort (· ≥ ·)
  if hubBlockId ∈ sorted then sorted.erase hubBlockId ++ [hubBlockId] else sorted

/-- the selected local equations with one failed block -/
def localDirectSet (equations : List GlrcEquation) (failed selected : List ℕ) : List ℕ :=
  selected.filter fun e =>
    match equations[e]? with
    | none => false
    | some eq => eq.type == .LOCAL && (eq.involvedBlocks.filter fun b => b ∈ failed).length == 1

def glrcPipelineBuildCoefRow (k r z eqIndex : ℕ) : List UInt8 := coefRow k r z eqIndex

def hubChainBlocks (survivors : List ℕ) (hubBlockId : ℕ) (hubIsChainTail : Bool) : List ℕ :=
  survivors.filter (fun b => !(hubIsChainTail && b == hubBlockId)) ++
    if hubIsChainTail then [hubBlockId] else []

/-- the branch of a local equation with one failed block: the sink stands at that block -/
def localDirectChain (failed : List ℕ) (nodeLookup : List GlrcPipelineNodeLookup) (eq : GlrcEquation)
    (coefRow : List UInt8) (survivors : List ℕ) (chain : GlrcPipelineChainPlan) :
    Except String GlrcPipelineChainPlan :=
  let failedId := eq.involvedBlocks.find? fun b => b ∈ failed
  let node := (failedId.bind fun b => nodeLookup[b]?).getD {}
  if node.proxyIp = "" ∨ survivors = [] then
    .error "local pipeline missing sink proxy or survivors"
  else do
    let hops ← (survivors.insertionSort (· ≥ ·)).mapM fun b =>
      fillHop b (coefRow.getD b 0) nodeLookup
    return { chain with
      localDirectFailedBlockId := failedId
      localDirectFailedBlockKey := node.blockKey
      localDirectReplacedIp := node.datanodeIp
      localDirectReplacedPort := node.datanodePort
      localDirectSinkProxyIp := node.proxyIp
      localDirectSinkProxyPort := node.proxyPort
      hops }

def hubChain (hubBlockId : ℕ) (nodeLookup : List GlrcPipelineNodeLookup) (coefRow : List UInt8)
    (survivors : List ℕ) (chain : GlrcPipelineChainPlan) : Except String GlrcPipelineChainPlan := do
  let hops ← (hubChainBlocks survivors hubBlockId chain.hubInEquation).mapM fun b =>
    fillHop b (coefRow.getD b 0) nodeLookup
  return { chain with hubIsChainTail := chain.hubInEquation, hops }

/-- the body of the loop over the selected equations; `chainId` counts the turns and is the slot too -/
def buildChain (k r z : ℕ) (failed : List ℕ) (equations : List GlrcEquation) (localDirectSet : List ℕ)
    (hubBlockId : ℕ) (nodeLookup : List GlrcPipelineNodeLookup) (eqIdx chainId : ℕ) :
    Except String GlrcPipelineChainPlan :=
  match equations[eqIdx]? with
  | none => .error "invalid equation index in repair plan"
  | some eq =>
    let coefRow := glrcPipelineBuildCoefRow k r z eqIdx
    let survivors := sortChainSurvivors (eq.involvedBlocks.filter fun b => b ∉ failed) hubBlockId
    let chain : GlrcPipelineChainPlan :=
      { chainId, equationIndex := eqIdx, eqSlot := chainId, equationName := eq.name
        localDirect := decide (eqIdx ∈ localDirectSet)
        hubInEquation := coefRow.getD hubBlockId 0 != 0 }
    if chain.localDirect then localDirectChain failed nodeLookup eq coefRow survivors chain
    else hubChain hubBlockId nodeLookup coefRow survivors chain

def glrcBuildPipelinePlan (k r z : ℕ) (failed : List ℕ) (repairPlan : GlrcIlpRepairPlan)
    (equations : List GlrcEquation) (hubBlockId : ℕ) (nodeLookup : List GlrcPipelineNodeLookup)
    (exchangeEpoch : ℕ) : Except String GlrcPipelinePlan :=
  match nodeLookup[hubBlockId]? with
  | none => .error "invalid hub block id"
  | some hubNode => do
    let localDirectSet := localDirectSet equations failed repairPlan.selectedEquationIndices
    let chains ← repairPlan.selectedEquationIndices.zipIdx.mapM fun p =>
      buildChain k r z failed equations localDirectSet hubBlockId nodeLookup p.1 p.2
    return {
      hubBlockId
      hubProxyIp := hubNode.proxyIp
      hubProxyPort := hubNode.proxyPort
      hubDatanodeIp := hubNode.datanodeIp
      hubDatanodePort := hubNode.datanodePort
      hubBlockKey := hubNode.blockKey
      exchangeEpoch
      hubChains := chains.filter fun c => !c.localDirect
      localDirectChains := chains.filter fun c => c.localDirect }

/-! ## The order of the survivors -/

theorem sortChainSurvivors_perm (survivors : List ℕ) (hub : ℕ) :
    (sortChainSurvivors survivors hub).Perm survivors := by
  have hsort := perm_insertionSort (· ≥ ·) survivors
  unfold sortChainSurvivors
  simp only
  split
  · next hmem =>
    have hback : ((survivors.insertionSort (· ≥ ·)).erase hub ++ [hub]).Perm
        (hub :: (survivors.insertionSort (· ≥ ·)).erase hub) := perm_append_singleton _ _
    exact (hback.trans (perm_cons_erase hmem).symm).trans hsort
  · exact hsort

theorem hubChainBlocks_perm {survivors : List ℕ} {hub : ℕ} {tail : Bool} (hnd : survivors.Nodup)
    (htail : tail = true → hub ∈ survivors) : (hubChainBlocks survivors hub tail).Perm survivors := by
  cases tail with
  | false => simp [hubChainBlocks]
  | true =>
    have hfilter : survivors.filter (fun b => !(true && b == hub)) = survivors.erase hub := by
      rw [hnd.erase_eq_filter]
      refine filter_congr fun b _ => ?_
      rw [Bool.true_and]
      rfl
    show (survivors.filter (fun b => !(true && b == hub)) ++ [hub]).Perm survivors
    rw [hfilter]
    exact (perm_append_singleton _ _).trans (perm_cons_erase (htail rfl)).symm

/-! ## What a chain holds -/

section
variable {k r z : ℕ} {failed : List ℕ} {hub : ℕ} {lookup : List GlrcPipelineNodeLookup}

/-- the entry of a hop on a chain of equation `e` -/
structure HopOk (k r z : ℕ) (lookup : List GlrcPipelineNodeLookup) (e : ℕ)
    (hop : GlrcPipelineHopInfo) : Prop where
  coef_eq : hop.coef = coef k r z e hop.blockId
  node : ∃ node, lookup[hop.blockId]? = some node ∧ hop = node.hop hop.blockId hop.coef

theorem fillHop_ok {hop : GlrcPipelineHopInfo}
    (h : fillHop b ((glrcPipelineBuildCoefRow k r z e).getD b 0) lookup = .ok hop) :
    hop.blockId = b ∧ HopOk k r z lookup e hop := by
  unfold fillHop at h
  split at h
  · cases h
  · next node hnode =>
    split at h
    · cases h
    · cases h
      exact ⟨rfl, rfl, node, hnode, rfl⟩

theorem hops_ok {blocks : List ℕ} {hops : List GlrcPipelineHopInfo}
    (h : blocks.mapM (fun b => fillHop b ((glrcPipelineBuildCoefRow k r z e).getD b 0) lookup) =
      .ok hops) : hops.map (·.blockId) = blocks ∧ ∀ hop ∈ hops, HopOk k r z lookup e hop := by
  have hall := mapM_except_ok h
  clear h
  induction hall with
  | nil => exact ⟨rfl, fun hop hmem => absurd hmem not_mem_nil⟩
  | cons hb _ ih =>
    obtain ⟨hid, hok⟩ := fillHop_ok hb
    refine ⟨by rw [map_cons, hid, ih.1], fun hop hmem => ?_⟩
    rcases mem_cons.mp hmem with rfl | hmem
    · exact hok
    · exact ih.2 hop hmem

structure HubChainOf (k r z : ℕ) (failed : List ℕ) (hub : ℕ) (lookup : List GlrcPipelineNodeLookup)
    (chain : GlrcPipelineChainPlan) : Prop where
  eq_lt : chain.equationIndex < z + r
  not_localDirect : chain.localDirect = false
  failedKey : chain.localDirectFailedBlockKey = ""
  tail : chain.hubIsChainTail = (coef k r z chain.equationIndex hub != 0)
  blocks : chain.hops.map (·.blockId) = hubChainBlocks (sortChainSurvivors
    (helperBlocksForEquation (allEquations k r z) failed chain.equationIndex) hub) hub
    chain.hubIsChainTail
  hops : ∀ hop ∈ chain.hops, HopOk k r z lookup chain.equationIndex hop

/-- a chain into the sink of its only failed block `b` -/
structure LocalDirectChainOf (k r z : ℕ) (failed : List ℕ) (lookup : List GlrcPipelineNodeLookup)
    (chain : GlrcPipelineChainPlan) (b : ℕ) (node : GlrcPipelineNodeLookup) : Prop where
  eq_lt : chain.equationIndex < z
  localDirect : chain.localDirect = true
  failed_eq : (involvedBlocks (allEquations k r z) chain.equationIndex).filter (· ∈ failed) = [b]
  failedId : chain.localDirectFailedBlockId = some b
  node_eq : lookup[b]? = some node
  failedKey : chain.localDirectFailedBlockKey = node.blockKey
  replacedIp : chain.localDirectReplacedIp = node.datanodeIp
  replacedPort : chain.localDirectReplacedPort = node.datanodePort
  sinkIp : chain.localDirectSinkProxyIp = node.proxyIp
  sinkPort : chain.localDirectSinkProxyPort = node.proxyPort
  sinkIp_ne : node.proxyIp ≠ ""
  tail : chain.hubIsChainTail = false
  blocks : (chain.hops.map (·.blockId)).Perm
    (helperBlocksForEquation (allEquations k r z) failed chain.equationIndex)
  hops_ne : chain.hops ≠ []
  hops : ∀ hop ∈ chain.hops, HopOk k r z lookup chain.equationIndex hop

theorem getElem?_allEquations (he : e < z + r) : ∃ eq, (allEquations k r z)[e]? = some eq ∧
    (eq.type = .LOCAL ↔ e < z) ∧ eq.involvedBlocks = involvedBlocks (allEquations k r z) e := by
  by_cases hez : e < z
  · refine ⟨buildEquationFromGroup e (glrcBuildPlacementGroups k r z), ?_, ?_, ?_⟩
    · simp [allEquations, getElem?_append, hez]
    · exact ⟨fun _ => hez, fun _ => rfl⟩
    · rw [involvedBlocks_local hez]
      rfl
  · obtain ⟨j, rfl⟩ := Nat.exists_eq_add_of_le (Nat.le_of_not_lt hez)
    have hj : j < r := by omega
    refine ⟨buildGlobalEquation k j, ?_, ?_, ?_⟩
    · simp [allEquations, hj]
    · exact ⟨fun h => (by cases h), fun h => absurd h hez⟩
    · rw [involvedBlocks_global hj]
      rfl

theorem mem_localDirectSet {selected : List ℕ} (he : e < z + r) :
    e ∈ localDirectSet (allEquations k r z) failed selected ↔ e ∈ selected ∧ e < z ∧
      ((involvedBlocks (allEquations k r z) e).filter (· ∈ failed)).length = 1 := by
  obtain ⟨eq, heq, htype, hinv⟩ := getElem?_allEquations (k := k) he
  unfold localDirectSet
  rw [mem_filter, heq]
  simp only [Bool.and_eq_true, beq_iff_eq, htype, hinv]

theorem find?_of_filter_eq_singleton {l : List ℕ} {p : ℕ → Bool}
    (h : l.filter p = [b]) : l.find? p = some b := by
  rw [← head?_filter, h]
  rfl

theorem localDirectChain_ok {eq : GlrcEquation} {base : GlrcPipelineChainPlan}
    (he : e < z) (heq : eq.involvedBlocks = involvedBlocks (allEquations k r z) e)
    (hfail : eq.involvedBlocks.filter (· ∈ failed) = [b]) (hidx : base.equationIndex = e)
    (hld : base.localDirect = true) (htail : base.hubIsChainTail = false)
    (h : localDirectChain failed lookup eq (glrcPipelineBuildCoefRow k r z e)
      (sortChainSurvivors (eq.involvedBlocks.filter fun b => b ∉ failed) hub) base = .ok chain) :
    chain.equationIndex = e ∧ ∃ node, LocalDirectChainOf k r z failed lookup chain b node := by
  subst hidx
  unfold localDirectChain at h
  simp only [find?_of_filter_eq_singleton hfail, Option.bind_some] at h
  split at h
  · cases h
  · next hsink =>
    rw [not_or] at hsink
    cases hnode : lookup[b]? with
    | none =>
      rw [hnode] at hsink
      exact absurd rfl hsink.1
    | some node =>
      rw [hnode, Option.getD_some] at h hsink
      set survivors := sortChainSurvivors (eq.involvedBlocks.filter fun b => b ∉ failed) hub with hs
      cases hhops : (survivors.insertionSort (· ≥ ·)).mapM fun b =>
          fillHop b ((glrcPipelineBuildCoefRow k r z base.equationIndex).getD b 0) lookup with
      | error msg =>
        rw [hhops] at h
        cases h
      | ok hops =>
        rw [hhops] at h
        cases h
        obtain ⟨hblocks, hok⟩ := hops_ok hhops
        have hsort := perm_insertionSort (· ≥ ·) survivors
        rw [← hblocks] at hsort
        have hne : hops ≠ [] := by
          intro h0
          rw [h0] at hsort
          exact hsink.2 hsort.nil_eq.symm
        have hperm := hsort.trans (sortChainSurvivors_perm _ hub)
        rw [heq] at hperm
        exact ⟨rfl, node, {
          eq_lt := he, localDirect := hld, failed_eq := heq ▸ hfail, failedId := rfl
          node_eq := hnode, failedKey := rfl, replacedIp := rfl, replacedPort := rfl, sinkIp := rfl
          sinkPort := rfl, sinkIp_ne := hsink.1, tail := htail, blocks := hperm, hops_ne := hne
          hops := hok }⟩

theorem hubChain_ok {eq : GlrcEquation} {base : GlrcPipelineChainPlan}
    (he : e < z + r) (heq : eq.involvedBlocks = involvedBlocks (allEquations k r z) e)
    (hidx : base.equationIndex = e) (hld : base.localDirect = false)
    (hkey : base.localDirectFailedBlockKey = "")
    (hin : base.hubInEquation = (coef k r z e hub != 0))
    (h : hubChain hub lookup (glrcPipelineBuildCoefRow k r z e)
      (sortChainSurvivors (eq.involvedBlocks.filter fun b => b ∉ failed) hub) base = .ok chain) :
    chain.equationIndex = e ∧ HubChainOf k r z failed hub lookup chain := by
  subst hidx
  unfold hubChain at h
  cases hhops : (hubChainBlocks (sortChainSurvivors (eq.involvedBlocks.filter fun b => b ∉ failed) hub)
      hub base.hubInEquation).mapM fun b =>
        fillHop b ((glrcPipelineBuildCoefRow k r z base.equationIndex).getD b 0) lookup with
  | error msg =>
    rw [hhops] at h
    cases h
  | ok hops =>
    rw [hhops] at h
    cases h
    obtain ⟨hblocks, hok⟩ := hops_ok hhops
    rw [heq] at hblocks
    exact ⟨rfl, { eq_lt := he, not_localDirect := hld, failedKey := hkey, tail := hin
                  blocks := hblocks, hops := hok }⟩

/-- the chain of equation `e` -/
structure ChainOf (k r z : ℕ) (failed selected : List ℕ) (hub : ℕ)
    (lookup : List GlrcPipelineNodeLookup) (e : ℕ) (chain : GlrcPipelineChainPlan) : Prop where
  index : chain.equationIndex = e
  localDirect_iff : chain.localDirect = true ↔
    e ∈ localDirectSet (allEquations k r z) failed selected
  toHub : chain.localDirect = false → HubChainOf k r z failed hub lookup chain
  toSink : chain.localDirect = true →
    ∃ b node, LocalDirectChainOf k r z failed lookup chain b node

theorem buildChain_ok {selected : List ℕ} {id : ℕ} (h : buildChain k r z failed (allEquations k r z)
      (localDirectSet (allEquations k r z) failed selected) hub lookup e id = .ok chain) :
    ChainOf k r z failed selected hub lookup e chain := by
  unfold buildChain at h
  split at h
  · cases h
  · next eq heq =>
    have he : e < z + r := by
      have := (List.getElem?_eq_some_iff.mp heq).1
      rwa [allEquations_length] at this
    have hinv : eq.involvedBlocks = involvedBlocks (allEquations k r z) e := by
      rw [involvedBlocks, heq]
      rfl
    simp only at h
    split at h
    · next hld =>
      have hmem := (mem_localDirectSet he).mp (of_decide_eq_true hld)
      obtain ⟨b, hb⟩ := length_eq_one_iff.mp hmem.2.2
      obtain ⟨hidx, node, hc⟩ := localDirectChain_ok hmem.2.1 hinv (hinv ▸ hb) rfl hld rfl h
      exact {
        index := hidx
        localDirect_iff := ⟨fun _ => of_decide_eq_true hld, fun _ => hc.localDirect⟩
        toHub := fun hf => absurd (hc.localDirect.symm.trans hf) (by decide)
        toSink := fun _ => ⟨b, node, hc⟩ }
    · next hld =>
      obtain ⟨hidx, hc⟩ := hubChain_ok he hinv rfl (Bool.eq_false_iff.mpr hld) rfl rfl h
      exact {
        index := hidx
        localDirect_iff := ⟨fun ht => absurd (hc.not_localDirect.symm.trans ht) (by decide),
          fun ht => absurd (decide_eq_true ht) hld⟩
        toHub := fun _ => hc
        toSink := fun ht => absurd (hc.not_localDirect.symm.trans ht) (by decide) }

theorem glrcBuildPipelinePlan_ok {repairPlan : GlrcIlpRepairPlan} {epoch : ℕ} {plan : GlrcPipelinePlan}
    (h : glrcBuildPipelinePlan k r z failed repairPlan (allEquations k r z) hub lookup epoch =
      .ok plan) : ∃ hubNode chains, lookup[hub]? = some hubNode ∧
      Forall₂ (ChainOf k r z failed repairPlan.selectedEquationIndices hub lookup)
        repairPlan.selectedEquationIndices chains ∧
      plan = { hubBlockId := hub, hubProxyIp := hubNode.proxyIp, hubProxyPort := hubNode.proxyPort
               hubDatanodeIp := hubNode.datanodeIp, hubDatanodePort := hubNode.datanodePort
               hubBlockKey := hubNode.blockKey, exchangeEpoch := epoch
               hubChains := chains.filter fun c => !c.localDirect
               localDirectChains := chains.filter fun c => c.localDirect } := by
  unfold glrcBuildPipelinePlan at h
  split at h
  · cases h
  · next hubNode hnode =>
    simp only at h
    cases hchains : repairPlan.selectedEquationIndices.zipIdx.mapM fun p =>
        buildChain k r z failed (allEquations k r z) (localDirectSet (allEquations k r z) failed
          repairPlan.selectedEquationIndices) hub lookup p.1 p.2 with
    | error msg =>
      rw [hchains] at h
      cases h
    | ok chains =>
      rw [hchains] at h
      cases h
      have hall := (mapM_except_ok hchains).imp fun p c hc => buildChain_ok hc
      rw [← forall₂_map_left_iff, zipIdx_map_fst] at hall
      exact ⟨hubNode, chains, hnode, hall, rfl⟩

end

end Mlrc
