import Mlrc.Pipeline.Hub

/-!
# Decoding at the hub

The hub applies the inverse for its own failed blocks to the right-hand sides of its equations.  A
right-hand side is the sum over the survivors, so the blocks that local-direct chains repair are
missing from it.

* `decodeGlrcIlpRhsCompact`   the inverse times the right-hand sides;
* `hub_decode_iff`   the hub recovers its blocks exactly when the missing terms vanish;
* `hub_system_solvable`   every failed block has a local-direct chain or an unknown at the hub.
-/

namespace Mlrc

open Finset

variable {len t i blockSize e off : ℕ} {data : List (List UInt8)}

/-- the inverse applied to a column of right-hand sides -/
def inverseByte (f : ℕ) (aInv : Mat UInt8) (colB : ℕ → UInt8) (t : ℕ) : UInt8 :=
  (List.range f).foldl (fun acc j => acc ^^^ gfMul (aInv t j) (colB j)) 0

def decodedRow (aInv : Mat UInt8) (rhs : List (List UInt8)) (f len t : ℕ) : List UInt8 :=
  (List.range len).map fun i => inverseByte f aInv (fun j => byteAt rhs j i) t

/-- the inverse times the right-hand sides -/
def decodedRhs (aInv : Mat UInt8) (rhs : List (List UInt8)) (f len : ℕ) : List (List UInt8) :=
  (List.range f).map (decodedRow aInv rhs f len)

/-- `decode_glrc_ilp_rhs_compact`; `none` for false -/
def decodeGlrcIlpRhsCompact (rhs : List (List UInt8)) (aInv : Mat UInt8) (failedCount rangeLen : ℕ) :
    Option (List (List UInt8)) :=
  if failedCount = 0 ∨ rhs.length ≠ failedCount then none
  else some (decodedRhs aInv rhs failedCount rangeLen)

/-- what a decode worker of the hub computes from the right-hand sides of one shard -/
def hubDecode (cfg : Config) (req : HubRequest) (rhs : List (List UInt8)) (stripeLen : ℕ) :
    Except PipelineError (List (List UInt8)) := do
  let hubDecodeInverse ← hubStart cfg req
  match decodeGlrcIlpRhsCompact rhs hubDecodeInverse req.failedBlockIds.length stripeLen with
  | none => .error (.message "hub decode_glrc_ilp_rhs_range failed")
  | some recovered => .ok recovered

theorem mk_inverseByte (f : ℕ) (aInv : Mat UInt8) (colB : ℕ → UInt8) (t : ℕ) :
    Gf.mk (inverseByte f aInv colB t) = ∑ j ∈ range f, Gf.mk (aInv t j) * Gf.mk (colB j) := by
  rw [inverseByte, Gf.mk_foldl_xor, Gf.mk_zero, zero_add]
  simp only [Gf.mk_gfMul]
  rfl

theorem decodedRhs_buffers (aInv : Mat UInt8) (rhs : List (List UInt8)) (f len : ℕ) :
    Buffers f len (fun t i => ∑ j ∈ range f, Gf.mk (aInv t j) * Gf.mk (byteAt rhs j i))
      (decodedRhs aInv rhs f len) where
  count := by simp [decodedRhs]
  size := by
    intro buf hbuf
    obtain ⟨t, -, rfl⟩ := List.mem_map.mp hbuf
    simp [decodedRow]
  bytes := by
    intro t ht i hi
    rw [byteAt, decodedRhs, getD_map_range _ ht, decodedRow, getD_map_range _ hi, mk_inverseByte]

/-- the part of an equation that the blocks of local-direct chains make up, at one byte -/
def locallyRepairedTerm (k r z : ℕ) (failed selected : List ℕ) (content : ℕ → List UInt8) (e pos : ℕ) :
    UInt8 :=
  (locallyRepaired (allEquations k r z) failed selected).foldl
    (fun acc b => acc ^^^ gfMul (coef k r z e b) ((content b).getD pos 0)) 0

section
variable {k r z : ℕ} {failed selected : List ℕ}

theorem mk_locallyRepairedTerm (content : ℕ → List UInt8) (e pos : ℕ) :
    Gf.mk (locallyRepairedTerm k r z failed selected content e pos) =
      failedSum k r z (locallyRepaired (allEquations k r z) failed selected) e
        fun b => Gf.mk ((content b).getD pos 0) := by
  rw [locallyRepairedTerm, Gf.mk_foldl_xor, Gf.mk_zero, zero_add]
  simp only [Gf.mk_gfMul]
  rfl

theorem mk_equationBytes_codeword
    (hd : DataBlocks k blockSize data) (hnd : failed.Nodup) (hlt : ∀ b ∈ failed, b < k + r + z)
    (h : Solves k r z failed selected) (he : e < z + r)
    (hi : i < len) (hoff : off + len ≤ blockSize) :
    Gf.mk ((equationBytes k r z failed (blockOf (codeword genGlrcMatrix k r z data blockSize)) e off
        len).getD i 0) = failedSum k r z (hubBlocks (allEquations k r z) failed selected) e
          (fun b => Gf.mk (byteAt (codeword genGlrcMatrix k r z data blockSize) b (off + i))) +
        Gf.mk (locallyRepairedTerm k r z failed selected
          (blockOf (codeword genGlrcMatrix k r z data blockSize)) e (off + i)) := by
  set cw := codeword genGlrcMatrix k r z data blockSize with hcw
  have hcode : IsCodeword k r z fun b => Gf.mk (byteAt cw b (off + i)) :=
    isCodeword_byteAt hd (by omega)
  rw [mk_getD_equationBytes _ _ _ _ _ _ _ hi, mk_locallyRepairedTerm]
  refine Eq.trans (survivors_sum he fun b => Gf.mk (byteAt cw b (off + i))) ?_
  rw [survivorSum_eq hcode he hnd hlt]
  exact failedSum_split hnd h.1 h.nodup e _

theorem locallyRepairedTerm_local (hlt : ∀ b ∈ failed, b < k + r + z)
    (hsel : ∀ e ∈ selected, e < z + r)
    (he : e ∈ hubEquations (allEquations k r z) failed selected) (hez : e < z)
    (content : ℕ → List UInt8) (pos : ℕ) :
    locallyRepairedTerm k r z failed selected content e pos = 0 := by
  rw [← Gf.mk_eq_zero, mk_locallyRepairedTerm, failedSum]
  refine List.sum_eq_zero fun x hx => ?_
  obtain ⟨b, hb, rfl⟩ := List.mem_map.mp hx
  obtain ⟨e', he', hez', hfail⟩ := (mem_locallyRepaired hsel).mp hb
  obtain ⟨hesel, hnot⟩ := List.mem_filter.mp he
  have hcoef : coef k r z e b = 0 := by
    by_contra hne
    have hin := mem_involved_of_coef_ne_zero (hsel e hesel) (hlt b (locallyRepaired_subset hb)) hne
    have hin' : b ∈ involvedBlocks (allEquations k r z) e' := by
      have : b ∈ (involvedBlocks (allEquations k r z) e').filter (· ∈ failed) := by
        rw [hfail]
        exact List.mem_cons_self
      exact List.mem_of_mem_filter this
    obtain rfl := local_unique hez hez' hin hin'
    exact of_decide_eq_true hnot ((mem_localDirectSet (hsel e hesel)).mpr
      ⟨hesel, hez, by rw [hfail]; rfl⟩)
  rw [hcoef, Gf.mk_zero, zero_mul]

theorem mem_hubEquations_of_global (hsel : ∀ e ∈ selected, e < z + r) (he : e ∈ selected)
    (hez : z ≤ e) : e ∈ hubEquations (allEquations k r z) failed selected := by
  refine List.mem_filter.mpr ⟨he, decide_eq_true fun hld => ?_⟩
  have := ((mem_localDirectSet (hsel e he)).mp hld).2.1
  omega

theorem byteAt_slices (blocks : List (List UInt8)) (ids : List ℕ) (off : ℕ)
    (ht : t < ids.length) (hi : i < len) :
    byteAt (ids.map fun b => ((blockOf blocks b).drop off).take len) t i =
      byteAt blocks (ids.getD t 0) (off + i) := by
  rw [byteAt, getD_map_of_lt _ _ ht 0 []]
  simp only [byteAt, blockOf, List.getD_eq_getElem?_getD, List.getElem?_take_of_lt hi,
    List.getElem?_drop]

section
variable {cw : List (List UInt8)} {eqs blocks : List ℕ} {B : Mat UInt8}
  (hcw : cw = codeword genGlrcMatrix k r z data blockSize)
  (heqs : eqs = hubEquations (allEquations k r z) failed selected)
  (hblocks : blocks = hubBlocks (allEquations k r z) failed selected)
  (hd : DataBlocks k blockSize data) (hnd : failed.Nodup) (hlt : ∀ b ∈ failed, b < k + r + z)
  (h : Solves k r z failed selected) (hB : glrcIlpBuildInverse k r z blocks eqs = some B)
  (hoff : off + len ≤ blockSize)
include hcw heqs hblocks hd hnd hlt h hB hoff

theorem mk_decoded (ht : t < blocks.length) (hi : i < len) :
    ∑ j ∈ range blocks.length, Gf.mk (B t j) *
        Gf.mk (byteAt (eqs.map fun e => equationBytes k r z failed (blockOf cw) e off len) j i) =
      Gf.mk (byteAt cw (blocks.getD t 0) (off + i)) +
        rowVal blocks.length (toGf B) (fun j => Gf.mk (locallyRepairedTerm k r z failed selected
          (blockOf cw) (eqs.getD j 0) (off + i))) t := by
  subst hcw heqs hblocks
  set eqs := hubEquations (allEquations k r z) failed selected with heqs
  have hlen := hubBlocks_length h
  rw [← inverse_failedSum hB (fun b => Gf.mk (byteAt (codeword genGlrcMatrix k r z data blockSize) b
    (off + i))) ht, rowVal, ← sum_add_distrib]
  refine sum_congr rfl fun j hj => ?_
  have hj' : j < eqs.length := by
    rw [← hlen]
    exact mem_range.mp hj
  have hmem : eqs.getD j 0 ∈ selected := List.mem_of_mem_filter (getD_mem hj')
  rw [byteAt, getD_map_of_lt _ _ hj' 0 [], mk_equationBytes_codeword hd hnd hlt h (h.1 _ hmem) hi hoff,
    mul_add]
  rfl

theorem decodedRhs_eq_iff :
    decodedRhs B (eqs.map fun e => equationBytes k r z failed (blockOf cw) e off len)
        blocks.length len = blocks.map (fun b => ((blockOf cw b).drop off).take len) ↔
    ∀ e ∈ eqs, ∀ i < len,
      locallyRepairedTerm k r z failed selected (blockOf cw) e (off + i) = 0 := by
  have hlen : blocks.length = eqs.length := by
    rw [hblocks, heqs]
    exact hubBlocks_length h
  have hslices : Buffers blocks.length len
      (fun t i => Gf.mk (byteAt cw (blocks.getD t 0) (off + i)))
      (blocks.map fun b => ((blockOf cw b).drop off).take len) := by
    refine ⟨List.length_map _, fun buf hbuf => ?_, fun t ht i hi => by rw [byteAt_slices _ _ _ ht hi]⟩
    obtain ⟨b, hb, rfl⟩ := List.mem_map.mp hbuf
    rw [hblocks] at hb
    rw [List.length_take, List.length_drop, hcw,
      length_blockOf_codeword hd (hlt b (List.mem_of_mem_filter hb))]
    omega
  let term : ℕ → ℕ → Gf := fun i j =>
    Gf.mk (locallyRepairedTerm k r z failed selected (blockOf cw) (eqs.getD j 0) (off + i))
  rw [(decodedRhs_buffers B _ _ len).eq_iff hslices]
  refine ⟨fun heq e he i hi => ?_, fun hz t ht i hi => ?_⟩
  · obtain ⟨j, hj, rfl⟩ := exists_getD_of_mem he
    refine Gf.mk_eq_zero.mp ((inverse_eq_zero_iff hB (term i)).mp (fun t ht => ?_) j (by omega))
    have hrow := heq t ht i hi
    rwa [mk_decoded hcw heqs hblocks hd hnd hlt h hB hoff ht hi, add_eq_left] at hrow
  · rw [mk_decoded hcw heqs hblocks hd hnd hlt h hB hoff ht hi, add_eq_left]
    exact (inverse_eq_zero_iff hB (term i)).mpr
      (fun j hj => Gf.mk_eq_zero.mpr (hz _ (getD_mem (by omega)) i hi)) t ht

end

end

/-- **Decoding at the hub.**  From the sums over the survivors the hub recovers its failed blocks
exactly when, in every selected global equation, the terms of the blocks repaired by local-direct
chains add up to zero. -/
theorem hub_decode_iff (S : StdSort) {cfg : Config} {failed : List ℕ} {policy : String}
    {repairPlan : GlrcIlpRepairPlan} {hub epoch : ℕ} {lookup : List GlrcPipelineNodeLookup}
    {plan : GlrcPipelinePlan} {session : PipelineSession} {ports : ℕ → GlrcPipelineChainPorts}
    {data : List (List UInt8)} (hz : 0 < cfg.z) (hnd : failed.Nodup)
    (hlt : ∀ b ∈ failed, b < cfg.k + cfg.r + cfg.z)
    (hplan : glrcSolveRepairPlan S cfg.k cfg.r cfg.z failed policy = (true, repairPlan))
    (hbuild : glrcBuildPipelinePlan cfg.k cfg.r cfg.z failed repairPlan
      (allEquations cfg.k cfg.r cfg.z) hub lookup epoch = .ok plan)
    (hne : plan.hubChains ≠ []) (hv : session.Valid cfg) (hd : DataBlocks cfg.k cfg.blockSize data)
    {off len : ℕ} (hoff : off + len ≤ cfg.blockSize) :
    hubDecode cfg (hubRequest session cfg.z plan failed lookup ports)
        (plan.hubChains.map fun chain => equationBytes cfg.k cfg.r cfg.z failed
          (blockOf (codeword genGlrcMatrix cfg.k cfg.r cfg.z data cfg.blockSize)) chain.equationIndex
          off len) len =
      .ok ((hubFailed plan failed).map fun b =>
        ((blockOf (codeword genGlrcMatrix cfg.k cfg.r cfg.z data cfg.blockSize) b).drop off).take len) ↔
    ∀ e ∈ repairPlan.selectedEquationIndices, cfg.z ≤ e → ∀ i < len,
      locallyRepairedTerm cfg.k cfg.r cfg.z failed repairPlan.selectedEquationIndices
        (blockOf (codeword genGlrcMatrix cfg.k cfg.r cfg.z data cfg.blockSize)) e (off + i) = 0 := by
  have hok := glrcSolveRepairPlan_ok S hz hplan
  have hsel := hok.solves.1
  obtain ⟨B, hstart, hB⟩ := hubStart_ok ports hok hbuild hv hne
  obtain ⟨hchains, hlocal⟩ := plan_split hbuild
  set cw := codeword genGlrcMatrix cfg.k cfg.r cfg.z data cfg.blockSize with hcw
  set eqs := hubEquations (allEquations cfg.k cfg.r cfg.z) failed
    repairPlan.selectedEquationIndices with heqs
  have hids : hubFailed plan failed = hubBlocks (allEquations cfg.k cfg.r cfg.z) failed
      repairPlan.selectedEquationIndices := by
    rw [hubFailed, hlocal]
    rfl
  set blocks := hubBlocks (allEquations cfg.k cfg.r cfg.z) failed
    repairPlan.selectedEquationIndices with hblocks
  have hlen : blocks.length = eqs.length := hubBlocks_length hok.solves
  have hrhs : plan.hubChains.map (fun chain => equationBytes cfg.k cfg.r cfg.z failed (blockOf cw)
      chain.equationIndex off len) = eqs.map fun e =>
        equationBytes cfg.k cfg.r cfg.z failed (blockOf cw) e off len := by
    rw [← hchains, List.map_map]
    rfl
  have hpos : blocks.length ≠ 0 := by
    rw [hlen, ← hchains, List.length_map]
    exact fun h0 => hne (List.length_eq_zero_iff.mp h0)
  have hdec : hubDecode cfg (hubRequest session cfg.z plan failed lookup ports)
      (eqs.map fun e => equationBytes cfg.k cfg.r cfg.z failed (blockOf cw) e off len) len =
      .ok (decodedRhs B (eqs.map fun e => equationBytes cfg.k cfg.r cfg.z failed (blockOf cw) e off len)
        blocks.length len) := by
    unfold hubDecode
    simp only [hstart, bind, Except.bind]
    rw [show (hubRequest session cfg.z plan failed lookup ports).failedBlockIds = blocks from hids,
      decodeGlrcIlpRhsCompact, if_neg (by rw [List.length_map]; omega)]
  rw [hrhs, hdec, hids, Except.ok.injEq, decodedRhs_eq_iff rfl rfl rfl hd hnd hlt hok.solves hB hoff]
  refine ⟨fun h e he hez => h e (mem_hubEquations_of_global hsel he hez), fun h e he i hi => ?_⟩
  rcases lt_or_ge e cfg.z with hez | hez
  · exact locallyRepairedTerm_local hlt hsel he hez _ _
  · exact h e (List.mem_of_mem_filter he) hez i hi

theorem localDirectChains_block {k r z hub epoch : ℕ} {failed : List ℕ}
    {lookup : List GlrcPipelineNodeLookup} {repairPlan : GlrcIlpRepairPlan} {plan : GlrcPipelinePlan}
    (h : glrcBuildPipelinePlan k r z failed repairPlan (allEquations k r z) hub lookup epoch = .ok plan) :
    plan.localDirectChains.map (·.localDirectFailedBlockId) = (localDirectFailed plan).map some := by
  have hsome : ∀ chain ∈ plan.localDirectChains, ∃ b, chain.localDirectFailedBlockId = some b := by
    obtain ⟨hubNode, chains, -, hall, rfl⟩ := glrcBuildPipelinePlan_ok h
    intro chain hmem
    obtain ⟨hin, hld⟩ := List.mem_filter.mp hmem
    obtain ⟨e, -, hc⟩ := forall₂_mem_right hall hin
    obtain ⟨b, node, hchain⟩ := hc.toSink hld
    exact ⟨b, hchain.failedId⟩
  show _ = (plan.localDirectChains.filterMap (·.localDirectFailedBlockId)).map some
  revert hsome
  induction plan.localDirectChains with
  | nil => exact fun _ => rfl
  | cons chain chains ih =>
    intro hsome
    obtain ⟨b, hb⟩ := hsome chain List.mem_cons_self
    rw [List.filterMap_cons_some hb, List.map_cons, List.map_cons, hb,
      ih fun c hc => hsome c (List.mem_cons_of_mem _ hc)]

/-- **The hub has a solvable system.**  The local-direct chains of a pipeline plan repair different
failed blocks, the hub has a chain for each of the others, and it finds an inverse for them exactly
when there are any. -/
theorem hub_system_solvable (S : StdSort) {k r z : ℕ} {failed : List ℕ} {policy : String}
    {repairPlan : GlrcIlpRepairPlan} {hub epoch : ℕ} {lookup : List GlrcPipelineNodeLookup}
    {plan : GlrcPipelinePlan} (hz : 0 < z)
    (hplan : glrcSolveRepairPlan S k r z failed policy = (true, repairPlan))
    (hbuild : glrcBuildPipelinePlan k r z failed repairPlan (allEquations k r z) hub lookup epoch =
      .ok plan) :
    (∀ chain ∈ plan.localDirectChains, ∃ b ∈ failed, chain.localDirectFailedBlockId = some b) ∧
    (plan.localDirectChains.map (·.localDirectFailedBlockId)).Nodup ∧
    plan.hubChains.length = (hubFailed plan failed).length ∧
    ((glrcIlpPrepareInverse k r z (hubFailed plan failed)
        (plan.hubChains.map (·.equationIndex))).isSome ↔ plan.hubChains ≠ []) := by
  have hok := (glrcSolveRepairPlan_ok S hz hplan).solves
  obtain ⟨hchains, hlocal⟩ := plan_split hbuild
  have hids : hubFailed plan failed =
      hubBlocks (allEquations k r z) failed repairPlan.selectedEquationIndices := by
    rw [hubFailed, hlocal]
    rfl
  have hlen : plan.hubChains.length = (hubFailed plan failed).length := by
    rw [hids, hubBlocks_length hok, ← hchains, List.length_map]
  have hmap := localDirectChains_block hbuild
  refine ⟨fun chain hmem => ?_, ?_, hlen, ?_⟩
  · have hin : chain.localDirectFailedBlockId ∈ (localDirectFailed plan).map some :=
      hmap ▸ List.mem_map_of_mem hmem
    obtain ⟨b, hb, hchain⟩ := List.mem_map.mp hin
    exact ⟨b, locallyRepaired_subset (hlocal ▸ hb), hchain.symm⟩
  · rw [hmap, hlocal]
    exact (locallyRepaired_nodup hok.1 hok.nodup).map (Option.some_injective ℕ)
  · rw [glrcIlpPrepareInverse, List.length_map, ← List.length_pos_iff, hlen]
    split
    · next h0 =>
      refine ⟨fun h => absurd h Bool.false_ne_true, fun h => ?_⟩
      omega
    · next h0 =>
      refine ⟨fun _ => by omega, fun _ => ?_⟩
      rw [hids, hchains]
      exact glrcIlpBuildInverse_isSome_iff.mpr (hubSystem_nonsing hok)

/-! ## A repair with both kinds of chains -/

def smallHubChain (chainId e : ℕ) (name : String) (tail : Bool) (hops : List (ℕ × UInt8)) :
    GlrcPipelineChainPlan :=
  { chainId, equationIndex := e, eqSlot := chainId, equationName := name, localDirect := false
    hops := hops.map fun p => (stripeNode p.1).hop p.1 p.2
    hubIsChainTail := tail, hubInEquation := tail }

/-- blocks 0, 3 and 4 by the equations L0, L1 and G0 -/
def mixedRepair : GlrcIlpRepairPlan :=
  { success := true, failedBlockIds := [0, 3, 4], selectedEquations := ["L0", "L1", "G0"]
    selectedEquationIndices := [0, 1, 2], helperBlockIds := [1, 2, 5, 6, 7], helperBlockCount := 5 }

def mixedPlan : GlrcPipelinePlan :=
  stripePlan 1 [smallHubChain 1 1 "L1" false [(7, 1), (5, 1)],
    smallHubChain 2 2 "G0" true [(2, 122), (1, 167)]] [localRepairChain 0 [(6, 1), (2, 71), (1, 186)]]

/-- L0 alone repairs block 0, but block 0 is also a term of G0: the hub decodes blocks 3 and 4 without
it and gets them wrong -/
theorem hub_misses_locally_repaired_block :
    glrcSolveRepairPlan StdSort.insertion 4 2 2 [0, 3, 4] "local-first" = (true, mixedRepair) ∧
    selectHub (allEquations 4 2 2) mixedRepair [1, 2, 5, 6, 7] = some 1 ∧
    glrcBuildPipelinePlan 4 2 2 [0, 3, 4] mixedRepair (allEquations 4 2 2) 1 (stripeNodes 8) 1 =
      .ok mixedPlan ∧
    (∀ chain ∈ mixedPlan.hubChains, 2 ≤ chain.hops.length) ∧
    hubFailed mixedPlan [0, 3, 4] = [3, 4] ∧
    hubDecode smallConfig (hubRequest smallSession 2 mixedPlan [0, 3, 4] (stripeNodes 8)
        fun _ => ⟨[20000, 20150], 20075⟩)
      (mixedPlan.hubChains.map fun chain =>
        equationBytes 4 2 2 [0, 3, 4] smallBlocks chain.equationIndex 0 2) 2 ≠
      .ok ([3, 4].map fun b => ((smallBlocks b).drop 0).take 2) := by
  decide +kernel

theorem hub_system_solvable_mixed :
    mixedPlan.hubChains.length = (hubFailed mixedPlan [0, 3, 4]).length ∧
      (glrcIlpPrepareInverse 4 2 2 (hubFailed mixedPlan [0, 3, 4])
        (mixedPlan.hubChains.map (·.equationIndex))).isSome := by
  obtain ⟨-, -, hlen, hiff⟩ := hub_system_solvable StdSort.insertion (by decide)
    (show glrcSolveRepairPlan StdSort.insertion 4 2 2 [0, 3, 4] "local-first" =
      (true, mixedRepair) by decide +kernel)
    (show glrcBuildPipelinePlan 4 2 2 [0, 3, 4] mixedRepair (allEquations 4 2 2) 1 (stripeNodes 8) 1 =
      .ok mixedPlan by decide +kernel)
  exact ⟨hlen, hiff.mpr (by decide)⟩

/-- one block repaired by its local equation leaves nothing to the hub, and there is no inverse of
nothing -/
theorem nothing_left_to_hub :
    glrcSolveRepairPlan StdSort.insertion 4 2 2 [0] "ilp" = (true, localRepair 0 [1, 2, 6]) ∧
    selectHub (allEquations 4 2 2) (localRepair 0 [1, 2, 6]) [1, 2, 6] = some 1 ∧
    glrcBuildPipelinePlan 4 2 2 [0] (localRepair 0 [1, 2, 6]) (allEquations 4 2 2) 1 (stripeNodes 8) 1 =
      .ok (stripePlan 1 [] [localRepairChain 0 [(6, 1), (2, 71), (1, 186)]]) ∧
    (glrcIlpPrepareInverse 4 2 2
      (hubFailed (stripePlan 1 [] [localRepairChain 0 [(6, 1), (2, 71), (1, 186)]]) [0])
      ((stripePlan 1 [] [localRepairChain 0 [(6, 1), (2, 71), (1, 186)]]).hubChains.map
        (·.equationIndex))).isSome = false := by
  refine ⟨?_, ?_, ?_, rfl⟩
  · decide +kernel
  · decide +kernel
  · decide +kernel

/-- blocks 0 and 1 by the equations L0 and G0 -/
def twoRepair : GlrcIlpRepairPlan :=
  { success := true, failedBlockIds := [0, 1], selectedEquations := ["L0", "G0"]
    selectedEquationIndices := [0, 2], helperBlockIds := [2, 3, 4, 6], helperBlockCount := 4 }

def twoPlan : GlrcPipelinePlan :=
  stripePlan 2 [smallHubChain 0 0 "L0" true [(6, 1), (2, 71)],
    smallHubChain 1 2 "G0" true [(4, 1), (3, 186), (2, 122)]] []

theorem hub_decodes_two_blocks :
    hubDecode smallConfig (hubRequest smallSession smallConfig.z twoPlan [0, 1] (stripeNodes 8)
        fun _ => ⟨[20000, 20150, 20300], 20075⟩)
      (twoPlan.hubChains.map fun chain => equationBytes smallConfig.k smallConfig.r smallConfig.z
        [0, 1] smallBlocks chain.equationIndex 0 2) 2 =
      .ok ((hubFailed twoPlan [0, 1]).map fun b => ((smallBlocks b).drop 0).take 2) := by
  have hplan : glrcSolveRepairPlan StdSort.insertion smallConfig.k smallConfig.r smallConfig.z [0, 1]
      "ilp" = (true, twoRepair) := by decide +kernel
  have hbuild : glrcBuildPipelinePlan smallConfig.k smallConfig.r smallConfig.z [0, 1] twoRepair
      (allEquations smallConfig.k smallConfig.r smallConfig.z) 2 (stripeNodes 8) 1 = .ok twoPlan := by
    decide +kernel
  have hd : DataBlocks smallConfig.k smallConfig.blockSize smallData := ⟨by decide, by decide⟩
  have hv : smallSession.Valid smallConfig := ⟨by decide, by decide, by decide, by decide⟩
  exact (hub_decode_iff StdSort.insertion (by decide) (by decide) (by decide) hplan hbuild (by decide)
    hv hd (by decide)).mpr (by decide +kernel)

end Mlrc
