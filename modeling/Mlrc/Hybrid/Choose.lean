import Mlrc.Hybrid.Partitions
import Mlrc.Hmbr.Split
import Mlrc.Repair.Plan

/-!
# The choice of the hybrid split

Hybrid repair gives the shards `[0, p)` to the two-phase exchange and `[p, S)` to the pipeline.  The
split point is given in the configuration, is 0 when every group lost at most one block, or is
searched around the point where the two estimated times cross.

* `estimateHybridTimes`, `solveContinuousP`   the estimates and their crossing point;
* `searchOrder`, `discretizeP`   the directional search;
* `glrcHybridChooseP`   the choice;
* `chooseP_in_range_iff`   the split point is in `[0, S - 1]` except when a single
  shard is split automatically.

The arithmetic of `double` is a parameter, as in the HMBR split: no comparison of times decides
whether the point is in range.
-/

set_option linter.unusedSectionVars false

namespace Mlrc

open List

variable {p start hi direction : ℤ}

/-! ## Failures by group -/

/-- the loop of `glrc_failures_at_most_one_per_group` over the failed blocks -/
def failuresAtMostOneFrom (groups : List (List ℕ)) : List ℕ → List ℕ → Bool
  | _, [] => true
  | perGroup, fid :: rest =>
    match groups.findIdx? fun group => fid ∈ group with
    | none => false
    | some gi =>
      let count := perGroup.getD gi 0 + 1
      if 1 < count then false else failuresAtMostOneFrom groups (perGroup.set gi count) rest

def glrcFailuresAtMostOnePerGroup (k r z : ℕ) (failedBlockIds : List ℕ) : Bool :=
  let groups := glrcBuildPlacementGroups k r z
  failedBlockIds ≠ [] && failuresAtMostOneFrom groups (replicate groups.length 0) failedBlockIds

/-! ## The configured split -/

inductive ParsedP where
  | auto
  | fixed (p : ℤ)
  | error (message : String)
deriving DecidableEq, Repr

/-- `parse_fixed_p`; its results -2 and -1 are `auto` and `error` -/
def parseFixedP (cfg : String) (globalShardCount : ℕ) : ParsedP :=
  if cfg = "" then .error "empty GlrcHybridP"
  else if cfg = "auto" ∨ cfg = "AUTO" then .auto
  else
    match stoi cfg with
    | none => .error ("invalid GlrcHybridP integer: " ++ cfg)
    | some (p, idx) =>
      if idx ≠ cfg.length then .error ("invalid GlrcHybridP (trailing chars): " ++ cfg)
      else if p < 0 ∨ (globalShardCount : ℤ) ≤ p then
        .error ("GlrcHybridP out of range [0, S-1]: p=" ++ toString p ++ " S=" ++
          toString globalShardCount)
      else .fixed p

theorem parseFixedP_fixed {cfg : String} {S : ℕ} (h : parseFixedP cfg S = .fixed p) :
    (cfg ≠ "auto" ∧ cfg ≠ "AUTO") ∧ 0 ≤ p ∧ p < S := by
  unfold parseFixedP at h
  split at h
  · cases h
  · split at h
    · cases h
    · next hauto =>
      split at h
      · cases h
      · split at h
        · cases h
        · split at h
          · cases h
          · next hrange =>
            cases h
            exact ⟨not_or.mp hauto, by omega⟩

theorem parseFixedP_auto {cfg : String} {S : ℕ} (h : parseFixedP cfg S = .auto) :
    cfg = "auto" ∨ cfg = "AUTO" := by
  unfold parseFixedP at h
  split at h
  · cases h
  · split at h
    · assumption
    · split at h
      · cases h
      · split at h
        · cases h
        · split at h <;> cases h

/-! ## Estimated times -/

section
variable {δ : Type} [Add δ] [Sub δ] [Mul δ] [Div δ] [IntCast δ] [LT δ] [DecidableLT δ] [LE δ]
  [DecidableLE δ] [BEq δ]

/-- `std::max` on doubles -/
def stdMax (a b : δ) : δ := if a < b then b else a

/-- `std::min` on doubles -/
def stdMin (a b : δ) : δ := if b < a then b else a

def fabs (a : δ) : δ := if a < ((0 : ℤ) : δ) then ((0 : ℤ) : δ) - a else a

/-- the literal `1e-12` -/
def tolerance : δ := ((1 : ℤ) : δ) / ((10 ^ 12 : ℤ) : δ)

def nodeBlockTransferSeconds (nbytes : ℕ) (bandwidthMbps : δ) : δ :=
  if bandwidthMbps ≤ ((0 : ℤ) : δ) ∨ nbytes = 0 then ((0 : ℤ) : δ)
  else ((nbytes : ℤ) : δ) / (bandwidthMbps * ((1024 : ℤ) : δ) * ((1024 : ℤ) : δ))

def glrcPhase2EstBlockReadSec (helperCount blockShardCount stripeByteLen : ℕ) (linkMbps : δ) : δ :=
  if helperCount < 1 ∨ blockShardCount < 1 ∨ stripeByteLen < 1 then ((0 : ℤ) : δ)
  else nodeBlockTransferSeconds (helperCount * blockShardCount * stripeByteLen) linkMbps

def glrcPhase2EstBlockExchangeSec (failedCount blockShardCount stripeByteLen : ℕ) (linkMbps : δ) :
    δ :=
  if failedCount < 2 ∨ blockShardCount < 1 ∨ stripeByteLen < 1 then ((0 : ℤ) : δ)
  else nodeBlockTransferSeconds ((failedCount - 1) * blockShardCount * stripeByteLen) linkMbps

def glrcPhase2EstBlockNetworkSec (helperCount failedCount blockShardCount stripeByteLen : ℕ)
    (linkMbps : δ) : δ :=
  glrcPhase2EstBlockReadSec helperCount blockShardCount stripeByteLen linkMbps +
    glrcPhase2EstBlockExchangeSec failedCount blockShardCount stripeByteLen linkMbps

def hubInHelperSet (hubBlockId : ℤ) (planIlp : GlrcIlpRepairPlan) : Bool :=
  planIlp.helperBlockIds.any fun hid => (hid : ℤ) = hubBlockId

/-- `estimate_full_pipeline_time`; the hub and the plan do not enter -/
def estimateFullPipelineTime (f globalShardCount stripeByteLen blockSize : ℕ) (linkMbps : δ)
    (pipelineLocalDirectCount : ℤ) : δ :=
  if linkMbps ≤ ((0 : ℤ) : δ) ∨ globalShardCount < 1 ∨ stripeByteLen < 1 then ((0 : ℤ) : δ)
  else
    let m := pipelineLocalDirectCount
    let fHub := ((f : ℤ) - m).toNat
    let lower := globalShardCount
    if m = f then nodeBlockTransferSeconds blockSize linkMbps
    else
      let chain : δ :=
        if 0 < fHub ∧ 0 < lower then
          ((0 : ℤ) : δ) + nodeBlockTransferSeconds (fHub * lower * stripeByteLen) linkMbps
        else ((0 : ℤ) : δ)
      if 0 < m then stdMax chain (nodeBlockTransferSeconds (lower * stripeByteLen) linkMbps)
      else chain

/-- `estimate_hybrid_times`: the times of the exchange and of the pipeline -/
def estimateHybridTimes (p : ℤ) (f globalShardCount stripeByteLen blockSize : ℕ) (linkMbps : δ)
    (planIlp : GlrcIlpRepairPlan) (hubBlockId pipelineLocalDirectCount hotBlockId : ℤ) : δ × δ :=
  let zero : δ := ((0 : ℤ) : δ)
  if f < 1 ∨ stripeByteLen < 1 ∨ globalShardCount < 1 then (zero, zero)
  else if p ≤ 0 then
    (zero, estimateFullPipelineTime f globalShardCount stripeByteLen blockSize linkMbps
      pipelineLocalDirectCount)
  else if (globalShardCount : ℤ) ≤ p then (zero, zero)
  else
    let pMax := maxPartitionShardCount p.toNat f
    let h1 := max 1 planIlp.helperBlockCount
    let lower := globalShardCount - p.toNat
    let fHub := ((f : ℤ) - pipelineLocalDirectCount).toNat
    if zero < linkMbps then
      let network := glrcPhase2EstBlockNetworkSec h1 f pMax stripeByteLen linkMbps
      let tPhase2 :=
        if 0 ≤ hotBlockId ∧ 0 < lower then
          network + nodeBlockTransferSeconds (lower * stripeByteLen) linkMbps
        else network
      let helper :=
        if hubInHelperSet hubBlockId planIlp then
          zero + nodeBlockTransferSeconds (p.toNat * stripeByteLen) linkMbps
        else zero
      let tHub :=
        if 0 < fHub ∧ 0 < lower then
          helper + nodeBlockTransferSeconds (fHub * lower * stripeByteLen) linkMbps
        else helper
      (tPhase2, tHub)
    else (zero, zero)

def solveContinuousP (f globalShardCount stripeByteLen : ℕ) (linkMbps : δ)
    (planIlp : GlrcIlpRepairPlan) (hubBlockId hotBlockId pipelineLocalDirectCount : ℤ) : δ :=
  let zero : δ := ((0 : ℤ) : δ)
  let shards : δ := ((globalShardCount : ℤ) : δ)
  let half : δ := shards / ((2 : ℤ) : δ)
  if linkMbps ≤ zero ∨ f < 1 ∨ globalShardCount < 2 ∨ stripeByteLen < 1 then half
  else
    let fHub := ((f : ℤ) - pipelineLocalDirectCount).toNat
    let invB := ((stripeByteLen : ℤ) : δ) / linkMbps
    let h1 := max 1 planIlp.helperBlockCount
    let a2 := (((h1 + f - 1 : ℕ) : ℤ) : δ) * invB / ((f : ℤ) : δ)
    let hotPipeSlope := if 0 ≤ hotBlockId then invB else zero
    let hubHelperSlope := if hubInHelperSet hubBlockId planIlp then invB else zero
    let hubChainSlope := if 0 < fHub then ((fHub : ℤ) : δ) * invB else zero
    let hotSlope := a2 - hotPipeSlope
    let hubSlope := hubHelperSlope - hubChainSlope
    let hotIntercept := hotPipeSlope * shards
    let hubIntercept := hubChainSlope * shards
    let denom := hotSlope - hubSlope
    if fabs denom < tolerance then half
    else
      let pStar := (hubIntercept - hotIntercept) / denom
      stdMax zero (stdMin ((((globalShardCount : ℤ) - 1 : ℤ)) : δ) pStar)

/-! ## The search -/

/-- the best point so far: its score, the point and its two times -/
structure Best (δ : Type) where
  score : δ
  p : ℤ
  t2 : δ
  tp : δ

/-- the values of `p` in the loop of `discretize_p`: one step in `direction` at a time, while the loop
condition holds -/
def searchOrder (start hi direction : ℤ) : List ℤ :=
  (iterate (· + direction) start (hi + 2).toNat).takeWhile fun p => 0 ≤ p ∧ p ≤ hi

/-- the body of the loop of `discretize_p`; it leaves the loop when the longer side changes -/
def searchLoop (evaluate : ℤ → δ × δ) (pContinuous : δ) (start : ℤ) (dominatesAtStart : Bool) :
    Best δ → List ℤ → Best δ
  | best, [] => best
  | best, p :: rest =>
    let (t2, tp) := evaluate p
    let s := stdMax t2 tp
    let best :=
      if s < best.score ∨ (s == best.score) = true ∧
          fabs ((p : δ) - pContinuous) < fabs ((best.p : δ) - pContinuous) then
        ⟨s, p, t2, tp⟩
      else best
    let phase2Dominates : Bool := tp < t2
    if p ≠ start ∧ phase2Dominates ≠ dominatesAtStart then best
    else searchLoop evaluate pContinuous start dominatesAtStart best rest

variable (lround : δ → ℤ)

/-- `start` of `discretize_p`; the lower bound is applied last -/
def searchStart (pContinuous : δ) (globalShardCount : ℕ) : ℤ :=
  max 1 (min ((globalShardCount : ℤ) - 1) (lround pContinuous))

/-- `discretize_p`: the split point and its two times -/
def discretizeP (pContinuous : δ) (globalShardCount f blockSize stripeByteLen : ℕ) (linkMbps : δ)
    (planIlp : GlrcIlpRepairPlan) (hubBlockId pipelineLocalDirectCount : ℤ)
    (failedBlockIds : List ℕ) : ℤ × δ × δ :=
  let hi : ℤ := (globalShardCount : ℤ) - 1
  let start := searchStart lround pContinuous globalShardCount
  let evaluate := fun p : ℤ =>
    estimateHybridTimes p f globalShardCount stripeByteLen blockSize linkMbps planIlp hubBlockId
      pipelineLocalDirectCount (maxPartitionFailedBlockId p.toNat f failedBlockIds)
  let (startT2, startTp) := evaluate start
  if fabs (startT2 - startTp) < tolerance then (start, startT2, startTp)
  else
    let dominatesAtStart : Bool := startTp < startT2
    let direction : ℤ := if dominatesAtStart then -1 else 1
    let best := searchLoop evaluate pContinuous start dominatesAtStart
      ⟨((10 ^ 300 : ℤ) : δ), start, ((0 : ℤ) : δ), ((0 : ℤ) : δ)⟩ (searchOrder start hi direction)
    (best.p, best.t2, best.tp)

/-! ## The choice -/

structure GlrcHybridChooseResult (δ : Type) where
  success : Bool
  p : ℤ
  tPhase2EstSec : δ
  tPipelineEstSec : δ
  pContinuous : δ
  maxPartitionFailedBlockId : ℤ
  errorMessage : String
deriving DecidableEq

def GlrcHybridChooseResult.init : GlrcHybridChooseResult δ where
  success := false
  p := 0
  tPhase2EstSec := ((0 : ℤ) : δ)
  tPipelineEstSec := ((0 : ℤ) : δ)
  pContinuous := ((0 : ℤ) : δ)
  maxPartitionFailedBlockId := -1
  errorMessage := ""

/-- `glrc_hybrid_choose_p`; the set of local-direct blocks is not read -/
def glrcHybridChooseP (k r z f globalShardCount blockSize : ℕ) (linkMbps : δ)
    (planIlp : Option GlrcIlpRepairPlan) (hubBlockId pipelineLocalDirectCount : ℤ)
    (failedBlockIds : List ℕ) (hybridPConfig : String) : GlrcHybridChooseResult δ :=
  let out : GlrcHybridChooseResult δ := .init
  if f < 1 ∨ globalShardCount < 1 ∨ blockSize < 1 ∨ blockSize % globalShardCount ≠ 0 then
    { out with errorMessage := "invalid hybrid choose_p dimensions" }
  else
    let stripeByteLen := blockSize / globalShardCount
    let fullPipeline := estimateFullPipelineTime f globalShardCount stripeByteLen blockSize linkMbps
      pipelineLocalDirectCount
    let plan := planIlp.filter GlrcIlpRepairPlan.success
    match parseFixedP hybridPConfig globalShardCount with
    | .error message => { out with errorMessage := message }
    | .fixed p =>
      let out := { out with p := p, pContinuous := (p : δ) }
      if p = 0 then { out with tPipelineEstSec := fullPipeline, success := true }
      else
        match plan with
        | none => { out with errorMessage := "fixed p>0 requires successful ILP plan" }
        | some plan =>
          let hot := maxPartitionFailedBlockId p.toNat f failedBlockIds
          let (t2, tp) := estimateHybridTimes p f globalShardCount stripeByteLen blockSize linkMbps
            plan hubBlockId pipelineLocalDirectCount hot
          { out with
            maxPartitionFailedBlockId := hot
            tPhase2EstSec := t2
            tPipelineEstSec := tp
            success := true }
    | .auto =>
      if glrcFailuresAtMostOnePerGroup k r z failedBlockIds then
        { out with tPipelineEstSec := fullPipeline, success := true }
      else
        match plan with
        | none =>
          { out with
            errorMessage := "auto choose_p requires successful ILP plan when p may exceed 0" }
        | some plan =>
          let hotGuess := maxPartitionFailedBlockId (globalShardCount / 2) f failedBlockIds
          let pContinuous := solveContinuousP f globalShardCount stripeByteLen linkMbps plan hubBlockId
            hotGuess pipelineLocalDirectCount
          let (p, t2, tp) := discretizeP lround pContinuous globalShardCount f blockSize stripeByteLen
            linkMbps plan hubBlockId pipelineLocalDirectCount failedBlockIds
          { out with
            p := p
            tPhase2EstSec := t2
            tPipelineEstSec := tp
            pContinuous := pContinuous
            maxPartitionFailedBlockId := maxPartitionFailedBlockId p.toNat f failedBlockIds
            success := true }

/-! ## Where the split point can lie -/

theorem searchOrder_range (h : p ∈ searchOrder start hi direction) : 0 ≤ p ∧ p ≤ hi := by
  have hp := mem_takeWhile_imp h
  exact of_decide_eq_true hp

section
variable {evaluate : ℤ → δ × δ} {pContinuous : δ} {start : ℤ} {dominates : Bool}

theorem searchLoop_p (ps : List ℤ) (best : Best δ) :
    (searchLoop evaluate pContinuous start dominates best ps).p = best.p ∨
      (searchLoop evaluate pContinuous start dominates best ps).p ∈ ps := by
  induction ps generalizing best with
  | nil => exact .inl rfl
  | cons p rest ih =>
    rw [searchLoop]
    have hstep : ∀ new : Best δ, new.p = best.p ∨ new.p = p →
        (searchLoop evaluate pContinuous start dominates new rest).p = best.p ∨
          (searchLoop evaluate pContinuous start dominates new rest).p ∈ p :: rest := by
      intro new hnew
      rcases ih new with hkeep | htake
      · rw [hkeep, mem_cons]
        exact hnew.imp_right .inl
      · exact .inr (mem_cons_of_mem p htake)
    simp only
    split_ifs with hbreak htaken htaken
    · exact .inr mem_cons_self
    · exact .inl rfl
    · exact hstep _ (.inr rfl)
    · exact hstep _ (.inl rfl)

end

variable {lround} {k r z f S blockSize stripeByteLen : ℕ} {linkMbps pContinuous : δ}
  {plan : GlrcIlpRepairPlan} {planIlp : Option GlrcIlpRepairPlan} {hub localDirect : ℤ}
  {failed : List ℕ} {config : String}

theorem searchStart_range (hS : 2 ≤ S) :
    0 ≤ searchStart lround pContinuous S ∧ searchStart lround pContinuous S ≤ (S : ℤ) - 1 := by
  unfold searchStart
  omega

theorem searchStart_one : searchStart lround pContinuous 1 = 1 := by
  unfold searchStart
  omega

theorem searchOrder_nil (h : hi < start) : searchOrder start hi direction = [] := by
  unfold searchOrder
  cases (hi + 2).toNat with
  | zero => rfl
  | succ n =>
    apply takeWhile_cons_of_neg
    rw [decide_eq_true_eq]
    omega

theorem discretizeP_p (h : (discretizeP lround pContinuous S f blockSize stripeByteLen linkMbps
      plan hub localDirect failed).1 = p) : ∃ direction, p = searchStart lround pContinuous S ∨
      p ∈ searchOrder (searchStart lround pContinuous S) ((S : ℤ) - 1) direction := by
  subst h
  unfold discretizeP
  simp only
  split
  · exact ⟨0, .inl rfl⟩
  · exact ⟨_, searchLoop_p _ _⟩

theorem discretizeP_range (hS : 2 ≤ S) (h : (discretizeP lround pContinuous S f blockSize
      stripeByteLen linkMbps plan hub localDirect failed).1 = p) : 0 ≤ p ∧ p ≤ (S : ℤ) - 1 := by
  obtain ⟨direction, hstart | hpath⟩ := discretizeP_p h
  · rw [hstart]
    exact searchStart_range hS
  · exact searchOrder_range hpath

theorem discretizeP_one (h : (discretizeP lround pContinuous 1 f blockSize stripeByteLen
      linkMbps plan hub localDirect failed).1 = p) : p = 1 := by
  obtain ⟨direction, hstart | hpath⟩ := discretizeP_p h
  · rw [hstart, searchStart_one]
  · rw [searchOrder_nil (by rw [searchStart_one]; decide)] at hpath
    cases hpath

/-- where a split point comes from: the configuration, the rule for single failures, or the search -/
inductive ChosenBy (k r z S : ℕ) (failed : List ℕ) (config : String) (searched : ℤ → Prop) (p : ℤ) :
    Prop where
  | fixed (hcfg : config ≠ "auto" ∧ config ≠ "AUTO") (hp : 0 ≤ p ∧ p < S)
  | single (hone : glrcFailuresAtMostOnePerGroup k r z failed = true) (hp : p = 0)
  | search (hcfg : config = "auto" ∨ config = "AUTO")
      (hmany : glrcFailuresAtMostOnePerGroup k r z failed = false) (hp : searched p)

theorem glrcHybridChooseP_chosenBy
    (h : (glrcHybridChooseP lround k r z f S blockSize linkMbps planIlp hub localDirect failed
      config).success = true) : 0 < S ∧ ChosenBy k r z S failed config
      (fun p => ∃ plan pContinuous, (discretizeP lround pContinuous S f blockSize (blockSize / S)
        linkMbps plan hub localDirect failed).1 = p)
      (glrcHybridChooseP lround k r z f S blockSize linkMbps planIlp hub localDirect failed
        config).p := by
  unfold glrcHybridChooseP at h ⊢
  simp only at h ⊢
  split at h
  · cases h
  · next hdims =>
    rw [if_neg hdims]
    refine ⟨by omega, ?_⟩
    cases hparse : parseFixedP config S with
    | error message =>
      rw [hparse] at h
      cases h
    | fixed p =>
      obtain ⟨hcfg, hp⟩ := parseFixedP_fixed hparse
      apply ChosenBy.fixed hcfg
      simp only
      -- the point is the configured one whether or not a plan is needed
      split
      · exact hp
      · split <;> exact hp
    | auto =>
      rw [hparse] at h
      simp only at h ⊢
      split
      · next hone => exact .single hone rfl
      · next hmany =>
        rw [if_neg hmany] at h
        cases hplan : planIlp.filter GlrcIlpRepairPlan.success with
        | none =>
          rw [hplan] at h
          cases h
        | some plan =>
          exact .search (parseFixedP_auto hparse) (Bool.eq_false_iff.mpr hmany) ⟨plan, _, rfl⟩

/-- **Main result.** A split point is inside the stripe except when a single shard is split
automatically with two failures in one group: then the search starts at 1 and stays there. -/
theorem chooseP_in_range_iff
    (h : (glrcHybridChooseP lround k r z f S blockSize linkMbps planIlp hub localDirect failed
      config).success = true) :
    (0 ≤ (glrcHybridChooseP lround k r z f S blockSize linkMbps planIlp hub localDirect failed
        config).p ∧
      (glrcHybridChooseP lround k r z f S blockSize linkMbps planIlp hub localDirect failed
        config).p ≤ (S : ℤ) - 1) ↔
    (2 ≤ S ∨ (config ≠ "auto" ∧ config ≠ "AUTO") ∨
      glrcFailuresAtMostOnePerGroup k r z failed = true) := by
  obtain ⟨hS, hchosen⟩ := glrcHybridChooseP_chosenBy h
  generalize (glrcHybridChooseP lround k r z f S blockSize linkMbps planIlp hub localDirect failed
    config).p = p at hchosen ⊢
  cases hchosen with
  | fixed hcfg hp => exact iff_of_true (by omega) (.inr (.inl hcfg))
  | single hone hp => exact iff_of_true (by omega) (.inr (.inr hone))
  | search hcfg hmany hp =>
    obtain ⟨plan, pContinuous, hp⟩ := hp
    by_cases htwo : 2 ≤ S
    · exact iff_of_true (discretizeP_range htwo hp) (.inl htwo)
    · obtain rfl : S = 1 := by omega
      rw [discretizeP_one hp]
      apply iff_of_false
      · decide
      · rintro (htwo | hother | hone)
        · exact absurd htwo (by decide)
        · exact hcfg.elim hother.1 hother.2
        · rw [hmany] at hone
          cases hone

end

/-- two data blocks of one group are lost, the other blocks of it and a global parity help -/
def hybridPlan : GlrcIlpRepairPlan where
  success := true
  failedBlockIds := [0, 1]
  selectedEquationIndices := [0, 2]
  helperBlockIds := [2, 3, 4, 6]
  helperBlockCount := 4

theorem chooseP_in_range_two_shards :
    0 ≤ (glrcHybridChooseP lroundRat 4 2 2 2 2 4 (1 : ℚ) (some hybridPlan) 6 0 [0, 1] "auto").p ∧
      (glrcHybridChooseP lroundRat 4 2 2 2 2 4 (1 : ℚ) (some hybridPlan) 6 0 [0, 1] "auto").p ≤
        ((2 : ℕ) : ℤ) - 1 :=
  (chooseP_in_range_iff (by decide +kernel)).mpr (.inl (by decide))

/-- a block of one shard: the whole of it goes to the exchange and nothing to the pipeline -/
theorem chooseP_single_shard :
    (glrcHybridChooseP lroundRat 4 2 2 2 1 4 (1 : ℚ) (some hybridPlan) 6 0 [0, 1] "auto").success =
        true ∧
      (glrcHybridChooseP lroundRat 4 2 2 2 1 4 (1 : ℚ) (some hybridPlan) 6 0 [0, 1] "auto").p = 1 := by
  decide +kernel

end Mlrc
