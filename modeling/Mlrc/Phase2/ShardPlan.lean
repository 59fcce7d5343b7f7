import Mlrc.Data.Loop
import Mlrc.Data.Flat

/-!
# The shard plan of Phase2

The active shards `0, .., p - 1` are cut into one consecutive range for each failed block; the first
`p % f` ranges are one shard longer.

* `GlrcPhase2ShardPlan.build`   the plan, or the message of the check that failed;
* `shardStart_succ`, `shardStart_all`   the ranges follow each other and end at `p`;
* `build_ok`   what a plan that is built holds.
-/

namespace Mlrc

structure GlrcShardSlice where
  shardId : ℕ
  byteOff : ℕ
  byteLen : ℕ
deriving DecidableEq, Repr

structure GlrcPartitionShardPlan where
  partitionId : ℕ
  failedBlockId : ℕ
  clusterId : ℕ
  proxyIp : String
  proxyPort : ℕ
  shardBegin : ℕ
  shardCount : ℕ
  byteOff : ℕ
  byteLen : ℕ
  shards : List GlrcShardSlice
deriving DecidableEq, Repr

structure GlrcPhase2ShardPlan where
  shardCount : ℕ
  blockSize : ℕ
  stripeByteLen : ℕ
  partitions : List GlrcPartitionShardPlan
deriving DecidableEq, Repr

/-- the number of shards of partition `i` -/
def partitionShardCount (active f i : ℕ) : ℕ := active / f + if i < active % f then 1 else 0

/-- partition `i`, from the cursor of the loop -/
def partitionPlan (failedBlockIds failedClusterIds : List ℕ) (failedProxyIps : List String)
    (failedProxyPorts : List ℕ) (stripeByteLen shardCursor cnt i : ℕ) : GlrcPartitionShardPlan where
  partitionId := i
  failedBlockId := failedBlockIds.getD i 0
  clusterId := failedClusterIds.getD i 0
  proxyIp := failedProxyIps.getD i ""
  proxyPort := failedProxyPorts.getD i 0
  shardBegin := shardCursor
  shardCount := cnt
  byteOff := shardCursor * stripeByteLen
  byteLen := cnt * stripeByteLen
  shards := (List.range cnt).map fun s =>
    { shardId := shardCursor + s, byteOff := (shardCursor + s) * stripeByteLen
      byteLen := stripeByteLen }

def GlrcPhase2ShardPlan.build (activeShardCount blockSize : ℕ) (failedBlockIds failedClusterIds : List ℕ)
    (failedProxyIps : List String) (failedProxyPorts : List ℕ) (globalShardCount : ℕ) :
    Except String GlrcPhase2ShardPlan :=
  let f := failedBlockIds.length
  let globalS := if 0 < globalShardCount then globalShardCount else activeShardCount
  if f < 1 then .error "empty failure set"
  else if activeShardCount < 1 ∨ globalS < 1 ∨ blockSize < 1 then
    .error "invalid shard_count or block_size"
  else if blockSize % globalS ≠ 0 then .error "BlockSize must be divisible by global shard count"
  else if activeShardCount = 0 then .error "active_shard_count is zero"
  else if failedClusterIds.length ≠ f ∨ failedProxyIps.length ≠ f ∨ failedProxyPorts.length ≠ f then
    .error "partition metadata size mismatch"
  else
    let stripeByteLen := blockSize / globalS
    .ok {
      shardCount := activeShardCount
      blockSize
      stripeByteLen
      partitions := ((List.range f).foldl (fun (s : ℕ × List GlrcPartitionShardPlan) i =>
        let cnt := partitionShardCount activeShardCount f i
        (s.1 + cnt, s.2 ++ [partitionPlan failedBlockIds failedClusterIds failedProxyIps
          failedProxyPorts stripeByteLen s.1 cnt i])) (0, [])).2 }

/-! ## The ranges -/

/-- the first shard of partition `i` -/
def shardStart (active f i : ℕ) : ℕ := i * (active / f) + min i (active % f)

section
variable {active f : ℕ}

theorem shardStart_succ (active f i : ℕ) :
    shardStart active f (i + 1) = shardStart active f i + partitionShardCount active f i := by
  unfold shardStart partitionShardCount
  rw [Nat.succ_mul]
  split <;> omega

theorem shardStart_mono (active f : ℕ) {i j : ℕ} (h : i ≤ j) :
    shardStart active f i ≤ shardStart active f j :=
  monotone_nat_of_le_succ (f := shardStart active f)
    (fun i => by rw [shardStart_succ]; exact Nat.le_add_right _ _) h

theorem shardStart_all (hf : 0 < f) : shardStart active f f = active := by
  have hmod := Nat.mod_lt active hf
  have hdiv := Nat.div_add_mod active f
  unfold shardStart
  rw [min_eq_right (le_of_lt hmod)]
  exact hdiv

theorem shardStart_add_le {i : ℕ} (hi : i < f) :
    shardStart active f i + partitionShardCount active f i ≤ active := by
  have hmono := shardStart_mono active f (show i + 1 ≤ f from hi)
  rwa [shardStart_succ, shardStart_all (Nat.zero_lt_of_lt hi)] at hmono

theorem forall_partitionShardCount_pos (hf : 0 < f) :
    (∀ i < f, partitionShardCount active f i ≠ 0) ↔ f ≤ active := by
  have hmod := Nat.mod_lt active hf
  constructor
  · intro h
    have hlast := h (f - 1) (by omega)
    unfold partitionShardCount at hlast
    rw [if_neg (by omega), Nat.add_zero] at hlast
    exact (Nat.div_pos_iff.mp (Nat.pos_of_ne_zero hlast)).2
  · intro h i _ h0
    have hpos := Nat.div_pos h hf
    unfold partitionShardCount at h0
    omega

end

/-! ## The plan -/

theorem partitions_loop (ids clusters : List ℕ) (ips : List String) (ports : List ℕ)
    (active len f m : ℕ) : (List.range m).foldl (fun (s : ℕ × List GlrcPartitionShardPlan) i =>
      let cnt := partitionShardCount active f i
      (s.1 + cnt, s.2 ++ [partitionPlan ids clusters ips ports len s.1 cnt i])) (0, []) =
    (shardStart active f m, (List.range m).map fun i => partitionPlan ids clusters ips ports len
      (shardStart active f i) (partitionShardCount active f i) i) := by
  induction m with
  | zero => simp [shardStart]
  | succ m ih => rw [foldl_range_succ, ih, List.range_succ, List.map_append, shardStart_succ]; rfl

structure ShardPlanOf (active blockSize globalS : ℕ) (failed clusters : List ℕ) (ips : List String)
    (ports : List ℕ) (plan : GlrcPhase2ShardPlan) : Prop where
  failed_pos : 0 < failed.length
  active_pos : 0 < active
  size_pos : 0 < blockSize
  dvd : globalS ∣ blockSize
  shardCount : plan.shardCount = active
  stripeByteLen : plan.stripeByteLen = blockSize / globalS
  partitions : plan.partitions = (List.range failed.length).map fun i =>
    partitionPlan failed clusters ips ports plan.stripeByteLen (shardStart active failed.length i)
      (partitionShardCount active failed.length i) i

theorem build_ok {active blockSize globalS : ℕ} {failed clusters : List ℕ} {ips : List String}
    {ports : List ℕ} {plan : GlrcPhase2ShardPlan} (hS : 0 < globalS)
    (h : GlrcPhase2ShardPlan.build active blockSize failed clusters ips ports globalS = .ok plan) :
    ShardPlanOf active blockSize globalS failed clusters ips ports plan := by
  unfold GlrcPhase2ShardPlan.build at h
  simp only [hS, if_true] at h
  split at h
  · cases h
  · split at h
    · cases h
    · split at h
      · cases h
      · split at h
        · cases h
        · split at h
          · cases h
          · next hf hdims hmod _ _ =>
            rw [partitions_loop] at h
            cases h
            exact {
              failed_pos := by omega
              active_pos := by omega
              size_pos := by omega
              dvd := Nat.dvd_of_mod_eq_zero (not_not.mp hmod)
              shardCount := rfl
              stripeByteLen := rfl
              partitions := rfl }

end Mlrc
