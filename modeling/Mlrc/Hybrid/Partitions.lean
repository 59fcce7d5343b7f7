import Mlrc.Phase2.ShardPlan

/-!
# How the shards are distributed

The shard plan cuts the active shards with a cursor.  The hybrid planner needs only the largest
partition and computes it, and the failed block that owns one, by closed forms.

* `maxPartitionShardCount`, `maxPartitionFailedBlockId`   the closed forms;
* `build_isOk`   when a plan is built;
* `ShardsDistributed`   a balanced cut of the active shards into consecutive ranges;
* `shards_distributed`   the plan is one, and the closed forms name its largest part.
-/

namespace Mlrc

open List

def maxPartitionShardCount (p f : ℕ) : ℕ :=
  if f < 1 ∨ p < 1 then 0
  else
    let base := p / f
    let rem := p % f
    base + if 0 < rem then 1 else 0

/-- `max_partition_failed_block_id`; `-1` when there is no partition -/
def maxPartitionFailedBlockId (p f : ℕ) (failedBlockIds : List ℕ) : ℤ :=
  if failedBlockIds = [] ∨ p < 1 then -1
  else if f ≤ 1 then failedBlockIds.getD 0 0
  else
    let rem := p % f
    if rem = 0 then failedBlockIds.getD 0 0
    else failedBlockIds.getD (min (rem - 1) (failedBlockIds.length - 1)) 0

section
variable {active f i j : ℕ}

theorem maxPartitionShardCount_eq (hf : 0 < f) (hp : 0 < active) :
    maxPartitionShardCount active f = active / f + if 0 < active % f then 1 else 0 :=
  if_neg (by omega)

theorem partitionShardCount_le (active f : ℕ) (hij : i ≤ j) :
    partitionShardCount active f j ≤ partitionShardCount active f i ∧
      partitionShardCount active f i ≤ partitionShardCount active f j + 1 := by
  unfold partitionShardCount
  split_ifs <;> omega

theorem partitionShardCount_le_max (hp : 0 < active) (hi : i < f) :
    partitionShardCount active f i ≤ maxPartitionShardCount active f := by
  rw [maxPartitionShardCount_eq (by omega) hp]
  unfold partitionShardCount
  split_ifs <;> omega

theorem maxPartition_owner {failed : List ℕ} (hf : 0 < failed.length) (hp : 0 < active) :
    ∃ i < failed.length, maxPartitionFailedBlockId active failed.length failed = failed.getD i 0 ∧
      partitionShardCount active failed.length i = maxPartitionShardCount active failed.length := by
  have hne : ¬(failed = [] ∨ active < 1) := by
    rw [not_or, ← length_eq_zero_iff]
    omega
  have hmod := Nat.mod_lt active hf
  unfold maxPartitionFailedBlockId
  rw [if_neg hne, maxPartitionShardCount_eq hf hp]
  unfold partitionShardCount
  by_cases hrem : active % failed.length = 0
  · refine ⟨0, hf, ?_, by rw [hrem]⟩
    split
    · rfl
    · exact if_pos hrem
  · -- with a remainder there are at least two partitions
    have htwo : ¬failed.length ≤ 1 := by
      intro hle
      rw [show failed.length = 1 by omega, Nat.mod_one] at hrem
      exact hrem rfl
    refine ⟨active % failed.length - 1, by omega, ?_, ?_⟩
    · rw [if_neg htwo]
      simp only [if_neg hrem]
      rw [min_eq_left (by omega)]
    · rw [if_pos (by omega), if_pos (by omega)]

end

/-! ## The plan -/

theorem build_isOk {active blockSize globalS : ℕ} {failed clusters : List ℕ} {ips : List String}
    {ports : List ℕ} (hf : 0 < failed.length) (hclusters : clusters.length = failed.length)
    (hips : ips.length = failed.length) (hports : ports.length = failed.length)
    (hsize : 0 < blockSize) (hdvd : globalS ∣ blockSize) (hp : 0 < active) (hS : 0 < globalS) :
    ∃ plan, GlrcPhase2ShardPlan.build active blockSize failed clusters ips ports globalS =
      .ok plan := by
  have hmod : blockSize % globalS = 0 := Nat.mod_eq_zero_of_dvd hdvd
  unfold GlrcPhase2ShardPlan.build
  simp only [hS, if_true]
  rw [if_neg (by omega), if_neg (by omega), if_neg (by omega), if_neg (by omega), if_neg (by omega)]
  exact ⟨_, rfl⟩

/-- the partitions are consecutive ranges of the active shards, in sizes that differ by at most one
with the larger ones first; `len` is the length of a shard -/
structure ShardsDistributed (active len : ℕ) (failed : List ℕ) (plan : GlrcPhase2ShardPlan) :
    Prop where
  owners : plan.partitions.map (·.failedBlockId) = failed
  cover : plan.partitions.flatMap (fun q => range' q.shardBegin q.shardCount) = range active
  balanced : ∀ q ∈ plan.partitions, ∀ q' ∈ plan.partitions, q.shardCount ≤ q'.shardCount + 1
  larger_first : plan.partitions.Pairwise fun q q' => q'.shardCount ≤ q.shardCount
  bytes : ∀ q ∈ plan.partitions, q.byteOff = q.shardBegin * len ∧ q.byteLen = q.shardCount * len
  tile : plan.partitions.flatMap (fun q => range' q.byteOff q.byteLen) = range (active * len)
  slices : ∀ q ∈ plan.partitions, q.shards.map (·.shardId) = range' q.shardBegin q.shardCount ∧
    ∀ s ∈ q.shards, s.byteOff = s.shardId * len ∧ s.byteLen = len

theorem ShardPlanOf.distributed {active blockSize globalS : ℕ} {failed clusters : List ℕ}
    {ips : List String} {ports : List ℕ} {plan : GlrcPhase2ShardPlan}
    (h : ShardPlanOf active blockSize globalS failed clusters ips ports plan) :
    ShardsDistributed active plan.stripeByteLen failed plan := by
  have hall : shardStart active failed.length failed.length = active := shardStart_all h.failed_pos
  have hzero : shardStart active failed.length 0 = 0 := by
    unfold shardStart
    rw [Nat.zero_mul, Nat.zero_min]
  have hmem : ∀ q ∈ plan.partitions, ∃ i < failed.length, q = partitionPlan failed clusters ips ports
      plan.stripeByteLen (shardStart active failed.length i)
      (partitionShardCount active failed.length i) i := by
    intro q hq
    rw [h.partitions, mem_map] at hq
    obtain ⟨i, hi, rfl⟩ := hq
    exact ⟨i, mem_range.mp hi, rfl⟩
  refine ⟨?_, ?_, ?_, ?_, ?_, ?_, ?_⟩
  · rw [h.partitions, map_map]
    apply ext_getElem
    · rw [length_map, length_range]
    · intro i _ hi
      rw [getElem_map, getElem_range]
      exact getD_eq_getElem _ _ hi
  · rw [h.partitions, flatMap_map]
    refine (flatMap_range'_consecutive hzero (shardStart_succ active failed.length) _).trans ?_
    rw [hall]
  · intro q hq q' hq'
    obtain ⟨i, -, rfl⟩ := hmem q hq
    obtain ⟨j, -, rfl⟩ := hmem q' hq'
    show partitionShardCount active failed.length i ≤ partitionShardCount active failed.length j + 1
    rcases le_total i j with hij | hij
    · exact (partitionShardCount_le active failed.length hij).2
    · exact Nat.le_succ_of_le (partitionShardCount_le active failed.length hij).1
  · rw [h.partitions, pairwise_map]
    exact pairwise_lt_range.imp fun hij =>
      (partitionShardCount_le active failed.length (le_of_lt hij)).1
  · intro q hq
    obtain ⟨i, -, rfl⟩ := hmem q hq
    exact ⟨rfl, rfl⟩
  · rw [h.partitions, flatMap_map]
    have hstep : ∀ i, shardStart active failed.length (i + 1) * plan.stripeByteLen =
        shardStart active failed.length i * plan.stripeByteLen +
          partitionShardCount active failed.length i * plan.stripeByteLen := by
      intro i
      rw [shardStart_succ, Nat.add_mul]
    have hbase : shardStart active failed.length 0 * plan.stripeByteLen = 0 := by
      rw [hzero, Nat.zero_mul]
    have htile : (range failed.length).flatMap (fun i =>
        range' (shardStart active failed.length i * plan.stripeByteLen)
          (partitionShardCount active failed.length i * plan.stripeByteLen)) =
        range (shardStart active failed.length failed.length * plan.stripeByteLen) :=
      flatMap_range'_consecutive hbase hstep failed.length
    rw [hall] at htile
    exact htile
  · intro q hq
    obtain ⟨i, -, rfl⟩ := hmem q hq
    refine ⟨?_, fun s hs => ?_⟩
    · show map _ (map _ _) = range' _ _
      rw [map_map, range'_eq_map_range]
      rfl
    · obtain ⟨t, -, rfl⟩ := mem_map.mp hs
      exact ⟨rfl, rfl⟩

/-- **Main result.** The plan of `p` active shards is a balanced cut, and the closed forms of the
hybrid planner give its largest partition and a failed block that owns one of that size. -/
theorem shards_distributed (active blockSize S : ℕ) (failed clusters : List ℕ) (ips : List String)
    (ports : List ℕ) (hf : 1 ≤ failed.length) (hclusters : clusters.length = failed.length)
    (hips : ips.length = failed.length) (hports : ports.length = failed.length)
    (hsize : 0 < blockSize) (hdvd : S ∣ blockSize) (hp : 1 ≤ active) (hpS : active ≤ S) :
    ∃ plan, GlrcPhase2ShardPlan.build active blockSize failed clusters ips ports S = .ok plan ∧
      plan.stripeByteLen = blockSize / S ∧ ShardsDistributed active (blockSize / S) failed plan ∧
      (∀ q ∈ plan.partitions, q.shardCount ≤ maxPartitionShardCount active failed.length) ∧
      ∃ q ∈ plan.partitions, q.shardCount = maxPartitionShardCount active failed.length ∧
        maxPartitionFailedBlockId active failed.length failed = q.failedBlockId := by
  have hS : 0 < S := by omega
  obtain ⟨plan, hplan⟩ := build_isOk hf hclusters hips hports hsize hdvd hp hS
  have hof := build_ok hS hplan
  have hdist := hof.distributed
  rw [hof.stripeByteLen] at hdist
  refine ⟨plan, hplan, hof.stripeByteLen, hdist, ?_, ?_⟩
  · intro q hq
    rw [hof.partitions, mem_map] at hq
    obtain ⟨i, hi, rfl⟩ := hq
    exact partitionShardCount_le_max hp (mem_range.mp hi)
  · obtain ⟨i, hi, howner, hcount⟩ := maxPartition_owner hf hp
    refine ⟨partitionPlan failed clusters ips ports plan.stripeByteLen
      (shardStart active failed.length i) (partitionShardCount active failed.length i) i, ?_, hcount,
      howner⟩
    rw [hof.partitions]
    exact mem_map.mpr ⟨i, mem_range.mpr hi, rfl⟩

/-- two shards for three failed blocks: the third gets none -/
theorem shards_distributed_two_of_three :
    ∃ plan, GlrcPhase2ShardPlan.build 2 8 [3, 1, 6] [0, 1, 2] ["a", "b", "c"] [1, 2, 3] 4 = .ok plan ∧
      plan.stripeByteLen = 2 ∧ ShardsDistributed 2 2 [3, 1, 6] plan ∧
      (∀ q ∈ plan.partitions, q.shardCount ≤ 1) ∧
      ∃ q ∈ plan.partitions, q.shardCount = 1 ∧ (1 : ℤ) = q.failedBlockId :=
  shards_distributed 2 8 4 [3, 1, 6] [0, 1, 2] ["a", "b", "c"] [1, 2, 3] (by decide) rfl rfl rfl
    (by decide) (by decide) (by decide) (by decide)

end Mlrc
