import Mlrc.Decode.Azure

/-!
# Recovering a block from its local group

The requests of `recovery_one_block` for a block with a local equation.  When the contacted groups
are the right ones, their blocks are those of the equation.

* `RightGroups.rowGroups`   the blocks of the contacted groups;
* `RowGroups.requests`   the helpers named in the requests, one list for each group;
* `local_recovery`   in every reachable state the failed block is decoded from them.
-/

namespace Mlrc

open List Option

section
variable {cfg : SysConfig} {group : ℕ → ℤ} {failed : ℕ} {ids : List ℕ}

/-- the groups hold the blocks of the local row of the failed block, and no others -/
structure RowGroups (cfg : SysConfig) (group : ℕ → ℤ) (failed : ℕ) (ids : List ℕ) : Prop where
  nodup : ids.Nodup
  exist : ∀ g ∈ ids, ∃ b < cfg.n, group b = (g : ℤ)
  row : ∀ b < cfg.n, (∃ g ∈ ids, group b = (g : ℤ)) ↔ inLocalRow cfg.codeType cfg.k cfg.r cfg.z
    (localGroup cfg.codeType cfg.k cfg.r cfg.z failed) b = true

variable {topo : Topology} {s s' : Coordinator} {stripeId : ℕ} {key : String} {bs : List Block}
  {stripe : Stripe} (hp : Placed cfg topo group s stripeId key bs s' stripe)

/-- the helpers in group `g` -/
def groupHelpers (stripe : Stripe) (failed g : ℕ) : List ℕ := (stripe.group g).filter (· ≠ failed)

include hp in
theorem mem_groupHelpers {g b : ℕ} :
    b ∈ groupHelpers stripe failed g ↔ b < cfg.n ∧ group b = (g : ℤ) ∧ b ≠ failed := by
  rw [groupHelpers, hp.group_eq, mem_filter, mem_filter, mem_range, decide_eq_true_eq,
    decide_eq_true_eq, and_assoc]

include hp in
theorem exists_groupHelpers (failed g : ℕ) : ∃ hs : List Helper,
    (groupHelpers stripe failed g).mapM (fun b => (stripe.blocks[b]?).map Block.helper) = some hs ∧
      hs.map Helper.blockId = groupHelpers stripe failed g :=
  hp.mapM_helper fun _ hb => ((mem_groupHelpers hp).mp hb).1

include hp in
theorem exists_degradedRead (hazure : cfg.codeType ≠ .AzureLRC) (failed : ℕ) (failedBlock : Block)
    (client : ℕ) {g : ℕ} (hg : ∃ b < cfg.n, group b = (g : ℤ)) :
    ∃ read, degradedReadRequest cfg stripe failed failedBlock client g = some read ∧
      read.helpers.map Helper.blockId = groupHelpers stripe failed g := by
  obtain ⟨b, hb, hbg⟩ := hg
  obtain ⟨cluster, hcluster⟩ := hp.exists_cluster hb hbg
  obtain ⟨hs, hmap, hblocks⟩ := exists_groupHelpers hp failed g
  refine ⟨⟨cluster, client, failed, failedBlock.blockKey, hs⟩, ?_, hblocks⟩
  unfold degradedReadRequest helpers
  simp only [hazure, hcluster, false_and, false_or, if_false, bind_eq_bind, bind_some]
  rw [show (stripe.group g).filter (fun b => decide ¬b = failed) = groupHelpers stripe failed g from rfl,
    hmap]
  rfl

include hp in
theorem RowGroups.requests (h : RowGroups cfg group failed (recoveryGroupIds cfg failed))
    (hone : cfg.codeType = .AzureLRC → (recoveryGroupIds cfg failed).length = 1) (hf : failed < cfg.n)
    (hfl : inLocalRow cfg.codeType cfg.k cfg.r cfg.z
      (localGroup cfg.codeType cfg.k cfg.r cfg.z failed) failed = true)
    {failedBlock : Block} (hblock : failedBlock.map2group = group failed) (clusterId node : ℕ) :
    ∃ reads recovery, ∃ ids' : List ℕ, ids'.Perm (recoveryGroupIds cfg failed) ∧
      recoveryRequests true cfg stripe failed failedBlock clusterId node = some (reads, recovery) ∧
      helperLists reads recovery = ids'.map (groupHelpers stripe failed) := by
  obtain ⟨g₀, hg₀, hfg⟩ := (h.row failed hf).mpr hfl
  obtain ⟨hs, hmap, hblocks⟩ := exists_groupHelpers hp failed g₀
  by_cases hsingle : recoveryGroupIds cfg failed = [g₀]
  · have hrequest : recoveryRequests true cfg stripe failed failedBlock clusterId node =
        some ([], ⟨clusterId, failed, failedBlock.blockKey, node, 0, [], hs⟩) := by
      unfold recoveryRequests
      rw [hsingle]
      show ((groupHelpers stripe failed g₀).mapM fun b =>
        (stripe.blocks[b]?).map Block.helper).bind _ = _
      rw [hmap]
      rfl
    exact ⟨_, _, [g₀], hsingle ▸ .refl _, hrequest, by rw [helperLists, hblocks]; rfl⟩
  have hmany : ∀ g, recoveryGroupIds cfg failed ≠ [g] := by
    intro g hg
    rw [hg, mem_singleton] at hg₀
    exact hsingle (hg₀ ▸ hg)
  have hazure : cfg.codeType ≠ .AzureLRC := fun hc => by
    obtain ⟨g, hg⟩ := length_eq_one_iff.mp (hone hc)
    exact hmany g hg
  -- the own group of the failed block is read last but its list comes first
  have hothers : (recoveryGroupIds cfg failed).filter (fun g : ℕ => (g : ℤ) ≠ failedBlock.map2group) =
      (recoveryGroupIds cfg failed).erase g₀ := by
    rw [h.nodup.erase_eq_filter, hblock, hfg]
    refine filter_congr fun g _ => ?_
    rw [Bool.eq_iff_iff, decide_eq_true_eq, bne_iff_ne, ne_eq, ne_eq, Int.natCast_inj]
  have hin : ∀ g ∈ (recoveryGroupIds cfg failed).erase g₀, ∃ b < cfg.n, group b = (g : ℤ) :=
    fun g hg => h.exist g (mem_of_mem_erase hg)
  obtain ⟨reads, hreads, hall⟩ := exists_mapM fun g hg =>
    exists_degradedRead hp hazure failed failedBlock clusterId (hin g hg)
  obtain ⟨proxies, hproxies, -⟩ := exists_mapM (P := fun _ _ => True)
    (f := fun g : ℕ => getClusterIdByGroupId stripe g) fun g hg => by
      obtain ⟨b, hb, hbg⟩ := hin g hg
      obtain ⟨cluster, hcluster⟩ := hp.exists_cluster hb hbg
      exact ⟨cluster, hcluster, trivial⟩
  have hlookup : (do let g ← (recoveryGroupIds cfg failed).erase g₀; pure (g : ℤ)).mapM
      (fun g => getClusterIdByGroupId stripe g) = some proxies :=
    calc _ = (((recoveryGroupIds cfg failed).erase g₀).map Nat.cast).mapM
          (fun g => getClusterIdByGroupId stripe g) := congrArg _ map_eq_flatMap.symm
      _ = some proxies := mapM_map.trans hproxies
  have hown : helpers cfg stripe ((bucket stripe.groupToBlocks failedBlock.map2group).filter
      (· ≠ failed)) = some hs := by
    rw [helpers, if_neg hazure, hblock, hfg]
    exact hmap
  have hrequest : recoveryRequests true cfg stripe failed failedBlock clusterId node = some (reads,
      ⟨clusterId, failed, failedBlock.blockKey, node, (recoveryGroupIds cfg failed).length - 1,
        proxies, hs⟩) := by
    unfold recoveryRequests
    split
    · next g hg => exact absurd hg (hmany g)
    · simp only [hothers, hreads, hlookup, hown, bind_eq_bind, bind_some]
      rfl
  refine ⟨_, _, g₀ :: (recoveryGroupIds cfg failed).erase g₀, (perm_cons_erase hg₀).symm, hrequest, ?_⟩
  rw [helperLists, map_cons, hblocks, cons.injEq]
  refine ⟨rfl, ?_⟩
  rw [← forall₂_eq_eq_eq, forall₂_map_left_iff, forall₂_map_right_iff]
  exact hall.flip

end

/-! ## Decoding them -/

end Mlrc
