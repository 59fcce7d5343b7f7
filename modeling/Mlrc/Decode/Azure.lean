import Mlrc.Decode.AzureOne
import Mlrc.Coordinator.GetStripe
import Mlrc.Coordinator.GroupSizes

/-!
# Recovering a global parity of AzureLRC

The requests that `recovery_one_block` sends for a global parity name the helpers, one list for each
contacted group.  Every list is decoded where it is read, and the results are added up.

* `helperLists`   the lists of one recovery;
* `azure_helperLists`   the lists for a global parity of a placed stripe;
* `RecoversBlock`   what the decoders make of them is the failed block;
* `azure_global_recovery_iff`   for which codes every global parity is recovered.
-/

namespace Mlrc

open Finset List Option Nat

/-- the ids that the requests of a recovery send to the decoders, the failed block's own group first -/
def helperLists (reads : List DegradedReadRequest) (recovery : RecoveryRequest) : List (List ℕ) :=
  recovery.helpers.map Helper.blockId :: reads.map fun read => read.helpers.map Helper.blockId

/-- the requests of a recovery are sent, and what the decoders make of their lists is the failed block,
whatever the build is and they find in unset memory -/
def RecoversBlock (cfg : SysConfig) (stripe : Stripe) (failed : ℕ) : Prop :=
  ∀ clusterId node, ∃ failedBlock reads recovery, stripe.blocks[failed]? = some failedBlock ∧
    recoveryRequests true cfg stripe failed failedBlock clusterId node = some (reads, recovery) ∧
    ∀ call, DecodesTo cfg.codeType call cfg.k cfg.r cfg.z failed (helperLists reads recovery)

/-! ## The lists -/

/-- the lists for a global parity: with one local group all other global parities, with several `k / z`
of them and the data blocks of all local groups but the first -/
def azureLists (k r z failed : ℕ) : List (List ℕ) :=
  if z = 1 then [otherGlobals k r failed]
  else (otherGlobals k r failed).take (k / z) ::
    (range' 1 (z - 1)).map fun g => range' (g * (k / z)) (k / z)

section
variable {cfg : SysConfig} {topo : Topology} {group : ℕ → ℤ} {s s' : Coordinator} {stripeId : ℕ}
  {key : String} {bs : List Block} {stripe : Stripe} {failed : ℕ}

theorem Placed.mapM_helper (h : Placed cfg topo group s stripeId key bs s' stripe) {ids : List ℕ}
    (hids : ∀ b ∈ ids, b < cfg.n) :
    ∃ hs, ids.mapM (fun b => (stripe.blocks[b]?).map Block.helper) = some hs ∧
      hs.map Helper.blockId = ids := by
  have hread : ∀ b ∈ ids, ∃ helper, (stripe.blocks[b]?).map Block.helper = some helper ∧
      helper.blockId = b := by
    intro b hb
    obtain ⟨block, -, hget, hid⟩ := h.exists_block (hids b hb)
    exact ⟨block.helper, by rw [hget, map_some], hid⟩
  obtain ⟨hs, hmap, hall⟩ := exists_mapM hread
  refine ⟨hs, hmap, ?_⟩
  rw [← forall₂_eq_eq_eq, forall₂_map_left_iff]
  exact hall.flip

theorem Placed.exists_cluster (h : Placed cfg topo group s stripeId key bs s' stripe) {g b : ℕ}
    (hb : b < cfg.n) (hbg : group b = g) : ∃ cluster, getClusterIdByGroupId stripe g = some cluster := by
  have hmem : b ∈ stripe.group g := by
    rw [h.group_eq, mem_filter]
    exact ⟨List.mem_range.mpr hb, decide_eq_true hbg⟩
  unfold getClusterIdByGroupId
  cases hhead : (stripe.group g).head? with
  | none =>
    rw [head?_eq_none_iff] at hhead
    rw [hhead] at hmem
    cases hmem
  | some c =>
    have hc := mem_of_head? hhead
    rw [h.group_eq, List.mem_filter, List.mem_range] at hc
    obtain ⟨block, -, hget, -⟩ := h.exists_block hc.1
    refine ⟨block.map2cluster, ?_⟩
    show (stripe.group g).head?.bind _ = _
    rw [hhead, bind_some, hget, map_some]

section
variable
  (h : Placed cfg topo (fun i => unilrcAndAzurelrcGroup .AzureLRC cfg.k cfg.r cfg.z i) s stripeId key bs s'
    stripe)
  (hk : cfg.z ∣ cfg.k) (hk0 : 0 < cfg.k / cfg.z)
include h hk hk0

theorem azure_group_global : stripe.group cfg.z = range' cfg.k cfg.r := by
  have hblocks := (azurelrcShape_of hk0 cfg.z).bucket_eq
  rw [groupToBlocks, bucket_collect, ← h.group_eq] at hblocks
  rw [hblocks, azurelrcShape_last cfg.r hk]
  show range' cfg.k (cfg.k - cfg.k) ++ range' cfg.k (cfg.k + cfg.r - cfg.k) ++
    range' (cfg.k + cfg.r) (cfg.k + cfg.r - (cfg.k + cfg.r)) = _
  rw [Nat.sub_self, Nat.sub_self, Nat.add_sub_cancel_left]
  simp

theorem azure_group_data {g : ℕ} (hg : g < cfg.z) :
    stripe.group g = range' (g * (cfg.k / cfg.z)) (cfg.k / cfg.z) ++ [cfg.k + cfg.r + g] := by
  have hblocks := (azurelrcShape_of hk0 g).bucket_eq
  rw [groupToBlocks, bucket_collect, ← h.group_eq] at hblocks
  rw [hblocks, azurelrcShape_inner cfg.r hg hk]
  show range' (g * (cfg.k / cfg.z)) ((g + 1) * (cfg.k / cfg.z) - g * (cfg.k / cfg.z)) ++
    range' cfg.k (cfg.k - cfg.k) ++
    range' (cfg.k + cfg.r + g) (cfg.k + cfg.r + g + 1 - (cfg.k + cfg.r + g)) = _
  rw [Nat.sub_self, add_mul, one_mul, Nat.add_sub_cancel_left, Nat.add_sub_cancel_left]
  simp

end

theorem azure_degradedRead (hc : cfg.codeType = .AzureLRC)
    (h : Placed cfg topo (fun i => unilrcAndAzurelrcGroup .AzureLRC cfg.k cfg.r cfg.z i) s stripeId key
      bs s' stripe) (hk : cfg.z ∣ cfg.k) (hk0 : 0 < cfg.k / cfg.z) (hf : cfg.k ≤ failed)
    (failedBlock : Block) (client : ℕ) {g : ℕ} (hg : g < cfg.z) :
    ∃ read, degradedReadRequest cfg stripe failed failedBlock client g = some read ∧
      read.helpers.map Helper.blockId = range' (g * (cfg.k / cfg.z)) (cfg.k / cfg.z) := by
  have hle : g * (cfg.k / cfg.z) + cfg.k / cfg.z ≤ cfg.k := by
    calc g * (cfg.k / cfg.z) + cfg.k / cfg.z = (g + 1) * (cfg.k / cfg.z) := (Nat.succ_mul _ _).symm
      _ ≤ cfg.z * (cfg.k / cfg.z) := Nat.mul_le_mul_right _ hg
      _ = cfg.k := Nat.mul_div_cancel' hk
  have hn : cfg.n = cfg.k + cfg.r + cfg.z := rfl
  have hids : (stripe.group g).filter (fun b =>
      ¬((cfg.codeType = .AzureLRC ∧ cfg.k + cfg.r ≤ b) ∨ b = failed)) =
      range' (g * (cfg.k / cfg.z)) (cfg.k / cfg.z) := by
    rw [azure_group_data h hk hk0 hg, filter_append, filter_eq_self.mpr,
      filter_eq_nil_iff.mpr, append_nil]
    · intro b hb
      obtain rfl := List.mem_singleton.mp hb
      simp [hc]
    · intro b hb
      have hb := mem_range'_1.mp hb
      refine decide_eq_true ?_
      rintro (⟨-, hge⟩ | rfl)
      · omega
      · omega
  have hcluster : unilrcAndAzurelrcGroup .AzureLRC cfg.k cfg.r cfg.z (cfg.k + cfg.r + g) = g :=
    unilrcGroup_parity hg
  obtain ⟨cluster, hget⟩ := h.exists_cluster (b := cfg.k + cfg.r + g) (by omega)
    (congrArg Nat.cast hcluster)
  have hlt : ∀ b ∈ range' (g * (cfg.k / cfg.z)) (cfg.k / cfg.z), b < cfg.n := by
    intro b hb
    have hb := mem_range'_1.mp hb
    omega
  obtain ⟨hs, hmap, hblocks⟩ := h.mapM_helper hlt
  have hhelpers : helpers cfg stripe (range' (g * (cfg.k / cfg.z)) (cfg.k / cfg.z)) = some hs := by
    unfold helpers
    rw [if_pos hc, take_of_length_le (le_of_eq length_range'), hmap]
  unfold degradedReadRequest
  rw [hget, hids, hhelpers]
  exact ⟨_, rfl, hblocks⟩

section
variable (hc : cfg.codeType = .AzureLRC)
  (h : Placed cfg topo (fun i => unilrcAndAzurelrcGroup .AzureLRC cfg.k cfg.r cfg.z i) s stripeId key bs
    s' stripe)
  (hk : cfg.z ∣ cfg.k) (hk0 : 0 < cfg.k / cfg.z) (hf : cfg.k ≤ failed) (hfr : failed < cfg.k + cfg.r)

include hc hf hfr in
theorem azure_recoveryGroupIds : recoveryGroupIds cfg failed = range' 1 cfg.z := by
  unfold recoveryGroupIds getRecoveryGroupIds
  rw [hc]
  exact if_pos ⟨hf, hfr⟩

include h hk hk0 in
theorem azure_own : (stripe.group cfg.z).filter (· ≠ failed) = otherGlobals cfg.k cfg.r failed := by
  rw [azure_group_global h hk hk0]
  rfl

theorem otherGlobals_lt : ∀ b ∈ otherGlobals cfg.k cfg.r failed, b < cfg.n := by
  intro b hb
  have hb := mem_otherGlobals.mp hb
  show b < cfg.k + cfg.r + cfg.z
  omega

include hc h hk hk0 hf hfr in
theorem azure_requests_one (hz1 : cfg.z = 1) (failedBlock : Block) (clusterId node : ℕ) :
    ∃ reads recovery,
      recoveryRequests true cfg stripe failed failedBlock clusterId node = some (reads, recovery) ∧
      helperLists reads recovery = azureLists cfg.k cfg.r cfg.z failed := by
  have hids := azure_recoveryGroupIds hc hf hfr
  have hown : (stripe.group cfg.z).filter (· ≠ failed) = otherGlobals cfg.k cfg.r failed :=
    azure_own h hk hk0
  obtain ⟨hs, hmap, hblocks⟩ := h.mapM_helper otherGlobals_lt
  rw [hz1] at hids hown
  have hrequest : recoveryRequests true cfg stripe failed failedBlock clusterId node = some ([], {
      proxy := clusterId
      failedBlockId := failed
      failedBlockKey := failedBlock.blockKey
      replacedNode := node
      crossRackNum := 0
      proxies := []
      helpers := hs }) := by
    unfold recoveryRequests
    rw [hids]
    show (((stripe.group 1).filter (· ≠ failed)).mapM fun b =>
      (stripe.blocks[b]?).map Block.helper).bind _ = _
    rw [hown, hmap]
    rfl
  refine ⟨_, _, hrequest, ?_⟩
  unfold helperLists azureLists
  rw [if_pos hz1]
  simp only [hblocks, map_nil]

include hc h hk hk0 hf hfr in
theorem azure_requests_many (hz : 1 < cfg.z) {failedBlock : Block}
    (hgroup : failedBlock.map2group = (cfg.z : ℤ)) (clusterId node : ℕ) : ∃ reads recovery,
      recoveryRequests true cfg stripe failed failedBlock clusterId node = some (reads, recovery) ∧
      helperLists reads recovery = azureLists cfg.k cfg.r cfg.z failed := by
  have hn : cfg.n = cfg.k + cfg.r + cfg.z := rfl
  have hothers : (range' 1 cfg.z).filter (fun g : ℕ => (g : ℤ) ≠ failedBlock.map2group) =
      range' 1 (cfg.z - 1) := by
    have hsplit : range' 1 cfg.z = range' 1 (cfg.z - 1) ++ [cfg.z] := by
      rw [show cfg.z = cfg.z - 1 + 1 by omega, range'_1_concat, Nat.add_sub_cancel,
        add_comm 1]
    rw [hsplit, filter_append, filter_eq_self.mpr, filter_eq_nil_iff.mpr,
      append_nil]
    · intro g hg
      obtain rfl := List.mem_singleton.mp hg
      simp [hgroup]
    · intro g hg
      have hg := mem_range'_1.mp hg
      refine decide_eq_true ?_
      rw [hgroup]
      omega
  have hlt : ∀ g ∈ range' 1 (cfg.z - 1), g < cfg.z := by
    intro g hg
    have hg := mem_range'_1.mp hg
    omega
  obtain ⟨reads, hreads, hall⟩ := exists_mapM fun g hg =>
    azure_degradedRead hc h hk hk0 hf failedBlock clusterId (hlt g hg)
  have hcluster : ∀ g ∈ range' 1 (cfg.z - 1), ∃ cluster,
      getClusterIdByGroupId stripe g = some cluster ∧ True := by
    intro g hg
    have hgz := hlt g hg
    obtain ⟨cluster, hcluster⟩ := h.exists_cluster (b := cfg.k + cfg.r + g) (by omega)
      (congrArg Nat.cast (unilrcGroup_parity hgz))
    exact ⟨cluster, hcluster, trivial⟩
  obtain ⟨proxies, hproxies, -⟩ := exists_mapM hcluster
  have hlookup : (do let g ← range' 1 (cfg.z - 1); pure (g : ℤ)).mapM
      (fun g => getClusterIdByGroupId stripe g) = some proxies :=
    calc _ = ((range' 1 (cfg.z - 1)).map Nat.cast).mapM
          (fun g => getClusterIdByGroupId stripe g) := congrArg _ map_eq_flatMap.symm
      _ = some proxies := mapM_map.trans hproxies
  obtain ⟨hs, hmap, hblocks⟩ := h.mapM_helper
    fun b (hb : b ∈ (otherGlobals cfg.k cfg.r failed).take (cfg.k / cfg.z)) =>
      otherGlobals_lt b (mem_of_mem_take hb)
  have hhelpers : helpers cfg stripe ((bucket stripe.groupToBlocks failedBlock.map2group).filter
      (· ≠ failed)) = some hs := by
    unfold helpers
    rw [if_pos hc, hgroup]
    show (((stripe.group cfg.z).filter (· ≠ failed)).take (cfg.k / cfg.z)).mapM _ = _
    rw [azure_own h hk hk0, hmap]
  have hrequest : recoveryRequests true cfg stripe failed failedBlock clusterId node = some (reads, {
      proxy := clusterId
      failedBlockId := failed
      failedBlockKey := failedBlock.blockKey
      replacedNode := node
      crossRackNum := (range' 1 cfg.z).length - 1
      proxies := proxies
      helpers := hs }) := by
    unfold recoveryRequests
    rw [azure_recoveryGroupIds hc hf hfr]
    split
    · next g hsingle =>
      have hlen := congrArg length hsingle
      rw [length_range', length_singleton] at hlen
      omega
    · simp only [hothers, hreads, hlookup, hhelpers, bind_eq_bind, bind_some]
      rfl
  refine ⟨_, _, hrequest, ?_⟩
  unfold helperLists azureLists
  rw [if_neg (by omega)]
  simp only [hblocks, cons.injEq, true_and]
  rw [← forall₂_eq_eq_eq, forall₂_map_left_iff, forall₂_map_right_iff]
  exact hall.flip

include hc h hk hk0 hf hfr in
theorem azure_helperLists (hz : 0 < cfg.z) (clusterId node : ℕ) :
    ∃ failedBlock reads recovery, stripe.blocks[failed]? = some failedBlock ∧
      recoveryRequests true cfg stripe failed failedBlock clusterId node = some (reads, recovery) ∧
      helperLists reads recovery = azureLists cfg.k cfg.r cfg.z failed := by
  have hn : cfg.n = cfg.k + cfg.r + cfg.z := rfl
  obtain ⟨failedBlock, hin, hget, hid⟩ := h.exists_block (show failed < cfg.n by omega)
  have hgroup : failedBlock.map2group = (cfg.z : ℤ) := by
    rw [h.map2group_eq hin, hid]
    obtain ⟨l, rfl⟩ := exists_add_of_le hf
    exact congrArg Nat.cast (azurelrcGroup_global (by omega))
  by_cases hz1 : cfg.z = 1
  · obtain ⟨reads, recovery, hrequest⟩ :=
      azure_requests_one hc h hk hk0 hf hfr hz1 failedBlock clusterId node
    exact ⟨failedBlock, reads, recovery, hget, hrequest⟩
  · obtain ⟨reads, recovery, hrequest⟩ :=
      azure_requests_many hc h hk hk0 hf hfr (by omega) hgroup clusterId node
    exact ⟨failedBlock, reads, recovery, hget, hrequest⟩

end

end

/-! ## What the decoders make of them -/

section
variable {k r z failed : ℕ}

theorem flatten_ranges (s a n : ℕ) :
    ((range' a n).map fun g => range' (g * s) s).flatten = range' (a * s) (n * s) := by
  induction n generalizing a with
  | zero => rw [zero_mul]; rfl
  | succ n ih =>
    rw [range'_succ, List.map_cons, flatten_cons, ih, succ_mul, succ_mul,
      add_comm (n * s), range'_append_1]

theorem azureLists_one (h : z = 1) : (azureLists k r z failed).flatten = otherGlobals k r failed := by
  rw [azureLists, if_pos h, flatten_singleton]

theorem azureLists_many (h : 1 < z) (hk : z ∣ k) (hf : k ≤ failed) :
    (azureLists k r z failed).flatten.Perm (usedRows k r z failed) := by
  have hsize : (z - 1) * (k / z) = k - k / z := by
    rw [Nat.sub_mul, one_mul, Nat.mul_div_cancel' hk]
  rw [azureLists, if_neg (by omega), flatten_cons, flatten_ranges, one_mul, hsize,
    usedRows_eq hf]
  exact perm_append_comm

theorem RowsAddUp.perm {unset : ℕ → ℕ} {ids ids' : List ℕ} (h : ids.Perm ids') :
    RowsAddUp unset k r z failed ids ↔ RowsAddUp unset k r z failed ids' :=
  forall₂_congr fun _ _ => Eq.congr_left (h.map _).sum_eq

theorem azure_decode_iff (hf : k ≤ failed) (hfr : failed < k + r) {lists : List (List ℕ)}
    (hlt : ∀ b ∈ lists.flatten, b < k + r) {call : List ℕ → DecodeCall} {u : ℕ → ℕ}
    (hcoef : ∀ ids ∈ lists, ∀ b ∈ ids,
      azureCoef (call ids).usedRow k r z failed b = azureCoef u k r z failed b) :
    DecodesTo .AzureLRC call k r z failed lists ↔ RowsAddUp u k r z failed lists.flatten := by
  have hrow : ∀ b < k + r, ∀ j, Gf.mk (genMatrix .AzureLRC k r z b j) = rsRow k r b j := by
    intro b hb j
    show Gf.mk (genAzureLrcMatrix k r z b j) = _
    rw [genAzureLrcMatrix_payload hb]
    rfl
  have hdecode : ∀ ids ∈ lists, ∀ b ∈ ids, decodeCoef .AzureLRC (call ids) k r z failed (ids.headD 0) b =
      azureCoef u k r z failed b := by
    intro ids hids b hb
    unfold decodeCoef
    simp only
    rw [if_neg (by omega), hcoef ids hids b hb]
  have hglobal : ¬XorDecoded .AzureLRC k r failed := by
    simp only [XorDecoded, reduceCtorEq, false_or, true_and]
    omega
  unfold DecodesTo
  simp only [xorBlocks_decode hdecode, flatMap_addedIds_of_not hglobal]
  rw [combine_codeword_iff (genMatrix_systematic .AzureLRC)
    (fun b hb => Nat.lt_add_right z (hlt b hb)) (Nat.lt_add_right z hfr)]
  refine forall₂_congr fun j _ => ?_
  rw [hrow failed hfr]
  refine Eq.congr_left (congrArg sum (map_congr_left fun b hb => ?_))
  rw [hrow b (hlt b hb)]

/-- the codes for which every global parity is recovered -/
def AzureFits (k r z : ℕ) : Prop :=
  if z = 1 then
    -- all helpers have a row, or those without one cancel
    (k = 1 ∧ r % 2 = 0) ∨ (r = k + 1 ∧ (k ≤ 254 ∨ 509 ≤ k)) ∨
      (509 ≤ k ∧ k % 510 = 255 ∧ k < r ∧ r % 510 = 256)
  else k / z < r ∧ k / z ≤ 254

instance : Decidable (AzureFits k r z) := by
  unfold AzureFits
  infer_instance

theorem azureLists_lt (hk : z ∣ k) (hz : 0 < z) (hf : k ≤ failed) :
    ∀ b ∈ (azureLists k r z failed).flatten, b < k + r := by
  intro b hb
  by_cases hz1 : z = 1
  · rw [azureLists_one hz1] at hb
    have hb := mem_otherGlobals.mp hb
    omega
  · have hb := (azureLists_many (by omega) hk hf).mem_iff.mp hb
    rcases (mem_usedRows hf).mp hb with hb | hb
    · omega
    · have hb := mem_otherGlobals.mp (mem_of_mem_take hb)
      omega

theorem azureLists_decode_iff (hk0 : 0 < k) (hr : 0 < r) (hz : 0 < z) (hk : z ∣ k) :
    (∀ failed, k ≤ failed → failed < k + r → ∀ call,
      DecodesTo .AzureLRC call k r z failed (azureLists k r z failed)) ↔ AzureFits k r z := by
  unfold AzureFits
  by_cases hz1 : z = 1
  · rw [if_pos hz1, ← even_iff, ← azure_one_iff hk0 hr]
    subst hz1
    have hiff : ∀ failed, k ≤ failed → failed < k + r → ∀ call,
        DecodesTo .AzureLRC call k r 1 failed (azureLists k r 1 failed) ↔
          RowsAddUp (call (otherGlobals k r failed)).usedRow k r 1 failed (otherGlobals k r failed) := by
      intro failed hf hfr call
      rw [← azureLists_one rfl]
      refine azure_decode_iff hf hfr (azureLists_lt hk hz hf) fun ids hids b _ => ?_
      rw [azureLists, if_pos rfl, List.mem_singleton] at hids
      rw [azureLists_one rfl, hids]
    constructor
    · intro h failed hf hfr u
      exact (hiff failed hf hfr fun _ => { usedRow := u }).mp (h failed hf hfr _)
    · intro h failed hf hfr call
      exact (hiff failed hf hfr call).mpr (h failed hf hfr _)
  · have hs : k / z < k := div_lt_self hk0 (by omega)
    rw [if_neg hz1]
    constructor
    · intro h
      refine (azure_many_iff hs hr).mp fun failed hf hfr u => ?_
      let call : List ℕ → DecodeCall := fun _ => { usedRow := u }
      have hcoef : ∀ ids ∈ azureLists k r z failed, ∀ b ∈ ids,
          azureCoef (call ids).usedRow k r z failed b = azureCoef u k r z failed b :=
        fun _ _ _ _ => rfl
      rw [← RowsAddUp.perm (azureLists_many (by omega) hk hf)]
      exact (azure_decode_iff hf hfr (azureLists_lt hk hz hf) hcoef).mp (h failed hf hfr call)
    · rintro ⟨hmore, hsmall⟩ failed hf hfr call
      refine (azure_decode_iff hf hfr (azureLists_lt hk hz hf)
        fun ids _ b _ => azureCoef_unset hf hfr hmore hsmall _ (fun _ => 0) b).mpr ?_
      rw [RowsAddUp.perm (azureLists_many (by omega) hk hf)]
      exact azure_rowsAddUp hf hfr hmore hsmall

end

/-- **Main result.**  In every state that sets and recoveries reach, the recovery of every global parity
of an AzureLRC stripe gives it back exactly when `AzureFits`. -/
theorem azure_global_recovery_iff (cfg : SysConfig) (topo : Topology) (hc : cfg.codeType = .AzureLRC)
    (hl : cfg.Loaded) (hv : validateConfig cfg = true) (hk : cfg.z ∣ cfg.k) (es : List StorageEvent)
    (sys : System) (hrun : run (storageStep cfg topo) es {} = some sys) (stripeId : ℕ) (stripe : Stripe)
    (hstripe : sys.coord.stripeTable stripeId = some stripe) :
    (∀ failed, cfg.k ≤ failed → failed < cfg.k + cfg.r → RecoversBlock cfg stripe failed) ↔
      AzureFits cfg.k cfg.r cfg.z := by
  obtain ⟨group, key, bs, s, t, hg, -, -, hp, -⟩ := (Recorded.run hrun).placed stripeId stripe hstripe
  have hz := validateConfig_z hv
  have hk0 : 0 < cfg.k / cfg.z := div_pos (le_of_dvd hl.k_pos hk) hz
  unfold map2group at hg
  simp only [hc, ite_none_left_eq_some, some.injEq] at hg
  obtain ⟨-, rfl⟩ := hg
  rw [← azureLists_decode_iff hl.k_pos hl.r_pos hz hk]
  refine forall₃_congr fun failed hf hfr => ?_
  have hlists := azure_helperLists hc hp hk hk0 hf hfr hz
  constructor
  · intro h call
    obtain ⟨block, reads, recovery, hget, hrequest, hids⟩ := hlists 0 0
    obtain ⟨block', reads', recovery', hget', hrequest', hdecode⟩ := h 0 0
    rw [hget, some.injEq] at hget'
    subst hget'
    rw [hrequest, some.injEq, Prod.mk.injEq] at hrequest'
    obtain ⟨rfl, rfl⟩ := hrequest'
    have := hdecode call
    rwa [hc, hids] at this
  · intro h clusterId node
    obtain ⟨block, reads, recovery, hget, hrequest, hids⟩ := hlists clusterId node
    refine ⟨block, reads, recovery, hget, hrequest, fun call => ?_⟩
    rw [hc, hids]
    exact h call

/-- three global parities and two data blocks in a local group -/
theorem azure_global_recovery_three :
    ∃ sys stripe, run (storageStep (azureConfig 3) fourClustersOfFour)
        [.set "c" 8 [0, 1, 0, 1, 0, 1, 2, 2, 2] fun _ => true] {} = some sys ∧
      sys.coord.stripeTable 0 = some stripe ∧
      ∀ failed, 4 ≤ failed → failed < 7 → RecoversBlock (azureConfig 3) stripe failed := by
  have hrun : ((run (storageStep (azureConfig 3) fourClustersOfFour)
      [.set "c" 8 [0, 1, 0, 1, 0, 1, 2, 2, 2] fun _ => true] {}).bind fun sys =>
        sys.coord.stripeTable 0).isSome = true := by decide +kernel
  obtain ⟨stripe, hsome⟩ := isSome_iff_exists.mp hrun
  obtain ⟨sys, hsys, hstripe⟩ := bind_eq_some_iff.mp hsome
  exact ⟨sys, stripe, hsys, hstripe, (azure_global_recovery_iff (azureConfig 3) fourClustersOfFour rfl
    ⟨by decide, by decide, nofun⟩ (by decide) (by decide) _ sys hsys 0 stripe hstripe).mpr (by decide)⟩

/-- two global parities and two data blocks in a local group: block 4 is decoded from blocks 5, 2 and 3,
so the fourth row was never stored.  With zeros in that memory a stripe whose only data is a one in
block 0 gives 142 in place of 1. -/
theorem azure_global_recovery_wrong :
    validateConfig (azureConfig 2) = true ∧
    ∃ sys stripe, run (storageStep (azureConfig 2) fourClustersOfFour)
        [.set "c" 8 [0, 1, 0, 1, 0, 1, 2, 2] fun _ => true] {} = some sys ∧
      sys.coord.stripeTable 0 = some stripe ∧
      ((stripe.blocks[4]?).bind fun block => (recoveryRequests true (azureConfig 2) stripe 4 block 0 0).map
        fun p => helperLists p.1 p.2) = some [[5], [2, 3]] ∧
      usedRows 4 2 2 4 = [2, 3, 5] ∧
      xorBlocks 1 ([[5], [2, 3]].map fun ids => decodeBlock .AzureLRC {} 4 2 2 ids
        (ids.map (blockOf (codeword genAzureLrcMatrix 4 2 2 [[1], [0], [0], [0]] 1))) 1 4) = [142] ∧
      blockOf (codeword genAzureLrcMatrix 4 2 2 [[1], [0], [0], [0]] 1) 4 = [1] ∧
      ¬ RecoversBlock (azureConfig 2) stripe 4 := by
  have hrun : ((run (storageStep (azureConfig 2) fourClustersOfFour)
      [.set "c" 8 [0, 1, 0, 1, 0, 1, 2, 2] fun _ => true] {}).bind fun sys =>
        (sys.coord.stripeTable 0).map fun stripe => (stripe.blocks[4]?).bind fun block =>
          (recoveryRequests true (azureConfig 2) stripe 4 block 0 0).map fun p =>
            helperLists p.1 p.2) = some (some [[5], [2, 3]]) := by decide +kernel
  have hdecode : xorBlocks 1 ([[5], [2, 3]].map fun ids => decodeBlock .AzureLRC {} 4 2 2 ids
      (ids.map (blockOf (codeword genAzureLrcMatrix 4 2 2 [[1], [0], [0], [0]] 1))) 1 4) = [142] := by
    decide +kernel
  have hblock : blockOf (codeword genAzureLrcMatrix 4 2 2 [[1], [0], [0], [0]] 1) 4 = [1] := by
    decide +kernel
  obtain ⟨sys, hsys, hmap⟩ := bind_eq_some_iff.mp hrun
  obtain ⟨stripe, hstripe, hlists⟩ := map_eq_some_iff.mp hmap
  refine ⟨by decide, sys, stripe, hsys, hstripe, hlists, by decide, hdecode, hblock, fun h => ?_⟩
  obtain ⟨block, reads, recovery, hget, hrequest, hall⟩ := h 0 0
  rw [hget, bind_some, hrequest, map_some, some.injEq] at hlists
  have hwrong := hall (fun _ => {}) 1 [[1], [0], [0], [0]] ⟨rfl, by decide⟩
  rw [hlists] at hwrong
  exact absurd (hdecode.symm.trans (hwrong.trans hblock)) (by decide)

end Mlrc
