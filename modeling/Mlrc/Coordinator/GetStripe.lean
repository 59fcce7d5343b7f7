import Mlrc.Coordinator.Recovery

/-!
# Reading a stripe: the coordinator

`getStripe` asks the proxy of each group for the data blocks of the group.  It takes the last group
to hold no data, except for UniLRC.

* `getStripe`   the requests;
* `getStripe_placed`   the requests of a placed stripe;
* `LastGroupFree`   the configurations whose last group holds no data;
* `data_visited_iff`   exactly for these every data block is asked for.
-/

namespace Mlrc

open List Option Nat

/-- one request of `getStripeFromProxy`; proxies are named by their clusters -/
structure GetRequest where
  proxy : ℕ
  groupId : ℕ
  blocks : List Helper
deriving DecidableEq, Repr

def GetRequest.blockIds (request : GetRequest) : List ℕ := request.blocks.map Helper.blockId

def numDataGroups (codeType : CodeType) (numGroups : ℕ) : ℕ :=
  if codeType = .UniLRC then numGroups else numGroups - 1

/-- the request for group `i`, with the lookups of `getStripeFromProxy`; `none` when the group has no
first block -/
def getStripeFromProxy (stripe : Stripe) (i : ℕ) : Option GetRequest := do
  let first ← stripe.firstBlock i
  let blocks ← (stripe.group i).mapM fun b => (stripe.blocks[b]?).map fun block => (b, block)
  some {
    proxy := first.map2cluster
    groupId := i
    blocks := (blocks.filter fun p => p.2.blockId < stripe.k).map fun p =>
      { node := p.2.map2node, blockKey := p.2.blockKey, blockId := p.1 } }

/-- `getStripe`; the sizes in its answer come from the count tables and no one reads them -/
def getStripe (cfg : SysConfig) (stripe : Stripe) : Option (List GetRequest) :=
  (range (numDataGroups cfg.codeType stripe.numGroups)).mapM (getStripeFromProxy stripe)

/-! ## The requests of a placed stripe -/

/-- the request for group `i`: its data blocks, where they are recorded -/
structure RequestOf (cfg : SysConfig) (group : ℕ → ℤ) (bs : List Block) (i : ℕ)
    (request : GetRequest) : Prop where
  ids : request.blockIds = (range cfg.n).filter fun b => group b = i ∧ b < cfg.k
  source : ∀ helper ∈ request.blocks, ∃ block ∈ bs, helper = block.helper

section
variable {cfg : SysConfig} {topo : Topology} {group : ℕ → ℤ} {s s' : Coordinator} {stripeId : ℕ}
  {key : String} {bs : List Block} {stripe : Stripe}

section
variable (h : Placed cfg topo group s stripeId key bs s' stripe)
include h

theorem Placed.group_eq (i : ℕ) : stripe.group i = (range cfg.n).filter fun b => group b = i := by
  rw [h.group_eq_bucket, groupToBlocks, bucket_collect]

theorem Placed.exists_firstBlock
    (hplace : Placeable cfg group) {i : ℕ} (hi : i < numGroups cfg group) :
    ∃ first, stripe.firstBlock i = some first := by
  obtain ⟨b, hb, hbi⟩ := hplace.exists_block hi
  have hmem : b ∈ stripe.group i := by
    rw [h.group_eq, mem_filter]
    exact ⟨mem_range.mpr hb, decide_eq_true hbi⟩
  cases hhead : (stripe.group i).head? with
  | none =>
    rw [head?_eq_none_iff] at hhead
    rw [hhead] at hmem
    cases hmem
  | some c =>
    have hc := mem_of_head? hhead
    rw [h.group_eq, mem_filter, mem_range] at hc
    obtain ⟨first, -, hget, -⟩ := h.exists_block hc.1
    exact ⟨first, by rw [Stripe.firstBlock, hhead, bind_some, hget]⟩

theorem getStripeFromProxy_placed
    (hplace : Placeable cfg group) {i : ℕ} (hi : i < numGroups cfg group) :
    ∃ request, getStripeFromProxy stripe i = some request ∧ RequestOf cfg group bs i request := by
  obtain ⟨first, hfirst⟩ := h.exists_firstBlock hplace hi
  have hread : ∀ b ∈ stripe.group i, ∃ p,
      ((stripe.blocks[b]?).map fun block => (b, block)) = some p ∧
        p.1 = b ∧ p.2 ∈ bs ∧ p.2.blockId = b := by
    intro b hb
    rw [h.group_eq, mem_filter, mem_range] at hb
    obtain ⟨block, hin, hget, hid⟩ := h.exists_block hb.1
    exact ⟨(b, block), by rw [hget, map_some], rfl, hin, hid⟩
  obtain ⟨blocks, hblocks, hall⟩ := exists_mapM hread
  have hk : stripe.k = cfg.k := by rw [h.stripe_eq]; rfl
  unfold getStripeFromProxy
  simp only [hfirst, hblocks, bind_eq_bind, bind_some]
  refine ⟨_, rfl, ?_, ?_⟩
  · have hfst : blocks.map Prod.fst = stripe.group i := by
      rw [← forall₂_eq_eq_eq, forall₂_map_left_iff]
      exact hall.flip.imp fun p b hp => hp.1
    have hfilter : (blocks.filter fun p => p.2.blockId < stripe.k) =
        blocks.filter ((fun b => decide (b < cfg.k)) ∘ Prod.fst) := by
      refine filter_congr fun p hp => ?_
      obtain ⟨b, -, hfst, -, hid⟩ := forall₂_mem_right hall hp
      rw [hk, hid, ← hfst, Function.comp_apply]
    show map Helper.blockId (map _ _) = _
    rw [List.map_map, hfilter]
    show map Prod.fst _ = _
    rw [← List.filter_map, hfst, h.group_eq, List.filter_filter]
    refine filter_congr fun b _ => ?_
    rw [← Bool.decide_and, decide_eq_decide]
    exact and_comm
  · intro helper hhelper
    obtain ⟨p, hp, rfl⟩ := mem_map.mp hhelper
    obtain ⟨b, -, hfst, hin, hid⟩ := forall₂_mem_right hall (mem_filter.mp hp).1
    exact ⟨p.2, hin, by rw [Block.helper, hid, hfst]⟩

theorem getStripe_placed
    (hplace : Placeable cfg group) : ∃ requests, getStripe cfg stripe = some requests ∧
      Forall₂ (RequestOf cfg group bs)
        (range (numDataGroups cfg.codeType (numGroups cfg group))) requests := by
  have hnum : stripe.numGroups = numGroups cfg group := by rw [h.stripe_eq]; rfl
  unfold getStripe
  rw [hnum]
  refine exists_mapM fun i hi => getStripeFromProxy_placed h hplace ?_
  rw [mem_range, numDataGroups] at hi
  split at hi <;> omega

end

theorem requests_perm_iff {m : ℕ} {requests : List GetRequest} (hpos : ∀ b < cfg.k, 0 ≤ group b)
    (hall : Forall₂ (RequestOf cfg group bs) (range m) requests) :
    (requests.flatMap GetRequest.blockIds).Perm (range cfg.k) ↔ ∀ b < cfg.k, group b < m := by
  have hids : requests.flatMap GetRequest.blockIds =
      (range m).flatMap fun i : ℕ => (range cfg.k).filter fun b => group b = i := by
    rw [flatMap_def, flatMap_def]
    congr 1
    rw [← forall₂_eq_eq_eq, forall₂_map_left_iff, forall₂_map_right_iff]
    refine hall.flip.imp fun request i hr => ?_
    rw [hr.ids]
    have hrange : range cfg.n = range cfg.k ++ (range (cfg.r + cfg.z)).map (cfg.k + ·) := by
      rw [← range_add, SysConfig.n, add_assoc]
    have hnil : ((range (cfg.r + cfg.z)).map (cfg.k + ·)).filter
        (fun b => group b = i ∧ b < cfg.k) = [] := by
      rw [filter_eq_nil_iff]
      intro b hb
      obtain ⟨j, -, rfl⟩ := mem_map.mp hb
      rw [decide_eq_true_eq]
      omega
    rw [hrange, filter_append, hnil, append_nil]
    refine filter_congr fun b hb => ?_
    rw [mem_range] at hb
    rw [decide_eq_decide]
    exact and_iff_left hb
  rw [hids]
  constructor
  · intro hperm b hb
    obtain ⟨i, hi, hmem⟩ := mem_flatMap.mp (hperm.mem_iff.mpr (mem_range.mpr hb))
    rw [mem_filter, decide_eq_true_eq] at hmem
    rw [hmem.2]
    exact Int.ofNat_lt.mpr (mem_range.mp hi)
  · intro hlt
    refine flatMap_filter_perm nodup_range fun b hb => ?_
    rw [mem_range] at hb
    exact ⟨hpos b hb, hlt b hb⟩

end

/-! ## The last group -/

def LastGroupFree (cfg : SysConfig) : Prop :=
  cfg.k = 0 ∨ match cfg.codeType with
    | .UniLRC => True
    | .AzureLRC | .OptimalLRC => cfg.z ∣ cfg.k ∧ 0 < cfg.r
    -- the last local group is cut into pieces of `r + 1` blocks, and the last piece is not full
    | .UniformLRC => ¬ cfg.r + 1 ∣ (cfg.k + cfg.r + cfg.z - 1) / cfg.z
    -- the last group is not larger than the global parities
    | .gLRC => (cfg.k + cfg.r + cfg.z - 1) / cfg.z ≤ cfg.r

instance (cfg : SysConfig) : Decidable (LastGroupFree cfg) := by
  unfold LastGroupFree
  cases cfg.codeType <;> exact inferInstance

section
variable {cfg : SysConfig} {group : ℕ → ℤ} {k r z : ℕ}

theorem Covers.lt_last_iff {n count : ℕ} (h : Covers n count group) {b : ℕ} (hb : b < n) :
    group b < ((count - 1 : ℕ) : ℤ) ↔ ∃ c < n, group b < group c := by
  have hbound := h.lt b hb
  constructor
  · intro hlt
    obtain ⟨c, hc, hcg⟩ := h.onto (count - 1) (by omega)
    exact ⟨c, hc, by rw [hcg]; exact hlt⟩
  · rintro ⟨c, hc, hlt⟩
    have := h.lt c hc
    omega

theorem azurelrc_last_iff (hq : 0 < k / z) (hk : 0 < k) :
    (∀ b < k, ∃ c < k + r + z, unilrcAndAzurelrcGroup .AzureLRC k r z b <
      unilrcAndAzurelrcGroup .AzureLRC k r z c) ↔ z ∣ k ∧ 0 < r := by
  obtain ⟨hlo, hdvd⟩ := last_div hq
  constructor
  · intro hall
    obtain ⟨c, hc, hlt⟩ := hall (k - 1) (by omega)
    rw [unilrcGroup_data (show k - 1 < k by omega)] at hlt
    rcases block_cases hc with hck | ⟨l, hl, rfl⟩ | ⟨g, hg, rfl⟩
    · rw [unilrcGroup_data hck] at hlt
      have := Nat.div_le_div_right (c := k / z) (show c ≤ k - 1 by omega)
      omega
    · rw [azurelrcGroup_global hl] at hlt
      exact ⟨hdvd.mp hlt, by omega⟩
    · rw [unilrcGroup_parity hg] at hlt
      omega
  · rintro ⟨hdiv, hr⟩ b hb
    refine ⟨k + 0, by omega, ?_⟩
    rw [unilrcGroup_data hb, azurelrcGroup_global hr]
    exact lt_of_le_of_lt (Nat.div_le_div_right (by omega)) (hdvd.mpr hdiv)

theorem optimallrc_last_iff (hq : 0 < k / z) (hk : 0 < k) :
    (∀ b < k, ∃ c < k + r + z, optimalLrcGroup k r z b < optimalLrcGroup k r z c) ↔
      z ∣ k ∧ 0 < r := by
  obtain ⟨hlast, hdvd⟩ := optimal_last (r := r) hq
  constructor
  · intro hall
    obtain ⟨i, hi, hlt⟩ := hall (k - 1) (by omega)
    rcases block_cases hi with hik | ⟨l, hl, rfl⟩ | ⟨g, hg, rfl⟩
    · have := optimalLrcGroup_mono (r := r) hq (show i ≤ k - 1 by omega) (by omega)
      omega
    · rw [optimalLrcGroup_global hl] at hlt
      exact ⟨hdvd.mp hlt, by omega⟩
    · have hle : (g + 1) * groupNumOfOneLocalGroup (k / z) (r + 1) ≤ _ :=
        Nat.mul_le_mul_right _ hg
      rw [optimalLrcGroup_parity] at hlt
      omega
  · rintro ⟨hdiv, hr⟩ b hb
    refine ⟨k + 0, by omega, ?_⟩
    rw [optimalLrcGroup_global hr]
    exact (optimalLrcGroup_mono hq (by omega) (by omega)).trans_lt (hdvd.mpr hdiv)

theorem glrc_last_iff (hz : 0 < z) (hk : 0 < k) :
    (∀ b < k, glrcGroup k r z b < z - 1) ↔ (k + r + z - 1) / z ≤ r := by
  have hstart := payloadStart_last (k := k) (r := r) hz
  constructor
  · intro hall
    have hlt := hall (k - 1) (by omega)
    rw [glrcGroup_payload (by omega)] at hlt
    obtain ⟨-, -, hhi⟩ := groupId_range (r := r) hz (show k - 1 < k + r by omega)
    have hle := payloadStart_mono k r z (show _ + 1 ≤ z - 1 from hlt)
    omega
  · intro hs b hb
    rw [glrcGroup_payload (by omega)]
    obtain ⟨-, hlo, -⟩ := groupId_range (r := r) hz (show b < k + r by omega)
    by_contra hge
    have hle := payloadStart_mono k r z (Nat.le_of_not_lt hge)
    omega

theorem uniformlrc_last_iff (hz : 0 < z) (hk : 0 < k) :
    (∀ b < k, uniformLrcGroup k r z b < ((fineStart z k r z - 1 : ℕ) : ℤ)) ↔
      ¬ r + 1 ∣ (k + r + z - 1) / z := by
  have hstart := payloadStart_last (k := k) (r := r) hz
  have hsize := glrcPayloadBlocksInGroup_last (k := k) (r := r) hz
  have hfine := fineStart_succ (z - 1) k r z
  rw [Nat.sub_add_cancel hz, hsize] at hfine
  have hs : 0 < (k + r + z - 1) / z := Nat.div_pos (by omega) hz
  have hpos := groupNumOfOneLocalGroup_pos hs (add_one_pos r)
  set s := (k + r + z - 1) / z
  constructor
  · -- a full last piece ends with the last data block
    intro hall hdvd
    have hle : r + 1 ≤ s := le_of_dvd hs hdvd
    have hlt := hall (k - 1) (by omega)
    have hval := uniformLrcGroup_payload (k := k) (r := r) (show z - 1 < z by omega)
      (show s - (r + 1) < glrcPayloadBlocksInGroup (z - 1) k r z by rw [hsize]; omega)
    rw [show payloadStart (z - 1) k r z + (s - (r + 1)) = k - 1 by omega] at hval
    obtain ⟨p, hp⟩ := hdvd
    have hpieces : groupNumOfOneLocalGroup s (r + 1) = p := by
      rw [groupNumOfOneLocalGroup_eq, hp, mul_mod_right, if_pos rfl,
        Nat.mul_div_cancel_left _ (add_one_pos r)]
    have hdiv := div_eq_sub_div (add_one_pos r) hle
    rw [hp, Nat.mul_div_cancel_left _ (add_one_pos r), ← hp] at hdiv
    rw [hval, Int.ofNat_lt, hfine, hpieces] at hlt
    omega
  · intro hdvd b hb
    obtain ⟨hg, hlo, hhi⟩ := groupId_range (r := r) hz (show b < k + r by omega)
    set g := glrcPayloadGroupId b k r z
    rw [payloadStart_succ] at hhi
    have hj : b - payloadStart g k r z < glrcPayloadBlocksInGroup g k r z := by omega
    have hval := uniformLrcGroup_payload hg hj
    rw [Nat.add_sub_cancel' hlo] at hval
    have hpiece := div_lt_groupNumOfOneLocalGroup (add_one_pos r) hj
    rw [hval, Int.ofNat_lt]
    rcases lt_or_eq_of_le (le_sub_one_of_lt hg) with hlt | heq
    · have hend := fineStart_mono k r z (show g + 1 ≤ z - 1 from hlt)
      rw [fineStart_succ] at hend
      omega
    · have hle : r + 1 ≤ s := by
        rw [heq] at hlo
        omega
      have hpieces : groupNumOfOneLocalGroup s (r + 1) = s / (r + 1) + 1 := by
        rw [groupNumOfOneLocalGroup_eq, if_neg fun h0 => hdvd (dvd_of_mod_eq_zero h0)]
      have hdiv := div_eq_sub_div (add_one_pos r) hle
      have hquot : (b - payloadStart g k r z) / (r + 1) ≤ (s - (r + 1)) / (r + 1) := by
        refine Nat.div_le_div_right ?_
        rw [heq]
        omega
      rw [hfine, hpieces, heq]
      rw [heq] at hquot
      omega

theorem data_visited_iff (hz : 0 < cfg.z) (hg : map2group cfg = some group)
    (hplace : Placeable cfg group) :
    (∀ b < cfg.k, group b < (numDataGroups cfg.codeType (numGroups cfg group) : ℤ)) ↔
      LastGroupFree cfg := by
  have hcov := hplace.covers hz hg
  have hn : cfg.n = cfg.k + cfg.r + cfg.z := rfl
  unfold LastGroupFree
  rcases Nat.eq_zero_or_pos cfg.k with hk | hk
  · exact iff_of_true (fun b hb => by omega) (.inl hk)
  rw [or_iff_right (by omega)]
  -- all groups but the last are asked, except for UniLRC
  have hskip : cfg.codeType ≠ .UniLRC →
      ((∀ b < cfg.k, group b < (numDataGroups cfg.codeType (numGroups cfg group) : ℤ)) ↔
        ∀ b < cfg.k, ∃ c < cfg.k + cfg.r + cfg.z, group b < group c) := by
    intro hc
    rw [numDataGroups, if_neg hc]
    exact forall₂_congr fun b hb => hcov.lt_last_iff (by omega)
  have hmap := hg
  unfold map2group at hg
  cases hc : cfg.codeType with
  | UniLRC =>
    rw [numDataGroups, if_pos rfl]
    exact iff_of_true (fun b hb => (hcov.lt b (by omega)).2) trivial
  | AzureLRC =>
    have hvisit := hskip (by rw [hc]; decide)
    rw [hc] at hvisit
    rw [hvisit]
    simp only [hc, ite_none_left_eq_some, some.injEq] at hg
    obtain ⟨hq, rfl⟩ := hg
    simp only [Int.ofNat_lt]
    exact azurelrc_last_iff (pos_of_ne_zero hq) hk
  | OptimalLRC =>
    have hvisit := hskip (by rw [hc]; decide)
    rw [hc] at hvisit
    rw [hvisit]
    simp only [hc, ite_none_left_eq_some, some.injEq] at hg
    obtain ⟨hq, rfl⟩ := hg
    simp only [Int.ofNat_lt]
    exact optimallrc_last_iff (pos_of_ne_zero hq) hk
  | UniformLRC =>
    have hq := div_pos (hplace.uniform hz hmap hc) hz
    simp only [hc, some.injEq] at hg
    subst hg
    rw [numDataGroups, if_neg (by decide), uniform_numGroups hc hz hq]
    exact uniformlrc_last_iff hz hk
  | gLRC =>
    have hnum : numGroups cfg group = cfg.z := if_pos hc
    simp only [hc, some.injEq] at hg
    subst hg
    rw [numDataGroups, if_neg (by decide), hnum]
    simp only [Int.ofNat_lt]
    exact glrc_last_iff hz hk

end

end Mlrc
