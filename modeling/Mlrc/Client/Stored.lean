import Mlrc.Client.Set

/-!
# Codes whose sets store the codeword

* `glrc_layout`, `unilrc_layout`, `azurelrc_layout`   the layouts that the client cuts correctly;
* `set_stores_codeword_iff`   when a set of these codes stores the codeword.
-/

namespace Mlrc

open List Option

section
variable {cfg : SysConfig} {group : ℕ → ℤ}

theorem SetLayout.of_shapes (shape : ℕ → GroupShape)
    (hshape : ∀ g < numGroups cfg group, (shape g).Of cfg group g)
    (hbounds : ∀ b < cfg.n, 0 ≤ group b ∧ group b < numGroups cfg group)
    (hdata : ∀ g < numGroups cfg group,
      (getDataBlockNumPerGroup cfg.codeType cfg.k cfg.r cfg.z)[g]? = some (shape g).dataNum)
    (hglobal : ∀ g < numGroups cfg group,
      (getGlobalParityBlockNumPerGroup cfg.codeType cfg.k cfg.r cfg.z)[g]? = some (shape g).globalNum)
    (hlocal : ∀ g < numGroups cfg group,
      (getLocalParityBlockNumPerGroup cfg.codeType cfg.k cfg.r cfg.z)[g]? = some (shape g).localNum)
    (hds : ∀ i j, i ≤ j → j < cfg.k → group i ≤ group j)
    (hgs : ∀ i j, i ≤ j → j < cfg.r → group (cfg.k + i) ≤ group (cfg.k + j))
    (hls : ∀ i j, i ≤ j → j < cfg.z → group (cfg.k + cfg.r + i) ≤ group (cfg.k + cfg.r + j)) :
    SetLayout cfg group where
  bounds := hbounds
  data_num g hg := by rw [hdata g hg, (hshape g hg).dataNum_eq]
  global_num g hg := by rw [hglobal g hg, (hshape g hg).globalNum_eq]
  local_num g hg := by rw [hlocal g hg, (hshape g hg).localNum_eq]
  data_sorted := hds
  global_sorted := hgs
  local_sorted := hls

theorem getElem?_map_range {f : ℕ → ℕ} {n g : ℕ} (hg : g < n) :
    ((range n).map f)[g]? = some (f g) := by
  rw [getElem?_map, getElem?_range hg, map_some]

theorem getElem?_replicate_last (num : ℕ → ℕ) {z g f last : ℕ} (hg : g ≤ z)
    (hf : g < z → num g = f) (hlast : num z = last) :
    ((range z).map (fun _ => f) ++ [last])[g]? = some (num g) := by
  rcases lt_or_eq_of_le hg with hlt | rfl
  · rw [getElem?_append_left (by rwa [length_map, length_range]),
      getElem?_map_range hlt, hf hlt]
  · rw [getElem?_append_right (by rw [length_map, length_range]), length_map,
      length_range, Nat.sub_self, hlast]
    rfl

/-! ## gLRC -/

theorem glrc_layout (hc : cfg.codeType = .gLRC) (hz : 0 < cfg.z)
    (hg : group = fun i => (glrcGroup cfg.k cfg.r cfg.z i : ℤ)) : SetLayout cfg group := by
  subst hg
  have hcount : numGroups cfg (fun i => (glrcGroup cfg.k cfg.r cfg.z i : ℤ)) = cfg.z := if_pos hc
  have hpay : ∀ i < cfg.k + cfg.r, (glrcGroup cfg.k cfg.r cfg.z i : ℤ) =
      (glrcPayloadGroupId i cfg.k cfg.r cfg.z : ℤ) :=
    fun i hi => congrArg Nat.cast (glrcGroup_payload hi)
  have hmono : ∀ i j, i ≤ j → j < cfg.k + cfg.r →
      (glrcGroup cfg.k cfg.r cfg.z i : ℤ) ≤ (glrcGroup cfg.k cfg.r cfg.z j : ℤ) := by
    intro i j hij hj
    rw [hpay i (by omega), hpay j hj]
    exact Int.ofNat_le.mpr (glrcPayloadGroupId_mono hz hij hj)
  have hcov := glrc_covers (k := cfg.k) (r := cfg.r) hz
  refine SetLayout.of_shapes (glrcShape cfg.k cfg.r cfg.z) ?_ ?_ ?_ ?_ ?_ ?_ ?_ ?_
  · intro g hg
    rw [hcount] at hg
    exact glrcShape_of hg hpay fun h _ => congrArg Nat.cast (glrcGroup_parity h)
  · rw [hcount]
    exact hcov.lt
  · intro g hg
    rw [hcount] at hg
    rw [hc]
    refine (getElem?_map_range hg).trans ?_
    unfold glrcDataBlocksInGroup
    rw [if_neg (by omega), ← payloadStart_succ]
    rfl
  · intro g hg
    rw [hcount] at hg
    rw [hc]
    refine (getElem?_map_range hg).trans ?_
    unfold glrcGlobalBlocksInGroup
    rw [if_neg (by omega), ← payloadStart_succ]
    rfl
  · intro g hg
    rw [hcount] at hg
    rw [hc]
    refine (getElem?_map_range hg).trans ?_
    show some 1 = some (cfg.k + cfg.r + g + 1 - (cfg.k + cfg.r + g))
    rw [Nat.add_sub_cancel_left]
  · intro i j hij hj
    exact hmono i j hij (by omega)
  · intro i j hij hj
    exact hmono _ _ (by omega) (by omega)
  · intro i j hij hj
    rw [glrcGroup_parity, glrcGroup_parity]
    exact Int.ofNat_le.mpr hij

/-! ## UniLRC and AzureLRC -/

theorem unilrcGroup_data_mono {codeType : CodeType} {i j : ℕ} (hij : i ≤ j) (hj : j < cfg.k) :
    (unilrcAndAzurelrcGroup codeType cfg.k cfg.r cfg.z i : ℤ) ≤
      (unilrcAndAzurelrcGroup codeType cfg.k cfg.r cfg.z j : ℤ) := by
  rw [unilrcGroup_data (by omega), unilrcGroup_data hj]
  exact Int.ofNat_le.mpr (Nat.div_le_div_right hij)

theorem unilrcGroup_parity_mono {codeType : CodeType} {i j : ℕ} (hij : i ≤ j) (hj : j < cfg.z) :
    (unilrcAndAzurelrcGroup codeType cfg.k cfg.r cfg.z (cfg.k + cfg.r + i) : ℤ) ≤
      (unilrcAndAzurelrcGroup codeType cfg.k cfg.r cfg.z (cfg.k + cfg.r + j) : ℤ) := by
  rw [unilrcGroup_parity (by omega), unilrcGroup_parity hj]
  exact Int.ofNat_le.mpr hij

theorem succ_mul_sub (g q : ℕ) : (g + 1) * q - g * q = q := by
  rw [Nat.succ_mul, Nat.add_sub_cancel_left]

theorem unilrc_layout (hc : cfg.codeType = .UniLRC) (hk : cfg.z ∣ cfg.k) (hr : cfg.z ∣ cfg.r)
    (hk0 : cfg.k / cfg.z ≠ 0) (hr0 : cfg.r / cfg.z ≠ 0)
    (hg : group = fun i => (unilrcAndAzurelrcGroup .UniLRC cfg.k cfg.r cfg.z i : ℤ)) :
    SetLayout cfg group := by
  subst hg
  have hcov := unilrc_covers hk hr
  have hcount : numGroups cfg (fun i => (unilrcAndAzurelrcGroup .UniLRC cfg.k cfg.r cfg.z i : ℤ)) =
      cfg.z := (if_neg (by rw [hc]; decide)).trans hcov.numGroups
  refine SetLayout.of_shapes (unilrcShape cfg.k cfg.r cfg.z) ?_ ?_ ?_ ?_ ?_
    (fun i j => unilrcGroup_data_mono) ?_ (fun i j => unilrcGroup_parity_mono)
  · intro g hg
    rw [hcount] at hg
    exact unilrcShape_of hg hk hr (pos_of_ne_zero hk0) (pos_of_ne_zero hr0)
  · rw [hcount]
    exact hcov.lt
  · intro g hg
    rw [hcount] at hg
    rw [hc]
    refine (getElem?_map_range hg).trans (congrArg some ?_)
    exact (succ_mul_sub g _).symm
  · intro g hg
    rw [hcount] at hg
    rw [hc]
    refine (getElem?_map_range hg).trans (congrArg some ?_)
    show cfg.r / cfg.z = cfg.k + (g + 1) * (cfg.r / cfg.z) - (cfg.k + g * (cfg.r / cfg.z))
    rw [Nat.add_sub_add_left, succ_mul_sub]
  · intro g hg
    rw [hcount] at hg
    rw [hc]
    refine (getElem?_map_range hg).trans (congrArg some ?_)
    show 1 = cfg.k + cfg.r + g + 1 - (cfg.k + cfg.r + g)
    rw [Nat.add_sub_cancel_left]
  · intro i j hij hj
    rw [unilrcGroup_global (by omega), unilrcGroup_global hj]
    exact Int.ofNat_le.mpr (Nat.div_le_div_right hij)

theorem azurelrc_layout (hc : cfg.codeType = .AzureLRC) (hk : cfg.z ∣ cfg.k)
    (hk0 : cfg.k / cfg.z ≠ 0)
    (hg : group = fun i => (unilrcAndAzurelrcGroup .AzureLRC cfg.k cfg.r cfg.z i : ℤ))
    (hcov : Covers cfg.n (numGroups cfg group) group) : SetLayout cfg group := by
  have hlast : ∀ g < numGroups cfg group, g ≤ cfg.z := by
    intro g hlt
    obtain ⟨b, hb, hbg⟩ := hcov.onto g hlt
    subst hg
    rw [Int.ofNat_inj] at hbg
    rcases block_cases (show b < cfg.k + cfg.r + cfg.z from hb) with hbk | ⟨l, hl, rfl⟩ | ⟨m, hm, rfl⟩
    · rw [unilrcGroup_data hbk] at hbg
      have hdiv : b / (cfg.k / cfg.z) < cfg.z :=
        Nat.div_lt_of_lt_mul (by rwa [mul_comm, Nat.mul_div_cancel' hk])
      omega
    · rw [azurelrcGroup_global hl] at hbg
      omega
    · rw [unilrcGroup_parity hm] at hbg
      omega
  subst hg
  refine SetLayout.of_shapes (azurelrcShape cfg.k cfg.r cfg.z) ?_ hcov.lt ?_ ?_ ?_
    (fun i j => unilrcGroup_data_mono) ?_ (fun i j => unilrcGroup_parity_mono)
  · intro g hg
    exact azurelrcShape_of (pos_of_ne_zero hk0) g
  · intro g hg
    rw [hc]
    refine getElem?_replicate_last (fun g => (azurelrcShape cfg.k cfg.r cfg.z g).dataNum) (hlast g hg) ?_ ?_
    · intro hlt
      rw [azurelrcShape_inner cfg.r hlt hk]
      exact succ_mul_sub g _
    · rw [azurelrcShape_last cfg.r hk]
      exact Nat.sub_self _
  · intro g hg
    rw [hc]
    refine getElem?_replicate_last (fun g => (azurelrcShape cfg.k cfg.r cfg.z g).globalNum) (hlast g hg) ?_ ?_
    · intro hlt
      rw [azurelrcShape_inner cfg.r hlt hk]
      exact Nat.sub_self _
    · rw [azurelrcShape_last cfg.r hk]
      exact Nat.add_sub_cancel_left _ _
  · intro g hg
    rw [hc]
    refine getElem?_replicate_last (fun g => (azurelrcShape cfg.k cfg.r cfg.z g).localNum) (hlast g hg) ?_ ?_
    · intro hlt
      rw [azurelrcShape_inner cfg.r hlt hk]
      exact Nat.add_sub_cancel_left _ _
    · rw [azurelrcShape_last cfg.r hk]
      exact Nat.sub_self _
  · intro i j hij hj
    rw [azurelrcGroup_global (by omega), azurelrcGroup_global hj]

/-! ## The stored stripe -/

/-- the parameters for which the client cuts as the coordinator has planned -/
def SetCode (cfg : SysConfig) : Prop :=
  (cfg.codeType = .gLRC ∧ 0 < cfg.k ∧ 0 < cfg.r ∧ 0 < cfg.z) ∨
  (cfg.codeType = .UniLRC ∧ ∃ alpha, cfg.k = alpha * cfg.z * (cfg.z - 1) ∧ cfg.r = alpha * cfg.z) ∨
  (cfg.codeType = .AzureLRC ∧ cfg.z ∣ cfg.k)

theorem SetCode.layout (hcode : SetCode cfg) (hg : map2group cfg = some group)
    (hplace : Placeable cfg group) : SetLayout cfg group := by
  have hmap := hg
  unfold map2group at hg
  rcases hcode with ⟨hc, -, -, hz⟩ | ⟨hc, alpha, hk, hr⟩ | ⟨hc, hk⟩
  · simp only [hc, some.injEq] at hg
    exact glrc_layout hc hz hg.symm
  · simp only [hc, ite_none_left_eq_some, some.injEq, not_or] at hg
    obtain ⟨⟨hk0, hr0⟩, hg⟩ := hg
    refine unilrc_layout hc ?_ ?_ hk0 hr0 hg.symm
    · rw [hk, Nat.mul_right_comm]
      exact dvd_mul_left _ _
    · rw [hr]
      exact dvd_mul_left _ _
  · simp only [hc, ite_none_left_eq_some, some.injEq] at hg
    have hz : 0 < cfg.z := pos_of_ne_zero fun h => hg.1 (by rw [h, Nat.div_zero])
    exact azurelrc_layout hc hk hg.1 hg.2.symm (hplace.covers hz hmap)

end

/-- **Main result.** A set that the coordinator has planned passes the assertions of the client.  It
stores the codeword (the pointers are the places of the blocks in the plans, and every proxy cuts out
of its stream the rows of the generator matrix applied to the data, under the keys of their blocks)
exactly when the `int` sizes leave out only zeros. -/
theorem set_stores_codeword_iff (cfg : SysConfig) (hcode : SetCode cfg) (topo : Topology)
    (s s' : Coordinator) (clientId : String) (draws : List ℕ) (ready : ℕ → Bool)
    (reply : UploadReply)
    (h : uploadSetValue cfg topo s clientId (cfg.blockSize * cfg.k) draws ready = some (s', reply))
    (hok : reply.status = .OK) (buffer : List UInt8)
    (hbuf : buffer.length = cfg.blockSize * cfg.n) :
    ∃ group stripe plans run, map2group cfg = some group ∧
      s'.stripeTable s.curStripeId = some stripe ∧ generateAddPlans cfg stripe = some plans ∧
      Client.set cfg reply buffer = some run ∧
      (SetStores cfg s.curStripeId cfg.k buffer plans run ↔ ∀ g < numGroups cfg group,
        SentWhole ((bucket (groupToBlocks cfg.n group) g).flatMap
          (setBlock cfg cfg.k (setPieces cfg group) buffer))) := by
  obtain ⟨group, bs, t, stripe, plans, hdone⟩ := uploadSetValue_ok h hok
  have hplace := hdone.placed.placeable hdone.plans_eq
  have hlayout := hcode.layout hdone.group_eq hplace
  have hplans := generateAddPlans_some hdone.placed hdone.plans_eq
  obtain ⟨run, hrun, hstores⟩ := clientSet_stores_iff hlayout hbuf hplans
  refine ⟨group, stripe, plans, run, hdone.group_eq, ?_, hdone.plans_eq, ?_, hstores⟩
  · rw [hdone.table, Function.update_self]
  · rw [hdone.reply_eq, hrun]

theorem set_stores_codeword_unilrc :
    ∃ s' reply, uploadSetValue unilrcConfig clustersOfFour {} "c" 4 [0, 0, 1, 1, 2, 2]
        (fun _ => true) = some (s', reply) ∧
      ∃ stripe plans run, s'.stripeTable 0 = some stripe ∧
        generateAddPlans unilrcConfig stripe = some plans ∧
        Client.set unilrcConfig reply [1, 2, 0, 0, 0, 0, 3, 4, 0, 0, 0, 0] = some run ∧
        SetStores unilrcConfig 0 2 [1, 2, 0, 0, 0, 0, 3, 4, 0, 0, 0, 0] plans run := by
  have hstatus : ((uploadSetValue unilrcConfig clustersOfFour {} "c" 4 [0, 0, 1, 1, 2, 2]
      fun _ => true).map fun p => p.2.status) = some .OK := by decide +kernel
  obtain ⟨⟨s', reply⟩, h, hok⟩ := map_eq_some_iff.mp hstatus
  obtain ⟨group, stripe, plans, run, hgroup, htable, hplans, hrun, hiff⟩ :=
    set_stores_codeword_iff unilrcConfig (.inr (.inl ⟨rfl, 1, rfl, rfl⟩)) _ _ _ _ _ _ _ h hok
      [1, 2, 0, 0, 0, 0, 3, 4, 0, 0, 0, 0] rfl
  cases hgroup
  exact ⟨s', reply, h, stripe, plans, run, htable, hplans, hrun, hiff.mpr (by decide +kernel)⟩

theorem not_sentWhole {n : ℕ} {rest : List UInt8} (h : narrowed (n + rest.length) < n) :
    ¬SentWhole (replicate n 1 ++ rest) := by
  intro hsent
  unfold SentWhole at hsent
  rw [length_append, length_replicate, drop_append_of_le_length (by rw [length_replicate]; exact h.le),
    drop_replicate] at hsent
  have hmem : (1 : UInt8) ∈ replicate (n - narrowed (n + rest.length)) 1 :=
    mem_replicate.mpr ⟨by omega, rfl⟩
  exact absurd (hsent 1 (mem_append_left _ hmem)) (by decide)

theorem setBlock_ones {m b : ℕ} {pieces : List Piece} (h : PiecesOf cfg m pieces) (hb : b < m) :
    setBlock cfg m pieces (replicate (cfg.blockSize * cfg.n) 1) b = replicate cfg.blockSize 1 := by
  have hle : slot (pieceOrder pieces) cfg.blockSize b + cfg.blockSize ≤
      (pieceOrder pieces).length * cfg.blockSize :=
    slot_add_le (h.mem_iff.mpr (.inl hb))
  have hbuf := h.order_le (length_replicate (n := cfg.blockSize * cfg.n) (a := (1 : UInt8)))
  rw [length_replicate] at hbuf
  rw [setBlock_data h hb, readAt, drop_replicate, take_replicate, blockSlot, min_eq_left (by omega)]

/-- for a plan of 4.5 GiB the client sends 0.5 GiB, and the rest of its three blocks is stored as
zeros -/
theorem wide_set_cut_off :
    validateConfig wideConfig = true ∧
    ∃ s' reply, uploadSetValue wideConfig clustersOfFour {} "c" 3221225472 [0, 0, 1, 1, 2, 2]
        (fun _ => true) = some (s', reply) ∧ reply.clusterSliceSizes = [4831838208, 4831838208] ∧
      narrowed 4831838208 = 536870912 ∧
      ∃ stripe plans run, s'.stripeTable 0 = some stripe ∧
        generateAddPlans wideConfig stripe = some plans ∧
        Client.set wideConfig reply (replicate (wideConfig.blockSize * wideConfig.n) 1) = some run ∧
        ¬SetStores wideConfig 0 2 (replicate (wideConfig.blockSize * wideConfig.n) 1) plans run := by
  have hstatus : ((uploadSetValue wideConfig clustersOfFour {} "c" 3221225472 [0, 0, 1, 1, 2, 2]
      fun _ => true).map fun p => (p.2.status, p.2.clusterSliceSizes)) =
      some (.OK, [4831838208, 4831838208]) := by decide +kernel
  obtain ⟨⟨s', reply⟩, h, hreply⟩ := map_eq_some_iff.mp hstatus
  rw [Prod.mk.injEq] at hreply
  obtain ⟨hok, hsizes⟩ := hreply
  obtain ⟨group, bs, t, stripe, plans, hdone⟩ := uploadSetValue_ok h hok
  have hlayout := SetCode.layout (.inr (.inl ⟨rfl, 1, rfl, rfl⟩)) hdone.group_eq
    (hdone.placed.placeable hdone.plans_eq)
  have hbuf := length_replicate (n := wideConfig.blockSize * wideConfig.n) (a := (1 : UInt8))
  obtain ⟨run, hrun, hstores⟩ := clientSet_stores_iff hlayout hbuf
    (generateAddPlans_some hdone.placed hdone.plans_eq)
  refine ⟨by decide, s', reply, h, hsizes, by decide, stripe, plans, run, ?_, hdone.plans_eq, ?_,
    fun hset => ?_⟩
  · rw [hdone.table, Function.update_self]
  · rw [hdone.reply_eq, hrun]
  · have hof : PiecesOf wideConfig wideConfig.k (setPieces wideConfig group) := hlayout.piecesOf le_rfl
    have hids : numGroups wideConfig group = 2 ∧
        bucket (groupToBlocks wideConfig.n group) (0 : ℕ) = [0, 2, 4] := by
      rw [← some.inj hdone.group_eq]
      decide +kernel
    have hsent := hstores.mp hset 0 (by rw [hids.1]; decide)
    rw [hids.2, flatMap_cons, setBlock_ones hof (by decide)] at hsent
    refine not_sentWhole ?_ hsent
    rw [flatMap_cons, flatMap_singleton, length_append, length_setBlock hof hbuf (by decide),
      length_setBlock hof hbuf (by decide)]
    decide

end Mlrc
