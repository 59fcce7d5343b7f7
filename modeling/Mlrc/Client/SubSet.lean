import Mlrc.Client.Stored

/-!
# Storing the first blocks of a stripe

`Client::sub_set` uploads fewer than `k` data blocks.  It cuts its counts down to the blocks it has
and drops the groups that are left empty; the coordinator filters the blocks of its groups instead.
The parities are computed from the columns of the stored blocks.

* `Client.subSet`   the client between the answer of the coordinator and the sends;
* `capCounts_eq`, `removeCommonZeros_range`   what is left of the counts;
* `CountTables`   the client's tables describe all groups and nothing else;
* `subset_stores_padded_iff`   when a subset of UniLRC and AzureLRC stores the padded stripe.
-/

namespace Mlrc

open List Option

/-! ## The client -/

/-- the loop that cuts the counts of data blocks down to `capacity` blocks in all -/
def capCounts : ℕ → List ℕ → List ℕ
  | _, [] => []
  | capacity, num :: rest =>
    let num := if capacity < num then capacity else num
    num :: capCounts (capacity - num) rest

/-- `remove_common_zeros`; vectors of different sizes stay as they are -/
def removeCommonZeros (vec1 vec2 vec3 : List ℕ) : List ℕ × List ℕ × List ℕ :=
  if vec1.length ≠ vec2.length ∨ vec2.length ≠ vec3.length then (vec1, vec2, vec3)
  else
    let indicesToRemove := (range vec1.length).filter fun i =>
      vec1.getD i 0 = 0 ∧ vec2.getD i 0 = 0 ∧ vec3.getD i 0 = 0
    -- sorted from back to front
    indicesToRemove.reverse.foldl
      (fun v i => (v.1.eraseIdx i, v.2.1.eraseIdx i, v.2.2.eraseIdx i)) (vec1, vec2, vec3)

/-- `Client::sub_set` after a successful `uploadSubsetValue`; there is no partial encoder for gLRC,
and an assertion says so -/
def Client.subSet (cfg : SysConfig) (reply : UploadReply) (blockNum : ℕ) (buffer : List UInt8) :
    Option SetRun :=
  if cfg.codeType = .gLRC then none
  else
    let counts := removeCommonZeros
      (capCounts blockNum (getDataBlockNumPerGroup cfg.codeType cfg.k cfg.r cfg.z))
      (getGlobalParityBlockNumPerGroup cfg.codeType cfg.k cfg.r cfg.z)
      (getLocalParityBlockNumPerGroup cfg.codeType cfg.k cfg.r cfg.z)
    Client.cutAndSend cfg reply counts.1 counts.2.1 counts.2.2 (encodeInPlace cfg blockNum (fun data =>
      partialEncodeWith (genMatrix cfg.codeType) cfg.k cfg.r cfg.z blockNum data cfg.blockSize) buffer)

/-! ## The counts of the client -/

theorem filter_lt_range' (start len m : ℕ) : (range' start len).filter (fun b => b < m) =
    range' start (min (m - start) len) := by
  have hsplit : range' start len = range' start (min (m - start) len) ++
      range' (start + min (m - start) len) (len - min (m - start) len) := by
    rw [range'_append_1, Nat.add_sub_cancel' (min_le_right _ _)]
  rw [hsplit, filter_append, filter_eq_self.mpr, filter_eq_nil_iff.mpr,
    append_nil]
  · intro b hb
    rw [mem_range'_1] at hb
    rw [decide_eq_true_eq]
    omega
  · intro b hb
    rw [mem_range'_1] at hb
    rw [decide_eq_true_eq]
    omega

theorem capCounts_eq {m start len : ℕ} {parts : List (List ℕ)}
    (h : parts.flatten = range' start len) : capCounts (m - start) (parts.map List.length) =
      parts.map fun part => (part.filter fun b => b < m).length := by
  induction parts generalizing start len with
  | nil => rfl
  | cons part parts ih =>
    rw [flatten_cons] at h
    have hlen : part.length ≤ len := by
      have := congrArg List.length h
      rw [length_append, length_range'] at this
      omega
    obtain ⟨hpart, hrest⟩ : part = range' start part.length ∧
        parts.flatten = range' (start + part.length) (len - part.length) := by
      refine append_inj (h.trans ?_) (by rw [length_range'])
      rw [range'_append_1, Nat.add_sub_cancel' hlen]
    have hcount : (part.filter fun b => b < m).length =
        if m - start < part.length then m - start else part.length := by
      rw [hpart, filter_lt_range', length_range', length_range']
      split <;> omega
    have hleft : m - start - (part.filter fun b => b < m).length = m - (start + part.length) := by
      rw [hcount]
      split <;> omega
    rw [map_cons, map_cons, capCounts, ← hcount, hleft, ih hrest]

theorem foldl_erase3 (indices : List ℕ) (v : List ℕ × List ℕ × List ℕ) :
    indices.foldl (fun v i => (v.1.eraseIdx i, v.2.1.eraseIdx i, v.2.2.eraseIdx i)) v =
      (indices.foldl List.eraseIdx v.1, indices.foldl List.eraseIdx v.2.1,
        indices.foldl List.eraseIdx v.2.2) := by
  induction indices generalizing v with
  | nil => rfl
  | cons i indices ih => rw [foldl_cons, ih]; rfl

theorem removeCommonZeros_range (n : ℕ) (d g l : ℕ → ℕ) :
    removeCommonZeros ((range n).map d) ((range n).map g) ((range n).map l) =
      (((range n).filter fun i => ¬(d i = 0 ∧ g i = 0 ∧ l i = 0)).map d,
        ((range n).filter fun i => ¬(d i = 0 ∧ g i = 0 ∧ l i = 0)).map g,
        ((range n).filter fun i => ¬(d i = 0 ∧ g i = 0 ∧ l i = 0)).map l) := by
  have hlen : ∀ f : ℕ → ℕ, ((range n).map f).length = n := fun f => by
    rw [length_map, length_range]
  have hzero : ((range n).filter fun i => ((range n).map d).getD i 0 = 0 ∧
      ((range n).map g).getD i 0 = 0 ∧ ((range n).map l).getD i 0 = 0) =
      (range n).filter fun i => d i = 0 ∧ g i = 0 ∧ l i = 0 := by
    refine filter_congr fun i hi => ?_
    have hin := mem_range.mp hi
    rw [getD_map_range _ hin, getD_map_range _ hin, getD_map_range _ hin]
  have hkeep : ((range n).filter fun i => ¬(d i = 0 ∧ g i = 0 ∧ l i = 0)) =
      (range n).filter fun i => !decide (d i = 0 ∧ g i = 0 ∧ l i = 0) :=
    filter_congr fun i _ => decide_not
  have herase := fun f : ℕ → ℕ =>
    foldl_eraseIdx_range f (fun i => decide (d i = 0 ∧ g i = 0 ∧ l i = 0)) n []
  simp only [append_nil] at herase
  unfold removeCommonZeros
  rw [if_neg (by rw [hlen, hlen, hlen]; simp), hlen]
  simp only
  rw [hzero, foldl_erase3, hkeep, herase, herase, herase]

/-! ## Counts and plans of one layout -/

/-- the three tables of the client hold the blocks of each group; there may be entries beyond the
groups of the placement -/
structure CountTables (cfg : SysConfig) (group : ℕ → ℤ) (count : ℕ) : Prop where
  le : numGroups cfg group ≤ count
  data : getDataBlockNumPerGroup cfg.codeType cfg.k cfg.r cfg.z =
    (range count).map fun g => (groupPart group 0 cfg.k g).length
  globals : getGlobalParityBlockNumPerGroup cfg.codeType cfg.k cfg.r cfg.z =
    (range count).map fun g => (groupPart group cfg.k cfg.r g).length
  locals : getLocalParityBlockNumPerGroup cfg.codeType cfg.k cfg.r cfg.z =
    (range count).map fun g => (groupPart group (cfg.k + cfg.r) cfg.z g).length

def subGroups (cfg : SysConfig) (group : ℕ → ℤ) (m : ℕ) : List ℕ :=
  (range (numGroups cfg group)).filter fun g => (groupPiece cfg group m g).ids ≠ []

def subPieces (cfg : SysConfig) (group : ℕ → ℤ) (m : ℕ) : List Piece :=
  (subGroups cfg group m).map (groupPiece cfg group m)

section
variable {cfg : SysConfig} {group : ℕ → ℤ} {m count g : ℕ}

theorem groupPart_eq_nil {start len : ℕ} (h : SetLayout cfg group) (hg : numGroups cfg group ≤ g)
    (hlen : start + len ≤ cfg.n) : groupPart group start len g = [] := by
  refine eq_nil_iff_forall_not_mem.mpr fun b hb => ?_
  obtain ⟨⟨-, hlt⟩, hbg⟩ := mem_groupPart.mp hb
  have hbound := (h.bounds b (by omega)).2
  omega

theorem groupPart_filter_lt (hm : m ≤ cfg.k) :
    (groupPart group 0 cfg.k g).filter (fun b => b < m) = groupPart group 0 m g := by
  have hrange := filter_lt_range' 0 cfg.k m
  rw [Nat.sub_zero, min_eq_left hm] at hrange
  unfold groupPart
  rw [filter_comm, hrange]

theorem subsetBlocks_eq (hm : m ≤ cfg.k) : subsetBlocks cfg.k m (bucket (groupToBlocks cfg.n group) g) =
    (groupPiece cfg group m g).ids := by
  have hdata : (groupPart group 0 cfg.k g).filter (fun b => ¬(b < cfg.k ∧ m ≤ b)) =
      groupPart group 0 m g := by
    rw [← groupPart_filter_lt hm]
    refine filter_congr fun b hb => ?_
    obtain ⟨⟨-, hlt⟩, -⟩ := mem_groupPart.mp hb
    rw [decide_eq_decide]
    omega
  have hparity : ∀ start len, cfg.k ≤ start → (groupPart group start len g).filter
      (fun b => ¬(b < cfg.k ∧ m ≤ b)) = groupPart group start len g := by
    intro start len hstart
    refine filter_eq_self.mpr fun b hb => ?_
    obtain ⟨⟨hle, -⟩, -⟩ := mem_groupPart.mp hb
    rw [decide_eq_true_eq]
    omega
  unfold subsetBlocks
  rw [bucket_eq_parts, filter_append, filter_append, hdata, hparity _ _ le_rfl,
    hparity _ _ le_self_add]
  rfl

theorem SetLayout.subPiecesOf (h : SetLayout cfg group) (hm : m ≤ cfg.k) :
    PiecesOf cfg m (subPieces cfg group m) := by
  have hof := h.piecesOf hm
  have hempty : ∀ g, decide ((groupPiece cfg group m g).ids ≠ []) = false →
      (groupPiece cfg group m g).ids = [] := fun g hg => not_not.mp (of_decide_eq_false hg)
  have hkeep : ∀ part : Piece → List ℕ, (∀ p : Piece, p.ids = [] → part p = []) →
      (subPieces cfg group m).flatMap part =
        ((range (numGroups cfg group)).map (groupPiece cfg group m)).flatMap part := by
    intro part hpart
    rw [subPieces, flatMap_map, flatMap_map, subGroups]
    exact flatMap_filter_of_nil fun g _ hg => hpart _ (hempty g hg)
  have hids : ∀ p : Piece, p.ids = [] → p.dataIds = [] ∧ p.globalIds = [] ∧ p.localIds = [] := by
    intro p hp
    rw [Piece.ids, append_eq_nil_iff, append_eq_nil_iff] at hp
    exact ⟨hp.1.1, hp.1.2, hp.2⟩
  refine ⟨hm, ?_, ?_, ?_⟩
  · rw [hkeep _ fun p hp => (hids p hp).1, hof.data]
  · rw [hkeep _ fun p hp => (hids p hp).2.1, hof.globals]
  · rw [hkeep _ fun p hp => (hids p hp).2.2, hof.locals]

theorem CountTables.counts_eq (ht : CountTables cfg group count) (h : SetLayout cfg group)
    (hm : m ≤ cfg.k) :
    removeCommonZeros (capCounts m (getDataBlockNumPerGroup cfg.codeType cfg.k cfg.r cfg.z))
        (getGlobalParityBlockNumPerGroup cfg.codeType cfg.k cfg.r cfg.z)
        (getLocalParityBlockNumPerGroup cfg.codeType cfg.k cfg.r cfg.z) =
      ((subPieces cfg group m).map (·.dataIds.length), (subPieces cfg group m).map (·.globalIds.length),
        (subPieces cfg group m).map (·.localIds.length)) := by
  have hn : cfg.n = cfg.k + cfg.r + cfg.z := rfl
  have hflat : ((range count).map (groupPart group 0 cfg.k)).flatten = range' 0 cfg.k := by
    rw [← flatMap_def]
    refine flatMap_groupPart (fun i j hij hj => ?_) fun b _ hb => ?_
    · rw [zero_add, zero_add]
      exact h.data_sorted i j hij hj
    · have hle := ht.le
      obtain ⟨h0, hlt⟩ := h.bounds b (by omega)
      omega
  have hcap := capCounts_eq (m := m) hflat
  rw [Nat.sub_zero, List.map_map, List.map_map] at hcap
  have hcap' : capCounts m (getDataBlockNumPerGroup cfg.codeType cfg.k cfg.r cfg.z) =
      (range count).map fun g => (groupPart group 0 m g).length := by
    rw [ht.data]
    refine hcap.trans (map_congr_left fun g _ => ?_)
    rw [Function.comp_apply, groupPart_filter_lt hm]
  -- the entries that are zero in all tables are those of the empty pieces
  have hgroups : ((range count).filter fun g => ¬((groupPart group 0 m g).length = 0 ∧
      (groupPart group cfg.k cfg.r g).length = 0 ∧
      (groupPart group (cfg.k + cfg.r) cfg.z g).length = 0)) = subGroups cfg group m := by
    obtain ⟨extra, hextra⟩ := exists_add_of_le ht.le
    rw [hextra, range_add, filter_append, subGroups]
    have hrest : ((range extra).map (numGroups cfg group + ·)).filter (fun g =>
        ¬((groupPart group 0 m g).length = 0 ∧ (groupPart group cfg.k cfg.r g).length = 0 ∧
          (groupPart group (cfg.k + cfg.r) cfg.z g).length = 0)) = [] := by
      refine filter_eq_nil_iff.mpr fun g hg => ?_
      obtain ⟨i, -, rfl⟩ := List.mem_map.mp hg
      have hle := Nat.le_add_right (numGroups cfg group) i
      rw [groupPart_eq_nil h hle (by omega), groupPart_eq_nil h hle (by omega),
        groupPart_eq_nil h hle (by omega)]
      simp
    rw [hrest, append_nil]
    refine filter_congr fun g _ => ?_
    rw [decide_eq_decide, Ne, length_eq_zero_iff, length_eq_zero_iff,
      length_eq_zero_iff]
    show _ ↔ ¬(groupPart group 0 m g ++ groupPart group cfg.k cfg.r g ++
      groupPart group (cfg.k + cfg.r) cfg.z g = [])
    rw [append_eq_nil_iff, append_eq_nil_iff, and_assoc]
  rw [hcap', ht.globals, ht.locals, removeCommonZeros_range, hgroups]
  simp only [subPieces, List.map_map]
  rfl

end

section
variable {cfg : SysConfig} {group : ℕ → ℤ} {m count stripeId : ℕ} {buffer : List UInt8}
  {plans : List AppendStripeDataPlacement}

theorem clientSubSet_stores (h : SetLayout cfg group) (ht : CountTables cfg group count)
    (hc : cfg.codeType ≠ .gLRC) (hm : m ≤ cfg.k) (hbuf : buffer.length = cfg.blockSize * cfg.n)
    (hplans : Forall₂ (fun p plan => BlockPlan cfg stripeId p.ids plan)
      (subPieces cfg group m) plans)
    (hsmall : ∀ p ∈ subPieces cfg group m, p.ids.length * cfg.blockSize < 2 ^ 32) :
    ∃ run, Client.subSet cfg (readyReply plans) m buffer = some run ∧
      SetStores cfg stripeId m buffer plans run := by
  have hof := h.subPiecesOf hm
  obtain ⟨run, hrun, hstores⟩ := cutAndSend_stores_iff hof hbuf (fun data =>
    partialEncodeWith (genMatrix cfg.codeType) cfg.k cfg.r cfg.z m data cfg.blockSize)
    (cutsInto_lengths _) (partialEncodeWith_eq (setData_blocks hof hbuf) hm) hplans
  refine ⟨run, ?_, hstores.mpr fun p hp => sentWhole_of_lt ?_⟩
  · unfold Client.subSet
    rw [if_neg hc, ht.counts_eq h hm]
    exact hrun
  · have hlen : ∀ b ∈ p.ids,
        (setBlock cfg m (subPieces cfg group m) buffer b).length = cfg.blockSize :=
      fun b hb => length_setBlock hof hbuf (hof.lt (mem_flatMap.mpr ⟨p, hp, hb⟩))
    rw [length_flatMap, map_congr_left hlen, map_const', sum_replicate_nat]
    exact hsmall p hp

end

/-! ## UniLRC and AzureLRC -/

section
variable {cfg : SysConfig} {group : ℕ → ℤ} {count : ℕ}

theorem SetLayout.countTables (h : SetLayout cfg group) (hle : numGroups cfg group ≤ count)
    (hd : (getDataBlockNumPerGroup cfg.codeType cfg.k cfg.r cfg.z).length = count)
    (hg : (getGlobalParityBlockNumPerGroup cfg.codeType cfg.k cfg.r cfg.z).length = count)
    (hl : (getLocalParityBlockNumPerGroup cfg.codeType cfg.k cfg.r cfg.z).length = count)
    (hrest : ∀ i, numGroups cfg group ≤ i → i < count →
      (getDataBlockNumPerGroup cfg.codeType cfg.k cfg.r cfg.z)[i]? = some 0 ∧
      (getGlobalParityBlockNumPerGroup cfg.codeType cfg.k cfg.r cfg.z)[i]? = some 0 ∧
      (getLocalParityBlockNumPerGroup cfg.codeType cfg.k cfg.r cfg.z)[i]? = some 0) :
    CountTables cfg group count := by
  have hn : cfg.n = cfg.k + cfg.r + cfg.z := rfl
  have htable : ∀ {table : List ℕ} {num : ℕ → ℕ} {part : ℕ → List ℕ}, table.length = count →
      (∀ i < numGroups cfg group, table[i]? = some (num i)) → (∀ i, num i = (part i).length) →
      (∀ i, numGroups cfg group ≤ i → i < count → table[i]? = some 0) →
      (∀ i, numGroups cfg group ≤ i → part i = []) →
      table = (range count).map fun i => (part i).length := by
    intro table num part hlen hin hnum hout hnil
    apply ext_getElem?
    intro i
    by_cases hi : i < count
    · rw [getElem?_map, getElem?_range hi, map_some]
      by_cases hig : i < numGroups cfg group
      · rw [hin i hig, hnum]
      · rw [hout i (by omega) hi, hnil i (by omega), length_nil]
    · rw [getElem?_eq_none (by omega),
        getElem?_eq_none (by rw [length_map, length_range]; omega)]
  refine ⟨hle, ?_, ?_, ?_⟩
  · exact htable hd h.data_num groupDataNum_eq (fun i hi hlt => (hrest i hi hlt).1)
      fun i hi => groupPart_eq_nil h hi (by omega)
  · exact htable hg h.global_num groupGlobalNum_eq (fun i hi hlt => (hrest i hi hlt).2.1)
      fun i hi => groupPart_eq_nil h hi (by omega)
  · exact htable hl h.local_num groupLocalNum_eq (fun i hi hlt => (hrest i hi hlt).2.2)
      fun i hi => groupPart_eq_nil h hi (by omega)

/-- the codes of the partial encoders, with full groups -/
def SubsetCode (cfg : SysConfig) : Prop :=
  (cfg.codeType = .UniLRC ∧ cfg.z ∣ cfg.k ∧ cfg.z ∣ cfg.r) ∨ (cfg.codeType = .AzureLRC ∧ cfg.z ∣ cfg.k)

theorem length_map_range_append (n f x : ℕ) :
    ((range n).map (fun _ => f) ++ [x]).length = n + 1 := by
  rw [length_append, length_map, length_range]
  rfl

theorem unilrc_countTables (hc : cfg.codeType = .UniLRC) (hk : cfg.z ∣ cfg.k) (hr : cfg.z ∣ cfg.r)
    (h : SetLayout cfg fun i => (unilrcAndAzurelrcGroup .UniLRC cfg.k cfg.r cfg.z i : ℤ)) :
    CountTables cfg (fun i => (unilrcAndAzurelrcGroup .UniLRC cfg.k cfg.r cfg.z i : ℤ)) cfg.z := by
  have hcount : numGroups cfg (fun i => (unilrcAndAzurelrcGroup .UniLRC cfg.k cfg.r cfg.z i : ℤ)) =
      cfg.z := (if_neg (by rw [hc]; decide)).trans (unilrc_covers hk hr).numGroups
  apply h.countTables (le_of_eq hcount)
  · rw [hc]
    exact (length_map _).trans length_range
  · rw [hc]
    exact (length_map _).trans length_range
  · rw [hc]
    exact (length_map _).trans length_range
  · intro i hi hlt
    omega

theorem azurelrc_countTables (hc : cfg.codeType = .AzureLRC) (hk : cfg.z ∣ cfg.k)
    (h : SetLayout cfg fun i => (unilrcAndAzurelrcGroup .AzureLRC cfg.k cfg.r cfg.z i : ℤ)) :
    CountTables cfg (fun i => (unilrcAndAzurelrcGroup .AzureLRC cfg.k cfg.r cfg.z i : ℤ))
      (cfg.z + 1) := by
  have hcount : numGroups cfg (fun i => (unilrcAndAzurelrcGroup .AzureLRC cfg.k cfg.r cfg.z i : ℤ)) =
      if cfg.r = 0 then cfg.z else cfg.z + 1 :=
    (if_neg (by rw [hc]; decide)).trans (azurelrc_covers_dvd hk).numGroups
  apply h.countTables
  · rw [hcount]
    split <;> omega
  · rw [hc]
    exact length_map_range_append _ _ _
  · rw [hc]
    exact length_map_range_append _ _ _
  · rw [hc]
    exact length_map_range_append _ _ _
  · intro i hi hlt
    -- only without global parities is there an entry too many, the last one
    have hr : cfg.r = 0 := by
      by_contra hr
      rw [hcount, if_neg hr] at hi
      omega
    rw [hcount, if_pos hr] at hi
    obtain rfl : i = cfg.z := by omega
    have hlast : ∀ f x : ℕ, ((range cfg.z).map (fun _ => f) ++ [x])[cfg.z]? = some x := by
      intro f x
      rw [getElem?_append_right (by rw [length_map, length_range]),
        length_map, length_range, Nat.sub_self]
      rfl
    rw [hc]
    exact ⟨hlast _ 0, (hlast _ cfg.r).trans (congrArg some hr), hlast _ 0⟩

theorem SubsetCode.layout (hcode : SubsetCode cfg) (hg : map2group cfg = some group) :
    SetLayout cfg group ∧ ∃ count, CountTables cfg group count := by
  unfold map2group at hg
  rcases hcode with ⟨hc, hk, hr⟩ | ⟨hc, hk⟩
  · simp only [hc, ite_none_left_eq_some, some.injEq, not_or] at hg
    obtain ⟨⟨hk0, hr0⟩, rfl⟩ := hg
    have hlayout := unilrc_layout hc hk hr hk0 hr0 rfl
    exact ⟨hlayout, cfg.z, unilrc_countTables hc hk hr hlayout⟩
  · simp only [hc, ite_none_left_eq_some, some.injEq] at hg
    obtain ⟨hk0, rfl⟩ := hg
    have hcov : Covers cfg.n _ _ := azurelrc_covers_dvd hk
    have hcount : numGroups cfg (fun i => (unilrcAndAzurelrcGroup .AzureLRC cfg.k cfg.r cfg.z i : ℤ)) =
        _ := (if_neg (by rw [hc]; decide)).trans hcov.numGroups
    have hlayout := azurelrc_layout hc hk hk0 rfl (by rw [hcount]; exact hcov)
    exact ⟨hlayout, cfg.z + 1, azurelrc_countTables hc hk hlayout⟩

end

section
variable {cfg : SysConfig} {topo : Topology} {group : ℕ → ℤ} {s s' : Coordinator} {stripeId m : ℕ}
  {key : String} {bs : List Block} {stripe : Stripe} {plans : List AppendStripeDataPlacement}
  (h : Placed cfg topo group s stripeId key bs s' stripe)
  (hplans : generateSubAddPlans cfg stripe (cfg.blockSize * m) = some plans)
include h hplans

theorem subset_plans (hm : m ≤ cfg.k) (hsmall : ∀ g < stripe.numGroups,
      (subsetBlocks cfg.k m (stripe.group g)).length * cfg.blockSize < 2 ^ 32) :
    Forall₂ (fun p plan => BlockPlan cfg stripeId p.ids plan) (subPieces cfg group m) plans ∧
      ∀ p ∈ subPieces cfg group m, p.ids.length * cfg.blockSize < 2 ^ 32 := by
  obtain ⟨hbs, hall⟩ := generateSubAddPlans_some h hplans
  have hids : ∀ g, subsetBlocks cfg.k m (stripe.group g) = (groupPiece cfg group m g).ids := by
    intro g
    rw [h.group_eq_bucket, subsetBlocks_eq hm]
  have hgroups : ((range stripe.numGroups).filter fun g =>
      (subsetBlocks cfg.k m (stripe.group g)).length * cfg.blockSize % 2 ^ 32 ≠ 0) =
      subGroups cfg group m := by
    rw [subGroups, ← h.numGroups_eq]
    refine filter_congr fun g hg => ?_
    rw [Nat.mod_eq_of_lt (hsmall g (mem_range.mp hg)), hids, decide_eq_decide, Ne, Ne,
      Nat.mul_eq_zero, or_iff_left hbs.ne', length_eq_zero_iff]
  have hlt : ∀ g ∈ subGroups cfg group m, (groupPiece cfg group m g).ids.length * cfg.blockSize < 2 ^ 32 := by
    intro g hg
    rw [← hids]
    refine hsmall g ?_
    rw [h.numGroups_eq]
    exact mem_range.mp (mem_of_mem_filter hg)
  rw [hgroups] at hall
  simp only [hids] at hall
  constructor
  · rw [subPieces, forall₂_map_left_iff]
    refine forall₂_iff_get.mpr ⟨hall.length_eq, fun i hi hi' => ?_⟩
    obtain ⟨hsize, hslices⟩ := (forall₂_iff_get.mp hall).2 i hi hi'
    exact ⟨hslices, by rw [hsize, Nat.mod_eq_of_lt (hlt _ (List.get_mem _ ⟨i, hi⟩))]⟩
  · exact List.forall_mem_map.mpr hlt

theorem subset_plans_small {buffer : List UInt8} {run : SetRun}
    (hstores : SetStores cfg stripeId m buffer plans run) (g : ℕ) :
    (subsetBlocks cfg.k m (stripe.group g)).length * cfg.blockSize < 2 ^ 32 := by
  obtain ⟨-, hall⟩ := generateSubAddPlans_some h hplans
  by_contra hge
  -- some block of the group is in a plan, which is the plan of the group
  have hpos : 0 < (subsetBlocks cfg.k m (stripe.group g)).length * cfg.blockSize := by omega
  obtain ⟨b, hb⟩ := exists_mem_of_length_pos (Nat.pos_of_mul_pos_right hpos)
  have hmem : ∀ i : ℕ, b ∈ subsetBlocks cfg.k m (stripe.group i) →
      b < cfg.n ∧ group b = i ∧ ¬(b < cfg.k ∧ m ≤ b) := by
    intro i hi
    obtain ⟨hi, hkeep⟩ := mem_filter.mp hi
    rw [h.group_eq_bucket, groupToBlocks, bucket_collect, mem_filter, mem_range] at hi
    exact ⟨hi.1, of_decide_eq_true hi.2, of_decide_eq_true hkeep⟩
  obtain ⟨hn, hbg, hkeep⟩ := hmem g hb
  have hstored : b ∈ range m ++ range' cfg.k (cfg.r + cfg.z) := by
    have hsum : cfg.n = cfg.k + cfg.r + cfg.z := rfl
    rw [mem_append, mem_range, mem_range'_1]
    omega
  obtain ⟨plan, hplan, hbp⟩ := mem_flatMap.mp (hstores.ids.mem_iff.mpr hstored)
  obtain ⟨i, -, hsize, hslices⟩ := forall₂_mem_right hall hplan
  rw [hslices.ids_eq] at hbp
  obtain rfl : i = g := by
    have := (hmem i hbp).2.1
    omega
  obtain ⟨stream, -, hcarry⟩ := forall₂_mem_left hstores.streams hplan
  obtain ⟨offs, hoffs, -⟩ := bind_eq_some_iff.mp hcarry.split
  rw [splitCharPointer_eq, ite_none_right_eq_some, hslices.sizes, hslices.count, sum_replicate_nat]
    at hoffs
  have hlt := Nat.mod_lt ((subsetBlocks cfg.k m (stripe.group i)).length * cfg.blockSize)
    (show 0 < 2 ^ 32 by decide)
  omega

end

/-- **Main result.** A subset that the coordinator has planned stores a stripe padded with zeros (the
cuts of the client are those of the plans, and the parities are those of the full encoder) exactly when
the size of each plan fits an `unsigned int`. -/
theorem subset_stores_padded_iff (cfg : SysConfig) (hcode : SubsetCode cfg) (m : ℕ) (hm : m ≤ cfg.k)
    (topo : Topology) (s s' : Coordinator) (clientId : String) (draws : List ℕ) (ready : ℕ → Bool)
    (reply : UploadReply)
    (h : uploadSubsetValue cfg topo s clientId (cfg.blockSize * m) draws ready = some (s', reply))
    (hok : reply.status = .OK) (buffer : List UInt8)
    (hbuf : buffer.length = cfg.blockSize * cfg.n) :
    ∃ stripe plans, s'.stripeTable s.curStripeId = some stripe ∧
      generateSubAddPlans cfg stripe (cfg.blockSize * m) = some plans ∧
      ((∃ run, Client.subSet cfg reply m buffer = some run ∧
          SetStores cfg s.curStripeId m buffer plans run) ↔
        ∀ g < stripe.numGroups,
          (subsetBlocks cfg.k m (stripe.group g)).length * cfg.blockSize < 2 ^ 32) := by
  unfold uploadSubsetValue at h
  rw [ite_none_right_eq_some] at h
  obtain ⟨group, bs, t, stripe, plans, hdone⟩ := uploadNewStripe_ok h.2 hok
  obtain ⟨hlayout, count, htables⟩ := hcode.layout hdone.group_eq
  have hc : cfg.codeType ≠ .gLRC := by
    rcases hcode with ⟨hc, -⟩ | ⟨hc, -⟩
    · rw [hc]
      decide
    · rw [hc]
      decide
  refine ⟨stripe, plans, ?_, hdone.plans_eq, ?_, fun hsmall => ?_⟩
  · rw [hdone.table, Function.update_self]
  · rintro ⟨run, -, hstores⟩ g -
    exact subset_plans_small hdone.placed hdone.plans_eq hstores g
  · obtain ⟨hpieces, hlt⟩ := subset_plans hdone.placed hdone.plans_eq hm hsmall
    rw [hdone.reply_eq]
    exact clientSubSet_stores hlayout htables hc hm hbuf hpieces hlt

theorem subset_stores_padded_unilrc :
    ∃ s' reply, uploadSubsetValue unilrcConfig clustersOfFour {} "c" 2 [0, 0, 1, 1, 2, 2]
        (fun _ => true) = some (s', reply) ∧
      ∃ stripe plans run, s'.stripeTable 0 = some stripe ∧
        generateSubAddPlans unilrcConfig stripe 2 = some plans ∧
        Client.subSet unilrcConfig reply 1 [1, 2, 0, 0, 0, 0, 0, 0, 0, 0, 0, 0] = some run ∧
        SetStores unilrcConfig 0 1 [1, 2, 0, 0, 0, 0, 0, 0, 0, 0, 0, 0] plans run := by
  have hrun : ((uploadSubsetValue unilrcConfig clustersOfFour {} "c" 2 [0, 0, 1, 1, 2, 2]
      fun _ => true).map fun p => (p.2.status, (p.1.stripeTable 0).map fun stripe =>
        (range stripe.numGroups).map fun g => (subsetBlocks 2 1 (stripe.group g)).length)) =
      some (.OK, some [3, 2]) := by decide +kernel
  obtain ⟨⟨s', reply⟩, h, hpair⟩ := map_eq_some_iff.mp hrun
  rw [Prod.mk.injEq] at hpair
  obtain ⟨stripe, plans, htable, hplans, hiff⟩ := subset_stores_padded_iff unilrcConfig
    (.inl ⟨rfl, by decide, by decide⟩) 1 (by decide) _ _ _ _ _ _ _ h hpair.1
    [1, 2, 0, 0, 0, 0, 0, 0, 0, 0, 0, 0] rfl
  have hcounts := hpair.2
  rw [htable, map_some, some.injEq] at hcounts
  obtain ⟨run, hset, hstores⟩ := hiff.mpr fun g hg => by
    have hmem := List.mem_map_of_mem (f := fun g => (subsetBlocks 2 1 (stripe.group g)).length)
      (mem_range.mpr hg)
    rw [hcounts] at hmem
    exact (show ∀ n ∈ [3, 2], n * unilrcConfig.blockSize < 2 ^ 32 by decide) _ hmem
  exact ⟨s', reply, h, stripe, plans, run, htable, hplans, hset, hstores⟩

/-- the plans of the three blocks of each group, 4.5 GiB, have a size of 0.5 GiB -/
theorem wide_subset_refused :
    validateConfig wideConfig = true ∧
    ∃ s' reply stripe plans, uploadSubsetValue wideConfig clustersOfFour {} "c" 3221225472
        [0, 0, 1, 1, 2, 2] (fun _ => true) = some (s', reply) ∧ reply.status = .OK ∧
      reply.clusterSliceSizes = [536870912, 536870912] ∧ s'.stripeTable 0 = some stripe ∧
      generateSubAddPlans wideConfig stripe 3221225472 = some plans ∧
      ∀ buffer run, ¬SetStores wideConfig 0 2 buffer plans run := by
  have hrun : ((uploadSubsetValue wideConfig clustersOfFour {} "c" 3221225472 [0, 0, 1, 1, 2, 2]
      fun _ => true).map fun p => (p.2.status, p.2.clusterSliceSizes, (p.1.stripeTable 0).map fun
        stripe => (subsetBlocks 2 2 (stripe.group 0)).length)) =
      some (.OK, [536870912, 536870912], some 3) := by decide +kernel
  obtain ⟨⟨s', reply⟩, h, hpair⟩ := map_eq_some_iff.mp hrun
  rw [Prod.mk.injEq, Prod.mk.injEq] at hpair
  obtain ⟨hok, hsizes, hcount⟩ := hpair
  have hnew := h
  unfold uploadSubsetValue at hnew
  rw [ite_none_right_eq_some] at hnew
  obtain ⟨group, bs, t, stripe, plans, hdone⟩ := uploadNewStripe_ok hnew.2 hok
  have htable : s'.stripeTable 0 = some stripe := by
    rw [hdone.table]
    exact Function.update_self ..
  rw [htable, map_some, some.injEq] at hcount
  refine ⟨by decide, s', reply, stripe, plans, h, hok, hsizes, htable, hdone.plans_eq,
    fun buffer run hstores => ?_⟩
  have hlt := subset_plans_small hdone.placed (m := 2) hdone.plans_eq hstores 0
  have hthree : (subsetBlocks wideConfig.k 2 (stripe.group 0)).length = 3 := hcount
  rw [hthree] at hlt
  exact absurd hlt (by decide)

end Mlrc
