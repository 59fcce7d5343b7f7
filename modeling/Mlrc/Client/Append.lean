import Mlrc.Client.Pieces
import Mlrc.Coordinator.AppendLayout

/-!
# An append at the client

The coordinator and the client compute the slices of an append each for itself.  The client cuts the
buffer of every group by its own sizes and finds the parities behind the data slices of the group.

* `Client.getAppendSlicePlans`   the sizes at the client;
* `Client.splitForAppendDataAndParity`   the cut of the buffers;
* `dataSliceSizes_eq`, `clientParitySlice_eq`   the two computations agree, piece by piece;
* `AppendAgreement`   what agreement means for an append;
* `client_append_agrees_iff`   which appends to a UniLRC stripe have it.
-/

namespace Mlrc

open Function List

/-! ## The sizes at the client -/

/-- the result of `get_append_slice_plans` and its output parameters -/
structure AppendSlicePlans where
  startDataBlockId : ℕ
  nodeSliceSizesPerCluster : List (List ℕ)
  modifiedDataBlockNumsPerCluster : List ℕ
  dataPtrSizeArray : List ℕ
  paritySliceSize : ℕ
  paritySliceOffset : ℕ
deriving DecidableEq, Repr

namespace Client

/-- `parity_slice_size` and `parity_slice_offset` -/
def paritySlice (appendMode : AppendMode) (unitSize k currLogicalOffset appendSize : ℕ) : ℕ × ℕ :=
  let numUnitStripes := (currLogicalOffset + appendSize - 1) / (unitSize * k) -
    currLogicalOffset / (unitSize * k) + 1
  let numUnits := (currLogicalOffset + appendSize - 1) / unitSize - currLogicalOffset / unitSize + 1
  let slice := (numUnitStripes * unitSize, currLogicalOffset / (unitSize * k) * unitSize)
  if appendMode = .UNILRC_MODE then
    let slice := if numUnits = 1 then (appendSize, slice.2 + currLogicalOffset % unitSize) else slice
    let last := (currLogicalOffset + appendSize - 1) % (unitSize * k)
    if 1 < numUnitStripes ∧ last < unitSize - 1 then
      ((numUnitStripes - 1) * unitSize + last + 1, slice.2)
    else slice
  else slice

/-- the `while` loop of `get_append_slice_plans`; as at the coordinator, `append_size` rounds are
enough -/
def dataSliceSizes (unitSize k currLogicalOffset appendSize : ℕ) :
    ℕ → ℕ → ℕ → (ℕ → Option ℕ) → ℕ → Option ℕ
  | 0, _, _, sizes => sizes
  | fuel + 1, tmpSize, currBlockId, sizes =>
    if tmpSize = 0 then sizes
    else
      let subSliceSize :=
        if tmpSize = appendSize ∧ currLogicalOffset % unitSize ≠ 0 then
          min (unitSize - currLogicalOffset % unitSize) appendSize
        else min unitSize tmpSize
      let entry := match sizes currBlockId with
        | none => subSliceSize
        | some size => size + subSliceSize
      dataSliceSizes unitSize k currLogicalOffset appendSize fuel (tmpSize - subSliceSize)
        ((currBlockId + 1) % k) (update sizes currBlockId (some entry))

def blockToSliceSizes (cfg : SysConfig) (currLogicalOffset appendSize paritySliceSize : ℕ) :
    ℕ → Option ℕ :=
  let sizes := dataSliceSizes cfg.unitSize cfg.k currLogicalOffset appendSize appendSize appendSize
    ((currLogicalOffset / cfg.unitSize) % cfg.k) fun _ => none
  fun i => if cfg.k ≤ i ∧ i < cfg.n then some paritySliceSize else sizes i

/-- `get_append_slice_plans`; `none` for a mode that the assertion excludes and when an `int`
overflows -/
def getAppendSlicePlans (cfg : SysConfig) (appendMode : AppendMode)
    (currLogicalOffset appendSize : ℕ) : Option AppendSlicePlans :=
  if (appendMode = .UNILRC_MODE ∨ appendMode = .CACHED_MODE) ∧ currLogicalOffset + appendSize < 2 ^ 31 ∧
      cfg.unitSize * cfg.k < 2 ^ 31 ∧ cfg.z * cfg.k < 2 ^ 31 then
    let parity := paritySlice appendMode cfg.unitSize cfg.k currLogicalOffset appendSize
    let sizes := blockToSliceSizes cfg currLogicalOffset appendSize parity.1
    let dataSizes := fun i => (groupInterval cfg.z cfg.k i).filterMap sizes
    let paritySizes := fun i =>
      (groupInterval cfg.z cfg.r i).map (fun j => (sizes (cfg.k + j)).getD 0) ++
        (groupInterval cfg.z cfg.z i).map fun j => (sizes (cfg.k + cfg.r + j)).getD 0
    some {
      startDataBlockId := (currLogicalOffset / cfg.unitSize) % cfg.k
      nodeSliceSizesPerCluster := (range cfg.z).map fun i => dataSizes i ++ paritySizes i
      modifiedDataBlockNumsPerCluster := (range cfg.z).map fun i => (dataSizes i).length
      dataPtrSizeArray := (range cfg.z).flatMap dataSizes
      paritySliceSize := parity.1
      paritySliceOffset := parity.2 }
  else none

/-! ## The cut -/

/-- one round of `split_for_append_data_and_parity`; `none` when an assertion fails or an iterator
leaves its vector -/
def splitAppendGroup (cfg : SysConfig) (clusterSliceSizes clusterSliceData : List ℕ)
    (nodeSliceSizesPerCluster : List (List ℕ)) (modifiedDataBlockNumsPerCluster : List ℕ)
    (p : SetPointers) (i : ℕ) : Option SetPointers := do
  let str ← clusterSliceData[i]?
  let strSize ← clusterSliceSizes[i]?
  let nodeSliceSizes ← nodeSliceSizesPerCluster[i]?
  let modified ← modifiedDataBlockNumsPerCluster[i]?
  let nodeSlices ← splitCharPointer str strSize nodeSliceSizes
  if nodeSlices.length < modified + cfg.r / cfg.z then none
  else some {
    dataPtrArray := p.dataPtrArray ++ nodeSlices.take modified
    globalParityPtrArray :=
      p.globalParityPtrArray ++ (nodeSlices.drop modified).take (cfg.r / cfg.z)
    localParityPtrArray := p.localParityPtrArray ++ nodeSlices.drop (modified + cfg.r / cfg.z) }

def splitForAppendDataAndParity (cfg : SysConfig) (clusterSliceSizes clusterSliceData : List ℕ)
    (nodeSliceSizesPerCluster : List (List ℕ)) (modifiedDataBlockNumsPerCluster : List ℕ) :
    Option SetPointers :=
  (range clusterSliceData.length).foldlM (splitAppendGroup cfg clusterSliceSizes
    clusterSliceData nodeSliceSizesPerCluster modifiedDataBlockNumsPerCluster) ⟨[], [], []⟩

end Client

/-! ## The two computations -/

section
variable {U k o s : ℕ} {mode : AppendMode}

theorem clientParitySlice_eq (hmode : mode = .UNILRC_MODE ∨ mode = .CACHED_MODE) (hs : 0 < s) :
    paritySlice mode U k o s =
      some ((Client.paritySlice mode U k o s).1, ((Client.paritySlice mode U k o s).2 : ℤ)) := by
  have hunits : (o + s - 1) / U + 1 - o / U = (o + s - 1) / U - o / U + 1 := by
    have hle : o / U ≤ (o + s - 1) / U := Nat.div_le_div_right (by omega)
    omega
  have hstripes : (o + s - 1) / (U * k) + 1 - o / (U * k) = (o + s - 1) / (U * k) - o / (U * k) + 1 := by
    have hle : o / (U * k) ≤ (o + s - 1) / (U * k) := Nat.div_le_div_right (by omega)
    omega
  have hlast : (o + s - 1) % (U * k) + 1 < U ↔ (o + s - 1) % (U * k) < U - 1 := by omega
  unfold paritySlice Client.paritySlice
  rcases hmode with rfl | rfl
  · simp only [hunits, hstripes, hlast, if_true]
    split <;> rfl
  · simp only [hstripes, reduceCtorEq, if_false]

theorem dataSliceSizes_eq (fuel t off cur : ℕ) (sizes : ℕ → Option (ℕ × ℤ)) :
    Client.dataSliceSizes U k o s fuel t cur (fun b => (sizes b).map Prod.fst) =
      fun b => (dataSlices U k o s fuel t off cur sizes b).map Prod.fst := by
  induction fuel generalizing t off cur sizes with
  | zero => rfl
  | succ fuel ih =>
    rw [Client.dataSliceSizes, dataSlices]
    split
    · rfl
    · simp only
      rw [← ih]
      congr 1
      funext b
      by_cases hb : b = cur
      · subst hb
        rw [update_self, update_self]
        cases sizes b <;> rfl
      · rw [update_of_ne hb, update_of_ne hb]

end

section
variable {cfg : SysConfig} {o s : ℕ}

theorem clientBlockToSliceSizes_eq (parity : ℕ × ℤ) : Client.blockToSliceSizes cfg o s parity.1 =
      fun b => (blockToSliceSizes cfg o s parity b).map Prod.fst := by
  funext b
  have hdata := congrFun (dataSliceSizes_eq (U := cfg.unitSize) (k := cfg.k) (o := o) (s := s) s s o
    (o / cfg.unitSize % cfg.k) fun _ => none) b
  unfold Client.blockToSliceSizes blockToSliceSizes
  by_cases hb : cfg.k ≤ b ∧ b < cfg.n
  · rw [if_pos hb, if_pos hb]
    rfl
  · rw [if_neg hb, if_neg hb]
    exact hdata

end

theorem filterMap_eq_map_filter {α β : Type*} (f : α → Option β) (d : β) (l : List α) :
    l.filterMap f = (l.filter fun a => (f a).isSome).map fun a => (f a).getD d := by
  induction l with
  | nil => rfl
  | cons a l ih => cases h : f a <;> simp [h, ih]

/-! ## The slices of a group -/

section
variable {cfg : SysConfig} {sizes : ℕ → Option (ℕ × ℤ)}

/-- the data blocks of group `i` with a slice -/
def touchedOf (cfg : SysConfig) (sizes : ℕ → Option (ℕ × ℤ)) (i : ℕ) : List ℕ :=
  (groupInterval cfg.z cfg.k i).filter fun b => (sizes b).isSome

theorem filter_appendBlockIds (hz : 0 < cfg.z) (hk : cfg.z ∣ cfg.k) (hr : cfg.z ∣ cfg.r)
    (hparity : ∀ b, cfg.k ≤ b → b < cfg.n → (sizes b).isSome) {i : ℕ} (hi : i < cfg.z) :
    ((appendBlockIds cfg i).filter fun b => (sizes b).isSome) =
      touchedOf cfg sizes i ++ ((groupInterval cfg.z cfg.r i).map (cfg.k + ·) ++
        (groupInterval cfg.z cfg.z i).map (cfg.k + cfg.r + ·)) := by
  have hlt : ∀ b ∈ appendBlockIds cfg i, b < cfg.n := fun b => appendBlockIds_lt hz hk hr hi
  unfold appendBlockIds at hlt ⊢
  rw [append_assoc] at hlt ⊢
  rw [filter_append]
  refine congrArg (_ ++ ·) (filter_eq_self.mpr fun b hb => ?_)
  refine hparity b ?_ (hlt b (mem_append_right _ hb))
  rcases mem_append.mp hb with hb | hb
  · obtain ⟨j, -, rfl⟩ := mem_map.mp hb
    exact Nat.le_add_right ..
  · obtain ⟨j, -, rfl⟩ := mem_map.mp hb
    omega

theorem AppendPlanOf.clientSizes {p i : ℕ} {plan : AppendStripeDataPlacement}
    (h : AppendPlanOf cfg sizes p i plan)
    (hids : ((appendBlockIds cfg i).filter fun b => (sizes b).isSome) =
      touchedOf cfg sizes i ++ ((groupInterval cfg.z cfg.r i).map (cfg.k + ·) ++
        (groupInterval cfg.z cfg.z i).map (cfg.k + cfg.r + ·)))
    {table : ℕ → Option ℕ} (htable : table = fun b => (sizes b).map Prod.fst) :
    (groupInterval cfg.z cfg.k i).filterMap table ++
        ((groupInterval cfg.z cfg.r i).map (fun j => (table (cfg.k + j)).getD 0) ++
          (groupInterval cfg.z cfg.z i).map fun j => (table (cfg.k + cfg.r + j)).getD 0) =
      plan.slices.map Slice.size := by
  rw [h.sizes_eq, hids, map_append, map_append, map_map, map_map, htable,
    filterMap_eq_map_filter _ 0]
  simp only [Option.isSome_map]
  rfl

end

/-! ## Agreement -/

/-- with the buffers of the groups at `ptrs`, address `a` is where the plans have the slice of block
`b` -/
def SliceAt (plans : List AppendStripeDataPlacement) (ptrs : List ℕ) (a b : ℕ) : Prop :=
  ∃ p ∈ plans.zip ptrs,
    (a, b) ∈ (offsets p.2 (p.1.slices.map Slice.size)).zip (p.1.slices.map Slice.blockId)

/-- the data blocks with a byte of the append -/
def touchedBlocks (cfg : SysConfig) (o s : ℕ) : List ℕ :=
  (range cfg.k).filter fun b => ∃ x ∈ range' o s, column cfg.unitSize cfg.k x = b

/-- what the client computes for an append is what the plans say, and its cut of any buffers finds the
slices of the plans in the order of the blocks -/
structure AppendAgreement (cfg : SysConfig) (o s : ℕ) (c : AppendSlicePlans)
    (plans : List AppendStripeDataPlacement) : Prop where
  parity : ∀ plan ∈ plans, ∀ slice ∈ plan.slices, cfg.k ≤ slice.blockId →
    slice.size = c.paritySliceSize ∧ slice.offset = c.paritySliceOffset
  sizes : c.nodeSliceSizesPerCluster = plans.map fun plan => plan.slices.map Slice.size
  split : ∀ ptrs : List ℕ, ptrs.length = cfg.z → ∃ p,
    Client.splitForAppendDataAndParity cfg (plans.map (·.appendSize)) ptrs
      c.nodeSliceSizesPerCluster c.modifiedDataBlockNumsPerCluster = some p ∧
    Forall₂ (SliceAt plans ptrs) p.dataPtrArray (touchedBlocks cfg o s) ∧
    Forall₂ (SliceAt plans ptrs) p.globalParityPtrArray (range' cfg.k cfg.r) ∧
    Forall₂ (SliceAt plans ptrs) p.localParityPtrArray (range' (cfg.k + cfg.r) cfg.z)

section
variable {cfg : SysConfig} {plans : List AppendStripeDataPlacement} {ptrs modified : List ℕ} {i : ℕ}
  {plan : AppendStripeDataPlacement} {str : ℕ} {D G L : List ℕ}

theorem splitAppendGroup_slices (hplan : plans[i]? = some plan) (hstr : ptrs[i]? = some str)
    (hsize : plan.appendSize = (plan.slices.map Slice.size).sum)
    (hids : plan.slices.map Slice.blockId = D ++ (G ++ L)) (hG : G.length = cfg.r / cfg.z)
    (hmodified : modified[i]? = some D.length) (p : SetPointers) :
    ∃ d g l, Client.splitAppendGroup cfg (plans.map (·.appendSize)) ptrs
        (plans.map fun plan => plan.slices.map Slice.size) modified p i =
          some ⟨p.dataPtrArray ++ d, p.globalParityPtrArray ++ g, p.localParityPtrArray ++ l⟩ ∧
      Forall₂ (SliceAt plans ptrs) d D ∧ Forall₂ (SliceAt plans ptrs) g G ∧
      Forall₂ (SliceAt plans ptrs) l L := by
  set slices := offsets str (plan.slices.map Slice.size) with hslices
  have hlen : slices.length = (D ++ (G ++ L)).length := by
    rw [hslices, length_offsets, length_map, ← hids, length_map]
  have hmem : (plan, str) ∈ plans.zip ptrs :=
    mem_of_getElem? (getElem?_zip_eq_some.mpr ⟨hplan, hstr⟩)
  have hall : Forall₂ (SliceAt plans ptrs) slices (D ++ (G ++ L)) := by
    refine forall₂_iff_zip.mpr ⟨hlen, fun {a b} hab => ⟨(plan, str), hmem, ?_⟩⟩
    rwa [hids]
  have hrest := forall₂_drop_append slices D (G ++ L) hall
  have hglobal := forall₂_take_append _ G L hrest
  have hlocal := forall₂_drop_append _ G L hrest
  rw [hG] at hglobal hlocal
  rw [drop_drop] at hlocal
  refine ⟨_, _, _, ?_, forall₂_take_append slices D (G ++ L) hall, hglobal, hlocal⟩
  unfold Client.splitAppendGroup
  simp only [getElem?_map, hplan, hstr, hmodified, Option.map_some, Option.bind_eq_bind,
    Option.bind_some, splitCharPointer_eq, hsize, if_true]
  rw [← hslices, if_neg]
  rw [hlen, length_append, length_append, hG]
  omega

theorem splitForAppend_slices {D G L : ℕ → List ℕ} (hlen : plans.length = cfg.z)
    (hptrs : ptrs.length = cfg.z) (hplan : ∀ i plan, plans[i]? = some plan →
      plan.appendSize = (plan.slices.map Slice.size).sum ∧
        plan.slices.map Slice.blockId = D i ++ (G i ++ L i) ∧ (G i).length = cfg.r / cfg.z) :
    ∃ p, Client.splitForAppendDataAndParity cfg (plans.map (·.appendSize)) ptrs
        (plans.map fun plan => plan.slices.map Slice.size)
        ((range cfg.z).map fun i => (D i).length) = some p ∧
      Forall₂ (SliceAt plans ptrs) p.dataPtrArray ((range cfg.z).flatMap D) ∧
      Forall₂ (SliceAt plans ptrs) p.globalParityPtrArray ((range cfg.z).flatMap G) ∧
      Forall₂ (SliceAt plans ptrs) p.localParityPtrArray ((range cfg.z).flatMap L) := by
  unfold Client.splitForAppendDataAndParity
  rw [hptrs]
  -- after `c` rounds the slices of the first `c` groups are found
  suffices hloop : ∀ c ≤ cfg.z, ∃ p, (range c).foldlM (Client.splitAppendGroup cfg
        (plans.map (·.appendSize)) ptrs (plans.map fun plan => plan.slices.map Slice.size)
        ((range cfg.z).map fun i => (D i).length)) ⟨[], [], []⟩ = some p ∧
      Forall₂ (SliceAt plans ptrs) p.dataPtrArray ((range c).flatMap D) ∧
      Forall₂ (SliceAt plans ptrs) p.globalParityPtrArray ((range c).flatMap G) ∧
      Forall₂ (SliceAt plans ptrs) p.localParityPtrArray ((range c).flatMap L) from
    hloop cfg.z le_rfl
  intro c
  induction c with
  | zero => exact fun _ => ⟨_, rfl, .nil, .nil, .nil⟩
  | succ c ih =>
    intro hc
    obtain ⟨p, hp, hdata, hglobal, hlocal⟩ := ih (by omega)
    have hget : plans[c]? = some (plans.get ⟨c, by omega⟩) := getElem?_eq_getElem (by omega)
    obtain ⟨hsize, hids, hG⟩ := hplan c _ hget
    have hmodified : ((range cfg.z).map fun i => (D i).length)[c]? = some (D c).length := by
      rw [getElem?_map, getElem?_range (by omega)]
      rfl
    have hstr : ptrs[c]? = some (ptrs.get ⟨c, by omega⟩) := getElem?_eq_getElem (by omega)
    obtain ⟨d, g, l, hround, hd, hg, hl⟩ :=
      splitAppendGroup_slices hget hstr hsize hids hG hmodified p
    rw [foldlM_range_succ, hp, Option.bind_some, hround]
    simp only [range_succ, flatMap_append, flatMap_singleton]
    exact ⟨_, rfl, rel_append hdata hd, rel_append hglobal hg, rel_append hlocal hl⟩

end

theorem flatMap_touchedOf {cfg : SysConfig} {o s : ℕ} (hU : 0 < cfg.unitSize) (hk0 : 0 < cfg.k)
    (hz : 0 < cfg.z) (hk : cfg.z ∣ cfg.k) (hs : 0 < s) (parity : ℕ × ℤ) :
    (range cfg.z).flatMap (touchedOf cfg (blockToSliceSizes cfg o s parity)) =
      touchedBlocks cfg o s := by
  unfold touchedOf touchedBlocks
  rw [← filter_flatMap, flatMap_groupInterval hz hk]
  refine filter_congr fun b hb => ?_
  rw [mem_range] at hb
  rw [blockToSliceSizes_data hU hk0 hs _ hb, Bool.eq_iff_iff, decide_eq_true_eq]
  have htouched : (∃ x ∈ range' o s, column cfg.unitSize cfg.k x = b) ↔
      ∃ x, o ≤ x ∧ x < o + s ∧ column cfg.unitSize cfg.k x = b :=
    exists_congr fun x => by rw [mem_range'_1, and_assoc]
  rw [htouched, touched_iff hU hk0]
  unfold sliceUpTo
  rw [Option.isSome_ite]
  exact and_iff_right hb

/-- **Main result.** For an append that fits a stripe of UniLRC, the sizes at the client are those of
the plans and the client finds every slice where the plans have it, exactly when the `int` arithmetic of
the append stays in range. -/
theorem client_append_agrees_iff {cfg : SysConfig} {alpha : ℕ} (hcode : cfg.codeType = .UniLRC)
    (hk : cfg.k = alpha * cfg.z * (cfg.z - 1)) (hr : cfg.r = alpha * cfg.z)
    (hunit : cfg.unitSize ∣ cfg.blockSize)
    (hmode : cfg.appendMode = .UNILRC_MODE ∨ cfg.appendMode = .CACHED_MODE)
    {topo : Topology} {t t' : Coordinator} {stripeId : ℕ} {key : String} {draws rest : List ℕ}
    {stripe : Stripe}
    (hplaced : initializeUnilrcAndAzurelrcStripePlacement cfg topo t stripeId key draws =
      some (t', stripe, rest))
    {o s : ℕ} (hs : 0 < s) (hfit : o + s ≤ cfg.k * cfg.blockSize) :
    (∃ plans c, generateAppendPlan cfg stripe o s = some plans ∧
      Client.getAppendSlicePlans cfg cfg.appendMode o s = some c ∧ AppendAgreement cfg o s c plans) ↔
      AppendInRange cfg o s := by
  refine ⟨fun ⟨plans, c, hplans, _⟩ => .of_plans hplans, fun hrange => ?_⟩
  have hzk : cfg.z ∣ cfg.k := by
    rw [hk]
    exact Dvd.dvd.mul_right (dvd_mul_left _ _) _
  have hzr : cfg.z ∣ cfg.r := hr ▸ dvd_mul_left _ _
  have hprod : 0 < cfg.k * cfg.blockSize := by omega
  have hk0 : 0 < cfg.k := Nat.pos_of_mul_pos_right hprod
  have hU : 0 < cfg.unitSize := Nat.pos_of_dvd_of_pos hunit (Nat.pos_of_mul_pos_left hprod)
  have hz : 0 < cfg.z := Nat.pos_of_dvd_of_pos hzk hk0
  set parity := Client.paritySlice cfg.appendMode cfg.unitSize cfg.k o s with hpar
  have hparity := clientParitySlice_eq (U := cfg.unitSize) (k := cfg.k) (o := o) hmode hs
  rw [← hpar] at hparity
  obtain ⟨plans, hplans, hall⟩ := generateAppendPlan_plans (unilrc_plannable hcode hzk hzr hplaced)
    hz hzk hzr hrange hparity
  set sizes := blockToSliceSizes cfg o s (parity.1, (parity.2 : ℤ)) with hsizes
  have hslice : ∀ b, cfg.k ≤ b → b < cfg.n → sizes b = some (parity.1, (parity.2 : ℤ)) :=
    fun b => blockToSliceSizes_parity o s _
  have hof : ∀ i plan, plans[i]? = some plan → i < cfg.z ∧ AppendPlanOf cfg sizes parity.1 i plan := by
    intro i plan hi
    obtain ⟨hlt, rfl⟩ := List.getElem?_eq_some_iff.mp hi
    have hrange : i < (range cfg.z).length := hall.length_eq ▸ hlt
    have hget := hall.get hrange hlt
    rw [get_eq_getElem, getElem_range] at hget
    exact ⟨mem_range.mp (by simpa using hrange), hget⟩
  have hsome : ∀ b, cfg.k ≤ b → b < cfg.n → (sizes b).isSome := by
    intro b hkb hb
    rw [hslice b hkb hb]
    rfl
  have hids := fun i (hi : i < cfg.z) => filter_appendBlockIds hz hzk hzr hsome hi
  have htable : Client.blockToSliceSizes cfg o s parity.1 = fun b => (sizes b).map Prod.fst :=
    clientBlockToSliceSizes_eq (parity.1, (parity.2 : ℤ))
  have hnode : ((range cfg.z).map fun i =>
      (groupInterval cfg.z cfg.k i).filterMap (Client.blockToSliceSizes cfg o s parity.1) ++
        ((groupInterval cfg.z cfg.r i).map (fun j =>
            (Client.blockToSliceSizes cfg o s parity.1 (cfg.k + j)).getD 0) ++
          (groupInterval cfg.z cfg.z i).map fun j =>
            (Client.blockToSliceSizes cfg o s parity.1 (cfg.k + cfg.r + j)).getD 0)) =
      plans.map fun plan => plan.slices.map Slice.size := by
    rw [← forall₂_eq_eq_eq, forall₂_map_left_iff, forall₂_map_right_iff]
    refine forall₂_iff_get.mpr ⟨hall.length_eq, fun i hi hlt => ?_⟩
    obtain ⟨hz, hplan⟩ := hof i _ (getElem?_eq_getElem hlt)
    rw [get_eq_getElem, getElem_range]
    exact hplan.clientSizes (hids i hz) htable
  refine ⟨plans, _, hplans, if_pos ⟨hmode, hrange.2.1, hrange.2.2.1, hrange.2.2.2.1⟩,
    ⟨fun plan hplan slice hmem hkb => ?_, hnode, fun ptrs hptrs => ?_⟩⟩
  · obtain ⟨i, hi, hplan⟩ := forall₂_mem_right hall hplan
    obtain ⟨b, hb, hid, hentry⟩ := forall₂_mem_right hplan.slices hmem
    subst hid
    have hlt := appendBlockIds_lt hz hzk hzr (mem_range.mp hi) (mem_of_mem_filter hb)
    rw [hslice _ hkb hlt, Option.some.injEq, Prod.mk.injEq] at hentry
    exact ⟨hentry.1.symm, hentry.2.symm⟩
  · have hlen : plans.length = cfg.z := by rw [← hall.length_eq, length_range]
    obtain ⟨p, hp, hdata, hglobal, hlocal⟩ := splitForAppend_slices
      (D := touchedOf cfg sizes) (G := fun i => (groupInterval cfg.z cfg.r i).map (cfg.k + ·))
      (L := fun i => (groupInterval cfg.z cfg.z i).map (cfg.k + cfg.r + ·)) hlen hptrs
      fun i plan hi => by
        obtain ⟨hi, hplan⟩ := hof i plan hi
        refine ⟨appendPlanOf_size hz hzk hzr hslice hi hplan, ?_, ?_⟩
        · rw [hplan.ids_eq, hids i hi]
        · obtain ⟨m, hm⟩ := hzr
          rw [length_map, hm, groupInterval_mul hz, length_range', Nat.mul_div_cancel_left _ hz]
    rw [flatMap_touchedOf hU hk0 hz hzk hs] at hdata
    rw [← map_flatMap, flatMap_groupInterval hz hzr, ← range'_eq_map_range] at hglobal
    rw [← map_flatMap, flatMap_groupInterval hz (Nat.dvd_refl _), ← range'_eq_map_range]
      at hlocal
    refine ⟨p, ?_, hdata, hglobal, hlocal⟩
    rw [← hp]
    simp only
    rw [hnode]
    congr 1
    refine map_congr_left fun i _ => ?_
    rw [htable, filterMap_eq_map_filter _ 0, length_map]
    simp only [Option.isSome_map]
    rfl

theorem client_append_agrees_three :
    ∃ t' stripe rest plans c, initializeUnilrcAndAzurelrcStripePlacement unilrcConfig clustersOfFour {}
        0 "c" [0, 0, 1, 1, 2, 2] = some (t', stripe, rest) ∧
      generateAppendPlan unilrcConfig stripe 1 2 = some plans ∧
      Client.getAppendSlicePlans unilrcConfig unilrcConfig.appendMode 1 2 = some c ∧
      AppendAgreement unilrcConfig 1 2 c plans := by
  have hsome : (initializeUnilrcAndAzurelrcStripePlacement unilrcConfig clustersOfFour {} 0 "c"
      [0, 0, 1, 1, 2, 2]).isSome = true := by decide +kernel
  obtain ⟨⟨t', stripe, rest⟩, hplaced⟩ := Option.isSome_iff_exists.mp hsome
  have hk : unilrcConfig.k = 1 * unilrcConfig.z * (unilrcConfig.z - 1) := rfl
  obtain ⟨plans, c, hplans, hc, hagree⟩ := (client_append_agrees_iff rfl hk rfl (Nat.one_dvd _)
    (.inl rfl) hplaced (show 0 < 2 by decide) (show 1 + 2 ≤ _ by decide)).mpr (by decide)
  exact ⟨t', stripe, rest, plans, c, hplaced, hplans, hc, hagree⟩

/-- the client has slices for a byte that the coordinator does not plan -/
theorem wide_append_disagrees :
    validateConfig wideConfig = true ∧ 0 + 1 ≤ wideConfig.k * wideConfig.blockSize ∧
    (Client.getAppendSlicePlans wideConfig wideConfig.appendMode 0 1).isSome = true ∧
    ∃ t' stripe rest, initializeUnilrcAndAzurelrcStripePlacement wideConfig clustersOfFour {}
        0 "c" [0, 0, 1, 1, 2, 2] = some (t', stripe, rest) ∧
      ∀ plans, generateAppendPlan wideConfig stripe 0 1 ≠ some plans := by
  have hsome : (initializeUnilrcAndAzurelrcStripePlacement wideConfig clustersOfFour {} 0 "c"
      [0, 0, 1, 1, 2, 2]).isSome = true := by decide +kernel
  obtain ⟨⟨t', stripe, rest⟩, hplaced⟩ := Option.isSome_iff_exists.mp hsome
  refine ⟨by decide, by decide, by decide +kernel, t', stripe, rest, hplaced, fun plans hplans => ?_⟩
  exact absurd (AppendInRange.of_plans hplans) (by decide)

end Mlrc
