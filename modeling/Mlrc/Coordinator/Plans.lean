import Mlrc.Coordinator.Placement

/-!
# The plans of an upload

One plan for each group tells the proxy of a cluster which slices it will receive and on which node
each is stored under which block key.

* `generateAddPlans`, `generateSubAddPlans`   whole blocks, for a set and for a subset;
* `generateAppendPlan`   the slices of an append in units of `UnitSize`;
* `generateAddPlans_some`, `generateSubAddPlans_some`   the plans of a placed stripe, group by group.
-/

namespace Mlrc

open List Option

/-- one entry of the repeated fields of a plan -/
structure Slice where
  node : ℕ
  blockKey : String
  blockId : ℕ
  offset : ℤ
  size : ℕ
deriving DecidableEq, Repr

structure AppendStripeDataPlacement where
  key : String
  clusterId : ℕ
  stripeId : ℕ
  appendSize : ℕ
  isMergeParity : Bool
  isSerialized : Bool
  appendMode : AppendMode
  slices : List Slice
deriving DecidableEq, Repr

def addBlockToAppendPlan (block : Block) (sliceInfo : ℕ × ℤ) : Slice where
  node := block.map2node
  blockKey := block.blockKey
  blockId := block.blockId
  offset := sliceInfo.2
  size := sliceInfo.1

/-- `group_to_blocks[i]` -/
def Stripe.group (stripe : Stripe) (i : ℕ) : List ℕ := bucket stripe.groupToBlocks (i : ℤ)

/-- `stripe->blocks[stripe->group_to_blocks[i][0]]` -/
def Stripe.firstBlock (stripe : Stripe) (i : ℕ) : Option Block :=
  (stripe.group i).head?.bind fun b => stripe.blocks[b]?

def blockPlan (blockSize appendSize : ℕ) (stripe : Stripe) (i : ℕ) (blockIds : List ℕ) :
    Option AppendStripeDataPlacement := do
  let first ← stripe.firstBlock i
  let blocks ← blockIds.mapM fun b => stripe.blocks[b]?
  some {
    key := genAppendKey stripe.stripeId i
    clusterId := first.map2cluster
    stripeId := stripe.stripeId
    appendSize := appendSize
    isMergeParity := false
    isSerialized := false
    appendMode := .UNILRC_MODE
    slices := blocks.map fun block => addBlockToAppendPlan block (blockSize, 0) }

/-- `generate_add_plans`; `none` when a group has no first block -/
def generateAddPlans (cfg : SysConfig) (stripe : Stripe) : Option (List AppendStripeDataPlacement) :=
  (range stripe.numGroups).mapM fun i =>
    blockPlan cfg.blockSize ((stripe.group i).length * cfg.blockSize) stripe i (stripe.group i)

/-- the blocks of a group that a subset of `dataBlockNum` data blocks touches -/
def subsetBlocks (k dataBlockNum : ℕ) (blockIds : List ℕ) : List ℕ :=
  blockIds.filter fun b => ¬(b < k ∧ dataBlockNum ≤ b)

/-- `generate_sub_add_plans`; the size of a plan is computed as an `unsigned int`, and a group for
which it is 0 gets no plan -/
def generateSubAddPlans (cfg : SysConfig) (stripe : Stripe) (subsetSize : ℕ) :
    Option (List AppendStripeDataPlacement) :=
  let blockIds := fun i => subsetBlocks cfg.k (subsetSize / cfg.blockSize) (stripe.group i)
  let appendSize := fun i => (blockIds i).length * cfg.blockSize % 2 ^ 32
  -- the number of data blocks is a division by the block size
  if cfg.blockSize = 0 then none
  else ((range stripe.numGroups).filter fun i => appendSize i ≠ 0).mapM fun i =>
    blockPlan cfg.blockSize (appendSize i) stripe i (blockIds i)

/-! ## Appends -/

/-- `parity_slice_size` and `parity_slice_offset`; `none` for a mode without a case -/
def paritySlice (mode : AppendMode) (unitSize k currLogicalOffset appendSize : ℕ) :
    Option (ℕ × ℤ) :=
  let numUnits := (currLogicalOffset + appendSize - 1) / unitSize + 1 - currLogicalOffset / unitSize
  let numUnitStripes := (currLogicalOffset + appendSize - 1) / (unitSize * k) + 1 -
    currLogicalOffset / (unitSize * k)
  let offset := currLogicalOffset / (unitSize * k) * unitSize
  let last := (currLogicalOffset + appendSize - 1) % (unitSize * k)
  match mode with
  | .REP_MODE => some (appendSize, -1)
  | .UNILRC_MODE =>
    let slice := if numUnits = 1 then (appendSize, offset + currLogicalOffset % unitSize)
      else (numUnitStripes * unitSize, offset)
    if 1 < numUnitStripes ∧ last + 1 < unitSize then
      some ((numUnitStripes - 1) * unitSize + last + 1, (slice.2 : ℤ))
    else some (slice.1, (slice.2 : ℤ))
  | .CACHED_MODE => some (numUnitStripes * unitSize, (offset : ℤ))
  | .EQUIOX_MODE => none

/-- the `while` loop over the units of an append; every slice has at least one byte, so `append_size`
rounds are enough -/
def dataSlices (unitSize k currLogicalOffset appendSize : ℕ) :
    ℕ → ℕ → ℕ → ℕ → (ℕ → Option (ℕ × ℤ)) → ℕ → Option (ℕ × ℤ)
  | 0, _, _, _, sizes => sizes
  | fuel + 1, tmpSize, tmpOffset, currBlockId, sizes =>
    if tmpSize = 0 then sizes
    else
      let subSliceSize :=
        if tmpSize = appendSize ∧ currLogicalOffset % unitSize ≠ 0 then
          min (unitSize - currLogicalOffset % unitSize) appendSize
        else min unitSize tmpSize
      let entry := match sizes currBlockId with
        | none => (subSliceSize, ((tmpOffset % unitSize + unitSize * (tmpOffset / (k * unitSize)) : ℕ) : ℤ))
        | some (size, offset) => (size + subSliceSize, offset)
      dataSlices unitSize k currLogicalOffset appendSize fuel (tmpSize - subSliceSize)
        (tmpOffset + subSliceSize) ((currBlockId + 1) % k)
        (Function.update sizes currBlockId (some entry))

def blockToSliceSizes (cfg : SysConfig) (currLogicalOffset appendSize : ℕ) (parity : ℕ × ℤ) :
    ℕ → Option (ℕ × ℤ) :=
  let sizes := dataSlices cfg.unitSize cfg.k currLogicalOffset appendSize appendSize appendSize
    currLogicalOffset ((currLogicalOffset / cfg.unitSize) % cfg.k) fun _ => none
  fun i => if cfg.k ≤ i ∧ i < cfg.n then some parity else sizes i

def getClusterAppendSize (k r z : ℕ) (sizes : ℕ → Option (ℕ × ℤ)) (currGroupId paritySliceSize : ℕ) :
    ℕ :=
  let first := currGroupId * k / z
  let dataSize := ((range' first ((currGroupId + 1) * k / z - first)).map fun i =>
    ((sizes i).map Prod.fst).getD 0).sum
  dataSize + paritySliceSize * (r + z) / z

/-- the assertion on `remain_size`, which is computed as an `unsigned int`, and the sums and products
that have to fit an `int`; for UniLRC they bound all others of `generateAppendPlan` -/
def AppendInRange (cfg : SysConfig) (currLogicalOffset appendSize : ℕ) : Prop :=
  (appendSize : ℤ) ≤ ((cfg.k * cfg.blockSize : ℤ) - currLogicalOffset).bmod (2 ^ 32) ∧
  currLogicalOffset + appendSize < 2 ^ 31 ∧ cfg.unitSize * cfg.k < 2 ^ 31 ∧ cfg.z * cfg.k < 2 ^ 31 ∧
  ((paritySlice cfg.appendMode cfg.unitSize cfg.k currLogicalOffset appendSize).map
    Prod.fst).getD 0 * (cfg.r + cfg.z) < 2 ^ 31

instance (cfg : SysConfig) (currLogicalOffset appendSize : ℕ) :
    Decidable (AppendInRange cfg currLogicalOffset appendSize) :=
  inferInstanceAs (Decidable (_ ∧ _))

/-- `generateAppendPlan`; `none` is the failed assertion or an `int` that overflows, and an unknown
mode has no plans -/
def generateAppendPlan (cfg : SysConfig) (stripe : Stripe) (currLogicalOffset appendSize : ℕ) :
    Option (List AppendStripeDataPlacement) :=
  if ¬AppendInRange cfg currLogicalOffset appendSize then none
  else match paritySlice cfg.appendMode cfg.unitSize cfg.k currLogicalOffset appendSize with
  | none => some []
  | some parity =>
    let sizes := blockToSliceSizes cfg currLogicalOffset appendSize parity
    let stripeSize := cfg.blockSize * cfg.k % 2 ^ 32
    let whole : Bool := currLogicalOffset = 0 ∧ appendSize = stripeSize
    (range cfg.z).mapM fun i => do
      let first ← stripe.firstBlock i
      let interval := fun size => range' (i * size / cfg.z) ((i + 1) * size / cfg.z - i * size / cfg.z)
      let blockIds := interval cfg.k ++ (interval cfg.r).map (cfg.k + ·) ++
        (interval cfg.z).map (cfg.k + cfg.r + ·)
      let slices ← (blockIds.filter fun b => (sizes b).isSome).mapM fun b => do
        let block ← stripe.blocks[b]?
        let sliceInfo ← sizes b
        some (addBlockToAppendPlan block sliceInfo)
      some {
        key := genAppendKey stripe.stripeId i
        clusterId := first.map2cluster
        stripeId := stripe.stripeId
        appendSize := getClusterAppendSize cfg.k cfg.r cfg.z sizes i parity.1
        isMergeParity := !whole && decide (currLogicalOffset + appendSize = stripeSize)
        isSerialized := !whole
        appendMode := cfg.appendMode
        slices := slices }

/-! ## Plans for whole blocks -/

/-- the slices of a plan are the whole blocks `ids` under their own keys, in this order -/
structure BlockSlices (cfg : SysConfig) (stripeId : ℕ) (ids : List ℕ)
    (plan : AppendStripeDataPlacement) : Prop where
  ids_eq : plan.slices.map Slice.blockId = ids
  slice : ∀ slice ∈ plan.slices, slice.blockKey = blockKey cfg.k cfg.r stripeId slice.blockId ∧
    slice.offset = 0 ∧ slice.size = cfg.blockSize

/-- a plan for the blocks `ids` -/
structure BlockPlan (cfg : SysConfig) (stripeId : ℕ) (ids : List ℕ)
    (plan : AppendStripeDataPlacement) : Prop extends BlockSlices cfg stripeId ids plan where
  size_eq : plan.appendSize = ids.length * cfg.blockSize

/-- the plan of group `i`, with its blocks in the order of their ids -/
structure PlanOf (cfg : SysConfig) (group : ℕ → ℤ) (stripeId i : ℕ)
    (plan : AppendStripeDataPlacement) : Prop
    extends BlockPlan cfg stripeId (bucket (groupToBlocks cfg.n group) i) plan where
  key_eq : plan.key = genAppendKey stripeId i

section
variable {cfg : SysConfig} {topo : Topology} {group : ℕ → ℤ} {s s' : Coordinator} {stripeId : ℕ}
  {key : String} {bs : List Block} {stripe : Stripe} {plans : List AppendStripeDataPlacement}

theorem blockPlan_some (h : Placed cfg topo group s stripeId key bs s' stripe) {i size : ℕ}
    {ids : List ℕ} {plan : AppendStripeDataPlacement} (hlt : ∀ b ∈ ids, b < cfg.n)
    (hplan : blockPlan cfg.blockSize size stripe i ids = some plan) :
    plan.key = genAppendKey stripeId i ∧ plan.appendSize = size ∧
      BlockSlices cfg stripeId ids plan := by
  have hid : stripe.stripeId = stripeId := by rw [h.stripe_eq]; rfl
  obtain ⟨first, -, hplan⟩ := bind_eq_some_iff.mp hplan
  obtain ⟨blocks, hblocks, hplan⟩ := bind_eq_some_iff.mp hplan
  rw [some.injEq] at hplan
  subst hplan
  -- block `b` of the stripe has the id `b`
  have hread : Forall₂ (fun b block => block ∈ bs ∧ block.blockId = b) ids blocks := by
    have hall := mapM_option_some hblocks
    rw [forall₂_iff_get] at hall ⊢
    refine ⟨hall.1, fun j hj hj' => ?_⟩
    have hget := hall.2 j hj hj'
    obtain ⟨block, hin, hblock, hblockId⟩ := h.exists_block (hlt _ (get_mem _ ⟨j, hj⟩))
    rw [hblock, some.injEq] at hget
    subst hget
    exact ⟨hin, hblockId⟩
  refine ⟨by rw [hid], rfl, ?_, ?_⟩
  · show (blocks.map fun block => addBlockToAppendPlan block (cfg.blockSize, 0)).map Slice.blockId = _
    rw [List.map_map, ← forall₂_eq_eq_eq, forall₂_map_left_iff]
    exact hread.flip.imp fun block b hb => hb.2
  · intro slice hslice
    obtain ⟨block, hblock, rfl⟩ := mem_map.mp hslice
    obtain ⟨b, -, hin, -⟩ := forall₂_mem_right hread hblock
    refine ⟨?_, rfl, rfl⟩
    exact congrArg Block.blockKey (h.form block hin)

theorem lt_of_mem_bucket {n i b : ℕ} (hb : b ∈ bucket (groupToBlocks n group) i) : b < n := by
  rw [groupToBlocks, bucket_collect, mem_filter, mem_range] at hb
  exact hb.1

section
variable (h : Placed cfg topo group s stripeId key bs s' stripe)
include h

theorem Placed.group_eq_bucket (i : ℕ) : stripe.group i = bucket (groupToBlocks cfg.n group) i := by
  have hgroups : stripe.groupToBlocks = groupToBlocks cfg.n group := by rw [h.stripe_eq]; rfl
  rw [Stripe.group, hgroups]

theorem Placed.numGroups_eq : stripe.numGroups = numGroups cfg group := by
  rw [h.stripe_eq]
  rfl

theorem generateAddPlans_some (hplans : generateAddPlans cfg stripe = some plans) :
    Forall₂ (PlanOf cfg group stripeId) (range (numGroups cfg group)) plans := by
  rw [← h.numGroups_eq]
  refine (mapM_option_some hplans).imp fun i plan hplan => ?_
  rw [h.group_eq_bucket] at hplan
  obtain ⟨hkey, hsize, hblocks⟩ := blockPlan_some h (fun b => lt_of_mem_bucket) hplan
  exact ⟨⟨hblocks, hsize⟩, hkey⟩

theorem generateSubAddPlans_some {m : ℕ}
    (hplans : generateSubAddPlans cfg stripe (cfg.blockSize * m) = some plans) : 0 < cfg.blockSize ∧
      Forall₂ (fun i plan => plan.appendSize =
            (subsetBlocks cfg.k m (stripe.group i)).length * cfg.blockSize % 2 ^ 32 ∧
          BlockSlices cfg stripeId (subsetBlocks cfg.k m (stripe.group i)) plan)
        ((range stripe.numGroups).filter fun i =>
          (subsetBlocks cfg.k m (stripe.group i)).length * cfg.blockSize % 2 ^ 32 ≠ 0) plans := by
  unfold generateSubAddPlans at hplans
  simp only [ite_none_left_eq_some] at hplans
  obtain ⟨hbs, hplans⟩ := hplans
  have hpos : 0 < cfg.blockSize := pos_of_ne_zero hbs
  rw [Nat.mul_div_cancel_left m hpos] at hplans
  refine ⟨hpos, (mapM_option_some hplans).imp fun i plan hplan => ?_⟩
  refine (blockPlan_some h (fun b hb => ?_) hplan).2
  rw [h.group_eq_bucket] at hb
  exact lt_of_mem_bucket (mem_of_mem_filter hb)

end

end

end Mlrc
