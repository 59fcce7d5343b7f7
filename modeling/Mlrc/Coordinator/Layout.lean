import Mlrc.Code.Groups
import Mlrc.Data.Buckets

/-!
# Which blocks share a group

Every stripe placement sends block `i` of a stripe to a group: data blocks are `0, .., k - 1`, global
parities follow from `k`, local parities from `k + r`.  The groups of a placed stripe are the
buckets of that map.

* `validateConfig`   what a configuration has to satisfy;
* `map2group`   the group of a block, for each code type;
* `uniformLrcGroup_payload`, `uniformLrcGroup_parity`   the counting loop of UniformLRC in closed form;
* `map2group_covers`   the group ids of a placement are `0, .., groupCount - 1`.
-/

namespace Mlrc

open List Option Function Nat

variable {groupSize size j g i l : ℕ} {group : ℕ → ℤ} {cfg : SysConfig}

/-- `CodeType`; RS is refused by the set path -/
inductive CodeType where
  | UniLRC
  | AzureLRC
  | OptimalLRC
  | UniformLRC
  | gLRC
deriving DecidableEq, Repr

inductive AppendMode where
  | REP_MODE
  | UNILRC_MODE
  | CACHED_MODE
  | EQUIOX_MODE
deriving DecidableEq, Repr

/-- the settings that placement and upload read -/
structure SysConfig where
  codeType : CodeType
  appendMode : AppendMode
  k : ℕ
  r : ℕ
  z : ℕ
  unitSize : ℕ
  blockSize : ℕ
  clusterNum : ℕ
  datanodeNumPerCluster : ℕ
deriving DecidableEq, Repr

def SysConfig.n (cfg : SysConfig) : ℕ := cfg.k + cfg.r + cfg.z

/-- `a / b + (bool)(a % b)`, the number of pieces of at most `groupSize` blocks -/
def groupNumOfOneLocalGroup (localGroupSize groupSize : ℕ) : ℕ :=
  localGroupSize / groupSize + if localGroupSize % groupSize = 0 then 0 else 1

/-- `validateConfig`; a division by zero ends the program, and the enumerated options need no
check.  The repair settings of gLRC are checked apart from the layout. -/
def validateConfig (cfg : SysConfig) : Bool :=
  decide (cfg.unitSize ≠ 0) && decide (cfg.blockSize % cfg.unitSize = 0) &&
  decide (0 < cfg.datanodeNumPerCluster) && decide (0 < cfg.clusterNum) && decide (cfg.z ≠ 0) &&
  match cfg.codeType with
  | .UniLRC => decide (cfg.n / cfg.z < cfg.datanodeNumPerCluster) && decide (cfg.z < cfg.clusterNum)
  | .AzureLRC => decide (cfg.k / cfg.z + 1 < cfg.datanodeNumPerCluster) &&
      decide (cfg.z + 1 < cfg.clusterNum)
  | .OptimalLRC => decide (cfg.r + 1 < cfg.datanodeNumPerCluster) &&
      -- `std::ceil(1.0 * k / z / (r + 1))`
      decide (groupNumOfOneLocalGroup cfg.k (cfg.z * (cfg.r + 1)) * cfg.z + 1 < cfg.clusterNum)
  | .UniformLRC => decide (cfg.r < cfg.datanodeNumPerCluster) &&
      decide (groupNumOfOneLocalGroup ((cfg.k + cfg.r) / cfg.z + 1) (cfg.r + 1) *
          ((cfg.k + cfg.r) % cfg.z) +
        groupNumOfOneLocalGroup ((cfg.k + cfg.r) / cfg.z) (cfg.r + 1) *
          (cfg.z - (cfg.k + cfg.r) % cfg.z) < cfg.clusterNum)
  | .gLRC => decide (cfg.r ≤ (cfg.k + cfg.r + cfg.z - 1) / cfg.z) &&
      decide ((cfg.k + cfg.r + cfg.z - 1) / cfg.z + 1 ≤ cfg.datanodeNumPerCluster) &&
      decide (cfg.z ≤ cfg.clusterNum)

theorem validateConfig_z {cfg : SysConfig} (h : validateConfig cfg = true) : 0 < cfg.z := by
  unfold validateConfig at h
  simp only [Bool.and_eq_true, decide_eq_true_eq] at h
  exact pos_of_ne_zero h.1.2

theorem validateConfig_clusterNum {cfg : SysConfig} (hv : validateConfig cfg = true) :
    0 < cfg.clusterNum := by
  unfold validateConfig at hv
  simp only [Bool.and_eq_true, decide_eq_true_eq] at hv
  exact hv.1.1.2

/-- a configuration with positive `k` and `r`, which `loadConfig` does not check, and for UniLRC with
the `k` and `r` that it computes from `alpha` and `z` -/
structure SysConfig.Loaded (cfg : SysConfig) : Prop where
  k_pos : 0 < cfg.k
  r_pos : 0 < cfg.r
  unilrc : cfg.codeType = .UniLRC →
    ∃ alpha, cfg.k = alpha * cfg.z * cfg.z - alpha * cfg.z ∧ cfg.r = alpha * cfg.z

/-! ## The group of a block -/

/-- `map2group` in `initialize_unilrc_and_azurelrc_stripe_placement` -/
def unilrcAndAzurelrcGroup (codeType : CodeType) (k r z i : ℕ) : ℕ :=
  if i < k then i / (k / z)
  else if i < k + r then
    if codeType = .UniLRC then (i - k) / (r / z) else z
  else (i - k - r) / (z / z)

/-- `map2group` in `initialize_optimal_lrc_stripe_placement` -/
def optimalLrcGroup (k r z i : ℕ) : ℕ :=
  let groupSize := r + 1
  let localGroupSize := k / z
  let groupNum := groupNumOfOneLocalGroup localGroupSize groupSize
  if i < k then i % localGroupSize / groupSize + i / localGroupSize * groupNum
  else if i < k + r then z * groupNum
  else (i - k - r + 1) * groupNum - 1

/-- `map2group` in `initialize_glrc_stripe_placement` -/
def glrcGroup (k r z i : ℕ) : ℕ :=
  if i < k then glrcDataGroupId i k r z
  else if i < k + r then glrcPayloadGroupId i k r z
  else i - k - r

/-- the counters of `initialize_uniform_lrc_stripe_placement` and the groups written so far -/
structure UniformLoop where
  localGroupSize : ℕ
  groupNum : ℤ
  blockNum : ℕ
  map2group : ℕ → ℤ

def uniformBlock (groupSize : ℕ) (s : UniformLoop) (j : ℕ) : UniformLoop :=
  let groupNum := if j % groupSize = 0 then s.groupNum + 1 else s.groupNum
  { s with
    groupNum := groupNum
    blockNum := s.blockNum + 1
    map2group := update s.map2group s.blockNum groupNum }

def uniformLocalGroup (k r z : ℕ) (s : UniformLoop) (i : ℕ) : UniformLoop :=
  let localGroupSize :=
    if i + (k + r) % z = z then s.localGroupSize + 1 else s.localGroupSize
  let s := (range localGroupSize).foldl (uniformBlock (r + 1))
    { s with localGroupSize := localGroupSize }
  { s with map2group := update s.map2group (k + r + i) s.groupNum }

/-- `map2group` in `initialize_uniform_lrc_stripe_placement` -/
def uniformLrcGroup (k r z : ℕ) : ℕ → ℤ :=
  ((range z).foldl (uniformLocalGroup k r z)
    { localGroupSize := (k + r) / z, groupNum := -1, blockNum := 0, map2group := fun _ => 0 }).map2group

/-- the group of each block; `none` when the placement divides by zero -/
def map2group (cfg : SysConfig) : Option (ℕ → ℤ) :=
  match cfg.codeType with
  | .UniLRC => if cfg.k / cfg.z = 0 ∨ cfg.r / cfg.z = 0 then none
      else some fun i => unilrcAndAzurelrcGroup .UniLRC cfg.k cfg.r cfg.z i
  | .AzureLRC => if cfg.k / cfg.z = 0 then none
      else some fun i => unilrcAndAzurelrcGroup .AzureLRC cfg.k cfg.r cfg.z i
  | .OptimalLRC => if cfg.k / cfg.z = 0 then none
      else some fun i => optimalLrcGroup cfg.k cfg.r cfg.z i
  | .UniformLRC => some (uniformLrcGroup cfg.k cfg.r cfg.z)
  | .gLRC => some fun i => glrcGroup cfg.k cfg.r cfg.z i

/-- `group_to_blocks`, filled by `add_to_map` in the order of the block ids -/
def groupToBlocks (n : ℕ) (group : ℕ → ℤ) : List (ℤ × List ℕ) := collect group (range n)

def numGroups (cfg : SysConfig) (group : ℕ → ℤ) : ℕ :=
  if cfg.codeType = .gLRC then cfg.z else (groupToBlocks cfg.n group).length

/-! ## Pieces of a local group -/

theorem div_eq_iff_interval {i g q : ℕ} (hq : 0 < q) : i / q = g ↔ g * q ≤ i ∧ i < (g + 1) * q := by
  rw [Nat.div_eq_iff hq, add_mul, one_mul]
  omega

theorem groupNumOfOneLocalGroup_zero (groupSize : ℕ) : groupNumOfOneLocalGroup 0 groupSize = 0 := by
  simp [groupNumOfOneLocalGroup]

theorem groupNumOfOneLocalGroup_succ (j : ℕ) (h : 0 < groupSize) :
    groupNumOfOneLocalGroup (j + 1) groupSize = j / groupSize + 1 := by
  unfold groupNumOfOneLocalGroup
  have hj := div_add_mod j groupSize
  have hs := div_add_mod (j + 1) groupSize
  have hjm := mod_lt j h
  rw [Nat.succ_div]
  by_cases hd : groupSize ∣ j + 1
  · rw [if_pos hd, if_pos (mod_eq_zero_of_dvd hd)]
  · rw [if_neg hd, if_neg fun h0 => hd (dvd_of_mod_eq_zero h0)]

theorem groupNumOfOneLocalGroup_eq (j groupSize : ℕ) : groupNumOfOneLocalGroup j groupSize =
      if j % groupSize = 0 then j / groupSize else j / groupSize + 1 := by
  unfold groupNumOfOneLocalGroup
  split <;> rfl

theorem groupNumOfOneLocalGroup_pos (hs : 0 < size) (h : 0 < groupSize) :
    0 < groupNumOfOneLocalGroup size groupSize := by
  obtain ⟨j, rfl⟩ : ∃ j, size = j + 1 := ⟨size - 1, by omega⟩
  rw [groupNumOfOneLocalGroup_succ j h]
  exact succ_pos _

theorem lt_groupNumOfOneLocalGroup {t : ℕ} (h : 0 < groupSize) :
    t < groupNumOfOneLocalGroup size groupSize ↔ t * groupSize < size := by
  cases size with
  | zero => simp [groupNumOfOneLocalGroup_zero]
  | succ j =>
    rw [groupNumOfOneLocalGroup_succ j h, Nat.lt_succ_iff, Nat.le_div_iff_mul_le h, Nat.lt_succ_iff]

theorem div_lt_groupNumOfOneLocalGroup (h : 0 < groupSize) (hj : j < size) :
    j / groupSize < groupNumOfOneLocalGroup size groupSize :=
  (lt_groupNumOfOneLocalGroup h).mpr (lt_of_le_of_lt (div_mul_le_self j groupSize) hj)

/-! ## The counting loop of UniformLRC -/

section
variable {k r z : ℕ}

/-- the number of pieces of the local groups before group `g` -/
def fineStart (g k r z : ℕ) : ℕ :=
  (range g).foldl (fun s m =>
    s + groupNumOfOneLocalGroup (glrcPayloadBlocksInGroup m k r z) (r + 1)) 0

theorem fineStart_zero (k r z : ℕ) : fineStart 0 k r z = 0 := rfl

theorem fineStart_succ (g k r z : ℕ) : fineStart (g + 1) k r z =
    fineStart g k r z + groupNumOfOneLocalGroup (glrcPayloadBlocksInGroup g k r z) (r + 1) :=
  foldl_range_succ _ _ _

theorem fineStart_mono (k r z : ℕ) {h : ℕ} (hgh : g ≤ h) : fineStart g k r z ≤ fineStart h k r z :=
  monotone_nat_of_le_succ (f := fun g => fineStart g k r z)
    (fun g => by rw [fineStart_succ]; exact le_self_add) hgh

theorem uniformBlocks_loop (groupSize : ℕ) (hg : 0 < groupSize) (s : UniformLoop) (first : ℕ)
    (hs : s.groupNum = (first : ℤ) - 1) (n : ℕ) :
    let t := (range n).foldl (uniformBlock groupSize) s
    t.localGroupSize = s.localGroupSize ∧ t.blockNum = s.blockNum + n ∧
      t.groupNum = ((first + groupNumOfOneLocalGroup n groupSize : ℕ) : ℤ) - 1 ∧
      (∀ j < n, t.map2group (s.blockNum + j) = ((first + j / groupSize : ℕ) : ℤ)) ∧
      ∀ b, b < s.blockNum ∨ s.blockNum + n ≤ b → t.map2group b = s.map2group b := by
  induction n with
  | zero =>
    refine ⟨rfl, rfl, ?_, fun j hj => absurd hj (Nat.not_lt_zero j), fun b _ => rfl⟩
    rw [groupNumOfOneLocalGroup_zero]
    exact hs
  | succ n ih =>
    rw [foldl_range_succ]
    set t := (range n).foldl (uniformBlock groupSize) s with ht
    obtain ⟨hsize, hblock, hnum, hnew, hold⟩ := ih
    -- the group number after the block is the piece it opens or continues
    have hnext : (uniformBlock groupSize t n).groupNum = ((first + n / groupSize : ℕ) : ℤ) := by
      show (if n % groupSize = 0 then t.groupNum + 1 else t.groupNum) = _
      rw [hnum, groupNumOfOneLocalGroup_eq]
      split <;> push_cast <;> omega
    refine ⟨hsize, ?_, ?_, ?_, ?_⟩
    · show t.blockNum + 1 = _
      omega
    · rw [hnext, groupNumOfOneLocalGroup_succ n hg]
      push_cast
      omega
    · intro j hj
      show update t.map2group t.blockNum (uniformBlock groupSize t n).groupNum _ = _
      rcases Nat.lt_succ_iff_lt_or_eq.mp hj with hlt | rfl
      · rw [update_of_ne (by omega), hnew j hlt]
      · rw [← hblock, update_self, hnext]
    · intro b hb
      show update t.map2group t.blockNum (uniformBlock groupSize t n).groupNum b = _
      rw [update_of_ne (by omega), hold b (by omega)]

/-- the loop over the local groups after `m` of them -/
structure UniformLoopInv (k r z m : ℕ) (s : UniformLoop) : Prop where
  size : s.localGroupSize = (k + r) / z + if z - (k + r) % z < m then 1 else 0
  num : s.groupNum = (fineStart m k r z : ℤ) - 1
  block : s.blockNum = payloadStart m k r z
  payload : ∀ g < m, ∀ j < glrcPayloadBlocksInGroup g k r z,
    s.map2group (payloadStart g k r z + j) = ((fineStart g k r z + j / (r + 1) : ℕ) : ℤ)
  parity : ∀ g < m, s.map2group (k + r + g) = (fineStart (g + 1) k r z : ℤ) - 1

theorem uniformLocalGroup_inv {m : ℕ} {s : UniformLoop} (hm : m < z) (h : UniformLoopInv k r z m s) :
    UniformLoopInv k r z (m + 1) (uniformLocalGroup k r z s m) := by
  have hmod : (k + r) % z < z := mod_lt _ (by omega)
  have hsize : (if m + (k + r) % z = z then s.localGroupSize + 1 else s.localGroupSize) =
      glrcPayloadBlocksInGroup m k r z := by
    rw [h.size, glrcPayloadBlocksInGroup_eq hm]
    split <;> split <;> split <;> omega
  have hend := payloadEnd_le k r hm
  rw [← payloadStart_succ] at hend
  have hloop := uniformBlocks_loop (r + 1) (add_one_pos r)
    { s with localGroupSize := glrcPayloadBlocksInGroup m k r z } (fineStart m k r z) h.num
    (glrcPayloadBlocksInGroup m k r z)
  obtain ⟨hlsize, hblock, hnum, hnew, hold⟩ := hloop
  unfold uniformLocalGroup
  simp only [hsize]
  set t := (range (glrcPayloadBlocksInGroup m k r z)).foldl (uniformBlock (r + 1))
    { s with localGroupSize := glrcPayloadBlocksInGroup m k r z } with ht
  have hstart : s.blockNum + glrcPayloadBlocksInGroup m k r z = payloadStart (m + 1) k r z := by
    rw [h.block, payloadStart_succ]
  refine ⟨?_, ?_, ?_, ?_, ?_⟩
  · show t.localGroupSize = _
    rw [hlsize, glrcPayloadBlocksInGroup_eq hm]
    simp only [Nat.lt_succ_iff]
  · show t.groupNum = _
    rw [hnum, fineStart_succ]
  · show t.blockNum = _
    rw [hblock, ← hstart]
  · intro g hg j hj
    have hlt : payloadStart g k r z + j < payloadStart (g + 1) k r z := by
      rw [payloadStart_succ]
      omega
    have hle := payloadStart_mono k r z (show g + 1 ≤ m + 1 from hg)
    show update t.map2group (k + r + m) t.groupNum (payloadStart g k r z + j) = _
    rw [update_of_ne (by omega)]
    rcases Nat.lt_succ_iff_lt_or_eq.mp hg with hgm | rfl
    · have hle' := payloadStart_mono k r z (show g + 1 ≤ m from hgm)
      rw [hold _ (.inl (by show _ < s.blockNum; rw [h.block]; omega))]
      exact h.payload g hgm j hj
    · rw [← h.block]
      exact hnew j hj
  · intro g hg
    show update t.map2group (k + r + m) t.groupNum (k + r + g) = _
    rcases Nat.lt_succ_iff_lt_or_eq.mp hg with hgm | rfl
    · rw [update_of_ne (by omega),
        hold _ (.inr (by show s.blockNum + _ ≤ _; rw [hstart]; omega))]
      exact h.parity g hgm
    · rw [update_self, hnum, fineStart_succ]

theorem uniformLoop_inv (k r z : ℕ) :
    UniformLoopInv k r z z ((range z).foldl (uniformLocalGroup k r z)
      { localGroupSize := (k + r) / z, groupNum := -1, blockNum := 0, map2group := fun _ => 0 }) := by
  refine foldl_range_induct _ (fun m s => UniformLoopInv k r z m s) z ?_
    fun m s hm h => uniformLocalGroup_inv hm h
  refine ⟨?_, rfl, rfl, fun g hg => absurd hg (Nat.not_lt_zero g),
    fun g hg => absurd hg (Nat.not_lt_zero g)⟩
  show (k + r) / z = _
  rw [if_neg (Nat.not_lt_zero _), add_zero]

theorem uniformLrcGroup_payload (hg : g < z) (hj : j < glrcPayloadBlocksInGroup g k r z) :
    uniformLrcGroup k r z (payloadStart g k r z + j) =
      ((fineStart g k r z + j / (r + 1) : ℕ) : ℤ) :=
  (uniformLoop_inv k r z).payload g hg j hj

theorem uniformLrcGroup_parity (hg : g < z) :
    uniformLrcGroup k r z (k + r + g) = (fineStart (g + 1) k r z : ℤ) - 1 :=
  (uniformLoop_inv k r z).parity g hg

end

/-! ## The group ids of a placement -/

/-- the group ids of the blocks below `n` are exactly `0, .., count - 1` -/
structure Covers (n count : ℕ) (group : ℕ → ℤ) : Prop where
  lt : ∀ i < n, 0 ≤ group i ∧ group i < count
  onto : ∀ g < count, ∃ i < n, group i = (g : ℤ)

theorem Covers.ofNat {n count : ℕ} {group : ℕ → ℕ} (hlt : ∀ i < n, group i < count)
    (honto : ∀ g < count, ∃ i < n, group i = g) : Covers n count fun i => group i where
  lt i hi := ⟨Int.natCast_nonneg _, Int.ofNat_lt.mpr (hlt i hi)⟩
  onto g hg := by
    obtain ⟨i, hi, h⟩ := honto g hg
    exact ⟨i, hi, congrArg Nat.cast h⟩

theorem Covers.numGroups {n count : ℕ} (h : Covers n count group) :
    (groupToBlocks n group).length = count :=
  length_collect_range (fun i hi => h.lt i (mem_range.mp hi)) fun g hg => by
    obtain ⟨i, hi, hig⟩ := h.onto g hg
    exact ⟨i, mem_range.mpr hi, hig⟩

section
variable {k r z : ℕ}

theorem unilrcGroup_data {codeType : CodeType} (hi : i < k) :
    unilrcAndAzurelrcGroup codeType k r z i = i / (k / z) := if_pos hi

theorem unilrcGroup_global (hl : l < r) :
    unilrcAndAzurelrcGroup .UniLRC k r z (k + l) = l / (r / z) := by
  unfold unilrcAndAzurelrcGroup
  rw [if_neg (by omega), if_pos (by omega), if_pos rfl, Nat.add_sub_cancel_left]

theorem azurelrcGroup_global (hl : l < r) : unilrcAndAzurelrcGroup .AzureLRC k r z (k + l) = z := by
  unfold unilrcAndAzurelrcGroup
  rw [if_neg (by omega), if_pos (by omega), if_neg (by decide)]

theorem unilrcGroup_parity {codeType : CodeType} (hg : g < z) :
    unilrcAndAzurelrcGroup codeType k r z (k + r + g) = g := by
  unfold unilrcAndAzurelrcGroup
  rw [if_neg (by omega), if_neg (by omega), Nat.div_self (by omega), Nat.div_one]
  omega

theorem optimalLrcGroup_data (hi : i < k) : optimalLrcGroup k r z i =
    i % (k / z) / (r + 1) + i / (k / z) * groupNumOfOneLocalGroup (k / z) (r + 1) := if_pos hi

theorem optimalLrcGroup_global (hl : l < r) :
    optimalLrcGroup k r z (k + l) = z * groupNumOfOneLocalGroup (k / z) (r + 1) := by
  unfold optimalLrcGroup
  simp only
  rw [if_neg (by omega), if_pos (by omega)]

theorem optimalLrcGroup_parity (g : ℕ) : optimalLrcGroup k r z (k + r + g) =
    (g + 1) * groupNumOfOneLocalGroup (k / z) (r + 1) - 1 := by
  unfold optimalLrcGroup
  simp only
  rw [if_neg (by omega), if_neg (by omega), show k + r + g - k - r + 1 = g + 1 by omega]

theorem glrcGroup_payload (hi : i < k + r) : glrcGroup k r z i = glrcPayloadGroupId i k r z := by
  unfold glrcGroup glrcDataGroupId
  rw [if_pos hi]
  split <;> rfl

theorem glrcGroup_parity (g : ℕ) : glrcGroup k r z (k + r + g) = g := by
  unfold glrcGroup
  rw [if_neg (by omega), if_neg (by omega)]
  omega

theorem block_cases (hi : i < k + r + z) :
    i < k ∨ (∃ l < r, i = k + l) ∨ ∃ g < z, i = k + r + g := by
  by_cases h1 : i < k
  · exact .inl h1
  · by_cases h2 : i < k + r
    · exact .inr (.inl ⟨i - k, by omega, by omega⟩)
    · exact .inr (.inr ⟨i - (k + r), by omega, by omega⟩)

theorem unilrc_covers (hk : z ∣ k) (hr : z ∣ r) :
    Covers (k + r + z) z fun i => unilrcAndAzurelrcGroup .UniLRC k r z i := by
  refine Covers.ofNat (fun i hi => ?_) fun g hg => ⟨k + r + g, by omega, unilrcGroup_parity hg⟩
  rcases block_cases hi with hik | ⟨l, hl, rfl⟩ | ⟨g, hg, rfl⟩
  · rw [unilrcGroup_data hik]
    exact Nat.div_lt_of_lt_mul (by rwa [mul_comm, Nat.mul_div_cancel' hk])
  · rw [unilrcGroup_global hl]
    exact Nat.div_lt_of_lt_mul (by rwa [mul_comm, Nat.mul_div_cancel' hr])
  · rw [unilrcGroup_parity hg]
    exact hg

theorem azurelrc_covers (hr : 0 < r) (hq : 0 < k / z) :
    Covers (k + r + z) (max (z + 1) ((k - 1) / (k / z) + 1))
      fun i => unilrcAndAzurelrcGroup .AzureLRC k r z i := by
  refine Covers.ofNat (fun i hi => ?_) fun g hg => ?_
  · rcases block_cases hi with hik | ⟨l, hl, rfl⟩ | ⟨g, hg, rfl⟩
    · rw [unilrcGroup_data hik]
      have := Nat.div_le_div_right (c := k / z) (show i ≤ k - 1 by omega)
      omega
    · rw [azurelrcGroup_global hl]
      omega
    · rw [unilrcGroup_parity hg]
      omega
  · rcases lt_trichotomy g z with h | rfl | h
    · exact ⟨k + r + g, by omega, unilrcGroup_parity h⟩
    · exact ⟨k + 0, by omega, azurelrcGroup_global hr⟩
    · -- a group beyond the global parities starts with the data block of its number
      have hle : g ≤ (k - 1) / (k / z) := by omega
      rw [Nat.le_div_iff_mul_le hq] at hle
      have hk : 0 < k := lt_of_lt_of_le hq (Nat.div_le_self k z)
      have hlt : g * (k / z) < k := by omega
      exact ⟨g * (k / z), by omega, by rw [unilrcGroup_data hlt, Nat.mul_div_cancel _ hq]⟩

theorem azurelrc_covers_dvd (hk : z ∣ k) : Covers (k + r + z) (if r = 0 then z else z + 1)
    fun i => unilrcAndAzurelrcGroup .AzureLRC k r z i := by
  have hz : z ≤ if r = 0 then z else z + 1 := by split <;> omega
  refine Covers.ofNat (fun i hi => ?_) fun g hg => ?_
  · rcases block_cases hi with hik | ⟨l, hl, rfl⟩ | ⟨g, hg, rfl⟩
    · rw [unilrcGroup_data hik]
      refine lt_of_lt_of_le (Nat.div_lt_of_lt_mul ?_) hz
      rwa [mul_comm, Nat.mul_div_cancel' hk]
    · rw [azurelrcGroup_global hl, if_neg (by omega)]
      exact lt_succ_self z
    · rw [unilrcGroup_parity hg]
      exact lt_of_lt_of_le hg hz
  · by_cases hgz : g < z
    · exact ⟨k + r + g, by omega, unilrcGroup_parity hgz⟩
    · split at hg
      · omega
      · obtain rfl : g = z := by omega
        exact ⟨k + 0, by omega, azurelrcGroup_global (by omega)⟩

theorem optimalLrcGroup_eq {t : ℕ} (hi : i < k) (hq : 0 < k / z)
    (hlo : l * (k / z) + t * (r + 1) ≤ i) (hhi : i < l * (k / z) + (t + 1) * (r + 1))
    (hlast : i < (l + 1) * (k / z)) :
    optimalLrcGroup k r z i = l * groupNumOfOneLocalGroup (k / z) (r + 1) + t := by
  have hdiv : i / (k / z) = l := by
    refine (Nat.div_eq_iff hq).mpr ?_
    rw [add_mul, one_mul] at hlast
    constructor
    · exact le_trans le_self_add hlo
    · omega
  have hmod : i % (k / z) = i - l * (k / z) := by
    have := div_add_mod i (k / z)
    rw [hdiv, mul_comm] at this
    omega
  rw [optimalLrcGroup_data hi, hdiv, hmod, add_comm]
  congr 1
  refine (Nat.div_eq_iff (show 0 < r + 1 by omega)).mpr ?_
  rw [add_mul, one_mul] at hhi
  constructor <;> omega

theorem optimalLrcGroup_mono (hq : 0 < k / z) (hij : i ≤ j) (hj : j < k) :
    optimalLrcGroup k r z i ≤ optimalLrcGroup k r z j := by
  rw [optimalLrcGroup_data (by omega), optimalLrcGroup_data hj]
  set c := groupNumOfOneLocalGroup (k / z) (r + 1) with hc
  have hmod : ∀ m, m % (k / z) / (r + 1) < c := fun m =>
    div_lt_groupNumOfOneLocalGroup (add_one_pos r) (mod_lt m hq)
  clear_value c
  rcases lt_or_eq_of_le (Nat.div_le_div_right (c := k / z) hij) with hlt | heq
  · have hstep : (i / (k / z) + 1) * c ≤ j / (k / z) * c := Nat.mul_le_mul_right c hlt
    have hi := hmod i
    have hj := zero_le (j % (k / z) / (r + 1))
    rw [add_mul, one_mul] at hstep
    omega
  · have hi := div_add_mod i (k / z)
    have hj := div_add_mod j (k / z)
    rw [heq] at hi ⊢
    have hle : i % (k / z) ≤ j % (k / z) := by omega
    exact Nat.add_le_add_right (Nat.div_le_div_right hle) _

theorem pred_mul_add (hz : 0 < z) (q : ℕ) : (z - 1) * q + q = z * q := by
  rw [← succ_mul, succ_eq_add_one, Nat.sub_add_cancel hz]

/-- with `q = k / z` the last data block is in local group `z - 1` or later, and in `z - 1` only when
`z` divides `k` -/
theorem last_div (hq : 0 < k / z) : z - 1 ≤ (k - 1) / (k / z) ∧ ((k - 1) / (k / z) < z ↔ z ∣ k) := by
  have hz : 0 < z := pos_of_ne_zero fun h => by rw [h, Nat.div_zero] at hq; omega
  have hle : z * (k / z) ≤ k := mul_div_le k z
  have hpred := pred_mul_add hz (k / z)
  constructor
  · rw [le_div_iff_mul_le hq]
    omega
  · rw [div_lt_iff_lt_mul hq]
    constructor
    · intro hlt
      exact ⟨k / z, by omega⟩
    · intro hdvd
      rw [Nat.mul_div_cancel' hdvd]
      have : 0 < k := lt_of_lt_of_le hq (div_le_self k z)
      omega

/-- the last data block is in the last piece of local group `z - 1`, or behind it -/
theorem optimal_last (hq : 0 < k / z) :
    z * groupNumOfOneLocalGroup (k / z) (r + 1) ≤ optimalLrcGroup k r z (k - 1) + 1 ∧
      (optimalLrcGroup k r z (k - 1) < z * groupNumOfOneLocalGroup (k / z) (r + 1) ↔ z ∣ k) := by
  have hk : 0 < k := lt_of_lt_of_le hq (Nat.div_le_self k z)
  obtain ⟨hlo, hdvd⟩ := last_div hq
  rw [optimalLrcGroup_data (by omega), ← hdvd]
  rcases lt_or_ge ((k - 1) / (k / z)) z with hlt | hge
  · have hd : (k - 1) / (k / z) = z - 1 := by omega
    have hmod : (k - 1) % (k / z) = k / z - 1 := by
      have hsplit := div_add_mod (k - 1) (k / z)
      have hpred := pred_mul_add (show 0 < z by omega) (k / z)
      rw [Nat.mul_div_cancel' (hdvd.mp hlt)] at hpred
      rw [hd, mul_comm] at hsplit
      omega
    have hsucc := groupNumOfOneLocalGroup_succ (k / z - 1) (add_one_pos r)
    rw [Nat.sub_add_cancel hq] at hsucc
    have hpred := pred_mul_add (show 0 < z by omega) ((k / z - 1) / (r + 1) + 1)
    rw [hmod, hd, hsucc]
    omega
  · have hle := Nat.mul_le_mul_right (groupNumOfOneLocalGroup (k / z) (r + 1)) hge
    have h0 := zero_le ((k - 1) % (k / z) / (r + 1))
    omega

theorem optimallrc_covers (hr : 0 < r) (hq : 0 < k / z) :
    Covers (k + r + z) (max (z * groupNumOfOneLocalGroup (k / z) (r + 1) + 1)
      (optimalLrcGroup k r z (k - 1) + 1)) fun i => optimalLrcGroup k r z i := by
  have hcpos : 0 < groupNumOfOneLocalGroup (k / z) (r + 1) :=
    groupNumOfOneLocalGroup_pos hq (add_one_pos r)
  have hk : z * (k / z) ≤ k := mul_div_le k z
  have hk0 : 0 < k := lt_of_lt_of_le hq (Nat.div_le_self k z)
  have hlast : optimalLrcGroup k r z (k - 1) = (k - 1) / (k / z) *
      groupNumOfOneLocalGroup (k / z) (r + 1) + (k - 1) % (k / z) / (r + 1) := by
    rw [optimalLrcGroup_data (by omega), add_comm]
  have hbehind := (optimal_last (r := r) hq).1
  set c := groupNumOfOneLocalGroup (k / z) (r + 1) with hc
  refine Covers.ofNat (fun i hi => ?_) fun g hg => ?_
  · rcases block_cases hi with hik | ⟨l, hl, rfl⟩ | ⟨g, hg, rfl⟩
    · have := optimalLrcGroup_mono (r := r) hq (show i ≤ k - 1 by omega) (by omega)
      omega
    · rw [optimalLrcGroup_global hl, ← hc]
      omega
    · rw [optimalLrcGroup_parity, ← hc]
      have : (g + 1) * c ≤ z * c := Nat.mul_le_mul_right c hg
      omega
  · by_cases hgz : g = z * c
    · exact ⟨k + 0, by omega, by rw [optimalLrcGroup_global hr, hgz]⟩
    · -- the first data block of piece `g % c` of local group `g / c`
      have hdm := div_add_mod g c
      have hmod : g % c < c := mod_lt g hcpos
      have hin := (lt_groupNumOfOneLocalGroup (add_one_pos r)).mp hmod
      have hsucc : g % c * (r + 1) < (g % c + 1) * (r + 1) :=
        mul_lt_mul_of_pos_right (lt_succ_self _) (add_one_pos r)
      have hnext : (g / c + 1) * (k / z) = g / c * (k / z) + k / z := by ring
      -- it is not behind the last one
      have hlt : g / c * (k / z) + g % c * (r + 1) < k := by
        have hle : g ≤ (k - 1) / (k / z) * c + (k - 1) % (k / z) / (r + 1) := by omega
        have hkm := div_add_mod (k - 1) (k / z)
        have hlm : (k - 1) % (k / z) / (r + 1) < c :=
          div_lt_groupNumOfOneLocalGroup (add_one_pos r) (mod_lt _ hq)
        have hdl : g / c ≤ (k - 1) / (k / z) := by
          have : g / c < (k - 1) / (k / z) + 1 :=
            Nat.div_lt_of_lt_mul (by rw [mul_add, mul_one, mul_comm]; omega)
          omega
        rcases lt_or_eq_of_le hdl with hdlt | hdeq
        · have hl : (g / c + 1) * (k / z) ≤ (k - 1) / (k / z) * (k / z) :=
            Nat.mul_le_mul_right _ hdlt
          rw [mul_comm ((k - 1) / (k / z))] at hl
          omega
        · have ht : g % c ≤ (k - 1) % (k / z) / (r + 1) := by
            rw [hdeq, mul_comm] at hdm
            omega
          rw [Nat.le_div_iff_mul_le (add_one_pos r)] at ht
          rw [hdeq, mul_comm]
          omega
      refine ⟨g / c * (k / z) + g % c * (r + 1), by omega, ?_⟩
      rw [optimalLrcGroup_eq hlt hq le_rfl (by omega) (by omega), ← hc, mul_comm]
      exact hdm

theorem finePieces_pos (hq : 0 < (k + r) / z) {g : ℕ} (hg : g < z) :
    0 < groupNumOfOneLocalGroup (glrcPayloadBlocksInGroup g k r z) (r + 1) := by
  refine groupNumOfOneLocalGroup_pos ?_ (add_one_pos r)
  rw [glrcPayloadBlocksInGroup_eq hg]
  omega

theorem uniformlrc_covers (hz : 0 < z) (hq : 0 < (k + r) / z) :
    Covers (k + r + z) (fineStart z k r z) (uniformLrcGroup k r z) := by
  have hpos : ∀ g < z, 0 < groupNumOfOneLocalGroup (glrcPayloadBlocksInGroup g k r z) (r + 1) :=
    fun g hg => finePieces_pos hq hg
  constructor
  · intro i hi
    by_cases hik : i < k + r
    · obtain ⟨hg, hlo, hhi⟩ := groupId_range hz hik
      set g := glrcPayloadGroupId i k r z
      rw [payloadStart_succ] at hhi
      have hj : i - payloadStart g k r z < glrcPayloadBlocksInGroup g k r z := by omega
      have hval := uniformLrcGroup_payload hg hj
      rw [Nat.add_sub_cancel' hlo] at hval
      have hpiece := div_lt_groupNumOfOneLocalGroup (add_one_pos r) hj
      have hend := fineStart_mono k r z (show g + 1 ≤ z from hg)
      rw [fineStart_succ] at hend
      rw [hval]
      exact ⟨Int.natCast_nonneg _,
        Int.ofNat_lt.mpr (lt_of_lt_of_le (Nat.add_lt_add_left hpiece _) hend)⟩
    · obtain ⟨g, hg, rfl⟩ : ∃ g < z, i = k + r + g := ⟨i - (k + r), by omega, by omega⟩
      have hend := fineStart_mono k r z (show g + 1 ≤ z from hg)
      have := hpos g hg
      rw [uniformLrcGroup_parity hg]
      have hs := fineStart_succ g k r z
      omega
  · -- find the local group whose pieces hold group `g`
    intro g hg
    have hex : ∀ m ≤ z, g < fineStart m k r z → ∃ l < m, fineStart l k r z ≤ g ∧
        g < fineStart (l + 1) k r z := by
      intro m hm
      induction m with
      | zero => intro h; rw [fineStart_zero] at h; omega
      | succ m ih =>
        intro h
        by_cases hlt : g < fineStart m k r z
        · obtain ⟨l, hl, hin⟩ := ih (by omega) hlt
          exact ⟨l, by omega, hin⟩
        · exact ⟨m, lt_succ_self m, by omega, h⟩
    obtain ⟨l, hl, hlo, hhi⟩ := hex z le_rfl hg
    rw [fineStart_succ] at hhi
    have ht := (lt_groupNumOfOneLocalGroup (add_one_pos r)).mp
      (show g - fineStart l k r z <
        groupNumOfOneLocalGroup (glrcPayloadBlocksInGroup l k r z) (r + 1) by omega)
    have hval := uniformLrcGroup_payload hl ht
    rw [Nat.mul_div_cancel _ (add_one_pos r), Nat.add_sub_cancel' hlo] at hval
    have hend := payloadEnd_le k r hl
    exact ⟨_, by omega, hval⟩

theorem glrc_covers (hz : 0 < z) : Covers (k + r + z) z fun i => glrcGroup k r z i := by
  refine Covers.ofNat (fun i hi => ?_) fun g hg => ⟨k + r + g, by omega, glrcGroup_parity g⟩
  by_cases hik : i < k + r
  · rw [glrcGroup_payload hik]
    exact glrcPayloadGroupId_lt hz hik
  · obtain ⟨g, hg, rfl⟩ : ∃ g < z, i = k + r + g := ⟨i - (k + r), by omega, by omega⟩
    rw [glrcGroup_parity]
    exact hg

end

def groupCount (cfg : SysConfig) : ℕ :=
  match cfg.codeType with
  | .UniLRC => cfg.z
  | .AzureLRC => max (cfg.z + 1) ((cfg.k - 1) / (cfg.k / cfg.z) + 1)
  | .OptimalLRC => max (cfg.z * groupNumOfOneLocalGroup (cfg.k / cfg.z) (cfg.r + 1) + 1)
      (optimalLrcGroup cfg.k cfg.r cfg.z (cfg.k - 1) + 1)
  | .UniformLRC => fineStart cfg.z cfg.k cfg.r cfg.z
  | .gLRC => cfg.z

theorem SysConfig.Loaded.unilrc_dvd (h : cfg.Loaded)
    (hc : cfg.codeType = .UniLRC) : cfg.z ∣ cfg.k ∧ cfg.z ∣ cfg.r := by
  obtain ⟨alpha, hk, hr⟩ := h.unilrc hc
  rw [hk, hr]
  exact ⟨Nat.dvd_sub (dvd_mul_left _ _) (dvd_mul_left _ _), dvd_mul_left _ _⟩

section
variable (h : cfg.Loaded) (hz : 0 < cfg.z) (hu : cfg.codeType = .UniformLRC → cfg.z ≤ cfg.k + cfg.r)
  (hg : map2group cfg = some group)
include h hz hu hg

theorem map2group_covers : Covers cfg.n (groupCount cfg) group := by
  unfold map2group at hg
  unfold groupCount SysConfig.n
  cases hc : cfg.codeType with
  | UniLRC =>
    simp only [hc, ite_none_left_eq_some, some.injEq] at hg
    obtain ⟨-, rfl⟩ := hg
    exact unilrc_covers (h.unilrc_dvd hc).1 (h.unilrc_dvd hc).2
  | AzureLRC =>
    simp only [hc, ite_none_left_eq_some, some.injEq] at hg
    obtain ⟨hq, rfl⟩ := hg
    exact azurelrc_covers h.r_pos (pos_of_ne_zero hq)
  | OptimalLRC =>
    simp only [hc, ite_none_left_eq_some, some.injEq] at hg
    obtain ⟨hq, rfl⟩ := hg
    exact optimallrc_covers h.r_pos (pos_of_ne_zero hq)
  | UniformLRC =>
    simp only [hc, some.injEq] at hg
    subst hg
    exact uniformlrc_covers hz (Nat.div_pos (hu hc) hz)
  | gLRC =>
    simp only [hc, some.injEq] at hg
    subst hg
    exact glrc_covers hz

theorem numGroups_eq : numGroups cfg group = groupCount cfg := by
  unfold numGroups
  split
  · rename_i hc
    unfold groupCount
    rw [hc]
  · exact (map2group_covers h hz hu hg).numGroups

end

theorem uniform_numGroups (hc : cfg.codeType = .UniformLRC) (hz : 0 < cfg.z)
    (hq : 0 < (cfg.k + cfg.r) / cfg.z) : numGroups cfg (uniformLrcGroup cfg.k cfg.r cfg.z) =
      fineStart cfg.z cfg.k cfg.r cfg.z := by
  unfold numGroups
  rw [hc, if_neg (by decide)]
  exact (uniformlrc_covers hz hq).numGroups

/-- every group below `num_groups` has a first block, which `generate_add_plans` reads -/
def Placeable (cfg : SysConfig) (group : ℕ → ℤ) : Prop :=
  ∀ g : ℕ, g < numGroups cfg group → bucket (groupToBlocks cfg.n group) (g : ℤ) ≠ []

theorem Placeable.exists_block (h : Placeable cfg group)
    (hg : g < numGroups cfg group) : ∃ b < cfg.n, group b = (g : ℤ) := by
  obtain ⟨b, hb⟩ := exists_mem_of_ne_nil _ (h g hg)
  rw [groupToBlocks, bucket_collect, mem_filter, mem_range, decide_eq_true_eq] at hb
  exact ⟨b, hb⟩

/-- with fewer payload blocks than local groups the first local parity of UniformLRC has group `-1`,
and the last group counted has no block -/
theorem Placeable.uniform (h : Placeable cfg group)
    (hz : 0 < cfg.z) (hg : map2group cfg = some group) (hc : cfg.codeType = .UniformLRC) :
    cfg.z ≤ cfg.k + cfg.r := by
  by_contra hlt
  rw [not_le] at hlt
  have hnum : numGroups cfg group = (groupToBlocks cfg.n group).length :=
    if_neg (by rw [hc]; decide)
  have hnonneg : 0 ≤ group (cfg.k + cfg.r + 0) := by
    refine (key_bounds_of_buckets (l := range cfg.n) (fun g hg => ?_) _ ?_).1
    · obtain ⟨b, hb, hbg⟩ := h.exists_block (g := g) (by rw [hnum]; exact hg)
      exact ⟨b, mem_range.mpr hb, hbg⟩
    · rw [mem_range]
      exact Nat.add_lt_add_left hz _
  unfold map2group at hg
  simp only [hc, some.injEq] at hg
  subst hg
  rw [uniformLrcGroup_parity hz, fineStart_succ, fineStart_zero, glrcPayloadBlocksInGroup_eq hz,
    div_eq_of_lt hlt, mod_eq_of_lt hlt, if_neg (by omega), groupNumOfOneLocalGroup_zero]
    at hnonneg
  exact absurd hnonneg (by decide)

theorem Placeable.covers (h : Placeable cfg group)
    (hz : 0 < cfg.z) (hg : map2group cfg = some group) : Covers cfg.n (numGroups cfg group) group := by
  constructor
  · by_cases hc : cfg.codeType = .gLRC
    · have hnum : numGroups cfg group = cfg.z := if_pos hc
      unfold map2group at hg
      simp only [hc, some.injEq] at hg
      rw [hnum, ← hg]
      exact (glrc_covers hz).lt
    · have hnum : numGroups cfg group = (groupToBlocks cfg.n group).length := if_neg hc
      intro b hb
      rw [hnum]
      refine key_bounds_of_buckets (fun g hlt => ?_) b (mem_range.mpr hb)
      obtain ⟨c, hc, hcg⟩ := h.exists_block (g := g) (by rw [hnum]; exact hlt)
      exact ⟨c, mem_range.mpr hc, hcg⟩
  · intro g hlt
    exact h.exists_block hlt

/-! ## Two small configurations -/

/-- OptimalLRC with four data blocks in two local groups -/
def optimalConfig (r : ℕ) : SysConfig where
  codeType := .OptimalLRC
  appendMode := .UNILRC_MODE
  k := 4
  r := r
  z := 2
  unitSize := 1
  blockSize := 2
  clusterNum := 4
  datanodeNumPerCluster := 4

/-- the default shape of UniformLRC: eight data blocks and two global parities in two groups -/
def uniformConfig : SysConfig where
  codeType := .UniformLRC
  appendMode := .UNILRC_MODE
  k := 8
  r := 2
  z := 2
  unitSize := 1
  blockSize := 2
  clusterNum := 5
  datanodeNumPerCluster := 4

end Mlrc
