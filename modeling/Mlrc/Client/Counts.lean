import Mlrc.Coordinator.Layout

/-!
# Block counts per group at the client

The client cuts its buffer by counts of data blocks, global and local parities that it computes by
closed formulas, without asking the coordinator which blocks a group holds.

* `GroupShape`   a group as three intervals of block ids;
* `glrcShape_of`, `unilrcShape_of`, `azurelrcShape_of`   the groups of a placement.
-/

namespace Mlrc

open List

def getDataBlockNumPerGroup (codeType : CodeType) (k r z : ℕ) : List ℕ :=
  match codeType with
  | .AzureLRC => (range z).map (fun _ => k / z) ++ [0]
  | .OptimalLRC =>
    let groupSize := r + 1
    let localGroupSize := k / z
    let groupNum := localGroupSize / groupSize + 1
    (range (z * groupNum)).map (fun i =>
      if (i + 1) % groupNum ≠ 0 then groupSize else localGroupSize % groupSize) ++ [0]
  | .UniformLRC => (range (z - 1)).map (fun _ => (k + r) / z) ++ [0]
  | .UniLRC => (range z).map fun _ => k / z
  | .gLRC => (range z).map fun i => glrcDataBlocksInGroup i k r z

def getGlobalParityBlockNumPerGroup (codeType : CodeType) (k r z : ℕ) : List ℕ :=
  match codeType with
  | .AzureLRC => (range z).map (fun _ => 0) ++ [r]
  | .OptimalLRC =>
    let groupNum := k / z / (r + 1) + 1
    (range (z * groupNum)).map (fun _ => 0) ++ [r]
  | .UniformLRC => (range (z - 1)).map (fun _ => 0) ++ [r]
  | .UniLRC => (range z).map fun _ => r / z
  | .gLRC => (range z).map fun i => glrcGlobalBlocksInGroup i k r z

def getLocalParityBlockNumPerGroup (codeType : CodeType) (k r z : ℕ) : List ℕ :=
  match codeType with
  | .AzureLRC => (range z).map (fun _ => 1) ++ [0]
  | .OptimalLRC =>
    let groupNum := k / z / (r + 1) + 1
    (range (z * groupNum)).map (fun i => if (i + 1) % groupNum ≠ 0 then 0 else 1) ++ [0]
  | .UniformLRC => (range z).map fun _ => 1
  | .UniLRC => (range z).map fun _ => 1
  | .gLRC => (range z).map fun _ => 1

/-! ## Groups as intervals -/

/-- the blocks of a group: data blocks, global parities and local parities, each an interval -/
structure GroupShape where
  dataStart : ℕ
  dataEnd : ℕ
  globalStart : ℕ
  globalEnd : ℕ
  localStart : ℕ
  localEnd : ℕ

def GroupShape.dataNum (s : GroupShape) : ℕ := s.dataEnd - s.dataStart
def GroupShape.globalNum (s : GroupShape) : ℕ := s.globalEnd - s.globalStart
def GroupShape.localNum (s : GroupShape) : ℕ := s.localEnd - s.localStart

def GroupShape.blocks (s : GroupShape) : List ℕ :=
  range' s.dataStart s.dataNum ++ range' s.globalStart s.globalNum ++
    range' s.localStart s.localNum

/-- the shape of group `g` under a map from blocks to groups -/
structure GroupShape.Of (cfg : SysConfig) (group : ℕ → ℤ) (g : ℕ) (s : GroupShape) : Prop where
  data_le : s.dataEnd ≤ cfg.k
  global_ge : cfg.k ≤ s.globalStart
  global_le : s.globalEnd ≤ cfg.k + cfg.r
  local_ge : cfg.k + cfg.r ≤ s.localStart
  local_le : s.localEnd ≤ cfg.n
  data : ∀ i < cfg.k, group i = g ↔ s.dataStart ≤ i ∧ i < s.dataEnd
  global : ∀ l < cfg.r, group (cfg.k + l) = g ↔
    s.globalStart ≤ cfg.k + l ∧ cfg.k + l < s.globalEnd
  parity : ∀ h < cfg.z, group (cfg.k + cfg.r + h) = g ↔
    s.localStart ≤ cfg.k + cfg.r + h ∧ cfg.k + cfg.r + h < s.localEnd

section
variable {cfg : SysConfig} {group : ℕ → ℤ} {g : ℕ} {s : GroupShape}

theorem GroupShape.Of.bucket_eq (h : s.Of cfg group g) :
    bucket (groupToBlocks cfg.n group) g = s.blocks := by
  rw [groupToBlocks, bucket_collect]
  have hd := h.data_le
  have hg := h.global_ge
  have hg' := h.global_le
  have hl := h.local_ge
  have hl' := h.local_le
  have hn : cfg.n = cfg.k + cfg.r + cfg.z := rfl
  refine filter_range_intervals (by omega) (by omega) (by omega) (by omega) (by omega) h.local_le
    fun i hi => ?_
  rcases block_cases (show i < cfg.k + cfg.r + cfg.z from hi) with hik | ⟨l, hlr, rfl⟩ | ⟨m, hm, rfl⟩
  · rw [h.data i hik]
    omega
  · rw [h.global l hlr]
    omega
  · rw [h.parity m hm]
    omega

/-- the data blocks that the placement puts into group `g` -/
def groupDataNum (cfg : SysConfig) (group : ℕ → ℤ) (g : ℕ) : ℕ :=
  (bucket (groupToBlocks cfg.n group) g).countP fun b => b < cfg.k

/-- the global parities that the placement puts into group `g` -/
def groupGlobalNum (cfg : SysConfig) (group : ℕ → ℤ) (g : ℕ) : ℕ :=
  (bucket (groupToBlocks cfg.n group) g).countP fun b => cfg.k ≤ b ∧ b < cfg.k + cfg.r

/-- the local parities that the placement puts into group `g` -/
def groupLocalNum (cfg : SysConfig) (group : ℕ → ℤ) (g : ℕ) : ℕ :=
  (bucket (groupToBlocks cfg.n group) g).countP fun b => cfg.k + cfg.r ≤ b

theorem countP_range'_of_forall {p : ℕ → Prop} [DecidablePred p] {a n : ℕ}
    (h : ∀ i, a ≤ i → i < a + n → p i) : (range' a n).countP (fun i => p i) = n := by
  refine (countP_eq_length.mpr fun i hi => ?_).trans length_range'
  rw [mem_range'_1] at hi
  exact decide_eq_true (h i hi.1 hi.2)

theorem countP_range'_of_forall_not {p : ℕ → Prop} [DecidablePred p] {a n : ℕ}
    (h : ∀ i, a ≤ i → i < a + n → ¬ p i) : (range' a n).countP (fun i => p i) = 0 := by
  refine countP_eq_zero.mpr fun i hi => ?_
  rw [mem_range'_1] at hi
  rw [decide_eq_true_eq]
  exact h i hi.1 hi.2

theorem GroupShape.Of.dataNum_eq (h : s.Of cfg group g) : groupDataNum cfg group g = s.dataNum := by
  have hd := h.data_le
  have hg := h.global_ge
  have hl := h.local_ge
  unfold groupDataNum
  rw [h.bucket_eq, GroupShape.blocks, countP_append, countP_append,
    countP_range'_of_forall (fun i _ hi => by unfold GroupShape.dataNum at hi; omega),
    countP_range'_of_forall_not (fun i hi _ => by omega),
    countP_range'_of_forall_not (fun i hi _ => by omega)]
  rfl

theorem GroupShape.Of.globalNum_eq (h : s.Of cfg group g) :
    groupGlobalNum cfg group g = s.globalNum := by
  have hd := h.data_le
  have hg := h.global_ge
  have hg' := h.global_le
  have hl := h.local_ge
  unfold groupGlobalNum
  rw [h.bucket_eq, GroupShape.blocks, countP_append, countP_append,
    countP_range'_of_forall_not (fun i _ hi => by unfold GroupShape.dataNum at hi; omega),
    countP_range'_of_forall (fun i hi hi' => by unfold GroupShape.globalNum at hi'; omega),
    countP_range'_of_forall_not (fun i hi _ => by omega), zero_add]
  rfl

theorem GroupShape.Of.localNum_eq (h : s.Of cfg group g) :
    groupLocalNum cfg group g = s.localNum := by
  have hd := h.data_le
  have hg' := h.global_le
  have hl := h.local_ge
  unfold groupLocalNum
  rw [h.bucket_eq, GroupShape.blocks, countP_append, countP_append,
    countP_range'_of_forall_not (fun i _ hi => by unfold GroupShape.dataNum at hi; omega),
    countP_range'_of_forall_not (fun i _ hi => by unfold GroupShape.globalNum at hi; omega),
    countP_range'_of_forall (fun i hi _ => by omega), Nat.zero_add]

/-! ## The groups of the placements -/

/-- one interval of payload blocks and the local parity of the same number -/
def glrcShape (k r z g : ℕ) : GroupShape where
  dataStart := payloadStart g k r z
  dataEnd := min (payloadStart (g + 1) k r z) k
  globalStart := max (payloadStart g k r z) k
  globalEnd := payloadStart (g + 1) k r z
  localStart := k + r + g
  localEnd := k + r + g + 1

theorem glrcShape_of (hg : g < cfg.z)
    (hpay : ∀ i < cfg.k + cfg.r, group i = (glrcPayloadGroupId i cfg.k cfg.r cfg.z : ℤ))
    (hpar : ∀ h < cfg.z, group (cfg.k + cfg.r + h) = (h : ℤ)) :
    (glrcShape cfg.k cfg.r cfg.z g).Of cfg group g := by
  have hz : 0 < cfg.z := by omega
  have hend := payloadEnd_le cfg.k cfg.r hg
  rw [← payloadStart_succ] at hend
  refine ⟨min_le_right _ _, le_max_right _ _, hend, ?_, ?_, ?_, ?_, ?_⟩
  · show cfg.k + cfg.r ≤ cfg.k + cfg.r + g
    omega
  · show cfg.k + cfg.r + g + 1 ≤ cfg.k + cfg.r + cfg.z
    omega
  · intro i hi
    rw [hpay i (by omega), Int.ofNat_inj, glrcPayloadGroupId_eq_iff hz (by omega)]
    show _ ↔ payloadStart g cfg.k cfg.r cfg.z ≤ i ∧ i < min _ cfg.k
    omega
  · intro l hl
    rw [hpay _ (by omega), Int.ofNat_inj, glrcPayloadGroupId_eq_iff hz (by omega)]
    show _ ↔ max _ cfg.k ≤ cfg.k + l ∧ cfg.k + l < payloadStart (g + 1) cfg.k cfg.r cfg.z
    omega
  · intro h hh
    rw [hpar h hh, Int.ofNat_inj]
    show _ ↔ cfg.k + cfg.r + g ≤ cfg.k + cfg.r + h ∧ cfg.k + cfg.r + h < cfg.k + cfg.r + g + 1
    omega

/-- `k / z` data blocks, `r / z` global parities and a local parity -/
def unilrcShape (k r z g : ℕ) : GroupShape where
  dataStart := g * (k / z)
  dataEnd := (g + 1) * (k / z)
  globalStart := k + g * (r / z)
  globalEnd := k + (g + 1) * (r / z)
  localStart := k + r + g
  localEnd := k + r + g + 1

theorem unilrcShape_of (hg : g < cfg.z) (hk : cfg.z ∣ cfg.k) (hr : cfg.z ∣ cfg.r)
    (hk0 : 0 < cfg.k / cfg.z) (hr0 : 0 < cfg.r / cfg.z) : (unilrcShape cfg.k cfg.r cfg.z g).Of cfg
      (fun i => unilrcAndAzurelrcGroup .UniLRC cfg.k cfg.r cfg.z i) g := by
  have hkz : (g + 1) * (cfg.k / cfg.z) ≤ cfg.k := by
    calc (g + 1) * (cfg.k / cfg.z) ≤ cfg.z * (cfg.k / cfg.z) := Nat.mul_le_mul_right _ hg
      _ = cfg.k := Nat.mul_div_cancel' hk
  have hrz : (g + 1) * (cfg.r / cfg.z) ≤ cfg.r := by
    calc (g + 1) * (cfg.r / cfg.z) ≤ cfg.z * (cfg.r / cfg.z) := Nat.mul_le_mul_right _ hg
      _ = cfg.r := Nat.mul_div_cancel' hr
  refine ⟨hkz, le_self_add, Nat.add_le_add_left hrz _, le_self_add, ?_, ?_, ?_, ?_⟩
  · show cfg.k + cfg.r + g + 1 ≤ cfg.k + cfg.r + cfg.z
    omega
  · intro i hi
    rw [unilrcGroup_data hi, Int.ofNat_inj]
    exact div_eq_iff_interval hk0
  · intro l hl
    rw [unilrcGroup_global hl, Int.ofNat_inj, div_eq_iff_interval hr0]
    show _ ↔ cfg.k + g * (cfg.r / cfg.z) ≤ cfg.k + l ∧ cfg.k + l < cfg.k + (g + 1) * (cfg.r / cfg.z)
    omega
  · intro h hh
    rw [unilrcGroup_parity hh, Int.ofNat_inj]
    show _ ↔ cfg.k + cfg.r + g ≤ cfg.k + cfg.r + h ∧ cfg.k + cfg.r + h < cfg.k + cfg.r + g + 1
    omega

def globalShape (k r : ℕ) : GroupShape := ⟨k, k, k, k + r, k + r, k + r⟩

/-- `k / z` data blocks and a local parity; data blocks behind `z * (k / z)` fill the group of the
global parities and further groups -/
def azurelrcShape (k r z g : ℕ) : GroupShape where
  dataStart := g * (k / z)
  dataEnd := min ((g + 1) * (k / z)) k
  globalStart := k
  globalEnd := if g = z then k + r else k
  localStart := if g < z then k + r + g else k + r
  localEnd := if g < z then k + r + g + 1 else k + r

theorem azurelrcShape_of (hk0 : 0 < cfg.k / cfg.z) (g : ℕ) :
    (azurelrcShape cfg.k cfg.r cfg.z g).Of cfg
      (fun i => unilrcAndAzurelrcGroup .AzureLRC cfg.k cfg.r cfg.z i) g := by
  have hn : cfg.n = cfg.k + cfg.r + cfg.z := rfl
  refine ⟨min_le_right _ _, le_rfl, ?_, ?_, ?_, ?_, ?_, ?_⟩
  · show (if g = cfg.z then _ else _) ≤ _
    split <;> omega
  · show _ ≤ if g < cfg.z then _ else _
    split <;> omega
  · show (if g < cfg.z then _ else _) ≤ _
    split <;> omega
  · intro i hi
    rw [unilrcGroup_data hi, Int.ofNat_inj, div_eq_iff_interval hk0]
    show _ ↔ g * (cfg.k / cfg.z) ≤ i ∧ i < min ((g + 1) * (cfg.k / cfg.z)) cfg.k
    omega
  · intro l hl
    rw [azurelrcGroup_global hl, Int.ofNat_inj]
    show _ ↔ cfg.k ≤ cfg.k + l ∧ cfg.k + l < if g = cfg.z then cfg.k + cfg.r else cfg.k
    split <;> omega
  · intro h hh
    rw [unilrcGroup_parity hh, Int.ofNat_inj]
    show _ ↔ (if g < cfg.z then _ else _) ≤ cfg.k + cfg.r + h ∧
      cfg.k + cfg.r + h < if g < cfg.z then _ else _
    split <;> omega

theorem azurelrcShape_inner {k z : ℕ} (r : ℕ) (hg : g < z) (hk : z ∣ k) : azurelrcShape k r z g =
    ⟨g * (k / z), (g + 1) * (k / z), k, k, k + r + g, k + r + g + 1⟩ := by
  have hle : (g + 1) * (k / z) ≤ z * (k / z) := Nat.mul_le_mul_right _ hg
  rw [Nat.mul_div_cancel' hk] at hle
  unfold azurelrcShape
  rw [min_eq_left hle, if_neg (ne_of_lt hg), if_pos hg, if_pos hg]

theorem azurelrcShape_last {k z : ℕ} (r : ℕ) (hk : z ∣ k) : azurelrcShape k r z z = globalShape k r := by
  have hkz : z * (k / z) = k := Nat.mul_div_cancel' hk
  unfold azurelrcShape
  rw [add_mul, hkz, min_eq_right (Nat.le_add_right _ _), if_pos rfl, if_neg (lt_irrefl z),
    if_neg (lt_irrefl z)]
  rfl

end

end Mlrc
