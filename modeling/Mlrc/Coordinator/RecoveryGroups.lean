import Mlrc.Coordinator.LocalEquations

/-!
# The groups a single-block recovery contacts

`get_recovery_group_ids` recomputes, for each code type, the groups that hold the local equation of
a failed block.

* `RightGroups`   the groups are distinct, exist, and are those of a local equation;
* `rightGroups_iff`   the same as an equality of sets of group ids;
* `EquationGroups` lemmas    the groups that hold a local equation, for each placement.
-/

namespace Mlrc

open List Nat

variable {first count k r z l : ℕ} {codeType : CodeType}

/-- the first id pushed, then the ids of `first, .., first + count - 1` that differ from it -/
def ownGroupFirst (own first count : ℕ) : List ℕ :=
  own :: (range' first count).filter (· ≠ own)

/-- the last of `first, .., first + count - 1`, then the others -/
def lastGroupFirst (first count : ℕ) : List ℕ :=
  (first + count - 1) :: range' first (count - 1)

/-- `get_recovery_group_ids`, for local groups with at least one piece -/
def getRecoveryGroupIds (codeType : CodeType) (k r z failedBlockId : ℕ) : List ℕ :=
  match codeType with
  | .AzureLRC =>
    if k ≤ failedBlockId ∧ failedBlockId < k + r then range' 1 z
    else if k + r ≤ failedBlockId then [failedBlockId - k - r]
    else [failedBlockId / (k / z)]
  | .UniLRC =>
    if k ≤ failedBlockId ∧ failedBlockId < k + r then [(failedBlockId - k) / (r / z)]
    else if k + r ≤ failedBlockId then [failedBlockId - k - r]
    else [failedBlockId / (k / z)]
  | .OptimalLRC =>
    if k ≤ failedBlockId ∧ failedBlockId < k + r then
      let groupNum := groupNumOfOneLocalGroup (k / z) (r + 1) * z + 1
      (groupNum - 1) :: range (groupNum / z)
    else if k + r ≤ failedBlockId then
      let localGroupId := failedBlockId - k - r
      let groupNumOfOne := k / z / (r + 1) + 1
      let groupNum := z * groupNumOfOne + 1
      lastGroupFirst (localGroupId * groupNumOfOne) groupNumOfOne ++ [groupNum - 1]
    else
      let localGroupSize := k / z
      let groupNumOfOne := localGroupSize / (r + 1) + 1
      let localGroupId := failedBlockId / localGroupSize
      let groupIdInLocalGroup := failedBlockId % localGroupSize / (r + 1)
      let groupNum := z * groupNumOfOne + 1
      ownGroupFirst (localGroupId * groupNumOfOne + groupIdInLocalGroup)
        (localGroupId * groupNumOfOne) groupNumOfOne ++ [groupNum - 1]
  | .gLRC =>
    if failedBlockId < k + r then [glrcPayloadGroupId failedBlockId k r z]
    else [failedBlockId - k - r]
  | .UniformLRC =>
    let largerLocalGroupNum := (k + r) % z
    let smallerLocalGroupNum := z - largerLocalGroupNum
    let localGroupSize := (k + r) / z
    -- pieces of `r` blocks, where the placement makes pieces of `r + 1`
    let groupNumOfOne := groupNumOfOneLocalGroup localGroupSize r
    let groupNumOfSmaller := smallerLocalGroupNum * groupNumOfOne
    if k + r ≤ failedBlockId then
      let localGroupId := failedBlockId - k - r
      if localGroupId + largerLocalGroupNum < z then
        lastGroupFirst (localGroupId * groupNumOfOne) groupNumOfOne
      else
        let groupNumOfOne := groupNumOfOneLocalGroup (localGroupSize + 1) r
        let localGroupId := localGroupId - smallerLocalGroupNum
        lastGroupFirst (groupNumOfSmaller + localGroupId * groupNumOfOne) groupNumOfOne
    else
      let blockNumOfSmaller := smallerLocalGroupNum * localGroupSize
      if failedBlockId < blockNumOfSmaller then
        let localGroupId := failedBlockId / localGroupSize
        let groupId := localGroupId * groupNumOfOne +
          (failedBlockId - localGroupId * localGroupSize) / r
        ownGroupFirst groupId (localGroupId * groupNumOfOne) groupNumOfOne
      else
        let localGroupSize := localGroupSize + 1
        let groupNumOfOne := groupNumOfOneLocalGroup localGroupSize r
        let localGroupId := (failedBlockId - blockNumOfSmaller) / localGroupSize
        let groupId := localGroupId * groupNumOfOne +
          (failedBlockId - (localGroupId * localGroupSize + blockNumOfSmaller)) / r
        (ownGroupFirst groupId (localGroupId * groupNumOfOne) groupNumOfOne).map
          (· + groupNumOfSmaller)

/-! ## The ids as sets -/

/-- the ids are those of an interval, each once -/
def Spans (ids : List ℕ) (first count : ℕ) : Prop :=
  ids.Nodup ∧ ∀ g, g ∈ ids ↔ first ≤ g ∧ g < first + count

theorem ownGroupFirst_spans {own : ℕ} (h : first ≤ own ∧ own < first + count) :
    Spans (ownGroupFirst own first count) first count := by
  unfold ownGroupFirst
  refine ⟨nodup_cons.mpr ⟨fun hmem => ?_, List.Nodup.filter _ nodup_range'⟩, fun g => ?_⟩
  · exact of_decide_eq_true (mem_filter.mp hmem).2 rfl
  · rw [mem_cons, mem_filter, mem_range'_1, decide_eq_true_eq]
    omega

theorem lastGroupFirst_spans (first : ℕ) (h : 0 < count) :
    Spans (lastGroupFirst first count) first count := by
  unfold lastGroupFirst
  refine ⟨nodup_cons.mpr ⟨?_, nodup_range'⟩, fun g => ?_⟩
  · rw [mem_range'_1]
    omega
  · rw [mem_cons, mem_range'_1]
    omega

theorem Spans.map_add {ids : List ℕ} (h : Spans ids first count) (shift : ℕ) :
    Spans (ids.map (· + shift)) (shift + first) count := by
  refine ⟨h.1.map fun a b hab => add_right_cancel hab, fun g => ?_⟩
  simp only [List.mem_map, h.2]
  constructor
  · rintro ⟨a, ha, rfl⟩
    omega
  · exact fun hg => ⟨g - shift, by omega, by omega⟩

theorem interval_ext_iff {a m b n : ℕ} (hm : 0 < m) :
    (∀ g, (a ≤ g ∧ g < a + m) ↔ (b ≤ g ∧ g < b + n)) ↔ a = b ∧ m = n := by
  constructor
  · intro h
    have h1 := h a
    have h2 := h b
    have h3 := h (a + m - 1)
    have h4 := h (b + n - 1)
    omega
  · rintro ⟨rfl, rfl⟩ g
    exact Iff.rfl

/-! ## What the groups should be -/

/-- the ids are distinct, exist in the placement, and are the groups of a local equation of the
failed block: they hold every block with a coefficient in it, and each holds one -/
structure RightGroups (cfg : SysConfig) (group : ℕ → ℤ) (failed : ℕ) (ids : List ℕ) : Prop where
  nodup : ids.Nodup
  exist : ∀ g ∈ ids, ∃ b < cfg.n, group b = (g : ℤ)
  equation : ∃ l < cfg.z, inLocalRow cfg.codeType cfg.k cfg.r cfg.z l failed = true ∧
    (∀ b < cfg.n, localCoef cfg.codeType cfg.k cfg.r cfg.z l b ≠ 0 →
      ∃ g ∈ ids, group b = (g : ℤ)) ∧
    ∀ g ∈ ids, ∃ b < cfg.n, localCoef cfg.codeType cfg.k cfg.r cfg.z l b ≠ 0 ∧ group b = (g : ℤ)

/-- the groups with a block of local equation `l` are those with `P l` -/
def EquationGroups (cfg : SysConfig) (group : ℕ → ℤ) (P : ℕ → ℕ → Prop) : Prop :=
  ∀ l < cfg.z, ∀ g : ℤ,
    (∃ b < cfg.n, localCoef cfg.codeType cfg.k cfg.r cfg.z l b ≠ 0 ∧ group b = g) ↔
      ∃ m : ℕ, g = m ∧ P l m

theorem rightGroups_iff {cfg : SysConfig} {group : ℕ → ℤ} {P : ℕ → ℕ → Prop}
    (hP : EquationGroups cfg group P) (failed : ℕ) (ids : List ℕ) :
    RightGroups cfg group failed ids ↔ ids.Nodup ∧ ∃ l < cfg.z,
      inLocalRow cfg.codeType cfg.k cfg.r cfg.z l failed = true ∧ ∀ g, g ∈ ids ↔ P l g := by
  constructor
  · rintro ⟨hnd, -, l, hl, hin, hcov, hins⟩
    refine ⟨hnd, l, hl, hin, fun g => ⟨fun hg => ?_, fun hg => ?_⟩⟩
    · obtain ⟨m, hm, hPm⟩ := (hP l hl g).mp (hins g hg)
      rwa [Int.ofNat_inj.mp hm]
    · obtain ⟨b, hb, hcoef, hbg⟩ := (hP l hl g).mpr ⟨g, rfl, hg⟩
      obtain ⟨g', hg', hbg'⟩ := hcov b hb hcoef
      rw [hbg, Int.ofNat_inj] at hbg'
      rwa [hbg']
  · rintro ⟨hnd, l, hl, hin, hset⟩
    have hins : ∀ g ∈ ids, ∃ b < cfg.n,
        localCoef cfg.codeType cfg.k cfg.r cfg.z l b ≠ 0 ∧ group b = (g : ℤ) :=
      fun g hg => (hP l hl g).mpr ⟨g, rfl, (hset g).mp hg⟩
    refine ⟨hnd, fun g hg => ?_, l, hl, hin, fun b hb hcoef => ?_, hins⟩
    · obtain ⟨b, hb, -, hbg⟩ := hins g hg
      exact ⟨b, hb, hbg⟩
    · obtain ⟨m, hm, hPm⟩ := (hP l hl (group b)).mp ⟨b, hb, hcoef, rfl⟩
      exact ⟨m, (hset m).mpr hPm, hm⟩

theorem rightGroups_iff_row {cfg : SysConfig} {group : ℕ → ℤ} {P : ℕ → ℕ → Prop}
    (hP : EquationGroups cfg group P) {failed : ℕ}
    (hrow : ∀ m < cfg.z, inLocalRow cfg.codeType cfg.k cfg.r cfg.z m failed = true ↔ m = l)
    (ids : List ℕ) : RightGroups cfg group failed ids ↔
      ids.Nodup ∧ l < cfg.z ∧ ∀ g, g ∈ ids ↔ P l g := by
  rw [rightGroups_iff hP]
  refine and_congr_right fun _ => ⟨?_, fun ⟨hl, h⟩ => ⟨l, hl, (hrow l hl).mpr rfl, h⟩⟩
  rintro ⟨m, hm, hin, h⟩
  rw [← (hrow m hm).mp hin]
  exact ⟨hm, h⟩

/-! ## The groups of a local equation -/

section
variable {cfg : SysConfig}

theorem inLocalRow_of_localCoef {b : ℕ}
    (h : localCoef codeType k r z l b ≠ 0) : inLocalRow codeType k r z l b = true := by
  unfold localCoef at h
  by_contra hrow
  exact h (if_neg hrow)

theorem localCoef_parity_ne_zero (hr : codeType = .UniLRC → z ∣ r) (hl : l < z) :
    localCoef codeType k r z l (k + r + l) ≠ 0 := by
  rw [localCoef_parity hr hl, if_pos rfl]
  decide

theorem parity_lt (hl : l < cfg.z) : cfg.k + cfg.r + l < cfg.n :=
  Nat.add_lt_add_left hl _

theorem equationGroups_single {group : ℕ → ℤ} (hr : cfg.codeType = .UniLRC → cfg.z ∣ cfg.r)
    (hrow : ∀ l < cfg.z, ∀ b < cfg.n,
      inLocalRow cfg.codeType cfg.k cfg.r cfg.z l b = true → group b = (l : ℤ)) :
    EquationGroups cfg group fun l g => g = l := by
  intro l hl g
  constructor
  · rintro ⟨b, hb, hcoef, rfl⟩
    exact ⟨l, hrow l hl b hb (inLocalRow_of_localCoef hcoef), rfl⟩
  · rintro ⟨m, rfl, rfl⟩
    refine ⟨cfg.k + cfg.r + m, parity_lt hl, localCoef_parity_ne_zero hr hl, ?_⟩
    apply hrow m hl _ (parity_lt hl)
    exact (inLocalRow_parity hr hl m).trans (decide_eq_true rfl)

theorem unilrc_equationGroups (hc : cfg.codeType = .UniLRC) (hr : cfg.z ∣ cfg.r)
    (hr0 : 0 < cfg.r / cfg.z) :
    EquationGroups cfg (fun i => unilrcAndAzurelrcGroup .UniLRC cfg.k cfg.r cfg.z i)
      fun l g => g = l := by
  refine equationGroups_single (fun _ => hr) fun l hl b hb hrow => ?_
  rw [hc] at hrow
  unfold inLocalRow at hrow
  simp only [Bool.or_eq_true, decide_eq_true_eq] at hrow
  rw [Int.ofNat_inj]
  rcases hrow with (h | h) | rfl
  · rw [unilrcGroup_data h.1]
    exact h.2
  · rw [Nat.mul_div_assoc _ hr] at h
    obtain ⟨j, rfl⟩ := exists_add_of_le (show cfg.k ≤ b by omega)
    have hle : (l + 1) * (cfg.r / cfg.z) ≤ cfg.z * (cfg.r / cfg.z) := Nat.mul_le_mul_right _ hl
    rw [Nat.mul_div_cancel' hr, add_mul, one_mul] at hle
    rw [unilrcGroup_global (by omega), div_eq_iff_interval hr0, add_mul, one_mul]
    omega
  · exact unilrcGroup_parity hl

theorem azurelrc_equationGroups (hc : cfg.codeType = .AzureLRC) :
    EquationGroups cfg (fun i => unilrcAndAzurelrcGroup .AzureLRC cfg.k cfg.r cfg.z i)
      fun l g => g = l := by
  refine equationGroups_single (fun h => by rw [hc] at h; cases h) fun l hl b hb hrow => ?_
  rw [hc] at hrow
  unfold inLocalRow at hrow
  simp only [Bool.or_eq_true, decide_eq_true_eq] at hrow
  rw [Int.ofNat_inj]
  rcases hrow with h | rfl
  · rw [unilrcGroup_data h.1]
    exact h.2
  · exact unilrcGroup_parity hl

theorem glrc_equationGroups (hc : cfg.codeType = .gLRC) :
    EquationGroups cfg (fun i => glrcGroup cfg.k cfg.r cfg.z i) fun l g => g = l := by
  refine equationGroups_single (fun h => by rw [hc] at h; cases h) fun l hl b hb hrow => ?_
  rw [hc] at hrow
  unfold inLocalRow at hrow
  simp only [Bool.or_eq_true, decide_eq_true_eq] at hrow
  rw [Int.ofNat_inj]
  rcases hrow with h | rfl
  · rw [glrcGroup_payload h.1]
    exact h.2
  · exact glrcGroup_parity l

theorem exists_block_of_pair {group : ℕ → ℤ} {g : ℤ} (first : ℕ)
    (hc : cfg.codeType ≠ .UniLRC ∧ cfg.codeType ≠ .AzureLRC)
    (h : ∀ b, b = first ∨ b = first + 1 →
      group b = g ∧ inLocalRow cfg.codeType cfg.k cfg.r cfg.z l b = true ∧ b < cfg.n) :
    ∃ b < cfg.n, localCoef cfg.codeType cfg.k cfg.r cfg.z l b ≠ 0 ∧ group b = g := by
  have hval : ∀ b, inLocalRow cfg.codeType cfg.k cfg.r cfg.z l b = true →
      localCoef cfg.codeType cfg.k cfg.r cfg.z l b = glrcLocalBlockCoefficient b cfg.k cfg.r := by
    intro b hb
    unfold localCoef
    rw [if_pos hb]
    cases hcode : cfg.codeType with
    | UniLRC => exact absurd hcode hc.1
    | AzureLRC => exact absurd hcode hc.2
    | OptimalLRC => rfl
    | UniformLRC => rfl
    | gLRC => rfl
  obtain ⟨hg0, hrow0, hn0⟩ := h first (.inl rfl)
  obtain ⟨hg1, hrow1, hn1⟩ := h (first + 1) (.inr rfl)
  rcases localVector_pair first with hne | hne
  · exact ⟨first, hn0, hval _ hrow0 ▸ hne, hg0⟩
  · exact ⟨first + 1, hn1, hval _ hrow1 ▸ hne, hg1⟩

theorem optimal_equationGroups (hc : cfg.codeType = .OptimalLRC) (hr : 0 < cfg.r)
    (hq : 0 < cfg.k / cfg.z) :
    EquationGroups cfg (fun i => optimalLrcGroup cfg.k cfg.r cfg.z i) fun l g =>
      (l * groupNumOfOneLocalGroup (cfg.k / cfg.z) (cfg.r + 1) ≤ g ∧
        g < l * groupNumOfOneLocalGroup (cfg.k / cfg.z) (cfg.r + 1) +
          groupNumOfOneLocalGroup (cfg.k / cfg.z) (cfg.r + 1)) ∨
      g = cfg.z * groupNumOfOneLocalGroup (cfg.k / cfg.z) (cfg.r + 1) := by
  have hr' : cfg.codeType = .UniLRC → cfg.z ∣ cfg.r := fun h => by rw [hc] at h; cases h
  have hcpos := groupNumOfOneLocalGroup_pos hq (add_one_pos cfg.r)
  have hkz : cfg.z * (cfg.k / cfg.z) ≤ cfg.k := mul_div_le _ _
  have hpar : ∀ l, optimalLrcGroup cfg.k cfg.r cfg.z (cfg.k + cfg.r + l) =
      l * groupNumOfOneLocalGroup (cfg.k / cfg.z) (cfg.r + 1) +
        (groupNumOfOneLocalGroup (cfg.k / cfg.z) (cfg.r + 1) - 1) := by
    intro l
    rw [optimalLrcGroup_parity, add_mul, one_mul]
    omega
  intro l hl g
  constructor
  · rintro ⟨b, hb, hcoef, rfl⟩
    refine ⟨_, rfl, ?_⟩
    have hrow := inLocalRow_of_localCoef hcoef
    rw [hc] at hrow
    unfold inLocalRow at hrow
    simp only [Bool.or_eq_true, decide_eq_true_eq] at hrow
    rcases hrow with (⟨hbk, hbl⟩ | h) | rfl
    · have hpiece := div_lt_groupNumOfOneLocalGroup (add_one_pos cfg.r) (mod_lt b hq)
      have h0 := zero_le (b % (cfg.k / cfg.z) / (cfg.r + 1))
      rw [optimalLrcGroup_data hbk, hbl]
      omega
    · obtain ⟨j, rfl⟩ := exists_add_of_le h.1
      rw [optimalLrcGroup_global (by omega)]
      exact .inr rfl
    · rw [hpar]
      omega
  · rintro ⟨m, rfl, hm | rfl⟩
    · obtain ⟨t, rfl⟩ := exists_add_of_le hm.1
      have ht : t < groupNumOfOneLocalGroup (cfg.k / cfg.z) (cfg.r + 1) := by omega
      by_cases hlast : t + 1 = groupNumOfOneLocalGroup (cfg.k / cfg.z) (cfg.r + 1)
      · refine ⟨cfg.k + cfg.r + l, parity_lt hl, localCoef_parity_ne_zero hr' hl, ?_⟩
        rw [Int.ofNat_inj, hpar]
        omega
      · -- the piece is full, and at least two blocks wide
        have hnext := (lt_groupNumOfOneLocalGroup (add_one_pos cfg.r)).mp
          (show t + 1 < groupNumOfOneLocalGroup (cfg.k / cfg.z) (cfg.r + 1) by omega)
        have hsum : (t + 1) * (cfg.r + 1) = t * (cfg.r + 1) + (cfg.r + 1) := by ring
        have hend : (l + 1) * (cfg.k / cfg.z) = l * (cfg.k / cfg.z) + cfg.k / cfg.z := by ring
        have hle : (l + 1) * (cfg.k / cfg.z) ≤ cfg.z * (cfg.k / cfg.z) := Nat.mul_le_mul_right _ hl
        refine exists_block_of_pair (l * (cfg.k / cfg.z) + t * (cfg.r + 1))
          (by rw [hc]; decide) fun b hb => ?_
        have hbk : b < cfg.k := by omega
        refine ⟨congrArg Nat.cast (optimalLrcGroup_eq hbk hq (by omega) (by omega) (by omega)), ?_,
          hbk.trans_le (Nat.le_add_right_of_le le_self_add)⟩
        rw [hc]
        unfold inLocalRow
        simp only [Bool.or_eq_true, decide_eq_true_eq]
        exact .inl (.inl ⟨hbk, (div_eq_iff_interval hq).mpr (by omega)⟩)
    · refine ⟨cfg.k + 0, by show cfg.k + 0 < cfg.k + cfg.r + cfg.z; omega, ?_,
        congrArg Nat.cast (optimalLrcGroup_global hr)⟩
      rw [hc]
      unfold localCoef inLocalRow
      rw [if_pos (by simp only [Bool.or_eq_true, decide_eq_true_eq]; omega)]
      show glrcLocalBlockCoefficient (cfg.k + 0) cfg.k cfg.r ≠ 0
      rw [glrcLocalBlockCoefficient_parity (by omega)]
      decide

theorem uniform_equationGroups (hc : cfg.codeType = .UniformLRC) (hr : 0 < cfg.r) (hz : 0 < cfg.z)
    (hq : 0 < (cfg.k + cfg.r) / cfg.z) :
    EquationGroups cfg (uniformLrcGroup cfg.k cfg.r cfg.z) fun l g =>
      fineStart l cfg.k cfg.r cfg.z ≤ g ∧ g < fineStart l cfg.k cfg.r cfg.z +
        groupNumOfOneLocalGroup (glrcPayloadBlocksInGroup l cfg.k cfg.r cfg.z) (cfg.r + 1) := by
  have hr' : cfg.codeType = .UniLRC → cfg.z ∣ cfg.r := fun h => by rw [hc] at h; cases h
  intro l hl g
  have hsize : 0 < glrcPayloadBlocksInGroup l cfg.k cfg.r cfg.z := by
    rw [glrcPayloadBlocksInGroup_eq hl]
    omega
  have hcpos := groupNumOfOneLocalGroup_pos hsize (add_one_pos cfg.r)
  have hfine := fineStart_succ l cfg.k cfg.r cfg.z
  have hstop := payloadEnd_le cfg.k cfg.r hl
  constructor
  · rintro ⟨b, hb, hcoef, rfl⟩
    have hrow := inLocalRow_of_localCoef hcoef
    rw [hc] at hrow
    unfold inLocalRow at hrow
    simp only [Bool.or_eq_true, decide_eq_true_eq] at hrow
    rcases hrow with ⟨hbk, hbl⟩ | rfl
    · rw [glrcPayloadGroupId_eq_iff hz hbk, payloadStart_succ] at hbl
      obtain ⟨j, rfl⟩ := exists_add_of_le hbl.1
      have hj : j < glrcPayloadBlocksInGroup l cfg.k cfg.r cfg.z := by omega
      have hpiece := div_lt_groupNumOfOneLocalGroup (add_one_pos cfg.r) hj
      exact ⟨_, uniformLrcGroup_payload hl hj, le_self_add, Nat.add_lt_add_left hpiece _⟩
    · refine ⟨fineStart (l + 1) cfg.k cfg.r cfg.z - 1, ?_, by omega⟩
      rw [uniformLrcGroup_parity hl]
      omega
  · rintro ⟨m, rfl, hm⟩
    obtain ⟨t, rfl⟩ := exists_add_of_le hm.1
    by_cases hlast : t + 1 =
        groupNumOfOneLocalGroup (glrcPayloadBlocksInGroup l cfg.k cfg.r cfg.z) (cfg.r + 1)
    · refine ⟨cfg.k + cfg.r + l, parity_lt hl, localCoef_parity_ne_zero hr' hl, ?_⟩
      rw [uniformLrcGroup_parity hl, hfine, ← hlast]
      push_cast
      omega
    · -- the piece is full, and at least two blocks wide
      have hnext := (lt_groupNumOfOneLocalGroup (add_one_pos cfg.r)).mp
        (show t + 1 < groupNumOfOneLocalGroup (glrcPayloadBlocksInGroup l cfg.k cfg.r cfg.z)
          (cfg.r + 1) by omega)
      have hsum : (t + 1) * (cfg.r + 1) = t * (cfg.r + 1) + (cfg.r + 1) := by ring
      refine exists_block_of_pair (payloadStart l cfg.k cfg.r cfg.z + t * (cfg.r + 1))
        (by rw [hc]; decide) fun b hb => ?_
      obtain ⟨j, rfl⟩ := exists_add_of_le (show payloadStart l cfg.k cfg.r cfg.z ≤ b by omega)
      have hjs : j < glrcPayloadBlocksInGroup l cfg.k cfg.r cfg.z := by omega
      have hdiv : j / (cfg.r + 1) = t := by
        rw [div_eq_iff_interval (add_one_pos cfg.r)]
        omega
      have hlt : payloadStart l cfg.k cfg.r cfg.z + j < cfg.k + cfg.r := by omega
      refine ⟨?_, ?_, hlt.trans_le le_self_add⟩
      · rw [uniformLrcGroup_payload hl hjs, hdiv]
      · rw [hc]
        unfold inLocalRow
        simp only [Bool.or_eq_true, decide_eq_true_eq]
        refine .inl ⟨hlt, ?_⟩
        rw [glrcPayloadGroupId_eq_iff hz hlt, payloadStart_succ]
        omega

end

end Mlrc
