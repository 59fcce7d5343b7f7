import Mlrc.Coordinator.RecoveryGroups

/-!
# When a single-block recovery contacts the right groups

* `uniform_groups_iff`   UniformLRC recomputes pieces of `r` blocks instead of `r + 1`;
* `optimal_groups_iff`   OptimalLRC counts one piece too many when `r + 1` divides `k / z`;
* `recovery_groups_iff`   all code types, for every accepted configuration and failed block.
-/

namespace Mlrc

open List Option Nat

variable {z l failed : ℕ}

section
variable {cfg : SysConfig}

/-! ## UniformLRC: pieces of `r` against pieces of `r + 1` -/

/-- where the pieces of local group `l` start, when they hold `size` blocks each -/
def pieceStart (k r z size l : ℕ) : ℕ :=
  if l < z - (k + r) % z then l * groupNumOfOneLocalGroup ((k + r) / z) size
  else (z - (k + r) % z) * groupNumOfOneLocalGroup ((k + r) / z) size +
    (l - (z - (k + r) % z)) * groupNumOfOneLocalGroup ((k + r) / z + 1) size

/-- how many pieces local group `l` has -/
def pieceNum (k r z size l : ℕ) : ℕ :=
  if l < z - (k + r) % z then groupNumOfOneLocalGroup ((k + r) / z) size
  else groupNumOfOneLocalGroup ((k + r) / z + 1) size

theorem pieceNum_eq {k r : ℕ} (hl : l < z) (size : ℕ) :
    groupNumOfOneLocalGroup (glrcPayloadBlocksInGroup l k r z) size = pieceNum k r z size l := by
  unfold pieceNum
  rw [glrcPayloadBlocksInGroup_eq hl]
  by_cases h : l < z - (k + r) % z
  · rw [if_pos h, if_neg (by omega), add_zero]
  · rw [if_neg h, if_pos (by omega)]

theorem fineStart_eq {k r : ℕ} (hl : l ≤ z) : fineStart l k r z = pieceStart k r z (r + 1) l := by
  induction l with
  | zero =>
    rw [fineStart_zero, pieceStart]
    split
    · rw [zero_mul]
    · rw [show z - (k + r) % z = 0 by omega, Nat.zero_mul, Nat.zero_mul]
  | succ l ih =>
    rw [fineStart_succ, ih (by omega), pieceNum_eq (by omega)]
    unfold pieceStart pieceNum
    rcases lt_trichotomy (l + 1) (z - (k + r) % z) with h | h | h
    · rw [if_pos (by omega), if_pos (by omega), if_pos h, succ_mul]
    · rw [if_pos (by omega), if_pos (by omega), if_neg (by omega), ← h, Nat.sub_self, zero_mul,
        succ_mul]
      rfl
    · rw [if_neg (by omega), if_neg (by omega), if_neg (by omega),
        show l + 1 - (z - (k + r) % z) = l - (z - (k + r) % z) + 1 by omega, succ_mul,
        add_assoc]

theorem uniform_ids {k r : ℕ} (hr : 0 < r) (hz : 0 < z) (hq : 0 < (k + r) / z)
    (hf : failed < k + r + z) : Spans (getRecoveryGroupIds .UniformLRC k r z failed)
      (pieceStart k r z r (glrcGroup k r z failed)) (pieceNum k r z r (glrcGroup k r z failed)) := by
  have hmod := mod_lt (k + r) hz
  have hc : 0 < groupNumOfOneLocalGroup ((k + r) / z) r :=
    groupNumOfOneLocalGroup_pos hq hr
  have hd : 0 < groupNumOfOneLocalGroup ((k + r) / z + 1) r :=
    groupNumOfOneLocalGroup_pos (add_one_pos _) hr
  have hpiece := fun j (hj : j < (k + r) / z) => div_lt_groupNumOfOneLocalGroup hr hj
  have hpiece' := fun j (hj : j < (k + r) / z + 1) => div_lt_groupNumOfOneLocalGroup hr hj
  unfold getRecoveryGroupIds
  simp only
  by_cases hpar : k + r ≤ failed
  · -- a local parity
    obtain ⟨l, rfl⟩ := exists_add_of_le hpar
    have hl : l < z := by
      have : k + r + l < k + r + z := hf
      omega
    rw [if_pos hpar, glrcGroup_parity, show k + r + l - k - r = l by omega]
    unfold pieceStart pieceNum
    by_cases hsmall : l < z - (k + r) % z
    · rw [if_pos (by omega), if_pos hsmall, if_pos hsmall]
      exact lastGroupFirst_spans _ hc
    · rw [if_neg (by omega), if_neg hsmall, if_neg hsmall]
      exact lastGroupFirst_spans _ hd
  · have hfk : failed < k + r := by omega
    rw [if_neg hpar, glrcGroup_payload hfk]
    have hid := glrcPayloadGroupId_eq hz hfk
    by_cases hsmall : failed < (z - (k + r) % z) * ((k + r) / z)
    · -- a payload block of a smaller local group
      rw [if_pos hsmall] at hid
      have hlt : failed / ((k + r) / z) < z - (k + r) % z :=
        Nat.div_lt_of_lt_mul (by rwa [mul_comm])
      have hin := (div_eq_iff_interval hq).mp (rfl : failed / ((k + r) / z) = _)
      rw [add_mul, one_mul] at hin
      have hown := hpiece (failed - failed / ((k + r) / z) * ((k + r) / z))
        (by omega)
      rw [if_pos hsmall, hid]
      unfold pieceStart pieceNum
      rw [if_pos hlt, if_pos hlt]
      exact ownGroupFirst_spans ⟨le_self_add, Nat.add_lt_add_left hown _⟩
    · -- a payload block of a larger local group
      rw [if_neg hsmall] at hid ⊢
      generalize hb : failed - (z - (k + r) % z) * ((k + r) / z) = b at *
      have hin := (div_eq_iff_interval (add_one_pos ((k + r) / z))).mp
        (rfl : b / ((k + r) / z + 1) = _)
      rw [add_mul (b / _), one_mul] at hin
      have hown := hpiece' (failed - (b / ((k + r) / z + 1) *
        ((k + r) / z + 1) +
          (z - (k + r) % z) * ((k + r) / z))) (by omega)
      rw [hid]
      unfold pieceStart pieceNum
      rw [if_neg (not_lt.mpr le_self_add),
        if_neg (not_lt.mpr le_self_add), Nat.add_sub_cancel_left]
      exact (ownGroupFirst_spans ⟨le_self_add, Nat.add_lt_add_left hown _⟩).map_add _

/-- pieces of `r` blocks and pieces of `r + 1` blocks split the local groups alike -/
def UniformRecoveryFits (k r z failed : ℕ) : Prop :=
  groupNumOfOneLocalGroup ((k + r) / z) r = groupNumOfOneLocalGroup ((k + r) / z) (r + 1) ∧
    (z - (k + r) % z ≤ glrcGroup k r z failed →
      groupNumOfOneLocalGroup ((k + r) / z + 1) r = groupNumOfOneLocalGroup ((k + r) / z + 1) (r + 1))

instance (k r z failed : ℕ) : Decidable (UniformRecoveryFits k r z failed) :=
  inferInstanceAs (Decidable (_ ∧ (_ → _)))

theorem uniform_groups_iff (hc : cfg.codeType = .UniformLRC) (hr : 0 < cfg.r) (hz : 0 < cfg.z)
    (hq : 0 < (cfg.k + cfg.r) / cfg.z) (hf : failed < cfg.n) :
    RightGroups cfg (uniformLrcGroup cfg.k cfg.r cfg.z) failed
      (getRecoveryGroupIds .UniformLRC cfg.k cfg.r cfg.z failed) ↔
    UniformRecoveryFits cfg.k cfg.r cfg.z failed := by
  have hmod := mod_lt (cfg.k + cfg.r) hz
  obtain ⟨hnd, hids⟩ := uniform_ids hr hz hq hf
  -- the local row of the block is the one of its balanced group
  have hrow : ∀ l < cfg.z, inLocalRow cfg.codeType cfg.k cfg.r cfg.z l failed = true ↔
      l = glrcGroup cfg.k cfg.r cfg.z failed := by
    intro l hl
    rw [hc]
    unfold inLocalRow
    simp only [Bool.or_eq_true, decide_eq_true_eq]
    by_cases hfk : failed < cfg.k + cfg.r
    · rw [glrcGroup_payload hfk]
      omega
    · obtain ⟨h, rfl⟩ := Nat.exists_eq_add_of_le (Nat.le_of_not_lt hfk)
      rw [glrcGroup_parity]
      omega
  have hlt : glrcGroup cfg.k cfg.r cfg.z failed < cfg.z := by
    have := ((glrc_covers (k := cfg.k) (r := cfg.r) hz).lt failed hf).2
    omega
  rw [rightGroups_iff_row (uniform_equationGroups hc hr hz hq) hrow, and_iff_right hnd,
    and_iff_right hlt, fineStart_eq hlt.le, pieceNum_eq hlt]
  simp only [hids]
  unfold UniformRecoveryFits
  generalize glrcGroup cfg.k cfg.r cfg.z failed = l at *
  have hpos : 0 < pieceNum cfg.k cfg.r cfg.z cfg.r l := by
    unfold pieceNum
    split
    · exact groupNumOfOneLocalGroup_pos hq hr
    · exact groupNumOfOneLocalGroup_pos (add_one_pos _) hr
  rw [interval_ext_iff hpos]
  unfold pieceStart pieceNum
  by_cases hsmall : l < cfg.z - (cfg.k + cfg.r) % cfg.z
  · simp only [if_pos hsmall]
    constructor
    · exact fun h => ⟨h.2, fun hge => absurd hsmall (not_lt.mpr hge)⟩
    · exact fun h => ⟨congrArg (l * ·) h.1, h.1⟩
  · simp only [if_neg hsmall]
    constructor
    · rintro ⟨hstart, hnum⟩
      rw [hnum] at hstart
      exact ⟨Nat.eq_of_mul_eq_mul_left (by omega) (add_right_cancel hstart), fun _ => hnum⟩
    · rintro ⟨h1, h2⟩
      rw [h1, h2 (Nat.le_of_not_lt hsmall)]
      exact ⟨rfl, rfl⟩

/-! ## One group -/

theorem single_groups_iff {group : ℕ → ℤ} (hP : EquationGroups cfg group fun l g => g = l)
    (failed id : ℕ) : RightGroups cfg group failed [id] ↔
      id < cfg.z ∧ inLocalRow cfg.codeType cfg.k cfg.r cfg.z id failed = true := by
  rw [rightGroups_iff hP]
  constructor
  · rintro ⟨-, l, hl, hin, hset⟩
    obtain rfl : id = l := (hset id).mp mem_cons_self
    exact ⟨hl, hin⟩
  · rintro ⟨hl, hin⟩
    exact ⟨nodup_singleton _, id, hl, hin, fun g => mem_singleton⟩

theorem unilrc_groups (hc : cfg.codeType = .UniLRC) (hk : cfg.z ∣ cfg.k) (hr : cfg.z ∣ cfg.r)
    (hr0 : 0 < cfg.r / cfg.z) (hf : failed < cfg.n) :
    RightGroups cfg (fun i => unilrcAndAzurelrcGroup .UniLRC cfg.k cfg.r cfg.z i) failed
      (getRecoveryGroupIds .UniLRC cfg.k cfg.r cfg.z failed) := by
  have hP := unilrc_equationGroups hc hr hr0
  have hlt := (unilrc_covers hk hr).lt failed hf
  unfold getRecoveryGroupIds
  simp only
  rcases block_cases (show failed < cfg.k + cfg.r + cfg.z from hf) with h | ⟨l, hl, rfl⟩ | ⟨l, hl, rfl⟩
  · rw [if_neg (by omega), if_neg (by omega), single_groups_iff hP]
    rw [unilrcGroup_data h] at hlt
    refine ⟨Int.ofNat_lt.mp hlt.2, ?_⟩
    rw [hc]
    unfold inLocalRow
    simp [h]
  · rw [if_pos (by omega), single_groups_iff hP, Nat.add_sub_cancel_left]
    rw [unilrcGroup_global hl] at hlt
    refine ⟨Int.ofNat_lt.mp hlt.2, ?_⟩
    have hin := (div_eq_iff_interval hr0).mp (rfl : l / (cfg.r / cfg.z) = _)
    rw [add_mul, one_mul] at hin
    rw [hc]
    unfold inLocalRow
    simp only [Bool.or_eq_true, decide_eq_true_eq]
    rw [Nat.mul_div_assoc _ hr]
    omega
  · rw [if_neg (by omega), if_pos (by omega), single_groups_iff hP,
      show cfg.k + cfg.r + l - cfg.k - cfg.r = l by omega]
    exact ⟨hl, (inLocalRow_parity (fun _ => hr) hl l).trans (decide_eq_true rfl)⟩

theorem azurelrc_groups_iff (hc : cfg.codeType = .AzureLRC) (hf : failed < cfg.n)
    (hdl : failed < cfg.k ∨ cfg.k + cfg.r ≤ failed) :
    RightGroups cfg (fun i => unilrcAndAzurelrcGroup .AzureLRC cfg.k cfg.r cfg.z i) failed
      (getRecoveryGroupIds .AzureLRC cfg.k cfg.r cfg.z failed) ↔
    (failed < cfg.k → failed / (cfg.k / cfg.z) < cfg.z) := by
  have hP := azurelrc_equationGroups hc
  unfold getRecoveryGroupIds
  simp only
  rw [if_neg (by omega)]
  rcases hdl with h | h
  · rw [if_neg (by omega), single_groups_iff hP, hc]
    unfold inLocalRow
    simp [h]
  · obtain ⟨l, rfl⟩ := exists_add_of_le h
    have hl : l < cfg.z := lt_of_add_lt_add_left (show cfg.k + cfg.r + l < cfg.k + cfg.r + cfg.z from hf)
    rw [if_pos h, single_groups_iff hP, show cfg.k + cfg.r + l - cfg.k - cfg.r = l by omega]
    constructor
    · intro _ hk
      omega
    · intro _
      exact ⟨hl, (inLocalRow_parity (fun h => by rw [hc] at h; cases h) hl l).trans
        (decide_eq_true rfl)⟩

theorem glrc_groups (hc : cfg.codeType = .gLRC) (hz : 0 < cfg.z) (hf : failed < cfg.n) :
    RightGroups cfg (fun i => glrcGroup cfg.k cfg.r cfg.z i) failed
      (getRecoveryGroupIds .gLRC cfg.k cfg.r cfg.z failed) := by
  have hP := glrc_equationGroups hc
  unfold getRecoveryGroupIds
  simp only
  by_cases h : failed < cfg.k + cfg.r
  · rw [if_pos h, single_groups_iff hP, hc]
    refine ⟨glrcPayloadGroupId_lt hz h, ?_⟩
    unfold inLocalRow
    simp [h]
  · obtain ⟨l, rfl⟩ := Nat.exists_eq_add_of_le (Nat.le_of_not_lt h)
    have hl : l < cfg.z := lt_of_add_lt_add_left (show cfg.k + cfg.r + l < cfg.k + cfg.r + cfg.z from hf)
    rw [if_neg h, single_groups_iff hP, show cfg.k + cfg.r + l - cfg.k - cfg.r = l by omega]
    exact ⟨hl, (inLocalRow_parity (fun h => by rw [hc] at h; cases h) hl l).trans
      (decide_eq_true rfl)⟩

/-! ## OptimalLRC: one piece too many -/

theorem optimal_set_iff {c c' : ℕ} (hl : l < z) (hcc : c' = c ∨ c' = c + 1) :
    (∀ g, ((l * c' ≤ g ∧ g < l * c' + c') ∨ g = z * c') ↔
      ((l * c ≤ g ∧ g < l * c + c) ∨ g = z * c)) ↔ c' = c := by
  constructor
  · intro h
    rcases hcc with rfl | rfl
    · rfl
    · -- the last id is beyond every group of the placement
      exfalso
      have hlast := (h (z * (c + 1))).mp (.inr rfl)
      have hle : (l + 1) * c ≤ z * c := mul_le_mul_right c hl
      rw [add_mul, one_mul] at hle
      rw [mul_add, mul_one] at hlast
      omega
  · rintro rfl g
    exact Iff.rfl

/-- `r + 1` does not divide the size of a local group, and the block has one; a global parity needs
two local groups -/
def OptimalRecoveryFits (k r z failed : ℕ) : Prop :=
  if k ≤ failed ∧ failed < k + r then 2 ≤ z
  else k / z % (r + 1) ≠ 0 ∧ (failed < k → failed / (k / z) < z)

theorem piecesNum_ne_iff {q s : ℕ} : q / s + 1 = groupNumOfOneLocalGroup q s ↔ q % s ≠ 0 := by
  rw [groupNumOfOneLocalGroup_eq]
  split
  · rename_i h
    simp [h]
  · rename_i h
    simp [h]

theorem optimal_pieces_iff (hc : cfg.codeType = .OptimalLRC) (hr : 0 < cfg.r)
    (hq : 0 < cfg.k / cfg.z) {ids : List ℕ} {c : ℕ} (hnum : c = cfg.k / cfg.z / (cfg.r + 1) + 1)
    (hs : Spans ids (l * c) c)
    (hrow : ∀ m < cfg.z, inLocalRow cfg.codeType cfg.k cfg.r cfg.z m failed = true ↔ m = l) :
    RightGroups cfg (fun i => optimalLrcGroup cfg.k cfg.r cfg.z i) failed
        (ids ++ [cfg.z * c + 1 - 1]) ↔
      cfg.k / cfg.z % (cfg.r + 1) ≠ 0 ∧ l < cfg.z := by
  rw [rightGroups_iff_row (optimal_equationGroups hc hr hq) hrow, ← piecesNum_ne_iff, ← hnum,
    Nat.add_sub_cancel]
  have hcc : c = groupNumOfOneLocalGroup (cfg.k / cfg.z) (cfg.r + 1) ∨
      c = groupNumOfOneLocalGroup (cfg.k / cfg.z) (cfg.r + 1) + 1 := by
    rw [hnum, groupNumOfOneLocalGroup_eq]
    split
    · exact .inr rfl
    · exact .inl rfl
  simp only [mem_append, hs.2, mem_singleton]
  constructor
  · rintro ⟨-, hl, hset⟩
    exact ⟨(optimal_set_iff hl hcc).mp hset, hl⟩
  · rintro ⟨heq, hl⟩
    have hle : (l + 1) * c ≤ cfg.z * c := mul_le_mul_right c hl
    rw [add_mul, one_mul] at hle
    refine ⟨nodup_append.mpr ⟨hs.1, nodup_singleton _, fun a ha b hb => ?_⟩, hl,
      (optimal_set_iff hl hcc).mpr heq⟩
    have ha := (hs.2 a).mp ha
    have hb := mem_singleton.mp hb
    omega

theorem optimal_groups_iff (hc : cfg.codeType = .OptimalLRC) (hr : 0 < cfg.r) (hz : 0 < cfg.z)
    (hq : 0 < cfg.k / cfg.z) (hf : failed < cfg.n) :
    RightGroups cfg (fun i => optimalLrcGroup cfg.k cfg.r cfg.z i) failed
      (getRecoveryGroupIds .OptimalLRC cfg.k cfg.r cfg.z failed) ↔
    OptimalRecoveryFits cfg.k cfg.r cfg.z failed := by
  unfold getRecoveryGroupIds OptimalRecoveryFits
  simp only
  rcases block_cases (show failed < cfg.k + cfg.r + cfg.z from hf) with h | ⟨j, hj, rfl⟩ | ⟨l, hl, rfl⟩
  · -- a data block
    rw [if_neg (by omega), if_neg (by omega), if_neg (by omega)]
    have hown : failed % (cfg.k / cfg.z) / (cfg.r + 1) < cfg.k / cfg.z / (cfg.r + 1) + 1 := by
      have := Nat.div_le_div_right (c := cfg.r + 1) (le_of_lt (mod_lt failed hq))
      omega
    rw [optimal_pieces_iff (l := failed / (cfg.k / cfg.z)) hc hr hq rfl
      (ownGroupFirst_spans ⟨le_self_add, Nat.add_lt_add_left hown _⟩)]
    · simp [h]
    · intro m _
      rw [hc]
      unfold inLocalRow
      simp only [Bool.or_eq_true, decide_eq_true_eq]
      omega
  · -- a global parity, repaired from local group `0`
    rw [if_pos (by omega), if_pos (by omega), rightGroups_iff (optimal_equationGroups hc hr hq)]
    generalize groupNumOfOneLocalGroup (cfg.k / cfg.z) (cfg.r + 1) = c
    have hcount : (c * cfg.z + 1) / cfg.z = c + 1 / cfg.z := by
      rw [add_comm, add_mul_div_right _ _ hz, add_comm]
    rw [hcount, Nat.add_sub_cancel, mul_comm c]
    constructor
    · rintro ⟨hnd, -⟩
      by_contra hlt
      obtain hz1 : cfg.z = 1 := by omega
      have hnot := (nodup_cons.mp hnd).1
      rw [hz1, Nat.div_self one_pos, one_mul] at hnot
      exact hnot (mem_range.mpr (lt_succ_self c))
    · intro hz2
      rw [div_eq_of_lt hz2, add_zero]
      refine ⟨nodup_cons.mpr ⟨?_, nodup_range⟩, 0, hz, ?_, fun g => ?_⟩
      · rw [mem_range]
        have : 2 * c ≤ cfg.z * c := mul_le_mul_right c hz2
        omega
      · rw [hc]
        unfold inLocalRow
        simp only [Bool.or_eq_true, decide_eq_true_eq]
        omega
      · rw [mem_cons, mem_range]
        omega
  · -- a local parity
    rw [if_neg (by omega), if_pos (by omega), if_neg (by omega),
      show cfg.k + cfg.r + l - cfg.k - cfg.r = l by omega]
    rw [optimal_pieces_iff hc hr hq rfl (lastGroupFirst_spans _ (add_one_pos _)), and_iff_left hl]
    · exact ⟨fun h1 => ⟨h1, fun h => by omega⟩, And.left⟩
    · intro m _
      rw [hc]
      unfold inLocalRow
      simp only [Bool.or_eq_true, decide_eq_true_eq]
      omega

end

/-! ## Every code type -/

/-- the configurations and failed blocks for which the recomputed groups are right -/
def RecoveryFits (cfg : SysConfig) (failed : ℕ) : Prop :=
  match cfg.codeType with
  | .UniLRC => True
  | .AzureLRC => failed < cfg.k → failed / (cfg.k / cfg.z) < cfg.z
  | .OptimalLRC => OptimalRecoveryFits cfg.k cfg.r cfg.z failed
  | .UniformLRC => UniformRecoveryFits cfg.k cfg.r cfg.z failed
  | .gLRC => True

/-- **Main result.** The groups a recovery contacts are those of a local equation of the failed block
exactly when `RecoveryFits`; AzureLRC has no local equation for its global parities. -/
theorem recovery_groups_iff (cfg : SysConfig) (hl : cfg.Loaded) (hv : validateConfig cfg = true)
    (group : ℕ → ℤ) (hg : map2group cfg = some group) (hp : Placeable cfg group) (failed : ℕ)
    (hf : failed < cfg.n)
    (hazure : cfg.codeType = .AzureLRC → failed < cfg.k ∨ cfg.k + cfg.r ≤ failed) :
    RightGroups cfg group failed (getRecoveryGroupIds cfg.codeType cfg.k cfg.r cfg.z failed) ↔
      RecoveryFits cfg failed := by
  have hz := validateConfig_z hv
  have hu := hp.uniform hz hg
  unfold RecoveryFits
  unfold map2group at hg
  cases hc : cfg.codeType with
  | UniLRC =>
    simp only [hc, ite_none_left_eq_some, some.injEq] at hg
    obtain ⟨hne, rfl⟩ := hg
    obtain ⟨hk, hr⟩ := hl.unilrc_dvd hc
    have hr0 : 0 < cfg.r / cfg.z := pos_of_ne_zero fun h => hne (.inr h)
    exact iff_of_true (unilrc_groups hc hk hr hr0 hf) trivial
  | AzureLRC =>
    simp only [hc, ite_none_left_eq_some, some.injEq] at hg
    obtain ⟨-, rfl⟩ := hg
    exact azurelrc_groups_iff hc hf (hazure hc)
  | OptimalLRC =>
    simp only [hc, ite_none_left_eq_some, some.injEq] at hg
    obtain ⟨hq, rfl⟩ := hg
    exact optimal_groups_iff hc hl.r_pos hz (pos_of_ne_zero hq) hf
  | UniformLRC =>
    simp only [hc, some.injEq] at hg
    subst hg
    exact uniform_groups_iff hc hl.r_pos hz (div_pos (hu hc) hz) hf
  | gLRC =>
    simp only [hc, some.injEq] at hg
    subst hg
    exact iff_of_true (glrc_groups hc hz hf) trivial

theorem recovery_groups_optimal :
    validateConfig (optimalConfig 2) = true ∧
      RightGroups (optimalConfig 2) (fun i => optimalLrcGroup 4 2 2 i) 3 [1, 2] :=
  ⟨by decide, (recovery_groups_iff (optimalConfig 2) ⟨by decide, by decide, nofun⟩
    (by decide) _ rfl (by unfold Placeable; decide +kernel) 3 (by decide) nofun).mpr
      (by unfold RecoveryFits OptimalRecoveryFits optimalConfig; decide)⟩

/-- with `r + 1` dividing `k / z` an OptimalLRC recovery asks groups `0`, `1` and `4` of a placement
with three groups; UniformLRC recovers block `0` from three groups where its local group has two -/
theorem recovery_groups_wrong :
    (validateConfig (optimalConfig 1) = true ∧
      getRecoveryGroupIds .OptimalLRC 4 1 2 0 = [0, 1, 4] ∧
      numGroups (optimalConfig 1) (fun i => optimalLrcGroup 4 1 2 i) = 3 ∧
      ¬ RightGroups (optimalConfig 1) (fun i => optimalLrcGroup 4 1 2 i) 0
        (getRecoveryGroupIds .OptimalLRC 4 1 2 0)) ∧
    (validateConfig uniformConfig = true ∧
      getRecoveryGroupIds .UniformLRC 8 2 2 0 = [0, 1, 2] ∧
      (range 10).filter (fun b => inLocalRow .UniformLRC 8 2 2 0 b) = [0, 1, 2, 3, 4] ∧
      (range 5).map (uniformLrcGroup 8 2 2) = [0, 0, 0, 1, 1] ∧
      ¬ RightGroups uniformConfig (uniformLrcGroup 8 2 2) 0
        (getRecoveryGroupIds .UniformLRC 8 2 2 0)) := by
  refine ⟨⟨by decide, by decide, by decide +kernel, fun h => ?_⟩,
    ⟨by decide, by decide, by decide, by decide +kernel, fun h => ?_⟩⟩
  · exact absurd (h.exist 4 (by decide)) (by unfold optimalConfig; decide +kernel)
  · exact absurd (h.equation) (by unfold uniformConfig; decide +kernel)

end Mlrc
