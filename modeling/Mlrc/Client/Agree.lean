import Mlrc.Client.Counts

/-!
# The count formulas of OptimalLRC and UniformLRC

* `optimalShape_of`   the groups of an OptimalLRC placement;
* `optimal_agrees_iff`   its formulas count one piece too many when `r + 1` divides `k / z`;
* `uniform_agrees_iff`   the formulas of UniformLRC fit only when the last local group is exactly
  the global parities;
* `layout_tables_agree_iff`   both, for every accepted configuration.
-/

namespace Mlrc

open List Nat

section
variable {cfg : SysConfig} {group : ℕ → ℤ} {g : ℕ}

/-- the client's counts are, group by group, those of the placement -/
structure LayoutAgrees (cfg : SysConfig) (group : ℕ → ℤ) : Prop where
  data : getDataBlockNumPerGroup cfg.codeType cfg.k cfg.r cfg.z =
    (range (numGroups cfg group)).map (groupDataNum cfg group)
  global : getGlobalParityBlockNumPerGroup cfg.codeType cfg.k cfg.r cfg.z =
    (range (numGroups cfg group)).map (groupGlobalNum cfg group)
  parity : getLocalParityBlockNumPerGroup cfg.codeType cfg.k cfg.r cfg.z =
    (range (numGroups cfg group)).map (groupLocalNum cfg group)

theorem map_range_concat_eq_iff {f h : ℕ → ℕ} {x m : ℕ} :
    (range m).map f ++ [x] = (range (m + 1)).map h ↔ (∀ g < m, f g = h g) ∧ x = h m := by
  rw [range_succ, map_append, map_singleton]
  constructor
  · intro heq
    obtain ⟨hinner, hlast⟩ := append_inj' heq rfl
    exact ⟨fun g hg => map_inj_left.mp hinner g (mem_range.mpr hg), (cons.inj hlast).1⟩
  · rintro ⟨hinner, rfl⟩
    rw [map_congr_left fun g hg => hinner g (mem_range.mp hg)]

/-- for groups of known shapes, and tables that list the last group apart -/
theorem layoutAgrees_iff {m : ℕ} (hn : numGroups cfg group = m + 1) (shape : ℕ → GroupShape)
    (hs : ∀ g ≤ m, (shape g).Of cfg group g) {d e p : ℕ → ℕ} {d' e' p' : ℕ}
    (hd : getDataBlockNumPerGroup cfg.codeType cfg.k cfg.r cfg.z = (range m).map d ++ [d'])
    (he : getGlobalParityBlockNumPerGroup cfg.codeType cfg.k cfg.r cfg.z = (range m).map e ++ [e'])
    (hp : getLocalParityBlockNumPerGroup cfg.codeType cfg.k cfg.r cfg.z = (range m).map p ++ [p']) :
    LayoutAgrees cfg group ↔
      (∀ g < m, d g = (shape g).dataNum ∧ e g = (shape g).globalNum ∧ p g = (shape g).localNum) ∧
      d' = (shape m).dataNum ∧ e' = (shape m).globalNum ∧ p' = (shape m).localNum := by
  have hnums := fun g hg => (⟨(hs g hg).dataNum_eq, (hs g hg).globalNum_eq, (hs g hg).localNum_eq⟩ :
    groupDataNum cfg group g = _ ∧ groupGlobalNum cfg group g = _ ∧ groupLocalNum cfg group g = _)
  obtain ⟨h1, h2, h3⟩ := hnums m le_rfl
  constructor
  · rintro ⟨hdata, hglobal, hlocal⟩
    rw [hd, hn, map_range_concat_eq_iff, h1] at hdata
    rw [he, hn, map_range_concat_eq_iff, h2] at hglobal
    rw [hp, hn, map_range_concat_eq_iff, h3] at hlocal
    refine ⟨fun g hg => ?_, hdata.2, hglobal.2, hlocal.2⟩
    obtain ⟨hg1, hg2, hg3⟩ := hnums g hg.le
    exact ⟨hg1 ▸ hdata.1 g hg, hg2 ▸ hglobal.1 g hg, hg3 ▸ hlocal.1 g hg⟩
  · rintro ⟨hinner, hd', he', hp'⟩
    constructor
    · rw [hd, hn, map_range_concat_eq_iff, h1]
      exact ⟨fun g hg => (hinner g hg).1.trans (hnums g hg.le).1.symm, hd'⟩
    · rw [he, hn, map_range_concat_eq_iff, h2]
      exact ⟨fun g hg => (hinner g hg).2.1.trans (hnums g hg.le).2.1.symm, he'⟩
    · rw [hp, hn, map_range_concat_eq_iff, h3]
      exact ⟨fun g hg => (hinner g hg).2.2.trans (hnums g hg.le).2.2.symm, hp'⟩

/-! ## OptimalLRC -/

theorem piece_iff {i q s l t : ℕ} (hq : 0 < q) (hs : 0 < s) : i / q = l ∧ i % q / s = t ↔
      l * q + t * s ≤ i ∧ i < min (l * q + (t + 1) * s) ((l + 1) * q) := by
  have hdm := div_add_mod i q
  have hlt := mod_lt i hq
  rw [Nat.div_eq_iff hs, add_mul t, one_mul]
  constructor
  · rintro ⟨rfl, h1, h2⟩
    rw [add_mul, one_mul, mul_comm (i / q)]
    omega
  · rintro ⟨h1, h2⟩
    have hl : i / q = l := by
      rw [div_eq_iff_interval hq]
      omega
    rw [hl, mul_comm q] at hdm
    exact ⟨hl, by omega, by omega⟩

/-- piece `g % c` of local group `g / c`, where a local group has `c` pieces; the local groups from
`z` on hold the blocks behind `z * (k / z)` -/
def optimalShape (k r z g : ℕ) : GroupShape :=
  let c := groupNumOfOneLocalGroup (k / z) (r + 1)
  { dataStart := g / c * (k / z) + g % c * (r + 1)
    dataEnd := min (min (g / c * (k / z) + (g % c + 1) * (r + 1)) ((g / c + 1) * (k / z))) k
    globalStart := k
    globalEnd := if g = z * c then k + r else k
    localStart := if g / c < z then k + r + g / c else k + r
    localEnd := if g / c < z ∧ g % c + 1 = c then k + r + g / c + 1
      else if g / c < z then k + r + g / c else k + r }

theorem optimalShape_of (hk0 : 0 < cfg.k / cfg.z) (g : ℕ) :
    (optimalShape cfg.k cfg.r cfg.z g).Of cfg (fun i => optimalLrcGroup cfg.k cfg.r cfg.z i) g := by
  have hn : cfg.n = cfg.k + cfg.r + cfg.z := rfl
  have hcpos : 0 < groupNumOfOneLocalGroup (cfg.k / cfg.z) (cfg.r + 1) :=
    groupNumOfOneLocalGroup_pos hk0 (add_one_pos _)
  have hdm := div_add_mod g (groupNumOfOneLocalGroup (cfg.k / cfg.z) (cfg.r + 1))
  unfold optimalShape
  generalize hc : groupNumOfOneLocalGroup (cfg.k / cfg.z) (cfg.r + 1) = c at *
  have hg0 := zero_le (g / c)
  refine ⟨min_le_right _ _, le_rfl, ?_, ?_, ?_, ?_, ?_, ?_⟩
  · show (if g = cfg.z * c then _ else _) ≤ _
    split <;> omega
  · show _ ≤ if g / c < cfg.z then _ else _
    split <;> omega
  · show (if g / c < cfg.z ∧ g % c + 1 = c then _ else if g / c < cfg.z then _ else _) ≤ _
    split
    · omega
    · split <;> omega
  · intro i hi
    have ht : i % (cfg.k / cfg.z) / (cfg.r + 1) < c := by
      rw [← hc]
      exact div_lt_groupNumOfOneLocalGroup (add_one_pos _) (mod_lt i hk0)
    -- a group id is the local group and the piece in it
    have hdigits : i % (cfg.k / cfg.z) / (cfg.r + 1) + i / (cfg.k / cfg.z) * c = g ↔
        i / (cfg.k / cfg.z) = g / c ∧ i % (cfg.k / cfg.z) / (cfg.r + 1) = g % c := by
      constructor
      · rintro rfl
        rw [add_mul_div_right _ _ hcpos, div_eq_of_lt ht, zero_add,
          add_mul_mod_self_right, mod_eq_of_lt ht]
        exact ⟨rfl, rfl⟩
      · rintro ⟨h1, h2⟩
        rw [h1, h2, mul_comm, add_comm]
        exact hdm
    rw [optimalLrcGroup_data hi, hc, Int.ofNat_inj, hdigits, piece_iff hk0 (add_one_pos _)]
    show _ ↔ g / c * (cfg.k / cfg.z) + g % c * (cfg.r + 1) ≤ i ∧ i < min (min _ _) cfg.k
    omega
  · intro l hl
    rw [optimalLrcGroup_global hl, hc, Int.ofNat_inj]
    show _ ↔ cfg.k ≤ cfg.k + l ∧ cfg.k + l < if g = cfg.z * c then cfg.k + cfg.r else cfg.k
    split <;> omega
  · intro h hh
    have hpar : (h + 1) * c - 1 = g ↔ g / c = h ∧ g % c + 1 = c := by
      rw [add_mul, one_mul]
      constructor
      · intro hg
        obtain rfl : g = h * c + (c - 1) := by omega
        rw [add_comm, add_mul_div_right _ _ hcpos, div_eq_of_lt (by omega),
          add_mul_mod_self_right, mod_eq_of_lt (by omega)]
        omega
      · rintro ⟨h1, h2⟩
        rw [h1, mul_comm] at hdm
        omega
    rw [optimalLrcGroup_parity, hc, Int.ofNat_inj, hpar]
    show _ ↔ (if g / c < cfg.z then _ else _) ≤ cfg.k + cfg.r + h ∧ cfg.k + cfg.r + h <
      if g / c < cfg.z ∧ g % c + 1 = c then _ else if g / c < cfg.z then _ else _
    by_cases h1 : g / c < cfg.z
    · by_cases h2 : g % c + 1 = c
      · rw [if_pos h1, if_pos ⟨h1, h2⟩]
        omega
      · rw [if_pos h1, if_neg (fun h => h2 h.2)]
        omega
    · rw [if_neg h1, if_neg (fun h => h1 h.1)]
      omega

theorem optimalShape_inner {k r z : ℕ} (hk : z ∣ k)
    (hg : g < z * groupNumOfOneLocalGroup (k / z) (r + 1)) : optimalShape k r z g =
      let c := groupNumOfOneLocalGroup (k / z) (r + 1)
      { dataStart := g / c * (k / z) + g % c * (r + 1)
        dataEnd := min (g / c * (k / z) + (g % c + 1) * (r + 1)) ((g / c + 1) * (k / z))
        globalStart := k
        globalEnd := k
        localStart := k + r + g / c
        localEnd := if g % c + 1 = c then k + r + g / c + 1 else k + r + g / c } := by
  have hkz : z * (k / z) = k := Nat.mul_div_cancel' hk
  unfold optimalShape
  simp only
  generalize groupNumOfOneLocalGroup (k / z) (r + 1) = c at *
  have hlt : g / c < z := Nat.div_lt_of_lt_mul (by rw [mul_comm]; omega)
  have hle : (g / c + 1) * (k / z) ≤ z * (k / z) := mul_le_mul_right _ hlt
  simp only [hlt, true_and, if_true]
  rw [min_eq_left (le_trans (min_le_right _ _) (hle.trans hkz.le)), if_neg hg.ne]

theorem optimalShape_last {k r z : ℕ} (hk : z ∣ k) (hk0 : 0 < k / z) :
    optimalShape k r z (z * groupNumOfOneLocalGroup (k / z) (r + 1)) = globalShape k r := by
  have hkz : z * (k / z) = k := Nat.mul_div_cancel' hk
  have hcpos := groupNumOfOneLocalGroup_pos hk0 (add_one_pos r)
  unfold optimalShape
  simp only
  generalize groupNumOfOneLocalGroup (k / z) (r + 1) = c at *
  simp only [Nat.mul_div_cancel _ hcpos, mul_mod_left, hkz, lt_irrefl, false_and, if_false, if_true,
    zero_mul, add_zero, add_mul, one_mul]
  rw [min_eq_right (by omega)]
  rfl

theorem succ_mod_eq_zero_iff {g c : ℕ} (hc : 0 < c) : (g + 1) % c = 0 ↔ g % c + 1 = c := by
  have hlt := mod_lt g hc
  rw [← mod_add_mod]
  rcases lt_or_eq_of_le (show g % c + 1 ≤ c from hlt) with h | h
  · rw [mod_eq_of_lt h]
    omega
  · rw [h, mod_self]
    exact ⟨fun _ => rfl, fun _ => rfl⟩

theorem optimal_numGroups (hc : cfg.codeType = .OptimalLRC) (hl : cfg.Loaded) (hz : 0 < cfg.z)
    (hk : cfg.z ∣ cfg.k) : numGroups cfg (fun i => optimalLrcGroup cfg.k cfg.r cfg.z i) =
      cfg.z * groupNumOfOneLocalGroup (cfg.k / cfg.z) (cfg.r + 1) + 1 := by
  have hk0 : 0 < cfg.k / cfg.z := div_pos (le_of_dvd hl.k_pos hk) hz
  have hm : map2group cfg = some fun i => (optimalLrcGroup cfg.k cfg.r cfg.z i : ℤ) := by
    unfold map2group
    simp only [hc]
    rw [if_neg (by omega)]
  rw [numGroups_eq hl hz (fun h => by rw [hc] at h; cases h) hm]
  unfold groupCount
  simp only [hc]
  -- the last data block comes before the global parities
  have hmono : optimalLrcGroup cfg.k cfg.r cfg.z (cfg.k - 1) <
      cfg.z * groupNumOfOneLocalGroup (cfg.k / cfg.z) (cfg.r + 1) := by
    rw [optimalLrcGroup_data (by have := hl.k_pos; omega)]
    have hdiv : (cfg.k - 1) / (cfg.k / cfg.z) < cfg.z := by
      refine Nat.div_lt_of_lt_mul ?_
      rw [mul_comm, Nat.mul_div_cancel' hk]
      have := hl.k_pos
      omega
    have hpiece : (cfg.k - 1) % (cfg.k / cfg.z) / (cfg.r + 1) <
        groupNumOfOneLocalGroup (cfg.k / cfg.z) (cfg.r + 1) :=
      div_lt_groupNumOfOneLocalGroup (add_one_pos _) (mod_lt _ hk0)
    have hstep := mul_le_mul_right (groupNumOfOneLocalGroup (cfg.k / cfg.z) (cfg.r + 1)) hdiv
    rw [succ_mul] at hstep
    omega
  exact max_eq_left (by omega)

theorem optimalShape_nums {k r z : ℕ} (hk : z ∣ k) (hmod : k / z % (r + 1) ≠ 0)
    (hg : g < z * (k / z / (r + 1) + 1)) : (optimalShape k r z g).dataNum =
        (if (g + 1) % (k / z / (r + 1) + 1) ≠ 0 then r + 1 else k / z % (r + 1)) ∧
      (optimalShape k r z g).globalNum = 0 ∧
      (optimalShape k r z g).localNum = (if (g + 1) % (k / z / (r + 1) + 1) ≠ 0 then 0 else 1) := by
  have hc : groupNumOfOneLocalGroup (k / z) (r + 1) = k / z / (r + 1) + 1 := by
    rw [groupNumOfOneLocalGroup_eq, if_neg hmod]
  rw [optimalShape_inner hk (by rwa [hc])]
  unfold GroupShape.dataNum GroupShape.globalNum GroupShape.localNum
  simp only [hc, ne_eq, succ_mod_eq_zero_iff (add_one_pos (k / z / (r + 1)))]
  have hdm := div_add_mod (k / z) (r + 1)
  have hlt := mod_lt g (add_one_pos (k / z / (r + 1)))
  generalize k / z / (r + 1) = c at *
  have hlast : (g / (c + 1) + 1) * (k / z) = g / (c + 1) * (k / z) + k / z := by ring
  have hsize : (g % (c + 1) + 1) * (r + 1) = g % (c + 1) * (r + 1) + (r + 1) := by ring
  rw [hlast, hsize]
  by_cases hend : g % (c + 1) + 1 = c + 1
  · have ht : g % (c + 1) = c := by omega
    simp only [hend, not_true_eq_false, if_true, if_false]
    have hmul : c * (r + 1) = (r + 1) * c := mul_comm _ _
    have hr := mod_lt (k / z) (add_one_pos r)
    rw [ht]
    exact ⟨by omega, by omega, by omega⟩
  · simp only [hend, not_false_eq_true, if_true, if_false]
    have hfull : (g % (c + 1) + 1) * (r + 1) ≤ c * (r + 1) :=
      mul_le_mul_right _ (by omega)
    have hmul : c * (r + 1) = (r + 1) * c := mul_comm _ _
    exact ⟨by omega, by omega, by omega⟩

theorem optimal_agrees_iff (hc : cfg.codeType = .OptimalLRC) (hl : cfg.Loaded) (hz : 0 < cfg.z)
    (hk : cfg.z ∣ cfg.k) : LayoutAgrees cfg (fun i => optimalLrcGroup cfg.k cfg.r cfg.z i) ↔
      cfg.k / cfg.z % (cfg.r + 1) ≠ 0 := by
  have hk0 : 0 < cfg.k / cfg.z := div_pos (le_of_dvd hl.k_pos hk) hz
  have hn := optimal_numGroups hc hl hz hk
  constructor
  · -- otherwise the client counts one piece too many in each local group
    intro h hmod
    have hlen := congrArg length h.data
    rw [hn, groupNumOfOneLocalGroup_eq, if_pos hmod] at hlen
    simp only [getDataBlockNumPerGroup, hc, length_append, length_map, length_range,
      length_singleton, mul_add, mul_one] at hlen
    omega
  · intro hmod
    have hcount : groupNumOfOneLocalGroup (cfg.k / cfg.z) (cfg.r + 1) =
        cfg.k / cfg.z / (cfg.r + 1) + 1 := by
      rw [groupNumOfOneLocalGroup_eq, if_neg hmod]
    have hend : optimalShape cfg.k cfg.r cfg.z (cfg.z * (cfg.k / cfg.z / (cfg.r + 1) + 1)) =
        globalShape cfg.k cfg.r := by
      rw [← hcount]
      exact optimalShape_last hk hk0
    rw [hcount] at hn
    refine (layoutAgrees_iff hn (optimalShape cfg.k cfg.r cfg.z) (fun g _ => optimalShape_of hk0 g)
      (by rw [hc]; rfl) (by rw [hc]; rfl) (by rw [hc]; rfl)).mpr ⟨fun g hg => ?_, ?_⟩
    · obtain ⟨hdata, hglobal, hlocal⟩ := optimalShape_nums hk hmod hg
      exact ⟨hdata.symm, hglobal.symm, hlocal.symm⟩
    · rw [hend]
      simp [globalShape, GroupShape.dataNum, GroupShape.globalNum, GroupShape.localNum]

/-! ## UniformLRC -/

def OnePiece (k r z : ℕ) : Prop :=
  ∀ g < z, groupNumOfOneLocalGroup (glrcPayloadBlocksInGroup g k r z) (r + 1) = 1

theorem OnePiece.fineStart_eq {k r z m : ℕ} (h : OnePiece k r z) (hm : m ≤ z) :
    fineStart m k r z = m := by
  induction m with
  | zero => exact fineStart_zero _ _ _
  | succ m ih => rw [fineStart_succ, ih (by omega), h m (by omega)]

theorem uniformShape_of (hone : OnePiece cfg.k cfg.r cfg.z) (hg : g < cfg.z) :
    (glrcShape cfg.k cfg.r cfg.z g).Of cfg (uniformLrcGroup cfg.k cfg.r cfg.z) g := by
  have hz : 0 < cfg.z := by omega
  refine glrcShape_of hg (fun i hi => ?_) fun h hh => ?_
  · obtain ⟨hl, hlo, hhi⟩ := groupId_range hz hi
    rw [payloadStart_succ] at hhi
    have hj : i - payloadStart (glrcPayloadGroupId i cfg.k cfg.r cfg.z) cfg.k cfg.r cfg.z <
        glrcPayloadBlocksInGroup (glrcPayloadGroupId i cfg.k cfg.r cfg.z) cfg.k cfg.r cfg.z := by
      omega
    have hval := uniformLrcGroup_payload hl hj
    have hzero := div_lt_groupNumOfOneLocalGroup (add_one_pos cfg.r) hj
    rw [hone _ hl, lt_one_iff] at hzero
    rw [Nat.add_sub_cancel' hlo, hzero, hone.fineStart_eq (le_of_lt hl), add_zero] at hval
    exact hval
  · rw [uniformLrcGroup_parity hh, hone.fineStart_eq hh]
    omega

/-- the last local group is exactly the global parities, and the others have the client's size -/
def UniformFits (k r z : ℕ) : Prop := (k + r) % z ≤ 1 ∧ (k + r) / z + (k + r) % z = r

instance (k r z : ℕ) : Decidable (UniformFits k r z) := inferInstanceAs (Decidable (_ ∧ _))

theorem UniformFits.start {k r z m : ℕ} (hm : z = m + 1) (hf : UniformFits k r z) :
    m * ((k + r) / z) = k ∧ (k + r) / z ≤ r ∧ ∀ g ≤ m, payloadStart g k r z = g * ((k + r) / z) := by
  obtain ⟨hrem, hr⟩ := hf
  have hdm := div_add_mod (k + r) z
  have hmul : z * ((k + r) / z) = m * ((k + r) / z) + (k + r) / z :=
    (congrArg (· * ((k + r) / z)) hm).trans (succ_mul _ _)
  refine ⟨by omega, by omega, fun g hg => ?_⟩
  rw [payloadStart_eq (by omega)]
  omega

theorem UniformFits.onePiece {k r z m : ℕ} (hk : 0 < k) (hm : z = m + 1) (hf : UniformFits k r z) :
    0 < (k + r) / z ∧ OnePiece k r z := by
  obtain ⟨hmq, hqr, -⟩ := hf.start hm
  have hqpos : 0 < (k + r) / z := by
    by_contra h0
    rw [Nat.eq_zero_of_not_pos h0, mul_zero] at hmq
    omega
  refine ⟨hqpos, fun g hg => ?_⟩
  obtain ⟨j, hj, hjr⟩ : ∃ j, glrcPayloadBlocksInGroup g k r z = j + 1 ∧ j ≤ r := by
    rw [glrcPayloadBlocksInGroup_eq hg]
    exact ⟨_, (Nat.sub_add_cancel (by omega)).symm, by split <;> omega⟩
  rw [hj, groupNumOfOneLocalGroup_succ _ (add_one_pos _), div_eq_of_lt (by omega)]

theorem onePiece_of_fineStart {k r z : ℕ} (hq : 0 < (k + r) / z) (h : fineStart z k r z = z) :
    OnePiece k r z := by
  have hpos : ∀ g < z, 0 < groupNumOfOneLocalGroup (glrcPayloadBlocksInGroup g k r z) (r + 1) :=
    fun g hg => finePieces_pos hq hg
  -- a local group with more pieces would push the total above `z`
  have hle : ∀ m ≤ z, m ≤ fineStart m k r z := by
    intro m hm
    induction m with
    | zero => exact zero_le _
    | succ m ih =>
      rw [fineStart_succ]
      have := hpos m (by omega)
      omega
  have hrest : ∀ d m, m + d = z → fineStart m k r z + d ≤ fineStart z k r z := by
    intro d
    induction d with
    | zero => rintro m rfl; exact le_refl _
    | succ d ih =>
      intro m hm
      have hnext := ih (m + 1) (by omega)
      rw [fineStart_succ] at hnext
      have := hpos m (by omega)
      omega
  intro g hg
  have hlow := hle g (by omega)
  have hhigh := hrest (z - (g + 1)) (g + 1) (by omega)
  rw [fineStart_succ] at hhigh
  have := hpos g hg
  omega

theorem uniform_agrees_iff_of_onePiece (hc : cfg.codeType = .UniformLRC) (hr : 0 < cfg.r)
    (hz : 0 < cfg.z) (hq : 0 < (cfg.k + cfg.r) / cfg.z) (hone : OnePiece cfg.k cfg.r cfg.z) :
    LayoutAgrees cfg (uniformLrcGroup cfg.k cfg.r cfg.z) ↔ UniformFits cfg.k cfg.r cfg.z := by
  obtain ⟨m, hm⟩ : ∃ m, cfg.z = m + 1 := ⟨cfg.z - 1, (Nat.sub_add_cancel hz).symm⟩
  have hn : numGroups cfg (uniformLrcGroup cfg.k cfg.r cfg.z) = m + 1 := by
    rw [uniform_numGroups hc hz hq, hone.fineStart_eq le_rfl, hm]
  have hd : getDataBlockNumPerGroup cfg.codeType cfg.k cfg.r cfg.z =
      (range m).map (fun _ => (cfg.k + cfg.r) / cfg.z) ++ [0] := by
    simp only [getDataBlockNumPerGroup, hc, hm, Nat.add_sub_cancel]
  have he : getGlobalParityBlockNumPerGroup cfg.codeType cfg.k cfg.r cfg.z =
      (range m).map (fun _ => 0) ++ [cfg.r] := by
    simp only [getGlobalParityBlockNumPerGroup, hc, hm, Nat.add_sub_cancel]
  have hp : getLocalParityBlockNumPerGroup cfg.codeType cfg.k cfg.r cfg.z =
      (range m).map (fun _ => 1) ++ [1] := by
    simp only [getLocalParityBlockNumPerGroup, hc, hm, range_succ, map_append, map_singleton]
  have hall : payloadStart (m + 1) cfg.k cfg.r cfg.z = cfg.k + cfg.r := hm ▸ payloadStart_all hz
  rw [layoutAgrees_iff hn _ (fun g hg => uniformShape_of hone (by omega)) hd he hp]
  simp only [GroupShape.dataNum, GroupShape.globalNum, GroupShape.localNum, glrcShape, hall]
  have hdm := div_add_mod (cfg.k + cfg.r) cfg.z
  have hmul : cfg.z * ((cfg.k + cfg.r) / cfg.z) =
      m * ((cfg.k + cfg.r) / cfg.z) + (cfg.k + cfg.r) / cfg.z :=
    (congrArg (· * ((cfg.k + cfg.r) / cfg.z)) hm).trans (succ_mul _ _)
  constructor
  · rintro ⟨hinner, hdata, hglobal, -⟩
    have hlast : payloadStart m cfg.k cfg.r cfg.z = cfg.k := by omega
    have hlt := mod_lt (cfg.k + cfg.r) hz
    -- the group before the last one has the smaller size
    have hrem : (cfg.k + cfg.r) % cfg.z ≤ 1 := by
      by_contra hgt
      obtain ⟨j, rfl⟩ : ∃ j, m = j + 1 := ⟨m - 1, by omega⟩
      have hbefore := (hinner j (by omega)).1
      rw [hlast] at hbefore
      rw [payloadStart_succ, glrcPayloadBlocksInGroup_eq (by omega), if_pos (by omega)] at hlast
      omega
    rw [payloadStart_eq (by omega)] at hlast
    exact ⟨hrem, by omega⟩
  · intro hf
    obtain ⟨hmq, -, hstart⟩ := hf.start hm
    refine ⟨fun g hg => ?_, ?_⟩
    · have hle : (g + 1) * ((cfg.k + cfg.r) / cfg.z) ≤ m * ((cfg.k + cfg.r) / cfg.z) :=
        mul_le_mul_right _ hg
      rw [hstart (g + 1) hg, hstart g hg.le]
      rw [add_mul, one_mul] at hle ⊢
      omega
    · rw [hstart m le_rfl, hmq]
      omega

theorem LayoutAgrees.uniform_div_pos (hc : cfg.codeType = .UniformLRC) (hk : 0 < cfg.k)
    (hz : 0 < cfg.z) (h : LayoutAgrees cfg (uniformLrcGroup cfg.k cfg.r cfg.z)) :
    0 < (cfg.k + cfg.r) / cfg.z := by
  by_contra h0
  have hq := Nat.eq_zero_of_not_pos h0
  have hlt : cfg.k + cfg.r < cfg.z := lt_of_div_eq_zero hz hq
  have hmod : (cfg.k + cfg.r) % cfg.z = cfg.k + cfg.r := mod_eq_of_lt hlt
  -- the first data block is in group `0`, where the client counts none
  have hzero : groupDataNum cfg (uniformLrcGroup cfg.k cfg.r cfg.z) 0 = 0 := by
    have hlen := congrArg length h.parity
    simp only [getLocalParityBlockNumPerGroup, hc, length_map, length_range] at hlen
    have hmem : groupDataNum cfg (uniformLrcGroup cfg.k cfg.r cfg.z) 0 ∈
        getDataBlockNumPerGroup cfg.codeType cfg.k cfg.r cfg.z :=
      h.data ▸ mem_map_of_mem (mem_range.mpr (by omega))
    simp only [getDataBlockNumPerGroup, hc, hq, mem_append, List.mem_map, mem_singleton] at hmem
    rcases hmem with ⟨_, -, h⟩ | h
    · exact h.symm
    · exact h
  unfold groupDataNum at hzero
  rw [groupToBlocks, bucket_collect] at hzero
  have hstart : ∀ m, m ≤ cfg.z - (cfg.k + cfg.r) → payloadStart m cfg.k cfg.r cfg.z = 0 ∧
      fineStart m cfg.k cfg.r cfg.z = 0 := by
    intro m hm
    induction m with
    | zero => exact ⟨rfl, rfl⟩
    | succ m ih =>
      obtain ⟨hp, hf⟩ := ih (by omega)
      rw [payloadStart_succ, fineStart_succ, hp, hf, glrcPayloadBlocksInGroup_eq (by omega), hq,
        if_neg (by omega), groupNumOfOneLocalGroup_zero]
      exact ⟨rfl, rfl⟩
  obtain ⟨hp, hf⟩ := hstart _ le_rfl
  have hfirst := uniformLrcGroup_payload (k := cfg.k) (r := cfg.r) (z := cfg.z)
    (g := cfg.z - (cfg.k + cfg.r)) (j := 0) (by omega)
    (by rw [glrcPayloadBlocksInGroup_eq (by omega), if_pos (by omega)]; omega)
  rw [hp, hf, Nat.zero_div] at hfirst
  refine countP_eq_zero.mp hzero 0 ?_ (decide_eq_true hk)
  refine mem_filter.mpr ⟨mem_range.mpr ?_, decide_eq_true hfirst⟩
  show 0 < cfg.k + cfg.r + cfg.z
  omega

theorem uniform_agrees_iff (hc : cfg.codeType = .UniformLRC) (hl : cfg.Loaded) (hz : 0 < cfg.z) :
    LayoutAgrees cfg (uniformLrcGroup cfg.k cfg.r cfg.z) ↔ UniformFits cfg.k cfg.r cfg.z := by
  refine ⟨fun h => ?_, fun hf => ?_⟩
  · have hq := h.uniform_div_pos hc hl.k_pos hz
    have hlen := congrArg length h.parity
    simp only [getLocalParityBlockNumPerGroup, hc, length_map, length_range] at hlen
    have hone := onePiece_of_fineStart hq ((uniform_numGroups hc hz hq).symm.trans hlen.symm)
    exact (uniform_agrees_iff_of_onePiece hc hl.r_pos hz hq hone).mp h
  · obtain ⟨hq, hone⟩ := hf.onePiece hl.k_pos (Nat.sub_add_cancel hz).symm
    exact (uniform_agrees_iff_of_onePiece hc hl.r_pos hz hq hone).mpr hf

end

/-! ## Every accepted configuration -/

/-- when the formulas fit: the last piece of an OptimalLRC local group is not full; the last
UniformLRC local group is exactly the global parities -/
def TablesFit (cfg : SysConfig) : Prop :=
  if cfg.codeType = .OptimalLRC then cfg.k / cfg.z % (cfg.r + 1) ≠ 0
  else UniformFits cfg.k cfg.r cfg.z

instance (cfg : SysConfig) : Decidable (TablesFit cfg) :=
  inferInstanceAs (Decidable (if cfg.codeType = .OptimalLRC then cfg.k / cfg.z % (cfg.r + 1) ≠ 0
    else UniformFits cfg.k cfg.r cfg.z))

/-- **Main result.** The client's counts are those of the placement exactly when `TablesFit`. -/
theorem layout_tables_agree_iff (cfg : SysConfig) (hl : cfg.Loaded)
    (hv : validateConfig cfg = true)
    (hcode : (cfg.codeType = .OptimalLRC ∧ cfg.z ∣ cfg.k) ∨ cfg.codeType = .UniformLRC)
    (group : ℕ → ℤ) (hg : map2group cfg = some group) :
    LayoutAgrees cfg group ↔ TablesFit cfg := by
  have hz := validateConfig_z hv
  unfold TablesFit
  unfold map2group at hg
  rcases hcode with ⟨hc, hk⟩ | hc
  · rw [if_pos hc]
    simp only [hc, Option.ite_none_left_eq_some, Option.some.injEq] at hg
    obtain ⟨-, rfl⟩ := hg
    exact optimal_agrees_iff hc hl hz hk
  · rw [if_neg (by rw [hc]; decide)]
    simp only [hc, Option.some.injEq] at hg
    subst hg
    exact uniform_agrees_iff hc hl hz

theorem layout_tables_agree_two_groups :
    validateConfig (optimalConfig 2) = true ∧
      LayoutAgrees (optimalConfig 2) fun i => optimalLrcGroup 4 2 2 i :=
  ⟨by decide, (layout_tables_agree_iff (optimalConfig 2)
    ⟨by decide, by decide, nofun⟩ (by decide) (.inl ⟨rfl, by decide⟩) _ rfl).mpr
      (by decide)⟩

/-- with `r + 1` dividing `k / z` the client lists five OptimalLRC groups and the placement has
three; the UniformLRC client lists two groups of the four -/
theorem layout_tables_differ :
    (validateConfig (optimalConfig 1) = true ∧
      getDataBlockNumPerGroup .OptimalLRC 4 1 2 = [2, 0, 2, 0, 0] ∧
      (range (numGroups (optimalConfig 1) fun i => optimalLrcGroup 4 1 2 i)).map
        (groupDataNum (optimalConfig 1) fun i => optimalLrcGroup 4 1 2 i) = [2, 2, 0] ∧
      ¬ LayoutAgrees (optimalConfig 1) fun i => optimalLrcGroup 4 1 2 i) ∧
    (validateConfig uniformConfig = true ∧
      getDataBlockNumPerGroup .UniformLRC 8 2 2 = [5, 0] ∧
      (range (numGroups uniformConfig (uniformLrcGroup 8 2 2))).map
        (groupDataNum uniformConfig (uniformLrcGroup 8 2 2)) = [3, 2, 3, 0] ∧
      ¬ LayoutAgrees uniformConfig (uniformLrcGroup 8 2 2)) := by
  refine ⟨⟨by decide, by decide, by decide +kernel, fun h => ?_⟩,
    ⟨by decide, by decide, by decide +kernel, fun h => ?_⟩⟩
  · exact absurd h.data (by decide +kernel)
  · exact absurd h.data (by decide +kernel)

end Mlrc
