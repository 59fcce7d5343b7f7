import Mlrc.Data.Loop
import Mlrc.Data.Flat

/-!
# The balanced groups of gLRC

The `k + r` payload blocks (data, then global parities) are cut into `z` consecutive groups whose
sizes differ by at most one, the larger groups last; group `g` also holds the local parity
`k + r + g`.  Block and group ids are natural numbers, so the guards of the source against negative
ids have no counterpart.

* `payloadStart_eq`   where group `g` starts;
* `groupId_range`, `glrcPayloadGroupId_eq_iff`   `glrc_payload_group_id` finds the group;
* `getD_glrcBuildPlacementGroups`   the blocks of group `g`;
* `mem_placementGroup`   the placement groups and the group ids agree;
* `placementGroups_agree`   the placement groups and all closed forms agree.
-/

namespace Mlrc

open List Nat

variable {g b : ℕ}

def glrcPayloadBlocksInGroup (groupId k r z : ℕ) : ℕ :=
  if z = 0 ∨ z ≤ groupId then 0
  else
    let totalPayload := k + r
    let base := totalPayload / z
    let largerGroupCount := totalPayload % z
    let firstLargerGroup := z - largerGroupCount
    base + if 0 < largerGroupCount ∧ firstLargerGroup ≤ groupId then 1 else 0

def glrcPayloadGroupId (payloadBlockIndex k r z : ℕ) : ℕ :=
  let totalPayload := k + r
  if z ≤ 1 ∨ totalPayload = 0 then 0
  else if totalPayload ≤ payloadBlockIndex then z - 1
  else
    let base := totalPayload / z
    let largerGroupCount := totalPayload % z
    let smallerGroupCount := z - largerGroupCount
    let smallerPayloadCount := smallerGroupCount * base
    if 0 < base ∧ payloadBlockIndex < smallerPayloadCount then payloadBlockIndex / base
    else smallerGroupCount + (payloadBlockIndex - smallerPayloadCount) / (base + 1)

def glrcDataGroupId (dataBlockIndex k r z : ℕ) : ℕ := glrcPayloadGroupId dataBlockIndex k r z

/-- the loop that sums the payload counts of the groups before `groupId` -/
def payloadStart (groupId k r z : ℕ) : ℕ :=
  (range groupId).foldl (fun s g => s + glrcPayloadBlocksInGroup g k r z) 0

def glrcDataBlocksInGroup (groupId k r z : ℕ) : ℕ :=
  if z = 0 ∨ z ≤ groupId then 0
  else
    let payloadEnd := payloadStart groupId k r z + glrcPayloadBlocksInGroup groupId k r z
    min payloadEnd k - payloadStart groupId k r z

def glrcGlobalBlocksInGroup (groupId k r z : ℕ) : ℕ :=
  if z = 0 ∨ z ≤ groupId then 0
  else
    let payloadEnd := payloadStart groupId k r z + glrcPayloadBlocksInGroup groupId k r z
    payloadEnd - max (payloadStart groupId k r z) k

def glrcBuildPlacementGroups (k r z : ℕ) : List (List ℕ) :=
  ((range z).foldl (fun (s : ℕ × List (List ℕ)) g =>
    let payloadCount := glrcPayloadBlocksInGroup g k r z
    (s.1 + payloadCount, s.2 ++ [range' s.1 payloadCount ++ [k + r + g]])) (0, [])).2

/-! ## Where a group starts -/

section
variable {k r z : ℕ}

theorem payloadStart_zero (k r z : ℕ) : payloadStart 0 k r z = 0 := rfl

theorem payloadStart_succ (g k r z : ℕ) :
    payloadStart (g + 1) k r z = payloadStart g k r z + glrcPayloadBlocksInGroup g k r z :=
  foldl_range_succ _ _ _

theorem payloadStart_mono (k r z : ℕ) {h : ℕ} (hgh : g ≤ h) :
    payloadStart g k r z ≤ payloadStart h k r z :=
  monotone_nat_of_le_succ (f := fun g => payloadStart g k r z)
    (fun g => by rw [payloadStart_succ]; exact le_self_add) hgh

theorem glrcPayloadBlocksInGroup_eq (hg : g < z) : glrcPayloadBlocksInGroup g k r z =
      (k + r) / z + if z - (k + r) % z ≤ g then 1 else 0 := by
  have hmod : (k + r) % z < z := mod_lt _ (by omega)
  unfold glrcPayloadBlocksInGroup
  rw [if_neg (by omega)]
  simp only
  congr 1
  by_cases h : z - (k + r) % z ≤ g
  · rw [if_pos ⟨by omega, h⟩, if_pos h]
  · rw [if_neg (fun h' => h h'.2), if_neg h]

theorem payloadStart_eq (hg : g ≤ z) :
    payloadStart g k r z = g * ((k + r) / z) + (g - (z - (k + r) % z)) := by
  induction g with
  | zero => rw [payloadStart_zero]; simp
  | succ g ih =>
    rw [payloadStart_succ, ih (by omega), glrcPayloadBlocksInGroup_eq (by omega), succ_mul]
    split <;> omega

theorem payloadStart_all (hz : 0 < z) : payloadStart z k r z = k + r := by
  have hmod : (k + r) % z < z := mod_lt _ hz
  have hdiv := div_add_mod (k + r) z
  rw [payloadStart_eq le_rfl]
  omega

theorem payloadEnd_le (k r : ℕ) (hg : g < z) :
    payloadStart g k r z + glrcPayloadBlocksInGroup g k r z ≤ k + r := by
  rw [← payloadStart_succ, ← payloadStart_all (k := k) (r := r) (zero_lt_of_lt hg)]
  exact payloadStart_mono k r z hg

/-! ## The group of a payload block -/

theorem glrcPayloadGroupId_eq (hz : 0 < z) (hb : b < k + r) : glrcPayloadGroupId b k r z =
      if b < (z - (k + r) % z) * ((k + r) / z) then b / ((k + r) / z)
      else (z - (k + r) % z) + (b - (z - (k + r) % z) * ((k + r) / z)) / ((k + r) / z + 1) := by
  unfold glrcPayloadGroupId
  simp only
  by_cases hz1 : z ≤ 1
  · obtain rfl : z = 1 := by omega
    rw [if_pos (.inl hz1)]
    simp [mod_one, hb, div_eq_of_lt hb]
  · rw [if_neg (by omega), if_neg (by omega)]
    by_cases hlt : b < (z - (k + r) % z) * ((k + r) / z)
    · have hbase : 0 < (k + r) / z := by
        by_contra h0
        rw [Nat.eq_zero_of_not_pos h0, mul_zero] at hlt
        exact absurd hlt (Nat.not_lt_zero _)
      rw [if_pos ⟨hbase, hlt⟩, if_pos hlt]
    · rw [if_neg (fun h => hlt h.2), if_neg hlt]

theorem groupId_range (hz : 0 < z) (hb : b < k + r) :
    glrcPayloadGroupId b k r z < z ∧ payloadStart (glrcPayloadGroupId b k r z) k r z ≤ b ∧
      b < payloadStart (glrcPayloadGroupId b k r z + 1) k r z := by
  have hmod : (k + r) % z < z := mod_lt _ hz
  have hdiv := div_add_mod (k + r) z
  rw [glrcPayloadGroupId_eq hz hb]
  set B := (k + r) / z with hB
  set S := z - (k + r) % z with hS
  split
  · -- one of the smaller groups
    next hlt =>
    have hpos : 0 < B := Nat.pos_of_mul_pos_left (zero_lt_of_lt hlt)
    have hgS : b / B < S := Nat.div_lt_of_lt_mul (by rwa [mul_comm])
    have hlo : b / B * B ≤ b := div_mul_le_self b B
    have hhi : b < (b / B + 1) * B := (Nat.div_lt_iff_lt_mul hpos).mp (lt_succ_self _)
    refine ⟨by omega, ?_, ?_⟩
    · rw [payloadStart_eq (by omega), ← hB, ← hS]
      omega
    · rw [payloadStart_eq (by omega), ← hB, ← hS]
      omega
  · -- one of the larger groups
    next hge =>
    have hzB : z * B = S * B + (k + r) % z * B := by
      rw [← add_mul]
      congr 1
      omega
    set q := (b - S * B) / (B + 1) with hq
    have hlo : q * (B + 1) ≤ b - S * B := div_mul_le_self _ _
    have hhi : b - S * B < (q + 1) * (B + 1) :=
      (Nat.div_lt_iff_lt_mul (succ_pos B)).mp (lt_succ_self _)
    have hqL : q < (k + r) % z := by
      refine Nat.div_lt_of_lt_mul ?_
      rw [add_mul, one_mul, mul_comm B]
      omega
    rw [mul_add, mul_one, add_mul, one_mul] at hhi
    rw [mul_add, mul_one] at hlo
    clear_value q
    refine ⟨by omega, ?_, ?_⟩
    · rw [payloadStart_eq (by omega), ← hB, ← hS, add_mul]
      omega
    · rw [payloadStart_eq (by omega), ← hB, ← hS, add_mul, add_mul]
      omega

theorem glrcPayloadGroupId_lt (hz : 0 < z) (hb : b < k + r) :
    glrcPayloadGroupId b k r z < z := (groupId_range hz hb).1

theorem glrcPayloadGroupId_eq_iff (hz : 0 < z) (hb : b < k + r) :
    glrcPayloadGroupId b k r z = g ↔ payloadStart g k r z ≤ b ∧ b < payloadStart (g + 1) k r z := by
  obtain ⟨_, hlo, hhi⟩ := groupId_range hz hb
  constructor
  · rintro rfl
    exact ⟨hlo, hhi⟩
  · rintro ⟨h1, h2⟩
    rcases lt_trichotomy (glrcPayloadGroupId b k r z) g with h | h | h
    · have := payloadStart_mono k r z (show _ + 1 ≤ g from h)
      omega
    · exact h
    · have := payloadStart_mono k r z (show g + 1 ≤ _ from h)
      omega

theorem glrcPayloadGroupId_mono (hz : 0 < z) {c : ℕ} (hbc : b ≤ c) (hc : c < k + r) :
    glrcPayloadGroupId b k r z ≤ glrcPayloadGroupId c k r z := by
  obtain ⟨_, hlo, _⟩ := groupId_range hz (lt_of_le_of_lt hbc hc)
  obtain ⟨_, _, hhi⟩ := groupId_range hz hc
  by_contra hlt
  have := payloadStart_mono k r z (show _ + 1 ≤ _ from Nat.lt_of_not_le hlt)
  omega

/-! ## The placement groups -/

theorem placementGroups_loop (k r z m : ℕ) : (range m).foldl (fun (s : ℕ × List (List ℕ)) g =>
      let payloadCount := glrcPayloadBlocksInGroup g k r z
      (s.1 + payloadCount, s.2 ++ [range' s.1 payloadCount ++ [k + r + g]])) (0, []) =
    (payloadStart m k r z, (range m).map fun g =>
      range' (payloadStart g k r z) (glrcPayloadBlocksInGroup g k r z) ++ [k + r + g]) := by
  induction m with
  | zero => rfl
  | succ m ih => rw [foldl_range_succ, ih, range_succ, map_append, payloadStart_succ]; rfl

theorem glrcBuildPlacementGroups_eq (k r z : ℕ) :
    glrcBuildPlacementGroups k r z = (range z).map fun g =>
      range' (payloadStart g k r z) (glrcPayloadBlocksInGroup g k r z) ++ [k + r + g] := by
  rw [glrcBuildPlacementGroups, placementGroups_loop]

theorem glrcBuildPlacementGroups_length (k r z : ℕ) :
    (glrcBuildPlacementGroups k r z).length = z := by
  simp [glrcBuildPlacementGroups_eq]

theorem getD_glrcBuildPlacementGroups (hg : g < z) : (glrcBuildPlacementGroups k r z).getD g [] =
      range' (payloadStart g k r z) (glrcPayloadBlocksInGroup g k r z) ++ [k + r + g] := by
  rw [glrcBuildPlacementGroups_eq, getD_map_range _ hg]

theorem mem_placementGroup (hg : g < z) : b ∈ (glrcBuildPlacementGroups k r z).getD g [] ↔
      (b < k + r ∧ glrcPayloadGroupId b k r z = g) ∨ b = k + r + g := by
  have hz : 0 < z := zero_lt_of_lt hg
  have hend := payloadEnd_le k r hg
  rw [getD_glrcBuildPlacementGroups hg, mem_append, mem_range'_1, mem_singleton]
  refine or_congr_left ?_
  constructor
  · intro h
    have hb : b < k + r := by omega
    exact ⟨hb, (glrcPayloadGroupId_eq_iff hz hb).mpr (by rw [payloadStart_succ]; exact h)⟩
  · rintro ⟨hb, he⟩
    rw [glrcPayloadGroupId_eq_iff hz hb, payloadStart_succ] at he
    exact he

theorem mem_placementGroup_payload (hg : g < z) (hb : b < k + r) :
    b ∈ (glrcBuildPlacementGroups k r z).getD g [] ↔ glrcPayloadGroupId b k r z = g := by
  rw [mem_placementGroup hg]
  constructor
  · rintro (h | h)
    · exact h.2
    · omega
  · exact fun h => .inl ⟨hb, h⟩

theorem mem_placementGroup_parity {h : ℕ} (hg : g < z) :
    k + r + h ∈ (glrcBuildPlacementGroups k r z).getD g [] ↔ h = g := by
  rw [mem_placementGroup hg]
  omega

theorem placementGroup_nodup (hg : g < z) : ((glrcBuildPlacementGroups k r z).getD g []).Nodup := by
  have hend := payloadEnd_le k r hg
  rw [getD_glrcBuildPlacementGroups hg]
  refine nodup_append.mpr ⟨nodup_range', by simp, ?_⟩
  intro b hb c hc
  rw [mem_range'_1] at hb
  rw [mem_singleton] at hc
  omega

/-! ## The groups and the closed forms -/

theorem flatten_placementGroups_perm (hz : 0 < z) :
    (glrcBuildPlacementGroups k r z).flatten.Perm (range (k + r + z)) := by
  have hlocal : (range z).flatMap (fun g => [k + r + g]) = range' (k + r) z := by
    rw [← map_eq_flatMap, range_eq_range', map_add_range', add_zero]
  have hperm := flatMap_append_perm (range z) (fun g =>
    range' (payloadStart g k r z) (glrcPayloadBlocksInGroup g k r z)) fun g => [k + r + g]
  rw [flatMap_range'_consecutive (payloadStart_zero k r z) (payloadStart_succ · k r z),
    payloadStart_all hz, hlocal] at hperm
  have hrange : range (k + r + z) = range (k + r) ++ range' (k + r) z := by
    rw [range_eq_range', range_eq_range', ← range'_append_1, zero_add]
  rw [glrcBuildPlacementGroups_eq, ← flatMap_def, hrange]
  exact hperm.symm

theorem countP_range'_interval (lo hi start len : ℕ) :
    (range' start len).countP (fun b => lo ≤ b ∧ b < hi) = min (start + len) hi - max start lo := by
  induction len with
  | zero =>
    rw [range'_zero, countP_nil]
    omega
  | succ len ih =>
    rw [range'_1_concat, countP_append, ih, countP_singleton]
    by_cases h : lo ≤ start + len ∧ start + len < hi
    · rw [if_pos (decide_eq_true h)]
      omega
    · rw [if_neg (by rw [decide_eq_true_eq]; exact h)]
      omega

theorem countP_placementGroup {lo hi : ℕ} (hg : g < z) (hhi : hi ≤ k + r) :
    ((glrcBuildPlacementGroups k r z).getD g []).countP (fun b => lo ≤ b ∧ b < hi) =
      min (payloadStart (g + 1) k r z) hi - max (payloadStart g k r z) lo := by
  rw [getD_glrcBuildPlacementGroups hg, countP_append, countP_range'_interval,
    countP_singleton, if_neg (by rw [decide_eq_true_eq]; omega), add_zero,
    payloadStart_succ]

theorem glrcPayloadBlocksInGroup_last (hz : 0 < z) :
    glrcPayloadBlocksInGroup (z - 1) k r z = (k + r + z - 1) / z := by
  have hdiv := div_add_mod (k + r) z
  have hmod := mod_lt (k + r) hz
  rw [glrcPayloadBlocksInGroup_eq (by omega)]
  symm
  by_cases h0 : (k + r) % z = 0
  · rw [if_neg (by omega), add_zero]
    refine (Nat.div_eq_iff hz).mpr ?_
    rw [mul_comm]
    omega
  · rw [if_pos (by omega)]
    refine (Nat.div_eq_iff hz).mpr ?_
    rw [add_mul, one_mul, mul_comm]
    omega

theorem payloadStart_last (hz : 0 < z) :
    payloadStart (z - 1) k r z + (k + r + z - 1) / z = k + r := by
  have hlast := payloadStart_succ (z - 1) k r z
  rw [Nat.sub_add_cancel hz, payloadStart_all hz, glrcPayloadBlocksInGroup_last hz] at hlast
  exact hlast.symm

/-- the placement groups are a partition into ascending lists, and each closed form says of them
what its name says -/
structure GroupsAgree (k r z : ℕ) : Prop where
  count : (glrcBuildPlacementGroups k r z).length = z
  partition : (glrcBuildPlacementGroups k r z).flatten.Perm (range (k + r + z))
  ascending : ∀ group ∈ glrcBuildPlacementGroups k r z, group.Pairwise (· < ·)
  payload : ∀ g < z, ∀ b < k + r,
    b ∈ (glrcBuildPlacementGroups k r z).getD g [] ↔ glrcPayloadGroupId b k r z = g
  parity : ∀ g < z, ((glrcBuildPlacementGroups k r z).getD g []).getLast? = some (k + r + g)
  payload_num : ∀ g < z, ((glrcBuildPlacementGroups k r z).getD g []).countP (· < k + r) =
    glrcPayloadBlocksInGroup g k r z
  data_num : ∀ g < z, ((glrcBuildPlacementGroups k r z).getD g []).countP (· < k) =
    glrcDataBlocksInGroup g k r z
  global_num : ∀ g < z, ((glrcBuildPlacementGroups k r z).getD g []).countP
    (fun b => k ≤ b ∧ b < k + r) = glrcGlobalBlocksInGroup g k r z
  global_last : r ≤ (k + r + z - 1) / z →
    ∀ l < r, k + l ∈ (glrcBuildPlacementGroups k r z).getD (z - 1) []

/-- **Main result.** The groups of the placement and the closed forms for them agree for all
parameters with a group. -/
theorem placementGroups_agree (k r z : ℕ) (hz : 0 < z) : GroupsAgree k r z := by
  have hend : ∀ g < z, payloadStart g k r z + glrcPayloadBlocksInGroup g k r z ≤ k + r :=
    fun g hg => payloadEnd_le k r hg
  -- counting the blocks below a bound is counting an interval from `0` on
  have hbelow : ∀ g < z, ∀ hi ≤ k + r,
      ((glrcBuildPlacementGroups k r z).getD g []).countP (· < hi) =
        min (payloadStart (g + 1) k r z) hi - payloadStart g k r z := by
    intro g hg hi hhi
    have hcount : ((glrcBuildPlacementGroups k r z).getD g []).countP (fun b => 0 ≤ b ∧ b < hi) = _ :=
      countP_placementGroup hg hhi
    simp only [zero_le, true_and, Nat.max_zero] at hcount
    exact hcount
  refine ⟨glrcBuildPlacementGroups_length k r z, flatten_placementGroups_perm hz, ?_, ?_, ?_, ?_,
    ?_, ?_, ?_⟩
  · intro group hgroup
    rw [glrcBuildPlacementGroups_eq] at hgroup
    obtain ⟨g, hg, rfl⟩ := mem_map.mp hgroup
    have hle := hend g (mem_range.mp hg)
    refine pairwise_append.mpr ⟨pairwise_lt_range', pairwise_singleton _ _, ?_⟩
    intro b hb c hc
    rw [mem_range'_1] at hb
    rw [mem_singleton] at hc
    omega
  · exact fun g hg b hb => mem_placementGroup_payload hg hb
  · intro g hg
    rw [getD_glrcBuildPlacementGroups hg, getLast?_concat]
  · intro g hg
    have hle := hend g hg
    rw [hbelow g hg _ le_rfl, payloadStart_succ]
    omega
  · intro g hg
    rw [hbelow g hg k (Nat.le_add_right k r), payloadStart_succ]
    unfold glrcDataBlocksInGroup
    rw [if_neg (by omega)]
  · intro g hg
    have hle := hend g hg
    rw [countP_placementGroup hg le_rfl, payloadStart_succ]
    unfold glrcGlobalBlocksInGroup
    rw [if_neg (by omega)]
    simp only
    omega
  · intro hr l hl
    have hlast := payloadStart_last (k := k) (r := r) hz
    rw [mem_placementGroup_payload (by omega) (by omega),
      glrcPayloadGroupId_eq_iff hz (by omega), Nat.sub_add_cancel hz, payloadStart_all hz]
    omega

theorem placementGroups_agree_five_groups : GroupsAgree 7 2 5 :=
  placementGroups_agree 7 2 5 (by decide)

end

end Mlrc
